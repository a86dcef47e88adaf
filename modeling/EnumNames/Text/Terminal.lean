/-!
# Text for terminals

A terminal takes some control characters for commands. In text that is only to be shown, these are
written as escapes; all other characters, line breaks among them, stay as they are.

* `harmless` writes a text without commands; none is left in it (`harmless_steers`).
-/

namespace EnumNames.Text

/-- Whether a terminal takes a character for (the beginning of) a command: bell, backspace, form
feed, escape, delete and the control characters above ASCII. -/
def steersTerminal (c : Char) : Bool :=
  c.toNat ∈ [0x07, 0x08, 0x0c, 0x1b, 0x7f] || (0x80 ≤ c.toNat && c.toNat ≤ 0x9f)

/-- A code below 256 in two hexadecimal digits. -/
def twoHexDigits (n : Nat) : List Char :=
  [Nat.digitChar (n / 16), Nat.digitChar (n % 16)]

/-- How one character is shown on a terminal. -/
def harmlessChar (c : Char) : List Char :=
  if !steersTerminal c then [c]
  else if c.toNat < 0x80 then ['\\', 'x'] ++ twoHexDigits c.toNat
  else ['\\', 'u', '\x7b'] ++ twoHexDigits c.toNat ++ ['\x7d']

/-- A text without commands for a terminal. -/
def harmless (s : String) : String :=
  String.ofList (s.toList.flatMap harmlessChar)

/-! ## Nothing steers the terminal -/

theorem toNat_lt_of_steersTerminal {c : Char} (h : steersTerminal c) : c.toNat < 0x100 := by
  simp only [steersTerminal, Bool.or_eq_true, decide_eq_true_eq, Bool.and_eq_true, List.mem_cons,
    List.not_mem_nil, or_false] at h
  omega

theorem all_harmlessChar_ofNat :
    ∀ n < 0x100, (harmlessChar (Char.ofNat n)).all (!steersTerminal ·) := by decide +kernel

theorem harmlessChar_steers {c d : Char} (h : d ∈ harmlessChar c) : steersTerminal d = false := by
  by_cases hc : steersTerminal c
  · have hall := all_harmlessChar_ofNat c.toNat (toNat_lt_of_steersTerminal hc)
    rw [Char.ofNat_toNat, List.all_eq_true] at hall
    simpa using hall d h
  · simp_all [harmlessChar]

theorem harmless_steers {s : String} {d : Char} (h : d ∈ (harmless s).toList) :
    steersTerminal d = false := by
  simp only [harmless, String.toList_ofList, List.mem_flatMap] at h
  obtain ⟨c, _, hd⟩ := h
  exact harmlessChar_steers hd

end EnumNames.Text
