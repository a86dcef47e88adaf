import EnumNames.Text.Quoted

/-!
# Quoted texts and what they denote

Reading undoes writing: what stands between the quotes of a text is read back as the text. This does
not depend on which characters are written as escapes, as long as quotes, backslashes and line
breaks are.

* `foldl_toDigits`: digits in a base up to sixteen make up the number they were written for.
* `Written`: the ways of writing a text between quotes; `written_encode` is the one that is used.
* `Written.decode_eq`, `decode_encode`: however it is written, a text is decoded to itself.
* `Written.backslash_of_quote`: a quote stands behind the backslash of its escape.
-/

namespace EnumNames.Text

/-! ## Digits -/

theorem hexValue?_digitChar {d : Nat} (h : d < 16) : hexValue? (Nat.digitChar d) = some d := by
  have hall : ∀ d < 16, hexValue? (Nat.digitChar d) = some d := by decide
  exact hall d h

section Digits

variable {base : Nat} (hlow : 1 < base) (hhigh : base ≤ 16)

include hlow hhigh

theorem hexValue?_of_mem_toDigits (n : Nat) :
    ∀ c ∈ Nat.toDigits base n, ∃ d < base, hexValue? c = some d := by
  induction n using Nat.strongRecOn with
  | _ n ih =>
    intro c hc
    rw [Nat.toDigits_eq_if hlow] at hc
    split at hc
    · next hn =>
      rw [List.mem_singleton] at hc
      exact ⟨n, hn, hc ▸ hexValue?_digitChar (by omega)⟩
    · next hn =>
      have hmod : n % base < base := Nat.mod_lt n (by omega)
      have hdiv : n / base < n := Nat.div_lt_self (by omega) hlow
      rw [List.mem_append, List.mem_singleton] at hc
      rcases hc with hc | hc
      · exact ih _ hdiv c hc
      · exact ⟨n % base, hmod, hc ▸ hexValue?_digitChar (by omega)⟩

theorem foldl_toDigits (n : Nat) :
    ((Nat.toDigits base n).filterMap hexValue?).foldl (fun n d => n * base + d) 0 = n := by
  induction n using Nat.strongRecOn with
  | _ n ih =>
    rw [Nat.toDigits_eq_if hlow]
    split
    · next hn =>
      rw [List.filterMap_cons_some (hexValue?_digitChar (by omega))]
      show 0 * base + n = n
      omega
    · next hn =>
      have hmod : n % base < base := Nat.mod_lt n (by omega)
      have hdiv : n / base < n := Nat.div_lt_self (by omega) hlow
      rw [List.filterMap_append, List.foldl_append, ih _ hdiv,
        List.filterMap_cons_some (hexValue?_digitChar (by omega))]
      exact Nat.div_add_mod' n base

end Digits

/-! ## The ways of writing a text -/

/-- Each character that has an escape of one letter, with the letter. -/
def letterEscapes : List (Char × Char) :=
  [('"', '"'), ('\\', '\\'), ('\n', 'n'), ('\r', 'r'), ('\t', 't'), (Char.ofNat 0, '0')]

/-- Hexadecimal digits of either case that may stand for a code point. Zeros before them do not
count, except that there are six digits at most. -/
structure IsHexCode (digits : List Char) (n : Nat) : Prop where
  exists_hexValue? : ∀ c ∈ digits, ∃ d < 16, hexValue? c = some d
  length_pos : 0 < digits.length
  length_le : digits.length ≤ 6
  foldl_eq : (digits.filterMap hexValue?).foldl (fun n d => n * 16 + d) 0 = n

/-- The ways of writing a character between quotes. -/
inductive WrittenChar (c : Char) : List Char → Prop
  | plain (h : c ∉ ['"', '\\', '\n', '\r']) : WrittenChar c [c]
  | letter {letter : Char} (h : (c, letter) ∈ letterEscapes) : WrittenChar c ['\\', letter]
  | code {digits : List Char} (h : IsHexCode digits c.toNat) :
    WrittenChar c (['\\', 'u', '\x7b'] ++ digits ++ ['\x7d'])

/-- The ways of writing a text between quotes. Each of its characters is written in any way, be it
the same at every place or not. -/
inductive Written : List Char → List Char → Prop
  | nil : Written [] []
  | cons {c : Char} {cs form inside : List Char} (h : WrittenChar c form) (hrest : Written cs inside) :
    Written (c :: cs) (form ++ inside)

theorem isHexCode_hexDigits (c : Char) : IsHexCode (hexDigits c.toNat) c.toNat where
  exists_hexValue? := hexValue?_of_mem_toDigits (by decide) (by decide) c.toNat
  length_pos := Nat.length_toDigits_pos
  length_le := by
    have hvalid : c.toNat.isValidChar := c.valid
    have hlt : c.toNat < 16 ^ 6 := by
      rcases hvalid with hlt | ⟨-, hlt⟩
      · omega
      · omega
    exact (Nat.length_toDigits_le_iff (by decide) (by decide)).2 hlt
  foldl_eq := foldl_toDigits (by decide) (by decide) c.toNat

theorem written_encodeChar (c : Char) : WrittenChar c (encodeChar c) := by
  unfold encodeChar
  split
  · next h => exact .letter (by simp [letterEscapes, h])
  next hquote =>
  split
  · next h => exact .letter (by simp [letterEscapes, h])
  next hbackslash =>
  split
  · next h => exact .letter (by simp [letterEscapes, h])
  next hlineFeed =>
  split
  · next h => exact .letter (by simp [letterEscapes, h])
  next hreturn =>
  split
  · next h => exact .letter (by simp [letterEscapes, h])
  split
  · next h =>
    have hc : c = Char.ofNat 0 := by rw [← h, Char.ofNat_toNat]
    exact .letter (by simp [letterEscapes, hc])
  split
  · exact .plain (by simp [hquote, hbackslash, hlineFeed, hreturn])
  · exact .code (isHexCode_hexDigits c)

theorem written_encode (cs : List Char) : Written cs (encode cs) := by
  unfold encode
  induction cs with
  | nil => exact .nil
  | cons c cs ih => exact .cons (written_encodeChar c) ih

theorem toList_quoted (s : String) : (quoted s).toList = '"' :: encode s.toList ++ ['"'] := by
  rw [quoted, String.toList_ofList]

/-! ## Reading -/

theorem char?_toNat (c : Char) : char? c.toNat = some c := by
  have hvalid : c.toNat.isValidChar := c.valid
  rw [char?, dif_pos hvalid]
  have heq : Char.ofNatAux c.toNat hvalid = Char.ofNat c.toNat := by
    rw [Char.ofNat, dif_pos hvalid]
  rw [heq, Char.ofNat_toNat]

/-- The digits of a code point add up, whatever was read of it before. -/
theorem decodeFrom_code (value : Nat) (digits rest : List Char)
    (h : ∀ c ∈ digits, ∃ d < 16, hexValue? c = some d) :
    decodeFrom (.code value) (digits ++ rest)
      = decodeFrom (.code ((digits.filterMap hexValue?).foldl (fun n d => n * 16 + d) value))
          rest := by
  induction digits generalizing value with
  | nil => rfl
  | cons c digits ih =>
    obtain ⟨d, -, hd⟩ := h c List.mem_cons_self
    have hbrace : c ≠ '\x7d' := by
      rintro rfl
      have hnone : hexValue? '\x7d' = none := by decide
      rw [hnone] at hd
      exact absurd hd (by simp)
    have hnext : EscapeState.next? (.code value) c = some (.code (value * 16 + d), none) := by
      rw [EscapeState.next?, if_neg hbrace, hd]
      rfl
    rw [List.cons_append, decodeFrom, hnext, List.filterMap_cons_some hd, List.foldl_cons,
      ← ih _ fun c hc => h c (List.mem_cons_of_mem _ hc)]
    show Option.map (fun out => out) _ = _
    rw [Option.map_id']

/-- The escape of a code point is read back in full. -/
theorem decodeFrom_codePoint {c : Char} {digits : List Char} (h : IsHexCode digits c.toNat)
    (rest : List Char) :
    decodeFrom .plain (['\\', 'u', '\x7b'] ++ digits ++ ['\x7d'] ++ rest)
      = (decodeFrom .plain rest).map (c :: ·) := by
  have hcode : decodeFrom (.code 0) (digits ++ '\x7d' :: rest)
      = (decodeFrom .plain rest).map (c :: ·) := by
    have hnext : EscapeState.next? (.code c.toNat) '\x7d' = some (.plain, some c) := by
      rw [EscapeState.next?, if_pos rfl, char?_toNat]
      rfl
    rw [decodeFrom_code 0 _ _ h.exists_hexValue?, h.foldl_eq, decodeFrom, hnext]
    rfl
  rw [List.append_assoc, List.append_assoc]
  show Option.map (fun out => out) (Option.map (fun out => out) (Option.map (fun out => out)
    (decodeFrom (.code 0) (digits ++ '\x7d' :: rest)))) = _
  rw [hcode]
  simp only [Option.map_id']

/-- The escape of one letter is read back. -/
theorem decodeFrom_escape {c letter : Char} (rest : List Char)
    (h : EscapeState.next? .backslash letter = some (.plain, some c)) :
    decodeFrom .plain (['\\', letter] ++ rest) = (decodeFrom .plain rest).map (c :: ·) := by
  show Option.map (fun out => out) (decodeFrom .backslash (letter :: rest)) = _
  rw [Option.map_id', decodeFrom, h]
  rfl

theorem next?_letter {c letter : Char} (h : (c, letter) ∈ letterEscapes) :
    EscapeState.next? .backslash letter = some (.plain, some c) := by
  have hall : ∀ p ∈ letterEscapes, EscapeState.next? .backslash p.2 = some (.plain, some p.1) := by
    decide
  exact hall _ h

/-- However it is written, a character is read back before anything else is. -/
theorem WrittenChar.decodeFrom_eq {c : Char} {form : List Char} (h : WrittenChar c form)
    (rest : List Char) :
    decodeFrom .plain (form ++ rest) = (decodeFrom .plain rest).map (c :: ·) := by
  cases h with
  | plain h =>
    have hquote : c ≠ '"' := by rintro rfl; exact absurd h (by decide)
    have hbackslash : c ≠ '\\' := by rintro rfl; exact absurd h (by decide)
    have hnext : EscapeState.next? .plain c = some (.plain, some c) := by
      rw [EscapeState.next?, if_neg hquote, if_neg hbackslash]
    show decodeFrom .plain (c :: rest) = _
    rw [decodeFrom, hnext]
    rfl
  | letter h => exact decodeFrom_escape rest (next?_letter h)
  | code h => exact decodeFrom_codePoint h rest

/-- However it is written, a text is decoded to itself. -/
theorem Written.decode_eq {cs inside : List Char} (h : Written cs inside) :
    decode inside = some cs := by
  unfold decode
  induction h with
  | nil => rfl
  | cons h _ ih => rw [h.decodeFrom_eq, ih, Option.map_some]

/-- An encoded text is decoded to itself. -/
theorem decode_encode (cs : List Char) : decode (encode cs) = some cs :=
  (written_encode cs).decode_eq

/-! ## Quotes and line breaks -/

section Marks

variable {c mark : Char} {cs form inside digits front back : List Char} {n : Nat}

theorem IsHexCode.notMem (h : IsHexCode digits n) (hmark : hexValue? mark = none) :
    mark ∉ digits := by
  intro hmem
  obtain ⟨d, -, hd⟩ := h.exists_hexValue? mark hmem
  rw [hmark] at hd
  exact absurd hd (by simp)

/-- Line breaks are always written as escapes. -/
theorem WrittenChar.notMem (h : WrittenChar c form) (hmark : mark ∈ ['\n', '\r']) :
    mark ∉ form := by
  have hnone : hexValue? mark = none ∧ mark ∉ ['\\', 'u', '\x7b', '\x7d'] := by
    simp only [List.mem_cons, List.not_mem_nil, or_false] at hmark
    rcases hmark with rfl | rfl
    · exact ⟨by decide, by decide⟩
    · exact ⟨by decide, by decide⟩
  cases h with
  | plain h =>
    rintro hmem
    rw [List.mem_singleton.1 hmem] at hmark
    exact h (List.mem_cons_of_mem _ (List.mem_cons_of_mem _ hmark))
  | letter h =>
    have hall : ∀ p ∈ letterEscapes, p.2 ∉ ['\n', '\r'] := by decide
    simp only [List.mem_cons, List.not_mem_nil, or_false, not_or] at hnone ⊢
    exact ⟨hnone.2.1, fun heq => hall _ h (heq ▸ hmark)⟩
  | code h =>
    have hdigits := h.notMem hnone.1
    simp only [List.mem_append, List.mem_cons, List.not_mem_nil, or_false, not_or] at hnone ⊢
    exact ⟨⟨⟨hnone.2.1, hnone.2.2.1, hnone.2.2.2.1⟩, hdigits⟩, hnone.2.2.2.2⟩

theorem Written.notMem (h : Written cs inside) (hmark : mark ∈ ['\n', '\r']) :
    mark ∉ inside := by
  induction h with
  | nil => exact List.not_mem_nil
  | cons h _ ih =>
    rw [List.mem_append, not_or]
    exact ⟨h.notMem hmark, ih⟩

/-- A quote is part of no form but its escape of one letter. -/
theorem WrittenChar.eq_of_quote_mem (h : WrittenChar c form) (hmem : '"' ∈ form) :
    form = ['\\', '"'] := by
  cases h with
  | plain h =>
    rw [← List.mem_singleton.1 hmem] at h
    exact absurd h (by decide)
  | letter h =>
    have hall : ∀ p ∈ letterEscapes, '"' ∈ ['\\', p.2] → ['\\', p.2] = ['\\', '"'] := by decide
    exact hall _ h hmem
  | code h =>
    have hdigits : '"' ∉ _ := h.notMem (by decide)
    simp [hdigits] at hmem

/-- A quote that stands for a character follows a backslash, and the escapes before this backslash
are complete. -/
theorem Written.backslash_of_quote (h : Written cs inside) (heq : inside = front ++ '"' :: back) :
    ∃ front', front = front' ++ ['\\'] ∧ (decode front').isSome := by
  induction h generalizing front with
  | nil => exact absurd heq (by simp)
  | cons h _ ih =>
    rcases List.append_eq_append_iff.1 heq with ⟨front₂, rfl, hrest⟩ | ⟨ending, hform, hrest⟩
    · -- the quote stands behind the first character
      obtain ⟨front', rfl, hfront'⟩ := ih hrest
      refine ⟨_ ++ front', (List.append_assoc _ _ _).symm, ?_⟩
      rw [decode] at hfront' ⊢
      rw [h.decodeFrom_eq, Option.isSome_map]
      exact hfront'
    · cases ending with
      | nil =>
        -- no text begins with a quote
        have hempty : ∃ front', [] = front' ++ ['\\'] ∧ (decode front').isSome := ih hrest.symm
        obtain ⟨front', hnil, -⟩ := hempty
        exact absurd hnil (by simp)
      | cons x ending =>
        obtain ⟨rfl, -⟩ := List.cons.inj hrest
        have hescape := h.eq_of_quote_mem (hform ▸ List.mem_append_right front List.mem_cons_self)
        rw [hescape] at hform
        cases front with
        | nil => exact absurd (List.cons.inj hform).1 (by decide)
        | cons y front =>
          obtain ⟨rfl, htail⟩ := List.cons.inj hform
          cases front with
          | nil => exact ⟨[], rfl, rfl⟩
          | cons z front => exact absurd (congrArg List.length htail) (by simp)

end Marks

end EnumNames.Text
