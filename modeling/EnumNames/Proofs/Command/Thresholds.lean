import EnumNames.Command.Invocation
import EnumNames.Command.Thresholds
import EnumNames.Proofs.Except

/-!
# Which texts are thresholds

A text is read as a pair of thresholds exactly if, on both sides of its first comma, a count stands
between blanks. The pair that is written into the header of a file is read back.

* `IsNumeral`, `IsCount`, `IsPaddedCount`: how a count is written.
* `readCount_eq_ok_iff`: a count is read exactly from its spellings.
* `readThresholds_exact`: so is a pair of thresholds, and the one in a header is such a pair.
-/

namespace EnumNames.Command

open Text

variable {cs : List Char} {m n : Nat}

/-! ## Counts -/

/-- Digits that denote a number of 64 bits; zeros may lead. -/
structure IsNumeral (digits : List Char) (n : Nat) : Prop where
  ne_nil : digits ≠ []
  isDigit : ∀ c ∈ digits, c.isDigit
  value_eq : Nat.ofDigitChars 10 digits 0 = n
  lt : n < 0x10000000000000000

/-- A spelling of a count: digits after at most one plus sign. -/
def IsCount (cs : List Char) (n : Nat) : Prop :=
  ∃ digits, (cs = digits ∨ cs = '+' :: digits) ∧ IsNumeral digits n

/-- A spelling of a count with blanks around it. -/
def IsPaddedCount (cs : List Char) (n : Nat) : Prop :=
  ∃ front count back, cs = front ++ count ++ back ∧ (∀ c ∈ front, isBlank c)
    ∧ (∀ c ∈ back, isBlank c) ∧ IsCount count n

theorem le_ofDigitChars (cs : List Char) (n : Nat) : n ≤ Nat.ofDigitChars 10 cs n := by
  rw [Nat.ofDigitChars_eq_ofDigitChars_zero]
  have hpos : 0 < 10 ^ cs.length := Nat.pow_pos (by decide)
  have hle : 1 * n ≤ 10 ^ cs.length * n := Nat.mul_le_mul_right n hpos
  omega

/-- Digits only add to a number: if it is too large in between, it is so in the end. -/
theorem readDigits_eq_ok_iff (hn : n < 0x10000000000000000) : readDigits n cs = .ok m
    ↔ (∀ c ∈ cs, c.isDigit) ∧ Nat.ofDigitChars 10 cs n = m ∧ m < 0x10000000000000000 := by
  induction cs generalizing n with
  | nil =>
    rw [readDigits, Nat.ofDigitChars_nil, Except.ok.injEq]
    constructor
    · rintro rfl
      exact ⟨by simp, rfl, hn⟩
    · exact fun h => h.2.1
  | cons c cs ih =>
    rw [readDigits, List.forall_mem_cons, Nat.ofDigitChars_cons]
    by_cases hdigit : c.isDigit
    · rw [if_pos hdigit, and_iff_right hdigit]
      have hle := le_ofDigitChars cs (10 * n + (c.toNat - '0'.toNat))
      by_cases hnext : 10 * n + (c.toNat - '0'.toNat) < 0x10000000000000000
      · simp only [if_pos hnext]
        exact ih hnext
      · simp only [if_neg hnext]
        refine iff_of_false nofun ?_
        rintro ⟨-, rfl, hlt⟩
        omega
    · rw [if_neg hdigit]
      exact iff_of_false nofun fun h => hdigit h.1.1

/-- Digits are read as a count exactly if they are a numeral. -/
theorem readDigits_zero_eq_ok_iff (hcs : cs ≠ []) : readDigits 0 cs = .ok n ↔ IsNumeral cs n := by
  rw [readDigits_eq_ok_iff (by decide)]
  exact ⟨fun h => ⟨hcs, h.1, h.2.1, h.2.2⟩, fun h => ⟨h.isDigit, h.value_eq, h.lt⟩⟩

theorem IsNumeral.ne_plus_cons (h : IsNumeral cs n) (rest : List Char) : cs ≠ '+' :: rest := by
  rintro rfl
  have hplus : '+'.isDigit := h.isDigit '+' List.mem_cons_self
  exact absurd hplus (by decide)

/-- After a plus sign, a count is a numeral. -/
theorem isCount_plus_iff : IsCount ('+' :: cs) n ↔ IsNumeral cs n := by
  constructor
  · rintro ⟨digits, heq | heq, h⟩
    · exact absurd heq.symm (h.ne_plus_cons cs)
    · exact (List.cons.inj heq).2 ▸ h
  · exact fun h => ⟨cs, .inr rfl, h⟩

/-- Without a plus sign, a count is a numeral. -/
theorem isCount_iff_of_ne (hcs : ∀ rest, cs ≠ '+' :: rest) : IsCount cs n ↔ IsNumeral cs n := by
  constructor
  · rintro ⟨digits, heq | heq, h⟩
    · exact heq ▸ h
    · exact absurd heq (hcs digits)
  · exact fun h => ⟨cs, .inl rfl, h⟩

/-- A count is read exactly from its spellings. -/
theorem readCount_eq_ok_iff : readCount cs = .ok n ↔ IsCount cs n := by
  unfold readCount
  split
  · rw [isCount_iff_of_ne (by simp)]
    exact iff_of_false nofun fun h => h.ne_nil rfl
  · rw [isCount_plus_iff]
    exact iff_of_false nofun fun h => h.ne_nil rfl
  · next digits hdigits =>
    rw [isCount_plus_iff]
    exact readDigits_zero_eq_ok_iff hdigits
  · next hne _ hplus =>
    rw [isCount_iff_of_ne fun rest heq => hplus rest heq]
    exact readDigits_zero_eq_ok_iff hne

/-- A count holds no blanks. -/
theorem IsCount.isBlank_eq_false (h : IsCount cs n) : ∀ c ∈ cs, isBlank c = false := by
  obtain ⟨digits, rfl | rfl, h⟩ := h
  · exact fun c hc => isBlank_eq_false_of_isDigit (h.isDigit c hc)
  · rw [List.forall_mem_cons]
    exact ⟨by decide, fun c hc => isBlank_eq_false_of_isDigit (h.isDigit c hc)⟩

/-- Blanks around a count do not matter. -/
theorem readCount_trimChars_eq_ok_iff : readCount (trimChars cs) = .ok n ↔ IsPaddedCount cs n := by
  rw [readCount_eq_ok_iff]
  constructor
  · intro h
    obtain ⟨front, back, hcs, hfront, hback⟩ := exists_eq_trimChars cs
    exact ⟨front, trimChars cs, back, hcs, hfront, hback, h⟩
  · rintro ⟨front, count, back, rfl, hfront, hback, h⟩
    rwa [trimChars_append hfront h.isBlank_eq_false hback]

/-! ## Pairs -/

/-- Two counts on both sides of the first comma are the thresholds. -/
theorem readThresholds_eq_ok_iff {text : String} {low high : Nat} :
    readThresholds text = .ok (low, high) ↔ ∃ before after, text.toList = before ++ ',' :: after
      ∧ ',' ∉ before ∧ IsPaddedCount before low ∧ IsPaddedCount after high := by
  rw [readThresholds]
  constructor
  · intro h
    split at h
    · exact nomatch h
    · next before after hcut =>
      obtain ⟨htext, hcomma⟩ := cut?_eq_some_iff.1 hcut
      obtain ⟨a, ha, h⟩ := bind_eq_ok_iff.1 h
      obtain ⟨b, hb, h⟩ := bind_eq_ok_iff.1 h
      obtain ⟨rfl, rfl⟩ := Prod.mk.inj (Except.ok.inj h)
      exact ⟨before, after, htext, hcomma, readCount_trimChars_eq_ok_iff.1 (mapError_eq_ok_iff.1 ha),
        readCount_trimChars_eq_ok_iff.1 (mapError_eq_ok_iff.1 hb)⟩
  · rintro ⟨before, after, htext, hcomma, hlow, hhigh⟩
    rw [cut?_eq_some_iff.2 ⟨htext, hcomma⟩]
    refine bind_eq_ok_iff.2 ⟨low, ?_, bind_eq_ok_iff.2 ⟨high, ?_, rfl⟩⟩
    · exact mapError_eq_ok_iff.2 (readCount_trimChars_eq_ok_iff.2 hlow)
    · exact mapError_eq_ok_iff.2 (readCount_trimChars_eq_ok_iff.2 hhigh)

/-! ## Headers -/

/-- The digits of a number of 64 bits are a numeral for it. -/
theorem isNumeral_toDigits (hn : n < 0x10000000000000000) : IsNumeral (Nat.toDigits 10 n) n :=
  ⟨Nat.toDigits_ne_nil, fun _ hc => Nat.isDigit_of_mem_toDigits (by decide) (by decide) hc,
    Nat.ofDigitChars_ten_toDigits, hn⟩

theorem isPaddedCount_toDigits (hn : n < 0x10000000000000000) :
    IsPaddedCount (Nat.toDigits 10 n) n :=
  ⟨[], Nat.toDigits 10 n, [], by simp, by simp, by simp, _, .inl rfl, isNumeral_toDigits hn⟩

/-- Thresholds are written as their digits with a comma between them. -/
theorem toList_thresholdsText (low high : Nat) : (Invocation.thresholdsText (low, high)).toList
    = Nat.toDigits 10 low ++ ',' :: Nat.toDigits 10 high := by
  simp [Invocation.thresholdsText]

/-- A number is written with digits alone. -/
theorem notMem_toDigits {c : Char} (hc : ¬ c.isDigit) (n : Nat) : c ∉ Nat.toDigits 10 n :=
  fun hmem => hc (Nat.isDigit_of_mem_toDigits (by decide) (by decide) hmem)

/-- A pair of thresholds is read back from its text. -/
theorem readThresholds_thresholdsText {low high : Nat} (hlow : low < 0x10000000000000000)
    (hhigh : high < 0x10000000000000000) :
    readThresholds (Invocation.thresholdsText (low, high)) = .ok (low, high) :=
  readThresholds_eq_ok_iff.2 ⟨_, _, toList_thresholdsText low high, notMem_toDigits (by decide) low,
    isPaddedCount_toDigits hlow, isPaddedCount_toDigits hhigh⟩

theorem blank_notMem_thresholdsText (low high : Nat) :
    ' ' ∉ (Invocation.thresholdsText (low, high)).toList := by
  rw [toList_thresholdsText, List.mem_append, List.mem_cons, not_or, not_or]
  exact ⟨notMem_toDigits (by decide) low, by decide, notMem_toDigits (by decide) high⟩

/-- What stands before the thresholds in a header. -/
def thresholdsOption : String :=
  "--lookup-thresholds "

/-- How the other arguments in a header begin. -/
def otherOptions : List String :=
  ["--type ", "--lookup ", "--run-threshold ", "--trim-prefix ", "--line-comment"]

/-- An argument that begins with another option does not begin with this one. -/
theorem not_prefix_of_mem_otherOptions {option : String} (h : option ∈ otherOptions)
    (rest : String) : ¬ thresholdsOption.toList <+: (option ++ rest).toList := by
  have hapart : ∀ option ∈ otherOptions, ¬ thresholdsOption.toList <+: option.toList
      ∧ ¬ option.toList <+: thresholdsOption.toList := by decide
  intro hprefix
  rw [String.toList_append] at hprefix
  rcases List.prefix_or_prefix_of_prefix hprefix (List.prefix_append _ _) with hstart | hstart
  · exact (hapart option h).1 hstart
  · exact (hapart option h).2 hstart

/-- The thresholds stand in a header once, after an option of their own. -/
theorem exists_headerArguments {v : Invocation} {thresholds : Nat × Nat}
    (h : v.lookupThresholds = some thresholds) : ∃ before after,
      v.headerArguments = String.intercalate " "
        (before ++ (thresholdsOption ++ Invocation.thresholdsText thresholds) :: after)
      ∧ ∀ word ∈ before ++ after, ¬ thresholdsOption.toList <+: word.toList := by
  refine ⟨(if v.types.isEmpty then [] else ["--type " ++ String.intercalate "," v.types])
      ++ (if v.lookup.isEmpty then [] else ["--lookup " ++ v.lookup])
      ++ v.runThreshold.toList.map (fun n => "--run-threshold " ++ toString n),
    (if v.trimmed.isEmpty then [] else ["--trim-prefix " ++ v.trimmed])
      ++ (if v.lineComment then ["--line-comment"] else []), ?_, fun word hword => ?_⟩
  · rw [Invocation.headerArguments, h]
    simp [thresholdsOption]
  · obtain ⟨option, hoption, rest, rfl⟩ : ∃ option ∈ otherOptions, ∃ rest, word = option ++ rest := by
      simp only [List.mem_append, List.mem_ite_nil_left, List.mem_ite_nil_right, List.mem_singleton,
        List.mem_map] at hword
      rcases hword with ((⟨-, rfl⟩ | ⟨-, rfl⟩) | ⟨n, -, rfl⟩) | ⟨-, rfl⟩ | ⟨-, rfl⟩
      · exact ⟨"--type ", by decide, _, rfl⟩
      · exact ⟨"--lookup ", by decide, _, rfl⟩
      · exact ⟨"--run-threshold ", by decide, _, rfl⟩
      · exact ⟨"--trim-prefix ", by decide, _, rfl⟩
      · exact ⟨"--line-comment", by decide, "", rfl⟩
    exact not_prefix_of_mem_otherOptions hoption rest

/-- A text is read as two thresholds exactly if it has a comma and, before and after the first one, a
count of 64 bits between blanks. The text that follows the option in a header is read as the pair
that was given. -/
theorem readThresholds_exact :
    (∀ text low high, readThresholds text = .ok (low, high) ↔
        ∃ before after, text.toList = before ++ ',' :: after ∧ ',' ∉ before
          ∧ IsPaddedCount before low ∧ IsPaddedCount after high)
      ∧ ∀ (v : Invocation) (low high : Nat), v.lookupThresholds = some (low, high) →
        low < 0x10000000000000000 → high < 0x10000000000000000 →
        ∃ before text after,
          v.headerArguments = String.intercalate " " (before ++ (thresholdsOption ++ text) :: after)
          ∧ (∀ word ∈ before ++ after, ¬ thresholdsOption.toList <+: word.toList)
          ∧ ' ' ∉ text.toList ∧ readThresholds text = .ok (low, high) := by
  refine ⟨fun text low high => readThresholds_eq_ok_iff, fun v low high h hlow hhigh => ?_⟩
  obtain ⟨before, after, hheader, hothers⟩ := exists_headerArguments h
  exact ⟨before, _, after, hheader, hothers, blank_notMem_thresholdsText low high,
    readThresholds_thresholdsText hlow hhigh⟩

/-- An invocation whose lookup template looks like thresholds. -/
def feigningRun : Invocation :=
  { manifest := "m.json"
    lookup := "--lookup-thresholds 1,2\x7b\x7d"
    lookupThresholds := some (0, 18446744073709551615) }

/-- Counts may have a plus sign, zeros in front and blanks around, and they end with 64 bits. -/
theorem readThresholds_exact_extremes :
    readThresholds "\t+007 ,\u3000 18446744073709551615" = .ok (7, 18446744073709551615)
      ∧ readThresholds "1,18446744073709551616" ≠ .ok (1, 18446744073709551616)
      ∧ ∃ before text after,
        feigningRun.headerArguments
          = String.intercalate " " (before ++ (thresholdsOption ++ text) :: after)
        ∧ (∀ word ∈ before ++ after, ¬ thresholdsOption.toList <+: word.toList)
        ∧ ' ' ∉ text.toList ∧ readThresholds text = .ok (0, 18446744073709551615) := by
  refine ⟨(readThresholds_exact.1 _ _ _).2 ?_, fun h => ?_,
    readThresholds_exact.2 _ _ _ rfl (by decide) (by decide)⟩
  -- blanks of several kinds stand around both counts
  · refine ⟨"\t+007 ".toList, "\u3000 18446744073709551615".toList, by decide, by decide, ?_, ?_⟩
    · exact ⟨['\t'], "+007".toList, [' '], by decide, List.all_eq_true.1 rfl,
        List.all_eq_true.1 rfl, "007".toList, .inr (by decide), by decide, List.all_eq_true.1 rfl,
        by decide, by decide⟩
    · exact ⟨"\u3000 ".toList, "18446744073709551615".toList, [], by decide,
        List.all_eq_true.1 rfl, List.all_eq_true.1 rfl, "18446744073709551615".toList, .inl rfl,
        by decide, List.all_eq_true.1 rfl, by decide, by decide⟩
  · obtain ⟨_, _, -, -, -, _, _, _, -, -, -, _, -, hnumeral⟩ := (readThresholds_exact.1 _ _ _).1 h
    exact absurd hnumeral.lt (by decide)

end EnumNames.Command
