import EnumNames.Constant

/-!
# Kinds and the numbers they hold

Every kind has a name of its own and fits 64 bits, read the way of the kind. So a number of the kind
that is reduced to a pattern of 64 bits comes back when the pattern is read.

* `Kind.ofText?_eq_some_iff`, `Kind.ofText?_eq_none_iff`: which texts name a kind.
* `Constant.value_ofInt`: no number of a kind is changed by its pattern.
-/

namespace EnumNames

namespace Kind

variable {kind : Kind} {text : String}

/-- A kind is found by its name exactly. -/
theorem named?_eq_some_iff : named? text = some kind ↔ text = kind.name := by
  constructor
  · intro h
    have hname := List.find?_some h
    exact (of_decide_eq_true hname).symm
  · rintro rfl
    exact named?_name kind

/-- Blanks around the name of a kind do not matter. -/
theorem ofText?_eq_some_iff : ofText? text = some kind ↔ Text.trim text = kind.name :=
  named?_eq_some_iff

/-- A text that is no name of a kind is refused. -/
theorem ofText?_eq_none_iff :
    ofText? text = none ↔ ∀ kind : Kind, Text.trim text ≠ kind.name := by
  rw [Option.eq_none_iff_forall_ne_some]
  exact forall_congr' fun kind => not_congr ofText?_eq_some_iff

/-- The least and the greatest value of a kind fit 64 bits, with a sign if the kind has one. -/
theorem bounds_of_contains {n : Int} (h : kind.contains n) :
    (if kind.isSigned then -0x8000000000000000 else 0) ≤ n
      ∧ n < if kind.isSigned then 0x8000000000000000 else 0x10000000000000000 := by
  have hleast : (if kind.isSigned then -0x8000000000000000 else 0) ≤ kind.least := by
    cases kind <;> decide
  have hgreatest : kind.greatest
      < if kind.isSigned then 0x8000000000000000 else 0x10000000000000000 := by
    cases kind <;> decide
  rw [contains, Bool.and_eq_true, decide_eq_true_eq, decide_eq_true_eq] at h
  exact ⟨Int.le_trans hleast h.1, Int.lt_of_le_of_lt h.2 hgreatest⟩

end Kind

/-- A number of a kind is kept by the pattern that it is reduced to, up to both ends of 64 bits. -/
theorem Constant.value_ofInt {kind : Kind} {n : Int} (h : kind.contains n)
    (name reference : String) : (ofInt kind.isSigned name reference n).value = n := by
  have hbounds := Kind.bounds_of_contains h
  have hvalue : (ofInt kind.isSigned name reference n).value
      = if kind.isSigned then (BitVec.ofInt 64 n).toInt else (BitVec.ofInt 64 n).toNat := rfl
  rw [hvalue]
  cases hsigned : kind.isSigned with
  | true =>
    rw [hsigned, if_pos rfl, if_pos rfl] at hbounds
    rw [if_pos rfl, BitVec.toInt_ofInt, Int.bmod_eq_of_le]
    · exact hbounds.1
    · exact hbounds.2
  | false =>
    rw [hsigned, if_neg Bool.false_ne_true, if_neg Bool.false_ne_true] at hbounds
    rw [if_neg Bool.false_ne_true, BitVec.toNat_ofInt]
    omega

end EnumNames
