import EnumNames.Target.Token
import EnumNames.Text.Identifier

/-!
# Words of source text

A recogniser gives the text that follows what it has recognised, and `none` if it recognises
nothing. The lemmas `…_length` say that it never gives back more than it got, so that scanning ends.

* `word?` recognises identifiers and keywords, `afterSuffix` passes the word that may be joined to
  the end of a literal.
-/

namespace EnumNames.Target

open Text

/-- What follows a run of identifier characters. -/
def afterWord (cs : List Char) : List Char :=
  cs.dropWhile isIdentContinue

/-- The identifier that a text begins with, and what follows it. -/
def plainWord? : List Char → Option (List Char × List Char)
  | [] => none
  | c :: cs =>
    if isIdentStart c then some (c :: cs.takeWhile isIdentContinue, afterWord cs) else none

/-- Words that may not be written as raw identifiers. -/
def neverRaw (name : List Char) : Bool :=
  name ∈ ["_".toList, "super".toList, "self".toList, "Self".toList, "crate".toList]

/-- An identifier with or without the mark of raw ones, as a token. -/
def word? : List Char → Option (Token × List Char)
  | 'r' :: '#' :: cs =>
    match plainWord? cs with
    | some (name, rest) =>
      if neverRaw name then none else some (.word (String.ofList ('r' :: '#' :: name)), rest)
    | none => none
  | cs => (plainWord? cs).map fun (name, rest) => (Token.ofWord (String.ofList name), rest)

/-- Drops the suffix that may follow a literal. -/
def afterSuffix (cs : List Char) : List Char :=
  match plainWord? cs with
  | some (_, rest) => rest
  | none => cs

theorem afterWord_length (cs : List Char) : (afterWord cs).length ≤ cs.length :=
  (List.dropWhile_suffix _).length_le

theorem plainWord?_length {cs name rest : List Char} (h : plainWord? cs = some (name, rest)) :
    rest.length < cs.length := by
  cases cs with
  | nil => simp [plainWord?] at h
  | cons c cs =>
    simp only [plainWord?, Option.ite_none_right_eq_some, Option.some.injEq, Prod.mk.injEq] at h
    obtain ⟨_, _, rfl⟩ := h
    exact Nat.lt_succ_of_le (afterWord_length cs)

theorem word?_length {cs rest : List Char} {t : Token} (h : word? cs = some (t, rest)) :
    rest.length < cs.length := by
  unfold word? at h
  split at h
  · next cs =>
    split at h
    · next name rest' hw =>
      have := plainWord?_length hw
      split at h
      · simp at h
      · simp only [Option.some.injEq, Prod.mk.injEq] at h
        obtain ⟨_, rfl⟩ := h
        simp only [List.length_cons]
        omega
    · simp at h
  · obtain ⟨⟨name, rest'⟩, hw, h⟩ := Option.map_eq_some_iff.1 h
    simp only [Prod.mk.injEq] at h
    obtain ⟨_, rfl⟩ := h
    exact plainWord?_length hw

theorem afterSuffix_length (cs : List Char) : (afterSuffix cs).length ≤ cs.length := by
  unfold afterSuffix
  split
  · next h => exact Nat.le_of_lt (plainWord?_length h)
  · exact Nat.le_refl _

end EnumNames.Target
