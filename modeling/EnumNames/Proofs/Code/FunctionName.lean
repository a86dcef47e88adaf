import EnumNames.Proofs.Code.Cut
import EnumNames.Proofs.Code.Piece
import EnumNames.Proofs.Target.Identifier

/-!
# Names that functions are declared by

The name of a function need not be an identifier: blanks and comments may stand around one. It is
read as the identifier that it holds, unless it begins with an order mark, which is dropped in front
of a text only, or ends inside a comment, which then goes on to the end of the line.

* `IsFunctionName`: the texts that can stand for an identifier in a declaration.
* `IsFunctionName.cut`: in front of a parenthesis, such a text is cut into its identifier.
-/

namespace EnumNames.Code

open Target Text

variable {cs rest : List Char} {before : List Token} {w : String}

/-- The texts that stand for the identifier they hold, wherever they are written. -/
structure IsFunctionName (name : String) : Prop where
  isIdentifier : isIdentifier name
  noOrderMark : dropOrderMark name.toList = name.toList
  noOpenComment : endsInLineComment name.toList = false

/-- The identifier that a text holds; other texts stand for themselves. -/
def identifierOf (name : String) : String :=
  (identifier? name).getD name

/-! ## Cutting a name -/

/-- Blanks and comments are cut into nothing. -/
theorem cut_gaps {cs : List Char} (h : scanFrom before cs = some before.reverse)
    (hend : endsInLineComment cs = false) (tail : List Char) : Cut (cs ++ tail) [] tail := by
  by_cases hcs : cs = []
  · rw [hcs]
    exact .nil tail
  obtain ⟨rest, hfound, hrest⟩ := element?_of_scanFrom hcs h
  obtain ⟨hlast, hopen⟩ := endsInLineComment_rest hfound hend
  have hlength := element?_length hfound
  exact .gap (element?_append_gap hfound hlast tail) (cut_gaps hrest hopen tail)
termination_by cs.length

/-- Blanks and comments keep a word apart from what follows. -/
theorem isApart_append (h : scanFrom before cs = some before.reverse) (hrest : isApart rest) :
    isApart (cs ++ rest) := by
  by_cases hcs : cs = []
  · rw [hcs]
    exact hrest
  obtain ⟨after, hfound, -⟩ := element?_of_scanFrom hcs h
  have hapart := isApart_of_gap hfound
  obtain ⟨c, cs, rfl⟩ := List.exists_cons_of_ne_nil hcs
  exact hapart

/-- In front of a parenthesis, a text is cut into the identifier that it holds. -/
theorem cut_identifier {cs : List Char}
    (h : scanFrom before cs = some (before.reverse ++ [.word w]))
    (hend : endsInLineComment cs = false) (rest : List Char) :
    Cut (cs ++ '(' :: rest) [.word w] ('(' :: rest) := by
  rcases element?_of_scanFrom_word h with ⟨after, hfound, hafter⟩ | ⟨after, hfound, hgaps⟩
  · obtain ⟨hlast, hopen⟩ := endsInLineComment_rest hfound hend
    have hlength := element?_length hfound
    exact .gap (element?_append_gap hfound hlast _) (cut_identifier hafter hopen rest)
  · obtain ⟨-, hopen⟩ := endsInLineComment_rest hfound hend
    have hapart : isApart (after ++ '(' :: rest) := isApart_append hgaps rfl
    have hword := element?_append_word hfound hapart
    obtain ⟨-, hspelling⟩ := spelling_of_word? (word?_of_element? hfound)
    rw [hspelling, List.append_assoc] at hword ⊢
    exact .cons hword rfl (cut_gaps hgaps hopen ('(' :: rest))
termination_by cs.length

/-- In front of a parenthesis, the name of a function is cut into its identifier. -/
theorem IsFunctionName.cut {name : String} (h : IsFunctionName name) (rest : List Char) :
    Cut (name.toList ++ '(' :: rest) [.word (identifierOf name)] ('(' :: rest) := by
  obtain ⟨w, hw⟩ := Option.isSome_iff_exists.1 (isIdentifier_iff.1 h.isIdentifier)
  have hof : identifierOf name = w := by
    rw [identifierOf, hw]
    rfl
  rw [hof]
  have hscan := scan?_of_identifier? hw
  rw [h.noOrderMark] at hscan
  exact cut_identifier hscan h.noOpenComment rest

/-! ## Plain names -/

/-- A plain identifier is one token. -/
theorem element?_plainIdentifier {name : String} (h : isPlainIdentifier name) :
    element? name.toList = some ([.word name], []) := by
  have hword := element?_word (Piece.isBareWord_of_isPlainIdentifier h) (rfl : isApart [])
  rwa [List.append_nil, String.ofList_toList, token_name h] at hword

theorem exists_cons_of_isPlainIdentifier {name : String} (h : isPlainIdentifier name) :
    ∃ c cs, name.toList = c :: cs ∧ isIdentStart c := by
  have hword := Piece.isBareWord_of_isPlainIdentifier h
  cases hcs : name.toList with
  | nil => exact absurd hword (by simp [hcs, isBareWord])
  | cons c cs =>
    rw [hcs, isBareWord, Bool.and_eq_true] at hword
    exact ⟨c, cs, rfl, hword.1⟩

/-- A plain identifier begins with no order mark. -/
theorem dropOrderMark_plainIdentifier {name : String} (h : isPlainIdentifier name) :
    dropOrderMark name.toList = name.toList := by
  have hword := dropOrderMark_word (Piece.isBareWord_of_isPlainIdentifier h) []
  rwa [List.append_nil] at hword

/-- A plain identifier is the identifier that it holds. -/
theorem identifier?_plainIdentifier {name : String} (h : isPlainIdentifier name) :
    identifier? name = some name := by
  have hscan : scan? name = some [.word name] := by
    rw [scan?, dropOrderMark_plainIdentifier h, scanFrom_element (element?_plainIdentifier h), scanFrom]
    rfl
  rw [identifier?, hscan]

/-- A plain identifier stands for itself. -/
theorem identifierOf_plainIdentifier {name : String} (h : isPlainIdentifier name) :
    identifierOf name = name := by
  rw [identifierOf, identifier?_plainIdentifier h]
  rfl

/-- Plain identifiers name functions. -/
theorem isFunctionName_of_isPlainIdentifier {name : String} (h : isPlainIdentifier name) :
    IsFunctionName name := by
  refine ⟨?_, dropOrderMark_plainIdentifier h, ?_⟩
  · rw [isIdentifier_iff, identifier?_plainIdentifier h]
    rfl
  · obtain ⟨c, cs, hcs, hc⟩ := exists_cons_of_isPlainIdentifier h
    have hslash : c ≠ '/' := ne_of_isIdentStart hc (by decide)
    rw [endsInLineComment, element?_plainIdentifier h, hcs]
    show beginsLineComment (c :: cs) = false
    unfold beginsLineComment
    split
    · next heq => exact absurd (List.cons.inj heq).1 hslash
    · rfl

end EnumNames.Code
