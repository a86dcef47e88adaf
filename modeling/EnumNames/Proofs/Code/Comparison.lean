import EnumNames.Code.Comparison
import EnumNames.Proofs.Code.Item
import EnumNames.Proofs.Code.ReadExpression
import EnumNames.Proofs.Target.Closed

/-!
# Reading comparisons back

* `Spells`: a text is cut into tokens with their spellings, up to some point.
* `Cut.spells`: a text that is cut into lexemes is cut into tokens that are these lexemes.
* `spells_closed`: a text without comments keeps its tokens in front of a parenthesis.
* `readOperand?_group`, `readOperand?_decimal`: operands are read back.
-/

namespace EnumNames.Code

open Target

variable {cs mid rest : List Char} {ss ss' : List Spelled} {ls : List Lexeme}

/-! ## Tokens with their spellings -/

theorem spelled?_nil : spelled? [] = some [] := by
  rw [spelled?]
  rfl

/-- A text that begins with an element is not empty. -/
theorem isEmpty_eq_false_of_element? {ts : List Token} (h : element? cs = some (ts, rest)) :
    cs.isEmpty = false := by
  cases cs with
  | nil => exact absurd (element?_length h) (by simp)
  | cons c cs => rfl

/-- Blanks and comments add no token. -/
theorem spelled?_gap (h : element? cs = some ([], rest)) : spelled? cs = spelled? rest := by
  rw [spelled?, isEmpty_eq_false_of_element? h, h]
  rfl

theorem spelled?_of_element? {t : Token} (h : element? cs = some ([t], rest)) :
    spelled? cs = (spelled? rest).map (⟨t, cs.take (cs.length - rest.length)⟩ :: ·) := by
  rw [spelled?, isEmpty_eq_false_of_element? h, h]
  rfl

/-- A token is kept together with the characters that it was read from. -/
theorem spelled?_token {spelling : List Char} {t : Token}
    (h : element? (spelling ++ rest) = some ([t], rest)) :
    spelled? (spelling ++ rest) = (spelled? rest).map (⟨t, spelling⟩ :: ·) := by
  rw [spelled?_of_element? h, List.length_append, Nat.add_sub_cancel, List.take_left]

/-- The text `cs` begins with the tokens `ss`, and `rest` is what follows them. -/
def Spells (cs : List Char) (ss : List Spelled) (rest : List Char) : Prop :=
  spelled? cs = (spelled? rest).map (ss ++ ·)

namespace Spells

theorem nil (cs : List Char) : Spells cs [] cs := by
  show _ = Option.map (fun ss => ss) _
  rw [Option.map_id']

/-- What is read in two parts is read as a whole. -/
theorem trans (h : Spells cs ss mid) (h' : Spells mid ss' rest) : Spells cs (ss ++ ss') rest := by
  rw [Spells, h, h', Option.map_map]
  exact congrArg (Option.map · _) (funext fun more => (List.append_assoc ss ss' more).symm)

theorem gap (h : element? cs = some ([], mid)) (hrest : Spells mid ss rest) : Spells cs ss rest :=
  (spelled?_gap h).trans hrest

theorem token {spelling : List Char} {t : Token}
    (h : element? (spelling ++ mid) = some ([t], mid)) (hrest : Spells mid ss rest) :
    Spells (spelling ++ mid) (⟨t, spelling⟩ :: ss) rest := by
  have htoken : Spells (spelling ++ mid) [⟨t, spelling⟩] mid := spelled?_token h
  exact htoken.trans hrest

theorem spelled?_eq (h : Spells cs ss []) : spelled? cs = some ss := by
  rw [h, spelled?_nil, Option.map_some, List.append_nil]

end Spells

/-- Tokens that are these lexemes. -/
def AreLexemes (ss : List Spelled) (ls : List Lexeme) : Prop :=
  ss.map Spelled.lexeme? = ls.map some

/-- A text that is cut into lexemes is cut into tokens that are these lexemes. -/
theorem Cut.spells (h : Cut cs ls rest) : ∃ ss, AreLexemes ss ls ∧ Spells cs ss rest := by
  induction h with
  | nil cs => exact ⟨[], rfl, .nil cs⟩
  | gap helement _ ih =>
    obtain ⟨ss, hlexemes, hspells⟩ := ih
    exact ⟨ss, hlexemes, .gap helement hspells⟩
  | @cons spelling _ _ l _ helement hl _ ih =>
    obtain ⟨ss, hlexemes, hspells⟩ := ih
    refine ⟨⟨l.token, spelling⟩ :: ss, ?_, .token helement hspells⟩
    exact congrArg₂ List.cons hl hlexemes

/-- Tokens that are the expected lexemes are passed, whatever follows them. -/
theorem passLexemes?_append (h : AreLexemes ss ls) (more : List Spelled) :
    passLexemes? ls (ss ++ more) = some more := by
  induction ls generalizing ss with
  | nil =>
    rw [List.map_eq_nil_iff.1 h]
    rfl
  | cons l ls ih =>
    obtain ⟨s, ss, rfl, hs, hss⟩ := List.map_eq_cons_iff.1 h
    rw [List.cons_append, passLexemes?, if_pos hs]
    exact ih hss

/-- The leading lexemes include those of all tokens that are lexemes. -/
theorem leadingLexemes_append (h : AreLexemes ss ls) (more : List Spelled) :
    leadingLexemes (ss ++ more) = ls ++ leadingLexemes more := by
  induction ls generalizing ss with
  | nil =>
    rw [List.map_eq_nil_iff.1 h]
    rfl
  | cons l ls ih =>
    obtain ⟨s, ss, rfl, hs, hss⟩ := List.map_eq_cons_iff.1 h
    rw [List.cons_append, leadingLexemes, hs]
    exact congrArg (l :: ·) (ih hss)

/-- A path is read as its text. -/
theorem readReference?_append {reference : String} (hpath : isPath reference)
    (h : AreLexemes ss (pathLexemes reference)) {more : List Spelled}
    (hmore : endsPath (leadingLexemes more)) :
    readReference? (ss ++ more) = some (reference, more) := by
  have hlength : ss.length = (pathLexemes reference).length := by
    have hmap := congrArg List.length h
    rwa [List.length_map, List.length_map] at hmap
  rw [readReference?, leadingLexemes_append h, readPath?_lexemes hpath hmore]
  show some (reference, (ss ++ more).drop (_ - _)) = _
  rw [List.length_append, Nat.add_sub_cancel, ← hlength, List.drop_left]

/-! ## Expressions in parentheses -/

/-- What follows an element of a text without comments has none either. -/
theorem isCommentFree_of_element? {ts : List Token} (h : element? cs = some (ts, rest))
    (hfree : isCommentFree cs) : beginsComment cs = false ∧ isCommentFree rest := by
  rw [isCommentFree, h, Bool.and_eq_true, Bool.not_eq_true'] at hfree
  exact hfree

/-- Where no comment begins anywhere, none begins at the front. -/
theorem beginsComment_of_isCommentFree (h : isCommentFree cs) : beginsComment cs = false := by
  rw [isCommentFree, Bool.and_eq_true, Bool.not_eq_true'] at h
  exact h.1

/-- The tokens of a text without comments stand in front of a parenthesis as they stand alone. -/
theorem spells_closed (tail : List Char) (h : spelled? cs = some ss) (hfree : isCommentFree cs) :
    Spells (closedBy cs tail) ss (')' :: tail) := by
  fun_induction spelled? cs generalizing ss with
  | case1 cs hempty =>
    obtain rfl := List.isEmpty_iff.1 hempty
    rw [← Option.some.inj h]
    exact .nil _
  | case2 cs _ rest helement ih =>
    obtain ⟨hcs, hrest⟩ := isCommentFree_of_element? helement hfree
    have hclosed := element?_closed tail helement hcs (beginsComment_of_isCommentFree hrest)
    exact .gap hclosed (ih h hrest)
  | case3 cs _ t rest helement ih =>
    obtain ⟨hcs, hrest⟩ := isCommentFree_of_element? helement hfree
    have hclosed := element?_closed tail helement hcs (beginsComment_of_isCommentFree hrest)
    obtain ⟨ss, hss, rfl⟩ := Option.map_eq_some_iff.1 h
    have hspelling : (closedBy cs tail).take
        ((closedBy cs tail).length - (closedBy rest tail).length)
          = cs.take (cs.length - rest.length) := by
      rw [closedBy, closedBy, List.length_append, List.length_append, Nat.add_sub_add_right,
        List.take_append_of_le_length (Nat.sub_le _ _)]
    rw [Spells, spelled?_of_element? hclosed, ih hss hrest, hspelling, Option.map_map]
    rfl
  | case4 => exact absurd h (by simp)

/-- The tokens of an expression are split off at the parenthesis that closes them. -/
theorem splitGroup?_append {brackets : List Bracket} (h : closesAll brackets ss)
    (spelling : List Char) (more : List Spelled) :
    splitGroup? brackets (ss ++ ⟨.closing .paren, spelling⟩ :: more) = some (ss, more) := by
  induction ss generalizing brackets with
  | nil =>
    have hnil : brackets = [] := List.isEmpty_iff.1 h
    rw [List.nil_append, splitGroup?, if_pos ⟨hnil, rfl⟩]
  | cons s ss ih =>
    rw [closesAll] at h
    cases hafter : bracketsAfter? brackets s.token with
    | none => exact absurd h (by simp [hafter])
    | some after =>
      have hinside : ¬ (brackets = [] ∧ s.token = .closing .paren) := by
        rintro ⟨rfl, htoken⟩
        rw [htoken] at hafter
        exact absurd hafter (by simp [bracketsAfter?])
      rw [hafter] at h
      rw [List.cons_append, splitGroup?, if_neg hinside, hafter]
      show (splitGroup? after _).bind _ = _
      rw [ih h]
      rfl

/-! ## Decimal literals -/

/-- Whether a character may stand in a decimal literal after its first digit. -/
def isDecimalChar (c : Char) : Bool :=
  c.isDigit || c == '_'

/-- A plain decimal is a digit with more digits and underscores behind it. -/
theorem plainDecimal?_eq_some {n : Nat} (h : plainDecimal? cs = some n) :
    ∃ c ds, cs = c :: ds ∧ c.isDigit ∧ ds.all isDecimalChar ∧ n = digitsValue 10 cs := by
  rw [plainDecimal?, Option.ite_none_right_eq_some, Bool.and_eq_true, Option.some.injEq] at h
  obtain ⟨⟨hhead, hall⟩, rfl⟩ := h
  cases cs with
  | nil => exact absurd hhead (by simp)
  | cons c ds =>
    rw [List.all_cons, Bool.and_eq_true] at hall
    exact ⟨c, ds, rfl, hhead, hall.2, rfl⟩

section Decimals

variable {ds : List Char} (hds : ds.all isDecimalChar)

include hds

theorem afterFraction?_decimalChars (rest : List Char) :
    afterFraction? false (ds ++ rest) = afterFraction? false rest := by
  induction ds with
  | nil => rfl
  | cons c ds ih =>
    rw [List.all_cons, Bool.and_eq_true, isDecimalChar, Bool.or_eq_true, beq_iff_eq] at hds
    rw [List.cons_append, afterFraction?, if_pos hds.1, ih hds.2]

/-- All digits and underscores belong to one number. -/
theorem afterDigits?_decimalChars (rest : List Char) :
    afterDigits? 10 false (ds ++ rest) = afterDigits? 10 false rest := by
  induction ds with
  | nil => rfl
  | cons c ds ih =>
    rw [List.all_cons, Bool.and_eq_true, isDecimalChar, Bool.or_eq_true, beq_iff_eq] at hds
    rw [List.cons_append, afterDigits?]
    split
    · exact (if_neg (by simp)).trans (ih hds.2)
    · next hc =>
      obtain ⟨d, hd, hvalue⟩ := hexValue?_of_isDigit (hds.1.resolve_right hc)
      rw [hvalue]
      exact (if_pos hd).trans (ih hds.2)

/-- The second character of a decimal literal marks no base. -/
theorem decimalChars_ne_mark {b : Char} {cs : List Char} (hb : b = 'x' ∨ b = 'o' ∨ b = 'b')
    (c : Char) (rest : List Char) : c :: (ds ++ ' ' :: rest) ≠ '0' :: b :: cs := by
  intro heq
  have hletter : isDecimalChar b = false ∧ b ≠ ' ' := by
    rcases hb with rfl | rfl | rfl <;> decide
  cases ds with
  | nil => exact hletter.2 (List.cons.inj (List.cons.inj heq).2).1.symm
  | cons d ds =>
    rw [List.all_cons, Bool.and_eq_true, (List.cons.inj (List.cons.inj heq).2).1] at hds
    exact absurd hds.1 (by simp [hletter.1])

/-- A decimal in front of a blank ends there. -/
theorem afterNumber?_decimalChars {c : Char} (hc : c.isDigit) (rest : List Char) :
    afterNumber? (c :: (ds ++ ' ' :: rest)) = some (' ' :: rest) := by
  have hfraction : afterFraction? false (ds ++ ' ' :: rest) = none :=
    afterFraction?_decimalChars hds _
  have hten : afterDigits? 10 true (c :: (ds ++ ' ' :: rest)) = some (' ' :: rest) := by
    obtain ⟨d, hd, hvalue⟩ := hexValue?_of_isDigit hc
    have hgap : c ≠ '_' := by
      rintro rfl
      exact absurd hc (by decide)
    rw [afterDigits?, if_neg hgap, hvalue]
    exact (if_pos hd).trans (afterDigits?_decimalChars hds _)
  have hinteger : afterInteger? (c :: (ds ++ ' ' :: rest)) = some (' ' :: rest) := by
    unfold afterInteger?
    split
    case h_1 heq => exact absurd heq (decimalChars_ne_mark hds (.inl rfl) c rest)
    case h_2 heq => exact absurd heq (decimalChars_ne_mark hds (.inr (.inl rfl)) c rest)
    case h_3 heq => exact absurd heq (decimalChars_ne_mark hds (.inr (.inr rfl)) c rest)
    case h_4 => exact hten
  rw [afterNumber?, if_pos hc, hfraction, hinteger]
  rfl

end Decimals

/-- A decimal literal in front of a gap is one token. -/
theorem spells_decimal {n : Nat} (h : plainDecimal? cs = some n) (rest : List Char) :
    ∃ kind, Spells (cs ++ ' ' :: rest) [⟨.literal kind, cs⟩] (' ' :: rest) := by
  obtain ⟨c, ds, rfl, hc, hds, -⟩ := plainDecimal?_eq_some h
  exact ⟨_, .token (element?_digit hc (afterNumber?_decimalChars hds hc rest)) (.nil _)⟩

/-! ## Operands -/

/-- The sign and the number of a decimal literal. -/
def signedDecimal? : List Char → Option (Bool × Nat)
  | '-' :: cs => (plainDecimal? cs).map (true, ·)
  | cs => (plainDecimal? cs).map (false, ·)

/-- In front of a gap, a text is read as an operand. -/
def IsRead (cs : List Char) (operand : Operand) : Prop :=
  ∀ rest, ∃ ss, Spells (cs ++ ' ' :: rest) ss (' ' :: rest)
    ∧ ∀ more, readOperand? (ss ++ more) = some (operand, more)

/-- A decimal literal is read as the number that it denotes. -/
theorem isRead_decimal {isNegative : Bool} {n : Nat}
    (h : signedDecimal? cs = some (isNegative, n)) : IsRead cs (.literal isNegative n) := by
  intro rest
  unfold signedDecimal? at h
  split at h
  · next cs =>
    obtain ⟨m, hm, heq⟩ := Option.map_eq_some_iff.1 h
    obtain ⟨rfl, rfl⟩ := Prod.mk.inj heq
    obtain ⟨kind, hspells⟩ := spells_decimal hm rest
    have hsign : element? (['-'] ++ (cs ++ ' ' :: rest))
        = some ([.sign .minus (beginsSign (cs ++ ' ' :: rest))], cs ++ ' ' :: rest) :=
      element?_sign (by decide) (beginsComment_eq_false (by decide))
    have hspelled := Spells.token hsign hspells
    refine ⟨_, hspelled, fun more => ?_⟩
    show (plainDecimal? cs).map _ = _
    rw [hm]
    rfl
  · obtain ⟨m, hm, heq⟩ := Option.map_eq_some_iff.1 h
    obtain ⟨rfl, rfl⟩ := Prod.mk.inj heq
    obtain ⟨kind, hspells⟩ := spells_decimal hm rest
    refine ⟨_, hspells, fun more => ?_⟩
    rw [List.singleton_append, readOperand?, hm]
    rfl

/-- An expression in parentheses is read as the group of its tokens. -/
theorem isRead_group (h : spelled? cs = some ss) (hfree : isCommentFree cs)
    (hclosed : closesAll [] ss) : IsRead ('(' :: (cs ++ [')'])) (.group ss) := by
  intro rest
  have hopen : element? ('(' :: closedBy cs (' ' :: rest))
      = some ([.opening .paren], closedBy cs (' ' :: rest)) :=
    element?_parenthesis _ (beginsComment_of_isCommentFree hfree)
  have hclose : element? ([')'] ++ ' ' :: rest) = some ([.closing .paren], ' ' :: rest) :=
    element?_closing .paren
  have htext : '(' :: (cs ++ [')']) ++ ' ' :: rest = ['('] ++ closedBy cs (' ' :: rest) := by
    rw [closedBy, List.cons_append, List.append_assoc]
    rfl
  refine ⟨⟨.opening .paren, ['(']⟩ :: (ss ++ [⟨.closing .paren, [')']⟩]), ?_, fun more => ?_⟩
  · rw [htext]
    exact .token hopen ((spells_closed _ h hfree).trans (.token hclose (.nil _)))
  · rw [List.cons_append, List.append_assoc, readOperand?]
    show (splitGroup? [] _).bind _ = _
    rw [List.singleton_append, splitGroup?_append hclosed]
    rfl

/-! ## Comparisons -/

/-- Tokens that are lexemes in two rows fall into two parts. -/
theorem AreLexemes.split {ls ls' : List Lexeme} (h : AreLexemes ss (ls ++ ls')) :
    ∃ ss₁ ss₂, ss = ss₁ ++ ss₂ ∧ AreLexemes ss₁ ls ∧ AreLexemes ss₂ ls' := by
  rw [AreLexemes, List.map_append] at h
  exact List.map_eq_append_iff.1 h

/-- The text of an assertion that compares a constant with an operand. -/
def comparisonText (reference operand : String) : String :=
  "assert!(" ++ reference ++ ".0 - " ++ operand ++ " == 0);"

/-- The lexemes of an assertion, up to the gap before its operand. -/
theorem cut_comparisonHead {reference : String} (hpath : isPath reference) (rest : List Char) :
    Cut (("assert!(" ++ reference ++ ".0 -").toList ++ ' ' :: rest)
      (assertHead ++ pathLexemes reference ++ assertField) rest := by
  have hpieces : assertionHead reference = ([.name "assert", .signs [('!', .bang)] false,
      .opening .paren] ++ pathPieces reference ++ [.dot, .number 0 "", .gap,
      .signs [('-', .minus)] false]) ++ [.gap] := by
    rw [assertionHead, List.append_assoc _ _ [Piece.gap]]
    rfl
  have hrow := isRow_assertionHead hpath
  rw [hpieces] at hrow
  have hcut := cut_pieces_gap (.inl rfl) hrow.isValid hrow.isChain rest
  rw [piecesLexemes_append, piecesLexemes_append, piecesChars_append, piecesChars_append,
    ← toList_path hpath] at hcut
  rw [String.toList_append, String.toList_append]
  exact hcut

theorem cut_comparisonEnd (rest : List Char) :
    Cut (" == 0);".toList ++ '\n' :: rest) assertEnd rest :=
  cut_pieces_gap (.inr rfl) isRow_assertionTail.isValid isRow_assertionTail.isChain rest

/-- A line is read as a comparison, and not as the end of a guard. -/
structure IsReadLine (cs : List Char) (a : Comparison) : Prop where
  exists_tokens : ∀ rest, ∃ ss, Spells (cs ++ '\n' :: rest) ss rest
    ∧ (∀ more, readComparison? (ss ++ more) = some (a, more))
    ∧ (∀ more, passLexemes? [.closing .brace] (ss ++ more) = none) ∧ ss ≠ []

/-- The line of an assertion is read as the comparison that was written. -/
theorem isReadLine_comparisonText {reference text : String} {operand : Operand}
    (hpath : isPath reference) (h : IsRead text.toList operand) :
    IsReadLine (comparisonText reference text).toList ⟨reference, operand⟩ := by
  refine ⟨fun rest => ?_⟩
  -- the lexemes before and after the operand are known; those of the operand are read by `h`
  obtain ⟨ssEnd, hend, hspellsEnd⟩ := (cut_comparisonEnd rest).spells
  obtain ⟨ssOperand, hspellsOperand, hread⟩ := h ("== 0);".toList ++ '\n' :: rest)
  obtain ⟨ssHead, hhead, hspellsHead⟩ := (cut_comparisonHead hpath
    (text.toList ++ (" == 0);".toList ++ '\n' :: rest))).spells
  obtain ⟨ssBefore, ssField, rfl, hbefore, hfield⟩ := hhead.split
  obtain ⟨ssAssert, ssPath, rfl, hassert, hreference⟩ := hbefore.split
  obtain ⟨s, ss, rfl, hs, -⟩ := List.map_eq_cons_iff.1 hassert
  refine ⟨(s :: ss ++ ssPath ++ ssField) ++ (ssOperand ++ ssEnd), ?_, fun more => ?_,
    fun more => ?_, by simp⟩
  · have htext : (comparisonText reference text).toList ++ '\n' :: rest
        = ("assert!(" ++ reference ++ ".0 -").toList
          ++ ' ' :: (text.toList ++ (" == 0);".toList ++ '\n' :: rest)) := by
      simp [comparisonText]
    rw [htext]
    exact hspellsHead.trans (hspellsOperand.trans hspellsEnd)
  · have hafter : endsPath (leadingLexemes (ssField ++ (ssOperand ++ (ssEnd ++ more)))) := by
      rw [leadingLexemes_append hfield]
      rfl
    simp only [List.append_assoc]
    rw [readComparison?, passLexemes?_append hassert]
    show (readReference? _).bind _ = _
    rw [readReference?_append hpath hreference hafter]
    show (passLexemes? assertField _).bind _ = _
    rw [passLexemes?_append hfield]
    show (readOperand? _).bind _ = _
    rw [hread]
    show (passLexemes? assertEnd _).bind _ = _
    rw [passLexemes?_append hend]
    rfl
  · rw [List.append_assoc, List.append_assoc, List.append_assoc, List.cons_append, passLexemes?,
      if_neg]
    rw [hs]
    exact fun h => absurd (Option.some.inj h) (by simp)

end EnumNames.Code
