import EnumNames.Code.Print
import EnumNames.Code.Read
import EnumNames.Proofs.Code.Piece
import EnumNames.Text.Pieces

/-!
# Lexemes of expressions

The text of an expression is made up of pieces, each of which may stand before the next one.

* `Expr.IsReadable`: an expression whose text is not read as another one.
* `Expr.toList_text`: the text of an expression is made up of its pieces.
* `Expr.isOperand_pieces`: the pieces of an expression may stand in a row.
* `piecesLexemes_pieces`: the lexemes of an expression.
-/

namespace EnumNames.Code

open Target Text

/-! ## Paths -/

/-- Whether a word can be a name in a path. -/
def isPathName (name : String) : Bool :=
  isPlainIdentifier name || name ∈ ["crate", "super", "self", "Self"]

/-- The text of a path: names with separators between them, perhaps after one. -/
def pathText (isGlobal : Bool) (names : List String) : String :=
  match names with
  | [] => ""
  | name :: names =>
    (if isGlobal then "::" else "") ++ name ++ String.join (names.map ("::" ++ ·))

/-- Whether a text begins with a separator. -/
def isGlobal (text : String) : Bool :=
  text.toList.head? == some ':'

/-- The names between the separators of a text. -/
def pathNames (text : String) : List String :=
  ((pieces ':' text.toList).filter fun name => !name.isEmpty).map String.ofList

/-- Whether a text is a path without type arguments. -/
def isPath (text : String) : Bool :=
  !(pathNames text).isEmpty && (pathNames text).all isPathName
    && pathText (isGlobal text) (pathNames text) == text

/-! ## Pieces of expressions -/

namespace Piece

abbrev comma : Piece := signs [(',', .comma)] false

abbrev semi : Piece := signs [(';', .semi)] false

abbrev colon : Piece := signs [(':', .colon)] false

abbrev dot : Piece := signs [('.', .dot)] false

abbrev amp : Piece := signs [('&', .amp)] false

abbrev set : Piece := signs [('=', .eq)] false

abbrev separator : Piece := signs [(':', .colon), (':', .colon)] false

abbrev arrow : Piece := signs [('=', .eq), ('>', .greater)] false

end Piece

/-- The pieces of a number, which may be negative. -/
def intPieces (n : Int) : List Piece :=
  if n < 0 then [.signs [('-', .minus)] false, .number n.natAbs ""] else [.number n.natAbs ""]

/-- The signs of an operator. -/
def BinOp.signs : BinOp → List (Char × Sign)
  | add => [('+', .plus)]
  | sub => [('-', .minus)]
  | div => [('/', .slash)]
  | less => [('<', .less)]
  | atLeast => [('>', .greater), ('=', .eq)]
  | atMost => [('<', .less), ('=', .eq)]
  | equal => [('=', .eq), ('=', .eq)]
  | or => [('|', .pipe), ('|', .pipe)]

/-- The piece of a name in a path. -/
def namePiece (name : String) : Piece :=
  match keywords.lookup name with
  | some k => .keyword name k
  | none => .name name

/-- The pieces of names with separators before them. -/
def morePieces (names : List String) : List Piece :=
  names.flatMap fun name => [.separator, namePiece name]

/-- The pieces of a path. -/
def pathPieces (text : String) : List Piece :=
  match pathNames text with
  | [] => []
  | name :: names =>
    (if isGlobal text then [.separator] else []) ++ namePiece name :: morePieces names

/-- The pieces of an expression. -/
def Expr.pieces : Expr → List Piece
  | receiver => [.keyword "self" .selfValue, .dot, .number 0 ""]
  | var name => [.name name]
  | int n => intPieces n
  | typedInt type n => [.number n type.name]
  | literal s => [.text s]
  | cast e type => e.pieces ++ [.gap, .keyword "as" .asKw, .gap, .name type.name]
  | binary op a b => a.pieces ++ [.gap, .signs op.signs false, .gap] ++ b.pieces
  | within low high x =>
    [.opening .paren] ++ intPieces low
      ++ [.signs [('.', .dot), ('.', .dot), ('=', .eq)] (decide (high < 0))] ++ intPieces high
      ++ [.closing .paren, .dot, .name "contains", .opening .paren, .amp, .name x, .closing .paren]
  | length array => [.name array, .dot, .name "len", .opening .paren, .closing .paren]
  | element array i => [.name array, .opening .square] ++ i.pieces ++ [.closing .square]
  | slice s low high =>
    [.amp, .name s, .opening .square] ++ low.pieces
      ++ [.signs [('.', .dot), ('.', .dot)] false] ++ high.pieces ++ [.closing .square]
  | wrappingMul x n =>
    [.name x, .dot, .name "wrapping_mul", .opening .paren, .number n "", .closing .paren]
  | paren e => [.opening .paren] ++ e.pieces ++ [.closing .paren]
  | path reference => pathPieces reference
  | someOf e => [.name "Some", .opening .paren] ++ e.pieces ++ [.closing .paren]
  | none => [.name "None"]
  | writeText e =>
    [.name "f", .dot, .name "write_str", .opening .paren] ++ e.pieces ++ [.closing .paren]
  | writeNumber template e =>
    [.name "write", .signs [('!', .bang)] false, .opening .paren, .name "f", .comma, .gap,
      .text template, .comma, .gap] ++ e.pieces ++ [.closing .paren]

/-- How tightly an expression binds: by its operator outside brackets, or more than any. -/
def Expr.rank : Expr → Nat
  | binary op _ _ => op.level.rank
  | cast _ _ => Level.cast.rank
  | _ => Level.cast.rank + 1

/-- No operator binds less tightly than the disjunction. -/
theorem Expr.or_rank_le (e : Expr) : Level.or.rank ≤ e.rank := by
  cases e with
  | binary op a b =>
    show Level.or.rank ≤ op.level.rank
    cases op <;> decide
  | _ => simp [rank, Level.rank]

/-- Whether an expression begins with a word that is no keyword. -/
def Expr.beginsWord : Expr → Bool
  | var _ | length _ | element _ _ | wrappingMul _ _ => true
  | cast e _ => e.beginsWord
  | binary _ a _ => a.beginsWord
  | _ => false

/-- Whether an expression ends in a type. -/
def Expr.endsInType : Expr → Bool
  | cast _ _ => true
  | binary _ _ b => b.endsInType
  | _ => false

/-- The lowest rank of the left operand of an operator. Comparisons do not stand in a row. -/
def BinOp.leftRank (op : BinOp) : Nat :=
  if op.level = .compare then op.level.rank + 1 else op.level.rank

/-- A left operand binds at least as tightly as its operator. -/
theorem BinOp.rank_le_leftRank (op : BinOp) : op.level.rank ≤ op.leftRank := by
  unfold leftRank
  split <;> omega

/-- The expressions whose texts are not read as other ones: operands bind tightly enough, and names
are identifiers. -/
def Expr.IsReadable : Expr → Prop
  | var x => isPlainIdentifier x ∧ x ≠ "None"
  | cast e _ => e.IsReadable ∧ Level.cast.rank ≤ e.rank
  | binary op a b =>
    a.IsReadable ∧ b.IsReadable ∧ op.leftRank ≤ a.rank ∧ op.level.rightRank ≤ b.rank
      ∧ (op = .less → a.endsInType = false)
  | within _ _ x => isPlainIdentifier x
  | length array => isPlainIdentifier array
  | element array i => isPlainIdentifier array ∧ i.IsReadable
  | slice s low high =>
    isPlainIdentifier s ∧ low.IsReadable ∧ high.IsReadable
      ∧ (high.beginsWord ∨ ∃ n : Nat, high = .int n)
  | wrappingMul x _ => isPlainIdentifier x
  | paren e => e.IsReadable ∧ e.beginsWord
  | path _ => False
  | someOf (path reference) => isPath reference
  | someOf (element array i) => isPlainIdentifier array ∧ i.IsReadable
  | someOf _ => False
  | writeText e | writeNumber _ e => e.IsReadable
  | receiver | int _ | typedInt _ _ | literal _ | none => True

/-- Two readable expressions with an operator between them, if it binds less tightly than theirs. -/
theorem Expr.isReadable_binary {op : BinOp} {a b : Expr} (ha : a.IsReadable) (hb : b.IsReadable)
    (h : (decide (op.leftRank ≤ a.rank) && decide (op.level.rightRank ≤ b.rank)
      && (op != .less || !a.endsInType)) = true) : (binary op a b).IsReadable := by
  simp only [Bool.and_eq_true, Bool.or_eq_true, decide_eq_true_eq, bne_iff_ne,
    Bool.not_eq_true'] at h
  exact ⟨ha, hb, h.1.1, h.1.2, fun hop => h.2.resolve_left (not_not_intro hop)⟩

/-! ## Characters of pieces -/

theorem piecesChars_append (ps qs : List Piece) :
    piecesChars (ps ++ qs) = piecesChars ps ++ piecesChars qs :=
  List.flatMap_append

theorem piecesChars_cons (p : Piece) (ps : List Piece) :
    piecesChars (p :: ps) = p.chars ++ piecesChars ps :=
  List.flatMap_cons

/-- An integer is written with the characters of its pieces. -/
theorem toList_repr_int (n : Int) : n.repr.toList = piecesChars (intPieces n) := by
  rw [intPieces]
  cases n with
  | ofNat n =>
    have hnat : (Int.ofNat n).repr = n.repr := rfl
    rw [if_neg (by simp), hnat]
    simp [piecesChars, Piece.chars]
  | negSucc n =>
    have hnat : (Int.negSucc n).repr = "-" ++ (n + 1).repr := rfl
    rw [if_pos (Int.negSucc_lt_zero n), hnat]
    simp [piecesChars, Piece.chars]

theorem chars_namePiece (name : String) : (namePiece name).chars = name.toList := by
  rw [namePiece]
  split <;> rfl

/-- The names that go on a path are written with the characters of their pieces. -/
theorem toList_join_morePieces (names : List String) :
    (String.join (names.map ("::" ++ ·))).toList = piecesChars (morePieces names) := by
  induction names with
  | nil => rfl
  | cons name names ih =>
    have hcons : morePieces (name :: names)
        = .separator :: namePiece name :: morePieces names := rfl
    rw [List.map_cons, String.join_cons, String.toList_append, String.toList_append, ih, hcons,
      piecesChars_cons, piecesChars_cons, chars_namePiece, List.append_assoc]
    rfl

/-- A path is written with the characters of its pieces. -/
theorem toList_path {reference : String} (h : isPath reference) :
    reference.toList = piecesChars (pathPieces reference) := by
  simp only [isPath, Bool.and_eq_true, beq_iff_eq] at h
  rw [pathPieces]
  conv_lhs => rw [← h.2]
  cases pathNames reference with
  | nil => rfl
  | cons name names =>
    simp only [pathText, String.toList_append, toList_join_morePieces]
    cases isGlobal reference with
    | false => simp [piecesChars, chars_namePiece]
    | true =>
      show _ = piecesChars ([.separator] ++ namePiece name :: morePieces names)
      rw [piecesChars_append, piecesChars_cons (namePiece name), chars_namePiece,
        List.append_assoc]
      rfl

/-- An operator is written with the characters of its signs. -/
theorem BinOp.toList_sign (op : BinOp) : op.sign.toList = op.signs.map Prod.fst := by
  cases op <;> rfl

/-- The text of an expression is made up of its pieces. -/
theorem Expr.toList_text {e : Expr} (h : e.IsReadable) : e.text.toList = piecesChars e.pieces := by
  induction e with
  | receiver => rfl
  | none => rfl
  | int n => exact toList_repr_int n
  | var x => simp [text, pieces, piecesChars, Piece.chars]
  | literal s => simp [text, pieces, piecesChars, Piece.chars]
  | typedInt type n => simp [text, pieces, piecesChars, Piece.chars]
  | length array => simp [text, pieces, piecesChars, Piece.chars, openingChar, closingChar]
  | wrappingMul x n => simp [text, pieces, piecesChars, Piece.chars, openingChar, closingChar]
  | within low high x =>
    have hlow := toList_repr_int low
    have hhigh := toList_repr_int high
    simp [text, pieces, piecesChars, Piece.chars, openingChar, closingChar, hlow, hhigh]
  | cast e type ih => simp [text, pieces, piecesChars, Piece.chars, ih h.1]
  | binary op a b iha ihb =>
    have hsign := op.toList_sign
    simp [text, pieces, piecesChars, Piece.chars, iha h.1, ihb h.2.1, hsign]
  | element array i ih =>
    simp [text, pieces, piecesChars, Piece.chars, openingChar, closingChar, ih h.2]
  | slice s low high ihlow ihhigh =>
    simp [text, pieces, piecesChars, Piece.chars, openingChar, closingChar, ihlow h.2.1,
      ihhigh h.2.2.1]
  | paren e ih => simp [text, pieces, piecesChars, Piece.chars, openingChar, closingChar, ih h.1]
  | path reference => exact absurd h (by simp [IsReadable])
  | writeText e ih => simp [text, pieces, piecesChars, Piece.chars, openingChar, closingChar, ih h]
  | writeNumber template e ih =>
    simp [text, pieces, piecesChars, Piece.chars, openingChar, closingChar, ih h]
  | someOf e ih =>
    have he : e.text.toList = piecesChars e.pieces := by
      cases e with
      | path reference => exact toList_path h
      | element array i => exact ih h
      | _ => exact absurd h (by simp [IsReadable])
    simp [text, pieces, piecesChars, Piece.chars, openingChar, closingChar, he]

/-! ## Rows of pieces -/

/-- Whether a piece may stand after an expression. -/
def Piece.follows (q : Piece) : Bool :=
  q.isApart && q.endsNumber

/-- Whether an expression may end in a piece. -/
def Piece.endsOperand : Piece → Bool
  | name _ | keyword _ _ | number _ _ | text _ | closing _ => true
  | _ => false

/-- Valid pieces, each of which may stand before the next one. -/
structure IsRow (ps : List Piece) : Prop where
  isValid : ∀ p ∈ ps, p.IsValid
  isChain : ps.IsChain fun p q => p.allows q = true

/-- A row of pieces that may stand after a gap or an opening bracket, and before what may follow an
expression. -/
structure IsOperand (ps : List Piece) : Prop extends IsRow ps where
  ne_nil : ps ≠ []
  first : ∀ p ∈ ps.head?, p.firstSign? ≠ some '/'
  last : ∀ p ∈ ps.getLast?, p.endsOperand

/-- What may follow an operand may stand behind any piece that ends one. -/
theorem Piece.allows_of_follows {p q : Piece} (hp : p.endsOperand) (hq : q.follows) :
    p.allows q := by
  rw [follows, Bool.and_eq_true] at hq
  cases p with
  | name x => exact hq.1
  | keyword x k => exact hq.1
  | text s => exact hq.1
  | number n suffix => exact (Bool.and_eq_true _ _).mpr hq
  | closing b => rfl
  | _ => exact absurd hp (by simp [endsOperand])

/-- Two rows make up a row if the last piece of the first allows the first of the second. -/
theorem IsRow.append {ps qs : List Piece} (hps : IsRow ps) (hqs : IsRow qs)
    (h : ∀ p ∈ ps.getLast?, ∀ q ∈ qs.head?, p.allows q) : IsRow (ps ++ qs) := by
  refine ⟨fun p hp => ?_, List.isChain_append.2 ⟨hps.isChain, hqs.isChain, h⟩⟩
  rcases List.mem_append.1 hp with hp | hp
  · exact hps.isValid p hp
  · exact hqs.isValid p hp

theorem isRow_singleton {p : Piece} (h : p.IsValid) : IsRow [p] := by
  refine ⟨fun q hq => ?_, List.isChain_singleton p⟩
  rw [List.mem_singleton.1 hq]
  exact h

section Operand

variable {ps qs : List Piece}

/-- An operand can be followed by a row whose first piece follows operands. -/
theorem IsOperand.append (hps : IsOperand ps) (hqs : IsRow qs)
    (hfirst : ∀ q ∈ qs.head?, q.follows) : IsRow (ps ++ qs) :=
  hps.toIsRow.append hqs fun p hp q hq => Piece.allows_of_follows (hps.last p hp) (hfirst q hq)

/-- The first piece of two rows is the one of the first row. -/
theorem first_append (hne : ps ≠ []) (h : ∀ p ∈ ps.head?, p.firstSign? ≠ some '/') :
    ∀ p ∈ (ps ++ qs).head?, p.firstSign? ≠ some '/' := by
  rw [List.head?_append_of_ne_nil ps hne]
  exact h

/-- An operand between a row and a closing bracket. -/
theorem IsOperand.enclosed (hps : IsOperand ps) (hqs : IsRow qs) (hne : qs ≠ [])
    (hfirst : ∀ q ∈ qs.head?, q.firstSign? ≠ some '/')
    (hlast : ∀ q ∈ qs.getLast?, ∀ p ∈ ps.head?, q.allows p) (b : Bracket) :
    IsOperand (qs ++ ps ++ [.closing b]) := by
  have hrow : IsRow (ps ++ [.closing b]) :=
    hps.append (isRow_singleton trivial) fun q hq => by
      rw [← Option.some.inj hq]
      rfl
  rw [List.append_assoc]
  refine ⟨hqs.append hrow ?_, by simp [hne], first_append hne hfirst, fun p hp => ?_⟩
  · rw [List.head?_append_of_ne_nil ps hps.ne_nil]
    exact hlast
  · rw [← List.append_assoc, List.getLast?_concat] at hp
    rw [← Option.some.inj hp]
    rfl

/-- An operator stands between blanks. -/
theorem IsRow.operator (op : BinOp) : IsRow [.gap, .signs op.signs false, .gap] := by
  have hvalid : areSigns op.signs := by cases op <;> decide
  refine ⟨fun p hp => ?_, by cases op <;> exact of_decide_eq_true rfl⟩
  simp only [List.mem_cons, List.not_mem_nil, or_false] at hp
  rcases hp with rfl | rfl | rfl
  · trivial
  · exact hvalid
  · trivial

/-- Two operands with an operator between them. -/
theorem IsOperand.binary (hps : IsOperand ps) (hqs : IsOperand qs) (op : BinOp) :
    IsOperand (ps ++ [.gap, .signs op.signs false, .gap] ++ qs) := by
  have hleft : IsRow (ps ++ [.gap, .signs op.signs false, .gap]) :=
    hps.append (.operator op) fun q hq => by
      rw [← Option.some.inj hq]
      rfl
  refine ⟨hleft.append hqs.toIsRow fun p hp q hq => ?_, by simp [hps.ne_nil], ?_, ?_⟩
  · rw [show ps ++ [.gap, .signs op.signs false, .gap]
      = ps ++ [.gap, .signs op.signs false] ++ [.gap] by simp, List.getLast?_concat] at hp
    rw [← Option.some.inj hp]
    rfl
  · rw [List.append_assoc]
    exact first_append hps.ne_nil hps.first
  · rw [List.getLast?_append_of_ne_nil _ hqs.ne_nil]
    exact hqs.last

/-- An operand with a type after it. -/
theorem IsOperand.cast (hps : IsOperand ps) {name : String} (hname : isPlainIdentifier name) :
    IsOperand (ps ++ [.gap, .keyword "as" .asKw, .gap, .name name]) := by
  have hrow : IsRow [.gap, .keyword "as" .asKw, .gap, .name name] := by
    refine ⟨?_, of_decide_eq_true rfl⟩
    simpa +decide [Piece.IsValid] using hname
  refine ⟨hps.append hrow fun q hq => ?_, by simp, first_append hps.ne_nil hps.first, ?_⟩
  · rw [← Option.some.inj hq]
    rfl
  · rw [List.getLast?_append_of_ne_nil _ (by simp)]
    rintro p hp
    rw [← Option.some.inj hp]
    rfl

/-- An operand may stand behind an opening bracket. -/
theorem IsOperand.opening_allows (h : IsOperand ps) (b : Bracket) :
    ∀ q ∈ some (Piece.opening b), ∀ p ∈ ps.head?, q.allows p := by
  intro q hq p hp
  rw [← Option.some.inj hq]
  exact bne_iff_ne.2 (h.first p hp)

theorem IsOperand.gap_allows : ∀ q ∈ some Piece.gap, ∀ p ∈ ps.head?, q.allows p := by
  intro q hq p hp
  rw [← Option.some.inj hq]
  rfl

/-- Two operands with points between them; what is before the first one ends in a bracket. -/
theorem IsOperand.span {before after : List Piece} {l : List (Char × Sign)} {joined : Bool}
    (hps : IsOperand ps) (hqs : IsOperand qs) {b : Bracket} (hbefore : IsRow (before ++ [Piece.opening b]))
    (hfirst : ∀ p ∈ (before ++ [Piece.opening b]).head?, p.firstSign? ≠ some '/')
    (hvalid : areSigns l) (hslash : l.all (·.1 != '/')) (hfollows : (Piece.signs l joined).follows)
    (hjoined : ∀ q ∈ qs.head?, q.opensSign = joined) (hafter : IsRow after)
    (hnext : ∀ q ∈ after.head?, q.follows) (hne : after ≠ [])
    (hlast : ∀ p ∈ after.getLast?, p.endsOperand) :
    IsOperand (before ++ [.opening b] ++ ps ++ [.signs l joined] ++ qs ++ after) := by
  have hpoint : IsRow [Piece.signs l joined] := isRow_singleton hvalid
  have hpoints : IsRow ([Piece.signs l joined] ++ (qs ++ after)) := by
    refine hpoint.append (hqs.append hafter hnext) fun p hp q hq => ?_
    rw [List.head?_append_of_ne_nil qs hqs.ne_nil] at hq
    rw [← Option.some.inj hp]
    show (joined == q.opensSign && (l.all (·.1 != '/') || q == .gap)
      && q.firstSign? != some '/') = true
    rw [hjoined q hq, hslash]
    simpa using hqs.first q hq
  have hrest : IsRow (ps ++ ([.signs l joined] ++ (qs ++ after))) :=
    hps.append hpoints fun q hq => by
      rw [← Option.some.inj hq]
      exact hfollows
  simp only [List.append_assoc] at hrest ⊢
  rw [← List.append_assoc]
  refine ⟨hbefore.append hrest fun p hp q hq => ?_, by simp, first_append (by simp) hfirst, ?_⟩
  · rw [List.getLast?_concat] at hp
    rw [List.head?_append_of_ne_nil ps hps.ne_nil] at hq
    exact hps.opening_allows b p hp q hq
  · simp only [← List.append_assoc]
    rw [List.getLast?_append_of_ne_nil _ hne]
    exact hlast

/-- An integer is an operand, whatever its sign. -/
theorem isOperand_intPieces (n : Int) : IsOperand (intPieces n) := by
  rw [intPieces]
  split
  · refine ⟨⟨?_, of_decide_eq_true rfl⟩, by simp, by simp [Piece.firstSign?],
      by simp [Piece.endsOperand]⟩
    simp +decide [Piece.IsValid]
  · exact ⟨isRow_singleton rfl, by simp, by simp [Piece.firstSign?], by simp [Piece.endsOperand]⟩

/-- Negative integers are the ones that begin with a sign. -/
theorem opensSign_intPieces (n : Int) :
    ∀ p ∈ (intPieces n).head?, p.opensSign = decide (n < 0) := by
  rw [intPieces]
  split
  · next h => simp [Piece.opensSign, h]
  · next h => simp [Piece.opensSign, h]

end Operand

/-- The names of integer types are identifiers. -/
theorem isPlainIdentifier_typeName (type : IntType) : isPlainIdentifier type.name := by
  cases type with
  | ofKind kind => cases kind <;> decide
  | i128 => decide

/-- The names of integer types may stand at the end of a number. -/
theorem isTypeSuffix_typeName (type : IntType) : isTypeSuffix type.name.toList := by
  cases type with
  | ofKind kind => cases kind <;> decide
  | i128 => decide

theorem Expr.pieces_ne_nil {e : Expr} (h : e.beginsWord) : e.pieces ≠ [] := by
  cases e <;> simp_all [beginsWord, pieces]

/-- An expression that begins with a word does not begin with a sign. -/
theorem Expr.opensSign_pieces {e : Expr} (h : e.beginsWord) :
    ∀ p ∈ e.pieces.head?, p.opensSign = false := by
  induction e with
  | var x => simp [pieces, Piece.opensSign]
  | length array => simp [pieces, Piece.opensSign]
  | element array i => simp [pieces, Piece.opensSign]
  | wrappingMul x n => simp [pieces, Piece.opensSign]
  | cast e type ih =>
    have he : e.beginsWord := h
    rw [pieces, List.head?_append_of_ne_nil _ (pieces_ne_nil he)]
    exact ih he
  | binary op a b iha =>
    have ha : a.beginsWord := h
    rw [pieces, List.append_assoc, List.head?_append_of_ne_nil _ (pieces_ne_nil ha)]
    exact iha ha
  | _ => exact absurd h (by simp [beginsWord])

/-! ## Rows of paths -/

/-- A name of a path is a valid piece. -/
theorem isValid_namePiece {name : String} (h : isPathName name) : (namePiece name).IsValid := by
  rw [isPathName, Bool.or_eq_true, decide_eq_true_iff] at h
  rcases h with h | h
  · have hlookup : keywords.lookup name = none := by
      rw [isPlainIdentifier, Bool.and_eq_true, Option.isNone_iff_eq_none] at h
      exact h.2
    rw [namePiece, hlookup]
    exact h
  · have hall : ∀ name ∈ ["crate", "super", "self", "Self"], ∃ k, keywords.lookup name = some k
        ∧ (name, k) ∈ keywords := by decide
    obtain ⟨k, hlookup, hmem⟩ := hall name h
    rw [namePiece, hlookup]
    exact hmem

/-- A name of a path is a keyword or an identifier. -/
theorem namePiece_eq (name : String) :
    (∃ k, namePiece name = .keyword name k) ∨ namePiece name = .name name := by
  rw [namePiece]
  cases keywords.lookup name with
  | some k => exact .inl ⟨k, rfl⟩
  | none => exact .inr rfl

/-- The names that go on a path make up a row. -/
theorem isRow_morePieces {names : List String} (h : ∀ name ∈ names, isPathName name) :
    IsRow (morePieces names) := by
  induction names with
  | nil => exact ⟨by simp [morePieces], List.isChain_nil⟩
  | cons name names ih =>
    have hname : IsRow [Piece.separator, namePiece name] := by
      refine ⟨?_, ?_⟩
      · have hvalid : areSigns [(':', .colon), (':', .colon)] := by decide
        intro p hp
        rcases List.mem_pair.1 hp with rfl | rfl
        · exact hvalid
        · exact isValid_namePiece (h name List.mem_cons_self)
      · rcases namePiece_eq name with ⟨k, hk⟩ | hk <;> rw [hk] <;> exact of_decide_eq_true rfl
    refine hname.append (ih fun name hmem => h name (List.mem_cons_of_mem _ hmem)) ?_
    intro p hp q hq
    have hp : p = namePiece name := (Option.some.inj hp).symm
    have hq : q = .separator := by
      cases names with
      | nil => exact absurd hq (by simp)
      | cons name names => exact (Option.some.inj hq).symm
    rw [hp, hq]
    rcases namePiece_eq name with ⟨k, hk⟩ | hk <;> rw [hk] <;> rfl

/-- Whether a path may end in a piece. -/
def Piece.endsPath : Piece → Bool
  | name _ | keyword _ _ => true
  | _ => false

theorem Piece.endsOperand_of_endsPath {p : Piece} (h : p.endsPath) : p.endsOperand := by
  cases p with
  | name _ | keyword _ _ => rfl
  | _ => exact absurd h (by simp [endsPath])

theorem endsPath_morePieces {names : List String} :
    ∀ p ∈ (morePieces names).getLast?, p.endsPath := by
  induction names with
  | nil => simp [morePieces]
  | cons name names ih =>
    have hcons : morePieces (name :: names)
        = [.separator, namePiece name] ++ morePieces names := rfl
    cases hnames : morePieces names with
    | nil =>
      rw [hcons, hnames]
      intro p hp
      rw [← Option.some.inj hp]
      rcases namePiece_eq name with ⟨k, hk⟩ | hk <;> rw [hk] <;> rfl
    | cons p ps =>
      rw [hcons, List.getLast?_append_of_ne_nil _ (by simp [hnames])]
      exact ih

/-- A path ends in a name. -/
theorem endsPath_pathPieces (reference : String) :
    ∀ p ∈ (pathPieces reference).getLast?, p.endsPath := by
  rw [pathPieces]
  cases pathNames reference with
  | nil => simp
  | cons name names =>
    have hmore := @endsPath_morePieces (name :: names)
    cases isGlobal reference with
    | true => exact hmore
    | false =>
      have hcons : morePieces (name :: names)
          = [.separator] ++ (namePiece name :: morePieces names) := rfl
      rw [hcons, List.getLast?_append_of_ne_nil _ (by simp)] at hmore
      exact hmore

/-- A path is an operand. -/
theorem isOperand_pathPieces {reference : String} (h : isPath reference) :
    IsOperand (pathPieces reference) := by
  simp only [isPath, Bool.and_eq_true] at h
  obtain ⟨⟨hne, hnames⟩, -⟩ := h
  have hall := List.all_eq_true.1 hnames
  rw [pathPieces]
  cases hcases : pathNames reference with
  | nil => exact absurd hne (by simp [hcases])
  | cons name names =>
    rw [hcases] at hall
    -- with a separator before its first name, a path looks like the rest of one
    have hmore := isRow_morePieces hall
    have hlast := endsPath_pathPieces reference
    rw [pathPieces, hcases] at hlast
    have hend := fun p hp => Piece.endsOperand_of_endsPath (hlast p hp)
    cases hglobal : isGlobal reference with
    | true =>
      rw [hglobal] at hend
      exact ⟨hmore, by simp, by simp [Piece.firstSign?], hend⟩
    | false =>
      have hcons : morePieces (name :: names)
          = [.separator] ++ (namePiece name :: morePieces names) := rfl
      rw [hglobal] at hend
      refine ⟨⟨fun p hp => hmore.isValid p (List.mem_cons_of_mem _ hp), ?_⟩, by simp, ?_, hend⟩
      · have hchain := hmore.isChain
        rw [hcons] at hchain
        exact (List.isChain_append.1 hchain).2.1
      · rcases namePiece_eq name with ⟨k, hk⟩ | hk <;> simp [hk, Piece.firstSign?]

/-! ## Rows of expressions -/

/-- A piece that ends an operand and opens no comment is an operand by itself. -/
theorem isOperand_singleton {p : Piece} (h : p.IsValid) (hfirst : p.firstSign? ≠ some '/')
    (hlast : p.endsOperand) : IsOperand [p] :=
  ⟨isRow_singleton h, List.cons_ne_nil p [], by simpa using hfirst, by simpa using hlast⟩

/-- The pieces of a readable expression may stand in a row. -/
theorem Expr.isOperand_pieces {e : Expr} (h : e.IsReadable) : IsOperand e.pieces := by
  have hname : ∀ {x : String} {b : Bracket}, isPlainIdentifier x →
      IsRow [.name x, .opening b] := by
    intro x b hx
    refine ⟨?_, of_decide_eq_true rfl⟩
    simpa [Piece.IsValid] using hx
  have hbracket : ∀ b, IsRow [.opening b] := fun b => isRow_singleton trivial
  induction e with
  | receiver =>
    refine ⟨⟨?_, of_decide_eq_true rfl⟩, by simp [pieces], by simp [pieces, Piece.firstSign?],
      by simp [pieces, Piece.endsOperand]⟩
    simp +decide [pieces, Piece.IsValid]
  | var x => exact isOperand_singleton h.1 (by simp [Piece.firstSign?]) rfl
  | int n => exact isOperand_intPieces n
  | typedInt type n => exact isOperand_singleton (isTypeSuffix_typeName type) (by simp [Piece.firstSign?]) rfl
  | literal s => exact isOperand_singleton trivial (by simp [Piece.firstSign?]) rfl
  | none =>
    have hnone : isPlainIdentifier "None" = true := by decide
    exact isOperand_singleton hnone (by simp [Piece.firstSign?]) rfl
  | cast e type ih => exact (ih h.1).cast (isPlainIdentifier_typeName type)
  | binary op a b iha ihb => exact (iha h.1).binary (ihb h.2.1) op
  | within low high x =>
    have hx : isPlainIdentifier x := h
    have hafter : IsRow [.closing .paren, .dot, .name "contains", .opening .paren, .amp, .name x,
        .closing .paren] := by
      refine ⟨?_, of_decide_eq_true rfl⟩
      simp +decide [Piece.IsValid, hx]
    have hbefore : IsRow ([] ++ [Piece.opening .paren]) := hbracket .paren
    have hvalid : areSigns [('.', .dot), ('.', .dot), ('=', .eq)] := by decide
    exact (isOperand_intPieces low).span (isOperand_intPieces high) hbefore
      (by simp [Piece.firstSign?]) hvalid (by decide) rfl (opensSign_intPieces high) hafter
      (by simp +decide) (by simp) (by simp [Piece.endsOperand])
  | length array =>
    have harray : isPlainIdentifier array := h
    refine ⟨⟨?_, of_decide_eq_true rfl⟩, by simp [pieces], by simp [pieces, Piece.firstSign?],
      by simp [pieces, Piece.endsOperand]⟩
    simp +decide [pieces, Piece.IsValid, harray]
  | element array i ih =>
    have hi := ih h.2
    exact hi.enclosed (hname h.1) (by simp) (by simp [Piece.firstSign?])
      (hi.opening_allows .square) .square
  | slice s low high ihlow ihhigh =>
    obtain ⟨hs, hlow, hhigh, hplain⟩ := h
    have hbefore : IsRow ([.amp, .name s] ++ [.opening .square]) := by
      refine ⟨?_, of_decide_eq_true rfl⟩
      simp +decide [Piece.IsValid, hs]
    have hvalid : areSigns [('.', .dot), ('.', .dot)] := by decide
    have hopens : ∀ p ∈ high.pieces.head?, p.opensSign = false := by
      rcases hplain with hword | ⟨n, rfl⟩
      · exact opensSign_pieces hword
      · intro p hp
        rw [opensSign_intPieces n p hp]
        exact decide_eq_false (by omega)
    exact (ihlow hlow).span (ihhigh hhigh) hbefore (by simp [Piece.firstSign?]) hvalid
      (by decide) rfl hopens (isRow_singleton trivial)
      (by simp +decide) (by simp) (by simp [Piece.endsOperand])
  | wrappingMul x n =>
    have hx : isPlainIdentifier x := h
    refine ⟨⟨?_, of_decide_eq_true rfl⟩, by simp [pieces], by simp [pieces, Piece.firstSign?],
      by simp [pieces, Piece.endsOperand]⟩
    simp +decide [pieces, Piece.IsValid, hx]
  | paren e ih =>
    have he := ih h.1
    exact he.enclosed (hbracket .paren) (by simp) (by simp [Piece.firstSign?])
      (he.opening_allows .paren) .paren
  | path reference => exact absurd h (by simp [IsReadable])
  | someOf e ih =>
    have he : IsOperand e.pieces := by
      cases e with
      | path reference => exact isOperand_pathPieces h
      | element array i => exact ih h
      | _ => exact absurd h (by simp [IsReadable])
    exact he.enclosed (hname (by decide)) (by simp) (by simp [Piece.firstSign?])
      (he.opening_allows .paren) .paren
  | writeText e ih =>
    have he := ih h
    have hrow : IsRow [.name "f", .dot, .name "write_str", .opening .paren] := by
      refine ⟨?_, of_decide_eq_true rfl⟩
      simp +decide [Piece.IsValid]
    exact he.enclosed hrow (by simp) (by simp [Piece.firstSign?]) (he.opening_allows .paren) .paren
  | writeNumber template e ih =>
    have he := ih h
    have hrow : IsRow [.name "write", .signs [('!', .bang)] false, .opening .paren, .name "f",
        .comma, .gap, .text template, .comma, .gap] := by
      refine ⟨?_, of_decide_eq_true rfl⟩
      simp +decide [Piece.IsValid]
    exact he.enclosed hrow (by simp) (by simp [Piece.firstSign?]) IsOperand.gap_allows .paren

/-! ## Lexemes -/

theorem piecesLexemes_append (ps qs : List Piece) :
    piecesLexemes (ps ++ qs) = piecesLexemes ps ++ piecesLexemes qs :=
  List.flatMap_append

/-- The lexemes of a number, which may be negative. -/
def intLexemes (n : Int) : List Lexeme :=
  if n < 0 then [.sign .minus false, .number n.natAbs ""] else [.number n.natAbs ""]

/-- The lexemes of an operator. -/
def BinOp.lexemes : BinOp → List Lexeme
  | add => [.sign .plus false]
  | sub => [.sign .minus false]
  | div => [.sign .slash false]
  | less => [.sign .less false]
  | atLeast => [.sign .greater true, .sign .eq false]
  | atMost => [.sign .less true, .sign .eq false]
  | equal => [.sign .eq true, .sign .eq false]
  | or => [.sign .pipe true, .sign .pipe false]

/-- The lexemes of a path. -/
def pathLexemes (reference : String) : List Lexeme :=
  piecesLexemes (pathPieces reference)

/-- The lexemes of an expression. -/
def Expr.lexemes : Expr → List Lexeme
  | receiver => [.keyword .selfValue, .sign .dot false, .number 0 ""]
  | var name => [.word name]
  | int n => intLexemes n
  | typedInt type n => [.number n type.name]
  | literal s => [.text s]
  | cast e type => e.lexemes ++ [.keyword .asKw, .word type.name]
  | binary op a b => a.lexemes ++ op.lexemes ++ b.lexemes
  | within low high x =>
    .opening .paren :: intLexemes low
      ++ [.sign .dot true, .sign .dot true, .sign .eq (decide (high < 0))] ++ intLexemes high
      ++ [.closing .paren, .sign .dot false, .word "contains", .opening .paren, .sign .amp false,
        .word x, .closing .paren]
  | length array => [.word array, .sign .dot false, .word "len", .opening .paren, .closing .paren]
  | element array i => .word array :: .opening .square :: i.lexemes ++ [.closing .square]
  | slice s low high =>
    .sign .amp false :: .word s :: .opening .square :: low.lexemes
      ++ [.sign .dot true, .sign .dot false] ++ high.lexemes ++ [.closing .square]
  | wrappingMul x n =>
    [.word x, .sign .dot false, .word "wrapping_mul", .opening .paren, .number n "",
      .closing .paren]
  | paren e => .opening .paren :: e.lexemes ++ [.closing .paren]
  | path reference => pathLexemes reference
  | someOf e => .word "Some" :: .opening .paren :: e.lexemes ++ [.closing .paren]
  | none => [.word "None"]
  | writeText e =>
    [.word "f", .sign .dot false, .word "write_str", .opening .paren] ++ e.lexemes
      ++ [.closing .paren]
  | writeNumber template e =>
    [.word "write", .sign .bang false, .opening .paren, .word "f", .sign .comma false,
      .text template, .sign .comma false] ++ e.lexemes ++ [.closing .paren]

theorem piecesLexemes_intPieces (n : Int) : piecesLexemes (intPieces n) = intLexemes n := by
  rw [intPieces, intLexemes]
  split <;> rfl

theorem signLexemes_signs (op : BinOp) : signLexemes op.signs false = op.lexemes := by
  cases op <;> rfl

/-- The pieces of an expression have its lexemes. -/
theorem Expr.piecesLexemes_pieces (e : Expr) : piecesLexemes e.pieces = e.lexemes := by
  induction e with
  | int n => exact piecesLexemes_intPieces n
  | cast e type ih => rw [pieces, piecesLexemes_append, ih]; rfl
  | binary op a b iha ihb =>
    have hop : piecesLexemes [.gap, .signs op.signs false, .gap] = op.lexemes := by
      rw [← signLexemes_signs]
      exact List.append_nil _
    rw [pieces, piecesLexemes_append, piecesLexemes_append, iha, ihb, hop]
    rfl
  | within low high x =>
    rw [pieces]
    simp only [piecesLexemes_append, piecesLexemes_intPieces]
    rfl
  | element array i ih => rw [pieces, piecesLexemes_append, piecesLexemes_append, ih]; rfl
  | slice s low high ihlow ihhigh =>
    rw [pieces]
    simp only [piecesLexemes_append, ihlow, ihhigh]
    rfl
  | paren e ih => rw [pieces, piecesLexemes_append, piecesLexemes_append, ih]; rfl
  | someOf e ih => rw [pieces, piecesLexemes_append, piecesLexemes_append, ih]; rfl
  | writeText e ih => rw [pieces, piecesLexemes_append, piecesLexemes_append, ih]; rfl
  | writeNumber template e ih => rw [pieces, piecesLexemes_append, piecesLexemes_append, ih]; rfl
  | receiver | var | typedInt | literal | length | wrappingMul | path | none => rfl

end EnumNames.Code
