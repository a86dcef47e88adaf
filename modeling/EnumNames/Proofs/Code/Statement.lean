import EnumNames.Code.Read
import EnumNames.Proofs.Code.Layout

/-!
# Lexemes of statements

* `Stmt.IsReadable`: a statement whose text is not read as another one.
* `Stmt.lexesTo_steps`: the lexemes of its layout.
-/

namespace EnumNames.Code

open Layout Target Text

/-! ## Readable statements -/

namespace Stmt

/-- Whether a statement is more than a comment or an empty line. -/
def isCode : Stmt → Bool
  | comment _ | blank => false
  | _ => true

/-- Whether a statement is the result of a block. -/
def isResult : Stmt → Bool
  | result _ | mapLookup _ _ _ => true
  | _ => false

end Stmt

/-- The expressions that may be results: a word before one is not read as the left side of an
assignment. -/
def Expr.isResult : Expr → Bool
  | writeText _ | slice _ _ _ | var _ | none => true
  | _ => false

mutual

/-- The statements whose texts are not read as other ones. -/
def Stmt.IsReadable : Stmt → Prop
  | .comment _ | .blank => False
  | .bind x e | .bindVar x _ e | .assign x e | .mix x e => isPlainIdentifier x ∧ e.IsReadable
  | .bindVars x y e₁ e₂ =>
    isPlainIdentifier x ∧ isPlainIdentifier y ∧ e₁.IsReadable ∧ e₂.IsReadable
  | .choose x branches other =>
    isPlainIdentifier x ∧ branches ≠ [] ∧ branchesReadable branches ∧ blockReadable other
  | .select x subject arms y other =>
    isPlainIdentifier x ∧ subject.IsReadable ∧ (∀ arm ∈ arms, arm.2.IsReadable)
      ∧ isPlainIdentifier y ∧ other.IsReadable
  | .when condition body | .loop condition body => condition.IsReadable ∧ blockReadable body
  | .eachByte x text body => isPlainIdentifier x ∧ isPlainIdentifier text ∧ blockReadable body
  | .switch x arms => isPlainIdentifier x ∧ armsReadable arms
  | .order a b found less greater =>
    isPlainIdentifier a ∧ isPlainIdentifier b ∧ found.IsReadable
      ∧ (isPlainIdentifier less.1 ∧ less.2.IsReadable)
      ∧ (isPlainIdentifier greater.1 ∧ greater.2.IsReadable)
  | .mapLookup typeName entries x =>
    isPlainIdentifier typeName ∧ (∀ entry ∈ entries, isPath entry.2) ∧ isPlainIdentifier x
  | .ret e => e.IsReadable
  | .result e => e.IsReadable ∧ e.isResult

/-- Statements in a row; only the last one may be a result. -/
def blockReadable : List Stmt → Prop
  | [] => True
  | s :: rest => s.IsReadable ∧ (s.isResult → rest = []) ∧ blockReadable rest

def branchesReadable : List (Expr × List Stmt) → Prop
  | [] => True
  | (condition, body) :: rest =>
    condition.IsReadable ∧ blockReadable body ∧ branchesReadable rest

def armsReadable : List (UInt32 × List Stmt) → Prop
  | [] => True
  | (_, body) :: rest => blockReadable body ∧ armsReadable rest

end

/-! ## Lexemes -/

/-- The lexemes of an arm of a match on numbers. -/
def armLexemes (arm : Int × Expr) : List Lexeme :=
  intLexemes arm.1 ++ armArrow ++ arm.2.lexemes ++ [.sign .comma false]

/-- The lexemes of an assignment in an arm. -/
def settingLexemes (setting : String × Expr) : List Lexeme :=
  [.word setting.1, .sign .eq false] ++ setting.2.lexemes ++ [.sign .comma false]

/-- The lexemes of an entry of a map. -/
def entryLexemes (entry : String × String) : List Lexeme :=
  [.opening .paren, .text entry.1, .sign .comma false] ++ pathLexemes entry.2
    ++ [.closing .paren, .sign .comma false]

mutual

/-- The lexemes of a statement. -/
def Stmt.lexemes : Stmt → List Lexeme
  | .comment _ | .blank => []
  | .bind x e =>
    [.keyword .letKw, .word x, .sign .eq false] ++ e.lexemes ++ [.sign .semi false]
  | .bindVar x type e =>
    [.keyword .letKw, .keyword .mutKw, .word x, .sign .colon false, .word type.name,
      .sign .eq false] ++ e.lexemes ++ [.sign .semi false]
  | .bindVars x y e₁ e₂ =>
    [.keyword .letKw, .opening .paren, .keyword .mutKw, .word x, .sign .comma false,
      .keyword .mutKw, .word y, .closing .paren, .sign .eq false, .opening .paren]
      ++ e₁.lexemes ++ [.sign .comma false] ++ e₂.lexemes ++ [.closing .paren, .sign .semi false]
  | .choose x branches other =>
    branchLexemes x true branches ++ [.closing .brace, .keyword .elseKw, .opening .brace]
      ++ blockLexemes other ++ [.closing .brace, .sign .semi false]
  | .select x subject arms y other =>
    [.keyword .letKw, .word x, .sign .eq false, .keyword .matchKw] ++ subject.lexemes
      ++ [.opening .brace] ++ arms.flatMap armLexemes
      ++ ((.word y :: armArrow ++ [.keyword .returnKw] ++ other.lexemes ++ [.sign .comma false])
        ++ [.closing .brace, .sign .semi false])
  | .assign x e => [.word x, .sign .eq false] ++ e.lexemes ++ [.sign .semi false]
  | .mix x e => [.word x, .sign .caret true, .sign .eq false] ++ e.lexemes ++ [.sign .semi false]
  | .when c body =>
    [.keyword .ifKw] ++ c.lexemes ++ [.opening .brace] ++ blockLexemes body ++ [.closing .brace]
  | .loop c body =>
    [.keyword .whileKw] ++ c.lexemes ++ [.opening .brace] ++ blockLexemes body ++ [.closing .brace]
  | .eachByte x s body =>
    [.keyword .forKw, .sign .amp false, .word x, .keyword .inKw, .word s]
      ++ (plainCall "as_bytes" ++ [.opening .brace]) ++ blockLexemes body ++ [.closing .brace]
  | .switch x arms =>
    [.keyword .matchKw, .word x, .opening .brace] ++ armBlockLexemes arms
      ++ ((.keyword .underscore :: armArrow ++ [.opening .brace, .closing .brace])
        ++ [.closing .brace])
  | .order a b found less greater =>
    [.keyword .matchKw, .word a, .sign .dot false, .word "cmp", .opening .paren, .word b,
      .closing .paren, .opening .brace]
      ++ (orderingArm "Equal" ++ [.keyword .returnKw] ++ found.lexemes ++ [.sign .comma false])
      ++ (orderingArm "Less" ++ settingLexemes less)
      ++ (orderingArm "Greater" ++ settingLexemes greater) ++ [.closing .brace]
  | .mapLookup typeName entries x =>
    mapHead ++ [.word typeName] ++ mapInit ++ entries.flatMap entryLexemes
      ++ ([.closing .square] ++ mapGet ++ [.word x, .closing .paren] ++ plainCall "copied")
  | .ret e => [.keyword .returnKw] ++ e.lexemes ++ [.sign .semi false]
  | .result e => e.lexemes

/-- The lexemes of statements in a row. -/
def blockLexemes : List Stmt → List Lexeme
  | [] => []
  | s :: rest => s.lexemes ++ blockLexemes rest

/-- The lexemes of conditional blocks, each but the first after `else`. -/
def branchLexemes (x : String) (isFirst : Bool) : List (Expr × List Stmt) → List Lexeme
  | [] => []
  | (c, body) :: rest =>
    (if isFirst then [.keyword .letKw, .word x, .sign .eq false, .keyword .ifKw]
      else [.closing .brace, .keyword .elseKw, .keyword .ifKw])
      ++ c.lexemes ++ [.opening .brace] ++ blockLexemes body ++ branchLexemes x false rest

/-- The lexemes of numbered arms. -/
def armBlockLexemes : List (UInt32 × List Stmt) → List Lexeme
  | [] => []
  | (n, body) :: rest =>
    .number n.toNat "" :: armArrow ++ [.opening .brace] ++ blockLexemes body ++ [.closing .brace]
      ++ armBlockLexemes rest

end

/-! ## Layout -/

section Lines

variable {x y : String} {e e₁ e₂ : Expr}

/-- A line of fixed pieces around an expression has their lexemes and those of the expression. -/
theorem lexesTo_expr {s : String} {before after : List Piece} (he : e.IsReadable)
    (hbefore : IsRow before) (hlead : ∀ p ∈ before.getLast?, p.leads)
    (hafter : IsRow (after ++ [Piece.newline]))
    (hnext : (after ++ [Piece.newline]).head?.all Piece.follows)
    (hs : s.toList = piecesChars before ++ e.text.toList ++ piecesChars after)
    {step : Step} (hstep : ∀ ps, IsLine s ps → LexesTo [step] (piecesLexemes ps)) :
    LexesTo [step] (piecesLexemes before ++ e.lexemes ++ piecesLexemes after) := by
  rw [Option.all_eq_true] at hnext
  have hline := he.isLine hbefore hlead hafter hnext hs
  have h := hstep _ hline
  rw [piecesLexemes_append, piecesLexemes_append, Expr.piecesLexemes_pieces] at h
  exact h

theorem isRow_semi : IsRow ([.semi] ++ [Piece.newline]) := by
  refine ⟨?_, of_decide_eq_true rfl⟩
  simp +decide [Piece.IsValid]

theorem isRow_comma : IsRow ([.comma] ++ [Piece.newline]) := by
  refine ⟨?_, of_decide_eq_true rfl⟩
  simp +decide [Piece.IsValid]

theorem isRow_brace : IsRow ([.gap, .opening .brace] ++ [Piece.newline]) := by
  refine ⟨?_, of_decide_eq_true rfl⟩
  simp [Piece.IsValid]

theorem lexesTo_bind (hx : isPlainIdentifier x) (he : e.IsReadable) :
    LexesTo (Stmt.bind x e).steps (Stmt.bind x e).lexemes := by
  have hbefore : IsRow [.keyword "let" .letKw, .gap, .name x, .gap, .set, .gap] := by
    refine ⟨?_, of_decide_eq_true rfl⟩
    simp +decide [Piece.IsValid, hx]
  refine lexesTo_expr he hbefore (by simp [Piece.leads]) isRow_semi (by decide) ?_
    fun ps hps => hps.lexesTo_line
  simp [piecesChars, Piece.chars]

theorem lexesTo_bindVar (hx : isPlainIdentifier x) (type : IntType) (he : e.IsReadable) :
    LexesTo (Stmt.bindVar x type e).steps (Stmt.bindVar x type e).lexemes := by
  have htype := isPlainIdentifier_typeName type
  have hbefore : IsRow [.keyword "let" .letKw, .gap, .keyword "mut" .mutKw, .gap, .name x, .colon,
      .gap, .name type.name, .gap, .set, .gap] := by
    refine ⟨?_, of_decide_eq_true rfl⟩
    simp +decide [Piece.IsValid, hx, htype]
  refine lexesTo_expr he hbefore (by simp [Piece.leads]) isRow_semi (by decide) ?_
    fun ps hps => hps.lexesTo_line
  simp [piecesChars, Piece.chars]

/-- The pieces of a declaration of two variables, up to their values. -/
def bindVarsHead (x y : String) : List Piece :=
  [.keyword "let" .letKw, .gap, .opening .paren, .keyword "mut" .mutKw, .gap, .name x, .comma, .gap,
    .keyword "mut" .mutKw, .gap, .name y, .closing .paren, .gap, .set, .gap, .opening .paren]

theorem lexesTo_bindVars (hx : isPlainIdentifier x) (hy : isPlainIdentifier y)
    (he₁ : e₁.IsReadable) (he₂ : e₂.IsReadable) :
    LexesTo (Stmt.bindVars x y e₁ e₂).steps (Stmt.bindVars x y e₁ e₂).lexemes := by
  have hbefore : IsRow (bindVarsHead x y) := by
    refine ⟨?_, of_decide_eq_true rfl⟩
    simp +decide [bindVarsHead, Piece.IsValid, hx, hy]
  have hcomma : IsRow [.comma, .gap] := by
    refine ⟨?_, of_decide_eq_true rfl⟩
    simp +decide [Piece.IsValid]
  have hafter : IsRow ([.closing .paren, .semi] ++ [Piece.newline]) := by
    refine ⟨?_, of_decide_eq_true rfl⟩
    simp +decide [Piece.IsValid]
  have hfirst := (Expr.isOperand_pieces he₁).between hbefore
    (by simp [bindVarsHead, Piece.leads]) hcomma (by simp +decide)
  have hlead : ∀ ps : List Piece, ∀ p ∈ (ps ++ [Piece.comma, .gap]).getLast?, p.leads := by
    intro ps
    rw [List.getLast?_append_of_ne_nil _ (by simp)]
    simp [Piece.leads]
  have htext : ("let (mut " ++ x ++ ", mut " ++ y ++ ") = (" ++ e₁.text ++ ", " ++ e₂.text
      ++ ");").toList = piecesChars (bindVarsHead x y ++ e₁.pieces ++ [.comma, .gap])
        ++ e₂.text.toList ++ piecesChars [.closing .paren, .semi] := by
    simp [bindVarsHead, piecesChars, Piece.chars, openingChar, closingChar, Expr.toList_text he₁]
  have hlexemes := lexesTo_expr he₂ hfirst (hlead _) hafter (by decide) htext
    fun ps hps => hps.lexesTo_line
  rw [piecesLexemes_append, piecesLexemes_append, Expr.piecesLexemes_pieces] at hlexemes
  exact hlexemes

theorem lexesTo_assign (hx : isPlainIdentifier x) (he : e.IsReadable) :
    LexesTo (Stmt.assign x e).steps (Stmt.assign x e).lexemes := by
  have hbefore : IsRow [.name x, .gap, .set, .gap] := by
    refine ⟨?_, of_decide_eq_true rfl⟩
    simp +decide [Piece.IsValid, hx]
  refine lexesTo_expr he hbefore (by simp [Piece.leads]) isRow_semi (by decide) ?_
    fun ps hps => hps.lexesTo_line
  simp [piecesChars, Piece.chars]

theorem lexesTo_mix (hx : isPlainIdentifier x) (he : e.IsReadable) :
    LexesTo (Stmt.mix x e).steps (Stmt.mix x e).lexemes := by
  have hbefore : IsRow [.name x, .gap, .signs [('^', .caret), ('=', .eq)] false, .gap] := by
    refine ⟨?_, of_decide_eq_true rfl⟩
    simp +decide [Piece.IsValid, hx]
  refine lexesTo_expr he hbefore (by simp [Piece.leads]) isRow_semi (by decide) ?_
    fun ps hps => hps.lexesTo_line
  simp [piecesChars, Piece.chars]

theorem lexesTo_ret (he : e.IsReadable) :
    LexesTo (Stmt.ret e).steps (Stmt.ret e).lexemes := by
  have hbefore : IsRow [.keyword "return" .returnKw, .gap] := by
    refine ⟨?_, of_decide_eq_true rfl⟩
    simp +decide [Piece.IsValid]
  refine lexesTo_expr he hbefore (by simp [Piece.leads]) isRow_semi (by decide) ?_
    fun ps hps => hps.lexesTo_line
  simp [piecesChars, Piece.chars]

theorem lexesTo_result (he : e.IsReadable) :
    LexesTo (Stmt.result e).steps (Stmt.result e).lexemes := by
  have hbefore : IsRow [] := ⟨by simp, List.isChain_nil⟩
  have hafter : IsRow ([] ++ [Piece.newline]) := isRow_singleton trivial
  have htext : e.text.toList = piecesChars [] ++ e.text.toList ++ piecesChars [] := by
    simp [piecesChars]
  have h := lexesTo_expr he hbefore (by simp) hafter (by decide) htext
    fun ps hps => hps.lexesTo_line
  rw [show piecesLexemes [] ++ e.lexemes ++ piecesLexemes [] = e.lexemes from
    List.append_nil _] at h
  exact h

/-- A word, an expression and an opening brace. -/
theorem lexesTo_head {word : String} {k : Keyword} (hword : (word, k) ∈ keywords)
    (he : e.IsReadable) :
    LexesTo [.openBlock (word ++ " " ++ e.text)] (.keyword k :: e.lexemes ++ [.opening .brace]) := by
  have hbefore : IsRow [.keyword word k, .gap] := by
    refine ⟨?_, of_decide_eq_true rfl⟩
    simp [Piece.IsValid, hword]
  refine lexesTo_expr he hbefore (by simp [Piece.leads]) isRow_brace (by decide) ?_
    fun ps hps => hps.lexesTo_openBlock
  simp [piecesChars, Piece.chars, openingChar]

/-- The first condition of a choice. -/
theorem lexesTo_if (hx : isPlainIdentifier x) (he : e.IsReadable) :
    LexesTo [.openBlock ("let " ++ x ++ " = if " ++ e.text)]
      ([.keyword .letKw, .word x, .sign .eq false, .keyword .ifKw] ++ e.lexemes
        ++ [.opening .brace]) := by
  have hbefore : IsRow [.keyword "let" .letKw, .gap, .name x, .gap, .set, .gap,
      .keyword "if" .ifKw, .gap] := by
    refine ⟨?_, of_decide_eq_true rfl⟩
    simp +decide [Piece.IsValid, hx]
  refine lexesTo_expr he hbefore (by simp [Piece.leads]) isRow_brace (by decide) ?_
    fun ps hps => hps.lexesTo_openBlock
  simp [piecesChars, Piece.chars, openingChar]

/-- Every other condition of a choice. -/
theorem lexesTo_elseIf (he : e.IsReadable) :
    LexesTo [.reopen ("\x7d else if " ++ e.text ++ " \x7b")]
      ([.closing .brace, .keyword .elseKw, .keyword .ifKw] ++ e.lexemes ++ [.opening .brace]) := by
  have hbefore : IsRow [.closing .brace, .gap, .keyword "else" .elseKw, .gap, .keyword "if" .ifKw,
      .gap] := by
    refine ⟨?_, of_decide_eq_true rfl⟩
    simp +decide [Piece.IsValid]
  refine lexesTo_expr he hbefore (by simp [Piece.leads]) isRow_brace (by decide) ?_
    fun ps hps => hps.lexesTo_reopen
  simp [piecesChars, Piece.chars, openingChar, closingChar]

theorem lexesTo_else :
    LexesTo [.reopen "\x7d else \x7b"] [.closing .brace, .keyword .elseKw, .opening .brace] := by
  have hline : IsLine "\x7d else \x7b" [.closing .brace, .gap, .keyword "else" .elseKw, .gap,
      .opening .brace] := by
    refine ⟨rfl, ?_, of_decide_eq_true rfl⟩
    simp +decide [Piece.IsValid]
  exact hline.lexesTo_reopen

/-- The end of a block that is a value. -/
theorem lexesTo_closeSemi : LexesTo [.closeWith "\x7d;"] [.closing .brace, .sign .semi false] := by
  have hline : IsLine "\x7d;" [.closing .brace, .semi] := by
    refine ⟨rfl, ?_, of_decide_eq_true rfl⟩
    simp +decide [Piece.IsValid]
  exact hline.lexesTo_closeWith

theorem lexesTo_match (hx : isPlainIdentifier x) (he : e.IsReadable) :
    LexesTo [.openBlock ("let " ++ x ++ " = match " ++ e.text)]
      ([.keyword .letKw, .word x, .sign .eq false, .keyword .matchKw] ++ e.lexemes
        ++ [.opening .brace]) := by
  have hbefore : IsRow [.keyword "let" .letKw, .gap, .name x, .gap, .set, .gap,
      .keyword "match" .matchKw, .gap] := by
    refine ⟨?_, of_decide_eq_true rfl⟩
    simp +decide [Piece.IsValid, hx]
  refine lexesTo_expr he hbefore (by simp [Piece.leads]) isRow_brace (by decide) ?_
    fun ps hps => hps.lexesTo_openBlock
  simp [piecesChars, Piece.chars, openingChar]

theorem lexesTo_arm (n : Int) (he : e.IsReadable) :
    LexesTo [.line (toString n ++ " => " ++ e.text ++ ",")] (armLexemes (n, e)) := by
  have harrow : IsRow [.gap, .arrow, .gap] := by
    refine ⟨?_, of_decide_eq_true rfl⟩
    simp +decide [Piece.IsValid]
  have hbefore : IsRow (intPieces n ++ [.gap, .arrow, .gap]) :=
    (isOperand_intPieces n).append harrow (by simp +decide)
  have hlead : ∀ p ∈ (intPieces n ++ [Piece.gap, .arrow, .gap]).getLast?, p.leads := by
    rw [List.getLast?_append_of_ne_nil _ (by simp)]
    simp [Piece.leads]
  have htext : (toString n ++ " => " ++ e.text ++ ",").toList
      = piecesChars (intPieces n ++ [.gap, .arrow, .gap]) ++ e.text.toList
        ++ piecesChars [.comma] := by
    have hint := toList_repr_int n
    simp [piecesChars, Piece.chars, hint]
  have h := lexesTo_expr he hbefore hlead isRow_comma (by decide) htext
    fun ps hps => hps.lexesTo_line
  rw [piecesLexemes_append, piecesLexemes_intPieces] at h
  exact h

/-- The last arm names the number and leaves the function. -/
theorem lexesTo_lastArm (hy : isPlainIdentifier y) (he : e.IsReadable) :
    LexesTo [.line (y ++ " => return " ++ e.text ++ ",")]
      (.word y :: armArrow ++ [.keyword .returnKw] ++ e.lexemes ++ [.sign .comma false]) := by
  have hbefore : IsRow [.name y, .gap, .arrow, .gap, .keyword "return" .returnKw, .gap] := by
    refine ⟨?_, of_decide_eq_true rfl⟩
    simp +decide [Piece.IsValid, hy]
  refine lexesTo_expr he hbefore (by simp [Piece.leads]) isRow_comma (by decide) ?_
    fun ps hps => hps.lexesTo_line
  simp [piecesChars, Piece.chars]

end Lines

section Blocks

variable {x y text : String}

theorem lexesTo_for (hx : isPlainIdentifier x) (htext : isPlainIdentifier text) :
    LexesTo [.openBlock ("for &" ++ x ++ " in " ++ text ++ ".as_bytes()")]
      ([.keyword .forKw, .sign .amp false, .word x, .keyword .inKw, .word text]
        ++ (plainCall "as_bytes" ++ [.opening .brace])) := by
  have hline : IsLine ("for &" ++ x ++ " in " ++ text ++ ".as_bytes()" ++ " \x7b")
      [.keyword "for" .forKw, .gap, .amp, .name x, .gap, .keyword "in" .inKw, .gap, .name text,
        .dot, .name "as_bytes", .opening .paren, .closing .paren, .gap, .opening .brace] := by
    refine ⟨?_, ?_, of_decide_eq_true rfl⟩
    · simp [piecesChars, Piece.chars, openingChar, closingChar]
    · simp +decide [Piece.IsValid, hx, htext]
  exact hline.lexesTo_openBlock

theorem lexesTo_switch (hx : isPlainIdentifier x) :
    LexesTo [.openBlock ("match " ++ x)] [.keyword .matchKw, .word x, .opening .brace] := by
  have hline : IsLine ("match " ++ x ++ " \x7b")
      [.keyword "match" .matchKw, .gap, .name x, .gap, .opening .brace] := by
    refine ⟨?_, ?_, of_decide_eq_true rfl⟩
    · simp [piecesChars, Piece.chars, openingChar]
    · simp +decide [Piece.IsValid, hx]
  exact hline.lexesTo_openBlock

/-- The pattern of an arm is a word in hexadecimal. -/
theorem lexesTo_pattern (n : UInt32) :
    LexesTo [.openBlock (wordPattern n ++ " =>")]
      (.number n.toNat "" :: armArrow ++ [.opening .brace]) := by
  have hline : IsLine (wordPattern n ++ " =>" ++ " \x7b")
      [.hex n, .gap, .arrow, .gap, .opening .brace] := by
    refine ⟨?_, ?_, of_decide_eq_true rfl⟩
    · simp [wordPattern, piecesChars, Piece.chars, openingChar]
    · simp +decide [Piece.IsValid]
  exact hline.lexesTo_openBlock

/-- The last arm of a match with blocks does nothing. -/
theorem lexesTo_emptyArm :
    LexesTo [.line "_ => \x7b\x7d"]
      (.keyword .underscore :: armArrow ++ [.opening .brace, .closing .brace]) := by
  have hline : IsLine "_ => \x7b\x7d"
      [.keyword "_" .underscore, .gap, .arrow, .gap, .opening .brace, .closing .brace] := by
    refine ⟨rfl, ?_, of_decide_eq_true rfl⟩
    simp +decide [Piece.IsValid]
  exact hline.lexesTo_line

theorem lexesTo_compare (hx : isPlainIdentifier x) (hy : isPlainIdentifier y) :
    LexesTo [.openBlock ("match " ++ x ++ ".cmp(" ++ y ++ ")")]
      [.keyword .matchKw, .word x, .sign .dot false, .word "cmp", .opening .paren, .word y,
        .closing .paren, .opening .brace] := by
  have hline : IsLine ("match " ++ x ++ ".cmp(" ++ y ++ ")" ++ " \x7b")
      [.keyword "match" .matchKw, .gap, .name x, .dot, .name "cmp", .opening .paren, .name y,
        .closing .paren, .gap, .opening .brace] := by
    refine ⟨?_, ?_, of_decide_eq_true rfl⟩
    · simp [piecesChars, Piece.chars, openingChar, closingChar]
    · simp +decide [Piece.IsValid, hx, hy]
  exact hline.lexesTo_openBlock

/-- The pieces of the pattern of an ordering, with the arrow of its arm. -/
def orderingPieces (ordering : String) : List Piece :=
  [.separator, .name "core", .separator, .name "cmp", .separator, .name "Ordering", .separator,
    .name ordering, .gap, .arrow, .gap]

/-- An arm for an ordering has the lexemes of its path and of what it does. -/
theorem lexesTo_orderArm {ordering action : String} {before : List Piece} {e : Expr}
    (he : e.IsReadable) (hbefore : IsRow (orderingPieces ordering ++ before))
    (hlead : ∀ p ∈ (orderingPieces ordering ++ before).getLast?, p.leads)
    (haction : action.toList = piecesChars before ++ e.text.toList) :
    LexesTo [orderArm ordering action]
      (orderingArm ordering ++ piecesLexemes before ++ e.lexemes ++ [.sign .comma false]) := by
  have htext : ("::core::cmp::Ordering::" ++ ordering ++ " => " ++ action ++ ",").toList
      = piecesChars (orderingPieces ordering ++ before) ++ e.text.toList
        ++ piecesChars [.comma] := by
    rw [piecesChars_append]
    simp [orderingPieces, piecesChars, Piece.chars, haction]
  have h := lexesTo_expr he hbefore hlead isRow_comma (by decide) htext
    fun ps hps => hps.lexesTo_line
  rw [piecesLexemes_append] at h
  exact h

/-- The arm for equal texts leaves the function. -/
theorem lexesTo_foundArm {e : Expr} (he : e.IsReadable) :
    LexesTo [orderArm "Equal" ("return " ++ e.text)]
      (orderingArm "Equal" ++ [.keyword .returnKw] ++ e.lexemes ++ [.sign .comma false]) := by
  have hbefore : IsRow (orderingPieces "Equal" ++ [.keyword "return" .returnKw, .gap]) := by
    rw [orderingPieces]
    refine ⟨?_, of_decide_eq_true rfl⟩
    simp +decide [Piece.IsValid]
  have haction : ("return " ++ e.text).toList
      = piecesChars [.keyword "return" .returnKw, .gap] ++ e.text.toList := by
    simp [piecesChars, Piece.chars]
  have h := lexesTo_orderArm he hbefore (by simp [orderingPieces, Piece.leads]) haction
  exact h

/-- The other arms assign a new bound. -/
theorem lexesTo_settingArm {ordering : String} (hordering : isPlainIdentifier ordering)
    {setting : String × Expr} (hx : isPlainIdentifier setting.1) (he : setting.2.IsReadable) :
    LexesTo [orderArm ordering (setting.1 ++ " = " ++ setting.2.text)]
      (orderingArm ordering ++ settingLexemes setting) := by
  have hbefore : IsRow (orderingPieces ordering ++ [.name setting.1, .gap, .set, .gap]) := by
    rw [orderingPieces]
    refine ⟨?_, of_decide_eq_true rfl⟩
    simp +decide [Piece.IsValid, hordering, hx]
  have haction : (setting.1 ++ " = " ++ setting.2.text).toList
      = piecesChars [.name setting.1, .gap, .set, .gap] ++ setting.2.text.toList := by
    simp [piecesChars, Piece.chars]
  have h := lexesTo_orderArm he hbefore (by simp [orderingPieces, Piece.leads]) haction
  rw [settingLexemes, ← List.append_assoc, ← List.append_assoc]
  exact h

/-! ## The map -/

/-- The cell of the map is declared with the type of its values. -/
theorem lexesTo_mapHead {typeName : String} (h : isPlainIdentifier typeName) :
    LexesTo [.line ("static LOOKUP: ::std::sync::OnceLock<::std::collections::HashMap<&'static str, "
        ++ typeName ++ ">> =")]
      (mapHead ++ [.word typeName] ++ [.sign .greater true, .sign .greater false,
        .sign .eq false]) := by
  have hline : IsLine
      ("static LOOKUP: ::std::sync::OnceLock<::std::collections::HashMap<&'static str, "
        ++ typeName ++ ">> =")
      [.keyword "static" .staticKw, .gap, .name "LOOKUP", .colon, .gap, .separator, .name "std",
        .separator, .name "sync", .separator, .name "OnceLock",
        .signs [('<', .less), (':', .colon), (':', .colon)] false, .name "std", .separator,
        .name "collections", .separator, .name "HashMap",
        .signs [('<', .less), ('&', .amp)] true, .lifetime "static", .gap, .name "str", .comma,
        .gap, .name typeName, .signs [('>', .greater), ('>', .greater)] false, .gap, .set] := by
    refine ⟨?_, ?_, of_decide_eq_true rfl⟩
    · simp [piecesChars, Piece.chars]
    · simp +decide [Piece.IsValid, h]
  exact hline.lexesTo_line

/-- The map is made where it is asked for the first time. -/
theorem lexesTo_mapInit :
    LexesTo [.indent, .line "::std::sync::OnceLock::new();", .dedent, .line "LOOKUP", .indent,
        .openBlock ".get_or_init(||", .line "[", .indent]
      (onceLock ++ pathSeparator ++ [.word "new", .opening .paren, .closing .paren,
        .sign .semi false, .word "LOOKUP", .sign .dot false, .word "get_or_init", .opening .paren,
        .sign .pipe true, .sign .pipe false, .opening .brace, .opening .square]) := by
  have hnew : IsLine "::std::sync::OnceLock::new();"
      [.separator, .name "std", .separator, .name "sync", .separator, .name "OnceLock", .separator,
        .name "new", .opening .paren, .closing .paren, .semi] := by
    refine ⟨rfl, ?_, of_decide_eq_true rfl⟩
    simp +decide [Piece.IsValid]
  have hname : IsLine "LOOKUP" [.name "LOOKUP"] := by
    refine ⟨rfl, ?_, of_decide_eq_true rfl⟩
    simp +decide [Piece.IsValid]
  have hinit : IsLine (".get_or_init(||" ++ " \x7b")
      [.dot, .name "get_or_init", .opening .paren, .signs [('|', .pipe), ('|', .pipe)] false, .gap,
        .opening .brace] := by
    refine ⟨rfl, ?_, of_decide_eq_true rfl⟩
    simp +decide [Piece.IsValid]
  have hopen : IsLine "[" [.opening .square] := by
    refine ⟨rfl, ?_, of_decide_eq_true rfl⟩
    simp [Piece.IsValid]
  exact lexesTo_indent.append <| hnew.lexesTo_line.append <| lexesTo_dedent.append <|
    hname.lexesTo_line.append <| lexesTo_indent.append <| hinit.lexesTo_openBlock.append <|
    hopen.lexesTo_line.append lexesTo_indent

/-- An entry has the lexemes of its name and its path. -/
theorem lexesTo_entry (entry : String × String) (h : isPath entry.2) :
    LexesTo [.line ("(" ++ quoted entry.1 ++ ", " ++ entry.2 ++ "),")] (entryLexemes entry) := by
  have hbefore : IsRow [.opening .paren, .text entry.1, .comma, .gap] := by
    refine ⟨?_, of_decide_eq_true rfl⟩
    simp +decide [Piece.IsValid]
  have hafter : IsRow ([.closing .paren, .comma] ++ [.newline]) := by
    refine ⟨?_, of_decide_eq_true rfl⟩
    simp +decide [Piece.IsValid]
  have hrow := (isOperand_pathPieces h).between hbefore (by simp [Piece.leads]) hafter
    (by simp +decide)
  rw [← List.append_assoc] at hrow
  have hline : IsLine ("(" ++ quoted entry.1 ++ ", " ++ entry.2 ++ "),")
      ([.opening .paren, .text entry.1, .comma, .gap] ++ pathPieces entry.2
        ++ [.closing .paren, .comma]) := by
    refine ⟨?_, hrow⟩
    rw [piecesChars_append, piecesChars_append, ← toList_path h]
    simp [piecesChars, Piece.chars, openingChar, closingChar]
  have hlexemes := hline.lexesTo_line
  rw [piecesLexemes_append, piecesLexemes_append] at hlexemes
  exact hlexemes

/-- The map is asked for the text, and the value that is found is copied. -/
theorem lexesTo_mapGet {x : String} (hx : isPlainIdentifier x) :
    LexesTo [.dedent, .line "]", .line ".into_iter()", .line ".collect()", .closeWith "\x7d)",
        .line (".get(" ++ x ++ ")"), .line ".copied()", .dedent]
      ([.closing .square] ++ mapGet ++ [.word x, .closing .paren] ++ plainCall "copied") := by
  have hclose : IsLine "]" [.closing .square] := by
    refine ⟨rfl, ?_, of_decide_eq_true rfl⟩
    simp [Piece.IsValid]
  have hcall : ∀ method : String, isPlainIdentifier method → IsLine ("." ++ method ++ "()")
      [.dot, .name method, .opening .paren, .closing .paren] := by
    intro method hmethod
    refine ⟨?_, ?_, of_decide_eq_true rfl⟩
    · simp [piecesChars, Piece.chars, openingChar, closingChar]
    · simp +decide [Piece.IsValid, hmethod]
  have hend : IsLine "\x7d)" [.closing .brace, .closing .paren] := by
    refine ⟨rfl, ?_, of_decide_eq_true rfl⟩
    simp [Piece.IsValid]
  have hget : IsLine (".get(" ++ x ++ ")")
      [.dot, .name "get", .opening .paren, .name x, .closing .paren] := by
    refine ⟨?_, ?_, of_decide_eq_true rfl⟩
    · simp [piecesChars, Piece.chars, openingChar, closingChar]
    · simp +decide [Piece.IsValid, hx]
  exact lexesTo_dedent.append <| hclose.lexesTo_line.append <|
    (hcall "into_iter" (by decide)).lexesTo_line.append <|
    (hcall "collect" (by decide)).lexesTo_line.append <| hend.lexesTo_closeWith.append <|
    hget.lexesTo_line.append <| (hcall "copied" (by decide)).lexesTo_line.append lexesTo_dedent

/-- Lines that all have lexemes of their own. -/
theorem lexesTo_map {α : Type} {step : α → Step} {lexemes : α → List Lexeme} {as : List α}
    (h : ∀ a ∈ as, LexesTo [step a] (lexemes a)) :
    LexesTo (as.map step) (as.flatMap lexemes) := by
  induction as with
  | nil => exact LexesTo.nil
  | cons a as ih =>
    have ha := h a List.mem_cons_self
    exact ha.append (ih fun b hb => h b (List.mem_cons_of_mem _ hb))

/-- Numbered arms have their lexemes one after the other. -/
theorem lexesTo_arms {arms : List (Int × Expr)} (h : ∀ arm ∈ arms, arm.2.IsReadable) :
    LexesTo (arms.map fun (n, e) => .line (toString n ++ " => " ++ e.text ++ ","))
      (arms.flatMap armLexemes) := by
  refine lexesTo_map fun arm harm => ?_
  obtain ⟨n, e⟩ := arm
  exact lexesTo_arm n (h (n, e) harm)

theorem lexesTo_entries {entries : List (String × String)} (h : ∀ entry ∈ entries, isPath entry.2) :
    LexesTo (entries.map fun (name, reference) =>
        .line ("(" ++ quoted name ++ ", " ++ reference ++ "),"))
      (entries.flatMap entryLexemes) := by
  refine lexesTo_map fun entry hentry => ?_
  obtain ⟨name, reference⟩ := entry
  exact lexesTo_entry (name, reference) (h (name, reference) hentry)

end Blocks

/-! ## Statements -/

section Statements

variable {x y text : String} {e c : Expr} {body other : List Stmt}

theorem lexesTo_choose {branches : List (Expr × List Stmt)}
    (hbranches : LexesTo (branchSteps x true branches) (branchLexemes x true branches))
    (hother : LexesTo (blockSteps other) (blockLexemes other)) :
    LexesTo (Stmt.choose x branches other).steps (Stmt.choose x branches other).lexemes := by
  rw [Stmt.steps, Stmt.lexemes]
  exact ((hbranches.append lexesTo_else).append hother).append lexesTo_closeSemi

theorem lexesTo_select {subject : Expr} {arms : List (Int × Expr)} (hx : isPlainIdentifier x)
    (hsubject : subject.IsReadable) (harms : ∀ arm ∈ arms, arm.2.IsReadable)
    (hy : isPlainIdentifier y) (he : e.IsReadable) :
    LexesTo (Stmt.select x subject arms y e).steps (Stmt.select x subject arms y e).lexemes := by
  have hhead := (lexesTo_match hx hsubject).append (lexesTo_arms harms)
  have hend := (lexesTo_lastArm hy he).append lexesTo_closeSemi
  rw [Stmt.steps, Stmt.lexemes]
  exact hhead.append hend

theorem lexesTo_when (hc : c.IsReadable) (hbody : LexesTo (blockSteps body) (blockLexemes body)) :
    LexesTo (Stmt.when c body).steps (Stmt.when c body).lexemes := by
  have hword : ("if", Keyword.ifKw) ∈ keywords := by decide
  rw [Stmt.steps, Stmt.lexemes]
  exact ((lexesTo_head hword hc).append hbody).append lexesTo_close

theorem lexesTo_loop (hc : c.IsReadable) (hbody : LexesTo (blockSteps body) (blockLexemes body)) :
    LexesTo (Stmt.loop c body).steps (Stmt.loop c body).lexemes := by
  have hword : ("while", Keyword.whileKw) ∈ keywords := by decide
  rw [Stmt.steps, Stmt.lexemes]
  exact ((lexesTo_head hword hc).append hbody).append lexesTo_close

theorem lexesTo_eachByte (hx : isPlainIdentifier x) (htext : isPlainIdentifier text)
    (hbody : LexesTo (blockSteps body) (blockLexemes body)) :
    LexesTo (Stmt.eachByte x text body).steps (Stmt.eachByte x text body).lexemes := by
  rw [Stmt.steps, Stmt.lexemes]
  exact ((lexesTo_for hx htext).append hbody).append lexesTo_close

theorem lexesTo_switchStmt {arms : List (UInt32 × List Stmt)} (hx : isPlainIdentifier x)
    (harms : LexesTo (armSteps arms) (armBlockLexemes arms)) :
    LexesTo (Stmt.switch x arms).steps (Stmt.switch x arms).lexemes := by
  have hend := lexesTo_emptyArm.append lexesTo_close
  rw [Stmt.steps, Stmt.lexemes]
  exact ((lexesTo_switch hx).append harms).append hend

/-- A comparison of texts has the lexemes of its three arms. -/
theorem lexesTo_order {a b : String} {less greater : String × Expr} (ha : isPlainIdentifier a)
    (hb : isPlainIdentifier b) (he : e.IsReadable) (hless : isPlainIdentifier less.1)
    (hlessExpr : less.2.IsReadable) (hgreater : isPlainIdentifier greater.1)
    (hgreaterExpr : greater.2.IsReadable) :
    LexesTo (Stmt.order a b e less greater).steps (Stmt.order a b e less greater).lexemes := by
  have hequal := (lexesTo_compare ha hb).append (lexesTo_foundArm he)
  have hlessArm := lexesTo_settingArm (by decide : isPlainIdentifier "Less") hless hlessExpr
  have hgreaterArm :=
    lexesTo_settingArm (by decide : isPlainIdentifier "Greater") hgreater hgreaterExpr
  rw [Stmt.steps, Stmt.lexemes]
  exact ((hequal.append hlessArm).append hgreaterArm).append lexesTo_close

/-- A map has the lexemes of its entries between those of its cell and of the question. -/
theorem lexesTo_mapLookup {typeName : String} {entries : List (String × String)}
    (htype : isPlainIdentifier typeName) (hentries : ∀ entry ∈ entries, isPath entry.2)
    (hx : isPlainIdentifier x) :
    LexesTo (Stmt.mapLookup typeName entries x).steps
      (Stmt.mapLookup typeName entries x).lexemes := by
  have hhead := (lexesTo_mapHead htype).append lexesTo_mapInit
  rw [List.append_assoc] at hhead
  rw [Stmt.steps, Stmt.lexemes]
  exact (hhead.append (lexesTo_entries hentries)).append (lexesTo_mapGet hx)

end Statements

mutual

/-- The layout of a readable statement has the lexemes of the statement. -/
theorem Stmt.lexesTo_steps : (s : Stmt) → s.IsReadable → LexesTo s.steps s.lexemes
  | .comment _, h => absurd h (by simp [Stmt.IsReadable])
  | .blank, h => absurd h (by simp [Stmt.IsReadable])
  | .bind _ _, h => by
    rw [Stmt.IsReadable] at h
    exact lexesTo_bind h.1 h.2
  | .bindVar _ type _, h => by
    rw [Stmt.IsReadable] at h
    exact lexesTo_bindVar h.1 type h.2
  | .bindVars _ _ _ _, h => by
    rw [Stmt.IsReadable] at h
    exact lexesTo_bindVars h.1 h.2.1 h.2.2.1 h.2.2.2
  | .choose x branches other, h => by
    rw [Stmt.IsReadable] at h
    exact lexesTo_choose (lexesTo_branchSteps x h.1 true branches h.2.2.1)
      (lexesTo_blockSteps other h.2.2.2)
  | .select _ _ _ _ _, h => by
    rw [Stmt.IsReadable] at h
    exact lexesTo_select h.1 h.2.1 h.2.2.1 h.2.2.2.1 h.2.2.2.2
  | .assign _ _, h => by
    rw [Stmt.IsReadable] at h
    exact lexesTo_assign h.1 h.2
  | .mix _ _, h => by
    rw [Stmt.IsReadable] at h
    exact lexesTo_mix h.1 h.2
  | .when _ body, h => by
    rw [Stmt.IsReadable] at h
    exact lexesTo_when h.1 (lexesTo_blockSteps body h.2)
  | .loop _ body, h => by
    rw [Stmt.IsReadable] at h
    exact lexesTo_loop h.1 (lexesTo_blockSteps body h.2)
  | .eachByte _ _ body, h => by
    rw [Stmt.IsReadable] at h
    exact lexesTo_eachByte h.1 h.2.1 (lexesTo_blockSteps body h.2.2)
  | .switch _ arms, h => by
    rw [Stmt.IsReadable] at h
    exact lexesTo_switchStmt h.1 (lexesTo_armSteps arms h.2)
  | .order _ _ _ _ _, h => by
    rw [Stmt.IsReadable] at h
    obtain ⟨ha, hb, hfound, hless, hgreater⟩ := h
    exact lexesTo_order ha hb hfound hless.1 hless.2 hgreater.1 hgreater.2
  | .mapLookup _ _ _, h => by
    rw [Stmt.IsReadable] at h
    exact lexesTo_mapLookup h.1 h.2.1 h.2.2
  | .ret _, h => by
    rw [Stmt.IsReadable] at h
    exact lexesTo_ret h
  | .result _, h => by
    rw [Stmt.IsReadable] at h
    exact lexesTo_result h.1

/-- Statements in a row have their lexemes one after the other. -/
theorem lexesTo_blockSteps : (body : List Stmt) → blockReadable body →
    LexesTo (blockSteps body) (blockLexemes body)
  | [], _ => LexesTo.nil
  | s :: rest, h => by
    rw [blockReadable] at h
    exact (Stmt.lexesTo_steps s h.1).append (lexesTo_blockSteps rest h.2.2)

theorem lexesTo_branchSteps (x : String) (hx : isPlainIdentifier x) (isFirst : Bool) :
    (branches : List (Expr × List Stmt)) → branchesReadable branches →
    LexesTo (branchSteps x isFirst branches) (branchLexemes x isFirst branches)
  | [], _ => LexesTo.nil
  | (c, body) :: rest, h => by
    rw [branchesReadable] at h
    obtain ⟨hc, hbody, hrest⟩ := h
    have hbodySteps := lexesTo_blockSteps body hbody
    have hrestSteps := lexesTo_branchSteps x hx false rest hrest
    rw [branchSteps, branchLexemes]
    cases isFirst with
    | true => exact ((lexesTo_if hx hc).append hbodySteps).append hrestSteps
    | false => exact ((lexesTo_elseIf hc).append hbodySteps).append hrestSteps

theorem lexesTo_armSteps : (arms : List (UInt32 × List Stmt)) → armsReadable arms →
    LexesTo (armSteps arms) (armBlockLexemes arms)
  | [], _ => LexesTo.nil
  | (n, body) :: rest, h => by
    rw [armsReadable] at h
    obtain ⟨hbody, hrest⟩ := h
    have hbodySteps := lexesTo_blockSteps body hbody
    have hrestSteps := lexesTo_armSteps rest hrest
    rw [armSteps, armBlockLexemes]
    exact (((lexesTo_pattern n).append hbodySteps).append lexesTo_close).append hrestSteps

end

end EnumNames.Code
