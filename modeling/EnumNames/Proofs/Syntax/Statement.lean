import EnumNames.Proofs.Code.Statement
import EnumNames.Proofs.Syntax.Expression

/-!
# Emitted statements without blocks

The grammar passes the tokens of a readable statement and comes back to the goal it had before: the
statements that are left of a block. Only the result of a block has to stand at its end.

* `Stmt.IsAccepted`, `IsAcceptedBlock`: a run passes a statement, or the statements of a block.
* `leads_expressionStatement`, `leads_blockStatement`: how an expression becomes a statement.
* `isAccepted_bind` and its like: the statements that consist of expressions only.
-/

namespace EnumNames.Code

open Target Stage

variable {s s' : Shape} {t : Token} {ts : List Token} {later : List Goal}

/-! ## Accepted statements -/

/-- The tokens of a statement. -/
def Stmt.tokens (s : Stmt) : List Token :=
  s.lexemes.map Lexeme.token

/-- The tokens of statements in a row. -/
def blockTokens (body : List Stmt) : List Token :=
  (blockLexemes body).map Lexeme.token

/-- Whether tokens do not go on with the block before them. -/
def endsBlock (ts : List Token) : Bool :=
  !isDotAlone ts && !begins [.question] ts && !isKeyword .elseKw ts

/-- A run passes the tokens of a statement and comes back to the statements of the block. -/
def Stmt.IsAccepted (stmt : Stmt) : Prop :=
  ∀ ⦃s : Shape⦄ ⦃ts : List Token⦄ ⦃later : List Goal⦄,
    endsBlock ts → (stmt.isResult → isClosing .brace ts) →
      Leads ⟨.statement .list :: later, s, stmt.tokens ++ ts⟩ ⟨.statement .list :: later, .plain, ts⟩

/-- A run passes the statements of a block with the brace after them. -/
def IsAcceptedBlock (body : List Stmt) : Prop :=
  ∀ ⦃s : Shape⦄ ⦃ts : List Token⦄ ⦃later : List Goal⦄,
    Leads ⟨.statement .list :: later, s, blockTokens body ++ .closing .brace :: ts⟩
      ⟨later, .plain, ts⟩

/-- An accepted block is passed up to its closing brace. -/
theorem IsAcceptedBlock.leads {body : List Stmt} (h : IsAcceptedBlock body) :
    Leads ⟨.statement .list :: later, s, blockTokens body ++ .closing .brace :: ts⟩
      ⟨later, .plain, ts⟩ :=
  @h s ts later

theorem exists_of_isClosing {b : Bracket} (h : isClosing b ts) : ∃ rest, ts = .closing b :: rest := by
  cases ts with
  | nil => exact absurd h (by simp [isClosing])
  | cons t ts =>
    cases t with
    | closing b' =>
      have hb : b = b' := eq_of_beq h
      exact ⟨ts, hb ▸ rfl⟩
    | _ => exact absurd h (by simp [isClosing])

/-! ## Beginnings of statements -/

section Beginnings

/-- A token that is neither a name nor a separator begins no path. -/
theorem afterPlainPath?_eq_none (hname : Target.isPathName [t] = false)
    (hsign : t ≠ .sign .colon true) (ts : List Token) : afterPlainPath? (t :: ts) = none := by
  unfold afterPlainPath?
  split
  · next heq =>
    cases heq
    exact absurd rfl hsign
  unfold afterPlainPath?.afterName
  split
  · next heq =>
    cases heq
    exact if_neg (by simp [hname])
  · next heq =>
    cases heq
    exact if_neg (by simp [hname])
  · next heq => cases heq

theorem afterMacroMark?_eq_none (hname : Target.isPathName [t] = false)
    (hsign : t ≠ .sign .colon true) (ts : List Token) : afterMacroMark? (t :: ts) = none := by
  rw [afterMacroMark?, afterPlainPath?_eq_none hname hsign]

/-- A single name is a path of its own. -/
theorem afterPlainPath?_word (x : String) (h : begins [.colon, .colon] ts = false) :
    afterPlainPath? (.word x :: ts) = some ts := by
  show afterPlainPath?.afterName (.word x :: ts) = some ts
  unfold afterPlainPath?.afterName
  split
  · next heq =>
    cases heq
    exact absurd h (by simp [begins])
  · next heq =>
    cases heq
    rfl
  · next heq => cases heq

/-- What is left of an expression that is a statement, after its first operand. -/
def expressionRest : List Goal :=
  [.expr (.operators true Level.jump.rank), .statement .expressionEnd]

/-- A keyword that begins neither a declaration nor an item begins a block or an expression. -/
theorem startStatements_keyword {k : Keyword} (hpath : k.inPath = false) (hlet : k ≠ .letKw)
    (hitem : isKeywordItem k ts = false) :
    startStatements (.keyword k :: ts) = match startBlockLike? (.keyword k :: ts) with
      | some move => move.andThen [.statement .blockEnd]
      | none => (startBareOperand true (.keyword k :: ts)).andThen expressionRest := by
  have hmark := afterMacroMark?_eq_none (t := .keyword k) hpath (by simp) ts
  have hblock : isMacroBlock (.keyword k :: ts) = false := by
    rw [isMacroBlock, hmark]
  have hlet : isKeyword .letKw (.keyword k :: ts) = false := beq_false_of_ne hlet.symm
  have hnone : isItem (.keyword k :: ts) = false := by
    rw [isItem, isMacroItem, hmark]
    exact hitem
  have hstart : startStatements (.keyword k :: ts) = startStatement (.keyword k :: ts) := rfl
  rw [hstart, startStatement, hblock, hlet, hnone]
  rfl

/-- A reference or an array begins an expression. -/
theorem startStatements_of_mem (h : t ∈ [Token.sign .amp false, .opening .square]) :
    startStatements (t :: ts) = (startBareOperand true (t :: ts)).andThen expressionRest := by
  have hmark : afterMacroMark? (t :: ts) = none := by
    refine afterMacroMark?_eq_none ?_ ?_ ts
    · revert t
      decide
    · revert t
      decide
  have hblock : isMacroBlock (t :: ts) = false := by
    rw [isMacroBlock, hmark]
  have hmacro : isMacroItem (t :: ts) = false := by
    rw [isMacroItem, hmark]
  simp only [List.mem_cons, List.not_mem_nil, or_false] at h
  rcases h with rfl | rfl
  · have hitem : isItem (.sign .amp false :: ts) = (isMacroItem (.sign .amp false :: ts) || false) :=
      rfl
    have hstart : startStatements (.sign .amp false :: ts) = startStatement (.sign .amp false :: ts) :=
      rfl
    rw [hstart, startStatement, hblock, hitem, hmacro]
    rfl
  · have hitem : isItem (.opening .square :: ts) = (isMacroItem (.opening .square :: ts) || false) :=
      rfl
    have hstart : startStatements (.opening .square :: ts) = startStatement (.opening .square :: ts) :=
      rfl
    rw [hstart, startStatement, hblock, hitem, hmacro]
    rfl

/-- Whether tokens go on with an expression that began with a word, not with an item or a macro. -/
def keepsExpression (ts : List Token) : Bool :=
  !begins [.bang] ts && !begins [.colon, .colon] ts && !isWord ts
    && !isKeyword .traitKw ts && !isKeywordOf [.unsafeKw, .implKw] ts

/-- A word that is not the first one of an item or the name of a macro begins an expression. -/
theorem startStatements_word (x : String) (h : keepsExpression ts) :
    startStatements (.word x :: ts) = (startBareOperand true (.word x :: ts)).andThen expressionRest := by
  simp only [keepsExpression, Bool.and_eq_true, Bool.not_eq_true'] at h
  obtain ⟨⟨⟨⟨hbang, hcolon⟩, hword⟩, htrait⟩, hunsafe⟩ := h
  have hmark : afterMacroMark? (.word x :: ts) = none := by
    rw [afterMacroMark?, afterPlainPath?_word x hcolon]
    exact if_neg (by simp [hbang])
  have hblock : isMacroBlock (.word x :: ts) = false := by
    rw [isMacroBlock, hmark]
  have hitem : isItem (.word x :: ts) = false := by
    simp [isItem, isMacroItem, hmark, hword, htrait, hunsafe]
  have hstart : startStatements (.word x :: ts) = startStatement (.word x :: ts) := rfl
  rw [hstart, startStatement, hblock, hitem]
  rfl

theorem leads_expressionStatement
    (h : startStatements ts = (startBareOperand true ts).andThen expressionRest)
    (hpound : begins [.pound] ts = false) :
    Leads ⟨.statement .list :: later, s, ts⟩
      ⟨.expr (.operand true) :: (expressionRest ++ later), s, ts⟩ := by
  have hoperand : startOperand true ts = startBareOperand true ts := if_neg (by simp [hpound])
  refine leads_andThen (fun _ => ?_) (fun _ => isLeave_startOperand true ts) rfl
  show startStatements ts = (startOperand true ts).andThen expressionRest
  rw [h, hoperand]

/-- An expression that ends in a block stands for itself. -/
theorem leads_blockStatement {k : Keyword} {next : List Goal} (hpath : k.inPath = false)
    (hlet : k ≠ .letKw) (hitem : isKeywordItem k ts = false)
    (h : startBlockLike? (.keyword k :: ts) = some (.one next)) :
    Leads ⟨.statement .list :: later, s, .keyword k :: ts⟩
      ⟨next ++ .statement .blockEnd :: later, .plain, ts⟩ := by
  have hstart : startStatements (.keyword k :: ts) = .one (next ++ [.statement .blockEnd]) := by
    rw [startStatements_keyword hpath hlet hitem, h]
    rfl
  exact leads_take (g := .statement .list) (fun _ => hstart) (List.append_assoc ..) rfl

/-- The end of a block that stands for itself. -/
theorem leads_blockEnd (h : endsBlock ts) :
    Leads ⟨.statement .blockEnd :: later, s, ts⟩ ⟨.statement .list :: later, .plain, ts⟩ := by
  simp only [endsBlock, Bool.and_eq_true, Bool.not_eq_true'] at h
  have hnone : continueBlock? ts = none := by
    rw [continueBlock?, h.1.1, h.1.2]
    rfl
  refine leads_of_step fun afterBrace => ?_
  show StatementGoal.step .blockEnd afterBrace ts = startStatements ts
  rw [StatementGoal.step, hnone]

theorem leads_noElse (h : endsBlock ts) :
    Leads ⟨.expr .optElse :: later, s, ts⟩ ⟨later, .plain, ts⟩ := by
  simp only [endsBlock, Bool.and_eq_true, Bool.not_eq_true'] at h
  refine leads_leave fun _ => ?_
  show ExprGoal.step .optElse s ts = .leave .plain
  rw [ExprGoal.step, h.2]
  rfl

end Beginnings

/-! ## Statements without blocks -/

section Simple

variable {x y : String} {e e₁ e₂ : Expr}

/-- No expression begins with an attribute. -/
theorem Expr.begins_pound_tokens (he : e.IsReadable) (ts : List Token) :
    begins [.pound] (e.tokens ++ ts) = false := by
  obtain ⟨t, rest, htokens, ht⟩ := Expr.exists_tokens he
  rw [htokens]
  cases t with
  | sign s joined => cases s <;> first | rfl | exact absurd ht (by simp [opensExpr])
  | _ => rfl

/-- The value of a declaration is passed with the semicolon behind it. -/
theorem leads_letValue (h : e.IsAccepted) :
    Leads ⟨.statement .letValue :: later, s,
        .sign .eq false :: (e.tokens ++ .sign .semi false :: ts)⟩
      ⟨.statement .list :: later, .plain, ts⟩ := by
  have hset : Leads ⟨.statement .letValue :: later, s,
      .sign .eq false :: (e.tokens ++ .sign .semi false :: ts)⟩
      ⟨.expr (.whole true) :: .statement .letElse :: later, .plain,
        e.tokens ++ .sign .semi false :: ts⟩ :=
    leads_take (fun _ => rfl) rfl rfl
  exact hset.trans <| (h.leads_whole rfl).trans <| leads_take (fun _ => rfl) rfl rfl

theorem isAccepted_bind (h : e.IsAccepted) : (Stmt.bind x e).IsAccepted := by
  intro s ts later _ _
  have htokens : (Stmt.bind x e).tokens ++ ts = .keyword .letKw :: .word x :: .sign .eq false
      :: (e.tokens ++ .sign .semi false :: ts) := by
    simp [Stmt.tokens, Stmt.lexemes, Expr.tokens, Lexeme.token]
  have hname : Leads ⟨.statement .list :: later, s, .keyword .letKw :: .word x :: .sign .eq false
      :: (e.tokens ++ .sign .semi false :: ts)⟩
      ⟨.statement .letValue :: later, .plain, .sign .eq false
        :: (e.tokens ++ .sign .semi false :: ts)⟩ :=
    leads_of_advance 4 fun _ => ⟨_, rfl⟩
  rw [htokens]
  exact hname.trans (leads_letValue h)

theorem isAccepted_bindVar (type : IntType) (h : e.IsAccepted) :
    (Stmt.bindVar x type e).IsAccepted := by
  intro s ts later _ _
  have htokens : (Stmt.bindVar x type e).tokens ++ ts = .keyword .letKw :: .keyword .mutKw
      :: .word x :: .sign .colon false :: .word type.name :: .sign .eq false
      :: (e.tokens ++ .sign .semi false :: ts) := by
    simp [Stmt.tokens, Stmt.lexemes, Expr.tokens, Lexeme.token]
  have hname : ∃ s', Leads ⟨.statement .list :: later, s, .keyword .letKw :: .keyword .mutKw
      :: .word x :: .sign .colon false :: .word type.name :: .sign .eq false
      :: (e.tokens ++ .sign .semi false :: ts)⟩
      ⟨.statement .letValue :: later, s', .sign .eq false
        :: (e.tokens ++ .sign .semi false :: ts)⟩ :=
    ⟨_, leads_of_advance 9 fun _ => ⟨_, rfl⟩⟩
  obtain ⟨s', hname⟩ := hname
  rw [htokens]
  exact hname.trans (leads_letValue h)

theorem isAccepted_bindVars (h₁ : e₁.IsAccepted) (h₂ : e₂.IsAccepted) (he₁ : e₁.IsReadable)
    (he₂ : e₂.IsReadable) : (Stmt.bindVars x y e₁ e₂).IsAccepted := by
  intro s ts later _ _
  have htokens : (Stmt.bindVars x y e₁ e₂).tokens ++ ts = .keyword .letKw :: .opening .paren
      :: .keyword .mutKw :: .word x :: .sign .comma false :: .keyword .mutKw :: .word y
      :: .closing .paren :: .sign .eq false :: .opening .paren
      :: (e₁.tokens ++ .sign .comma false :: (e₂.tokens ++ .closing .paren
        :: .sign .semi false :: ts)) := by
    simp [Stmt.tokens, Stmt.lexemes, Expr.tokens, Lexeme.token]
  have hpattern : Leads ⟨.statement .list :: later, s, .keyword .letKw :: .opening .paren
      :: .keyword .mutKw :: .word x :: .sign .comma false :: .keyword .mutKw :: .word y
      :: .closing .paren :: .sign .eq false :: .opening .paren
      :: (e₁.tokens ++ .sign .comma false :: (e₂.tokens ++ .closing .paren
        :: .sign .semi false :: ts))⟩
      ⟨.expr (.whole true) :: .statement .letElse :: later, .plain, .opening .paren
        :: (e₁.tokens ++ .sign .comma false :: (e₂.tokens ++ .closing .paren
          :: .sign .semi false :: ts))⟩ :=
    leads_of_advance 14 fun _ => ⟨_, rfl⟩
  rw [htokens]
  refine hpattern.trans ?_
  refine leads_whole_operand.trans ?_
  refine (leads_take (fun _ => rfl) rfl rfl).trans ?_
  refine (leads_list_whole (Expr.isClosing_tokens he₁ .paren _)).trans ?_
  refine (h₁.leads_whole rfl).trans ?_
  refine (leads_take (fun _ => rfl) rfl rfl).trans ?_
  refine (h₂.leads_list he₂).trans ?_
  refine (leads_trailers (rfl : endsOperand true _)).trans ?_
  refine (leads_operators rfl).trans ?_
  exact leads_take (fun _ => rfl) rfl rfl

/-- An assignment is passed where an expression may be one. -/
theorem leads_assignment (h : e.IsAccepted) (hts : endsWhole true ts) :
    Leads ⟨.expr (.operand true) :: .expr (.operators true Level.jump.rank) :: later, s,
        .word x :: .sign .eq false :: (e.tokens ++ ts)⟩ ⟨later, .plain, ts⟩ := by
  have hrank : Level.assign.rank ≤ e.rank :=
    (by decide : Level.assign.rank ≤ Level.or.rank).trans (Expr.or_rank_le e)
  have hbelow : operatorBelow Level.jump.rank ts := by
    simp only [endsWhole, Bool.and_eq_true] at hts
    exact hts.1.2
  refine (leads_name x rfl).trans ?_
  refine (leads_trailers (rfl : endsOperand true _)).trans ?_
  refine (leads_take (fun _ => rfl) rfl rfl).trans ?_
  refine (h hrank (follows_of_endsWhole hts e)).trans ?_
  refine (leads_operators (operatorBelow_mono (Nat.zero_le _) hbelow)).trans ?_
  exact (leads_leave fun _ => rfl).trans (leads_operators hbelow)

/-- An assignment is accepted as an expression. -/
theorem isAccepted_assign (h : e.IsAccepted) : (Stmt.assign x e).IsAccepted := by
  intro s ts later _ _
  have htokens : (Stmt.assign x e).tokens ++ ts = .word x :: .sign .eq false
      :: (e.tokens ++ .sign .semi false :: ts) := by
    simp [Stmt.tokens, Stmt.lexemes, Expr.tokens, Lexeme.token]
  rw [htokens]
  refine (leads_expressionStatement (startStatements_word x rfl) rfl).trans ?_
  exact (leads_assignment h rfl).trans <| leads_take (fun _ => rfl) rfl rfl

theorem isAccepted_mix (h : e.IsAccepted) : (Stmt.mix x e).IsAccepted := by
  intro s ts later _ _
  have htokens : (Stmt.mix x e).tokens ++ ts = .word x :: .sign .caret true :: .sign .eq false
      :: (e.tokens ++ .sign .semi false :: ts) := by
    simp [Stmt.tokens, Stmt.lexemes, Expr.tokens, Lexeme.token]
  have hrank : Level.assign.rank ≤ e.rank :=
    (by decide : Level.assign.rank ≤ Level.or.rank).trans (Expr.or_rank_le e)
  rw [htokens]
  refine (leads_expressionStatement (startStatements_word x rfl) rfl).trans ?_
  refine (leads_name x rfl).trans ?_
  refine (leads_trailers (rfl : endsOperand true _)).trans ?_
  refine (leads_take (fun _ => rfl) rfl rfl).trans ?_
  refine (h hrank (follows_of_endsWhole rfl e)).trans ?_
  refine (leads_operators rfl).trans ?_
  refine (leads_leave fun _ => rfl).trans ?_
  exact (leads_operators rfl).trans <| leads_take (fun _ => rfl) rfl rfl

/-- A value may follow a jump. -/
theorem isValue_tokens (he : e.IsReadable) (ts : List Token) : isValue (e.tokens ++ ts) := by
  obtain ⟨t, rest, htokens, ht⟩ := Expr.exists_tokens he
  rw [htokens, List.cons_append]
  cases t with
  | keyword k => cases k <;> first | rfl | exact absurd ht (by simp [opensExpr])
  | opening b => cases b <;> rfl
  | sign sign joined =>
    -- a minus sign is judged together with the number after it
    have hminus : isValue (.sign .minus false :: (rest ++ ts)) := by simp [isValue, begins]
    cases joined <;> cases sign <;> first | rfl | exact hminus | exact absurd ht (by simp [opensExpr])
  | closing _ | lifetime | quote => exact absurd ht (by simp [opensExpr])
  | word _ | literal _ => rfl

/-- A jump with its value is passed where an operand is expected. -/
theorem leads_return (he : e.IsReadable) (h : e.IsAccepted) (hts : endsWhole true ts) :
    Leads ⟨.expr (.operand true) :: later, s, .keyword .returnKw :: (e.tokens ++ ts)⟩
      ⟨later, .plain, ts⟩ := by
  have hvalue : ExprGoal.step (.optValue true) .plain (e.tokens ++ ts)
      = (startExpr true (e.tokens ++ ts)).andThen [.shape .plain] := by
    show startValue true (e.tokens ++ ts) = _
    rw [startValue, isValue_tokens he]
    rfl
  have hends : endsOperand true ts := by
    simp only [endsWhole, Bool.and_eq_true] at hts
    exact hts.1.1
  have hwhole : Leads ⟨.expr (.optValue true) :: .expr .trailers :: later, .plain, e.tokens ++ ts⟩
      ⟨.expr (.whole true) :: .shape .plain :: .expr .trailers :: later, .plain, e.tokens ++ ts⟩ :=
    leads_andThen (g := .expr (.optValue true)) (fun _ => hvalue)
      (fun _ => isLeave_startExpr true _) rfl
  refine (leads_take (fun _ => rfl) rfl rfl).trans ?_
  refine hwhole.trans ?_
  refine (h.leads_whole hts).trans ?_
  exact (leads_leave fun _ => rfl).trans (leads_trailers hends)

theorem isAccepted_ret (he : e.IsReadable) (h : e.IsAccepted) : (Stmt.ret e).IsAccepted := by
  intro s ts later _ _
  have htokens : (Stmt.ret e).tokens ++ ts = .keyword .returnKw
      :: (e.tokens ++ .sign .semi false :: ts) := by
    simp [Stmt.tokens, Stmt.lexemes, Expr.tokens, Lexeme.token]
  rw [htokens]
  refine (leads_expressionStatement (startStatements_keyword rfl (by simp) rfl) rfl).trans ?_
  refine (leads_return he h rfl).trans ?_
  exact (leads_operators rfl).trans <| leads_take (fun _ => rfl) rfl rfl

theorem startStatements_result (h : e.isResult) :
    startStatements (e.tokens ++ .closing .brace :: ts)
      = (startBareOperand true (e.tokens ++ .closing .brace :: ts)).andThen expressionRest := by
  cases e with
  | writeText e => exact startStatements_word "f" rfl
  | slice text low high => exact startStatements_of_mem (t := .sign .amp false) (by simp)
  | var x => exact startStatements_word x rfl
  | none => exact startStatements_word "None" rfl
  | _ => exact absurd h (by simp [Expr.isResult])

/-- An expression that ends a block leaves the brace after it. -/
theorem leads_expressionEnd :
    Leads ⟨.statement .expressionEnd :: later, s, .closing .brace :: ts⟩
      ⟨.statement .list :: later, s', .closing .brace :: ts⟩ :=
  leads_of_step fun _ => rfl

/-- The result of a block needs no semicolon. -/
theorem isAccepted_result (he : e.IsReadable) (h : e.IsAccepted) (hresult : e.isResult) :
    (Stmt.result e).IsAccepted := by
  intro s ts later _ hend
  have htokens : (Stmt.result e).tokens = e.tokens := rfl
  obtain ⟨rest, rfl⟩ : ∃ rest, ts = .closing .brace :: rest := exists_of_isClosing (hend rfl)
  have hpound := Expr.begins_pound_tokens he (.closing .brace :: rest)
  rw [htokens]
  refine (leads_expressionStatement (startStatements_result hresult) hpound).trans ?_
  refine (h (Nat.zero_le _) (follows_of_endsWhole rfl e)).trans ?_
  exact (leads_operators rfl).trans leads_expressionEnd

end Simple

end EnumNames.Code
