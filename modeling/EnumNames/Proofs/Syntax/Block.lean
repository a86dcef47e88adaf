import EnumNames.Proofs.Syntax.Statement

/-!
# Emitted statements with blocks

What a run does with the statements that hold others, provided that it passes these, and with
matches, whose arms are told apart by a number or by an order.

* `isAcceptedBlock_cons`: the statements of a block are passed one after another.
* `leads_branches`, `leads_arms`, `leads_armBlocks`: conditional blocks and arms in a row.
-/

namespace EnumNames.Code

open Target Stage

variable {fields : Bool} {s : Shape} {t : Token} {ts : List Token} {later : List Goal}

/-! ## Blocks -/

section Blocks

variable {x y : String} {e c : Expr} {stmt : Stmt} {body other : List Stmt}

/-- Whether a statement may begin with a token. -/
def opensStatement : Token → Bool
  | .word _ | .sign .amp false => true
  | .keyword k => k != .elseKw
  | _ => false

/-- A readable statement begins with one of a few tokens. -/
theorem Stmt.exists_tokens (h : stmt.IsReadable) :
    ∃ t rest, stmt.tokens = t :: rest ∧ opensStatement t := by
  cases stmt with
  | comment | blank => exact absurd h (by simp [IsReadable])
  | choose x branches other =>
    rw [IsReadable] at h
    cases branches with
    | nil => exact absurd rfl h.2.1
    | cons branch branches => exact ⟨_, _, rfl, rfl⟩
  | result e =>
    rw [IsReadable] at h
    cases e with
    | writeText | slice | var | none => exact ⟨_, _, rfl, rfl⟩
    | _ => exact absurd h.2 (by simp [Expr.isResult])
  | _ => exact ⟨_, _, rfl, rfl⟩

theorem blockTokens_cons (stmt : Stmt) (body : List Stmt) :
    blockTokens (stmt :: body) = stmt.tokens ++ blockTokens body :=
  List.map_append

/-- The first token of a block, or the brace after it. -/
theorem exists_blockTokens (h : blockReadable body) (ts : List Token) :
    ∃ t rest, blockTokens body ++ .closing .brace :: ts = t :: rest
      ∧ (opensStatement t ∨ t = .closing .brace) := by
  cases body with
  | nil => exact ⟨_, _, rfl, Or.inr rfl⟩
  | cons stmt body =>
    rw [blockReadable] at h
    obtain ⟨t, rest, htokens, ht⟩ := Stmt.exists_tokens h.1
    exact ⟨t, _, by rw [blockTokens_cons, htokens]; rfl, Or.inl ht⟩

theorem endsBlock_cons (h : opensStatement t ∨ t = .closing .brace) : endsBlock (t :: ts) := by
  rcases h with h | rfl
  · cases t with
    | keyword k => cases k <;> first | rfl | exact absurd h (by simp [opensStatement])
    | sign s joined =>
      cases joined <;> cases s <;> first | rfl | exact absurd h (by simp [opensStatement])
    | _ => rfl
  · rfl

/-- Where no attribute stands ahead, none is expected. -/
theorem leads_innerAttributes (h : begins [.pound] ts = false) :
    Leads ⟨.innerAttributes :: later, s, ts⟩ ⟨later, .plain, ts⟩ := by
  refine leads_leave fun _ => ?_
  show startInnerAttributes ts = .leave .plain
  rw [startInnerAttributes, h]
  rfl

theorem begins_pound_cons (h : opensStatement t ∨ t = .closing .brace) :
    begins [.pound] (t :: ts) = false := by
  rcases h with h | rfl
  · cases t with
    | sign s joined =>
      cases joined <;> cases s <;> first | rfl | exact absurd h (by simp [opensStatement])
    | _ => rfl
  · rfl

/-- The statements of a block are passed one after another. -/
theorem isAcceptedBlock_cons (h : stmt.IsAccepted) (hrest : IsAcceptedBlock body)
    (hresult : stmt.isResult → body = []) (hbody : blockReadable body) :
    IsAcceptedBlock (stmt :: body) := by
  intro s ts later
  obtain ⟨t, rest, htokens, ht⟩ := exists_blockTokens hbody ts
  have hends : endsBlock (blockTokens body ++ .closing .brace :: ts) := by
    rw [htokens]
    exact endsBlock_cons ht
  rw [blockTokens_cons, List.append_assoc]
  refine (h hends fun hr => ?_).trans hrest.leads
  rw [hresult hr]
  rfl

theorem isAcceptedBlock_nil : IsAcceptedBlock [] :=
  fun _ _ _ => leads_take (fun _ => rfl) rfl rfl

/-- A block is passed with its braces. -/
theorem IsAcceptedBlock.leads_block (h : IsAcceptedBlock body) :
    Leads ⟨.opening .brace :: .statement .list :: later, s,
        .opening .brace :: (blockTokens body ++ .closing .brace :: ts)⟩ ⟨later, .plain, ts⟩ :=
  (leads_take (fun _ => rfl) rfl rfl).trans h.leads

/-- A block that might begin with attributes is passed after its opening brace. -/
theorem IsAcceptedBlock.leads_bodyRest (h : IsAcceptedBlock body) (hbody : blockReadable body) :
    Leads ⟨.innerAttributes :: .statement .list :: later, s,
        blockTokens body ++ .closing .brace :: ts⟩ ⟨later, .plain, ts⟩ := by
  have hattributes : begins [.pound] (blockTokens body ++ .closing .brace :: ts) = false := by
    obtain ⟨t, rest, htokens, ht⟩ := exists_blockTokens hbody ts
    rw [htokens]
    exact begins_pound_cons ht
  exact (leads_innerAttributes hattributes).trans h.leads

/-- A block in braces is passed as a whole. -/
theorem IsAcceptedBlock.leads_body (h : IsAcceptedBlock body) (hbody : blockReadable body) :
    Leads ⟨.opening .brace :: .innerAttributes :: .statement .list :: later, s,
        .opening .brace :: (blockTokens body ++ .closing .brace :: ts)⟩ ⟨later, .plain, ts⟩ :=
  (leads_take (fun _ => rfl) rfl rfl).trans (h.leads_bodyRest hbody)

theorem isAccepted_when (hc : c.IsAccepted) (hbody : IsAcceptedBlock body) :
    (Stmt.when c body).IsAccepted := by
  intro s ts later hts _
  have htokens : (Stmt.when c body).tokens ++ ts = .keyword .ifKw :: (c.tokens
      ++ .opening .brace :: (blockTokens body ++ .closing .brace :: ts)) := by
    simp [Stmt.tokens, Stmt.lexemes, blockTokens, Expr.tokens, Lexeme.token]
  rw [htokens]
  refine (leads_blockStatement rfl (by simp) rfl rfl).trans ?_
  refine (hc.leads_whole rfl).trans ?_
  refine hbody.leads_block.trans ?_
  exact (leads_noElse hts).trans (leads_blockEnd hts)

theorem isAccepted_loop (hc : c.IsAccepted) (hbody : IsAcceptedBlock body)
    (hreadable : blockReadable body) : (Stmt.loop c body).IsAccepted := by
  intro s ts later hts _
  have htokens : (Stmt.loop c body).tokens ++ ts = .keyword .whileKw :: (c.tokens
      ++ .opening .brace :: (blockTokens body ++ .closing .brace :: ts)) := by
    simp [Stmt.tokens, Stmt.lexemes, blockTokens, Expr.tokens, Lexeme.token]
  rw [htokens]
  refine (leads_blockStatement rfl (by simp) rfl rfl).trans ?_
  refine (hc.leads_whole rfl).trans ?_
  exact (hbody.leads_body hreadable).trans (leads_blockEnd hts)

theorem isAccepted_eachByte {text : String} (hbody : IsAcceptedBlock body)
    (hreadable : blockReadable body) : (Stmt.eachByte x text body).IsAccepted := by
  intro s ts later hts _
  have htokens : (Stmt.eachByte x text body).tokens ++ ts = .keyword .forKw :: .sign .amp false
      :: .word x :: .keyword .inKw :: .word text :: .sign .dot false :: .word "as_bytes"
      :: .opening .paren :: .closing .paren
      :: .opening .brace :: (blockTokens body ++ .closing .brace :: ts) := by
    simp [Stmt.tokens, Stmt.lexemes, blockTokens, plainCall, Lexeme.token]
  have hpattern : Leads ⟨iterationRest ++ .statement .blockEnd :: later, .plain, .sign .amp false
      :: .word x :: .keyword .inKw :: .word text :: .sign .dot false :: .word "as_bytes"
      :: .opening .paren :: .closing .paren
      :: .opening .brace :: (blockTokens body ++ .closing .brace :: ts)⟩
      ⟨.expr (.whole false) :: Goal.body ++ .statement .blockEnd :: later, .plain, .word text
        :: .sign .dot false :: .word "as_bytes" :: .opening .paren :: .closing .paren
        :: .opening .brace :: (blockTokens body ++ .closing .brace :: ts)⟩ :=
    leads_of_advance 7 fun _ => ⟨_, rfl⟩
  rw [htokens]
  refine (leads_blockStatement rfl (by simp) rfl rfl).trans ?_
  refine hpattern.trans ?_
  refine leads_whole_operand.trans ?_
  refine (leads_method text "as_bytes").trans ?_
  refine (leads_take (fun _ => rfl) rfl rfl).trans ?_
  refine (leads_trailers (rfl : endsOperand false _)).trans ?_
  refine (leads_operators rfl).trans ?_
  exact (hbody.leads_body hreadable).trans (leads_blockEnd hts)

/-! ### Conditional blocks -/

/-- The tokens of conditional blocks after the first one. -/
def branchTokens (x : String) (branches : List (Expr × List Stmt)) : List Token :=
  (branchLexemes x false branches).map Lexeme.token

theorem branchTokens_cons (x : String) (c : Expr) (body : List Stmt)
    (branches : List (Expr × List Stmt)) (ts : List Token) :
    branchTokens x ((c, body) :: branches) ++ ts = .closing .brace :: .keyword .elseKw
      :: .keyword .ifKw :: (c.tokens ++ .opening .brace
        :: (blockTokens body ++ (branchTokens x branches ++ ts))) := by
  simp [branchTokens, branchLexemes, blockTokens, Expr.tokens, Lexeme.token]

/-- From inside one of several conditional blocks, a run passes the rest of it and all others. -/
theorem leads_branches {branches : List (Expr × List Stmt)}
    (h : ∀ branch ∈ branches, branch.1.IsAccepted ∧ IsAcceptedBlock branch.2)
    (hbody : IsAcceptedBlock body) (hother : IsAcceptedBlock other) :
    Leads ⟨.statement .list :: .expr .optElse :: later, s, blockTokens body
        ++ (branchTokens x branches ++ .closing .brace :: .keyword .elseKw :: .opening .brace
          :: (blockTokens other ++ .closing .brace :: ts))⟩ ⟨later, .plain, ts⟩ := by
  induction branches generalizing body s with
  | nil =>
    have helse : Leads ⟨.expr .optElse :: later, .plain, .keyword .elseKw :: .opening .brace
        :: (blockTokens other ++ .closing .brace :: ts)⟩
        ⟨.statement .list :: later, .plain, blockTokens other ++ .closing .brace :: ts⟩ :=
      leads_of_advance 2 fun _ => ⟨_, rfl⟩
    exact hbody.leads.trans <| helse.trans hother.leads
  | cons branch branches ih =>
    obtain ⟨c, next⟩ := branch
    obtain ⟨hc, hnext⟩ := h (c, next) List.mem_cons_self
    have hif : ∀ us, Leads ⟨.expr .optElse :: later, .plain, .keyword .elseKw :: .keyword .ifKw :: us⟩
        ⟨conditionRest ++ later, .plain, us⟩ :=
      fun _ => leads_of_advance 2 fun _ => ⟨_, rfl⟩
    rw [branchTokens_cons]
    refine hbody.leads.trans ?_
    refine (hif _).trans ?_
    refine (hc.leads_whole rfl).trans ?_
    refine (leads_take (fun _ => rfl) rfl rfl).trans ?_
    exact ih (fun branch hbranch => h branch (List.mem_cons_of_mem _ hbranch)) hnext

/-- A choice is accepted if its conditions and blocks are. -/
theorem isAccepted_choose {branches : List (Expr × List Stmt)} (hne : branches ≠ [])
    (h : ∀ branch ∈ branches, branch.1.IsAccepted ∧ IsAcceptedBlock branch.2)
    (hother : IsAcceptedBlock other) : (Stmt.choose x branches other).IsAccepted := by
  intro s ts later _ _
  obtain _ | ⟨⟨c, body⟩, branches⟩ := branches
  · exact absurd rfl hne
  obtain ⟨hc, hbody⟩ := h (c, body) List.mem_cons_self
  have htokens : (Stmt.choose x ((c, body) :: branches) other).tokens ++ ts = .keyword .letKw
      :: .word x :: .sign .eq false :: .keyword .ifKw :: (c.tokens ++ .opening .brace
        :: (blockTokens body ++ (branchTokens x branches ++ .closing .brace :: .keyword .elseKw
          :: .opening .brace :: (blockTokens other ++ .closing .brace
            :: .sign .semi false :: ts)))) := by
    simp [Stmt.tokens, Stmt.lexemes, branchLexemes, branchTokens, blockTokens, Expr.tokens,
      Lexeme.token]
  have hlet : ∀ us, Leads ⟨.statement .list :: later, s, .keyword .letKw :: .word x
      :: .sign .eq false :: .keyword .ifKw :: us⟩
      ⟨.expr (.operand true) :: .expr (.operators true Level.jump.rank) :: .statement .letElse
        :: later, .plain, .keyword .ifKw :: us⟩ :=
    fun us => (leads_of_advance 5 fun _ => ⟨_, rfl⟩).trans leads_whole_operand
  rw [htokens]
  refine (hlet _).trans ?_
  refine (leads_take (fun _ => rfl) rfl rfl).trans ?_
  refine (hc.leads_whole rfl).trans ?_
  refine (leads_take (fun _ => rfl) rfl rfl).trans ?_
  refine (leads_branches (fun branch hbranch => h branch (List.mem_cons_of_mem _ hbranch)) hbody
    hother).trans ?_
  refine (leads_trailers (rfl : endsOperand true _)).trans ?_
  exact (leads_operators rfl).trans <| leads_take (fun _ => rfl) rfl rfl

end Blocks

/-! ## Arms -/

section Arms

variable {x y : String} {e c : Expr} {body : List Stmt}

/-- A name is passed where a whole expression is expected. -/
theorem leads_name_whole (x : String) (h : endsWhole fields ts) :
    Leads ⟨.expr (.whole fields) :: later, s, .word x :: ts⟩
      ⟨later, .path { single := true }, ts⟩ :=
  (isAccepted_var x).leads_whole h

/-- A number is passed as the pattern of an arm, with the arrow after it. -/
theorem leads_numberArm (n : Int) :
    Leads ⟨.expr .arm :: later, s, (intLexemes n).map Lexeme.token
        ++ .sign .eq true :: .sign .greater false :: ts⟩ ⟨.expr .armBody :: later, .plain, ts⟩ := by
  rw [intLexemes]
  split
  · -- whether the sign belongs to a pattern depends on the number after it
    have hnumber : (Lexeme.number n.natAbs "").token = .literal .index
        ∨ (Lexeme.number n.natAbs "").token = .literal .number := by
      rw [Lexeme.token]
      split
      · exact Or.inl rfl
      · exact Or.inr rfl
    rw [List.map_cons, List.map_singleton]
    rcases hnumber with h | h <;> rw [h] <;> exact leads_of_advance 4 fun _ => ⟨_, rfl⟩
  · exact leads_of_advance 4 fun _ => ⟨_, rfl⟩

/-- The body of an arm that does not end in a block begins with an operand. -/
theorem leads_armBody (hpound : begins [.pound] ts = false) (h : startBlockLike? ts = none) :
    Leads ⟨.expr .armBody :: later, s, ts⟩
      ⟨.expr (.operand true) :: .expr (.operators true Level.jump.rank) :: .expr .armEnd :: later, s,
        ts⟩ := by
  have hoperand : startOperand true ts = startBareOperand true ts := if_neg (by simp [hpound])
  have hstep : ExprGoal.step .armBody s ts = (startOperand true ts).andThen
      [.expr (.operators true Level.jump.rank), .expr .armEnd] := by
    show startArmBody ts = _
    rw [startArmBody, hpound, h, hoperand]
    rfl
  exact leads_andThen (g := .expr .armBody) (fun _ => hstep)
    (fun _ => isLeave_startOperand true ts) rfl

/-- An expression is passed as the body of an arm, with the comma after it. -/
theorem leads_exprArm (he : e.IsReadable) (h : e.IsAccepted) :
    Leads ⟨.expr .armBody :: later, s, e.tokens ++ .sign .comma false :: ts⟩
      ⟨.expr .arms :: later, .plain, ts⟩ := by
  obtain ⟨t, rest, htokens, ht⟩ := Expr.exists_tokens he
  have hpound := Expr.begins_pound_tokens he (.sign .comma false :: ts)
  have hblock : startBlockLike? (e.tokens ++ .sign .comma false :: ts) = none := by
    rw [htokens]
    cases t with
    | keyword k => cases k <;> first | rfl | exact absurd ht (by simp [opensExpr])
    | opening b => cases b <;> first | rfl | exact absurd ht (by simp [opensExpr])
    | lifetime => exact absurd ht (by simp [opensExpr])
    | _ => rfl
  refine (leads_armBody hpound hblock).trans ?_
  refine (h (Nat.zero_le _) (follows_of_endsWhole rfl e)).trans ?_
  exact (leads_operators rfl).trans <| leads_take (fun _ => rfl) rfl rfl

/-- The body of an arm that leaves the function. -/
theorem leads_returnArm (he : e.IsReadable) (h : e.IsAccepted) :
    Leads ⟨.expr .armBody :: later, s, .keyword .returnKw :: (e.tokens ++ .sign .comma false :: ts)⟩
      ⟨.expr .arms :: later, .plain, ts⟩ :=
  (leads_armBody rfl rfl).trans <| (leads_return he h rfl).trans <|
    (leads_operators rfl).trans <| leads_take (fun _ => rfl) rfl rfl

/-- The body of an arm that assigns to a variable. -/
theorem leads_assignmentArm (h : e.IsAccepted) :
    Leads ⟨.expr .armBody :: later, s,
        .word x :: .sign .eq false :: (e.tokens ++ .sign .comma false :: ts)⟩
      ⟨.expr .arms :: later, .plain, ts⟩ :=
  (leads_armBody rfl rfl).trans <| (leads_assignment h rfl).trans <|
    leads_take (fun _ => rfl) rfl rfl

/-! ### A choice by number -/

/-- The tokens of numbered arms. -/
def armTokens (arms : List (Int × Expr)) : List Token :=
  (arms.flatMap armLexemes).map Lexeme.token

theorem armTokens_cons (n : Int) (e : Expr) (arms : List (Int × Expr)) (ts : List Token) :
    armTokens ((n, e) :: arms) ++ ts = (intLexemes n).map Lexeme.token ++ .sign .eq true
      :: .sign .greater false :: (e.tokens ++ .sign .comma false :: (armTokens arms ++ ts)) := by
  simp [armTokens, armLexemes, armArrow, Expr.tokens, Lexeme.token]

/-- Whether an arm stands ahead: it begins with a number or a name. -/
def isArm : List Token → Bool
  | .literal _ :: _ | .word _ :: _ | .sign .minus _ :: _ | .keyword .underscore :: _ => true
  | _ => false

theorem isArm_int (n : Int) (ts : List Token) : isArm ((intLexemes n).map Lexeme.token ++ ts) := by
  rw [intLexemes]
  split <;> rfl

/-- Where an arm stands ahead, the arms of a match are not at their end. -/
theorem leads_arm (h : isArm ts) :
    Leads ⟨.expr .arms :: later, s, ts⟩ ⟨.expr .arm :: later, .plain, ts⟩ := by
  refine leads_of_step fun _ => ?_
  have hclosing : isClosing .brace ts = false := by
    unfold isArm at h
    split at h
    all_goals first | rfl | exact absurd h (by simp)
  show ExprGoal.step .arms s ts = startArm ts
  rw [ExprGoal.step, hclosing]
  rfl

/-- Arms of a match on numbers are passed one by one. -/
theorem leads_arms {arms : List (Int × Expr)} (h : ∀ arm ∈ arms, arm.2.IsReadable) :
    Leads ⟨.expr .arms :: later, s, armTokens arms ++ ts⟩ ⟨.expr .arms :: later, .plain, ts⟩ := by
  induction arms generalizing s with
  | nil => exact leads_of_step fun _ => rfl
  | cons arm arms ih =>
    obtain ⟨n, e⟩ := arm
    have he : e.IsReadable := h (n, e) List.mem_cons_self
    rw [armTokens_cons]
    refine (leads_arm (isArm_int n _)).trans ?_
    refine (leads_numberArm n).trans ?_
    refine (leads_exprArm he (Expr.isAccepted he)).trans ?_
    exact ih fun arm harm => h arm (List.mem_cons_of_mem _ harm)

theorem begins_pound_armTokens (arms : List (Int × Expr)) (y : String) (ts : List Token) :
    begins [.pound] (armTokens arms ++ .word y :: ts) = false := by
  cases arms with
  | nil => rfl
  | cons arm arms =>
    obtain ⟨n, e⟩ := arm
    rw [armTokens_cons, intLexemes]
    split <;> rfl

/-- A match on numbers is accepted. -/
theorem isAccepted_select {subject : Expr} {arms : List (Int × Expr)} (hsubject : subject.IsAccepted)
    (harms : ∀ arm ∈ arms, arm.2.IsReadable) (he : e.IsReadable) (h : e.IsAccepted) :
    (Stmt.select x subject arms y e).IsAccepted := by
  intro s ts later _ _
  have htokens : (Stmt.select x subject arms y e).tokens ++ ts = .keyword .letKw :: .word x
      :: .sign .eq false :: .keyword .matchKw :: (subject.tokens ++ .opening .brace
        :: (armTokens arms ++ .word y :: .sign .eq true :: .sign .greater false
          :: .keyword .returnKw :: (e.tokens ++ .sign .comma false :: .closing .brace
            :: .sign .semi false :: ts))) := by
    simp [Stmt.tokens, Stmt.lexemes, armTokens, armArrow, Expr.tokens, Lexeme.token]
  have hlet : ∀ us, Leads ⟨.statement .list :: later, s, .keyword .letKw :: .word x
      :: .sign .eq false :: .keyword .matchKw :: us⟩
      ⟨.expr (.operand true) :: .expr (.operators true Level.jump.rank) :: .statement .letElse
        :: later, .plain, .keyword .matchKw :: us⟩ :=
    fun us => (leads_of_advance 5 fun _ => ⟨_, rfl⟩).trans leads_whole_operand
  have hlast : ∀ us later, Leads ⟨.expr .arms :: later, .plain, .word y :: .sign .eq true
      :: .sign .greater false :: us⟩ ⟨.expr .armBody :: later, .plain, us⟩ :=
    fun us later => leads_of_advance 4 fun _ => ⟨_, rfl⟩
  rw [htokens]
  refine (hlet _).trans ?_
  refine (leads_take (fun _ => rfl) rfl rfl).trans ?_
  refine (hsubject.leads_whole rfl).trans ?_
  refine (leads_take (fun _ => rfl) rfl rfl).trans ?_
  refine (leads_innerAttributes (begins_pound_armTokens arms y _)).trans ?_
  refine (leads_arms harms).trans ?_
  refine (hlast _ _).trans ?_
  refine (leads_returnArm he h).trans ?_
  refine (leads_take (fun _ => rfl) rfl rfl).trans ?_
  refine (leads_trailers (rfl : endsOperand true _)).trans ?_
  exact (leads_operators rfl).trans <| leads_take (fun _ => rfl) rfl rfl

/-! ### A choice by hash -/

/-- The tokens of numbered arms that end in blocks. -/
def armBlockTokens (arms : List (UInt32 × List Stmt)) : List Token :=
  (armBlockLexemes arms).map Lexeme.token

theorem armBlockTokens_cons (n : UInt32) (body : List Stmt) (arms : List (UInt32 × List Stmt))
    (ts : List Token) :
    armBlockTokens ((n, body) :: arms) ++ ts = (Lexeme.number n.toNat "").token :: .sign .eq true
      :: .sign .greater false :: .opening .brace
      :: (blockTokens body ++ .closing .brace :: (armBlockTokens arms ++ ts)) := by
  simp [armBlockTokens, armBlockLexemes, armArrow, blockTokens, Lexeme.token]

/-- No comma is needed after the block of an arm. -/
theorem leads_armBlockEnd (h : isArm ts) :
    Leads ⟨.expr .armBlockEnd :: later, s, ts⟩ ⟨.expr .arm :: later, .plain, ts⟩ := by
  refine leads_of_step fun _ => ?_
  show endArmBlock ts = startArm ts
  unfold isArm at h
  split at h
  all_goals first | rfl | exact absurd h (by simp)

/-- Arms with blocks are passed up to the last one, which stands for all other numbers. -/
theorem leads_armBlocks {arms : List (UInt32 × List Stmt)}
    (h : ∀ arm ∈ arms, IsAcceptedBlock arm.2 ∧ blockReadable arm.2) :
    Leads ⟨.expr .arm :: later, s, armBlockTokens arms ++ .keyword .underscore :: ts⟩
      ⟨.expr .arm :: later, .plain, .keyword .underscore :: ts⟩ := by
  induction arms generalizing s with
  | nil => exact leads_of_step fun _ => rfl
  | cons arm arms ih =>
    obtain ⟨n, body⟩ := arm
    obtain ⟨hbody, hreadable⟩ := h (n, body) List.mem_cons_self
    have hnext : isArm (armBlockTokens arms ++ .keyword .underscore :: ts) := by
      cases arms with
      | nil => rfl
      | cons arm arms => rfl
    have hpattern : ∀ us, Leads ⟨.expr .arm :: later, s, (Lexeme.number n.toNat "").token
        :: .sign .eq true :: .sign .greater false :: us⟩ ⟨.expr .armBody :: later, .plain, us⟩ :=
      fun _ => leads_of_advance 4 fun _ => ⟨_, rfl⟩
    rw [armBlockTokens_cons]
    refine (hpattern _).trans ?_
    refine (leads_take (fun _ => rfl) rfl rfl).trans ?_
    refine (hbody.leads_bodyRest hreadable).trans ?_
    refine (leads_armBlockEnd hnext).trans ?_
    exact ih fun arm harm => h arm (List.mem_cons_of_mem _ harm)

theorem isAccepted_switch {arms : List (UInt32 × List Stmt)}
    (h : ∀ arm ∈ arms, IsAcceptedBlock arm.2 ∧ blockReadable arm.2) :
    (Stmt.switch x arms).IsAccepted := by
  intro s ts later hts _
  have htokens : (Stmt.switch x arms).tokens ++ ts = .keyword .matchKw :: .word x
      :: .opening .brace :: (armBlockTokens arms ++ .keyword .underscore :: .sign .eq true
        :: .sign .greater false :: .opening .brace :: .closing .brace :: .closing .brace :: ts) := by
    simp [Stmt.tokens, Stmt.lexemes, armBlockTokens, armArrow, Lexeme.token]
  have hlast : Leads ⟨.expr .arm :: .statement .blockEnd :: later, .plain, .keyword .underscore
      :: .sign .eq true :: .sign .greater false :: .opening .brace :: .closing .brace
      :: .closing .brace :: ts⟩ ⟨.statement .blockEnd :: later, .plain, ts⟩ :=
    leads_of_advance 7 fun _ => ⟨_, rfl⟩
  have harm : ∀ us, isArm (armBlockTokens arms ++ .keyword .underscore :: us)
      ∧ begins [.pound] (armBlockTokens arms ++ .keyword .underscore :: us) = false := by
    intro us
    cases arms with
    | nil => exact ⟨rfl, rfl⟩
    | cons arm arms => exact ⟨rfl, rfl⟩
  rw [htokens]
  refine (leads_blockStatement rfl (by simp) rfl rfl).trans ?_
  refine (leads_name_whole x rfl).trans ?_
  refine (leads_take (fun _ => rfl) rfl rfl).trans ?_
  refine (leads_innerAttributes (harm _).2).trans ?_
  refine (leads_arm (harm _).1).trans ?_
  refine (leads_armBlocks h).trans ?_
  exact hlast.trans (leads_blockEnd hts)

/-! ### A choice by order -/

/-- The pattern of an ordering is passed, with the arrow after it. -/
theorem leads_orderingArm (ordering : String) :
    Leads ⟨.expr .arms :: later, s, (orderingArm ordering).map Lexeme.token ++ ts⟩
      ⟨.expr .armBody :: later, .plain, ts⟩ :=
  leads_of_advance 12 fun _ => ⟨_, rfl⟩

theorem isAccepted_order {a b : String} {found : Expr} {less greater : String × Expr}
    (hfound : found.IsReadable) (hless : less.2.IsReadable) (hgreater : greater.2.IsReadable) :
    (Stmt.order a b found less greater).IsAccepted := by
  intro s ts later hts _
  have htokens : (Stmt.order a b found less greater).tokens ++ ts = .keyword .matchKw :: .word a
      :: .sign .dot false :: .word "cmp" :: .opening .paren :: .word b :: .closing .paren
      :: .opening .brace :: ((orderingArm "Equal").map Lexeme.token ++ .keyword .returnKw
        :: (found.tokens ++ .sign .comma false
          :: ((orderingArm "Less").map Lexeme.token ++ .word less.1 :: .sign .eq false
            :: (less.2.tokens ++ .sign .comma false
              :: ((orderingArm "Greater").map Lexeme.token ++ .word greater.1 :: .sign .eq false
                :: (greater.2.tokens ++ .sign .comma false :: .closing .brace :: ts)))))) := by
    simp [Stmt.tokens, Stmt.lexemes, settingLexemes, Expr.tokens, Lexeme.token]
  rw [htokens]
  refine (leads_blockStatement rfl (by simp) rfl rfl).trans ?_
  refine leads_whole_operand.trans ?_
  refine (leads_method a "cmp").trans ?_
  refine (leads_list_whole rfl).trans ?_
  refine (leads_name_whole b rfl).trans ?_
  refine (leads_take (fun _ => rfl) rfl rfl).trans ?_
  refine (leads_trailers (rfl : endsOperand false _)).trans ?_
  refine (leads_operators rfl).trans ?_
  refine (leads_take (fun _ => rfl) rfl rfl).trans ?_
  refine (leads_innerAttributes rfl).trans ?_
  refine (leads_orderingArm "Equal").trans ?_
  refine (leads_returnArm hfound (Expr.isAccepted hfound)).trans ?_
  refine (leads_orderingArm "Less").trans ?_
  refine (leads_assignmentArm (Expr.isAccepted hless)).trans ?_
  refine (leads_orderingArm "Greater").trans ?_
  refine (leads_assignmentArm (Expr.isAccepted hgreater)).trans ?_
  exact (leads_take (fun _ => rfl) rfl rfl).trans (leads_blockEnd hts)

end Arms

end EnumNames.Code
