import EnumNames.Proofs.Syntax.Block

/-!
# Emitted statements are accepted

The last form of statement is a search in a map, which is built once inside a cell. With it, every
readable statement is passed.

* `isAccepted_mapLookup`: a search in a map.
* `Stmt.isAccepted`, `isAccepted_block`: all readable statements and blocks.
-/

namespace EnumNames.Code

open Target Stage

variable {s : Shape} {ts : List Token} {later : List Goal}

/-! ## The map -/

section Map

variable {typeName x : String}

/-- The tokens of the entries of a map. -/
def entryTokens (entries : List (String × String)) : List Token :=
  (entries.flatMap entryLexemes).map Lexeme.token

theorem entryTokens_cons (entry : String × String) (entries : List (String × String))
    (ts : List Token) :
    entryTokens (entry :: entries) ++ ts = .opening .paren :: .literal .text :: .sign .comma false
      :: ((pathLexemes entry.2).map Lexeme.token ++ .closing .paren :: .sign .comma false
        :: (entryTokens entries ++ ts)) := by
  simp [entryTokens, entryLexemes, Lexeme.token]

/-- An entry is passed where a whole expression is expected. -/
theorem leads_entry {reference : String} (h : isPath reference) :
    Leads ⟨.expr (.whole true) :: later, s, .opening .paren :: .literal .text :: .sign .comma false
        :: ((pathLexemes reference).map Lexeme.token ++ .closing .paren :: .sign .comma false :: ts)⟩
      ⟨later, .plain, .sign .comma false :: ts⟩ := by
  have hends : endsWhole true (.closing .paren :: .sign .comma false :: ts) := rfl
  obtain ⟨p, hpath⟩ := leads_path_whole h hends
  refine leads_whole_operand.trans ?_
  refine (leads_take (fun _ => rfl) rfl rfl).trans ?_
  refine (leads_list_whole rfl).trans ?_
  refine leads_whole_operand.trans ?_
  refine (leads_literal .text).trans ?_
  refine (leads_trailers (rfl : endsOperand true _)).trans ?_
  refine (leads_operators rfl).trans ?_
  refine (leads_take (fun _ => rfl) rfl rfl).trans ?_
  refine (leads_list_whole (isClosing_path h .paren _)).trans ?_
  refine hpath.trans ?_
  refine (leads_take (fun _ => rfl) rfl rfl).trans ?_
  refine (leads_trailers (rfl : endsOperand true _)).trans ?_
  exact leads_operators rfl

/-- Entries of an array after the first one. -/
theorem leads_entries {entries : List (String × String)} (h : ∀ entry ∈ entries, isPath entry.2) :
    Leads ⟨.expr (.list .square) :: later, s, entryTokens entries ++ .closing .square :: ts⟩
      ⟨later, .plain, ts⟩ := by
  induction entries generalizing s with
  | nil => exact leads_take (fun _ => rfl) rfl rfl
  | cons entry entries ih =>
    rw [entryTokens_cons]
    refine (leads_list_whole rfl).trans ?_
    refine (leads_entry (h entry List.mem_cons_self)).trans ?_
    refine (leads_take (fun _ => rfl) rfl rfl).trans ?_
    exact ih fun entry hentry => h entry (List.mem_cons_of_mem _ hentry)

/-- An array of entries is passed after its opening bracket. -/
theorem leads_entryArray {entries : List (String × String)}
    (h : ∀ entry ∈ entries, isPath entry.2) :
    Leads ⟨.expr .arrayFirst :: later, s, entryTokens entries ++ .closing .square :: ts⟩
      ⟨later, .plain, ts⟩ := by
  cases entries with
  | nil => exact leads_take (fun _ => rfl) rfl rfl
  | cons entry entries =>
    rw [entryTokens_cons]
    refine (leads_arrayFirst rfl).trans ?_
    refine (leads_entry (h entry List.mem_cons_self)).trans ?_
    refine (leads_take (fun _ => rfl) rfl rfl).trans ?_
    exact leads_entries fun entry hentry => h entry (List.mem_cons_of_mem _ hentry)

/-- The tokens of the cell that holds the map, with its type. -/
def mapCellTokens (typeName : String) : List Token :=
  mapHead.map Lexeme.token ++ [.word typeName, .sign .greater true, .sign .greater false]

/-- The tokens of a cell that is empty yet. -/
def newCellTokens : List Token :=
  (onceLock ++ pathSeparator).map Lexeme.token ++ [.word "new", .opening .paren, .closing .paren]

/-- The declaration of the cell is passed. -/
theorem leads_mapCell (typeName : String) :
    Leads ⟨.statement .list :: later, s, mapCellTokens typeName ++ .sign .eq false
        :: (newCellTokens ++ .sign .semi false :: ts)⟩ ⟨.statement .list :: later, .plain, ts⟩ := by
  have htype : Leads ⟨.statement .list :: later, s, mapCellTokens typeName ++ .sign .eq false
      :: (newCellTokens ++ .sign .semi false :: ts)⟩
      ⟨.expr (.whole true) :: .semicolon :: .statement .list :: later, .plain,
        newCellTokens ++ .sign .semi false :: ts⟩ :=
    leads_of_advance 40 fun _ => ⟨_, rfl⟩
  have hvalue : Leads ⟨.expr (.whole true) :: .semicolon :: .statement .list :: later, .plain,
      newCellTokens ++ .sign .semi false :: ts⟩ ⟨.statement .list :: later, .plain, ts⟩ :=
    leads_of_advance 15 fun _ => ⟨_, rfl⟩
  exact htype.trans hvalue

/-- What a run has left to pass inside the closure that makes the map. -/
def closureRest : List Goal :=
  [.expr .trailers, .expr (.operators true Level.jump.rank), .shape .plain, .expr .trailers,
    .expr (.operators true Level.jump.rank), .separator .paren (.expr (.list .paren)),
    .expr .trailers] ++ expressionRest

/-- The call that makes the map is passed up to the array of its entries. -/
theorem leads_mapInit :
    Leads ⟨.statement .list :: later, s, .word "LOOKUP" :: .sign .dot false :: .word "get_or_init"
        :: .opening .paren :: .sign .pipe true :: .sign .pipe false :: .opening .brace
        :: .opening .square :: ts⟩
      ⟨.expr .arrayFirst :: .expr .trailers :: (expressionRest ++ (closureRest ++ later)), .plain,
        ts⟩ := by
  have hclosure : Leads ⟨.expr (.list .paren) :: .expr .trailers :: (expressionRest ++ later),
      .plain, .sign .pipe true :: .sign .pipe false :: .opening .brace :: .opening .square :: ts⟩
      ⟨.statement .list :: (closureRest ++ later), .plain, .opening .square :: ts⟩ :=
    leads_of_advance 4 fun _ => ⟨_, rfl⟩
  have harray : startStatements (.opening .square :: ts)
      = (startBareOperand true (.opening .square :: ts)).andThen expressionRest :=
    startStatements_of_mem (by simp)
  refine (leads_expressionStatement (startStatements_word "LOOKUP" rfl) rfl).trans ?_
  refine (leads_method "LOOKUP" "get_or_init").trans ?_
  refine hclosure.trans ?_
  exact (leads_expressionStatement harray rfl).trans <| leads_take (fun _ => rfl) rfl rfl

/-- What follows the entries is passed up to the name that is looked up. -/
theorem leads_mapGet :
    Leads ⟨.expr .trailers :: (expressionRest ++ (closureRest ++ later)), .plain,
        mapGet.map Lexeme.token ++ ts⟩
      ⟨.expr (.list .paren) :: .expr .trailers :: (expressionRest ++ later), .plain, ts⟩ :=
  leads_of_advance 20 fun _ => ⟨_, rfl⟩

/-- A map is accepted if its constants are paths. -/
theorem isAccepted_mapLookup {entries : List (String × String)}
    (h : ∀ entry ∈ entries, isPath entry.2) : (Stmt.mapLookup typeName entries x).IsAccepted := by
  intro s ts later _ hend
  obtain ⟨rest, rfl⟩ : ∃ rest, ts = .closing .brace :: rest := exists_of_isClosing (hend rfl)
  have htokens : (Stmt.mapLookup typeName entries x).tokens ++ .closing .brace :: rest
      = mapCellTokens typeName ++ .sign .eq false :: (newCellTokens ++ .sign .semi false
        :: .word "LOOKUP" :: .sign .dot false :: .word "get_or_init" :: .opening .paren
        :: .sign .pipe true :: .sign .pipe false :: .opening .brace :: .opening .square
        :: (entryTokens entries ++ .closing .square :: (mapGet.map Lexeme.token ++ .word x
          :: .closing .paren :: .sign .dot false :: .word "copied" :: .opening .paren
          :: .closing .paren :: .closing .brace :: rest))) := by
    simp [Stmt.tokens, Stmt.lexemes, mapCellTokens, newCellTokens, mapInit, plainCall, entryTokens,
      Lexeme.token]
  have hcopied : Leads ⟨.expr .trailers :: (expressionRest ++ later), .plain, .sign .dot false
      :: .word "copied" :: .opening .paren :: .closing .paren :: .closing .brace :: rest⟩
      ⟨.statement .expressionEnd :: later, .plain, .closing .brace :: rest⟩ :=
    leads_of_advance 6 fun _ => ⟨_, rfl⟩
  rw [htokens]
  refine (leads_mapCell typeName).trans ?_
  refine leads_mapInit.trans ?_
  refine (leads_entryArray h).trans ?_
  refine leads_mapGet.trans ?_
  refine (leads_list_whole rfl).trans ?_
  refine (leads_name_whole x rfl).trans ?_
  refine (leads_take (fun _ => rfl) rfl rfl).trans ?_
  exact hcopied.trans leads_expressionEnd

end Map

/-! ## All statements -/

mutual

/-- Every readable statement is accepted. -/
theorem Stmt.isAccepted : (stmt : Stmt) → stmt.IsReadable → stmt.IsAccepted
  | .comment _, h => absurd h (by simp [Stmt.IsReadable])
  | .blank, h => absurd h (by simp [Stmt.IsReadable])
  | .bind _ _, h => by
    rw [Stmt.IsReadable] at h
    exact isAccepted_bind (Expr.isAccepted h.2)
  | .bindVar _ type _, h => by
    rw [Stmt.IsReadable] at h
    exact isAccepted_bindVar type (Expr.isAccepted h.2)
  | .bindVars _ _ _ _, h => by
    rw [Stmt.IsReadable] at h
    obtain ⟨-, -, he₁, he₂⟩ := h
    exact isAccepted_bindVars (Expr.isAccepted he₁) (Expr.isAccepted he₂) he₁ he₂
  | .choose _ branches other, h => by
    rw [Stmt.IsReadable] at h
    exact isAccepted_choose h.2.1 (isAccepted_branches branches h.2.2.1)
      (isAccepted_block other h.2.2.2)
  | .select _ _ _ _ _, h => by
    rw [Stmt.IsReadable] at h
    obtain ⟨-, hsubject, harms, -, hother⟩ := h
    exact isAccepted_select (Expr.isAccepted hsubject) harms hother (Expr.isAccepted hother)
  | .assign _ _, h => by
    rw [Stmt.IsReadable] at h
    exact isAccepted_assign (Expr.isAccepted h.2)
  | .mix _ _, h => by
    rw [Stmt.IsReadable] at h
    exact isAccepted_mix (Expr.isAccepted h.2)
  | .when _ body, h => by
    rw [Stmt.IsReadable] at h
    exact isAccepted_when (Expr.isAccepted h.1) (isAccepted_block body h.2)
  | .loop _ body, h => by
    rw [Stmt.IsReadable] at h
    exact isAccepted_loop (Expr.isAccepted h.1) (isAccepted_block body h.2) h.2
  | .eachByte _ _ body, h => by
    rw [Stmt.IsReadable] at h
    exact isAccepted_eachByte (isAccepted_block body h.2.2) h.2.2
  | .switch _ arms, h => by
    rw [Stmt.IsReadable] at h
    exact isAccepted_switch (isAccepted_armBlocks arms h.2)
  | .order _ _ _ _ _, h => by
    rw [Stmt.IsReadable] at h
    obtain ⟨-, -, hfound, hless, hgreater⟩ := h
    exact isAccepted_order hfound hless.2 hgreater.2
  | .mapLookup _ _ _, h => by
    rw [Stmt.IsReadable] at h
    exact isAccepted_mapLookup h.2.1
  | .ret _, h => by
    rw [Stmt.IsReadable] at h
    exact isAccepted_ret h (Expr.isAccepted h)
  | .result _, h => by
    rw [Stmt.IsReadable] at h
    exact isAccepted_result h.1 (Expr.isAccepted h.1) h.2

/-- By induction on the statements, a readable block is accepted. -/
theorem isAccepted_block : (body : List Stmt) → blockReadable body → IsAcceptedBlock body
  | [], _ => isAcceptedBlock_nil
  | stmt :: rest, h => by
    rw [blockReadable] at h
    obtain ⟨hstmt, hresult, hrest⟩ := h
    exact isAcceptedBlock_cons (Stmt.isAccepted stmt hstmt) (isAccepted_block rest hrest) hresult
      hrest

theorem isAccepted_branches : (branches : List (Expr × List Stmt)) → branchesReadable branches →
    ∀ branch ∈ branches, branch.1.IsAccepted ∧ IsAcceptedBlock branch.2
  | [], _ => by simp
  | (c, body) :: rest, h => by
    rw [branchesReadable] at h
    obtain ⟨hc, hbody, hrest⟩ := h
    have hfirst := isAccepted_block body hbody
    have hothers := isAccepted_branches rest hrest
    exact List.forall_mem_cons.2 ⟨⟨Expr.isAccepted hc, hfirst⟩, hothers⟩

theorem isAccepted_armBlocks : (arms : List (UInt32 × List Stmt)) → armsReadable arms →
    ∀ arm ∈ arms, IsAcceptedBlock arm.2 ∧ blockReadable arm.2
  | [], _ => by simp
  | (n, body) :: rest, h => by
    rw [armsReadable] at h
    obtain ⟨hbody, hrest⟩ := h
    have hfirst := isAccepted_block body hbody
    have hothers := isAccepted_armBlocks rest hrest
    exact List.forall_mem_cons.2 ⟨⟨hfirst, hbody⟩, hothers⟩

end

end EnumNames.Code
