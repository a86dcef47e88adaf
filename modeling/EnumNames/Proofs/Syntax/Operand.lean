import EnumNames.Proofs.Syntax.Run

/-!
# Operands

What a run does with the operands that emitted code is made of: names, literals, references, calls,
indices and macros. After an operand, a run goes on until something stands ahead that neither the
operand nor the expression around it can take.

* `endsName`, `endsOperand`, `operatorBelow`, `endsWhole`: what stands ahead ends a name, an operand,
  the operands of an operator, or a whole expression.
* `leads_trailers`, `leads_operators`: the goals that are left there.
-/

namespace EnumNames.Code

open Target Stage

variable {fields : Bool} {rank : Nat} {s : Shape} {ts : List Token} {later : List Goal}

/-! ## What follows an operand -/

/-- Whether tokens do not go on with the name before them. -/
def endsName (fields : Bool) (ts : List Token) : Bool :=
  match ts with
  | .opening .brace :: _ => !fields
  | _ => !begins [.colon, .colon] ts && !isBangAlone ts && !begins [.pound] ts

/-- Whether tokens do not go on with the operand before them. -/
def endsOperand (fields : Bool) (ts : List Token) : Bool :=
  endsName fields ts && !isOpening .paren ts && !isOpening .square ts && !isDotAlone ts
    && !begins [.question] ts

/-- Whether the operator that stands ahead, if one does, has a lower rank. -/
def operatorBelow (rank : Nat) (ts : List Token) : Bool :=
  (operator? ts).all (fun found => found.2.rank < rank)
    && (!(begins [.eq] ts && !begins [.eq, .greater] ts) || Level.assign.rank < rank)
    && (!isKeyword .asKw ts || Level.cast.rank < rank)
    && (!begins [.dot, .dot] ts || Level.range.rank < rank)

/-- Whether tokens do not go on with the whole expression before them. -/
def endsWhole (fields : Bool) (ts : List Token) : Bool :=
  endsOperand fields ts && operatorBelow 0 ts && !isLessAlone ts

theorem endsName_iff : endsName fields ts ↔ (fields && isOpening .brace ts) = false
    ∧ begins [.colon, .colon] ts = false ∧ isBangAlone ts = false ∧ begins [.pound] ts = false := by
  unfold endsName
  split
  · cases fields <;> simp [isOpening, isBangAlone, begins]
  · next h =>
    have hbrace : isOpening .brace ts = false := by
      unfold isOpening
      split
      · next b ts => cases b <;> first | rfl | exact absurd rfl (h _)
      · rfl
    simp [hbrace, and_assoc]

theorem endsName_of_endsOperand (h : endsOperand fields ts) : endsName fields ts := by
  simp only [endsOperand, Bool.and_eq_true] at h
  exact h.1.1.1.1

/-- What ends an operand is no trailer of it. -/
theorem leads_trailers (h : endsOperand fields ts) :
    Leads ⟨.expr .trailers :: later, s, ts⟩ ⟨later, s, ts⟩ := by
  simp only [endsOperand, Bool.and_eq_true, Bool.not_eq_true'] at h
  obtain ⟨⟨⟨⟨-, hparen⟩, hsquare⟩, hdot⟩, hquestion⟩ := h
  refine leads_leave fun _ => ?_
  show startTrailer s ts = .leave s
  simp [startTrailer, hparen, hsquare, hdot, hquestion]

/-- An operator below a rank is below every higher one. -/
theorem operatorBelow_mono {rank' : Nat} (hle : rank ≤ rank') (h : operatorBelow rank ts) :
    operatorBelow rank' ts := by
  simp only [operatorBelow, Bool.and_eq_true, Bool.or_eq_true, decide_eq_true_eq,
    Option.all_eq_true] at h ⊢
  obtain ⟨⟨⟨hoperator, hassign⟩, hcast⟩, hrange⟩ := h
  refine ⟨⟨⟨fun found hfound => ?_, hassign.imp_right ?_⟩, hcast.imp_right ?_⟩,
    hrange.imp_right ?_⟩
  · have hlt := hoperator found hfound
    omega
  all_goals omega

/-- Operators of a lower rank are left to an expression around. -/
theorem leads_operators (h : operatorBelow rank ts) :
    Leads ⟨.expr (.operators fields rank) :: later, s, ts⟩ ⟨later, s, ts⟩ := by
  refine leads_leave fun _ => ?_
  show startOperator fields rank s ts = .leave s
  simp only [operatorBelow, Bool.and_eq_true, Bool.or_eq_true, decide_eq_true_eq,
    Option.all_eq_true, Bool.not_eq_true'] at h
  obtain ⟨⟨⟨hoperator, hassign⟩, hcast⟩, hrange⟩ := h
  rw [startOperator]
  split
  · rfl
  split
  · next heq => rw [if_pos (hoperator _ heq)]
  · have hassign : (begins [.eq] ts && !begins [.eq, .greater] ts
        && decide (rank ≤ Level.assign.rank)) = false := by
      rcases hassign with h | h
      · rw [h, Bool.false_and]
      · rw [decide_eq_false (by omega), Bool.and_false]
    have hcast : (isKeyword .asKw ts && decide (rank ≤ Level.cast.rank)) = false := by
      rcases hcast with h | h
      · rw [h, Bool.false_and]
      · rw [decide_eq_false (by omega), Bool.and_false]
    rw [if_neg (by simp [hassign]), if_neg (by simp [hcast])]
    split
    · next hle =>
      have hdots := hrange.resolve_right (by omega)
      rw [startUpperBound?, hdots]
      rfl
    · rfl

/-! ## Operands -/

theorem isLeave_startBlockLike {move : Move} (h : startBlockLike? ts = some move) :
    move.isLeave = false := by
  unfold startBlockLike? at h
  split at h
  case h_3 => split at h <;> cases h; rfl
  all_goals first | (cases h; rfl) | cases h

theorem isLeave_startPath (style : PathStyle) (ts : List Token) :
    (startPath style ts).isLeave = false := by
  unfold startPath startNamedPath PathShape.segment
  repeat' split
  all_goals rfl

theorem isLeave_andThen {move : Move} (h : move.isLeave = false) (next : List Goal) :
    (move.andThen next).isLeave = false := by
  cases move with
  | leave s => exact absurd h (by simp [Move.isLeave])
  | take extra first => rfl
  | refuse => rfl

/-- An operand takes a token, or the tokens are refused. -/
theorem isLeave_startOperand (fields : Bool) (ts : List Token) :
    (startOperand fields ts).isLeave = false := by
  have hatom : (startAtom fields ts).isLeave = false := by
    unfold startAtom
    split
    · next h => exact isLeave_startBlockLike h
    split
    · unfold startClosure
      split <;> rfl
    split
    · rfl
    split
    · exact isLeave_andThen (isLeave_startPath .expression ts) _
    split
    · rfl
    · unfold startKeywordAtom
      repeat' split
      all_goals rfl
    · rfl
    · rfl
    · unfold startUpperBound?
      repeat' split
      all_goals rfl
  unfold startOperand startBareOperand
  repeat' split
  all_goals first | rfl | exact isLeave_andThen hatom _

theorem isLeave_startExpr (fields : Bool) (ts : List Token) :
    (startExpr fields ts).isLeave = false :=
  isLeave_andThen (isLeave_startOperand fields ts) _

/-- A whole expression begins with an operand. -/
theorem leads_whole_operand : Leads ⟨.expr (.whole fields) :: later, s, ts⟩
    ⟨.expr (.operand fields) :: .expr (.operators fields Level.jump.rank) :: later, s, ts⟩ :=
  leads_andThen (fun _ => rfl) (fun _ => isLeave_startOperand fields ts) rfl

/-- A name is passed, up to its arguments and fields. -/
theorem leads_word (x : String) (h : begins [.pound] ts = false) :
    Leads ⟨.expr (.operand fields) :: later, s, .word x :: ts⟩
      ⟨.path (.arguments .expression { single := true }) :: .expr (.pathEnd fields)
        :: .expr .trailers :: later, .plain, ts⟩ := by
  have hname : (isNamed "builtin" (.word x :: ts) && begins [.pound] ts) = false := by
    rw [h, Bool.and_false]
  have hstep : startOperand fields (.word x :: ts)
      = .one [.path (.arguments .expression { single := true }), .expr (.pathEnd fields),
        .expr .trailers] := by
    show Move.andThen (if isNamed "builtin" (.word x :: ts) && begins [.pound] ts then _ else _) _
      = _
    rw [hname]
    rfl
  exact leads_take (fun _ => hstep) rfl rfl

/-- A name without arguments is passed. -/
theorem leads_name (x : String) (h : endsName fields ts) :
    Leads ⟨.expr (.operand fields) :: later, s, .word x :: ts⟩
      ⟨.expr .trailers :: later, .path { single := true }, ts⟩ := by
  obtain ⟨hbrace, hcolon, hbang, hpound⟩ := endsName_iff.1 h
  have harguments : ∀ afterBrace, Goal.step (.path (.arguments .expression { single := true }))
      .plain afterBrace ts = .leave (.path { single := true }) := by
    intro _
    show PathShape.arguments { single := true } .expression ts = _
    simp [PathShape.arguments, PathShape.more, isPathLess, hcolon]
  have hend : ∀ afterBrace, Goal.step (.expr (.pathEnd fields)) (.path { single := true })
      afterBrace ts = .leave (.path { single := true }) := by
    intro _
    show ExprGoal.step (.pathEnd fields) (.path { single := true }) ts = _
    simp [ExprGoal.step, hbang, hbrace]
  exact (leads_word x hpound).trans <| (leads_leave harguments).trans (leads_leave hend)

/-- A reference to what follows. -/
theorem leads_reference (h : isKeywordOf [.mutKw, .constKw] (ts.drop 1) = false) :
    Leads ⟨.expr (.operand fields) :: later, s, .sign .amp false :: ts⟩
      ⟨.optKeyword .mutKw :: .expr (.operand fields) :: .shape .plain :: later, .plain, ts⟩ := by
  have hstep : startOperand fields (.sign .amp false :: ts)
      = .one [.optKeyword .mutKw, .expr (.operand fields), .shape .plain] := by
    show (if isNamed "raw" ts && isKeywordOf [.mutKw, .constKw] (ts.drop 1) then _ else _) = _
    rw [h, Bool.and_false]
    rfl
  exact leads_take (fun _ => hstep) rfl rfl

/-- Of a literal, whatever its kind, one token is passed. -/
theorem leads_literal (kind : LiteralKind) :
    Leads ⟨.expr (.operand fields) :: later, s, .literal kind :: ts⟩
      ⟨.expr .trailers :: later, .plain, ts⟩ :=
  leads_take (fun _ => rfl) rfl rfl

/-! ## Calls, indices and ranges -/

/-- A method of a name, up to its arguments. -/
theorem leads_method (x method : String) :
    Leads ⟨.expr (.operand fields) :: later, s,
        .word x :: .sign .dot false :: .word method :: .opening .paren :: ts⟩
      ⟨.expr (.list .paren) :: .expr .trailers :: later, .plain, ts⟩ :=
  (leads_name x rfl).trans (leads_of_advance 3 fun _ => ⟨_, rfl⟩)

/-- A call of a function, up to its arguments. -/
theorem leads_call (x : String) :
    Leads ⟨.expr (.operand fields) :: later, s, .word x :: .opening .paren :: ts⟩
      ⟨.expr (.list .paren) :: .expr .trailers :: later, .plain, ts⟩ :=
  (leads_name x rfl).trans (leads_take (fun _ => rfl) rfl rfl)

/-- An index is expected after an opening bracket. -/
theorem leads_index :
    Leads ⟨.expr .trailers :: later, s, .opening .square :: ts⟩
      ⟨.expr (.whole true) :: .closing .square :: .expr .trailers :: later, .plain, ts⟩ :=
  leads_take (fun _ => rfl) rfl rfl

/-- A list that is not empty begins with a whole expression. -/
theorem leads_list_whole {b : Bracket} (h : isClosing b ts = false) :
    Leads ⟨.expr (.list b) :: later, s, ts⟩
      ⟨.expr (.whole true) :: .separator b (.expr (.list b)) :: later, s, ts⟩ := by
  have hstep : ExprGoal.step (.list b) s ts
      = (startExpr true ts).andThen [.separator b (.expr (.list b))] := by
    rw [ExprGoal.step, h]
    rfl
  exact leads_andThen (g := .expr (.list b)) (fun _ => hstep)
    (fun _ => isLeave_startExpr true _) rfl

/-- An array that is not empty begins with a whole expression. -/
theorem leads_arrayFirst (h : isClosing .square ts = false) :
    Leads ⟨.expr .arrayFirst :: later, s, ts⟩
      ⟨.expr (.whole true) :: .expr .arrayEnd :: later, s, ts⟩ := by
  have hstep : ExprGoal.step .arrayFirst s ts
      = (startExpr true ts).andThen [.expr .arrayEnd] := by
    rw [ExprGoal.step, h]
    rfl
  exact leads_andThen (g := .expr .arrayFirst) (fun _ => hstep)
    (fun _ => isLeave_startExpr true _) rfl

/-- A reference to a name is passed where it is the only argument. -/
theorem leads_referenceArgument (x : String) :
    Leads ⟨.expr (.list .paren) :: later, s, .sign .amp false :: .word x :: .closing .paren :: ts⟩
      ⟨later, .plain, ts⟩ := by
  refine (leads_list_whole rfl).trans ?_
  refine leads_whole_operand.trans ?_
  refine (leads_reference rfl).trans ?_
  refine (leads_leave fun _ => rfl).trans ?_
  refine (leads_name x rfl).trans ?_
  exact leads_of_advance 4 fun _ => ⟨_, rfl⟩

/-- The dots of a range are passed, and its upper bound is expected. -/
theorem leads_dots (hs : s ≠ .range) :
    Leads ⟨.expr (.operators true Level.jump.rank) :: later, s,
        .sign .dot true :: .sign .dot false :: ts⟩
      ⟨.expr (.rangeEnd true) :: .shape .range :: .expr (.operators true Level.jump.rank) :: later,
        .plain, ts⟩ := by
  have hnone : operator? (.sign .dot true :: .sign .dot false :: ts) = none := rfl
  have hstep : startOperator true Level.jump.rank s (.sign .dot true :: .sign .dot false :: ts)
      = .take 1 [.expr (.rangeEnd true), .shape .range,
        .expr (.operators true Level.jump.rank)] := by
    rw [startOperator, if_neg hs, hnone]
    rfl
  exact leads_take (g := .expr (.operators true Level.jump.rank)) (fun _ => hstep) rfl rfl

/-- The upper bound of a range begins with an operand. -/
theorem leads_rangeEnd (h : endsOpenRange true ts = false) :
    Leads ⟨.expr (.rangeEnd true) :: later, s, ts⟩
      ⟨.expr (.operand true) :: .expr (.operators true Level.range.rightRank) :: later, s, ts⟩ := by
  have hstep : ExprGoal.step (.rangeEnd true) s ts
      = (startOperand true ts).andThen [.expr (.operators true Level.range.rightRank)] := by
    rw [ExprGoal.step, h]
    rfl
  exact leads_andThen (g := .expr (.rangeEnd true)) (fun _ => hstep)
    (fun _ => isLeave_startOperand true _) rfl

/-- The use of a macro is passed with all that is in its parentheses. -/
theorem leads_macroCall (x : String) {us : List Token} (h : Balanced us) :
    Leads ⟨.expr (.operand fields) :: later, s,
        .word x :: .sign .bang false :: .opening .paren :: (us ++ .closing .paren :: ts)⟩
      ⟨.expr .trailers :: later, .plain, ts⟩ := by
  have hopen : Leads ⟨.path (.arguments .expression { single := true }) :: .expr (.pathEnd fields)
      :: .expr .trailers :: later, .plain,
        .sign .bang false :: .opening .paren :: (us ++ .closing .paren :: ts)⟩
      ⟨.inside .paren :: .expr .trailers :: later, .plain, us ++ .closing .paren :: ts⟩ :=
    leads_of_advance 3 fun _ => ⟨_, rfl⟩
  have hclose : Leads ⟨.inside .paren :: .expr .trailers :: later, .plain, .closing .paren :: ts⟩
      ⟨.expr .trailers :: later, .plain, ts⟩ :=
    leads_take (fun _ => rfl) rfl rfl
  exact (leads_word x rfl).trans <| hopen.trans <| (leads_inside h .paren).trans hclose

end EnumNames.Code
