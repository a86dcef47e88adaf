import EnumNames.Proofs.Syntax.Path

/-!
# Emitted expressions are accepted

The grammar passes the tokens of a readable expression as one operand with the operators after it,
whatever goals come later. What may stand after an expression depends on how tightly it binds.

* `Expr.IsAccepted`: a run passes the tokens of an expression.
* `Expr.isAccepted`: this is so for every readable expression.
* `leads_whole`: a run passes an expression where a whole one is expected.
-/

namespace EnumNames.Code

open Target Stage

variable {fields : Bool} {rank : Nat} {s : Shape} {ts : List Token} {later : List Goal}

/-! ## Accepted expressions -/

/-- The tokens of an expression. -/
def Expr.tokens (e : Expr) : List Token :=
  e.lexemes.map Lexeme.token

/-- The shape that an expression leaves. -/
def Expr.shape : Expr → Shape
  | var _ | none => .path { single := true }
  | binary op _ _ => if op.level = .compare then .comparison else .plain
  | _ => .plain

/-- The tokens that may follow an expression: they do not go on with its last operand or type, and
their operator does not bind more tightly. -/
structure Follows (fields : Bool) (e : Expr) (ts : List Token) : Prop where
  endsOperand : endsOperand fields ts
  operatorBelow : operatorBelow (e.rank + 1) ts
  isLessAlone : e.endsInType → isLessAlone ts = false

/-- A run passes the tokens of an expression where an operand is expected, up to the operators that
follow it. -/
def Expr.IsAccepted (e : Expr) : Prop :=
  ∀ ⦃fields : Bool⦄ ⦃rank : Nat⦄ ⦃s : Shape⦄ ⦃ts : List Token⦄ ⦃later : List Goal⦄,
    rank ≤ e.rank → Follows fields e ts →
      Leads ⟨.expr (.operand fields) :: .expr (.operators fields rank) :: later, s, e.tokens ++ ts⟩
        ⟨.expr (.operators fields rank) :: later, e.shape, ts⟩

section Accepted

variable {e a b i low high : Expr} {x array text : String}

/-- What ends a whole expression may follow any expression. -/
theorem follows_of_endsWhole (h : endsWhole fields ts) (e : Expr) : Follows fields e ts := by
  simp only [endsWhole, Bool.and_eq_true, Bool.not_eq_true'] at h
  exact ⟨h.1.1, operatorBelow_mono (Nat.zero_le _) h.1.2, fun _ => h.2⟩

/-- A whole expression is passed. -/
theorem Expr.IsAccepted.leads_whole (h : e.IsAccepted) (hts : endsWhole fields ts) :
    Leads ⟨.expr (.whole fields) :: later, s, e.tokens ++ ts⟩ ⟨later, e.shape, ts⟩ := by
  have hbelow : operatorBelow Level.jump.rank ts := by
    simp only [endsWhole, Bool.and_eq_true] at hts
    exact hts.1.2
  exact leads_whole_operand.trans <| (h (Nat.zero_le _) (follows_of_endsWhole hts e)).trans
    (leads_operators hbelow)

/-- An expression that is a single operand. -/
theorem isAccepted_of_operand
    (h : ∀ {fields : Bool} {s : Shape} {ts : List Token} {later : List Goal}, endsOperand fields ts →
      Leads ⟨.expr (.operand fields) :: later, s, e.tokens ++ ts⟩ ⟨later, e.shape, ts⟩) :
    e.IsAccepted :=
  fun _ _ _ _ _ _ hts => h hts.endsOperand

theorem isAccepted_var (x : String) : (Expr.var x).IsAccepted :=
  isAccepted_of_operand fun hts => (leads_name x (endsName_of_endsOperand hts)).trans
    (leads_trailers hts)

theorem isAccepted_none : Expr.none.IsAccepted :=
  isAccepted_of_operand fun hts => (leads_name "None" (endsName_of_endsOperand hts)).trans
    (leads_trailers hts)

theorem isAccepted_literal (s : String) : (Expr.literal s).IsAccepted :=
  isAccepted_of_operand fun hts => (leads_literal _).trans (leads_trailers hts)

theorem isAccepted_typedInt (type : IntType) (n : Nat) : (Expr.typedInt type n).IsAccepted :=
  isAccepted_of_operand fun hts => (leads_literal _).trans (leads_trailers hts)

/-- An integer is accepted, with its sign as an operator. -/
theorem isAccepted_int (n : Int) : (Expr.int n).IsAccepted := by
  refine isAccepted_of_operand fun {fields s ts later} hts => ?_
  rw [Expr.tokens, Expr.lexemes, intLexemes]
  split
  · -- the sign is an operand of its own, with the number after it
    have hsign : Leads ⟨.expr (.operand fields) :: later, s,
        [Lexeme.sign .minus false, .number n.natAbs ""].map Lexeme.token ++ ts⟩
        ⟨.expr (.operand fields) :: .shape .plain :: later, .plain,
          (Lexeme.number n.natAbs "").token :: ts⟩ :=
      leads_take (fun _ => rfl) rfl rfl
    exact hsign.trans <| (leads_literal _).trans <| (leads_trailers hts).trans <|
      leads_leave fun _ => rfl
  · exact (leads_literal _).trans (leads_trailers hts)

theorem isAccepted_receiver : Expr.receiver.IsAccepted := by
  refine isAccepted_of_operand fun {fields s ts later} hts => ?_
  have hfield : Leads ⟨.expr (.operand fields) :: later, s, Expr.receiver.tokens ++ ts⟩
      ⟨.expr .trailers :: later, .plain, ts⟩ := by
    cases fields <;> exact leads_of_advance 5 fun _ => ⟨_, rfl⟩
  exact hfield.trans (leads_trailers hts)

/-- Whether an expression may begin with a token. -/
def opensExpr : Token → Bool
  | .word _ | .literal _ | .keyword .selfValue | .opening .paren | .sign .minus false
  | .sign .amp false => true
  | _ => false

theorem Expr.tokens_cast (e : Expr) (type : IntType) :
    (cast e type).tokens = e.tokens ++ [.keyword .asKw, .word type.name] :=
  List.map_append

theorem Expr.tokens_binary (op : BinOp) (a b : Expr) :
    (binary op a b).tokens = a.tokens ++ (op.lexemes.map Lexeme.token ++ b.tokens) := by
  rw [tokens, lexemes, List.append_assoc, List.map_append, List.map_append]
  rfl

/-- A readable expression begins with one of a few tokens. -/
theorem Expr.exists_tokens (h : e.IsReadable) :
    ∃ t rest, e.tokens = t :: rest ∧ opensExpr t := by
  induction e with
  | int n =>
    rw [tokens, lexemes, intLexemes]
    split
    · exact ⟨_, _, rfl, rfl⟩
    · exact ⟨_, _, rfl, rfl⟩
  | cast e type ih =>
    obtain ⟨t, rest, he, ht⟩ := ih h.1
    exact ⟨t, _, by rw [tokens_cast, he, List.cons_append], ht⟩
  | binary op a b iha =>
    obtain ⟨t, rest, ha, ht⟩ := iha h.1
    exact ⟨t, _, by rw [tokens_binary, ha, List.cons_append], ht⟩
  | path reference => exact absurd h (by simp [IsReadable])
  | _ => exact ⟨_, _, rfl, rfl⟩

theorem Expr.isClosing_tokens (h : e.IsReadable) (b : Bracket) (ts : List Token) :
    isClosing b (e.tokens ++ ts) = false := by
  obtain ⟨t, rest, htokens, ht⟩ := exists_tokens h
  rw [htokens]
  cases t with
  | closing _ => exact absurd ht (by simp [opensExpr])
  | _ => rfl

/-- A single argument in parentheses is passed. -/
theorem Expr.IsAccepted.leads_list (h : e.IsAccepted) (he : e.IsReadable) :
    Leads ⟨.expr (.list .paren) :: later, s, e.tokens ++ .closing .paren :: ts⟩
      ⟨later, .plain, ts⟩ :=
  (leads_list_whole (isClosing_tokens he .paren _)).trans <| (h.leads_whole rfl).trans <|
    leads_take (fun _ => rfl) rfl rfl

theorem isAccepted_length (array : String) : (Expr.length array).IsAccepted :=
  isAccepted_of_operand fun hts => (leads_method array "len").trans <|
    (leads_take (fun _ => rfl) rfl rfl).trans (leads_trailers hts)

theorem isAccepted_wrappingMul (x : String) (n : Nat) : (Expr.wrappingMul x n).IsAccepted := by
  refine isAccepted_of_operand fun {fields s ts later} hts => ?_
  have hn : Expr.IsReadable (.int n) := trivial
  have hargument : Leads ⟨.expr (.list .paren) :: .expr .trailers :: later, .plain,
      Expr.tokens (.int n) ++ .closing .paren :: ts⟩ ⟨.expr .trailers :: later, .plain, ts⟩ :=
    (isAccepted_int n).leads_list hn
  have htokens : Expr.tokens (.int n) = [(Lexeme.number n "").token] := rfl
  rw [htokens] at hargument
  exact (leads_method x "wrapping_mul").trans <| hargument.trans (leads_trailers hts)

theorem isAccepted_paren (he : e.IsReadable) (h : e.IsAccepted) : (Expr.paren e).IsAccepted := by
  refine isAccepted_of_operand fun {fields s ts later} hts => ?_
  have hopen : Leads ⟨.expr (.operand fields) :: later, s,
      .opening .paren :: (e.tokens ++ .closing .paren :: ts)⟩
      ⟨.expr (.list .paren) :: .expr .trailers :: later, .plain,
        e.tokens ++ .closing .paren :: ts⟩ :=
    leads_take (fun _ => rfl) rfl rfl
  have htokens : (Expr.paren e).tokens ++ ts
      = .opening .paren :: (e.tokens ++ .closing .paren :: ts) := by
    simp [Expr.tokens, Expr.lexemes, Lexeme.token]
  rw [htokens]
  exact hopen.trans <| (h.leads_list he).trans (leads_trailers hts)

theorem isAccepted_writeText (he : e.IsReadable) (h : e.IsAccepted) :
    (Expr.writeText e).IsAccepted := by
  refine isAccepted_of_operand fun {fields s ts later} hts => ?_
  have htokens : (Expr.writeText e).tokens ++ ts = .word "f" :: .sign .dot false
      :: .word "write_str" :: .opening .paren :: (e.tokens ++ .closing .paren :: ts) := by
    simp [Expr.tokens, Expr.lexemes, Lexeme.token]
  rw [htokens]
  exact (leads_method "f" "write_str").trans <| (h.leads_list he).trans (leads_trailers hts)

theorem isAccepted_element (h : i.IsAccepted) : (Expr.element array i).IsAccepted := by
  refine isAccepted_of_operand fun {fields s ts later} hts => ?_
  have hindex : Leads ⟨.expr (.whole true) :: .closing .square :: .expr .trailers :: later, .plain,
      i.tokens ++ .closing .square :: ts⟩
      ⟨.closing .square :: .expr .trailers :: later, i.shape, .closing .square :: ts⟩ :=
    h.leads_whole rfl
  have htokens : (Expr.element array i).tokens ++ ts
      = .word array :: .opening .square :: (i.tokens ++ .closing .square :: ts) := by
    simp [Expr.tokens, Expr.lexemes, Lexeme.token]
  rw [htokens]
  exact (leads_name array rfl).trans <| leads_index.trans <| hindex.trans <|
    (leads_take (fun _ => rfl) rfl rfl).trans (leads_trailers hts)

/-! ### Operators -/

theorem Expr.shape_ne_range (e : Expr) : e.shape ≠ .range := by
  cases e with
  | binary op a b =>
    show (if op.level = .compare then Shape.comparison else .plain) ≠ .range
    split <;> simp
  | _ => simp [shape]

theorem Expr.rank_of_shape (h : e.shape = .comparison) : e.rank = Level.compare.rank := by
  cases e with
  | binary op a b =>
    by_cases hlevel : op.level = .compare
    · rw [rank, hlevel]
    · rw [shape, if_neg hlevel] at h
      contradiction
  | _ => exact absurd h (by simp [shape])

/-- The grammar finds the operator with its level. -/
theorem operator?_tokens (op : BinOp) (ts : List Token) :
    operator? (op.lexemes.map Lexeme.token ++ ts) = some (op.lexemes.length - 1, op.level) := by
  cases op <;> rfl

theorem BinOp.rightRank_eq (op : BinOp) : op.level.rightRank = op.level.rank + 1 := by
  cases op <;> rfl

theorem operatorBelow_tokens {op : BinOp} (h : op.level.rank < rank) (ts : List Token) :
    operatorBelow rank (op.lexemes.map Lexeme.token ++ ts) := by
  have hassign : Level.assign.rank < op.level.rank := by cases op <;> decide
  have hcast : isKeyword .asKw (op.lexemes.map Lexeme.token ++ ts) = false := by cases op <;> rfl
  have hdots : begins [.dot, .dot] (op.lexemes.map Lexeme.token ++ ts) = false := by
    cases op <;> rfl
  have hlt : Level.assign.rank < rank := by omega
  simp [operatorBelow, operator?_tokens, hcast, hdots, h, hlt]

/-- An operator is passed, and its right operand is expected. -/
theorem leads_operator (op : BinOp) (hs : s ≠ .range)
    (hcompare : op.level = .compare → s ≠ .comparison) (hle : rank ≤ op.level.rank) :
    Leads ⟨.expr (.operators fields rank) :: later, s, op.lexemes.map Lexeme.token ++ ts⟩
      ⟨.expr (.operand fields) :: .expr (.operators fields op.level.rightRank)
        :: .shape (if op.level = .compare then .comparison else .plain)
        :: .expr (.operators fields rank) :: later, .plain, ts⟩ := by
  have hstep : ∀ afterBrace, Goal.step (.expr (.operators fields rank)) s afterBrace
      (op.lexemes.map Lexeme.token ++ ts) = .take (op.lexemes.length - 1)
        [.expr (.operand fields), .expr (.operators fields op.level.rightRank),
          .shape (if op.level = .compare then .comparison else .plain),
          .expr (.operators fields rank)] := by
    intro _
    show startOperator fields rank s (op.lexemes.map Lexeme.token ++ ts) = _
    rw [startOperator, if_neg hs, operator?_tokens]
    show (if op.level.rank < rank then _ else _) = _
    rw [if_neg (Nat.not_lt.2 hle)]
    split
    · next hlevel => rw [if_neg (hcompare hlevel)]
    · rfl
  cases op <;> exact leads_take hstep rfl rfl

/-- Two operands are accepted if they bind tightly enough. -/
theorem isAccepted_binary {op : BinOp} (hleft : op.leftRank ≤ a.rank)
    (hright : op.level.rightRank ≤ b.rank) (hless : op = .less → a.endsInType = false)
    (ha : a.IsAccepted) (hb : b.IsAccepted) : (Expr.binary op a b).IsAccepted := by
  intro fields rank s ts later hle hts
  have hlevel := op.rank_le_leftRank
  have hrightRank := op.rightRank_eq
  have hlea : Follows fields a (op.lexemes.map Lexeme.token ++ (b.tokens ++ ts)) := by
    refine ⟨by cases op <;> rfl, operatorBelow_tokens (by omega) _, fun hends => ?_⟩
    cases op with
    | less => rw [hless rfl] at hends; contradiction
    | _ => rfl
  have hbelow : operatorBelow (op.level.rank + 1) ts := hts.operatorBelow
  have hleb : Follows fields b ts :=
    ⟨hts.endsOperand, operatorBelow_mono (by omega) hbelow, hts.isLessAlone⟩
  have hcompare : op.level = .compare → a.shape ≠ .comparison := by
    intro hlevel hshape
    have hrank := Expr.rank_of_shape hshape
    rw [BinOp.leftRank, if_pos hlevel, hlevel, hrank] at hleft
    omega
  have hrank : rank ≤ op.level.rank := hle
  rw [Expr.tokens_binary, List.append_assoc, List.append_assoc]
  refine (ha (Nat.le_trans hrank (Nat.le_trans hlevel hleft)) hlea).trans ?_
  refine (leads_operator op a.shape_ne_range hcompare hrank).trans ?_
  refine (hb hright hleb).trans ?_
  refine (leads_operators (by rw [hrightRank]; exact hbelow)).trans ?_
  exact leads_leave fun _ => rfl

/-- A conversion is accepted behind what binds tightly enough. -/
theorem isAccepted_cast (type : IntType) (hrank : Level.cast.rank ≤ e.rank) (h : e.IsAccepted) :
    (Expr.cast e type).IsAccepted := by
  intro fields rank s ts later hle hts
  have hle : rank ≤ Level.cast.rank := hle
  have hlee : Follows fields e (.keyword .asKw :: .word type.name :: ts) := by
    refine ⟨rfl, ?_, fun _ => rfl⟩
    have hnone : operator? (.keyword .asKw :: .word type.name :: ts) = none := rfl
    have hlt : Level.cast.rank < e.rank + 1 := by omega
    simp [operatorBelow, hnone, begins, hlt]
  have hstep : ∀ afterBrace, Goal.step (.expr (.operators fields rank)) e.shape afterBrace
      (.keyword .asKw :: .word type.name :: ts)
        = .take 0 [.type (.whole .cast), .expr .castEnd, .expr (.operators fields rank)] := by
    intro _
    have hnone : operator? (.keyword .asKw :: .word type.name :: ts) = none := rfl
    show startOperator fields rank e.shape (.keyword .asKw :: .word type.name :: ts) = _
    rw [startOperator, if_neg e.shape_ne_range, hnone]
    show (if true && decide (rank ≤ Level.cast.rank) then _ else _) = _
    rw [decide_eq_true hle]
    rfl
  obtain ⟨hbrace, hcolon, hbang, -⟩ := endsName_iff.1 (endsName_of_endsOperand hts.endsOperand)
  have hless : isLessAlone ts = false := hts.isLessAlone rfl
  -- the type is a single name, and nothing goes on with it
  have hname : Leads
      ⟨.type (.whole .cast) :: .expr .castEnd :: .expr (.operators fields rank) :: later, .plain,
        .word type.name :: ts⟩
      ⟨.path (.arguments .type { single := true }) :: .type (.pathEnd .cast false)
        :: .expr .castEnd :: .expr (.operators fields rank) :: later, .plain, ts⟩ :=
    leads_take (fun _ => rfl) rfl rfl
  have harguments : ∀ afterBrace, Goal.step (.path (.arguments .type { single := true })) .plain
      afterBrace ts = .leave (.path { single := true }) := by
    intro _
    show PathShape.arguments { single := true } .type ts = _
    simp [PathShape.arguments, PathShape.more, isPathLess, hcolon, hless]
  have hpath : ∀ afterBrace, Goal.step (.type (.pathEnd .cast false)) (.path { single := true })
      afterBrace ts = .leave (.path { single := true }) := by
    intro _
    show endPathType .cast false { single := true } ts = _
    simp [endPathType, hbang]
  have hend : ∀ afterBrace, Goal.step (.expr .castEnd) (.path { single := true }) afterBrace ts
      = .leave .plain := by
    intro _
    have hts := hts.endsOperand
    simp only [endsOperand, Bool.and_eq_true, Bool.not_eq_true'] at hts
    show ExprGoal.step .castEnd (.path { single := true }) ts = _
    simp [ExprGoal.step, hts]
  rw [Expr.tokens_cast, List.append_assoc]
  refine (h (Nat.le_trans hle hrank) hlee).trans ?_
  refine (leads_take hstep rfl rfl).trans ?_
  exact hname.trans <| (leads_leave harguments).trans <| (leads_leave hpath).trans (leads_leave hend)

/-! ### Ranges -/

theorem Expr.endsOpenRange_tokens (h : e.IsReadable) (ts : List Token) :
    endsOpenRange true (e.tokens ++ ts) = false := by
  obtain ⟨t, rest, htokens, ht⟩ := exists_tokens h
  rw [htokens]
  cases t with
  | word _ => rfl
  | literal _ => rfl
  | keyword k => cases k <;> first | rfl | exact absurd ht (by simp [opensExpr])
  | opening b => cases b <;> rfl
  | sign s joined =>
    cases joined with
    | false => cases s <;> first | rfl | exact absurd ht (by simp [opensExpr])
    | true => exact absurd ht (by simp [opensExpr])
  | _ => exact absurd ht (by simp [opensExpr])

/-- The bounds of a slice are passed, up to the closing bracket. -/
theorem leads_bounds (hlow : low.IsAccepted) (hhigh : high.IsAccepted) (hreadable : high.IsReadable) :
    Leads ⟨.expr (.whole true) :: later, s,
        low.tokens ++ .sign .dot true :: .sign .dot false :: (high.tokens ++ .closing .square :: ts)⟩
      ⟨later, .range, .closing .square :: ts⟩ := by
  have hdots : ∀ us, Follows true low (.sign .dot true :: .sign .dot false :: us) := by
    intro us
    have hnone : operator? (.sign .dot true :: .sign .dot false :: us) = none := rfl
    have hlt : Level.range.rank < low.rank + 1 :=
      Nat.lt_of_lt_of_le (by decide) (Nat.le_succ_of_le low.or_rank_le)
    exact ⟨rfl, by simp [operatorBelow, hnone, begins, isKeyword, hlt], fun _ => rfl⟩
  refine leads_whole_operand.trans ?_
  refine (hlow (Nat.zero_le _) (hdots _)).trans ?_
  refine (leads_dots low.shape_ne_range).trans ?_
  refine (leads_rangeEnd (Expr.endsOpenRange_tokens hreadable _)).trans ?_
  refine (hhigh high.or_rank_le (follows_of_endsWhole rfl high)).trans ?_
  refine (leads_operators rfl).trans ?_
  exact leads_of_advance 2 fun _ => ⟨_, rfl⟩

/-- A slice is accepted, with a range in its brackets. -/
theorem isAccepted_slice (hlow : low.IsAccepted) (hhigh : high.IsAccepted)
    (hreadable : high.IsReadable) : (Expr.slice text low high).IsAccepted := by
  refine isAccepted_of_operand fun {fields s ts later} hts => ?_
  have htokens : (Expr.slice text low high).tokens ++ ts = .sign .amp false :: .word text
      :: .opening .square :: (low.tokens ++ .sign .dot true :: .sign .dot false
        :: (high.tokens ++ .closing .square :: ts)) := by
    simp [Expr.tokens, Expr.lexemes, Lexeme.token]
  rw [htokens]
  refine (leads_reference rfl).trans ?_
  refine (leads_leave fun _ => rfl).trans ?_
  refine (leads_name text rfl).trans ?_
  refine leads_index.trans ?_
  refine (leads_bounds hlow hhigh hreadable).trans ?_
  refine (leads_take (fun _ => rfl) rfl rfl).trans ?_
  exact (leads_trailers hts).trans (leads_leave fun _ => rfl)

/-- A closed range of numbers in parentheses is passed. -/
theorem leads_closedRange (low high : Int) (joined : Bool) :
    Leads ⟨.expr (.list .paren) :: later, s, Expr.tokens (.int low) ++ .sign .dot true
        :: .sign .dot true :: .sign .eq joined :: (Expr.tokens (.int high) ++ .closing .paren :: ts)⟩
      ⟨later, .plain, ts⟩ := by
  have hlow : Expr.IsReadable (.int low) := trivial
  have hdots : ∀ us, Follows true (.int low)
      (.sign .dot true :: .sign .dot true :: .sign .eq joined :: us) :=
    fun us => ⟨rfl, rfl, fun _ => rfl⟩
  refine (leads_list_whole (Expr.isClosing_tokens hlow .paren _)).trans ?_
  refine leads_whole_operand.trans ?_
  refine (isAccepted_int low (Nat.zero_le _) (hdots _)).trans ?_
  refine (leads_take (fun _ => rfl) rfl rfl).trans ?_
  refine (isAccepted_int high (Expr.or_rank_le _) (follows_of_endsWhole rfl _)).trans ?_
  refine (leads_operators rfl).trans ?_
  exact leads_of_advance 3 fun _ => ⟨_, rfl⟩

/-- A test for a range is accepted as a call of a method. -/
theorem isAccepted_within (low high : Int) (x : String) : (Expr.within low high x).IsAccepted := by
  refine isAccepted_of_operand fun {fields s ts later} hts => ?_
  have htokens : (Expr.within low high x).tokens ++ ts = .opening .paren
      :: (Expr.tokens (.int low) ++ .sign .dot true :: .sign .dot true
        :: .sign .eq (decide (high < 0)) :: (Expr.tokens (.int high) ++ .closing .paren
          :: .sign .dot false :: .word "contains" :: .opening .paren :: .sign .amp false
          :: .word x :: .closing .paren :: ts)) := by
    simp [Expr.tokens, Expr.lexemes, Lexeme.token]
  have hmethod : Leads ⟨.expr .trailers :: later, .plain, .sign .dot false :: .word "contains"
      :: .opening .paren :: .sign .amp false :: .word x :: .closing .paren :: ts⟩
      ⟨.expr (.list .paren) :: .expr .trailers :: later, .plain,
        .sign .amp false :: .word x :: .closing .paren :: ts⟩ :=
    leads_of_advance 3 fun _ => ⟨_, rfl⟩
  rw [htokens]
  refine (leads_take (fun _ => rfl) rfl rfl).trans ?_
  refine (leads_closedRange low high _).trans ?_
  exact hmethod.trans <| (leads_referenceArgument x).trans (leads_trailers hts)

/-! ### Calls -/

theorem Expr.tokens_someOf (e : Expr) (ts : List Token) : (someOf e).tokens ++ ts
    = .word "Some" :: .opening .paren :: (e.tokens ++ .closing .paren :: ts) := by
  simp [tokens, lexemes, Lexeme.token]

theorem isAccepted_someOf (he : e.IsReadable) (h : e.IsAccepted) : (Expr.someOf e).IsAccepted := by
  refine isAccepted_of_operand fun {fields s ts later} hts => ?_
  rw [Expr.tokens_someOf]
  exact (leads_call "Some").trans <| (h.leads_list he).trans (leads_trailers hts)

/-- A constant is accepted as the argument of a call. -/
theorem isAccepted_someOf_path {reference : String} (h : isPath reference) :
    (Expr.someOf (.path reference)).IsAccepted := by
  refine isAccepted_of_operand fun {fields s ts later} hts => ?_
  have hends : endsWhole true (.closing .paren :: ts) := rfl
  obtain ⟨p, hpath⟩ := leads_path_whole h hends
  rw [Expr.tokens_someOf]
  refine (leads_call "Some").trans ?_
  refine (leads_list_whole (isClosing_path h .paren _)).trans ?_
  refine hpath.trans ?_
  exact (leads_take (fun _ => rfl) rfl rfl).trans (leads_trailers hts)

/-! ### The macro -/

theorem balanced_of_flat (ls : List Lexeme) (h : ls.all fun l => l.token.isFlat) :
    Balanced (ls.map Lexeme.token) :=
  balanced_of_isFlat fun t ht => by
    obtain ⟨l, hl, rfl⟩ := List.mem_map.1 ht
    exact List.all_eq_true.1 h l hl

/-- An expression closes all brackets that it opens. -/
theorem Expr.balanced (e : Expr) : Balanced e.tokens := by
  -- brackets stand around operands only, and tokens between them neither open nor close
  have hflat : ∀ ls : List Lexeme, (ls.all fun l => l.token.isFlat) →
      Balanced (ls.map Lexeme.token) := balanced_of_flat
  induction e with
  | receiver | var | typedInt | literal | none => exact hflat _ rfl
  | int n =>
    rw [tokens, lexemes, intLexemes]
    split <;> exact hflat _ rfl
  | path reference => exact balanced_path reference
  | cast e type ih =>
    rw [tokens_cast]
    exact ih.append (.cons rfl (.cons rfl .nil))
  | binary op a b iha ihb =>
    rw [tokens_binary]
    exact iha.append ((hflat _ (by cases op <;> rfl)).append ihb)
  | within low high x =>
    have hint : ∀ n, Balanced ((intLexemes n).map Lexeme.token) := by
      intro n
      rw [intLexemes]
      split <;> exact hflat _ rfl
    have hrange := (hint low).append ((hflat [.sign .dot true, .sign .dot true,
      .sign .eq (decide (high < 0))] rfl).append (hint high))
    have hcall := (hflat [.sign .dot false, .word "contains"] rfl).enclose .paren
      (hflat [.sign .amp false, .word x] rfl)
    have hall := (Balanced.nil.enclose .paren hrange).append hcall
    simpa [tokens, lexemes, Lexeme.token] using hall
  | length array =>
    exact (hflat [.word array, .sign .dot false, .word "len"] rfl).enclose .paren .nil
  | element array i ih =>
    simpa [tokens, lexemes, Lexeme.token] using (hflat [.word array] rfl).enclose .square ih
  | slice text low high ihlow ihhigh =>
    have hrange := ihlow.append
      ((hflat [.sign .dot true, .sign .dot false] rfl).append ihhigh)
    have hall := (hflat [.sign .amp false, .word text] rfl).enclose .square hrange
    simpa [tokens, lexemes, Lexeme.token] using hall
  | wrappingMul x n =>
    exact (hflat [.word x, .sign .dot false, .word "wrapping_mul"] rfl).enclose .paren
      (hflat [.number n ""] rfl)
  | paren e ih =>
    simpa [tokens, lexemes, Lexeme.token] using Balanced.nil.enclose .paren ih
  | someOf e ih =>
    simpa [tokens, lexemes, Lexeme.token] using (hflat [.word "Some"] rfl).enclose .paren ih
  | writeText e ih =>
    have hall := (hflat [.word "f", .sign .dot false, .word "write_str"] rfl).enclose .paren ih
    simpa [tokens, lexemes, Lexeme.token] using hall
  | writeNumber template e ih =>
    have hbefore := hflat [.word "f", .sign .comma false, .text template, .sign .comma false] rfl
    have hall := (hflat [.word "write", .sign .bang false] rfl).enclose .paren
      (hbefore.append ih)
    simpa [tokens, lexemes, Lexeme.token] using hall

/-- A macro is accepted, since only its brackets count. -/
theorem isAccepted_writeNumber (template : String) (e : Expr) :
    (Expr.writeNumber template e).IsAccepted := by
  refine isAccepted_of_operand fun {fields s ts later} hts => ?_
  have hinner : Balanced ([.word "f", .sign .comma false, .literal .text, .sign .comma false]
      ++ e.tokens) := (balanced_of_isFlat (by simp [Token.isFlat])).append e.balanced
  have htokens : (Expr.writeNumber template e).tokens ++ ts = .word "write" :: .sign .bang false
      :: .opening .paren :: ([.word "f", .sign .comma false, .literal .text, .sign .comma false]
        ++ e.tokens ++ .closing .paren :: ts) := by
    simp [Expr.tokens, Expr.lexemes, Lexeme.token]
  rw [htokens]
  exact (leads_macroCall "write" hinner).trans (leads_trailers hts)

/-! ### All expressions -/

/-- Every readable expression is accepted. -/
theorem Expr.isAccepted {e : Expr} (h : e.IsReadable) : e.IsAccepted := by
  induction e with
  | receiver => exact isAccepted_receiver
  | var x => exact isAccepted_var x
  | int n => exact isAccepted_int n
  | typedInt type n => exact isAccepted_typedInt type n
  | literal s => exact isAccepted_literal s
  | cast e type ih => exact isAccepted_cast type h.2 (ih h.1)
  | binary op a b iha ihb =>
    obtain ⟨ha, hb, hleft, hright, hless⟩ := h
    exact isAccepted_binary hleft hright hless (iha ha) (ihb hb)
  | within low high x => exact isAccepted_within low high x
  | length array => exact isAccepted_length array
  | element array i ih => exact isAccepted_element (ih h.2)
  | slice text low high ihlow ihhigh =>
    obtain ⟨-, hlow, hhigh, -⟩ := h
    exact isAccepted_slice (ihlow hlow) (ihhigh hhigh) hhigh
  | wrappingMul x n => exact isAccepted_wrappingMul x n
  | paren e ih => exact isAccepted_paren h.1 (ih h.1)
  | path reference => exact absurd h (by simp [IsReadable])
  | someOf e ih =>
    cases e with
    | path reference => exact isAccepted_someOf_path h
    | element array i =>
      have hi : (Expr.element array i).IsReadable := h
      exact isAccepted_someOf hi (ih hi)
    | _ => exact absurd h (by simp [IsReadable])
  | none => exact isAccepted_none
  | writeText e ih => exact isAccepted_writeText h (ih h)
  | writeNumber template e => exact isAccepted_writeNumber template e

end Accepted

end EnumNames.Code
