import EnumNames.Proofs.Code.Item
import EnumNames.Proofs.Syntax.Body

/-!
# Emitted items are accepted

The tokens of readable items make up a source file: a run passes one item after another and comes
back to the items that are left of the file.

* `Item.isAccepted`: a run passes a readable item.
* `accepts_items`: readable items are a source file.
-/

namespace EnumNames.Code

open Target Stage

variable {s : Shape} {ts : List Token} {later : List Goal}

/-! ## Accepted items -/

/-- The tokens of an item. -/
def Item.tokens (item : Item) : List Token :=
  item.lexemes.map Lexeme.token

/-- A run passes the tokens of an item and comes back to the items of the file. -/
def Item.IsAccepted (item : Item) : Prop :=
  ∀ ⦃s : Shape⦄ ⦃ts : List Token⦄ ⦃later : List Goal⦄,
    Leads ⟨.item .file :: later, s, item.tokens ++ ts⟩ ⟨.item .file :: later, .plain, ts⟩

theorem Item.IsAccepted.leads {item : Item} (h : item.IsAccepted) :
    Leads ⟨.item .file :: later, s, item.tokens ++ ts⟩ ⟨.item .file :: later, .plain, ts⟩ :=
  @h s ts later

section Items

variable {name typeName : String}

/-- An attribute that only silences the compiler is passed before an item. -/
theorem leads_allowance (lint : String) :
    Leads ⟨.item .file :: later, s, (allowance lint).map Lexeme.token ++ ts⟩
      ⟨.item .single :: .item .file :: later, .plain, ts⟩ :=
  leads_of_advance 8 fun _ => ⟨_, rfl⟩

theorem isAccepted_blank : Item.blank.IsAccepted :=
  fun _ _ _ => leads_of_step fun _ => rfl

theorem isAccepted_blob (name text : String) : (Item.blob name text).IsAccepted := by
  intro s ts later
  have htokens : (Item.blob name text).tokens ++ ts
      = (allowance "non_upper_case_globals").map Lexeme.token ++ .keyword .constKw :: .word name
        :: .sign .colon false :: .sign .amp false :: .word "str" :: .sign .eq false
        :: .literal .text :: .sign .semi false :: ts := by
    simp [Item.tokens, Item.lexemes, Lexeme.token]
  have hconst : Leads ⟨.item .single :: .item .file :: later, .plain, .keyword .constKw
      :: .word name :: .sign .colon false :: .sign .amp false :: .word "str" :: .sign .eq false
      :: .literal .text :: .sign .semi false :: ts⟩ ⟨.item .file :: later, .plain, ts⟩ :=
    leads_of_advance 18 fun _ => ⟨_, rfl⟩
  rw [htokens]
  exact (leads_allowance _).trans hconst

/-! ### Arrays -/

/-- The declaration of an array is passed up to its elements. -/
theorem leads_arrayHead (name typeName : String) (length : Nat) :
    Leads ⟨.item .single :: later, s, (arrayHead name typeName length).map Lexeme.token ++ ts⟩
      ⟨.expr .arrayFirst :: .expr .trailers :: .expr (.operators true Level.jump.rank)
        :: .semicolon :: later, .plain, ts⟩ :=
  leads_of_advance 16 fun _ => ⟨_, rfl⟩

/-- The end of a declaration after its elements is passed. -/
theorem leads_arrayTail :
    Leads ⟨.expr .trailers :: .expr (.operators true Level.jump.rank) :: .semicolon :: later,
        .plain, .sign .semi false :: ts⟩ ⟨later, .plain, ts⟩ :=
  leads_of_advance 3 fun _ => ⟨_, rfl⟩

/-- Numbers after the first one are passed, with the bracket that closes them. -/
theorem leads_moreValues (values : List Nat) :
    Leads ⟨.separator .square (.expr (.list .square)) :: later, s,
        (values.flatMap fun n => [Lexeme.sign .comma false, .number n ""]).map Lexeme.token
          ++ .closing .square :: ts⟩ ⟨later, .plain, ts⟩ := by
  induction values generalizing s with
  | nil => exact leads_take (fun _ => rfl) rfl rfl
  | cons n values ih =>
    have hvalue : ∀ us, endsWhole true us →
        Leads ⟨.separator .square (.expr (.list .square)) :: later, s,
          .sign .comma false :: (Lexeme.number n "").token :: us⟩
          ⟨.separator .square (.expr (.list .square)) :: later, .plain, us⟩ := by
      intro us hus
      have hint : Expr.IsAccepted (.int n) := isAccepted_int n
      refine (leads_take (fun _ => rfl) rfl rfl).trans ?_
      refine (leads_list_whole rfl).trans ?_
      exact hint.leads_whole hus
    rw [List.flatMap_cons, List.map_append, List.append_assoc]
    refine (hvalue _ ?_).trans ih
    cases values with
    | nil => rfl
    | cons m values => rfl

/-- After the first element of an array that is not repeated, the others follow. -/
theorem leads_arrayEnd (h : begins [.semi] ts = false) :
    Leads ⟨.expr .arrayEnd :: later, s, ts⟩
      ⟨.separator .square (.expr (.list .square)) :: later, .plain, ts⟩ := by
  refine leads_of_step fun _ => ?_
  show ExprGoal.step .arrayEnd s ts = .separator .square (.expr (.list .square)) ts
  rw [ExprGoal.step, h]
  rfl

/-- Numbers are passed as the elements of an array, with the bracket that closes them. -/
theorem leads_values {values : List Nat} (h : values ≠ []) :
    Leads ⟨.expr .arrayFirst :: later, s,
        (valuesLexemes values).map Lexeme.token ++ .closing .square :: ts⟩ ⟨later, .plain, ts⟩ := by
  obtain _ | ⟨n, values⟩ := values
  · exact absurd rfl h
  have hint : Expr.IsAccepted (.int n) := isAccepted_int n
  have hnext : endsWhole true ((values.flatMap fun n => [Lexeme.sign .comma false, .number n ""]).map
        Lexeme.token ++ .closing .square :: ts)
      ∧ begins [.semi] ((values.flatMap fun n => [Lexeme.sign .comma false, .number n ""]).map
        Lexeme.token ++ .closing .square :: ts) = false := by
    cases values with
    | nil => exact ⟨rfl, rfl⟩
    | cons m values => exact ⟨rfl, rfl⟩
  refine (leads_arrayFirst rfl).trans ?_
  refine (hint.leads_whole hnext.1).trans ?_
  exact (leads_arrayEnd hnext.2).trans (leads_moreValues values)

theorem isAccepted_offsets (width : IndexWidth) {values : List Nat} (h : values ≠ []) :
    (Item.offsets name width values).IsAccepted := by
  intro s ts later
  have htokens : (Item.offsets name width values).tokens ++ ts
      = (allowance "non_upper_case_globals").map Lexeme.token
        ++ ((arrayHead name width.name values.length).map Lexeme.token
          ++ ((valuesLexemes values).map Lexeme.token
            ++ .closing .square :: .sign .semi false :: ts)) := by
    simp [Item.tokens, Item.lexemes, Lexeme.token]
  rw [htokens]
  refine (leads_allowance _).trans ?_
  refine (leads_arrayHead _ _ _).trans ?_
  exact (leads_values h).trans leads_arrayTail

/-- The tokens of the elements of an array of constants. -/
def referenceTokens (references : List String) : List Token :=
  (references.flatMap referenceLexemes).map Lexeme.token

theorem referenceTokens_cons (reference : String) (references : List String) (ts : List Token) :
    referenceTokens (reference :: references) ++ ts = (pathLexemes reference).map Lexeme.token
      ++ .sign .comma false :: (referenceTokens references ++ ts) := by
  simp [referenceTokens, referenceLexemes, Lexeme.token]

/-- Paths after the first one are passed, with the bracket that closes them. -/
theorem leads_moreReferences {references : List String}
    (h : ∀ reference ∈ references, isPath reference) :
    Leads ⟨.expr (.list .square) :: later, s,
        referenceTokens references ++ .closing .square :: ts⟩ ⟨later, .plain, ts⟩ := by
  induction references generalizing s with
  | nil => exact leads_take (fun _ => rfl) rfl rfl
  | cons reference references ih =>
    have hpath := h reference List.mem_cons_self
    have hends : endsWhole true
        (.sign .comma false :: (referenceTokens references ++ .closing .square :: ts)) := rfl
    obtain ⟨p, hwhole⟩ := leads_path_whole hpath hends
    rw [referenceTokens_cons]
    refine (leads_list_whole (isClosing_path hpath .square _)).trans ?_
    refine hwhole.trans ?_
    refine (leads_take (fun _ => rfl) rfl rfl).trans ?_
    exact ih fun reference hmem => h reference (List.mem_cons_of_mem _ hmem)

/-- The elements of an array are passed one by one. -/
theorem leads_references {references : List String}
    (h : ∀ reference ∈ references, isPath reference) :
    Leads ⟨.expr .arrayFirst :: later, s, referenceTokens references ++ .closing .square :: ts⟩
      ⟨later, .plain, ts⟩ := by
  cases references with
  | nil => exact leads_take (fun _ => rfl) rfl rfl
  | cons reference references =>
    have hpath := h reference List.mem_cons_self
    have hends : endsWhole true
        (.sign .comma false :: (referenceTokens references ++ .closing .square :: ts)) := rfl
    obtain ⟨p, hwhole⟩ := leads_path_whole hpath hends
    rw [referenceTokens_cons]
    refine (leads_arrayFirst (isClosing_path hpath .square _)).trans ?_
    refine hwhole.trans ?_
    refine (leads_take (fun _ => rfl) rfl rfl).trans ?_
    exact leads_moreReferences fun reference hmem => h reference (List.mem_cons_of_mem _ hmem)

/-- An array of constants is accepted if they are paths. -/
theorem isAccepted_constants {references : List String}
    (h : ∀ reference ∈ references, isPath reference) :
    (Item.constants name typeName references).IsAccepted := by
  intro s ts later
  have htokens : (Item.constants name typeName references).tokens ++ ts
      = (allowance "non_upper_case_globals").map Lexeme.token
        ++ ((arrayHead name typeName references.length).map Lexeme.token
          ++ (referenceTokens references ++ .closing .square :: .sign .semi false :: ts)) := by
    simp [Item.tokens, Item.lexemes, referenceTokens, Lexeme.token]
  rw [htokens]
  refine (leads_allowance _).trans ?_
  refine (leads_arrayHead _ _ _).trans ?_
  exact (leads_references h).trans leads_arrayTail

/-! ### The guard -/

theorem balanced_int (n : Int) : Balanced ((intLexemes n).map Lexeme.token) :=
  Expr.balanced (.int n)

/-- An assertion is passed as a statement. -/
theorem leads_assertion {a : Assertion} (h : a.IsReadable) :
    Leads ⟨.statement .list :: later, s, a.lexemes.map Lexeme.token ++ ts⟩
      ⟨.statement .list :: later, .plain, ts⟩ := by
  obtain ⟨-, n, hn⟩ := h
  have hoperand : (lexemes? a.operand.text.toList).getD [] = intLexemes n := by
    rw [hn, GuardOperand.text, lexemes?_int]
    rfl
  have hinner : Balanced ((pathLexemes a.reference).map Lexeme.token
      ++ (([.sign .dot false, .number 0 "", .sign .minus false] : List Lexeme).map Lexeme.token
        ++ ((intLexemes n).map Lexeme.token
          ++ ([.sign .eq true, .sign .eq false, .number 0 ""] : List Lexeme).map Lexeme.token))) :=
    (balanced_path a.reference).append <| (balanced_of_flat _ rfl).append <|
      (balanced_int n).append (balanced_of_flat _ rfl)
  have htokens : a.lexemes.map Lexeme.token ++ ts = .word "assert" :: .sign .bang false
      :: .opening .paren :: ((pathLexemes a.reference).map Lexeme.token
        ++ (([.sign .dot false, .number 0 "", .sign .minus false] : List Lexeme).map Lexeme.token
          ++ ((intLexemes n).map Lexeme.token
            ++ ([.sign .eq true, .sign .eq false, .number 0 ""] : List Lexeme).map Lexeme.token))
        ++ .closing .paren :: .sign .semi false :: ts) := by
    rw [Assertion.lexemes, hoperand]
    simp [Lexeme.token]
  have hstart : ∀ us, startStatements (.word "assert" :: .sign .bang false :: .opening .paren :: us)
      = (startBareOperand true (.word "assert" :: .sign .bang false :: .opening .paren :: us)).andThen
        expressionRest :=
    fun _ => rfl
  rw [htokens]
  refine (leads_expressionStatement (hstart _) rfl).trans ?_
  refine (leads_macroCall "assert" hinner).trans ?_
  refine (leads_trailers (rfl : endsOperand true _)).trans ?_
  exact (leads_operators rfl).trans <| leads_take (fun _ => rfl) rfl rfl

/-- Assertions are passed one by one, each as a macro. -/
theorem leads_assertions {assertions : List Assertion} (h : ∀ a ∈ assertions, a.IsReadable) :
    Leads ⟨.statement .list :: later, s,
        (assertions.flatMap Assertion.lexemes).map Lexeme.token ++ .closing .brace :: ts⟩
      ⟨later, .plain, ts⟩ := by
  induction assertions generalizing s with
  | nil => exact leads_take (fun _ => rfl) rfl rfl
  | cons a assertions ih =>
    rw [List.flatMap_cons, List.map_append, List.append_assoc]
    exact (leads_assertion (h a List.mem_cons_self)).trans <|
      ih fun b hb => h b (List.mem_cons_of_mem _ hb)

/-- A guard is accepted if its constants are paths. -/
theorem isAccepted_guard {assertions : List Assertion} (h : ∀ a ∈ assertions, a.IsReadable) :
    (Item.guard assertions).IsAccepted := by
  intro s ts later
  have htokens : (Item.guard assertions).tokens ++ ts = guardHead.map Lexeme.token
      ++ ((assertions.flatMap Assertion.lexemes).map Lexeme.token ++ .closing .brace
        :: .sign .semi false :: ts) := by
    simp [Item.tokens, Item.lexemes, Lexeme.token]
  have hhead : ∀ us, Leads ⟨.item .file :: later, s, guardHead.map Lexeme.token ++ us⟩
      ⟨.innerAttributes :: .statement .list :: .expr .trailers
        :: .expr (.operators true Level.jump.rank) :: .generics .optWhere :: .semicolon
        :: .item .file :: later, .plain, us⟩ :=
    fun _ => leads_of_advance 8 fun _ => ⟨_, rfl⟩
  have hattributes : begins [.pound] ((assertions.flatMap Assertion.lexemes).map Lexeme.token
      ++ .closing .brace :: .sign .semi false :: ts) = false := by
    cases assertions with
    | nil => rfl
    | cons a assertions => rfl
  have hend : Leads ⟨.expr .trailers :: .expr (.operators true Level.jump.rank)
      :: .generics .optWhere :: .semicolon :: .item .file :: later, .plain, .sign .semi false :: ts⟩
      ⟨.item .file :: later, .plain, ts⟩ :=
    leads_of_advance 4 fun _ => ⟨_, rfl⟩
  rw [htokens]
  refine (hhead _).trans ?_
  refine (leads_innerAttributes hattributes).trans ?_
  exact (leads_assertions h).trans hend

/-! ### Functions -/

/-- The block of functions that show a value is passed up to the body of its only function. -/
theorem leads_displayHead (typeName : String) :
    Leads ⟨.item .file :: later, s, (displayHead ++ .word typeName :: displayMethod).map Lexeme.token
        ++ ts⟩
      ⟨.innerAttributes :: .statement .list :: .item (.members .implBlock) :: .item .file :: later,
        .plain, ts⟩ := by
  have himpl : ∀ us, Leads ⟨.item .file :: later, s,
      displayHead.map Lexeme.token ++ .word typeName :: .opening .brace :: .keyword .fnKw :: us⟩
      ⟨.item (.members .implBlock) :: .item .file :: later, .plain, .keyword .fnKw :: us⟩ :=
    fun _ => leads_of_advance 18 fun _ => ⟨_, rfl⟩
  have hfn : Leads ⟨.item (.members .implBlock) :: .item .file :: later, .plain,
      (displayMethod.drop 1).map Lexeme.token ++ ts⟩
      ⟨.innerAttributes :: .statement .list :: .item (.members .implBlock) :: .item .file :: later,
        .plain, ts⟩ :=
    leads_of_advance 41 fun _ => ⟨_, rfl⟩
  have htokens : (displayHead ++ .word typeName :: displayMethod).map Lexeme.token ++ ts
      = displayHead.map Lexeme.token ++ .word typeName :: .opening .brace
        :: ((displayMethod.drop 1).map Lexeme.token ++ ts) := by
    simp [displayMethod, Lexeme.token]
  rw [htokens]
  exact (himpl _).trans hfn

/-- A function that shows a value is accepted with its body. -/
theorem isAccepted_display {body : List Stmt} (h : blockReadable (codeOf body)) :
    (Item.display typeName body).IsAccepted := by
  intro s ts later
  have htokens : (Item.display typeName body).tokens ++ ts
      = (displayHead ++ .word typeName :: displayMethod).map Lexeme.token
        ++ (blockTokens (codeOf body) ++ .closing .brace :: .closing .brace :: ts) := by
    simp [Item.tokens, Item.lexemes, blockTokens, Lexeme.token]
  have hbody := isAccepted_block (codeOf body) h
  rw [htokens]
  refine (leads_displayHead typeName).trans ?_
  exact (hbody.leads_bodyRest h).trans <| leads_take (fun _ => rfl) rfl rfl

/-- The head of a lookup function is passed up to its body. -/
theorem leads_lookupHead (name typeName : String) :
    Leads ⟨.item .single :: later, s, .keyword .pubKw :: .keyword .fnKw :: .word name
        :: (lookupParameters.map Lexeme.token ++ .word typeName :: .sign .greater false
          :: .opening .brace :: ts)⟩
      ⟨.innerAttributes :: .statement .list :: later, .plain, ts⟩ :=
  leads_of_advance 31 fun _ => ⟨_, rfl⟩

theorem isAccepted_lookup {body : List Stmt} (h : blockReadable (codeOf body)) :
    (Item.lookup name typeName body).IsAccepted := by
  intro s ts later
  have htokens : (Item.lookup name typeName body).tokens ++ ts
      = (allowance "non_snake_case").map Lexeme.token ++ .keyword .pubKw :: .keyword .fnKw
        :: .word (identifierOf name) :: (lookupParameters.map Lexeme.token ++ .word typeName
          :: .sign .greater false :: .opening .brace :: (blockTokens (codeOf body) ++ .closing .brace :: ts)) := by
    simp [Item.tokens, Item.lexemes, blockTokens, Lexeme.token]
  have hbody := isAccepted_block (codeOf body) h
  rw [htokens]
  refine (leads_allowance _).trans ?_
  exact (leads_lookupHead _ typeName).trans (hbody.leads_bodyRest h)

end Items

/-! ## Source files -/

/-- Every readable item is accepted. -/
theorem Item.isAccepted {item : Item} (h : item.IsReadable) : item.IsAccepted := by
  cases item with
  | blank => exact isAccepted_blank
  | blob name text => exact isAccepted_blob name text
  | offsets name width values => exact isAccepted_offsets width h.2
  | constants name typeName references => exact isAccepted_constants h.2.2
  | guard assertions => exact isAccepted_guard h
  | display typeName body => exact isAccepted_display h.2.code
  | lookup name typeName body => exact isAccepted_lookup h.2.2.code

/-- The tokens of items in a row. -/
def itemsTokens (items : List Item) : List Token :=
  (items.flatMap Item.lexemes).map Lexeme.token

theorem itemsTokens_cons (item : Item) (items : List Item) :
    itemsTokens (item :: items) = item.tokens ++ itemsTokens items := by
  rw [itemsTokens, List.flatMap_cons, List.map_append]
  rfl

/-- Items are passed one by one. -/
theorem leads_items {items : List Item} (h : ∀ item ∈ items, item.IsReadable) :
    Leads ⟨[.item .file], s, itemsTokens items⟩ ⟨[.item .file], .plain, []⟩ := by
  induction items generalizing s with
  | nil => exact leads_of_step fun _ => rfl
  | cons item items ih =>
    have hitem := Item.isAccepted (h item List.mem_cons_self)
    rw [itemsTokens_cons]
    exact hitem.leads.trans <| ih fun item hmem => h item (List.mem_cons_of_mem _ hmem)

/-- No item begins with an attribute of the file around it. -/
theorem startInnerAttributes_items (items : List Item) :
    startInnerAttributes (itemsTokens items) = .leave .plain := by
  induction items with
  | nil => rfl
  | cons item items ih =>
    rw [itemsTokens_cons]
    cases item with
    | blank => exact ih
    | _ => rfl

/-- Readable items are a source file. -/
theorem accepts_items {items : List Item} (h : ∀ item ∈ items, item.IsReadable) :
    accepts (itemsTokens items) := by
  have hattributes : Leads ⟨[.innerAttributes, .item .file], .plain, itemsTokens items⟩
      ⟨[.item .file], .plain, itemsTokens items⟩ :=
    leads_leave fun _ => startInnerAttributes_items items
  obtain ⟨afterBrace, hrun⟩ := (hattributes.trans (leads_items h)) false
  have hend : Stage.accepted ⟨[.item .file], .plain, []⟩ afterBrace = true := by
    rw [Stage.accepted, run_leave _ rfl, run_nil]
    rfl
  exact hrun.trans hend

end EnumNames.Code
