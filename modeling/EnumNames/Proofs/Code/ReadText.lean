import EnumNames.Proofs.Code.Eval
import EnumNames.Proofs.Code.ReadItem
import EnumNames.Proofs.Code.ReadStatement

/-!
# Reading emitted texts back

A text of readable items is read as these items. Empty lines and comments leave nothing behind, and
a function is found under the identifier that its name stands for. The functions that are read
answer as those that were printed.

* `Item.declared`: what an item declares in its text.
* `read?_itemsText`: a text of items is read as what they declare.
* `show?_declared`, `lookUp?_declared`: the functions that are read answer as before.
-/

namespace EnumNames.Code

open Layout Target

/-! ## Arrays of constants -/

section Constants

variable {name typeName reference : String} {references : List String}

/-- No path begins with a closing bracket. -/
theorem readPath?_closing (b : Bracket) (ts : List Lexeme) : readPath? (.closing b :: ts) = none :=
  rfl

/-- No path begins with a number, so offsets are not taken for constants. -/
theorem readPath?_number (n : Nat) (suffix : String) (ts : List Lexeme) :
    readPath? (.number n suffix :: ts) = none :=
  rfl

/-- A path is read up to the comma behind it. -/
theorem readPath?_referenceLexemes (h : isPath reference) (ts : List Lexeme) :
    readPath? (referenceLexemes reference ++ ts) = some (reference, .sign .comma false :: ts) := by
  rw [referenceLexemes, List.append_assoc]
  exact readPath?_lexemes h rfl

/-- The elements are paths, so they are not taken for offsets even if the type has the name of a
width. -/
theorem readElements_constants (name typeName : String)
    (h : ∀ reference ∈ references, isPath reference) (ts : List Lexeme) :
    readElements name typeName references.length
        (references.flatMap referenceLexemes ++ .closing .square :: .sign .semi false :: ts)
      = some (.constants name typeName references, ts) := by
  have hread := readList_flatMap readPath?_closing
    (fun reference hmem => readPath?_referenceLexemes (h reference hmem)) (.sign .semi false :: ts)
  unfold readElements
  split
  · next heq =>
    cases references with
    | nil => exact absurd (List.cons.inj heq).1 (by simp)
    | cons reference references =>
      rw [List.flatMap_cons, List.append_assoc] at heq
      have hpath := readPath?_referenceLexemes (h reference List.mem_cons_self)
        (references.flatMap referenceLexemes ++ .closing .square :: .sign .semi false :: ts)
      rw [heq, readPath?_number] at hpath
      contradiction
  · have hsemi := pass?_append [.sign .semi false] ts
    rw [List.singleton_append] at hsemi
    simp only [hread, hsemi, Option.bind_eq_bind, Option.bind_some]
    rfl

/-- The lexemes of an array of constants are read as this array. -/
theorem readItem_constants (name typeName : String)
    (h : ∀ reference ∈ references, isPath reference) (ts : List Lexeme) :
    readItem ((Item.constants name typeName references).lexemes ++ ts)
      = some (.constants name typeName references, ts) := by
  have hlexemes : (Item.constants name typeName references).lexemes ++ ts
      = allowance "non_upper_case_globals" ++ .keyword .staticKw :: .word name
        :: .sign .colon false :: .opening .square :: .word typeName :: .sign .semi false
        :: .number references.length "" :: ([.closing .square, .sign .eq false, .opening .square]
          ++ (references.flatMap referenceLexemes
            ++ .closing .square :: .sign .semi false :: ts)) := by
    rw [Item.lexemes, arrayHead]
    simp
  rw [hlexemes, readItem_allowance, readItem, passAllowance_static]
  simp only [readNat?_number, pass?_append, Option.bind_eq_bind, Option.bind_some]
  exact readElements_constants name typeName h ts

end Constants

/-! ## The guard -/

section Guard

variable {a : Assertion} {assertions : List Assertion}

/-- An assertion is read with its path and its number. -/
theorem readAssertion_lexemes (h : a.IsReadable) (ts : List Lexeme) :
    readAssertion (a.lexemes ++ ts) = some (a, ts) := by
  obtain ⟨hpath, n, hn⟩ := h
  have hoperand : (lexemes? a.operand.text.toList).getD [] = intLexemes n := by
    rw [hn, GuardOperand.text, lexemes?_int]
    rfl
  have hlexemes : a.lexemes ++ ts = assertHead ++ (pathLexemes a.reference
      ++ (assertField ++ (intLexemes n ++ (assertEnd ++ ts)))) := by
    rw [Assertion.lexemes, hoperand, assertHead, assertField, assertEnd]
    simp
  have hread : readPath? (pathLexemes a.reference ++ (assertField ++ (intLexemes n
      ++ (assertEnd ++ ts)))) = some (a.reference, assertField ++ (intLexemes n
        ++ (assertEnd ++ ts))) := readPath?_lexemes hpath rfl
  rw [hlexemes, readAssertion]
  simp only [pass?_append, hread, readInt?_lexemes, Option.bind_eq_bind, Option.bind_some, ← hn]
  rfl

/-- Assertions are read up to the brace that closes their block. -/
theorem readAssertions_lexemes (h : ∀ a ∈ assertions, a.IsReadable) (ts : List Lexeme) :
    readAssertions (assertions.flatMap Assertion.lexemes ++ .closing .brace :: ts)
      = some (assertions, ts) := by
  induction assertions with
  | nil =>
    show readAssertions (.closing .brace :: ts) = _
    rw [readAssertions]
  | cons a assertions ih =>
    obtain ⟨ha, hassertions⟩ := List.forall_mem_cons.1 h
    have hrest := ih hassertions
    rw [List.flatMap_cons, List.append_assoc]
    generalize assertions.flatMap Assertion.lexemes ++ .closing .brace :: ts = rest at hrest ⊢
    have hread := readAssertion_lexemes ha rest
    have hshorter : rest.length < (a.lexemes ++ rest).length := by
      simp only [Assertion.lexemes, List.length_append, List.length_cons]
      omega
    unfold readAssertions
    split
    · next heq => exact absurd heq (by simp [Assertion.lexemes])
    · simp only [hread, Option.bind_eq_bind, Option.bind_some, shorter?_eq_some hshorter, hrest]
      rfl

/-- The lexemes of a guard are read as this guard. -/
theorem readItem_guard (h : ∀ a ∈ assertions, a.IsReadable) (ts : List Lexeme) :
    readItem ((Item.guard assertions).lexemes ++ ts) = some (.guard assertions, ts) := by
  have hread := readAssertions_lexemes h ([.sign .semi false] ++ ts)
  have hhead := pass?_append guardHead
    (assertions.flatMap Assertion.lexemes ++ .closing .brace :: ([.sign .semi false] ++ ts))
  have hlexemes : (Item.guard assertions).lexemes ++ ts
      = guardHead ++ (assertions.flatMap Assertion.lexemes
        ++ .closing .brace :: ([.sign .semi false] ++ ts)) := by
    rw [Item.lexemes]
    simp
  rw [hlexemes]
  generalize assertions.flatMap Assertion.lexemes ++ .closing .brace :: ([.sign .semi false] ++ ts)
    = rest at hread hhead ⊢
  rw [readItem]
  show (pass? guardHead (guardHead ++ rest)).bind _ = _
  rw [hhead]
  simp only [hread, pass?_append, Option.bind_eq_bind, Option.bind_some]
  rfl

end Guard

/-! ## Functions -/

section Functions

variable {name typeName : String} {body : List Stmt}

/-- The lexemes of a function that shows a value are read as its code. -/
theorem readItem_display (h : blockReadable (codeOf body)) (ts : List Lexeme) :
    readItem ((Item.display typeName body).lexemes ++ ts)
      = some (.display typeName (codeOf body), ts) := by
  have hread := blockIsRead (codeOf body) h ([.closing .brace] ++ ts)
  have hlexemes : (Item.display typeName body).lexemes ++ ts = displayHead ++ (.word typeName
      :: (displayMethod ++ closedBlock (codeOf body) ([.closing .brace] ++ ts))) := by
    rw [Item.lexemes, closedBlock]
    simp
  rw [hlexemes, readItem]
  show (pass? displayHead (displayHead ++ _)).bind _ = _
  simp only [pass?_append, hread, Option.bind_eq_bind, Option.bind_some]
  rfl

/-- The lexemes of a function that looks a name up are read as its code, under the identifier that
its name stands for. -/
theorem readItem_lookup (h : blockReadable (codeOf body)) (ts : List Lexeme) :
    readItem ((Item.lookup name typeName body).lexemes ++ ts)
      = some (.lookup (identifierOf name) typeName (codeOf body), ts) := by
  have hread := blockIsRead (codeOf body) h ts
  have hlexemes : (Item.lookup name typeName body).lexemes ++ ts = allowance "non_snake_case"
      ++ .keyword .pubKw :: .keyword .fnKw :: .word (identifierOf name) :: (lookupParameters
        ++ (.word typeName :: ([.sign .greater false, .opening .brace]
          ++ closedBlock (codeOf body) ts))) := by
    rw [Item.lexemes, closedBlock]
    simp
  rw [hlexemes, readItem]
  show (pass? lookupParameters (lookupParameters ++ _)).bind _ = _
  simp only [pass?_append, hread, Option.bind_eq_bind, Option.bind_some]
  rfl

end Functions

/-! ## Whole texts -/

/-- What an item declares in its text: empty lines and comments are dropped, and a function is
declared under the identifier that its name stands for. -/
def Item.declared : Item → List Item
  | blank => []
  | display typeName body => [.display typeName (codeOf body)]
  | lookup name typeName body => [.lookup (identifierOf name) typeName (codeOf body)]
  | item => [item]

/-- Only empty lines have no lexemes. -/
theorem Item.length_lexemes_pos {item : Item} (h : item ≠ .blank) : 0 < item.lexemes.length := by
  cases item with
  | blank => exact absurd rfl h
  | _ => simp [lexemes, guardHead, displayHead, allowance]

/-- An item is read as the one item that it declares. -/
theorem readItem_lexemes {item : Item} (h : item.IsReadable) (hne : item ≠ .blank)
    (ts : List Lexeme) : ∃ item', item.declared = [item']
      ∧ readItem (item.lexemes ++ ts) = some (item', ts) := by
  cases item with
  | blank => exact absurd rfl hne
  | blob name s => exact ⟨_, rfl, readItem_blob name s ts⟩
  | offsets name width values => exact ⟨_, rfl, readItem_offsets name width h.2 ts⟩
  | constants name typeName references => exact ⟨_, rfl, readItem_constants name typeName h.2.2 ts⟩
  | guard assertions => exact ⟨_, rfl, readItem_guard h ts⟩
  | display typeName body => exact ⟨_, rfl, readItem_display h.2.code ts⟩
  | lookup name typeName body => exact ⟨_, rfl, readItem_lookup h.2.2.code ts⟩

/-- Items in a row are read as what they declare, without the empty lines. -/
theorem readItems_lexemes {items : List Item} (h : ∀ item ∈ items, item.IsReadable) :
    readItems (items.flatMap Item.lexemes) = some (items.flatMap Item.declared) := by
  induction items with
  | nil =>
    rw [List.flatMap_nil, readItems]
    rfl
  | cons item items ih =>
    obtain ⟨hitem, hitems⟩ := List.forall_mem_cons.1 h
    have hrest := ih hitems
    rw [List.flatMap_cons, List.flatMap_cons]
    by_cases hblank : item = .blank
    · rw [hblank]
      exact hrest
    · obtain ⟨item', hread, hone⟩ := readItem_lexemes hitem hblank (items.flatMap Item.lexemes)
      have hpos := Item.length_lexemes_pos hblank
      have hshorter : (items.flatMap Item.lexemes).length
          < (item.lexemes ++ items.flatMap Item.lexemes).length := by
        rw [List.length_append]
        omega
      have hne : (item.lexemes ++ items.flatMap Item.lexemes).isEmpty = false :=
        List.isEmpty_eq_false_iff.2 (List.length_pos_iff.1 (Nat.zero_lt_of_lt hshorter))
      rw [readItems, hne, if_neg Bool.false_ne_true, hread]
      simp only [hone, shorter?_eq_some hshorter, hrest, Option.bind_eq_bind, Option.bind_some]
      rfl

/-- A text of readable items is read as what they declare. -/
theorem read?_itemsText {items : List Item} (h : ∀ item ∈ items, item.IsReadable) :
    read? (itemsText items) = some (items.flatMap Item.declared) := by
  have hcut := cut_itemsText h []
  rw [List.append_nil] at hcut
  rw [read?, hcut.lexemes?_eq, lexemes?_nil, Option.map_some, List.append_nil]
  exact readItems_lexemes h

/-! ## Running what is read -/

section Running

variable {items : List Item} {typeName : String}

/-- Without comments and empty lines, statements run as before. -/
theorem runStmts_codeOf {f : Frame} {body : List Stmt} {env : Env} {flow : Flow}
    (h : runStmts f body env = some flow) : runStmts f (codeOf body) env = some flow := by
  induction body generalizing env with
  | nil => exact h
  | cons s body ih =>
    rw [runStmts] at h
    cases hcode : s.isCode with
    | true =>
      rw [codeOf_cons_of_isCode hcode, runStmts]
      split at h
      · next env' hrun => exact ih h
      · next answer hrun => exact h
      · next answer hrun =>
        -- a result is the last statement, and nothing is dropped behind it
        split at h
        · next hlast =>
          rw [List.isEmpty_iff] at hlast
          subst hlast
          exact h
        · contradiction
      · contradiction
    | false =>
      have hskip : s.run? f env = some (.next env) := by
        cases s with
        | comment s => rfl
        | blank => rfl
        | _ => exact absurd hcode (by simp [Stmt.isCode])
      have hdrop : codeOf (s :: body) = codeOf body :=
        List.filter_cons_of_neg (Bool.not_eq_true _ ▸ hcode)
      rw [hdrop]
      rw [hskip] at h
      exact ih h

/-- Without comments and empty lines, a function answers as before. -/
theorem answer?_codeOf {f : Frame} {body : List Stmt} {env : Env} {answer : Answer}
    (h : (runStmts f body env).bind Flow.answer? = some answer) :
    (runStmts f (codeOf body) env).bind Flow.answer? = some answer := by
  obtain ⟨flow, hrun, hanswer⟩ := Option.bind_eq_some_iff.1 h
  rw [runStmts_codeOf hrun]
  exact hanswer

/-- The texts and arrays that are read have the names that were printed. -/
theorem filterMap_dataName?_declared (items : List Item) :
    (items.flatMap Item.declared).filterMap Item.dataName? = items.filterMap Item.dataName? := by
  induction items with
  | nil => rfl
  | cons item items ih =>
    rw [List.flatMap_cons, List.filterMap_append, ih]
    cases item <;> rfl

/-- The texts and arrays are declared as they are. -/
theorem dataItems_declared (items : List Item) :
    dataItems (items.flatMap Item.declared) = dataItems items := by
  induction items with
  | nil => rfl
  | cons item items ih =>
    rw [dataItems] at ih
    rw [List.flatMap_cons, dataItems, List.filter_append, ih]
    cases item <;> rfl

/-- What is read is proper if the items were. -/
theorem areProper_declared (items : List Item) :
    areProper (items.flatMap Item.declared) = areProper items := by
  have hall : (items.flatMap Item.declared).all Item.isProper = items.all Item.isProper := by
    induction items with
    | nil => rfl
    | cons item items ih =>
      rw [List.flatMap_cons, List.all_append, ih, List.all_cons]
      cases item <;> simp [Item.declared, Item.isProper]
  rw [areProper, areProper, filterMap_dataName?_declared, hall]

/-- The functions that show a value are read without their comments. -/
theorem filterMap_displayBody?_declared (items : List Item) (typeName : String) :
    (items.flatMap Item.declared).filterMap (Item.displayBody? typeName)
      = (items.filterMap (Item.displayBody? typeName)).map codeOf := by
  induction items with
  | nil => rfl
  | cons item items ih =>
    rw [List.flatMap_cons, List.filterMap_append, ih]
    cases item with
    | display name body =>
      by_cases hname : name = typeName
      · simp [Item.declared, Item.displayBody?, hname]
      · simp [Item.declared, Item.displayBody?, hname]
    | _ => rfl

/-- If only one name is declared by functions that look a name up, the identifier of this name leads
to the code of the same functions. -/
theorem filterMap_lookupBody?_declared {functionName : String} (typeName : String)
    (honly : ∀ name type body, Item.lookup name type body ∈ items → name = functionName) :
    (items.flatMap Item.declared).filterMap
        (Item.lookupBody? (identifierOf functionName) typeName)
      = (items.filterMap (Item.lookupBody? functionName typeName)).map codeOf := by
  induction items with
  | nil => rfl
  | cons item items ih =>
    have hrest := ih fun name type body hmem => honly name type body (List.mem_cons_of_mem _ hmem)
    rw [List.flatMap_cons, List.filterMap_append, hrest]
    cases item with
    | lookup name type body =>
      have hname := honly name type body List.mem_cons_self
      by_cases htype : type = typeName
      · simp [Item.declared, Item.lookupBody?, hname, htype]
      · simp [Item.declared, Item.lookupBody?, hname, htype]
    | _ => rfl

/-- What is read shows a value as the items do. -/
theorem show?_declared {kind : Kind} {n : Int} {s : String}
    (h : show? items typeName kind n = some s) :
    show? (items.flatMap Item.declared) typeName kind n = some s := by
  rw [show?] at h
  split at h
  · next body hbody hproper =>
    have hbodies := filterMap_displayBody?_declared items typeName
    rw [hbody] at hbodies
    refine show?_eq_some ((areProper_declared items).trans hproper) hbodies ?_
    rw [dataItems_declared]
    split at h
    · next hrun => exact answer?_codeOf (hrun.trans (by rw [Option.some.inj h]))
    · contradiction
  · contradiction

/-- What is read looks names up as the function of the items does, under the identifier of this
function and if the names are apart. -/
theorem lookUp?_declared {functionName text : String} {constants : List String}
    {body : List Stmt} {reference : Option String}
    (honly : ∀ name type body, Item.lookup name type body ∈ items → name = functionName)
    (hproper : areProper items)
    (hapart : areApart typeName constants (items.flatMap Item.declared))
    (hbody : items.filterMap (Item.lookupBody? functionName typeName) = [body])
    (hrun : (runStmts ⟨dataItems items, typeName, none, constants⟩ body
      [⟨"name", false, .text text⟩]).bind Flow.answer? = some (.value (.choice reference))) :
    lookUp? constants (items.flatMap Item.declared) (identifierOf functionName) typeName text
      = some reference := by
  have hbodies := filterMap_lookupBody?_declared typeName honly
  rw [hbody] at hbodies
  refine lookUp?_eq_some ((areProper_declared items).trans hproper) hapart hbodies ?_
  rw [dataItems_declared]
  exact answer?_codeOf hrun

end Running

end EnumNames.Code
