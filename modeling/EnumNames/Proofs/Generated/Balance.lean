import EnumNames.Proofs.Display.Plan
import EnumNames.Proofs.Generated.Type
import EnumNames.Proofs.Layout

/-!
# Blocks of emitted code

Whatever the plans of a type are, no block is closed that was not opened, and all blocks are closed
at the end of the guard and of each function. So the depth of a line is the number of blocks that are
open there, and it never matters that nothing is less deep than the outermost lines.

* `Layout.LeadsTo`: steps lead from one depth to another and close no block that is not open.
* `Layout.isBalanced_iff`: what this means for the writer.
* `Code.Stmt.leadsTo_steps`: a statement leaves the depth as it is, if each choice in it has a branch.
* `LookupPlan.hashArmSteps_hashArms`: arms of hashes are opened and closed from entry to entry.
* `GeneratedType.isBalanced_iff`: the code of a type is balanced, unless it is that for no runs.
-/

namespace EnumNames

namespace Layout

/-! ## Steps -/

/-- Whether a step ends a block. -/
def Step.endsBlock : Step → Bool
  | .dedent | .close | .closeWith _ | .reopen _ => true
  | .line _ | .blank | .indent | .openBlock _ => false

/-- The depth after a step, unless it ends a block and none is open. -/
def Step.depthAfter? : Nat → Step → Option Nat
  | d, .line _ | d, .blank => some d
  | d, .indent | d, .openBlock _ => some (d + 1)
  | d + 1, .dedent | d + 1, .close | d + 1, .closeWith _ => some d
  | d + 1, .reopen _ => some (d + 1)
  | 0, .dedent | 0, .close | 0, .closeWith _ | 0, .reopen _ => none

/-- The change of depth that steps in a row ask for. -/
def totalRise : List Step → Int
  | [] => 0
  | step :: steps => step.rise + totalRise steps

/-- From depth `d` on, the steps lead to depth `e`, and none of them ends a block that is not
open. -/
def LeadsTo (d : Nat) (steps : List Step) (e : Nat) : Prop :=
  steps.foldlM Step.depthAfter? d = some e

variable {α : Type} {d e e' : Nat} {step : Step} {steps steps' : List Step}

/-- A step is possible unless it ends a block where none is open. -/
theorem Step.depthAfter?_eq_some_iff :
    step.depthAfter? d = some e ↔ (step.endsBlock → 0 < d) ∧ step.depthAfter d = e := by
  cases step <;> cases d <;> simp [Step.depthAfter?, Step.depthAfter, Step.endsBlock]

/-- A step that ends no block but an open one changes the depth as it asks for. -/
theorem Step.eq_add_rise (h : step.depthAfter? d = some e) : (e : Int) = d + step.rise := by
  cases step <;> cases d <;> simp [Step.depthAfter?, Step.rise] at h ⊢ <;> omega

theorem leadsTo_cons_iff : LeadsTo d (step :: steps) e
    ↔ ∃ m, step.depthAfter? d = some m ∧ LeadsTo m steps e := by
  rw [LeadsTo, List.foldlM_cons]
  exact Option.bind_eq_some_iff

/-- Steps in two rows lead through some depth in between. -/
theorem leadsTo_append_iff : LeadsTo d (steps ++ steps') e
    ↔ ∃ m, LeadsTo d steps m ∧ LeadsTo m steps' e := by
  rw [LeadsTo, List.foldlM_append]
  exact Option.bind_eq_some_iff

theorem LeadsTo.append (h : LeadsTo d steps e) (h' : LeadsTo e steps' e') :
    LeadsTo d (steps ++ steps') e' :=
  leadsTo_append_iff.2 ⟨e, h, h'⟩

/-- Where no depth is cut off, the layout counts the same. -/
theorem LeadsTo.depthAfter_eq (h : LeadsTo d steps e) : depthAfter d steps = e := by
  induction steps generalizing d with
  | nil => exact Option.some.inj h
  | cons step steps ih =>
    obtain ⟨m, hm, hrest⟩ := leadsTo_cons_iff.1 h
    rw [depthAfter, (Step.depthAfter?_eq_some_iff.1 hm).2]
    exact ih hrest

/-- The depth changes by the sum of the rises. -/
theorem LeadsTo.eq_add_totalRise (h : LeadsTo d steps e) : (e : Int) = d + totalRise steps := by
  induction steps generalizing d with
  | nil =>
    obtain rfl : d = e := Option.some.inj h
    exact (Int.add_zero _).symm
  | cons step steps ih =>
    obtain ⟨m, hm, hrest⟩ := leadsTo_cons_iff.1 h
    rw [ih hrest, Step.eq_add_rise hm, totalRise, Int.add_assoc]

/-- Steps that end no block but open ones lead somewhere. -/
theorem leadsTo_depthAfter (h : ∀ before step after, steps = before ++ step :: after →
    step.endsBlock → 0 < depthAfter d before) : LeadsTo d steps (depthAfter d steps) := by
  induction steps generalizing d with
  | nil => rfl
  | cons step steps ih =>
    have hstep := Step.depthAfter?_eq_some_iff.2 ⟨h [] step steps rfl, rfl⟩
    refine leadsTo_cons_iff.2 ⟨_, hstep, ih fun before step' after heq => ?_⟩
    exact h (step :: before) step' after (by rw [heq]; rfl)

/-! ## Balance -/

/-- All blocks are closed at the end, and none is before it was opened. -/
structure IsBalanced (steps : List Step) : Prop where
  /-- A block is open wherever one is ended. -/
  depth_pos : ∀ before step after, steps = before ++ step :: after → step.endsBlock →
    0 < (run before).depth
  /-- The depth is the sum of all changes so far. -/
  depth_eq_totalRise : ∀ before after, steps = before ++ after →
    ((run before).depth : Int) = totalRise before
  depth_eq_zero : (run steps).depth = 0

theorem depth_run (steps : List Step) : (run steps).depth = depthAfter 0 steps := by
  show (steps.foldl Writer.apply ⟨"", 0⟩).depth = _
  rw [foldl_apply]

/-- Balanced steps are the ones that are possible from depth zero and lead back to it. -/
theorem isBalanced_iff : IsBalanced steps ↔ LeadsTo 0 steps 0 := by
  constructor
  · intro h
    have hleads : LeadsTo 0 steps (depthAfter 0 steps) :=
      leadsTo_depthAfter fun before step after heq hends =>
        depth_run before ▸ h.depth_pos before step after heq hends
    rwa [← depth_run, h.depth_eq_zero] at hleads
  · intro h
    refine ⟨fun before step after heq hends => ?_, fun before after heq => ?_, ?_⟩
    · rw [heq] at h
      obtain ⟨m, hbefore, hstep⟩ := leadsTo_append_iff.1 h
      obtain ⟨_, hm, -⟩ := leadsTo_cons_iff.1 hstep
      rw [depth_run, hbefore.depthAfter_eq]
      exact (Step.depthAfter?_eq_some_iff.1 hm).1 hends
    · rw [heq] at h
      obtain ⟨m, hbefore, -⟩ := leadsTo_append_iff.1 h
      rw [depth_run, hbefore.depthAfter_eq, hbefore.eq_add_totalRise, Int.natCast_zero, Int.zero_add]
    · rw [depth_run, h.depthAfter_eq]

/-! ## Parts of blocks -/

theorem leadsTo_line (d : Nat) (s : String) : LeadsTo d [.line s] d :=
  rfl

/-- Lines stay at their depth. -/
theorem leadsTo_map_line (d : Nat) (f : α → String) (xs : List α) :
    LeadsTo d (xs.map fun x => .line (f x)) d := by
  induction xs with
  | nil => rfl
  | cons x xs ih => exact (leadsTo_line d (f x)).append ih

/-- Groups of steps that return to their depth do so in a row. -/
theorem leadsTo_flatMap {f : α → List Step} {xs : List α} (h : ∀ x ∈ xs, LeadsTo d (f x) d) :
    LeadsTo d (xs.flatMap f) d := by
  induction xs with
  | nil => rfl
  | cons x xs ih =>
    rw [List.flatMap_cons]
    exact (h x List.mem_cons_self).append (ih fun y hy => h y (List.mem_cons_of_mem x hy))

/-- A block between braces. -/
theorem LeadsTo.block (h : LeadsTo (d + 1) steps (d + 1)) (head : String) :
    LeadsTo d ([.openBlock head] ++ steps ++ [.close]) d := by
  have hopen : LeadsTo d [.openBlock head] (d + 1) := rfl
  have hclose : LeadsTo (d + 1) [.close] d := rfl
  exact (hopen.append h).append hclose

end Layout

namespace Code

open Layout

/-! ## Statements -/

mutual

/-- Whether each choice in a statement has a branch. The first branch opens the block that all others
close and open again. -/
def Stmt.IsWhole : Stmt → Prop
  | .choose _ branches other => branches ≠ [] ∧ branchesWhole branches ∧ blockWhole other
  | .when _ body | .loop _ body | .eachByte _ _ body => blockWhole body
  | .switch _ arms => armsWhole arms
  | .comment _ | .blank | .bind _ _ | .bindVar _ _ _ | .bindVars _ _ _ _ | .select _ _ _ _ _
  | .assign _ _ | .mix _ _ | .order _ _ _ _ _ | .mapLookup _ _ _ | .ret _ | .result _ => True

def blockWhole : List Stmt → Prop
  | [] => True
  | s :: rest => s.IsWhole ∧ blockWhole rest

def branchesWhole : List (Expr × List Stmt) → Prop
  | [] => True
  | (_, body) :: rest => blockWhole body ∧ branchesWhole rest

def armsWhole : List (UInt32 × List Stmt) → Prop
  | [] => True
  | (_, body) :: rest => blockWhole body ∧ armsWhole rest

end

section Blocks

variable {d : Nat} {other : List Stmt}

/-- A choice returns to its depth if its blocks do. -/
theorem leadsTo_choose {branches : List (Expr × List Stmt)} (x : String)
    (hbranches : LeadsTo d (branchSteps x true branches) (d + 1))
    (hother : LeadsTo (d + 1) (blockSteps other) (d + 1)) :
    LeadsTo d (Stmt.choose x branches other).steps d := by
  have helse : LeadsTo (d + 1) [.reopen "\x7d else \x7b"] (d + 1) := rfl
  have hlast : LeadsTo (d + 1) [.closeWith "\x7d;"] d := rfl
  rw [Stmt.steps]
  exact ((hbranches.append helse).append hother).append hlast

theorem leadsTo_select (x : String) (subject : Expr) (arms : List (Int × Expr)) (y : String)
    (other : Expr) : LeadsTo d (Stmt.select x subject arms y other).steps d := by
  have hopen : LeadsTo d [.openBlock ("let " ++ x ++ " = match " ++ subject.text)] (d + 1) := rfl
  have hlast : LeadsTo (d + 1)
      [.line (y ++ " => return " ++ other.text ++ ","), .closeWith "\x7d;"] d := rfl
  rw [Stmt.steps]
  exact (hopen.append (leadsTo_map_line (d + 1) _ arms)).append hlast

theorem leadsTo_switch {arms : List (UInt32 × List Stmt)} (x : String)
    (h : LeadsTo (d + 1) (armSteps arms) (d + 1)) :
    LeadsTo d (Stmt.switch x arms).steps d := by
  have hopen : LeadsTo d [.openBlock ("match " ++ x)] (d + 1) := rfl
  have hlast : LeadsTo (d + 1) [.line "_ => \x7b\x7d", .close] d := rfl
  rw [Stmt.steps]
  exact (hopen.append h).append hlast

theorem leadsTo_mapLookup (typeName : String) (entries : List (String × String)) (x : String) :
    LeadsTo d (Stmt.mapLookup typeName entries x).steps d := by
  rw [Stmt.steps]
  refine .append (e := d + 3) (.append (e := d + 3) rfl ?_) rfl
  exact leadsTo_map_line (d + 3) _ entries

end Blocks

mutual

/-- A statement leaves the depth as it is. -/
theorem Stmt.leadsTo_steps : (s : Stmt) → s.IsWhole → ∀ d, LeadsTo d s.steps d
  | .choose x branches other, h, d => by
    rw [Stmt.IsWhole] at h
    exact leadsTo_choose x (leadsTo_branchSteps x true branches (fun _ => h.1) h.2.1 d)
      (leadsTo_blockSteps other h.2.2 (d + 1))
  | .select x subject arms y other, _, _ => leadsTo_select x subject arms y other
  | .when _ body, h, d => by
    rw [Stmt.IsWhole] at h
    rw [Stmt.steps]
    exact (leadsTo_blockSteps body h (d + 1)).block _
  | .loop _ body, h, d => by
    rw [Stmt.IsWhole] at h
    rw [Stmt.steps]
    exact (leadsTo_blockSteps body h (d + 1)).block _
  | .eachByte _ _ body, h, d => by
    rw [Stmt.IsWhole] at h
    rw [Stmt.steps]
    exact (leadsTo_blockSteps body h (d + 1)).block _
  | .switch x arms, h, d => by
    rw [Stmt.IsWhole] at h
    exact leadsTo_switch x (leadsTo_armSteps arms h (d + 1))
  | .mapLookup typeName entries x, _, _ => leadsTo_mapLookup typeName entries x
  | .order _ _ _ _ _, _, _ => by rw [Stmt.steps]; rfl
  | .comment _, _, _ | .blank, _, _ | .bind _ _, _, _ | .bindVar _ _ _, _, _
  | .bindVars _ _ _ _, _, _ | .assign _ _, _, _ | .mix _ _, _, _ | .ret _, _, _
  | .result _, _, _ => by rw [Stmt.steps]; rfl

/-- Statements in a row return to their depth. -/
theorem leadsTo_blockSteps : (body : List Stmt) → blockWhole body →
    ∀ d, LeadsTo d (blockSteps body) d
  | [], _, d => by rw [blockSteps]; rfl
  | s :: rest, h, d => by
    rw [blockWhole] at h
    rw [blockSteps]
    exact (Stmt.leadsTo_steps s h.1 d).append (leadsTo_blockSteps rest h.2 d)

/-- The first branch opens a block, and each one leaves it open for what comes next. -/
theorem leadsTo_branchSteps (x : String) (isFirst : Bool) :
    (branches : List (Expr × List Stmt)) → (isFirst → branches ≠ []) → branchesWhole branches →
    ∀ d, LeadsTo (if isFirst then d else d + 1) (branchSteps x isFirst branches) (d + 1)
  | [], hne, _, d => by
    -- the branch before has left its block open
    rw [branchSteps, if_neg fun hfirst => hne hfirst rfl]
    rfl
  | (c, body) :: rest, _, h, d => by
    rw [branchesWhole] at h
    have hbody := leadsTo_blockSteps body h.1 (d + 1)
    have hrest : LeadsTo (d + 1) (branchSteps x false rest) (d + 1) :=
      leadsTo_branchSteps x false rest (by simp) h.2 d
    rw [branchSteps]
    cases isFirst with
    | true => exact leadsTo_cons_iff.2 ⟨d + 1, rfl, hbody.append hrest⟩
    | false => exact leadsTo_cons_iff.2 ⟨d + 1, rfl, hbody.append hrest⟩

theorem leadsTo_armSteps : (arms : List (UInt32 × List Stmt)) → armsWhole arms →
    ∀ d, LeadsTo d (armSteps arms) d
  | [], _, d => by rw [armSteps]; rfl
  | (_, body) :: rest, h, d => by
    rw [armsWhole] at h
    rw [armSteps]
    exact ((leadsTo_blockSteps body h.1 (d + 1)).block _).append (leadsTo_armSteps rest h.2 d)

end

/-! ## Items -/

/-- Whether each choice in an item has a branch. -/
def Item.IsWhole : Item → Prop
  | .display _ body | .lookup _ _ body => blockWhole body
  | .blank | .blob _ _ | .offsets _ _ _ | .constants _ _ _ | .guard _ => True

/-- An item returns to the depth it began at. -/
theorem Item.leadsTo_steps {item : Item} (h : item.IsWhole) (d : Nat) :
    LeadsTo d item.steps d := by
  cases item with
  | blank | blob | offsets => rfl
  | constants name typeName references =>
    rw [Item.steps]
    refine .append (e := d + 1) (.append (e := d + 1) rfl ?_) rfl
    exact leadsTo_map_line (d + 1) _ references
  | guard assertions =>
    rw [Item.steps]
    refine .append (e := d + 1) (.append (e := d + 1) rfl ?_) rfl
    exact leadsTo_map_line (d + 1) _ assertions
  | display typeName body =>
    have hinner := (leadsTo_blockSteps body h (d + 2)).block
      "fn fmt(&self, f: &mut ::core::fmt::Formatter<'_>) -> ::core::fmt::Result"
    have houter := hinner.block ("impl ::core::fmt::Display for " ++ typeName)
    rw [Item.steps]
    simpa only [List.append_assoc, List.cons_append, List.nil_append] using houter
  | lookup name typeName body =>
    have hblock := (leadsTo_blockSteps body h (d + 1)).block
      ("pub fn " ++ name ++ "(name: &str) -> Option<" ++ typeName ++ ">")
    exact (leadsTo_line d "#[allow(non_snake_case)]").append hblock

/-- Items in a row return to the depth they began at. -/
theorem leadsTo_itemsSteps {items : List Item} (h : ∀ item ∈ items, item.IsWhole) (d : Nat) :
    LeadsTo d (itemsSteps items) d :=
  leadsTo_flatMap fun item hitem => Item.leadsTo_steps (h item hitem) d

end Code

open Layout Code

/-! ## Display plans -/

namespace DisplayPlan

theorem branchesWhole_map_runBlock (typeName : String) (runs : List (Run × Nat)) :
    branchesWhole (runs.map fun (run, k) => (runTest run, runBlock typeName run k)) := by
  induction runs with
  | nil => simp [branchesWhole]
  | cons run runs ih =>
    rw [List.map_cons, branchesWhole]
    refine ⟨?_, ih⟩
    rw [runBlock]
    split <;> simp [blockWhole, Stmt.IsWhole]

/-- The choice between runs has a condition, since there is a run. -/
theorem blockWhole_multiRunBody (typeName : String) {runs : List Run} (h : runs ≠ []) :
    blockWhole (multiRunBody typeName runs) := by
  have hbranches := branchesWhole_map_runBlock typeName runs.zipIdx
  simp [multiRunBody, blockWhole, Stmt.IsWhole, h, hbranches]

theorem isWhole_multiRunTables (typeName : String) (runs : List Run) :
    ∀ item ∈ multiRunTables typeName runs, item.IsWhole := by
  intro item hitem
  rcases List.mem_append.1 hitem with hitem | hitem
  · obtain ⟨_, -, rfl⟩ := List.mem_map.1 hitem
    trivial
  · obtain ⟨⟨run, k⟩, -, hitem⟩ := List.mem_flatMap.1 hitem
    simp only at hitem
    split at hitem
    · contradiction
    · obtain rfl := List.mem_singleton.1 hitem
      trivial

/-- Each choice in the items of a plan has a branch, unless the plan is for no runs. -/
theorem isWhole_items {plan : DisplayPlan} (h : plan ≠ .multiRun []) (typeName : String) :
    ∀ item ∈ plan.items typeName, item.IsWhole := by
  cases plan with
  | oneRun run =>
    simp [items, Item.ofTable, Item.IsWhole, oneRunBody, blockWhole, Stmt.IsWhole]
  | multiRun runs =>
    have hruns : runs ≠ [] := by rintro rfl; exact h rfl
    have hbody := blockWhole_multiRunBody typeName hruns
    simp only [items, List.cons_append, List.nil_append, List.forall_mem_cons,
      List.forall_mem_append]
    exact ⟨trivial, isWhole_multiRunTables typeName runs, trivial, hbody, nofun⟩
  | sparseMap members =>
    simp [items, Item.IsWhole, sparseBody, blockWhole, Stmt.IsWhole]

/-- A chain of tests for no runs closes a block that is not its own. -/
theorem not_leadsTo_multiRun_nil (typeName : String) (e : Nat) :
    ¬ LeadsTo 0 (itemsSteps ((multiRun []).items typeName)) e := by
  have hnone : (itemsSteps ((multiRun []).items typeName)).foldlM Step.depthAfter? 0 = none := rfl
  rw [LeadsTo, hnone]
  exact nofun

/-- A plan for runs has runs. -/
theorem select_ne_multiRun_nil {ms : List Member} (h : ms ≠ []) (runThreshold : Nat) :
    select ms runThreshold ≠ .multiRun [] := by
  have hruns := runs_ne_nil h
  rw [select]
  split
  · simp
  · split
    · simpa using hruns
    · simp

end DisplayPlan

/-! ## Lookup plans -/

namespace LookupPlan

theorem blockWhole_hashBlock (entries : List LookupEntry) : blockWhole (hashBlock entries) := by
  induction entries with
  | nil => simp [hashBlock, blockWhole]
  | cons e entries ih =>
    rw [hashBlock, List.map_cons, blockWhole]
    exact ⟨by simp [found, blockWhole, Stmt.IsWhole], ih⟩

theorem armsWhole_map_hashBlock (arms : List (UInt32 × List LookupEntry)) :
    armsWhole (arms.map fun (h, es) => (h, hashBlock es)) := by
  induction arms with
  | nil => simp [armsWhole]
  | cons arm arms ih =>
    rw [List.map_cons, armsWhole]
    exact ⟨blockWhole_hashBlock arm.2, ih⟩

/-- All blocks in the items of a lookup plan are whole. -/
theorem isWhole_items (plan : LookupPlan) (typeName functionName : String) :
    ∀ item ∈ plan.items typeName functionName, item.IsWhole := by
  cases plan with
  | hashedSwitch entries =>
    have harms := armsWhole_map_hashBlock (hashArms entries)
    simp [items, Item.IsWhole, hashedBody, blockWhole, Stmt.IsWhole, harms]
  | binarySearch entries =>
    simp [items, Item.ofTable, Item.IsWhole, searchBody, blockWhole, Stmt.IsWhole]
  | directMap entries => simp [items, Item.IsWhole, blockWhole, Stmt.IsWhole]

/-! ### Arms from entry to entry -/

/-- The test for the name of an entry. -/
def entryTest (e : LookupEntry) : Stmt :=
  .when (.binary .equal (.var "name") (.literal e.name)) [found e]

/-- The steps of hashed entries, one after the other. If an arm is open, it is closed where the next
entry has another hash, and at the end. -/
def entrySteps (opened : Option UInt32) : List (UInt32 × LookupEntry) → List Step
  | [] => if opened.isSome then [.close] else []
  | (h, e) :: rest =>
    (if opened = some h then []
      else (if opened.isSome then [.close] else []) ++ [.openBlock (wordPattern h ++ " =>")])
      ++ (entryTest e).steps ++ entrySteps (some h) rest

/-- The steps of the arms into which entries are joined. -/
def hashArmSteps (arms : List (UInt32 × List LookupEntry)) : List Step :=
  armSteps (arms.map fun (h, es) => (h, hashBlock es))

/-- The first entry of a hash is tested first. -/
theorem blockSteps_hashBlock_cons (e : LookupEntry) (es : List LookupEntry) :
    blockSteps (hashBlock (e :: es)) = (entryTest e).steps ++ blockSteps (hashBlock es) := by
  rw [hashBlock, List.map_cons, blockSteps]
  rfl

/-- The arm of a hash is opened, its entries are tested, and it is closed. -/
theorem hashArmSteps_cons (h : UInt32) (e : LookupEntry) (es : List LookupEntry)
    (arms : List (UInt32 × List LookupEntry)) :
    hashArmSteps ((h, e :: es) :: arms)
      = .openBlock (wordPattern h ++ " =>") :: (entryTest e).steps ++ blockSteps (hashBlock es)
        ++ [.close] ++ hashArmSteps arms := by
  rw [hashArmSteps, List.map_cons, armSteps, blockSteps_hashBlock_cons]
  simp only [List.cons_append, List.append_assoc]
  rfl

/-- The first entry opens the arm of its hash. -/
theorem entrySteps_cons_none (h : UInt32) (e : LookupEntry) (rest : List (UInt32 × LookupEntry)) :
    entrySteps none ((h, e) :: rest)
      = .openBlock (wordPattern h ++ " =>") :: (entryTest e).steps ++ entrySteps (some h) rest :=
  rfl

/-- The first arm begins with the first entry. -/
theorem exists_hashArms_cons (h : UInt32) (e : LookupEntry) (rest : List (UInt32 × LookupEntry)) :
    ∃ es arms, hashArms ((h, e) :: rest) = (h, e :: es) :: arms := by
  rw [hashArms]
  split
  · split
    · exact ⟨_, _, rfl⟩
    · exact ⟨_, _, rfl⟩
  · exact ⟨_, _, rfl⟩

/-- The arms into which entries are joined have the steps of the entries one after the other. -/
theorem hashArmSteps_hashArms (entries : List (UInt32 × LookupEntry)) :
    hashArmSteps (hashArms entries) = entrySteps none entries := by
  cases entries with
  | nil => rfl
  | cons p rest =>
    obtain ⟨h, e⟩ := p
    induction rest generalizing h e with
    | nil =>
      show hashArmSteps [(h, [e])] = _
      rw [hashArmSteps_cons, entrySteps_cons_none, hashBlock, List.map_nil, blockSteps,
        List.append_nil]
      rfl
    | cons p rest ih =>
      obtain ⟨h', e'⟩ := p
      obtain ⟨es, arms, harms⟩ := exists_hashArms_cons h' e' rest
      have hrest := ih h' e'
      rw [harms, hashArmSteps_cons, entrySteps_cons_none] at hrest
      rw [hashArms, harms, entrySteps_cons_none, entrySteps]
      simp only
      split
      · next heq =>
        -- the entry joins the arm that its neighbour begins
        subst heq
        have htail : blockSteps (hashBlock es) ++ [.close] ++ hashArmSteps arms
            = entrySteps (some h) rest := by
          simpa [List.append_assoc] using hrest
        rw [hashArmSteps_cons, blockSteps_hashBlock_cons, ← htail]
        simp [List.append_assoc]
      · next hne =>
        -- the arm of the entry is closed before that of its neighbour is opened
        rw [hashArmSteps_cons, hashArmSteps_cons, hrest, hashBlock, List.map_nil, blockSteps]
        simp [hne]

end LookupPlan

/-! ## Types -/

namespace GeneratedType

variable {g : GeneratedType}

/-- The blocks of the code of a type are balanced: up to the end of the guard, up to the end of the
function that shows a value, and up to the end of the lookup function. -/
structure IsBalanced (g : GeneratedType) : Prop where
  guard : Layout.IsBalanced (itemsSteps [Guard.item g.constants])
  display : Layout.IsBalanced
    (itemsSteps (Guard.item g.constants :: g.display.items g.typeName))
  lookup : Layout.IsBalanced (itemsSteps g.items)

theorem isWhole_lookupItems (g : GeneratedType) : ∀ item ∈ g.lookupItems, item.IsWhole := by
  rw [lookupItems]
  split
  · exact LookupPlan.isWhole_items _ _ _
  · exact nofun

/-- Of all plans, only one for no runs unbalances the code of a type. -/
theorem isBalanced_iff : g.IsBalanced ↔ g.display ≠ .multiRun [] := by
  constructor
  · intro h hnil
    have hleads := Layout.isBalanced_iff.1 h.display
    rw [hnil, itemsSteps, List.flatMap_cons] at hleads
    obtain ⟨m, hguard, hdisplay⟩ := leadsTo_append_iff.1 hleads
    have hwhole : (Guard.item g.constants).IsWhole := trivial
    have hzero := (Item.leadsTo_steps hwhole 0).depthAfter_eq
    obtain rfl : m = 0 := hguard.depthAfter_eq.symm.trans hzero
    exact DisplayPlan.not_leadsTo_multiRun_nil g.typeName 0 hdisplay
  · intro h
    have hguard : ∀ item ∈ [Guard.item g.constants], item.IsWhole :=
      List.forall_mem_singleton.2 trivial
    have hdisplay : ∀ item ∈ Guard.item g.constants :: g.display.items g.typeName, item.IsWhole :=
      List.forall_mem_cons.2 ⟨trivial, DisplayPlan.isWhole_items h g.typeName⟩
    have hall : ∀ item ∈ g.items, item.IsWhole :=
      List.forall_mem_append.2 ⟨hdisplay, g.isWhole_lookupItems⟩
    exact ⟨Layout.isBalanced_iff.2 (leadsTo_itemsSteps hguard 0),
      Layout.isBalanced_iff.2 (leadsTo_itemsSteps hdisplay 0),
      Layout.isBalanced_iff.2 (leadsTo_itemsSteps hall 0)⟩

end GeneratedType

/-- For every type that has a member set there is code, whatever the options are, and its blocks are
balanced. So they are for every plan but one for no runs, which no type has. The arms of hashes are
among these blocks: they are opened at one entry and closed at a later one. -/
theorem generate_isBalanced :
    (∀ (e : Enumeration) (set : MemberSet) (o : Options), e.memberSet = .ok set →
        ∃ g, e.generate o = .ok g ∧ g.display ≠ .multiRun [] ∧ g.IsBalanced)
      ∧ (∀ g : GeneratedType, g.IsBalanced ↔ g.display ≠ .multiRun [])
      ∧ ∀ entries, (Stmt.switch "h" ((LookupPlan.hashArms entries).map fun (h, es) =>
            (h, LookupPlan.hashBlock es))).steps
          = [.openBlock "match h"] ++ LookupPlan.entrySteps none entries
            ++ [.line "_ => \x7b\x7d", .close] := by
  refine ⟨fun e set o hset => ?_, fun g => GeneratedType.isBalanced_iff, fun entries => ?_⟩
  · obtain ⟨kind, hkind, hne, -⟩ := Enumeration.memberSet_eq_ok_iff.1 hset
    obtain ⟨g, hg⟩ := exists_generate (o := o) (Option.isSome_of_mem hkind) hne
    have hdisplay : g.display ≠ .multiRun [] := by
      rw [(Enumeration.eq_of_generate hg).2]
      exact DisplayPlan.select_ne_multiRun_nil (Enumeration.distinctMembers_ne_nil hne) o.runThreshold
    exact ⟨g, hg, hdisplay, GeneratedType.isBalanced_iff.2 hdisplay⟩
  · rw [Stmt.steps, ← LookupPlan.hashArmSteps_hashArms]
    rfl

/-- The chain tests three runs, one of which has two values, and the switch tells two hashes apart, one
of which three names share. -/
theorem generate_isBalanced_gauge :
    (∃ set, gauge.memberSet = .ok set)
      ∧ (∃ g, gauge.generate ⟨"\x7b\x7d_of", 3, (8, 8)⟩ = .ok g ∧ g.IsBalanced)
      ∧ GeneratedType.IsBalanced ⟨"Gauge", gauge.constants, 4,
          .multiRun (runs gauge.distinctMembers), some ⟨"Gauge_of", .hashedSwitch
            (gauge.distinctMembers.map fun m => (if m.value ≤ 0 then 0 else 1, .ofMember m))⟩⟩ := by
  have hset : gauge.memberSet = .ok ⟨"Gauge", .i64, gauge.distinctMembers⟩ :=
    fits_gauge.memberSet_eq (by decide)
  have hne : gauge.distinctMembers ≠ [] := Enumeration.distinctMembers_ne_nil (by decide)
  obtain ⟨hgenerate, hplans, -⟩ := generate_isBalanced
  obtain ⟨g, hg, -, hbalanced⟩ := hgenerate gauge _ ⟨"\x7b\x7d_of", 3, (8, 8)⟩ hset
  refine ⟨⟨_, hset⟩, ⟨g, hg, hbalanced⟩, (hplans _).2 fun hnil => ?_⟩
  exact runs_ne_nil hne (DisplayPlan.multiRun.inj hnil)

end EnumNames
