import EnumNames.Generated.Type
import EnumNames.Proofs.Layout

/-!
# The depth of emitted code

Each block of emitted code is closed where it was opened, and blocks are at most four deep, however
many constants there are.

* `Layout.StaysWithin`: steps in a row stay within a depth.
* `GeneratedType.staysWithin_items`: the code of a type is at most four blocks deep.
-/

namespace EnumNames

namespace Layout

/-- From depth `d` on, the steps stay within depth `top`, and end at depth `e` or less. -/
def StaysWithin (top : Nat) : Nat → List Step → Nat → Prop
  | d, [], e => d ≤ top ∧ d ≤ e
  | d, step :: steps, e => d ≤ top ∧ StaysWithin top (step.depthAfter d) steps e

variable {α : Type} {top d d' e e' : Nat} {steps steps' : List Step}

theorem StaysWithin.nil (h : d ≤ top) : StaysWithin top d [] d :=
  ⟨h, Nat.le_refl d⟩

/-- From a greater depth, a step leads to a greater one. -/
theorem Step.depthAfter_mono (step : Step) (h : d ≤ d') :
    step.depthAfter d ≤ step.depthAfter d' := by
  cases step <;> simp only [Step.depthAfter] <;> omega

/-- Steps begin within the depth that they stay in. -/
theorem StaysWithin.le_top (h : StaysWithin top d steps e) : d ≤ top := by
  cases steps with
  | nil => exact h.1
  | cons step steps => exact h.1

/-- What stays within a depth does so from a lesser depth on. -/
theorem StaysWithin.of_le (h : StaysWithin top d' steps e) (hle : d ≤ d') :
    StaysWithin top d steps e := by
  induction steps generalizing d d' with
  | nil => exact ⟨Nat.le_trans hle h.1, Nat.le_trans hle h.2⟩
  | cons step steps ih => exact ⟨Nat.le_trans hle h.1, ih h.2 (step.depthAfter_mono hle)⟩

/-- Two rows of steps that stay within a depth do so in a row. -/
theorem StaysWithin.append (h : StaysWithin top d steps e)
    (h' : StaysWithin top e steps' e') : StaysWithin top d (steps ++ steps') e' := by
  induction steps generalizing d with
  | nil => exact h'.of_le h.2
  | cons step steps ih => exact ⟨h.1, ih h.2⟩

theorem StaysWithin.line (h : StaysWithin top d steps e) (s : String) :
    StaysWithin top d (.line s :: steps) e :=
  ⟨h.le_top, h⟩

theorem staysWithin_line (h : d ≤ top) (s : String) : StaysWithin top d [.line s] d :=
  .line (.nil h) s

theorem staysWithin_map_line (h : d ≤ top) (f : α → String) (xs : List α) :
    StaysWithin top d (xs.map fun x => .line (f x)) d := by
  induction xs with
  | nil => exact .nil h
  | cons x xs ih => exact .line ih (f x)

theorem staysWithin_flatMap {f : α → List Step} {xs : List α} (h : d ≤ top)
    (hf : ∀ x ∈ xs, StaysWithin top d (f x) d) :
    StaysWithin top d (xs.flatMap f) d := by
  induction xs with
  | nil => exact .nil h
  | cons x xs ih =>
    rw [List.flatMap_cons]
    exact (hf x List.mem_cons_self).append (ih fun y hy => hf y (List.mem_cons_of_mem x hy))

/-- A block between braces. -/
theorem StaysWithin.block (h : StaysWithin top (d + 1) steps (d + 1)) (head : String) :
    StaysWithin top d ([.openBlock head] ++ steps ++ [.close]) d := by
  have hle := h.le_top
  have hopen : StaysWithin top d [.openBlock head] (d + 1) :=
    ⟨by omega, h.le_top, Nat.le_refl _⟩
  have hclose : StaysWithin top (d + 1) [.close] d := by
    refine ⟨h.le_top, ?_, ?_⟩ <;> simp only [Step.depthAfter] <;> omega
  exact (hopen.append h).append hclose

end Layout

namespace Code

open Layout

variable {top d : Nat}

theorem staysWithin_blockSteps {body : List Stmt} (h : d ≤ top)
    (hbody : ∀ s ∈ body, StaysWithin top d s.steps d) :
    StaysWithin top d (blockSteps body) d := by
  induction body with
  | nil =>
    rw [blockSteps]
    exact .nil h
  | cons s body ih =>
    rw [blockSteps]
    exact (hbody s List.mem_cons_self).append (ih fun t ht => hbody t (List.mem_cons_of_mem s ht))

/-! ## Statements -/

theorem staysWithin_when {body : List Stmt} (c : Expr)
    (h : StaysWithin top (d + 1) (blockSteps body) (d + 1)) :
    StaysWithin top d (Stmt.when c body).steps d := by
  rw [Stmt.steps]
  exact h.block _

/-- The branches of a choice are closed by the one that comes next. -/
theorem staysWithin_branchSteps {branches : List (Expr × List Stmt)} (x : String)
    (isFirst : Bool) (hdepth : d + 1 ≤ top)
    (h : ∀ b ∈ branches, StaysWithin top (d + 1) (blockSteps b.2) (d + 1)) :
    StaysWithin top (if isFirst then d else d + 1) (branchSteps x isFirst branches)
      (d + 1) := by
  induction branches generalizing isFirst with
  | nil =>
    rw [branchSteps]
    exact (StaysWithin.nil hdepth).of_le (by split <;> omega)
  | cons b branches ih =>
    have hrest := ih false fun b' hb' => h b' (List.mem_cons_of_mem b hb')
    have hbody := (h b List.mem_cons_self).append hrest
    rw [branchSteps]
    cases isFirst with
    | true => exact ⟨Nat.le_of_succ_le hdepth, hbody⟩
    | false => exact ⟨hdepth, hbody⟩

theorem staysWithin_choose {branches : List (Expr × List Stmt)} {other : List Stmt} (x : String)
    (hdepth : d + 1 ≤ top)
    (h : ∀ b ∈ branches, StaysWithin top (d + 1) (blockSteps b.2) (d + 1))
    (hother : StaysWithin top (d + 1) (blockSteps other) (d + 1)) :
    StaysWithin top d (Stmt.choose x branches other).steps d := by
  have hlast : StaysWithin top (d + 1) [.closeWith "\x7d;"] d :=
    ⟨hdepth, Nat.le_of_succ_le hdepth, Nat.le_refl d⟩
  have helse : StaysWithin top (d + 1) [.reopen "\x7d else \x7b"] (d + 1) :=
    ⟨hdepth, hdepth, Nat.le_refl _⟩
  rw [Stmt.steps]
  exact (((staysWithin_branchSteps x true hdepth h).append helse).append hother).append hlast

theorem staysWithin_select (x : String) (subject : Expr) (arms : List (Int × Expr)) (y : String)
    (other : Expr) (hdepth : d + 1 ≤ top) :
    StaysWithin top d (Stmt.select x subject arms y other).steps d := by
  have hopen : StaysWithin top d [.openBlock ("let " ++ x ++ " = match " ++ subject.text)]
      (d + 1) := ⟨Nat.le_of_succ_le hdepth, hdepth, Nat.le_refl _⟩
  have hlast : StaysWithin top (d + 1)
      [.line (y ++ " => return " ++ other.text ++ ","), .closeWith "\x7d;"] d :=
    ⟨hdepth, hdepth, Nat.le_of_succ_le hdepth, Nat.le_refl d⟩
  rw [Stmt.steps]
  exact (hopen.append (staysWithin_map_line hdepth _ arms)).append hlast

theorem staysWithin_armSteps {arms : List (UInt32 × List Stmt)} (hdepth : d ≤ top)
    (h : ∀ arm ∈ arms, StaysWithin top (d + 1) (blockSteps arm.2) (d + 1)) :
    StaysWithin top d (armSteps arms) d := by
  induction arms with
  | nil =>
    rw [armSteps]
    exact .nil hdepth
  | cons arm arms ih =>
    rw [armSteps]
    exact ((h arm List.mem_cons_self).block _).append
      (ih fun arm' harm' => h arm' (List.mem_cons_of_mem arm harm'))

/-- A match with blocks is two deeper in them. -/
theorem staysWithin_switch {arms : List (UInt32 × List Stmt)} (x : String)
    (hdepth : d + 1 ≤ top)
    (h : ∀ arm ∈ arms, StaysWithin top (d + 2) (blockSteps arm.2) (d + 2)) :
    StaysWithin top d (Stmt.switch x arms).steps d := by
  have harms := (staysWithin_armSteps hdepth h).append
    (staysWithin_line hdepth "_ => \x7b\x7d")
  rw [Stmt.steps]
  have hblock := harms.block ("match " ++ x)
  rwa [← List.append_assoc, List.append_assoc _ _ [Step.close]] at hblock

/-- A map is three deeper where its entries stand. -/
theorem staysWithin_mapLookup (typeName : String) (entries : List (String × String)) (x : String)
    (hdepth : d + 3 ≤ top) :
    StaysWithin top d (Stmt.mapLookup typeName entries x).steps d := by
  rw [Stmt.steps]
  refine .append (e := d + 3) (.append (e := d + 3) ?_ (staysWithin_map_line hdepth _ entries)) ?_
  all_goals
    simp only [StaysWithin, Step.depthAfter]
    omega

/-! ## Items -/

theorem staysWithin_guard (assertions : List Assertion) (htop : 1 ≤ top) :
    StaysWithin top 0 (Item.guard assertions).steps 0 := by
  rw [Item.steps]
  refine .append (e := 1) (.append (e := 1) ?_ (staysWithin_map_line htop _ assertions)) ?_
  all_goals
    simp only [StaysWithin, Step.depthAfter]
    omega

theorem staysWithin_constants (name typeName : String) (references : List String)
    (htop : 1 ≤ top) : StaysWithin top 0 (Item.constants name typeName references).steps 0 := by
  rw [Item.steps]
  refine .append (e := 1) (.append (e := 1) ?_ (staysWithin_map_line htop _ references)) ?_
  all_goals
    simp only [StaysWithin, Step.depthAfter, globalAttribute]
    omega

/-- A function that shows a value is two deep in its body. -/
theorem staysWithin_display {body : List Stmt} (typeName : String)
    (h : StaysWithin top 2 (blockSteps body) 2) :
    StaysWithin top 0 (Item.display typeName body).steps 0 := by
  have hinner := h.block (d := 1)
    "fn fmt(&self, f: &mut ::core::fmt::Formatter<'_>) -> ::core::fmt::Result"
  have houter := hinner.block (d := 0) ("impl ::core::fmt::Display for " ++ typeName)
  rw [Item.steps]
  simpa only [List.append_assoc, List.cons_append, List.nil_append] using houter

/-- A function that finds a value is one deep in its body. -/
theorem staysWithin_lookup {body : List Stmt} (name typeName : String)
    (h : StaysWithin top 1 (blockSteps body) 1) :
    StaysWithin top 0 (Item.lookup name typeName body).steps 0 := by
  have hblock := h.block (d := 0)
    ("pub fn " ++ name ++ "(name: &str) -> Option<" ++ typeName ++ ">")
  exact hblock.line _

theorem staysWithin_blank : StaysWithin top 0 Item.blank.steps 0 :=
  ⟨Nat.zero_le _, .nil (Nat.zero_le _)⟩

theorem staysWithin_blob (name s : String) : StaysWithin top 0 (Item.blob name s).steps 0 :=
  (staysWithin_line (Nat.zero_le _) _).line _

theorem staysWithin_offsets (name : String) (width : IndexWidth) (values : List Nat) :
    StaysWithin top 0 (Item.offsets name width values).steps 0 :=
  (staysWithin_line (Nat.zero_le _) _).line _

end Code

open Layout Code

/-! ## Display plans -/

namespace DisplayPlan

theorem staysWithin_oneRunBody (typeName name index : String) (low : Int) :
    StaysWithin 4 2 (blockSteps (oneRunBody typeName name index low)) 2 := by
  simp [oneRunBody, blockSteps, Stmt.steps, StaysWithin, Step.depthAfter]

theorem staysWithin_runBlock (typeName : String) (run : Run) (k : Nat) :
    StaysWithin 4 3 (blockSteps (runBlock typeName run k)) 3 := by
  rw [runBlock]
  split <;> simp [blockSteps, Stmt.steps, StaysWithin, Step.depthAfter]

theorem staysWithin_multiRunBody (typeName : String) (runs : List Run) :
    StaysWithin 4 2 (blockSteps (multiRunBody typeName runs)) 2 := by
  refine staysWithin_blockSteps (by decide) fun s hs => ?_
  simp only [multiRunBody, List.mem_cons, List.not_mem_nil, or_false] at hs
  rcases hs with rfl | rfl | rfl
  · exact staysWithin_line (by decide) _
  · refine staysWithin_choose "name" (by decide) (fun branch hbranch => ?_) ?_
    · obtain ⟨⟨run, k⟩, -, rfl⟩ := List.mem_map.1 hbranch
      exact staysWithin_runBlock typeName run k
    · exact staysWithin_line (by decide) _
  · exact staysWithin_line (by decide) _

theorem staysWithin_sparseBody (typeName name : String) (members : List Member) :
    StaysWithin 4 2 (blockSteps (sparseBody typeName name members)) 2 := by
  refine staysWithin_blockSteps (by decide) fun s hs => ?_
  simp only [sparseBody, List.mem_cons, List.not_mem_nil, or_false] at hs
  rcases hs with rfl | rfl
  · exact staysWithin_select _ _ _ _ _ (by decide)
  · exact staysWithin_line (by decide) _

/-- No item of a display plan is deeper than four. -/
theorem staysWithin_items (plan : DisplayPlan) (typeName : String) :
    ∀ item ∈ plan.items typeName, StaysWithin 4 0 item.steps 0 := by
  cases plan with
  | oneRun run =>
    simp only [items, Item.ofTable, List.cons_append, List.nil_append, List.forall_mem_cons]
    exact ⟨staysWithin_blank, staysWithin_blob _ _, staysWithin_offsets _ _ _, staysWithin_blank,
      staysWithin_display _ (staysWithin_oneRunBody _ _ _ _), nofun⟩
  | multiRun runs =>
    simp only [items, List.cons_append, List.nil_append, List.forall_mem_cons,
      List.forall_mem_append]
    refine ⟨staysWithin_blank, fun item hitem => ?_, staysWithin_blank,
      staysWithin_display _ (staysWithin_multiRunBody _ _), nofun⟩
    rcases List.mem_append.1 hitem with hitem | hitem
    · obtain ⟨_, -, rfl⟩ := List.mem_map.1 hitem
      exact staysWithin_blob _ _
    · obtain ⟨⟨run, k⟩, -, hitem⟩ := List.mem_flatMap.1 hitem
      simp only at hitem
      split at hitem
      · contradiction
      · obtain rfl := List.mem_singleton.1 hitem
        exact staysWithin_offsets _ _ _
  | sparseMap members =>
    simp only [items, List.forall_mem_cons]
    exact ⟨staysWithin_blank, staysWithin_blob _ _, staysWithin_blank,
      staysWithin_display _ (staysWithin_sparseBody _ _ _), nofun⟩

end DisplayPlan

/-! ## Lookup plans -/

namespace LookupPlan

theorem staysWithin_hashedBody (entries : List (UInt32 × LookupEntry)) :
    StaysWithin 4 1 (blockSteps (hashedBody entries)) 1 := by
  refine staysWithin_blockSteps (by decide) fun s hs => ?_
  simp only [hashedBody, List.mem_cons, List.not_mem_nil, or_false] at hs
  rcases hs with rfl | rfl | rfl | rfl | rfl | rfl
  · exact staysWithin_line (by decide) _
  · exact staysWithin_line (by decide) _
  · simp [blockSteps, Stmt.steps, StaysWithin, Step.depthAfter]
  · simp [Stmt.steps, StaysWithin, Step.depthAfter]
  · refine staysWithin_switch "h" (by decide) fun arm harm => ?_
    obtain ⟨⟨_, names⟩, -, rfl⟩ := List.mem_map.1 harm
    -- in the arm of a hash, one block for each of its names
    refine staysWithin_blockSteps (by decide) fun s hs => ?_
    obtain ⟨e, -, rfl⟩ := List.mem_map.1 hs
    refine staysWithin_when _ ?_
    simp [blockSteps, found, Stmt.steps, StaysWithin, Step.depthAfter]
  · exact staysWithin_line (by decide) _

theorem staysWithin_searchBody (names index values : String) :
    StaysWithin 4 1 (blockSteps (searchBody names index values)) 1 := by
  simp [searchBody, blockSteps, Stmt.steps, orderArm, StaysWithin, Step.depthAfter]

/-- No item of a lookup plan is deeper than four. -/
theorem staysWithin_items (plan : LookupPlan) (typeName functionName : String) :
    ∀ item ∈ plan.items typeName functionName, StaysWithin 4 0 item.steps 0 := by
  cases plan with
  | hashedSwitch entries =>
    simp only [items, List.forall_mem_cons]
    exact ⟨staysWithin_blank, staysWithin_lookup _ _ (staysWithin_hashedBody _), nofun⟩
  | binarySearch entries =>
    simp only [items, Item.ofTable, List.cons_append, List.nil_append, List.forall_mem_cons]
    exact ⟨staysWithin_blank, staysWithin_blob _ _, staysWithin_offsets _ _ _,
      staysWithin_constants _ _ _ (by decide), staysWithin_blank,
      staysWithin_lookup _ _ (staysWithin_searchBody _ _ _), nofun⟩
  | directMap entries =>
    simp only [items, List.forall_mem_cons]
    refine ⟨staysWithin_blank, staysWithin_lookup _ _ ?_, nofun⟩
    refine staysWithin_blockSteps (by decide) fun s hs => ?_
    obtain rfl := List.mem_singleton.1 hs
    exact staysWithin_mapLookup _ _ _ (by decide)

end LookupPlan

/-! ## Types -/

/-- The code of a type is at most four blocks deep. -/
theorem GeneratedType.staysWithin_items (g : GeneratedType) :
    StaysWithin 4 0 (itemsSteps g.items) 0 := by
  refine staysWithin_flatMap (Nat.zero_le _) fun item hitem => ?_
  rcases List.mem_append.1 hitem with hitem | hitem
  · rcases List.mem_cons.1 hitem with rfl | hitem
    · exact staysWithin_guard _ (by decide)
    · exact DisplayPlan.staysWithin_items _ _ item hitem
  · rw [lookupItems] at hitem
    split at hitem
    · exact LookupPlan.staysWithin_items _ _ _ item hitem
    · contradiction

end EnumNames
