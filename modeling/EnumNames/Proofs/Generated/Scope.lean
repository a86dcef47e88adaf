import EnumNames.Proofs.Code.ReadText
import EnumNames.Proofs.Generated.DeclaredName

/-!
# Names in scope of a lookup function

The items of a lookup plan introduce a few names: the variables of the function, the cell of the map,
the arrays, and the function itself. A type and constants with other names keep them where the items
stand.

* `LookupPlan.NamesApart`: the names that a type, its function and the constants may have.
* `LookupPlan.NamesApart.areApart_declared`: with such names, the items can stand in the module of
  the type.
-/

namespace EnumNames

open Code

namespace Code

/-! ## Variables -/

/-- Comments and empty lines introduce no variables. -/
theorem blockVariables_codeOf (body : List Stmt) :
    blockVariables (codeOf body) = blockVariables body := by
  induction body with
  | nil => rfl
  | cons s body ih =>
    cases hcode : s.isCode with
    | true => rw [codeOf_cons_of_isCode hcode, blockVariables, blockVariables, ih]
    | false =>
      have hdrop : codeOf (s :: body) = codeOf body :=
        List.filter_cons_of_neg (Bool.not_eq_true _ ▸ hcode)
      have hnone : s.variables = [] := by
        cases s with
        | comment s => rw [Stmt.variables]
        | blank => rw [Stmt.variables]
        | _ => exact absurd hcode (by simp [Stmt.isCode])
      rw [hdrop, blockVariables, hnone, List.nil_append, ih]

/-- What is read has the variables of the items. -/
theorem variables_declared (items : List Item) :
    (items.flatMap Item.declared).flatMap Item.variables = items.flatMap Item.variables := by
  induction items with
  | nil => rfl
  | cons item items ih =>
    rw [List.flatMap_cons, List.flatMap_append, ih, List.flatMap_cons]
    cases item <;> simp [Item.declared, Item.variables, blockVariables_codeOf]

end Code

namespace LookupPlan

/-- The texts and arrays that stand beside the function of a plan. -/
def arrayNames (typeName : String) : LookupPlan → List String
  | binarySearch _ => ["name", "index", "value"].map (itemName typeName · "_lookup")
  | hashedSwitch _ | directMap _ => []

/-- The names that the code of a plan leaves to a type, its function and the constants. A path of
several names is none of the names that are excluded here. -/
structure NamesApart (plan : LookupPlan) (typeName functionName : String)
    (constants : List String) : Prop where
  type : typeName ∉ plan.localNames ++ languageValues ++ languageTypes
  function : functionIdentifier functionName
    ∉ typeName :: constants ++ languageValues ++ plan.arrayNames typeName
  constants : ∀ c ∈ constants,
    c ∉ plan.localNames ++ languageValues ++ plan.arrayNames typeName ++ plan.cellNames

variable {plan : LookupPlan} {typeName functionName : String} {constants : List String}

/-! ## Variables of a plan -/

/-- A test for a name introduces no variable. -/
theorem blockVariables_hashBlock (es : List LookupEntry) : blockVariables (hashBlock es) = [] := by
  induction es with
  | nil => rfl
  | cons e es ih =>
    rw [hashBlock, List.map_cons, blockVariables, ← hashBlock, ih]
    rfl

/-- The arms of the hashes introduce no variables. -/
theorem armVariables_hashBlocks (arms : List (UInt32 × List LookupEntry)) :
    armVariables (arms.map fun (h, es) => (h, hashBlock es)) = [] := by
  induction arms with
  | nil => rfl
  | cons arm arms ih =>
    obtain ⟨h, es⟩ := arm
    rw [List.map_cons, armVariables, blockVariables_hashBlock, ih]
    rfl

/-- The function of a plan has no other variables. -/
theorem mem_localNames (plan : LookupPlan) (typeName functionName : String) :
    ∀ x ∈ (Item.lookup functionName typeName (plan.body typeName)).variables,
      x ∈ plan.localNames := by
  intro x hx
  cases plan with
  | hashedSwitch entries =>
    have hnone := armVariables_hashBlocks (hashArms entries)
    simpa [Item.variables, body, hashedBody, blockVariables, Stmt.variables, hnone, localNames]
      using hx
  | binarySearch entries =>
    simpa [Item.variables, body, searchBody, blockVariables, Stmt.variables, localNames] using hx
  | directMap entries =>
    simpa [Item.variables, body, blockVariables, Stmt.variables, localNames] using hx

/-- The arrays of a plan hold no function. -/
theorem variables_arrays (plan : LookupPlan) (typeName : String) :
    (plan.arrays typeName).flatMap Item.variables = [] := by
  cases plan <;> rfl

/-- The items of a plan have no variables but those of its function. -/
theorem variables_items (plan : LookupPlan) (typeName functionName : String) :
    ∀ x ∈ (plan.items typeName functionName).flatMap Item.variables, x ∈ plan.localNames := by
  intro x hx
  rw [items_eq, List.flatMap_append, variables_arrays, List.nil_append, List.flatMap_singleton]
    at hx
  exact mem_localNames plan typeName functionName x hx

/-! ## Items of a plan -/

/-- What the items of a plan declare are its arrays and the function. -/
theorem filterMap_name?_declared (plan : LookupPlan) (typeName functionName : String) :
    ((plan.items typeName functionName).flatMap Item.declared).filterMap Item.name?
      = plan.arrayNames typeName ++ [identifierOf functionName] := by
  cases plan <;> rfl

/-- An array has a name that begins with an underscore, and it is longer than that of the type. -/
theorem of_mem_arrayNames {x : String} (h : x ∈ plan.arrayNames typeName) :
    unmarked x = x ∧ x ≠ typeName ∧ x ∉ languageValues := by
  have hitem : ∃ item, itemName typeName item "_lookup" = x := by
    cases plan with
    | hashedSwitch _ | directMap _ => exact absurd h List.not_mem_nil
    | binarySearch _ =>
      obtain ⟨item, -, hname⟩ := List.mem_map.1 h
      exact ⟨item, hname⟩
  obtain ⟨item, rfl⟩ := hitem
  have hchars := toList_itemName typeName item "_lookup"
  refine ⟨?_, fun heq => ?_, fun hmem => ?_⟩
  · rw [unmarked, hchars]
    rfl
  · have hlength := congrArg List.length hchars
    rw [heq] at hlength
    simp only [List.length_cons, List.length_append] at hlength
    omega
  · have hhead : ∀ y ∈ languageValues, y.toList.head? ≠ some '_' := by decide
    exact hhead _ hmem (by rw [hchars]; rfl)

/-- No array has a name with the mark of raw identifiers. -/
theorem map_unmarked_arrayNames (plan : LookupPlan) (typeName : String) :
    (plan.arrayNames typeName).map unmarked = plan.arrayNames typeName := by
  conv_rhs => rw [← List.map_id (plan.arrayNames typeName)]
  exact List.map_congr_left fun x hx => (of_mem_arrayNames hx).1

/-- The arrays of a plan have different names. -/
theorem nodup_arrayNames (plan : LookupPlan) (typeName : String) :
    (plan.arrayNames typeName).Nodup := by
  cases plan with
  | hashedSwitch _ | directMap _ => exact List.nodup_nil
  | binarySearch _ => simp [arrayNames, itemName_inj]

/-- With names that are apart, the items of a plan can stand in the module of the type. -/
theorem NamesApart.areApart_declared (h : plan.NamesApart typeName functionName constants) :
    areApart typeName constants
      ((plan.items typeName functionName).flatMap Item.declared) := by
  have htype := h.type
  have hfunction := h.function
  have hconstants := h.constants
  simp only [List.mem_append, List.mem_cons, not_or] at htype hfunction hconstants
  have hgiven : ∀ x, x ∈ plan.localNames ∨ x ∈ languageValues → x ∉ typeName :: constants := by
    rintro x hx hmem
    rcases List.mem_cons.1 hmem with rfl | hmem
    · exact hx.elim htype.1.1 htype.1.2
    · exact hx.elim (hconstants x hmem).1.1.1 (hconstants x hmem).1.1.2
  have hnames : (((plan.items typeName functionName).flatMap Item.declared).filterMap
      Item.name?).map unmarked = plan.arrayNames typeName ++ [functionIdentifier functionName] := by
    rw [filterMap_name?_declared, List.map_append, map_unmarked_arrayNames]
    rfl
  simp only [areApart, hnames, Bool.and_eq_true, List.all_eq_true, decide_eq_true_eq]
  refine ⟨⟨⟨fun x hx => ?_, fun x hx => ?_⟩, ?_⟩, htype.2⟩
  · rw [variables_declared, List.mem_append] at hx
    exact hgiven x (hx.imp_left (variables_items plan typeName functionName x))
  · rw [List.mem_append, List.mem_cons]
    rcases List.mem_append.1 hx with harray | hx
    · obtain ⟨-, hne, hvalue⟩ := of_mem_arrayNames harray
      rintro ((heq | hmem) | hmem)
      · exact hne heq
      · exact (hconstants x hmem).1.2 harray
      · exact hvalue hmem
    · rw [List.mem_singleton.1 hx]
      exact fun hmem => hmem.elim (fun hmem => hmem.elim hfunction.1.1.1 hfunction.1.1.2)
        hfunction.1.2
  · rw [List.nodup_append]
    refine ⟨nodup_arrayNames plan typeName, List.pairwise_singleton _ _, fun x hx y hy => ?_⟩
    rintro rfl
    exact hfunction.2 (List.mem_singleton.1 hy ▸ hx)

end LookupPlan

end EnumNames
