import EnumNames.Proofs.Code.FunctionName
import EnumNames.Proofs.Display.Code
import EnumNames.Proofs.Lookup.Code
import EnumNames.Proofs.Generated.File

/-!
# Names of the texts and arrays of a file

A name that is made for a type ends in the word of an item, which a number or the mark of a lookup
may follow. Neither has an underscore in it, so the type name can be read off the end of the name,
whatever it is: the names that are made for different types are different.

* `IsNameOf.unique`: a name is made for one type only.
* `nodup_dataNames`: the texts and arrays of a file have different names.
* `dataName_notMem`: names without an underscore in front are not among them.
-/

namespace EnumNames

open Code Target Text

variable {o : Options} {types : List Enumeration} {typeName typeName' name : String}

/-! ## Names made for a type -/

/-- The words for the items of a type. -/
def itemWords : List (List Char) :=
  ["name".toList, "index".toList, "value".toList]

/-- What follows a type name in the names that are made for it. -/
inductive IsPart : List Char → Prop
  | word {x : List Char} (hx : x ∈ itemWords) : IsPart x
  | suffixed {x z : List Char} (hx : x ∈ itemWords) (hz : '_' ∉ z) (hne : z ∉ itemWords) :
      IsPart (x ++ '_' :: z)

/-- Texts are cut in the same way at their first underscore. -/
theorem underscore_append_inj {a b x y : List Char} (hx : '_' ∉ x) (hy : '_' ∉ y)
    (h : x ++ '_' :: a = y ++ '_' :: b) : x = y ∧ a = b := by
  induction x generalizing y with
  | nil =>
    cases y with
    | nil => exact ⟨rfl, (List.cons.inj h).2⟩
    | cons d y => exact absurd ((List.cons.inj h).1 ▸ List.mem_cons_self) hy
  | cons c x ih =>
    rw [List.mem_cons, not_or] at hx
    cases y with
    | nil => exact absurd (List.cons.inj h).1.symm hx.1
    | cons d y =>
      rw [List.mem_cons, not_or] at hy
      obtain ⟨rfl, htail⟩ := List.cons.inj h
      obtain ⟨rfl, rfl⟩ := ih hx.2 hy.2 htail
      exact ⟨rfl, rfl⟩

/-- Texts are cut in the same way at their last underscore. -/
theorem append_underscore_inj {a b x y : List Char} (hx : '_' ∉ x) (hy : '_' ∉ y)
    (h : a ++ '_' :: x = b ++ '_' :: y) : a = b ∧ x = y := by
  have hreverse := congrArg List.reverse h
  simp only [List.reverse_append, List.reverse_cons, List.append_assoc, List.singleton_append]
    at hreverse
  have hx' : '_' ∉ x.reverse := by simpa using hx
  have hy' : '_' ∉ y.reverse := by simpa using hy
  obtain ⟨hxy, hab⟩ := underscore_append_inj hx' hy' hreverse
  exact ⟨List.reverse_injective hab, List.reverse_injective hxy⟩

/-- The words for items hold no underscore. -/
theorem underscore_notMem_itemWords : ∀ x ∈ itemWords, '_' ∉ x := by
  decide

/-- The type name can be read off. -/
theorem IsPart.typeName_inj {a b p p' : List Char} (hp : IsPart p) (hp' : IsPart p')
    (h : a ++ '_' :: p = b ++ '_' :: p') : a = b := by
  cases hp with
  | word hx =>
    have hxmark := underscore_notMem_itemWords _ hx
    cases hp' with
    | word hy => exact (append_underscore_inj hxmark (underscore_notMem_itemWords _ hy) h).1
    | @suffixed y z hy hz hne =>
      rw [← List.cons_append, ← List.append_assoc] at h
      obtain ⟨-, rfl⟩ := append_underscore_inj hxmark hz h
      exact absurd hx hne
  | @suffixed x z hx hz hne =>
    rw [← List.cons_append, ← List.append_assoc] at h
    cases hp' with
    | word hy =>
      obtain ⟨-, rfl⟩ := append_underscore_inj hz (underscore_notMem_itemWords _ hy) h
      exact absurd hy hne
    | @suffixed y z' hy hz' hne' =>
      rw [← List.cons_append, ← List.append_assoc] at h
      obtain ⟨h, -⟩ := append_underscore_inj hz hz' h
      have hxmark := underscore_notMem_itemWords _ hx
      exact (append_underscore_inj hxmark (underscore_notMem_itemWords _ hy) h).1

/-- The names that are made for a type. -/
def IsNameOf (typeName name : String) : Prop :=
  ∃ p, IsPart p ∧ name.toList = '_' :: (typeName.toList ++ '_' :: p)

/-- A name is made for one type only. -/
theorem IsNameOf.unique (h : IsNameOf typeName name) (h' : IsNameOf typeName' name) :
    typeName = typeName' := by
  obtain ⟨p, hp, hname⟩ := h
  obtain ⟨p', hp', hname'⟩ := h'
  rw [hname] at hname'
  exact String.toList_inj.1 (hp.typeName_inj hp' (List.cons.inj hname').2)

theorem toList_itemName (typeName item suffix : String) :
    (itemName typeName item suffix).toList
      = '_' :: (typeName.toList ++ '_' :: (item.toList ++ suffix.toList)) := by
  simp [itemName]

section Parts

variable {item : String}

theorem isNameOf_plain (h : item.toList ∈ itemWords) : IsNameOf typeName (itemName typeName item "") := by
  refine ⟨item.toList, .word h, ?_⟩
  rw [toList_itemName]
  simp

/-- The names of the tables of a run are made for the type. -/
theorem isNameOf_run (h : item.toList ∈ itemWords) (k : Nat) :
    IsNameOf typeName (itemName typeName item (DisplayPlan.runSuffix k)) := by
  have hdigits : ∀ c ∈ Nat.toDigits 10 k, c.isDigit := mem_toDigits_isDigit
  have hmark : '_' ∉ Nat.toDigits 10 k := fun hc => absurd (hdigits _ hc) (by decide)
  have hword : Nat.toDigits 10 k ∉ itemWords := by
    have hletter : ∀ x ∈ itemWords, x.head?.any (!·.isDigit) := by decide
    intro hmem
    obtain ⟨c, hc, hfalse⟩ := (Option.any_eq_true _ _).1 (hletter _ hmem)
    exact absurd (hdigits c (List.mem_of_mem_head? hc)) (by simpa using hfalse)
  refine ⟨_, .suffixed h hmark hword, ?_⟩
  rw [toList_itemName]
  simp [DisplayPlan.runSuffix]

/-- The names of the arrays of a lookup plan are made for the type. -/
theorem isNameOf_lookup (h : item.toList ∈ itemWords) :
    IsNameOf typeName (itemName typeName item "_lookup") := by
  have hmark : '_' ∉ "lookup".toList := by decide
  have hword : "lookup".toList ∉ itemWords := by decide
  refine ⟨_, .suffixed h hmark hword, ?_⟩
  rw [toList_itemName]
  simp

end Parts

/-! ## Texts and arrays of a type -/

/-- The last letter tells the names for lookups from the others. -/
def isLookupName (name : String) : Bool :=
  name.toList.getLast? == some 'p'

/-- The last letter of a name is that of its ending. -/
theorem isLookupName_itemName {item suffix : String} (h : item.toList ∈ itemWords) :
    isLookupName (itemName typeName item suffix)
      = ((item.toList ++ suffix.toList).getLast? == some 'p') := by
  have hne : item.toList ++ suffix.toList ≠ [] := by
    intro hnil
    rw [(List.append_eq_nil_iff.1 hnil).1] at h
    exact absurd h (by decide)
  have hwhole : ((itemName typeName item suffix).toList).getLast?
      = (item.toList ++ suffix.toList).getLast? := by
    obtain ⟨c, cs, hcs⟩ := List.exists_cons_of_ne_nil hne
    rw [toList_itemName, hcs]
    simp [List.getLast?_cons]
  rw [isLookupName, hwhole]

namespace DisplayPlan

/-- The names of the tables of runs end in digits. -/
theorem isLookupName_run {item : String} (h : item.toList ∈ itemWords) (k : Nat) :
    isLookupName (itemName typeName item (runSuffix k)) = false := by
  have hsuffix : (runSuffix k).toList = '_' :: Nat.toDigits 10 k := by simp [runSuffix]
  have hne : Nat.toDigits 10 k ≠ [] := Nat.toDigits_ne_nil
  have hlast : (item.toList ++ (runSuffix k).toList).getLast? = (Nat.toDigits 10 k).getLast? := by
    obtain ⟨c, cs, hcs⟩ := List.exists_cons_of_ne_nil hne
    rw [hsuffix, hcs]
    simp [List.getLast?_cons]
  have hdigit := mem_toDigits_isDigit (n := k) _ (List.getLast_mem hne)
  rw [isLookupName_itemName h, hlast, List.getLast?_eq_some_getLast hne]
  have hp : (Nat.toDigits 10 k).getLast hne ≠ 'p' := by
    intro heq
    rw [heq] at hdigit
    exact absurd hdigit (by decide)
  simpa using hp

/-- The texts and arrays of a display plan are named for their type, and not like those for lookups. -/
theorem isNameOf_dataName {plan : DisplayPlan} {item : Item} (hitem : item ∈ plan.items typeName)
    (hname : name ∈ item.dataName?) : IsNameOf typeName name ∧ isLookupName name = false := by
  have hwords : "name".toList ∈ itemWords ∧ "index".toList ∈ itemWords := by decide
  have hplain : ∀ word ∈ ["name", "index"], IsNameOf typeName (itemName typeName word "")
      ∧ isLookupName (itemName typeName word "") = false := by
    intro word hword
    have hmem : word.toList ∈ itemWords := by
      rcases List.mem_pair.1 hword with rfl | rfl
      · exact hwords.1
      · exact hwords.2
    refine ⟨isNameOf_plain hmem, ?_⟩
    rw [isLookupName_itemName hmem]
    rcases List.mem_pair.1 hword with rfl | rfl <;> decide
  -- only blobs and offsets are data; all other items name none
  have hblob : ∀ n text, name ∈ (Item.blob n text).dataName? → n = name :=
    fun _ _ h => Option.some.inj h
  have hoffsets : ∀ n width values, name ∈ (Item.offsets n width values).dataName? → n = name :=
    fun _ _ _ h => Option.some.inj h
  cases plan with
  | oneRun run =>
    simp only [items, Item.ofTable, List.mem_append, List.mem_cons, List.not_mem_nil, or_false]
      at hitem
    rcases hitem with (rfl | rfl | rfl) | rfl | rfl
    · exact absurd hname (by simp [Item.dataName?])
    · exact hblob _ _ hname ▸ hplain "name" (by simp)
    · exact hoffsets _ _ _ hname ▸ hplain "index" (by simp)
    · exact absurd hname (by simp [Item.dataName?])
    · exact absurd hname (by simp [Item.dataName?])
  | multiRun runs =>
    rcases mem_multiRun_items hitem with rfl | hitem | rfl
    · exact absurd hname (by simp [Item.dataName?])
    · obtain ⟨p, -, rfl | ⟨-, rfl⟩⟩ := mem_multiRunTables.1 hitem
      · exact hblob _ _ hname ▸ ⟨isNameOf_run hwords.1 p.2, isLookupName_run hwords.1 p.2⟩
      · exact hoffsets _ _ _ hname ▸ ⟨isNameOf_run hwords.2 p.2, isLookupName_run hwords.2 p.2⟩
    · exact absurd hname (by simp [Item.dataName?])
  | sparseMap members =>
    simp only [items, List.mem_cons, List.not_mem_nil, or_false] at hitem
    rcases hitem with rfl | rfl | rfl | rfl
    · exact absurd hname (by simp [Item.dataName?])
    · exact hblob _ _ hname ▸ hplain "name" (by simp)
    · exact absurd hname (by simp [Item.dataName?])
    · exact absurd hname (by simp [Item.dataName?])

/-- The texts and arrays of a display plan have different names. -/
theorem nodup_dataNames (plan : DisplayPlan) (typeName : String) :
    ((plan.items typeName).filterMap Item.dataName?).Nodup := by
  cases plan with
  | oneRun run =>
    show [itemName typeName "name" "", itemName typeName "index" ""].Nodup
    simp [itemName_inj]
  | multiRun runs =>
    have hnames : ((multiRun runs).items typeName).filterMap Item.dataName?
        = (multiRunTables typeName runs).filterMap Item.dataName? := by
      simp [items, List.filterMap_append, List.filterMap_cons, Item.dataName?]
    rw [hnames]
    exact nodup_multiRunTables typeName runs
  | sparseMap members => exact List.pairwise_singleton _ _

end DisplayPlan

namespace LookupPlan

variable {functionName : String}

/-- The arrays of a lookup plan have names for lookups. -/
theorem isNameOf_dataName {plan : LookupPlan} {item : Item}
    (hitem : item ∈ plan.items typeName functionName) (hname : name ∈ item.dataName?) :
    IsNameOf typeName name ∧ isLookupName name := by
  have hnames : ∀ word ∈ ["name", "index", "value"],
      IsNameOf typeName (itemName typeName word "_lookup")
        ∧ isLookupName (itemName typeName word "_lookup") := by
    intro word hword
    have hmem : word.toList ∈ itemWords := List.mem_map_of_mem hword
    refine ⟨isNameOf_lookup hmem, ?_⟩
    rw [isLookupName_itemName hmem]
    simp
  have hnone : ∀ body, name ∉ (Item.lookup functionName typeName body).dataName? :=
    fun _ => by simp [Item.dataName?]
  cases plan with
  | hashedSwitch entries | directMap entries =>
    rcases List.mem_pair.1 hitem with rfl | rfl
    · exact absurd hname (by simp [Item.dataName?])
    · exact absurd hname (hnone _)
  | binarySearch entries =>
    simp only [items, Item.ofTable, List.mem_append, List.mem_cons, List.not_mem_nil, or_false]
      at hitem
    rcases hitem with (rfl | rfl | rfl) | rfl | rfl | rfl
    · exact absurd hname (by simp [Item.dataName?])
    · exact Option.some.inj hname ▸ hnames "name" (by simp)
    · exact Option.some.inj hname ▸ hnames "index" (by simp)
    · exact Option.some.inj hname ▸ hnames "value" (by simp)
    · exact absurd hname (by simp [Item.dataName?])
    · exact absurd hname (hnone _)

/-- The arrays of a lookup plan have different names. -/
theorem nodup_dataNames (plan : LookupPlan) (typeName functionName : String) :
    ((plan.items typeName functionName).filterMap Item.dataName?).Nodup := by
  cases plan with
  | hashedSwitch entries | directMap entries => exact List.nodup_nil
  | binarySearch entries =>
    show [itemName typeName "name" "_lookup", itemName typeName "index" "_lookup",
      itemName typeName "value" "_lookup"].Nodup
    simp [itemName_inj]

end LookupPlan

namespace GeneratedType

variable {g : GeneratedType}

theorem isNameOf_lookupItems {item : Item} (hitem : item ∈ g.lookupItems)
    (hname : name ∈ item.dataName?) : IsNameOf g.typeName name ∧ isLookupName name := by
  unfold lookupItems at hitem
  split at hitem
  · exact LookupPlan.isNameOf_dataName hitem hname
  · exact absurd hitem (by simp)

/-- All texts and arrays of a type have names that are made for it. -/
theorem isNameOf_dataName {item : Item} (hitem : item ∈ g.items) (hname : name ∈ item.dataName?) :
    IsNameOf g.typeName name := by
  rw [items, List.cons_append, List.mem_cons, List.mem_append] at hitem
  rcases hitem with rfl | hitem | hitem
  · exact absurd hname (by simp [Guard.item, Item.dataName?])
  · exact (DisplayPlan.isNameOf_dataName hitem hname).1
  · exact (isNameOf_lookupItems hitem hname).1

/-- The texts and arrays of a type have different names. -/
theorem nodup_dataNames (g : GeneratedType) : (g.items.filterMap Item.dataName?).Nodup := by
  have hitems : g.items.filterMap Item.dataName?
      = (g.display.items g.typeName).filterMap Item.dataName?
        ++ g.lookupItems.filterMap Item.dataName? := by
    rw [items, List.cons_append, List.filterMap_cons_none rfl, List.filterMap_append]
  have hlookup : (g.lookupItems.filterMap Item.dataName?).Nodup := by
    unfold lookupItems
    split
    · exact LookupPlan.nodup_dataNames _ _ _
    · exact List.nodup_nil
  rw [hitems, List.nodup_append]
  refine ⟨DisplayPlan.nodup_dataNames _ _, hlookup, ?_⟩
  rintro name hname _ hname' rfl
  obtain ⟨item, hitem, hname⟩ := List.mem_filterMap.1 hname
  obtain ⟨item', hitem', hname'⟩ := List.mem_filterMap.1 hname'
  have hdisplay := (DisplayPlan.isNameOf_dataName hitem hname).2
  rw [(isNameOf_lookupItems hitem' hname').2] at hdisplay
  exact absurd hdisplay (by simp)

end GeneratedType

/-! ## Texts and arrays of a file -/

/-- The code of a type, if there is some. -/
def Outcome.generated? : Outcome → Option GeneratedType
  | generated g => some g
  | failed _ | repeated _ => none

/-- The code of the types that have some. -/
def generatedFrom (o : Options) (seen : List String) (types : List Enumeration) :
    List GeneratedType :=
  (outcomesFrom o seen types).filterMap Outcome.generated?

/-- The items of a file are those of the types that give code. -/
theorem fileItems_eq (o : Options) (types : List Enumeration) :
    fileItems o types = (generatedFrom o [] types).flatMap GeneratedType.items := by
  have hitems : ∀ outcomes : List Outcome, outcomes.flatMap Outcome.items
      = (outcomes.filterMap Outcome.generated?).flatMap GeneratedType.items := by
    intro outcomes
    induction outcomes with
    | nil => rfl
    | cons outcome outcomes ih =>
      rw [List.flatMap_cons, ih]
      cases outcome <;> rfl
  exact hitems _

/-- Code for a type is generated from the first type of its name. -/
theorem generatedFrom_cons (o : Options) (types : List Enumeration) (seen : List String)
    (e : Enumeration) :
    (∃ g, g.typeName = e.name ∧ e.name ∉ seen ∧ e.generate o = .ok g
        ∧ generatedFrom o seen (e :: types) = g :: generatedFrom o (e.name :: seen) types)
      ∨ generatedFrom o seen (e :: types) = generatedFrom o (e.name :: seen) types := by
  rw [generatedFrom, outcomesFrom]
  split
  · exact .inr rfl
  · next hseen =>
    unfold Outcome.ofType
    split
    · next g hg =>
      refine .inl ⟨g, ?_, hseen, hg, rfl⟩
      rw [(Enumeration.eq_of_generate hg).2]
    · exact .inr rfl

/-- What is generated has a name that was not seen before. -/
theorem typeName_notMem_seen {seen : List String} :
    ∀ g ∈ generatedFrom o seen types, g.typeName ∉ seen := by
  induction types generalizing seen with
  | nil => exact fun g hg => absurd hg (by simp [generatedFrom, outcomesFrom])
  | cons e types ih =>
    have hlater : ∀ g ∈ generatedFrom o (e.name :: seen) types, g.typeName ∉ seen :=
      fun g hg hmem => ih g hg (List.mem_cons_of_mem _ hmem)
    intro g hg
    rcases generatedFrom_cons o types seen e with
      ⟨g', hname, hseen, -, heq⟩ | heq
    · rw [heq, List.mem_cons] at hg
      rcases hg with rfl | hg
      · rwa [hname]
      · exact hlater g hg
    · rw [heq] at hg
      exact hlater g hg

/-- No two types with code have the same name. -/
theorem pairwise_generatedFrom {seen : List String} :
    (generatedFrom o seen types).Pairwise fun g g' => g.typeName ≠ g'.typeName := by
  induction types generalizing seen with
  | nil => exact List.Pairwise.nil
  | cons e types ih =>
    rcases generatedFrom_cons o types seen e with
      ⟨g, hname, -, -, heq⟩ | heq
    · rw [heq, List.pairwise_cons]
      refine ⟨fun g' hg' hsame => ?_, ih⟩
      have hnew := typeName_notMem_seen g' hg'
      rw [← hsame, hname] at hnew
      exact hnew List.mem_cons_self
    · rw [heq]
      exact ih

/-- The texts and arrays of a file have different names, whatever its types are called. -/
theorem nodup_dataNames (o : Options) (types : List Enumeration) :
    ((fileItems o types).filterMap Item.dataName?).Nodup := by
  rw [fileItems_eq, List.filterMap_flatMap]
  refine List.pairwise_flatMap.2 ⟨fun g _ => g.nodup_dataNames, ?_⟩
  refine pairwise_generatedFrom.imp fun htype name hname name' hname' hsame => ?_
  obtain ⟨item, hitem, hname⟩ := List.mem_filterMap.1 hname
  obtain ⟨item', hitem', hname'⟩ := List.mem_filterMap.1 hname'
  have hof := GeneratedType.isNameOf_dataName hitem hname
  rw [hsame] at hof
  exact htype (hof.unique (GeneratedType.isNameOf_dataName hitem' hname'))

/-- Names that do not begin with an underscore keep apart from those of all texts and arrays. -/
theorem dataName_notMem {types : List Enumeration} (h : name.toList.head? ≠ some '_') :
    name ∉ (fileItems o types).filterMap Item.dataName? := by
  rw [fileItems_eq, List.filterMap_flatMap]
  intro hmem
  obtain ⟨g, -, hname⟩ := List.mem_flatMap.1 hmem
  obtain ⟨item, hitem, hname⟩ := List.mem_filterMap.1 hname
  obtain ⟨p, -, hchars⟩ := GeneratedType.isNameOf_dataName hitem hname
  rw [hchars] at h
  exact h rfl

end EnumNames
