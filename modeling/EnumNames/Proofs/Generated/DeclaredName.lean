import EnumNames.Proofs.Generated.FunctionName
import EnumNames.Proofs.Generated.ItemName
import EnumNames.Proofs.Target.Filled

/-!
# Names that a file declares

The texts and arrays of a file have different names, whatever the options are. Lookup functions are
named by the template: the type name belongs to their identifiers, and then they are different, or it
stands in a comment, and then they are all the same. A template may name a function like a text, too.

* `declaredNames`: the identifiers of the items of a file.
* `HoldsTypeName`: the type names stand in the identifiers of lookup functions.
* `nodup_declaredNames`: which of the identifiers are different.
-/

namespace EnumNames

open Code Target Text

variable {o : Options} {header : Header} {types : List Enumeration} {name : String}

/-! ## Identifiers -/

/-- The identifier that a lookup function is declared by. -/
def functionIdentifier (name : String) : String :=
  unmarked (identifierOf name)

/-- The identifier of a function that is not part of an `impl`. -/
def functionName? : Item → Option String
  | .lookup name _ _ => some (functionIdentifier name)
  | _ => none

/-- The identifier that an item is declared by. The guard has none. -/
def declaredName? (item : Item) : Option String :=
  item.dataName?.or (functionName? item)

/-- The identifiers of the texts and arrays of a file. -/
def dataNames (o : Options) (types : List Enumeration) : List String :=
  (fileItems o types).filterMap Item.dataName?

/-- The identifiers of the lookup functions of a file. -/
def functionNames (o : Options) (types : List Enumeration) : List String :=
  (fileItems o types).filterMap functionName?

/-- The identifiers of the items of a file. -/
def declaredNames (o : Options) (types : List Enumeration) : List String :=
  (fileItems o types).filterMap declaredName?

/-- No word without a mark holds the sign of raw identifiers. -/
theorem number_notMem {cs : List Char} (h : isBareWord cs) : '#' ∉ cs := fun hmem =>
  absurd (isIdentContinue_of_isBareWord h _ hmem) (by simp [isIdentContinue_number])

/-- The mark of raw identifiers is all that tells identifiers of the same name apart. -/
theorem unmarked_inj {w w' : String} (hw : IsSpelled w) (hw' : IsSpelled w')
    (hmark : '#' ∈ w.toList ↔ '#' ∈ w'.toList) (h : unmarked w = unmarked w') : w = w' := by
  have hbare : ∀ {name : String}, isBareWord name.toList → unmarked name = name := by
    intro name hname
    unfold unmarked
    split
    · next heq => exact absurd (by simp [heq]) (number_notMem hname)
    · rfl
  have hraw : ∀ name, unmarked (String.ofList ('r' :: '#' :: name)) = String.ofList name := by
    intro name
    rw [unmarked, String.toList_ofList]
    rfl
  cases hw with
  | bare hname =>
    cases hw' with
    | bare hname' => rwa [hbare hname, hbare hname'] at h
    | raw hname' => exact absurd (hmark.2 (by simp)) (number_notMem hname)
  | raw hname =>
    cases hw' with
    | bare hname' => exact absurd (hmark.1 (by simp)) (number_notMem hname')
    | raw hname' =>
      rw [hraw, hraw] at h
      rw [String.ofList_injective h]

/-! ## Functions of a file -/

/-- What is generated comes from one of the types. -/
theorem exists_of_mem_generatedFrom {seen : List String} :
    ∀ g ∈ generatedFrom o seen types, ∃ e ∈ types, e.generate o = .ok g := by
  induction types generalizing seen with
  | nil => exact fun g hg => absurd hg (by simp [generatedFrom, outcomesFrom])
  | cons e types ih =>
    intro g hg
    rcases generatedFrom_cons o types seen e with
      ⟨g', -, -, hgenerate, heq⟩ | heq
    · rw [heq, List.mem_cons] at hg
      rcases hg with rfl | hg
      · exact ⟨e, List.mem_cons_self, hgenerate⟩
      · obtain ⟨e', he', h⟩ := ih g hg
        exact ⟨e', List.mem_cons_of_mem _ he', h⟩
    · rw [heq] at hg
      obtain ⟨e', he', h⟩ := ih g hg
      exact ⟨e', List.mem_cons_of_mem _ he', h⟩

/-- A function that shows a value is part of an `impl` and has no name. -/
theorem functionName?_displayItems {plan : DisplayPlan} {typeName : String} :
    ∀ item ∈ plan.items typeName, functionName? item = none := by
  intro item hitem
  cases plan with
  | oneRun run =>
    simp only [DisplayPlan.items, Item.ofTable, List.mem_append, List.mem_cons, List.not_mem_nil,
      or_false] at hitem
    rcases hitem with (rfl | rfl | rfl) | rfl | rfl <;> rfl
  | multiRun runs =>
    rcases DisplayPlan.mem_multiRun_items hitem with rfl | hitem | rfl
    · rfl
    · obtain ⟨p, -, rfl | ⟨-, rfl⟩⟩ := DisplayPlan.mem_multiRunTables.1 hitem <;> rfl
    · rfl
  | sparseMap members =>
    simp only [DisplayPlan.items, List.mem_cons, List.not_mem_nil, or_false] at hitem
    rcases hitem with rfl | rfl | rfl | rfl <;> rfl

/-- Texts and arrays are no functions. -/
theorem functionName?_arrays {plan : LookupPlan} {typeName : String} :
    ∀ item ∈ plan.arrays typeName, functionName? item = none := by
  intro item hitem
  cases plan with
  | hashedSwitch entries | directMap entries =>
    rw [List.mem_singleton.1 hitem]
    rfl
  | binarySearch entries =>
    simp only [LookupPlan.arrays, Item.ofTable, List.mem_append, List.mem_cons, List.not_mem_nil,
      or_false] at hitem
    rcases hitem with (rfl | rfl | rfl) | rfl | rfl <;> rfl

/-- A type has one function at most, its lookup function. -/
theorem filterMap_functionName? (g : GeneratedType) : g.items.filterMap functionName?
    = g.lookup.toList.map fun lookup => functionIdentifier lookup.functionName := by
  have hdisplay : (g.display.items g.typeName).filterMap functionName? = [] :=
    List.filterMap_eq_nil_iff.2 functionName?_displayItems
  rw [GeneratedType.items, List.cons_append, List.filterMap_cons_none rfl, List.filterMap_append,
    hdisplay, List.nil_append, GeneratedType.lookupItems]
  cases g.lookup with
  | none => rfl
  | some lookup =>
    have harrays : (lookup.plan.arrays g.typeName).filterMap functionName? = [] :=
      List.filterMap_eq_nil_iff.2 functionName?_arrays
    dsimp only
    rw [LookupPlan.items_eq, List.filterMap_append, harrays]
    rfl

/-- The functions of a type are named by the template. -/
theorem exists_lookupName?_of_mem {g : GeneratedType} (hg : g ∈ generatedFrom o [] types)
    (hname : name ∈ g.items.filterMap functionName?) :
    ∃ e ∈ types, e.name = g.typeName ∧ ∃ text ∈ o.lookupName? e.name, name = functionIdentifier text := by
  obtain ⟨e, he, hgenerate⟩ := exists_of_mem_generatedFrom g hg
  obtain ⟨-, rfl⟩ := Enumeration.eq_of_generate hgenerate
  rw [filterMap_functionName?, List.mem_map] at hname
  obtain ⟨lookup, hlookup, rfl⟩ := hname
  obtain ⟨text, htext, rfl⟩ := Option.map_eq_some_iff.1 (Option.mem_toList.1 hlookup)
  exact ⟨e, he, rfl, text, htext, rfl⟩

/-- The functions of a file are named by the template. -/
theorem exists_of_mem_functionNames (h : name ∈ functionNames o types) :
    ∃ e ∈ types, ∃ text ∈ o.lookupName? e.name, name = functionIdentifier text := by
  rw [functionNames, fileItems_eq, List.filterMap_flatMap, List.mem_flatMap] at h
  obtain ⟨g, hg, hname⟩ := h
  obtain ⟨e, he, -, htext⟩ := exists_lookupName?_of_mem hg hname
  exact ⟨e, he, htext⟩

/-! ## Type names in identifiers -/

/-- The identifiers of lookup functions are the type names with the same text before them and the
same text after them. -/
def HoldsTypeName (o : Options) (types : List Enumeration) : Prop :=
  ∃ before after, ∀ e ∈ types, ∀ name ∈ o.lookupName? e.name,
    identifierOf name = before ++ e.name ++ after

/-- An accepted name holds an identifier. -/
theorem identifier?_of_validateType {e : Enumeration} (h : o.validateType e.name = .ok ())
    (hname : name ∈ o.lookupName? e.name) : identifier? name = some (identifierOf name) := by
  have hident := isIdentifier_iff.1 (isIdentifier_of_validateType h hname)
  obtain ⟨w, hw⟩ := Option.isSome_iff_exists.1 hident
  rw [identifierOf, hw]
  rfl

/-- An order mark in front of a word is one in front of what the word stands in. -/
theorem dropOrderMark_filled {start word after : List Char} (h : isBareWord word) :
    dropOrderMark (start ++ word ++ after) = dropOrderMark start ++ word ++ after := by
  obtain _ | ⟨c, start⟩ := start
  · exact dropOrderMark_word h after
  · show dropOrderMark (c :: (start ++ word ++ after)) = dropOrderMark (c :: start) ++ word ++ after
    unfold dropOrderMark
    dsimp only
    split <;> rfl

/-- The names of types, as characters. -/
def IsTypeName (types : List Enumeration) (word : List Char) : Prop :=
  ∃ e ∈ types, e.name.toList = word

/-- The identifier that the template yields for a name. -/
def Options.identifierFor (o : Options) (word : List Char) : String :=
  identifierOf (fillTemplate o.lookupTemplate (String.ofList word))

/-- The identifier of a function depends on the template and the type name alone. -/
theorem identifierOf_lookupName? {typeName : String} (h : name ∈ o.lookupName? typeName) :
    identifierOf name = o.identifierFor typeName.toList := by
  rw [Option.mem_def, Options.lookupName?, Option.ite_none_right_eq_some] at h
  rw [Options.identifierFor, String.ofList_toList, ← Option.some.inj h.2]

/-- A valid template has a place for the type name. -/
theorem exists_fillTemplate (hvalid : o.validate = .ok ()) (hlookup : o.hasLookup) :
    ∃ start after, ∀ typeName, (fillTemplate o.lookupTemplate typeName).toList
      = start ++ typeName.toList ++ after := by
  have hplace : (splitPlaceholder? o.lookupTemplate.toList).isSome := by
    unfold Options.validate at hvalid
    split at hvalid
    · exact absurd hvalid (by simp)
    split at hvalid
    · exact absurd hvalid (by simp)
    split at hvalid
    · exact absurd hvalid (by simp)
    · next hplace => simpa [hlookup, Option.isSome_iff_ne_none] using hplace
  obtain ⟨⟨start, after⟩, hsplit⟩ := Option.isSome_iff_exists.1 hplace
  refine ⟨start, after, fun typeName => ?_⟩
  rw [fillTemplate, hsplit]
  simp

/-- Accepted templates hold the type names in the identifiers, or they give the same identifier to
all types. -/
theorem holdsTypeName_or_eq (hvalid : o.validate = .ok ())
    (haccepted : ∀ e ∈ types, o.validateType e.name = .ok ())
    (hplain : ∀ e ∈ types, isPlainIdentifier e.name) :
    HoldsTypeName o types
      ∨ ∃ w, ∀ e ∈ types, ∀ name ∈ o.lookupName? e.name, identifierOf name = w := by
  by_cases hlookup : o.hasLookup
  case neg =>
    have hnone : ∀ typeName, o.lookupName? typeName = none := fun _ => if_neg hlookup
    exact .inr ⟨"", fun e _ name hname => absurd hname (by simp [hnone])⟩
  obtain ⟨start, after, hfill⟩ := exists_fillTemplate hvalid hlookup
  have hwords : ∀ word, IsTypeName types word → isBareWord word := by
    rintro _ ⟨e, he, rfl⟩
    exact Piece.isBareWord_of_isPlainIdentifier (hplain e he)
  have hscan : ∀ word, IsTypeName types word → scanFrom [] (dropOrderMark start ++ word ++ after)
      = some ([].reverse ++ [.word (o.identifierFor word)]) := by
    intro word hword
    obtain ⟨e, he, rfl⟩ := hword
    have hname : o.lookupName? e.name = some (fillTemplate o.lookupTemplate e.name) := if_pos hlookup
    have hident := scan?_of_identifier? (identifier?_of_validateType (haccepted e he) hname)
    rwa [hfill, dropOrderMark_filled (hwords _ ⟨e, he, rfl⟩), identifierOf_lookupName? hname]
      at hident
  rcases holdsOrIgnores_filled _ hwords hscan with ⟨left, right, hholds⟩ | ⟨w, hsame⟩
  · refine .inl ⟨String.ofList left, String.ofList right, fun e he name hname => ?_⟩
    rw [identifierOf_lookupName? hname, ← String.toList_inj, hholds _ ⟨e, he, rfl⟩]
    simp
  · refine .inr ⟨w, fun e he name hname => ?_⟩
    rw [identifierOf_lookupName? hname, hsame _ ⟨e, he, rfl⟩]

/-- Where the type names belong to the identifiers, the functions of different types have different
ones. -/
theorem nodup_functionNames (haccepted : ∀ e ∈ types, o.validateType e.name = .ok ())
    (hplain : ∀ e ∈ types, isPlainIdentifier e.name) (h : HoldsTypeName o types) :
    (functionNames o types).Nodup := by
  obtain ⟨before, after, hholds⟩ := h
  rw [functionNames, fileItems_eq, List.filterMap_flatMap]
  refine List.pairwise_flatMap.2 ⟨fun g _ => ?_, ?_⟩
  · rw [filterMap_functionName?]
    cases g.lookup with
    | none => exact List.nodup_nil
    | some lookup => exact List.pairwise_singleton _ _
  refine pairwise_generatedFrom.imp_of_mem fun {g g'} hg hg' htype name hname name' hname' hsame => ?_
  obtain ⟨e, he, hof, text, htext, rfl⟩ := exists_lookupName?_of_mem hg hname
  obtain ⟨e', he', hof', text', htext', rfl⟩ := exists_lookupName?_of_mem hg' hname'
  have hword := isSpelled_of_identifier? (identifier?_of_validateType (haccepted e he) htext)
  have hword' := isSpelled_of_identifier? (identifier?_of_validateType (haccepted e' he') htext')
  have hnumber := number_notMem (Piece.isBareWord_of_isPlainIdentifier (hplain e he))
  have hnumber' := number_notMem (Piece.isBareWord_of_isPlainIdentifier (hplain e' he'))
  rw [functionIdentifier, functionIdentifier, hholds e he text htext, hholds e' he' text' htext']
    at hsame
  rw [hholds e he text htext] at hword
  rw [hholds e' he' text' htext'] at hword'
  have hwhole := unmarked_inj hword hword' (by simp [hnumber, hnumber']) hsame
  have hnames : e.name = e'.name :=
    (String.append_right_inj _).1 ((String.append_left_inj _).1 hwhole)
  exact htype (hof.symm.trans (hnames.trans hof'))

/-- The functions have different identifiers, or they all have the same one. -/
theorem nodup_functionNames_or_eq (hvalid : o.validate = .ok ())
    (haccepted : ∀ e ∈ types, o.validateType e.name = .ok ())
    (hplain : ∀ e ∈ types, isPlainIdentifier e.name) :
    (functionNames o types).Nodup ∨ ∃ w, ∀ name ∈ functionNames o types, name = w := by
  rcases holdsTypeName_or_eq hvalid haccepted hplain with hholds | ⟨w, hsame⟩
  · exact .inl (nodup_functionNames haccepted hplain hholds)
  · refine .inr ⟨unmarked w, fun name hname => ?_⟩
    obtain ⟨e, he, text, htext, rfl⟩ := exists_of_mem_functionNames hname
    rw [functionIdentifier, hsame e he text htext]

/-! ## All items -/

/-- Items have different identifiers if functions have, and no function is named like a text. -/
theorem nodup_declaredNames_of_apart (hfunctions : (functionNames o types).Nodup)
    (hapart : ∀ name ∈ functionNames o types, name ∉ dataNames o types) :
    (declaredNames o types).Nodup := by
  have hdata := List.pairwise_filterMap.1 (nodup_dataNames o types)
  have hfunctions := List.pairwise_filterMap.1 hfunctions
  refine List.pairwise_filterMap.2 ?_
  refine (hdata.and hfunctions).imp_of_mem ?_
  rintro a b ha hb ⟨hdata, hfunctions⟩ x hx y hy
  rw [declaredName?, Option.or_eq_some_iff] at hx hy
  have hmem : ∀ {f : Item → Option String} {item z}, item ∈ fileItems o types → f item = some z →
      z ∈ (fileItems o types).filterMap f :=
    fun hitem hz => List.mem_filterMap.2 ⟨_, hitem, hz⟩
  rcases hx with hx | ⟨-, hx⟩ <;> rcases hy with hy | ⟨-, hy⟩
  · exact hdata x hx y hy
  · rintro rfl
    exact hapart x (hmem hb hy) (hmem ha hx)
  · rintro rfl
    exact hapart x (hmem ha hx) (hmem hb hy)
  · exact hfunctions x hx y hy

/-- If the options are accepted for types with plain names, the texts and arrays of the file have
different identifiers. So have the lookup functions, or all of them have the same one. If they are
different, and none is named like a text or an array, all items have different identifiers. -/
theorem nodup_declaredNames {file : GeneratedFile}
    (h : GeneratedFile.generate o header types = .ok file)
    (hplain : ∀ e ∈ types, isPlainIdentifier e.name) :
    (dataNames o types).Nodup
      ∧ ((functionNames o types).Nodup ∨ ∃ w, ∀ name ∈ functionNames o types, name = w)
      ∧ ((functionNames o types).Nodup →
        (∀ name ∈ functionNames o types, name ∉ dataNames o types) → (declaredNames o types).Nodup) := by
  obtain ⟨hvalid, haccepted, -⟩ := generate_eq_ok_iff.1 h
  exact ⟨nodup_dataNames o types, nodup_functionNames_or_eq hvalid haccepted hplain,
    nodup_declaredNames_of_apart⟩

theorem functionIdentifier_of_isPlainIdentifier (h : isPlainIdentifier name) :
    functionIdentifier name = unmarked name := by
  rw [functionIdentifier, identifierOf_plainIdentifier h]

/-- A template that puts a word in front of the type name. -/
def findOptions : Options :=
  { lookupTemplate := "find_\x7b\x7d" }

/-- Two types with a template that holds their names. -/
theorem nodup_declaredNames_mixedTypes :
    (∃ file, GeneratedFile.generate findOptions {} mixedTypes = .ok file)
      ∧ (declaredNames findOptions mixedTypes).Nodup := by
  have hplain : ∀ e ∈ mixedTypes, isPlainIdentifier e.name := fun e he => (isPlain_mixedTypes e he).name
  have hnames : ∀ e ∈ mixedTypes, ∀ text ∈ findOptions.lookupName? e.name,
      isPlainIdentifier text ∧ (unmarked text).toList.head? ≠ some '_'
        ∧ text = "find_" ++ e.name ++ "" := by
    decide
  have haccepted : ∀ e ∈ mixedTypes, findOptions.validateType e.name = .ok () := fun e he =>
    validateType_of_isIdentifier fun text htext =>
      (isFunctionName_of_isPlainIdentifier (hnames e he text htext).1).isIdentifier
  have hholds : HoldsTypeName findOptions mixedTypes := by
    refine ⟨"find_", "", fun e he text htext => ?_⟩
    obtain ⟨hident, -, hname⟩ := hnames e he text htext
    rw [identifierOf_plainIdentifier hident, hname]
  have hgenerate : GeneratedFile.generate findOptions {} mixedTypes
      = .ok (.ofOutcomes {} (outcomes findOptions mixedTypes)) :=
    generate_eq_ok_iff.2 ⟨rfl, haccepted, rfl⟩
  obtain ⟨-, -, hall⟩ := nodup_declaredNames hgenerate hplain
  refine ⟨⟨_, hgenerate⟩, hall (nodup_functionNames haccepted hplain hholds) fun name hname => ?_⟩
  obtain ⟨e, he, text, htext, rfl⟩ := exists_of_mem_functionNames hname
  obtain ⟨hident, hhead, -⟩ := hnames e he text htext
  rw [functionIdentifier_of_isPlainIdentifier hident]
  exact dataName_notMem hhead

/-! ### Functions that are named alike -/

/-- A template that names functions like texts. -/
def textTemplate : Options :=
  { lookupTemplate := "_\x7b\x7d_name" }

/-- A template that leaves the type name to a comment. -/
def commentTemplate : Options :=
  { lookupTemplate := "find/*\x7b\x7d*/" }

/-- A type of one value. -/
def oneValue (typeName : String) : Enumeration :=
  ⟨typeName, "u8", [.ofInt false "A" "T::A" 0]⟩

theorem distinctMembers_oneValue (typeName : String) :
    (oneValue typeName).distinctMembers = [⟨0, .ofInt false "A" "T::A" 0⟩] := by
  rw [Enumeration.distinctMembers]
  simp [oneValue, Enumeration.declared, keepFirst, keepFirstAfter]

/-- A type of one value declares two texts and its function. -/
theorem generate_oneValue {typeName : String} (hthresholds : o.lookupThresholds = (500, 5000))
    (h : name ∈ o.lookupName? typeName) :
    ∃ g, (oneValue typeName).generate o = .ok g ∧ g.items.filterMap declaredName?
      = [itemName typeName "name" "", itemName typeName "index" "", functionIdentifier name] := by
  have hkind : (Kind.ofText? "u8").isSome := by decide
  obtain ⟨g, hg⟩ := exists_generate (e := oneValue typeName) hkind (List.cons_ne_nil _ _)
  refine ⟨g, hg, ?_⟩
  obtain ⟨-, rfl⟩ := Enumeration.eq_of_generate hg
  have hlookup : o.lookupName? (oneValue typeName).name = some name := h
  rw [distinctMembers_oneValue, hlookup, hthresholds]
  rfl

/-- Two types of one value. -/
def twoTypes : List Enumeration :=
  [oneValue "S", oneValue "T"]

/-- Two such types declare the same with their own names. -/
theorem declaredNames_twoTypes (name name' : String) (hthresholds : o.lookupThresholds = (500, 5000))
    (h : name ∈ o.lookupName? "S") (h' : name' ∈ o.lookupName? "T") :
    declaredNames o twoTypes = ["_S_name", "_S_index", functionIdentifier name,
      "_T_name", "_T_index", functionIdentifier name'] := by
  obtain ⟨g, hg, hnames⟩ := generate_oneValue hthresholds h
  obtain ⟨g', hg', hnames'⟩ := generate_oneValue hthresholds h'
  have hitems : fileItems o twoTypes = g.items ++ g'.items := by
    rw [fileItems, outcomes, twoTypes, outcomesFrom, if_neg (by simp), Outcome.ofType, hg, outcomesFrom,
      if_neg (by simp [oneValue]), Outcome.ofType, hg']
    simp [Outcome.items, outcomesFrom]
  rw [declaredNames, hitems, List.filterMap_append, hnames, hnames']
  rfl

/-- Options that accept the names accept two such types. -/
theorem generate_twoTypes {w w' name' : String} (hvalid : o.validate = .ok ())
    (h : o.lookupName? "S" = some name) (h' : o.lookupName? "T" = some name')
    (hw : identifier? name = some w) (hw' : identifier? name' = some w') :
    ∃ file, GeneratedFile.generate o {} twoTypes = .ok file := by
  refine ⟨_, generate_eq_ok_iff.2 ⟨hvalid, fun e he => ?_, rfl⟩⟩
  refine validateType_of_isIdentifier fun text htext => isIdentifier_iff.2 ?_
  rcases List.mem_pair.1 he with rfl | rfl
  · rw [Option.some.inj (htext.symm.trans h), hw]
    rfl
  · rw [Option.some.inj (htext.symm.trans h'), hw']
    rfl

/-- Names in a comment leave the identifier in front of it. -/
theorem identifier?_commented {name : String} {c : Char}
    (hname : name.toList = ['f', 'i', 'n', 'd', '/', '*', c, '*', '/']) (hc : c = 'S' ∨ c = 'T') :
    identifier? name = some "find" := by
  have hscan : scan? name = some [.word "find"] := by
    rw [scan?, hname]
    rcases hc with rfl | rfl
    all_goals
      show scanFrom [] ['f', 'i', 'n', 'd', '/', '*', _, '*', '/'] = _
      iterate 2 rw [scanFrom_element (rfl : element? _ = some (_, _))]
      rw [scanFrom]
      rfl
  rw [identifier?, hscan]

/-- Templates are accepted that name a function like a text, or functions of different types alike. -/
theorem declaredNames_twoTypes_not_nodup :
    ((∃ file, GeneratedFile.generate textTemplate {} twoTypes = .ok file)
        ∧ ¬ (declaredNames textTemplate twoTypes).Nodup)
      ∧ (∃ file, GeneratedFile.generate commentTemplate {} twoTypes = .ok file)
        ∧ ¬ (declaredNames commentTemplate twoTypes).Nodup := by
  have hplain : isPlainIdentifier "_S_name" ∧ isPlainIdentifier "_T_name" := by decide
  have hfind : identifier? "find/*S*/" = some "find" := identifier?_commented (by decide) (.inl rfl)
  have hfind' : identifier? "find/*T*/" = some "find" := identifier?_commented (by decide) (.inr rfl)
  refine ⟨⟨?_, ?_⟩, ?_, ?_⟩
  · exact generate_twoTypes rfl rfl rfl (identifier?_plainIdentifier hplain.1)
      (identifier?_plainIdentifier hplain.2)
  · have hfunction : functionIdentifier "_S_name" = "_S_name" := by
      rw [functionIdentifier_of_isPlainIdentifier hplain.1]
      decide
    rw [declaredNames_twoTypes "_S_name" "_T_name" rfl rfl rfl, hfunction]
    simp
  · exact generate_twoTypes rfl rfl rfl hfind hfind'
  · have hfunctions : functionIdentifier "find/*S*/" = functionIdentifier "find/*T*/" := by
      rw [functionIdentifier, functionIdentifier, identifierOf, identifierOf, hfind, hfind']
      rfl
    rw [declaredNames_twoTypes "find/*S*/" "find/*T*/" rfl rfl rfl, hfunctions]
    simp

end EnumNames
