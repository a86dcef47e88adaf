import EnumNames.Proofs.Code.ReadText
import EnumNames.Proofs.Generated.Scope

/-!
# What emitted functions mean

The text that is written for a plan is read as code again, and this code answers what the plan
says: for every number of the kind the text shown for it, and for every text the constant that it
leads to.

* `Enumeration.Fits.show?_read?`: the text of a display plan.
* `LookupPlan.isCodeOf_select`: what the code of a lookup plan consists of.
* `LookupPlan.lookUp?_read?_select`: the text of a lookup plan, if the names of the type, the function
  and the constants keep apart from those that the text uses.
* `LookupPlan.lookUp?_read?_cell`: a constant that the text hides.
-/

namespace EnumNames

open Code Target Text

/-! ## Functions that show a value -/

/-- A plain identifier has no braces, which the template of a text would take for its own. -/
theorem brace_notMem_of_isPlainIdentifier {x : String} (h : isPlainIdentifier x) :
    '\x7b' ∉ x.toList ∧ '\x7d' ∉ x.toList := by
  have hall := List.all_eq_true.1 (all_isIdentContinue h)
  have hbraces : isIdentContinue '\x7b' = false ∧ isIdentContinue '\x7d' = false := by decide
  refine ⟨fun hopen => ?_, fun hclose => ?_⟩
  · exact absurd (hall _ hopen) (by simp [hbraces.1])
  · exact absurd (hall _ hclose) (by simp [hbraces.2])

namespace Enumeration

variable {e : Enumeration} {kind : Kind} {typeName : String}

/-- The text of a display plan is read as code that shows every number of the kind as the plan says,
whatever the shape of the plan. All its steps have results: no difference is too small for its type,
no conversion changes a number, and no index or slice is out of range. The array of offsets has one
element more than there are names, and a `usize` has to hold its length. -/
theorem Fits.show?_read? (h : e.Fits kind) (hne : e.constants ≠ [])
    (htype : isPlainIdentifier typeName)
    (hsize : NameTable.byteCount (e.constants.map Constant.name) < 0x100000000)
    (hlen : e.constants.length + 1 < 0x10000000000000000) (runThreshold : Nat) :
    ∃ set items, e.memberSet = .ok set
      ∧ read? (itemsText ((DisplayPlan.select set.members runThreshold).items typeName))
        = some items
      ∧ ∀ v, kind.contains v → show? items typeName kind v
          = some ((DisplayPlan.select set.members runThreshold).text typeName v) := by
  have hreadable :=
    DisplayPlan.isReadable_items htype (distinctMembers_ne_nil hne) runThreshold
  obtain ⟨hopen, hclose⟩ := brace_notMem_of_isPlainIdentifier htype
  refine ⟨_, _, h.memberSet_eq hne, read?_itemsText hreadable, fun v hv => ?_⟩
  exact show?_declared (h.show?_distinctMembers hsize hlen runThreshold hopen hclose hv)

/-- A number between the least value and all others. -/
theorem show?_read?_gauge : ∃ set items, gauge.memberSet = .ok set
    ∧ read? (itemsText ((DisplayPlan.select set.members 2).items "Gauge")) = some items
    ∧ show? items "Gauge" .i64 (-2)
      = some ((DisplayPlan.select set.members 2).text "Gauge" (-2)) := by
  obtain ⟨set, items, hset, hread, hshow⟩ :=
    fits_gauge.show?_read? (by decide) (by decide : isPlainIdentifier "Gauge") (by decide)
      (by decide) 2
  exact ⟨set, items, hset, hread, hshow (-2) (by decide)⟩

end Enumeration

/-! ## Functions that look a name up -/

namespace LookupPlan

/-- Arms for some entries: no hash has two arms, every entry is tested once, and in the arm of its
own hash. -/
structure AreArmsOf (arms : List (UInt32 × List LookupEntry)) (entries : List LookupEntry) :
    Prop where
  nodup : (arms.map Prod.fst).Nodup
  ne_nil : ∀ arm ∈ arms, arm.2 ≠ []
  hash_eq : ∀ arm ∈ arms, ∀ e ∈ arm.2, e.hash = arm.1
  perm : (arms.flatMap Prod.snd).Perm entries

/-- A blob with offsets, and constants beside it, in the order of some entries. -/
structure AreColumnsOf (table : NameTable) (references : List String) (entries : List LookupEntry) :
    Prop where
  indexes : table.Indexes (entries.map LookupEntry.name)
  get?_eq : ∀ i, table.get? i = entries[i]?.map LookupEntry.name
  references_eq : references = entries.map LookupEntry.reference
  increasing : entries.Pairwise fun a b => compare a.name b.name = .lt

/-- What the items of a plan consist of. A hashed name is looked for in the arm of its hash, which a
loop computes; a search by halving goes through columns in the order of names; a map has no key
twice. -/
def IsCodeOf (plan : LookupPlan) (typeName functionName : String) (items : List Item) : Prop :=
  match plan with
  | hashedSwitch hashes => ∃ hashLoop arms,
    items = [.lookup functionName typeName (hashLoop
        ++ [.switch "h" (arms.map fun (h, es) => (h, hashBlock es)), .result .none])]
      ∧ (∀ f text, runStmts f hashLoop [⟨"name", false, .text text⟩]
          = some (.next (hashEnv text (Digest.fnv1a text))))
      ∧ AreArmsOf arms (hashes.map Prod.snd)
  | binarySearch entries =>
    let names := itemName typeName "name" "_lookup"
    let index := itemName typeName "index" "_lookup"
    let values := itemName typeName "value" "_lookup"
    ∃ table references,
      items = [.blob names table.blob, .offsets index table.width table.offsets,
          .constants values typeName references,
          .lookup functionName typeName (searchBody names index values)]
        ∧ AreColumnsOf table references entries
  | directMap entries => ∃ pairs,
    items = [.lookup functionName typeName [.mapLookup typeName pairs "name"]]
      ∧ pairs = entries.map (fun e => (e.name, e.reference)) ∧ (pairs.map Prod.fst).Nodup

variable {members : List Member}

/-- The arms of the hashes of some entries. -/
theorem areArmsOf_hashArms (entries : List LookupEntry) :
    AreArmsOf (hashArms (hashed entries)) ((hashed entries).map Prod.snd) := by
  have hpairwise := pairwise_hashArms (pairwise_hashed entries)
  refine ⟨?_, ne_nil_of_mem_hashArms, fun arm harm e he => ?_, ?_⟩
  · exact List.pairwise_map.2 (hpairwise.imp fun hlt => UInt32.ne_of_lt hlt)
  · obtain ⟨e', -, heq⟩ := mem_hashed.1 (mem_of_mem_hashArms harm he)
    obtain ⟨hhash, rfl⟩ := Prod.mk.inj heq
    exact hhash
  · have hall := congrArg (List.map Prod.snd) (flatMap_hashArms (hashed entries))
    rw [List.map_flatMap] at hall
    rw [← hall]
    refine List.Perm.of_eq (List.flatMap_congr fun arm _ => ?_)
    rw [List.map_map]
    exact (List.map_id arm.2).symm

/-- The arrays of a search by halving are columns of its entries. -/
theorem areColumnsOf_table (members : List Member) :
    AreColumnsOf (table (distinctNames members))
      ((distinctNames members).map LookupEntry.reference) (distinctNames members) :=
  ⟨NameTable.indexes_ofNames _, getElem?_table _, rfl, pairwise_distinctNames members⟩

/-- The statements before the arms compute the hash. -/
theorem runStmts_hashLoop (f : Frame) (text : String) :
    runStmts f [.bindVar "h" .u32 (.int Digest.fnvOffset.toNat),
        .eachByte "b" "name" [.mix "h" (.cast (.var "b") .u32),
          .assign "h" (.wrappingMul "h" Digest.fnvPrime.toNat)]] [⟨"name", false, .text text⟩]
      = some (.next (hashEnv text (Digest.fnv1a text))) := by
  simp only [runStmts, run?_hashInit, run?_hashLoop]

/-- What the items of a plan declare. -/
theorem isCodeOf_select (members : List Member) (thresholds : Nat × Nat)
    (typeName functionName : String) :
    (select members thresholds).IsCodeOf typeName (identifierOf functionName)
      (((select members thresholds).items typeName functionName).flatMap Item.declared) := by
  rw [select]
  split
  · exact ⟨_, _, rfl, runStmts_hashLoop, areArmsOf_hashArms _⟩
  · split
    · exact ⟨_, _, rfl, areColumnsOf_table members⟩
    · refine ⟨_, rfl, rfl, ?_⟩
      rw [List.map_map]
      exact nodup_distinctNames members

/-- The items of a plan hold one function only. -/
theorem name_eq_of_lookup_mem_items {plan : LookupPlan} {typeName functionName : String}
    (name type : String) (body : List Stmt)
    (h : Item.lookup name type body ∈ plan.items typeName functionName) : name = functionName := by
  rw [items_eq, List.mem_append, List.mem_singleton] at h
  rcases h with h | h
  · cases plan <;> simp [arrays, Item.ofTable] at h
  · exact (Item.lookup.inj h).1

/-- The text of a lookup plan is read as code that is what the plan asks for, and that finds for every
text the constant of the entry that the plan finds. The names are pasted into the text as they are:
the type has to be called by an identifier, the function by a text that stands for one, and the
constants by paths that still lead to them in the function. A text whose arrays had not the declared
lengths would not be read at all. -/
theorem lookUp?_read?_select {typeName functionName : String} {constants : List String}
    (hsize : NameTable.byteCount (members.map Member.name) < 0x100000000)
    (hpaths : ∀ m ∈ members, isPath m.constant.reference)
    (hconstants : ∀ m ∈ members, m.constant.reference ∈ constants)
    (htype : isPlainIdentifier typeName) (hfunction : IsFunctionName functionName)
    (thresholds : Nat × Nat)
    (hapart : (select members thresholds).NamesApart typeName functionName constants) :
    let plan := select members thresholds
    ∃ code, read? (itemsText (plan.items typeName functionName)) = some code
      ∧ plan.IsCodeOf typeName (identifierOf functionName) code
      ∧ ∀ text, lookUp? constants code (identifierOf functionName) typeName text
          = some ((plan.find? text).map LookupEntry.reference) := by
  have hvisible : ∀ m ∈ members, m.constant.reference
      ∉ (select members thresholds).localNames ++ (select members thresholds).cellNames := by
    intro m hm hmem
    have hfree := hapart.constants _ (hconstants m hm)
    simp only [List.mem_append, not_or] at hmem hfree
    exact hmem.elim hfree.1.1.1 hfree.2
  obtain ⟨hproper, body, hbody, hrun⟩ :=
    answer?_select hsize hconstants thresholds hvisible typeName functionName
  refine ⟨_, read?_itemsText (isReadable_items htype hfunction hpaths thresholds),
    isCodeOf_select members thresholds typeName functionName, fun text => ?_⟩
  exact lookUp?_declared name_eq_of_lookup_mem_items hproper hapart.areApart_declared hbody
    (hrun text)

/-- Two constants have the name that is looked up, which leads to the one declared first. -/
theorem lookUp?_read?_gauge :
    ∃ code, read? (itemsText ((select gauge.declared (0, 8)).items "Gauge" "find")) = some code
      ∧ (select gauge.declared (0, 8)).IsCodeOf "Gauge" "find" code
      ∧ lookUp? (gauge.declared.map (·.constant.reference)) code "find" "Gauge" "Most"
          = some (some "Gauge::MOST") := by
  have hname : isPlainIdentifier "find" := by decide
  have hsize : NameTable.byteCount (gauge.declared.map Member.name) < 0x100000000 := by decide
  have hconstants : ∀ m ∈ gauge.declared,
      m.constant.reference ∈ gauge.declared.map (·.constant.reference) := by decide
  have hapart : (select gauge.declared (0, 8)).NamesApart "Gauge" "find"
      (gauge.declared.map (·.constant.reference)) := by
    refine ⟨?_, ?_, ?_⟩
    · decide
    · rw [functionIdentifier_of_isPlainIdentifier hname]
      decide
    · decide
  obtain ⟨code, hread, hcode, hlookup⟩ :=
    lookUp?_read?_select hsize (by decide) hconstants (by decide : isPlainIdentifier "Gauge")
      (isFunctionName_of_isPlainIdentifier hname) (0, 8) hapart
  have hfound := hlookup "Most"
  rw [identifierOf_plainIdentifier hname] at hcode hfound
  refine ⟨code, hread, hcode, ?_⟩
  rw [hfound, find?_select]
  cases hfind : (distinctNames gauge.declared).find? (·.name == "Most") with
  | none =>
    have hnone := find?_distinctNames_eq_none.1 hfind
    exact absurd rfl (hnone ⟨0, .ofInt true "Most" "Gauge::MOST" 9223372036854775807⟩ (by decide))
  | some x =>
    obtain ⟨m, hm, rfl, hmost, hleast⟩ := find?_distinctNames_eq_some hfind
    have hfirst := hleast ⟨0, .ofInt true "Most" "Gauge::MOST" 9223372036854775807⟩ (by decide) rfl
    have hall : ∀ m ∈ gauge.declared, m.position ≤ 0 → m.constant.reference = "Gauge::MOST" := by
      decide
    exact congrArg (fun reference => some (some reference)) (hall m hm hfirst)

/-- A constant with the name of the cell that the map is kept in. -/
def cellMember : Member :=
  ⟨0, .ofInt true "A" "LOOKUP" 1⟩

/-- The text of a map with this constant is read, but in the function its name leads to the cell, and
the code has no meaning. -/
theorem lookUp?_read?_cell :
    ∃ code, read? (itemsText ((select [cellMember] (0, 0)).items "Gauge" "find")) = some code
      ∧ ((select [cellMember] (0, 0)).find? "A").map LookupEntry.reference = some "LOOKUP"
      ∧ lookUp? ["LOOKUP"] code "find" "Gauge" "A" = none := by
  have hname : isPlainIdentifier "find" := by decide
  have hentries : distinctNames [cellMember] = [⟨"A", "LOOKUP", 1, 0⟩] := by
    rw [distinctNames, List.map_singleton, List.mergeSort_singleton]
    rfl
  have hplan : select [cellMember] (0, 0) = directMap [⟨"A", "LOOKUP", 1, 0⟩] := by
    rw [select, hentries]
    rfl
  have hreadable := isReadable_items (by decide : isPlainIdentifier "Gauge")
    (isFunctionName_of_isPlainIdentifier hname)
    (by decide : ∀ m ∈ [cellMember], isPath m.constant.reference) (0, 0)
  refine ⟨_, read?_itemsText hreadable, ?_, ?_⟩
  · rw [hplan]
    rfl
  · have hcode : ((directMap [⟨"A", "LOOKUP", 1, 0⟩]).items "Gauge" "find").flatMap Item.declared
        = [.lookup (identifierOf "find") "Gauge"
          [.mapLookup "Gauge" [("A", "LOOKUP")] "name"]] := rfl
    rw [hplan, hcode, identifierOf_plainIdentifier hname]
    rfl

end LookupPlan

end EnumNames
