import EnumNames.Proofs.Code.Item
import EnumNames.Proofs.Display.Code
import EnumNames.Proofs.Generated.Type
import EnumNames.Proofs.Lookup.Code

/-!
# Items of a generated type

All items that are emitted for a type are readable, whatever its constants are called and however
they lie, as long as the type has a plain name, constants are referred to by paths, and the guard
compares them with their decimal literals.

* `isPlainIdentifier_itemName`: the names made for a type are plain identifiers.
* `DisplayPlan.isReadable_items` and `LookupPlan.isReadable_items`: the items of a plan.
* `Enumeration.IsPlain.isReadable_items`: all items of a type.
-/

namespace EnumNames

open Code Target Text

/-! ## Names of items -/

/-- All characters of a plain identifier may go on one. -/
theorem all_isIdentContinue {x : String} (h : isPlainIdentifier x) :
    x.toList.all isIdentContinue := by
  have hword := Piece.isBareWord_of_isPlainIdentifier h
  cases hx : x.toList with
  | nil => rfl
  | cons c cs =>
    rw [hx, isBareWord, Bool.and_eq_true] at hword
    rw [List.all_cons, isIdentContinue_of_isIdentStart hword.1, hword.2]
    rfl

/-- The only keyword that begins with an underscore is the underscore. -/
theorem lookup_keywords_eq_none {x : String} {c : Char} {cs : List Char}
    (h : x.toList = '_' :: c :: cs) : keywords.lookup x = none := by
  have hall : ∀ p ∈ keywords, p.1.toList.head? ≠ some '_' ∨ p.1.toList.length = 1 := by
    decide +kernel
  rw [List.lookup_eq_none_iff]
  intro p hp
  rw [bne_iff_ne]
  rintro rfl
  have hp := hall p hp
  rw [h] at hp
  exact absurd hp (by simp)

/-- The name of an item is a plain identifier if that of the type is. -/
theorem isPlainIdentifier_itemName {typeName item suffix : String}
    (htype : isPlainIdentifier typeName) (hitem : item.toList.all isIdentContinue)
    (hsuffix : suffix.toList.all isIdentContinue) :
    isPlainIdentifier (itemName typeName item suffix) := by
  have htext : (itemName typeName item suffix).toList
      = '_' :: (typeName.toList ++ '_' :: (item.toList ++ suffix.toList)) := by
    simp [itemName]
  have hunderscore : isIdentStart '_' ∧ isIdentContinue '_' := by decide
  have hword : isBareWord (itemName typeName item suffix).toList := by
    rw [htext, isBareWord, hunderscore.1]
    simp only [List.all_append, List.all_cons, all_isIdentContinue htype, hunderscore.2, hitem,
      hsuffix]
    rfl
  have hkeyword : keywords.lookup (itemName typeName item suffix) = none := by
    cases hname : typeName.toList with
    | nil =>
      rw [hname] at htext
      exact lookup_keywords_eq_none htext
    | cons c cs =>
      rw [hname] at htext
      exact lookup_keywords_eq_none htext
  rw [isPlainIdentifier, hword, hkeyword]
  rfl

/-- No item is called `None`. -/
theorem itemName_ne_none (typeName item suffix : String) :
    itemName typeName item suffix ≠ "None" := by
  intro h
  have hhead := congrArg (fun x : String => x.toList.head?) h
  simp [itemName] at hhead

theorem all_isIdentContinue_runSuffix (k : Nat) :
    (DisplayPlan.runSuffix k).toList.all isIdentContinue := by
  have hdigits : ∀ c ∈ Nat.toDigits 10 k, isIdentContinue c :=
    fun c hc => isIdentContinue_of_isDigit (mem_toDigits_isDigit c hc)
  have hunderscore : isIdentContinue '_' := by decide
  have htext : (DisplayPlan.runSuffix k).toList = '_' :: Nat.toDigits 10 k := by
    simp [DisplayPlan.runSuffix]
  rw [htext, List.all_cons, hunderscore, List.all_eq_true.2 hdigits]
  rfl

/-! ## Expressions and statements -/

/-- A name in a table that is read off at a variable. -/
theorem isReadable_tableSlice {blob index i : String} (hblob : isPlainIdentifier blob)
    (hindex : isPlainIdentifier index) (hi : isPlainIdentifier i) (hne : i ≠ "None") :
    (Expr.tableSlice blob index i).IsReadable := by
  have hvar : (Expr.var i).IsReadable := ⟨hi, hne⟩
  have hnext : (Expr.binary .add (.var i) (.int 1)).IsReadable :=
    Expr.isReadable_binary hvar trivial rfl
  exact ⟨hblob, ⟨⟨hindex, hvar⟩, of_decide_eq_true rfl⟩,
    ⟨⟨hindex, hnext⟩, of_decide_eq_true rfl⟩, Or.inl rfl⟩

/-- A readable statement that is no result may stand in front of a block. -/
theorem blockReadable_cons {s : Stmt} {body : List Stmt} (h : s.IsReadable)
    (hresult : s.isResult = false) (hbody : blockReadable body) : blockReadable (s :: body) := by
  rw [blockReadable]
  exact ⟨h, fun hr => absurd hr (by simp [hresult]), hbody⟩

theorem blockReadable_singleton {s : Stmt} (h : s.IsReadable) : blockReadable [s] := by
  rw [blockReadable, blockReadable]
  exact ⟨h, fun _ => rfl, trivial⟩

/-- A body without comments. -/
theorem bodyReadable_of_isCode {body : List Stmt} (h : ∀ s ∈ body, s.isCode)
    (hbody : blockReadable body) : BodyReadable body := by
  refine ⟨fun s hs => absurd (h _ hs) (by simp [Stmt.isCode]), ?_⟩
  rwa [codeOf, List.filter_eq_self.2 h]

theorem isReadable_bind {x : String} {e : Expr} (hx : isPlainIdentifier x) (he : e.IsReadable) :
    (Stmt.bind x e).IsReadable := by
  rw [Stmt.IsReadable]
  exact ⟨hx, he⟩

theorem isReadable_ret {e : Expr} (he : e.IsReadable) : (Stmt.ret e).IsReadable := by
  rwa [Stmt.IsReadable]

theorem isReadable_result {e : Expr} (he : e.IsReadable) (h : e.isResult) :
    (Stmt.result e).IsReadable := by
  rw [Stmt.IsReadable]
  exact ⟨he, h⟩

theorem isReadable_when {c : Expr} {body : List Stmt} (hc : c.IsReadable)
    (hbody : blockReadable body) : (Stmt.when c body).IsReadable := by
  rw [Stmt.IsReadable]
  exact ⟨hc, hbody⟩

/-- Conditions are readable one by one. -/
theorem branchesReadable_of_forall {branches : List (Expr × List Stmt)}
    (h : ∀ branch ∈ branches, branch.1.IsReadable ∧ blockReadable branch.2) :
    branchesReadable branches := by
  induction branches with
  | nil => rw [branchesReadable]; trivial
  | cons branch branches ih =>
    obtain ⟨c, body⟩ := branch
    obtain ⟨hbranch, hrest⟩ := List.forall_mem_cons.1 h
    rw [branchesReadable]
    exact ⟨hbranch.1, hbranch.2, ih hrest⟩

theorem armsReadable_of_forall {arms : List (UInt32 × List Stmt)}
    (h : ∀ arm ∈ arms, blockReadable arm.2) : armsReadable arms := by
  induction arms with
  | nil => rw [armsReadable]; trivial
  | cons arm arms ih =>
    obtain ⟨n, body⟩ := arm
    obtain ⟨harm, hrest⟩ := List.forall_mem_cons.1 h
    rw [armsReadable]
    exact ⟨harm, ih hrest⟩

/-! ## Functions that show a value -/

namespace DisplayPlan

variable {typeName name index : String}

theorem isReadable_offsetFrom (low : Int) {e : Expr} (he : e.IsReadable)
    (hrank : Level.cast.rank ≤ e.rank) : (offsetFrom low e).IsReadable :=
  Expr.isReadable_binary ⟨he, hrank⟩ trivial rfl

theorem isReadable_oneRunBody (hname : isPlainIdentifier name) (hindex : isPlainIdentifier index)
    (low : Int) : BodyReadable (oneRunBody typeName name index low) := by
  have hreceiver : Expr.IsReadable .receiver := trivial
  have hvar : (Expr.var "idx").IsReadable := by
    refine ⟨?_, ?_⟩ <;> decide
  have hdistance : (if low = 0 then Expr.cast .receiver .i128 else offsetFrom low .receiver).IsReadable
      := by
    split
    · exact ⟨trivial, of_decide_eq_true rfl⟩
    · exact isReadable_offsetFrom low trivial (of_decide_eq_true rfl)
  have hlength : (Expr.cast (.paren (.binary .sub (.length index) (.int 1))) .i128).IsReadable :=
    ⟨⟨Expr.isReadable_binary hindex trivial rfl, rfl⟩, of_decide_eq_true rfl⟩
  have houtside : (Expr.binary .or (.binary .less (.var "idx") (.int 0)) (.binary .atLeast
      (.var "idx") (.cast (.paren (.binary .sub (.length index) (.int 1))) .i128))).IsReadable :=
    Expr.isReadable_binary (Expr.isReadable_binary hvar trivial rfl)
      (Expr.isReadable_binary hvar hlength rfl) rfl
  have hfallback : (fallback typeName .receiver).IsReadable := trivial
  have hslice := isReadable_tableSlice hname hindex (by decide : isPlainIdentifier "idx") (by decide)
  refine bodyReadable_of_isCode (by simp [oneRunBody, Stmt.isCode]) ?_
  refine blockReadable_cons (isReadable_bind (by decide) hdistance) rfl ?_
  refine blockReadable_cons (isReadable_when houtside
    (blockReadable_singleton (isReadable_ret hfallback))) rfl ?_
  refine blockReadable_cons (isReadable_bind (by decide) ⟨hvar, of_decide_eq_true rfl⟩) rfl ?_
  exact blockReadable_singleton (isReadable_result hslice rfl)

/-- The test for a run is readable, a comparison as well as a range. -/
theorem isReadable_runTest (run : Run) : (runTest run).IsReadable := by
  have hvar : (Expr.var "i").IsReadable := by
    refine ⟨?_, ?_⟩ <;> decide
  rw [runTest]
  split
  · exact Expr.isReadable_binary hvar trivial rfl
  split
  · exact Expr.isReadable_binary hvar trivial rfl
  · exact hvar.1

theorem isReadable_runBlock (htype : isPlainIdentifier typeName) (run : Run) (k : Nat) :
    blockReadable (runBlock typeName run k) := by
  have hname : isPlainIdentifier (itemName typeName "name" (runSuffix k)) :=
    isPlainIdentifier_itemName htype (by decide) (all_isIdentContinue_runSuffix k)
  have hindex : isPlainIdentifier (itemName typeName "index" (runSuffix k)) :=
    isPlainIdentifier_itemName htype (by decide) (all_isIdentContinue_runSuffix k)
  have hvar : (Expr.var "i").IsReadable := by
    refine ⟨?_, ?_⟩ <;> decide
  have hdistance : (if run.first.constant.bits = 0 then Expr.cast (.var "i") .usize
      else .cast (.paren (offsetFrom run.low (.var "i"))) .usize).IsReadable := by
    split
    · exact ⟨hvar, of_decide_eq_true rfl⟩
    · exact ⟨⟨isReadable_offsetFrom _ hvar (of_decide_eq_true rfl), rfl⟩, of_decide_eq_true rfl⟩
  have hslice := isReadable_tableSlice hname hindex (by decide : isPlainIdentifier "i") (by decide)
  rw [runBlock]
  split
  · exact blockReadable_singleton (isReadable_result ⟨hname, itemName_ne_none _ _ _⟩ rfl)
  · refine blockReadable_cons (isReadable_bind (by decide) hdistance) rfl ?_
    exact blockReadable_singleton (isReadable_result hslice rfl)

theorem isReadable_multiRunBody (htype : isPlainIdentifier typeName) {runs : List Run}
    (hne : runs ≠ []) : BodyReadable (multiRunBody typeName runs) := by
  have hvar : (Expr.var "i").IsReadable := by
    refine ⟨?_, ?_⟩ <;> decide
  have hname : (Expr.var "name").IsReadable := by
    refine ⟨?_, ?_⟩ <;> decide
  have hother : blockReadable [.ret (fallback typeName (.var "i"))] :=
    blockReadable_singleton (isReadable_ret hvar)
  have hchoose : ∀ {branches : List (Expr × List Stmt)}, branches ≠ [] →
      (∀ branch ∈ branches, branch.1.IsReadable ∧ blockReadable branch.2) →
      (Stmt.choose "name" branches [.ret (fallback typeName (.var "i"))]).IsReadable := by
    intro branches hbranches hall
    rw [Stmt.IsReadable]
    exact ⟨by decide, hbranches, branchesReadable_of_forall hall, hother⟩
  refine bodyReadable_of_isCode (by simp [multiRunBody, Stmt.isCode]) ?_
  refine blockReadable_cons (isReadable_bind (by decide) trivial) rfl ?_
  refine blockReadable_cons (hchoose (by simp [hne]) fun branch hbranch => ?_) rfl
    (blockReadable_singleton (isReadable_result hname rfl))
  obtain ⟨⟨run, k⟩, -, rfl⟩ := List.mem_map.1 hbranch
  exact ⟨isReadable_runTest run, isReadable_runBlock htype run k⟩

theorem isReadable_sparseBody (hname : isPlainIdentifier name) (members : List Member) :
    BodyReadable (sparseBody typeName name members) := by
  have hvar : (Expr.var "i").IsReadable := by
    refine ⟨?_, ?_⟩ <;> decide
  have hshown : (Expr.var "name").IsReadable := by
    refine ⟨?_, ?_⟩ <;> decide
  have harms : ∀ arm ∈ sparseArms name members, arm.2.IsReadable := by
    intro arm harm
    obtain ⟨⟨m, low, high⟩, -, rfl⟩ := List.mem_map.1 harm
    exact ⟨hname, trivial, trivial, Or.inr ⟨high, rfl⟩⟩
  have hselect : (Stmt.select "name" .receiver (sparseArms name members) "i"
      (fallback typeName (.var "i"))).IsReadable := by
    rw [Stmt.IsReadable]
    exact ⟨by decide, trivial, harms, by decide, hvar⟩
  refine bodyReadable_of_isCode (by simp [sparseBody, Stmt.isCode]) ?_
  exact blockReadable_cons hselect rfl (blockReadable_singleton (isReadable_result hshown rfl))

/-- The items of a table are readable if its arrays have plain names. -/
theorem isReadable_ofTable (hname : isPlainIdentifier name) (hindex : isPlainIdentifier index)
    (names : List String) : ∀ item ∈ Item.ofTable name index (.ofNames names), item.IsReadable := by
  intro item hitem
  rcases List.mem_pair.1 hitem with rfl | rfl
  · exact hname
  · exact ⟨hindex, NameTable.offsets_ofNames_ne_nil names⟩

theorem isReadable_multiRunTables (htype : isPlainIdentifier typeName) (runs : List Run) :
    ∀ item ∈ multiRunTables typeName runs, item.IsReadable := by
  intro item hitem
  obtain ⟨⟨run, k⟩, -, rfl | ⟨-, rfl⟩⟩ := mem_multiRunTables.1 hitem
  · exact isPlainIdentifier_itemName htype (by decide) (all_isIdentContinue_runSuffix k)
  · refine ⟨isPlainIdentifier_itemName htype (by decide) (all_isIdentContinue_runSuffix k), ?_⟩
    exact NameTable.offsets_ofNames_ne_nil run.names

/-- The items of a display plan are readable. -/
theorem isReadable_items (htype : isPlainIdentifier typeName) {ms : List Member} (hne : ms ≠ [])
    (runThreshold : Nat) : ∀ item ∈ (select ms runThreshold).items typeName, item.IsReadable := by
  have hname : isPlainIdentifier (itemName typeName "name" "") :=
    isPlainIdentifier_itemName htype (by decide) rfl
  have hindex : isPlainIdentifier (itemName typeName "index" "") :=
    isPlainIdentifier_itemName htype (by decide) rfl
  intro item hitem
  rw [select] at hitem
  split at hitem
  · next run _ =>
    simp only [items, List.mem_append, List.mem_cons, List.not_mem_nil, or_false] at hitem
    rcases hitem with (rfl | hitem) | rfl | rfl
    · trivial
    · exact isReadable_ofTable hname hindex run.names item hitem
    · trivial
    · exact ⟨htype, isReadable_oneRunBody hname hindex run.low⟩
  split at hitem
  · rcases mem_multiRun_items hitem with rfl | hitem | rfl
    · trivial
    · exact isReadable_multiRunTables htype _ item hitem
    · exact ⟨htype, isReadable_multiRunBody htype (runs_ne_nil hne)⟩
  · simp only [items, List.mem_cons, List.not_mem_nil, or_false] at hitem
    rcases hitem with rfl | rfl | rfl | rfl
    · trivial
    · exact hname
    · trivial
    · exact ⟨htype, isReadable_sparseBody hname ms⟩

end DisplayPlan

/-! ## Functions that look a name up -/

namespace LookupPlan

variable {typeName functionName : String} {entries : List LookupEntry}

theorem isReadable_found {e : LookupEntry} (h : isPath e.reference) : (found e).IsReadable :=
  isReadable_ret h

/-- The tests of a hash are readable if the constants are paths. -/
theorem isReadable_hashBlock (h : ∀ e ∈ entries, isPath e.reference) :
    blockReadable (hashBlock entries) := by
  have hname : (Expr.var "name").IsReadable := by
    refine ⟨?_, ?_⟩ <;> decide
  induction entries with
  | nil => rw [hashBlock, List.map_nil, blockReadable]; trivial
  | cons e entries ih =>
    obtain ⟨he, hrest⟩ := List.forall_mem_cons.1 h
    have htest : (Expr.binary .equal (.var "name") (.literal e.name)).IsReadable :=
      Expr.isReadable_binary hname trivial rfl
    rw [hashBlock, List.map_cons]
    refine blockReadable_cons ?_ rfl (ih hrest)
    exact isReadable_when htest (blockReadable_singleton (isReadable_found he))

/-- The function for hashed names is readable if the constants are paths. -/
theorem isReadable_hashedBody {hashes : List (UInt32 × LookupEntry)}
    (h : ∀ x ∈ hashes, isPath x.2.reference) : BodyReadable (hashedBody hashes) := by
  have hbyte : (Expr.var "b").IsReadable := by
    refine ⟨?_, ?_⟩ <;> decide
  have hloop : (Stmt.eachByte "b" "name" [.mix "h" (.cast (.var "b") .u32),
      .assign "h" (.wrappingMul "h" Digest.fnvPrime.toNat)]).IsReadable := by
    have hmix : (Stmt.mix "h" (.cast (.var "b") .u32)).IsReadable := by
      rw [Stmt.IsReadable]
      exact ⟨by decide, hbyte, of_decide_eq_true rfl⟩
    have hassign : (Stmt.assign "h" (.wrappingMul "h" Digest.fnvPrime.toNat)).IsReadable := by
      rw [Stmt.IsReadable]
      exact ⟨by decide, (by decide : isPlainIdentifier "h")⟩
    rw [Stmt.IsReadable]
    exact ⟨by decide, by decide, blockReadable_cons hmix rfl (blockReadable_singleton hassign)⟩
  have hswitch : ∀ {arms : List (UInt32 × List Stmt)}, (∀ arm ∈ arms, blockReadable arm.2) →
      (Stmt.switch "h" arms).IsReadable := by
    intro arms harms
    rw [Stmt.IsReadable]
    exact ⟨by decide, armsReadable_of_forall harms⟩
  have hstart : (Stmt.bindVar "h" .u32 (.int Digest.fnvOffset.toNat)).IsReadable := by
    rw [Stmt.IsReadable]
    exact ⟨by decide, trivial⟩
  refine ⟨fun s hs => ?_, ?_⟩
  · simp only [hashedBody, List.mem_cons, Stmt.comment.injEq, reduceCtorEq, List.not_mem_nil,
      or_false] at hs
    rw [hs]
    decide
  · refine blockReadable_cons hstart rfl ?_
    refine blockReadable_cons hloop rfl ?_
    refine blockReadable_cons (hswitch fun arm harm => ?_) rfl
      (blockReadable_singleton (isReadable_result trivial rfl))
    obtain ⟨⟨hash, es⟩, hmem, rfl⟩ := List.mem_map.1 harm
    exact isReadable_hashBlock fun e he => h (hash, e) (mem_of_mem_hashArms hmem he)

theorem isReadable_searchBody {names index values : String} (hnames : isPlainIdentifier names)
    (hindex : isPlainIdentifier index) (hvalues : isPlainIdentifier values) :
    BodyReadable (searchBody names index values) := by
  have hlo : (Expr.var "lo").IsReadable := by
    refine ⟨?_, ?_⟩ <;> decide
  have hhi : (Expr.var "hi").IsReadable := by
    refine ⟨?_, ?_⟩ <;> decide
  have hmid : (Expr.var "mid").IsReadable := by
    refine ⟨?_, ?_⟩ <;> decide
  have hmiddle : (Expr.binary .add (.var "lo") (.binary .div
      (.paren (.binary .sub (.var "hi") (.var "lo"))) (.int 2))).IsReadable :=
    Expr.isReadable_binary hlo (Expr.isReadable_binary
      ⟨Expr.isReadable_binary hhi hlo rfl, rfl⟩ trivial rfl) rfl
  have hnext : (Expr.binary .add (.var "mid") (.int 1)).IsReadable :=
    Expr.isReadable_binary hmid trivial rfl
  have hslice := isReadable_tableSlice hnames hindex (by decide : isPlainIdentifier "mid")
    (by decide)
  have hbounds : (Stmt.bindVars "lo" "hi" (.typedInt .usize 0) (.length values)).IsReadable := by
    rw [Stmt.IsReadable]
    exact ⟨by decide, by decide, trivial, hvalues⟩
  have horder : (Stmt.order "name" "s" (.someOf (.element values (.var "mid"))) ("hi", .var "mid")
      ("lo", .binary .add (.var "mid") (.int 1))).IsReadable := by
    rw [Stmt.IsReadable]
    exact ⟨by decide, by decide, ⟨hvalues, hmid⟩, ⟨by decide, hmid⟩, by decide, hnext⟩
  have hloop : (Stmt.loop (.binary .less (.var "lo") (.var "hi"))
      [.bind "mid" (.binary .add (.var "lo")
          (.binary .div (.paren (.binary .sub (.var "hi") (.var "lo"))) (.int 2))),
        .bind "s" (.tableSlice names index "mid"),
        .order "name" "s" (.someOf (.element values (.var "mid"))) ("hi", .var "mid")
          ("lo", .binary .add (.var "mid") (.int 1))]).IsReadable := by
    rw [Stmt.IsReadable]
    refine ⟨Expr.isReadable_binary hlo hhi rfl, ?_⟩
    refine blockReadable_cons (isReadable_bind (by decide) hmiddle) rfl ?_
    refine blockReadable_cons (isReadable_bind (by decide) hslice) rfl ?_
    exact blockReadable_singleton horder
  refine bodyReadable_of_isCode (by simp [searchBody, Stmt.isCode]) ?_
  refine blockReadable_cons hbounds rfl ?_
  exact blockReadable_cons hloop rfl (blockReadable_singleton (isReadable_result trivial rfl))

/-- The entries of a plan refer to members. -/
theorem isPath_reference {ms : List Member} (h : ∀ m ∈ ms, isPath m.constant.reference) :
    ∀ e ∈ distinctNames ms, isPath e.reference := by
  intro e he
  obtain ⟨m, hm, rfl⟩ := mem_sortedEntries.1 (mem_sortedEntries_of_mem_distinctNames he)
  exact h m hm

/-- The items before the function of a plan. -/
def arrays (plan : LookupPlan) (typeName : String) : List Item :=
  match plan with
  | hashedSwitch _ | directMap _ => [.blank]
  | binarySearch entries =>
    [.blank] ++ Item.ofTable (itemName typeName "name" "_lookup")
        (itemName typeName "index" "_lookup") (table entries)
      ++ [.constants (itemName typeName "value" "_lookup") typeName
        (entries.map LookupEntry.reference), .blank]

/-- The body of the function of a plan. -/
def body (plan : LookupPlan) (typeName : String) : List Stmt :=
  match plan with
  | hashedSwitch entries => hashedBody entries
  | binarySearch _ =>
    searchBody (itemName typeName "name" "_lookup") (itemName typeName "index" "_lookup")
      (itemName typeName "value" "_lookup")
  | directMap entries =>
    [.mapLookup typeName (entries.map fun e => (e.name, e.reference)) "name"]

/-- The name of the function occurs in its declaration only. -/
theorem items_eq (plan : LookupPlan) (typeName functionName : String) :
    plan.items typeName functionName
      = plan.arrays typeName ++ [.lookup functionName typeName (plan.body typeName)] := by
  cases plan with
  | hashedSwitch entries | directMap entries => rfl
  | binarySearch entries => simp [items, arrays, body]

theorem isPlainIdentifier_lookupName (htype : isPlainIdentifier typeName) {item : String}
    (hitem : item.toList.all isIdentContinue) :
    isPlainIdentifier (itemName typeName item "_lookup") :=
  isPlainIdentifier_itemName htype hitem (by decide)

variable {ms : List Member}

theorem isReadable_arrays (htype : isPlainIdentifier typeName)
    (h : ∀ m ∈ ms, isPath m.constant.reference) (thresholds : Nat × Nat) :
    ∀ item ∈ (select ms thresholds).arrays typeName, item.IsReadable := by
  have hblank : ∀ item ∈ [Item.blank], item.IsReadable := by simp [Item.IsReadable]
  rw [select]
  split
  · exact hblank
  split
  · intro item hitem
    simp only [arrays, List.mem_append, List.mem_cons, List.not_mem_nil, or_false] at hitem
    rcases hitem with (rfl | hitem) | rfl | rfl
    · trivial
    · exact DisplayPlan.isReadable_ofTable (isPlainIdentifier_lookupName htype (by decide))
        (isPlainIdentifier_lookupName htype (by decide)) _ item hitem
    · refine ⟨isPlainIdentifier_lookupName htype (by decide), htype, fun reference hreference => ?_⟩
      obtain ⟨e, he, rfl⟩ := List.mem_map.1 hreference
      exact isPath_reference h e he
    · trivial
  · exact hblank

/-- The function of a lookup plan is readable. -/
theorem isReadable_body (htype : isPlainIdentifier typeName)
    (h : ∀ m ∈ ms, isPath m.constant.reference) (thresholds : Nat × Nat) :
    BodyReadable ((select ms thresholds).body typeName) := by
  have hpath := isPath_reference h
  rw [select]
  split
  · refine isReadable_hashedBody fun x hx => ?_
    obtain ⟨e, he, rfl⟩ := mem_hashed.1 hx
    exact hpath e he
  split
  · exact isReadable_searchBody (isPlainIdentifier_lookupName htype (by decide))
      (isPlainIdentifier_lookupName htype (by decide)) (isPlainIdentifier_lookupName htype (by decide))
  · refine bodyReadable_of_isCode (by simp [body, Stmt.isCode]) (blockReadable_singleton ?_)
    rw [Stmt.IsReadable]
    refine ⟨htype, fun entry hentry => ?_, by decide⟩
    obtain ⟨e, he, rfl⟩ := List.mem_map.1 hentry
    exact hpath e he

/-- The items of a lookup plan are readable if its names can be written down. -/
theorem isReadable_items (htype : isPlainIdentifier typeName)
    (hfunction : IsFunctionName functionName) (h : ∀ m ∈ ms, isPath m.constant.reference)
    (thresholds : Nat × Nat) :
    ∀ item ∈ (select ms thresholds).items typeName functionName, item.IsReadable := by
  intro item hitem
  rw [items_eq, List.mem_append, List.mem_singleton] at hitem
  rcases hitem with hitem | rfl
  · exact isReadable_arrays htype h thresholds item hitem
  · exact ⟨hfunction, htype, isReadable_body htype h thresholds⟩

end LookupPlan

/-! ## The guard -/

/-- A number is written as digits, perhaps after a minus sign. -/
theorem toList_int (n : Int) : ∃ digits : List Char, digits ≠ [] ∧ (∀ c ∈ digits, c.isDigit)
    ∧ ((toString n).toList = digits ∨ (toString n).toList = '-' :: digits) := by
  refine ⟨Nat.toDigits 10 n.natAbs, Nat.toDigits_ne_nil, mem_toDigits_isDigit, ?_⟩
  have htext : (toString n).toList = piecesChars (intPieces n) := toList_repr_int n
  rw [htext, intPieces]
  split
  · exact .inr (by simp [piecesChars, Piece.chars])
  · exact .inl (by simp [piecesChars, Piece.chars])

theorem trim_int (n : Int) : trim (toString n) = toString n := by
  obtain ⟨digits, -, hdigits, h⟩ := toList_int n
  refine trim_of_forall fun c hc => ?_
  rcases h with h | h
  · rw [h] at hc
    exact isBlank_eq_false_of_isDigit (hdigits c hc)
  · rw [h] at hc
    rcases List.mem_cons.1 hc with rfl | hc
    · decide
    · exact isBlank_eq_false_of_isDigit (hdigits c hc)

namespace Guard

/-- An integer is written as a decimal literal. -/
theorem isDecimalLiteral_int (n : Int) : isDecimalLiteral (toString n).toList := by
  obtain ⟨digits, hne, hdigits, h⟩ := toList_int n
  obtain ⟨c, cs, rfl⟩ := List.exists_cons_of_ne_nil hne
  have hc := hdigits c List.mem_cons_self
  have hall : (c :: cs).all fun c => c.isDigit || c == '_' :=
    List.all_eq_true.2 fun d hd => by rw [hdigits d hd]; rfl
  have hminus : c ≠ '-' := by
    rintro rfl
    exact absurd hc (by decide)
  have hdecimal : (c.isDigit && (c :: cs).all fun c => c.isDigit || c == '_') = true := by
    rw [hc, hall]
    rfl
  rcases h with h | h
  · rw [h]
    unfold isDecimalLiteral
    split
    · next heq => exact absurd (List.cons.inj heq).1 hminus
    · exact hdecimal
  · rw [h]
    exact hdecimal

/-- The guard compares a constant with its decimal literal, unless another text is given for it. -/
theorem operand_eq_decimal {c : Constant}
    (h : (trim c.canonical).isEmpty ∨ c.canonical = c.decimal) :
    operand c = .literal c.decimal := by
  by_cases hempty : (trim c.canonical).isEmpty
  · rw [operand, if_pos hempty]
  · have htrim : trim c.canonical = c.decimal := by
      rw [h.resolve_left hempty]
      exact trim_int c.value
    have hdecimal : isDecimalLiteral (trim c.canonical).toList := by
      rw [htrim]
      exact isDecimalLiteral_int c.value
    rw [operand, if_neg hempty, if_pos hdecimal, htrim]

/-- A guard of paths and decimal literals. -/
theorem isReadable_item {constants : List Constant} (hpath : ∀ c ∈ constants, isPath c.reference)
    (hcanonical : ∀ c ∈ constants, (trim c.canonical).isEmpty ∨ c.canonical = c.decimal) :
    (item constants).IsReadable := by
  intro a ha
  obtain ⟨c, hc, rfl⟩ := List.mem_map.1 ha
  have hoperand := operand_eq_decimal (hcanonical c hc)
  refine ⟨hpath c hc, c.value, ?_⟩
  rw [assertion, hoperand]
  rfl

end Guard

/-! ## Types -/

/-- The types whose code can be written down: the name is a plain identifier, the constants are
referred to by paths, and the guard compares them with their decimal literals. -/
structure Enumeration.IsPlain (e : Enumeration) : Prop where
  name : isPlainIdentifier e.name
  reference : ∀ c ∈ e.constants, isPath c.reference
  canonical : ∀ c ∈ e.constants, (trim c.canonical).isEmpty ∨ c.canonical = c.decimal

namespace Enumeration

variable {e : Enumeration} {o : Options} {g : GeneratedType}

/-- The items of a type can be read back if its lookup function has a name that can be. -/
theorem IsPlain.isReadable_items (he : e.IsPlain) (hg : e.generate o = .ok g)
    (hname : ∀ name ∈ o.lookupName? e.name, IsFunctionName name) :
    ∀ item ∈ g.items, item.IsReadable := by
  obtain ⟨hne, rfl⟩ := eq_of_generate hg
  have hmembers : ∀ m ∈ e.distinctMembers, isPath m.constant.reference := fun m hm =>
    he.reference _ (constant_mem_of_mem_declared (mem_declared_of_mem_distinctMembers hm))
  intro item hitem
  rw [GeneratedType.items, List.cons_append, List.mem_cons, List.mem_append] at hitem
  rcases hitem with rfl | hitem | hitem
  · exact Guard.isReadable_item he.reference he.canonical
  · exact DisplayPlan.isReadable_items he.name (distinctMembers_ne_nil hne) o.runThreshold item hitem
  · unfold GeneratedType.lookupItems at hitem
    split at hitem
    · next lookup hlookup =>
      obtain ⟨name, hmem, rfl⟩ := Option.map_eq_some_iff.1 hlookup
      exact LookupPlan.isReadable_items he.name (hname name hmem) hmembers _ item hitem
    · exact absurd hitem (by simp)

end Enumeration

end EnumNames
