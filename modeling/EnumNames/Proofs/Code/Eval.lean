import EnumNames.Code.Eval
import EnumNames.Proofs.Kind
import EnumNames.Proofs.NameTable

/-!
# Running emitted code

Facts about single expressions that all shapes of emitted code share: which numbers are of a type,
which item a name leads to, and what a slice between two offsets of a table is.

* `Frame.item?_eq_some`: in proper items, a name leads to the only item that has it.
* `eval?_tableSlice`: the slice of a blob between two offsets is a name of the table.
* `fill?_fallback`: what is written for a number without a name.
-/

namespace EnumNames.Code

/-! ## Numbers -/

/-- An unsigned type holds the numbers from zero up to its count. -/
theorem IntType.contains_unsigned {kind : Kind} (h : kind.isSigned = false) {n : Int} :
    (ofKind kind).contains n ↔ 0 ≤ n ∧ n < kind.count := by
  rw [contains, Kind.contains, Kind.least, Kind.greatest, h, Bool.and_eq_true, decide_eq_true_eq,
    decide_eq_true_eq, if_neg Bool.false_ne_true, if_neg Bool.false_ne_true]
  omega

/-- A `usize` is 64 bits wide. -/
theorem IntType.contains_usize {n : Int} :
    IntType.usize.contains n ↔ 0 ≤ n ∧ n < 0x10000000000000000 :=
  contains_unsigned rfl

/-- The least and the greatest number of 128 bits. -/
theorem IntType.contains_i128 {n : Int} :
    IntType.i128.contains n
      ↔ -0x80000000000000000000000000000000 ≤ n ∧ n < 0x80000000000000000000000000000000 := by
  rw [contains, Bool.and_eq_true, decide_eq_true_eq, decide_eq_true_eq]

/-- Every value of a kind has 64 bits, with or without a sign. -/
theorem bounds_of_contains {kind : Kind} {n : Int} (h : kind.contains n) :
    -0x8000000000000000 ≤ n ∧ n < 0x10000000000000000 := by
  have hbounds := Kind.bounds_of_contains h
  cases hsigned : kind.isSigned with
  | false =>
    rw [hsigned, if_neg Bool.false_ne_true, if_neg Bool.false_ne_true] at hbounds
    omega
  | true =>
    rw [hsigned, if_pos rfl, if_pos rfl] at hbounds
    omega

/-- A number of a type is a value of it. -/
theorem Val.number?_eq_some {type : IntType} {n : Int} (h : type.contains n) :
    Val.number? type n = some (.number type n) := by
  rw [number?, if_pos h]

section Numbers

variable {f : Frame} {env : Env} {op : BinOp} {a b e : Expr} {type : IntType} {m n : Int}

theorem eval?_receiver {v : Val} (h : f.receiver = some v) (env : Env) :
    Expr.receiver.eval? f env = some v := h

/-- A conversion keeps a number that fits the new type. -/
theorem eval?_cast {type' : IntType} (he : e.eval? f env = some (.number type' n))
    (hn : type.contains n) : (Expr.cast e type).eval? f env = some (.number type n) := by
  rw [Expr.eval?, he, Option.bind_some, Val.cast?, Val.number?_eq_some hn]

/-- An operator other than the disjunction asks for two numbers of one type. -/
theorem eval?_binary (hop : op ≠ .or) (ha : a.eval? f env = some (.number type m))
    (hb : b.eval? f env = some (.number type n)) :
    (Expr.binary op a b).eval? f env = op.result? type m n := by
  rw [Expr.eval?, ha, hb]
  cases op <;> simp [BinOp.run?, Val.pair?] at hop ⊢

/-- A literal on the right has the type of the number on the left. -/
theorem eval?_binary_int (hop : op ≠ .or) (ha : a.eval? f env = some (.number type m))
    (hn : type.contains n) : (Expr.binary op a (.int n)).eval? f env = op.result? type m n := by
  rw [Expr.eval?, ha, Expr.eval?]
  cases op <;> simp [BinOp.run?, Val.pair?, hn] at hop ⊢

theorem truth?_of_eval? {p : Prop} [Decidable p] (h : e.eval? f env = some (.truth p)) :
    e.truth? f env = some (decide p) := by
  rw [Expr.truth?, h]

/-- A disjunction of two truth values. -/
theorem truth?_or {p q : Prop} [Decidable p] [Decidable q]
    (ha : a.eval? f env = some (.truth p)) (hb : b.eval? f env = some (.truth q)) :
    (Expr.binary .or a b).truth? f env = some (decide (p ∨ q)) := by
  rw [Expr.truth?, Expr.eval?, ha, hb, Bool.decide_or]
  cases decide p <;> rfl

end Numbers

theorem Val.place?_usize (n : Nat) : (Val.number .usize n).place? = some n := by
  rw [place?, ofType?, if_pos rfl]
  rfl

theorem Val.place?_literal {n : Nat} (h : n < 0x10000000000000000) :
    (Val.literal n).place? = some n := by
  have hfits : IntType.usize.contains n := by
    rw [IntType.contains_usize]
    omega
  rw [place?, ofType?, number?_eq_some hfits]
  rfl

/-! ## Items -/

/-- An item that has a name is among those that hold data. -/
theorem find?_dataItems (items : List Item) (name : String) :
    (dataItems items).find? (·.dataName? == some name)
      = items.find? (·.dataName? == some name) := by
  rw [dataItems, List.find?_filter]
  refine congrArg (items.find? ·) (funext fun item => ?_)
  rw [Bool.eq_iff_iff]
  cases item.dataName? with
  | none => simp
  | some name' => simp

/-- In proper items, a text or an array is found under its name. -/
theorem Frame.item?_eq_some {items : List Item} (h : areProper items) {item : Item}
    (hmem : item ∈ items) {name : String} (hname : item.dataName? = some name)
    (typeName : String) (receiver : Option Val) (around : List String) :
    Frame.item? ⟨dataItems items, typeName, receiver, around⟩ name = some item := by
  rw [areProper, Bool.and_eq_true, decide_eq_true_eq] at h
  replace h := h.2
  show (dataItems items).find? (·.dataName? == some name) = some item
  rw [find?_dataItems]
  induction items with
  | nil => contradiction
  | cons item' items ih =>
    rcases List.mem_cons.1 hmem with rfl | hmem
    · rw [List.find?_cons_of_pos (by simp [hname])]
    · have hne : ¬(item'.dataName? == some name) = true := by
        intro heq
        rw [beq_iff_eq] at heq
        rw [List.filterMap_cons_some heq, List.nodup_cons] at h
        exact h.1 (List.mem_filterMap.2 ⟨item, hmem, hname⟩)
      have hrest : (items.filterMap Item.dataName?).Nodup := by
        rw [List.filterMap_cons] at h
        split at h
        · exact h
        · exact (List.nodup_cons.1 h).2
      rw [List.find?_cons, Bool.eq_false_iff.2 hne]
      exact ih hmem hrest

/-- Names made for one type are equal only if their endings are. -/
theorem itemName_inj {typeName item item' suffix suffix' : String} :
    itemName typeName item suffix = itemName typeName item' suffix'
      ↔ item ++ suffix = item' ++ suffix' := by
  simp only [itemName, String.append_assoc, String.append_right_inj]

/-- No variable of emitted code has the name of an item. -/
theorem itemName_ne_of_head {x : String} (h : x.toList.head? ≠ some '_')
    (typeName item suffix : String) : itemName typeName item suffix ≠ x := by
  rintro rfl
  simp [itemName] at h

/-- In a table, no offset is greater than the length of the blob, so that each fits its width. -/
theorem isProper_offsets {names : List String} (hsize : NameTable.byteCount names < 0x100000000)
    (index : String) :
    (Item.offsets index (NameTable.ofNames names).width
      (NameTable.ofNames names).offsets).isProper := by
  rw [Item.isProper, List.all_eq_true]
  intro n hn
  have hle := (NameTable.indexes_ofNames names).le_size hn
  rw [NameTable.utf8ByteSize_blob_ofNames] at hle
  rw [NameTable.width, NameTable.utf8ByteSize_blob_ofNames, IndexWidth.ofLength]
  split
  · exact (IntType.contains_unsigned rfl).2 ⟨by omega, show _ < (0x100 : Int) by omega⟩
  · split
    · exact (IntType.contains_unsigned rfl).2 ⟨by omega, show _ < (0x10000 : Int) by omega⟩
    · exact (IntType.contains_unsigned rfl).2 ⟨by omega, show _ < (0x100000000 : Int) by omega⟩

/-! ## Slices of a table -/

section Table

variable {f : Frame} {blob index : String} {names : List String}

/-- An index has one offset more than there are names. -/
theorem eval?_length (hindex : f.item? index
      = some (.offsets index (NameTable.ofNames names).width (NameTable.ofNames names).offsets))
    (hlen : names.length + 1 < 0x10000000000000000) (env : Env) :
    (Expr.length index).eval? f env = some (.number .usize (names.length + 1 : Nat)) := by
  have hcount : f.length? index = some (names.length + 1) := by
    rw [Frame.length?, hindex]
    simp only [NameTable.length_offsets_ofNames]
  have hfits : IntType.usize.contains (names.length + 1 : Nat) := by
    rw [IntType.contains_usize]
    omega
  rw [Expr.eval?, hcount, Option.bind_some, Val.number?_eq_some hfits]

/-- An offset, converted for use as a place, is the size of the names before it. -/
theorem eval?_offset (hindex : f.item? index
      = some (.offsets index (NameTable.ofNames names).width (NameTable.ofNames names).offsets))
    (hsize : NameTable.byteCount names < 0x100000000) {env : Env} {e : Expr} {i : Nat}
    (he : e.eval? f env = some (.number .usize i)) (hi : i ≤ names.length) :
    (Expr.cast (.element index e) .usize).eval? f env
      = some (.number .usize (NameTable.byteCount (names.take i))) := by
  have hle := NameTable.byteCount_take_le names i
  rw [Expr.eval?, Expr.eval?, he, Option.bind_some, Val.place?_usize, Option.bind_some,
    Frame.element?, hindex]
  simp only [NameTable.getElem?_offsets_ofNames hi, Option.map_some, Option.bind_some, Val.cast?]
  exact Val.number?_eq_some (IntType.contains_usize.2 (by omega))

/-- The slice of a blob between the offsets of place `i` and the next is name `i`. -/
theorem eval?_tableSlice (hblob : f.item? blob = some (.blob blob (NameTable.ofNames names).blob))
    (hindex : f.item? index
      = some (.offsets index (NameTable.ofNames names).width (NameTable.ofNames names).offsets))
    (hsize : NameTable.byteCount names < 0x100000000) {env : Env} {x : String} {i : Nat}
    (hx : env.value? x = some (.number .usize i)) (hi : i < names.length)
    (hlen : names.length < 0x10000000000000000) :
    (Expr.tableSlice blob index x).eval? f env = some (.text names[i]) := by
  have hvar : (Expr.var x).eval? f env = some (.number .usize i) := by
    rw [Expr.eval?, hx]
    rfl
  have hnext : (Expr.binary .add (.var x) (.int 1)).eval? f env
      = some (.number .usize (i + 1 : Nat)) := by
    rw [eval?_binary_int (by decide) hvar (by decide)]
    exact Val.number?_eq_some (IntType.contains_usize.2 (by omega))
  rw [Expr.tableSlice, Expr.eval?, eval?_offset hindex hsize hvar (by omega),
    eval?_offset hindex hsize hnext hi]
  simp only [Option.bind_some, Val.place?_usize, Frame.text?, hblob,
    NameTable.byteSlice?_blob_ofNames hi, Option.map_some]

/-- The slice of a blob between the written ends of name `i` is that name. -/
theorem eval?_spanSlice (hblob : f.item? blob = some (.blob blob (NameTable.ofNames names).blob))
    (hsize : NameTable.byteCount names < 0x100000000) {i : Nat} (hi : i < names.length)
    (env : Env) :
    (Expr.slice blob (.int (NameTable.byteCount (names.take i)))
      (.int (NameTable.byteCount (names.take (i + 1))))).eval? f env = some (.text names[i]) := by
  have hlow := NameTable.byteCount_take_le names i
  have hhigh := NameTable.byteCount_take_le names (i + 1)
  simp only [Expr.eval?, Option.bind_some]
  rw [Val.place?_literal (by omega), Val.place?_literal (by omega)]
  simp only [Frame.text?, hblob, Option.bind_some, NameTable.byteSlice?_blob_ofNames hi,
    Option.map_some]

end Table

/-! ## Statements -/

section Statements

variable {f : Frame} {env : Env} {x : String} {e : Expr} {rest : List Stmt}

@[simp] theorem value?_cons_self (x : String) (isMut : Bool) (v : Val) (env : Env) :
    Env.value? (⟨x, isMut, v⟩ :: env) x = some v := by
  simp [Env.value?]

/-- A variable with another name hides nothing. -/
theorem value?_cons_of_ne {cell : Cell} (h : cell.name ≠ x) (env : Env) :
    Env.value? (cell :: env) x = Env.value? env x := by
  simp [Env.value?, h]

theorem assign?_cons_self (x : String) (type : IntType) (m n : Int) (env : Env) :
    Env.assign? (⟨x, true, .number type m⟩ :: env) x (.number type n)
      = some (⟨x, true, .number type n⟩ :: env) := by
  simp [Env.assign?, Val.ofType?]

/-- An assignment passes variables with other names. -/
theorem assign?_cons_of_ne {cell : Cell} (h : cell.name ≠ x) (env : Env) (v : Val) :
    Env.assign? (cell :: env) x v = (Env.assign? env x v).map (cell :: ·) := by
  simp [Env.assign?, h]

@[simp] theorem closed?_next (env : Env) :
    (Flow.next env).closed? env.length = some (.next env) := by
  simp [Flow.closed?, Flow.andThen, Env.leave]

/-- The name of a variable stands for its value. -/
theorem eval?_var {v : Val} (h : env.value? x = some v) :
    (Expr.var x).eval? f env = some v := by
  rw [Expr.eval?, h]
  rfl

/-- A text that is written is what the function shows. -/
theorem answer?_writeText {s : String} (h : e.eval? f env = some (.text s)) :
    (Expr.writeText e).answer? f env = some (.shown s) := by
  rw [Expr.answer?, h]

/-- An expression with a value is no call that writes. -/
theorem answer?_of_eval? {v : Val} (h : e.eval? f env = some v) :
    e.answer? f env = some (.value v) := by
  unfold Expr.answer?
  split
  · rw [Expr.eval?] at h
    contradiction
  · rw [Expr.eval?] at h
    contradiction
  · rw [h]
    rfl

/-- A number that is named is visible in the statements that follow. -/
theorem runStmts_bind {type : IntType} {n : Int}
    (h : e.eval? f env = some (.number type n)) :
    runStmts f (.bind x e :: rest) env
      = runStmts f rest (⟨x, false, .number type n⟩ :: env) := by
  rw [runStmts, Stmt.run?, h]

theorem runStmts_bind_text {s : String} (h : e.eval? f env = some (.text s)) :
    runStmts f (.bind x e :: rest) env = runStmts f rest (⟨x, false, .text s⟩ :: env) := by
  rw [runStmts, Stmt.run?, h]

/-- An assignment changes the variables that the statements after it see. -/
theorem runStmts_assign {env' : Env} {v : Val} (h : e.eval? f env = some v)
    (hassign : env.assign? x v = some env') :
    runStmts f (.assign x e :: rest) env = runStmts f rest env' := by
  rw [runStmts, Stmt.run?, h, Option.bind_some, hassign]
  rfl

/-- An exclusive or is assigned like any other value. -/
theorem runStmts_mix {env' : Env} {v w u : Val} (hx : env.value? x = some v)
    (h : e.eval? f env = some w) (hmix : v.mix? w = some u) (hassign : env.assign? x u = some env') :
    runStmts f (.mix x e :: rest) env = runStmts f rest env' := by
  rw [runStmts, Stmt.run?, hx, h]
  simp only [hmix, Option.bind_some, hassign]
  rfl

/-- A block comes to its result with its last statement. -/
theorem runStmts_result {answer : Answer} (h : e.answer? f env = some answer) :
    runStmts f [.result e] env = some (.result answer) := by
  rw [runStmts, Stmt.run?, h]
  rfl

/-- What stands behind a return is not run. -/
theorem runStmts_ret {answer : Answer} (h : e.answer? f env = some answer) :
    runStmts f (.ret e :: rest) env = some (.leave answer) := by
  rw [runStmts, Stmt.run?, h]
  rfl

/-- A condition that does not hold leaves all as it is. -/
theorem runStmts_when_false {body : List Stmt} (h : e.truth? f env = some false) :
    runStmts f (.when e body :: rest) env = runStmts f rest env := by
  rw [runStmts, Stmt.run?, h]

/-- A condition that holds may leave the function. -/
theorem runStmts_when_leave {body : List Stmt} {answer : Answer}
    (h : e.truth? f env = some true) (hbody : runStmts f body env = some (.leave answer)) :
    runStmts f (.when e body :: rest) env = some (.leave answer) := by
  rw [runStmts, Stmt.run?, h, hbody]
  rfl

end Statements

/-! ## Numbers without a name -/

/-- The type name takes no part in the braces of the template. -/
theorem fill?_fallback {typeName : String} (hopen : '\x7b' ∉ typeName.toList)
    (hclose : '\x7d' ∉ typeName.toList) (text : String) :
    fill? (typeName ++ "(\x7b\x7d)") text = some (typeName ++ "(" ++ text ++ ")") := by
  have hcut : Text.cut? '\x7b' (typeName ++ "(\x7b\x7d)").toList
      = some (typeName.toList ++ ['('], ['\x7d', ')']) := by
    have hopen' : '\x7b' ∉ typeName.toList ++ ['('] := by
      simpa using hopen
    rw [String.toList_append, ← Text.cut?_append hopen' ['\x7d', ')'], List.append_assoc]
    rfl
  have hany : ((typeName.toList ++ ['('] ++ [')']).any fun c => c == '\x7b' || c == '\x7d')
      = false := by
    rw [List.any_eq_false]
    intro c hc hbrace
    rw [Bool.or_eq_true, beq_iff_eq, beq_iff_eq] at hbrace
    rcases hbrace with rfl | rfl
    · simp [hopen] at hc
    · simp [hclose] at hc
  rw [fill?, hcut]
  simp only [hany, Bool.false_eq_true, if_false, String.ofList_append, String.ofList_toList]

/-! ## Functions -/

/-- Whether the names of the texts and arrays among some items differ. -/
theorem areProper_iff {items : List Item} :
    areProper items
      ↔ (∀ item ∈ items, item.isProper) ∧ (items.filterMap Item.dataName?).Nodup := by
  rw [areProper, Bool.and_eq_true, List.all_eq_true, decide_eq_true_eq]

/-- Items show what their only function for the type answers. -/
theorem show?_eq_some {items : List Item} {typeName s : String} {kind : Kind} {n : Int}
    {body : List Stmt} (hproper : areProper items)
    (hbody : items.filterMap (Item.displayBody? typeName) = [body])
    (hrun : (runStmts ⟨dataItems items, typeName, some (.number (.ofKind kind) n), []⟩ body []).bind
      Flow.answer? = some (.shown s)) :
    show? items typeName kind n = some s := by
  rw [show?, hbody, hproper]
  simp only [hrun]

/-- Items find what their only function of the name answers, if they can stand in the module. -/
theorem lookUp?_eq_some {constants : List String} {items : List Item}
    {functionName typeName s : String} {body : List Stmt} {reference : Option String}
    (hproper : areProper items) (hapart : areApart typeName constants items)
    (hbody : items.filterMap (Item.lookupBody? functionName typeName) = [body])
    (hrun : (runStmts ⟨dataItems items, typeName, none, constants⟩ body
      [⟨"name", false, .text s⟩]).bind Flow.answer? = some (.value (.choice reference))) :
    lookUp? constants items functionName typeName s = some reference := by
  rw [lookUp?, hbody, hproper, hapart, Bool.and_self]
  simp only [hrun]

end EnumNames.Code
