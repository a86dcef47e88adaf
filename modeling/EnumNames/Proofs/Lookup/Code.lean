import EnumNames.Lookup.Code
import EnumNames.Proofs.Code.Eval
import EnumNames.Proofs.Lookup.Plan

/-!
# The code of lookup plans

Run for a text, the code of a lookup plan finds what the plan finds, whatever the shape of the plan.

* `forEach_hashLoop`: the loop over the bytes computes the hash.
* `bucket_eq_arm`: one arm for each hash, which holds the entries of that hash in their order.
* `HasEntries.searchLoop_searchEnv`: the loop that halves takes the steps of `bisect?`.
* `answer?_select`: the code of a plan answers as the plan does.
-/

namespace EnumNames.LookupPlan

open Code Std

/-! ## The hash of a text -/

section Hash

variable {f : Frame} {text : String}

/-- The variables of the function for hashed names. -/
def hashEnv (text : String) (hash : UInt32) : Env :=
  [⟨"h", true, .number .u32 hash.toNat⟩, ⟨"name", false, .text text⟩]

/-- Hashes are values of their type. -/
theorem contains_u32 (n : UInt32) : IntType.u32.contains n.toNat := by
  have := n.toNat_lt
  exact (IntType.contains_unsigned rfl).2 ⟨by omega, show _ < (0x100000000 : Int) by omega⟩

/-- A byte is mixed into the hash without leaving the type. -/
theorem mix?_u32 (a b : UInt32) :
    (Val.number .u32 a.toNat).mix? (.number .u32 b.toNat)
      = some (.number .u32 (a ^^^ b).toNat) := by
  have hxor : (a.toNat ^^^ b.toNat : Nat) = (a ^^^ b).toNat := (UInt32.toNat_xor a b).symm
  rw [Val.mix?, Val.pair?, if_pos rfl]
  simp only [Int.toNat_natCast, hxor]
  rw [if_pos ⟨by omega, by omega⟩, Val.number?_eq_some (contains_u32 _)]

/-- The hash is multiplied modulo its width. -/
theorem wrap_u32 (a b : UInt32) : IntType.u32.wrap (a.toNat * b.toNat) = (a * b).toNat := by
  rw [UInt32.toNat_mul]
  rfl

/-- One pass of the loop combines the hash with a byte. -/
theorem runStmts_hashStep (hash : UInt32) (byte : UInt8) :
    (runStmts f [.mix "h" (.cast (.var "b") .u32),
        .assign "h" (.wrappingMul "h" Digest.fnvPrime.toNat)]
        (⟨"b", false, .number .u8 byte.toNat⟩ :: hashEnv text hash)).bind (Flow.closed? 2)
      = some (.next (hashEnv text (Digest.fnvStep hash byte))) := by
  have hbyte : (Expr.cast (.var "b") .u32).eval? f
      (⟨"b", false, .number .u8 byte.toNat⟩ :: hashEnv text hash)
      = some (.number .u32 byte.toUInt32.toNat) := by
    rw [UInt8.toNat_toUInt32]
    refine eval?_cast (eval?_var (value?_cons_self _ _ _ _)) ?_
    rw [← UInt8.toNat_toUInt32]
    exact contains_u32 _
  have hassign : ∀ hash hash' : UInt32, Env.assign?
      (⟨"b", false, .number .u8 byte.toNat⟩ :: hashEnv text hash) "h" (.number .u32 hash'.toNat)
      = some (⟨"b", false, .number .u8 byte.toNat⟩ :: hashEnv text hash') := by
    intro hash hash'
    rw [assign?_cons_of_ne (by simp), hashEnv, assign?_cons_self]
    rfl
  have hvalue : ∀ hash : UInt32, Env.value?
      (⟨"b", false, .number .u8 byte.toNat⟩ :: hashEnv text hash) "h"
      = some (.number .u32 hash.toNat) := by
    intro hash
    rw [value?_cons_of_ne (by simp), hashEnv, value?_cons_self]
  have hproduct : ∀ hash : UInt32, (Expr.wrappingMul "h" Digest.fnvPrime.toNat).eval? f
      (⟨"b", false, .number .u8 byte.toNat⟩ :: hashEnv text hash)
      = some (.number .u32 (hash * Digest.fnvPrime).toNat) := by
    intro hash
    rw [Expr.eval?, hvalue hash]
    simp only [contains_u32, if_true, wrap_u32]
  rw [runStmts_mix (hvalue hash) hbyte (mix?_u32 _ _) (hassign hash _),
    runStmts_assign (hproduct _) (hassign _ _)]
  rfl

/-- The loop over the bytes of a text goes on with the hash from where it stands. -/
theorem forEach_hashLoop (bytes : List UInt8) (hash : UInt32) :
    forEach (fun byte env =>
        (runStmts f [.mix "h" (.cast (.var "b") .u32),
          .assign "h" (.wrappingMul "h" Digest.fnvPrime.toNat)]
          (⟨"b", false, .number .u8 byte.toNat⟩ :: env)).bind (Flow.closed? env.length))
        bytes (hashEnv text hash)
      = some (.next (hashEnv text (bytes.foldl Digest.fnvStep hash))) := by
  induction bytes generalizing hash with
  | nil => rfl
  | cons byte bytes ih =>
    rw [forEach, show (hashEnv text hash).length = 2 from rfl, runStmts_hashStep,
      Option.bind_some, Flow.andThen, ih, List.foldl_cons]

/-- Before any byte, the hash is the offset basis. -/
theorem run?_hashInit : (Stmt.bindVar "h" .u32 (.int Digest.fnvOffset.toNat)).run? f
    [⟨"name", false, .text text⟩] = some (.next (hashEnv text Digest.fnvOffset)) := by
  rw [Stmt.run?, Expr.eval?, Option.bind_some, Val.ofType?,
    Val.number?_eq_some (contains_u32 Digest.fnvOffset)]
  rfl

theorem value?_hashEnv_name (text : String) (hash : UInt32) :
    (hashEnv text hash).value? "name" = some (.text text) := by
  rw [hashEnv, value?_cons_of_ne (by simp), value?_cons_self]

/-- The loop over the bytes of the name computes its hash. -/
theorem run?_hashLoop : (Stmt.eachByte "b" "name" [.mix "h" (.cast (.var "b") .u32),
    .assign "h" (.wrappingMul "h" Digest.fnvPrime.toNat)]).run? f
    (hashEnv text Digest.fnvOffset) = some (.next (hashEnv text (Digest.fnv1a text))) := by
  rw [Stmt.run?, value?_hashEnv_name]
  exact forEach_hashLoop text.toUTF8.toList Digest.fnvOffset

end Hash

/-! ## The arms of the hashes -/

/-- The arms in a row hold all entries with their hashes, in their order. -/
theorem flatMap_hashArms (entries : List (UInt32 × LookupEntry)) :
    ((hashArms entries).flatMap fun arm => arm.2.map (arm.1, ·)) = entries := by
  induction entries with
  | nil => rfl
  | cons x entries ih =>
    obtain ⟨h, e⟩ := x
    rw [hashArms]
    split
    · next h' es arms harms =>
      rw [harms, List.flatMap_cons] at ih
      split
      · next heq =>
        subst heq
        rw [List.flatMap_cons, List.map_cons, List.cons_append, ih]
      · rw [List.flatMap_cons, List.flatMap_cons, ih]
        rfl
    · next harms =>
      rw [harms] at ih
      rw [← ih]
      rfl

/-- An arm has at least the entry that it was opened for. -/
theorem ne_nil_of_mem_hashArms {entries : List (UInt32 × LookupEntry)} :
    ∀ arm ∈ hashArms entries, arm.2 ≠ [] := by
  induction entries with
  | nil => simp [hashArms]
  | cons x entries ih =>
    obtain ⟨h, e⟩ := x
    rw [hashArms]
    split
    · next h' es arms harms =>
      rw [harms] at ih
      split <;> intro arm harm <;> rcases List.mem_cons.1 harm with rfl | harm
      · exact List.cons_ne_nil e es
      · exact ih arm (List.mem_cons_of_mem _ harm)
      · exact List.cons_ne_nil e []
      · exact ih arm harm
    · intro arm harm
      rw [List.mem_singleton] at harm
      rw [harm]
      exact List.cons_ne_nil e []

/-- An entry is tested in the arm of its own hash. -/
theorem mem_of_mem_hashArms {entries : List (UInt32 × LookupEntry)}
    {arm : UInt32 × List LookupEntry} (harm : arm ∈ hashArms entries) {e : LookupEntry}
    (he : e ∈ arm.2) : (arm.1, e) ∈ entries := by
  rw [← flatMap_hashArms entries, List.mem_flatMap]
  exact ⟨arm, harm, List.mem_map.2 ⟨e, he, rfl⟩⟩

/-- No hash has two arms. -/
theorem pairwise_hashArms {entries : List (UInt32 × LookupEntry)}
    (h : entries.Pairwise fun a b => a.1 ≤ b.1) :
    (hashArms entries).Pairwise fun a b => a.1 < b.1 := by
  induction entries with
  | nil => exact List.Pairwise.nil
  | cons x entries ih =>
    obtain ⟨hash, e⟩ := x
    have htail := ih h.tail
    have hle : ∀ arm ∈ hashArms entries, hash ≤ arm.1 := by
      intro arm harm
      obtain ⟨e', he'⟩ := List.exists_mem_of_ne_nil _ (ne_nil_of_mem_hashArms arm harm)
      exact List.rel_of_pairwise_cons h (mem_of_mem_hashArms harm he')
    rw [hashArms]
    split
    · next h' es arms harms =>
      rw [harms] at htail hle
      split
      · next heq =>
        subst heq
        exact List.Pairwise.cons (fun arm harm => List.rel_of_pairwise_cons htail harm) htail.tail
      · next hne =>
        have hlt : hash < h' :=
          UInt32.lt_of_le_of_ne (hle _ List.mem_cons_self) hne
        refine List.Pairwise.cons (fun arm harm => ?_) htail
        rcases List.mem_cons.1 harm with rfl | harm
        · exact hlt
        · exact UInt32.lt_trans hlt (List.rel_of_pairwise_cons htail harm)
    · exact List.pairwise_singleton _ _

/-- The arm of a hash holds all entries of that hash. -/
theorem filter_eq_of_arms {arms : List (UInt32 × List LookupEntry)}
    (h : arms.Pairwise fun a b => a.1 < b.1) (hash : UInt32) :
    (arms.flatMap fun arm => arm.2.map (arm.1, ·)).filter (·.1 == hash)
      = match arms.find? (·.1 == hash) with
        | some arm => arm.2.map (hash, ·)
        | none => [] := by
  -- the first arm has the least hash, so it takes all entries of its hash from the front
  induction arms with
  | nil => rfl
  | cons arm arms ih =>
    rw [List.flatMap_cons, List.filter_append, ih h.tail, List.find?_cons]
    by_cases heq : arm.1 = hash
    · subst heq
      have hall : (arm.2.map (arm.1, ·)).filter (·.1 == arm.1) = arm.2.map (arm.1, ·) := by
        rw [List.filter_eq_self]
        intro x hx
        obtain ⟨e, -, rfl⟩ := List.mem_map.1 hx
        exact beq_self_eq_true arm.1
      have hrest : arms.find? (·.1 == arm.1) = none := by
        rw [List.find?_eq_none]
        intro arm' harm' hsame
        have hlt : arm.1 < arm'.1 := List.rel_of_pairwise_cons h harm'
        rw [beq_iff_eq] at hsame
        rw [hsame] at hlt
        exact UInt32.lt_irrefl _ hlt
      simp only [hall, hrest, beq_self_eq_true, List.append_nil]
    · have hnone : (arm.2.map (arm.1, ·)).filter (·.1 == hash) = [] := by
        rw [List.filter_eq_nil_iff]
        intro x hx hsame
        obtain ⟨e, -, rfl⟩ := List.mem_map.1 hx
        exact heq (beq_iff_eq.1 hsame)
      rw [hnone, beq_false_of_ne heq, List.nil_append]

/-- The arm of a hash is the bucket of the hash. -/
theorem bucket_eq_arm (entries : List LookupEntry) (hash : UInt32) :
    (bucket (hashed entries) hash).map Prod.snd
      = match (hashArms (hashed entries)).find? (·.1 == hash) with
        | some arm => arm.2
        | none => [] := by
  have harms := pairwise_hashArms (pairwise_hashed entries)
  rw [bucket_eq_filter (pairwise_hashed entries)]
  have hfilter := filter_eq_of_arms harms hash
  rw [flatMap_hashArms] at hfilter
  rw [hfilter]
  cases (hashArms (hashed entries)).find? (·.1 == hash) with
  | none => rfl
  | some arm =>
    simp only [List.map_map]
    exact List.map_id arm.2

/-! ## The switch -/

section Switch

variable {f : Frame} {env : Env} {text : String}

/-- What is answered with the constant that a text leads to. -/
def choice (e : Option LookupEntry) : Answer :=
  .value (.choice (e.map LookupEntry.reference))

/-- The references of entries lead to constants from a place where some names are taken. -/
def AreVisible (f : Frame) (taken : List String) (entries : List LookupEntry) : Prop :=
  ∀ e ∈ entries, f.constant? taken e.reference = some (.constant e.reference)

/-- A constant that is visible is answered with. -/
theorem answer?_found {e : LookupEntry}
    (h : f.constant? env.names e.reference = some (.constant e.reference)) :
    (Expr.someOf (.path e.reference)).answer? f env = some (choice (some e)) := by
  have hvalue : (Expr.someOf (.path e.reference)).eval? f env
      = some (.choice (some e.reference)) := by
    rw [Expr.eval?, Expr.eval?, h]
  exact answer?_of_eval? hvalue

/-- The block of a hash leaves the function with the first entry of the name, if there is one. -/
theorem runStmts_hashBlock (hname : env.value? "name" = some (.text text))
    {es : List LookupEntry} (hvisible : AreVisible f env.names es) :
    runStmts f (hashBlock es) env
      = match es.find? (·.name == text) with
        | some e => some (.leave (choice (some e)))
        | none => some (.next env) := by
  induction es with
  | nil => rfl
  | cons e es ih =>
    obtain ⟨he, hes⟩ := List.forall_mem_cons.1 hvisible
    have htest : (Expr.binary .equal (.var "name") (.literal e.name)).truth? f env
        = some (text == e.name) := by
      rw [Expr.truth?, Expr.eval?, eval?_var hname]
      rfl
    rw [hashBlock, List.map_cons, List.find?_cons]
    by_cases heq : text = e.name
    · have hret : runStmts f [found e] env = some (.leave (choice (some e))) :=
        runStmts_ret (answer?_found he)
      rw [runStmts_when_leave (htest.trans (by rw [heq, beq_self_eq_true])) hret, heq,
        beq_self_eq_true]
    · rw [runStmts_when_false (htest.trans (by rw [beq_false_of_ne heq])),
        beq_false_of_ne (Ne.symm heq)]
      exact ih hes

/-- Of the arms, the one of the hash is run. -/
theorem runArm_hashArms (hname : env.value? "name" = some (.text text)) (hash : UInt32)
    {arms : List (UInt32 × List LookupEntry)}
    (hvisible : ∀ arm ∈ arms, AreVisible f env.names arm.2) :
    runArm f hash.toNat (arms.map fun (h, es) => (h, hashBlock es)) env
      = match (arms.find? (·.1 == hash)).bind fun arm => arm.2.find? (·.name == text) with
        | some e => some (.leave (choice (some e)))
        | none => some (.next env) := by
  induction arms with
  | nil => rfl
  | cons arm arms ih =>
    obtain ⟨h, es⟩ := arm
    obtain ⟨hes, harms⟩ := List.forall_mem_cons.1 hvisible
    rw [List.map_cons, runArm, List.find?_cons]
    by_cases heq : h = hash
    · subst heq
      rw [if_pos rfl, runStmts_hashBlock hname hes]
      simp only [beq_self_eq_true, Option.bind_some]
      cases es.find? (·.name == text) with
      | none => rw [Option.bind_some, closed?_next]
      | some e => rfl
    · have hne : ¬(hash.toNat : Int) = h.toNat := by
        intro hsame
        exact heq (UInt32.toNat_inj.1 (Int.ofNat_inj.1 hsame.symm))
      rw [if_neg hne, ih harms]
      simp only [beq_false_of_ne heq]

/-- The entry of a name is looked for in the arm of its hash. -/
theorem find?_hashedSwitch_eq_arms (entries : List LookupEntry) (text : String) :
    (hashedSwitch (hashed entries)).find? text
      = ((hashArms (hashed entries)).find? (·.1 == Digest.fnv1a text)).bind
          fun arm => arm.2.find? (·.name == text) := by
  have hmap := List.find?_map (f := Prod.snd)
    (p := fun e : LookupEntry => e.name == text)
    (l := bucket (hashed entries) (Digest.fnv1a text))
  rw [bucket_eq_arm] at hmap
  rw [find?]
  refine hmap.symm.trans ?_
  cases (hashArms (hashed entries)).find? (·.1 == Digest.fnv1a text) with
  | none => rfl
  | some arm => rfl

/-- The function for hashed names finds what the plan finds. -/
theorem run_hashedBody {entries : List LookupEntry}
    (hvisible : AreVisible f ["h", "name"] entries) (text : String) :
    (runStmts f (hashedBody (hashed entries)) [⟨"name", false, .text text⟩]).bind Flow.answer?
      = some (choice ((hashedSwitch (hashed entries)).find? text)) := by
  have hname := value?_hashEnv_name text (Digest.fnv1a text)
  have harms : ∀ arm ∈ hashArms (hashed entries),
      AreVisible f (hashEnv text (Digest.fnv1a text)).names arm.2 := by
    intro arm harm e he
    obtain ⟨e', he', heq⟩ := mem_hashed.1 (mem_of_mem_hashArms harm he)
    obtain ⟨-, rfl⟩ := Prod.mk.inj heq
    exact hvisible _ he'
  have hswitch : (Stmt.switch "h" ((hashArms (hashed entries)).map
      fun (h, es) => (h, hashBlock es))).run? f (hashEnv text (Digest.fnv1a text))
      = match (hashedSwitch (hashed entries)).find? text with
        | some e => some (.leave (choice (some e)))
        | none => some (.next (hashEnv text (Digest.fnv1a text))) := by
    rw [Stmt.run?, hashEnv, value?_cons_self]
    simp only [if_true]
    rw [find?_hashedSwitch_eq_arms]
    exact runArm_hashArms hname (Digest.fnv1a text) harms
  rw [hashedBody]
  -- the statements one by one: the hash of no byte, the hash of all bytes, the arms
  simp only [runStmts, Stmt.run?.eq_1, Stmt.run?.eq_2, run?_hashInit, run?_hashLoop, hswitch]
  cases (hashedSwitch (hashed entries)).find? text with
  | none => rfl
  | some e => rfl

end Switch

/-! ## The map -/

/-- Where one entry at most is a hit, the last hit is the first one. -/
theorem find?_reverse {α : Type} {p : α → Bool} {l : List α}
    (h : l.Pairwise fun a b => p a → ¬p b) : l.reverse.find? p = l.find? p := by
  induction l with
  | nil => rfl
  | cons a l ih =>
    rw [List.reverse_cons, List.find?_append, ih h.tail]
    by_cases hp : p a
    · have hnone : l.find? p = none :=
        List.find?_eq_none.2 fun b hb => List.rel_of_pairwise_cons h hb hp
      rw [hnone, List.find?_cons_of_pos hp, List.find?_cons_of_pos hp]
      rfl
    · rw [List.find?_cons_of_neg hp, List.find?_cons_of_neg hp, List.find?_nil, Option.or_none]

/-- No two entries of the map have the same key, so that none replaces another. -/
theorem run_mapBody {f : Frame} {entries : List LookupEntry}
    (h : entries.Pairwise fun a b => compare a.name b.name = .lt)
    (hvisible : AreVisible f ["LOOKUP", "name"] entries) (text : String) :
    (runStmts f [.mapLookup f.typeName (entries.map fun e => (e.name, e.reference)) "name"]
      [⟨"name", false, .text text⟩]).bind Flow.answer?
      = some (choice ((directMap entries).find? text)) := by
  have hne : entries.Pairwise fun a b => (a.name == text) = true → ¬(b.name == text) = true := by
    refine h.imp fun hlt ha hb => ?_
    rw [beq_iff_eq] at ha hb
    rw [ha, hb, ReflOrd.compare_self] at hlt
    contradiction
  have hfind : ((entries.map fun e => (e.name, e.reference)).reverse.find? (·.1 == text)).map
      Prod.snd = (entries.find? (·.name == text)).map LookupEntry.reference := by
    rw [← List.map_reverse, List.find?_map, Option.map_map, ← find?_reverse hne]
    rfl
  have hall : (entries.map fun e => (e.name, e.reference)).all (fun e =>
      (f.constant? ("LOOKUP" :: Env.names [⟨"name", false, .text text⟩]) e.2).isSome) = true := by
    rw [List.all_map, List.all_eq_true]
    intro e he
    exact Option.isSome_of_eq_some (hvisible e he)
  rw [runStmts, Stmt.run?, value?_cons_self]
  simp only [hall, and_self, if_true, hfind]
  rfl

/-! ## The search by halving -/

/-- What the code of a search relies on: the names, their offsets and the constants are among the
items, all in the order of the entries. -/
structure HasEntries (f : Frame) (names index values : String) (entries : List LookupEntry) :
    Prop where
  length_lt : entries.length < 0x10000000000000000
  byteCount_lt : NameTable.byteCount (entries.map LookupEntry.name) < 0x100000000
  item?_names : f.item? names = some (.blob names (table entries).blob)
  item?_index : f.item? index = some (.offsets index (table entries).width (table entries).offsets)
  item?_values : f.item? values
    = some (.constants values f.typeName (entries.map LookupEntry.reference))
  areVisible : AreVisible f [] entries

/-- The variables of the function that searches by halving. -/
def searchEnv (text : String) (low high : Nat) : Env :=
  [⟨"hi", true, .number .usize high⟩, ⟨"lo", true, .number .usize low⟩,
    ⟨"name", false, .text text⟩]

/-- The variables in the body of the loop, once the name in the middle is known. -/
def stepEnv (text name : String) (low high mid : Nat) : Env :=
  ⟨"s", false, .text name⟩ :: ⟨"mid", false, .number .usize mid⟩ :: searchEnv text low high

theorem value?_stepEnv_mid (text name : String) (low high mid : Nat) :
    (stepEnv text name low high mid).value? "mid" = some (.number .usize mid) := by
  rw [stepEnv, value?_cons_of_ne (by simp), value?_cons_self]

theorem value?_stepEnv_name (text name : String) (low high mid : Nat) :
    (stepEnv text name low high mid).value? "name" = some (.text text) := by
  rw [stepEnv, value?_cons_of_ne (by simp), value?_cons_of_ne (by simp), searchEnv,
    value?_cons_of_ne (by simp), value?_cons_of_ne (by simp), value?_cons_self]

/-- The upper bound is lowered from inside the loop. -/
theorem assign?_stepEnv_hi (text name : String) (low high mid high' : Nat) :
    (stepEnv text name low high mid).assign? "hi" (.number .usize high')
      = some (stepEnv text name low high' mid) := by
  rw [stepEnv, assign?_cons_of_ne (by simp), assign?_cons_of_ne (by simp), searchEnv,
    assign?_cons_self]
  rfl

/-- The lower bound is raised from inside the loop. -/
theorem assign?_stepEnv_lo (text name : String) (low high mid low' : Nat) :
    (stepEnv text name low high mid).assign? "lo" (.number .usize low')
      = some (stepEnv text name low' high mid) := by
  rw [stepEnv, assign?_cons_of_ne (by simp), assign?_cons_of_ne (by simp), searchEnv,
    assign?_cons_of_ne (by simp), assign?_cons_self]
  rfl

namespace HasEntries

variable {f : Frame} {names index values text : String} {entries : List LookupEntry}

/-- The body of the loop. -/
def searchStep (names index values : String) : List Stmt :=
  [.bind "mid" (.binary .add (.var "lo")
      (.binary .div (.paren (.binary .sub (.var "hi") (.var "lo"))) (.int 2))),
    .bind "s" (.tableSlice names index "mid"),
    .order "name" "s" (.someOf (.element values (.var "mid"))) ("hi", .var "mid")
      ("lo", .binary .add (.var "mid") (.int 1))]

/-- The middle is computed without leaving the type. -/
theorem eval?_mid (f : Frame) (text : String) {low high : Nat} (hlow : low < high)
    (hhigh : high < 0x10000000000000000) :
    (Expr.binary .add (.var "lo")
      (.binary .div (.paren (.binary .sub (.var "hi") (.var "lo"))) (.int 2))).eval? f
        (searchEnv text low high)
      = some (.number .usize (low + (high - low) / 2 : Nat)) := by
  have hhi : (Expr.var "hi").eval? f (searchEnv text low high) = some (.number .usize high) :=
    eval?_var (value?_cons_self _ _ _ _)
  have hlo : (Expr.var "lo").eval? f (searchEnv text low high) = some (.number .usize low) := by
    refine eval?_var ?_
    rw [searchEnv, value?_cons_of_ne (by simp), value?_cons_self]
  have hsub : (Expr.paren (.binary .sub (.var "hi") (.var "lo"))).eval? f
      (searchEnv text low high) = some (.number .usize (high - low : Nat)) := by
    rw [Expr.eval?, eval?_binary (by decide) hhi hlo, BinOp.result?,
      show (high : Int) - low = (high - low : Nat) by omega]
    exact Val.number?_eq_some (IntType.contains_usize.2 (by omega))
  have hdiv : (Expr.binary .div (.paren (.binary .sub (.var "hi") (.var "lo"))) (.int 2)).eval? f
      (searchEnv text low high) = some (.number .usize ((high - low) / 2 : Nat)) := by
    rw [eval?_binary_int (by decide) hsub (by decide), BinOp.result?, if_neg (by decide),
      Int.tdiv_eq_ediv_of_nonneg (by omega),
      show ((high - low : Nat) : Int) / 2 = ((high - low) / 2 : Nat) by omega]
    exact Val.number?_eq_some (IntType.contains_usize.2 (by omega))
  rw [eval?_binary (by decide) hlo hdiv, BinOp.result?,
    show (low : Int) + ((high - low) / 2 : Nat) = (low + (high - low) / 2 : Nat) by omega]
  exact Val.number?_eq_some (IntType.contains_usize.2 (by omega))

/-- One pass of the loop halves the places that are left, or ends the search. -/
theorem runStmts_searchStep (h : HasEntries f names index values entries) {low high : Nat}
    (hlow : low < high) (hhigh : high ≤ entries.length)
    (hmid : low + (high - low) / 2 < entries.length) :
    (runStmts f (searchStep names index values) (searchEnv text low high)).bind (Flow.closed? 3)
      = match compare text entries[low + (high - low) / 2].name with
        | .eq => some (.leave (choice (some entries[low + (high - low) / 2])))
        | .lt => some (.next (searchEnv text low (low + (high - low) / 2)))
        | .gt => some (.next (searchEnv text (low + (high - low) / 2 + 1) high)) := by
  have hlen := h.length_lt
  generalize hm : low + (high - low) / 2 = mid at hmid
  have hbind := eval?_mid f text hlow (Nat.lt_of_le_of_lt hhigh hlen)
  rw [hm] at hbind
  have hslice : (Expr.tableSlice names index "mid").eval? f
      (⟨"mid", false, .number .usize mid⟩ :: searchEnv text low high)
      = some (.text entries[mid].name) := by
    have hplace : mid < (entries.map LookupEntry.name).length := by
      rw [List.length_map]
      exact hmid
    have hget := eval?_tableSlice h.item?_names h.item?_index h.byteCount_lt
      (value?_cons_self "mid" false (.number .usize mid) (searchEnv text low high)) hplace
      (by rw [List.length_map]; exact hlen)
    rw [List.getElem_map] at hget
    exact hget
  have hmidVar : (Expr.var "mid").eval? f (stepEnv text entries[mid].name low high mid)
      = some (.number .usize mid) :=
    eval?_var (value?_stepEnv_mid _ _ _ _ _)
  -- after the two bindings, what happens is up to the comparison
  have hstep : runStmts f (searchStep names index values) (searchEnv text low high)
      = runStmts f [.order "name" "s" (.someOf (.element values (.var "mid")))
          ("hi", .var "mid") ("lo", .binary .add (.var "mid") (.int 1))]
          (stepEnv text entries[mid].name low high mid) := by
    rw [searchStep, runStmts_bind hbind, runStmts_bind_text hslice]
    rfl
  rw [hstep, runStmts, Stmt.run?, value?_stepEnv_name, stepEnv, value?_cons_self, ← stepEnv]
  cases hc : compare text entries[mid].name with
  | eq =>
    have hfound : (Expr.someOf (.element values (.var "mid"))).eval? f
        (stepEnv text entries[mid].name low high mid)
        = some (.choice (some entries[mid].reference)) := by
      have helement : f.element? values mid = some (.constant entries[mid].reference) := by
        have hvisible := h.areVisible _ (List.getElem_mem hmid)
        rw [Frame.element?, h.item?_values]
        simp [List.getElem?_eq_getElem hmid, hvisible]
      rw [Expr.eval?, Expr.eval?, hmidVar, Option.bind_some, Val.place?_usize, Option.bind_some,
        helement]
    simp only [hc, answer?_of_eval? hfound]
    rfl
  | lt =>
    simp only [hc, hmidVar, Option.bind_some, assign?_stepEnv_hi]
    rfl
  | gt =>
    have hnext : (Expr.binary .add (.var "mid") (.int 1)).eval? f
        (stepEnv text entries[mid].name low high mid)
        = some (.number .usize (mid + 1 : Nat)) := by
      rw [eval?_binary_int (by decide) hmidVar (by decide)]
      exact Val.number?_eq_some (IntType.contains_usize.2 (by omega))
    simp only [hc, hnext, Option.bind_some, assign?_stepEnv_lo]
    rfl

/-- The loop goes on as long as the bounds leave places. -/
theorem truth?_searchTest (text : String) (low high : Nat) :
    (Expr.binary .less (.var "lo") (.var "hi")).truth? f (searchEnv text low high)
      = some (decide (low < high)) := by
  have hhi : (Expr.var "hi").eval? f (searchEnv text low high) = some (.number .usize high) :=
    eval?_var (value?_cons_self _ _ _ _)
  have hlo : (Expr.var "lo").eval? f (searchEnv text low high) = some (.number .usize low) := by
    refine eval?_var ?_
    rw [searchEnv, value?_cons_of_ne (by simp), value?_cons_self]
  have htest : (Expr.binary .less (.var "lo") (.var "hi")).eval? f (searchEnv text low high)
      = some (.truth ((low : Int) < high)) :=
    eval?_binary (by decide) hlo hhi
  rw [truth?_of_eval? htest, decide_eq_decide.2 Int.ofNat_lt]

/-- The loop of the function. -/
def searchLoop (f : Frame) (names index values : String) : Env → Option Flow :=
  Env.iterate (Expr.truth? f · (.binary .less (.var "lo") (.var "hi"))) fun env =>
    (runStmts f (searchStep names index values) env).bind (Flow.closed? env.length)

/-- As long as places are left, the loop goes on with one half of them, or leaves the function. -/
theorem searchLoop_eq (h : HasEntries f names index values entries) {low high : Nat}
    (hlow : low < high) (hhigh : high ≤ entries.length)
    (hmid : low + (high - low) / 2 < entries.length) :
    searchLoop f names index values (searchEnv text low high)
      = match compare text entries[low + (high - low) / 2].name with
        | .eq => some (.leave (choice (some entries[low + (high - low) / 2])))
        | .lt => searchLoop f names index values (searchEnv text low (low + (high - low) / 2))
        | .gt => searchLoop f names index values
            (searchEnv text (low + (high - low) / 2 + 1) high) := by
  rw [searchLoop, Env.iterate, truth?_searchTest, decide_eq_true hlow]
  simp only [show (searchEnv text low high).length = 3 from rfl,
    h.runStmts_searchStep hlow hhigh hmid]
  cases compare text entries[low + (high - low) / 2].name <;> rfl

/-- The loop takes the steps of the search by halving, and leaves the function with the entry that
is found. -/
theorem searchLoop_searchEnv (h : HasEntries f names index values entries) (text : String)
    (low high : Nat)
    (hhigh : high ≤ entries.length) :
    ∃ low' high', searchLoop f names index values (searchEnv text low high)
      = match (bisect? (fun i => entries[i]?.map fun x => compare text x.name) low high).bind
            (entries[·]?) with
        | some e => some (.leave (choice (some e)))
        | none => some (.next (searchEnv text low' high')) := by
  -- each pass of the loop is a step of `bisect?` between the same places
  fun_induction bisect? (fun i => entries[i]?.map fun x => compare text x.name) low high with
  | case1 low high hlt mid hmid =>
    rw [List.getElem?_eq_getElem (show mid < entries.length by omega)] at hmid
    contradiction
  | case2 low high hlt mid hmid =>
    have hlen : mid < entries.length := by omega
    rw [List.getElem?_eq_getElem hlen, Option.map_some, Option.some.injEq] at hmid
    refine ⟨0, 0, ?_⟩
    rw [h.searchLoop_eq hlt hhigh hlen, hmid, Option.bind_some, List.getElem?_eq_getElem hlen]
  | case3 low high hlt mid hmid ih =>
    have hlen : mid < entries.length := by omega
    rw [List.getElem?_eq_getElem hlen, Option.map_some, Option.some.injEq] at hmid
    rw [h.searchLoop_eq hlt hhigh hlen, hmid]
    exact ih (by omega)
  | case4 low high hlt mid hmid ih =>
    have hlen : mid < entries.length := by omega
    rw [List.getElem?_eq_getElem hlen, Option.map_some, Option.some.injEq] at hmid
    rw [h.searchLoop_eq hlt hhigh hlen, hmid]
    exact ih hhigh
  | case5 low high hge =>
    refine ⟨low, high, ?_⟩
    rw [searchLoop, Env.iterate, truth?_searchTest, decide_eq_false hge]
    rfl

/-- The function that searches by halving finds what the plan finds. -/
theorem run_searchBody (h : HasEntries f names index values entries) (text : String) :
    (runStmts f (searchBody names index values) [⟨"name", false, .text text⟩]).bind Flow.answer?
      = some (choice ((binarySearch entries).find? text)) := by
  have hinit : (Stmt.bindVars "lo" "hi" (.typedInt .usize 0) (.length values)).run? f
      [⟨"name", false, .text text⟩] = some (.next (searchEnv text 0 entries.length)) := by
    have hlen : IntType.usize.contains entries.length := by
      have := h.length_lt
      rw [IntType.contains_usize]
      omega
    have hcount : f.length? values = some entries.length := by
      rw [Frame.length?, h.item?_values]
      simp only [List.length_map]
    rw [Stmt.run?, Expr.eval?, Expr.eval?, hcount, Option.bind_some, Val.number?_eq_some hlen]
    rfl
  have hfind : (binarySearch entries).find? text
      = (bisect? (fun i => entries[i]?.map fun x => compare text x.name) 0 entries.length).bind
          (entries[·]?) := by
    rw [find?]
    simp only [getElem?_table, Option.map_map]
    rfl
  obtain ⟨low, high, hloop⟩ :=
    h.searchLoop_searchEnv text 0 entries.length (Nat.le_refl _)
  rw [← hfind] at hloop
  have hrun : (Stmt.loop (.binary .less (.var "lo") (.var "hi"))
      (searchStep names index values)).run? f (searchEnv text 0 entries.length) = _ := hloop
  rw [searchStep] at hrun
  rw [searchBody, runStmts, hinit]
  simp only [runStmts, hrun]
  cases (binarySearch entries).find? text with
  | none => rfl
  | some e => rfl

end HasEntries

/-! ## Items -/

/-- The entries have no more bytes in their names than the members. -/
theorem byteCount_distinctNames_le (members : List Member) :
    NameTable.byteCount ((distinctNames members).map LookupEntry.name)
      ≤ NameTable.byteCount (members.map Member.name) := by
  have hsub : (distinctNames members).Sublist (sortedEntries members) := by
    rw [distinctNames_eq]
    exact sublist_keepFirst _
  have hperm : ((sortedEntries members).map LookupEntry.name).Perm (members.map Member.name) := by
    have h := (List.mergeSort_perm (members.map LookupEntry.ofMember) LookupEntry.le).map
      LookupEntry.name
    rw [List.map_map] at h
    exact h
  rw [← NameTable.byteCount_eq_of_perm hperm]
  exact NameTable.byteCount_le_of_sublist (hsub.map LookupEntry.name)

/-- No two entries have the same name. -/
theorem nodup_distinctNames (members : List Member) :
    ((distinctNames members).map LookupEntry.name).Nodup := by
  refine List.pairwise_map.2 ((pairwise_distinctNames members).imp fun hlt heq => ?_)
  rw [heq, ReflOrd.compare_self] at hlt
  contradiction

/-- The arrays of a search by halving have different names, and offsets that fit their width. -/
theorem areProper_binarySearch {entries : List LookupEntry}
    (hsize : NameTable.byteCount (entries.map LookupEntry.name) < 0x100000000)
    (typeName functionName : String) :
    areProper ((binarySearch entries).items typeName functionName) := by
  rw [areProper_iff]
  constructor
  · intro item hitem
    simp only [items, Item.ofTable, List.cons_append, List.nil_append, List.mem_cons,
      List.not_mem_nil, or_false] at hitem
    rcases hitem with rfl | rfl | rfl | rfl | rfl | rfl
    · rfl
    · rfl
    · exact isProper_offsets hsize _
    · rfl
    · rfl
    · rfl
  · show [itemName typeName "name" "_lookup", itemName typeName "index" "_lookup",
      itemName typeName "value" "_lookup"].Nodup
    simp [itemName_inj]

/-- The arrays of a search by halving are among its items, in the order of the entries. -/
theorem hasEntries_binarySearch {entries : List LookupEntry}
    (hsize : NameTable.byteCount (entries.map LookupEntry.name) < 0x100000000)
    (hlen : entries.length < 0x10000000000000000) (typeName functionName : String)
    {constants : List String} (hconstants : ∀ e ∈ entries, e.reference ∈ constants) :
    HasEntries
      ⟨dataItems ((binarySearch entries).items typeName functionName), typeName, none, constants⟩
      (itemName typeName "name" "_lookup") (itemName typeName "index" "_lookup")
      (itemName typeName "value" "_lookup") entries := by
  have hproper := areProper_binarySearch hsize typeName functionName
  refine ⟨hlen, hsize, ?_, ?_, ?_, fun e he => ?_⟩
  · exact Frame.item?_eq_some hproper (by simp [items, Item.ofTable]) rfl _ _ _
  · exact Frame.item?_eq_some hproper (by simp [items, Item.ofTable]) rfl _ _ _
  · exact Frame.item?_eq_some hproper (by simp [items, Item.ofTable]) rfl _ _ _
  · exact if_pos ⟨hconstants e he, by simp⟩

/-- The references of the entries are references of members. -/
theorem exists_member_of_mem_distinctNames {members : List Member} {e : LookupEntry}
    (he : e ∈ distinctNames members) : ∃ m ∈ members, m.constant.reference = e.reference := by
  obtain ⟨m, hm, rfl⟩ := mem_sortedEntries.1 (mem_sortedEntries_of_mem_distinctNames he)
  exact ⟨m, hm, rfl⟩

/-! ## Plans -/

/-- The variables of the function of a plan. -/
def localNames : LookupPlan → List String
  | hashedSwitch _ => ["name", "h", "b"]
  | binarySearch _ => ["name", "lo", "hi", "mid", "s"]
  | directMap _ => ["name"]

/-- What the function of a plan declares for itself, besides its variables. -/
def cellNames : LookupPlan → List String
  | directMap _ => ["LOOKUP"]
  | hashedSwitch _ | binarySearch _ => []

/-- Where the constants of the members can be seen, the code of a plan answers with the constant of
the entry that the plan finds, whatever the shape of the plan. -/
theorem answer?_select {members : List Member} {constants : List String}
    (hsize : NameTable.byteCount (members.map Member.name) < 0x100000000)
    (hconstants : ∀ m ∈ members, m.constant.reference ∈ constants) (thresholds : Nat × Nat)
    (hvisible : ∀ m ∈ members, m.constant.reference
      ∉ (select members thresholds).localNames ++ (select members thresholds).cellNames)
    (typeName functionName : String) :
    let items := (select members thresholds).items typeName functionName
    areProper items
      ∧ ∃ body, items.filterMap (Item.lookupBody? functionName typeName) = [body]
        ∧ ∀ text, (runStmts ⟨dataItems items, typeName, none, constants⟩ body
            [⟨"name", false, .text text⟩]).bind Flow.answer?
          = some (choice ((select members thresholds).find? text)) := by
  have hmem : ∀ e ∈ distinctNames members, e.reference ∈ constants := by
    intro e he
    obtain ⟨m, hm, hreference⟩ := exists_member_of_mem_distinctNames he
    exact hreference ▸ hconstants m hm
  have hsee : ∀ {f : Frame} {taken : List String}, f.constants = constants →
      (∀ x ∈ taken, x ∈ (select members thresholds).localNames
        ++ (select members thresholds).cellNames) →
        AreVisible f taken (distinctNames members) := by
    intro f taken hf htaken e he
    obtain ⟨m, hm, hreference⟩ := exists_member_of_mem_distinctNames he
    refine if_pos ⟨hf ▸ hmem e he, fun htake => ?_⟩
    exact hvisible m hm (hreference ▸ htaken _ htake)
  rw [select] at hsee ⊢
  split
  · next hhashed =>
    rw [if_pos hhashed] at hsee
    exact ⟨rfl, _, by simp [items, List.filterMap_cons, Item.lookupBody?],
      run_hashedBody (hsee rfl (by simp [localNames]))⟩
  · next hhashed =>
    rw [if_neg hhashed] at hsee
    split
    · have hsize' := Nat.lt_of_le_of_lt (byteCount_distinctNames_le members) hsize
      have hcount := NameTable.length_le_of_nodup (nodup_distinctNames members)
      rw [List.length_map] at hcount
      have hlen : (distinctNames members).length < 0x10000000000000000 := by
        split at hcount <;> omega
      exact ⟨areProper_binarySearch hsize' typeName functionName, _,
        by simp [items, Item.ofTable, List.filterMap_cons, Item.lookupBody?],
        (hasEntries_binarySearch hsize' hlen typeName functionName hmem).run_searchBody⟩
    · next hsearched =>
      rw [if_neg hsearched] at hsee
      exact ⟨rfl, _, by simp [items, List.filterMap_cons, Item.lookupBody?],
        run_mapBody (pairwise_distinctNames members)
          (hsee rfl (by simp [localNames, cellNames]))⟩

end EnumNames.LookupPlan
