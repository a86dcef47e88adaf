import EnumNames.Json.Record
import EnumNames.Proofs.Except

/-!
# What a document of some length can hold

A list that is read from a document has no more elements than the document has bytes, since each
element takes at least one. What all fields of a record keep true is true of the record.

* `Reader.Ensures`: what is true of all that is read from documents up to some length.
* `Reader.Ensures.list`, `Schema.ensures_read`: lists and records.
-/

namespace EnumNames.Json

variable {α β : Type} {n : Nat}

/-- Whatever the reader takes off a document of at most `n` bytes satisfies `P`. -/
def Reader.Ensures (read : Reader α) (n : Nat) (P : α → Prop) : Prop :=
  ∀ s, s.length ≤ n → ∀ t, read s = .ok t → P t.value

namespace Reader

variable {read : Reader α} {P : α → Prop}

theorem ensures_true (read : Reader α) (n : Nat) : read.Ensures n fun _ => True :=
  fun _ _ _ _ => trivial

/-- A refusal is no result. -/
theorem refuse_ne_ok (expected : String) {s : List UInt8} (a : α) : refuse expected s ≠ .ok a := by
  unfold refuse
  cases lookAt s <;> exact nofun

/-! ## Lists -/

theorem value_of_listEnd_eq {a : α} {s : List UInt8} {t : Taken α s}
    (h : listEnd a s = .ok t) : t.value = a := by
  unfold listEnd at h
  split at h
  · contradiction
  · split at h
    · rw [← Except.ok.inj h]
      rfl
    · split at h
      · split at h
        · split at h <;> contradiction
        · contradiction
      · contradiction

/-- Every element but those read before takes bytes of its own. -/
theorem Ensures.elements (h : read.Ensures n P) (before : List α) {s : List UInt8}
    (hs : s.length ≤ n) {t : Taken (List α) s} (ht : Reader.elements read before s = .ok t) :
    t.value.length ≤ before.length + s.length ∧ ∀ x ∈ t.value, x ∈ before ∨ P x := by
  fun_induction Reader.elements read before s with
  | case1 => contradiction
  | case2 before s hnext =>
    rw [value_of_listEnd_eq ht, List.length_reverse]
    exact ⟨Nat.le_add_right _ _, fun x hx => .inl (List.mem_reverse.1 hx)⟩
  | case3 => contradiction
  | case4 => contradiction
  | case5 before s next hnext u hu v hv ih =>
    have hnextle := next.shorter
    have hult := u.shorter
    obtain ⟨hlength, hmem⟩ := ih (by omega) hv
    rw [← Except.ok.inj ht]
    show v.value.length ≤ _ ∧ ∀ x ∈ v.value, _
    rw [List.length_cons] at hlength
    refine ⟨by omega, fun x hx => ?_⟩
    rcases hmem x hx with hx | hx
    · rcases List.mem_cons.1 hx with rfl | hx
      · exact .inr (h next.rest (by omega) u hu)
      · exact .inl hx
    · exact .inr hx

/-- A list has no more elements than the document has bytes. -/
theorem Ensures.list (h : read.Ensures n P) :
    (Reader.list read).Ensures n fun xs => xs.length ≤ n ∧ ∀ x ∈ xs, P x := by
  intro s hs t ht
  unfold Reader.list bracketed at ht
  split at ht
  · contradiction
  · next p hp =>
    split at ht
    · obtain ⟨u, hu, rfl⟩ := map_eq_ok_iff.1 ht
      have hshorter := p.shorter
      obtain ⟨hlength, hmem⟩ := h.elements [] (by omega) hu
      rw [List.length_nil, Nat.zero_add] at hlength
      show u.value.length ≤ n ∧ ∀ x ∈ u.value, P x
      exact ⟨by omega, fun x hx => (hmem x hx).resolve_left List.not_mem_nil⟩
    · exact absurd ht (refuse_ne_ok _ t)

end Reader

/-! ## Records -/

namespace Schema

variable {schema : Schema α} {P : α → Prop}

/-- Whatever is read for a field of a document of at most `n` bytes keeps `P` true. -/
def Keeps (n : Nat) (P : α → Prop) (field : Field α) : Prop :=
  field.read.Ensures n fun update => ∀ a, P a → P (update a)

/-- A field that puts what is read into the record. -/
theorem keeps_update {read : Reader β} {Q : β → Prop} (h : read.Ensures n Q) (name : String)
    (presence : Presence) (update : β → α → α) (hupdate : ∀ x a, Q x → P a → P (update x a)) :
    Keeps n P ⟨name, presence, fun s => do return (← read s).map update⟩ := by
  intro s hs t ht
  obtain ⟨u, hu, ht⟩ := bind_eq_ok_iff.1 ht
  rw [← Except.ok.inj ht]
  exact fun a ha => hupdate u.value a (h s hs u hu) ha

/-- A field keeps what its update keeps; unknown fields change nothing. -/
theorem Keeps.readValue {field : Option (Field α)} (h : ∀ f ∈ field, Keeps n P f) :
    (Schema.readValue field).Ensures n fun update => ∀ a, P a → P (update a) := by
  intro s hs t ht
  obtain ⟨colon, hcolon, ht⟩ := bind_eq_ok_iff.1 ht
  have hle := colon.shorter
  cases field with
  | some field =>
    obtain ⟨u, hu, ht⟩ := bind_eq_ok_iff.1 ht
    rw [← Except.ok.inj ht]
    exact h field rfl colon.rest (by omega) u hu
  | none =>
    obtain ⟨u, hu, ht⟩ := bind_eq_ok_iff.1 ht
    rw [← Except.ok.inj ht]
    exact fun a ha => ha

theorem value_of_recordEnd_eq {a : α} {s : List UInt8} {t : Taken α s}
    (h : recordEnd a s = .ok t) : t.value = a := by
  unfold recordEnd at h
  split at h
  · contradiction
  · split at h
    · rw [← Except.ok.inj h]
      rfl
    · split at h <;> contradiction

/-- A record read by names keeps what all of its fields keep. -/
theorem of_readNamed (h : ∀ field ∈ schema.fields, Keeps n P field) {record : α}
    (hrecord : P record) {seen : List String} {isFirst : Bool} {s : List UInt8}
    (hs : s.length ≤ n) {t : Taken α s}
    (ht : schema.readNamed record seen isFirst s = .ok t) : P t.value := by
  fun_induction readNamed schema record seen isFirst s with
  | case1 => contradiction
  | case2 => contradiction
  | case3 => rwa [value_of_recordEnd_eq ht]
  | case4 => contradiction
  | case5 => contradiction
  | case6 => contradiction
  | case7 record seen isFirst s key hkey hseen field u hu v hv ih =>
    have hkeyle := key.shorter
    have hule := u.shorter
    have hfield : ∀ f ∈ field, Keeps n P f := fun f hf => h f (List.mem_of_find?_eq_some hf)
    rw [← Except.ok.inj ht]
    exact ih (Keeps.readValue hfield key.rest (by omega) u hu record hrecord) (by omega) hv

/-- A record read as a row keeps what all of its fields keep. -/
theorem of_readRow (expected : String) {fields : List (Field α)}
    (h : ∀ field ∈ fields, Keeps n P field) {record : α} (hrecord : P record) {count : Nat}
    {isFirst : Bool} {s : List UInt8} (hs : s.length ≤ n) {t : Taken α s}
    (ht : readRow expected fields record count isFirst s = .ok t) : P t.value := by
  induction fields generalizing record count isFirst s with
  | nil =>
    rw [readRow] at ht
    rwa [Reader.value_of_listEnd_eq ht]
  | cons field fields ih =>
    rw [readRow] at ht
    have hrest : ∀ f ∈ fields, Keeps n P f := fun f hf => h f (List.mem_cons_of_mem field hf)
    obtain ⟨next, hnext, ht⟩ := bind_eq_ok_iff.1 ht
    cases next with
    | none =>
      simp only at ht
      split at ht
      · exact ih hrest hrecord hs ht
      · contradiction
    | some next =>
      have hle := next.shorter
      obtain ⟨u, hu, ht⟩ := bind_eq_ok_iff.1 ht
      have hule := u.shorter
      obtain ⟨v, hv, ht⟩ := bind_eq_ok_iff.1 ht
      rw [← Except.ok.inj ht]
      show P v.value
      exact ih hrest (h field List.mem_cons_self next.rest (by omega) u hu record hrecord)
        (by omega) hv

/-- What holds of the record before any field is read, and is kept by all fields, holds of what is
read. -/
theorem ensures_read (hblank : P schema.blank) (h : ∀ field ∈ schema.fields, Keeps n P field) :
    schema.read.Ensures n P := by
  intro s hs t ht
  unfold read at ht
  split at ht
  · contradiction
  · next p hp =>
    have hle := p.shorter
    split at ht
    · obtain ⟨u, hu, rfl⟩ := map_eq_ok_iff.1 ht
      exact of_readRow schema.expectedRow h hblank (Nat.le_of_lt (Nat.lt_of_lt_of_le hle hs)) hu
    · split at ht
      · obtain ⟨u, hu, rfl⟩ := map_eq_ok_iff.1 ht
        exact of_readNamed h hblank (Nat.le_of_lt (Nat.lt_of_lt_of_le hle hs)) hu
      · exact absurd ht (Reader.refuse_ne_ok _ t)

end Schema

end EnumNames.Json
