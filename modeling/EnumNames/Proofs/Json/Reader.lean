import EnumNames.Json.Reader

/-!
# What readers take

A reader is told by the value that it takes off a document and by the rest that it leaves.

* `Yields`: reading gives a value and leaves a rest.
* `exists_peek?`: the character ahead.
-/

namespace EnumNames.Json

variable {α β : Type} {s s' rest : List UInt8} {a : α} {b : β}

/-- Reading gives a value and leaves a rest. -/
def Yields (result : Except Error (Taken α s)) (a : α) (rest : List UInt8) : Prop :=
  ∃ t, result = .ok t ∧ t.value = a ∧ t.rest = rest

/-- What is done with the value does not touch the rest. -/
theorem Yields.map {result : Except Error (Taken α s)} {f : Taken α s → Taken β s'}
    (h : Yields result a rest) (hvalue : ∀ t : Taken α s, t.value = a → (f t).value = b)
    (hrest : ∀ t, (f t).rest = t.rest) : Yields (result.map f) b rest := by
  obtain ⟨t, rfl, ha, rfl⟩ := h
  exact ⟨f t, rfl, hvalue t ha, hrest t⟩

/-- A character that is no blank is seen at once. -/
theorem exists_peek? {first : UInt8} (hs : s = first :: s') (h : isBlankByte first = false) :
    ∃ p, peek? s = some p ∧ p.char = Char.ofUInt8 first ∧ p.rest = s' ∧ p.whole.rest = s := by
  have hskip : skipBlanks s = first :: s' := by
    rw [hs, skipBlanks, List.dropWhile_cons_of_neg (by simp [h])]
  unfold peek?
  split
  · next hnil => exact nomatch hskip.symm.trans hnil
  · next first' rest hcons =>
    obtain ⟨rfl, rfl⟩ := List.cons.inj (hskip.symm.trans hcons)
    exact ⟨_, rfl, rfl, rfl, hs.symm⟩

end EnumNames.Json
