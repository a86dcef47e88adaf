import EnumNames.Disk.Store
import Mathlib.Order.Defs.Unbundled

/-!
# Steps on the state of a store

A run is made of operations of a store. If each of these changes the state in a certain way at most,
and such changes add up to such a change, so does every step that is made of them.

* `Changes`: a step changes the state in a given way at most.
* `changes_makeDirectories`: making directories is made of making single ones.
-/

namespace EnumNames

open FileStore

variable {σ α β : Type} {R : σ → σ → Prop} {step : StateM σ α} {next : α → StateM σ β}

theorem bind_apply (step : StateM σ α) (next : α → StateM σ β) (s : σ) :
    (step >>= next) s = next (step s).1 (step s).2 := rfl

/-- Whatever the state is, a step leads to a state that is related to it. -/
def Changes (R : σ → σ → Prop) (step : StateM σ α) : Prop :=
  ∀ s, R s (step s).2

variable [IsPreorder σ R]

theorem changes_pure (a : α) : Changes R (pure a : StateM σ α) :=
  fun s => refl_of R s

/-- Steps in a row change the state in a transitive way if each of them does. -/
theorem Changes.bind (h : Changes R step) (hnext : ∀ a, Changes R (next a)) :
    Changes R (step >>= next) :=
  fun s => trans_of R (h s) (hnext (step s).1 (step s).2)

variable [FileStore (StateM σ)]

/-- An error that is dropped for a directory changes nothing more than the look at it. -/
theorem changes_unlessThere (hlook : ∀ path, Changes R (isDirectory path : StateM σ Bool))
    (path : String) (e : FileError) :
    Changes R (unlessThere path e : StateM σ (Except FileError Unit)) := by
  apply (hlook path).bind
  intro isThere
  cases isThere <;> exact changes_pure _

/-- A row of directories is made by making single ones, also if some of them cannot be made. -/
theorem changes_makeLineage (hlook : ∀ path, Changes R (isDirectory path : StateM σ Bool))
    (hmake : ∀ path, Changes R (makeDirectory path : StateM σ (Except FileError Unit)))
    (lineage : List String) :
    Changes R (makeLineage lineage : StateM σ (Except FileError Unit)) := by
  induction lineage with
  | nil => exact changes_pure _
  | cons path outer ih =>
    apply (hmake path).bind
    intro made
    obtain e | _ := made
    · cases e with
      | notFound =>
        -- the directories around it come first, then it is tried once more
        apply ih.bind
        intro madeOuter
        obtain e | _ := madeOuter
        · exact changes_pure _
        apply (hmake path).bind
        intro madeLast
        obtain e | _ := madeLast
        · exact changes_unlessThere hlook path e
        · exact changes_pure _
      | _ => exact changes_unlessThere hlook path _
    · exact changes_pure _

/-- Making directories one inside the other is a row of such steps. -/
theorem changes_makeDirectories (hlook : ∀ path, Changes R (isDirectory path : StateM σ Bool))
    (hmake : ∀ path, Changes R (makeDirectory path : StateM σ (Except FileError Unit)))
    (path : String) : Changes R (makeDirectories path : StateM σ (Except FileError Unit)) :=
  changes_makeLineage hlook hmake _

end EnumNames
