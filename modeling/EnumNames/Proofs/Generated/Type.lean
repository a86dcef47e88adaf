import EnumNames.Generated.Type
import EnumNames.Proofs.Except
import EnumNames.Proofs.MemberSet

/-!
# Code of one type

There is code for a type exactly if there is a member set, and the code is made from its members.

* `exists_generate`: every type of an integer kind that has constants gets code.
* `Enumeration.eq_of_generate`: what the code is made from.
* `Enumeration.generate_eq_error_iff`: which types are refused, and with which error.
-/

namespace EnumNames

variable {e : Enumeration} {o : Options} {g : GeneratedType} {err : InputError}

/-- A type of an integer kind that has constants gets code. -/
theorem exists_generate (hkind : (Kind.ofText? e.kind).isSome) (hne : e.constants ≠ []) :
    ∃ g, e.generate o = .ok g := by
  obtain ⟨kind, hkind⟩ := Option.isSome_iff_exists.1 hkind
  exact ⟨_, by rw [Enumeration.generate, Enumeration.memberSet_eq_ok hkind hne]; rfl⟩

namespace Enumeration

/-- What is generated for a type is made from its member set. -/
theorem eq_of_generate (h : e.generate o = .ok g) : e.constants ≠ [] ∧ g =
    { typeName := e.name
      constants := e.constants
      size := e.distinctMembers.length
      display := .select e.distinctMembers o.runThreshold
      lookup := (o.lookupName? e.name).map fun functionName =>
        ⟨functionName, .select e.distinctMembers o.lookupThresholds⟩ } := by
  obtain ⟨set, hset, rfl⟩ := map_eq_ok_iff.1 h
  obtain ⟨kind, -, hne, rfl⟩ := memberSet_eq_ok_iff.1 hset
  exact ⟨hne, rfl⟩

/-- No code is generated for an unknown kind or without constants, and for no other reason. -/
theorem generate_eq_error_iff : e.generate o = .error err ↔
    Kind.ofText? e.kind = none ∧ err = .unsupportedKind e.name e.kind
      ∨ (Kind.ofText? e.kind).isSome ∧ e.constants = [] ∧ err = .noConstants e.name :=
  map_eq_error_iff.trans memberSet_eq_error_iff

/-- Either there is code for a type, or the error names it. -/
theorem generate_cases (e : Enumeration) (o : Options) :
    (∃ g, e.generate o = .ok g ∧ g.typeName = e.name)
      ∨ ∃ err, e.generate o = .error err ∧ err.typeName? = some e.name := by
  cases hg : e.generate o with
  | ok g => exact .inl ⟨g, rfl, by rw [(eq_of_generate hg).2]⟩
  | error err =>
    refine .inr ⟨err, rfl, ?_⟩
    rcases generate_eq_error_iff.1 hg with ⟨-, rfl⟩ | ⟨-, -, rfl⟩ <;> rfl

end Enumeration

end EnumNames
