import EnumNames.Proofs.Checked.Display
import Mathlib.Data.List.SplitBy

/-!
# Runs are maximal

Members in order can be cut in one way only into stretches of consecutive values between which a
value is missing. Runs are these stretches, although they are told by patterns that wrap around: in
order, a pattern is followed by its successor only where a number is.

* `AreMaximalRuns`: what is asked of the pieces of a list.
* `Increasing.areMaximalRuns_iff`: the runs have it, and nothing else does.
* `Increasing.runs_maximal`: the runs, their neighbours, and the loop that finds them.
-/

namespace EnumNames

variable {ms : List Member} {pieces : List (List Member)}

/-- Whether a list is cut into its maximal stretches of consecutive values: no piece is empty, and
between two pieces at least one value is missing. -/
structure AreMaximalRuns (ms : List Member) (pieces : List (List Member)) : Prop where
  flatten_eq : pieces.flatten = ms
  ne_nil : ∀ piece ∈ pieces, piece ≠ []
  consecutive : ∀ piece ∈ pieces, piece.IsChain fun a b => b.value = a.value + 1
  apart : pieces.IsChain fun piece next =>
    ∀ a ∈ piece.getLast?, ∀ b ∈ next.head?, a.value + 1 < b.value

namespace Increasing

/-- Of two members in order, the second one follows the first one as a pattern exactly if it does so
as a number. -/
theorem isFollowedBy_iff_of_sublist (h : Increasing ms) {a b : Member} (hab : [a, b].Sublist ms) :
    a.isFollowedBy b ↔ b.value = a.value + 1 := by
  have hlt : a.value < b.value :=
    List.rel_of_pairwise_cons (h.pairwise_value.sublist hab) (List.mem_singleton.2 rfl)
  have hsigned : a.constant.signed = b.constant.signed :=
    h.signed_eq a (hab.subset (by simp)) b (hab.subset (by simp))
  exact Member.isFollowedBy_iff hsigned hlt

/-- The runs of members in order are maximal. -/
theorem areMaximalRuns_runs (h : Increasing ms) :
    AreMaximalRuns ms ((runs ms).map Run.members) where
  flatten_eq := by rw [← List.flatMap_def, flatMap_members_runs]
  ne_nil := by
    rw [List.forall_mem_map]
    exact fun run _ => List.cons_ne_nil run.first run.rest
  consecutive := by
    rw [List.forall_mem_map]
    exact fun run hrun => isConsecutive_of_mem_runs h hrun
  apart := by
    rw [List.isChain_map]
    refine (pairwise_runs h).isChain.imp fun run next hlt a ha b hb => ?_
    have hlast : a = run.last := by
      rw [List.getLast?_eq_getElem?, run.getElem?_members_last] at ha
      exact (Option.some.inj ha).symm
    have hfirst : b = next.first := (Option.some.inj hb).symm
    rw [hlast, hfirst]
    exact hlt

/-- Pieces that are maximal stretches are cut where no pattern is followed by the next one. -/
theorem splitBy_eq (h : Increasing ms) (hp : AreMaximalRuns ms pieces) :
    ms.splitBy Member.isFollowedBy = pieces := by
  have hmem : ∀ piece ∈ pieces, ∀ a ∈ piece, a ∈ ms := fun piece hpiece a ha =>
    hp.flatten_eq ▸ List.mem_flatten.2 ⟨piece, hpiece, ha⟩
  have hfollowed : ∀ a ∈ ms, ∀ b ∈ ms, a.value < b.value →
      (a.isFollowedBy b ↔ b.value = a.value + 1) :=
    fun a ha b hb => Member.isFollowedBy_iff (h.signed_eq a ha b hb)
  -- patterns follow one another within a piece, and do not from one piece to the next
  refine List.splitBy_eq_iff.2 ⟨hp.flatten_eq.symm, fun hnil => hp.ne_nil [] hnil rfl,
    fun piece hpiece => ?_, ?_⟩
  · refine (hp.consecutive piece hpiece).imp_of_mem_imp fun a b ha hb hvalue => ?_
    exact (hfollowed a (hmem piece hpiece a ha) b (hmem piece hpiece b hb) (by omega)).2 hvalue
  · refine hp.apart.imp_of_mem_imp fun piece next hpiece hnext hlt => ?_
    have hlast := hp.ne_nil piece hpiece
    have hhead := hp.ne_nil next hnext
    have ha := hmem piece hpiece _ (List.getLast_mem hlast)
    have hb := hmem next hnext _ (List.head_mem hhead)
    have hgap : (piece.getLast hlast).value + 1 < (next.head hhead).value :=
      hlt _ (List.getLast?_eq_some_getLast hlast) _ (List.head?_eq_some_head hhead)
    refine ⟨hlast, hhead, Bool.eq_false_iff.2 fun hjoined => ?_⟩
    have hvalue := (hfollowed _ ha _ hb (by omega)).1 hjoined
    omega

/-- The runs of members in order are the only way to cut them into maximal stretches. -/
theorem areMaximalRuns_iff (h : Increasing ms) :
    AreMaximalRuns ms pieces ↔ pieces = (runs ms).map Run.members := by
  constructor
  · intro hp
    rw [← h.splitBy_eq hp, h.splitBy_eq h.areMaximalRuns_runs]
  · rintro rfl
    exact h.areMaximalRuns_runs

/-- For members in order, the runs are the one way to cut them into maximal stretches of consecutive
values, patterns follow one another exactly where numbers do, and the loops that compare each
pattern with the one before it end with these runs. -/
theorem runs_maximal (h : Increasing ms) :
    (∀ pieces, AreMaximalRuns ms pieces ↔ pieces = (runs ms).map Run.members)
      ∧ (∀ a b, [a, b].Sublist ms → (a.isFollowedBy b ↔ b.value = a.value + 1))
      ∧ (ms.length < Checked.wordCount →
          Checked.runsOf ms = .ok ((runs ms).map Run.members)) :=
  ⟨fun _ => h.areMaximalRuns_iff, fun _ _ => h.isFollowedBy_iff_of_sublist, Checked.runsOf_eq⟩

end Increasing

/-- Members with the given values, read with a sign or without. -/
def membersOf (signed : Bool) (values : List Int) : List Member :=
  values.map fun n => ⟨0, Constant.ofInt signed "" "" n⟩

/-- The change of sign stands within a run, and the two ends of a range do not join. -/
theorem Increasing.runs_maximal_extremes :
    Checked.runsOf (membersOf true [-0x8000000000000000, -1, 0, 0x7FFFFFFFFFFFFFFF])
        = .ok [membersOf true [-0x8000000000000000], membersOf true [-1, 0],
            membersOf true [0x7FFFFFFFFFFFFFFF]]
      ∧ Checked.runsOf (membersOf false [0, 0xFFFFFFFFFFFFFFFF])
        = .ok [membersOf false [0], membersOf false [0xFFFFFFFFFFFFFFFF]] := by
  have hsigned : Increasing
      (membersOf true [-0x8000000000000000, -1, 0, 0x7FFFFFFFFFFFFFFF]) :=
    ⟨by decide, by decide⟩
  have hunsigned : Increasing (membersOf false [0, 0xFFFFFFFFFFFFFFFF]) :=
    ⟨by decide, by decide⟩
  constructor
  · rw [(runs_maximal hsigned).2.2 (by decide)]
    rfl
  · rw [(runs_maximal hunsigned).2.2 (by decide)]
    rfl

end EnumNames
