import EnumNames.Target.Grammar

/-!
# Stages of a run

A run of the grammar is followed from stage to stage. Whether the tokens are accepted does not change
on the way, so a text is accepted if its run comes to an end at which no token is left.

* `Stage`: the goals that are left, the shape of what was recognised last, the tokens ahead.
* `Stage.Leads`: the run comes from one stage to another.
* `advance`: the stage some steps later, which can be computed if the tokens ahead are known.
-/

namespace EnumNames.Target

/-- A stage of a run. -/
structure Stage where
  goals : List Goal
  shape : Shape
  tokens : List Token

namespace Stage

/-- Whether a run from this stage comes to the end of the tokens. -/
def accepted (c : Stage) (afterBrace : Bool) : Bool :=
  run c.goals c.shape afterBrace c.tokens

/-- A run from one stage comes to another: both or neither of them are accepted. -/
def Leads (c d : Stage) : Prop :=
  ∀ afterBrace, ∃ afterBrace', c.accepted afterBrace = d.accepted afterBrace'

theorem Leads.refl (c : Stage) : Leads c c :=
  fun afterBrace => ⟨afterBrace, rfl⟩

/-- Stages lead on from one another. -/
theorem Leads.trans {c d e : Stage} (h : Leads c d) (h' : Leads d e) : Leads c e := by
  intro afterBrace
  obtain ⟨afterBrace', hd⟩ := h afterBrace
  obtain ⟨afterBrace'', he⟩ := h' afterBrace'
  exact ⟨afterBrace'', hd.trans he⟩

end Stage

open Stage

variable {g g' : Goal} {later goals : List Goal} {s s' : Shape} {ts : List Token} {c : Stage}

/-! ## One step -/

/-- A goal that takes tokens. -/
theorem leads_take {t : Token} {extra : Nat} {next : List Goal} {rest : List Token}
    (h : ∀ afterBrace, g.step s afterBrace (t :: ts) = .take extra next)
    (hgoals : next ++ later = goals) (hrest : ts.drop extra = rest) :
    Leads ⟨g :: later, s, t :: ts⟩ ⟨goals, .plain, rest⟩ := by
  subst hgoals hrest
  exact fun afterBrace => ⟨_, run_take later (h afterBrace)⟩

/-- A goal that is left. -/
theorem leads_leave (h : ∀ afterBrace, g.step s afterBrace ts = .leave s') :
    Leads ⟨g :: later, s, ts⟩ ⟨later, s', ts⟩ :=
  fun afterBrace => ⟨afterBrace, run_leave later (h afterBrace)⟩

/-- A goal that does the same as another one. -/
theorem leads_of_step (h : ∀ afterBrace, g.step s afterBrace ts = g'.step s' afterBrace ts) :
    Leads ⟨g :: later, s, ts⟩ ⟨g' :: later, s', ts⟩ := by
  intro afterBrace
  refine ⟨afterBrace, ?_⟩
  show run (g :: later) s afterBrace ts = run (g' :: later) s' afterBrace ts
  rw [run, run, h afterBrace]

/-- Whether a move leaves its goal without taking a token. -/
def Move.isLeave : Move → Bool
  | leave _ => true
  | _ => false

/-- A goal that does the same as another one and goes on with further goals. The other one has to
take a token: a goal that is left leaves no further goals. -/
theorem leads_andThen {next : List Goal}
    (h : ∀ afterBrace, g.step s afterBrace ts = (g'.step s' afterBrace ts).andThen next)
    (htake : ∀ afterBrace, (g'.step s' afterBrace ts).isLeave = false)
    (hgoals : next ++ later = goals) : Leads ⟨g :: later, s, ts⟩ ⟨g' :: goals, s', ts⟩ := by
  subst hgoals
  intro afterBrace
  refine ⟨afterBrace, ?_⟩
  have hleave := htake afterBrace
  show run (g :: later) s afterBrace ts = run (g' :: (next ++ later)) s' afterBrace ts
  rw [run, run, h afterBrace]
  cases hstep : g'.step s' afterBrace ts with
  | take extra first => simp only [Move.andThen, List.append_assoc]
  | leave s => rw [hstep] at hleave; contradiction
  | refuse => rfl

/-! ## Several steps -/

/-- The stage some steps later, or the one where the run stops. -/
def advance (n : Nat) (goals : List Goal) (s : Shape) (afterBrace : Bool) (ts : List Token) :
    Stage × Bool :=
  match n, goals with
  | 0, _ | _, [] => (⟨goals, s, ts⟩, afterBrace)
  | n + 1, g :: later =>
    match g.step s afterBrace ts, ts with
    | .take extra next, t :: rest =>
      advance n (next ++ later) .plain (extra = 0 && t = .closing .brace) (rest.drop extra)
    | .leave s', ts => advance n later s' afterBrace ts
    | _, _ => (⟨goals, s, ts⟩, afterBrace)

/-- A run goes on from any stage that it reaches. -/
theorem run_eq_advance (n : Nat) (goals : List Goal) (s : Shape) (afterBrace : Bool)
    (ts : List Token) :
    run goals s afterBrace ts
      = (advance n goals s afterBrace ts).1.accepted (advance n goals s afterBrace ts).2 := by
  induction n generalizing goals s afterBrace ts with
  | zero => rfl
  | succ n ih =>
    cases goals with
    | nil => rfl
    | cons g later =>
      cases hstep : g.step s afterBrace ts with
      | take extra next =>
        cases ts with
        | nil => simp only [advance, hstep, accepted]
        | cons t rest =>
          rw [run_take later hstep, ih]
          simp only [advance, hstep]
      | leave s' =>
        rw [run_leave later hstep, ih]
        simp only [advance, hstep]
      | refuse => simp only [advance, hstep, accepted]

/-- The run comes to a stage that some steps are computed to lead to. -/
theorem leads_of_advance (n : Nat) {next : List Goal}
    (h : ∀ afterBrace, ∃ afterBrace',
      advance n c.goals c.shape afterBrace c.tokens = (⟨next, s', ts⟩, afterBrace')) :
    Leads c ⟨next, s', ts⟩ := by
  intro afterBrace
  obtain ⟨afterBrace', h⟩ := h afterBrace
  refine ⟨afterBrace', ?_⟩
  rw [accepted, run_eq_advance n, h]

/-! ## Balanced tokens -/

/-- Whether a token is no bracket. -/
def Token.isFlat : Token → Bool
  | opening _ | closing _ => false
  | _ => true

/-- Tokens whose brackets are closed in their order. -/
inductive Balanced : List Token → Prop
  | nil : Balanced []
  | cons {t : Token} {ts : List Token} (ht : t.isFlat) (h : Balanced ts) : Balanced (t :: ts)
  | group {inner ts : List Token} (b : Bracket) (hinner : Balanced inner) (h : Balanced ts) :
      Balanced (.opening b :: (inner ++ .closing b :: ts))

/-- Balanced tokens in a row are balanced. -/
theorem Balanced.append {us : List Token} (h : Balanced ts) (h' : Balanced us) :
    Balanced (ts ++ us) := by
  induction h with
  | nil => exact h'
  | cons ht _ ih => exact .cons ht ih
  | group b hinner _ _ ih =>
    rw [List.cons_append, List.append_assoc, List.cons_append]
    exact .group b hinner ih

/-- Tokens without brackets are balanced. -/
theorem balanced_of_isFlat (h : ∀ t ∈ ts, t.isFlat) : Balanced ts := by
  induction ts with
  | nil => exact .nil
  | cons t ts ih =>
    exact .cons (h t List.mem_cons_self) (ih fun t ht => h t (List.mem_cons_of_mem _ ht))

/-- A bracket after balanced tokens. -/
theorem Balanced.enclose {inner : List Token} (h : Balanced ts) (b : Bracket)
    (hinner : Balanced inner) : Balanced (ts ++ .opening b :: (inner ++ [.closing b])) :=
  h.append (.group b hinner .nil)

/-- Inside a bracket, balanced tokens are passed. -/
theorem leads_inside {us : List Token} (h : Balanced us) (b : Bracket) :
    Leads ⟨.inside b :: later, s, us ++ ts⟩ ⟨.inside b :: later, s', ts⟩ := by
  induction h generalizing b s s' later ts with
  | nil => exact leads_of_step fun _ => rfl
  | @cons t us ht _ ih =>
    have hstep : ∀ afterBrace,
        Goal.step (.inside b) s afterBrace (t :: (us ++ ts)) = .take 0 [.inside b] := by
      cases t with
      | opening _ | closing _ => exact absurd ht (by simp [Token.isFlat])
      | _ => exact fun _ => rfl
    exact (leads_take hstep rfl rfl).trans (ih b)
  | @group inner us b' _ _ ihinner ih =>
    have hopen : Leads ⟨.inside b :: later, s, .opening b' :: (inner ++ .closing b' :: (us ++ ts))⟩
        ⟨.inside b' :: .inside b :: later, .plain, inner ++ .closing b' :: (us ++ ts)⟩ :=
      leads_take (fun _ => rfl) rfl rfl
    have hstep : startInside b' (.closing b' :: (us ++ ts)) = .one [] := if_pos rfl
    have hclose : Leads ⟨.inside b' :: .inside b :: later, .plain, .closing b' :: (us ++ ts)⟩
        ⟨.inside b :: later, .plain, us ++ ts⟩ :=
      leads_take (fun _ => hstep) rfl rfl
    rw [List.cons_append, List.append_assoc, List.cons_append]
    exact hopen.trans <| (ihinner b').trans <| hclose.trans (ih b)

end EnumNames.Target
