import EnumNames.Command.Arguments
import EnumNames.Proofs.Except

/-!
# An additional flag among the arguments

Arguments without `--check` ask for the same with it, except that the output is compared instead of
written. It does not matter between which of them the flag stands, as long as it is not the value of
an option.

* `Settings.AddsCheck`: settings that differ in the additional flag.
* `Carries`: steps that treat both settings alike.
* `exists_step`: reading an argument is such a step.
* `ofArguments_check`, `eq_of_ofArguments_check`: the invocation with the additional flag.
-/

namespace EnumNames.Command

variable {s s' t t' : Settings} {pending : Pending} {arguments after : List String}
  {v w : Invocation}

/-- The same invocation, but with a check. -/
def Invocation.checking (v : Invocation) : Invocation :=
  { v with check := true }

@[simp] theorem Invocation.output_checking (v : Invocation) : v.checking.output = v.output := rfl

@[simp] theorem Invocation.check_checking (v : Invocation) : v.checking.check = true := rfl

/-! ## Settings with an additional flag -/

/-- Settings that are the same as others, but for the flag that asks for a check. -/
structure Settings.AddsCheck (s s' : Settings) : Prop where
  options : s' = { s with flags := s'.flags }
  flags : ∀ flag, flag ∈ s'.flags ↔ flag = .check ∨ flag ∈ s.flags

/-- A step that treats settings alike whether or not they ask for a check, unless it asks for one
itself. -/
def Carries (step : Settings → Except UsageError Settings) : Prop :=
  ∀ s t, step s = .ok t → s.flags ⊆ t.flags
    ∧ (.check ∉ t.flags → ∀ s', s.AddsCheck s' → ∃ t', step s' = .ok t' ∧ t.AddsCheck t')

theorem carries_ok : Carries .ok := by
  rintro s t h
  obtain rfl := Except.ok.inj h
  exact ⟨List.Subset.refl _, fun _ s' hs' => ⟨s', rfl, hs'⟩⟩

theorem carries_error (e : UsageError) : Carries fun _ => .error e :=
  fun _ _ h => nomatch h

/-- Steps in a row treat settings alike if each of them does. -/
theorem Carries.bind {step next : Settings → Except UsageError Settings} (h : Carries step)
    (hnext : Carries next) : Carries fun s => step s >>= next := by
  intro s u hu
  obtain ⟨t, ht, hu⟩ := bind_eq_ok_iff.1 hu
  obtain ⟨hflags, hcarries⟩ := h s t ht
  obtain ⟨hflags', hcarries'⟩ := hnext t u hu
  refine ⟨List.Subset.trans hflags hflags', fun hcheck s' hs' => ?_⟩
  -- a flag that is not there at the end was not there in between
  obtain ⟨t', ht', hadds⟩ := hcarries (fun hmem => hcheck (hflags' hmem)) s' hs'
  obtain ⟨u', hu', hadds'⟩ := hcarries' hcheck t' hadds
  exact ⟨u', bind_eq_ok_iff.2 ⟨t', ht', hu'⟩, hadds'⟩

/-! ## Single steps -/

/-- Options are set without regard to flags. -/
theorem set_flags (s : Settings) (flags : List Flag) (option : ValueOption) (value : String) :
    Settings.set { s with flags } option value = (s.set option value).map ({ · with flags }) := by
  have hbind : ∀ {α : Type} (present : Except UsageError α) (f g : α → Settings),
      (∀ a, f a = { g a with flags }) → (present >>= fun a => pure (f a))
        = (present >>= fun a => pure (g a)).map ({ · with flags }) := by
    intro α present f g hfg
    cases present with
    | error e => rfl
    | ok a => exact congrArg Except.ok (hfg a)
  cases option with
  | type => rfl
  | _ => exact hbind _ _ _ fun _ => rfl

theorem flags_set {option : ValueOption} {value : String} (h : s.set option value = .ok t) :
    t.flags = s.flags := by
  cases option with
  | type => rw [← Except.ok.inj h]
  | _ =>
    obtain ⟨_, -, h⟩ := bind_eq_ok_iff.1 h
    rw [← Except.ok.inj h]

theorem carries_set (option : ValueOption) (value : String) : Carries (·.set option value) := by
  intro s t h
  refine ⟨by rw [flags_set h]; exact List.Subset.refl _, fun _ s' hs' => ?_⟩
  refine ⟨{ t with flags := s'.flags }, ?_, rfl, ?_⟩
  · show s'.set option value = _
    rw [hs'.options, set_flags, show s.set option value = .ok t from h]
    rfl
  · rw [flags_set h]
    exact hs'.flags

/-- A flag is accepted once, and it is added to the others. -/
theorem setFlag_eq_ok_iff {flag : Flag} : s.setFlag flag = .ok t
    ↔ flag ≠ .help ∧ flag ∉ s.flags ∧ t = { s with flags := flag :: s.flags } := by
  unfold Settings.setFlag
  split
  · next h => simp [h]
  · next hhelp =>
    split
    · next hmem => simp [hmem]
    · next hmem => simp [hhelp, hmem, eq_comm]

/-- A flag is set without regard to the flag that asks for a check. -/
theorem carries_setFlag (flag : Flag) : Carries (·.setFlag flag) := by
  intro s t h
  obtain ⟨hhelp, hmem, rfl⟩ := setFlag_eq_ok_iff.1 h
  refine ⟨List.subset_cons_self _ _, fun hcheck s' hs' => ?_⟩
  have hne : flag ≠ .check := by
    rintro rfl
    exact hcheck List.mem_cons_self
  have hmem' : flag ∉ s'.flags := by
    rw [hs'.flags, not_or]
    exact ⟨hne, hmem⟩
  refine ⟨_, setFlag_eq_ok_iff.2 ⟨hhelp, hmem', rfl⟩, ?_, fun other => ?_⟩
  · rw [hs'.options]
  · simp only [List.mem_cons, hs'.flags]
    exact or_left_comm

theorem carries_settle (pending : Pending) : Carries pending.settle := by
  cases pending with
  | nothing => exact carries_ok
  | awaited option => exact carries_error _
  | unread option value => exact carries_set option value

/-! ## Arguments -/

/-- Reads the letter of a flag. -/
def readLetter (argument : String) (state : Settings × Pending) (letter : Char) :
    Except UsageError (Settings × Pending) :=
  match shortFlags.lookup letter with
  | some flag => do return (← (← state.2.settle state.1).setFlag flag, .nothing)
  | none => .error (.unknown argument)

/-- Reading letters is a step on the settings, after which it is known what is pending. -/
theorem exists_letters (argument : String) (letters : List Char) (pending : Pending) :
    ∃ step next, Carries step ∧ ∀ s, letters.foldlM (readLetter argument) (s, pending)
      = step s >>= fun t => pure (t, next) := by
  induction letters generalizing pending with
  | nil => exact ⟨.ok, pending, carries_ok, fun s => rfl⟩
  | cons letter letters ih =>
    cases hletter : shortFlags.lookup letter with
    | none =>
      refine ⟨_, pending, carries_error (.unknown argument), fun s => ?_⟩
      rw [List.foldlM_cons, readLetter, hletter]
      rfl
    | some flag =>
      obtain ⟨step, next, hstep, hletters⟩ := ih .nothing
      refine ⟨_, next, ((carries_settle pending).bind (carries_setFlag flag)).bind hstep,
        fun s => ?_⟩
      rw [List.foldlM_cons, readLetter, hletter]
      simp only [bind_assoc, pure_bind, hletters]

/-- Reading an argument is a step on the settings, after which it is known what is pending. -/
theorem exists_step {argument : String} (h : Argument.ofText argument ≠ .separator)
    (pending : Pending) : ∃ step next, Carries step ∧ ∀ s rest,
      readArguments s pending (argument :: rest)
        = step s >>= fun t => readArguments t next rest := by
  -- the step depends on the form of the argument alone, and on what is still awaited
  cases hargument : Argument.ofText argument with
  | separator => exact absurd hargument h
  | long name value =>
    cases hoption : valueOptions.lookup name with
    | some option =>
      cases value with
      | some value =>
        refine ⟨_, .nothing, (carries_settle pending).bind (carries_set option value),
          fun s rest => ?_⟩
        simp only [readArguments, hargument, hoption, bind_assoc]
      | none =>
        refine ⟨_, .awaited option, carries_settle pending, fun s rest => ?_⟩
        simp only [readArguments, hargument, hoption]
    | none =>
      cases hflag : longFlags.lookup name with
      | none =>
        refine ⟨_, pending, carries_error (.unknown argument), fun s rest => ?_⟩
        simp only [readArguments, hargument, hoption, hflag]
        rfl
      | some flag =>
        cases value with
        | some value =>
          refine ⟨_, pending, carries_error (.needlessValue name), fun s rest => ?_⟩
          simp only [readArguments, hargument, hoption, hflag]
          rfl
        | none =>
          refine ⟨_, .nothing, (carries_settle pending).bind (carries_setFlag flag),
            fun s rest => ?_⟩
          simp only [readArguments, hargument, hoption, hflag, bind_assoc]
  | short letters =>
    obtain ⟨step, next, hstep, hletters⟩ := exists_letters argument letters pending
    refine ⟨step, next, hstep, fun s rest => ?_⟩
    have hfold := congrArg (· >>= fun p => readArguments p.1 p.2 rest) (hletters s)
    simp only [bind_assoc, pure_bind] at hfold
    rw [← hfold]
    simp only [readArguments, hargument]
    rfl
  | plain text =>
    cases pending with
    | awaited option =>
      refine ⟨_, .unread option text, carries_ok, fun s rest => ?_⟩
      simp only [readArguments, hargument]
      rfl
    | _ =>
      refine ⟨_, .nothing, carries_error (.unknown argument), fun s rest => ?_⟩
      simp only [readArguments, hargument]
      rfl

/-- After two dashes alone there is nothing else. -/
theorem readArguments_separator {argument : String} (h : Argument.ofText argument = .separator)
    (s : Settings) (pending : Pending) (rest : List String) :
    readArguments s pending (argument :: rest) = match rest with
      | [] => pending.settle s
      | extra :: _ => .error (.unknown extra) := by
  cases rest <;> simp only [readArguments, h]

/-- By induction on the arguments, reading treats settings alike. -/
theorem carries_readArguments (arguments : List String) (pending : Pending) :
    Carries (readArguments · pending arguments) := by
  induction arguments generalizing pending with
  | nil => exact carries_settle pending
  | cons argument rest ih =>
    by_cases hseparator : Argument.ofText argument = .separator
    · simp only [readArguments_separator hseparator]
      cases rest with
      | nil => exact carries_settle pending
      | cons extra rest => exact carries_error _
    · obtain ⟨step, next, hstep, heq⟩ := exists_step hseparator pending
      simp only [heq]
      exact hstep.bind (ih next)

/-- It is the same to read the pending value before the next argument. -/
theorem readArguments_of_settle (h : pending.settle s = .ok t) (arguments : List String) :
    readArguments s pending arguments = readArguments t .nothing arguments := by
  induction arguments with
  | nil => exact h
  | cons argument rest ih =>
    cases hargument : Argument.ofText argument with
    | separator =>
      rw [readArguments_separator hargument, readArguments_separator hargument, h]
      rfl
    | long name value =>
      simp only [readArguments, hargument, h]
      rfl
    | short letters =>
      simp only [readArguments, hargument]
      cases letters with
      | nil => exact ih
      | cons letter letters =>
        simp only [List.foldlM_cons, h]
        rfl
    | plain text =>
      cases pending with
      | awaited option => exact nomatch h
      | _ => simp only [readArguments, hargument]

/-! ## The additional flag -/

/-- The flag is set once what was pending is settled. -/
theorem readArguments_check (s : Settings) (pending : Pending) (after : List String) :
    readArguments s pending ("--check" :: after) = pending.settle s >>= fun t =>
      t.setFlag .check >>= fun t => readArguments t .nothing after := by
  have hargument : Argument.ofText "--check" = .long "check" none := by decide
  have hoption : valueOptions.lookup "check" = none := by decide
  have hflag : longFlags.lookup "check" = some .check := by decide
  simp only [readArguments, hargument, hoption, hflag]

/-- The flag may stand before all other arguments that are left, unless an option waits for its
value. -/
theorem exists_readArguments_check {u : Settings} (hsettle : pending.settle s = .ok t)
    (h : readArguments s pending after = .ok u) (hcheck : .check ∉ u.flags) :
    ∃ u', readArguments s pending ("--check" :: after) = .ok u' ∧ u.AddsCheck u' := by
  rw [readArguments_of_settle hsettle] at h
  obtain ⟨hflags, hcarries⟩ := carries_readArguments after .nothing t u h
  have hmem : .check ∉ t.flags := fun hmem => hcheck (hflags hmem)
  have hset : t.setFlag .check = .ok { t with flags := .check :: t.flags } :=
    setFlag_eq_ok_iff.2 ⟨nofun, hmem, rfl⟩
  have hadds : t.AddsCheck { t with flags := .check :: t.flags } :=
    ⟨rfl, fun _ => List.mem_cons⟩
  obtain ⟨u', hu', hadds'⟩ := hcarries hcheck _ hadds
  refine ⟨u', ?_, hadds'⟩
  rw [readArguments_check]
  exact bind_eq_ok_iff.2 ⟨t, hsettle, bind_eq_ok_iff.2 ⟨_, hset, hu'⟩⟩

/-- Wherever the flag stands, if it is accepted there, it only adds itself. -/
theorem addsCheck_of_readArguments {u u' : Settings} (before : List String)
    (h : readArguments s pending (before ++ after) = .ok u) (hcheck : .check ∉ u.flags)
    (h' : readArguments s pending (before ++ "--check" :: after) = .ok u') : u.AddsCheck u' := by
  induction before generalizing s pending with
  | nil =>
    rw [List.nil_append] at h h'
    have hsettled := h'
    rw [readArguments_check] at hsettled
    obtain ⟨t, hsettle, -⟩ := bind_eq_ok_iff.1 hsettled
    obtain ⟨u'', hu'', hadds⟩ := exists_readArguments_check hsettle h hcheck
    rw [Except.ok.inj (h'.symm.trans hu'')]
    exact hadds
  | cons argument before ih =>
    rw [List.cons_append] at h h'
    by_cases hseparator : Argument.ofText argument = .separator
    · -- after two dashes the flag is a text that nobody asks for
      rw [readArguments_separator hseparator] at h'
      cases before <;> exact nomatch h'
    · obtain ⟨step, next, -, heq⟩ := exists_step hseparator pending
      rw [heq] at h h'
      obtain ⟨t, ht, h⟩ := bind_eq_ok_iff.1 h
      obtain ⟨t', ht', h'⟩ := bind_eq_ok_iff.1 h'
      rw [Except.ok.inj (ht'.symm.trans ht)] at h'
      exact ih h h'

/-- An invocation checks exactly if the flag was given. -/
theorem check_invocation (h : s.invocation = .ok v) : v.check = decide (.check ∈ s.flags) := by
  unfold Settings.invocation at h
  split at h
  · contradiction
  · split at h
    · contradiction
    · rw [← Except.ok.inj h]

/-- Settings with the flag ask for the same with a check. -/
theorem Settings.AddsCheck.invocation_eq (hadds : s.AddsCheck s') (h : s.invocation = .ok v) :
    s'.invocation = .ok v.checking := by
  have hflag : ∀ flag, flag ≠ .check → (flag ∈ s'.flags ↔ flag ∈ s.flags) := by
    intro flag hne
    rw [hadds.flags, or_iff_right hne]
  have hcheck : .check ∈ s'.flags := (hadds.flags _).2 (.inl rfl)
  rw [hadds.options]
  unfold Settings.invocation at h ⊢
  simp only [hflag _ (show Flag.verbose ≠ .check from nofun),
    hflag _ (show Flag.quiet ≠ .check from nofun), hflag _ (show Flag.reportJson ≠ .check from nofun),
    hflag _ (show Flag.lineComment ≠ .check from nofun), hcheck]
  split at h
  · contradiction
  · next hconflict =>
    rw [if_neg hconflict]
    cases hmanifest : s.manifest with
    | none =>
      rw [hmanifest] at h
      contradiction
    | some manifest =>
      rw [hmanifest] at h
      rw [← Except.ok.inj h]
      rfl

/-- Arguments are accepted if they are read and the settings make an invocation. -/
theorem ofArguments_eq_ok_iff : Invocation.ofArguments arguments = .ok v
    ↔ ∃ s, readArguments {} .nothing arguments = .ok s ∧ s.invocation = .ok v :=
  bind_eq_ok_iff

/-- Accepted arguments are accepted with the additional flag before them, and ask for the same with
a check. -/
theorem ofArguments_check (h : Invocation.ofArguments arguments = .ok v) (hcheck : v.check = false) :
    Invocation.ofArguments ("--check" :: arguments) = .ok v.checking := by
  obtain ⟨u, hu, hv⟩ := ofArguments_eq_ok_iff.1 h
  have hmem : .check ∉ u.flags := by
    rw [check_invocation hv] at hcheck
    exact of_decide_eq_false hcheck
  have hsettle : Pending.nothing.settle {} = .ok {} := rfl
  obtain ⟨u', hu', hadds⟩ := exists_readArguments_check hsettle hu hmem
  exact ofArguments_eq_ok_iff.2 ⟨u', hu', hadds.invocation_eq hv⟩

/-- Wherever the additional flag is accepted among accepted arguments, they ask for the same with a
check. -/
theorem eq_of_ofArguments_check {before : List String}
    (h : Invocation.ofArguments (before ++ after) = .ok v) (hcheck : v.check = false)
    (h' : Invocation.ofArguments (before ++ "--check" :: after) = .ok w) :
    w = v.checking := by
  obtain ⟨u, hu, hv⟩ := ofArguments_eq_ok_iff.1 h
  obtain ⟨u', hu', hw⟩ := ofArguments_eq_ok_iff.1 h'
  have hmem : .check ∉ u.flags := by
    rw [check_invocation hv] at hcheck
    exact of_decide_eq_false hcheck
  have hadds := addsCheck_of_readArguments before hu hmem hu'
  exact Except.ok.inj (hw.symm.trans (hadds.invocation_eq hv))

end EnumNames.Command
