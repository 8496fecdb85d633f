import BatchNorm.Proofs.Trial.InPlace
import BatchNorm.Proofs.Trial.Outcome

/-!
# Where a rejection comes from

A validation that expects a rejection takes the first failure of the right kind for it,
wherever the failure was raised. With settings that are in order (`Validation.Sound`) and
a primitive that writes in place, nothing in a case fails but the primitive and the
comparison, and mismatches are no rejection: so results are returned exactly if the
primitive raised a failure of the expected kind. Settings that are not accepted are
refused before the primitive is called, and where such a refusal is of the expected kind
it passes for a rejection too (`rejection_origin`, `refused_settings_pass`).
-/

set_option autoImplicit false

namespace BatchNorm

/-! ## Layouts and configurations -/

namespace Layout

theorem shape_of_make {order : MemoryOrder} {shape : Shape} {padded block : Int} {l : Layout}
    (h : make order shape padded block = .ok l) : l.shape = shape := by
  unfold make at h
  split at h
  · split at h
    · split at h
      · cases h
        rfl
      · exact absurd h (refuse_ne_ok _ _)
    · exact absurd h (refuse_ne_ok _ _)
  · exact absurd h (refuse_ne_ok _ _)

theorem shape_of_ofFormat {name : String} {shape : Shape} {l : Layout}
    (h : ofFormat name shape = .ok l) : l.shape = shape := by
  unfold ofFormat at h
  split at h
  · cases h
  · obtain ⟨_, _, h⟩ := bind_eq_ok_iff.mp h
    obtain ⟨_, _, h⟩ := bind_eq_ok_iff.mp h
    split at h
    · unfold blocked at h
      split at h
      · exact shape_of_make h
      · cases h
    · exact shape_of_make h

end Layout

namespace RunConfig

variable {shape : Shape} {normalization : Normalization} {precision : Precision}
  {mode : Option BackwardMode} {tolerance : Tolerance} {numThreads : Option Int}
  {checkPadding : Bool}

/-- A configuration is accepted if its epsilon and its number of threads are. -/
theorem make_eq_ok (hepsilon : ¬ normalization.epsilon < 0) (hthreads : ∀ n ∈ numThreads, 1 ≤ n) :
    make shape normalization precision mode tolerance numThreads checkPadding = .ok {
      shape, normalization, precision, backwardMode := mode, tolerance, numThreads, checkPadding
      epsilon_nonneg := hepsilon
      threads_pos := hthreads } := by
  rw [make, dif_neg hepsilon, dif_pos hthreads]

theorem make_eq_refuse (h : normalization.epsilon < 0 ∨ ∃ n ∈ numThreads, n < 1) :
    ∃ fault, make shape normalization precision mode tolerance numThreads checkPadding =
      .error (.configuration fault) := by
  by_cases hepsilon : normalization.epsilon < 0
  · exact ⟨.negativeEpsilon, by rw [make, dif_pos hepsilon]; rfl⟩
  · obtain ⟨n, hn, hlt⟩ := h.resolve_left hepsilon
    have hthreads : ¬ ∀ n ∈ numThreads, 1 ≤ n := fun hall => by
      have hle := hall n hn
      omega
    exact ⟨.threadCount, by rw [make, dif_neg hepsilon, dif_neg hthreads]; rfl⟩

end RunConfig

theorem TrialCase.normalization_epsilon (case : TrialCase) (epsilon : Float) :
    (case.normalization epsilon).epsilon = epsilon := by
  cases case with
  | forward c => rfl
  | backward c => rfl

/-- Quantized primitives have no backward cases. -/
theorem TrialCase.precision_of_backward_mem {c : BackwardCase} {precision : Precision}
    (h : backward c ∈ all precision) : precision = .f32 := by
  cases precision with
  | f32 => rfl
  | s8 => simp [all, BackwardCase.all] at h

/-! ## Calls that fail -/

namespace Trial

variable {γ σ β : Type}

/-- The call of a primitive fails on the buffers that are filled for it. -/
def CallFails (fill : Trial γ σ β) (next : β → σ → Except Failure β × σ) (bench : Bench γ σ)
    (e : Failure) : Prop :=
  ∃ given prepared state, fill.runOn bench = (.ok given, prepared) ∧
    next given prepared.state = (.error e, state)

/-- If buffers can be filled, and what the call leaves of them is verified or reported,
then a case can only fail in the call, but for reports. -/
theorem runOn_inParts_fails_iff {fill : Trial γ σ β} {message : String}
    {next : β → σ → Except Failure β × σ} {verify : β → Logged Verdict} {bench : Bench γ σ}
    {P : β → Prop} {e : Failure} (hfill : fill.Fills P)
    (hverify : ∀ given written state state', P given →
      next given state = (.ok written, state') → VerdictOrReport (verify written).result)
    (hkind : ¬ e.kind.isA .verification = true) :
    (∃ last, (inParts fill message next verify).runOn bench = (.error e, last)) ↔
      CallFails fill next bench e := by
  obtain ⟨given, source, hgiven, hform⟩ := hfill bench
  constructor
  · rintro ⟨last, hrun⟩
    obtain hfails | ⟨given', prepared, state, hgiven', hparts⟩ := runOn_inParts_eq_error_iff.mp hrun
    · rw [hgiven] at hfails
      cases hfails
    · obtain ⟨hcall, _⟩ | ⟨written, hcall, hresult, _⟩ := hparts
      · exact ⟨given', prepared, state, hgiven', hcall⟩
      · cases hgiven.symm.trans hgiven'
        obtain ⟨verdict, hverdict⟩ | ⟨report, hreport⟩ := hverify _ _ _ _ hform hcall
        · cases hverdict.symm.trans hresult
        · cases hreport.symm.trans hresult
          exact (hkind rfl).elim
  · rintro ⟨given', prepared, state, hgiven', hcall⟩
    exact ⟨_, runOn_inParts_eq_error_iff.mpr
      (Or.inr ⟨given', prepared, state, hgiven', Or.inl ⟨hcall, rfl⟩⟩)⟩

end Trial

/-! ## Settings -/

namespace Validation

variable {γ σ : Type} {v : Validation} {precision : Precision} {layout diffLayout : Layout}

/-- The layouts of a validation host its cases, if they have room. -/
theorem Ready.layout_hosts {config : RunConfig} (h : v.Ready precision layout diffLayout)
    (hshape : config.shape = v.shape) (hroom : layout.Roomy) : layout.Hosts config where
  shape := (Layout.shape_of_ofFormat h.layout).trans hshape.symm
  writable := hshape ▸ Shape.demandTexts_eq_ok_iff.mp h.texts
  roomy := hroom

theorem Ready.diffLayout_hosts {config : RunConfig} (h : v.Ready precision layout diffLayout)
    (hshape : config.shape = v.shape) (hroom : diffLayout.Roomy) : diffLayout.Hosts config where
  shape := (Layout.shape_of_ofFormat h.diffLayout).trans hshape.symm
  writable := hshape ▸ Shape.demandTexts_eq_ok_iff.mp h.texts
  roomy := hroom

/-- Settings that nothing is to be said against: the epsilon and the number of threads are
accepted, a report that is raised has a limit which is not below zero, and there is room for
the numbers and the tables of every case. -/
structure Sound (v : Validation) (layout diffLayout : Layout) : Prop where
  epsilon : ¬ v.epsilon < 0
  threads : ∀ n ∈ v.numThreads, 1 ≤ n
  report : v.raiseOnFailure = true → ∃ limit, v.tolerance.maxReported = some limit ∧ 0 ≤ limit
  deviation : ∃ epsilon, v.tolerance.epsilonFor v.shape = .ok epsilon
  room : layout.Roomy
  diffRoom : diffLayout.Roomy
  channels : v.shape.DrawsFit
  sites : layout.SitesFit

namespace Sound

theorem forwardRoom (h : v.Sound layout diffLayout) (normalization : Normalization) :
    ForwardRoom v.shape normalization layout where
  activations := h.room
  computed _ := h.channels.zerosFit
  supplied _ := h.channels
  affine _ := h.channels

theorem backwardRoom (h : v.Sound layout diffLayout) :
    BackwardRoom v.shape layout diffLayout where
  source := h.room
  gradients := h.diffRoom
  channels := h.channels

end Sound

/-- Settings that no configuration has. -/
def Refused (v : Validation) : Prop := v.epsilon < 0 ∨ ∃ n ∈ v.numThreads, n < 1

/-- With settings that are accepted, the configuration of a case has those settings. -/
theorem exists_config (hepsilon : ¬ v.epsilon < 0) (hthreads : ∀ n ∈ v.numThreads, 1 ≤ n)
    (precision : Precision) (case : TrialCase) :
    ∃ config, v.configOf precision case = .ok config ∧ config.shape = v.shape ∧
      config.normalization = case.normalization v.epsilon ∧ config.precision = precision ∧
      config.backwardMode = case.backwardMode? ∧ config.tolerance = v.tolerance :=
  ⟨_, RunConfig.make_eq_ok (by rw [case.normalization_epsilon]; exact hepsilon) hthreads,
    rfl, rfl, rfl, rfl, rfl⟩

theorem Refused.configOf_eq_error (h : v.Refused) (precision : Precision) (case : TrialCase) :
    ∃ fault, v.configOf precision case = .error (.configuration fault) :=
  RunConfig.make_eq_refuse (by rw [case.normalization_epsilon]; exact h)

variable [RandomSource γ]

/-- The primitive fails when it is called for a case. -/
def RaisedIn (v : Validation) (precision : Precision) (primitive : Primitive σ)
    (layout diffLayout : Layout) (bench : Bench γ σ) (e : Failure) (case : TrialCase) : Prop :=
  ∃ config, v.configOf precision case = .ok config ∧
    match case with
    | .forward _ =>
      (Trial.forwardBuffers config layout).CallFails (primitive.forward config) bench e
    | .backward c =>
      (Trial.backwardBuffers config c.mode layout diffLayout).CallFails
        (primitive.backward config) bench e

variable {primitive : Primitive σ} {bench : Bench γ σ} {case : TrialCase} {e : Failure}

/-- With settings in order, a case fails with anything but mismatches exactly if the
primitive does. -/
theorem runOne_fails_iff (hready : v.Ready precision layout diffLayout)
    (hsound : v.Sound layout diffLayout) (hwrites : primitive.WritesInPlace)
    (hcase : case ∈ TrialCase.all precision) (hkind : ¬ e.kind.isA .verification = true) :
    (∃ last, (v.runOne precision primitive layout diffLayout case).runOn bench =
        (.error e, last)) ↔
      v.RaisedIn precision primitive layout diffLayout bench e case := by
  obtain ⟨config, hconfig, hshape, _, hprecision, hmode, htolerance⟩ :=
    exists_config hsound.epsilon hsound.threads precision case
  have hlayout : layout.Hosts config := hready.layout_hosts hshape hsound.room
  have hdiffLayout : diffLayout.Hosts config := hready.diffLayout_hosts hshape hsound.diffRoom
  have hepsilon : ∃ epsilon, config.epsilon = .ok epsilon := by
    rw [RunConfig.epsilon, htolerance, hshape]
    exact hsound.deviation
  have hlimit : v.raiseOnFailure = true →
      ∃ limit, config.tolerance.maxReported = some limit ∧ 0 ≤ limit := by
    rw [htolerance]
    exact hsound.report
  have hstart : (v.runOne precision primitive layout diffLayout case).runOn bench =
      (runCase primitive case config layout diffLayout v.raiseOnFailure).runOn bench :=
    Trial.runOn_bind_of_ok (by rw [Trial.runOn_ofExcept, hconfig])
  have hraised : ∀ P : RunConfig → Prop,
      (∃ config, v.configOf precision case = .ok config ∧ P config) ↔ P config := fun P => by
    rw [hconfig]
    simp
  rw [hstart, RaisedIn, hraised]
  cases case with
  | forward c =>
      rw [runCase, runForwardCase_eq_inParts]
      have hroom := hsound.forwardRoom config.normalization
      rw [← hshape] at hroom
      refine Trial.runOn_inParts_fails_iff (Trial.fills_forwardBuffers hroom) ?_ hkind
      intro given written state state' hgiven hcall
      exact (hgiven.of_sameForm (hwrites.forward _ _ _ _ _ hcall)).verdictOrReport hlayout
        hsound.sites hepsilon hlimit
  | backward c =>
      rw [runCase, runBackwardCase_eq_inParts]
      have hroom := hsound.backwardRoom
      rw [← hshape] at hroom
      have hsites : diffLayout.SitesFit :=
        hsound.sites.of_shape_eq (hdiffLayout.shape.trans hlayout.shape.symm)
      refine Trial.runOn_inParts_fails_iff (Trial.fills_backwardBuffers hroom c.mode) ?_ hkind
      intro given written state state' hgiven hcall
      exact (hgiven.of_sameForm (hwrites.backward _ _ _ _ _ hcall)).verdictOrReport hlayout
        hdiffLayout hsites (hprecision.trans (TrialCase.precision_of_backward_mem hcase)) hmode
        hepsilon hlimit

/-- Refused settings end a validation at its first case. -/
theorem Refused.stopsAt (h : v.Refused) (precision : Precision) (primitive : Primitive σ)
    (layout diffLayout : Layout) (bench : Bench γ σ) :
    ∃ case fault, StopsAt (v.runOne precision primitive layout diffLayout)
      (TrialCase.all precision) [] case bench [] (.configuration fault) bench := by
  obtain ⟨case, rest, hcases⟩ : ∃ case rest, TrialCase.all precision = case :: rest := by
    cases precision with
    | f32 => exact ⟨_, _, rfl⟩
    | s8 => exact ⟨_, _, rfl⟩
  obtain ⟨fault, hfault⟩ := h.configOf_eq_error precision case
  refine ⟨case, fault, ⟨rest, hcases⟩, bench, .nil, ?_⟩
  exact Trial.runOn_bind_of_error (by rw [Trial.runOn_ofExcept, hfault])

end Validation

/-! ## Rejections -/

variable {γ σ : Type} [RandomSource γ] {v : Validation} {precision : Precision}
  {layout diffLayout : Layout} {expected : FailureKind}

/-- **Where a rejection comes from.** With a rejection expected, settings in order and a
primitive that writes in place, a validation returns results exactly if they are those of
the cases before one in which the primitive fails, with a failure of the expected kind
that is not about mismatches.

With settings that are refused, the primitive is never called: the validation returns no
results if the refusal is of the expected kind, and else fails with it. -/
theorem rejection_origin (hready : v.Ready precision layout diffLayout)
    (hexpected : v.expected = some expected) (primitive : Primitive σ) (bench : Bench γ σ) :
    (v.Sound layout diffLayout → primitive.WritesInPlace → ∀ results,
      (∃ last, (validate v primitive).runOn bench = (.ok results, last)) ↔
        ∃ done case rest middle e, TrialCase.all precision = done ++ case :: rest ∧
          Completes (v.runOne precision primitive layout diffLayout) done bench results middle ∧
          v.RaisedIn precision primitive layout diffLayout middle e case ∧
          e.kind.isA expected = true ∧ ¬ e.kind.isA .verification = true) ∧
    (v.Refused → ∃ fault,
      if FailureKind.configuration.isA expected then ∃ message,
        (validate v primitive).runOn bench = (.ok [], bench.wrote .info message)
      else (validate v primitive).runOn bench = (.error (.configuration fault), bench)) := by
  constructor
  · intro hsound hwrites results
    rw [hready.returns_iff hexpected]
    constructor
    · rintro ⟨done, case, e, last, ⟨⟨rest, hsplit⟩, middle, hdone, hfails⟩, hkind, hother⟩
      have hcase : case ∈ TrialCase.all precision := by simp [hsplit]
      have hraised :=
        (Validation.runOne_fails_iff hready hsound hwrites hcase hother).mp ⟨last, hfails⟩
      exact ⟨done, case, rest, middle, e, hsplit, hdone, hraised, hkind, hother⟩
    · rintro ⟨done, case, rest, middle, e, hsplit, hdone, hraised, hkind, hother⟩
      have hcase : case ∈ TrialCase.all precision := by simp [hsplit]
      obtain ⟨last, hfails⟩ :=
        (Validation.runOne_fails_iff hready hsound hwrites hcase hother).mpr hraised
      exact ⟨done, case, e, last, ⟨⟨rest, hsplit⟩, middle, hdone, hfails⟩, hkind, hother⟩
  · intro hrefused
    obtain ⟨case, fault, hstops⟩ :=
      hrefused.stopsAt precision primitive layout diffLayout bench
    have hother : ¬ FailureKind.configuration.isA .verification = true := by decide
    rw [hready.runOn_validate (runCases_of_stopsAt hstops)]
    refine ⟨fault, ?_⟩
    split
    · exact Validation.runOn_outcome_of_rejection
        (Validation.isRejection_iff.mpr ⟨expected, hexpected, ‹_›, hother⟩)
    · refine Validation.runOn_outcome_of_not_rejection (Bool.eq_false_iff.mpr fun h => ?_)
      obtain ⟨expected', hexpected', hkind, _⟩ := Validation.isRejection_iff.mp h
      cases hexpected.symm.trans hexpected'
      contradiction

/-! ## A single element -/

theorem unimplemented_writesInPlace : unimplemented.WritesInPlace where
  forward _ _ _ _ _ h := by cases h
  backward _ _ _ _ _ h := by cases h

/-- There is room for the single element. -/
theorem roomy_point : (Layout.dense rejectedPoint.shape).Roomy where
  draws := rfl
  padding h := by cases h

theorem rejectedPoint_sound :
    rejectedPoint.Sound (.dense rejectedPoint.shape) (.dense rejectedPoint.shape) where
  epsilon := by decide +kernel
  threads := by simp [rejectedPoint]
  report _ := ⟨32, rfl, by decide⟩
  deviation := ⟨_, rfl⟩
  room := roomy_point
  diffRoom := roomy_point
  channels := rfl
  sites _ := rfl

/-- The single element with an epsilon that no configuration has. -/
def refusedPoint : Validation :=
  { rejectedPoint with epsilon := -1, expected := some .value }

/-- The primitive fails in the first case of the one validation, and it is not called in
the other. -/
theorem rejection_origin_rejectedPoint :
    let bench : Bench Splitmix Nat := ⟨.ofSeed 0, 0, []⟩
    let layout := Layout.dense rejectedPoint.shape
    (∃ case middle e, rejectedPoint.RaisedIn .f32 unimplemented layout layout
        (middle : Bench Splitmix Nat) e case ∧ e.kind.isA .runtime = true) ∧
      ∃ message, (validate refusedPoint unimplemented).runOn bench =
        (.ok [], bench.wrote .info message) := by
  intro bench layout
  have hreturns : ∃ last, (validate rejectedPoint unimplemented).runOn bench = (.ok [], last) :=
    ⟨_, rfl⟩
  have hready : refusedPoint.Ready .f32 layout layout := ⟨⟨rfl, rfl, rfl⟩, rfl⟩
  have hrefused : refusedPoint.Refused := Or.inl (by decide +kernel)
  obtain ⟨_, case, _, middle, e, _, _, hraised, hkind, _⟩ :=
    ((rejection_origin rejectedPoint_ready rfl unimplemented bench).1 rejectedPoint_sound
      unimplemented_writesInPlace []).mp hreturns
  obtain ⟨_, hpasses⟩ := (rejection_origin hready rfl unimplemented bench).2 hrefused
  exact ⟨⟨case, middle, e, hraised, hkind⟩, hpasses⟩

/-- A refusal of the settings passes for a rejection: results are returned, and the
primitive, which counts its calls, was never asked. -/
theorem refused_settings_pass : ∃ last : Bench Splitmix Nat,
    (validate refusedPoint unimplemented).runOn ⟨.ofSeed 0, 0, []⟩ = (.ok [], last) ∧
      last.state = 0 :=
  ⟨_, rfl, rfl⟩

end BatchNorm
