import BatchNorm.Proofs.Trial.Filling
import BatchNorm.Trial.Validation

/-!
# What a primitive is handed

A primitive can be run with a list of what its calls hand it (`Primitive.recording`), and
nothing else changes by that: the results, the log, the source of random numbers and the
states of the primitive are those of the primitive alone (`runOn_validate_recording`).

A case prepares what it hands over before the primitive is called (`Validation.prepare`).
That takes nothing from a bench but random numbers (`Trial.DrawsAlike`), so it does not
depend on the primitive. A case that is prepared makes one call with what was prepared,
and a case that is not makes none (`recorded_of_prepared`, `runOne_of_not_prepared`).
-/

set_option autoImplicit false

namespace BatchNorm

/-! ## Calls on record -/

/-- What a primitive is handed by a call. -/
inductive Handed where
  | forward (config : RunConfig) (given : ForwardBuffers)
  | backward (config : RunConfig) (given : BackwardBuffers)

/-- What is handed over belongs to a case: it is of the direction of the case, and comes
with the configuration of the case. -/
def Handed.IsFor (v : Validation) (precision : Precision) (case : TrialCase) : Handed → Prop
  | forward config _ => (∃ c, case = .forward c) ∧ v.configOf precision case = .ok config
  | backward config _ => (∃ c, case = .backward c) ∧ v.configOf precision case = .ok config

/-- The primitive together with a list of what it was handed, call by call. -/
def Primitive.recording {σ : Type} (primitive : Primitive σ) : Primitive (σ × List Handed) where
  forward config given state :=
    let (result, next) := primitive.forward config given state.1
    (result, next, state.2 ++ [.forward config given])
  backward config given state :=
    let (result, next) := primitive.backward config given state.1
    (result, next, state.2 ++ [.backward config given])

/-- A bench without the list. -/
def Bench.unrecorded {γ σ : Type} (bench : Bench γ (σ × List Handed)) : Bench γ σ :=
  ⟨bench.source, bench.state.1, bench.log⟩

namespace Trial

variable {γ σ τ α β : Type}

/-! ## Steps that take random numbers only -/

/-- Two steps that take random numbers from a bench and nothing else, and from the same
source the same ones: they give the same, and leave the source at the same place. -/
def DrawsAlike (x : Trial γ σ α) (y : Trial γ τ α) : Prop :=
  ∀ (bench : Bench γ σ) (bench' : Bench γ τ), bench.source = bench'.source →
    ∃ result source, x.runOn bench = (result, bench.withSource source) ∧
      y.runOn bench' = (result, bench'.withSource source)

theorem drawsAlike_ofExcept (x : Except Failure α) :
    DrawsAlike (ofExcept x : Trial γ σ α) (ofExcept x : Trial γ τ α) := by
  intro bench bench' hsource
  refine ⟨x, bench.source, runOn_ofExcept x, ?_⟩
  rw [runOn_ofExcept, hsource]
  rfl

theorem drawsAlike_pure (a : α) : DrawsAlike (pure a : Trial γ σ α) (pure a : Trial γ τ α) :=
  drawsAlike_ofExcept (.ok a)

theorem drawsAlike_draw (next : γ → α × γ) :
    DrawsAlike (draw next : Trial γ σ α) (draw next : Trial γ τ α) := by
  intro bench bench' hsource
  refine ⟨_, _, runOn_draw next, ?_⟩
  rw [runOn_draw, hsource]

theorem DrawsAlike.bind {x : Trial γ σ α} {y : Trial γ τ α} {f : α → Trial γ σ β}
    {f' : α → Trial γ τ β} (hx : DrawsAlike x y) (hf : ∀ a, DrawsAlike (f a) (f' a)) :
    DrawsAlike (x >>= f) (y >>= f') := by
  intro bench bench' hsource
  obtain ⟨e | a, source, hrun, hrun'⟩ := hx bench bench' hsource
  · exact ⟨.error e, source, runOn_bind_of_error hrun, runOn_bind_of_error hrun'⟩
  · obtain ⟨result, last, hlast, hlast'⟩ :=
      hf a (bench.withSource source) (bench'.withSource source) rfl
    exact ⟨result, last, (runOn_bind_of_ok hrun).trans hlast, (runOn_bind_of_ok hrun').trans hlast'⟩

theorem DrawsAlike.map {x : Trial γ σ α} {y : Trial γ τ α} (hx : DrawsAlike x y) (f : α → β) :
    DrawsAlike (f <$> x) (f <$> y) := by
  rw [map_eq_pure_bind, map_eq_pure_bind]
  exact hx.bind fun a => drawsAlike_pure (f a)

theorem drawsAlike_drawBuffer (count : Nat) (fill : Nat → γ → Buffer × γ) :
    DrawsAlike (drawBuffer count fill : Trial γ σ Buffer)
      (drawBuffer count fill : Trial γ τ Buffer) :=
  (drawsAlike_ofExcept _).bind fun _ => drawsAlike_draw _

variable [RandomSource γ]

theorem drawsAlike_activation (layout : Layout) (type : ElementType) :
    DrawsAlike (activation layout type : Trial γ σ Buffer)
      (activation layout type : Trial γ τ Buffer) := by
  unfold activation
  exact (drawsAlike_drawBuffer _ _).bind fun _ => (drawsAlike_ofExcept _).bind fun _ =>
    drawsAlike_pure _

theorem drawsAlike_forwardBuffers (config : RunConfig) (layout : Layout) :
    DrawsAlike (forwardBuffers config layout : Trial γ σ ForwardBuffers)
      (forwardBuffers config layout : Trial γ τ ForwardBuffers) := by
  rw [forwardBuffers_eq, forwardBuffers_eq]
  refine DrawsAlike.bind ?_ fun statistics => DrawsAlike.bind ?_ fun affine => ?_
  · unfold forwardStatistics
    split
    · exact (drawsAlike_ofExcept _).bind fun _ => drawsAlike_pure _
    · exact (drawsAlike_drawBuffer _ _).bind fun _ => (drawsAlike_drawBuffer _ _).bind fun _ =>
        drawsAlike_pure _
  · unfold affineParameters
    split
    · exact (drawsAlike_drawBuffer _ _).bind fun _ => (drawsAlike_drawBuffer _ _).bind fun _ =>
        drawsAlike_pure _
    · exact drawsAlike_pure _
  · exact (drawsAlike_activation _ _).bind fun _ => (drawsAlike_activation _ _).bind fun _ =>
      drawsAlike_pure _

theorem drawsAlike_backwardBuffers (config : RunConfig) (mode : BackwardMode)
    (layout diffLayout : Layout) :
    DrawsAlike (backwardBuffers config mode layout diffLayout : Trial γ σ BackwardBuffers)
      (backwardBuffers config mode layout diffLayout : Trial γ τ BackwardBuffers) := by
  rw [backwardBuffers_eq, backwardBuffers_eq]
  refine DrawsAlike.bind ?_ fun scale => DrawsAlike.bind ?_ fun gradients => ?_
  · unfold backwardScale
    split
    · exact (drawsAlike_drawBuffer _ _).map some
    · exact drawsAlike_pure none
  · unfold zeroGradients
    cases mode with
    | data => exact drawsAlike_pure none
    | dataAndParameters => exact (drawsAlike_ofExcept _).map some
  · exact (drawsAlike_activation _ _).bind fun _ => (drawsAlike_activation _ _).bind fun _ =>
      (drawsAlike_activation _ _).bind fun _ => (drawsAlike_drawBuffer _ _).bind fun _ =>
        (drawsAlike_drawBuffer _ _).bind fun _ => drawsAlike_pure _

end Trial

/-! ## Recording changes nothing -/

namespace Trial

variable {γ σ α β : Type}

/-- A step on benches with a list that goes as another one does without: it gives the same,
and leaves the same bench but for the list. -/
def Projects (x : Trial γ (σ × List Handed) α) (y : Trial γ σ α) : Prop :=
  ∀ bench, y.runOn bench.unrecorded = ((x.runOn bench).1, (x.runOn bench).2.unrecorded)

theorem DrawsAlike.projects {x : Trial γ (σ × List Handed) α} {y : Trial γ σ α}
    (h : DrawsAlike x y) : Projects x y := by
  intro bench
  obtain ⟨result, source, hx, hy⟩ := h bench bench.unrecorded rfl
  rw [hx, hy]
  rfl

theorem projects_log (level : LogLevel) (message : String) :
    Projects (log level message : Trial γ (σ × List Handed) Unit) (log level message) :=
  fun _ => rfl

theorem projects_ofLogged (logged : Logged α) :
    Projects (ofLogged logged : Trial γ (σ × List Handed) α) (ofLogged logged) := by
  intro bench
  rw [runOn_ofLogged, runOn_ofLogged]
  rfl

theorem projects_call {next : σ × List Handed → Except Failure α × σ × List Handed}
    {next' : σ → Except Failure α × σ}
    (h : ∀ state, next' state.1 = ((next state).1, (next state).2.1)) :
    Projects (call next : Trial γ (σ × List Handed) α) (call next') := by
  intro bench
  have hstate : bench.unrecorded.state = bench.state.1 := rfl
  rw [runOn_call, runOn_call, hstate, h]
  rfl

theorem Projects.bind {x : Trial γ (σ × List Handed) α} {y : Trial γ σ α}
    {f : α → Trial γ (σ × List Handed) β} {f' : α → Trial γ σ β} (hx : Projects x y)
    (hf : ∀ a, Projects (f a) (f' a)) : Projects (x >>= f) (y >>= f') := by
  intro bench
  have hrun' := hx bench
  rcases hrun : x.runOn bench with ⟨e | a, middle⟩
  · rw [hrun] at hrun'
    rw [runOn_bind_of_error hrun, runOn_bind_of_error hrun']
  · rw [hrun] at hrun'
    rw [runOn_bind_of_ok hrun, runOn_bind_of_ok hrun', hf a middle]

theorem projects_inParts {fill : Trial γ (σ × List Handed) β} {fill' : Trial γ σ β}
    {message : String} {next : β → σ × List Handed → Except Failure β × σ × List Handed}
    {next' : β → σ → Except Failure β × σ} {verify : β → Logged Verdict}
    (hfill : DrawsAlike fill fill')
    (hnext : ∀ given state, next' given state.1 = ((next given state).1, (next given state).2.1)) :
    Projects (inParts fill message next verify) (inParts fill' message next' verify) :=
  hfill.projects.bind fun given => (projects_log _ _).bind fun _ =>
    (projects_call (hnext given)).bind fun _ => projects_ofLogged _

end Trial

section

variable {γ σ : Type}

theorem runCases_recording {run : TrialCase → Trial γ (σ × List Handed) Verdict}
    {run' : TrialCase → Trial γ σ Verdict} (h : ∀ case, Trial.Projects (run case) (run' case))
    (cases : List TrialCase) (bench : Bench γ (σ × List Handed)) :
    (runCases run' cases).run bench.unrecorded =
      (((runCases run cases).run bench).1, ((runCases run cases).run bench).2.unrecorded) := by
  induction cases generalizing bench with
  | nil => rfl
  | cons case rest ih =>
      have hcase' := h case bench
      rcases hcase : (run case).runOn bench with ⟨e | verdict, middle⟩
      · rw [hcase] at hcase'
        rw [runCases_cons_of_error hcase, runCases_cons_of_error hcase']
      · rw [hcase] at hcase'
        rw [runCases_cons_of_ok hcase, runCases_cons_of_ok hcase', ih middle]

variable {v : Validation}

theorem projects_outcome (results : List CaseResult) (failure : Option Failure) :
    Trial.Projects (v.outcome results failure : Trial γ (σ × List Handed) (List CaseResult))
      (v.outcome results failure) := by
  have hreturns : ∀ (level : LogLevel) (message : String),
      Trial.Projects (do Trial.log level message; return results) (do
        Trial.log (γ := γ) (σ := σ) level message; return results) := fun level message =>
    (Trial.projects_log level message).bind fun _ => (Trial.drawsAlike_pure results).projects
  have hthrows : ∀ e : Failure,
      Trial.Projects (γ := γ) (σ := σ) (throw e : Trial _ _ (List CaseResult)) (throw e) :=
    fun e => (Trial.drawsAlike_ofExcept (.error e)).projects
  unfold Validation.outcome
  match failure with
  | some e =>
      cases hrejection : v.isRejection e with
      | false =>
          simp only [hrejection, Bool.false_eq_true, if_false]
          exact hthrows e
      | true => simpa only [hrejection, if_true] using hreturns _ _
  | none =>
      match v.expected with
      | some expected => exact hthrows _
      | none => exact hreturns _ _

variable [RandomSource γ] {precision : Precision} {layout diffLayout : Layout}

theorem projects_runOne (primitive : Primitive σ) (case : TrialCase) :
    Trial.Projects (γ := γ) (v.runOne precision primitive.recording layout diffLayout case)
      (v.runOne precision primitive layout diffLayout case) := by
  refine (Trial.drawsAlike_ofExcept _).projects.bind fun config => ?_
  cases case with
  | forward c =>
      exact Trial.projects_inParts (Trial.drawsAlike_forwardBuffers config layout) fun _ _ => rfl
  | backward c =>
      exact Trial.projects_inParts
        (Trial.drawsAlike_backwardBuffers config c.mode layout diffLayout) fun _ _ => rfl

theorem runAll_recording (v : Validation) (primitive : Primitive σ) (layout diffLayout : Layout)
    (bench : Bench γ (σ × List Handed)) :
    (v.runAll primitive layout diffLayout).run bench.unrecorded =
      (((v.runAll primitive.recording layout diffLayout).run bench).1,
        ((v.runAll primitive.recording layout diffLayout).run bench).2.unrecorded) := by
  unfold Validation.runAll
  cases v.precision with
  | none => rfl
  | some precision => exact runCases_recording (projects_runOne primitive) _ bench

/-- A validation with a list of what is handed over is the validation, but for the list. -/
theorem runOn_validate_recording (v : Validation) (primitive : Primitive σ)
    (bench : Bench γ (σ × List Handed)) :
    (validate v primitive).runOn bench.unrecorded =
      (((validate v primitive.recording).runOn bench).1,
        ((validate v primitive.recording).runOn bench).2.unrecorded) := by
  refine (Trial.drawsAlike_ofExcept _).projects.bind (fun layout => ?_) bench
  refine (Trial.drawsAlike_ofExcept _).projects.bind fun diffLayout => ?_
  refine (Trial.drawsAlike_ofExcept _).projects.bind fun _ => ?_
  refine Trial.Projects.bind (fun bench => ?_) fun ⟨results, failure⟩ => projects_outcome _ _
  rw [Trial.runOn_liftM, Trial.runOn_liftM, runAll_recording]

/-! ## Preparing a case -/

/-- Prepares a case: its configuration, and the buffers that are filled for it. -/
def Validation.prepare (v : Validation) (precision : Precision) (layout diffLayout : Layout)
    (case : TrialCase) : Trial γ σ Handed := do
  let config ← Trial.ofExcept (v.configOf precision case)
  match case with
  | .forward _ => .forward config <$> Trial.forwardBuffers config layout
  | .backward c => .backward config <$> Trial.backwardBuffers config c.mode layout diffLayout

/-- What is prepared for a case depends on the source of random numbers only. -/
theorem drawsAlike_prepare {τ : Type} (v : Validation) (precision : Precision)
    (layout diffLayout : Layout) (case : TrialCase) :
    Trial.DrawsAlike (v.prepare precision layout diffLayout case : Trial γ σ Handed)
      (v.prepare precision layout diffLayout case : Trial γ τ Handed) := by
  refine (Trial.drawsAlike_ofExcept _).bind fun config => ?_
  cases case with
  | forward c => exact (Trial.drawsAlike_forwardBuffers config layout).map _
  | backward c => exact (Trial.drawsAlike_backwardBuffers config c.mode layout diffLayout).map _

variable {primitive : Primitive σ} {case : TrialCase} {bench last : Bench γ σ} {handed : Handed}

theorem exists_of_prepared
    (h : (v.prepare precision layout diffLayout case).runOn bench = (.ok handed, last)) :
    ∃ config, v.configOf precision case = .ok config ∧
      match case with
      | .forward _ => ∃ given, handed = .forward config given ∧
          (Trial.forwardBuffers config layout).runOn bench = (.ok given, last)
      | .backward c => ∃ given, handed = .backward config given ∧
          (Trial.backwardBuffers config c.mode layout diffLayout).runOn bench =
            (.ok given, last) := by
  obtain ⟨config, middle, hok, hfill⟩ := Trial.runOn_bind_eq_ok_iff.mp h
  rw [Trial.runOn_ofExcept] at hok
  obtain ⟨hconfig, rfl⟩ := Prod.mk.inj hok
  refine ⟨config, hconfig, ?_⟩
  cases case with
  | forward c =>
      obtain ⟨given, hgiven, rfl⟩ := Trial.runOn_map_eq_ok_iff.mp hfill
      exact ⟨given, rfl, hgiven⟩
  | backward c =>
      obtain ⟨given, hgiven, rfl⟩ := Trial.runOn_map_eq_ok_iff.mp hfill
      exact ⟨given, rfl, hgiven⟩

theorem isFor_of_prepared
    (h : (v.prepare precision layout diffLayout case).runOn bench = (.ok handed, last)) :
    handed.IsFor v precision case := by
  obtain ⟨config, hconfig, h⟩ := exists_of_prepared h
  cases case with
  | forward c =>
      obtain ⟨given, rfl, _⟩ := h
      exact ⟨⟨c, rfl⟩, hconfig⟩
  | backward c =>
      obtain ⟨given, rfl, _⟩ := h
      exact ⟨⟨c, rfl⟩, hconfig⟩

end

/-! ## One call for each case -/

section

variable {γ σ β : Type}

/-- The call of a case puts what it hands over on the list, and leaves the source of random
numbers alone. -/
theorem recorded_inParts {fill : Trial γ (σ × List Handed) β} {message : String}
    {next : β → σ × List Handed → Except Failure β × σ × List Handed}
    {verify : β → Logged Verdict} {given : β} {bench prepared : Bench γ (σ × List Handed)}
    (record : β → Handed)
    (hnext : ∀ state, (next given state).2.2 = state.2 ++ [record given])
    (hfill : fill.runOn bench = (.ok given, prepared)) :
    let last := ((Trial.inParts fill message next verify).runOn bench).2
    last.source = prepared.source ∧ last.state.2 = prepared.state.2 ++ [record given] := by
  have hrecord := hnext prepared.state
  rw [Trial.runOn_inParts_of_ok hfill]
  rcases hcall : next given prepared.state with ⟨e | written, state⟩
  · rw [hcall] at hrecord
    exact ⟨rfl, hrecord⟩
  · rw [hcall] at hrecord
    exact ⟨rfl, hrecord⟩

variable [RandomSource γ] {v : Validation} {precision : Precision} {layout diffLayout : Layout}
  {case : TrialCase} {bench prepared last : Bench γ (σ × List Handed)} {handed : Handed}

/-- A case that is prepared hands over what was prepared, whatever comes of it. -/
theorem recorded_of_prepared (primitive : Primitive σ)
    (h : (v.prepare precision layout diffLayout case).runOn bench = (.ok handed, prepared)) :
    let last := ((v.runOne precision primitive.recording layout diffLayout case).runOn bench).2
    last.source = prepared.source ∧ last.state.2 = prepared.state.2 ++ [handed] := by
  obtain ⟨config, hconfig, h⟩ := exists_of_prepared h
  have hrun : (v.runOne precision primitive.recording layout diffLayout case).runOn bench =
      (runCase primitive.recording case config layout diffLayout v.raiseOnFailure).runOn bench := by
    refine Trial.runOn_bind_of_ok ?_
    rw [Trial.runOn_ofExcept, hconfig]
  rw [hrun]
  cases case with
  | forward c =>
      obtain ⟨given, rfl, hfill⟩ := h
      exact recorded_inParts (.forward config) (fun _ => rfl) hfill
  | backward c =>
      obtain ⟨given, rfl, hfill⟩ := h
      exact recorded_inParts (.backward config) (fun _ => rfl) hfill

/-- A case that cannot be prepared fails for that reason, without a call. -/
theorem runOne_of_not_prepared {γ σ : Type} [RandomSource γ] {primitive : Primitive σ}
    {bench last : Bench γ σ} {e : Failure}
    (h : (v.prepare precision layout diffLayout case).runOn bench = (.error e, last)) :
    (v.runOne precision primitive layout diffLayout case).runOn bench = (.error e, last) := by
  obtain hconfig | ⟨config, middle, hconfig, hfill⟩ := Trial.runOn_bind_eq_error_iff.mp h
  · exact Trial.runOn_bind_of_error hconfig
  · refine (Trial.runOn_bind_of_ok hconfig).trans ?_
    cases case with
    | forward c => exact Trial.runOn_inParts_of_error (Trial.runOn_map_eq_error_iff.mp hfill)
    | backward c => exact Trial.runOn_inParts_of_error (Trial.runOn_map_eq_error_iff.mp hfill)

/-- A case that gives a verdict has made its call. -/
theorem recorded_of_ok {primitive : Primitive σ} {verdict : Verdict}
    (h : (v.runOne precision primitive.recording layout diffLayout case).runOn bench =
      (.ok verdict, last)) :
    ∃ handed : Handed, handed.IsFor v precision case ∧
      last.state.2 = bench.state.2 ++ [handed] := by
  obtain ⟨e | handed, source, hprepare, _⟩ :=
    drawsAlike_prepare v precision layout diffLayout case bench bench rfl
  · cases h.symm.trans (runOne_of_not_prepared hprepare)
  · obtain ⟨_, hstate⟩ := recorded_of_prepared primitive hprepare
    rw [h] at hstate
    exact ⟨handed, isFor_of_prepared hprepare, hstate⟩

end

end BatchNorm
