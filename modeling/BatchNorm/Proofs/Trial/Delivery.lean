import BatchNorm.Proofs.Trial.InPlace
import BatchNorm.Proofs.Trial.TestData
import BatchNorm.Proofs.Verify.Limit

/-!
# How a failure is delivered

A verification that raises its mismatches does what one does that returns them, with the
same log, and only then fails if the verdict does not pass (`Logged.RaisedAs`). So a case
that raises differs from one that does not in its result only, and a validation that
raises goes along with one that does not up to the first verdict that does not pass: there
it fails with the report of that verdict, and the cases after it make no calls
(`delivery_of_failures`).
-/

set_option autoImplicit false

namespace BatchNorm

/-! ## Verifications -/

/-- The same verification as another one, but a verdict that does not pass is raised, with a
report of which the message writes `limit` mismatches, if that message can be written. -/
structure Logged.RaisedAs (raising quiet : Logged Verdict) (limit : Int) : Prop where
  log : raising.log = quiet.log
  result : raising.result = quiet.result >>= (·.orFail limit)

section

variable {limit : Int} {config : RunConfig}

theorem raisedAs_fail (e : Failure) : (Logged.fail e).RaisedAs (Logged.fail e) limit := ⟨rfl, rfl⟩

theorem Logged.RaisedAs.after {raising quiet : Logged Verdict} (h : raising.RaisedAs quiet limit)
    (level : LogLevel) (message : String) :
    (Logged.after level message raising).RaisedAs (.after level message quiet) limit :=
  ⟨congrArg (fun log => (⟨level, message⟩ : LogLine) :: log) h.log, h.result⟩

theorem Logged.RaisedAs.provided {raising quiet : Logged Verdict} (h : raising.RaisedAs quiet limit)
    (check : Except Failure Unit) :
    (Logged.provided check raising).RaisedAs (.provided check quiet) limit := by
  cases check with
  | error e => exact raisedAs_fail e
  | ok u => exact h

theorem raisedAs_conclude {verdict : Verdict}
    (hlimit : verdict.config.tolerance.maxReported = some limit) :
    (conclude verdict true).RaisedAs (conclude verdict false) limit where
  log := by
    unfold conclude
    split
    · rfl
    · rfl
  result := by rw [conclude_result_true hlimit, conclude_result_false, ok_bind]

theorem config_of_forwardCompare {v : ForwardView} {verdict : Verdict}
    (h : v.compare config = .ok verdict) : verdict.config = config := by
  obtain ⟨epsilon, _, h⟩ := bind_eq_ok_iff.mp h
  obtain ⟨_, _, h⟩ := bind_eq_ok_iff.mp h
  obtain ⟨columns, _, h⟩ := bind_eq_ok_iff.mp h
  obtain ⟨channels, _, h⟩ := bind_eq_ok_iff.mp h
  dsimp only at h
  split at h
  · obtain ⟨padding, _, h⟩ := bind_eq_ok_iff.mp h
    cases h
    rfl
  · cases h
    rfl

theorem config_of_backwardCompare {v : BackwardView} {verdict : Verdict}
    (h : v.compare config = .ok verdict) : verdict.config = config := by
  obtain ⟨epsilon, _, h⟩ := bind_eq_ok_iff.mp h
  obtain ⟨_, _, h⟩ := bind_eq_ok_iff.mp h
  obtain ⟨columns, _, h⟩ := bind_eq_ok_iff.mp h
  obtain ⟨channels, _, h⟩ := bind_eq_ok_iff.mp h
  dsimp only at h
  split at h
  · obtain ⟨padding, _, h⟩ := bind_eq_ok_iff.mp h
    cases h
    rfl
  · cases h
    rfl

/-- A forward verification that raises is one that does not, up to the verdict. -/
theorem raisedAs_verifyForward (hlimit : config.tolerance.maxReported = some limit)
    (b : ForwardBuffers) :
    (verifyForward config b true).RaisedAs (verifyForward config b false) limit := by
  unfold verifyForward
  match b.view config with
  | .error e => exact raisedAs_fail e
  | .ok none => exact Logged.RaisedAs.provided ⟨rfl, rfl⟩ _
  | .ok (some view) =>
      refine (Logged.RaisedAs.after ?_ _ _).provided _
      cases hverdict : view.compare config with
      | error e => exact raisedAs_fail e
      | ok verdict =>
          exact raisedAs_conclude (by rw [config_of_forwardCompare hverdict, hlimit])

/-- A backward verification that raises is one that does not, up to the verdict. -/
theorem raisedAs_verifyBackward (hlimit : config.tolerance.maxReported = some limit)
    (b : BackwardBuffers) :
    (verifyBackward config b true).RaisedAs (verifyBackward config b false) limit := by
  unfold verifyBackward
  match b.parameters config with
  | .error e => exact raisedAs_fail e
  | .ok parameters =>
      dsimp only
      split
      · exact ((raisedAs_conclude hlimit).after _ _).provided _
      · match b.view config parameters with
        | .error e => exact raisedAs_fail e
        | .ok view =>
            refine (Logged.RaisedAs.after ?_ _ _).provided _
            cases hverdict : view.compare config with
            | error e => exact raisedAs_fail e
            | ok verdict =>
                exact raisedAs_conclude (by rw [config_of_backwardCompare hverdict, hlimit])

end

/-! ## Cases in order -/

section

variable {γ σ : Type}

theorem nil_ne_append_cons {α : Type} (xs ys : List α) (x : α) : [] ≠ xs ++ x :: ys := by simp

/-- The same cases as others, but a verdict that does not pass is raised. -/
def RaisesAs (raising quiet : TrialCase → Trial γ σ Verdict) (limit : Int) : Prop :=
  ∀ case bench, (raising case).runOn bench =
    (((quiet case).runOn bench).1 >>= (·.orFail limit), ((quiet case).runOn bench).2)

variable {raising quiet : TrialCase → Trial γ σ Verdict} {limit : Int} {case : TrialCase}
  {bench last : Bench γ σ}

theorem RaisesAs.runOn_of_error (h : RaisesAs raising quiet limit) {e : Failure}
    (hquiet : (quiet case).runOn bench = (.error e, last)) :
    (raising case).runOn bench = (.error e, last) := by
  rw [h, hquiet, error_bind]

theorem RaisesAs.runOn_of_passed (h : RaisesAs raising quiet limit) {verdict : Verdict}
    (hquiet : (quiet case).runOn bench = (.ok verdict, last)) (hpassed : verdict.passed = true) :
    (raising case).runOn bench = (.ok verdict, last) := by
  rw [h, hquiet, ok_bind, Verdict.orFail, if_pos hpassed]

theorem RaisesAs.runOn_of_failed (h : RaisesAs raising quiet limit) {verdict : Verdict} {e : Failure}
    (hquiet : (quiet case).runOn bench = (.ok verdict, last))
    (hfailed : verdict.orFail limit = .error e) : (raising case).runOn bench = (.error e, last) := by
  rw [h, hquiet, ok_bind, hfailed]

/-- Where no verdict fails, there is nothing to raise. -/
theorem RaisesAs.runCases_of_passed (h : RaisesAs raising quiet limit) (cases : List TrialCase)
    (bench : Bench γ σ)
    (hpassed : ∀ r ∈ ((runCases quiet cases).run bench).1.1, r.passed = true) :
    (runCases raising cases).run bench = (runCases quiet cases).run bench := by
  induction cases generalizing bench with
  | nil => rfl
  | cons case rest ih =>
      rcases hquiet : (quiet case).runOn bench with ⟨e | verdict, middle⟩
      · rw [runCases_cons_of_error hquiet, runCases_cons_of_error (h.runOn_of_error hquiet)]
      · rw [runCases_cons_of_ok hquiet] at hpassed
        have hverdict : verdict.passed = true := hpassed _ List.mem_cons_self
        rw [runCases_cons_of_ok hquiet, runCases_cons_of_ok (h.runOn_of_passed hquiet hverdict),
          ih middle fun r hr => hpassed r (List.mem_cons_of_mem _ hr)]

/-- The first verdict that fails is raised. The cases up to its own are completed without
raising, and nothing happens after them. -/
theorem RaisesAs.runCases_of_failed (h : RaisesAs raising quiet limit) (cases : List TrialCase)
    (bench : Bench γ σ) {passing rest : List CaseResult} {r : CaseResult}
    (hresults : ((runCases quiet cases).run bench).1.1 = passing ++ r :: rest)
    (hpassing : ∀ x ∈ passing, x.passed = true) {e : Failure}
    (hfailed : r.verdict.orFail limit = .error e) :
    ∃ last, (runCases raising cases).run bench = ((passing, some e), last) ∧
      Completes quiet (cases.take (passing.length + 1)) bench (passing ++ [r]) last := by
  induction cases generalizing bench passing with
  | nil => exact absurd hresults (nil_ne_append_cons _ _ _)
  | cons case others ih =>
      rcases hquiet : (quiet case).runOn bench with ⟨e | verdict, middle⟩
      · rw [runCases_cons_of_error hquiet] at hresults
        exact absurd hresults (nil_ne_append_cons _ _ _)
      · rw [runCases_cons_of_ok hquiet] at hresults
        cases passing with
        | nil =>
            -- this is the case that fails
            obtain ⟨rfl, _⟩ := List.cons.inj hresults
            exact ⟨middle, runCases_cons_of_error (h.runOn_of_failed hquiet hfailed),
              .cons hquiet .nil⟩
        | cons x passing =>
            obtain ⟨rfl, hrest⟩ := List.cons.inj hresults
            have hverdict : verdict.passed = true := hpassing _ List.mem_cons_self
            obtain ⟨last, hrun, hcompletes⟩ :=
              ih middle hrest fun x hx => hpassing x (List.mem_cons_of_mem _ hx)
            refine ⟨last, ?_, .cons hquiet hcompletes⟩
            rw [runCases_cons_of_ok (h.runOn_of_passed hquiet hverdict), hrun]

end

/-! ## The cases of a validation -/

/-- The validation with mismatches raised, or not. -/
def Validation.raising (v : Validation) (raise : Bool) : Validation :=
  { v with raiseOnFailure := raise }

theorem RunConfig.tolerance_of_make {shape : Shape} {normalization : Normalization}
    {precision : Precision} {mode : Option BackwardMode} {tolerance : Tolerance}
    {numThreads : Option Int} {checkPadding : Bool} {config : RunConfig}
    (h : make shape normalization precision mode tolerance numThreads checkPadding = .ok config) :
    config.tolerance = tolerance := by
  unfold make at h
  split at h
  · cases h
  · split at h
    · cases h
      rfl
    · cases h

section

variable {γ σ β : Type} {limit : Int}

/-- A case in parts that raises goes as one that does not, up to the verdict. -/
theorem runOn_inParts_raisedAs {fill : Trial γ σ β} {message : String}
    {next : β → σ → Except Failure β × σ} {raising quiet : β → Logged Verdict}
    (h : ∀ written, (raising written).RaisedAs (quiet written) limit) (bench : Bench γ σ) :
    (Trial.inParts fill message next raising).runOn bench =
      (((Trial.inParts fill message next quiet).runOn bench).1 >>= (·.orFail limit),
        ((Trial.inParts fill message next quiet).runOn bench).2) := by
  rcases hfill : fill.runOn bench with ⟨e | given, prepared⟩
  · rw [Trial.runOn_inParts_of_error hfill, Trial.runOn_inParts_of_error hfill]
    rfl
  · rw [Trial.runOn_inParts_of_ok hfill, Trial.runOn_inParts_of_ok hfill]
    rcases next given prepared.state with ⟨e | written, state⟩
    · rfl
    · dsimp only
      rw [(h written).log, (h written).result]

variable [RandomSource γ] {v : Validation} {precision : Precision} {layout diffLayout : Layout}

theorem raisesAs_runOne (hlimit : v.tolerance.maxReported = some limit)
    (primitive : Primitive σ) :
    RaisesAs (γ := γ) ((v.raising true).runOne precision primitive layout diffLayout)
      ((v.raising false).runOne precision primitive layout diffLayout) limit := by
  intro case bench
  unfold Validation.runOne
  have hconfigOf : ∀ raise, (v.raising raise).configOf precision case = v.configOf precision case :=
    fun _ => rfl
  rw [hconfigOf, hconfigOf]
  cases hconfig : v.configOf precision case with
  | error e =>
      rw [Trial.runOn_bind_of_error (Trial.runOn_ofExcept (.error e)),
        Trial.runOn_bind_of_error (Trial.runOn_ofExcept (.error e)), error_bind]
  | ok config =>
      rw [Trial.runOn_bind_of_ok (Trial.runOn_ofExcept (.ok config)),
        Trial.runOn_bind_of_ok (Trial.runOn_ofExcept (.ok config))]
      have hmax : config.tolerance.maxReported = some limit := by
        rw [RunConfig.tolerance_of_make hconfig, hlimit]
      cases case with
      | forward c => exact runOn_inParts_raisedAs (raisedAs_verifyForward hmax) bench
      | backward c => exact runOn_inParts_raisedAs (raisedAs_verifyBackward hmax) bench

/-- Cases that give verdicts make one call each. -/
theorem recorded_of_completes {primitive : Primitive σ} {cases : List TrialCase}
    {bench last : Bench γ (σ × List Handed)} {results : List CaseResult}
    (h : Completes (v.runOne precision primitive.recording layout diffLayout) cases bench results
      last) :
    ∃ handed, last.state.2 = bench.state.2 ++ handed ∧
      List.Forall₂ (fun case handed => Handed.IsFor v precision case handed) cases handed := by
  induction h with
  | nil => exact ⟨[], (List.append_nil _).symm, .nil⟩
  | cons first others ih =>
      obtain ⟨handed, hfor, hstate⟩ := recorded_of_ok first
      obtain ⟨later, hlater, hfors⟩ := ih
      refine ⟨handed :: later, ?_, .cons hfor hfors⟩
      rw [hlater, hstate, List.append_assoc]
      rfl

end

/-! ## Both together -/

section

variable {γ σ : Type} [RandomSource γ] {v : Validation} {limit : Int}

/-- The results of the cases that a validation completes before it ends. -/
def Validation.completed (v : Validation) (primitive : Primitive σ) (bench : Bench γ σ) :
    List CaseResult :=
  match v.layouts with
  | .error _ => []
  | .ok (layout, diffLayout) => ((v.runAll primitive layout diffLayout).run bench).1.1

theorem completed_recording (v : Validation) (primitive : Primitive σ) (bench : Bench γ σ) :
    v.completed primitive.recording ⟨bench.source, (bench.state, []), bench.log⟩ =
      v.completed primitive bench := by
  unfold Validation.completed
  match v.layouts with
  | .error e => rfl
  | .ok (layout, diffLayout) =>
      exact congrArg (·.1.1) (runAll_recording v primitive layout diffLayout
        ⟨bench.source, (bench.state, []), bench.log⟩).symm

theorem not_isRejection_verification (v : Validation) (report : Report) :
    v.isRejection (.verification report) = false := by
  refine Bool.eq_false_iff.mpr fun h => ?_
  obtain ⟨_, _, _, hother⟩ := Validation.isRejection_iff.mp h
  exact hother rfl

theorem layouts_raising (v : Validation) (raise : Bool) :
    (v.raising raise).layouts = v.layouts := rfl

theorem precision_raising (v : Validation) (raise : Bool) :
    (v.raising raise).precision = v.precision := rfl

/-- With every verdict passing, a validation that raises is one that does not. -/
theorem runOn_validate_of_passed (hlimit : v.tolerance.maxReported = some limit)
    (primitive : Primitive σ) (bench : Bench γ σ)
    (hpassed : ∀ r ∈ (v.raising false).completed primitive bench, r.passed = true) :
    (validate (v.raising true) primitive).runOn bench =
      (validate (v.raising false) primitive).runOn bench := by
  rw [Validation.completed, layouts_raising] at hpassed
  rw [runOn_validate_eq, runOn_validate_eq, layouts_raising, layouts_raising]
  match hlayouts : v.layouts with
  | .error e => rfl
  | .ok (layout, diffLayout) =>
      have hrun : ((v.raising true).runAll primitive layout diffLayout).run bench =
          ((v.raising false).runAll primitive layout diffLayout).run bench := by
        rw [hlayouts] at hpassed
        dsimp only [Validation.runAll] at hpassed ⊢
        rw [precision_raising] at hpassed ⊢
        rw [precision_raising]
        cases hprecision : v.precision with
        | none => rfl
        | some precision =>
            rw [hprecision] at hpassed
            exact (raisesAs_runOne hlimit primitive).runCases_of_passed _ bench hpassed
      dsimp only
      rw [hrun]
      rfl

/-- A validation that raises fails with the first verdict that does, if its report can be
written, after the calls up to that of its case. -/
theorem runOn_validate_of_failed (hlimit : v.tolerance.maxReported = some limit)
    (primitive : Primitive σ) (bench : Bench γ (σ × List Handed)) {passing rest : List CaseResult}
    {r : CaseResult}
    (hresults : (v.raising false).completed primitive.recording bench = passing ++ r :: rest)
    (hpassing : ∀ x ∈ passing, x.passed = true) (hfailed : r.passed = false) :
    let run := (validate (v.raising true) primitive.recording).runOn bench
    ((r.verdict.reportUpTo limit).isWritable = true →
      run.1 = .error (.verification (r.verdict.reportUpTo limit))) ∧
    ∃ precision handed, v.precision = some precision ∧ run.2.state.2 = bench.state.2 ++ handed ∧
      List.Forall₂ (fun case handed => Handed.IsFor (v.raising false) precision case handed)
        ((TrialCase.all precision).take (passing.length + 1)) handed := by
  obtain ⟨e, herror, hreport⟩ := Verdict.exists_orFail_eq_error hfailed limit
  rw [Validation.completed, layouts_raising] at hresults
  rw [runOn_validate_eq, layouts_raising]
  match hlayouts : v.layouts with
  | .error e =>
      rw [hlayouts] at hresults
      exact absurd hresults (nil_ne_append_cons _ _ _)
  | .ok (layout, diffLayout) =>
      rw [hlayouts] at hresults
      dsimp only [Validation.runAll] at hresults ⊢
      rw [precision_raising] at hresults ⊢
      cases hprecision : v.precision with
      | none =>
          rw [hprecision] at hresults
          exact absurd hresults (nil_ne_append_cons _ _ _)
      | some precision =>
          rw [hprecision] at hresults
          obtain ⟨last, hrun, hcompletes⟩ :=
            (raisesAs_runOne hlimit primitive.recording).runCases_of_failed _ bench hresults
              hpassing herror
          obtain ⟨handed, hstate, hfors⟩ := recorded_of_completes hcompletes
          dsimp only
          rw [hrun]
          refine ⟨fun hwritable => ?_, precision, handed, rfl, ?_, hfors⟩
          · rw [hreport hwritable,
              Validation.runOn_outcome_of_not_rejection (not_isRejection_verification _ _)]
          · rw [Validation.state_runOn_outcome, hstate]

/-- **Raising changes the delivery only.** For a limit on what is reported, a verification of
either direction that raises writes the log of one that does not, fails as that one does,
gives the same verdict if it passes, and fails with a report of the same mismatches and
the same description if it does not, if the message of the report can be written; and inputs
that are accepted do get a verdict, where binary64 can hold the number of reduced elements.

For any primitive in any state: if a case that a validation completes without raising has
a verdict that does not pass, the validation that raises calls the primitive for the cases
up to that of the first such verdict, once each and in their order, and fails with the
report of that verdict, if the message can be written. Otherwise both validations give the
same and leave the same bench. For limits that are not below zero every message can be
written. -/
theorem delivery_of_failures (config : RunConfig)
    (hconfig : config.tolerance.maxReported = some limit)
    (hlimit : v.tolerance.maxReported = some limit) (primitive : Primitive σ)
    (bench : Bench γ σ) :
    (∀ b : ForwardBuffers,
      (verifyForward config b true).RaisedAs (verifyForward config b false) limit ∧
      ((config.shape.reductionSize : Float).isFinite = true → b.Accepted config →
        ∃ verdict, (verifyForward config b false).result = .ok verdict)) ∧
    (∀ b : BackwardBuffers,
      (verifyBackward config b true).RaisedAs (verifyBackward config b false) limit ∧
      ((config.shape.reductionSize : Float).isFinite = true → b.Accepted config →
        ∃ verdict, (verifyBackward config b false).result = .ok verdict)) ∧
    (let completed := (v.raising false).completed primitive bench
    (∀ passing r rest, completed = passing ++ r :: rest →
      (∀ x ∈ passing, x.passed = true) → r.passed = false →
      ((r.verdict.reportUpTo limit).isWritable = true →
        ∃ last, (validate (v.raising true) primitive).runOn bench =
          (.error (.verification (r.verdict.reportUpTo limit)), last)) ∧
      ∃ precision, v.precision = some precision ∧
        List.Forall₂ (fun case handed => Handed.IsFor v precision case handed)
          ((TrialCase.all precision).take (passing.length + 1))
          ((v.raising true).handedTo primitive bench)) ∧
    ((∀ r ∈ completed, r.passed = true) →
      (validate (v.raising true) primitive).runOn bench =
        (validate (v.raising false) primitive).runOn bench)) ∧
    (0 ≤ limit → ∀ verdict : Verdict, (verdict.reportUpTo limit).isWritable = true) := by
  have hepsilon : (config.shape.reductionSize : Float).isFinite = true →
      ∃ epsilon, config.epsilon = .ok epsilon := fun hcount => ⟨_, if_pos hcount⟩
  refine ⟨fun b => ?_, fun b => ?_, ⟨?_, runOn_validate_of_passed hlimit primitive bench⟩,
    fun hpos verdict => Verdict.isWritable_reportUpTo hpos⟩
  · refine ⟨raisedAs_verifyForward hconfig b, ?_⟩
    intro hcount haccepted
    exact (haccepted.concludes (hepsilon hcount)).exists_quiet
  · refine ⟨raisedAs_verifyBackward hconfig b, ?_⟩
    intro hcount haccepted
    exact (haccepted.concludes (hepsilon hcount)).exists_quiet
  · intro passing r rest hresults hpassing hfailed
    -- the calls are read off the run with the list
    let record : Bench γ (σ × List Handed) := ⟨bench.source, (bench.state, []), bench.log⟩
    have hrecording := runOn_validate_recording (v.raising true) primitive record
    have hresults' : (v.raising false).completed primitive.recording record =
        passing ++ r :: rest :=
      (completed_recording (v.raising false) primitive bench).trans hresults
    obtain ⟨hraised, precision, handed, hprecision, hstate, hfors⟩ :=
      runOn_validate_of_failed hlimit primitive record hresults' hpassing hfailed
    refine ⟨fun hwritable => ?_, precision, hprecision, ?_⟩
    · rw [hraised hwritable] at hrecording
      exact ⟨_, hrecording⟩
    · have hhanded : (v.raising true).handedTo primitive bench = handed := hstate
      rw [hhanded]
      exact hfors

end

/-- A validation of one element. -/
def onePoint : Validation where
  shape := ⟨1, 1, 1, 1, 1⟩
  dataFormat := "nc"

/-- A case was completed with a verdict that does not pass, before any other one. -/
def failsFirst (results : List CaseResult) : Bool := results.head?.any (!·.passed)

theorem exists_of_failsFirst {results : List CaseResult} (h : failsFirst results = true) :
    ∃ r rest, results = r :: rest ∧ r.passed = false := by
  cases results with
  | nil => cases h
  | cons r rest =>
      exact ⟨r, rest, rfl, by simpa [failsFirst] using h⟩

/-- One element leaves nothing to normalize, so buffers that nobody writes to do not pass. -/
theorem delivery_of_failures_onePoint : ∃ (r : CaseResult) (last : Bench Splitmix Unit),
    r.passed = false ∧
      (validate (onePoint.raising true) idle).runOn ⟨Splitmix.ofSeed 0, (), []⟩ =
        (.error (.verification (r.verdict.reportUpTo 32)), last) ∧
      ((onePoint.raising true).handedTo idle ⟨Splitmix.ofSeed 0, (), []⟩).length = 1 := by
  have hfails : failsFirst ((onePoint.raising false).completed idle
      ⟨Splitmix.ofSeed 0, (), []⟩) = true := by decide +kernel
  obtain ⟨r, rest, hresults, hfailed⟩ := exists_of_failsFirst hfails
  obtain ⟨_, _, ⟨hraised, _⟩, hwritable⟩ := delivery_of_failures (v := onePoint) twoGradients rfl rfl
    idle ⟨Splitmix.ofSeed 0, (), []⟩
  have hnone : ∀ x ∈ ([] : List CaseResult), x.passed = true :=
    fun _ hx => absurd hx List.not_mem_nil
  obtain ⟨hreport, precision, hprecision, hcalls⟩ := hraised [] r rest hresults hnone hfailed
  obtain ⟨last, hrun⟩ := hreport (hwritable (by decide) r.verdict)
  cases hprecision
  exact ⟨r, last, hfailed, hrun, hcalls.length_eq.symm⟩

/-! ## Reports that cannot be written -/

/-- So far below zero, a limit hides more of any mismatches than a text can say. -/
theorem isWritable_reportUpTo_eq_false {verdict : Verdict} {limit : Int}
    (hfailed : verdict.passed = false) (hlimit : limit < 0)
    (hlong : (10 : Int) ^ Integer.maxDigits ≤ 1 - limit) :
    (verdict.reportUpTo limit).isWritable = false := by
  have hpos : 0 < verdict.mismatches.length := by
    refine List.length_pos_iff.mpr fun hnone => ?_
    rw [Verdict.passed, hnone] at hfailed
    cases hfailed
  have hhidden : (10 : Int) ^ Integer.maxDigits ≤ (verdict.reportUpTo limit).hidden := by
    show _ ≤ (verdict.mismatches.length : Int) - limit
    omega
  obtain ⟨n, hn⟩ := Int.eq_ofNat_of_zero_le ((by positivity : (0 : Int) ≤ _).trans hhidden)
  refine Bool.or_eq_false_iff.mpr ⟨decide_eq_false (not_le.mpr hlimit), ?_⟩
  rw [hn] at hhidden ⊢
  refine Bool.eq_false_iff.mpr fun hwritable => ?_
  have hlt := (Integer.isWritable_natCast n).mp hwritable
  exact absurd (by exact_mod_cast hhidden) (not_le.mpr hlt)

/-- The least limit that can be written. -/
def leastLimit : Int := -(10 ^ Integer.maxDigits - 1)

/-- Two gradients with the wrong gradient of the shift. -/
def wrongShift : BackwardBuffers :=
  { twoGradientsBuffers with diffShift := some (.ofList .float32 [0]) }

theorem wrongShift_accepted : wrongShift.Accepted twoGradients :=
  BackwardBuffers.Checks.accepted
    ⟨some ⟨.ofList .float32 [0], .ofList .float32 [0]⟩, rfl, fun _ => by decide +kernel⟩
    (by decide) (by decide) (by decide)

/-- A verdict that does not pass may not be raised: the message of its report says how many
mismatches it leaves out, and that may be a number which is too long. -/
theorem report_too_long :
    let config := twoGradients.withLimit (some leastLimit)
    (config.shape.reductionSize : Float).isFinite = true ∧
      config.tolerance.maxReported = some leastLimit ∧ wrongShift.Accepted config ∧
      ∃ verdict : Verdict, verdict.passed = false ∧
        (verifyBackward config wrongShift false).result = .ok verdict ∧
        (verifyBackward config wrongShift true).result = misuse .integerTooLong := by
  intro config
  have hcount : (config.shape.reductionSize : Float).isFinite = true :=
    isFinite_natCast (n := 2) (by decide)
  have hlimit : config.tolerance.maxReported = some leastLimit := rfl
  have haccepted : wrongShift.Accepted config := wrongShift_accepted.withLimit
  obtain ⟨verdict, _, hquiet, hraising⟩ :=
    (haccepted.concludes ⟨_, if_pos hcount⟩).exists_verdict hlimit
  have hfailed : verdict.passed = false := by
    refine Bool.eq_false_iff.mpr fun hpassed => ?_
    have hpasses : (verifyBackward config wrongShift false).passes = true := by
      rw [Logged.passes, hquiet]
      exact hpassed
    have hzero := BackwardBuffers.passes_zero wrongShift_accepted hpasses
    have hwrong : (verifyBackward (twoGradients.withLimit (some 0)) wrongShift false).passes =
        false := by decide +kernel
    exact absurd (hzero.symm.trans hwrong) (by decide)
  have hpower : (1 : Int) < 10 ^ Integer.maxDigits := one_lt_pow₀ (by decide) (by decide)
  have hlong : (verdict.reportUpTo leastLimit).isWritable = false := by
    refine isWritable_reportUpTo_eq_false hfailed ?_ ?_
    · unfold leastLimit
      omega
    · unfold leastLimit
      omega
  refine ⟨hcount, hlimit, haccepted, verdict, hfailed, hquiet, ?_⟩
  rw [hraising, Verdict.orFail, if_neg (Bool.eq_false_iff.mp hfailed),
    if_neg (Bool.eq_false_iff.mp hlong)]

end BatchNorm
