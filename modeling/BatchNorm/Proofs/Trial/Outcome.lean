import BatchNorm.Proofs.Layout.Dense
import BatchNorm.Proofs.Trial.Running

/-!
# The outcome of a validation

A validation runs the cases of its precision, and the first case that fails decides
what it amounts to (`validation_outcome`). Mismatches always propagate. Any other
failure is the expected rejection if it is of the expected kind, and then the results
before it are returned; else it propagates as it is. Without a failing case the results
are returned, unless a rejection was expected. Primitives are arbitrary, with a state
of their own: that the bench is left as the last case left it, but for the log, says
that neither the primitive nor the source of random numbers is asked again.
-/

set_option autoImplicit false

namespace BatchNorm

variable {γ σ : Type} {v : Validation} {bench last : Bench γ σ} {results : List CaseResult}

/-! ## What the results and the failure amount to -/

namespace Validation

theorem isRejection_iff {e : Failure} :
    v.isRejection e = true ↔
      ∃ expected, v.expected = some expected ∧ e.kind.isA expected = true ∧
        ¬ e.kind.isA .verification = true := by
  rw [isRejection]
  cases v.expected with
  | none => simp
  | some expected => simp

theorem runOn_outcome_of_rejection {e : Failure} (h : v.isRejection e = true) :
    ∃ message,
      (v.outcome results (some e)).runOn last = (.ok results, last.wrote .info message) := by
  simp only [outcome, h, if_true]
  exact ⟨_, Trial.runOn_bind_of_ok (Trial.runOn_log _ _)⟩

theorem runOn_outcome_of_not_rejection {e : Failure} (h : v.isRejection e = false) :
    (v.outcome results (some e)).runOn last = (.error e, last) := by
  simp only [outcome, h]
  rfl

theorem runOn_outcome_of_expected {expected : FailureKind} (h : v.expected = some expected) :
    (v.outcome results none).runOn last =
      (.error (.unexpectedSuccess expected v.description results.length), last) := by
  simp only [outcome, h]
  rfl

theorem runOn_outcome_of_not_expected (h : v.expected = none) :
    ∃ message,
      (v.outcome results none).runOn last = (.ok results, last.wrote .info message) := by
  simp only [outcome, h]
  exact ⟨_, Trial.runOn_bind_of_ok (Trial.runOn_log _ _)⟩

end Validation

theorem Validation.state_runOn_outcome (v : Validation) (results : List CaseResult)
    (failure : Option Failure) (last : Bench γ σ) :
    ((v.outcome results failure).runOn last).2.state = last.state := by
  match failure with
  | some e =>
      cases hrejection : v.isRejection e with
      | false => rw [runOn_outcome_of_not_rejection hrejection]
      | true =>
          obtain ⟨message, houtcome⟩ : ∃ message, (v.outcome results (some e)).runOn last =
              (.ok results, last.wrote .info message) := runOn_outcome_of_rejection hrejection
          rw [houtcome]
          rfl
  | none =>
      cases hexpected : v.expected with
      | some expected => rw [runOn_outcome_of_expected hexpected]
      | none =>
          obtain ⟨message, houtcome⟩ : ∃ message, (v.outcome results none).runOn last =
              (.ok results, last.wrote .info message) := runOn_outcome_of_not_expected hexpected
          rw [houtcome]
          rfl

/-! ## Validations that run their cases -/

variable [RandomSource γ]

/-- The layouts that the formats of a validation give, if its shape can be described. -/
def Validation.layouts (v : Validation) : Except Failure (Layout × Layout) := do
  let layout ← Layout.ofFormat v.dataFormat v.shape
  let diffLayout ← Layout.ofFormat v.gradientFormat v.shape
  v.shape.demandTexts
  return (layout, diffLayout)

/-- A validation fails for its formats or its shape, or it runs its cases and decides what
they amount to. -/
theorem runOn_validate_eq (v : Validation) (primitive : Primitive σ) (bench : Bench γ σ) :
    (validate v primitive).runOn bench =
      match v.layouts with
      | .error e => (.error e, bench)
      | .ok (layout, diffLayout) =>
        let run := (v.runAll primitive layout diffLayout).run bench
        (v.outcome run.1.1 run.1.2).runOn run.2 := by
  unfold validate Validation.layouts
  cases Layout.ofFormat v.dataFormat v.shape with
  | error e => exact Trial.runOn_bind_of_error (Trial.runOn_ofExcept (.error e))
  | ok layout =>
      rw [Trial.runOn_bind_of_ok (Trial.runOn_ofExcept (.ok layout)), ok_bind]
      cases Layout.ofFormat v.gradientFormat v.shape with
      | error e => exact Trial.runOn_bind_of_error (Trial.runOn_ofExcept (.error e))
      | ok diffLayout =>
          rw [Trial.runOn_bind_of_ok (Trial.runOn_ofExcept (.ok diffLayout)), ok_bind]
          cases v.shape.demandTexts with
          | error e => exact Trial.runOn_bind_of_error (Trial.runOn_ofExcept (.error e))
          | ok u =>
              rw [Trial.runOn_bind_of_ok (Trial.runOn_ofExcept (.ok u)), ok_bind]
              exact Trial.runOn_bind_of_ok (Trial.runOn_liftM _)

/-- The formats of a validation describe its shape, and its precision is one. -/
structure Validation.Formatted (v : Validation) (precision : Precision)
    (layout diffLayout : Layout) : Prop where
  precision : v.precision = some precision
  layout : Layout.ofFormat v.dataFormat v.shape = .ok layout
  diffLayout : Layout.ofFormat v.gradientFormat v.shape = .ok diffLayout

/-- A validation that comes to its cases: it has its layouts, and its extents can be
written. -/
structure Validation.Ready (v : Validation) (precision : Precision) (layout diffLayout : Layout) :
    Prop extends v.Formatted precision layout diffLayout where
  texts : v.shape.demandTexts = .ok ()

/-- Without texts for its extents a validation ends before its first case. -/
theorem Validation.Formatted.runOn_validate_of_not_texts {precision : Precision}
    {layout diffLayout : Layout} {primitive : Primitive σ} {e : Failure}
    (h : v.Formatted precision layout diffLayout) (htexts : v.shape.demandTexts = .error e) :
    (validate v primitive).runOn bench = (.error e, bench) := by
  have hlayouts : v.layouts = .error e := by
    rw [layouts, h.layout, ok_bind, h.diffLayout, ok_bind, htexts]
    rfl
  rw [runOn_validate_eq, hlayouts]

namespace Validation.Ready

variable {precision : Precision} {layout diffLayout : Layout} {primitive : Primitive σ}

theorem layouts_eq (h : v.Ready precision layout diffLayout) :
    v.layouts = .ok (layout, diffLayout) := by
  rw [layouts, h.layout, ok_bind, h.diffLayout, ok_bind, h.texts]
  rfl

theorem runAll_eq (h : v.Ready precision layout diffLayout) :
    v.runAll (γ := γ) primitive layout diffLayout =
      runCases (v.runOne precision primitive layout diffLayout) (TrialCase.all precision) := by
  rw [runAll, h.precision]

/-- A validation turns what its cases gave into its outcome. -/
theorem runOn_validate {failure : Option Failure} (h : v.Ready precision layout diffLayout)
    (hcases : (runCases (v.runOne precision primitive layout diffLayout)
      (TrialCase.all precision)).run bench = ((results, failure), last)) :
    (validate v primitive).runOn bench = (v.outcome results failure).runOn last := by
  rw [runOn_validate_eq, h.layouts_eq]
  dsimp only
  rw [h.runAll_eq, hcases]

/-- A validation that expects a rejection returns the results before a failure of the
expected kind that is not about mismatches, and it returns no others. -/
theorem returns_iff {expected : FailureKind} (h : v.Ready precision layout diffLayout)
    (hexpected : v.expected = some expected) :
    (∃ last, (validate v primitive).runOn bench = (.ok results, last)) ↔
      ∃ done case e last, StopsAt (v.runOne precision primitive layout diffLayout)
          (TrialCase.all precision) done case bench results e last ∧
        e.kind.isA expected = true ∧ ¬ e.kind.isA .verification = true := by
  constructor
  · rintro ⟨last, hvalidate⟩
    obtain ⟨results', last', hcompletes⟩ | ⟨done, case, results', e, last', hstops⟩ :=
      completes_or_stopsAt (v.runOne precision primitive layout diffLayout)
        (TrialCase.all precision) bench
    · rw [h.runOn_validate (runCases_of_completes hcompletes),
        runOn_outcome_of_expected hexpected] at hvalidate
      cases hvalidate
    · rw [h.runOn_validate (runCases_of_stopsAt hstops)] at hvalidate
      cases hrejection : v.isRejection e with
      | false =>
          rw [runOn_outcome_of_not_rejection hrejection] at hvalidate
          cases hvalidate
      | true =>
          obtain ⟨message, houtcome⟩ : ∃ message, (v.outcome results' (some e)).runOn last' =
              (.ok results', last'.wrote .info message) := runOn_outcome_of_rejection hrejection
          cases houtcome.symm.trans hvalidate
          obtain ⟨expected', hexpected', hkind⟩ := isRejection_iff.mp hrejection
          cases hexpected.symm.trans hexpected'
          exact ⟨done, case, e, last', hstops, hkind⟩
  · rintro ⟨done, case, e, last, hstops, hkind⟩
    rw [h.runOn_validate (runCases_of_stopsAt hstops)]
    obtain ⟨message, houtcome⟩ :=
      runOn_outcome_of_rejection (isRejection_iff.mpr ⟨expected, hexpected, hkind⟩)
    exact ⟨_, houtcome⟩

end Validation.Ready

/-- A primitive that implements nothing, and counts how often it is asked. -/
def unimplemented : Primitive Nat where
  forward _ _ calls := (.error (.raised .notImplemented ""), calls + 1)
  backward _ _ calls := (.error (.raised .notImplemented ""), calls + 1)

/-- A validation of one element that expects a runtime failure. -/
def rejectedPoint : Validation where
  shape := ⟨1, 1, 1, 1, 1⟩
  dataFormat := "nc"
  expected := some .runtime

theorem rejectedPoint_ready :
    rejectedPoint.Ready .f32 (.dense rejectedPoint.shape) (.dense rejectedPoint.shape) :=
  ⟨⟨rfl, rfl, rfl⟩, rfl⟩

end BatchNorm
