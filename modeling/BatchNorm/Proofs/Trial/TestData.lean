import BatchNorm.Proofs.Buffer.Clearing
import BatchNorm.Proofs.Trial.Outcome
import BatchNorm.Proofs.Trial.Recording

/-!
# Test data

The data of a validation is a list that depends on its settings and on the source of
random numbers (`Validation.testData`): one case after the other is prepared, and each
draws its numbers from where the case before it left the source. A run of the validation
hands over an initial part of that list, as far as it gets, whatever the primitive is,
does and remembers (`recorded_validate`). So two primitives are handed the same at every
case that both are called for (`test_data_independent`), and the activations among it
are as long as their layout and clean in the padding.
-/

set_option autoImplicit false

namespace BatchNorm

variable {γ σ τ α β : Type}

/-! ## The data of a validation -/

namespace Validation

variable [RandomSource γ]

/-- The data of some cases in their order. After a case that cannot be prepared there is
no more. -/
def caseData (v : Validation) (precision : Precision) (layout diffLayout : Layout) :
    List TrialCase → γ → List Handed
  | [], _ => []
  | case :: rest, source =>
    match (v.prepare precision layout diffLayout case : Trial γ Unit Handed).runOn
      ⟨source, (), []⟩ with
    | (.error _, _) => []
    | (.ok handed, prepared) =>
      handed :: v.caseData precision layout diffLayout rest prepared.source

/-- The data that a validation has for a source of random numbers. -/
def testData (v : Validation) (source : γ) : List Handed :=
  match v.layouts, v.precision with
  | .ok (layout, diffLayout), some precision =>
    v.caseData precision layout diffLayout (TrialCase.all precision) source
  | _, _ => []

variable {v : Validation} {precision : Precision} {layout diffLayout : Layout}
  {primitive : Primitive σ}

/-! ## What a run hands over -/

/-- A run through some cases hands over an initial part of their data. -/
theorem recorded_runCases (cases : List TrialCase) (bench : Bench γ (σ × List Handed)) :
    ∃ handed, handed <+: v.caseData precision layout diffLayout cases bench.source ∧
      ((runCases (v.runOne precision primitive.recording layout diffLayout) cases).run
        bench).2.state.2 = bench.state.2 ++ handed := by
  induction cases generalizing bench with
  | nil => exact ⟨[], List.nil_prefix, (List.append_nil _).symm⟩
  | cons case rest ih =>
      obtain ⟨e | handed, source, hprepare, hunit⟩ :=
        drawsAlike_prepare v precision layout diffLayout case bench
          (⟨bench.source, (), []⟩ : Bench γ Unit) rfl
      · refine ⟨[], List.nil_prefix, ?_⟩
        rw [runCases_cons_of_error (runOne_of_not_prepared hprepare), List.append_nil]
        rfl
      · have hdata : v.caseData precision layout diffLayout (case :: rest) bench.source =
            handed :: v.caseData precision layout diffLayout rest source := by
          rw [caseData, hunit]
          rfl
        obtain ⟨hsource, hstate⟩ := recorded_of_prepared primitive hprepare
        rw [hdata]
        -- the call is on the list whether it leads to a verdict or not
        rcases hcase : (v.runOne precision primitive.recording layout diffLayout case).runOn bench
          with ⟨e | verdict, middle⟩
        · rw [hcase] at hstate
          refine ⟨[handed], ?_, ?_⟩
          · exact List.prefix_cons_inj _ |>.mpr List.nil_prefix
          · rw [runCases_cons_of_error hcase]
            exact hstate
        · rw [hcase] at hsource hstate
          obtain ⟨others, hothers, hrest⟩ := ih middle
          refine ⟨handed :: others, ?_, ?_⟩
          · rw [← show middle.source = source from hsource]
            exact (List.prefix_cons_inj _).mpr hothers
          · rw [runCases_cons_of_ok hcase]
            show ((runCases _ rest).run middle).2.state.2 = _
            rw [hrest, show middle.state.2 = _ from hstate, List.append_assoc]
            rfl

/-- A validation hands over an initial part of its data. -/
theorem recorded_validate (v : Validation) (primitive : Primitive σ)
    (bench : Bench γ (σ × List Handed)) :
    ∃ handed, handed <+: v.testData bench.source ∧
      ((validate v primitive.recording).runOn bench).2.state.2 = bench.state.2 ++ handed := by
  rw [runOn_validate_eq, testData]
  cases v.layouts with
  | error e => exact ⟨[], List.nil_prefix, (List.append_nil _).symm⟩
  | ok layouts =>
      simp only [state_runOn_outcome, runAll]
      cases v.precision with
      | none => exact ⟨[], List.nil_prefix, (List.append_nil _).symm⟩
      | some precision => exact recorded_runCases _ bench

/-- Data is prepared for a case: the first for the first one, and so on. -/
theorem prepared_of_caseData {cases : List TrialCase} {source : γ} {k : Nat} {handed : Handed}
    (h : (v.caseData precision layout diffLayout cases source)[k]? = some handed) :
    ∃ case, cases[k]? = some case ∧ ∃ bench last : Bench γ Unit,
      (v.prepare precision layout diffLayout case).runOn bench = (.ok handed, last) := by
  induction cases generalizing source k with
  | nil => cases h
  | cons case rest ih =>
      unfold caseData at h
      split at h
      · cases h
      · rename_i first prepared hprepare
        cases k with
        | zero =>
            cases h
            exact ⟨case, rfl, _, prepared, hprepare⟩
        | succ k => exact ih h

end Validation

/-! ## Clean activations -/

/-- The activations among what is handed over, with their layouts. -/
def Handed.activations : Handed → List (Option Buffer × Layout)
  | forward _ given => [(given.src, given.srcLayout), (given.dst, given.outputLayout)]
  | backward _ given =>
    [(given.src, given.srcLayout), (given.diffDst, given.gradientLayout),
      (given.diffSrc, given.outputLayout)]

/-- A buffer that is as long as the layout needs, and has nothing to be reported in the
padding. -/
def Layout.Clean (l : Layout) (buffer : Option Buffer) : Prop :=
  ∃ b, buffer = some b ∧ b.size = l.size ∧
    ∀ quantity limit, paddingMismatches quantity b l limit = .ok []

namespace Layout

variable {l : Layout} {b : Buffer} {held : Held}

/-- Clearing the padding of a buffer leaves nothing there to be reported. -/
theorem clean_of_clearPadding (hwords : l.PaddingInWords) (hsize : b.size = l.size)
    (h : Held.clearPadding (some (.ofBuffer b)) l = .ok held) : l.Clean (some held.elements) := by
  have hlong : ¬ l.LacksPadding b := fun hlacks => hlacks.2.ne hsize
  obtain ⟨values, hclear, hcleared⟩ := exists_cleared hwords hlong
  cases hclear.symm.trans h
  exact ⟨_, rfl, hcleared.size.trans hsize, hcleared.paddingMismatches hwords hlong⟩

end Layout

section

variable [RandomSource γ] {v : Validation} {precision : Precision} {layout diffLayout : Layout}

theorem clean_activation (layout : Layout) (p : Precision) :
    (Trial.activation layout p.elementType : Trial γ σ Buffer).Yields fun b =>
      layout.Clean (some b) := by
  intro bench last b hrun
  obtain ⟨hroom, filled, held, hsize, hclear, rfl⟩ := Trial.yields_activation _ _ hrun
  exact Layout.clean_of_clearPadding hroom.paddingInWords hsize hclear

/-- The activations among what is handed over are clean. -/
def Handed.Clean (handed : Handed) : Prop := ∀ a ∈ handed.activations, a.2.Clean a.1

theorem clean_forwardBuffers (config : RunConfig) (layout : Layout) :
    (Trial.forwardBuffers config layout : Trial γ σ ForwardBuffers).Yields fun given =>
      (Handed.forward config given).Clean := by
  have hactivation := clean_activation (γ := γ) (σ := σ) layout config.precision
  rw [Trial.forwardBuffers_eq]
  refine (Trial.yields_trivial _).bind fun statistics _ => ?_
  refine (Trial.yields_trivial _).bind fun affine _ => ?_
  refine hactivation.bind fun src hsrc => hactivation.bind fun dst hdst => Trial.yields_pure ?_
  intro a ha
  simp only [Handed.activations, ForwardBuffers.outputLayout, Option.getD_some, List.mem_cons,
    List.not_mem_nil, or_false] at ha
  rcases ha with rfl | rfl
  · exact hsrc
  · exact hdst

theorem clean_backwardBuffers (config : RunConfig) (mode : BackwardMode)
    (layout diffLayout : Layout) :
    (Trial.backwardBuffers config mode layout diffLayout : Trial γ σ BackwardBuffers).Yields
      fun given => (Handed.backward config given).Clean := by
  have hactivation := clean_activation (γ := γ) (σ := σ) diffLayout .f32
  rw [Trial.backwardBuffers_eq]
  refine (Trial.yields_trivial _).bind fun scale _ => ?_
  refine (Trial.yields_trivial _).bind fun gradients _ => ?_
  refine (clean_activation layout .f32).bind fun src hsrc => ?_
  refine hactivation.bind fun diffDst hdiffDst => hactivation.bind fun diffSrc hdiffSrc => ?_
  refine (Trial.yields_trivial _).bind fun mean _ => ?_
  refine (Trial.yields_trivial _).bind fun variance _ => Trial.yields_pure ?_
  intro a ha
  simp only [Handed.activations, BackwardBuffers.gradientLayout, BackwardBuffers.outputLayout,
    Option.getD_some, List.mem_cons, List.not_mem_nil, or_false] at ha
  rcases ha with rfl | rfl | rfl
  · exact hsrc
  · exact hdiffDst
  · exact hdiffSrc

theorem clean_of_prepared {case : TrialCase} {bench last : Bench γ σ} {handed : Handed}
    (h : (v.prepare precision layout diffLayout case).runOn bench = (.ok handed, last)) :
    handed.Clean := by
  obtain ⟨config, _, h⟩ := exists_of_prepared h
  cases case with
  | forward c =>
      obtain ⟨given, rfl, hfill⟩ := h
      exact clean_forwardBuffers config layout hfill
  | backward c =>
      obtain ⟨given, rfl, hfill⟩ := h
      exact clean_backwardBuffers config c.mode layout diffLayout hfill

/-! ## Two primitives -/

/-- What the calls of a validation hand over, from the first one on. -/
def Validation.handedTo (v : Validation) (primitive : Primitive σ) (bench : Bench γ σ) :
    List Handed :=
  ((validate v primitive.recording).runOn ⟨bench.source, (bench.state, []), bench.log⟩).2.state.2

/-- The call after `k` others hands over what the data has there. -/
theorem Validation.getElem?_testData {primitive : Primitive σ} {bench : Bench γ σ} {k : Nat}
    {handed : Handed} (h : (v.handedTo primitive bench)[k]? = some handed) :
    (v.testData bench.source)[k]? = some handed := by
  obtain ⟨others, ⟨rest, hrest⟩, hothers⟩ :=
    v.recorded_validate primitive ⟨bench.source, (bench.state, []), bench.log⟩
  rw [handedTo, hothers, List.nil_append] at h
  rw [← hrest, List.getElem?_append_left (List.getElem?_eq_some_iff.mp h).1, h]

/-- Data is for the cases of the precision, in their order, and clean. -/
theorem Validation.testData_spec {source : γ} {k : Nat} {handed : Handed}
    (h : (v.testData source)[k]? = some handed) :
    (∃ precision case, v.precision = some precision ∧
      (TrialCase.all precision)[k]? = some case ∧ handed.IsFor v precision case) ∧
    handed.Clean := by
  unfold testData at h
  split at h
  · rename_i layout diffLayout precision hlayouts hprecision
    obtain ⟨case, hcase, bench, last, hprepared⟩ := prepared_of_caseData h
    exact ⟨⟨precision, case, hprecision, hcase, isFor_of_prepared hprepared⟩,
      clean_of_prepared hprepared⟩
  · cases h

end

/-- **Test data does not depend on the primitive.** Of two primitives in any states, run
from the same source of random numbers: what they are handed at a case, if both are called
for it, is the same, with its configuration, its layouts and all buffers. The call after
`k` others is for the case after `k` others. And what is handed over are activations that
are as long as their layout, and of whose padding nothing is to be reported.

What a call hands over is put on a list, and a run with the list is the run. -/
theorem test_data_independent [RandomSource γ] (v : Validation) (P : Primitive σ)
    (Q : Primitive τ) (source : γ) (p : σ) (q : τ) (log log' : List LogLine) :
    let benchP : Bench γ σ := ⟨source, p, log⟩
    let benchQ : Bench γ τ := ⟨source, q, log'⟩
    (∀ (k : Nat) (x y : Handed), (v.handedTo P benchP)[k]? = some x →
      (v.handedTo Q benchQ)[k]? = some y → x = y) ∧
    (∀ (k : Nat) (x : Handed), (v.handedTo P benchP)[k]? = some x →
      (∃ precision case, v.precision = some precision ∧
        (TrialCase.all precision)[k]? = some case ∧ x.IsFor v precision case) ∧
      ∀ a ∈ x.activations, a.2.Clean a.1) ∧
    ∃ last : Bench γ (σ × List Handed),
      (validate v P.recording).runOn ⟨source, (p, []), log⟩ =
        (((validate v P).runOn benchP).1, last) ∧
      last.unrecorded = ((validate v P).runOn benchP).2 ∧ last.state.2 = v.handedTo P benchP := by
  intro benchP benchQ
  have hrecording := runOn_validate_recording v P (⟨source, (p, []), log⟩ : Bench γ _)
  refine ⟨?_, ?_, ?_⟩
  · intro k x y hx hy
    have hdata : (v.testData source)[k]? = some x := Validation.getElem?_testData hx
    have hdata' : (v.testData source)[k]? = some y := Validation.getElem?_testData hy
    exact Option.some.inj (hdata.symm.trans hdata')
  · intro k x hx
    exact Validation.testData_spec (Validation.getElem?_testData hx)
  · refine ⟨_, ?_, ?_, rfl⟩
    · exact Prod.ext (congrArg Prod.fst hrecording).symm rfl
    · exact (congrArg Prod.snd hrecording).symm

/-- A primitive that takes no buffers. -/
def refusing : Primitive Unit where
  forward _ _ state := (.error (.raised .value ""), state)
  backward _ _ state := (.error (.raised .value ""), state)

/-- Both primitives are called for the first case. -/
theorem test_data_independent_rejectedPoint : ∃ handed,
    (rejectedPoint.handedTo unimplemented ⟨Splitmix.ofSeed 0, 0, []⟩)[0]? = some handed ∧
      (rejectedPoint.handedTo refusing ⟨Splitmix.ofSeed 0, (), []⟩)[0]? = some handed ∧
      ∀ a ∈ handed.activations, a.2.Clean a.1 := by
  obtain ⟨x, hx⟩ : ∃ x, (rejectedPoint.handedTo unimplemented
      ⟨Splitmix.ofSeed 0, 0, []⟩)[0]? = some x := ⟨_, rfl⟩
  obtain ⟨y, hy⟩ : ∃ y, (rejectedPoint.handedTo refusing
      ⟨Splitmix.ofSeed 0, (), []⟩)[0]? = some y := ⟨_, rfl⟩
  obtain ⟨hsame, hdata, _⟩ :=
    test_data_independent rejectedPoint unimplemented refusing (Splitmix.ofSeed 0) 0 () [] []
  cases hsame 0 x y hx hy
  exact ⟨x, hx, hy, (hdata 0 x hx).2⟩

end BatchNorm
