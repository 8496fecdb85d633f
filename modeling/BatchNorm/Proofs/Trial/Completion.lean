import BatchNorm.Proofs.Trial.Delivery
import BatchNorm.Proofs.Trial.Rejection

/-!
# Validations that complete

With settings that are accepted, mismatches that are not raised, and a primitive that
writes in place and always returns, there is one thing left that a case can fail for: room
for its data. The numbers that are drawn, the zeros of the outputs and the tables of the
padding and of the sites are arrays, and their bytes have to be countable
(`Validation.RoomFor`). A case gives a verdict exactly if there is room for it, and a
validation returns one result for each case exactly if there is room for all of them
(`completion`). Extents of zero count as one there, so room may lack for tensors without
elements (`vast_case_fails`); it never does where five words can be counted for each place
of the layouts.
-/

set_option autoImplicit false

namespace BatchNorm

variable {γ σ α β : Type}

/-! ## Room -/

/-- There is room for what a case is prepared with, and for the table of the sites that it is
compared with. -/
def Validation.RoomFor (v : Validation) (layout diffLayout : Layout) : TrialCase → Prop
  | .forward c => ForwardRoom v.shape (c.normalization v.epsilon) layout ∧ layout.SitesFit
  | .backward _ => BackwardRoom v.shape layout diffLayout ∧ diffLayout.SitesFit

namespace Trial

theorem room_of_zeros (s : Shape) :
    (ofExcept (Buffer.allocate .float32 s.channels) : Trial γ σ Buffer).Yields
      fun _ => s.ZerosFit := by
  refine yields_ofExcept fun zeros h => ?_
  obtain ⟨_, hfits, _⟩ := bind_eq_ok_iff.mp h
  exact hfits

theorem room_of_drawBuffer (count : Nat) (fill : Nat → γ → Buffer × γ) :
    (drawBuffer count fill : Trial γ σ Buffer).Yields fun _ => demandDraws count = .ok () :=
  fun _ _ _ hrun => (yields_drawBuffer (P := fun _ => True) (fun _ => trivial) hrun).1

variable [RandomSource γ] {config : RunConfig} {layout diffLayout : Layout}

theorem room_of_channelData (s : Shape) :
    (channelData s.channels : Trial γ σ Buffer).Yields fun _ => s.DrawsFit :=
  room_of_drawBuffer s.channels _

theorem room_of_activation (layout : Layout) (type : ElementType) :
    (activation layout type : Trial γ σ Buffer).Yields fun _ => layout.Roomy :=
  fun _ _ _ hrun => (yields_activation layout type hrun).1

theorem room_of_forwardStatistics (config : RunConfig) :
    (forwardStatistics config : Trial γ σ (Buffer × Buffer)).Yields fun _ =>
      (config.normalization.computeStatistics = true → config.shape.ZerosFit) ∧
        (config.normalization.computeStatistics = false → config.shape.DrawsFit) := by
  unfold forwardStatistics
  split
  · rename_i hcompute
    refine (room_of_zeros config.shape).bind fun _ hzeros _ _ _ _ => ⟨fun _ => hzeros, ?_⟩
    simp [hcompute]
  · rename_i hsupplied
    refine (room_of_channelData config.shape).bind fun _ hdraws _ _ _ _ => ⟨?_, fun _ => hdraws⟩
    exact fun hcompute => absurd hcompute hsupplied

theorem room_of_affineParameters (config : RunConfig) :
    (affineParameters config : Trial γ σ (Option Buffer × Option Buffer)).Yields fun _ =>
      config.normalization.hasAffine = true → config.shape.DrawsFit := by
  unfold affineParameters
  split
  · exact (room_of_channelData config.shape).bind fun _ hdraws _ _ _ _ _ => hdraws
  · exact fun _ _ _ _ hflag => absurd hflag ‹_›

theorem room_of_forwardBuffers (config : RunConfig) (layout : Layout) :
    (forwardBuffers config layout : Trial γ σ ForwardBuffers).Yields fun _ =>
      ForwardRoom config.shape config.normalization layout := by
  rw [forwardBuffers_eq]
  refine (room_of_forwardStatistics config).bind fun statistics hstatistics => ?_
  refine (room_of_affineParameters config).bind fun affine haffine => ?_
  exact (room_of_activation layout _).bind fun src hroomy _ _ _ _ =>
    ⟨hroomy, hstatistics.1, hstatistics.2, haffine⟩

theorem room_of_backwardBuffers (config : RunConfig) (mode : BackwardMode)
    (layout diffLayout : Layout) :
    (backwardBuffers config mode layout diffLayout : Trial γ σ BackwardBuffers).Yields fun _ =>
      BackwardRoom config.shape layout diffLayout := by
  rw [backwardBuffers_eq]
  refine (yields_trivial _).bind fun scale _ => (yields_trivial _).bind fun gradients _ => ?_
  refine (room_of_activation layout _).bind fun src hsource => ?_
  refine (room_of_activation diffLayout _).bind fun diffDst hgradients => ?_
  refine (yields_trivial _).bind fun diffSrc _ => ?_
  exact (room_of_channelData config.shape).bind fun mean hdraws _ _ _ _ =>
    ⟨hsource, hgradients, hdraws⟩

end Trial

/-! ## A case -/

/-- A primitive that never fails. -/
structure Primitive.Returns (primitive : Primitive σ) : Prop where
  forward : ∀ config given state, ∃ written state',
    primitive.forward config given state = (.ok written, state')
  backward : ∀ config given state, ∃ written state',
    primitive.backward config given state = (.ok written, state')

theorem Trial.runOn_inParts_succeeds_iff {fill : Trial γ σ β} {message : String}
    {next : β → σ → Except Failure β × σ} {verify : β → Logged Verdict} {bench : Bench γ σ}
    {room fits : Prop} {P : β → Prop} (hfill : room → fill.Fills P)
    (hroom : fill.Yields fun _ => room)
    (hnext : room → ∀ given state, P given → ∃ written state',
      next given state = (.ok written, state') ∧
        ((∃ verdict, (verify written).result = .ok verdict) ↔ fits)) :
    (∃ verdict last, (inParts fill message next verify).runOn bench = (.ok verdict, last)) ↔
      room ∧ fits := by
  constructor
  · rintro ⟨verdict, last, hrun⟩
    obtain ⟨given, prepared, written, state, hgiven, hcall, hverdict, _⟩ :=
      runOn_inParts_eq_ok_iff.mp hrun
    have h := hroom hgiven
    obtain ⟨given', source, hgiven', hform⟩ := hfill h bench
    cases hgiven.symm.trans hgiven'
    obtain ⟨written', state', hcall', hfits⟩ := hnext h given _ hform
    cases hcall.symm.trans hcall'
    exact ⟨h, hfits.mp ⟨verdict, hverdict⟩⟩
  · rintro ⟨h, hfits⟩
    obtain ⟨given, source, hgiven, hform⟩ := hfill h bench
    obtain ⟨written, state, hcall, hverdict⟩ := hnext h given _ hform
    obtain ⟨verdict, hverdict⟩ := hverdict.mpr hfits
    exact ⟨verdict, _, runOn_inParts_eq_ok_iff.mpr
      ⟨given, _, written, state, hgiven, hcall, hverdict, rfl⟩⟩

section

variable [RandomSource γ] {v : Validation} {precision : Precision} {layout diffLayout : Layout}
  {primitive : Primitive σ}

/-- A case gives a verdict exactly if there is room for it. -/
theorem runOne_succeeds_iff (hready : v.Ready precision layout diffLayout)
    (hepsilon : ¬ v.epsilon < 0) (hthreads : ∀ n ∈ v.numThreads, 1 ≤ n)
    (hraise : v.raiseOnFailure = false)
    (hcount : (v.shape.reductionSize : Float).isFinite = true)
    (hwrites : primitive.WritesInPlace) (hreturns : primitive.Returns) {case : TrialCase}
    (hcase : case ∈ TrialCase.all precision) (bench : Bench γ σ) :
    (∃ verdict last, (v.runOne precision primitive layout diffLayout case).runOn bench =
        (.ok verdict, last)) ↔ v.RoomFor layout diffLayout case := by
  obtain ⟨config, hconfig, hshape, hnormalization, hprecision, hmode, -⟩ :=
    v.exists_config hepsilon hthreads precision case
  have hdeviation : ∃ epsilon, config.epsilon = .ok epsilon :=
    ⟨_, if_pos (by rw [hshape]; exact hcount)⟩
  have hstart : (v.runOne precision primitive layout diffLayout case).runOn bench =
      (runCase primitive case config layout diffLayout v.raiseOnFailure).runOn bench :=
    Trial.runOn_bind_of_ok (by rw [Trial.runOn_ofExcept, hconfig])
  rw [hstart, hraise]
  cases case with
  | forward c =>
      have hroom : v.RoomFor layout diffLayout (.forward c) ↔
          ForwardRoom config.shape config.normalization layout ∧ layout.SitesFit := by
        rw [hnormalization, hshape]
        rfl
      rw [hroom]
      refine Trial.runOn_inParts_succeeds_iff (P := (·.Prepared config layout))
        Trial.fills_forwardBuffers (Trial.room_of_forwardBuffers config layout) ?_
      intro hroom given state hgiven
      have hlayout := hready.layout_hosts hshape hroom.activations
      obtain ⟨written, state', hcall⟩ := hreturns.forward config given state
      have hwritten := hgiven.of_sameForm (hwrites.forward _ _ _ _ _ hcall)
      exact ⟨written, state', hcall, hwritten.exists_verdict_iff hlayout hdeviation⟩
  | backward c =>
      have hroom : v.RoomFor layout diffLayout (.backward c) ↔
          BackwardRoom config.shape layout diffLayout ∧ diffLayout.SitesFit := by
        rw [hshape]
        rfl
      rw [hroom]
      refine Trial.runOn_inParts_succeeds_iff (P := (·.Prepared config c.mode layout diffLayout))
        (fun h => Trial.fills_backwardBuffers h c.mode)
        (Trial.room_of_backwardBuffers config c.mode layout diffLayout) ?_
      intro hroom given state hgiven
      have hlayout := hready.layout_hosts hshape hroom.source
      have hdiffLayout := hready.diffLayout_hosts hshape hroom.gradients
      obtain ⟨written, state', hcall⟩ := hreturns.backward config given state
      have hwritten := hgiven.of_sameForm (hwrites.backward _ _ _ _ _ hcall)
      exact ⟨written, state', hcall, hwritten.exists_verdict_iff hlayout hdiffLayout
        (hprecision.trans (TrialCase.precision_of_backward_mem hcase)) hmode hdeviation⟩

end

/-! ## All cases -/

/-- All of some cases give a verdict exactly if each of them does wherever it starts. -/
theorem exists_completes_iff {run : TrialCase → Trial γ σ Verdict} {room : TrialCase → Prop}
    {cases : List TrialCase}
    (h : ∀ case ∈ cases, ∀ bench,
      (∃ verdict last, (run case).runOn bench = (.ok verdict, last)) ↔ room case)
    (bench : Bench γ σ) :
    (∃ results last, Completes run cases bench results last) ↔ ∀ case ∈ cases, room case := by
  constructor
  · rintro ⟨results, last, hcompletes⟩
    induction hcompletes with
    | nil => exact fun _ hmem => absurd hmem List.not_mem_nil
    | cons first others ih =>
        refine List.forall_mem_cons.mpr ⟨(h _ List.mem_cons_self _).mp ⟨_, _, first⟩, ?_⟩
        exact ih fun case hcase => h case (List.mem_cons_of_mem _ hcase)
  · intro hroom
    induction cases generalizing bench with
    | nil => exact ⟨[], bench, .nil⟩
    | cons case rest ih =>
        obtain ⟨hfirst, hrest⟩ := List.forall_mem_cons.mp hroom
        obtain ⟨verdict, middle, hrun⟩ := (h case List.mem_cons_self bench).mpr hfirst
        obtain ⟨results, last, hcompletes⟩ :=
          ih (fun case hcase => h case (List.mem_cons_of_mem _ hcase)) middle hrest
        exact ⟨_, last, .cons hrun hcompletes⟩

theorem config_of_verifyForward {config : RunConfig} {b : ForwardBuffers} {raise : Bool}
    {verdict : Verdict} (h : (verifyForward config b raise).result = .ok verdict) :
    verdict.config = config := by
  unfold verifyForward at h
  split at h
  · cases h
  · obtain ⟨_, h⟩ := Logged.result_of_provided h
    cases h
    rfl
  · obtain ⟨_, h⟩ := Logged.result_of_provided h
    dsimp only [Logged.after] at h
    split at h
    · cases h
    · rename_i verdict' hcompare
      rw [eq_of_conclude_result h, config_of_forwardCompare hcompare]

theorem config_of_verifyBackward {config : RunConfig} {b : BackwardBuffers} {raise : Bool}
    {verdict : Verdict} (h : (verifyBackward config b raise).result = .ok verdict) :
    verdict.config = config := by
  unfold verifyBackward at h
  split at h
  · cases h
  · split at h
    · obtain ⟨_, h⟩ := Logged.result_of_provided h
      rw [eq_of_conclude_result h]
    · split at h
      · cases h
      · obtain ⟨_, h⟩ := Logged.result_of_provided h
        dsimp only [Logged.after] at h
        split at h
        · cases h
        · rename_i verdict' hcompare
          rw [eq_of_conclude_result h, config_of_backwardCompare hcompare]

section

variable [RandomSource γ] {v : Validation} {precision : Precision} {layout diffLayout : Layout}
  {primitive : Primitive σ} {cases : List TrialCase} {bench last : Bench γ σ}

/-- The verdict of a case is about the configuration of the case. -/
theorem config_of_runOne {case : TrialCase} {verdict : Verdict}
    (h : (v.runOne precision primitive layout diffLayout case).runOn bench = (.ok verdict, last)) :
    v.configOf precision case = .ok verdict.config := by
  obtain ⟨config, middle, hok, hrun⟩ := Trial.runOn_bind_eq_ok_iff.mp h
  rw [Trial.runOn_ofExcept] at hok
  obtain ⟨hconfig, rfl⟩ := Prod.mk.inj hok
  rw [hconfig]
  cases case with
  | forward c =>
      obtain ⟨_, _, written, _, _, _, hverdict, _⟩ := Trial.runOn_inParts_eq_ok_iff.mp hrun
      exact congrArg Except.ok (config_of_verifyForward hverdict).symm
  | backward c =>
      obtain ⟨_, _, written, _, _, _, hverdict, _⟩ := Trial.runOn_inParts_eq_ok_iff.mp hrun
      exact congrArg Except.ok (config_of_verifyBackward hverdict).symm

/-- The result of a case has the name of the case, and is about its configuration. -/
def CaseResult.IsOf (v : Validation) (precision : Precision) (case : TrialCase)
    (r : CaseResult) : Prop :=
  r.name = case.name ∧ v.configOf precision case = .ok r.verdict.config

theorem isOf_of_completes {results : List CaseResult}
    (h : Completes (v.runOne precision primitive layout diffLayout) cases bench results last) :
    List.Forall₂ (fun case r => CaseResult.IsOf v precision case r) cases results := by
  induction h with
  | nil => exact .nil
  | cons first others ih => exact .cons ⟨rfl, config_of_runOne first⟩ ih

end

/-! ## Layouts with room -/

namespace Layout

variable {l : Layout}

theorem Countable.roomy (h : l.Countable) : l.Roomy where
  draws := by
    have hle := prod_le_prod_max_one
      [l.shape.batch, l.paddedChannels, l.shape.depth, l.shape.height, l.shape.width]
    have hpos : 0 < ([l.shape.batch, l.paddedChannels, l.shape.depth, l.shape.height,
        l.shape.width].map (max 1)).prod := List.prod_pos_iff_forall_pos_nat.mpr (by simp)
    have hwords : 40 * _ < 2 ^ 63 := h
    rw [← l.size_eq_prod] at hle
    refine demandDraws_eq_ok_iff.mpr ?_
    simp only [ElementType.bytes]
    omega
  padding := h.paddable

theorem Countable.drawsFit (h : l.Countable) : l.shape.DrawsFit := by
  have hchannels := l.channels_le
  have hpadded := h.paddedChannels_lt
  refine demandDraws_eq_ok_iff.mpr ?_
  simp only [ElementType.bytes]
  omega

theorem Countable.writable (h : l.Countable) : l.shape.Writable := fun _ hn =>
  Integer.isWritable_of_lt (h.lt_of_mem_dims hn)

theorem Countable.sitesFit (h : l.Countable) : l.SitesFit := fun _ => h.demandSites

end Layout

/-! ## Validations -/

section

variable [RandomSource γ] {v : Validation} {precision : Precision} {layout diffLayout : Layout}
  {primitive : Primitive σ}

theorem roomFor_of_countable (hformatted : v.Formatted precision layout diffLayout)
    (h : layout.Countable) (hdiff : diffLayout.Countable) (case : TrialCase) :
    v.RoomFor layout diffLayout case := by
  have hdraws : v.shape.DrawsFit := Layout.shape_of_ofFormat hformatted.layout ▸ h.drawsFit
  cases case with
  | forward c =>
      exact ⟨⟨h.roomy, fun _ => hdraws.zerosFit, fun _ => hdraws, fun _ => hdraws⟩, h.sitesFit⟩
  | backward c => exact ⟨⟨h.roomy, hdiff.roomy, hdraws⟩, hdiff.sitesFit⟩

/-- With no rejection expected, a validation returns results exactly if all its cases give a
verdict, and then it returns those. -/
theorem runOn_validate_succeeds_iff (hready : v.Ready precision layout diffLayout)
    (hexpected : v.expected = none) {bench : Bench γ σ} {results : List CaseResult} :
    (∃ last, (validate v primitive).runOn bench = (.ok results, last)) ↔
      ∃ last, Completes (v.runOne precision primitive layout diffLayout) (TrialCase.all precision)
        bench results last := by
  constructor
  · rintro ⟨last, hvalidate⟩
    obtain ⟨results', last', hcompletes⟩ | ⟨done, case, results', e, last', hstops⟩ :=
      completes_or_stopsAt (v.runOne precision primitive layout diffLayout)
        (TrialCase.all precision) bench
    · obtain ⟨message, houtcome⟩ : ∃ message, (v.outcome results' none).runOn last' =
          (.ok results', last'.wrote .info message) :=
        Validation.runOn_outcome_of_not_expected hexpected
      rw [hready.runOn_validate (runCases_of_completes hcompletes), houtcome] at hvalidate
      cases hvalidate
      exact ⟨last', hcompletes⟩
    · have hrejection : v.isRejection e = false := by
        rw [Validation.isRejection, hexpected]
      rw [hready.runOn_validate (runCases_of_stopsAt hstops),
        Validation.runOn_outcome_of_not_rejection hrejection] at hvalidate
      cases hvalidate
  · rintro ⟨last, hcompletes⟩
    rw [hready.runOn_validate (runCases_of_completes hcompletes)]
    obtain ⟨message, houtcome⟩ := Validation.runOn_outcome_of_not_expected hexpected
    exact ⟨_, houtcome⟩

/-- **Completion of a validation.** With settings that are accepted, mismatches not raised and
no rejection expected, a number of reduced elements that binary64 can hold, and a primitive
that writes in place and always returns, whatever it writes: the validation returns results
exactly if its extents can be written and there is room for each case. The results are one
for each case, in the order of the cases, under its name and about its configuration. The
extents can be written and there is room if five words can be counted for each place of the
layouts, extents of zero counting as one. -/
theorem completion (hformatted : v.Formatted precision layout diffLayout)
    (hepsilon : ¬ v.epsilon < 0) (hthreads : ∀ n ∈ v.numThreads, 1 ≤ n)
    (hraise : v.raiseOnFailure = false) (hexpected : v.expected = none)
    (hcount : (v.shape.reductionSize : Float).isFinite = true)
    (hwrites : primitive.WritesInPlace) (hreturns : primitive.Returns) (bench : Bench γ σ) :
    ((∃ results last, (validate v primitive).runOn bench = (.ok results, last)) ↔
      v.shape.Writable ∧ ∀ case ∈ TrialCase.all precision, v.RoomFor layout diffLayout case) ∧
    (∀ results last, (validate v primitive).runOn bench = (.ok results, last) →
      List.Forall₂ (fun case r => CaseResult.IsOf v precision case r) (TrialCase.all precision)
        results) ∧
    (layout.Countable → diffLayout.Countable →
      v.shape.Writable ∧ ∀ case ∈ TrialCase.all precision, v.RoomFor layout diffLayout case) := by
  have hready : v.shape.Writable → v.Ready precision layout diffLayout := fun hwritable =>
    ⟨hformatted, Shape.demandTexts_eq_ok_iff.mpr hwritable⟩
  have hwritable : ∀ results last, (validate v primitive).runOn bench = (.ok results, last) →
      v.shape.Writable := by
    intro results last hvalidate
    by_contra hlong
    rw [hformatted.runOn_validate_of_not_texts (Shape.demandTexts_eq_misuse hlong)] at hvalidate
    cases hvalidate
  have hcases : v.shape.Writable →
      ((∃ results last, Completes (v.runOne precision primitive layout diffLayout)
        (TrialCase.all precision) bench results last) ↔
        ∀ case ∈ TrialCase.all precision, v.RoomFor layout diffLayout case) := fun hwritable =>
    exists_completes_iff (fun case hmem bench => runOne_succeeds_iff (hready hwritable) hepsilon
      hthreads hraise hcount hwrites hreturns hmem bench) bench
  refine ⟨⟨?_, ?_⟩, ?_, ?_⟩
  · rintro ⟨results, last, hvalidate⟩
    have htexts := hwritable results last hvalidate
    obtain ⟨last, hcompletes⟩ :=
      (runOn_validate_succeeds_iff (hready htexts) hexpected).mp ⟨last, hvalidate⟩
    exact ⟨htexts, (hcases htexts).mp ⟨results, last, hcompletes⟩⟩
  · rintro ⟨htexts, hroom⟩
    obtain ⟨results, last, hcompletes⟩ := (hcases htexts).mpr hroom
    exact ⟨results,
      (runOn_validate_succeeds_iff (hready htexts) hexpected).mpr ⟨last, hcompletes⟩⟩
  · intro results last hvalidate
    obtain ⟨_, hcompletes⟩ := (runOn_validate_succeeds_iff
      (hready (hwritable results last hvalidate)) hexpected).mp ⟨last, hvalidate⟩
    exact isOf_of_completes hcompletes
  · intro h hdiff
    have hshape := Layout.shape_of_ofFormat hformatted.layout
    exact ⟨hshape ▸ h.writable, fun case _ => roomFor_of_countable hformatted h hdiff case⟩

end

/-! ## A single element, and none -/

theorem idle_returns : idle.Returns where
  forward _ given state := ⟨given, state, rfl⟩
  backward _ given state := ⟨given, state, rfl⟩

theorem quietPoint_formatted : (onePoint.raising false).Formatted .f32 (.dense onePoint.shape)
    (.dense onePoint.shape) := ⟨rfl, rfl, rfl⟩

/-- There is room for a single element, so all cases are there. -/
theorem completion_onePoint : ∃ (results : List CaseResult) (last : Bench Splitmix Unit),
    (validate (onePoint.raising false) idle).runOn ⟨.ofSeed 0, (), []⟩ = (.ok results, last) ∧
      results.length = 13 := by
  have hepsilon : ¬ (onePoint.raising false).epsilon < 0 := by decide +kernel
  have hcount : ((onePoint.raising false).shape.reductionSize : Float).isFinite = true :=
    isFinite_natCast (by decide)
  obtain ⟨hreturns, hresults, hroom⟩ := completion quietPoint_formatted hepsilon nofun rfl rfl hcount
    idle_writesInPlace idle_returns (⟨.ofSeed 0, (), []⟩ : Bench Splitmix Unit)
  have hcountable : (Layout.dense onePoint.shape).Countable := by
    unfold Layout.Countable
    decide
  obtain ⟨results, last, hvalidate⟩ := hreturns.mpr (hroom hcountable hcountable)
  exact ⟨results, last, hvalidate, (hresults results last hvalidate).length_eq.symm⟩

/-- No elements, in rows of which there are very many, with seven channels of padding. -/
def vastRows : Validation where
  shape := ⟨0, 1, 1, 4611686018427387904, 1⟩
  dataFormat := "nChw8c"
  precision := some .s8
  raiseOnFailure := false

/-- The table of the padding of no elements may have more bytes than can be counted. All
settings are in order then, and the primitive is, but there is no result. -/
theorem vast_case_fails :
    (∃ layout, vastRows.Ready .s8 layout layout) ∧ ¬ vastRows.epsilon < 0 ∧
      (∀ n ∈ vastRows.numThreads, 1 ≤ n) ∧ vastRows.raiseOnFailure = false ∧
      vastRows.expected = none ∧ (vastRows.shape.reductionSize : Float).isFinite = true ∧
      idle.WritesInPlace ∧ idle.Returns ∧
      ∃ last : Bench Splitmix Unit, (validate vastRows idle).runOn ⟨.ofSeed 0, (), []⟩ =
        (.error (.misuse .arrayTooLarge), last) :=
  ⟨⟨_, ⟨rfl, rfl, rfl⟩, rfl⟩, by decide +kernel, nofun, rfl, rfl, isFinite_natCast (by decide),
    idle_writesInPlace, idle_returns, _, rfl⟩

end BatchNorm
