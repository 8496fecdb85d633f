import BatchNorm.Proofs.Verify.Forward

/-!
# Buffers that a forward verification refuses

Before a forward verification compares anything, it checks the buffers that the modes of
the run call for. `ForwardBuffers.Faulty` says what may be wrong with them. The checks let
pass what is not faulty (`exists_view_iff`), and they fail in no other way than by a
refusal (`refusesOnly_view`). What they let pass is compared without another failure, if
its extents can be written and the tables of its indices exist: every index is inside of
its buffer then, and every list has the length of the one that it is compared with. So a
refusal, a report on mismatches and a verdict are all that there is, as long as no number is
too long for a text and no array too large to be made (`forward_refusal`).
-/

set_option autoImplicit false

namespace BatchNorm

variable {α β : Type} {config : RunConfig} {numbers : List Int}

/-! ## Checks -/

/-- An operation that succeeds or fails with a refusal, which writes none but the given
numbers. -/
def RefusesOnly (numbers : List Int) (x : Except Failure α) : Prop :=
  (∃ a, x = .ok a) ∨ ∃ fault : Fault, fault.integers ⊆ numbers ∧ x = refuse fault

theorem refusesOnly_ok (a : α) : RefusesOnly numbers (.ok a) := Or.inl ⟨a, rfl⟩

theorem refusesOnly_refuse {fault : Fault} (h : fault.integers ⊆ numbers) :
    RefusesOnly numbers (refuse fault : Except Failure α) := Or.inr ⟨fault, h, rfl⟩

theorem refusesOnly_require {condition : Prop} [Decidable condition] {fault : Fault}
    (h : fault.integers ⊆ numbers) : RefusesOnly numbers (require condition fault) := by
  unfold require
  split
  · exact refusesOnly_ok ()
  · exact refusesOnly_refuse h

theorem RefusesOnly.bind {x : Except Failure α} {f : α → Except Failure β}
    (hx : RefusesOnly numbers x) (hf : ∀ a, RefusesOnly numbers (f a)) :
    RefusesOnly numbers (x >>= f) := by
  rcases hx with ⟨a, rfl⟩ | ⟨fault, hnumbers, rfl⟩
  · exact hf a
  · rw [refuse_bind]
    exact refusesOnly_refuse hnumbers

theorem refusesOnly_missing (role : Role) :
    RefusesOnly numbers (refuse (.missing role) : Except Failure α) :=
  Or.inr ⟨.missing role, List.nil_subset _, rfl⟩

/-- The numbers that a refusal of an activation buffer may write. -/
def activationNumbers (config : RunConfig) (buffer : Option Buffer) (l : Layout) : List Int :=
  (config.shape.dims ++ l.shape.dims ++ l.size :: buffer.toList.map Buffer.size).map Int.ofNat

/-- The numbers that a refusal of a buffer of channel values may write. -/
def channelNumbers (config : RunConfig) (buffer : Option Buffer) : List Int :=
  (config.shape.channels :: buffer.toList.map Buffer.size).map Int.ofNat

theorem refusesOnly_activation (type : ElementType) (role : Role) {buffer : Option Buffer}
    {l : Layout} (h : activationNumbers config buffer l ⊆ numbers) :
    RefusesOnly numbers (activation config type role buffer l) := by
  cases buffer with
  | none => exact refusesOnly_missing role
  | some b =>
      have hshape : (l.shape.dims ++ config.shape.dims).map Int.ofNat ⊆ numbers := by
        refine List.Subset.trans (fun n hn => ?_) h
        simp only [activationNumbers, List.map_append, List.mem_append] at hn ⊢
        tauto
      have hsize : [(b.size : Int), (l.size : Int)] ⊆ numbers := by
        refine List.Subset.trans (fun n hn => ?_) h
        simp only [List.mem_cons, List.not_mem_nil, or_false] at hn
        simp only [activationNumbers, List.map_append, List.map_cons, List.mem_append,
          List.mem_cons, Option.toList_some, List.map_nil, List.not_mem_nil, or_false]
        exact Or.inr hn.symm
      exact (refusesOnly_require hshape).bind fun _ => (refusesOnly_require hsize).bind fun _ =>
        (refusesOnly_require (List.nil_subset _)).bind fun _ => refusesOnly_ok b

theorem refusesOnly_channelArray (role : Role) {buffer : Option Buffer}
    (h : channelNumbers config buffer ⊆ numbers) :
    RefusesOnly numbers (channelArray config.shape.channels role buffer) := by
  cases buffer with
  | none => exact refusesOnly_missing role
  | some b =>
      have hsize : [(b.size : Int), (config.shape.channels : Int)] ⊆ numbers := by
        refine List.Subset.trans (fun n hn => ?_) h
        simp only [List.mem_cons, List.not_mem_nil, or_false] at hn
        simp only [channelNumbers, Option.toList_some, List.map_cons, List.map_nil, List.mem_cons,
          List.not_mem_nil, or_false]
        exact hn.symm
      exact (refusesOnly_require hsize).bind fun _ =>
        (refusesOnly_require (List.nil_subset _)).bind fun _ => refusesOnly_ok b

/-! ## Contracts -/

/-- How a verification ends, with and without raising: a run with a fault, an accepted one, and
one that is neither. -/
structure ErrorContract (config : RunConfig) (run : Bool → Logged Verdict)
    (faulty accepted : Prop) (numbers : List Int) (limit : Int) : Prop where
  /-- A fault is refused before a log line is written. -/
  refused : faulty → ∃ fault : Fault, fault.integers ⊆ numbers ∧
    ∀ raise, run raise = ⟨[], refuse fault⟩
  /-- There is a verdict, and it may have to pass. -/
  concluded : accepted → ∃ verdict : Verdict, verdict.config = config ∧
    (run false).result = .ok verdict ∧ (run true).result = verdict.orFail limit
  /-- What cannot be described has no log line. -/
  undescribed : ¬ faulty → ¬ config.shape.Writable → ∀ raise,
    run raise = ⟨[], misuse .integerTooLong⟩
  /-- What is left lacks an array. -/
  unindexed : ¬ faulty → ¬ accepted → config.shape.Writable → ∀ raise,
    (run raise).result = misuse .arrayTooLarge

namespace ErrorContract

variable {run : Bool → Logged Verdict} {faulty accepted : Prop} {limit : Int}

/-- Accepted runs give a verdict or report mismatches, for a limit that is not below zero. -/
theorem verdictOrReport (h : ErrorContract config run faulty accepted numbers limit)
    (haccepted : accepted) (hlimit : 0 ≤ limit) (raise : Bool) :
    VerdictOrReport (run raise).result := by
  obtain ⟨verdict, _, hquiet, hraising⟩ := h.concluded haccepted
  cases raise with
  | false => exact Or.inl ⟨verdict, hquiet⟩
  | true =>
      rw [hraising]
      exact Verdict.verdictOrReport_orFail (Verdict.isWritable_reportUpTo hlimit)

/-- No verdict that has to pass fails with a refusal. -/
theorem kind_ne_configuration_of_orFail {verdict : Verdict} {e : Failure}
    (h : verdict.orFail limit = .error e) : e.kind ≠ .configuration := by
  unfold Verdict.orFail at h
  split_ifs at h
  · obtain rfl := Except.error.inj h
    exact nofun
  · obtain rfl := Except.error.inj h
    exact nofun

/-- Nothing but a fault is refused. -/
theorem faulty_of_kind (h : ErrorContract config run faulty accepted numbers limit) {raise : Bool}
    {e : Failure} (hresult : (run raise).result = .error e) (hkind : e.kind = .configuration) :
    faulty := by
  by_contra hsound
  by_cases haccepted : accepted
  · obtain ⟨verdict, _, hquiet, hraising⟩ := h.concluded haccepted
    cases raise with
    | false => cases hquiet.symm.trans hresult
    | true => exact kind_ne_configuration_of_orFail (hraising.symm.trans hresult) hkind
  · by_cases hwritable : config.shape.Writable
    · cases (h.unindexed hsound haccepted hwritable raise).symm.trans hresult
      cases hkind
    · rw [h.undescribed hsound hwritable raise] at hresult
      cases hresult
      cases hkind

/-- Where the numbers of a refusal can be written, the runs with a fault are those that are
refused. -/
theorem refusal_iff (h : ErrorContract config run faulty accepted numbers limit)
    (hnumbers : ∀ n ∈ numbers, Integer.isWritable n = true) (raise : Bool) :
    (∃ e, (run raise).result = .error e ∧ e.kind = .configuration) ↔ faulty := by
  constructor
  · rintro ⟨e, hresult, hkind⟩
    exact h.faulty_of_kind hresult hkind
  · intro hfaulty
    obtain ⟨fault, hintegers, hrun⟩ := h.refused hfaulty
    refine ⟨.configuration fault, ?_, rfl⟩
    rw [hrun raise]
    exact refuse_eq_configuration fun n hn => hnumbers n (hintegers hn)

end ErrorContract

theorem exists_pair_iff {γ : Type} {x : Except Failure α} {y : Except Failure β} {f : α → β → γ} :
    (∃ c, (do let a ← x; let b ← y; return f a b) = .ok c) ↔
      (∃ a, x = .ok a) ∧ ∃ b, y = .ok b := by
  cases x with
  | error e => simp
  | ok a =>
      cases y with
      | error e => simp
      | ok b => simp

/-! ## Faults -/

/-- What may be wrong with an activation buffer: it is missing, its layout is one for
another shape, it is shorter than its layout, or it has another element type than the
precision asks for. -/
def ActivationFault (config : RunConfig) (buffer : Option Buffer) (l : Layout) : Prop :=
  buffer = none ∨ l.shape ≠ config.shape ∨
    ∃ b, buffer = some b ∧ (b.size < l.size ∨ b.type ≠ config.precision.elementType)

/-- What may be wrong with a buffer of channel values: it is missing, it is shorter than
the channels are many, or it holds no floating point numbers. -/
def ChannelFault (config : RunConfig) (buffer : Option Buffer) : Prop :=
  buffer = none ∨
    ∃ b, buffer = some b ∧ (b.size < config.shape.channels ∨ b.type.isFloating = false)

theorem exists_activation_iff (role : Role) {buffer : Option Buffer} {l : Layout} :
    (∃ b, activation config config.precision.elementType role buffer l = .ok b) ↔
      ¬ ActivationFault config buffer l := by
  simp only [activation_eq_ok_iff]
  cases buffer with
  | none => simp [ActivationFault]
  | some b =>
      simp only [ActivationFault, Option.some.injEq, exists_eq_left', reduceCtorEq, false_or,
        not_or, not_lt, not_not]
      exact ⟨fun ⟨hshape, hsize, htype⟩ => ⟨hshape, hsize, htype⟩,
        fun ⟨hshape, hsize, htype⟩ => ⟨hshape, hsize, htype⟩⟩

theorem exists_channelArray_iff (role : Role) {buffer : Option Buffer} :
    (∃ b, channelArray config.shape.channels role buffer = .ok b) ↔
      ¬ ChannelFault config buffer := by
  simp only [channelArray_eq_ok_iff]
  cases buffer with
  | none => simp [ChannelFault]
  | some b => simp [ChannelFault]

namespace ForwardBuffers

variable {b : ForwardBuffers}

/-- What may be wrong with the buffers of a forward run. The source and the output always
take part. With elements the statistics take part if they are supplied or if it is a
training run, which reports them, and the affine parameters if the run has them. -/
def Faulty (b : ForwardBuffers) (config : RunConfig) : Prop :=
  ActivationFault config b.src b.srcLayout ∨ ActivationFault config b.dst b.outputLayout ∨
    (config.shape.isEmpty = false ∧
      ((config.normalization.computeStatistics = false ∨ config.normalization.isTraining = true) ∧
          (ChannelFault config b.mean ∨ ChannelFault config b.variance) ∨
        config.normalization.hasAffine = true ∧
          (ChannelFault config b.scale ∨ ChannelFault config b.shift)))

theorem exposesStatistics_iff :
    config.normalization.exposesStatistics = true ↔
      config.normalization.computeStatistics = false ∨ config.normalization.isTraining = true := by
  simp [Normalization.exposesStatistics]

theorem exists_statistics_iff :
    (∃ statistics, b.statistics config = .ok statistics) ↔
      ((config.normalization.computeStatistics = false ∨ config.normalization.isTraining = true) →
        ¬ ChannelFault config b.mean ∧ ¬ ChannelFault config b.variance) := by
  unfold ForwardBuffers.statistics
  by_cases hflag : config.normalization.exposesStatistics = true
  · rw [if_pos hflag, exists_pair_iff, exists_channelArray_iff, exists_channelArray_iff]
    exact ⟨fun h _ => h, fun h => h (exposesStatistics_iff.mp hflag)⟩
  · rw [if_neg hflag]
    exact iff_of_true ⟨none, rfl⟩ fun hmodes => absurd (exposesStatistics_iff.mpr hmodes) hflag

theorem exists_affine_iff :
    (∃ affine, b.affine config = .ok affine) ↔
      (config.normalization.hasAffine = true →
        ¬ ChannelFault config b.scale ∧ ¬ ChannelFault config b.shift) := by
  unfold ForwardBuffers.affine
  by_cases hflag : config.normalization.hasAffine = true
  · rw [if_pos hflag, exists_pair_iff, exists_channelArray_iff, exists_channelArray_iff]
    exact ⟨fun h _ => h, fun h => h hflag⟩
  · rw [if_neg hflag]
    exact iff_of_true ⟨none, rfl⟩ fun haffine => absurd haffine hflag

/-- The checks let buffers pass exactly if nothing is wrong with them. -/
theorem exists_view_iff : (∃ view, b.view config = .ok view) ↔ ¬ b.Faulty config := by
  rw [view_eq]
  constructor
  · rintro ⟨view, hview⟩ hfault
    obtain ⟨src, hsrc, hview⟩ := bind_eq_ok_iff.mp hview
    obtain ⟨dst, hdst, hview⟩ := bind_eq_ok_iff.mp hview
    rcases hfault with hfault | hfault | ⟨hnonempty, hfault⟩
    · exact (exists_activation_iff .src).mp ⟨src, hsrc⟩ hfault
    · exact (exists_activation_iff .dst).mp ⟨dst, hdst⟩ hfault
    · rw [if_neg (Bool.eq_false_iff.mp hnonempty)] at hview
      obtain ⟨statistics, hstatistics, hview⟩ := bind_eq_ok_iff.mp hview
      obtain ⟨affine, haffine, _⟩ := bind_eq_ok_iff.mp hview
      rcases hfault with ⟨hmodes, hfault⟩ | ⟨hflag, hfault⟩
      · obtain ⟨hmean, hvariance⟩ := exists_statistics_iff.mp ⟨statistics, hstatistics⟩ hmodes
        exact hfault.elim hmean hvariance
      · obtain ⟨hscale, hshift⟩ := exists_affine_iff.mp ⟨affine, haffine⟩ hflag
        exact hfault.elim hscale hshift
  · intro hsound
    obtain ⟨hsrc, hdst, hchannels⟩ : ¬ ActivationFault config b.src b.srcLayout ∧
        ¬ ActivationFault config b.dst b.outputLayout ∧ _ := by
      simpa only [Faulty, not_or] using hsound
    obtain ⟨src, hsrc⟩ := (exists_activation_iff .src).mpr hsrc
    obtain ⟨dst, hdst⟩ := (exists_activation_iff .dst).mpr hdst
    rw [hsrc, ok_bind, hdst, ok_bind]
    by_cases hempty : config.shape.isEmpty = true
    · rw [if_pos hempty]
      exact ⟨none, rfl⟩
    · have hchannels := not_and.mp hchannels (Bool.eq_false_iff.mpr hempty)
      obtain ⟨hmodes, hflag⟩ := not_or.mp hchannels
      obtain ⟨statistics, hstatistics⟩ :=
        exists_statistics_iff.mpr fun h => not_or.mp (not_and.mp hmodes h)
      obtain ⟨affine, haffine⟩ := exists_affine_iff.mpr fun h => not_or.mp (not_and.mp hflag h)
      rw [if_neg hempty, hstatistics, ok_bind, haffine, ok_bind]
      exact ⟨_, rfl⟩

/-- The numbers that a refusal of a forward run may write. -/
def refusalNumbers (b : ForwardBuffers) (config : RunConfig) : List Int :=
  activationNumbers config b.src b.srcLayout ++ activationNumbers config b.dst b.outputLayout ++
    [b.mean, b.variance, b.scale, b.shift].flatMap (channelNumbers config)

theorem channelNumbers_subset {buffer : Option Buffer}
    (h : buffer ∈ [b.mean, b.variance, b.scale, b.shift]) :
    channelNumbers config buffer ⊆ b.refusalNumbers config :=
  List.subset_append_of_subset_right _ fun _ hn => List.mem_flatMap_of_mem h hn

theorem refusesOnly_statistics (b : ForwardBuffers) (config : RunConfig) :
    RefusesOnly (b.refusalNumbers config) (b.statistics config) := by
  unfold ForwardBuffers.statistics
  split
  · exact (refusesOnly_channelArray _ (channelNumbers_subset (by simp))).bind fun mean =>
      (refusesOnly_channelArray _ (channelNumbers_subset (by simp))).bind fun variance =>
        refusesOnly_ok _
  · exact refusesOnly_ok none

theorem refusesOnly_affine (b : ForwardBuffers) (config : RunConfig) :
    RefusesOnly (b.refusalNumbers config) (b.affine config) := by
  unfold ForwardBuffers.affine
  split
  · exact (refusesOnly_channelArray _ (channelNumbers_subset (by simp))).bind fun scale =>
      (refusesOnly_channelArray _ (channelNumbers_subset (by simp))).bind fun shift =>
        refusesOnly_ok _
  · exact refusesOnly_ok none

theorem refusesOnly_view (b : ForwardBuffers) (config : RunConfig) :
    RefusesOnly (b.refusalNumbers config) (b.view config) := by
  have hactivations : activationNumbers config b.src b.srcLayout ++
      activationNumbers config b.dst b.outputLayout ⊆ b.refusalNumbers config :=
    List.subset_append_left _ _
  obtain ⟨hsrc, hdst⟩ := List.append_subset.mp hactivations
  rw [view_eq]
  refine (refusesOnly_activation _ _ hsrc).bind fun src => ?_
  refine (refusesOnly_activation _ _ hdst).bind fun dst => ?_
  by_cases hempty : config.shape.isEmpty = true
  · rw [if_pos hempty]
    exact refusesOnly_ok none
  · rw [if_neg hempty]
    exact (refusesOnly_statistics b config).bind fun statistics =>
      (refusesOnly_affine b config).bind fun affine => refusesOnly_ok _

/-- A faulty run is refused before anything else happens. -/
theorem Faulty.verifyForward_eq (h : b.Faulty config) :
    ∃ fault : Fault, fault.integers ⊆ b.refusalNumbers config ∧
      ∀ raise, verifyForward config b raise = ⟨[], refuse fault⟩ := by
  obtain hview | ⟨fault, hintegers, hview⟩ := refusesOnly_view b config
  · exact absurd h (exists_view_iff.mp hview)
  · obtain ⟨e, he⟩ := exists_refuse_eq_error fault
    refine ⟨fault, hintegers, fun raise => ?_⟩
    rw [verifyForward, hview, he, he]
    rfl

/-- The comparison of an accepted run cannot fail. -/
theorem Accepted.concludes (h : b.Accepted config)
    (hepsilon : ∃ epsilon, config.epsilon = .ok epsilon) :
    Concludes config (verifyForward config b) := by
  obtain ⟨epsilon, hepsilon⟩ := hepsilon
  cases hempty : config.shape.isEmpty with
  | true =>
      -- without elements the verdict has no mismatches
      refine ⟨⟨config, [], {}⟩, rfl, fun raise => ?_⟩
      rw [verifyForward_result_of_isEmpty h hempty]
      exact (conclude_result_of_passed rfl raise).symm
  | false =>
      obtain ⟨v, hv⟩ := h.exists_view hempty
      have hresult := hv.verifyForward_result
      simp only [hepsilon, ok_bind] at hresult
      refine ⟨_, ?_, hresult⟩
      rfl

/-- A run without a fault is accepted if its extents can be written and, with elements, its
indices exist. -/
theorem accepted_iff :
    b.Accepted config ↔ ¬ b.Faulty config ∧ config.shape.Writable ∧
      (config.shape.isEmpty = false → Indexable config b.activations b.outputLayout) := by
  have hchecks : (b.view config).isOk = true ↔ ¬ b.Faulty config := by
    rw [← exists_view_iff]
    rcases hview : b.view config with e | view
    · simp [Except.isOk, Except.toBool]
    · simp [Except.isOk, Except.toBool]
  constructor
  · rintro ⟨hview, hwritable, hindexable⟩
    exact ⟨hchecks.mp hview, hwritable, hindexable⟩
  · rintro ⟨hsound, hwritable, hindexable⟩
    exact ⟨hchecks.mpr hsound, hwritable, hindexable⟩

/-- A run that cannot be described ends before its first log line. -/
theorem verifyForward_of_not_writable (hsound : ¬ b.Faulty config)
    (hwritable : ¬ config.shape.Writable) (raise : Bool) :
    verifyForward config b raise = ⟨[], misuse .integerTooLong⟩ := by
  obtain ⟨view, hview⟩ := exists_view_iff.mpr hsound
  rw [verifyForward, hview, Shape.demandTexts_eq_misuse hwritable]
  cases view with
  | none => rfl
  | some view => rfl

/-- A run of which the indices do not exist ends in an array that is too large. -/
theorem verifyForward_of_not_accepted (hsound : ¬ b.Faulty config)
    (hwritable : config.shape.Writable) (haccepted : ¬ b.Accepted config)
    (hepsilon : ∃ epsilon, config.epsilon = .ok epsilon) (raise : Bool) :
    (verifyForward config b raise).result = misuse .arrayTooLarge := by
  obtain ⟨epsilon, hepsilon⟩ := hepsilon
  rw [accepted_iff] at haccepted
  obtain ⟨hnonempty, hindexable⟩ : config.shape.isEmpty = false ∧
      ¬ Indexable config b.activations b.outputLayout := by
    by_contra hnone
    exact haccepted ⟨hsound, hwritable, not_and_not_right.mp hnone⟩
  obtain ⟨view, hview⟩ := exists_view_iff.mpr hsound
  obtain ⟨v, h⟩ := exists_checked (by rw [hview]; rfl) hnonempty
  have hcompare := h.compare_eq_arrayTooLarge hepsilon hindexable
  rw [verifyForward, view_eq_ok_iff.mpr h, Shape.demandTexts_eq_ok_iff.mpr hwritable]
  simp only [Logged.provided, Logged.after, hcompare]
  rfl

end ForwardBuffers

/-! ## Refusals, reports and verdicts -/

/-- **What a forward verification refuses.** For a number of reduced elements that binary64
can hold, and a limit on what is reported: a run with a fault is refused before anything is
logged. Where the numbers that a refusal may write can be written, the verification fails
with a refusal exactly if there is a fault; else it may be a misuse instead. An accepted
run, which is one without a fault whose extents can be written and whose indices exist,
gives a verdict or reports mismatches, whatever the buffers hold, and it gives a verdict if
mismatches are not to be raised. The indices exist if five words can be counted for each
place of the output. -/
theorem forward_refusal {limit : Int}
    (hcount : (config.shape.reductionSize : Float).isFinite = true)
    (hlimit : config.tolerance.maxReported = some limit) (b : ForwardBuffers) :
    ErrorContract config (verifyForward config b) (b.Faulty config) (b.Accepted config)
      (b.refusalNumbers config) limit ∧
    ((∀ n ∈ b.refusalNumbers config, Integer.isWritable n = true) → ∀ raise,
      ((∃ e, (verifyForward config b raise).result = .error e ∧ e.kind = .configuration) ↔
        b.Faulty config)) ∧
    (0 ≤ limit → b.Accepted config → ∀ raise,
      VerdictOrReport (verifyForward config b raise).result) ∧
    (b.Accepted config ↔ ¬ b.Faulty config ∧ config.shape.Writable ∧
      (config.shape.isEmpty = false → Indexable config b.activations b.outputLayout)) ∧
    (¬ b.Faulty config → config.shape.Writable → (∀ a ∈ b.activations, a.size < 2 ^ 63) →
      40 * b.outputLayout.size < 2 ^ 63 → b.Accepted config) := by
  have hepsilon : ∃ epsilon, config.epsilon = .ok epsilon := ⟨_, if_pos hcount⟩
  have hcontract : ErrorContract config (verifyForward config b) (b.Faulty config)
      (b.Accepted config) (b.refusalNumbers config) limit := by
    refine ⟨fun h => h.verifyForward_eq, fun h => ?_, ?_, ?_⟩
    · exact (h.concludes hepsilon).exists_verdict hlimit
    · exact fun hsound hwritable raise =>
        ForwardBuffers.verifyForward_of_not_writable hsound hwritable raise
    · exact fun hsound haccepted hwritable raise =>
        ForwardBuffers.verifyForward_of_not_accepted hsound hwritable haccepted hepsilon raise
  refine ⟨hcontract, hcontract.refusal_iff, fun hpos haccepted raise => ?_,
    ForwardBuffers.accepted_iff, fun hsound hwritable hcounted hwords => ?_⟩
  · exact hcontract.verdictOrReport haccepted hpos raise
  · obtain ⟨view, hview⟩ := ForwardBuffers.exists_view_iff.mpr hsound
    exact ForwardBuffers.accepted_of_view (by rw [hview]; rfl) hwritable hcounted hwords

/-- Two channels whose variances are missing are refused; with them there is a verdict or a
report. -/
theorem forward_refusal_twoChannels :
    let buffers := { twoChannelsBuffers with variance := none }
    (twoChannels.shape.reductionSize : Float).isFinite = true ∧
      twoChannels.tolerance.maxReported = some 32 ∧ buffers.Faulty twoChannels ∧
      (∃ e, (verifyForward twoChannels buffers true).result = .error e ∧
        e.kind = .configuration) ∧
      VerdictOrReport (verifyForward twoChannels twoChannelsBuffers true).result := by
  intro buffers
  have hcount : (twoChannels.shape.reductionSize : Float).isFinite = true := by decide +kernel
  have hfaulty : buffers.Faulty twoChannels :=
    Or.inr (Or.inr ⟨rfl, Or.inl ⟨Or.inl rfl, Or.inr (Or.inl rfl)⟩⟩)
  obtain ⟨_, hrefusal, _⟩ := forward_refusal hcount rfl buffers
  obtain ⟨_, _, hreports, _⟩ := forward_refusal hcount rfl twoChannelsBuffers
  exact ⟨hcount, rfl, hfaulty, (hrefusal (by decide) true).mpr hfaulty,
    hreports (by decide) twoChannelsBuffers_accepted true⟩

/-! ## Numbers too long and tables too large -/

/-- A row of `10 ^ b` elements in each of `10 ^ a` channels. -/
def powerShape (a b : Nat) : Shape := ⟨1, 10 ^ a, 1, 1, 10 ^ b⟩

theorem size_dense_powerShape (a b : Nat) :
    (Layout.dense (powerShape a b)).size = 10 ^ (a + b) := by
  rw [pow_add]
  show 1 * 10 ^ a * (1 * 1 * 10 ^ b) = _
  rw [one_mul, one_mul, one_mul]

theorem size_pos_powerShape (a b : Nat) : 0 < (Layout.dense (powerShape a b)).size := by
  rw [size_dense_powerShape]
  exact Nat.pow_pos (by decide)

theorem reductionSize_powerShape (a b : Nat) : (powerShape a b).reductionSize = 10 ^ b := by
  show 1 * (1 * 1 * 10 ^ b) = _
  rw [one_mul, one_mul, one_mul]

/-- The power of ten with as many zeros as a text has digits is one digit too long. -/
theorem isWritable_size_powerShape {a b : Nat} (h : a + b = Integer.maxDigits) :
    Integer.isWritable (Layout.dense (powerShape a b)).size = false := by
  rw [size_dense_powerShape, h, Bool.eq_false_iff]
  exact fun hwritable => absurd ((Integer.isWritable_natCast _).mp hwritable) (lt_irrefl _)

/-- A buffer that is too short for its layout is not refused if the size of that layout has too
many digits. -/
theorem activation_eq_misuse {type : ElementType} {role : Role} {b : Buffer} {l : Layout}
    (hshape : l.shape = config.shape) (hsize : b.size < l.size)
    (hlong : Integer.isWritable l.size = false) :
    activation config type role (some b) l = misuse .integerTooLong := by
  have hrefuse : (refuse (.activationSize role b.size l.size) : Except Failure Unit) =
      misuse .integerTooLong := refuse_eq_misuse ⟨(l.size : Int), by simp [Fault.integers], hlong⟩
  have hrequire : require (l.size ≤ b.size) (.activationSize role b.size l.size) =
      misuse .integerTooLong := by
    rw [require, if_neg (Nat.not_le.mpr hsize), hrefuse]
  unfold activation
  simp only [required, ok_bind, require_eq_ok hshape, hrequire]
  rfl

theorem ForwardBuffers.verifyForward_eq_misuse {b : ForwardBuffers} {cause : Misuse}
    (h : activation config config.precision.elementType .src b.src b.srcLayout = misuse cause)
    (raise : Bool) : verifyForward config b raise = ⟨[], misuse cause⟩ := by
  rw [verifyForward, view_eq, h]
  rfl

/-- A tensor of which the extents can be written, and the size cannot. -/
def swollen : RunConfig where
  shape := powerShape 4290 10
  normalization := { epsilon := 0, computeStatistics := false }
  epsilon_nonneg := twoChannels.epsilon_nonneg
  threads_pos := RunConfig.threads_pos_none

theorem swollen_count : (swollen.shape.reductionSize : Float).isFinite = true := by
  rw [swollen, reductionSize_powerShape]
  exact isFinite_natCast (by decide)

def emptyBuffer : Buffer := .ofList .float32 []

theorem size_emptyBuffer_lt : emptyBuffer.size < (Layout.dense swollen.shape).size :=
  size_pos_powerShape _ _

def swollenBuffers : ForwardBuffers where
  src := some emptyBuffer
  dst := some emptyBuffer
  srcLayout := .dense swollen.shape

/-- One element, normalized with supplied statistics. -/
def singleElement : RunConfig where
  shape := ⟨1, 1, 1, 1, 1⟩
  normalization := { epsilon := 0, computeStatistics := false }
  epsilon_nonneg := twoChannels.epsilon_nonneg
  threads_pos := RunConfig.threads_pos_none

/-- One channel with `2 ^ 58` places, all but one of them padding. -/
def vastPadding : Layout :=
  { Layout.dense singleElement.shape with
    paddedChannels := 2 ^ 58
    channels_le := by decide
    block_dvd := nofun }

theorem vastPadding_not_paddable : ¬ vastPadding.Paddable := by
  intro h
  have htable : vastPadding.demandPadding = misuse .arrayTooLarge := rfl
  exact absurd ((h rfl).symm.trans htable) nofun

/-- As many zeros as `vastPadding` has places. -/
def vastZeros : Buffer := .zeros .float32 (2 ^ 58)

theorem fits_vastZeros : Fits singleElement .float32 vastZeros vastPadding where
  shape := rfl
  size := by
    have hsize : vastZeros.size = 2 ^ 58 := Array.size_replicate
    rw [hsize]
    decide
  type := rfl

def vastBuffers : ForwardBuffers where
  src := some (.ofList .float32 [1])
  dst := some vastZeros
  srcLayout := .dense singleElement.shape
  dstLayout := some vastPadding
  mean := some (.ofList .float32 [0])
  variance := some (.ofList .float32 [1])

/-- The buffers pass all checks. -/
theorem vastBuffers_sound : ¬ vastBuffers.Faulty singleElement := by
  refine ForwardBuffers.exists_view_iff.mp ⟨some ⟨.ofList .float32 [1], vastZeros,
    .dense singleElement.shape, vastPadding,
    some ⟨.ofList .float32 [0], .ofList .float32 [1]⟩, none⟩, ?_⟩
  exact ForwardBuffers.view_eq_ok_iff.mpr ⟨rfl, rfl, activation_eq_ok_iff.mpr ⟨rfl, fits_vastZeros⟩,
    rfl, rfl, rfl, rfl⟩

/-- Neither is every fault refused nor every other run concluded: the message of a refusal may
have to write a number that is too long, and the table of a padding may be too large. -/
theorem forward_value_errors :
    ((swollen.shape.reductionSize : Float).isFinite = true ∧
      swollen.tolerance.maxReported = some 32 ∧ swollenBuffers.Faulty swollen ∧
      ∀ raise, verifyForward swollen swollenBuffers raise = ⟨[], misuse .integerTooLong⟩) ∧
    (singleElement.shape.reductionSize : Float).isFinite = true ∧
      singleElement.tolerance.maxReported = some 32 ∧ ¬ vastBuffers.Faulty singleElement ∧
      ∀ raise, (verifyForward singleElement vastBuffers raise).result = misuse .arrayTooLarge := by
  have hcount : (singleElement.shape.reductionSize : Float).isFinite = true :=
    isFinite_natCast (by decide)
  have hsrc : activation swollen swollen.precision.elementType .src (some emptyBuffer)
      (.dense swollen.shape) = misuse .integerTooLong :=
    activation_eq_misuse rfl size_emptyBuffer_lt (isWritable_size_powerShape rfl)
  have hrejected : ¬ vastBuffers.Accepted singleElement := fun h =>
    vastPadding_not_paddable ((h.indexable rfl).padding rfl)
  refine ⟨⟨swollen_count, rfl, ?_, ForwardBuffers.verifyForward_eq_misuse hsrc⟩, hcount, rfl,
    vastBuffers_sound, ?_⟩
  · exact Or.inl (Or.inr (Or.inr ⟨emptyBuffer, rfl, Or.inl size_emptyBuffer_lt⟩))
  · exact ForwardBuffers.verifyForward_of_not_accepted vastBuffers_sound (by decide) hrejected
      ⟨_, epsilon_eq_ok (by decide)⟩

end BatchNorm
