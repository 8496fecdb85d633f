import BatchNorm.Proofs.Comparison.Storage
import BatchNorm.Proofs.Verify.Localisation

/-!
# Values stored in binary32

The standard constants are coarse enough for a primitive that keeps its statistics and
gradients in binary32 (`Tolerance.admitsSingle_default`). Under such constants a run that
gets the binary32 number nearest to a reference value finds nothing wrong with it, whatever
else it finds: neither a mean, a variance, a parameter gradient nor an element of the input
gradient (`stored_singles_unreported`). Values beyond the binary32 range are left out; an
infinity is stored of them, and nothing is near to an infinity.
-/

set_option autoImplicit false

namespace BatchNorm

open Exact

/-! ## Constants that are coarse enough -/

/-- A floor that is neither tiny nor above one. -/
structure ModerateFloor (floor : Float) : Prop where
  isFinite : floor.isFinite = true
  least : 2 ^ (-126 : Int) ≤ valueOf floor
  most : valueOf floor ≤ 1

/-- Constants under which no value is too far from its rounding to binary32. -/
structure Tolerance.AdmitsSingle (t : Tolerance) : Prop where
  isFinite : t.epsilonFactor.isFinite = true
  factor : 2 ^ (-24 : Int) ≤ valueOf t.epsilonFactor
  statistics : ModerateFloor t.statisticsFloor
  output : ModerateFloor t.outputFloor
  gradient : ModerateFloor t.gradientFloor
  diffSrc : ModerateFloor t.diffSrcFloor

theorem moderateFloor_one : ModerateFloor 1 := by
  refine ⟨rfl, ?_, ?_⟩
  · rw [valueOf_one]
    norm_num
  · exact valueOf_one.le

theorem moderateFloor_standardFloor : ModerateFloor standardFloor := by
  have hfloor : ofFloat standardFloor = .finite .positive 5764607523034235 (-59) (by decide) := rfl
  have hvalue : valueOf standardFloor = 5764607523034235 * 2 ^ (-59 : Int) := by
    rw [valueOf, hfloor, toRat_positive]
    rfl
  refine ⟨rfl, ?_, ?_⟩
  · rw [hvalue]
    norm_num
  · rw [hvalue]
    norm_num

/-- The standard constants are coarse enough. -/
theorem Tolerance.admitsSingle_default : Tolerance.AdmitsSingle {} := by
  have hfactor : ofFloat standardEpsilonFactor =
      .finite .positive 7378697629483821 (-66) (by decide) := rfl
  refine ⟨rfl, ?_, moderateFloor_one, moderateFloor_standardFloor, moderateFloor_standardFloor,
    moderateFloor_standardFloor⟩
  rw [valueOf, hfactor, toRat_positive]
  norm_num

/-! ## What is found of stored values -/

/-- A value is stored in binary32, within its range. -/
structure Stores (stored value : Float) : Prop where
  isFinite : (narrow value).isFinite = true
  eq : stored = widen (narrow value)

instance (stored value : Float) : Decidable (Stores stored value) :=
  decidable_of_iff ((narrow value).isFinite = true ∧ stored = widen (narrow value))
    ⟨fun h => ⟨h.1, h.2⟩, fun h => ⟨h.isFinite, h.eq⟩⟩

/-- The mismatches that a run finds: those of its verdict, or of the report that it fails
with. -/
def Logged.found (run : Logged Verdict) : List Mismatch :=
  match run.result with
  | .ok verdict => verdict.mismatches
  | .error (.verification report) => report.mismatches
  | .error _ => []

section

variable {config : RunConfig} {stored value epsilon floor : Float}

/-- The largest deviation allowed is the scaled factor unless the count is beyond binary64. -/
theorem epsilon_cases (config : RunConfig) :
    config.epsilon =
        .ok (scaledEpsilon config.tolerance.epsilonFactor config.shape.reductionSize) ∨
      config.epsilon = misuse .integerTooLarge := by
  unfold RunConfig.epsilon Tolerance.epsilonFor
  split
  · exact Or.inl rfl
  · exact Or.inr rfl

/-- A stored value is near to the value. -/
theorem Stores.nearlyEqual (h : Stores stored value) (hnonempty : config.shape.isEmpty = false)
    (htolerance : config.tolerance.AdmitsSingle) (hfloor : ModerateFloor floor)
    (hepsilon : config.epsilon = .ok epsilon) : nearlyEqual stored value epsilon floor = true := by
  obtain ⟨hstored, hvalue, hnear⟩ := widen_narrow_near h.isFinite
  have hscaled :
      epsilon = scaledEpsilon config.tolerance.epsilonFactor config.shape.reductionSize := by
    rcases epsilon_cases config with heq | heq
    · exact Except.ok.inj (hepsilon.symm.trans heq)
    · exact absurd (hepsilon.symm.trans heq) nofun
  rw [h.eq, hscaled]
  exact Float.nearlyEqual_of_le_singleError (reductionSize_pos hnonempty) hstored hvalue
    hfloor.isFinite hfloor.least hfloor.most htolerance.isFinite htolerance.factor hnear

theorem mem_of_mem_found_conclude {verdict : Verdict} {raise : Bool} {m : Mismatch}
    (hm : m ∈ (conclude verdict raise).found) : m ∈ verdict.mismatches := by
  unfold Logged.found at hm
  cases raise with
  | false =>
      rw [conclude_result_false] at hm
      exact hm
  | true =>
      by_cases hpassed : verdict.passed = true
      · rw [conclude_result_of_passed hpassed] at hm
        exact hm
      · rcases hlimit : verdict.config.tolerance.maxReported with _ | limit
        · -- without a limit there is no report, and the run fails for that
          have hfailed : verdict.demandPassed = misuse .unlimitedReport := by
            rw [Verdict.demandPassed, if_neg hpassed, Verdict.report, hlimit]
            rfl
          rw [conclude_result, if_pos rfl, hfailed] at hm
          exact absurd hm List.not_mem_nil
        · rw [conclude_result_true hlimit, Verdict.orFail, if_neg hpassed] at hm
          by_cases hreport : (verdict.reportUpTo limit).isWritable = true
          · rw [if_pos hreport] at hm
            exact hm
          · rw [if_neg hreport] at hm
            exact absurd hm List.not_mem_nil

/-- What a run finds is in the verdict that it concludes with. -/
theorem exists_of_mem_found {run : Logged Verdict} {verdict : Float → Verdict} {raise : Bool}
    (h : run.result = config.epsilon >>= fun e => (conclude (verdict e) raise).result)
    {m : Mismatch} (hm : m ∈ run.found) :
    ∃ e, config.epsilon = .ok e ∧ m ∈ (verdict e).mismatches := by
  unfold Logged.found at hm
  rw [h] at hm
  rcases epsilon_cases config with hepsilon | hepsilon
  · rw [hepsilon, ok_bind] at hm
    exact ⟨_, hepsilon, mem_of_mem_found_conclude hm⟩
  · rw [hepsilon] at hm
    exact absurd hm List.not_mem_nil

theorem of_mem_scalarMismatches {quantity : String} {c : Int} {actual expected : Float}
    {m : Mismatch} (hm : m ∈ scalarMismatches quantity c actual expected epsilon floor) :
    m.quantity = quantity ∧ m.channel = c ∧
      BatchNorm.nearlyEqual actual expected epsilon floor = false := by
  refine ⟨congrArg Mismatch.quantity (eq_of_mem_scalarMismatches hm),
    congrArg Mismatch.channel (eq_of_mem_scalarMismatches hm), Bool.eq_false_iff.mpr fun hnear => ?_⟩
  rw [scalarMismatches_eq_nil_iff.mpr hnear] at hm
  exact absurd hm List.not_mem_nil

theorem quantity_of_mem_siteMismatches {quantity : String} {c : Int} {s : Shape}
    {a e : Site → Float} {m : Mismatch}
    (hm : m ∈ siteMismatches quantity c s a e epsilon floor) : m.quantity = quantity := by
  obtain ⟨_, _, _, rfl⟩ := exists_of_mem_siteMismatches hm
  rfl

end

/-! ## Forward runs -/

/-- The statistics of the reference in a channel. -/
def ForwardBuffers.referenceStatistics (b : ForwardBuffers) (config : RunConfig) (src : Tensor)
    (c : Nat) : Statistics Float :=
  .ofValues (config.shape.sites.map (b.channel src src c).src)

/-- A forward run does not report a statistic that is stored in binary32. -/
def ForwardBuffers.StoredUnreported (b : ForwardBuffers) (config : RunConfig) : Prop :=
  ∃ (s : Buffer) (src : Tensor), (b.src = some s ∧ b.srcLayout.unpack s = .ok src) ∧
    (s.size < 2 ^ 64 → ∃ verdict, (verifyForward config b false).result = .ok verdict) ∧
    ∀ raise, ∀ c < config.shape.channels,
      let found := (verifyForward config b raise).found
      let reference := b.referenceStatistics config src c
      (Stores (entry b.mean c) reference.mean →
        ∀ m ∈ found, m.quantity = "mean" → m.channel ≠ c) ∧
      (Stores (entry b.variance c) reference.variance →
        ∀ m ∈ found, m.quantity = "variance" → m.channel ≠ c)

section

variable {b : ForwardBuffers} {config : RunConfig} {src dst : Tensor} {m : Mismatch}

/-- A statistic that is reported is not near to that of the reference. -/
theorem ForwardBuffers.far_of_mem_statisticsMismatches {epsilon : Float} {c : Nat}
    (hm : m ∈ (b.channel src dst c).statisticsMismatches config epsilon c) :
    m.channel = c ∧
      (m.quantity = "mean" → nearlyEqual (entry b.mean c) (b.referenceStatistics config src c).mean
        epsilon config.tolerance.statisticsFloor = false) ∧
      (m.quantity = "variance" → nearlyEqual (entry b.variance c)
        (b.referenceStatistics config src c).variance epsilon
          config.tolerance.statisticsFloor = false) := by
  unfold ForwardChannel.statisticsMismatches at hm
  dsimp only at hm
  split at hm
  · rename_i hmodes
    have hused : (b.channel src dst c).statistics config = b.referenceStatistics config src c :=
      if_pos (Bool.and_eq_true_iff.mp hmodes).1
    rw [hused] at hm
    rcases List.mem_append.mp hm with hm | hm
    · obtain ⟨hquantity, hc, hfar⟩ := of_mem_scalarMismatches hm
      exact ⟨hc, fun _ => hfar, fun h => absurd (hquantity.symm.trans h) (by decide)⟩
    · obtain ⟨hquantity, hc, hfar⟩ := of_mem_scalarMismatches hm
      exact ⟨hc, fun h => absurd (hquantity.symm.trans h) (by decide), fun _ => hfar⟩
  · exact absurd hm List.not_mem_nil

namespace ForwardView.Of

variable {v : ForwardView}

/-- A statistic that a run finds wrong is not near to that of the reference. -/
theorem far_of_mem_found (h : v.Of b config) {raise : Bool}
    (hm : m ∈ (verifyForward config b raise).found) :
    ∃ epsilon, config.epsilon = .ok epsilon ∧ ∀ c : Nat, m.channel = c →
      let reference := b.referenceStatistics config (v.srcLayout.unpacked v.src) c
      (m.quantity = "mean" → nearlyEqual (entry b.mean c) reference.mean epsilon
        config.tolerance.statisticsFloor = false) ∧
      (m.quantity = "variance" → nearlyEqual (entry b.variance c) reference.variance epsilon
        config.tolerance.statisticsFloor = false) := by
  obtain ⟨epsilon, hepsilon, hm⟩ := exists_of_mem_found (h.verifyForward_result raise) hm
  refine ⟨epsilon, hepsilon, fun c hchannel => ?_⟩
  rcases mem_of_mem_mergeMismatches (fun _ _ => mem_of_mem_upTo) hm with ⟨c', _, hm | hm⟩ | hm
  · obtain ⟨hc', hfar⟩ := ForwardBuffers.far_of_mem_statisticsMismatches hm
    obtain rfl : c = c' := Int.ofNat.inj (hchannel.symm.trans hc')
    exact hfar
  · have hquantity : m.quantity = "dst" := quantity_of_mem_siteMismatches hm
    exact ⟨fun h => absurd (hquantity.symm.trans h) (by decide),
      fun h => absurd (hquantity.symm.trans h) (by decide)⟩
  · have hquantity := quantity_of_mem_nonzeroCells hm
    exact ⟨fun h => absurd (hquantity.symm.trans h) (by decide),
      fun h => absurd (hquantity.symm.trans h) (by decide)⟩

theorem storedUnreported (h : v.Of b config) (htolerance : config.tolerance.AdmitsSingle) :
    b.StoredUnreported config := by
  refine ⟨v.src, v.srcLayout.unpacked v.src,
    ⟨(activation_eq_ok_iff.mp h.src).1, h.srcLayout ▸ h.srcFits.unpack⟩, fun hsize => ?_,
    fun raise c _ => ⟨fun hstores m hm hquantity hchannel => ?_,
      fun hstores m hm hquantity hchannel => ?_⟩⟩
  · have hcount := h.srcFits.reductionSize_le (channels_pos h.nonempty)
    rw [h.verifyForward_result, epsilon_eq_ok (lt_of_le_of_lt hcount hsize), ok_bind]
    exact ⟨_, conclude_result_false _⟩
  · obtain ⟨epsilon, hepsilon, hfar⟩ := h.far_of_mem_found hm
    exact Bool.eq_false_iff.mp ((hfar c hchannel).1 hquantity)
      (hstores.nearlyEqual h.nonempty htolerance htolerance.statistics hepsilon)
  · obtain ⟨epsilon, hepsilon, hfar⟩ := h.far_of_mem_found hm
    exact Bool.eq_false_iff.mp ((hfar c hchannel).2 hquantity)
      (hstores.nearlyEqual h.nonempty htolerance htolerance.statistics hepsilon)

end ForwardView.Of

end

/-! ## Backward runs -/

/-- A backward run does not report a gradient that is stored in binary32. -/
def BackwardBuffers.StoredUnreported (b : BackwardBuffers) (config : RunConfig) : Prop :=
  ∃ (s g d : Buffer) (src diffDst diffSrc : Tensor),
    (b.src = some s ∧ b.srcLayout.unpack s = .ok src) ∧
    (b.diffDst = some g ∧ b.gradientLayout.unpack g = .ok diffDst) ∧
    (b.diffSrc = some d ∧ b.outputLayout.unpack d = .ok diffSrc) ∧
    (s.size < 2 ^ 64 → ∃ verdict, (verifyBackward config b false).result = .ok verdict) ∧
    ∀ raise, ∀ c < config.shape.channels,
      let found := (verifyBackward config b raise).found
      let reference := (b.channel src diffDst diffSrc c).gradients config
      (Stores (entry b.diffScale c) reference.diffScale →
        ∀ m ∈ found, m.quantity = "diff_scale" → m.channel ≠ c) ∧
      (Stores (entry b.diffShift c) reference.diffShift →
        ∀ m ∈ found, m.quantity = "diff_shift" → m.channel ≠ c) ∧
      ∀ x ∈ config.shape.sites, Stores (d.floatAt (b.outputLayout.offset (x.inChannel c)))
          ((b.channel src diffDst diffSrc c).expected config x) →
        ∀ m ∈ found, m.quantity = "diff_src" → m.position ≠ some (x.inChannel c)

section

variable {b : BackwardBuffers} {config : RunConfig} {src diffDst diffSrc : Tensor} {m : Mismatch}

/-- A parameter gradient that is reported is not near to that of the reference. -/
theorem BackwardBuffers.far_of_mem_parameterMismatches {epsilon : Float} {c : Nat}
    (hm : m ∈ (b.channel src diffDst diffSrc c).parameterMismatches config epsilon c) :
    let reference := (b.channel src diffDst diffSrc c).gradients config
    m.channel = c ∧
      (m.quantity = "diff_scale" → nearlyEqual (entry b.diffScale c) reference.diffScale epsilon
        config.tolerance.gradientFloor = false) ∧
      (m.quantity = "diff_shift" → nearlyEqual (entry b.diffShift c) reference.diffShift epsilon
        config.tolerance.gradientFloor = false) ∧ m.quantity ≠ "diff_src" := by
  intro reference
  unfold BackwardChannel.parameterMismatches at hm
  dsimp only at hm
  split at hm
  · rcases List.mem_append.mp hm with hm | hm
    · obtain ⟨hquantity, hc, hfar⟩ := of_mem_scalarMismatches hm
      exact ⟨hc, fun _ => hfar, fun h => absurd (hquantity.symm.trans h) (by decide),
        hquantity ▸ by decide⟩
    · obtain ⟨hquantity, hc, hfar⟩ := of_mem_scalarMismatches hm
      exact ⟨hc, fun h => absurd (hquantity.symm.trans h) (by decide), fun _ => hfar,
        hquantity ▸ by decide⟩
  · exact absurd hm List.not_mem_nil

namespace BackwardView.Of

variable {v : BackwardView}

/-- A gradient that a run finds wrong is not near to that of the reference. -/
theorem far_of_mem_found (h : v.Of b config) {raise : Bool}
    (hm : m ∈ (verifyBackward config b raise).found) :
    ∃ epsilon, config.epsilon = .ok epsilon ∧
      let channel := b.channel (v.srcLayout.unpacked v.src) (v.diffDstLayout.unpacked v.diffDst)
        (v.diffSrcLayout.unpacked v.diffSrc)
      (∀ c : Nat, m.channel = c →
        (m.quantity = "diff_scale" → nearlyEqual (entry b.diffScale c)
          ((channel c).gradients config).diffScale epsilon config.tolerance.gradientFloor = false) ∧
        (m.quantity = "diff_shift" → nearlyEqual (entry b.diffShift c)
          ((channel c).gradients config).diffShift epsilon config.tolerance.gradientFloor = false)) ∧
      (m.quantity = "diff_src" → ∀ (c : Nat) (x : Site), m.position = some (x.inChannel c) →
        nearlyEqual ((channel c).diffSrc x) ((channel c).expected config x) epsilon
          config.tolerance.diffSrcFloor = false) := by
  obtain ⟨epsilon, hepsilon, hm⟩ := exists_of_mem_found (h.verifyBackward_result raise) hm
  refine ⟨epsilon, hepsilon, ?_⟩
  intro channel
  rcases mem_of_mem_mergeMismatches (fun _ _ => mem_of_mem_upTo) hm with ⟨c', _, hm | hm⟩ | hm
  · obtain ⟨hc', hscale, hshift, hsrc⟩ := BackwardBuffers.far_of_mem_parameterMismatches hm
    refine ⟨fun c hchannel => ?_, fun h => absurd h hsrc⟩
    obtain rfl : c = c' := Int.ofNat.inj (hchannel.symm.trans hc')
    exact ⟨hscale, hshift⟩
  · have hquantity : m.quantity = "diff_src" := quantity_of_mem_siteMismatches hm
    refine ⟨fun _ _ => ⟨fun h => absurd (hquantity.symm.trans h) (by decide),
      fun h => absurd (hquantity.symm.trans h) (by decide)⟩, fun _ c x hposition => ?_⟩
    obtain ⟨y, _, hfar, rfl⟩ := exists_of_mem_siteMismatches hm
    obtain ⟨rfl, rfl⟩ := inChannel_injective (Option.some.inj hposition)
    exact hfar
  · have hquantity := quantity_of_mem_nonzeroCells hm
    exact ⟨fun _ _ => ⟨fun h => absurd (hquantity.symm.trans h) (by decide),
      fun h => absurd (hquantity.symm.trans h) (by decide)⟩,
      fun h => absurd (hquantity.symm.trans h) (by decide)⟩

theorem storedUnreported (h : v.Of b config) (htolerance : config.tolerance.AdmitsSingle) :
    b.StoredUnreported config := by
  refine ⟨v.src, v.diffDst, v.diffSrc, v.srcLayout.unpacked v.src,
    v.diffDstLayout.unpacked v.diffDst, v.diffSrcLayout.unpacked v.diffSrc,
    ⟨(activation_eq_ok_iff.mp h.src).1, h.srcLayout ▸ h.srcFits.unpack⟩,
    ⟨(activation_eq_ok_iff.mp h.diffDst).1, h.diffDstLayout ▸ h.diffDstFits.unpack⟩,
    ⟨(activation_eq_ok_iff.mp h.diffSrc).1, h.diffSrcLayout ▸ h.diffSrcFits.unpack⟩,
    fun hsize => ?_, fun raise c hc => ⟨fun hstores m hm hquantity hchannel => ?_,
      fun hstores m hm hquantity hchannel => ?_,
      fun x hx hstores m hm hquantity hposition => ?_⟩⟩
  · have hcount := h.srcFits.reductionSize_le (channels_pos h.nonempty)
    rw [h.verifyBackward_result, epsilon_eq_ok (lt_of_le_of_lt hcount hsize), ok_bind]
    exact ⟨_, conclude_result_false _⟩
  · obtain ⟨epsilon, hepsilon, hfar, _⟩ := h.far_of_mem_found hm
    exact Bool.eq_false_iff.mp ((hfar c hchannel).1 hquantity)
      (hstores.nearlyEqual h.nonempty htolerance htolerance.gradient hepsilon)
  · obtain ⟨epsilon, hepsilon, hfar, _⟩ := h.far_of_mem_found hm
    exact Bool.eq_false_iff.mp ((hfar c hchannel).2 hquantity)
      (hstores.nearlyEqual h.nonempty htolerance htolerance.gradient hepsilon)
  · obtain ⟨epsilon, hepsilon, _, hfar⟩ := h.far_of_mem_found hm
    have hread : (v.diffSrcLayout.unpacked v.diffSrc).floatAt (x.inChannel c) =
        v.diffSrc.floatAt (b.outputLayout.offset (x.inChannel c)) := by
      rw [← h.diffSrcLayout]
      exact Layout.floatAt_unpacked (h.diffSrcFits.site_mem hc hx)
    rw [← hread] at hstores
    exact Bool.eq_false_iff.mp (hfar hquantity c x hposition)
      (hstores.nearlyEqual h.nonempty htolerance htolerance.diffSrc hepsilon)

end BackwardView.Of

end

/-! ## Both together -/

/-- **Storing in binary32 is never a mismatch.** In exact arithmetic, a value that is off by
half a unit of binary32 is near under every moderate floor, for every shape with elements
and every factor that is not below that half. The binary32 number that is stored of a
binary64 number is off by no more, and it is a number for every one within the range. So
under constants like the standard ones a run does not report what is stored of the means,
the variances and the gradients of the reference. -/
theorem stored_singles_unreported :
    (∀ (a e floor factor : ℚ) (s : Shape), s.isEmpty = false → 2 ^ (-126 : Int) ≤ floor →
      floor ≤ 1 → 2 ^ (-24 : Int) ≤ factor →
      |a - e| ≤ 2 ^ (-24 : Int) * max |e| (2 ^ (-126 : Int)) →
        nearlyEqual a e (scaledEpsilon factor s.reductionSize) floor = true) ∧
    (∀ e : Float, (e.isFinite = true → |valueOf e| ≤ largestSingle → (narrow e).isFinite = true) ∧
      ((narrow e).isFinite = true → |valueOf (widen (narrow e)) - valueOf e| ≤
        2 ^ (-24 : Int) * max |valueOf e| (2 ^ (-126 : Int)))) ∧
    Tolerance.AdmitsSingle {} ∧
    ∀ config : RunConfig, config.shape.isEmpty = false → config.tolerance.AdmitsSingle →
      (∀ b : ForwardBuffers, b.Accepted config → b.StoredUnreported config) ∧
      ∀ b : BackwardBuffers, b.Accepted config → b.StoredUnreported config := by
  refine ⟨fun a e floor factor s hnonempty hleast hmost hfactor hnear => ?_,
    fun e => ⟨isFinite_narrow, fun h => (widen_narrow_near h).2.2⟩, Tolerance.admitsSingle_default,
    fun config hnonempty htolerance => ⟨fun b haccepted => ?_, fun b haccepted => ?_⟩⟩
  · exact nearlyEqual_of_le_singleError (reductionSize_pos hnonempty) hleast hmost hfactor hnear
  · obtain ⟨v, h⟩ := haccepted.exists_view hnonempty
    exact h.storedUnreported htolerance
  · obtain ⟨v, h⟩ := haccepted.exists_view hnonempty
    exact h.storedUnreported htolerance

/-- Three values in training, whose statistics and gradients are no numbers of binary32. -/
def thirds : RunConfig where
  shape := ⟨1, 1, 1, 1, 3⟩
  normalization := { epsilon := 0 }
  backwardMode := some .dataAndParameters
  epsilon_nonneg := twoGradients.epsilon_nonneg
  threads_pos := RunConfig.threads_pos_none

/-- The statistics of the reference, rounded. The output is wrong throughout. -/
def thirdsForward : ForwardBuffers where
  src := some (.ofList .float32 [-1, 0, 0])
  dst := some (.ofList .float32 [7, 7, 7])
  srcLayout := .dense thirds.shape
  mean := some (.ofList .float32 [narrow (-1 / 3)])
  variance := some (.ofList .float32 [narrow (2 / 9)])

/-- The gradients of the reference, rounded. Only the gradient of the scale is wrong. -/
def thirdsBackward : BackwardBuffers where
  src := some (.ofList .float32 [-1, 0, 1])
  diffDst := some (.ofList .float32 [1, 0, 0])
  diffSrc := some (.ofList .float32 [narrow (1 / 3), narrow (-1 / 3), 0])
  mean := some (.ofList .float32 [0])
  variance := some (.ofList .float32 [1])
  srcLayout := .dense thirds.shape
  diffScale := some (.ofList .float32 [7])
  diffShift := some (.ofList .float32 [1])

theorem stored_singles_unreported_thirds :
    thirds.shape.isEmpty = false ∧ thirds.tolerance.AdmitsSingle ∧
      thirdsForward.Accepted thirds ∧ thirdsBackward.Accepted thirds ∧
      nearlyEqual (1 / 100 : ℚ) (1 / 100 - 1 / 2 ^ 33)
        (scaledEpsilon (1 / 2 ^ 24) thirds.shape.reductionSize) (1 / 100) = true ∧
      (∀ m ∈ (verifyForward thirds thirdsForward true).found,
        (m.quantity = "mean" → m.channel ≠ (0 : Nat)) ∧
          (m.quantity = "variance" → m.channel ≠ (0 : Nat))) ∧
      ∀ m ∈ (verifyBackward thirds thirdsBackward true).found,
        (m.quantity = "diff_shift" → m.channel ≠ (0 : Nat)) ∧
          ∀ x ∈ thirds.shape.sites, m.quantity = "diff_src" →
            m.position ≠ some (x.inChannel 0) := by
  have htolerance : thirds.tolerance.AdmitsSingle := Tolerance.admitsSingle_default
  have hforward : thirdsForward.Accepted thirds :=
    ForwardBuffers.accepted_of_view (by decide +kernel) (by decide) (by decide) (by decide)
  have hbackward : thirdsBackward.Accepted thirds :=
    BackwardBuffers.Checks.accepted
      ⟨some ⟨.ofList .float32 [7], .ofList .float32 [1]⟩, rfl, fun _ => by decide +kernel⟩
      (by decide) (by decide) (by decide)
  obtain ⟨hlaw, _, _, hruns⟩ := stored_singles_unreported
  obtain ⟨hforwards, hbackwards⟩ := hruns thirds rfl htolerance
  refine ⟨rfl, htolerance, hforward, hbackward, ?law, ?forward, ?backward⟩
  case law =>
    refine hlaw _ _ _ _ thirds.shape rfl ?_ ?_ ?_ ?_ <;> norm_num
  case forward =>
    obtain ⟨s, src, ⟨hs, hsrc⟩, _, hreports⟩ := hforwards thirdsForward hforward
    obtain rfl := Option.some.inj hs
    obtain rfl : (⟨thirds.shape.dims, .ofList .float32 [-1, 0, 0]⟩ : Tensor) = src :=
      Except.ok.inj hsrc
    obtain ⟨hmean, hvariance⟩ := hreports true 0 (by decide)
    exact fun m hm => ⟨hmean (by decide +kernel) m hm, hvariance (by decide +kernel) m hm⟩
  case backward =>
    obtain ⟨s, g, d, src, diffDst, diffSrc, ⟨hs, hsrc⟩, ⟨hg, hdiffDst⟩, ⟨hd, hdiffSrc⟩, _,
      hreports⟩ := hbackwards thirdsBackward hbackward
    obtain rfl := Option.some.inj hs
    obtain rfl := Option.some.inj hg
    obtain rfl := Option.some.inj hd
    obtain rfl : (⟨thirds.shape.dims, .ofList .float32 [-1, 0, 1]⟩ : Tensor) = src :=
      Except.ok.inj hsrc
    obtain rfl : (⟨thirds.shape.dims, .ofList .float32 [1, 0, 0]⟩ : Tensor) = diffDst :=
      Except.ok.inj hdiffDst
    obtain rfl : (⟨thirds.shape.dims, .ofList .float32 [narrow (1 / 3), narrow (-1 / 3), 0]⟩ :
        Tensor) = diffSrc := Except.ok.inj hdiffSrc
    obtain ⟨_, hshift, hgradient⟩ := hreports true 0 (by decide)
    refine fun m hm => ⟨hshift (by decide +kernel) m hm, fun x hx => hgradient x hx ?_ m hm⟩
    revert x hx
    decide +kernel

end BatchNorm
