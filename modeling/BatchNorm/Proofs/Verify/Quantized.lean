import BatchNorm.Proofs.Comparison.Integers
import BatchNorm.Proofs.Numeric.Monotone
import BatchNorm.Proofs.Verify.Findings
import BatchNorm.Proofs.Verify.NoFalseAlarm

/-!
# Quantized output

A quantized output holds bytes, and what the reference stores is a byte as well, whatever
the values before it are: numbers beyond the range stop at its ends, and a NaN becomes
zero. Under the floor that is an infinity the two are compared as integers. A position is
reported if their distance is not at most the largest deviation allowed, so that a largest
deviation below one asks for the bytes of the reference (`quantized_output`).
-/

set_option autoImplicit false

namespace BatchNorm

open Exact

/-! ## Bytes -/

/-- The integer that an element is, or its integer part. -/
def ElementType.integerOf (t : ElementType) (x : t.Carrier) : Int := (t.exact x).truncate

/-- The integer at a place of a buffer. -/
def Buffer.integerAt (b : Buffer) (i : Int) : Int := b.type.integerOf (b.element i)

/-- The integer that the reference stores at a site. -/
def ForwardChannel.outputInteger (ch : ForwardChannel) (config : RunConfig) (x : Site) : Int :=
  config.precision.elementType.integerOf (ch.output config x)

namespace Exact

theorem truncate_ofInt (i : Int) : (ofInt i).truncate = i := by
  cases i with
  | ofNat n =>
      cases n with
      | zero => rfl
      | succ n => simp [ofInt, truncate, signed]
  | negSucc n => simp [ofInt, truncate, signed, Int.negSucc_eq]

end Exact

/-- The elements of a type of signed bytes are the integers from -128 to 127. -/
theorem ElementType.integerOf_int8 {t : ElementType} (ht : t = .int8) (x : t.Carrier) :
    t.toFloat x = (ofInt (t.integerOf x)).toFloat ∧ -128 ≤ t.integerOf x ∧ t.integerOf x < 128 := by
  subst ht
  have hinteger : ElementType.integerOf .int8 x = BitVec.toInt x := truncate_ofInt _
  have hlow := BitVec.le_toInt (x := x)
  have hhigh := BitVec.toInt_lt (x := x)
  rw [hinteger]
  exact ⟨rfl, hlow, hhigh⟩

theorem Buffer.floatAt_int8 {b : Buffer} (hb : b.type = .int8) (i : Int) :
    b.floatAt i = (ofInt (b.integerAt i)).toFloat ∧ -128 ≤ b.integerAt i ∧ b.integerAt i < 128 :=
  ElementType.integerOf_int8 hb (b.element i)

theorem ForwardChannel.expected_s8 (ch : ForwardChannel) {config : RunConfig}
    (hprecision : config.precision = .s8) (x : Site) :
    ch.expected config x = (ofInt (ch.outputInteger config x)).toFloat ∧
      -128 ≤ ch.outputInteger config x ∧ ch.outputInteger config x < 128 :=
  ElementType.integerOf_int8 (congrArg Precision.elementType hprecision) (ch.output config x)

/-! ## What is reported -/

/-- A run reports a position of its output if no limit cuts its lists. -/
def ForwardBuffers.Reports (b : ForwardBuffers) (config : RunConfig) (p : Position) : Prop :=
  ∃ verdict, (verifyForward (config.withLimit none) b false).result = .ok verdict ∧
    ∃ m ∈ verdict.mismatches, m.quantity = "dst" ∧ m.position = some p

/-- What a training run reports of the statistics that it computes is near the reference. -/
def ForwardBuffers.StatisticsNear (b : ForwardBuffers) (config : RunConfig) (src : Tensor)
    (epsilon : Float) : Prop :=
  config.normalization.computeStatistics = true → config.normalization.isTraining = true →
    ∀ c < config.shape.channels,
      let reference := Statistics.ofValues (config.shape.sites.map (b.channel src src c).src)
      let floor := config.tolerance.statisticsFloor
      nearlyEqual (entry b.mean c) reference.mean epsilon floor = true ∧
        nearlyEqual (entry b.variance c) reference.variance epsilon floor = true

theorem statisticsMismatches_eq_nil_iff {b : ForwardBuffers} {config : RunConfig}
    {src dst : Tensor} {epsilon : Float} :
    (∀ c < config.shape.channels,
      (b.channel src dst c).statisticsMismatches config epsilon c = []) ↔
      b.StatisticsNear config src epsilon := by
  have hused : ∀ c, config.normalization.computeStatistics = true →
      (b.channel src dst c).statistics config =
        .ofValues (config.shape.sites.map (b.channel src src c).src) :=
    fun _ hcompute => if_pos hcompute
  simp only [ForwardChannel.statisticsMismatches_eq_nil_iff]
  constructor
  · intro hnear hcompute htraining c hc
    have hnear := hnear c hc hcompute htraining
    rwa [hused c hcompute] at hnear
  · intro hnear c hc hcompute htraining
    rw [hused c hcompute]
    exact hnear hcompute htraining c hc

/-- Elements out of tolerance are what is found of the output itself. -/
theorem exists_mismatching_iff {b : ForwardBuffers} (config : RunConfig) {src dst : Tensor}
    {epsilon : Float} {checkPadding : Bool} {read : Position → Float} {c : Nat} {x : Site}
    (hc : c < b.outputLayout.shape.channels) (hx : x ∈ b.outputLayout.shape.sites) :
    (∃ m, (b.outputCheck config src dst epsilon).Mismatching checkPadding read m ∧
      m.quantity = "dst" ∧ m.position = some (x.inChannel c)) ↔
      nearlyEqual (read (x.inChannel c)) ((b.channel src dst c).expected config x) epsilon
        (config.tolerance.outputFloorFor config.precision) = false := by
  constructor
  · rintro ⟨m, hm, hquantity, hposition⟩
    cases hm with
    | scalar hc' hm =>
        rcases ForwardChannel.quantity_of_mem_statisticsMismatches hm with hmean | hvariance
        · exact absurd (hquantity.symm.trans hmean) (by decide)
        · exact absurd (hquantity.symm.trans hvariance) (by decide)
    | element hc' hsite hfar =>
        obtain ⟨rfl, rfl⟩ := inChannel_injective (Option.some.inj hposition)
        exact hfar
    | cell hcheck hp hvalue =>
        have hpadding : "dst padding" = "dst" := hquantity
        exact absurd hpadding (by decide)
  · intro hfar
    exact ⟨_, .element hc hx hfar, rfl, rfl⟩

namespace ForwardView.Of

variable {v : ForwardView} {b : ForwardBuffers} {config : RunConfig} {epsilon : Float}

/-- Without a limit, the verdict lists all that is wrong. -/
theorem exists_unlimited (h : v.Of b config) (hepsilon : config.epsilon = .ok epsilon) :
    ∃ verdict, (verifyForward (config.withLimit none) b false).result = .ok verdict ∧
      ∀ m, m ∈ verdict.mismatches ↔
        (b.outputCheck (config.withLimit none) (v.srcLayout.unpacked v.src)
          (v.dstLayout.unpacked v.dst) epsilon).Mismatching config.checkPadding
          (fun p => v.dst.floatAt (b.outputLayout.offset p)) m := by
  have hlimit : (config.withLimit none).tolerance.maxReported = none := rfl
  have hshape : b.outputLayout.shape = (config.withLimit none).shape :=
    h.dstLayout ▸ h.dstFits.shape
  have hunlimited : v.Of b (config.withLimit none) := h.withLimit
  have hsame : (config.withLimit none).epsilon = .ok epsilon := hepsilon
  have hcut : (upTo none : List Mismatch → List Mismatch) = id := funext fun _ => rfl
  rw [h.dstLayout]
  refine ⟨forwardVerdict (config.withLimit none) b (v.srcLayout.unpacked v.src)
    (b.outputLayout.unpacked v.dst) (nonzeroCells "dst" v.dst b.outputLayout) epsilon id, ?_,
    fun m => ?_⟩
  · rw [hunlimited.verifyForward_result, hsame, ok_bind, conclude_result_false, h.dstLayout, hlimit,
      hcut]
  · rw [forwardVerdict_mismatches_eq hshape]
    exact OutputCheck.mem_mismatches_iff

theorem reports_iff (h : v.Of b config) (hepsilon : config.epsilon = .ok epsilon) {c : Nat}
    (hc : c < config.shape.channels) {x : Site} (hx : x ∈ config.shape.sites) :
    b.Reports config (x.inChannel c) ↔
      nearlyEqual (v.dst.floatAt (b.outputLayout.offset (x.inChannel c)))
        ((b.channel (v.srcLayout.unpacked v.src) (v.dstLayout.unpacked v.dst) c).expected config x)
        epsilon (config.tolerance.outputFloorFor config.precision) = false := by
  have hshape : b.outputLayout.shape = config.shape := h.dstLayout ▸ h.dstFits.shape
  obtain ⟨verdict, hresult, hmem⟩ := h.exists_unlimited hepsilon
  calc b.Reports config (x.inChannel c)
      ↔ ∃ m ∈ verdict.mismatches, m.quantity = "dst" ∧ m.position = some (x.inChannel c) := by
        constructor
        · rintro ⟨verdict', hresult', hm⟩
          obtain rfl := Except.ok.inj (hresult.symm.trans hresult')
          exact hm
        · exact fun hm => ⟨verdict, hresult, hm⟩
    _ ↔ _ := by
        simp only [hmem]
        exact exists_mismatching_iff (config.withLimit none) (hshape ▸ hc) (hshape ▸ hx)

/-- A run with a limit of at least one passes if nothing is wrong. -/
theorem passes_iff_of_ample (h : v.Of b config) (hlimit : Ample config.tolerance.maxReported)
    (hepsilon : config.epsilon = .ok epsilon) (raise : Bool) :
    (verifyForward config b raise).passes = true ↔
      (∀ c < config.shape.channels, ∀ x ∈ config.shape.sites, ¬ b.Reports config (x.inChannel c)) ∧
        (config.checkPadding = true → ∀ p ∈ b.outputLayout.paddingPositions,
          (v.dst.floatAt (b.outputLayout.offset p) != 0) = false) ∧
        b.StatisticsNear config (v.srcLayout.unpacked v.src) epsilon := by
  have hshape : b.outputLayout.shape = config.shape := h.dstLayout ▸ h.dstFits.shape
  have hcut : ∀ {xs : List Mismatch}, upTo config.tolerance.maxReported xs = [] ↔ xs = [] :=
    fun {xs} => ⟨eq_nil_of_upTo_eq_nil hlimit, by rintro rfl; exact upTo_nil⟩
  have hpassed : (verifyForward config b raise).passes = true ↔
      (forwardVerdict config b (v.srcLayout.unpacked v.src) (v.dstLayout.unpacked v.dst)
        (nonzeroCells "dst" v.dst v.dstLayout) epsilon
        (upTo config.tolerance.maxReported)).mismatches = [] := by
    rw [passes_iff (h.verifyForward_result raise), hepsilon]
    constructor
    · rintro ⟨e, he, hpassed⟩
      obtain rfl := Except.ok.inj he
      exact List.isEmpty_iff.mp hpassed
    · exact fun hnil => ⟨epsilon, rfl, List.isEmpty_iff.mpr hnil⟩
  have helements : (∀ c < config.shape.channels,
      (b.channel (v.srcLayout.unpacked v.src) (v.dstLayout.unpacked v.dst) c).outputMismatches
        config epsilon c = []) ↔
      ∀ c < config.shape.channels, ∀ x ∈ config.shape.sites,
        ¬ b.Reports config (x.inChannel c) := by
    refine forall_congr' fun c => forall_congr' fun hc => ?_
    refine siteMismatches_eq_nil_iff.trans (forall_congr' fun x => forall_congr' fun hx => ?_)
    rw [h.reports_iff hepsilon hc hx, Bool.not_eq_false]
    have hread : (v.dstLayout.unpacked v.dst).floatAt (x.inChannel c) =
        v.dst.floatAt (b.outputLayout.offset (x.inChannel c)) := by
      rw [h.dstLayout]
      exact Layout.floatAt_unpacked (hshape ▸ Shape.inChannel_mem_positions hx hc)
    exact hread ▸ Iff.rfl
  have hcells : (config.checkPadding = true → nonzeroCells "dst" v.dst v.dstLayout = []) ↔
      (config.checkPadding = true → ∀ p ∈ b.outputLayout.paddingPositions,
        (v.dst.floatAt (b.outputLayout.offset p) != 0) = false) := by
    rw [h.dstLayout]
    exact forall_congr' fun _ => cellMismatches_eq_nil_iff
  rw [hpassed, ← helements, ← hcells, ← statisticsMismatches_eq_nil_iff]
  refine mergeMismatches_eq_nil_iff.trans ?_
  simp only [hcut, forall_and, and_assoc]
  tauto

/-! ## Bytes that are compared -/

/-- Under the infinite floor a byte of the output is reported if its distance from that of
the reference is not at most the largest deviation allowed. -/
theorem reports_iff_distance (h : v.Of b config) (hprecision : config.precision = .s8)
    (hfloor : config.tolerance.quantizedFloor = 1.0 / 0.0) (hepsilon : config.epsilon = .ok epsilon)
    {c : Nat} (hc : c < config.shape.channels) {x : Site} (hx : x ∈ config.shape.sites) :
    let ch := b.channel (v.srcLayout.unpacked v.src) (v.dstLayout.unpacked v.dst) c
    let distance := v.dst.integerAt (b.outputLayout.offset (x.inChannel c)) -
      ch.outputInteger config x
    distance.natAbs < 256 ∧
      (b.Reports config (x.inChannel c) ↔ ¬ (distance.natAbs : Float) ≤ epsilon) := by
  intro ch distance
  have htype : v.dst.type = .int8 :=
    h.dstFits.type.trans (congrArg Precision.elementType hprecision)
  obtain ⟨hstored, hlow, hhigh⟩ := Buffer.floatAt_int8 htype (b.outputLayout.offset (x.inChannel c))
  obtain ⟨hexpected, hlow', hhigh'⟩ := ch.expected_s8 hprecision x
  have hdistance : distance.natAbs < 256 := by omega
  have hfloor' : config.tolerance.outputFloorFor config.precision = 1.0 / 0.0 := by
    rw [hprecision]
    exact hfloor
  refine ⟨hdistance, ?_⟩
  rw [h.reports_iff hepsilon hc hx, hfloor', hstored, hexpected, ← Bool.not_eq_true,
    nearlyEqual_toFloat_ofInt (by omega) (by omega) (by omega) epsilon]

/-- A byte is read as zero if it is zero. -/
theorem floatAt_eq_zero_iff (h : v.Of b config) (hprecision : config.precision = .s8) (i : Int) :
    (v.dst.floatAt i != 0) = false ↔ v.dst.integerAt i = 0 := by
  have htype : v.dst.type = .int8 :=
    h.dstFits.type.trans (congrArg Precision.elementType hprecision)
  obtain ⟨hstored, _⟩ := Buffer.floatAt_int8 htype i
  rw [bne, Bool.not_eq_false', Float.beq_zero, hstored, isZero_toFloat_ofInt, isZero_ofInt]

end ForwardView.Of

/-- **Quantized output is compared in whole steps.** Take accepted buffers with elements
whose output is quantized, an infinite floor for it and a limit that is not below one. A
position of the output is reported if the distance of its byte from the byte of the
reference is not at most the largest deviation allowed. If that is below one, and not
negative, the run passes if the output has the bytes of the reference, the padding that is
looked at is zero, and the statistics that are checked are near. The values before the
rounding are any, infinities and NaNs among them. -/
theorem quantized_output {config : RunConfig} {b : ForwardBuffers}
    (hnonempty : config.shape.isEmpty = false) (hprecision : config.precision = .s8)
    (hfloor : config.tolerance.quantizedFloor = 1.0 / 0.0)
    (hlimit : Ample config.tolerance.maxReported) (haccepted : b.Accepted config) :
    ∃ (s d : Buffer) (src dst : Tensor),
      (b.src = some s ∧ b.srcLayout.unpack s = .ok src) ∧
      (b.dst = some d ∧ b.outputLayout.unpack d = .ok dst) ∧ d.type = .int8 ∧
      (s.size < 2 ^ 64 → ∃ epsilon, config.epsilon = .ok epsilon) ∧
      ∀ epsilon, config.epsilon = .ok epsilon →
        let stored (c : Nat) (x : Site) := d.integerAt (b.outputLayout.offset (x.inChannel c))
        let reference (c : Nat) (x : Site) := (b.channel src dst c).outputInteger config x
        (∀ c < config.shape.channels, ∀ x ∈ config.shape.sites, b.Reports config (x.inChannel c) ↔
          ¬ ((stored c x - reference c x).natAbs : Float) ≤ epsilon) ∧
        (0 ≤ epsilon → epsilon < 1 → ∀ raise, (verifyForward config b raise).passes = true ↔
          (∀ c < config.shape.channels, ∀ x ∈ config.shape.sites, stored c x = reference c x) ∧
          (config.checkPadding = true → ∀ p ∈ b.outputLayout.paddingPositions,
            d.integerAt (b.outputLayout.offset p) = 0) ∧
          b.StatisticsNear config src epsilon) := by
  obtain ⟨v, h⟩ := haccepted.exists_view hnonempty
  refine ⟨v.src, v.dst, v.srcLayout.unpacked v.src, v.dstLayout.unpacked v.dst,
    ⟨(activation_eq_ok_iff.mp h.src).1, h.srcLayout ▸ h.srcFits.unpack⟩,
    ⟨(activation_eq_ok_iff.mp h.dst).1, h.dstLayout ▸ h.dstFits.unpack⟩,
    h.dstFits.type.trans (congrArg Precision.elementType hprecision), fun hsize => ?_,
    fun epsilon hepsilon => ?_⟩
  · have hcount := h.srcFits.reductionSize_le (channels_pos hnonempty)
    exact ⟨_, epsilon_eq_ok (lt_of_le_of_lt hcount hsize)⟩
  intro stored reference
  have hdistance := fun {c} (hc : c < config.shape.channels) {x} (hx : x ∈ config.shape.sites) =>
    h.reports_iff_distance hprecision hfloor hepsilon hc hx
  refine ⟨fun c hc x hx => (hdistance hc hx).2, fun hnonneg hlt raise => ?_⟩
  rw [h.passes_iff_of_ample hlimit hepsilon raise]
  refine and_congr ?_ (and_congr ?_ Iff.rfl)
  · refine forall₂_congr fun c hc => forall₂_congr fun x hx => ?_
    obtain ⟨hbound, hreports⟩ := hdistance hc hx
    rw [hreports, not_not, natCast_le_iff_eq_zero hbound hnonneg hlt, Int.natAbs_eq_zero, sub_eq_zero]
  · exact forall_congr' fun _ => forall₂_congr fun p _ => h.floatAt_eq_zero_iff hprecision _

/-- A channel of two bytes, which their statistics double. -/
def doubledBytes : RunConfig where
  shape := ⟨1, 1, 1, 1, 2⟩
  normalization := { epsilon := 0, computeStatistics := false }
  precision := .s8
  numThreads := some 1
  epsilon_nonneg := twoChannels.epsilon_nonneg
  threads_pos := twoChannels.threads_pos

/-- An output that is one step off at the second byte; the first is at the end of the
range. -/
def doubledBuffers : ForwardBuffers where
  src := some (.ofList .int8 [100, 7])
  dst := some (.ofList .int8 [127, 13])
  srcLayout := .dense doubledBytes.shape
  mean := some (.ofList .float32 [0])
  variance := some (.ofList .float32 [0.25])

theorem quantized_output_doubledBytes :
    doubledBytes.shape.isEmpty = false ∧ doubledBytes.precision = .s8 ∧
      doubledBytes.tolerance.quantizedFloor = 1.0 / 0.0 ∧
      Ample doubledBytes.tolerance.maxReported ∧ doubledBuffers.Accepted doubledBytes ∧
      ∃ (d : Buffer) (src dst : Tensor), doubledBuffers.dst = some d ∧
        ∀ epsilon, doubledBytes.epsilon = .ok epsilon → ∀ x ∈ doubledBytes.shape.sites,
          doubledBuffers.Reports doubledBytes (x.inChannel 0) ↔
            ¬ ((d.integerAt (doubledBuffers.outputLayout.offset (x.inChannel 0)) -
              (doubledBuffers.channel src dst 0).outputInteger doubledBytes x).natAbs : Float) ≤
                epsilon := by
  have hlimit : Ample doubledBytes.tolerance.maxReported := by
    intro m hm
    obtain rfl : (32 : Int) = m := Option.some.inj hm
    decide
  have hnonempty : doubledBytes.shape.isEmpty = false := rfl
  have haccepted : doubledBuffers.Accepted doubledBytes :=
    ForwardBuffers.accepted_of_view (by decide +kernel) (by decide) (by decide) (by decide)
  obtain ⟨_, d, src, dst, _, ⟨hdst, _⟩, _, _, hall⟩ :=
    quantized_output hnonempty rfl rfl hlimit haccepted
  exact ⟨hnonempty, rfl, rfl, hlimit, haccepted, d, src, dst, hdst,
    fun epsilon hepsilon => (hall epsilon hepsilon).1 0 (by decide)⟩

end BatchNorm
