import BatchNorm.Proofs.Reference.FiniteChannel
import BatchNorm.Proofs.Verify.Forward

/-!
# Normalized output

Before it is scaled and stored, the output that a forward verification expects is the
deviation from the mean times one over the standard deviation. With statistics that are
computed from finite values the division is by zero only if epsilon is zero and the values of
the channel are all the same; then nothing but NaNs is expected of it (`normalized_output`).
-/

set_option autoImplicit false

namespace BatchNorm

open Exact

namespace ForwardChannel

/-- The output before it is scaled, shifted and stored. -/
def normalized (ch : ForwardChannel) (config : RunConfig) : List Float :=
  normalize (config.shape.sites.map ch.src) (ch.statistics config) config.normalization.epsilon none

/-- Two of the values differ. -/
def Varies (ch : ForwardChannel) (config : RunConfig) : Prop :=
  ∃ x ∈ config.shape.sites, ∃ y ∈ config.shape.sites, ch.src x < ch.src y

variable {ch : ForwardChannel} {config : RunConfig}

theorem mem_normalized_iff {y : Float} : y ∈ ch.normalized config ↔
    ∃ x ∈ config.shape.sites, (ch.src x - (ch.statistics config).mean) *
      inverseDeviation (ch.statistics config).variance config.normalization.epsilon = y := by
  rw [normalized, normalize, List.map_map, List.mem_map]
  rfl

section

variable (hcompute : config.normalization.computeStatistics = true)

include hcompute

theorem statistics_eq_ofValues :
    ch.statistics config = .ofValues (config.shape.sites.map ch.src) := if_pos hcompute

variable (hsingle : ∀ x ∈ config.shape.sites, IsSingle (ch.src x))
  (hlt : config.shape.reductionSize < 2 ^ 64)

include hsingle hlt

/-- The variance of finite values is a number from zero up. It is no zero if they differ. -/
theorem variance_bounds (hpos : 0 < config.shape.reductionSize) :
    (ch.statistics config).variance.isFinite = true ∧
      0 ≤ valueOf (ch.statistics config).variance ∧
      (ch.Varies config → 0 < valueOf (ch.statistics config).variance) := by
  have hlength : (config.shape.sites.map ch.src).length = config.shape.reductionSize := by
    rw [List.length_map, Shape.length_sites]
  have hxs : ∀ x ∈ config.shape.sites.map ch.src, IsSingle x := List.forall_mem_map.mpr hsingle
  rw [← hlength] at hpos hlt
  have hbounds := meanSquare_bounds hxs hpos hlt (within_average hxs hpos hlt)
  rw [statistics_eq_ofValues hcompute]
  refine ⟨hbounds.1.isFinite, hbounds.2.1, ?_⟩
  rintro ⟨x, hx, y, hy, hdiffer⟩
  have hleast := two_pow_le_variance hxs hlt (List.mem_map_of_mem hx) (List.mem_map_of_mem hy) hdiffer
  exact lt_of_lt_of_le (by positivity) hleast

/-- **The divisor is positive** if epsilon is, or if two of the values differ. -/
theorem variance_add_epsilon_pos (hpos : 0 < config.shape.reductionSize)
    (hepsilon : config.normalization.epsilon.isNaN = false)
    (h : 0 < config.normalization.epsilon ∨ ch.Varies config) :
    0 < (ch.statistics config).variance + config.normalization.epsilon := by
  obtain ⟨hfinite, hnonneg, hvaries⟩ := variance_bounds hcompute hsingle hlt hpos
  exact Float.add_pos hfinite hnonneg hepsilon config.epsilon_nonneg (h.symm.imp_left hvaries)

theorem isFinite_normalized {y : Float} (hy : y ∈ ch.normalized config)
    (h : 0 < (ch.statistics config).variance + config.normalization.epsilon) :
    y.isFinite = true := by
  obtain ⟨x, hx, rfl⟩ := mem_normalized_iff.mp hy
  have hxs : ∀ x ∈ config.shape.sites.map ch.src, IsSingle x := List.forall_mem_map.mpr hsingle
  rw [← Shape.length_sites, ← List.length_map ch.src] at hlt
  rw [statistics_eq_ofValues hcompute] at h ⊢
  exact (within_normalized hxs hlt (List.mem_map_of_mem hx) h).isFinite

end

/-- **The degenerate channel.** Without an epsilon, equal values are normalized to NaNs. -/
theorem isNaN_normalized (hcompute : config.normalization.computeStatistics = true)
    (hsingle : ∀ x ∈ config.shape.sites, IsSingle (ch.src x))
    (hle : config.shape.reductionSize ≤ 2 ^ 29)
    (hepsilon : config.normalization.epsilon.isNaN = false)
    (h : ¬ (0 < config.normalization.epsilon ∨ ch.Varies config)) {y : Float}
    (hy : y ∈ ch.normalized config) :
    ((ch.statistics config).variance + config.normalization.epsilon == 0) = true ∧
      y.isNaN = true := by
  obtain ⟨x, hx, rfl⟩ := mem_normalized_iff.mp hy
  obtain ⟨hnotpos, hsame⟩ := not_or.mp h
  have hzero : config.normalization.epsilon.isFinite = true ∧
      valueOf config.normalization.epsilon = 0 := by
    rcases Float.nonneg_cases hepsilon config.epsilon_nonneg with hinfinity | ⟨hfinite, hnonneg⟩
    · refine absurd ?_ hnotpos
      rw [Float.lt_iff, hinfinity]
      rfl
    · rw [Float.lt_iff_valueOf rfl hfinite] at hnotpos
      exact ⟨hfinite, le_antisymm (not_lt.mp hnotpos) hnonneg⟩
  have hvalues : ∀ z ∈ config.shape.sites.map ch.src,
      z.isFinite = true ∧ valueOf z = valueOf (ch.src x) := by
    refine List.forall_mem_map.mpr fun y hy => ⟨(hsingle y hy).isFinite, ?_⟩
    have hnotlt : ∀ {u v : Site}, u ∈ config.shape.sites → v ∈ config.shape.sites →
        valueOf (ch.src v) ≤ valueOf (ch.src u) := by
      intro u v hu hv
      rw [← not_lt, ← Float.lt_iff_valueOf (hsingle u hu).isFinite (hsingle v hv).isFinite]
      exact fun hlt => hsame ⟨u, hu, v, hv, hlt⟩
    exact le_antisymm (hnotlt hx hy) (hnotlt hy hx)
  rw [← Shape.length_sites, ← List.length_map ch.src] at hle
  rw [statistics_eq_ofValues hcompute]
  exact isNaN_normalized_of_const hle (hsingle x hx) hvalues hzero.1 hzero.2 (List.mem_map_of_mem hx)

end ForwardChannel

/-- **Normalized output.** Take accepted buffers with elements, computed statistics and an
epsilon that is no NaN. The run comes to a verdict, and the variances in it are those that it
normalizes with. In a channel of finite values the variance is a number from zero up. If
epsilon is positive, or two of the values differ, the reference divides by a positive number,
and what it comes to before the output is scaled and stored are numbers. Otherwise, if the
channel is not too long for its sum to be exact, it divides by zero, and comes to nothing but
NaNs. -/
theorem normalized_output {config : RunConfig} {b : ForwardBuffers}
    (hnonempty : config.shape.isEmpty = false)
    (hcompute : config.normalization.computeStatistics = true)
    (hepsilon : config.normalization.epsilon.isNaN = false)
    (haccepted : b.Accepted config) :
    ∃ (s : Buffer) (src : Tensor), (b.src = some s ∧ b.srcLayout.unpack s = .ok src) ∧
      let channel := b.channel src src
      let divisor (c : Nat) :=
        ((channel c).statistics config).variance + config.normalization.epsilon
      (s.size < 2 ^ 64 →
        (∃ verdict, (verifyForward config b false).result = .ok verdict ∧
          verdict.reference.variance = some ((List.range config.shape.channels).map fun c =>
            ((channel c).statistics config).variance)) ∧
        ∀ c < config.shape.channels,
          (∀ x ∈ config.shape.sites, (src.singleAt (x.inChannel c)).isFinite = true) →
          (((channel c).statistics config).variance.isFinite = true ∧
            0 ≤ ((channel c).statistics config).variance) ∧
          (0 < config.normalization.epsilon ∨ (channel c).Varies config →
            0 < divisor c ∧ 0 < SquareRoot.sqrt (divisor c) ∧
            ∀ y ∈ (channel c).normalized config, y.isFinite = true) ∧
          (¬ (0 < config.normalization.epsilon ∨ (channel c).Varies config) →
            config.shape.reductionSize ≤ 2 ^ 29 →
            (divisor c == 0) = true ∧
            ∀ y ∈ (channel c).normalized config, y.isNaN = true)) := by
  obtain ⟨v, h⟩ := haccepted.exists_view hnonempty
  refine ⟨v.src, v.srcLayout.unpacked v.src,
    ⟨(activation_eq_ok_iff.mp h.src).1, h.srcLayout ▸ h.srcFits.unpack⟩, ?_⟩
  intro channel divisor hsize
  have hpos := reductionSize_pos hnonempty
  have hlt := lt_of_le_of_lt (h.srcFits.reductionSize_le (channels_pos hnonempty)) hsize
  refine ⟨?_, fun c hc hfinite => ?_⟩
  · have hresult := h.verifyForward_result false
    rw [epsilon_eq_ok hlt, ok_bind, conclude_result_false] at hresult
    exact ⟨_, hresult, rfl⟩
  have hsingle : ∀ x ∈ config.shape.sites, IsSingle ((channel c).src x) :=
    fun x hx => ⟨_, hfinite x hx, rfl⟩
  obtain ⟨hnumber, hnonneg, _⟩ := ForwardChannel.variance_bounds hcompute hsingle hlt hpos
  refine ⟨⟨hnumber, (Float.le_iff_valueOf rfl hnumber).mpr hnonneg⟩, fun hproper => ?_,
    fun hdegenerate hle => ?_⟩
  · have hdivisor := ForwardChannel.variance_add_epsilon_pos hcompute hsingle hlt hpos hepsilon hproper
    exact ⟨hdivisor, (inverseDeviation_of_pos hdivisor).1,
      fun y hy => ForwardChannel.isFinite_normalized hcompute hsingle hlt hy hdivisor⟩
  · have hnone := fun {y} (hy : y ∈ (channel c).normalized config) =>
      ForwardChannel.isNaN_normalized hcompute hsingle hle hepsilon hdegenerate hy
    obtain ⟨x, hx⟩ := List.exists_mem_of_length_pos (Shape.length_sites config.shape ▸ hpos)
    exact ⟨(hnone (ForwardChannel.mem_normalized_iff.mpr ⟨x, hx, rfl⟩)).1, fun y hy => (hnone hy).2⟩

/-- A channel of two values, without an epsilon. -/
def plainPair : RunConfig where
  shape := ⟨1, 1, 1, 1, 2⟩
  normalization := { epsilon := 0 }
  epsilon_nonneg := twoChannels.epsilon_nonneg
  threads_pos := RunConfig.threads_pos_none

def plainPairBuffers : ForwardBuffers where
  src := some (.ofList .float32 [1, 3])
  dst := some (.ofList .float32 [-1, 1])
  srcLayout := .dense plainPair.shape
  mean := some (.ofList .float32 [2])
  variance := some (.ofList .float32 [1])

theorem normalized_output_plainPair :
    plainPair.shape.isEmpty = false ∧ plainPair.normalization.computeStatistics = true ∧
      plainPair.normalization.epsilon.isNaN = false ∧ plainPairBuffers.Accepted plainPair ∧
      ∃ (s : Buffer) (src : Tensor),
        (plainPairBuffers.src = some s ∧ plainPairBuffers.srcLayout.unpack s = .ok src) ∧
        ∀ y ∈ (plainPairBuffers.channel src src 0).normalized plainPair, y.isFinite = true := by
  have hepsilon : plainPair.normalization.epsilon.isNaN = false := by decide +kernel
  have haccepted : plainPairBuffers.Accepted plainPair :=
    ForwardBuffers.accepted_of_view (by decide +kernel) (by decide) (by decide) (by decide)
  obtain ⟨s, src, ⟨hs, hsrc⟩, hall⟩ := normalized_output rfl rfl hepsilon haccepted
  refine ⟨rfl, rfl, hepsilon, haccepted, s, src, ⟨hs, hsrc⟩, ?_⟩
  obtain rfl : Buffer.ofList .float32 [1, 3] = s := Option.some.inj hs
  obtain rfl : plainPairBuffers.srcLayout.unpacked (.ofList .float32 [1, 3]) = src :=
    Except.ok.inj hsrc
  have hfinite : ∀ x ∈ plainPair.shape.sites, ((plainPairBuffers.srcLayout.unpacked
      (.ofList .float32 [1, 3])).singleAt (x.inChannel 0)).isFinite = true := by decide +kernel
  refine (((hall (by decide)).2 0 (by decide) hfinite).2.1 (Or.inr ?_)).2.2
  exact ⟨⟨0, 0, 0, 0⟩, by decide, ⟨0, 0, 0, 1⟩, by decide, by decide +kernel⟩

/-- A channel of one value, without an epsilon. -/
def plainSingle : RunConfig where
  shape := ⟨1, 1, 1, 1, 1⟩
  normalization := { epsilon := 0 }
  epsilon_nonneg := twoChannels.epsilon_nonneg
  threads_pos := RunConfig.threads_pos_none

def plainSingleBuffers : ForwardBuffers where
  src := some (.ofList .float32 [1])
  dst := some (.ofList .float32 [0])
  srcLayout := .dense plainSingle.shape
  mean := some (.ofList .float32 [1])
  variance := some (.ofList .float32 [0])

/-- **Division by zero** on accepted buffers of finite values. -/
theorem plainSingle_divides_by_zero :
    plainSingle.shape.isEmpty = false ∧ plainSingle.normalization.computeStatistics = true ∧
      plainSingle.normalization.epsilon.isNaN = false ∧
      plainSingleBuffers.Accepted plainSingle ∧
      ∃ (s : Buffer) (src : Tensor),
        (plainSingleBuffers.src = some s ∧ plainSingleBuffers.srcLayout.unpack s = .ok src) ∧
        (∀ x ∈ plainSingle.shape.sites, (src.singleAt (x.inChannel 0)).isFinite = true) ∧
        let ch := plainSingleBuffers.channel src src 0
        let divisor := (ch.statistics plainSingle).variance + plainSingle.normalization.epsilon
        ¬ 0 < divisor ∧ (SquareRoot.sqrt divisor == 0) = true ∧
          ∃ y ∈ ch.normalized plainSingle, y.isNaN = true := by
  have haccepted : plainSingleBuffers.Accepted plainSingle :=
    ForwardBuffers.accepted_of_view (by decide +kernel) (by decide) (by decide) (by decide)
  refine ⟨rfl, rfl, by decide +kernel, haccepted, .ofList .float32 [1],
    plainSingleBuffers.srcLayout.unpacked (.ofList .float32 [1]), ⟨rfl, rfl⟩, ?_⟩
  decide +kernel

end BatchNorm
