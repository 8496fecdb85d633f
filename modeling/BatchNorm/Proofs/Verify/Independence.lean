import BatchNorm.Proofs.Verify.Backward
import BatchNorm.Proofs.Verify.Forward

/-!
# The report on a channel

Of the verdict on a run, the report on a channel keeps what is about that channel:
its mismatches, those of the padding aside, and its values of the reference. The
report is a function of what the verification reads of the channel. Two channels
that agree where they are read (`ForwardChannel.Agree`, `BackwardChannel.Agree`)
have the same report up to the number of the channel, in whatever runs they occur.
-/

set_option autoImplicit false

namespace BatchNorm

/-! ## Reports -/

namespace Mismatch

/-- Whether a mismatch is one of the padding. -/
def isPadding (m : Mismatch) : Bool := m.quantity ∈ ["dst padding", "diff_src padding"]

/-- Whether a mismatch is one of a channel of the tensor. -/
def belongsTo (m : Mismatch) (c : Nat) : Bool := m.channel = c && !m.isPadding

/-- The same mismatch in another channel. -/
def relabel (c : Nat) (m : Mismatch) : Mismatch :=
  { m with channel := c, position := m.position.map fun p => { p with c } }

theorem eq_of_belongsTo {m : Mismatch} {c c' : Nat} (h : m.belongsTo c = true)
    (h' : m.belongsTo c' = true) : c = c' := by
  simp only [belongsTo, Bool.and_eq_true, decide_eq_true_eq] at h h'
  omega

end Mismatch

/-- What a verdict says about one channel. -/
structure ChannelReport where
  mismatches : List Mismatch
  mean : Option Float
  variance : Option Float
  diffScale : Option Float
  diffShift : Option Float

/-- The same report on another channel. -/
def ChannelReport.relabel (c : Nat) (r : ChannelReport) : ChannelReport :=
  { r with mismatches := r.mismatches.map (Mismatch.relabel c) }

/-- What a verdict says about channel `c`. -/
def Verdict.channelReport (c : Nat) (v : Verdict) : ChannelReport where
  mismatches := v.mismatches.filter (·.belongsTo c)
  mean := v.reference.mean.bind (·[c]?)
  variance := v.reference.variance.bind (·[c]?)
  diffScale := v.reference.diffScale.bind (·[c]?)
  diffShift := v.reference.diffShift.bind (·[c]?)

/-- Two outcomes report the same on two channels if they do so for each largest
deviation allowed. -/
theorem channelReport_eq_relabel {r r' : Except Failure Verdict} {epsilon : Except Failure Float}
    {report report' : Float → ChannelReport} {c c' : Nat}
    (h : r.map (Verdict.channelReport c) = epsilon.map report)
    (h' : r'.map (Verdict.channelReport c') = epsilon.map report')
    (hreport : ∀ e, report e = (report' e).relabel c) :
    r.map (Verdict.channelReport c) =
      r'.map fun verdict => (verdict.channelReport c').relabel c := by
  have hrelabel : (r'.map fun verdict => (verdict.channelReport c').relabel c) =
      epsilon.map fun e => (report' e).relabel c := by
    rw [← map_map (Verdict.channelReport c'), h', map_map]
  rw [h, hrelabel, funext hreport]

theorem flatMap_range_ite {α : Type} {n c : Nat} (hc : c < n) (xs : List α) :
    ((List.range n).flatMap fun i => if i = c then xs else []) = xs := by
  induction n with
  | zero => exact absurd hc (Nat.not_lt_zero c)
  | succ n ih =>
      rw [List.range_succ, List.flatMap_append, List.flatMap_singleton]
      by_cases hn : n = c
      · have hnone : ((List.range n).flatMap fun i => if i = c then xs else []) = [] := by
          refine List.flatMap_eq_nil_iff.mpr fun i hi => if_neg ?_
          have hlt := List.mem_range.mp hi
          omega
        rw [hnone, if_pos hn, List.nil_append]
      · rw [ih (by omega), if_neg hn, List.append_nil]

/-- Of the mismatches of a run, those of a channel are the ones that were found in
it. -/
theorem filter_mergeMismatches {channels c : Nat} {scalars elements : Nat → List Mismatch}
    {checkPadding : Bool} {padding : List Mismatch} {cut : List Mismatch → List Mismatch}
    (hc : c < channels) (hcut : ∀ ms, ∀ m ∈ cut ms, m ∈ ms)
    (hscalars : ∀ i, ∀ m ∈ scalars i, m.belongsTo i = true)
    (helements : ∀ i, ∀ m ∈ elements i, m.belongsTo i = true)
    (hpadding : ∀ m ∈ padding, m.isPadding = true) :
    (mergeMismatches channels scalars elements checkPadding padding cut).filter (·.belongsTo c) =
      scalars c ++ cut (elements c) := by
  have hown : ∀ i, ∀ m ∈ scalars i ++ cut (elements i), m.belongsTo i = true := by
    intro i m hm
    rcases List.mem_append.mp hm with hm | hm
    · exact hscalars i m hm
    · exact helements i m (hcut _ m hm)
  have hchannel : ∀ i, (scalars i ++ cut (elements i)).filter (·.belongsTo c) =
      if i = c then scalars c ++ cut (elements c) else [] := by
    intro i
    by_cases hi : i = c
    · subst hi
      rw [if_pos rfl, List.filter_eq_self.mpr (hown i)]
    · rw [if_neg hi, List.filter_eq_nil_iff]
      exact fun m hm hmc => hi (Mismatch.eq_of_belongsTo (hown i m hm) hmc)
  -- a cell of the padding may lie in channel `c`; its quantity sets it apart
  have hnone : (if checkPadding then cut padding else []).filter (·.belongsTo c) = [] := by
    rw [List.filter_eq_nil_iff]
    intro m hm hmc
    cases checkPadding with
    | false => exact absurd hm List.not_mem_nil
    | true =>
        have hpad := hpadding m (hcut _ m hm)
        simp [Mismatch.belongsTo, hpad] at hmc
  rw [mergeMismatches, List.filter_append, hnone, List.append_nil, List.filter_flatMap]
  simp only [hchannel]
  exact flatMap_range_ite hc _

theorem isPadding_of_mem_nonzeroCells {quantity : String} {b : Buffer} {l : Layout}
    (hquantity : s!"{quantity} padding" ∈ ["dst padding", "diff_src padding"]) :
    ∀ m ∈ nonzeroCells quantity b l, m.isPadding = true := by
  intro m hm
  rw [Mismatch.isPadding, quantity_of_mem_nonzeroCells hm]
  exact decide_eq_true hquantity

section

variable {quantity : String} {c : Nat} {epsilon floor : Float}
  (hquantity : quantity ∉ ["dst padding", "diff_src padding"])

include hquantity

theorem belongsTo_ofValues {position : Option Position} {actual expected : Float} :
    (Mismatch.ofValues quantity c position actual expected epsilon floor).belongsTo c = true := by
  have hpadding : (Mismatch.ofValues quantity c position actual expected epsilon floor).isPadding =
      false := decide_eq_false hquantity
  rw [Mismatch.belongsTo, hpadding]
  exact Bool.and_eq_true_iff.mpr ⟨decide_eq_true rfl, rfl⟩

theorem belongsTo_of_mem_scalarMismatches {actual expected : Float} :
    ∀ m ∈ scalarMismatches quantity c actual expected epsilon floor, m.belongsTo c = true := by
  intro m hm
  rw [eq_of_mem_scalarMismatches hm]
  exact belongsTo_ofValues hquantity

theorem belongsTo_of_mem_siteMismatches {s : Shape} {a e : Site → Float} :
    ∀ m ∈ siteMismatches quantity c s a e epsilon floor, m.belongsTo c = true := by
  intro m hm
  obtain ⟨x, _, _, rfl⟩ := exists_of_mem_siteMismatches hm
  exact belongsTo_ofValues hquantity

end

/-! ## Relabelling -/

theorem scalarMismatches_relabel (quantity : String) (c c' : Nat)
    (actual expected epsilon floor : Float) :
    scalarMismatches quantity c actual expected epsilon floor =
      (scalarMismatches quantity c' actual expected epsilon floor).map (Mismatch.relabel c) := by
  unfold scalarMismatches
  split
  · rfl
  · rfl

theorem siteMismatches_relabel {quantity : String} {c c' : Nat} {s s' : Shape}
    {a a' e e' : Site → Float} {epsilon floor : Float} (hsites : s.sites = s'.sites)
    (ha : ∀ x ∈ s.sites, a x = a' x) (he : ∀ x ∈ s.sites, e x = e' x) :
    siteMismatches quantity c s a e epsilon floor =
      (siteMismatches quantity c' s' a' e' epsilon floor).map (Mismatch.relabel c) := by
  have hfilter : s.sites.filter (fun x => !nearlyEqual (a x) (e x) epsilon floor) =
      s'.sites.filter fun x => !nearlyEqual (a' x) (e' x) epsilon floor := by
    rw [← hsites]
    exact List.filter_congr fun x hx => by rw [ha x hx, he x hx]
  rw [siteMismatches, siteMismatches, List.map_map, ← hfilter]
  refine List.map_congr_left fun x hx => ?_
  have hmem := List.mem_of_mem_filter hx
  rw [ha x hmem, he x hmem]
  rfl

/-! ## Configurations -/

/-- Two configurations that treat a channel in the same way: the extents of a
channel, the modes, the precision and the tolerance are the same. The number of
channels, the threads and the check of the padding may differ. -/
structure RunConfig.Alike (config config' : RunConfig) : Prop where
  shape : config.shape.oneChannel = config'.shape.oneChannel
  normalization : config.normalization = config'.normalization
  precision : config.precision = config'.precision
  tolerance : config.tolerance = config'.tolerance

namespace RunConfig.Alike

variable {config config' : RunConfig}

theorem sites (h : config.Alike config') : config.shape.sites = config'.shape.sites := by
  rw [← Shape.oneChannel_sites, h.shape, Shape.oneChannel_sites]

theorem reductionSize (h : config.Alike config') :
    config.shape.reductionSize = config'.shape.reductionSize := by
  rw [← Shape.oneChannel_reductionSize, h.shape, Shape.oneChannel_reductionSize]

theorem epsilon (h : config.Alike config') : config.epsilon = config'.epsilon := by
  rw [RunConfig.epsilon, RunConfig.epsilon, Tolerance.epsilonFor, Tolerance.epsilonFor,
    h.reductionSize, h.tolerance]

end RunConfig.Alike

/-! ## Forward runs -/

/-- Two channels agree on what a forward run of a configuration reads. -/
structure ForwardChannel.Agree (config : RunConfig) (ch ch' : ForwardChannel) : Prop where
  src : ∀ x ∈ config.shape.sites, ch.src x = ch'.src x
  dst : ∀ x ∈ config.shape.sites, ch.dst x = ch'.dst x
  reported : config.normalization.exposesStatistics = true → ch.reported = ch'.reported
  affine : config.normalization.hasAffine = true → ch.affine = ch'.affine

namespace ForwardChannel

/-- The report on a channel of a forward run. -/
def report (ch : ForwardChannel) (config : RunConfig) (epsilon : Float) (c : Nat) :
    ChannelReport where
  mismatches := ch.statisticsMismatches config epsilon c ++
    upTo config.tolerance.maxReported (ch.outputMismatches config epsilon c)
  mean := some (ch.statistics config).mean
  variance := some (ch.statistics config).variance
  diffScale := none
  diffShift := none

theorem belongsTo_of_mem_statisticsMismatches {ch : ForwardChannel} {config : RunConfig}
    {epsilon : Float} {c : Nat} :
    ∀ m ∈ ch.statisticsMismatches config epsilon c, m.belongsTo c = true := by
  intro m hm
  unfold statisticsMismatches at hm
  split at hm
  · rcases List.mem_append.mp hm with hm | hm
    · exact belongsTo_of_mem_scalarMismatches (by decide) m hm
    · exact belongsTo_of_mem_scalarMismatches (by decide) m hm
  · exact absurd hm List.not_mem_nil

theorem belongsTo_of_mem_outputMismatches {ch : ForwardChannel} {config : RunConfig}
    {epsilon : Float} {c : Nat} :
    ∀ m ∈ ch.outputMismatches config epsilon c, m.belongsTo c = true :=
  belongsTo_of_mem_siteMismatches (by decide)

variable {config config' : RunConfig} {ch ch' : ForwardChannel}

theorem statistics_congr (halike : config.Alike config') (h : ch.Agree config ch') :
    ch.statistics config = ch'.statistics config' := by
  have hvalues : config.shape.sites.map ch.src = config'.shape.sites.map ch'.src := by
    rw [← halike.sites]
    exact List.map_congr_left h.src
  unfold statistics
  rw [hvalues, ← halike.normalization]
  -- supplied statistics are exposed, so the channels agree on them
  split
  · rfl
  · rename_i hcompute
    exact h.reported (by simp [Normalization.exposesStatistics, hcompute])

theorem expected_congr (halike : config.Alike config') (h : ch.Agree config ch') {x : Site}
    (hx : x ∈ config.shape.sites) : ch.expected config x = ch'.expected config' x := by
  have haffine : (if config'.normalization.hasAffine then some ch.affine else none) =
      if config'.normalization.hasAffine then some ch'.affine else none := by
    by_cases hflag : config'.normalization.hasAffine = true
    · rw [if_pos hflag, if_pos hflag, h.affine (halike.normalization ▸ hflag)]
    · rw [if_neg hflag, if_neg hflag]
  simp only [expected, statistics_congr halike h, h.src x hx, halike.normalization,
    halike.precision, haffine]

/-- **Independence.** The report on a channel depends on nothing but what is read
of it. -/
theorem report_congr (halike : config.Alike config') (h : ch.Agree config ch') (epsilon : Float)
    (c c' : Nat) : ch.report config epsilon c = (ch'.report config' epsilon c').relabel c := by
  have hstatistics : ch.statisticsMismatches config epsilon c =
      (ch'.statisticsMismatches config' epsilon c').map (Mismatch.relabel c) := by
    unfold statisticsMismatches
    rw [statistics_congr halike h, ← halike.normalization, ← halike.tolerance]
    split
    · rename_i hflags
      have hreported := h.reported (by
        simp only [Bool.and_eq_true] at hflags
        simp [Normalization.exposesStatistics, hflags])
      rw [List.map_append, hreported, ← scalarMismatches_relabel, ← scalarMismatches_relabel]
    · rfl
  have houtput : ch.outputMismatches config epsilon c =
      (ch'.outputMismatches config' epsilon c').map (Mismatch.relabel c) := by
    unfold outputMismatches
    rw [← halike.precision, ← halike.tolerance]
    exact siteMismatches_relabel halike.sites h.dst fun x hx => expected_congr halike h hx
  simp only [report, ChannelReport.relabel, hstatistics, houtput, statistics_congr halike h,
    halike.tolerance, upTo_map, List.map_append]

end ForwardChannel

theorem channelReport_forwardVerdict {config : RunConfig} {b : ForwardBuffers} {src dst : Tensor}
    {d : Buffer} {l : Layout} {epsilon : Float} {c : Nat} (hc : c < config.shape.channels) :
    (forwardVerdict config b src dst (nonzeroCells "dst" d l) epsilon
      (upTo config.tolerance.maxReported)).channelReport c =
        (b.channel src dst c).report config epsilon c := by
  have hmismatches : (forwardVerdict config b src dst (nonzeroCells "dst" d l) epsilon
      (upTo config.tolerance.maxReported)).mismatches.filter (·.belongsTo c) =
        ((b.channel src dst c).report config epsilon c).mismatches :=
    filter_mergeMismatches hc (fun _ _ => mem_of_mem_upTo)
      (fun _ => ForwardChannel.belongsTo_of_mem_statisticsMismatches)
      (fun _ => ForwardChannel.belongsTo_of_mem_outputMismatches)
      (isPadding_of_mem_nonzeroCells (by decide))
  rw [Verdict.channelReport, hmismatches]
  simp [forwardVerdict, ForwardChannel.report, hc]

/-- What an accepted forward run reports on a channel. -/
theorem ForwardView.Of.channelReport_eq {v : ForwardView} {b : ForwardBuffers} {config : RunConfig}
    (h : v.Of b config) {c : Nat} (hc : c < config.shape.channels) :
    (verifyForward config b false).result.map (Verdict.channelReport c) =
      config.epsilon.map fun epsilon =>
        (b.channel (v.srcLayout.unpacked v.src) (v.dstLayout.unpacked v.dst) c).report config
          epsilon c := by
  rw [h.verifyForward_result, bind_conclude_false, map_map]
  exact congrArg (Except.map · config.epsilon) (funext fun _ => channelReport_forwardVerdict hc)

/-- Two forward runs report the same on channels that agree. -/
theorem ForwardView.Of.report_congr {v v' : ForwardView} {b b' : ForwardBuffers}
    {config config' : RunConfig} {c c' : Nat} (h : v.Of b config) (h' : v'.Of b' config')
    (hc : c < config.shape.channels) (hc' : c' < config'.shape.channels)
    (halike : config.Alike config')
    (hagree : (b.channel (v.srcLayout.unpacked v.src) (v.dstLayout.unpacked v.dst) c).Agree config
      (b'.channel (v'.srcLayout.unpacked v'.src) (v'.dstLayout.unpacked v'.dst) c')) :
    (verifyForward config b false).result.map (Verdict.channelReport c) =
      (verifyForward config' b' false).result.map fun verdict =>
        (verdict.channelReport c').relabel c := by
  refine channelReport_eq_relabel (h.channelReport_eq hc) ?_ fun epsilon =>
    ForwardChannel.report_congr halike hagree epsilon c c'
  rw [halike.epsilon]
  exact h'.channelReport_eq hc'

/-! ## Backward runs -/

/-- Two channels agree on what a backward run of a configuration reads. -/
structure BackwardChannel.Agree (config : RunConfig) (ch ch' : BackwardChannel) : Prop where
  src : ∀ x ∈ config.shape.sites, ch.src x = ch'.src x
  diffDst : ∀ x ∈ config.shape.sites, ch.diffDst x = ch'.diffDst x
  diffSrc : ∀ x ∈ config.shape.sites, ch.diffSrc x = ch'.diffSrc x
  statistics : ch.statistics = ch'.statistics
  scale : config.normalization.hasAffine = true → ch.scale = ch'.scale
  reported : config.backwardMode = some .dataAndParameters → ch.reported = ch'.reported

namespace BackwardChannel

/-- The report on a channel of a backward run. -/
def report (ch : BackwardChannel) (config : RunConfig) (epsilon : Float) (c : Nat) :
    ChannelReport where
  mismatches := ch.parameterMismatches config epsilon c ++
    upTo config.tolerance.maxReported (ch.inputMismatches config epsilon c)
  mean := some ch.statistics.mean
  variance := some ch.statistics.variance
  diffScale := some (ch.gradients config).diffScale
  diffShift := some (ch.gradients config).diffShift

theorem belongsTo_of_mem_parameterMismatches {ch : BackwardChannel} {config : RunConfig}
    {epsilon : Float} {c : Nat} :
    ∀ m ∈ ch.parameterMismatches config epsilon c, m.belongsTo c = true := by
  intro m hm
  unfold parameterMismatches at hm
  split at hm
  · rcases List.mem_append.mp hm with hm | hm
    · exact belongsTo_of_mem_scalarMismatches (by decide) m hm
    · exact belongsTo_of_mem_scalarMismatches (by decide) m hm
  · exact absurd hm List.not_mem_nil

theorem belongsTo_of_mem_inputMismatches {ch : BackwardChannel} {config : RunConfig}
    {epsilon : Float} {c : Nat} :
    ∀ m ∈ ch.inputMismatches config epsilon c, m.belongsTo c = true :=
  belongsTo_of_mem_siteMismatches (by decide)

variable {config config' : RunConfig} {ch ch' : BackwardChannel}

theorem inverse_congr (halike : config.Alike config') (h : ch.Agree config ch') :
    ch.inverse config = ch'.inverse config' := by
  rw [inverse, inverse, h.statistics, halike.normalization]

theorem gradients_congr (halike : config.Alike config') (h : ch.Agree config ch') :
    ch.gradients config = ch'.gradients config' := by
  have hproducts : (config.shape.sites.map fun x => (ch.src x - ch.statistics.mean) * ch.diffDst x) =
      config'.shape.sites.map fun x => (ch'.src x - ch'.statistics.mean) * ch'.diffDst x := by
    rw [← halike.sites]
    exact List.map_congr_left fun x hx => by rw [h.src x hx, h.diffDst x hx, h.statistics]
  have hgrads : config.shape.sites.map ch.diffDst = config'.shape.sites.map ch'.diffDst := by
    rw [← halike.sites]
    exact List.map_congr_left h.diffDst
  rw [gradients, gradients, inverse_congr halike h, hproducts, hgrads]

theorem expected_congr (halike : config.Alike config') (h : ch.Agree config ch') {x : Site}
    (hx : x ∈ config.shape.sites) : ch.expected config x = ch'.expected config' x := by
  have hgamma : (if config'.normalization.hasAffine then ch.scale else 1) =
      if config'.normalization.hasAffine then ch'.scale else 1 := by
    by_cases hflag : config'.normalization.hasAffine = true
    · rw [if_pos hflag, if_pos hflag, h.scale (halike.normalization ▸ hflag)]
    · rw [if_neg hflag, if_neg hflag]
  simp only [expected, inverse_congr halike h, gradients_congr halike h, h.src x hx,
    h.diffDst x hx, h.statistics, halike.normalization, halike.reductionSize, hgamma]

/-- **Independence.** The report on a channel depends on nothing but what is read
of it. -/
theorem report_congr (halike : config.Alike config')
    (hmode : config.backwardMode = config'.backwardMode) (h : ch.Agree config ch')
    (epsilon : Float) (c c' : Nat) :
    ch.report config epsilon c = (ch'.report config' epsilon c').relabel c := by
  have hparameters : ch.parameterMismatches config epsilon c =
      (ch'.parameterMismatches config' epsilon c').map (Mismatch.relabel c) := by
    unfold parameterMismatches
    rw [gradients_congr halike h, ← hmode, ← halike.tolerance]
    split
    · rename_i hparameters
      rw [List.map_append, h.reported hparameters, ← scalarMismatches_relabel,
        ← scalarMismatches_relabel]
    · rfl
  have hinput : ch.inputMismatches config epsilon c =
      (ch'.inputMismatches config' epsilon c').map (Mismatch.relabel c) := by
    unfold inputMismatches
    rw [← halike.tolerance]
    exact siteMismatches_relabel halike.sites h.diffSrc fun x hx => expected_congr halike h hx
  simp only [report, ChannelReport.relabel, hparameters, hinput, gradients_congr halike h,
    h.statistics, halike.tolerance, upTo_map, List.map_append]

end BackwardChannel

theorem channelReport_backwardVerdict {config : RunConfig} {b : BackwardBuffers}
    {src diffDst diffSrc : Tensor} {d : Buffer} {l : Layout} {epsilon : Float} {c : Nat}
    (hc : c < config.shape.channels) :
    (backwardVerdict config b src diffDst diffSrc (nonzeroCells "diff_src" d l) epsilon
      (upTo config.tolerance.maxReported)).channelReport c =
        (b.channel src diffDst diffSrc c).report config epsilon c := by
  have hmismatches : (backwardVerdict config b src diffDst diffSrc
      (nonzeroCells "diff_src" d l) epsilon
      (upTo config.tolerance.maxReported)).mismatches.filter (·.belongsTo c) =
        ((b.channel src diffDst diffSrc c).report config epsilon c).mismatches :=
    filter_mergeMismatches hc (fun _ _ => mem_of_mem_upTo)
      (fun _ => BackwardChannel.belongsTo_of_mem_parameterMismatches)
      (fun _ => BackwardChannel.belongsTo_of_mem_inputMismatches)
      (isPadding_of_mem_nonzeroCells (by decide))
  rw [Verdict.channelReport, hmismatches]
  simp [backwardVerdict, BackwardChannel.report, BackwardBuffers.channel, hc]

/-- What an accepted backward run with elements reports on a channel. -/
theorem BackwardView.Of.channelReport_eq {v : BackwardView} {b : BackwardBuffers}
    {config : RunConfig} (h : v.Of b config) {c : Nat} (hc : c < config.shape.channels) :
    (verifyBackward config b false).result.map (Verdict.channelReport c) =
      config.epsilon.map fun epsilon =>
        (b.channel (v.srcLayout.unpacked v.src) (v.diffDstLayout.unpacked v.diffDst)
          (v.diffSrcLayout.unpacked v.diffSrc) c).report config epsilon c := by
  rw [h.verifyBackward_result, bind_conclude_false, map_map]
  exact congrArg (Except.map · config.epsilon) (funext fun _ => channelReport_backwardVerdict hc)

/-- Two backward runs report the same on channels that agree. -/
theorem BackwardView.Of.report_congr {v v' : BackwardView} {b b' : BackwardBuffers}
    {config config' : RunConfig} {c c' : Nat} (h : v.Of b config) (h' : v'.Of b' config')
    (hc : c < config.shape.channels) (hc' : c' < config'.shape.channels)
    (halike : config.Alike config') (hmode : config.backwardMode = config'.backwardMode)
    (hagree : (b.channel (v.srcLayout.unpacked v.src) (v.diffDstLayout.unpacked v.diffDst)
        (v.diffSrcLayout.unpacked v.diffSrc) c).Agree config
      (b'.channel (v'.srcLayout.unpacked v'.src) (v'.diffDstLayout.unpacked v'.diffDst)
        (v'.diffSrcLayout.unpacked v'.diffSrc) c')) :
    (verifyBackward config b false).result.map (Verdict.channelReport c) =
      (verifyBackward config' b' false).result.map fun verdict =>
        (verdict.channelReport c').relabel c := by
  refine channelReport_eq_relabel (h.channelReport_eq hc) ?_ fun epsilon =>
    BackwardChannel.report_congr halike hmode hagree epsilon c c'
  rw [halike.epsilon]
  exact h'.channelReport_eq hc'

end BatchNorm
