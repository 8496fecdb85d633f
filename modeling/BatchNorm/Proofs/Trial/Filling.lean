import BatchNorm.Proofs.Buffer.Clearing
import BatchNorm.Proofs.Trial.CaseRun

/-!
# The buffers of a case

Filling buffers does nothing to a bench but draw numbers (`Trial.Fills`), and where there
is room for them it succeeds. The buffers then have the form that the configuration asks
for: their lengths, element types and layouts are settled (`fills_forwardBuffers`,
`fills_backwardBuffers`). What holds of a step's result only when there is one is said by
`Trial.Yields`.
-/

set_option autoImplicit false

namespace BatchNorm

variable {γ σ α β : Type}

namespace Trial

/-! ## Steps that draw numbers -/

/-- A step that succeeds with a result of some kind, and does nothing to a bench but draw
numbers. -/
def Fills (step : Trial γ σ α) (P : α → Prop) : Prop :=
  ∀ bench : Bench γ σ, ∃ a source, step.runOn bench = (.ok a, bench.withSource source) ∧ P a

theorem fills_pure {P : α → Prop} {a : α} (h : P a) : (pure a : Trial γ σ α).Fills P :=
  fun bench => ⟨a, bench.source, rfl, h⟩

theorem fills_ofExcept {P : α → Prop} {x : Except Failure α} {a : α} (hx : x = .ok a) (h : P a) :
    (ofExcept x : Trial γ σ α).Fills P :=
  fun bench => ⟨a, bench.source, by rw [runOn_ofExcept, hx]; rfl, h⟩

theorem fills_draw {P : α → Prop} {next : γ → α × γ} (h : ∀ g, P (next g).1) :
    (draw next : Trial γ σ α).Fills P :=
  fun bench => ⟨_, _, runOn_draw next, h bench.source⟩

theorem Fills.bind {P : α → Prop} {Q : β → Prop} {x : Trial γ σ α} {f : α → Trial γ σ β}
    (hx : x.Fills P) (hf : ∀ a, P a → (f a).Fills Q) : (x >>= f).Fills Q := by
  intro bench
  obtain ⟨a, source, hrun, ha⟩ := hx bench
  obtain ⟨b, source', hrun', hb⟩ := hf a ha (bench.withSource source)
  exact ⟨b, source', (runOn_bind_of_ok hrun).trans hrun', hb⟩

theorem Fills.map {P : α → Prop} {Q : β → Prop} {x : Trial γ σ α} {f : α → β} (hx : x.Fills P)
    (hf : ∀ a, P a → Q (f a)) : (f <$> x).Fills Q := by
  rw [map_eq_pure_bind]
  exact hx.bind fun a ha => fills_pure (hf a ha)

/-- Whatever a step gives when it succeeds is of some kind. -/
def Yields (step : Trial γ σ α) (P : α → Prop) : Prop :=
  ∀ ⦃bench last : Bench γ σ⦄ ⦃a : α⦄, step.runOn bench = (.ok a, last) → P a

theorem yields_trivial (step : Trial γ σ α) : step.Yields fun _ => True := fun _ _ _ _ => trivial

theorem yields_pure {P : α → Prop} {a : α} (h : P a) : (pure a : Trial γ σ α).Yields P := by
  intro bench last a' hrun
  cases hrun
  exact h

theorem yields_ofExcept {P : α → Prop} {x : Except Failure α} (h : ∀ a, x = .ok a → P a) :
    (ofExcept x : Trial γ σ α).Yields P := by
  intro bench last a hrun
  rw [runOn_ofExcept] at hrun
  exact h a (Prod.mk.inj hrun).1

theorem yields_draw {P : α → Prop} {next : γ → α × γ} (h : ∀ g, P (next g).1) :
    (draw next : Trial γ σ α).Yields P := by
  intro bench last a hrun
  cases hrun
  exact h bench.source

theorem Yields.bind {P : α → Prop} {Q : β → Prop} {x : Trial γ σ α} {f : α → Trial γ σ β}
    (hx : x.Yields P) (hf : ∀ a, P a → (f a).Yields Q) : (x >>= f).Yields Q := by
  intro bench last b hrun
  obtain ⟨a, middle, ha, hb⟩ := runOn_bind_eq_ok_iff.mp hrun
  exact hf a (hx ha) hb

end Trial

/-! ## The form of buffers -/

/-- The element type and the length of a buffer. -/
def Buffer.form (b : Buffer) : ElementType × Nat := (b.type, b.size)

theorem length_drawMany (draw : γ → α × γ) (count : Nat) (g : γ) :
    (drawMany draw count g).1.length = count := by
  induction count generalizing g with
  | zero => rfl
  | succ count ih =>
      show ((draw g).1 :: (drawMany draw count (draw g).2).1).length = count + 1
      rw [List.length_cons, ih]

theorem form_ofFloats (type : ElementType) (xs : List Float) :
    (Buffer.ofFloats type xs).form = (type, xs.length) := by
  simp [Buffer.form, Buffer.ofFloats, Buffer.ofList, Buffer.size]

section

variable [RandomSource γ]

theorem form_fillData (size : Nat) (type : ElementType) (g : γ) :
    (fillData size type g).1.form = (type, size) := by
  cases type with
  | integer t =>
      simp [fillData, Buffer.form, Buffer.ofList, Buffer.size, length_drawMany]
  | float32 => simp [fillData, form_ofFloats, length_drawMany]
  | float64 => simp [fillData, form_ofFloats, length_drawMany]
  | bool => simp [fillData, form_ofFloats, length_drawMany]

theorem form_fillVariance (size : Nat) (g : γ) :
    (fillVariance size g).1.form = (.float32, size) := by
  simp [fillVariance, form_ofFloats, length_drawMany]

end

/-! ## Room -/

/-- There is room to draw a number for each channel. -/
def Shape.DrawsFit (s : Shape) : Prop := demandDraws s.channels = .ok ()

/-- There is room for a zero for each channel. -/
def Shape.ZerosFit (s : Shape) : Prop :=
  Buffer.demandDims ElementType.float32.bytes [s.channels] = .ok ()

theorem demandDraws_eq_ok_iff {count : Nat} :
    demandDraws count = .ok () ↔ ElementType.float64.bytes * max 1 count < 2 ^ 63 := by
  rw [demandDraws, demandDims_eq_ok_iff, List.map_singleton, List.prod_singleton]

/-- Numbers that are drawn take more room than the zeros. -/
theorem Shape.DrawsFit.zerosFit {s : Shape} (h : s.DrawsFit) : s.ZerosFit := by
  have hdraws := demandDraws_eq_ok_iff.mp h
  rw [ZerosFit, demandDims_eq_ok_iff, List.map_singleton, List.prod_singleton]
  refine lt_of_le_of_lt (Nat.mul_le_mul_right _ ?_) hdraws
  decide

/-- There is room for an activation of a layout: for the numbers that are drawn, and for the
table of the padding. -/
structure Layout.Roomy (l : Layout) : Prop where
  draws : demandDraws l.size = .ok ()
  padding : l.Paddable

/-- The table of the sites, where there are elements, exists. -/
def Layout.SitesFit (l : Layout) : Prop := l.shape.isEmpty = false → l.demandSites = .ok ()

/-- The sites are those of the shape. -/
theorem Layout.SitesFit.of_shape_eq {l l' : Layout} (h : l.SitesFit) (hshape : l'.shape = l.shape) :
    l'.SitesFit := by
  unfold SitesFit demandSites
  rw [hshape]
  exact h

/-- The padding of an array has been cleared with its table. -/
theorem Layout.paddable_of_clearPadding {l : Layout} {held cleared : Held}
    (h : Held.clearPadding held l = .ok cleared) : l.Paddable := by
  intro hpad
  rw [Held.clearPadding, if_pos hpad] at h
  obtain ⟨_, hindices, _⟩ := bind_eq_ok_iff.mp h
  exact demandPadding_of_paddingIndices hindices

namespace Layout.Roomy

variable {l : Layout}

theorem size_lt (h : l.Roomy) : l.size < 2 ^ 63 := by
  have hdraws := demandDraws_eq_ok_iff.mp h.draws
  refine lt_of_le_of_lt ((Nat.le_max_right 1 _).trans (Nat.le_mul_of_pos_left _ ?_)) hdraws
  decide

theorem paddingInWords (h : l.Roomy) : l.PaddingInWords := h.padding.inWords h.size_lt

end Layout.Roomy

namespace Trial

theorem fills_zeros {s : Shape} (h : s.ZerosFit) :
    (ofExcept (Buffer.allocate .float32 s.channels) : Trial γ σ Buffer).Fills
      (·.form = (.float32, s.channels)) := by
  refine fills_ofExcept (a := .zeros .float32 s.channels) ?_ ?_
  · rw [Buffer.allocate, h]
    rfl
  · simp [Buffer.form, Buffer.zeros, Buffer.size]

theorem fills_drawBuffer {P : Buffer → Prop} {count : Nat} {fill : Nat → γ → Buffer × γ}
    (hroom : demandDraws count = .ok ()) (hform : ∀ g, P (fill count g).1) :
    (drawBuffer count fill : Trial γ σ Buffer).Fills P :=
  (fills_ofExcept (P := fun _ => True) hroom trivial).bind fun _ _ => fills_draw hform

/-- What has been drawn had room. -/
theorem yields_drawBuffer {P : Buffer → Prop} {count : Nat} {fill : Nat → γ → Buffer × γ}
    (hform : ∀ g, P (fill count g).1) :
    (drawBuffer count fill : Trial γ σ Buffer).Yields fun b => demandDraws count = .ok () ∧ P b :=
  (yields_ofExcept (P := fun _ => demandDraws count = .ok ()) fun _ h => h).bind fun _ hroom =>
    yields_draw fun g => ⟨hroom, hform g⟩

variable [RandomSource γ]

theorem fills_channelData {s : Shape} (h : s.DrawsFit) :
    (channelData s.channels : Trial γ σ Buffer).Fills (·.form = (.float32, s.channels)) :=
  fills_drawBuffer h fun g => form_fillData s.channels .float32 g

theorem fills_variance {s : Shape} (h : s.DrawsFit) :
    (drawBuffer s.channels fillVariance : Trial γ σ Buffer).Fills
      (·.form = (.float32, s.channels)) :=
  fills_drawBuffer h fun g => form_fillVariance s.channels g

theorem fills_activation {l : Layout} (h : l.Roomy) (type : ElementType) :
    (activation l type : Trial γ σ Buffer).Fills (·.form = (type, l.size)) := by
  unfold activation
  refine (fills_drawBuffer (P := (·.form = (type, l.size))) h.draws
    fun g => form_fillData l.size type g).bind fun filled hfilled => ?_
  have hsize : filled.size = l.size := (Prod.mk.inj hfilled).2
  obtain ⟨values, hclear, hcleared⟩ :=
    Layout.exists_cleared h.paddingInWords fun hlacks => hlacks.2.ne hsize
  refine (fills_ofExcept (P := fun held : Held => held.elements.form = (type, l.size))
    hclear ?_).bind fun _ hform => fills_pure hform
  rw [← hfilled]
  exact Prod.ext rfl hcleared.size

/-- An activation is made of as many numbers as its layout has places, by clearing the
padding, and it had room. -/
theorem yields_activation (l : Layout) (type : ElementType) :
    (activation l type : Trial γ σ Buffer).Yields fun b => l.Roomy ∧
      ∃ (filled : Buffer) (held : Held), filled.size = l.size ∧
        Held.clearPadding (some (.ofBuffer filled)) l = .ok held ∧ b = held.elements := by
  unfold activation
  refine (yields_drawBuffer (P := (·.form = (type, l.size)))
    fun g => form_fillData l.size type g).bind fun filled hfilled => ?_
  obtain ⟨hdraws, hform⟩ := hfilled
  refine (yields_ofExcept fun held h => h).bind fun held hclear => yields_pure ?_
  exact ⟨⟨hdraws, Layout.paddable_of_clearPadding hclear⟩, filled, held, (Prod.mk.inj hform).2,
    hclear, rfl⟩

end Trial

/-! ## Forward buffers -/

/-- The buffers of a forward case: of the layout and the precision, and with a value for
each channel. -/
structure ForwardBuffers.Prepared (b : ForwardBuffers) (config : RunConfig) (layout : Layout) :
    Prop where
  src : b.src.map Buffer.form = some (config.precision.elementType, layout.size)
  dst : b.dst.map Buffer.form = some (config.precision.elementType, layout.size)
  srcLayout : b.srcLayout = layout
  dstLayout : b.dstLayout = some layout
  mean : b.mean.map Buffer.form = some (.float32, config.shape.channels)
  variance : b.variance.map Buffer.form = some (.float32, config.shape.channels)
  affine : config.normalization.hasAffine = true →
    b.scale.map Buffer.form = some (.float32, config.shape.channels) ∧
      b.shift.map Buffer.form = some (.float32, config.shape.channels)

/-- There is room for the buffers of a forward case: zeros for statistics that the run
computes, and draws for supplied ones and for affine parameters. -/
structure ForwardRoom (s : Shape) (normalization : Normalization) (layout : Layout) : Prop where
  activations : layout.Roomy
  computed : normalization.computeStatistics = true → s.ZerosFit
  supplied : normalization.computeStatistics = false → s.DrawsFit
  affine : normalization.hasAffine = true → s.DrawsFit

namespace Trial

variable [RandomSource γ] {config : RunConfig} {layout diffLayout : Layout}

/-- The statistics of a forward case: zeros if the run computes them, else drawn. -/
def forwardStatistics (config : RunConfig) : Trial γ σ (Buffer × Buffer) :=
  if config.normalization.computeStatistics then do
    let zeros ← ofExcept (Buffer.allocate .float32 config.shape.channels)
    return (zeros, zeros)
  else do
    let mean ← channelData config.shape.channels
    let variance ← drawBuffer config.shape.channels fillVariance
    return (mean, variance)

/-- The scales and shifts of a forward case. -/
def affineParameters (config : RunConfig) : Trial γ σ (Option Buffer × Option Buffer) :=
  if config.normalization.hasAffine then do
    let scale ← channelData config.shape.channels
    let shift ← channelData config.shape.channels
    return (some scale, some shift)
  else return (none, none)

theorem forwardBuffers_eq (config : RunConfig) (layout : Layout) :
    (forwardBuffers config layout : Trial γ σ ForwardBuffers) = do
      let statistics ← forwardStatistics config
      let affine ← affineParameters config
      let src ← activation layout config.precision.elementType
      let dst ← activation layout config.precision.elementType
      return {
        src := some src, dst := some dst, srcLayout := layout, dstLayout := some layout
        mean := some statistics.1, variance := some statistics.2
        scale := affine.1, shift := affine.2 } := by
  unfold forwardBuffers forwardStatistics affineParameters
  cases config.normalization.computeStatistics <;> cases config.normalization.hasAffine <;>
    simp

theorem fills_forwardStatistics (hroom : ForwardRoom config.shape config.normalization layout) :
    (forwardStatistics config : Trial γ σ (Buffer × Buffer)).Fills fun statistics =>
      statistics.1.form = (.float32, config.shape.channels) ∧
        statistics.2.form = (.float32, config.shape.channels) := by
  unfold forwardStatistics
  split
  · rename_i hcompute
    exact (fills_zeros (hroom.computed hcompute)).bind fun zeros hzeros =>
      fills_pure ⟨hzeros, hzeros⟩
  · rename_i hsupplied
    have hdraws := hroom.supplied (Bool.eq_false_iff.mpr hsupplied)
    exact (fills_channelData hdraws).bind fun mean hmean =>
      (fills_variance hdraws).bind fun variance hvariance => fills_pure ⟨hmean, hvariance⟩

theorem fills_affineParameters (hroom : ForwardRoom config.shape config.normalization layout) :
    (affineParameters config : Trial γ σ (Option Buffer × Option Buffer)).Fills fun affine =>
      config.normalization.hasAffine = true →
        affine.1.map Buffer.form = some (.float32, config.shape.channels) ∧
          affine.2.map Buffer.form = some (.float32, config.shape.channels) := by
  unfold affineParameters
  split
  · have hdraws := hroom.affine ‹_›
    exact (fills_channelData hdraws).bind fun scale hscale =>
      (fills_channelData hdraws).bind fun shift hshift =>
        fills_pure fun _ => ⟨congrArg some hscale, congrArg some hshift⟩
  · exact fills_pure fun hflag => absurd hflag ‹_›

/-- The buffers of a forward case are as the configuration asks for. -/
theorem fills_forwardBuffers (hroom : ForwardRoom config.shape config.normalization layout) :
    (forwardBuffers config layout : Trial γ σ ForwardBuffers).Fills
      (·.Prepared config layout) := by
  have hactivation :=
    fills_activation (γ := γ) (σ := σ) hroom.activations config.precision.elementType
  rw [forwardBuffers_eq]
  refine (fills_forwardStatistics hroom).bind fun statistics hstatistics => ?_
  refine (fills_affineParameters hroom).bind fun affine haffine => ?_
  refine hactivation.bind fun src hsrc => hactivation.bind fun dst hdst => fills_pure ?_
  exact ⟨congrArg some hsrc, congrArg some hdst, rfl, rfl, congrArg some hstatistics.1,
    congrArg some hstatistics.2, haffine⟩

end Trial

/-! ## Backward buffers -/

/-- The buffers of a backward case: of the two layouts, and with a value for each
channel. -/
structure BackwardBuffers.Prepared (b : BackwardBuffers) (config : RunConfig) (mode : BackwardMode)
    (layout diffLayout : Layout) : Prop where
  src : b.src.map Buffer.form = some (.float32, layout.size)
  diffDst : b.diffDst.map Buffer.form = some (.float32, diffLayout.size)
  diffSrc : b.diffSrc.map Buffer.form = some (.float32, diffLayout.size)
  srcLayout : b.srcLayout = layout
  diffDstLayout : b.diffDstLayout = some diffLayout
  diffSrcLayout : b.diffSrcLayout = some diffLayout
  mean : b.mean.map Buffer.form = some (.float32, config.shape.channels)
  variance : b.variance.map Buffer.form = some (.float32, config.shape.channels)
  scale : config.normalization.hasAffine = true →
    b.scale.map Buffer.form = some (.float32, config.shape.channels)
  gradients : mode = .dataAndParameters →
    b.diffScale.map Buffer.form = some (.float32, config.shape.channels) ∧
      b.diffShift.map Buffer.form = some (.float32, config.shape.channels)

/-- There is room for the buffers of a backward case. Statistics are drawn in any mode, and
where they fit, the zeros of the parameter gradients do. -/
structure BackwardRoom (s : Shape) (layout diffLayout : Layout) : Prop where
  source : layout.Roomy
  gradients : diffLayout.Roomy
  channels : s.DrawsFit

namespace Trial

variable {config : RunConfig} {layout diffLayout : Layout}

/-- The parameter gradients of a backward case. -/
def zeroGradients (config : RunConfig) (mode : BackwardMode) : Trial γ σ (Option Buffer) :=
  match mode with
  | .data => pure none
  | .dataAndParameters => some <$> ofExcept (Buffer.allocate .float32 config.shape.channels)

theorem fills_zeroGradients (mode : BackwardMode) (h : config.shape.ZerosFit) :
    (zeroGradients config mode : Trial γ σ (Option Buffer)).Fills fun gradients =>
      mode = .dataAndParameters →
        gradients.map Buffer.form = some (.float32, config.shape.channels) := by
  cases mode with
  | data => exact fills_pure fun hmode => by cases hmode
  | dataAndParameters => exact (fills_zeros h).map fun zeros hzeros _ => congrArg some hzeros

variable [RandomSource γ]

/-- The scales of a backward case. -/
def backwardScale (config : RunConfig) : Trial γ σ (Option Buffer) :=
  if config.normalization.hasAffine then
    some <$> channelData config.shape.channels
  else pure none

theorem backwardBuffers_eq (config : RunConfig) (mode : BackwardMode)
    (layout diffLayout : Layout) :
    (backwardBuffers config mode layout diffLayout : Trial γ σ BackwardBuffers) = do
      let scale ← backwardScale config
      let gradients ← zeroGradients config mode
      let src ← activation layout .float32
      let diffDst ← activation diffLayout .float32
      let diffSrc ← activation diffLayout .float32
      let mean ← channelData config.shape.channels
      let variance ← drawBuffer config.shape.channels fillVariance
      return {
        src := some src, diffDst := some diffDst, diffSrc := some diffSrc
        mean := some mean, variance := some variance
        srcLayout := layout, diffDstLayout := some diffLayout, diffSrcLayout := some diffLayout
        scale, diffScale := gradients, diffShift := gradients } := by
  unfold backwardBuffers backwardScale zeroGradients
  cases config.normalization.hasAffine <;> cases mode <;> simp

theorem fills_backwardScale (hdraws : config.shape.DrawsFit) :
    (backwardScale config : Trial γ σ (Option Buffer)).Fills fun scale =>
      config.normalization.hasAffine = true →
        scale.map Buffer.form = some (.float32, config.shape.channels) := by
  unfold backwardScale
  split
  · exact (fills_channelData hdraws).map fun scale hscale _ => congrArg some hscale
  · exact fills_pure fun hflag => absurd hflag ‹_›

/-- The buffers of a backward case are as the configuration asks for. -/
theorem fills_backwardBuffers (hroom : BackwardRoom config.shape layout diffLayout)
    (mode : BackwardMode) :
    (backwardBuffers config mode layout diffLayout : Trial γ σ BackwardBuffers).Fills
      (·.Prepared config mode layout diffLayout) := by
  have hactivation := fills_activation (γ := γ) (σ := σ) hroom.gradients .float32
  have hdraws := hroom.channels
  rw [backwardBuffers_eq]
  refine (fills_backwardScale hdraws).bind fun scale hscale => ?_
  refine (fills_zeroGradients mode hdraws.zerosFit).bind fun gradients hgradients => ?_
  refine (fills_activation hroom.source .float32).bind fun src hsrc => ?_
  refine hactivation.bind fun diffDst hdiffDst => hactivation.bind fun diffSrc hdiffSrc => ?_
  refine (fills_channelData hdraws).bind fun mean hmean => ?_
  refine (fills_variance hdraws).bind fun variance hvariance => fills_pure ?_
  exact ⟨congrArg some hsrc, congrArg some hdiffDst, congrArg some hdiffSrc, rfl, rfl, rfl,
    congrArg some hmean, congrArg some hvariance, hscale,
    fun hmode => ⟨hgradients hmode, hgradients hmode⟩⟩

end Trial

end BatchNorm
