import BatchNorm.Proofs.Trial.Filling
import BatchNorm.Proofs.Verify.BackwardRefusal

/-!
# Primitives that write in place

A primitive that writes into the buffers it is handed may leave any values in them, but it
keeps their form (`Primitive.WritesInPlace`). Form is all that the checks of a verification
look at, so what such a primitive leaves of the buffers of a case is accepted, as long as the
table of the sites fits. Then there are only two things that a verification can give: a
verdict, or a report on mismatches (`VerdictOrReport`).
-/

set_option autoImplicit false

namespace BatchNorm

variable {σ : Type}

/-! ## Writing in place -/

/-- Buffers of the same form: buffer for buffer the same type and length, and the same
layouts. -/
structure ForwardBuffers.SameForm (b b' : ForwardBuffers) : Prop where
  src : b.src.map Buffer.form = b'.src.map Buffer.form
  dst : b.dst.map Buffer.form = b'.dst.map Buffer.form
  srcLayout : b.srcLayout = b'.srcLayout
  dstLayout : b.dstLayout = b'.dstLayout
  mean : b.mean.map Buffer.form = b'.mean.map Buffer.form
  variance : b.variance.map Buffer.form = b'.variance.map Buffer.form
  scale : b.scale.map Buffer.form = b'.scale.map Buffer.form
  shift : b.shift.map Buffer.form = b'.shift.map Buffer.form

/-- Buffers of the same form: buffer for buffer the same type and length, and the same
layouts. -/
structure BackwardBuffers.SameForm (b b' : BackwardBuffers) : Prop where
  src : b.src.map Buffer.form = b'.src.map Buffer.form
  diffDst : b.diffDst.map Buffer.form = b'.diffDst.map Buffer.form
  diffSrc : b.diffSrc.map Buffer.form = b'.diffSrc.map Buffer.form
  mean : b.mean.map Buffer.form = b'.mean.map Buffer.form
  variance : b.variance.map Buffer.form = b'.variance.map Buffer.form
  srcLayout : b.srcLayout = b'.srcLayout
  diffDstLayout : b.diffDstLayout = b'.diffDstLayout
  diffSrcLayout : b.diffSrcLayout = b'.diffSrcLayout
  scale : b.scale.map Buffer.form = b'.scale.map Buffer.form
  diffScale : b.diffScale.map Buffer.form = b'.diffScale.map Buffer.form
  diffShift : b.diffShift.map Buffer.form = b'.diffShift.map Buffer.form

/-- A primitive that writes into the buffers which it is handed, and leaves no others. -/
structure Primitive.WritesInPlace (primitive : Primitive σ) : Prop where
  forward : ∀ config given state written state',
    primitive.forward config given state = (.ok written, state') → written.SameForm given
  backward : ∀ config given state written state',
    primitive.backward config given state = (.ok written, state') → written.SameForm given

/-- A primitive that leaves the buffers as they are. -/
def idle : Primitive Unit where
  forward _ given state := (.ok given, state)
  backward _ given state := (.ok given, state)

theorem idle_writesInPlace : idle.WritesInPlace where
  forward _ given _ written _ h := by
    cases h
    exact ⟨rfl, rfl, rfl, rfl, rfl, rfl, rfl, rfl⟩
  backward _ given _ written _ h := by
    cases h
    exact ⟨rfl, rfl, rfl, rfl, rfl, rfl, rfl, rfl, rfl, rfl, rfl⟩

theorem ForwardBuffers.Prepared.of_sameForm {b b' : ForwardBuffers} {config : RunConfig}
    {layout : Layout} (h : b'.Prepared config layout) (hform : b.SameForm b') :
    b.Prepared config layout where
  src := hform.src.trans h.src
  dst := hform.dst.trans h.dst
  srcLayout := hform.srcLayout.trans h.srcLayout
  dstLayout := hform.dstLayout.trans h.dstLayout
  mean := hform.mean.trans h.mean
  variance := hform.variance.trans h.variance
  affine hflag := ⟨hform.scale.trans (h.affine hflag).1, hform.shift.trans (h.affine hflag).2⟩

theorem BackwardBuffers.Prepared.of_sameForm {b b' : BackwardBuffers} {config : RunConfig}
    {mode : BackwardMode} {layout diffLayout : Layout}
    (h : b'.Prepared config mode layout diffLayout) (hform : b.SameForm b') :
    b.Prepared config mode layout diffLayout where
  src := hform.src.trans h.src
  diffDst := hform.diffDst.trans h.diffDst
  diffSrc := hform.diffSrc.trans h.diffSrc
  srcLayout := hform.srcLayout.trans h.srcLayout
  diffDstLayout := hform.diffDstLayout.trans h.diffDstLayout
  diffSrcLayout := hform.diffSrcLayout.trans h.diffSrcLayout
  mean := hform.mean.trans h.mean
  variance := hform.variance.trans h.variance
  scale hflag := hform.scale.trans (h.scale hflag)
  gradients hmode :=
    ⟨hform.diffScale.trans (h.gradients hmode).1, hform.diffShift.trans (h.gradients hmode).2⟩

/-! ## What is left to fail -/

theorem activation_of_form {config : RunConfig} {type : ElementType} (role : Role)
    {buffer : Option Buffer} {l : Layout} (hform : buffer.map Buffer.form = some (type, l.size))
    (hshape : l.shape = config.shape) : ∃ b, activation config type role buffer l = .ok b := by
  obtain ⟨b, hb, heq⟩ := Option.map_eq_some_iff.mp hform
  rw [Buffer.form, Prod.mk.injEq] at heq
  exact ⟨b, activation_eq_ok_iff.mpr ⟨hb, hshape, heq.2.ge, heq.1⟩⟩

theorem channelArray_of_form {channels : Nat} (role : Role) {buffer : Option Buffer}
    (hform : buffer.map Buffer.form = some (.float32, channels)) :
    ∃ b, channelArray channels role buffer = .ok b := by
  obtain ⟨b, hb, heq⟩ := Option.map_eq_some_iff.mp hform
  rw [Buffer.form, Prod.mk.injEq] at heq
  exact ⟨b, channelArray_eq_ok_iff.mpr ⟨hb, heq.2.ge, by rw [heq.1]; rfl⟩⟩

theorem size_of_form {buffer : Option Buffer} {b : Buffer} {type : ElementType} {size : Nat}
    (hform : buffer.map Buffer.form = some (type, size)) (hb : buffer = some b) : b.size = size := by
  rw [hb] at hform
  exact (Prod.mk.inj (Option.some.inj hform)).2

/-- A layout that a case of a configuration can use: it has the shape, of which the extents can
be written, and there is room for an activation. -/
structure Layout.Hosts (l : Layout) (config : RunConfig) : Prop where
  shape : l.shape = config.shape
  writable : config.shape.Writable
  roomy : l.Roomy

namespace ForwardBuffers.Prepared

variable {b : ForwardBuffers} {config : RunConfig} {layout : Layout}

theorem outputLayout_eq (h : b.Prepared config layout) : b.outputLayout = layout := by
  rw [outputLayout, h.dstLayout, Option.getD_some]

theorem statistics_eq_ok (h : b.Prepared config layout) :
    ∃ statistics, b.statistics config = .ok statistics := by
  obtain ⟨mean, hmean⟩ := channelArray_of_form .mean h.mean
  obtain ⟨variance, hvariance⟩ := channelArray_of_form .variance h.variance
  unfold ForwardBuffers.statistics
  split
  · exact ⟨_, by rw [hmean, ok_bind, hvariance, ok_bind]; rfl⟩
  · exact ⟨_, rfl⟩

theorem affine_eq_ok (h : b.Prepared config layout) : ∃ affine, b.affine config = .ok affine := by
  unfold ForwardBuffers.affine
  split
  · obtain ⟨hscale, hshift⟩ := h.affine ‹_›
    obtain ⟨scale, hscale⟩ := channelArray_of_form .scale hscale
    obtain ⟨shift, hshift⟩ := channelArray_of_form .shift hshift
    exact ⟨_, by rw [hscale, ok_bind, hshift, ok_bind]; rfl⟩
  · exact ⟨_, rfl⟩

/-- Buffers of the right form pass the checks. -/
theorem exists_view (h : b.Prepared config layout) (hshape : layout.shape = config.shape) :
    ∃ view, b.view config = .ok view := by
  obtain ⟨src, hsrc⟩ := activation_of_form .src h.src hshape
  obtain ⟨dst, hdst⟩ := activation_of_form .dst h.dst hshape
  obtain ⟨statistics, hstatistics⟩ := h.statistics_eq_ok
  obtain ⟨affine, haffine⟩ := h.affine_eq_ok
  rw [view_eq, h.srcLayout, h.outputLayout_eq, hsrc, ok_bind, hdst, ok_bind]
  split
  · exact ⟨none, rfl⟩
  · exact ⟨_, by rw [hstatistics, ok_bind, haffine, ok_bind]; rfl⟩

/-- The activations are as long as the layout. -/
theorem size_of_mem_activations (h : b.Prepared config layout) {a : Buffer}
    (ha : a ∈ b.activations) : a.size = layout.size := by
  have hbuffers : some a ∈ [b.src, b.dst] := List.reduceOption_mem_iff.mp ha
  rcases List.mem_pair.mp hbuffers with hsome | hsome
  · exact size_of_form h.src hsome.symm
  · exact size_of_form h.dst hsome.symm

/-- Buffers of the right form are accepted exactly if the table of the sites fits. -/
theorem accepted_iff (h : b.Prepared config layout) (hsetting : layout.Hosts config) :
    b.Accepted config ↔ layout.SitesFit := by
  have hsound := exists_view_iff.mp (h.exists_view hsetting.shape)
  rw [ForwardBuffers.accepted_iff, h.outputLayout_eq]
  constructor
  · rintro ⟨_, _, hindexable⟩ hnonempty
    rw [hsetting.shape] at hnonempty
    exact (hindexable hnonempty).sites
  · intro hsites
    refine ⟨hsound, hsetting.writable, fun hnonempty => ⟨fun a ha => ?_, ?_, ?_⟩⟩
    · rw [h.size_of_mem_activations ha]
      exact hsetting.roomy.size_lt
    · exact hsites (by rwa [hsetting.shape])
    · exact fun _ => hsetting.roomy.padding

/-- A verification of buffers of the right form gives a verdict exactly if the table of the
sites fits. -/
theorem exists_verdict_iff (h : b.Prepared config layout) (hsetting : layout.Hosts config)
    (hepsilon : ∃ epsilon, config.epsilon = .ok epsilon) :
    (∃ verdict, (verifyForward config b false).result = .ok verdict) ↔ layout.SitesFit := by
  rw [← h.accepted_iff hsetting]
  constructor
  · rintro ⟨verdict, hverdict⟩
    by_contra hrejected
    have hsound := exists_view_iff.mp (h.exists_view hsetting.shape)
    cases hverdict.symm.trans
      (verifyForward_of_not_accepted hsound hsetting.writable hrejected hepsilon false)
  · exact fun haccepted => (haccepted.concludes hepsilon).exists_quiet

/-- It fails with mismatches only, if the table of the sites fits. -/
theorem verdictOrReport (h : b.Prepared config layout) (hsetting : layout.Hosts config)
    (hsites : layout.SitesFit) (hepsilon : ∃ epsilon, config.epsilon = .ok epsilon) {raise : Bool}
    (hlimit : raise = true → ∃ limit, config.tolerance.maxReported = some limit ∧ 0 ≤ limit) :
    VerdictOrReport (verifyForward config b raise).result :=
  (((h.accepted_iff hsetting).mpr hsites).concludes hepsilon).verdictOrReport hlimit

end ForwardBuffers.Prepared

namespace BackwardBuffers.Prepared

variable {b : BackwardBuffers} {config : RunConfig} {mode : BackwardMode}
  {layout diffLayout : Layout}

theorem outputLayout_eq (h : b.Prepared config mode layout diffLayout) :
    b.outputLayout = diffLayout := by
  rw [outputLayout, h.diffSrcLayout, Option.getD_some]

theorem parameters_eq_ok (h : b.Prepared config mode layout diffLayout)
    (hprecision : config.precision = .f32) (hmode : config.backwardMode = some mode) :
    ∃ parameters, b.parameters config = .ok parameters := by
  cases mode with
  | data => exact ⟨none, parameters_eq_ok_iff.mpr ⟨hprecision, Or.inl ⟨hmode, rfl⟩⟩⟩
  | dataAndParameters =>
      obtain ⟨hscale, hshift⟩ := h.gradients rfl
      obtain ⟨diffScale, hscale⟩ := channelArray_of_form .diffScale hscale
      obtain ⟨diffShift, hshift⟩ := channelArray_of_form .diffShift hshift
      exact ⟨some ⟨diffScale, diffShift⟩, parameters_eq_ok_iff.mpr
        ⟨hprecision, Or.inr ⟨hmode, _, rfl, hscale, hshift⟩⟩⟩

theorem scales_eq_ok (h : b.Prepared config mode layout diffLayout) :
    ∃ scale, b.scales config = .ok scale := by
  unfold scales
  split
  · obtain ⟨scale, hscale⟩ := channelArray_of_form .scale (h.scale ‹_›)
    exact ⟨_, by rw [hscale]; rfl⟩
  · exact ⟨_, rfl⟩

/-- Buffers of the right form pass the checks. -/
theorem checks (h : b.Prepared config mode layout diffLayout)
    (hshape : layout.shape = config.shape) (hdiffShape : diffLayout.shape = config.shape)
    (hprecision : config.precision = .f32) (hmode : config.backwardMode = some mode) :
    b.Checks config := by
  have hgradient : b.gradientLayout = diffLayout := by
    rw [gradientLayout, h.diffDstLayout, Option.getD_some]
  obtain ⟨parameters, hparameters⟩ := h.parameters_eq_ok hprecision hmode
  obtain ⟨src, hsrc⟩ := activation_of_form .src h.src hshape
  obtain ⟨diffDst, hdiffDst⟩ := activation_of_form .diffDst h.diffDst hdiffShape
  obtain ⟨diffSrc, hdiffSrc⟩ := activation_of_form .diffSrc h.diffSrc hdiffShape
  obtain ⟨mean, hmean⟩ := channelArray_of_form .mean h.mean
  obtain ⟨variance, hvariance⟩ := channelArray_of_form .variance h.variance
  obtain ⟨scale, hscale⟩ := h.scales_eq_ok
  refine ⟨parameters, hparameters, fun _ => ?_⟩
  rw [view_eq, h.srcLayout, hgradient, h.outputLayout_eq, hsrc, ok_bind, hdiffDst, ok_bind,
    hdiffSrc, ok_bind, hmean, ok_bind, hvariance, ok_bind, hscale]
  rfl

/-- The activations are as long as their layouts. -/
theorem size_of_mem_activations (h : b.Prepared config mode layout diffLayout) {a : Buffer}
    (ha : a ∈ b.activations) : a.size = layout.size ∨ a.size = diffLayout.size := by
  have hbuffers : some a ∈ [b.src, b.diffDst, b.diffSrc] := List.reduceOption_mem_iff.mp ha
  simp only [List.mem_cons, List.not_mem_nil, or_false] at hbuffers
  rcases hbuffers with hsome | hsome | hsome
  · exact Or.inl (size_of_form h.src hsome.symm)
  · exact Or.inr (size_of_form h.diffDst hsome.symm)
  · exact Or.inr (size_of_form h.diffSrc hsome.symm)

/-- Buffers of the right form are accepted exactly if the table of the sites fits. -/
theorem accepted_iff (h : b.Prepared config mode layout diffLayout)
    (hsource : layout.Hosts config) (hsetting : diffLayout.Hosts config)
    (hprecision : config.precision = .f32) (hmode : config.backwardMode = some mode) :
    b.Accepted config ↔ diffLayout.SitesFit := by
  have hchecks := h.checks hsource.shape hsetting.shape hprecision hmode
  constructor
  · intro haccepted hnonempty
    rw [hsetting.shape] at hnonempty
    rw [← h.outputLayout_eq]
    exact (haccepted.indexable hnonempty).sites
  · intro hsites
    refine ⟨hchecks, hsetting.writable, fun hnonempty => ?_⟩
    rw [h.outputLayout_eq]
    refine ⟨fun a ha => ?_, hsites (by rwa [hsetting.shape]), fun _ => hsetting.roomy.padding⟩
    rcases h.size_of_mem_activations ha with hsize | hsize
    · rw [hsize]
      exact hsource.roomy.size_lt
    · rw [hsize]
      exact hsetting.roomy.size_lt

/-- A verification of buffers of the right form gives a verdict exactly if the table of the
sites fits. -/
theorem exists_verdict_iff (h : b.Prepared config mode layout diffLayout)
    (hsource : layout.Hosts config) (hsetting : diffLayout.Hosts config)
    (hprecision : config.precision = .f32) (hmode : config.backwardMode = some mode)
    (hepsilon : ∃ epsilon, config.epsilon = .ok epsilon) :
    (∃ verdict, (verifyBackward config b false).result = .ok verdict) ↔ diffLayout.SitesFit := by
  rw [← h.accepted_iff hsource hsetting hprecision hmode]
  constructor
  · rintro ⟨verdict, hverdict⟩
    by_contra hrejected
    have hsound := checks_iff.mp (h.checks hsource.shape hsetting.shape hprecision hmode)
    cases hverdict.symm.trans
      (verifyBackward_of_not_accepted hsound hsetting.writable hrejected hepsilon false)
  · exact fun haccepted => (haccepted.concludes hepsilon).exists_quiet

/-- It fails with mismatches only, if the table of the sites fits. -/
theorem verdictOrReport (h : b.Prepared config mode layout diffLayout)
    (hsource : layout.Hosts config) (hsetting : diffLayout.Hosts config)
    (hsites : diffLayout.SitesFit) (hprecision : config.precision = .f32)
    (hmode : config.backwardMode = some mode)
    (hepsilon : ∃ epsilon, config.epsilon = .ok epsilon) {raise : Bool}
    (hlimit : raise = true → ∃ limit, config.tolerance.maxReported = some limit ∧ 0 ≤ limit) :
    VerdictOrReport (verifyBackward config b raise).result := by
  have haccepted := (h.accepted_iff hsource hsetting hprecision hmode).mpr hsites
  exact (haccepted.concludes hepsilon).verdictOrReport hlimit

end BackwardBuffers.Prepared

end BatchNorm
