import BatchNorm.Proofs.Verify.Independence

/-!
# One channel at a time

Each channel of a run can be verified alone: a run on a tensor of one channel, in a
dense layout, with the elements of that channel and its entries in the buffers of
channel values. What the large run reports on the channel is what the small run
reports.
-/

set_option autoImplicit false

namespace BatchNorm

/-! ## The data of one channel -/

/-- The elements of channel `c`, in the order of the sites. -/
def Tensor.slice (t : Tensor) (s : Shape) (c : Nat) : Buffer :=
  .ofList t.elements.type (s.sites.map fun x => t.element (x.inChannel c))

/-- The entry of channel `c` alone. -/
def Buffer.single (b : Buffer) (c : Nat) : Buffer := .ofList b.type [b.element c]

/-- The configuration of a run on one channel. -/
def RunConfig.oneChannel (config : RunConfig) : RunConfig :=
  { config with shape := config.shape.oneChannel }

/-- The buffers of channel `c` of a forward run with the given tensors. -/
def ForwardBuffers.oneChannel (b : ForwardBuffers) (s : Shape) (src dst : Tensor) (c : Nat) :
    ForwardBuffers where
  src := some (src.slice s c)
  dst := some (dst.slice s c)
  srcLayout := .dense s.oneChannel
  mean := b.mean.map (·.single c)
  variance := b.variance.map (·.single c)
  scale := b.scale.map (·.single c)
  shift := b.shift.map (·.single c)

/-- The buffers of channel `c` of a backward run with the given tensors. -/
def BackwardBuffers.oneChannel (b : BackwardBuffers) (s : Shape) (src diffDst diffSrc : Tensor)
    (c : Nat) : BackwardBuffers where
  src := some (src.slice s c)
  diffDst := some (diffDst.slice s c)
  diffSrc := some (diffSrc.slice s c)
  mean := b.mean.map (·.single c)
  variance := b.variance.map (·.single c)
  srcLayout := .dense s.oneChannel
  scale := b.scale.map (·.single c)
  diffScale := b.diffScale.map (·.single c)
  diffShift := b.diffShift.map (·.single c)

theorem RunConfig.alike_oneChannel (config : RunConfig) : config.Alike config.oneChannel :=
  ⟨rfl, rfl, rfl, rfl⟩

theorem oneChannel_nonempty {s : Shape} (h : s.isEmpty = false) : s.oneChannel.isEmpty = false := by
  have hcount : s.oneChannel.elementCount = s.reductionSize := Nat.mul_one _
  rw [Shape.isEmpty, hcount]
  exact decide_eq_false (reductionSize_pos h).ne'

/-! ## It is accepted -/

section

variable {config : RunConfig} {c : Nat}

theorem sites_map_eq {α : Type} (s : Shape) (f : Position → α) (c : Nat) :
    (s.sites.map fun x => f (x.inChannel c)) =
      s.oneChannel.positions.map fun p => f { p with c } := by
  rw [Shape.positions_oneChannel, List.map_map]
  rfl

theorem activation_slice {type : ElementType} {role : Role} {t : Tensor}
    (htype : t.elements.type = type) :
    activation config.oneChannel type role (some (t.slice config.shape c))
      (.dense config.shape.oneChannel) = .ok (t.slice config.shape c) := by
  refine activation_eq_ok_iff.mpr ⟨rfl, rfl, ?_, htype⟩
  rw [Tensor.slice, sites_map_eq, Buffer.size_ofList, List.length_map, Layout.length_positions]

theorem size_slice (t : Tensor) (s : Shape) (c : Nat) : (t.slice s c).size = s.reductionSize := by
  rw [Tensor.slice, Buffer.size_ofList, List.length_map, Shape.length_sites]

/-- The small run can be indexed where the large one can: it has the same sites, buffers of as
many elements as there are sites, and no padding. -/
theorem indexable_oneChannel {type : ElementType} {b : Buffer} {l output : Layout}
    {arrays slices : List Buffer} (h : Indexable config arrays output)
    (hshape : output.shape = config.shape) (hfits : Fits config type b l) (hb : b ∈ arrays)
    (hpos : 0 < config.shape.channels)
    (hslices : ∀ a ∈ slices, a.size = config.shape.reductionSize) :
    Indexable config.oneChannel slices (.dense config.shape.oneChannel) where
  counted a ha := by
    rw [hslices a ha]
    exact lt_of_le_of_lt (hfits.reductionSize_le hpos) (h.counted b hb)
  sites := by
    have hsites := h.sites
    rw [Layout.demandSites, hshape] at hsites
    exact hsites
  padding _ hpadding := absurd hpadding (by simp [Layout.hasPadding, Layout.dense])

/-- The small run has the elements of the channel. -/
theorem element_slice {t : Tensor} {s : Shape} {x : Site} (hx : x ∈ s.sites) :
    ((Layout.dense s.oneChannel).unpacked (t.slice s c)).element (x.inChannel 0) =
      t.element (x.inChannel c) := by
  have hmem : x.inChannel (0 : Nat) ∈ s.oneChannel.positions :=
    Shape.inChannel_mem_positions (s := s.oneChannel) hx Nat.one_pos
  have h := Buffer.element_ofPositions (sites_map_eq s t.element c) hmem
  exact (Layout.element_unpacked (l := .dense s.oneChannel) hmem).trans h

theorem channelArray_single {role : Role} {buffer : Option Buffer} {b : Buffer}
    (h : channelArray config.shape.channels role buffer = .ok b) :
    channelArray config.oneChannel.shape.channels role (buffer.map (·.single c)) =
      .ok (b.single c) := by
  obtain ⟨rfl, _, hfloating⟩ := channelArray_eq_ok_iff.mp h
  exact channelArray_eq_ok_iff.mpr ⟨rfl, le_rfl, hfloating⟩

/-- The small run has the entries of the channel. -/
theorem entry_single (buffer : Option Buffer) (c : Nat) :
    entry (buffer.map (·.single c)) 0 = entry buffer c := by
  cases buffer with
  | none => rfl
  | some b => rfl

end

/-! ## Forward runs -/

namespace ForwardView.Of

variable {v : ForwardView} {b : ForwardBuffers} {config : RunConfig} {c : Nat}

theorem statistics_single {buffers : Option (Statistics Buffer)} (src dst : Tensor)
    (h : b.statistics config = .ok buffers) :
    (b.oneChannel config.shape src dst c).statistics config.oneChannel =
      .ok (buffers.map fun s => ⟨s.mean.single c, s.variance.single c⟩) := by
  unfold ForwardBuffers.statistics at h ⊢
  split at h
  · rename_i hflag
    obtain ⟨mean, hmean, h⟩ := bind_eq_ok_iff.mp h
    obtain ⟨variance, hvariance, h⟩ := bind_eq_ok_iff.mp h
    obtain rfl := Except.ok.inj h
    refine (if_pos hflag).trans ?_
    simp only [ForwardBuffers.oneChannel, channelArray_single hmean, channelArray_single hvariance,
      ok_bind, pure_eq_ok, Option.map_some]
  · rename_i hflag
    obtain rfl := Except.ok.inj h
    exact if_neg hflag

theorem affine_single {buffers : Option (Affine Buffer)} (src dst : Tensor)
    (h : b.affine config = .ok buffers) :
    (b.oneChannel config.shape src dst c).affine config.oneChannel =
      .ok (buffers.map fun a => ⟨a.scale.single c, a.shift.single c⟩) := by
  unfold ForwardBuffers.affine at h ⊢
  split at h
  · rename_i hflag
    obtain ⟨scale, hscale, h⟩ := bind_eq_ok_iff.mp h
    obtain ⟨shift, hshift, h⟩ := bind_eq_ok_iff.mp h
    obtain rfl := Except.ok.inj h
    refine (if_pos hflag).trans ?_
    simp only [ForwardBuffers.oneChannel, channelArray_single hscale, channelArray_single hshift,
      ok_bind, pure_eq_ok, Option.map_some]
  · rename_i hflag
    obtain rfl := Except.ok.inj h
    exact if_neg hflag

theorem size_of_mem_activations_oneChannel {s : Shape} {src dst : Tensor} {a : Buffer}
    (ha : a ∈ (b.oneChannel s src dst c).activations) : a.size = s.reductionSize := by
  rcases List.mem_pair.mp (show a ∈ [src.slice s c, dst.slice s c] from ha) with rfl | rfl
  · exact size_slice _ _ _
  · exact size_slice _ _ _

/-- The buffers that the small run reads. -/
theorem exists_oneChannel (h : v.Of b config) (c : Nat) :
    ∃ v' : ForwardView, v'.Of (b.oneChannel config.shape (v.srcLayout.unpacked v.src)
        (v.dstLayout.unpacked v.dst) c) config.oneChannel ∧
      v'.srcLayout.unpacked v'.src = (Layout.dense config.shape.oneChannel).unpacked
        ((v.srcLayout.unpacked v.src).slice config.shape c) ∧
      v'.dstLayout.unpacked v'.dst = (Layout.dense config.shape.oneChannel).unpacked
        ((v.dstLayout.unpacked v.dst).slice config.shape c) :=
  ⟨{ src := (v.srcLayout.unpacked v.src).slice config.shape c
     dst := (v.dstLayout.unpacked v.dst).slice config.shape c
     srcLayout := .dense config.shape.oneChannel
     dstLayout := .dense config.shape.oneChannel
     statistics := v.statistics.map fun s => ⟨s.mean.single c, s.variance.single c⟩
     affine := v.affine.map fun a => ⟨a.scale.single c, a.shift.single c⟩ },
    ⟨⟨oneChannel_nonempty h.nonempty, activation_slice h.srcFits.type,
      activation_slice h.dstFits.type, statistics_single _ _ h.statistics,
      affine_single _ _ h.affine, rfl, rfl⟩,
      indexable_oneChannel h.indexable (h.dstLayout ▸ h.dstFits.shape) h.srcFits
        (h.activations_eq ▸ List.mem_cons_self) (channels_pos h.nonempty)
        fun _ ha => size_of_mem_activations_oneChannel ha⟩, rfl, rfl⟩

/-- What the small run reads is what the large run reads of the channel. -/
theorem agree_oneChannel (config : RunConfig) (b : ForwardBuffers) (src dst : Tensor) (c : Nat) :
    (b.channel src dst c).Agree config
      ((b.oneChannel config.shape src dst c).channel
        ((Layout.dense config.shape.oneChannel).unpacked (src.slice config.shape c))
        ((Layout.dense config.shape.oneChannel).unpacked (dst.slice config.shape c)) 0) where
  src x hx := congrArg (fun e => widen (src.elements.type.toSingle e)) (element_slice hx).symm
  dst x hx := congrArg dst.elements.type.toFloat (element_slice hx).symm
  reported _ := by
    simp only [ForwardBuffers.channel, ForwardBuffers.oneChannel, entry_single]
  affine _ := by
    simp only [ForwardBuffers.channel, ForwardBuffers.oneChannel, entry_single]

end ForwardView.Of

/-! ## Backward runs -/

namespace BackwardView.Of

variable {v : BackwardView} {b : BackwardBuffers} {config : RunConfig} {c : Nat}

theorem scales_single {scale : Option Buffer} (src diffDst diffSrc : Tensor)
    (h : b.scales config = .ok scale) :
    (b.oneChannel config.shape src diffDst diffSrc c).scales config.oneChannel =
      .ok (scale.map (·.single c)) := by
  unfold BackwardBuffers.scales at h ⊢
  split at h
  · rename_i hflag
    obtain ⟨scale, hscale, rfl⟩ := map_eq_ok_iff.mp h
    refine (if_pos hflag).trans ?_
    simp only [BackwardBuffers.oneChannel, channelArray_single hscale, map_ok, Option.map_some]
  · rename_i hflag
    obtain rfl := Except.ok.inj h
    exact if_neg hflag

theorem parameters_single {parameters : Option (ParameterGradients Buffer)}
    (src diffDst diffSrc : Tensor) (h : b.parameters config = .ok parameters) :
    (b.oneChannel config.shape src diffDst diffSrc c).parameters config.oneChannel =
      .ok (parameters.map fun g => ⟨g.diffScale.single c, g.diffShift.single c⟩) := by
  rw [BackwardBuffers.parameters_eq_ok_iff] at h ⊢
  obtain ⟨hprecision, ⟨hmode, rfl⟩ | ⟨hmode, buffers, rfl, hdiffScale, hdiffShift⟩⟩ := h
  · exact ⟨hprecision, Or.inl ⟨hmode, rfl⟩⟩
  · exact ⟨hprecision, Or.inr ⟨hmode, _, rfl, channelArray_single hdiffScale,
      channelArray_single hdiffShift⟩⟩

theorem size_of_mem_activations_oneChannel {s : Shape} {src diffDst diffSrc : Tensor} {a : Buffer}
    (ha : a ∈ (b.oneChannel s src diffDst diffSrc c).activations) : a.size = s.reductionSize := by
  have ha : a ∈ [src.slice s c, diffDst.slice s c, diffSrc.slice s c] := ha
  simp only [List.mem_cons, List.not_mem_nil, or_false] at ha
  rcases ha with rfl | rfl | rfl
  · exact size_slice _ _ _
  · exact size_slice _ _ _
  · exact size_slice _ _ _

/-- The buffers that the small run reads. -/
theorem exists_oneChannel (h : v.Of b config) (c : Nat) :
    ∃ v' : BackwardView, v'.Of (b.oneChannel config.shape (v.srcLayout.unpacked v.src)
        (v.diffDstLayout.unpacked v.diffDst) (v.diffSrcLayout.unpacked v.diffSrc) c)
        config.oneChannel ∧
      v'.srcLayout.unpacked v'.src = (Layout.dense config.shape.oneChannel).unpacked
        ((v.srcLayout.unpacked v.src).slice config.shape c) ∧
      v'.diffDstLayout.unpacked v'.diffDst = (Layout.dense config.shape.oneChannel).unpacked
        ((v.diffDstLayout.unpacked v.diffDst).slice config.shape c) ∧
      v'.diffSrcLayout.unpacked v'.diffSrc = (Layout.dense config.shape.oneChannel).unpacked
        ((v.diffSrcLayout.unpacked v.diffSrc).slice config.shape c) :=
  ⟨{ src := (v.srcLayout.unpacked v.src).slice config.shape c
     diffDst := (v.diffDstLayout.unpacked v.diffDst).slice config.shape c
     diffSrc := (v.diffSrcLayout.unpacked v.diffSrc).slice config.shape c
     srcLayout := .dense config.shape.oneChannel
     diffDstLayout := .dense config.shape.oneChannel
     diffSrcLayout := .dense config.shape.oneChannel
     statistics := ⟨v.statistics.mean.single c, v.statistics.variance.single c⟩
     scale := v.scale.map (·.single c)
     parameters := v.parameters.map fun g => ⟨g.diffScale.single c, g.diffShift.single c⟩ },
    ⟨⟨oneChannel_nonempty h.nonempty, parameters_single _ _ _ h.parameters,
      activation_slice h.srcFits.type, activation_slice h.diffDstFits.type,
      activation_slice h.diffSrcFits.type, channelArray_single h.mean,
      channelArray_single h.variance, scales_single _ _ _ h.scale, rfl, rfl, rfl⟩,
      indexable_oneChannel h.indexable (h.diffSrcLayout ▸ h.diffSrcFits.shape) h.srcFits
        (h.activations_eq ▸ List.mem_cons_self) (channels_pos h.nonempty)
        fun _ ha => size_of_mem_activations_oneChannel ha⟩, rfl, rfl, rfl⟩

/-- What the small run reads is what the large run reads of the channel. -/
theorem agree_oneChannel (config : RunConfig) (b : BackwardBuffers)
    (src diffDst diffSrc : Tensor) (c : Nat) :
    (b.channel src diffDst diffSrc c).Agree config
      ((b.oneChannel config.shape src diffDst diffSrc c).channel
        ((Layout.dense config.shape.oneChannel).unpacked (src.slice config.shape c))
        ((Layout.dense config.shape.oneChannel).unpacked (diffDst.slice config.shape c))
        ((Layout.dense config.shape.oneChannel).unpacked (diffSrc.slice config.shape c)) 0) where
  src x hx := congrArg (fun e => widen (src.elements.type.toSingle e)) (element_slice hx).symm
  diffDst x hx :=
    congrArg (fun e => widen (diffDst.elements.type.toSingle e)) (element_slice hx).symm
  diffSrc x hx := congrArg diffSrc.elements.type.toFloat (element_slice hx).symm
  statistics := by
    simp only [BackwardBuffers.channel, BackwardBuffers.oneChannel, entry_single]
  scale _ := by
    simp only [BackwardBuffers.channel, BackwardBuffers.oneChannel, entry_single]
  reported _ := by
    simp only [BackwardBuffers.channel, BackwardBuffers.oneChannel, entry_single]

end BackwardView.Of

/-! ## Both directions -/

/-- The tensors in the activation buffers of a forward run. -/
structure ForwardBuffers.Unpacks (b : ForwardBuffers) (src dst : Tensor) : Prop where
  src : b.src.map b.srcLayout.unpack = some (.ok src)
  dst : b.dst.map b.outputLayout.unpack = some (.ok dst)

/-- The tensors in the activation buffers of a backward run. -/
structure BackwardBuffers.Unpacks (b : BackwardBuffers) (src diffDst diffSrc : Tensor) : Prop where
  src : b.src.map b.srcLayout.unpack = some (.ok src)
  diffDst : b.diffDst.map b.gradientLayout.unpack = some (.ok diffDst)
  diffSrc : b.diffSrc.map b.outputLayout.unpack = some (.ok diffSrc)

theorem activation_unpack {config : RunConfig} {type : ElementType} {role : Role}
    {buffer : Option Buffer} {l : Layout} {b : Buffer}
    (h : activation config type role buffer l = .ok b) :
    buffer.map l.unpack = some (.ok (l.unpacked b)) := by
  obtain ⟨rfl, hfits⟩ := activation_eq_ok_iff.mp h
  rw [Option.map_some, hfits.unpack]

theorem ForwardView.Of.unpacks_iff {v : ForwardView} {b : ForwardBuffers} {config : RunConfig}
    (h : v.Of b config) {src dst : Tensor} :
    b.Unpacks src dst ↔ src = v.srcLayout.unpacked v.src ∧ dst = v.dstLayout.unpacked v.dst := by
  rw [h.srcLayout, h.dstLayout]
  constructor
  · rintro ⟨hsrc, hdst⟩
    rw [activation_unpack h.src] at hsrc
    rw [activation_unpack h.dst] at hdst
    exact ⟨(Except.ok.inj (Option.some.inj hsrc)).symm, (Except.ok.inj (Option.some.inj hdst)).symm⟩
  · rintro ⟨rfl, rfl⟩
    exact ⟨activation_unpack h.src, activation_unpack h.dst⟩

theorem BackwardView.Of.unpacks_iff {v : BackwardView} {b : BackwardBuffers} {config : RunConfig}
    (h : v.Of b config) {src diffDst diffSrc : Tensor} :
    b.Unpacks src diffDst diffSrc ↔ src = v.srcLayout.unpacked v.src ∧
      diffDst = v.diffDstLayout.unpacked v.diffDst ∧
      diffSrc = v.diffSrcLayout.unpacked v.diffSrc := by
  rw [h.srcLayout, h.diffDstLayout, h.diffSrcLayout]
  constructor
  · rintro ⟨hsrc, hdiffDst, hdiffSrc⟩
    rw [activation_unpack h.src] at hsrc
    rw [activation_unpack h.diffDst] at hdiffDst
    rw [activation_unpack h.diffSrc] at hdiffSrc
    exact ⟨(Except.ok.inj (Option.some.inj hsrc)).symm,
      (Except.ok.inj (Option.some.inj hdiffDst)).symm,
      (Except.ok.inj (Option.some.inj hdiffSrc)).symm⟩
  · rintro ⟨rfl, rfl, rfl⟩
    exact ⟨activation_unpack h.src, activation_unpack h.diffDst, activation_unpack h.diffSrc⟩

/-- **One channel at a time.** On accepted buffers with elements, either
verification reports on a channel what it reports on the run of that channel alone,
up to the number of the channel. Consequently, what two runs report on two channels
is the same whenever their configurations treat a channel alike and the channels
agree where they are read: no other channel, no layout, no padding, nothing past the
end of a layout and no buffer that the modes leave alone can show. -/
theorem verify_channel_by_channel :
    (∀ (config : RunConfig) (b : ForwardBuffers) (c : Nat),
      config.shape.isEmpty = false → b.Accepted config → c < config.shape.channels →
      ∃ src dst, b.Unpacks src dst ∧
        (b.oneChannel config.shape src dst c).Accepted config.oneChannel ∧
        (verifyForward config b false).result.map (Verdict.channelReport c) =
          (verifyForward config.oneChannel (b.oneChannel config.shape src dst c) false).result.map
            fun verdict => (verdict.channelReport 0).relabel c) ∧
    (∀ (config : RunConfig) (b : BackwardBuffers) (c : Nat),
      config.shape.isEmpty = false → b.Accepted config → c < config.shape.channels →
      ∃ src diffDst diffSrc, b.Unpacks src diffDst diffSrc ∧
        (b.oneChannel config.shape src diffDst diffSrc c).Accepted config.oneChannel ∧
        (verifyBackward config b false).result.map (Verdict.channelReport c) =
          (verifyBackward config.oneChannel (b.oneChannel config.shape src diffDst diffSrc c)
            false).result.map fun verdict => (verdict.channelReport 0).relabel c) ∧
    (∀ (config config' : RunConfig) (b b' : ForwardBuffers) (c c' : Nat)
      (src dst src' dst' : Tensor),
      config.shape.isEmpty = false → b.Accepted config → c < config.shape.channels →
      config'.shape.isEmpty = false → b'.Accepted config' → c' < config'.shape.channels →
      config.Alike config' → b.Unpacks src dst → b'.Unpacks src' dst' →
      (b.channel src dst c).Agree config (b'.channel src' dst' c') →
      (verifyForward config b false).result.map (Verdict.channelReport c) =
        (verifyForward config' b' false).result.map fun verdict =>
          (verdict.channelReport c').relabel c) ∧
    (∀ (config config' : RunConfig) (b b' : BackwardBuffers) (c c' : Nat)
      (src diffDst diffSrc src' diffDst' diffSrc' : Tensor),
      config.shape.isEmpty = false → b.Accepted config → c < config.shape.channels →
      config'.shape.isEmpty = false → b'.Accepted config' → c' < config'.shape.channels →
      config.Alike config' → config.backwardMode = config'.backwardMode →
      b.Unpacks src diffDst diffSrc → b'.Unpacks src' diffDst' diffSrc' →
      (b.channel src diffDst diffSrc c).Agree config (b'.channel src' diffDst' diffSrc' c') →
      (verifyBackward config b false).result.map (Verdict.channelReport c) =
        (verifyBackward config' b' false).result.map fun verdict =>
          (verdict.channelReport c').relabel c) := by
  refine ⟨?_, ?_, ?_, ?_⟩
  · intro config b c hnonempty haccepted hc
    obtain ⟨v, h⟩ := haccepted.exists_view hnonempty
    obtain ⟨v', h', hsrc, hdst⟩ := h.exists_oneChannel c
    refine ⟨_, _, h.unpacks_iff.mpr ⟨rfl, rfl⟩, h'.accepted, ?_⟩
    refine h.report_congr h' hc Nat.one_pos config.alike_oneChannel ?_
    rw [hsrc, hdst]
    exact ForwardView.Of.agree_oneChannel config b _ _ c
  · intro config b c hnonempty haccepted hc
    obtain ⟨v, h⟩ := haccepted.exists_view hnonempty
    obtain ⟨v', h', hsrc, hdiffDst, hdiffSrc⟩ := h.exists_oneChannel c
    refine ⟨_, _, _, h.unpacks_iff.mpr ⟨rfl, rfl, rfl⟩, h'.accepted, ?_⟩
    refine h.report_congr h' hc Nat.one_pos config.alike_oneChannel rfl ?_
    rw [hsrc, hdiffDst, hdiffSrc]
    exact BackwardView.Of.agree_oneChannel config b _ _ _ c
  · intro config config' b b' c c' src dst src' dst' hnonempty haccepted hc hnonempty' haccepted'
      hc' halike hunpacks hunpacks' hagree
    obtain ⟨v, h⟩ := haccepted.exists_view hnonempty
    obtain ⟨v', h'⟩ := haccepted'.exists_view hnonempty'
    obtain ⟨rfl, rfl⟩ := h.unpacks_iff.mp hunpacks
    obtain ⟨rfl, rfl⟩ := h'.unpacks_iff.mp hunpacks'
    exact h.report_congr h' hc hc' halike hagree
  · intro config config' b b' c c' src diffDst diffSrc src' diffDst' diffSrc' hnonempty haccepted
      hc hnonempty' haccepted' hc' halike hmode hunpacks hunpacks' hagree
    obtain ⟨v, h⟩ := haccepted.exists_view hnonempty
    obtain ⟨v', h'⟩ := haccepted'.exists_view hnonempty'
    obtain ⟨rfl, rfl, rfl⟩ := h.unpacks_iff.mp hunpacks
    obtain ⟨rfl, rfl, rfl⟩ := h'.unpacks_iff.mp hunpacks'
    exact h.report_congr h' hc hc' halike hmode hagree

theorem verify_channel_by_channel_twoChannels :
    twoChannelsBuffers.Accepted twoChannels ∧
      ∃ src dst, twoChannelsBuffers.Unpacks src dst ∧
        (verifyForward twoChannels twoChannelsBuffers false).result.map (Verdict.channelReport 1) =
          (verifyForward twoChannels.oneChannel
            (twoChannelsBuffers.oneChannel twoChannels.shape src dst 1) false).result.map
              fun verdict => (verdict.channelReport 0).relabel 1 := by
  have haccepted := twoChannelsBuffers_accepted
  obtain ⟨src, dst, hunpacks, _, hreport⟩ :=
    verify_channel_by_channel.1 twoChannels twoChannelsBuffers 1 rfl haccepted (by decide)
  exact ⟨haccepted, src, dst, hunpacks, hreport⟩

end BatchNorm
