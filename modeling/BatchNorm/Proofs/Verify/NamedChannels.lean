import BatchNorm.Proofs.Verify.Findings

/-!
# The channels that a report names

A report names the channels of the mismatches that it lists, ascending and each once
(`channels_ascending`, `mem_channels_iff`). Since each channel of the tensor has a limit
to itself, each that has something wrong with it is named. The channels of the padding
share one limit: those are named that have one of the first cells that are not zero, in
the order of the positions and up to the limit (`named_channels`).
-/

set_option autoImplicit false

namespace BatchNorm

/-! ## Channels in order -/

namespace Mismatch

theorem mem_insertChannel_iff {c a : Int} {cs : List Int} :
    a ∈ insertChannel c cs ↔ a = c ∨ a ∈ cs := by
  induction cs with
  | nil => simp [insertChannel]
  | cons x rest ih =>
      rw [insertChannel]
      by_cases hlt : c < x
      · rw [if_pos hlt, List.mem_cons]
      · rw [if_neg hlt]
        by_cases heq : c = x
        · rw [if_pos heq, List.mem_cons, heq]
          tauto
        · rw [if_neg heq, List.mem_cons, List.mem_cons, ih]
          tauto

/-- A channel put in its place leaves the list ascending. -/
theorem insertChannel_ascending {c : Int} {cs : List Int} (h : cs.Pairwise (· < ·)) :
    (insertChannel c cs).Pairwise (· < ·) := by
  induction cs with
  | nil => exact List.pairwise_singleton _ c
  | cons x rest ih =>
      obtain ⟨hfirst, hrest⟩ := List.pairwise_cons.mp h
      rw [insertChannel]
      by_cases hlt : c < x
      · rw [if_pos hlt]
        refine List.pairwise_cons.mpr ⟨fun a ha => ?_, h⟩
        rcases List.mem_cons.mp ha with rfl | ha
        · exact hlt
        · exact hlt.trans (hfirst a ha)
      · rw [if_neg hlt]
        by_cases heq : c = x
        · rwa [if_pos heq]
        · rw [if_neg heq]
          refine List.pairwise_cons.mpr ⟨fun a ha => ?_, ih hrest⟩
          rcases mem_insertChannel_iff.mp ha with rfl | ha
          · omega
          · exact hfirst a ha

theorem channels_ascending (ms : List Mismatch) : (channels ms).Pairwise (· < ·) := by
  induction ms with
  | nil => exact List.Pairwise.nil
  | cons x rest ih => exact insertChannel_ascending ih

theorem mem_channels_iff {ms : List Mismatch} {c : Int} :
    c ∈ channels ms ↔ ∃ x ∈ ms, x.channel = c := by
  induction ms with
  | nil => simp [channels]
  | cons x rest ih =>
      show c ∈ insertChannel x.channel (channels rest) ↔ _
      rw [mem_insertChannel_iff, ih, List.exists_mem_cons_iff, eq_comm]

end Mismatch

/-! ## Channels with something wrong -/

namespace OutputCheck

/-- Something is wrong with a channel: with a single value, with an element, or with a
cell of the padding, if that is looked at. -/
def Offends (k : OutputCheck) (checkPadding : Bool) (read : Position → Float) (c : Int) : Prop :=
  ∃ x, k.Mismatching checkPadding read x ∧ x.channel = c

/-- A channel of the tensor with a single value or an element that is wrong. -/
def WrongChannel (k : OutputCheck) (read : Position → Float) (c : Int) : Prop :=
  ∃ i : Nat, i < k.layout.shape.channels ∧ (i : Int) = c ∧ (k.scalars i ≠ [] ∨
    ∃ x ∈ k.layout.shape.sites,
      nearlyEqual (read (x.inChannel i)) (k.expected i x) k.epsilon k.floor = false)

/-- The cells of the padding that are not zero, in the order of their positions. -/
def wrongCells (k : OutputCheck) (read : Position → Float) : List Position :=
  k.layout.paddingPositions.filter fun p => read p != 0

variable {k : OutputCheck} {checkPadding : Bool} {read : Position → Float} {m : Nat} {c : Int}

theorem Regular.channel_eq (h : k.Regular) {i : Nat} {x : Mismatch} (hx : x ∈ k.scalars i) :
    x.channel = i := by
  have hbelongs := (h.scalars i x hx).1
  simp only [Mismatch.belongsTo, Bool.and_eq_true, decide_eq_true_eq] at hbelongs
  exact hbelongs.1

/-- The channels of a list whose parts are cut: if the cut leaves something of each part
that has something, every channel of the tensor stays that has something wrong. -/
theorem mem_channels_mismatches_iff (h : k.Regular) {cut : List Mismatch → List Mismatch}
    (hcut : ∀ ms, ∀ x ∈ cut ms, x ∈ ms) (hsome : ∀ ms, cut ms = [] → ms = []) :
    c ∈ Mismatch.channels (k.mismatches checkPadding read cut) ↔
      k.WrongChannel read c ∨
        checkPadding = true ∧
          ∃ x ∈ cut (cellMismatches k.quantity k.layout read), x.channel = c := by
  rw [Mismatch.mem_channels_iff]
  constructor
  · rintro ⟨x, hx, rfl⟩
    rcases mem_mergeMismatches_iff.mp hx with ⟨i, hi, hx | hx⟩ | ⟨hcheck, hx⟩
    · exact Or.inl ⟨i, hi, (h.channel_eq hx).symm, Or.inl (List.ne_nil_of_mem hx)⟩
    · obtain ⟨site, hsite, hfar, rfl⟩ := exists_of_mem_siteMismatches (hcut _ x hx)
      exact Or.inl ⟨i, hi, rfl, Or.inr ⟨site, hsite, hfar⟩⟩
    · exact Or.inr ⟨hcheck, x, hx, rfl⟩
  · rintro (⟨i, hi, rfl, hscalars | ⟨site, hsite, hfar⟩⟩ | ⟨hcheck, x, hx, hchannel⟩)
    · obtain ⟨x, hx⟩ := List.exists_mem_of_ne_nil _ hscalars
      exact ⟨x, mem_mergeMismatches_iff.mpr (Or.inl ⟨i, hi, Or.inl hx⟩), h.channel_eq hx⟩
    · have hwrong : cut (k.channelMismatches read i) ≠ [] := by
        intro hnone
        rw [siteMismatches_eq_nil_iff.mp (hsome _ hnone) site hsite] at hfar
        exact absurd hfar (by decide)
      obtain ⟨x, hx⟩ := List.exists_mem_of_ne_nil _ hwrong
      refine ⟨x, mem_mergeMismatches_iff.mpr (Or.inl ⟨i, hi, Or.inr hx⟩), ?_⟩
      obtain ⟨_, _, _, rfl⟩ := exists_of_mem_siteMismatches (hcut _ x hx)
      rfl
    · exact ⟨x, mem_mergeMismatches_iff.mpr (Or.inr ⟨hcheck, hx⟩), hchannel⟩

theorem offends_iff (h : k.Regular) :
    k.Offends checkPadding read c ↔
      k.WrongChannel read c ∨ checkPadding = true ∧ ∃ p ∈ k.wrongCells read, p.c = c := by
  have hall : k.Offends checkPadding read c ↔
      c ∈ Mismatch.channels (k.mismatches checkPadding read id) := by
    rw [Mismatch.mem_channels_iff]
    simp only [Offends, mem_mismatches_iff]
  have hnamed : c ∈ Mismatch.channels (k.mismatches checkPadding read id) ↔ _ :=
    mem_channels_mismatches_iff h (fun _ _ hx => hx) (fun _ hnone => hnone)
  rw [hall, hnamed]
  simp only [id_eq, cellMismatches, wrongCells, List.mem_map, exists_exists_and_eq_and]
  rfl

/-- How the channels that a run names with limit `m` compare with those that have something
wrong. -/
structure Names (k : OutputCheck) (checkPadding : Bool) (read : Position → Float) (m : Nat)
    (named : List Int) : Prop where
  ascending : named.Pairwise (· < ·)
  sound : ∀ c ∈ named, k.Offends checkPadding read c
  tensor : ∀ c : Int, c < k.layout.shape.channels → k.Offends checkPadding read c → c ∈ named
  padding : ∀ c : Int, k.layout.shape.channels ≤ c →
    (c ∈ named ↔ checkPadding = true ∧ ∃ p ∈ (k.wrongCells read).take m, p.c = c)
  complete_iff : (∀ c, k.Offends checkPadding read c → c ∈ named) ↔
    (checkPadding = true → ∀ p ∈ k.wrongCells read, ∃ q ∈ (k.wrongCells read).take m, q.c = p.c)

theorem channels_le_of_mem_wrongCells {p : Position} (hp : p ∈ k.wrongCells read) :
    (k.layout.shape.channels : Int) ≤ p.c :=
  (Shape.mem_cells.mp (List.mem_filter.mp hp).1).2.1.1

theorem WrongChannel.lt (h : k.WrongChannel read c) : c < k.layout.shape.channels := by
  obtain ⟨i, hi, rfl, _⟩ := h
  exact Int.ofNat_lt.mpr hi

/-- A run names every channel of the tensor with something wrong, and those of the padding
with one of the first wrong cells. -/
theorem names (h : k.Regular) (hm : 1 ≤ m) :
    k.Names checkPadding read m
      (Mismatch.channels (k.mismatches checkPadding read (List.take m))) := by
  have hnamed : ∀ c, c ∈ Mismatch.channels (k.mismatches checkPadding read (List.take m)) ↔
      k.WrongChannel read c ∨
        checkPadding = true ∧ ∃ p ∈ (k.wrongCells read).take m, p.c = c := by
    intro c
    have hcells : (cellMismatches k.quantity k.layout read).take m =
        ((k.wrongCells read).take m).map fun p => .ofPadding k.quantity p (read p) :=
      List.map_take.symm
    -- a limit above zero leaves something of a list that has something
    rw [mem_channels_mismatches_iff h (fun _ _ hx => List.mem_of_mem_take hx)
      (fun _ hnone => (List.take_eq_nil_iff.mp hnone).resolve_left (by omega)), hcells]
    simp only [List.mem_map, exists_exists_and_eq_and]
    rfl
  refine ⟨Mismatch.channels_ascending _, fun c hc => ?_, fun c hlt hc => ?_, fun c hle => ?_, ?_⟩
  · rw [offends_iff h]
    refine ((hnamed c).mp hc).imp id ?_
    rintro ⟨hcheck, p, hp, hchannel⟩
    exact ⟨hcheck, p, List.mem_of_mem_take hp, hchannel⟩
  · refine (hnamed c).mpr (Or.inl (((offends_iff h).mp hc).resolve_right ?_))
    rintro ⟨_, p, hp, rfl⟩
    exact absurd (channels_le_of_mem_wrongCells hp) (not_le.mpr hlt)
  · rw [hnamed]
    exact or_iff_right fun hwrong => absurd hwrong.lt (not_lt.mpr hle)
  · constructor
    · intro hcomplete hcheck p hp
      have hpadding := channels_le_of_mem_wrongCells hp
      have hoffends := (offends_iff h).mpr (Or.inr ⟨hcheck, p, hp, rfl⟩)
      rcases (hnamed p.c).mp (hcomplete p.c hoffends) with hwrong | ⟨_, hfirst⟩
      · exact absurd hwrong.lt (not_lt.mpr hpadding)
      · exact hfirst
    · intro hfirst c hc
      rcases (offends_iff h).mp hc with hwrong | ⟨hcheck, p, hp, rfl⟩
      · exact (hnamed c).mpr (Or.inl hwrong)
      · exact (hnamed p.c).mpr (Or.inr ⟨hcheck, hfirst hcheck p hp⟩)

end OutputCheck

/-! ## Runs -/

/-- **Named channels.** An accepted run with limit `m` above zero names, in the report that
it fails with and in the last line of its log, channels in strictly ascending order that
all have something wrong with them. Every channel of the tensor with something wrong is
named. A channel of the padding is named exactly if one of the first `m` cells of the
padding that are not zero is in it; so all offending channels are named exactly if each
that has such a cell has one of the first `m`. Without elements the channels are those of
the parameter gradients that are not near zero. -/
theorem named_channels {config : RunConfig} {m : Nat}
    (hlimit : config.tolerance.maxReported = some (m : Int)) (hm : 1 ≤ m) :
    (∀ b : ForwardBuffers, b.Accepted config →
      (config.shape.isEmpty = true → EndsWith (verifyForward config b) config m []) ∧
      (config.shape.isEmpty = false → b.Checked config fun k read =>
        ∃ listed, EndsWith (verifyForward config b) config m listed ∧
          k.Names config.checkPadding read m (Mismatch.channels listed))) ∧
    (∀ b : BackwardBuffers, b.Accepted config →
      (config.shape.isEmpty = true → ∃ listed, EndsWith (verifyBackward config b) config m listed ∧
        (Mismatch.channels listed).Pairwise (· < ·) ∧
        ∀ c, c ∈ Mismatch.channels listed ↔ ∃ x, b.NonzeroGradient config x ∧ x.channel = c) ∧
      (config.shape.isEmpty = false → b.Checked config fun k read =>
        ∃ listed, EndsWith (verifyBackward config b) config m listed ∧
          k.Names config.checkPadding read m (Mismatch.channels listed))) := by
  constructor
  · intro b haccepted
    refine ⟨fun hempty => b.endsWith_of_isEmpty haccepted hempty, fun hnonempty => ?_⟩
    refine ForwardBuffers.checked_of_endsWith hlimit haccepted hnonempty fun k read h hends => ?_
    exact ⟨_, hends, k.names h hm⟩
  · intro b haccepted
    constructor
    · intro hempty
      refine ⟨_, BackwardBuffers.endsWith_of_isEmpty hlimit m.cast_nonneg haccepted hempty,
        Mismatch.channels_ascending _, fun c => ?_⟩
      rw [Mismatch.mem_channels_iff]
      simp only [mem_emptyVerdict_iff]
    · intro hnonempty
      refine BackwardBuffers.checked_of_endsWith hlimit haccepted hnonempty fun k read h hends => ?_
      exact ⟨_, hends, k.names h hm⟩

/-- A run that is wrong in a channel and in the padding names channels in order. -/
theorem named_channels_twoChannels :
    twoChannels.tolerance.maxReported = some ((32 : Nat) : Int) ∧ 1 ≤ 32 ∧
      twoChannelsBuffers.Accepted twoChannels ∧ twoChannels.shape.isEmpty = false ∧
      ∃ epsilon listed, twoChannels.epsilon = .ok epsilon ∧
        EndsWith (verifyForward twoChannels twoChannelsBuffers) twoChannels 32 listed ∧
        (Mismatch.channels listed).Pairwise (· < ·) := by
  have haccepted := twoChannelsBuffers_accepted
  have hlimit : twoChannels.tolerance.maxReported = some ((32 : Nat) : Int) := rfl
  obtain ⟨_, _, _, _, _, _, _, _, hnamed⟩ :=
    ((named_channels hlimit (by decide)).1 twoChannelsBuffers haccepted).2 rfl
  have hepsilon : twoChannels.epsilon = _ := epsilon_eq_ok (by decide)
  obtain ⟨listed, hends, hnames⟩ := hnamed _ hepsilon
  exact ⟨hlimit, by decide, haccepted, rfl, _, listed, hepsilon, hends, hnames.ascending⟩

/-- A right output with a cell that is not zero in each channel of the padding. -/
def paddedBuffers : ForwardBuffers :=
  { twoChannelsBuffers with dst := some (.ofList .float32 [1, 3, 7, 0, 2, 4, 0, 9]) }

/-- The channels that the report of a failed run names. -/
def channelsOf (run : Logged Verdict) : Option (List Int) :=
  match run.result with
  | .error (.verification report) => some report.channels
  | _ => none

/-- Where two channels of the padding are wrong, a limit of one leaves one of them out. -/
theorem padding_channel_unnamed :
    (twoChannels.withLimit (some 1)).checkPadding = true ∧
      paddedBuffers.Accepted (twoChannels.withLimit (some 1)) ∧
      (let cells := nonzeroCells "dst" (.ofList .float32 [1, 3, 7, 0, 2, 4, 0, 9])
        paddedBuffers.outputLayout
      cells.map (·.channel) = [2, 3]) ∧
      channelsOf (verifyForward (twoChannels.withLimit (some 1)) paddedBuffers true) = some [2] ∧
      channelsOf (verifyForward (twoChannels.withLimit (some 2)) paddedBuffers true) =
        some [2, 3] := by
  have haccepted : paddedBuffers.Accepted (twoChannels.withLimit (some 1)) :=
    ForwardBuffers.accepted_of_view (by decide +kernel) (by decide) (by decide) (by decide)
  exact ⟨rfl, haccepted, by decide +kernel⟩

end BatchNorm
