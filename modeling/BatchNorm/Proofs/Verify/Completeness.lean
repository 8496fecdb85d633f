import BatchNorm.Proofs.Verify.Findings

/-!
# What a limit leaves out

The limit on what is reported cuts the list of each channel and that of the padding
before anything is counted. A run that fails therefore lists all that is wrong with it,
and counts it, exactly if no channel has more wrong elements than the limit and the
padding has no more cells that are not zero (`listed_mismatches`). Single values are
always listed. So are the parameter gradients of a tensor without elements, which no
limit cuts.
-/

set_option autoImplicit false

namespace BatchNorm

/-- How a list of mismatches compares with all that is wrong: it has nothing else and
nothing twice, it has every single value, and it has everything, and as many entries as
there are things wrong, under one and the same condition. -/
structure ListsWithin (wrong : Mismatch → Prop) (within : Prop) (listed : List Mismatch) :
    Prop where
  sound : ∀ x ∈ listed, wrong x
  nodup : listed.Nodup
  single : ∀ x, wrong x → x.position = none → x ∈ listed
  complete_iff : (∀ x, wrong x → x ∈ listed) ↔ within
  count : ∃ all : List Mismatch, all.Nodup ∧ (∀ x, x ∈ all ↔ wrong x) ∧
    listed.length ≤ all.length ∧ (listed.length = all.length ↔ within)

/-- A list without a limit has everything. -/
theorem listsWithin_of_all {wrong : Mismatch → Prop} {all : List Mismatch} (hnodup : all.Nodup)
    (hall : ∀ x, x ∈ all ↔ wrong x) : ListsWithin wrong True all where
  sound x hx := (hall x).mp hx
  nodup := hnodup
  single x hx _ := (hall x).mpr hx
  complete_iff := iff_of_true (fun x hx => (hall x).mpr hx) trivial
  count := ⟨all, hnodup, hall, le_rfl, iff_of_true rfl trivial⟩

namespace OutputCheck

variable {k : OutputCheck} {checkPadding : Bool} {read : Position → Float} {m : Nat}

/-- A run lists everything that is wrong with it exactly within the limit. -/
theorem listsWithin (h : k.Regular) :
    ListsWithin (k.Mismatching checkPadding read) (k.Within checkPadding read m)
      (k.mismatches checkPadding read (List.take m)) := by
  have hsublist : (k.mismatches checkPadding read (List.take m)).Sublist
      (k.mismatches checkPadding read id) := mergeMismatches_take_sublist
  have hnodup : (k.mismatches checkPadding read id).Nodup := h.nodup_mismatches read
  have hlength : (k.mismatches checkPadding read (List.take m)).length =
      (k.mismatches checkPadding read id).length ↔ k.Within checkPadding read m :=
    length_mergeMismatches_take_iff
  refine ⟨fun x hx => ?_, hsublist.nodup hnodup, fun x hx hsingle => ?_, ?_, ?_⟩
  · exact mem_mismatches_iff.mp (hsublist.subset hx)
  · -- elements and cells of the padding have a position
    cases hx with
    | scalar hc hx => exact mem_mergeMismatches_iff.mpr (Or.inl ⟨_, hc, Or.inl hx⟩)
    | element hc hsite hfar => exact absurd hsingle nofun
    | cell hcheck hp hvalue => exact absurd hsingle nofun
  · rw [← hlength]
    constructor
    · intro hcomplete
      have hsubset : k.mismatches checkPadding read id ⊆
          k.mismatches checkPadding read (List.take m) := fun x hx =>
        hcomplete x (mem_mismatches_iff.mp hx)
      exact le_antisymm hsublist.length_le (List.subperm_of_subset hnodup hsubset).length_le
    · intro hlength x hx
      rw [hsublist.eq_of_length hlength]
      exact mem_mismatches_iff.mpr hx
  · exact ⟨_, hnodup, fun _ => mem_mismatches_iff, hsublist.length_le, hlength⟩

end OutputCheck

/-! ## Runs -/

/-- **Completeness.** An accepted run with limit `m` lists, in its verdict, in the report
that it fails with and in the number at the head of its message, what is wrong with it up
to the limit: nothing that is not wrong, nothing twice, and every single value. It lists
everything that is wrong, and counts it right, exactly if no channel has more than `m`
elements that are not near the reference and, where the padding is looked at, no more than
`m` of its cells are not zero. Without elements it always does. -/
theorem listed_mismatches {config : RunConfig} {m : Nat}
    (hlimit : config.tolerance.maxReported = some (m : Int)) :
    (∀ b : ForwardBuffers, b.Accepted config →
      (config.shape.isEmpty = true → EndsWith (verifyForward config b) config m []) ∧
      (config.shape.isEmpty = false → b.Checked config fun k read =>
        ∃ listed, EndsWith (verifyForward config b) config m listed ∧
          ListsWithin (k.Mismatching config.checkPadding read)
            (k.Within config.checkPadding read m) listed)) ∧
    (∀ b : BackwardBuffers, b.Accepted config →
      (config.shape.isEmpty = true → ∃ listed, EndsWith (verifyBackward config b) config m listed ∧
        ListsWithin (b.NonzeroGradient config) True listed) ∧
      (config.shape.isEmpty = false → b.Checked config fun k read =>
        ∃ listed, EndsWith (verifyBackward config b) config m listed ∧
          ListsWithin (k.Mismatching config.checkPadding read)
            (k.Within config.checkPadding read m) listed)) := by
  constructor
  · intro b haccepted
    refine ⟨fun hempty => b.endsWith_of_isEmpty haccepted hempty, fun hnonempty => ?_⟩
    refine ForwardBuffers.checked_of_endsWith hlimit haccepted hnonempty fun k read h hends => ?_
    exact ⟨_, hends, k.listsWithin h⟩
  · intro b haccepted
    constructor
    · intro hempty
      exact ⟨_, BackwardBuffers.endsWith_of_isEmpty hlimit m.cast_nonneg haccepted hempty,
        listsWithin_of_all nodup_emptyVerdict fun _ => mem_emptyVerdict_iff⟩
    · intro hnonempty
      refine BackwardBuffers.checked_of_endsWith hlimit haccepted hnonempty fun k read h hends => ?_
      exact ⟨_, hends, k.listsWithin h⟩

/-- A run that is wrong in an element and in a cell of the padding. -/
theorem listed_mismatches_twoChannels :
    twoChannels.tolerance.maxReported = some ((32 : Nat) : Int) ∧
      twoChannelsBuffers.Accepted twoChannels ∧ twoChannels.shape.isEmpty = false ∧
      ∃ epsilon listed, twoChannels.epsilon = .ok epsilon ∧
        EndsWith (verifyForward twoChannels twoChannelsBuffers) twoChannels 32 listed := by
  have haccepted := twoChannelsBuffers_accepted
  have hlimit : twoChannels.tolerance.maxReported = some ((32 : Nat) : Int) := rfl
  obtain ⟨_, _, _, _, _, _, _, _, hlisted⟩ :=
    ((listed_mismatches hlimit).1 twoChannelsBuffers haccepted).2 rfl
  have hepsilon : twoChannels.epsilon = _ := epsilon_eq_ok (by decide)
  obtain ⟨listed, hends, _⟩ := hlisted _ hepsilon
  exact ⟨hlimit, haccepted, rfl, _, listed, hepsilon, hends⟩

/-- One channel of 33 values, one more than the limit lets through. -/
def longChannel : RunConfig where
  shape := ⟨1, 1, 1, 1, 33⟩
  normalization := { epsilon := 0, computeStatistics := false }
  epsilon_nonneg := twoChannels.epsilon_nonneg
  threads_pos := RunConfig.threads_pos_none

def longSource : Buffer := .ofList .float32 (List.replicate 33 0)

def longOutput : Buffer := .ofList .float32 (List.replicate 33 1)

/-- An output of ones where zeros are expected. -/
def longBuffers : ForwardBuffers where
  src := some longSource
  dst := some longOutput
  srcLayout := .dense longChannel.shape
  mean := some (.ofList .float32 [0])
  variance := some (.ofList .float32 [1])

/-- Whether a run fails with so many mismatches, none of them at a position. -/
def failsWithout (run : Logged Verdict) (count : Nat) (p : Position) : Bool :=
  match run.result with
  | .error (.verification report) =>
    report.mismatches.length = count && report.mismatches.all (·.position ≠ some p)
  | _ => false

/-- With the limit as it is by default, a run with 33 wrong values counts 32, and does not
list the last one. -/
theorem long_channel_cut :
    longChannel.tolerance.maxReported = some 32 ∧ longBuffers.Accepted longChannel ∧
      longChannel.epsilon.isOk = true ∧
      (let l := Layout.dense longChannel.shape
      let channel := longBuffers.channel (l.unpacked longSource) (l.unpacked longOutput) 0
      longChannel.shape.sites.length = 33 ∧ ∀ x ∈ longChannel.shape.sites,
        nearlyEqual (channel.dst x) (channel.expected longChannel x)
          (scaledEpsilon longChannel.tolerance.epsilonFactor longChannel.shape.reductionSize)
          (longChannel.tolerance.outputFloorFor longChannel.precision) = false) ∧
      failsWithout (verifyForward longChannel longBuffers true) 32 ⟨0, 0, 0, 0, 32⟩ = true := by
  have haccepted : longBuffers.Accepted longChannel :=
    ForwardBuffers.accepted_of_view (by decide +kernel) (by decide) (by decide) (by decide)
  exact ⟨rfl, haccepted, by decide +kernel⟩

end BatchNorm
