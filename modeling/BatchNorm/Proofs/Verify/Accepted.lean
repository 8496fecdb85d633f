import BatchNorm.Proofs.Comparison.Listing
import BatchNorm.Proofs.Numeric.Finite
import BatchNorm.Run.Sweep
import BatchNorm.Run.Verdict
import BatchNorm.Verify.Inputs

/-!
# Accepted buffers

A buffer that passes its check holds what it is read for: an activation buffer a tensor,
a buffer of channel values an entry for each channel. What is read of an activation are
the channels of the tensor (`Readable`), if they can be indexed: the tables of indices
have to exist, as they do where five words can be counted for each place of the output
(`Indexable`, `Fits.indexable`). With all reads settled, the steps of a verification that
are left cannot fail: working through the channels (`sweep_eq_ok`), the largest deviation
allowed (`epsilon_eq_ok`) and the conclusion (`conclude_result`).
-/

set_option autoImplicit false

namespace BatchNorm

/-! ## Tensors with elements -/

theorem channels_pos {s : Shape} (h : s.isEmpty = false) : 0 < s.channels := by
  rcases Nat.eq_zero_or_pos s.channels with h0 | hpos
  · simp [Shape.isEmpty, Shape.elementCount, h0] at h
  · exact hpos

theorem reductionSize_pos {s : Shape} (h : s.isEmpty = false) : 0 < s.reductionSize := by
  rcases Nat.eq_zero_or_pos s.reductionSize with h0 | hpos
  · simp [Shape.isEmpty, Shape.elementCount, h0] at h
  · exact hpos

/-! ## Numbers that can be written -/

namespace Integer

theorem hasDigits_iff (count n : Nat) : hasDigits count n = true ↔ n < 10 ^ count := by
  induction count generalizing n with
  | zero => simp [hasDigits]
  | succ count ih =>
      have hstep : n / 10 < 10 ^ count ↔ n < 10 ^ (count + 1) := by
        rw [Nat.pow_succ, Nat.div_lt_iff_lt_mul (by decide)]
      have hzero : n = 0 → n < 10 ^ (count + 1) := fun h => h ▸ Nat.pow_pos (by decide)
      rw [hasDigits, Bool.or_eq_true, decide_eq_true_iff, ih, hstep]
      exact or_iff_right_of_imp hzero

theorem isWritable_natCast (n : Nat) : isWritable n = true ↔ n < 10 ^ maxDigits :=
  hasDigits_iff maxDigits n

/-- What fits into a word can be written. -/
theorem isWritable_of_lt {n : Nat} (h : n < 2 ^ 63) : isWritable n = true := by
  refine (isWritable_natCast n).mpr (Nat.lt_of_lt_of_le h ?_)
  calc 2 ^ 63 ≤ 10 ^ 19 := by decide
    _ ≤ 10 ^ maxDigits := Nat.pow_le_pow_right (by decide) (by decide)

end Integer

/-- The extents of a shape can all be written. -/
def Shape.Writable (s : Shape) : Prop := ∀ n ∈ s.dims, Integer.isWritable n = true

instance (s : Shape) : Decidable s.Writable :=
  inferInstanceAs (Decidable (∀ n ∈ s.dims, Integer.isWritable n = true))

theorem Shape.demandTexts_eq_ok_iff {s : Shape} : s.demandTexts = .ok () ↔ s.Writable := by
  unfold Shape.demandTexts Shape.Writable
  rw [← List.all_eq_true]
  split
  · rename_i hall
    exact iff_of_true rfl hall
  · rename_i hlong
    exact iff_of_false nofun hlong

theorem Shape.demandTexts_eq_misuse {s : Shape} (h : ¬ s.Writable) :
    s.demandTexts = misuse .integerTooLong :=
  if_neg fun hall => h (List.all_eq_true.mp hall)

theorem Logged.result_of_provided {α : Type} {check : Except Failure Unit} {next : Logged α} {x : α}
    (h : (Logged.provided check next).result = .ok x) : check = .ok () ∧ next.result = .ok x := by
  cases check with
  | error e => cases h
  | ok u => exact ⟨rfl, h⟩

/-! ## Activations -/

/-- An activation buffer that belongs to a configuration: its layout has the shape
of the configuration and fits into it, and it has the right element type. -/
structure Fits (config : RunConfig) (type : ElementType) (b : Buffer) (l : Layout) : Prop where
  shape : l.shape = config.shape
  size : l.size ≤ b.size
  type : b.type = type

theorem activation_eq_ok_iff {config : RunConfig} {type : ElementType} {role : Role}
    {buffer : Option Buffer} {l : Layout} {b : Buffer} :
    activation config type role buffer l = .ok b ↔ buffer = some b ∧ Fits config type b l := by
  simp only [activation, bind_eq_ok_iff, require_eq_ok_iff, pure_eq_ok, Except.ok.injEq]
  constructor
  · rintro ⟨b', hbuffer, _, hshape, _, hsize, _, htype, rfl⟩
    cases buffer with
    | none => cases hbuffer
    | some b'' =>
        obtain rfl : b'' = b' := Except.ok.inj hbuffer
        exact ⟨rfl, hshape, hsize, htype⟩
  · rintro ⟨rfl, hshape, hsize, htype⟩
    exact ⟨b, rfl, (), hshape, (), hsize, (), htype, rfl⟩

namespace Fits

variable {config : RunConfig} {type : ElementType} {b : Buffer} {l : Layout}

theorem unpack (h : Fits config type b l) : l.unpack b = .ok (l.unpacked b) :=
  Layout.unpack_eq_ok h.size

theorem site_mem (h : Fits config type b l) {c : Nat} (hc : c < config.shape.channels) {x : Site}
    (hx : x ∈ config.shape.sites) : x.inChannel c ∈ l.shape.positions := by
  rw [h.shape]
  exact Shape.inChannel_mem_positions hx hc

theorem channelOffsets_eq (h : Fits config type b l) (c : Int) :
    l.channelOffsets c = config.shape.sites.map fun x => l.offset (x.inChannel c) := by
  rw [Layout.channelOffsets, h.shape]

theorem channel_inside (h : Fits config type b l) {c : Nat} (hc : c < config.shape.channels) :
    ∀ i ∈ l.channelOffsets c, b.Inside i :=
  Layout.inside_of_mem_channelOffsets h.size (by rwa [h.shape])

/-- The elements of a channel are those of the tensor. -/
theorem channelFloats_eq (h : Fits config type b l) {c : Nat} (hc : c < config.shape.channels) :
    b.gatherFloats (l.channelOffsets c) =
      .ok (config.shape.sites.map fun x => (l.unpacked b).floatAt (x.inChannel c)) := by
  rw [Buffer.gatherFloats_eq_ok (h.channel_inside hc), h.channelOffsets_eq, List.map_map]
  refine congrArg Except.ok (List.map_congr_left fun x hx => ?_)
  exact (Layout.floatAt_unpacked (h.site_mem hc hx)).symm

/-- The number of elements that are reduced into one channel is within the
buffer. -/
theorem reductionSize_le (h : Fits config type b l) (hc : 0 < config.shape.channels) :
    config.shape.reductionSize ≤ b.size := by
  have hpadded : 1 ≤ l.paddedChannels := by
    have hle := l.channels_le
    rw [h.shape] at hle
    omega
  calc config.shape.reductionSize
      = config.shape.batch * 1 * config.shape.spatialSize := by
        rw [Nat.mul_one]
        rfl
    _ ≤ config.shape.batch * l.paddedChannels * config.shape.spatialSize :=
        Nat.mul_le_mul_right _ (Nat.mul_le_mul_left _ hpadded)
    _ = l.size := by rw [Layout.size, h.shape]
    _ ≤ b.size := h.size

/-- A tensor with elements takes places in memory. -/
theorem size_pos (h : Fits config type b l) (hnonempty : config.shape.isEmpty = false) :
    0 < l.size := by
  have hchannels := channels_pos hnonempty
  have hreduced := reductionSize_pos hnonempty
  have hle := l.channels_le
  rw [h.shape] at hle
  rw [Shape.reductionSize] at hreduced
  rw [Layout.size, h.shape]
  exact Nat.mul_pos (Nat.mul_pos (Nat.pos_of_mul_pos_right hreduced) (by omega))
    (Nat.pos_of_mul_pos_left hreduced)

end Fits

/-! ## Indices -/

/-- What the comparison of a run with elements needs for its indices: the elements of the
activation buffers are counted in words, and the tables of the sites and of the padding that
is checked exist. -/
structure Indexable (config : RunConfig) (arrays : List Buffer) (output : Layout) : Prop where
  counted : ∀ b ∈ arrays, b.size < 2 ^ 63
  sites : output.demandSites = .ok ()
  padding : config.checkPadding = true → output.Paddable

/-- What cannot be indexed lacks the count of a buffer, the table of the sites or, if only
that, the table of the padding. -/
theorem not_indexable_cases {config : RunConfig} {arrays : List Buffer} {output : Layout}
    (h : ¬ Indexable config arrays output) :
    (¬ ∀ b ∈ arrays, b.size < 2 ^ 63) ∨ output.demandSites ≠ .ok () ∨
      ((∀ b ∈ arrays, b.size < 2 ^ 63) ∧ output.demandSites = .ok () ∧
        config.checkPadding = true ∧ ¬ output.Paddable) := by
  by_cases hcounted : ∀ b ∈ arrays, b.size < 2 ^ 63
  · by_cases hsites : output.demandSites = .ok ()
    · refine Or.inr (Or.inr ⟨hcounted, hsites, Classical.not_imp.mp fun hpadding => ?_⟩)
      exact h ⟨hcounted, hsites, hpadding⟩
    · exact Or.inr (Or.inl hsites)
  · exact Or.inl hcounted

theorem demandCounts_cons (b : Buffer) (rest : List Buffer) :
    Buffer.demandCounts (b :: rest) =
      Buffer.demandBytes b.size >>= fun _ => Buffer.demandCounts rest := rfl

theorem demandCounts_eq_ok_iff {arrays : List Buffer} :
    Buffer.demandCounts arrays = .ok () ↔ ∀ b ∈ arrays, b.size < 2 ^ 63 := by
  induction arrays with
  | nil => exact iff_of_true rfl nofun
  | cons b rest ih =>
      rw [demandCounts_cons, bind_eq_ok_iff, List.forall_mem_cons, ← ih,
        ← demandBytes_eq_ok_iff]
      exact ⟨fun ⟨_, hb, hrest⟩ => ⟨hb, hrest⟩, fun ⟨hb, hrest⟩ => ⟨(), hb, hrest⟩⟩

theorem demandCounts_eq_misuse {arrays : List Buffer}
    (h : Buffer.demandCounts arrays ≠ .ok ()) :
    Buffer.demandCounts arrays = misuse .arrayTooLarge := by
  induction arrays with
  | nil => exact absurd rfl h
  | cons b rest ih =>
      rw [demandCounts_cons] at h ⊢
      by_cases hb : Buffer.demandBytes b.size = .ok ()
      · rw [hb, ok_bind] at h ⊢
        exact ih h
      · rw [demandBytes_eq_misuse hb]
        rfl

section

variable {config : RunConfig} {type : ElementType} {b : Buffer} {l : Layout} {arrays : List Buffer}

/-- A run can be indexed where five words can be counted for each place of the output. -/
theorem Fits.indexable (h : Fits config type b l) (hnonempty : config.shape.isEmpty = false)
    (hcounted : ∀ b ∈ arrays, b.size < 2 ^ 63) (hwords : 40 * l.size < 2 ^ 63) :
    Indexable config arrays l := by
  have hcountable := Layout.countable_of_size_pos (h.size_pos hnonempty) hwords
  exact ⟨hcounted, hcountable.demandSites, fun _ => hcountable.paddable⟩

/-- An activation buffer of which every channel can be read. -/
structure Readable (config : RunConfig) (type : ElementType) (b : Buffer) (l : Layout) : Prop
    extends Fits config type b l where
  nonempty : config.shape.isEmpty = false
  counted : b.size < 2 ^ 63
  sites : l.demandSites = .ok ()

namespace Readable

/-- What is in memory has extents that can be written. -/
theorem demandTexts_eq_ok (h : Readable config type b l) : config.shape.demandTexts = .ok () := by
  refine Shape.demandTexts_eq_ok_iff.mpr fun n hn => Integer.isWritable_of_lt ?_
  rw [← h.shape] at hn
  exact (Layout.le_size_of_mem_dims (h.size_pos h.nonempty) hn).trans_lt
    (lt_of_le_of_lt h.size h.counted)

theorem channelIndices_eq_ok (h : Readable config type b l) {c : Nat}
    (hc : c < config.shape.channels) : l.channelIndices c = .ok (l.channelOffsets c) :=
  Layout.channelIndices_eq_offsets h.sites (h.size_pos h.nonempty)
    (lt_of_le_of_lt h.size h.counted) (by rwa [h.shape])

/-- The values of a channel are those of the tensor. -/
theorem channelValues_eq (h : Readable config type b l) {c : Nat} (hc : c < config.shape.channels) :
    l.channelValues b c =
      .ok (config.shape.sites.map fun x => (l.unpacked b).singleAt (x.inChannel c)) := by
  rw [Layout.channelValues, h.channelIndices_eq_ok hc, ok_bind,
    Buffer.gatherSingles_eq_ok (h.channel_inside hc), h.channelOffsets_eq, List.map_map]
  refine congrArg Except.ok (List.map_congr_left fun x hx => ?_)
  exact (Layout.singleAt_unpacked (h.site_mem hc hx)).symm

/-- The coordinates of the sites. -/
theorem siteColumns_eq_ok (h : Readable config type b l) :
    l.siteColumns = .ok config.shape.columns := by
  simp only [Layout.siteColumns, h.sites, ok_bind, pure_eq_ok, h.shape]

/-- The padding of the output can only lack its table. -/
theorem paddingMismatches_eq_arrayTooLarge (h : Readable config type b l) (hpadding : ¬ l.Paddable)
    (quantity : String) (limit : Option Int) :
    paddingMismatches quantity b l limit = misuse .arrayTooLarge := by
  obtain ⟨hpad, htable⟩ := Classical.not_imp.mp hpadding
  have hmisuse := Layout.demandPadding_eq_arrayTooLarge (h.size_pos h.nonempty)
    (lt_of_le_of_lt h.size h.counted) htable
  exact paddingMismatches_eq_misuse hpad hmisuse quantity b limit

end Readable

end

/-! ## Channel values -/

/-- The entry of a channel in a buffer of channel values. -/
def entry (buffer : Option Buffer) (c : Nat) : Float :=
  match buffer with
  | some b => b.floatAt c
  | none => 0

theorem channelArray_eq_ok_iff {channels : Nat} {role : Role} {buffer : Option Buffer}
    {b : Buffer} :
    channelArray channels role buffer = .ok b ↔
      buffer = some b ∧ channels ≤ b.size ∧ b.type.isFloating = true := by
  simp only [channelArray, bind_eq_ok_iff, require_eq_ok_iff, pure_eq_ok, Except.ok.injEq]
  constructor
  · rintro ⟨b', hbuffer, _, hsize, _, htype, rfl⟩
    cases buffer with
    | none => cases hbuffer
    | some b'' =>
        obtain rfl : b'' = b' := Except.ok.inj hbuffer
        exact ⟨rfl, hsize, htype⟩
  · rintro ⟨rfl, hsize, htype⟩
    exact ⟨b, rfl, (), hsize, (), htype, rfl⟩

theorem readFloat_channelArray {channels c : Nat} {role : Role} {buffer : Option Buffer}
    {b : Buffer} (h : channelArray channels role buffer = .ok b) (hc : c < channels) :
    b.readFloat c = .ok (entry buffer c) := by
  obtain ⟨rfl, hsize, _⟩ := channelArray_eq_ok_iff.mp h
  exact Buffer.readFloat_eq_ok ⟨Int.natCast_nonneg c, by omega⟩

/-! ## The steps that are left -/

theorem epsilon_eq_ok {config : RunConfig} (h : config.shape.reductionSize < 2 ^ 64) :
    config.epsilon =
      .ok (scaledEpsilon config.tolerance.epsilonFactor config.shape.reductionSize) :=
  if_pos (isFinite_natCast h)

theorem RunConfig.threads_pos_none (n : Int) (h : none = some n) : 1 ≤ n := by
  cases h

theorem sweep_eq_ok {α : Type} {config : RunConfig} {task : Nat → Except Failure α}
    {result : Nat → α} (h : ∀ c, c < config.shape.channels → task c = .ok (result c)) :
    sweep task config.shape.channels config.numThreads =
      .ok ((List.range config.shape.channels).map result) := by
  unfold sweep
  -- of the three branches the last one is the pool without threads
  split_ifs with hnone hpool
  · have hzero : config.shape.channels = 0 := by omega
    rw [hzero, List.range_zero, List.map_nil]
  · exact mapM_eq_ok fun c hc => h c (List.mem_range.mp hc)
  · exact absurd (Or.inr (Or.inr fun n hn => config.threads_pos n hn)) hpool

theorem conclude_result (verdict : Verdict) (raise : Bool) :
    (conclude verdict raise).result =
      if raise then verdict.demandPassed.map fun _ => verdict else .ok verdict := by
  by_cases hpassed : verdict.passed = true
  · have hdemand : verdict.demandPassed = .ok () := if_pos hpassed
    cases raise with
    | false => simp [conclude, hpassed, Logged.after]
    | true => simp [conclude, hpassed, hdemand, Logged.after, Except.map]
  · simp [conclude, hpassed, Logged.after]

theorem conclude_result_false (verdict : Verdict) :
    (conclude verdict false).result = .ok verdict := conclude_result verdict false

theorem conclude_result_of_passed {verdict : Verdict} (h : verdict.passed = true) (raise : Bool) :
    (conclude verdict raise).result = .ok verdict := by
  rw [conclude_result, Verdict.demandPassed, if_pos h]
  cases raise with
  | false => rfl
  | true => rfl

/-- A run that gives a verdict concludes with it. -/
theorem eq_of_conclude_result {verdict verdict' : Verdict} {raise : Bool}
    (h : (conclude verdict raise).result = .ok verdict') : verdict' = verdict := by
  rw [conclude_result] at h
  cases raise with
  | false => exact (Except.ok.inj h).symm
  | true =>
      rw [if_pos rfl] at h
      rcases hdemand : verdict.demandPassed with e | _
      · rw [hdemand] at h
        exact absurd h nofun
      · rw [hdemand] at h
        exact (Except.ok.inj h).symm

/-- The report on a verdict, of which the message writes `limit` mismatches. -/
def Verdict.reportUpTo (verdict : Verdict) (limit : Int) : Report :=
  ⟨verdict.config.describe, verdict.mismatches, limit⟩

/-- A verdict that has to pass: it is given if it does, and otherwise it is a
failure with its report, if the message of that can be written. -/
def Verdict.orFail (verdict : Verdict) (limit : Int) : Except Failure Verdict :=
  if verdict.passed then .ok verdict
  else if (verdict.reportUpTo limit).isWritable then
    .error (.verification (verdict.reportUpTo limit))
  else misuse .integerTooLong

namespace Verdict

variable {verdict : Verdict} {limit : Int}

theorem report_eq (hlimit : verdict.config.tolerance.maxReported = some limit) :
    verdict.report = if (verdict.reportUpTo limit).isWritable then .ok (verdict.reportUpTo limit)
      else misuse .integerTooLong := by
  rw [Verdict.report, hlimit]
  rfl

theorem isWritable_reportUpTo (h : 0 ≤ limit) : (verdict.reportUpTo limit).isWritable = true :=
  Bool.or_eq_true_iff.mpr (Or.inl (decide_eq_true h))

theorem orFail_of_passed (h : verdict.passed = true) : verdict.orFail limit = .ok verdict :=
  if_pos h

theorem orFail_of_failed (h : ¬ verdict.passed = true)
    (hreport : (verdict.reportUpTo limit).isWritable = true) :
    verdict.orFail limit = .error (.verification (verdict.reportUpTo limit)) := by
  rw [orFail, if_neg h, if_pos hreport]

/-- A verdict that does not pass gives a failure. -/
theorem exists_orFail_eq_error (h : verdict.passed = false) (limit : Int) :
    ∃ e, verdict.orFail limit = .error e ∧
      ((verdict.reportUpTo limit).isWritable = true →
        e = .verification (verdict.reportUpTo limit)) := by
  have hfailed := Bool.eq_false_iff.mp h
  by_cases hreport : (verdict.reportUpTo limit).isWritable = true
  · exact ⟨_, orFail_of_failed hfailed hreport, fun _ => rfl⟩
  · exact ⟨_, by rw [orFail, if_neg hfailed, if_neg hreport]; rfl, fun h => absurd h hreport⟩

end Verdict

theorem conclude_result_true {verdict : Verdict} {limit : Int}
    (hlimit : verdict.config.tolerance.maxReported = some limit) :
    (conclude verdict true).result = verdict.orFail limit := by
  rw [conclude_result, if_pos rfl, Verdict.demandPassed, Verdict.report_eq hlimit, Verdict.orFail]
  split_ifs
  · rfl
  · rfl
  · rfl

/-- Mismatches that are raised are reported, for a limit that is not below zero. -/
theorem conclude_result_of_failed {verdict : Verdict} {limit : Int}
    (hlimit : verdict.config.tolerance.maxReported = some limit) (hpos : 0 ≤ limit)
    (hfailed : ¬ verdict.passed = true) :
    (conclude verdict true).result = .error (.verification (verdict.reportUpTo limit)) := by
  rw [conclude_result_true hlimit]
  exact Verdict.orFail_of_failed hfailed (Verdict.isWritable_reportUpTo hpos)

/-- A run that need not pass gives its verdict. -/
theorem bind_conclude_false (epsilon : Except Failure Float) (verdict : Float → Verdict) :
    (epsilon >>= fun e => (conclude (verdict e) false).result) = epsilon.map verdict := by
  cases epsilon with
  | error e => rfl
  | ok e => exact conclude_result_false _

/-- A run that has to pass gives its verdict if it passes. -/
theorem bind_conclude_true {verdict : Float → Verdict} {limit : Int}
    (hlimit : ∀ e, (verdict e).config.tolerance.maxReported = some limit)
    (epsilon : Except Failure Float) :
    (epsilon >>= fun e => (conclude (verdict e) true).result) =
      epsilon >>= fun e => (verdict e).orFail limit := by
  cases epsilon with
  | error e => rfl
  | ok e => exact conclude_result_true (hlimit e)

/-- A result is a verdict, or a failure that reports mismatches. -/
def VerdictOrReport (result : Except Failure Verdict) : Prop :=
  (∃ verdict, result = .ok verdict) ∨ ∃ report, result = .error (.verification report)

/-- A verdict that has to pass leaves a report if the message of that can be written. -/
theorem Verdict.verdictOrReport_orFail {verdict : Verdict} {limit : Int}
    (hreport : (verdict.reportUpTo limit).isWritable = true) :
    VerdictOrReport (verdict.orFail limit) := by
  by_cases hpassed : verdict.passed = true
  · exact Or.inl ⟨verdict, orFail_of_passed hpassed⟩
  · exact Or.inr ⟨_, orFail_of_failed hpassed hreport⟩

/-- A verification that comes to a verdict about a configuration, whether it raises what is
wrong with it or not. -/
def Concludes (config : RunConfig) (verify : Bool → Logged Verdict) : Prop :=
  ∃ verdict : Verdict, verdict.config = config ∧
    ∀ raise, (verify raise).result = (conclude verdict raise).result

theorem Concludes.verdictOrReport {config : RunConfig} {verify : Bool → Logged Verdict}
    (h : Concludes config verify) {raise : Bool}
    (hlimit : raise = true → ∃ limit, config.tolerance.maxReported = some limit ∧ 0 ≤ limit) :
    VerdictOrReport (verify raise).result := by
  obtain ⟨verdict, rfl, hresult⟩ := h
  rw [hresult]
  cases raise with
  | false => exact Or.inl ⟨_, conclude_result_false verdict⟩
  | true =>
      obtain ⟨limit, hlimit, hpos⟩ := hlimit rfl
      rw [conclude_result_true hlimit]
      exact Verdict.verdictOrReport_orFail (Verdict.isWritable_reportUpTo hpos)

theorem Concludes.exists_quiet {config : RunConfig} {verify : Bool → Logged Verdict}
    (h : Concludes config verify) : ∃ verdict, (verify false).result = .ok verdict := by
  obtain ⟨verdict, _, hresult⟩ := h
  exact ⟨verdict, (hresult false).trans (conclude_result_false verdict)⟩

/-- The verdict is given, or it has to pass. -/
theorem Concludes.exists_verdict {config : RunConfig} {verify : Bool → Logged Verdict} {limit : Int}
    (h : Concludes config verify) (hlimit : config.tolerance.maxReported = some limit) :
    ∃ verdict : Verdict, verdict.config = config ∧ (verify false).result = .ok verdict ∧
      (verify true).result = verdict.orFail limit := by
  obtain ⟨verdict, rfl, hresult⟩ := h
  exact ⟨verdict, rfl, (hresult false).trans (conclude_result_false verdict),
    (hresult true).trans (conclude_result_true hlimit)⟩

end BatchNorm
