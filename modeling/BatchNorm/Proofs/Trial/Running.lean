import BatchNorm.Proofs.Outcome
import BatchNorm.Trial.Validation

/-!
# Running steps of a trial

`Trial.runOn` is what a step gives on a bench, with the bench that it leaves. A step in
parts stops at the first part that fails, and the bench keeps what happened up to there
(`runOn_bind_eq_ok_iff`, `runOn_bind_eq_error_iff`). The cases of a trial are such
parts: either each of them gives a verdict (`Completes`), or there is a first one that
fails (`StopsAt`), and a run tells which (`runCases_of_completes`, `runCases_of_stopsAt`).
-/

set_option autoImplicit false

namespace BatchNorm

variable {γ σ α β : Type}

namespace Bench

/-- The bench with more lines in its log. -/
def wroteAll (bench : Bench γ σ) (lines : List LogLine) : Bench γ σ :=
  { bench with log := bench.log ++ lines }

/-- The bench with one more line in its log. -/
def wrote (bench : Bench γ σ) (level : LogLevel) (message : String) : Bench γ σ :=
  bench.wroteAll [⟨level, message⟩]

/-- The bench with another state of the primitive. -/
def withState (bench : Bench γ σ) (state : σ) : Bench γ σ := { bench with state }

/-- The bench with the source of random numbers somewhere else. -/
def withSource (bench : Bench γ σ) (source : γ) : Bench γ σ := { bench with source }

end Bench

namespace Trial

/-- What a step gives on a bench, and the bench that it leaves. -/
def runOn (step : Trial γ σ α) (bench : Bench γ σ) : Except Failure α × Bench γ σ :=
  step.run.run bench

variable {bench : Bench γ σ}

@[simp] theorem runOn_pure (a : α) : (pure a : Trial γ σ α).runOn bench = (.ok a, bench) := rfl

@[simp] theorem runOn_ofExcept (x : Except Failure α) :
    (ofExcept x : Trial γ σ α).runOn bench = (x, bench) := by
  cases x with
  | ok a => rfl
  | error e => rfl

@[simp] theorem runOn_log (level : LogLevel) (message : String) :
    (log level message : Trial γ σ Unit).runOn bench = (.ok (), bench.wrote level message) := rfl

@[simp] theorem runOn_draw (next : γ → α × γ) :
    (draw next : Trial γ σ α).runOn bench =
      (.ok (next bench.source).1, bench.withSource (next bench.source).2) := rfl

/-- A step that cannot fail as a step of a trial. -/
theorem runOn_liftM (step : StateM (Bench γ σ) α) :
    (liftM step : Trial γ σ α).runOn bench =
      (.ok (step.run bench).1, (step.run bench).2) := rfl

theorem runOn_bind_of_ok {x : Trial γ σ α} {f : α → Trial γ σ β} {a : α} {middle : Bench γ σ}
    (h : x.runOn bench = (.ok a, middle)) : (x >>= f).runOn bench = (f a).runOn middle := by
  simp only [runOn, ExceptT.run_bind, StateT.run_bind] at h ⊢
  rw [h]
  rfl

theorem runOn_bind_of_error {x : Trial γ σ α} {f : α → Trial γ σ β} {e : Failure}
    {last : Bench γ σ} (h : x.runOn bench = (.error e, last)) :
    (x >>= f).runOn bench = (.error e, last) := by
  simp only [runOn, ExceptT.run_bind, StateT.run_bind] at h ⊢
  rw [h]
  rfl

theorem runOn_bind_eq_ok_iff {x : Trial γ σ α} {f : α → Trial γ σ β} {b : β}
    {last : Bench γ σ} :
    (x >>= f).runOn bench = (.ok b, last) ↔
      ∃ a middle, x.runOn bench = (.ok a, middle) ∧ (f a).runOn middle = (.ok b, last) := by
  rcases hx : x.runOn bench with ⟨e | a, middle⟩
  · rw [runOn_bind_of_error hx]
    simp
  · rw [runOn_bind_of_ok hx]
    constructor
    · exact fun h => ⟨a, middle, rfl, h⟩
    · rintro ⟨_, _, heq, h⟩
      cases heq
      exact h

theorem runOn_bind_eq_error_iff {x : Trial γ σ α} {f : α → Trial γ σ β} {e : Failure}
    {last : Bench γ σ} :
    (x >>= f).runOn bench = (.error e, last) ↔
      x.runOn bench = (.error e, last) ∨
        ∃ a middle, x.runOn bench = (.ok a, middle) ∧ (f a).runOn middle = (.error e, last) := by
  rcases hx : x.runOn bench with ⟨e' | a, middle⟩
  · rw [runOn_bind_of_error hx]
    simp
  · rw [runOn_bind_of_ok hx]
    constructor
    · exact fun h => Or.inr ⟨a, middle, rfl, h⟩
    · rintro (heq | ⟨_, _, heq, h⟩)
      · cases heq
      · cases heq
        exact h

theorem runOn_map_eq_ok_iff {x : Trial γ σ α} {f : α → β} {b : β} {last : Bench γ σ} :
    (f <$> x).runOn bench = (.ok b, last) ↔ ∃ a, x.runOn bench = (.ok a, last) ∧ f a = b := by
  rw [map_eq_pure_bind, runOn_bind_eq_ok_iff]
  simp only [runOn_pure, Prod.mk.injEq, Except.ok.injEq]
  constructor
  · rintro ⟨a, _, hx, hf, rfl⟩
    exact ⟨a, hx, hf⟩
  · rintro ⟨a, hx, hf⟩
    exact ⟨a, last, hx, hf, rfl⟩

theorem runOn_map_eq_error_iff {x : Trial γ σ α} {f : α → β} {e : Failure} {last : Bench γ σ} :
    (f <$> x).runOn bench = (.error e, last) ↔ x.runOn bench = (.error e, last) := by
  rw [map_eq_pure_bind, runOn_bind_eq_error_iff]
  simp

/-- A call hands the primitive its state, and keeps the state that comes back. -/
@[simp] theorem runOn_call (next : σ → Except Failure α × σ) :
    (call next : Trial γ σ α).runOn bench =
      ((next bench.state).1, bench.withState (next bench.state).2) :=
  (runOn_bind_of_ok rfl).trans (runOn_ofExcept _)

@[simp] theorem runOn_ofLogged (logged : Logged α) :
    (ofLogged logged : Trial γ σ α).runOn bench =
      (logged.result, bench.wroteAll logged.log) :=
  (runOn_bind_of_ok rfl).trans (runOn_ofExcept _)

end Trial

/-! ## Cases in order -/

/-- All of some cases give a verdict, one after the other. The results are those
verdicts under the names of the cases. -/
inductive Completes (run : TrialCase → Trial γ σ Verdict) :
    List TrialCase → Bench γ σ → List CaseResult → Bench γ σ → Prop where
  | nil {bench : Bench γ σ} : Completes run [] bench [] bench
  | cons {case : TrialCase} {rest : List TrialCase} {bench middle last : Bench γ σ}
      {verdict : Verdict} {results : List CaseResult}
      (first : (run case).runOn bench = (.ok verdict, middle))
      (others : Completes run rest middle results last) :
      Completes run (case :: rest) bench (⟨case.name, verdict⟩ :: results) last

/-- The first of some cases that fails is one that comes after some that give a
verdict. -/
structure StopsAt (run : TrialCase → Trial γ σ Verdict) (cases done : List TrialCase)
    (case : TrialCase) (bench : Bench γ σ) (results : List CaseResult) (e : Failure)
    (last : Bench γ σ) : Prop where
  split : ∃ rest, cases = done ++ case :: rest
  fails : ∃ middle, Completes run done bench results middle ∧
    (run case).runOn middle = (.error e, last)

variable {run : TrialCase → Trial γ σ Verdict} {cases : List TrialCase} {bench last : Bench γ σ}
  {results : List CaseResult}

/-- The results bear the names of the cases, in their order. -/
theorem Completes.names (h : Completes run cases bench results last) :
    results.map (·.name) = cases.map (·.name) := by
  induction h with
  | nil => rfl
  | cons first others ih => rw [List.map_cons, List.map_cons, ih]

theorem completes_or_stopsAt (run : TrialCase → Trial γ σ Verdict) (cases : List TrialCase)
    (bench : Bench γ σ) :
    (∃ results last, Completes run cases bench results last) ∨
      ∃ done case results e last, StopsAt run cases done case bench results e last := by
  induction cases generalizing bench with
  | nil => exact Or.inl ⟨[], bench, .nil⟩
  | cons case rest ih =>
      rcases hfirst : (run case).runOn bench with ⟨e | verdict, middle⟩
      · exact Or.inr ⟨[], case, [], e, middle, ⟨rest, rfl⟩, bench, .nil, hfirst⟩
      · rcases ih middle with ⟨results, last, hrest⟩ | ⟨done, next, results, e, last, hstops⟩
        · exact Or.inl ⟨_, last, .cons hfirst hrest⟩
        · obtain ⟨⟨rest', rfl⟩, middle', hdone, hfails⟩ := hstops
          exact Or.inr ⟨case :: done, next, _, e, last, ⟨rest', rfl⟩, middle',
            .cons hfirst hdone, hfails⟩

theorem runCases_cons_of_ok {case : TrialCase} {rest : List TrialCase} {verdict : Verdict}
    {middle : Bench γ σ} (h : (run case).runOn bench = (.ok verdict, middle)) :
    (runCases run (case :: rest)).run bench =
      let rest := (runCases run rest).run middle
      ((⟨case.name, verdict⟩ :: rest.1.1, rest.1.2), rest.2) := by
  simp only [runCases, StateT.run_bind]
  rw [Trial.runOn] at h
  rw [h]
  rfl

theorem runCases_cons_of_error {case : TrialCase} {rest : List TrialCase} {e : Failure}
    (h : (run case).runOn bench = (.error e, last)) :
    (runCases run (case :: rest)).run bench = (([], some e), last) := by
  simp only [runCases, StateT.run_bind]
  rw [Trial.runOn] at h
  rw [h]
  rfl

theorem runCases_of_completes (h : Completes run cases bench results last) :
    (runCases run cases).run bench = ((results, none), last) := by
  induction h with
  | nil => rfl
  | cons first others ih => rw [runCases_cons_of_ok first, ih]

/-- A run ends with the first case that fails, whatever cases come after it. -/
theorem runCases_of_stopsAt {done : List TrialCase} {case : TrialCase} {e : Failure}
    (h : StopsAt run cases done case bench results e last) :
    (runCases run cases).run bench = ((results, some e), last) := by
  obtain ⟨⟨rest, rfl⟩, middle, hdone, hfails⟩ := h
  induction hdone with
  | nil => exact runCases_cons_of_error hfails
  | cons first others ih => rw [List.cons_append, runCases_cons_of_ok first, ih hfails]

end BatchNorm
