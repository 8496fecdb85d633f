import BatchNorm.Proofs.Trial.Running

/-!
# The parts of a case

A case of either direction has the same parts: buffers are filled, a log line is
written, the primitive is called with the buffers, and what it left is verified
(`Trial.inParts`). So a case that gives a verdict has gone through all of them
(`runOn_inParts_eq_ok_iff`), and one that fails has failed in one of them: while the
buffers were filled, in the primitive, or in the verification
(`runOn_inParts_eq_error_iff`).
-/

set_option autoImplicit false

namespace BatchNorm

namespace Trial

variable {γ σ β : Type}

/-- Fills buffers, writes a log line, hands the buffers to the primitive and verifies what
it left. -/
def inParts (fill : Trial γ σ β) (message : String) (next : β → σ → Except Failure β × σ)
    (verify : β → Logged Verdict) : Trial γ σ Verdict := do
  let given ← fill
  log .debug message
  let written ← call (next given)
  ofLogged (verify written)

variable {fill : Trial γ σ β} {message : String} {next : β → σ → Except Failure β × σ}
  {verify : β → Logged Verdict} {bench prepared last : Bench γ σ} {given : β}

theorem runOn_inParts_of_error {e : Failure} (h : fill.runOn bench = (.error e, last)) :
    (inParts fill message next verify).runOn bench = (.error e, last) :=
  runOn_bind_of_error h

/-- Once the buffers are filled, the call comes next. -/
theorem runOn_inParts_of_ok (h : fill.runOn bench = (.ok given, prepared)) :
    (inParts fill message next verify).runOn bench =
      match next given prepared.state with
      | (.error e, state) => (.error e, (prepared.wrote .debug message).withState state)
      | (.ok written, state) =>
        ((verify written).result,
          ((prepared.wrote .debug message).withState state).wroteAll (verify written).log) := by
  rw [inParts, runOn_bind_of_ok h, runOn_bind_of_ok (runOn_log _ _)]
  have hcall : (call (next given) : Trial γ σ β).runOn (prepared.wrote .debug message) =
      ((next given prepared.state).1,
        (prepared.wrote .debug message).withState (next given prepared.state).2) :=
    runOn_call (next given)
  rcases hnext : next given prepared.state with ⟨e | written, state⟩
  · rw [hnext] at hcall
    exact runOn_bind_of_error hcall
  · rw [hnext] at hcall
    exact (runOn_bind_of_ok hcall).trans (runOn_ofLogged _)

/-- A case gives a verdict exactly when each of its parts does what it is there for. -/
theorem runOn_inParts_eq_ok_iff {verdict : Verdict} :
    (inParts fill message next verify).runOn bench = (.ok verdict, last) ↔
      ∃ given prepared written state, fill.runOn bench = (.ok given, prepared) ∧
        next given prepared.state = (.ok written, state) ∧
        (verify written).result = .ok verdict ∧
        last = ((prepared.wrote .debug message).withState state).wroteAll (verify written).log := by
  constructor
  · intro h
    rcases hfill : fill.runOn bench with ⟨e | given, prepared⟩
    · rw [runOn_inParts_of_error hfill] at h
      cases h
    · rw [runOn_inParts_of_ok hfill] at h
      rcases hnext : next given prepared.state with ⟨e | written, state⟩
      · rw [hnext] at h
        cases h
      · rw [hnext] at h
        obtain ⟨hresult, hlast⟩ := Prod.mk.inj h
        exact ⟨given, prepared, written, state, rfl, hnext, hresult, hlast.symm⟩
  · rintro ⟨given, prepared, written, state, hfill, hnext, hresult, rfl⟩
    rw [runOn_inParts_of_ok hfill, hnext]
    exact congrArg (·, _) hresult

/-- A case fails exactly when its buffers cannot be filled, or the primitive fails, or the
verification does. -/
theorem runOn_inParts_eq_error_iff {e : Failure} :
    (inParts fill message next verify).runOn bench = (.error e, last) ↔
      fill.runOn bench = (.error e, last) ∨
        ∃ given prepared state, fill.runOn bench = (.ok given, prepared) ∧
          ((next given prepared.state = (.error e, state) ∧
              last = (prepared.wrote .debug message).withState state) ∨
            ∃ written, next given prepared.state = (.ok written, state) ∧
              (verify written).result = .error e ∧
              last = ((prepared.wrote .debug message).withState state).wroteAll
                (verify written).log) := by
  constructor
  · intro h
    rcases hfill : fill.runOn bench with ⟨e' | given, prepared⟩
    · rw [runOn_inParts_of_error hfill] at h
      cases h
      exact Or.inl rfl
    · rw [runOn_inParts_of_ok hfill] at h
      rcases hnext : next given prepared.state with ⟨e' | written, state⟩
      · rw [hnext] at h
        cases h
        exact Or.inr ⟨given, prepared, state, rfl, Or.inl ⟨hnext, rfl⟩⟩
      · rw [hnext] at h
        obtain ⟨hresult, hlast⟩ := Prod.mk.inj h
        exact Or.inr ⟨given, prepared, state, rfl, Or.inr ⟨written, hnext, hresult, hlast.symm⟩⟩
  · rintro (hfill | ⟨given, prepared, state, hfill, ⟨hnext, rfl⟩ | ⟨written, hnext, hresult, rfl⟩⟩)
    · exact runOn_inParts_of_error hfill
    · rw [runOn_inParts_of_ok hfill, hnext]
    · rw [runOn_inParts_of_ok hfill, hnext]
      exact congrArg (·, _) hresult

end Trial

section

variable {γ σ : Type} [RandomSource γ]

theorem runForwardCase_eq_inParts (primitive : Primitive σ) (name : String) (config : RunConfig)
    (layout : Layout) (raise : Bool) :
    runForwardCase (γ := γ) primitive name config layout raise =
      .inParts (Trial.forwardBuffers config layout) s!"running forward case {name}"
        (primitive.forward config) (verifyForward config · raise) := rfl

theorem runBackwardCase_eq_inParts (primitive : Primitive σ) (case : BackwardCase)
    (config : RunConfig) (layout diffLayout : Layout) (raise : Bool) :
    runBackwardCase (γ := γ) primitive case config layout diffLayout raise =
      .inParts (Trial.backwardBuffers config case.mode layout diffLayout)
        s!"running backward case {case.name}" (primitive.backward config)
        (verifyBackward config · raise) := rfl

end

end BatchNorm
