import BatchNorm.Run.Config

/-!
# The outcome of a run

A verdict is what a verification found: the mismatches, and the values of the
reference behind them. `conclude` writes the last log line of a verification and
turns mismatches into a failure when that is asked for.
-/

set_option autoImplicit false

namespace BatchNorm

inductive LogLevel where
  | debug
  | info
  | warning
deriving DecidableEq, Repr

def LogLevel.name : LogLevel → String
  | debug => "DEBUG"
  | info => "INFO"
  | warning => "WARNING"

structure LogLine where
  level : LogLevel
  message : String
deriving DecidableEq, Repr

/-- The values of the reference for each channel. A run that has nothing to
compare computes none. -/
structure ReferenceValues where
  /-- The means that the reference normalized with. -/
  mean : Option (List Float) := none
  variance : Option (List Float) := none
  diffScale : Option (List Float) := none
  diffShift : Option (List Float) := none

/-- The outcome of a verification. -/
structure Verdict where
  config : RunConfig
  mismatches : List Mismatch := []
  reference : ReferenceValues := {}

namespace Verdict

def passed (v : Verdict) : Bool := v.mismatches.isEmpty

def description (v : Verdict) : String := v.config.describe

/-- The report about the mismatches, which needs a limit on their number and a message that
can be written. -/
def report (v : Verdict) : Except Failure Report :=
  match v.config.tolerance.maxReported with
  | some maxReported =>
    let report : Report := ⟨v.description, v.mismatches, maxReported⟩
    if report.isWritable then .ok report else misuse .integerTooLong
  | none => misuse .unlimitedReport

/-- Fails with the report if there are mismatches. -/
def demandPassed (v : Verdict) : Except Failure Unit :=
  if v.passed then .ok ()
  else match v.report with
    | .ok report => .error (.verification report)
    | .error e => .error e

end Verdict

/-- What an operation gives, together with the log lines that it wrote before it
finished or failed. -/
structure Logged (α : Type) where
  log : List LogLine
  result : Except Failure α

namespace Logged

def fail {α : Type} (e : Failure) : Logged α := ⟨[], .error e⟩

/-- Writes a log line before an operation. -/
def after {α : Type} (level : LogLevel) (message : String) (next : Logged α) : Logged α :=
  ⟨⟨level, message⟩ :: next.log, next.result⟩

/-- Goes on only if a check passes. -/
def provided {α : Type} (check : Except Failure Unit) (next : Logged α) : Logged α :=
  match check with
  | .ok _ => next
  | .error e => .fail e

end Logged

/-- Finishes a verification: a passing one is logged as verified, a failing one
with its mismatches and channels, and it is a failure if `raiseOnFailure` is
set. -/
def conclude (verdict : Verdict) (raiseOnFailure : Bool) : Logged Verdict :=
  if verdict.passed then
    .after .debug s!"verified {verdict.description}" ⟨[], .ok verdict⟩
  else
    let channels := ", ".intercalate ((Mismatch.channels verdict.mismatches).map toString)
    let count := verdict.mismatches.length
    .after .warning
      s!"{count} mismatch(es) in channel(s) {channels} for {verdict.description}"
      ⟨[], if raiseOnFailure then verdict.demandPassed.map fun _ => verdict else .ok verdict⟩

end BatchNorm
