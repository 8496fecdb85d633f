import BatchNorm.Numeric.Style
import BatchNorm.Text.Integer

/-!
# Mismatches and reports

A mismatch is one value which a primitive got wrong: where it is, what the
reference expects there and what was found. A report is the message about the
mismatches of one run.

* `Report.channels` lists the channels with a mismatch, ascending, each once.
* `Report.message` writes the first mismatches, as many as the report allows.
-/

set_option autoImplicit false

namespace BatchNorm

/-- The position of an element in a tensor: batch, channel, depth, height and
width. -/
structure Position where
  n : Int
  c : Int
  d : Int
  h : Int
  w : Int
deriving DecidableEq, Repr

/-- Numbers between parentheses: `(2, 3)`; one number keeps a comma. -/
def tupleText (xs : List Int) : String :=
  match xs with
  | [x] => "(" ++ toString x ++ ",)"
  | xs => "(" ++ ", ".intercalate (xs.map toString) ++ ")"

namespace Position

def toList (p : Position) : List Int := [p.n, p.c, p.d, p.h, p.w]

def render (p : Position) : String := tupleText p.toList

end Position

/-- The items that a limit lets through: all of them without one, the first
`k` for `k`, and all but the last `k` for `-k`. -/
def upTo {α : Type} (limit : Option Int) (xs : List α) : List α :=
  match limit with
  | none => xs
  | some (.ofNat k) => xs.take k
  | some (.negSucc k) => xs.take (xs.length - (k + 1))

/-- One value outside the tolerance. -/
structure Mismatch where
  /-- What the value is: `mean`, `dst`, `dst padding`, ... -/
  quantity : String
  channel : Int
  /-- The position of the value, for quantities that have one per element. -/
  position : Option Position
  expected : Float
  actual : Float
  deviation : Float
  epsilon : Float

namespace Mismatch

def place (m : Mismatch) : String :=
  match m.position with
  | none => s!"channel {m.channel}"
  | some p => s!"channel {m.channel} at (n, c, d, h, w)={p.render}"

def render (m : Mismatch) : String :=
  m.quantity ++ " mismatch, " ++ m.place ++ ": expected " ++ exactText m.expected ++
    ", got " ++ exactText m.actual ++ " (relative deviation " ++ roundedText 3 m.deviation ++
    " > " ++ roundedText 3 m.epsilon ++ ")"

/-- Puts a channel in its place in an ascending list, unless it is there. -/
def insertChannel (c : Int) : List Int → List Int
  | [] => [c]
  | x :: rest =>
    if c < x then c :: x :: rest
    else if c = x then x :: rest
    else x :: insertChannel c rest

/-- The channels of some mismatches, ascending, each once. -/
def channels (ms : List Mismatch) : List Int :=
  ms.foldr (fun m cs => insertChannel m.channel cs) []

/-- How many mismatches there are, and for what. -/
def headline (count : Nat) (description : String) : String :=
  s!"{count} mismatch(es) for {description}"

end Mismatch

/-- The mismatches of one run, and how many of them its message writes. -/
structure Report where
  description : String
  mismatches : List Mismatch
  /-- How many mismatches the message writes, as in `upTo`. -/
  maxReported : Int := 32

namespace Report

/-- The channels with a mismatch, ascending, each once. -/
def channels (r : Report) : List Int := Mismatch.channels r.mismatches

/-- How many mismatches the message leaves out, by its limit. -/
def hidden (r : Report) : Int := (r.mismatches.length : Int) - r.maxReported

/-- The lines of the message: the count, the first mismatches, and how many
are left out. -/
def lines (r : Report) : List String :=
  Mismatch.headline r.mismatches.length r.description ::
    (upTo (some r.maxReported) r.mismatches).map (fun m => "  " ++ m.render) ++
    (if 0 < r.hidden then [s!"  ... {r.hidden} more not shown"] else [])

/-- Whether the message can be written. Only a limit below zero hides more mismatches than
there are, and perhaps too many for a text. -/
def isWritable (r : Report) : Bool := 0 ≤ r.maxReported || Integer.isWritable r.hidden

def message (r : Report) : String := "\n".intercalate r.lines

end Report

end BatchNorm
