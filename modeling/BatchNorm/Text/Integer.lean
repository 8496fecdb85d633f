/-!
# Whole numbers as texts

A whole number is written as decimal digits with an optional sign, with blanks
around it, and with single underscores between digits: ` -1_000 `. The digits
may be of any script. A text has room for a limited number of them.

* `Integer.ofText?` reads such a text and refuses every other.
* `Integer.isWritable` tells whether a number has no more digits than a text.
-/

set_option autoImplicit false

namespace BatchNorm

namespace Integer

/-- How many digits a text has room for. -/
def maxDigits : Nat := 4300

/-- Whether a natural number is written with at most `count` decimal digits. -/
def hasDigits : Nat → Nat → Bool
  | 0, n => n = 0
  | count + 1, n => n = 0 || hasDigits count (n / 10)

/-- Whether a whole number has no more digits than a text has room for. -/
def isWritable (n : Int) : Bool := hasDigits maxDigits n.natAbs

/-- Blank characters: the ASCII blanks and the separators and line breaks
beyond ASCII. -/
def isBlank (c : Char) : Bool :=
  let n := c.toNat
  (9 ≤ n && n ≤ 13) || n = 32 || n = 0x85 || n = 0xa0 || n = 0x1680 ||
    (0x2000 ≤ n && n ≤ 0x200a) || n = 0x2028 || n = 0x2029 || n = 0x202f || n = 0x205f ||
    n = 0x3000

/-- The zero of each script that has ten consecutive decimal digits. -/
def zeros : List Nat := [
  0x30, 0x660, 0x6f0, 0x7c0, 0x966, 0x9e6, 0xa66, 0xae6, 0xb66, 0xbe6, 0xc66, 0xce6, 0xd66,
  0xde6, 0xe50, 0xed0, 0xf20, 0x1040, 0x1090, 0x17e0, 0x1810, 0x1946, 0x19d0, 0x1a80, 0x1a90,
  0x1b50, 0x1bb0, 0x1c40, 0x1c50, 0xa620, 0xa8d0, 0xa900, 0xa9d0, 0xa9f0, 0xaa50, 0xabf0,
  0xff10, 0x104a0, 0x10d30, 0x11066, 0x110f0, 0x11136, 0x111d0, 0x112f0, 0x11450, 0x114d0,
  0x11650, 0x116c0, 0x11730, 0x118e0, 0x11950, 0x11c50, 0x11d50, 0x11da0, 0x16a60, 0x16ac0,
  0x16b50, 0x1d7ce, 0x1d7d8, 0x1d7e2, 0x1d7ec, 0x1d7f6, 0x1e140, 0x1e2f0, 0x1e950, 0x1fbf0]

/-- The value of a decimal digit. -/
def digit? (c : Char) : Option Nat :=
  zeros.findSome? fun origin =>
    if origin ≤ c.toNat ∧ c.toNat < origin + 10 then some (c.toNat - origin) else none

/-- Reads the digits after a first one; `value` is what has been read. An
underscore is read together with the digit that must follow it. -/
def readDigits (value : Nat) : List Char → Option Nat
  | [] => some value
  | c :: rest =>
    match digit? c, c, rest with
    | some d, _, rest => readDigits (10 * value + d) rest
    | none, '_', next :: rest => do readDigits (10 * value + (← digit? next)) rest
    | none, _, _ => none

/-- Reads one or more digits. -/
def readNatural : List Char → Option Nat
  | [] => none
  | c :: rest => do readDigits (← digit? c) rest

/-- The whole number that a text writes. All of its digits count, also leading zeros. -/
def ofText? (text : String) : Option Int :=
  let trimmed := ((text.toList.dropWhile isBlank).reverse.dropWhile isBlank).reverse
  if maxDigits < trimmed.countP (fun c => (digit? c).isSome) then none
  else match trimmed with
  | '-' :: rest => (readNatural rest).map fun n => -(n : Int)
  | '+' :: rest => (readNatural rest).map Int.ofNat
  | digits => (readNatural digits).map Int.ofNat

end Integer

end BatchNorm
