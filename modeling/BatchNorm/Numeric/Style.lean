import BatchNorm.Numeric.Decimal

/-!
# Texts of floating point numbers

Reports write numbers in two ways, and both are values of `NumberStyle`:

* `NumberStyle.exact` writes the fewest digits that read back as the same
  number, with `.0` after an integral one: `0.1`, `3.0`, `1e-05`, `1e+16`.
* `NumberStyle.rounded p` keeps `p` significant digits and drops the zeros at
  the end: `1e-05`, `0.333`, `1.23e+07`.
-/

set_option autoImplicit false

namespace BatchNorm

/-- How a floating point number is written. -/
structure NumberStyle where
  /-- How many significant digits are kept; without a count, the fewest that
  read back as the same number. -/
  significant : Option Nat
  /-- A number whose first digit counts this power of ten or a higher one is
  written with an exponent. -/
  positionalBelow : Int
  /-- What follows an integral number in positional form. -/
  integralEnd : String

namespace NumberStyle

/-- The fewest digits that read back as the same number. -/
def exact : NumberStyle := ⟨none, 16, ".0"⟩

/-- A number rounded to `places` significant digits. -/
def rounded (places : Nat) : NumberStyle := ⟨some places, places, ""⟩

/-- The least power of ten that the first digit of a positional number counts. -/
def positionalFrom : Int := -4

/-- Numbers with a decimal point: `0.00012`, `12.5`, `1200`. The digits have no
zero at the end. -/
def positional (style : NumberStyle) (digits : String) (exponent : Int) : String :=
  match exponent with
  | .ofNat zeros => digits ++ "".pushn '0' zeros ++ style.integralEnd
  | .negSucc e =>
    let places := e + 1
    if places < digits.length then
      let whole := digits.length - places
      String.ofList (digits.toList.take whole) ++ "." ++ String.ofList (digits.toList.drop whole)
    else "0." ++ "".pushn '0' (places - digits.length) ++ digits

/-- Numbers with an exponent of two digits or more: `1e-05`, `1.5e+16`. -/
def scientific (digits : String) (leading : Int) : String :=
  let mantissa := match digits.toList with
    | first :: [] => first.toString
    | first :: rest => first.toString ++ "." ++ String.ofList rest
    | [] => ""
  let sign := if leading < 0 then "-" else "+"
  let magnitude := toString leading.natAbs
  mantissa ++ "e" ++ sign ++ (if magnitude.length < 2 then "0" else "") ++ magnitude

/-- The text of a decimal number. -/
def decimal (style : NumberStyle) (d : Decimal) : String :=
  let d := d.trim
  let digits := toString d.digits
  let leading := d.exponent + digits.length - 1
  if positionalFrom ≤ leading ∧ leading < style.positionalBelow then
    style.positional digits d.exponent
  else scientific digits leading

/-- The digits of `mantissa * 2 ^ exponent` in a style. -/
def digitsOf (style : NumberStyle) (mantissa : Nat) (exponent : Int) : Decimal :=
  match style.significant with
  | none => Decimal.shortest mantissa exponent
  | some places =>
    match exponent with
    | .ofNat e => Decimal.ofQuotient places (mantissa * Nat.pow 2 e) 1
    | .negSucc e => Decimal.ofQuotient places mantissa (Nat.pow 2 (e + 1))

def signText : Float.Model.UnpackedFloat.Sign → String
  | .positive => ""
  | .negative => "-"

/-- The text of a binary64 number. A NaN is written without a sign. -/
def render (style : NumberStyle) (x : Float) : String :=
  match Exact.ofFloat x with
  | .notANumber => "nan"
  | .infinity sign => signText sign ++ "inf"
  | .zero sign => signText sign ++ "0" ++ style.integralEnd
  | .finite sign mantissa exponent _ =>
    signText sign ++ style.decimal (style.digitsOf mantissa exponent)

end NumberStyle

/-- The text of a number which reads back as the same number. -/
def exactText (x : Float) : String := NumberStyle.exact.render x

/-- The text of a number rounded to `places` significant digits. -/
def roundedText (places : Nat) (x : Float) : String := (NumberStyle.rounded places).render x

end BatchNorm
