import BatchNorm.Text.Printable

/-!
# Quoted texts

A text is quoted with apostrophes, or with quotation marks if it has an
apostrophe and no quotation mark. Inside, the quote in use and the backslash
follow a backslash, and the characters that are not printable are escaped.
-/

set_option autoImplicit false

namespace BatchNorm

namespace Quoted

def apostrophe : Char := Char.ofNat 39

def quotationMark : Char := Char.ofNat 34

def backslash : Char := Char.ofNat 92

/-- The quote that encloses a text. -/
def quoteFor (cs : List Char) : Char :=
  if apostrophe ∈ cs ∧ quotationMark ∉ cs then quotationMark else apostrophe

/-- The hexadecimal digits of a code point, `width` of them. -/
def hex (width : Nat) (code : Nat) : List Char :=
  let digits := Nat.toDigits 16 code
  List.replicate (width - digits.length) '0' ++ digits

def escape (c : Char) : List Char :=
  let code := c.toNat
  if c = '\n' then [backslash, 'n']
  else if c = '\t' then [backslash, 't']
  else if c = '\r' then [backslash, 'r']
  else if code < 0x100 then backslash :: 'x' :: hex 2 code
  else if code < 0x10000 then backslash :: 'u' :: hex 4 code
  else backslash :: 'U' :: hex 8 code

def encode (quote : Char) (c : Char) : List Char :=
  if c = quote ∨ c = backslash then [backslash, c]
  else if isPrintable c then [c]
  else escape c

end Quoted

def quoted (text : String) : String :=
  let cs := text.toList
  let quote := Quoted.quoteFor cs
  String.ofList (quote :: cs.flatMap (Quoted.encode quote) ++ [quote])

end BatchNorm
