import BatchNorm.Numeric.Style
import BatchNorm.Text.Quoted

/-!
# Literal values

A setting that is given by hand can be any literal value: nothing, a truth
value, a number, a text, a list or a record. What a setting needs is asked of
it (`Literal.integer?`), and a message that refuses it shows it
(`Literal.render`).
-/

set_option autoImplicit false

namespace BatchNorm

inductive Literal where
  | null
  | bool (value : Bool)
  | int (value : Int)
  | float (value : Float)
  | text (value : String)
  | list (items : List Literal)
  /-- Named values, in the order in which they are written. -/
  | record (fields : List (String × Literal))

namespace Literal

/-- The whole number that a literal is. The truth values count as one and
zero; a number with a fraction or an exponent is not whole, whatever its
value. -/
def integer? : Literal → Option Int
  | .int value => some value
  | .bool true => some 1
  | .bool false => some 0
  | _ => none

mutual

/-- The whole numbers that showing a literal writes. -/
def integers : Literal → List Int
  | .int value => [value]
  | .list items => integersOfItems items
  | .record fields => integersOfFields fields
  | _ => []

def integersOfItems : List Literal → List Int
  | [] => []
  | item :: rest => integers item ++ integersOfItems rest

def integersOfFields : List (String × Literal) → List Int
  | [] => []
  | (_, value) :: rest => integers value ++ integersOfFields rest

end

mutual

def render : Literal → String
  | .null => "None"
  | .bool true => "True"
  | .bool false => "False"
  | .int value => toString value
  | .float value => exactText value
  | .text value => quoted value
  | .list items => "[" ++ ", ".intercalate (renderItems items) ++ "]"
  | .record fields => "\x7b" ++ ", ".intercalate (renderFields fields) ++ "\x7d"

def renderItems : List Literal → List String
  | [] => []
  | item :: rest => render item :: renderItems rest

def renderFields : List (String × Literal) → List String
  | [] => []
  | (name, value) :: rest => (quoted name ++ ": " ++ render value) :: renderFields rest

end

end Literal

end BatchNorm
