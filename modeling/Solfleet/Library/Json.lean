import Mathlib.Data.Int.Log
import Mathlib.Data.Rat.Floor
import Solfleet.Library.Dict

/-! # Decoded JSON values

A JSON document as a dynamically typed program sees it once it is decoded, and the
operations such a program applies to a value without asking for its type first: truth,
iteration, subscripts, and the arithmetic of integers and doubles. An operation that is not
defined on a value returns `none`.
-/

/-! ## Doubles -/

/-- A double, a finite one given by its exact value. The two zeros are one. -/
inductive PyFloat where
  | finite (value : Rat)
  | inf (negative : Bool)
  | nan
  deriving DecidableEq

/-- The nearest integer, an even one in a tie. -/
def roundHalfEven (q : Rat) : Int :=
  let below := ⌊q⌋
  if q - below < 1 / 2 then below
  else if 1 / 2 < q - below then below + 1
  else if below % 2 = 0 then below else below + 1

/-- The nearest value with a significand of 53 bits, no exponent being too large. -/
def roundDouble (q : Rat) : Rat :=
  let exponent : Int := max (-1074) (Int.log 2 |q| - 52)
  roundHalfEven (q / 2 ^ exponent) * 2 ^ exponent

/-- The value is beyond the largest double. -/
def Overflows (q : Rat) : Prop := 2 ^ 1024 ≤ |roundDouble q|

instance (q : Rat) : Decidable (Overflows q) := inferInstanceAs (Decidable (_ ≤ _))

namespace PyFloat

def ofRat (q : Rat) : PyFloat :=
  if Overflows q then .inf (decide (q < 0)) else .finite (roundDouble q)

def sub : PyFloat → PyFloat → PyFloat
  | .nan, _ => .nan
  | _, .nan => .nan
  | .finite a, .finite b => ofRat (a - b)
  | .inf s, .finite _ => .inf s
  | .finite _, .inf s => .inf !s
  | .inf s, .inf t => if s = t then .nan else .inf s

def positive : PyFloat → Bool
  | .finite q => decide (0 < q)
  | .inf negative => !negative
  | .nan => false

/-- `x < limit` -/
def below (limit : Rat) : PyFloat → Bool
  | .finite q => decide (q < limit)
  | .inf negative => negative
  | .nan => false

/-- `round(x, digits)` -/
def round (digits : Nat) : PyFloat → PyFloat
  | .finite q => ofRat (roundHalfEven (q * 10 ^ digits) / 10 ^ digits)
  | x => x

end PyFloat

/-! ## Numbers -/

inductive PyNumber where
  | int (n : Int)
  | float (x : PyFloat)
  deriving DecidableEq

namespace PyNumber

/-- An integer that meets a double becomes one, if it is not too large for that. -/
def toFloat? : PyNumber → Option PyFloat
  | .int n => if Overflows n then none else some (.finite (roundDouble n))
  | .float x => some x

def sub? : PyNumber → PyNumber → Option PyNumber
  | .int a, .int b => some (.int (a - b))
  | x, y =>
      match x.toFloat?, y.toFloat? with
      | some a, some b => some (.float (a.sub b))
      | _, _ => none

/-- `x / d` for a `d` that is itself a double. -/
def div? (d : Nat) : PyNumber → Option PyFloat
  | .int n => if Overflows (n / d) then none else some (.finite (roundDouble (n / d)))
  | .float (.finite q) => some (.ofRat (q / d))
  | .float x => some x

/-- `x <= limit` -/
def atMost (limit : Int) : PyNumber → Bool
  | .int n => decide (n ≤ limit)
  | .float (.finite q) => decide (q ≤ limit)
  | .float (.inf negative) => negative
  | .float .nan => false

/-- `max(0, x)` -/
def atLeastZero : PyNumber → PyNumber
  | .int n => .int (max 0 n)
  | .float x => if x.positive then .float x else .int 0

end PyNumber

/-! ## Values -/

inductive Json where
  | null
  | bool (b : Bool)
  | int (n : Int)
  | float (x : PyFloat)
  | str (s : String)
  | arr (items : List Json)
  | obj (members : List (String × Json))

namespace Json

def typeName : Json → String
  | null => "NoneType"
  | bool _ => "bool"
  | int _ => "int"
  | float _ => "float"
  | str _ => "str"
  | arr _ => "list"
  | obj _ => "dict"

def truthy : Json → Bool
  | null => false
  | bool b => b
  | int n => decide (n ≠ 0)
  | float (.finite q) => decide (q ≠ 0)
  | float _ => true
  | str s => decide (s ≠ "")
  | arr items => !items.isEmpty
  | obj members => !members.isEmpty

/-- Of a key that is given twice, the last value counts. -/
def find? (members : List (String × Json)) (key : String) : Option Json :=
  (Dict.ofPairs members).get? key

/-- A truth value counts as a number. -/
def number? : Json → Option PyNumber
  | bool b => some (.int (if b then 1 else 0))
  | int n => some (.int n)
  | float x => some (.float x)
  | _ => none

/-- What a loop over the value goes through. -/
def items? : Json → Option (List Json)
  | arr items => some items
  | str s => some (s.toList.map fun c => str (String.singleton c))
  | obj members => some ((Dict.ofPairs members).keys.map str)
  | _ => none

/-- The value can be a key. -/
def hashable : Json → Bool
  | arr _ => false
  | obj _ => false
  | _ => true

/-- Item `i`, counted from the end when `i` is negative. -/
def item? {α : Type} (xs : List α) (i : Int) : Option α :=
  if 0 ≤ i then xs[i.toNat]?
  else if -i ≤ xs.length then xs[xs.length - (-i).toNat]?
  else none

end Json
