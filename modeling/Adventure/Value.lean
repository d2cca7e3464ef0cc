import Adventure.Decimal.FloatText
import Adventure.Syntax.Format

/-!
# Values

What expressions compute: nothing, a whole number of 64 bits, a floating point number, a text, or
dice. A variable that was declared and not assigned holds nothing, and so does a call of a function
that does not return.
-/

namespace Adventure

/-- The value of an expression. -/
inductive Value where
  /-- no value -/
  | nothing
  /-- a whole number -/
  | int (n : Int64)
  /-- a floating point number -/
  | float (x : Float)
  /-- a text -/
  | text (s : String)
  /-- dice, not rolled -/
  | dice (d : Dice)

instance : Inhabited Value := ⟨.nothing⟩

namespace Value

/-- The name of the kind of value. -/
def kind : Value → String
  | nothing => "none"
  | int _ => "int"
  | float _ => "float"
  | text _ => "string"
  | dice _ => "dice"

/-- Whether the value is a number. -/
def isNumeric : Value → Bool
  | int _ | float _ => true
  | _ => false

/-- The value as a whole number: a floating point number loses its fraction, and what is no number
counts as zero. -/
def toInt64 : Value → Int64
  | int n => n
  | float x => x.toInt64
  | _ => 0

/-- The value as a floating point number; what is no number counts as zero. -/
def toFloat : Value → Float
  | int n => n.toFloat
  | float x => x
  | _ => 0

/-- The dice of a value that holds dice. -/
def dice? : Value → Option Dice
  | dice d => some d
  | _ => none

/-- The value as it is shown. -/
def format : Value → String
  | nothing => "None"
  | int n => decimalText n
  | float x => FloatText.ofFloat x
  | text s => s
  | dice d => d.format

/-- Whether two values are equal. Numbers are compared by what they are worth, and other values
only with their own kind. -/
def equal : Value → Value → Bool
  | int m, int n => m == n
  | int m, float y => m.toFloat == y
  | float x, int n => x == n.toFloat
  | float x, float y => x == y
  | text s, text t => s == t
  | dice d, dice e => d == e
  | nothing, nothing => true
  | _, _ => false

end Value

end Adventure
