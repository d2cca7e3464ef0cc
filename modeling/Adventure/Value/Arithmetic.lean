import Adventure.Fault
import Adventure.Value

/-!
# Computing with numbers

Sums, differences and products of whole numbers are whole numbers as long as they fit into 64 bits,
and floating point numbers otherwise. Whether they fit is told from the wrapped result. Quotients
are always floating point numbers.
-/

namespace Adventure

/-! ## Whole numbers of 64 bits -/

/-- The sum, if it fits. It does unless both numbers have one sign and the wrapped sum the other. -/
def checkedAdd (x y : Int64) : Option Int64 :=
  let r := x + y
  if decide (0 ≤ x) != decide (0 ≤ y) || decide (0 ≤ r) == decide (0 ≤ x) then some r else none

/-- The difference, if it fits. It does unless the numbers have different signs and the wrapped
difference not that of the first. -/
def checkedSub (x y : Int64) : Option Int64 :=
  let r := x - y
  if decide (0 ≤ x) == decide (0 ≤ y) || decide (0 ≤ r) == decide (0 ≤ x) then some r else none

/-- The product, if it fits. It does if the wrapped product can be divided back; the one division
that does not fit itself is kept out. -/
def checkedMul (x y : Int64) : Option Int64 :=
  if x == 0 || y == 0 then some 0
  else if (x == -1 && y == Int64.minValue) || (y == -1 && x == Int64.minValue) then none
  else
    let r := x * y
    if r / y == x then some r else none

/-- The whole number that an operator other than division gives, if it fits. -/
def ArithOp.onInts (op : ArithOp) (x y : Int64) : Option Int64 :=
  match op with
  | .add => checkedAdd x y
  | .sub => checkedSub x y
  | _ => checkedMul x y

/-- What an operator other than division gives on floating point numbers. -/
def ArithOp.onFloats (op : ArithOp) (x y : Float) : Float :=
  match op with
  | .add => x + y
  | .sub => x - y
  | _ => x * y

/-- What an operator gives on two values. -/
def ArithOp.apply (op : ArithOp) (a b : Value) : Except Fault Value :=
  if !a.isNumeric || !b.isNumeric then .error .arithmeticOnOther
  else if op = .div then
    if b.toFloat == 0 then .error .divisionByZero else .ok (.float (a.toFloat / b.toFloat))
  else
    let floats := Value.float (op.onFloats a.toFloat b.toFloat)
    match a, b with
    | .int x, .int y =>
      match op.onInts x y with
      | some r => .ok (.int r)
      | none => .ok floats
    | _, _ => .ok floats

/-! ## Order -/

/-- How two floating point numbers are ordered. What is no number is equal to itself and below
everything else. -/
def compareFloats (x y : Float) : Ordering :=
  if (x.isNaN && !y.isNaN) || x < y then .lt
  else if (y.isNaN && !x.isNaN) || y < x then .gt
  else .eq

/-- How two values are ordered, if they are numbers. -/
def Value.order? (a b : Value) : Option Ordering :=
  match a, b with
  | .int x, .int y => some (compare x.toInt y.toInt)
  | a, b => if a.isNumeric && b.isNumeric then some (compareFloats a.toFloat b.toFloat) else none

/-- Whether a comparison holds for two values. -/
def CompareOp.holds (op : CompareOp) (a b : Value) : Except Fault Bool :=
  if op = .equal then .ok (a.equal b)
  else
    match a.order? b with
    | none => .error .comparisonOfOther
    | some order =>
      match op with
      | .less => .ok order.isLT
      | .greater => .ok order.isGT
      | .lessEqual => .ok order.isLE
      | _ => .ok order.isGE

end Adventure
