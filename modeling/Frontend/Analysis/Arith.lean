import Frontend.Analysis.Coerce

/-! Arithmetic, negation and boolean operators. What is known is computed, and the rest becomes code. -/

namespace Frontend

namespace Ty

def isArithOperand : Ty → Bool
  | vector _ t => t.isNumeric
  | undefined => true
  | t => t.isNumeric

def takesComptimeInt : Ty → Bool
  | int _ | float _ | comptimeFloat => true
  | _ => false

/-- The type to which both operands of a binary operator are converted. -/
def peer? (lhs rhs : Ty) : Option Ty :=
  if lhs = rhs then some lhs
  else
    match lhs, rhs with
    | .undefined, t | t, .undefined => some t
    | .comptimeInt, t => if t.takesComptimeInt then some t else none
    | t, .comptimeInt => if t.takesComptimeInt then some t else none
    | .comptimeFloat, t => if t.isFloat then some t else none
    | t, .comptimeFloat => if t.isFloat then some t else none
    | .int a, .int b =>
      if a.signed = b.signed then some (if b.bits ≤ a.bits then lhs else rhs)
      else if a.signed then if b.bits < a.bits then some lhs else none
      else if a.bits < b.bits then some rhs else none
    | .float a, .float b => some (if b.bits ≤ a.bits then lhs else rhs)
    | _, _ => none

def intFits (ty : Ty) (v : Int) : Bool :=
  match ty.intInfo? with
  | some info => info.fits v
  | none => true

end Ty

/-- Exact arithmetic inside 128 bits; a quotient goes toward zero. -/
def ArithOp.onInts : ArithOp → Int → Int → Option Int
  | add, a, b => within (a + b)
  | sub, a, b => within (a - b)
  | mul, a, b => within (a * b)
  | div, a, b => if b = 0 then none else within (a.tdiv b)
  | rem, a, b => if b = 0 || !inWord (a.tdiv b) then none else within (a.tmod b)
where
  within (v : Int) : Option Int := if inWord v then some v else none

def ArithOp.onFloats : ArithOp → Binary64 → Binary64 → Binary64
  | add => .add
  | sub => .sub
  | mul => .mul
  | div => .div
  | rem => .rem

def foldArith (op : ArithOp) (ty : Ty) (lhs rhs : Value) : Except Cause Value :=
  if lhs.isUndefined || rhs.isUndefined then .error .undefinedUsed
  else
    match lhs, rhs with
    | .int a, .int b =>
      match op.onInts a b with
      | some v => if ty.intFits v then .ok (.int v) else .error (.overflow ty)
      | none => .error (.overflow ty)
    | _, _ =>
      match lhs.asFloat?, rhs.asFloat? with
      | some a, some b => .ok (.float (op.onFloats a b))
      | _, _ => .error .notConstant

def foldNegate (ty : Ty) (v : Value) : Except Cause Value :=
  match v with
  | .int n => if inWord (-n) && ty.intFits (-n) then .ok (.int (-n)) else .error (.overflow ty)
  | .float f => .ok (.float f.neg)
  | .undefined => .error .undefinedUsed
  | _ => .error .notConstant

/-- The value of a boolean operator, where its operands settle it; the right one alone never does. -/
def foldBool (isAnd : Bool) (lhs rhs : Option Bool) : Option Bool :=
  match lhs, rhs with
  | some a, some b => some (if isAnd then a && b else a || b)
  | some a, none => if a = isAnd then none else some a
  | _, _ => none

namespace Analysis

def peerType (lhs rhs : Ty) (span : Span) : Analysis Ty :=
  match Ty.peer? lhs rhs with
  | some t => return t
  | none => fail span (.incompatible lhs rhs)

def arith (op : ArithOp) (lhs rhs : Ref) (span : Span) : Analysis Ref := do
  let lhsTy ← tyOf lhs
  let rhsTy ← tyOf rhs
  if !lhsTy.isArithOperand || !rhsTy.isArithOperand then fail span (.invalidOperands lhsTy rhsTy)
  let ty ← peerType lhsTy rhsTy span
  let lhs ← coerce ty lhs span
  let rhs ← coerce ty rhs span
  let lhsVal ← valueOf? lhs
  let rhsVal ← valueOf? rhs
  if (op = .div || op = .rem) && rhsVal.bind Value.order? = some .eq then fail span .divisionByZero
  match lhsVal, rhsVal with
  | some a, some b => constant ty (← ofExcept span (foldArith op ty a b)) span
  | _, _ =>
    requireRuntime span
    emit (.binary (.arith op) lhs rhs) ty span

def negate (operand : Ref) (span : Span) : Analysis Ref := do
  let ty ← tyOf operand
  if !ty.isArithOperand || ty = .undefined then fail span (.negation ty)
  match ← valueOf? operand with
  | some v => constant ty (← ofExcept span (foldNegate ty v)) span
  | none =>
    requireRuntime span
    if (ty.intInfo?).any (fun info => !info.signed) then fail span (.negation ty)
    emit (.unary .negate operand) ty span

def not (operand : Ref) (span : Span) : Analysis Ref := do
  let operand ← coerce .bool operand span
  match ← valueOf? operand with
  | some v =>
    match v.asBool? with
    | some b => constant .bool (.bool !b) span
    | none => fail span .undefinedUsed
  | none =>
    requireRuntime span
    emit (.unary .not operand) .bool span

def boolOp (isAnd : Bool) (lhs rhs : Ref) (span : Span) : Analysis Ref := do
  let lhs ← coerce .bool lhs span
  let rhs ← coerce .bool rhs span
  let a := (← valueOf? lhs).bind Value.asBool?
  let b := (← valueOf? rhs).bind Value.asBool?
  match foldBool isAnd a b with
  | some v => constant .bool (.bool v) span
  | none =>
    requireRuntime span
    emit (.binary (if isAnd then .boolAnd else .boolOr) lhs rhs) .bool span

end Analysis

end Frontend
