import Frontend.Analysis.Coerce

/-! Comparison. Integers are compared in a type that holds every value of both sides; of a known operand only the
bits of its value count. -/

namespace Frontend

/-- The operator with a fractional operand rounded down: `x < 2.5` is `x <= 2`, and `2.5 < x` is `2 < x`. -/
def CmpOp.floorAdjusted (fractionalOnRight : Bool) : CmpOp → CmpOp
  | lt | lte => if fractionalOnRight then lte else lt
  | gt | gte => if fractionalOnRight then gt else gte
  | op => op

structure BitNeed where
  bits : Nat
  signed : Bool
  deriving DecidableEq

def BitNeed.join (a b : BitNeed) : IntInfo :=
  let signed := a.signed || b.signed
  let width (n : BitNeed) : Nat := if signed && !n.signed then n.bits + 1 else n.bits
  ⟨signed, max (max (width a) (width b)) 1⟩

def compareInfinite (op : CmpOp) (f : Binary64) (constantOnRight : Bool) : Bool :=
  match f with
  | .infinity negative => op.holds (if negative = constantOnRight then .gt else .lt)
  | _ => op == .neq

namespace Ty

def isNumericOrVector (t : Ty) : Bool := t.isNumeric || t.isVector

def hasEquality : Ty → Bool
  | bool | pointer .. => true
  | optional (pointer size _ _ _) => size != .slice
  | _ => false

end Ty

namespace Analysis

def bitNeed (r : Ref) : Analysis BitNeed := do
  match (← valueOf? r).bind Value.asInt? with
  | some v => return ⟨bitCount v, v < 0⟩
  | none =>
    match (← tyOf r).intInfo? with
    | some info => return ⟨info.bits, info.signed⟩
    | none => return ⟨0, false⟩

def compareVectors (op : CmpOp) (lhs rhs : Ref) (lhsLen rhsLen : Nat) (span : Span) : Analysis Ref := do
  if lhsLen ≠ rhsLen then fail span (.vectorLengths lhsLen rhsLen)
  let lhsTy ← tyOf lhs
  let rhsTy ← tyOf rhs
  if lhsTy ≠ rhsTy then fail span (.incompatible lhsTy rhsTy)
  let ty := Ty.vector lhsLen .bool
  let folded := match ← valueOf? lhs, ← valueOf? rhs with
    | some (.array xs), some (.array ys) =>
      (xs.zip ys).mapM fun (x, y) => (Value.compare? op x y).map Value.bool
    | _, _ => none
  match folded with
  | some elems => constant ty (.array elems) span
  | none =>
    requireRuntime span
    emit (.binary (.cmp op) lhs rhs) ty span

def compareAs (op : CmpOp) (ty : Ty) (lhs rhs : Ref) (span : Span) : Analysis Ref := do
  let lhs ← coerce ty lhs span
  let rhs ← coerce ty rhs span
  requireRuntime span
  emit (.binary (.cmp op) lhs rhs) .bool span

def compareInts (op : CmpOp) (lhs rhs : Ref) (span : Span) : Analysis Ref := do
  let info := (← bitNeed lhs).join (← bitNeed rhs)
  if maxIntBits < info.bits then fail span (.tooManyBits info.bits)
  compareAs op (.int info) lhs rhs span

/-- Compares a runtime integer with a known float, which decides alone or is rounded down. -/
def compareFraction (op : CmpOp) (f : Binary64) (constantOnRight : Bool) (lhs rhs : Ref) (span : Span) :
    Analysis Ref := do
  match f.floor? with
  | none => constant .bool (.bool (compareInfinite op f constantOnRight)) span
  | some v =>
    if f.hasFraction && op.isEquality then constant .bool (.bool (op == .neq)) span
    else
      let op := if f.hasFraction then op.floorAdjusted constantOnRight else op
      let floored ← constant .comptimeInt (.int (Binary64.saturate v)) span
      if constantOnRight then compareInts op lhs floored span else compareInts op floored rhs span

def compareKnown (op : CmpOp) (ty : Ty) (a b : Value) (span : Span) : Analysis Ref :=
  match Value.compare? op a b with
  | some v => constant .bool (.bool v) span
  | none => fail span (.operatorNotAllowed op ty)

def compareScalars (op : CmpOp) (lhsTy rhsTy : Ty) (lhsVal rhsVal : Option Value) (lhs rhs : Ref) (span : Span) :
    Analysis Ref :=
  match lhsTy.floatWidth?, rhsTy.floatWidth? with
  | some a, some b => compareAs op (.float (if b.bits ≤ a.bits then a else b)) lhs rhs span
  | some a, none => compareAs op (.float a) lhs rhs span
  | none, some b => compareAs op (.float b) lhs rhs span
  | none, none =>
    match lhsVal, rhsVal with
    | some (.float f), _ => compareFraction op f false lhs rhs span
    | _, some (.float f) => compareFraction op f true lhs rhs span
    | _, _ => compareInts op lhs rhs span

def compareNumeric (op : CmpOp) (lhs rhs : Ref) (span : Span) : Analysis Ref := do
  let lhsTy ← tyOf lhs
  let rhsTy ← tyOf rhs
  match lhsTy, rhsTy with
  | .vector n _, .vector m _ => compareVectors op lhs rhs n m span
  | .vector .., _ | _, .vector .. => fail span (.mixedVector lhsTy rhsTy)
  | _, _ =>
    match ← valueOf? lhs, ← valueOf? rhs with
    | some a, some b =>
      if a.isUndefined || b.isUndefined then constant .bool .undefined span
      else compareKnown op lhsTy a b span
    | lhsVal, rhsVal => compareScalars op lhsTy rhsTy lhsVal rhsVal lhs rhs span

def compareNull (op : CmpOp) (operand : Ref) (span : Span) : Analysis Ref := do
  if !op.isEquality then fail span (.operatorNotAllowed op (← tyOf operand))
  match ← valueOf? operand with
  | some v => constant .bool (.bool (v.isNull == (op == .eq))) span
  | none =>
    requireRuntime span
    emit (.unary (if op = .eq then .isNull else .isNonNull) operand) .bool span

def compareSame (op : CmpOp) (ty : Ty) (lhs rhs : Ref) (span : Span) : Analysis Ref := do
  match ← valueOf? lhs, ← valueOf? rhs with
  | some a, some b => compareKnown op ty a b span
  | _, _ =>
    if !op.isEquality || !ty.hasEquality then fail span (.operatorNotAllowed op ty)
    requireRuntime span
    emit (.binary (.cmp op) lhs rhs) .bool span

def compare (op : CmpOp) (lhs rhs : Ref) (span : Span) : Analysis Ref := do
  let lhsTy ← tyOf lhs
  let rhsTy ← tyOf rhs
  if lhsTy.isNumericOrVector && rhsTy.isNumericOrVector then compareNumeric op lhs rhs span
  else
    match lhsTy, rhsTy with
    | .null, .optional _ => compareNull op rhs span
    | .optional _, .null => compareNull op lhs span
    | _, _ =>
      if lhsTy ≠ rhsTy then fail span (.incompatible lhsTy rhsTy) else compareSame op lhsTy lhs rhs span

end Analysis

end Frontend
