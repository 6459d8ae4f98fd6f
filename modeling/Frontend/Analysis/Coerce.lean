import Frontend.Analysis.Basic

/-! Conversion of a value to a type that is asked for. -/

attribute [local instance (high)] instPowNat

namespace Frontend

namespace Ty

def sentinelMet (wanted found : Option Int) : Bool := wanted.isNone || found = wanted

/-- Whether pointers of the second type can be read as the first: at most constness is added, and a sentinel
forgotten. -/
def reinterprets : Ty → Ty → Bool
  | pointer n c z t, pointer n' c' z' t' => n = n' && t = t' && (c || !c') && sentinelMet z z'
  | optional (pointer n c z t), optional (pointer n' c' z' t') =>
    n = n' && t = t' && (c || !c') && sentinelMet z z'
  | _, _ => false

/-- The kind of pointer and the length, where a pointer to an array becomes a pointer to its elements. -/
def arrayPointer? : Ty → Ty → Option (PtrSize × Nat)
  | pointer n c z t, pointer .one c' _ (array len z' t') =>
    if n ≠ .one && t' = t && (c || !c') && sentinelMet z z' then some (n, len) else none
  | _, _ => none

def wraps (child src : Ty) : Bool :=
  src = child || (src.isNumeric && child.isNumeric) || reinterprets child src || (arrayPointer? child src).isSome

def convertsNumber (dest src : Ty) : Bool :=
  ((src = .comptimeInt || src = .comptimeFloat) && dest.isNumeric) || (src.isInt && dest.isInt)
    || (src.isFloat && dest.isFloat)

def intContains (d s : IntInfo) : Bool :=
  (d.signed = s.signed && s.bits ≤ d.bits) || (d.signed && !s.signed && s.bits < d.bits)

end Ty

def FloatWidth.greatest : FloatWidth → Binary64
  | half => .ofInt 65504
  | single => .ofInt ((2 ^ (24 : Nat) - 1) * 2 ^ (104 : Nat))
  | double | quad => .ofInt ((2 ^ (53 : Nat) - 1) * 2 ^ (971 : Nat))

def Binary64.saturate (v : Int) : Int := max (-(2 ^ (127 : Nat))) (min (2 ^ (127 : Nat) - 1) v)

def Binary64.wholeBelowLimit? (f : Binary64) : Option Int :=
  match f.trunc? with
  | some v => if v.natAbs < 2 ^ (127 : Nat) then some v else none
  | none => none

def convertNumber (dest : Ty) (v : Value) : Except Cause Value :=
  if v.isUndefined then .ok v
  else
    match dest with
    | .int info =>
      match v with
      | .int n => fit info n
      | .float f =>
        if f.hasFraction then .error (.fractional f dest)
        else
          match f.wholeBelowLimit? with
          | some n => fit info n
          | none => .error (.unrepresentable dest v)
      | _ => .error (.unrepresentable dest v)
    | .comptimeInt =>
      match v with
      | .float f =>
        if f.hasFraction then .error (.fractional f dest)
        else
          match f with
          | .nan => .ok (.int 0)
          | .infinity negative => .ok (.int (if negative then -(2 ^ (127 : Nat)) else 2 ^ (127 : Nat) - 1))
          | .finite .. => .ok (.int (Binary64.saturate ((f.trunc?).getD 0)))
      | _ => .ok v
    | .float width =>
      match v.asFloat? with
      | none => .error .notConstant
      | some f =>
        if f.isFinite && f.abs.compare width.greatest = some .gt then .error (.losesInformation v dest)
        else .ok (.float f)
    | .comptimeFloat =>
      match v.asFloat? with
      | some f => .ok (.float f)
      | none => .ok v
    | _ => .ok v
where
  fit (info : IntInfo) (n : Int) : Except Cause Value :=
    if info.fits n then .ok (.int n) else .error (.unrepresentable dest (.int n))

namespace Analysis

def retype (op : Typed.UnOp) (dest : Ty) (r : Ref) (span : Span) : Analysis Ref := do
  match ← valueOf? r with
  | some v => constant dest v span
  | none =>
    requireRuntime span
    emit (.unary op r) dest span

def pointToElements (size : PtrSize) (len : Nat) (dest : Ty) (r : Ref) (span : Span) : Analysis Ref := do
  match ← valueOf? r with
  | some v => constant dest (if size = .slice then .slice v len else v) span
  | none =>
    requireRuntime span
    let op : Typed.UnOp := match size with
      | .slice => .arrayToSlice
      | .many => .arrayToMany
      | _ => .arrayToC
    emit (.unary op r) dest span

def widen (dest src : Ty) (r : Ref) (span : Span) : Analysis Ref := do
  match dest, src with
  | .int d, .int s =>
    if Ty.intContains d s then
      requireRuntime span
      emit (.unary .intCast r) dest span
    else fail span (.mismatch dest src)
  | .float d, .float s =>
    if s.bits ≤ d.bits then
      requireRuntime span
      emit (.unary .floatCast r) dest span
    else fail span (.mismatch dest src)
  | _, _ => fail span (.mismatch dest src)

def coerceFlat (dest src : Ty) (r : Ref) (span : Span) : Analysis Ref := do
  match Ty.arrayPointer? dest src with
  | some (size, len) => pointToElements size len dest r span
  | none =>
    match Ty.convertsNumber dest src, ← valueOf? r with
    | true, some v => constant dest (← ofExcept span (convertNumber dest v)) span
    | _, _ => widen dest src r span

def coerceOr (dest : Ty) (r : Ref) (span : Span) (other : Ty → Analysis Ref) : Analysis Ref := do
  let src ← tyOf r
  if src = dest then return r
  else if Ty.reinterprets dest src then retype .bitcast dest r span
  else if src = .undefined then constant dest .undefined span
  else other src

def coerce : (dest : Ty) → Ref → Span → Analysis Ref
  | .optional child, r, span =>
    coerceOr (.optional child) r span fun src => do
      if src = .null then constant (.optional child) .null span
      else if Ty.wraps child src then
        let payload ← coerce child r span
        retype .wrapOptional (.optional child) payload span
      else coerceFlat (.optional child) src r span
  | dest, r, span => coerceOr dest r span fun src => coerceFlat dest src r span

end Analysis

end Frontend
