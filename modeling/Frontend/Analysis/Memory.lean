import Frontend.Analysis.Coerce

/-! Slots and addresses. At compile time a slot is a place in the state of the analysis. -/

namespace Frontend.Analysis

def newSlot (ptrTy ty : Ty) (v : Value) (span : Span) : Analysis Ref := do
  let slot := (← get).slots.size
  modify fun s => { s with slots := s.slots.push ⟨ty, v⟩ }
  constant ptrTy (.comptimeSlot slot) span

def alloc (ty : Ty) (init : Ref) (span : Span) : Analysis Ref := do
  let init ← coerce ty init span
  let ptrTy := Ty.singlePtr ty false
  if ← isComptime then
    newSlot ptrTy ty (← requireComptime init span) span
  else
    if !ty.isValidVar then fail span (.comptimeOnlyVariable ty)
    let ptr ← emit (.nullary .alloc) ptrTy span
    let _ ← emit (.binary .store ptr init) .void span
    return ptr

def pointee (ptr : Ref) (span : Span) : Analysis (Ty × Bool) := do
  match ← tyOf ptr with
  | .pointer .one isConst _ child => return (child, isConst)
  | found => fail span (.expectedSinglePointer found)

def store (ptr value : Ref) (span : Span) : Analysis Unit := do
  let (elem, isConst) ← pointee ptr span
  if isConst then fail span .constantAssigned
  let value ← coerce elem value span
  match ← valueOf? ptr with
  | some (.comptimeSlot slot) =>
    let v ← requireComptime value span
    modify fun s => { s with slots := s.slots.modify slot ({ · with val := v }) }
  | _ =>
    requireRuntime span
    let _ ← emit (.binary .store ptr value) .void span

def declValue (d : DeclId) (span : Span) : Analysis TypedValue := do
  match ((← program).decl? d).bind (·.value) with
  | some v => return ⟨v.ty, v.val⟩
  | none => fail span .noValue

def loadKnown? (ptr : Ref) (span : Span) : Analysis (Option Value) := do
  match ← valueOf? ptr with
  | some (.comptimeSlot slot) => return ((← get).slots[slot]?).map (·.val)
  | some (.declRef d) =>
    let v := (← declValue d span).val
    return if v.isGlobal then none else some v
  | _ => return none

def load (ptr : Ref) (span : Span) : Analysis Ref := do
  let (elem, _) ← pointee ptr span
  match ← loadKnown? ptr span with
  | some v => constant elem v span
  | none =>
    requireRuntime span
    emit (.unary .load ptr) elem span

def addressOf (operand : Ref) (span : Span) : Analysis Ref := do
  let ty ← tyOf operand
  let ptrTy := Ty.singlePtr ty true
  match ← valueOf? operand with
  | some v => newSlot ptrTy ty v span
  | none =>
    requireRuntime span
    emit (.unary .addressOf operand) ptrTy span

end Frontend.Analysis
