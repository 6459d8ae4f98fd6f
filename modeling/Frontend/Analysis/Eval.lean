import Frontend.Analysis.Arith
import Frontend.Analysis.Compare
import Frontend.Analysis.Mention

/-! The walk through untyped code. At compile time it runs the code; elsewhere it writes typed code and settles on
the way what is known. -/

namespace Frontend.Analysis

open Untyped (Code)

inductive Flow where
  | next
  | leave
  | again
  | ret (value : Ref)
  | noReturn
  deriving DecidableEq, Inhabited

inductive Step where
  | value (r : Ref)
  | done
  | flow (f : Flow)
  deriving DecidableEq, Inhabited

def Flow.step : Flow → Step
  | next => .done
  | f => .flow f

inductive FrameKind where
  | runtime
  | inlined (block : Ref)
  | comptime
  deriving DecidableEq, Inhabited

/-- The innermost loop of the call: none, one that is run, or one that is written, with the blocks that leave and
repeat it. -/
inductive LoopContext where
  | outside
  | interpreted
  | emitted (leave again : Ref)
  deriving DecidableEq, Inhabited

structure Frame where
  code : Code
  args : List Ref := []
  ret : Ty
  kind : FrameKind
  loop : LoopContext := .outside

def resolve (frame : Frame) (r : Ref) : Analysis Ref := do
  match (← get).results.get? r with
  | some i => return i
  | none => fail (frame.code.span r) .uncomputed

def asType (i : Ref) (span : Span) : Analysis Ty := do
  match (← valueOf? i).bind Value.asType? with
  | some t => return t
  | none => fail span (.expectedType (← tyOf i))

def resolveType (frame : Frame) (r : Ref) : Analysis Ty := do
  asType (← resolve frame r) (frame.code.span r)

def resolveInt (frame : Frame) (dest : Ty) (r : Ref) : Analysis Int := do
  let span := frame.code.span r
  let i ← coerce dest (← resolve frame r) span
  match ← requireComptime i span with
  | .int v => return v
  | v => fail span (.expectedInteger v)

def resolveInt? (frame : Frame) (dest : Ty) : Option Ref → Analysis (Option Int)
  | none => return none
  | some r => some <$> resolveInt frame dest r

def textValue (s : String) : Value :=
  let bytes := utf8 s
  .slice (.array (bytes.map fun b => .int b.toNat)) bytes.length

def elements (frame : Frame) (child : Ty) : List Ref → Analysis (List Value)
  | [] => return []
  | r :: rest => do
    let span := frame.code.span r
    let i ← coerce child (← resolve frame r) span
    let v ← requireComptime i span
    return v :: (← elements frame child rest)

def arrayInit (frame : Frame) (ty : Ref) (elems : List Ref) (span : Span) : Analysis Ref := do
  match ← resolveType frame ty with
  | .array len z child =>
    if elems.length ≠ len then fail span (.elementCount len elems.length)
    constant (.array len z child) (.array (← elements frame child elems)) span
  | t => fail span (.expectedArray t)

def typeConstant (t : Ty) (span : Span) : Analysis Ref := constant .type (.type t) span

def vectorType (frame : Frame) (len child : Ref) (span : Span) : Analysis Ref := do
  let n ← resolveInt frame (.unsigned 32) len
  let t ← resolveType frame child
  let valid := t.isInt || t.isFloat || t = .bool || t.isSinglePointer
  if !valid then fail span (.vectorElement t)
  typeConstant (.vector n.toNat t) span

def resolveTypes (frame : Frame) : List Ref → Analysis (List Ty)
  | [] => return []
  | r :: rest => do
    let t ← resolveType frame r
    return t :: (← resolveTypes frame rest)

def retValue (frame : Frame) (operand : Option Ref) (span : Span) : Analysis (Option Ref) := do
  match operand with
  | some r => return some (← coerce frame.ret (← resolve frame r) span)
  | none => if frame.ret = .void then return none else fail span (.mismatch frame.ret .void)

def leaveCall (kind : FrameKind) (value : Option Ref) (span : Span) : Analysis Flow := do
  match kind with
  | .comptime =>
    match value with
    | some i => return .ret i
    | none => return .ret (← constant .void .void span)
  | .inlined target =>
    if ← isComptime then fail span .returnFromComptime
    let _ ← emit (.br target value) .noReturn span
    return .noReturn
  | .runtime =>
    if ← isComptime then fail span .returnFromComptime
    let kind : Typed.InstKind := match value with
      | some i => .unary .ret i
      | none => .nullary .retVoid
    let _ ← emit kind .noReturn span
    return .noReturn

def ret (frame : Frame) (operand : Option Ref) (span : Span) : Analysis Flow := do
  leaveCall frame.kind (← retValue frame operand span) span

def exitLoop (frame : Frame) (isLeave : Bool) (span : Span) : Analysis Flow := do
  match frame.loop with
  | .interpreted => return if isLeave then .leave else .again
  | .emitted leave again =>
    if ← isComptime then fail span .runtimeLoopLeft
    let _ ← emit (.br (if isLeave then leave else again) none) .noReturn span
    return .noReturn
  | .outside => fail span (.lowering (if isLeave then .leaveOutsideLoop else .nextOutsideLoop))

def valueInst (ensure : DeclId → EngineM Unit) (frame : Frame) (span : Span) : Untyped.Inst → Analysis Ref
  | .int v => constant .comptimeInt (.int v) span
  | .float f => constant .comptimeFloat (.float f) span
  | .str s => constant (.sliceOf (.unsigned 8) true) (textValue s) span
  | .bool b => constant .bool (.bool b) span
  | .null => constant .null .null span
  | .undefined => constant .undefined .undefined span
  | .primitive t => typeConstant t span
  | .declVal name => declVal ensure name span
  | .declRef name => declRef ensure name span
  | .arg i =>
    match frame.args[i]? with
    | some r => return r
    | none => fail span (.noParameter i)
  | .alloc ty init => do
    let i ← resolve frame init
    let t ← match ty with
      | some r => resolveType frame r
      | none => tyOf i
    alloc t i span
  | .load ptr => do load (← resolve frame ptr) span
  | .addressOf operand => do addressOf (← resolve frame operand) span
  | .arith op l r => do
    let a ← resolve frame l
    arith op a (← resolve frame r) span
  | .cmp op l r => do
    let a ← resolve frame l
    compare op a (← resolve frame r) span
  | .boolOp isAnd l r => do
    let a ← resolve frame l
    boolOp isAnd a (← resolve frame r) span
  | .not operand => do not (← resolve frame operand) span
  | .negate operand => do negate (← resolve frame operand) span
  | .coerce ty operand => do
    let t ← resolveType frame ty
    coerce t (← resolve frame operand) span
  | .ptrType size isConst sentinel child => do
    let t ← resolveType frame child
    typeConstant (.pointer size isConst (← resolveInt? frame t sentinel) t) span
  | .arrayType len sentinel child => do
    let n ← resolveInt frame .usize len
    let t ← resolveType frame child
    typeConstant (.array n.toNat (← resolveInt? frame t sentinel) t) span
  | .optionalType child => do typeConstant (.optional (← resolveType frame child)) span
  | .vectorType len child => vectorType frame len child span
  | .fnType params result cc => do
    let ps ← resolveTypes frame params
    typeConstant (.function ps (← resolveType frame result) cc) span
  | .arrayInit ty elems => arrayInit frame ty elems span
  | _ => constant .void .void span

def plainInst (ensure : DeclId → EngineM Unit) (frame : Frame) (span : Span) : Untyped.Inst → Analysis Step
  | .store ptr value => do
    let p ← resolve frame ptr
    store p (← resolve frame value) span
    return .done
  | .ret operand => return .flow (← ret frame operand span)
  | .leave => return .flow (← exitLoop frame true span)
  | .next => return .flow (← exitLoop frame false span)
  | .unreachable => do
    if ← isComptime then fail span .unreachableReached
    let _ ← emit (.nullary .unreachable) .noReturn span
    return .flow .noReturn
  | .compileError message => fail span (.stated message)
  | .exportSymbol target symbol => do
    exportNamed ensure target symbol span
    return .done
  | .breakpoint => do
    if ← isComptime then fail span .breakpointAtComptime
    let _ ← emit (.nullary .breakpoint) .void span
    return .done
  | inst => return .value (← valueInst ensure frame span inst)

def walk (step : Ref → Analysis Step) : List Ref → Analysis Flow
  | [] => return .next
  | r :: rest => do
    match ← step r with
    | .value i =>
      modify fun s => { s with results := s.results.insert r i }
      walk step rest
    | .done => walk step rest
    | .flow f => return f

abbrev BodyRunner := Frame → List Ref → Analysis Flow

def truth? (i : Ref) (span : Span) : Analysis (Option Bool) := do
  match ← valueOf? i with
  | none => return none
  | some v =>
    match v.asBool? with
    | some b => return some b
    | none => fail span .undefinedUsed

def cond (body : BodyRunner) (frame : Frame) (test : Ref) (thenBody elseBody : List Ref) (span : Span) :
    Analysis Step := do
  let testSpan := frame.code.span test
  let c ← coerce .bool (← resolve frame test) testSpan
  match ← truth? c testSpan with
  | some taken => return (← body frame (if taken then thenBody else elseBody)).step
  | none =>
    requireRuntime span
    let (thenFlow, t) ← inChild false (body frame thenBody)
    let (elseFlow, e) ← inChild false (body frame elseBody)
    let stops := thenFlow = .noReturn && elseFlow = .noReturn
    let _ ← emit (.cond c t e) (if stops then .noReturn else .void) span
    return if stops then .flow .noReturn else .done

/-- Runs a loop. Each turn but the last counts against the quota, which bounds `fuel`. -/
def comptimeLoop (body : BodyRunner) (frame : Frame) (testBody : List Ref) (test : Ref) (loopBody : List Ref)
    (span : Span) : (fuel : Nat) → Analysis Step
  | 0 => throw .exhausted
  | fuel + 1 => do
    let testSpan := frame.code.span test
    let _ ← body frame testBody
    let c ← coerce .bool (← resolve frame test) testSpan
    match (← requireComptime c testSpan).asBool? with
    | none => fail testSpan .undefinedUsed
    | some false => return .done
    | some true =>
      match ← body { frame with loop := .interpreted } loopBody with
      | .next | .again =>
        tick span
        comptimeLoop body frame testBody test loopBody span fuel
      | .leave => return .done
      | f => return .flow f

/-- Writes a loop as a block around a repeated test, with a block for the body inside. Leaving the loop leaves the
outer block; going on to the next turn leaves the inner one. -/
def runtimeLoop (body : BodyRunner) (frame : Frame) (testBody : List Ref) (test : Ref) (loopBody : List Ref)
    (span : Span) : Analysis Step := do
  let testSpan := frame.code.span test
  let outer ← emit (.block []) .void span
  let (_, outerBody) ← inChild false do
    let repeated ← emit (.loop []) .noReturn span
    let (_, turn) ← inChild false do
      let _ ← body frame testBody
      let c ← coerce .bool (← resolve frame test) testSpan
      let (_, thenBody) ← inChild false do
        let inner ← emit (.block []) .void span
        let (_, innerBody) ← inChild false (body { frame with loop := .emitted outer inner } loopBody)
        setBody inner innerBody
      let (_, elseBody) ← inChild false (emit (.br outer none) .noReturn span)
      emit (.cond c thenBody elseBody) .noReturn span
    setBody repeated turn
  setBody outer outerBody
  return .done

def loop (body : BodyRunner) (frame : Frame) (testBody : List Ref) (test : Ref) (loopBody : List Ref)
    (span : Span) : Analysis Step := do
  if ← isComptime then
    comptimeLoop body frame testBody test loopBody span ((← options).branchQuota + 1)
  else runtimeLoop body frame testBody test loopBody span

def block (body : BodyRunner) (frame : Frame) (stmts : List Ref) (comptime : Bool) : Analysis Step := do
  if comptime && !(← isComptime) then
    let (flow, _) ← inChild true (body frame stmts)
    return flow.step
  else return (← body frame stmts).step

/-! Calls. -/

def calleeOf (d : DeclId) (span : Span) : Analysis Untyped.Fn := do
  match (← program).func? d with
  | some f => return f.source
  | none => fail span .noBody

def entering (enter : Option BodyRunner) (span : Span) : Analysis BodyRunner := do
  match enter with
  | some run => return run
  | none => fail span (.callDepth (← options).callDepth)

def requireAll (span : Span) : List Ref → Analysis Unit
  | [] => return ()
  | r :: rest => do
    let _ ← requireComptime r span
    requireAll span rest

def comptimeCall (enter : Option BodyRunner) (d : DeclId) (result : Ty) (args : List Ref) (span : Span) :
    Analysis Ref := do
  tick span
  requireAll span args
  let f ← calleeOf d span
  match f.body with
  | none => fail span .externalCallAtComptime
  | some body =>
    let run ← entering enter span
    let (flow, _) ← inChild true (inCall (run { code := f.code, args, ret := result, kind := .comptime } body))
    match flow with
    | .ret i => return i
    | _ => if result = .void then constant .void .void span else fail span (.mismatch result .void)

def inlineCall (enter : Option BodyRunner) (d : DeclId) (result : Ty) (args : List Ref) (span : Span) :
    Analysis Ref := do
  let f ← calleeOf d span
  match f.body with
  | none => fail span .noBody
  | some body =>
    let target ← emit (.block []) result span
    let run ← entering enter span
    let frame : Frame := { code := f.code, args, ret := result, kind := .inlined target }
    let (_, expanded) ← inChild false do
      match ← inCall (run frame body) with
      | .noReturn => pure ()
      | _ =>
        if result ≠ .void then fail span (.mismatch result .void)
        let _ ← emit (.br target none) .noReturn span
    setBody target expanded
    return target

def coerceArgs (frame : Frame) : List Ty → List Ref → Analysis (List Ref)
  | t :: ts, r :: rs => do
    let i ← coerce t (← resolve frame r) (frame.code.span r)
    return i :: (← coerceArgs frame ts rs)
  | _, _ => return []

def isInlined (d : DeclId) (cc : CallConv) : Analysis Bool := do
  return cc == .inlined || ((← program).decl? d).any Decl.isInlineFn

def runtimeCall (f : Ref) (result : Ty) (args : List Ref) (span : Span) : Analysis Ref := do
  requireRuntime span
  emit (.call f args) result span

def applyFn (enter : Option BodyRunner) (f : Ref) (result : Ty) (cc : CallConv) (args : List Ref) (comptime : Bool)
    (span : Span) : Analysis Ref := do
  match ← valueOf? f with
  | some (.function d) =>
    if comptime then comptimeCall enter d result args span
    else if ← isInlined d cc then inlineCall enter d result args span
    else runtimeCall f result args span
  | some (.externalFn _) =>
    if comptime then fail span .externalCallAtComptime else runtimeCall f result args span
  | _ => runtimeCall f result args span

def call (enter : Option BodyRunner) (frame : Frame) (callee : Ref) (args : List Ref) (span : Span) :
    Analysis Step := do
  let f ← resolve frame callee
  match ← tyOf f with
  | .function params result cc =>
    if args.length ≠ params.length then fail span (.argumentCount params.length args.length)
    let coerced ← coerceArgs frame params args
    let comptime ← isComptime
    let r ← applyFn enter f result cc coerced comptime span
    return if result = .noReturn && !comptime then .flow .noReturn else .value r
  | t => fail span (.notCallable t)

/-! The recursion: bodies nest inside instructions, and calls inside calls. -/

/-- Treats one instruction. Bodies nest no deeper than `nest`. -/
def evalInst (ensure : DeclId → EngineM Unit) (enter : Option BodyRunner) :
    (nest : Nat) → Frame → Ref → Analysis Step
  | 0, _, _ => throw .exhausted
  | nest + 1, frame, r =>
    let span := frame.code.span r
    let body : BodyRunner := fun frame rs => walk (evalInst ensure enter nest frame) rs
    match (frame.code.insts[r]?).getD .void with
    | .cond test t e => cond body frame test t e span
    | .loop testBody test b => loop body frame testBody test b span
    | .block b comptime => block body frame b comptime
    | .call callee args => call enter frame callee args span
    | inst => plainInst ensure frame span inst

def evalBody (ensure : DeclId → EngineM Unit) : (calls : Nat) → BodyRunner
  | 0 => fun frame body => walk (evalInst ensure none (frame.code.size + 1) frame) body
  | calls + 1 => fun frame body =>
    walk (evalInst ensure (some (evalBody ensure calls)) (frame.code.size + 1) frame) body

def run (ensure : DeclId → EngineM Unit) : BodyRunner := fun frame body => do
  evalBody ensure (← options).callDepth frame body

def compute (ensure : DeclId → EngineM Unit) (frame : Frame) (c : Untyped.Computation) : Analysis Ref := do
  let _ ← run ensure frame c.body
  resolve frame c.result

end Frontend.Analysis
