import Frontend.Analysis.Eval

/-! Analysis of what an item declares: the type of a function, the value of a variable, or the run of a block.
Bodies of functions are left to code generation. -/

namespace Frontend

namespace Analysis

def inScratch {α : Type} (scope : Scope) (owner : DeclId) (m : Analysis α) : EngineM α := fun e =>
  let site : Site := ⟨.body scope owner none true, owner⟩
  match m site { engine := e, block := { arena := e.program.freshArena, isComptime := true } } with
  | .ok a s => .ok a s.engine
  | .error i s => .error i s.engine

end Analysis

structure Previous where
  ty : Option Ty
  wasInline : Bool
  hadBits : Bool

def Decl.previous (d : Decl) : Previous := ⟨d.value.map (·.ty), d.isInlineFn, d.hasBits⟩

def SourceUnit.scope (u : SourceUnit) (file : FileId) : Scope :=
  .container (if u.isLowered then .lowered file else .file file) file

namespace Program

def startAnalysis (p : Program) (d : DeclId) : Program :=
  p.modifyDecl d ({ · with state := .inProgress, generation := p.generation })

def finishAnalysis (p : Program) (d : DeclId) : Program :=
  { p.modifyDecl d (fun decl => if decl.isInProgress then { decl with state := .complete } else decl) with
    report := { p.report with analyzed := p.report.analyzed ++ [d] } }

def abandonAnalysis (p : Program) (d : DeclId) : Program :=
  p.modifyDecl d fun decl => if decl.isInProgress then { decl with state := .dependencyFailed } else decl

def refuse (p : Program) (d : DeclId) (decl : Decl) (state : DeclState) (cause : Cause) : Program :=
  { p.modifyDecl d ({ · with state }) with
    failedDecls := p.failedDecls.insert d ⟨decl.file, decl.src, cause⟩ }

end Program

def Engine.invalidate (e : Engine) (d : DeclId) : Engine :=
  match e.program.decl? d with
  | none => e
  | some decl =>
    if decl.state.isUnsettled || decl.generation = e.program.generation then e else e.markOutdated d

namespace EngineM

def lowered (scope : Scope) (decl : Decl) (u : SourceUnit) : EngineM (Untyped.Decl × Nat) := do
  match u.content with
  | .lowered ds first =>
    match ds[decl.index]? with
    | some d => return (d, first + decl.index)
    | none => fail scope decl.src .noSource
  | .source _ loaded =>
    match loaded.bind (fun l => l.items[decl.index]?) with
    | none => fail scope decl.src .noSource
    | some it =>
      match Untyped.ofItem it decl.name scope with
      | .error e => fail scope e.span (.lowering e.cause)
      | .ok d =>
        let revision := (← program).nextRevision
        modifyProgram ({ · with nextRevision := revision + 1 })
        return (d, revision)

def install (d : DeclId) (value : DeclValue) : EngineM Unit :=
  modifyProgram (·.modifyDecl d ({ · with value := some value, state := .complete }))

/-- Reserves storage and queues code generation. A refusal fails the declaration and not its users. -/
def allocate (d : DeclId) (typeChanged : Bool) : EngineM Unit := do
  let p ← program
  match p.decl? d with
  | none => return ()
  | some decl =>
    let (answer, backend) := p.backend.allocate decl
    modifyProgram ({ · with backend })
    match answer with
    | .ok link =>
      modifyProgram (·.modifyDecl d ({ · with link }))
      push (.codegen d)
      if typeChanged && p.options.emitHeaders then push (.emitHeader d)
    | .error .outOfMemory => throw .outOfMemory
    | .error (.retryable reason) =>
      modifyProgram (·.refuse d decl .codegenFailedRetryable (.codegenRefused reason))
    | .error (.permanent reason) => modifyProgram (·.refuse d decl .codegenFailed (.codegenRefused reason))

def freeStorage (d : DeclId) : EngineM Unit :=
  modifyProgram fun p =>
    match p.decl? d with
    | some decl => { p with backend := p.backend.free decl }
    | none => p

def settle (ensure : DeclId → EngineM Unit) (scope : Scope) (d : DeclId) (item : Untyped.Decl)
    (needsCodegen frees typeChanged : Bool) : EngineM Unit := do
  if needsCodegen then allocate d typeChanged
  else if frees then freeStorage d
  if item.isExported && ((← program).decl? d).any (·.state == .complete) then
    exportSymbol ensure scope item.src item.name d

def signatureType (ensure : DeclId → EngineM Unit) (src : Span) (f : Untyped.Fn) : Analysis Ty := do
  let i ← Analysis.compute ensure { code := f.code, ret := .void, kind := .comptime } f.signature
  Analysis.asType i src

/-- Computes a function's type and makes it a value whose body is still to be analyzed. The result tells
whether users must be analyzed anew. -/
def analyzeFn (ensure : DeclId → EngineM Unit) (scope : Scope) (d : DeclId) (item : Untyped.Decl)
    (f : Untyped.Fn) (revision : Nat) (prev : Previous) : EngineM Bool := do
  let ty ← Analysis.inScratch scope d (signatureType ensure item.src f)
  match ty with
  | .function _ _ cc =>
    let isInline := f.isInline || cc == .inlined
    let typeChanged := prev.ty ≠ some ty
    let arena := (← program).freshArena
    if f.body.isSome then
      let state := if isInline then .inlineOnly else .queued
      install d { ty, val := .function d, arena, func := some ⟨d, f, revision, none, state⟩ }
    else install d { ty, val := .externalFn d }
    settle ensure scope d item (f.body.isSome && !isInline && ty.hasBits) (!prev.wasInline && prev.hadBits)
      typeChanged
    return typeChanged || isInline
  | _ => fail scope item.src (.notFunctionType ty)

def writtenType (ensure : DeclId → EngineM Unit) (frame : Analysis.Frame) (src : Span) :
    Option Untyped.Computation → Analysis (Option Ty)
  | none => return none
  | some c => do return some (← Analysis.asType (← Analysis.compute ensure frame c) src)

def initialValue (ensure : DeclId → EngineM Unit) (frame : Analysis.Frame) (src : Span) (written : Option Ty)
    (c : Untyped.Computation) : Analysis (Ty × Option Value) := do
  let i ← Analysis.compute ensure frame c
  let i ← match written with
    | some t => Analysis.coerce t i src
    | none => pure i
  let val ← Analysis.requireComptime i src
  return (← Analysis.tyOf i, some val)

def variableValue (ensure : DeclId → EngineM Unit) (src : Span) (v : Untyped.Var) :
    Analysis (Ty × Option Value) := do
  let frame : Analysis.Frame := { code := v.code, ret := .void, kind := .comptime }
  let written ← writtenType ensure frame src v.ty
  match v.init with
  | some c => initialValue ensure frame src written c
  | none =>
    if !v.isExternal then Analysis.fail src .uninitialized
    else
      match written with
      | some t => return (t, none)
      | none => Analysis.fail src .uninferable

def analyzeVar (ensure : DeclId → EngineM Unit) (scope : Scope) (d : DeclId) (item : Untyped.Decl)
    (v : Untyped.Var) (prev : Previous) : EngineM Bool := do
  if v.isExternal && v.init.isSome then fail scope item.src .externalInit
  if v.isThreadLocal && !v.isMutable then fail scope v.keyword .constThreadLocal
  let (ty, init) ← Analysis.inScratch scope d (variableValue ensure item.src v)
  if v.isMutable && !v.isExternal && !ty.isValidVar then fail scope item.src (.comptimeOnlyVariable ty)
  let typeChanged := prev.ty ≠ some ty
  let val := if v.isMutable || v.isExternal then
      .global d init v.isMutable v.isExternal v.isThreadLocal
    else init.getD .undefined
  install d { ty, val }
  settle ensure scope d item (!v.isExternal && !val.isFunction && ty.hasBits) prev.hadBits typeChanged
  return typeChanged

def analyzeComptime (ensure : DeclId → EngineM Unit) (scope : Scope) (d : DeclId) (b : Untyped.Comptime) :
    EngineM Bool := do
  let _ ← Analysis.inScratch scope d
    (Analysis.run ensure { code := b.code, ret := .void, kind := .comptime } b.body)
  return true

def analyzeDecl (ensure : DeclId → EngineM Unit) (d : DeclId) : EngineM Bool := do
  let p ← program
  match p.decl? d with
  | none => throw .analysisFail
  | some decl =>
    match p.units.get? decl.file with
    | none => throw .analysisFail
    | some u =>
      let scope := Scope.declaration (u.scope decl.file) d
      let (item, revision) ← lowered scope decl u
      match item.kind with
      | .fn f => analyzeFn ensure scope d item f revision decl.previous
      | .var v => analyzeVar ensure scope d item v decl.previous
      | .comptime b => analyzeComptime ensure scope d b

def invalidateUsers (d : DeclId) : EngineM Unit :=
  modify fun e => (e.program.dependantsOf d).foldl Engine.invalidate e

def analyzeFrom (prev : DeclState) (d : DeclId) (analyze : EngineM Bool) : EngineM Bool := fun e =>
  match analyze e with
  | .ok changed e => .ok changed (e.modifyProgram (·.finishAnalysis d))
  | .error .analysisFail e => .error .analysisFail (e.modifyProgram (·.abandonAnalysis d))
  | .error i e => .error i (e.modifyProgram (·.modifyDecl d ({ · with state := prev })))

def renew (analyze : DeclId → EngineM Bool) (d : DeclId) (prev : DeclState) : EngineM Unit := do
  if prev = .outdated then modifyProgram fun p => (p.removeOwnedExports d).release d
  modifyProgram (·.startAnalysis d)
  let changed ← analyzeFrom prev d (analyze d)
  if prev = .outdated then
    let isFn := (((← program).decl? d).bind (·.value)).any (·.val.isFunction)
    if changed || !isFn then invalidateUsers d

def ensureWith (analyze : DeclId → EngineM Bool) (d : DeclId) : EngineM Unit := do
  match (← program).decl? d with
  | none => throw .analysisFail
  | some decl =>
    if decl.state = .complete then return ()
    else if decl.state = .outdated || decl.state = .unreferenced then renew analyze d decl.state
    else throw .analysisFail

def ensureAt : (level : Nat) → DeclId → EngineM Unit
  | 0, _ => throw .exhausted
  | level + 1, d => ensureWith (analyzeDecl (ensureAt level)) d

/-- Sees that a declaration is analyzed. Each nested analysis is of another declaration, so their number bounds
how deep they nest. -/
def ensure (d : DeclId) : EngineM Unit := do
  ensureAt ((← program).potentialDecls + 1) d

end EngineM

end Frontend
