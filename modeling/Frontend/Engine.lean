import Frontend.Program.Edges
import Frontend.Program.Exports
import Frontend.Work

/-! A program with its pending work, and the steps of analysis that cannot be interrupted. -/

attribute [local instance (high)] Zero.ofOfNat0

namespace Frontend

inductive Interrupt where
  | analysisFail
  | outOfMemory
  /-- A recursion reached the bound that was set for it. Bounds are set so that code lowered from text never
  does. -/
  | exhausted
  deriving DecidableEq, Inhabited

def Interrupt.message : Interrupt → String
  | analysisFail => "analysis failed"
  | outOfMemory => "out of memory"
  | exhausted => "recursion bound reached"

structure Engine where
  program : Program
  queue : WorkQueue

/-- Steps that may be interrupted; what they did before stays done. -/
abbrev EngineM := EStateM Interrupt Engine

namespace Program

def record (p : Program) (d : DeclId) (diagnostic : Diagnostic) : Program :=
  { p with failedDecls := p.failedDecls.insertIfNew d diagnostic }

/-- Records a failure against what the scope belongs to: the body of a function under analysis, else the owning
declaration, else the unit. The first failure of each is kept. -/
def fail (p : Program) (scope : Scope) (span : Span) (cause : Cause) : Program :=
  let diagnostic : Diagnostic := ⟨scope.fileOf, span, cause⟩
  match scope.owner?, scope.func? with
  | some owner, some f =>
    (p.modifyDecl f fun d => d.modifyFunc ({ · with state := .failed })).record owner diagnostic
  | some owner, none =>
    (p.modifyDecl owner fun d => { d with state := .failed, generation := p.generation }).record owner diagnostic
  | none, _ => { p with failedFiles := p.failedFiles.insertIfNew scope.fileOf ⟨diagnostic, false⟩ }

def outdate (p : Program) (d : DeclId) : Program :=
  { p.modifyDecl d ({ · with state := .outdated }) with
    failedDecls := p.failedDecls.erase d
    report := { p.report with outdated := p.report.outdated ++ [d] } }

def detach (p : Program) (d : DeclId) (decl : Decl) : Program :=
  let p := p.modifyUnit decl.file fun u => { u with decls := u.decls.erase d }
  if p.declTable.get? decl.nameHash = some d then { p with declTable := p.declTable.erase decl.nameHash } else p

def forget (p : Program) (d : DeclId) (decl : Decl) : Program :=
  let p := ({ p with failedDecls := p.failedDecls.erase d }.removeOwnedExports d).removeExportsOf d
  { p with
    decls := p.decls.erase d
    backend := p.backend.free decl
    report := { p.report with deleted := p.report.deleted ++ [d] } }

end Program

namespace Engine

def modifyProgram (e : Engine) (f : Program → Program) : Engine := { e with program := f e.program }

def push (e : Engine) (item : WorkItem) : Engine := { e with queue := e.queue.push item }

/-- Schedules a declaration to be analyzed anew, once. -/
def markOutdated (e : Engine) (d : DeclId) : Engine :=
  match e.program.decl? d with
  | none => e
  | some decl =>
    if decl.state = .outdated then e else (e.modifyProgram (·.outdate d)).push (.analyze d)

def orphanUser (d : DeclId) (e : Engine) (user : DeclId) : Engine :=
  (e.modifyProgram (·.removeEdge user d)).markOutdated user

def deleteDecl (e : Engine) (d : DeclId) : Engine :=
  match e.program.decl? d with
  | none => e
  | some decl =>
    let e := e.modifyProgram fun p => (p.detach d decl).release d
    let e := (e.program.dependantsOf d).foldl (orphanUser d) e
    e.modifyProgram (·.forget d decl)

/-- Takes one declaration out of the deletion set and deletes it if it is still of no use. -/
def drainStep (e : Engine) (d : DeclId) : Engine :=
  match e.program.decl? d with
  | none => e
  | some decl =>
    let e := e.modifyProgram (·.modifyDecl d ({ · with isDoomed := false }))
    if !decl.dependants.isEmpty || decl.isRoot then e else e.deleteDecl d

/-- Empties the deletion set. Each turn takes an entry out, and an entry put in costs an edge. -/
def drainWith : (fuel : Nat) → Engine → Engine
  | 0, e => e
  | fuel + 1, e =>
    match e.program.deletionSet with
    | [] => e
    | d :: rest => drainWith fuel ((e.modifyProgram ({ · with deletionSet := rest })).drainStep d)

def drain (e : Engine) : Engine :=
  let edges := (e.program.decls.values.map (·.deps.elems.length)).sum
  drainWith (e.program.deletionSet.length + edges) e

end Engine

namespace EngineM

def program : EngineM Program := return (← get).program

theorem get_bind {α : Type} (f : Engine → EngineM α) (e : Engine) : (get >>= f) e = f e e := rfl

theorem program_bind {α : Type} (f : Program → EngineM α) (e : Engine) : (program >>= f) e = f e.program e := rfl

def modifyProgram (f : Program → Program) : EngineM Unit := modify (·.modifyProgram f)

def push (item : WorkItem) : EngineM Unit := modify (·.push item)

def fail {α : Type} (scope : Scope) (span : Span) (cause : Cause) : EngineM α := do
  modifyProgram (·.fail scope span cause)
  throw .analysisFail

end EngineM

end Frontend
