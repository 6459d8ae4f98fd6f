import Frontend.Analysis.Body

/-! Updates: changed units are reconciled, the work that comes of it is done, and declarations of no more use are
deleted. -/

namespace Frontend

namespace EngineM

def refusedBy (d : DeclId) (error : BackendError) (cause : String → Cause) : EngineM Unit := do
  let record (reason : String) (state : DeclState) : EngineM Unit :=
    modifyProgram fun p =>
      match p.decl? d with
      | none => p
      | some decl => p.refuse d decl state (cause reason)
  match error with
  | .outOfMemory => throw .outOfMemory
  | .retryable reason => record reason .codegenFailedRetryable
  | .permanent reason => record reason .codegenFailed

def ask (d : DeclId) (question : Backend → Decl → Option BackendError × Backend) (cause : String → Cause) :
    EngineM Unit := do
  let p ← program
  match p.decl? d with
  | none => return ()
  | some decl =>
    let (answer, backend) := question p.backend decl
    modifyProgram ({ · with backend })
    match answer with
    | none => return ()
    | some error => refusedBy d error cause

def askComplete (d : DeclId) (question : Backend → Decl → Option BackendError × Backend)
    (cause : String → Cause) : EngineM Unit := do
  if ((← program).decl? d).any (·.state == .complete) then ask d question cause

def readyForCode (d : DeclId) : EngineM Bool := fun e =>
  match e.program.decl? d with
  | none => .ok false e
  | some decl =>
    if decl.state ≠ .complete && decl.state ≠ .codegenFailedRetryable then .ok false e
    else
      match (decl.func?).map Function.state with
      | some .queued =>
        match analyzeBody d e with
        | .ok _ e => .ok true e
        | .error .analysisFail e => .ok false e
        | .error i e => .error i e
      | some .failed | some .dependencyFailed | some .inlineOnly => .ok false e
      | _ => .ok true e

def codegen (d : DeclId) : EngineM Unit := do
  if ← readyForCode d then ask d Backend.updateDecl .codegenRefused

def updateLine (b : Backend) (d : Decl) : Option BackendError × Backend :=
  let (answer, b) := b.updateLine d
  (answer.map fun error => match error with
    | .permanent reason => .retryable reason
    | error => error, b)

def analyzeItem (d : DeclId) : EngineM Unit := fun e =>
  match ensure d e with
  | .error .analysisFail e => .ok () e
  | result => result

def perform : WorkItem → EngineM Unit
  | .analyze d => analyzeItem d
  | .codegen d => codegen d
  | .emitHeader d => askComplete d Backend.emitHeader .headerRefused
  | .updateLine d => askComplete d updateLine .lineRefused

def performWith : (bound : Nat) → EngineM Unit
  | 0 => do if !(← get).queue.isEmpty then throw .exhausted
  | bound + 1 => do
    match (← get).queue.pop? with
    | none => return ()
    | some (item, rest) =>
      modify ({ · with queue := rest })
      perform item
      performWith bound

section
variable {e : Engine} {n : Nat} {item : WorkItem} {rest : List WorkItem}

theorem performWith_succ_of_nil (h : e.queue.items = []) : performWith (n + 1) e = .ok () e := by
  have hp : e.queue.pop? = none := by simp [WorkQueue.pop?, h]
  rw [performWith, get_bind, hp]
  rfl

theorem performWith_succ_of_cons (h : e.queue.items = item :: rest) :
    performWith (n + 1) e = (perform item >>= fun _ => performWith n) { e with queue := ⟨rest⟩ } := by
  have hp : e.queue.pop? = some (item, ⟨rest⟩) := by simp [WorkQueue.pop?, h]
  rw [performWith, get_bind, hp]
  rfl

end

/-- Does all pending work. A declaration is analyzed at most once meanwhile, and queues at most three items. -/
def performWork : EngineM Unit := do
  let e ← get
  performWith (e.queue.items.length + 3 * e.program.potentialDecls)

end EngineM

namespace Program

/-- Declarations to be tried again: those that failed for now, and the owners of exports that did. -/
def retryable (p : Program) : List DeclId :=
  let decls := p.decls.values.filterMap fun d => if d.state.isRetryable then some d.id else none
  let owners := p.exports.values.filterMap fun x => if x.status = .failedRetryable then some x.owner else none
  ((decls ++ owners).foldl OrdSet.insert (⟨[]⟩ : OrdSet DeclId)).elems

def pendingUnits (p : Program) : List FileId :=
  p.units.entries.filterMap fun (file, u) =>
    if u.dirty || u.removed || ((p.failedFiles.get? file).any (·.retryable)) then some file else none

def nextGeneration (p : Program) : Program :=
  { p with generation := p.generation + 1, report := { generation := p.generation + 1 } }

def begin (p : Program) : Engine :=
  let p := p.nextGeneration
  let e := p.retryable.foldl Engine.markOutdated ⟨p, {}⟩
  p.pendingUnits.foldl Engine.reconcile e

/-- One update. Its report is returned unless it ran out of memory. -/
def update (p : Program) : Except Interrupt Report × Program :=
  match EngineM.performWork p.begin with
  | .error i e => (.error i, e.program)
  | .ok _ e =>
    let p := e.drain.program
    (.ok p.report, { p with units := p.units.filter (!·.removed), report := {} })

end Program

end Frontend
