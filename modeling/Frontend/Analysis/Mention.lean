import Frontend.Analysis.Memory

/-! Mentions of other declarations, and exports. A mention first notes the dependency and then sees that the
declaration is analyzed, by the function `ensure` that is handed in. -/

namespace Frontend

namespace Program

def dependencyFailed (p : Program) (site : Analysis.Site) : Program :=
  match site.scope.func? with
  | some f =>
    p.modifyDecl f fun d =>
      d.modifyFunc fun fn => if fn.state = .inProgress then { fn with state := .dependencyFailed } else fn
  | none =>
    p.modifyDecl site.owner fun d => if d.isInProgress then { d with state := .dependencyFailed } else d

end Program

namespace EngineM

def require (ensure : DeclId → EngineM Unit) (site : Analysis.Site) (d : DeclId) : EngineM Unit := fun e =>
  match ensure d e with
  | .error .analysisFail e => .error .analysisFail (e.modifyProgram (·.dependencyFailed site))
  | result => result

def mention (ensure : DeclId → EngineM Unit) (site : Analysis.Site) (name : String) (span : Span) :
    EngineM DeclId := do
  let (found, p) := (← program).resolve site.scope.fileOf name
  modifyProgram fun _ => p
  match found with
  | none => fail site.scope span (.undeclared name)
  | some d =>
    modifyProgram (·.addEdge site.owner d)
    if ((← program).decl? d).any Decl.isInProgress then fail site.scope span .dependencyLoop
    require ensure site d
    return d

/-- Hands a declaration's symbols to the backend and settles the newest export by the answer. -/
def materialize (scope : Scope) (src : Span) (id : ExportId) (exported : DeclId) :
    EngineM Unit := do
  let p ← program
  let answer ← match p.decl? exported with
    | none => pure none
    | some decl => do
      let (answer, backend) := p.backend.updateExports decl (p.exportsOf exported)
      modifyProgram ({ · with backend })
      pure answer
  let refused (reason : String) (status : ExportStatus) : EngineM Unit :=
    modifyProgram fun p =>
      { p.setExportStatus id status with
        failedExports := p.failedExports.insert id ⟨scope.fileOf, src, .exportRefused reason⟩ }
  match answer with
  | none => modifyProgram (·.setExportStatus id .complete)
  | some .outOfMemory => throw .outOfMemory
  | some (.retryable reason) => refused reason .failedRetryable
  | some (.permanent reason) => refused reason .failed

/-- Enters an export. A symbol that is taken fails the export, not the analysis. -/
def enterExport (scope : Scope) (src : Span) (symbol : String) (owner exported : DeclId) : EngineM Unit := do
  let id := (← program).nextExport
  modifyProgram (·.addExport symbol src owner exported)
  if (← program).symbolExports.contains symbol then
    modifyProgram fun p =>
      { p.setExportStatus id .failed with
        failedExports := p.failedExports.insert id ⟨scope.fileOf, src, .symbolCollision symbol⟩ }
  else
    modifyProgram fun p => { p with symbolExports := p.symbolExports.insert symbol id }
    materialize scope src id exported

def exportSymbol (ensure : DeclId → EngineM Unit) (scope : Scope) (src : Span) (symbol : String)
    (exported : DeclId) : EngineM Unit := do
  ensure exported
  let ty := ((((← program).decl? exported).bind (·.value)).map (·.ty)).getD .void
  if !ty.isFunction then fail scope src (.unexportable ty)
  match scope.owner? with
  | none => fail scope src .exportOutsideDecl
  | some owner => enterExport scope src symbol owner exported

end EngineM

namespace Analysis

def mention (ensure : DeclId → EngineM Unit) (name : String) (span : Span) : Analysis DeclId := do
  engine (EngineM.mention ensure (← read) name span)

def declVal (ensure : DeclId → EngineM Unit) (name : String) (span : Span) : Analysis Ref := do
  let d ← mention ensure name span
  let tv ← declValue d span
  match tv.val with
  | .global _ _ isMutable _ _ =>
    requireRuntime span
    let ptr ← constant (.singlePtr tv.ty !isMutable) (.declRef d) span
    emit (.unary .load ptr) tv.ty span
  | v => constant tv.ty v span

def declRef (ensure : DeclId → EngineM Unit) (name : String) (span : Span) : Analysis Ref := do
  let d ← mention ensure name span
  let tv ← declValue d span
  let isConst := match tv.val with
    | .global _ _ isMutable _ _ => !isMutable
    | _ => true
  constant (.singlePtr tv.ty isConst) (.declRef d) span

def exportNamed (ensure : DeclId → EngineM Unit) (target symbol : String) (span : Span) : Analysis Unit := do
  let d ← mention ensure target span
  engine (EngineM.exportSymbol ensure (← read).scope span symbol d)

end Analysis

end Frontend
