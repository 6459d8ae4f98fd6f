import Frontend.Reconcile

/-! The state of one analysis: the engine, the typed code written so far, the results of the untyped instructions
passed, and what compile-time evaluation holds. -/

namespace Frontend.Analysis

structure Site where
  scope : Scope
  owner : DeclId

structure State where
  engine : Engine
  block : Typed.Block
  results : Dict Ref Ref := {}
  slots : Array TypedValue := #[]
  branches : Nat := 0

end Analysis

abbrev Analysis := ReaderT Analysis.Site (EStateM Interrupt Analysis.State)

namespace Analysis

def engine {α : Type} (m : EngineM α) : Analysis α := fun _ s =>
  match m s.engine with
  | .ok a e => .ok a { s with engine := e }
  | .error i e => .error i { s with engine := e }

def program : Analysis Program := return (← get).engine.program

def options : Analysis Options := return (← program).options

def modifyProgram (f : Program → Program) : Analysis Unit :=
  modify fun s => { s with engine := s.engine.modifyProgram f }

def fail {α : Type} (span : Span) (cause : Cause) : Analysis α := do
  engine (EngineM.fail (← read).scope span cause)

def ofExcept {α : Type} (span : Span) : Except Cause α → Analysis α
  | .ok a => return a
  | .error cause => fail span cause

def addWith (add : Typed.Block → Typed.Block) : Analysis Ref := fun _ s =>
  if s.block.arena.hasRoom then .ok s.block.arena.size { s with block := add s.block } else .error .outOfMemory s

def emit (kind : Typed.InstKind) (ty : Ty) (src : Span) : Analysis Ref := addWith (·.add kind ty src)

def constant (ty : Ty) (v : Value) (src : Span) : Analysis Ref := addWith (·.addConst ty v src)

def tyOf (r : Ref) : Analysis Ty := return (← get).block.arena.ty r

def valueOf? (r : Ref) : Analysis (Option Value) := return (← get).block.arena.value? r

def isComptime : Analysis Bool := return (← get).block.isComptime

def setBody (r : Ref) (body : List Ref) : Analysis Unit :=
  modify fun s => { s with block.arena := s.block.arena.setBody r body }

def requireRuntime (span : Span) : Analysis Unit := do
  if ← isComptime then fail span .notConstant

def requireComptime (r : Ref) (span : Span) : Analysis Value := do
  match ← valueOf? r with
  | some v => return v
  | none => fail span .notConstant

def inChild {α : Type} (comptime : Bool) (m : Analysis α) : Analysis (α × List Ref) := do
  let outer := (← get).block.insts
  let was ← isComptime
  modify fun s => { s with block.insts := [], block.isComptime := comptime }
  let a ← m
  let inner := (← get).block.insts
  modify fun s => { s with block.insts := outer, block.isComptime := was }
  return (a, inner)

def inCall {α : Type} (m : Analysis α) : Analysis α := do
  let outer := (← get).results
  modify ({ · with results := {} })
  let a ← m
  modify ({ · with results := outer })
  return a

def tick (span : Span) : Analysis Unit := do
  modify fun s => { s with branches := s.branches + 1 }
  let quota := (← options).branchQuota
  if quota < (← get).branches then fail span (.branchQuota quota)

end Analysis

end Frontend
