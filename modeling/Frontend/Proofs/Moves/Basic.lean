import Mathlib.Logic.Relation
import Frontend.Proofs.Exports
import Frontend.Proofs.Settles
import Frontend.Update

/-! An update as a sequence of moves. A configuration is an engine together with the point at which the update
stands: the declarations under analysis, the function whose body is analyzed, and what comes next. What a move does is
said once, by one constructor with all that is known where it is made; whatever every move keeps, an update keeps. -/

namespace Frontend

inductive Inquiry where
  | code | header | line
  deriving DecidableEq

def Inquiry.ask : Inquiry → Backend → Decl → Option BackendError × Backend
  | .code => Backend.updateDecl
  | .header => Backend.emitHeader
  | .line => EngineM.updateLine

lemma Inquiry.rules_ask (about : Inquiry) (b : Backend) (D : Decl) : (about.ask b D).2.rules = b.rules := by
  cases about <;> exact Backend.rules_call ..

lemma Inquiry.ask_ne_permanent {about : Inquiry} (h : about = .line) (b : Backend) (D : Decl) (reason : String) :
    (about.ask b D).1 ≠ some (.permanent reason) := by
  subst h
  unfold ask EngineM.updateLine
  dsimp only
  cases (b.updateLine D).1 with
  | none => simp
  | some error => cases error <;> simp

inductive Stage where
  | resting
  | retrying (todo : List FileId)
  | opening (todo : List FileId)
  /-- A unit is reconciled; no item has taken these of its declarations so far. Once it is read, some items are left. -/
  | reconciling (file : FileId) (untaken : List DeclId) (left : Option (List ItemSummary)) (todo : List FileId)
  | working
  | due (d : DeclId)
  | coding (d : DeclId)
  | asking (d : DeclId) (about : Inquiry)
  /-- The innermost declaration has a new value, for which storage may be needed, or given up. -/
  | installed (needsCode frees : Bool)
  | settled
  | failing
  | draining
  /-- Memory or a bound is spent. -/
  | torn

def Stage.ofItem : WorkItem → Stage
  | .analyze d => due d
  | .codegen d => coding d
  | .emitHeader d => asking d .header
  | .updateLine d => asking d .line

def Stage.isOpening : Stage → Bool
  | .retrying _ | .opening _ | .reconciling .. => true
  | _ => false

def Stage.isBusy : Stage → Bool
  | .resting | .retrying _ | .opening _ | .reconciling .. | .draining | .torn => false
  | _ => true

def Stage.isIdle : Stage → Bool
  | .reconciling .. | .draining => true
  | _ => false

structure Config where
  stage : Stage
  stack : List DeclId
  body : Option (DeclId × Nat)
  engine : Engine

abbrev Config.program (c : Config) : Program := c.engine.program

inductive Stands : (stack : List DeclId) → (body : Option (DeclId × Nat)) → Analysis.Site → Prop
  | decl {d S B scope} (ho : scope.owner? = some d) (hf : scope.func? = none) : Stands (d :: S) B ⟨scope, d⟩
  | body {d r scope} (ho : scope.owner? = some d) (hf : scope.func? = some d) : Stands [] (some (d, r)) ⟨scope, d⟩

def DeclValue.needsStorage (v : DeclValue) : Bool :=
  match v.val with
  | .global _ _ _ isExternal _ => !isExternal && v.ty.hasBits
  | .function _ => v.func.any (·.state != .inlineOnly) && v.ty.hasBits
  | .externalFn _ => false
  | _ => v.ty.hasBits

lemma DeclValue.needsStorage_constant {ty : Ty} {val : Value} (h : val.isGlobal = false) :
    ({ ty, val } : DeclValue).needsStorage = (!val.isFunction && ty.hasBits) := by
  cases val <;> first | rfl | cases h

structure DeclValue.Fresh (v : DeclValue) (needsCode : Bool) : Prop where
  needs : v.needsStorage = needsCode
  isFunction {f} : v.func = some f → v.val.isFunction = true
  ty {f} : v.func = some f → v.ty.isFunction = true
  body {f} : v.func = some f → f.source.body.isSome = true
  state {f} : v.func = some f → f.state = .inlineOnly ∨ f.state = .queued ∧ (needsCode = true ∨ v.ty.hasBits = false)
  unwritten {f} : v.func = some f → v.arena.insts = #[] ∧ f.body = none

lemma DeclValue.Fresh.ofNone {v : DeclValue} {needsCode : Bool} (h : v.func = none) (hn : v.needsStorage = needsCode) :
    v.Fresh needsCode := by
  refine ⟨hn, ?_, ?_, ?_, ?_, ?_⟩ <;> intro f hf <;> rw [h] at hf <;> cases hf

def Decl.AwaitsBody (D : Decl) : Prop :=
  (D.state = .complete ∨ D.state = .codegenFailedRetryable) ∧ ∃ f, D.func? = some f ∧ f.state = .queued

namespace Program

def tyOf (p : Program) (d : DeclId) : Ty := (((p.decl? d).bind (·.value)).map (·.ty)).getD .void

def Declares (p : Program) (file : FileId) (ns : NameHash) (item : ItemSummary) : Prop :=
  ∃ u, p.units.get? file = some u ∧ u.namespaceHash = ns ∧ item ∈ u.items?.getD []

inductive Tells (p : Program) : Stage → List DeclId → Backend → Prop
  | nothing {st S} : p.Tells st S p.backend
  | allocate {frees d S D} (hd : p.decl? d = some D) : p.Tells (.installed true frees) (d :: S) (p.backend.allocate D).2
  | free {d S D} (hd : p.decl? d = some D) : p.Tells (.installed false true) (d :: S) (p.backend.free D)
  | exports {st S id X D} (hst : st = .working ∨ st = .settled) (hX : p.exports.get? id = some X)
      (hs : p.symbolExports.get? X.symbol = some id) (hd : p.decl? X.exported = some D) :
      p.Tells st S (p.backend.updateExports D (p.exportsOf X.exported)).2
  | ask {d about S D} (hd : p.decl? d = some D) (hs : about ≠ .code → D.state = .complete) :
      p.Tells (.asking d about) S (about.ask p.backend D).2

end Program

structure Program.Beside (p p' : Program) : Prop extends p.Alike p' where
  units : p'.units = p.units
  declTable : p'.declTable = p.declTable
  nextDecl : p'.nextDecl = p.nextDecl
  report : p'.report = p.report
  generation : p'.generation = p.generation
  deletionSet : p'.deletionSet = p.deletionSet

lemma Program.fail_beside (p : Program) (scope : Scope) (span : Span) (cause : Cause) :
    p.Beside (p.fail scope span cause) := by
  unfold fail
  dsimp only
  split <;> exact ⟨⟨rfl, rfl, rfl⟩, rfl, rfl, rfl, rfl, rfl, rfl⟩

open Analysis (Site)

lemma Program.dependencyFailed_beside (p : Program) (site : Site) : p.Beside (p.dependencyFailed site) := by
  unfold dependencyFailed
  split <;> exact ⟨⟨rfl, rfl, rfl⟩, rfl, rfl, rfl, rfl, rfl, rfl⟩

abbrev DeclState.Due (s : DeclState) : Prop := s = .outdated ∨ s = .unreferenced

abbrev Decl.opened (D : Decl) (v : DeclValue) (f : Function) : Decl :=
  { D with value := some { v with arena := {}, func := some { f with state := .inProgress } } }

namespace Program

abbrev resting (p : Program) : Config := ⟨.resting, [], none, ⟨p, {}⟩⟩

abbrev starting (p : Program) : Config := ⟨.retrying p.pendingUnits, [], none, ⟨p.nextGeneration, {}⟩⟩

abbrev closed (p : Program) : Program := { p with units := p.units.filter (!·.removed), report := {} }

end Program

inductive Move : Config → Config → Prop
  | quiet {st S B e} {g : Program → Program} (h : e.program.Quiet (g e.program)) (ht : e.program.Trades (g e.program))
      (hb : e.program.Tells st S (g e.program).backend) : Move ⟨st, S, B, e⟩ ⟨st, S, B, e.modifyProgram g⟩
  | collide {st S B e} {site : Site} (hs : Stands S B site) (file : FileId) (symbol : String) (src : Span)
      {exported : DeclId} (hx : (e.program.tyOf exported).isFunction = true)
      (hn : e.program.symbolExports.get? symbol ≠ none) :
      Move ⟨st, S, B, e⟩ ⟨st, S, B, e.modifyProgram (·.collideExport file symbol src site.owner exported)⟩
  | claim {st S B e} {site : Site} (hs : Stands S B site) (symbol : String) (src : Span) {exported : DeclId}
      (hx : (e.program.tyOf exported).isFunction = true) (hn : e.program.symbolExports.get? symbol = none) :
      Move ⟨st, S, B, e⟩ ⟨st, S, B, e.modifyProgram (·.claimExport symbol src site.owner exported)⟩
  -- Memory is spent, and what was begun is taken back.
  | tear {st S B e} : Move ⟨st, S, B, e⟩ ⟨.torn, S, B, e⟩
  | rewind {d S B e} {prev : DeclState} (h : prev = .outdated ∨ prev = .unreferenced) :
      Move ⟨.torn, d :: S, B, e⟩ ⟨.torn, S, B, e.modifyProgram (·.modifyDecl d ({ · with state := prev }))⟩
  | requeue {d r e} (arena : Typed.Arena) :
      Move ⟨.torn, [], some (d, r), e⟩
        ⟨.torn, [], none, e.modifyProgram (·.finishBody d r arena fun f => { f with state := .queued })⟩
  -- Failures of the innermost analysis.
  | fail {S B e} {site : Site} (hs : Stands S B site) (span : Span) (cause : Cause) :
      Move ⟨.working, S, B, e⟩ ⟨.failing, S, B, e.modifyProgram (·.fail site.scope span cause)⟩
  | failLate {d S B e} {scope : Scope} (hs : Stands (d :: S) B ⟨scope, d⟩)
      (hty : (e.program.tyOf d).isFunction = false) (span : Span) (cause : Cause) :
      Move ⟨.settled, d :: S, B, e⟩ ⟨.failing, d :: S, B, e.modifyProgram (·.fail scope span cause)⟩
  | depend {S B e} {site : Site} (hs : Stands S B site) :
      Move ⟨.working, S, B, e⟩ ⟨.failing, S, B, e.modifyProgram (·.dependencyFailed site)⟩
  | giveUp {S B e} : Move ⟨.working, S, B, e⟩ ⟨.failing, S, B, e⟩
  -- Mentions.
  | notice {S B e} (d : DeclId) : Move ⟨.working, S, B, e⟩ ⟨.due d, S, B, e⟩
  | register {S B e} {file : FileId} {ns : NameHash} {item : ItemSummary} (hi : e.program.Declares file ns item)
      (ht : e.program.declTable.get? (ns.child item.name) = none) :
      Move ⟨.working, S, B, e⟩ ⟨.due e.program.nextDecl, S, B, e.modifyProgram (·.register file ns item)⟩
  | edge {d S B e} {site : Site} (hs : Stands S B site) :
      Move ⟨.due d, S, B, e⟩ ⟨.due d, S, B, e.modifyProgram (·.addEdge site.owner d)⟩
  | dismiss {d S B e}
      (h : ∀ D, e.program.decl? d = some D → D.state ≠ .outdated ∧ D.state ≠ .unreferenced) :
      Move ⟨.due d, S, B, e⟩ ⟨.working, S, B, e⟩
  -- The analysis of a declaration.
  | release {d S B e D} (hd : e.program.decl? d = some D) (h : D.state = .outdated) :
      Move ⟨.due d, S, B, e⟩ ⟨.due d, S, B, e.modifyProgram (·.release d)⟩
  | enter {d S B e D} (hd : e.program.decl? d = some D) (h : D.state.Due)
      (hx : D.state = .outdated → ∀ x ∈ e.program.ownedExports d, e.program.exports.get? x = none) :
      Move ⟨.due d, S, B, e⟩ ⟨.working, d :: S, B, e.modifyProgram (·.startAnalysis d)⟩
  | install {d S B e} {v : DeclValue} {needsCode frees : Bool} (hv : v.Fresh needsCode) :
      Move ⟨.working, d :: S, B, e⟩ ⟨.installed needsCode frees, d :: S, B,
        e.modifyProgram (·.modifyDecl d ({ · with value := some v, state := .complete }))⟩
  | spare {needsCode frees d S B e} (h : needsCode = false ∨ e.program.decl? d = none)
      (hf : frees = true → ∀ D, e.program.decl? d = some D → e.program.backend.link? D.id = none) :
      Move ⟨.installed needsCode frees, d :: S, B, e⟩ ⟨.settled, d :: S, B, e⟩
  | grant {needsCode frees d S B e} (link : Nat) (header : Bool)
      (hl : ∀ D, e.program.decl? d = some D →
        e.program.backend = .silent ∨ e.program.backend.link? D.id = some link) (hn : needsCode = true) :
      Move ⟨.installed needsCode frees, d :: S, B, e⟩ ⟨.settled, d :: S, B,
        let e := (e.modifyProgram (·.modifyDecl d ({ · with link }))).push (.codegen d)
        if header then e.push (.emitHeader d) else e⟩
  | withhold {needsCode frees d S B e D} {error : BackendError} {state : DeclState} (hd : e.program.decl? d = some D)
      (hr : e.program.backend.rules.lookup (.allocate, D.name) = some error)
      (hs : state = .codegenFailed ∨ state = .codegenFailedRetryable) (cause : Cause) :
      Move ⟨.installed needsCode frees, d :: S, B, e⟩
        ⟨.settled, d :: S, B, e.modifyProgram (·.refuse d D state cause)⟩
  | ran {d S B e} : Move ⟨.working, d :: S, B, e⟩ ⟨.settled, d :: S, B, e⟩
  | finish {d S B e} :
      Move ⟨.settled, d :: S, B, e⟩ ⟨.working, S, B, e.modifyProgram (·.finishAnalysis d)⟩
  | abandon {d S B e} :
      Move ⟨.failing, d :: S, B, e⟩ ⟨.working, S, B, e.modifyProgram (·.abandonAnalysis d)⟩
  | outdate {d S B e D} (hd : e.program.decl? d = some D) (hs : D.state.isUnsettled = false)
      (hg : D.generation ≠ e.program.generation) : Move ⟨.working, S, B, e⟩ ⟨.working, S, B, e.markOutdated d⟩
  -- Pending work.
  | take {e} {item : WorkItem} {rest : List WorkItem} (h : e.queue.items = item :: rest) :
      Move ⟨.working, [], none, e⟩ ⟨.ofItem item, [], none, { e with queue := ⟨rest⟩ }⟩
  | passOver {d e} (h : ∀ D, e.program.decl? d = some D → ¬ D.AwaitsBody) :
      Move ⟨.coding d, [], none, e⟩ ⟨.working, [], none, e⟩
  | handOver {d e} (h : ∀ D, e.program.decl? d = some D → ∀ f, D.func? = some f →
        f.state = .inProgress ∨ f.state = .success) :
      Move ⟨.coding d, [], none, e⟩ ⟨.asking d .code, [], none, e⟩
  | bodiless {d e D f} (hd : e.program.decl? d = some D) (hf : D.func? = some f)
      (h : e.program.units.get? D.file = none ∨ (∀ v, D.value = some v → v.ty.isFunction = false) ∨
        f.source.body = none) :
      Move ⟨.coding d, [], none, e⟩ ⟨.asking d .code, [], none, e⟩
  | openBody {d e D v f} (hd : e.program.decl? d = some D) (ha : D.AwaitsBody) (hv : D.value = some v)
      (hf : v.func = some f) :
      Move ⟨.coding d, [], none, e⟩
        ⟨.working, [], some (d, f.revision), e.modifyProgram (·.modifyDecl d (·.opened v f))⟩
  | closeBody {d r e} (arena : Typed.Arena) (body : List Ref) :
      Move ⟨.working, [], some (d, r), e⟩ ⟨.asking d .code, [], none, e.modifyProgram (·.finishBody d r arena
        fun f => { f with body := some body, state := .success })⟩
  | dropBody {d r e} (arena : Typed.Arena) :
      Move ⟨.failing, [], some (d, r), e⟩ ⟨.working, [], none, e.modifyProgram (·.finishBody d r arena
        fun f => { f with state := if f.state = .inProgress then .dependencyFailed else f.state })⟩
  | asked {d about e} : Move ⟨.asking d about, [], none, e⟩ ⟨.working, [], none, e⟩
  | refuse {d about e D} {state : DeclState} (hd : e.program.decl? d = some D)
      (hs : state = .codegenFailedRetryable ∨ state = .codegenFailed ∧ about ≠ .line)
      (hc : about ≠ .code → D.state = .complete) (cause : Cause) :
      Move ⟨.asking d about, [], none, e⟩ ⟨.working, [], none, e.modifyProgram (·.refuse d D state cause)⟩
  -- Reconciling units.
  | start {p : Program} : Move p.resting p.starting
  | retry {todo e} (d : DeclId) : Move ⟨.retrying todo, [], none, e⟩ ⟨.retrying todo, [], none, e.markOutdated d⟩
  | retried {todo e} : Move ⟨.retrying todo, [], none, e⟩ ⟨.opening todo, [], none, e⟩
  | skip {file todo e} (h : e.program.units.get? file = none) :
      Move ⟨.opening (file :: todo), [], none, e⟩ ⟨.opening todo, [], none, e⟩
  | openUnit {file todo e u} (h : e.program.units.get? file = some u) :
      Move ⟨.opening (file :: todo), [], none, e⟩ ⟨.reconciling file u.decls.elems none todo, [], none,
        e.modifyProgram fun p =>
          { p.modifyUnit file ({ · with dirty := false }) with failedFiles := p.failedFiles.erase file }⟩
  | unread {file untaken todo e u} (hu : e.program.units.get? file = some u) (hr : u.removed = false)
      (failure : FileFailure) (hf : Program.loadContent file u.content = .error failure) :
      Move ⟨.reconciling file untaken none todo, [], none, e⟩ ⟨.opening todo, [], none,
        e.modifyProgram fun p => { p with failedFiles := p.failedFiles.insert file failure }⟩
  | read {file untaken todo e u content} (hu : e.program.units.get? file = some u)
      (hc : Program.loadContent file u.content = .ok content) :
      Move ⟨.reconciling file untaken none todo, [], none, e⟩ ⟨.reconciling file untaken none todo, [], none,
        e.modifyProgram (·.modifyUnit file ({ · with content }))⟩
  | blank {file untaken todo e u} (hu : e.program.units.get? file = some u)
      (hl : u.removed = true ∨ Program.loadContent file u.content = .ok u.content) (h : u.items? = none) :
      Move ⟨.reconciling file untaken none todo, [], none, e⟩ ⟨.opening todo, [], none, e⟩
  | itemize {file untaken todo e u} {items : List ItemSummary} (hu : e.program.units.get? file = some u)
      (hl : u.removed = true ∨ Program.loadContent file u.content = .ok u.content) (h : u.items? = some items) :
      Move ⟨.reconciling file untaken none todo, [], none, e⟩ ⟨.reconciling file untaken (some items) todo, [], none, e⟩
  | enroll {file untaken left todo e ns} {item : ItemSummary} (hi : e.program.Declares file ns item)
      (ht : e.program.declTable.get? (ns.child item.name) = none) :
      Move ⟨.reconciling file untaken (some (item :: left)) todo, [], none, e⟩
        ⟨.reconciling file untaken (some left) todo, [], none,
          let e' := e.modifyProgram (·.register file ns item)
          if item.isRoot then e'.push (.analyze e.program.nextDecl) else e'⟩
  | refresh {file untaken left todo e ns d D} {item : ItemSummary} (hi : e.program.Declares file ns item)
      (ht : e.program.declTable.get? (ns.child item.name) = some d) (hd : e.program.decl? d = some D)
      (hu : d ∈ untaken) :
      Move ⟨.reconciling file untaken (some (item :: left)) todo, [], none, e⟩
        ⟨.reconciling file (untaken.filter (· ≠ d)) (some left) todo, [], none, e.refresh d D item⟩
  | again {file untaken left todo e ns d D} {item : ItemSummary} (hi : e.program.Declares file ns item)
      (ht : e.program.declTable.get? (ns.child item.name) = some d) (hd : e.program.decl? d = some D)
      (hu : d ∉ untaken) :
      Move ⟨.reconciling file untaken (some (item :: left)) todo, [], none, e⟩
        ⟨.reconciling file untaken (some left) todo, [], none, e.repeatedItem file d item⟩
  | disregard {file untaken left todo e ns d} {item : ItemSummary} (hi : e.program.Declares file ns item)
      (ht : e.program.declTable.get? (ns.child item.name) = some d) (hd : e.program.decl? d = none) :
      Move ⟨.reconciling file untaken (some (item :: left)) todo, [], none, e⟩
        ⟨.reconciling file untaken (some left) todo, [], none, e⟩
  | drop {file d gone todo e} :
      Move ⟨.reconciling file (d :: gone) (some []) todo, [], none, e⟩
        ⟨.reconciling file gone (some []) todo, [], none, e.deleteDecl d⟩
  | closeUnit {file todo e} : Move ⟨.reconciling file [] (some []) todo, [], none, e⟩ ⟨.opening todo, [], none, e⟩
  | opened {e} : Move ⟨.opening [], [], none, e⟩ ⟨.working, [], none, e⟩
  -- The end of an update.
  | worked {e} (h : e.queue.items = []) : Move ⟨.working, [], none, e⟩ ⟨.draining, [], none, e⟩
  | drain {e} {d : DeclId} {rest : List DeclId} (h : e.program.deletionSet = d :: rest) :
      Move ⟨.draining, [], none, e⟩ ⟨.draining, [], none, (e.popped rest).drainStep d⟩
  | drained {e} (h : e.program.deletionSet = []) :
      Move ⟨.draining, [], none, e⟩ e.program.closed.resting

abbrev Moves : Config → Config → Prop := Relation.ReflTransGen Move

/-- What holds where an interrupt ends a step: at the stage if an analysis has failed, else torn. A bound is reached
only where one may be. -/
def Halts (overruns : Prop) (P : Config → Prop) (st : Stage) (S : List DeclId) (B : Option (DeclId × Nat)) :
    Interrupt → Engine → Prop
  | .analysisFail, e => P ⟨st, S, B, e⟩
  | .outOfMemory, e => P ⟨.torn, S, B, e⟩
  | .exhausted, e => overruns ∧ P ⟨.torn, S, B, e⟩

lemma Halts.torn {overruns : Prop} {P : Config → Prop} {st : Stage} {S : List DeclId} {B : Option (DeclId × Nat)}
    {i : Interrupt} {e : Engine} (hP : P ⟨st, S, B, e⟩ → P ⟨.torn, S, B, e⟩) (h : Halts overruns P st S B i e) :
    P ⟨.torn, S, B, e⟩ := by
  cases i with
  | analysisFail => exact hP h
  | outOfMemory => exact h
  | exhausted => exact h.2

/-- A move between the stages begins or ends an update, or hands out what an evaluation came to: the value of a
declaration, or the body of a function. -/
def Stage.publishes : Stage → Stage → Bool
  | .resting, .retrying _ => true
  | .draining, .resting => true
  | .working, .installed .. => true
  | .working, .asking _ .code => true
  | _, _ => false

def Stage.Begins (st st' : Stage) : Prop := st = .resting ∧ ∃ todo, st' = .retrying todo

def Stage.Ends (st st' : Stage) : Prop := st = .draining ∧ st' = .resting

def Stage.Installs (st st' : Stage) : Prop := st = .working ∧ ∃ needsCode frees, st' = .installed needsCode frees

def Stage.concludes : Stage → Stage → Bool
  | .working, .settled => true
  | st, st' => st.publishes st'

def Stage.Runs (st st' : Stage) : Prop := st = .working ∧ st' = .settled

lemma Stage.concludes_self (st : Stage) : st.concludes st = false := by cases st <;> rfl

lemma Stage.publishes_of_concludes {st st' : Stage} (h : st.concludes st' = false) : st.publishes st' = false := by
  unfold concludes at h
  split at h
  · cases h
  · exact h

end Frontend
