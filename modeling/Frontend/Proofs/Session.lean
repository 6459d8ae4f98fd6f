import Frontend.Update

/-! What can be done to a program from outside. -/

namespace Frontend

inductive Edit where
  | addSource (path text : String)
  | setSource (file : FileId) (text : String)
  | addPath (path : String)
  | setFile (file : FileId) (text : Option String)
  | addLowered (path : String) (decls : List Untyped.Decl)
  | setLowered (file : FileId) (decls : List Untyped.Decl)
  | touch (file : FileId)
  | removeUnit (file : FileId)

def textItems (text : String) : List ItemSummary :=
  match Program.loadContent 0 (.source (.memory text) none) with
  | .ok content => content.items?.getD []
  | .error _ => []

def loweredItems (decls : List Untyped.Decl) : List ItemSummary := (UnitContent.lowered decls 0).items?.getD []

def Edit.items : Edit → List ItemSummary
  | addSource _ text | setSource _ text | setFile _ (some text) => textItems text
  | addLowered _ decls | setLowered _ decls => loweredItems decls
  | addPath _ | setFile _ none | touch _ | removeUnit _ => []

def Edit.isText : Edit → Bool
  | addLowered .. | setLowered .. => false
  | _ => true

namespace Program

def edit (p : Program) : Edit → Program
  | .addSource path text => p.addSource path text
  | .setSource file text => p.setSource file text
  | .addPath path => p.addPath path
  | .setFile file text => p.setFile file text
  | .addLowered path decls => p.addLowered path decls
  | .setLowered file decls => p.setLowered file decls
  | .touch file => p.touch file
  | .removeUnit file => p.removeUnit file

/-- A declaration can be asked for, edges and declarations can be changed by hand, and a unit can be reconciled by
itself. What comes of it is added to a queue at hand. -/
inductive Action where
  | edit (change : Edit)
  | update
  | reconcile (queue : WorkQueue) (file : FileId)
  | ensure (queue : WorkQueue) (d : DeclId)
  | addEdge (a b : DeclId)
  | removeEdge (a b : DeclId)
  | clearEdges (a : DeclId)
  | deleteDecl (queue : WorkQueue) (d : DeclId)
  | drain (queue : WorkQueue)

def Action.isText : Action → Bool
  | .edit change => change.isText
  | _ => true

def act (p : Program) : Action → Program
  | .edit change => p.edit change
  | .update => p.update.2
  | .reconcile queue file => (Engine.reconcile ⟨p, queue⟩ file).program
  | .ensure queue d =>
    match EngineM.ensure d ⟨p, queue⟩ with
    | .ok _ e => e.program
    | .error _ e => e.program
  | .addEdge a b => p.addEdge a b
  | .removeEdge a b => p.removeEdge a b
  | .clearEdges a => p.clearEdges a
  | .deleteDecl queue d => (Engine.deleteDecl ⟨p, queue⟩ d).program
  | .drain queue => (Engine.drain ⟨p, queue⟩).program

theorem exists_report {p : Program} (h : p.update.1.isOk = true) : ∃ report, p.update = (.ok report, p.update.2) := by
  generalize p.update = outcome at h
  obtain ⟨result, p'⟩ := outcome
  cases result with
  | ok report => exact ⟨report, rfl⟩
  | error i => cases h

theorem exists_report_of {p : Program} {q : Report → Bool} (h : p.update.1.toOption.any q = true) :
    ∃ report, p.update = (.ok report, p.update.2) ∧ q report = true := by
  generalize p.update = outcome at h
  obtain ⟨result, p'⟩ := outcome
  cases result with
  | ok report => exact ⟨report, rfl, h⟩
  | error i => cases h

/-- Programs that come of edits and of updates that succeed, with the edits made. -/
inductive Runs (p : Program) : List Edit → Program → Prop
  | refl : Runs p [] p
  | edit {edits p'} (h : Runs p edits p') (change : Edit) : Runs p (edits ++ [change]) (p'.edit change)
  | update {edits p' report p''} (h : Runs p edits p') (hu : p'.update = (.ok report, p'')) : Runs p edits p''

inductive Drafts (p : Program) : Program → Prop
  | refl : Drafts p p
  | edit {p'} (h : Drafts p p') {change : Edit} (ht : change.isText = true) : Drafts p (p'.edit change)

/-- Programs that come of texts and of updates, whether those succeed or not. -/
inductive Develops (p : Program) : Program → Prop
  | refl : Develops p p
  | edit {p'} (h : Develops p p') {change : Edit} (ht : change.isText = true) : Develops p (p'.edit change)
  | update {p'} (h : Develops p p') : Develops p p'.update.2

/-- Programs that come of actions of a kind, whether those succeed or not, and of changes to the backend. -/
inductive Reaches (allowed : Action → Prop) (p : Program) : Program → Prop
  | refl : Reaches allowed p p
  | act {p'} (h : Reaches allowed p p') {action : Action} (ha : allowed action) : Reaches allowed p (p'.act action)
  | backend {p'} (h : Reaches allowed p p') (backend : Backend) : Reaches allowed p { p' with backend }

end Program

end Frontend
