import Frontend.Span

/-! Pending work, done in the order in which it was asked for. -/

namespace Frontend

inductive WorkItem where
  | analyze (decl : DeclId)
  | codegen (decl : DeclId)
  | emitHeader (decl : DeclId)
  | updateLine (decl : DeclId)
  deriving DecidableEq, Inhabited

def WorkItem.decl : WorkItem → DeclId
  | analyze d | codegen d | emitHeader d | updateLine d => d

structure WorkQueue where
  items : List WorkItem := []
  deriving DecidableEq, Inhabited

namespace WorkQueue

def push (q : WorkQueue) (item : WorkItem) : WorkQueue := ⟨q.items ++ [item]⟩

def extend (q : WorkQueue) (items : List WorkItem) : WorkQueue := ⟨q.items ++ items⟩

def pop? (q : WorkQueue) : Option (WorkItem × WorkQueue) :=
  match q.items with
  | [] => none
  | item :: rest => some (item, ⟨rest⟩)

def contains (q : WorkQueue) (item : WorkItem) : Bool := decide (item ∈ q.items)

def isEmpty (q : WorkQueue) : Bool := q.items.isEmpty

end WorkQueue

end Frontend
