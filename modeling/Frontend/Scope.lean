import Frontend.Span

/-! Scopes: chains of links up to a source unit. -/

namespace Frontend

abbrev Ref := Nat

inductive Scope where
  | file (file : FileId)
  | lowered (file : FileId)
  | container (parent : Scope) (file : FileId)
  | declaration (parent : Scope) (decl : DeclId)
  | body (parent : Scope) (decl : DeclId) (func : Option DeclId) (isComptime : Bool)
  | lowering (parent : Scope) (decl : Option DeclId)
  | localValue (parent : Scope) (name : String) (inst : Ref)
  | localSlot (parent : Scope) (name : String) (ptr : Ref)
  deriving Inhabited

inductive LocalBinding where
  | value (inst : Ref)
  | slot (ptr : Ref)
  deriving DecidableEq, Inhabited

namespace Scope

def parent? : Scope → Option Scope
  | file _ | lowered _ => none
  | container p _ | declaration p _ | body p _ _ _ | lowering p _ | localValue p _ _ | localSlot p _ _ => some p

def owner? : Scope → Option DeclId
  | declaration _ d | body _ d _ _ => some d
  | lowering _ d => d
  | file _ | lowered _ | container _ _ => none
  | localValue p _ _ | localSlot p _ _ => p.owner?

def func? : Scope → Option DeclId
  | body _ _ f _ => f
  | file _ | lowered _ => none
  | container p _ | declaration p _ | lowering p _ | localValue p _ _ | localSlot p _ _ => p.func?

def namespaceOf : Scope → Scope
  | s@(file _) | s@(lowered _) | s@(container _ _) => s
  | declaration p _ | body p _ _ _ | lowering p _ | localValue p _ _ | localSlot p _ _ => p.namespaceOf

def fileOf : Scope → FileId
  | file f | lowered f | container _ f => f
  | declaration p _ | body p _ _ _ | lowering p _ | localValue p _ _ | localSlot p _ _ => p.fileOf

/-- The innermost local of the name; locals are not seen across a declaration. -/
def lookupLocal? (name : String) : Scope → Option LocalBinding
  | localValue p n i => if n = name then some (.value i) else p.lookupLocal? name
  | localSlot p n i => if n = name then some (.slot i) else p.lookupLocal? name
  | declaration _ _ | lowering _ _ | file _ | lowered _ => none
  | container p _ | body p _ _ _ => p.lookupLocal? name

end Scope

end Frontend
