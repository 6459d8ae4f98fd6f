import Frontend.Program

/-! The dependency graph. Each edge is kept at both ends, and the operations here keep the ends in step. -/

namespace Frontend.Program

def addEdge (p : Program) (a b : DeclId) : Program :=
  if a = b || !p.decls.contains a || !p.decls.contains b then p
  else
    (p.modifyDecl a fun d => { d with deps := d.deps.insert b }).modifyDecl b fun d =>
      { d with dependants := d.dependants.insert a }

def removeEdge (p : Program) (a b : DeclId) : Program :=
  (p.modifyDecl a fun d => { d with deps := d.deps.erase b }).modifyDecl b fun d =>
    { d with dependants := d.dependants.erase a }

def depsOf (p : Program) (a : DeclId) : List DeclId := ((p.decl? a).map (·.deps.elems)).getD []

def dependantsOf (p : Program) (a : DeclId) : List DeclId :=
  ((p.decl? a).map (·.dependants.elems)).getD []

def clearEdges (p : Program) (a : DeclId) : Program := (p.depsOf a).foldl (fun p b => p.removeEdge a b) p

/-- Puts a declaration that nothing uses into the deletion set, once. -/
def doom (p : Program) (d : DeclId) : Program :=
  match p.decl? d with
  | none => p
  | some decl =>
    if decl.dependants.isEmpty && !decl.isDoomed then
      { p.modifyDecl d (fun decl => { decl with isDoomed := true }) with deletionSet := d :: p.deletionSet }
    else p

def release (p : Program) (a : DeclId) : Program := (p.depsOf a).foldl doom (p.clearEdges a)

end Frontend.Program
