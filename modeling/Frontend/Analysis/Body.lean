import Frontend.Analysis.Declaration

/-! Analysis of function bodies. -/

namespace Frontend

namespace Analysis

def parameters (src : Span) : (index : Nat) → List Ty → Analysis (List Ref)
  | _, [] => return []
  | i, t :: ts => do
    let r ← emit (.arg i) t src
    return r :: (← parameters src (i + 1) ts)

def fnBody (ensure : DeclId → EngineM Unit) (f : Untyped.Fn) (params : List Ty) (result : Ty)
    (body : List Ref) (src : Span) : Analysis Unit := do
  let args ← parameters src 0 params
  match ← run ensure { code := f.code, args, ret := result, kind := .runtime } body with
  | .noReturn => return ()
  | _ =>
    if result ≠ .void then fail src (.mismatch result .void)
    let _ ← emit (.nullary .retVoid) .noReturn (.point src.stop)

end Analysis

namespace Program

/-- Puts the outcome of a body's analysis into its declaration, unless another lowering has taken its place. -/
def finishBody (p : Program) (d : DeclId) (revision : Nat) (arena : Typed.Arena) (f : Function → Function) :
    Program :=
  p.modifyDecl d fun decl =>
    { decl with
      value := decl.value.map fun v =>
        if (v.func).any (·.revision == revision) then { v with arena, func := v.func.map f } else v }

end Program

namespace EngineM

def runBody (site : Analysis.Site) (arena : Typed.Arena) (revision : Nat) (m : Analysis Unit) : EngineM Unit :=
  fun e =>
    let d := site.owner
    match m site { engine := e, block := { arena } } with
    | .ok _ s =>
      .ok () (s.engine.modifyProgram (·.finishBody d revision s.block.arena fun f =>
        { f with body := some s.block.insts, state := .success }))
    | .error i s =>
      let state (f : Function) : FnState := match i with
        | .analysisFail => if f.state = .inProgress then .dependencyFailed else f.state
        | _ => .queued
      .error i (s.engine.modifyProgram (·.finishBody d revision (s.block.arena.restore arena.size) fun f =>
        { f with state := state f }))

/-- Analyzes the body of a function. If that fails the declaration stays as it was, but for the function's
state. -/
def analyzeBody (d : DeclId) : EngineM Unit := do
  let p ← program
  match p.decl? d with
  | none => return ()
  | some decl =>
    match p.units.get? decl.file, decl.value with
    | some u, some v =>
      match v.ty, v.func with
      | .function params result _, some f =>
        match f.source.body with
        | none => return ()
        | some body =>
          modifyProgram (·.modifyDecl d fun decl => { decl with
            value := some { v with arena := {}, func := some { f with state := .inProgress } } })
          let scope := Scope.body (.declaration (u.scope decl.file) d) d (some d) false
          let ensure := ensureAt (p.potentialDecls + 1)
          runBody ⟨scope, d⟩ v.arena f.revision (Analysis.fnBody ensure f.source params result body decl.src)
      | _, _ => return ()
    | _, _ => return ()

end EngineM

end Frontend
