import Frontend.Dict
import Frontend.Digest
import Frontend.Typed
import Frontend.Untyped

/-! Declarations: what is known of each, and how far its analysis has come. -/

namespace Frontend

inductive DeclState where
  | unreferenced
  | inProgress
  | outdated
  | complete
  | failed
  | failedRetryable
  | codegenFailed
  | codegenFailedRetryable
  | dependencyFailed
  deriving DecidableEq, Inhabited

namespace DeclState

def isUnsettled : DeclState → Bool
  | outdated | inProgress | unreferenced => true
  | _ => false

def isFailure : DeclState → Bool
  | failed | failedRetryable | codegenFailed | codegenFailedRetryable | dependencyFailed => true
  | _ => false

def isRetryable : DeclState → Bool
  | failedRetryable | codegenFailedRetryable => true
  | _ => false

end DeclState

inductive FnState where
  | queued
  | inlineOnly
  | inProgress
  | failed
  | dependencyFailed
  | success
  deriving DecidableEq, Inhabited

structure Function where
  owner : DeclId
  source : Untyped.Fn
  revision : Nat
  body : Option (List Ref)
  state : FnState
  deriving Inhabited

structure DeclValue where
  ty : Ty
  val : Value
  arena : Typed.Arena := {}
  func : Option Function := none
  deriving Inhabited

structure Decl where
  id : DeclId
  name : String
  nameHash : NameHash
  file : FileId
  index : Nat
  src : Span
  line : Nat
  contents : ContentHash
  state : DeclState := .unreferenced
  generation : Nat
  /-- Whether it waits in the deletion set. -/
  isDoomed : Bool := false
  /-- Analyzed even if nothing mentions it. -/
  isRoot : Bool
  value : Option DeclValue := none
  link : Nat := 0
  deps : OrdSet DeclId := {}
  dependants : OrdSet DeclId := {}

namespace Decl

def func? (d : Decl) : Option Function := d.value.bind (·.func)

def modifyFunc (d : Decl) (f : Function → Function) : Decl :=
  { d with value := d.value.map (fun v => { v with func := v.func.map f }) }

def isInlineFn (d : Decl) : Bool := (d.func?).any (·.state == .inlineOnly)

def hasBits (d : Decl) : Bool :=
  match d.value with
  | none => false
  | some v =>
    match v.val with
    | .global _ _ _ isExternal _ => !isExternal && v.ty.hasBits
    | .function _ => !d.isInlineFn && v.ty.hasBits
    | _ => false

def isInProgress (d : Decl) : Bool := d.state == .inProgress

end Decl

end Frontend
