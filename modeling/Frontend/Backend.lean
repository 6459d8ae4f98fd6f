import Frontend.Decl
import Frontend.Export

/-! The code generator behind the analysis. One kind accepts everything; the other records its calls, hands out
links, and can be told to refuse. -/

namespace Frontend

inductive BackendError where
  | retryable (reason : String)
  | permanent (reason : String)
  | outOfMemory
  deriving DecidableEq, Inhabited

namespace BackendError

def isRetryable : BackendError → Bool
  | retryable _ => true
  | _ => false

def message : BackendError → String
  | retryable reason | permanent reason => reason
  | outOfMemory => "out of memory"

end BackendError

inductive BackendHook where
  | allocate | updateExports | updateDecl | updateLine | emitHeader
  deriving DecidableEq, Inhabited

inductive BackendCall where
  | allocate (decl : Decl)
  | free (decl : Decl)
  | updateExports (decl : Decl) (exports : List Export)
  | updateDecl (decl : Decl)
  | updateLine (decl : Decl)
  | emitHeader (decl : Decl)

structure CallRecord where
  call : BackendCall
  refusal : Option BackendError := none

structure Recorder where
  calls : List CallRecord := []
  rules : List ((BackendHook × String) × BackendError) := []
  nextLink : Nat := 0
  links : Dict DeclId Nat := {}

inductive Backend where
  | silent
  | recording (r : Recorder)

namespace Recorder

def refusal? (r : Recorder) (hook : BackendHook) (d : Decl) : Option BackendError :=
  r.rules.lookup (hook, d.name)

def log (r : Recorder) (call : BackendCall) (refusal : Option BackendError) : Recorder :=
  { r with calls := r.calls ++ [⟨call, refusal⟩] }

end Recorder

namespace Backend

def call (b : Backend) (hook : BackendHook) (entry : BackendCall) (d : Decl) :
    Option BackendError × Backend :=
  match b with
  | silent => (none, silent)
  | recording r =>
    let refusal := r.refusal? hook d
    (refusal, recording (r.log entry refusal))

def allocate (b : Backend) (d : Decl) : Except BackendError Nat × Backend :=
  match b with
  | silent => (.ok d.link, silent)
  | recording r =>
    let refusal := r.refusal? .allocate d
    let r := r.log (.allocate d) refusal
    match refusal with
    | some e => (.error e, recording r)
    | none =>
      match r.links.get? d.id with
      | some link => (.ok link, recording r)
      | none =>
        let link := r.nextLink + 1
        (.ok link, recording { r with nextLink := link, links := r.links.insert d.id link })

def free (b : Backend) (d : Decl) : Backend :=
  match b with
  | silent => silent
  | recording r =>
    let r := r.log (.free d) none
    recording { r with links := r.links.erase d.id }

def updateExports (b : Backend) (d : Decl) (exports : List Export) : Option BackendError × Backend :=
  b.call .updateExports (.updateExports d exports) d

def updateDecl (b : Backend) (d : Decl) : Option BackendError × Backend :=
  b.call .updateDecl (.updateDecl d) d

def updateLine (b : Backend) (d : Decl) : Option BackendError × Backend :=
  b.call .updateLine (.updateLine d) d

def emitHeader (b : Backend) (d : Decl) : Option BackendError × Backend :=
  b.call .emitHeader (.emitHeader d) d

def refuse (b : Backend) (hook : BackendHook) (name : String) (e : BackendError) : Backend :=
  match b with
  | silent => silent
  | recording r => recording { r with rules := ((hook, name), e) :: r.rules }

def clearRules (b : Backend) : Backend :=
  match b with
  | silent => silent
  | recording r => recording { r with rules := [] }

def takeCalls (b : Backend) : List CallRecord × Backend :=
  match b with
  | silent => ([], silent)
  | recording r => (r.calls, recording { r with calls := [] })

def live (b : Backend) : Nat :=
  match b with
  | silent => 0
  | recording r => r.links.size

end Backend

end Frontend
