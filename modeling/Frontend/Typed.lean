import Frontend.Scope
import Frontend.Value

/-! Typed code. Instructions live in an arena and are named by their place in it; bodies are lists of places.
An arena may have a limit, and can be cut back to an earlier length. -/

namespace Frontend.Typed

inductive NullOp where
  | alloc
  | breakpoint | unreachable | retVoid
  deriving DecidableEq, Inhabited

inductive UnOp where
  | load | bitcast | negate | not | intCast | floatCast | wrapOptional | isNull | isNonNull
  | addressOf
  | ret | arrayToSlice | arrayToMany | arrayToC
  deriving DecidableEq, Inhabited

inductive BinOp where
  | arith (op : ArithOp)
  | cmp (op : CmpOp)
  | boolAnd | boolOr
  | store
  deriving DecidableEq, Inhabited

inductive InstKind where
  | const (v : Value)
  | arg (index : Nat)
  | nullary (op : NullOp)
  | unary (op : UnOp) (operand : Ref)
  | binary (op : BinOp) (lhs rhs : Ref)
  | br (block : Ref) (operand : Option Ref)
  | cond (test : Ref) (thenBody elseBody : List Ref)
  | block (body : List Ref)
  | loop (body : List Ref)
  | call (callee : Ref) (args : List Ref)
  | switch (target : Ref) (cases : List (Value × List Ref)) (elseBody : List Ref)
  deriving Inhabited

structure Inst where
  kind : InstKind
  ty : Ty
  src : Span
  deriving Inhabited

def Inst.value? (i : Inst) : Option Value :=
  match i.kind with
  | .const v => some v
  | _ => none

def Inst.isNoReturn (i : Inst) : Bool := i.ty = .noReturn

structure Arena where
  insts : Array Inst := #[]
  limit : Option Nat := none
  deriving Inhabited

namespace Arena

def size (a : Arena) : Nat := a.insts.size

def hasRoom (a : Arena) : Bool :=
  match a.limit with
  | none => true
  | some n => a.size < n

def push (a : Arena) (i : Inst) : Arena := { a with insts := a.insts.push i }

def inst (a : Arena) (r : Ref) : Inst := (a.insts[r]?).getD ⟨.const .void, .void, {}⟩

def ty (a : Arena) (r : Ref) : Ty := (a.inst r).ty

def value? (a : Arena) (r : Ref) : Option Value := (a.inst r).value?

def restore (a : Arena) (len : Nat) : Arena := { a with insts := a.insts.take len }

def modify (a : Arena) (r : Ref) (f : Inst → Inst) : Arena := { a with insts := a.insts.modify r f }

def setBody (a : Arena) (r : Ref) (body : List Ref) : Arena :=
  a.modify r fun i =>
    match i.kind with
    | .block _ => { i with kind := .block body }
    | .loop _ => { i with kind := .loop body }
    | _ => i

end Arena

structure Block where
  arena : Arena := {}
  insts : List Ref := []
  isComptime : Bool := false
  deriving Inhabited

namespace Block

def add (b : Block) (kind : InstKind) (ty : Ty) (src : Span) : Block :=
  { b with insts := b.insts ++ [b.arena.size], arena := b.arena.push ⟨kind, ty, src⟩ }

def addConst (b : Block) (ty : Ty) (v : Value) (src : Span) : Block :=
  { b with arena := b.arena.push ⟨.const v, ty, src⟩ }

def add? (b : Block) (kind : InstKind) (ty : Ty) (src : Span) : Option (Ref × Block) :=
  if b.arena.hasRoom then some (b.arena.size, b.add kind ty src) else none

def addConst? (b : Block) (ty : Ty) (v : Value) (src : Span) : Option (Ref × Block) :=
  if b.arena.hasRoom then some (b.arena.size, b.addConst ty v src) else none

def child (b : Block) (isComptime : Bool) : Block := { b with insts := [], isComptime }

def resume (b inner : Block) : Block := { b with arena := inner.arena }

end Block

end Frontend.Typed
