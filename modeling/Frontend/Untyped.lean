import Frontend.Binary64
import Frontend.Operator
import Frontend.Scope
import Frontend.Ty

/-! Untyped code: one flat store of instructions a declaration, with bodies as lists of places in it. Other
declarations are mentioned by name only. -/

namespace Frontend.Untyped

inductive Inst where
  | int (v : Int)
  | float (f : Binary64)
  | str (s : String)
  | bool (b : Bool)
  | void
  | null
  | undefined
  | primitive (t : Ty)
  | declVal (name : String)
  | declRef (name : String)
  | arg (index : Nat)
  | alloc (ty : Option Ref) (init : Ref)
  | store (ptr value : Ref)
  | load (ptr : Ref)
  | addressOf (operand : Ref)
  | arith (op : ArithOp) (lhs rhs : Ref)
  | cmp (op : CmpOp) (lhs rhs : Ref)
  | boolOp (isAnd : Bool) (lhs rhs : Ref)
  | not (operand : Ref)
  | negate (operand : Ref)
  | coerce (ty operand : Ref)
  | ptrType (size : PtrSize) (isConst : Bool) (sentinel : Option Ref) (child : Ref)
  | arrayType (len : Ref) (sentinel : Option Ref) (child : Ref)
  | optionalType (child : Ref)
  | vectorType (len child : Ref)
  | fnType (params : List Ref) (ret : Ref) (cc : CallConv)
  | arrayInit (ty : Ref) (elems : List Ref)
  | call (callee : Ref) (args : List Ref)
  | ret (operand : Option Ref)
  | cond (test : Ref) (thenBody elseBody : List Ref)
  | loop (testBody : List Ref) (test : Ref) (body : List Ref)
  | block (body : List Ref) (isComptime : Bool)
  | leave
  | next
  | unreachable
  | compileError (message : String)
  | exportSymbol (target symbol : String)
  | breakpoint
  deriving Inhabited

structure Code where
  insts : Array Inst := #[]
  spans : Array Span := #[]
  deriving Inhabited

namespace Code

def add (c : Code) (inst : Inst) (span : Span) : Code := ⟨c.insts.push inst, c.spans.push span⟩

def size (c : Code) : Nat := c.insts.size

def span (c : Code) (r : Ref) : Span := (c.spans[r]?).getD {}

end Code

structure Computation where
  body : List Ref
  result : Ref
  deriving Inhabited

structure Fn where
  code : Code
  signature : Computation
  params : List String
  body : Option (List Ref)
  isInline : Bool
  deriving Inhabited

structure Var where
  code : Code
  ty : Option Computation
  init : Option Computation
  isMutable : Bool
  isExternal : Bool
  isThreadLocal : Bool
  keyword : Span
  deriving Inhabited

structure Comptime where
  code : Code
  body : List Ref
  deriving Inhabited

inductive DeclKind where
  | fn (f : Fn)
  | var (v : Var)
  | comptime (b : Comptime)
  deriving Inhabited

structure Decl where
  name : String
  isExported : Bool
  src : Span
  kind : DeclKind
  deriving Inhabited

def Decl.isComptime (d : Decl) : Bool :=
  match d.kind with
  | .comptime _ => true
  | _ => false

def DeclKind.code : DeclKind → Code
  | fn f => f.code
  | var v => v.code
  | comptime b => b.code

end Frontend.Untyped
