import Frontend.Binary64
import Frontend.Operator
import Frontend.Span
import Frontend.Ty

/-! Syntax trees of source files. Every node carries the range of its text. -/

namespace Frontend

inductive UnaryOp where
  | negate | not | addressOf
  deriving DecidableEq, Inhabited

inductive BinaryOp where
  | arith (op : ArithOp)
  | cmp (op : CmpOp)
  | and
  | or
  deriving DecidableEq, Inhabited

def UnaryOp.name : UnaryOp → String
  | negate => "Negate"
  | not => "Not"
  | addressOf => "AddressOf"

def BinaryOp.text : BinaryOp → String
  | arith op => op.text
  | cmp op => op.text
  | and => "and"
  | or => "or"

structure Ident where
  name : String
  span : Span
  deriving DecidableEq, Inhabited

inductive Expr where
  | int (span : Span) (value : Int)
  | float (span : Span) (value : Binary64)
  | str (span : Span) (value : String)
  | bool (span : Span) (value : Bool)
  | null (span : Span)
  | undefined (span : Span)
  | unreachable (span : Span)
  | ident (span : Span) (name : String)
  | builtin (span : Span) (name : String) (args : List Expr)
  | unary (span : Span) (op : UnaryOp) (operand : Expr)
  | binary (span : Span) (op : BinaryOp) (lhs rhs : Expr)
  | call (span : Span) (callee : Expr) (args : List Expr)
  | deref (span : Span) (ptr : Expr)
  | ptrType (span : Span) (size : PtrSize) (isConst : Bool) (sentinel : Option Expr) (child : Expr)
  | arrayType (span : Span) (len : Expr) (sentinel : Option Expr) (child : Expr)
  | optionalType (span : Span) (child : Expr)
  | arrayInit (span : Span) (ty : Expr) (elems : List Expr)
  deriving Inhabited

def Expr.span : Expr → Span
  | int s _ | float s _ | str s _ | bool s _ | null s | undefined s | unreachable s | ident s _
  | builtin s _ _ | unary s _ _ | binary s _ _ _ | call s _ _ | deref s _ | ptrType s _ _ _ _
  | arrayType s _ _ _ | optionalType s _ | arrayInit s _ _ => s

mutual

inductive Stmt where
  | define (span : Span) (name : Ident) (isMutable : Bool) (ty : Option Expr) (init : Expr)
  | assign (span : Span) (target value : Expr)
  | expr (span : Span) (e : Expr)
  | ret (span : Span) (value : Option Expr)
  | cond (span : Span) (test : Expr) (thenBody : Block) (elseBody : Option Stmt)
  | loop (span : Span) (test : Expr) (body : Block)
  | block (span : Span) (body : Block)
  | comptime (span : Span) (body : Block)
  | leave (span : Span)
  | next (span : Span)

inductive Block where
  | mk (span : Span) (stmts : List Stmt)

end

instance : Inhabited Stmt := ⟨.leave {}⟩

instance : Inhabited Block := ⟨.mk {} []⟩

def Stmt.span : Stmt → Span
  | define s _ _ _ _ | assign s _ _ | expr s _ | ret s _ | cond s _ _ _ | loop s _ _ | block s _
  | comptime s _ | leave s | next s => s

def Block.span : Block → Span
  | mk s _ => s

def Block.stmts : Block → List Stmt
  | mk _ ss => ss

inductive Modifier where
  | exported | external | inlined | threadLocal
  deriving DecidableEq, Inhabited

def Modifier.text : Modifier → String
  | exported => "export"
  | external => "extern"
  | inlined => "inline"
  | threadLocal => "threadlocal"

def Modifier.all : List Modifier := [.exported, .external, .inlined, .threadLocal]

structure Modifiers where
  marks : List (Modifier × Span) := []
  library : Option (String × Span) := none
  deriving Inhabited

namespace Modifiers

def spanOf? (m : Modifiers) (k : Modifier) : Option Span := (m.marks.find? (·.1 == k)).map (·.2)

def has (m : Modifiers) (k : Modifier) : Bool := m.marks.any (·.1 == k)

end Modifiers

structure Param where
  name : Ident
  ty : Expr
  deriving Inhabited

structure FnItem where
  name : Ident
  modifiers : Modifiers
  params : List Param
  ret : Expr
  callConv : Option Expr
  align : Option Expr
  linkSection : Option Expr
  body : Option Block
  keyword : Span
  deriving Inhabited

structure VarItem where
  name : Ident
  modifiers : Modifiers
  isMutable : Bool
  keyword : Span
  ty : Option Expr
  align : Option Expr
  linkSection : Option Expr
  init : Option Expr
  deriving Inhabited

inductive ItemKind where
  | fn (decl : FnItem)
  | var (decl : VarItem)
  | comptime (body : Block)
  | test (name : String) (body : Block)
  | usingNamespace (e : Expr)
  | field (name : Ident) (ty : Expr) (default? : Option Expr)
  deriving Inhabited

structure Item where
  kind : ItemKind
  isPublic : Bool
  span : Span
  deriving Inhabited

namespace Item

def name? (item : Item) : Option Ident :=
  match item.kind with
  | .fn d => some d.name
  | .var d => some d.name
  | .field n _ _ => some n
  | _ => none

def isExported (item : Item) : Bool :=
  match item.kind with
  | .fn d => d.modifiers.has .exported
  | .var d => d.modifiers.has .exported
  | _ => false

def isComptime (item : Item) : Bool :=
  match item.kind with
  | .comptime _ => true
  | _ => false

end Item

def declared : (index blocks : Nat) → List Item → List (Nat × String × Item)
  | _, _, [] => []
  | i, n, item :: rest =>
    match item.kind with
    | .fn d => (i, d.name.name, item) :: declared (i + 1) n rest
    | .var d => (i, d.name.name, item) :: declared (i + 1) n rest
    | .comptime _ => (i, "comptime#" ++ toString n, item) :: declared (i + 1) (n + 1) rest
    | _ => declared (i + 1) n rest

end Frontend
