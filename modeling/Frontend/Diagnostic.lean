import Frontend.Token
import Frontend.Untyped.Lower
import Frontend.Value

/-! Causes of failure and the diagnostics that report them. -/

namespace Frontend

inductive Cause where
  | stated (message : String)
  | parse (e : ParseError)
  | lowering (c : Untyped.LowerCause)
  | missingFile (path : String)
  | redefinition (name : String)
  | noSource
  | notFunctionType (found : Ty)
  | externalInit
  | constThreadLocal
  | uninitialized
  | uninferable
  | comptimeOnlyVariable (ty : Ty)
  | unexportable (ty : Ty)
  | exportOutsideDecl
  | symbolCollision (symbol : String)
  | exportRefused (reason : String)
  | codegenRefused (reason : String)
  | headerRefused (reason : String)
  | lineRefused (reason : String)
  | notConstant
  | branchQuota (quota : Nat)
  | callDepth (limit : Nat)
  | undeclared (name : String)
  | dependencyLoop
  | noValue
  | uncomputed
  | expectedType (found : Ty)
  | expectedInteger (found : Value)
  | noParameter (index : Nat)
  | vectorElement (found : Ty)
  | unreachableReached
  | breakpointAtComptime
  | expectedSinglePointer (found : Ty)
  | constantAssigned
  | expectedArray (found : Ty)
  | elementCount (expected found : Nat)
  | mismatch (expected found : Ty)
  | returnFromComptime
  | undefinedUsed
  | runtimeLoopLeft
  | notCallable (found : Ty)
  | argumentCount (expected found : Nat)
  | externalCallAtComptime
  | noBody
  | operatorNotAllowed (op : CmpOp) (ty : Ty)
  | incompatible (lhs rhs : Ty)
  | mixedVector (lhs rhs : Ty)
  | tooManyBits (bits : Nat)
  | vectorLengths (lhs rhs : Nat)
  | invalidOperands (lhs rhs : Ty)
  | divisionByZero
  | overflow (ty : Ty)
  | negation (ty : Ty)
  | fractional (value : Binary64) (dest : Ty)
  | unrepresentable (dest : Ty) (value : Value)
  | losesInformation (value : Value) (dest : Ty)
  deriving Inhabited

namespace Cause

def q (s : String) : String := "'" ++ s ++ "'"

def message : Cause → String
  | stated m => m
  | parse e => e.message
  | lowering c => c.message
  | missingFile path => "unable to load " ++ q path ++ ": No such file or directory (os error 2)"
  | redefinition name => "redefinition of " ++ q name
  | noSource => "declaration has no source"
  | notFunctionType t => "expected function type, found " ++ q t.text
  | externalInit => "extern variables have no initializers"
  | constThreadLocal => "threadlocal variable cannot be constant"
  | uninitialized => "variables must be initialized"
  | uninferable => "unable to infer variable type"
  | comptimeOnlyVariable t => "variable of type " ++ q t.text ++ " must be const or comptime"
  | unexportable t => "unable to export type " ++ q t.text
  | exportOutsideDecl => "export outside of a declaration"
  | symbolCollision s => "exported symbol collision: " ++ s
  | exportRefused r => "unable to export: " ++ r
  | codegenRefused r => "unable to codegen: " ++ r
  | headerRefused r => "unable to emit header: " ++ r
  | lineRefused r => "unable to update line number: " ++ r
  | notConstant => "unable to evaluate constant expression"
  | branchQuota n => "evaluation exceeded " ++ toString n ++ " backwards branches"
  | callDepth n => "evaluation exceeded maximum call depth of " ++ toString n
  | undeclared name => "use of undeclared identifier " ++ q name
  | dependencyLoop => "dependency loop detected"
  | noValue => "declaration has no value"
  | uncomputed => "use of a value that was never computed"
  | expectedType t => "expected type, found " ++ q t.text
  | expectedInteger v => "expected integer, found " ++ q v.text
  | noParameter i => "parameter " ++ toString i ++ " does not exist"
  | vectorElement t =>
    "expected integer, float, bool, or pointer for the vector element type; found " ++ q t.text
  | unreachableReached => "reached unreachable code"
  | breakpointAtComptime => "unable to evaluate breakpoint at compile time"
  | expectedSinglePointer t => "expected single pointer, found " ++ q t.text
  | constantAssigned => "cannot assign to constant"
  | expectedArray t => "expected array type, found " ++ q t.text
  | elementCount n m => "expected " ++ toString n ++ " array elements, found " ++ toString m
  | mismatch t u => "expected " ++ q t.text ++ ", found " ++ q u.text
  | returnFromComptime => "unable to return from a comptime block"
  | undefinedUsed => "use of undefined value"
  | runtimeLoopLeft => "unable to leave a runtime loop from a comptime block"
  | notCallable t => "type " ++ q t.text ++ " not a function"
  | argumentCount n m => "expected " ++ toString n ++ " argument(s), found " ++ toString m
  | externalCallAtComptime => "unable to call extern function at compile time"
  | noBody => "function has no body"
  | operatorNotAllowed op t => "operator " ++ op.text ++ " not allowed for type " ++ q t.text
  | incompatible t u => "incompatible types: " ++ q t.text ++ " and " ++ q u.text
  | mixedVector t u =>
    "mixed scalar and vector operands to comparison operator: " ++ q t.text ++ " and " ++ q u.text
  | tooManyBits n => toString n ++ " exceeds maximum integer bit count"
  | vectorLengths n m => "vector length mismatch: " ++ toString n ++ " and " ++ toString m
  | invalidOperands t u => "invalid operands to binary expression: " ++ q t.text ++ " and " ++ q u.text
  | divisionByZero => "division by zero"
  | overflow t => "overflow of integer type " ++ q t.text
  | negation t => "negation of type " ++ q t.text
  | fractional f t =>
    "fractional component prevents float value " ++ q f.text ++ " from being casted to type " ++ q t.text
  | unrepresentable t v => "type " ++ q t.text ++ " cannot represent integer value " ++ q v.text
  | losesInformation v t => "cast of value " ++ q v.text ++ " to type " ++ q t.text ++ " loses information"

end Cause

structure Diagnostic where
  file : FileId
  span : Span
  cause : Cause
  deriving Inhabited

namespace Diagnostic

def message (d : Diagnostic) : String := d.cause.message

def text (d : Diagnostic) : String := d.file.label ++ ":" ++ d.span.text ++ ": " ++ d.message

def le (a b : Diagnostic) : Bool :=
  if a.file ≠ b.file then a.file < b.file
  else if a.span.start ≠ b.span.start then a.span.start < b.span.start
  else if a.span.stop ≠ b.span.stop then a.span.stop < b.span.stop
  else !decide (b.message < a.message)

end Diagnostic

end Frontend
