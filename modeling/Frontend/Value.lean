import Frontend.Binary64.Decimal
import Frontend.Operator
import Frontend.Span
import Frontend.Ty

/-! Values known at compile time. A value is meaningful beside the type it was made with. -/

namespace Frontend

inductive Value where
  | void
  | undefined
  | null
  | bool (b : Bool)
  | int (v : Int)
  | float (f : Binary64)
  | type (t : Ty)
  | function (decl : DeclId)
  | externalFn (decl : DeclId)
  | global (owner : DeclId) (init : Option Value) (isMutable isExternal isThreadLocal : Bool)
  | declRef (decl : DeclId)
  | array (elems : List Value)
  | slice (ptr : Value) (len : Nat)
  | comptimeSlot (slot : Nat)
  deriving Inhabited

structure TypedValue where
  ty : Ty
  val : Value
  deriving Inhabited

namespace Value

mutual

/-- Structural equality; a NaN equals itself and the two zeros are one. -/
def beq : Value → Value → Bool
  | void, void | undefined, undefined | null, null => true
  | bool a, bool b => a == b
  | int a, int b => a == b
  | float a, float b => a.same b
  | type a, type b => a = b
  | function a, function b => a == b
  | externalFn a, externalFn b => a == b
  | global o i m e t, global o' i' m' e' t' =>
    o == o' && beqOption i i' && m == m' && e == e' && t == t'
  | declRef a, declRef b => a == b
  | array xs, array ys => beqAll xs ys
  | slice p n, slice q m => beq p q && n == m
  | comptimeSlot a, comptimeSlot b => a == b
  | _, _ => false

def beqOption : Option Value → Option Value → Bool
  | none, none => true
  | some a, some b => beq a b
  | _, _ => false

def beqAll : List Value → List Value → Bool
  | [], [] => true
  | a :: as, b :: bs => beq a b && beqAll as bs
  | _, _ => false

end

instance : BEq Value := ⟨beq⟩

def isUndefined : Value → Bool
  | undefined => true
  | _ => false

def isNull : Value → Bool
  | null => true
  | _ => false

def isGlobal : Value → Bool
  | global .. => true
  | _ => false

def isFunction : Value → Bool
  | function _ | externalFn _ => true
  | _ => false

def asInt? : Value → Option Int
  | int v => some v
  | _ => none

def asFloat? : Value → Option Binary64
  | float f => some f
  | int v => some (.ofInt v)
  | _ => none

def asBool? : Value → Option Bool
  | bool b => some b
  | _ => none

def asType? : Value → Option Ty
  | type t => some t
  | _ => none

def hasFraction : Value → Bool
  | float f => f.hasFraction
  | _ => false

def order? : Value → Option Ordering
  | int v => some (compare v 0)
  | float f => f.compare .zero
  | _ => none

def equal? : Value → Value → Option Bool
  | bool a, bool b => some (a == b)
  | type a, type b => some (a = b)
  | null, null | void, void => some true
  | null, _ | _, null => some false
  | declRef a, declRef b => some (a == b)
  | _, _ => none

/-- Whether the comparison holds; `none` if the two cannot be compared so. -/
def compare? (op : CmpOp) : Value → Value → Option Bool
  | int a, int b => some (op.holds (compare a b))
  | a, b =>
    match a.asFloat?, b.asFloat? with
    | some x, some y =>
      some (match x.compare y with
        | some o => op.holds o
        | none => op == .neq)
    | _, _ => if op.isEquality then (equal? a b).map (fun e => if op == .eq then e else !e) else none

mutual

def text : Value → String
  | void => "\x7b\x7d"
  | undefined => "undefined"
  | null => "null"
  | bool b => if b then "true" else "false"
  | int v => toString v
  | float f => f.text
  | type t => t.text
  | function d => "(function " ++ d.label ++ ")"
  | externalFn d => "(extern function " ++ d.label ++ ")"
  | global o .. => "(variable " ++ o.label ++ ")"
  | declRef d => "&" ++ d.label
  | array xs => "\x7b " ++ ", ".intercalate (texts xs) ++ " \x7d"
  | slice p n => text p ++ "[0.." ++ toString n ++ "]"
  | comptimeSlot s => "(comptime alloc " ++ toString s ++ ")"

def texts : List Value → List String
  | [] => []
  | v :: vs => text v :: texts vs

end

end Value

end Frontend
