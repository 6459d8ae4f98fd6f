/-! The types of the language, what each admits, and how each is written. -/

-- Powers are those of the core library, whatever is imported beside it.
attribute [local instance (high)] instPowNat

namespace Frontend

def maxIntBits : Nat := 65535

/-- The integers of compile-time arithmetic, those of 128 bits. -/
def inWord (v : Int) : Bool := -(2 ^ (127 : Nat)) ≤ v && v < 2 ^ (127 : Nat)

structure IntInfo where
  signed : Bool
  bits : Nat
  deriving DecidableEq, Inhabited

def IntInfo.fits (info : IntInfo) (v : Int) : Bool :=
  if info.signed then
    if info.bits = 0 then v == 0 else -(2 ^ (info.bits - 1)) ≤ v && v < 2 ^ (info.bits - 1)
  else 0 ≤ v && v < 2 ^ info.bits

/-- Bits of a value in two's complement; one that is not negative needs no sign bit here. -/
def bitCount (v : Int) : Nat :=
  match v with
  | .ofNat 0 => 0
  | .ofNat (n + 1) => Nat.log2 (n + 1) + 1
  | .negSucc n => if n = 0 then 1 else Nat.log2 n + 2

inductive FloatWidth where
  | half | single | double | quad
  deriving DecidableEq, Inhabited

def FloatWidth.bits : FloatWidth → Nat
  | half => 16
  | single => 32
  | double => 64
  | quad => 128

inductive PtrSize where
  | one | many | slice | c
  deriving DecidableEq, Inhabited

def PtrSize.name : PtrSize → String
  | one => "One"
  | many => "Many"
  | slice => "Slice"
  | c => "C"

inductive CallConv where
  | unspecified | c | inlined
  deriving DecidableEq, Inhabited

def CallConv.name : CallConv → String
  | unspecified => "Unspecified"
  | c => "C"
  | inlined => "Inline"

inductive Ty where
  | void
  | bool
  | noReturn
  | type
  | comptimeInt
  | comptimeFloat
  | undefined
  | null
  | int (info : IntInfo)
  | float (width : FloatWidth)
  | pointer (size : PtrSize) (isConst : Bool) (sentinel : Option Int) (child : Ty)
  | array (len : Nat) (sentinel : Option Int) (child : Ty)
  | optional (child : Ty)
  | vector (len : Nat) (child : Ty)
  | function (params : List Ty) (ret : Ty) (cc : CallConv)
  deriving Inhabited

namespace Ty

def signed (bits : Nat) : Ty := int ⟨true, bits⟩

def unsigned (bits : Nat) : Ty := int ⟨false, bits⟩

def usize : Ty := unsigned 64

def isize : Ty := signed 64

def singlePtr (child : Ty) (isConst : Bool) : Ty := pointer .one isConst none child

def sliceOf (child : Ty) (isConst : Bool) : Ty := pointer .slice isConst none child

mutual

def beq : Ty → Ty → Bool
  | void, void | bool, bool | noReturn, noReturn | type, type | comptimeInt, comptimeInt
  | comptimeFloat, comptimeFloat | undefined, undefined | null, null => true
  | int a, int b => a = b
  | float a, float b => a = b
  | pointer s c z t, pointer s' c' z' t' => s = s' && c = c' && z = z' && beq t t'
  | array n z t, array n' z' t' => n = n' && z = z' && beq t t'
  | optional t, optional t' => beq t t'
  | vector n t, vector n' t' => n = n' && beq t t'
  | function ps r cc, function ps' r' cc' => cc = cc' && beqAll ps ps' && beq r r'
  | _, _ => false

def beqAll : List Ty → List Ty → Bool
  | [], [] => true
  | t :: ts, u :: us => beq t u && beqAll ts us
  | _, _ => false

end

mutual

theorem beq_self : ∀ t : Ty, beq t t = true
  | void | bool | noReturn | type | comptimeInt | comptimeFloat | undefined | null => rfl
  | int _ | float _ => by simp [beq]
  | pointer _ _ _ t => by simp [beq, beq_self t]
  | array _ _ t => by simp [beq, beq_self t]
  | optional t => by simp [beq, beq_self t]
  | vector _ t => by simp [beq, beq_self t]
  | function ps r _ => by simp [beq, beq_self r, beqAll_self ps]

theorem beqAll_self : ∀ ts : List Ty, beqAll ts ts = true
  | [] => rfl
  | t :: ts => by simp [beqAll, beq_self t, beqAll_self ts]

end

mutual

theorem eq_of_beq : ∀ (t u : Ty), beq t u = true → t = u
  | void, u, h => by cases u <;> simp_all [beq]
  | bool, u, h => by cases u <;> simp_all [beq]
  | noReturn, u, h => by cases u <;> simp_all [beq]
  | type, u, h => by cases u <;> simp_all [beq]
  | comptimeInt, u, h => by cases u <;> simp_all [beq]
  | comptimeFloat, u, h => by cases u <;> simp_all [beq]
  | undefined, u, h => by cases u <;> simp_all [beq]
  | null, u, h => by cases u <;> simp_all [beq]
  | int _, u, h => by cases u <;> simp_all [beq]
  | float _, u, h => by cases u <;> simp_all [beq]
  | pointer _ _ _ t, u, h => by
    cases u with
    | pointer s' c' z' t' => have := eq_of_beq t t'; simp_all [beq]
    | _ => simp [beq] at h
  | array _ _ t, u, h => by
    cases u with
    | array n' z' t' => have := eq_of_beq t t'; simp_all [beq]
    | _ => simp [beq] at h
  | optional t, u, h => by
    cases u with
    | optional t' => have := eq_of_beq t t'; simp_all [beq]
    | _ => simp [beq] at h
  | vector _ t, u, h => by
    cases u with
    | vector n' t' => have := eq_of_beq t t'; simp_all [beq]
    | _ => simp [beq] at h
  | function ps r _, u, h => by
    cases u with
    | function ps' r' cc' => have := eq_of_beq r r'; have := eq_of_beqAll ps ps'; simp_all [beq]
    | _ => simp [beq] at h

theorem eq_of_beqAll : ∀ (ts us : List Ty), beqAll ts us = true → ts = us
  | [], us, h => by cases us <;> simp_all [beqAll]
  | t :: ts, us, h => by
    cases us with
    | nil => simp [beqAll] at h
    | cons u us => have := eq_of_beq t u; have := eq_of_beqAll ts us; simp_all [beqAll]

end

instance : DecidableEq Ty := fun t u =>
  if h : beq t u = true then isTrue (eq_of_beq t u h)
  else isFalse (fun e => h (e ▸ beq_self t))

def isInt : Ty → Bool
  | int _ => true
  | _ => false

def isFloat : Ty → Bool
  | float _ => true
  | _ => false

def isNumeric : Ty → Bool
  | int _ | float _ | comptimeInt | comptimeFloat => true
  | _ => false

def isSignedInt : Ty → Bool
  | int info => info.signed
  | _ => false

def isVector : Ty → Bool
  | vector .. => true
  | _ => false

def isFunction : Ty → Bool
  | function .. => true
  | _ => false

def isSinglePointer : Ty → Bool
  | pointer .one .. => true
  | _ => false

def isSlice : Ty → Bool
  | pointer .slice .. => true
  | _ => false

def isUnknownLenPointer : Ty → Bool
  | pointer .many .. | pointer .c .. => true
  | _ => false

def intInfo? : Ty → Option IntInfo
  | int info => some info
  | _ => none

def floatWidth? : Ty → Option FloatWidth
  | float w => some w
  | _ => none

def elem? : Ty → Option Ty
  | pointer _ _ _ t | array _ _ t | vector _ t | optional t => some t
  | _ => none

def len? : Ty → Option Nat
  | array n _ _ | vector n _ => some n
  | _ => none

def optionalChild? : Ty → Option Ty
  | optional t => some t
  | _ => none

def isComptimeOnly : Ty → Bool
  | comptimeInt | comptimeFloat | type | null | undefined | function .. => true
  | pointer _ _ _ t => t.isComptimeOnly && !t.isFunction
  | array _ _ t | optional t | vector _ t => t.isComptimeOnly
  | void | bool | noReturn | int _ | float _ => false

def isValidVar : Ty → Bool
  | bool | int _ | float _ | vector .. => true
  | optional t | pointer _ _ _ t | array _ _ t => t.isValidVar
  | _ => false

def hasBits : Ty → Bool
  | bool | float _ => true
  | int info => info.bits != 0
  | pointer _ _ _ t | optional t => !t.isComptimeOnly
  | array n _ t | vector n t => n != 0 && t.hasBits
  | function ps r cc => cc != .inlined && !ps.any isComptimeOnly && !r.isComptimeOnly
  | _ => false

def ptrText : PtrSize → Option Int → String
  | .one, _ => "*"
  | .many, none => "[*]"
  | .many, some s => "[*:" ++ toString s ++ "]"
  | .slice, none => "[]"
  | .slice, some s => "[:" ++ toString s ++ "]"
  | .c, _ => "[*c]"

mutual

def text : Ty → String
  | void => "void"
  | bool => "bool"
  | noReturn => "noreturn"
  | type => "type"
  | comptimeInt => "comptime_int"
  | comptimeFloat => "comptime_float"
  | undefined => "@TypeOf(undefined)"
  | null => "@TypeOf(null)"
  | int info => (if info.signed then "i" else "u") ++ toString info.bits
  | float w => "f" ++ toString w.bits
  | pointer size isConst sentinel t =>
    ptrText size sentinel ++ (if isConst then "const " else "") ++ text t
  | array n none t => "[" ++ toString n ++ "]" ++ text t
  | array n (some s) t => "[" ++ toString n ++ ":" ++ toString s ++ "]" ++ text t
  | optional t => "?" ++ text t
  | vector n t => "@Vector(" ++ toString n ++ ", " ++ text t ++ ")"
  | function ps r cc =>
    let cc := match cc with
      | .unspecified => ""
      | .c => "callconv(.C) "
      | .inlined => "callconv(.Inline) "
    "fn(" ++ ", ".intercalate (texts ps) ++ ") " ++ cc ++ text r

def texts : List Ty → List String
  | [] => []
  | t :: ts => text t :: texts ts

end

/-- The type a name stands for everywhere. A name of integer shape that is too wide is refused. -/
def primitive? (name : String) : Except Unit (Option Ty) :=
  match name with
  | "bool" => .ok (some bool)
  | "void" => .ok (some void)
  | "type" => .ok (some type)
  | "noreturn" => .ok (some noReturn)
  | "comptime_int" => .ok (some comptimeInt)
  | "comptime_float" => .ok (some comptimeFloat)
  | "f16" => .ok (some (float .half))
  | "f32" => .ok (some (float .single))
  | "f64" => .ok (some (float .double))
  | "f128" => .ok (some (float .quad))
  | "usize" => .ok (some usize)
  | "isize" => .ok (some isize)
  | _ =>
    match name.toList with
    | c :: ds =>
      if (c = 'u' || c = 'i') && !ds.isEmpty && ds.all Char.isDigit then
        let bits := ds.foldl (fun n d => 10 * n + (d.toNat - 48)) 0
        if bits ≤ maxIntBits then .ok (some (int ⟨c = 'i', bits⟩)) else .error ()
      else .ok none
    | [] => .ok none

end Ty

end Frontend
