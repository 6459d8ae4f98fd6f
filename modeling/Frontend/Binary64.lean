/-! Floating-point numbers of the 64-bit binary format. A finite number is a whole number of steps of
`2 ^ -1074`, so every operation is an exact integer quotient rounded once, to the nearest number and to an
even mantissa in the middle. -/

attribute [local instance (high)] instPowNat

namespace Frontend

/-- `finite negative mantissa unit` is `mantissa * 2 ^ unit` steps, negated if so marked. Numbers made here
have `mantissa < 2 ^ 53`, and `2 ^ 52 ≤ mantissa` unless `unit = 0`. -/
inductive Binary64 where
  | nan
  | infinity (negative : Bool)
  | finite (negative : Bool) (mantissa unit : Nat)
  deriving DecidableEq, Inhabited

def roundHalfEven (num den : Nat) : Nat :=
  let q := num / den
  let r := num % den
  if 2 * r < den then q
  else if den < 2 * r then q + 1
  else if q % 2 = 0 then q else q + 1

namespace Binary64

def one : Nat := 2 ^ (1074 : Nat)

def zero : Binary64 := finite false 0 0

def make (negative : Bool) (mantissa unit : Nat) : Binary64 :=
  if 2045 < unit then infinity negative else finite negative mantissa unit

def ofRatio (negative : Bool) (num den : Nat) : Binary64 :=
  let unit := Nat.log2 (num / den) - 52
  let mantissa := roundHalfEven num (den * 2 ^ unit)
  if mantissa = 2 ^ (53 : Nat) then make negative (2 ^ (52 : Nat)) (unit + 1) else make negative mantissa unit

def ofInt (v : Int) : Binary64 := ofRatio (v < 0) (v.natAbs * one) 1

def signed (negative : Bool) (mantissa unit : Nat) : Int :=
  if negative then -((mantissa * 2 ^ unit : Nat) : Int) else ((mantissa * 2 ^ unit : Nat) : Int)

def isFinite : Binary64 → Bool
  | finite .. => true
  | _ => false

def isNaN (x : Binary64) : Bool := x == nan

def hasFraction : Binary64 → Bool
  | finite _ m u => m * 2 ^ u % one != 0
  | _ => false

def neg : Binary64 → Binary64
  | nan => nan
  | infinity s => infinity (!s)
  | finite s m u => finite (!s) m u

def abs : Binary64 → Binary64
  | nan => nan
  | infinity _ => infinity false
  | finite _ m u => finite false m u

/-- A sum that cancels is a positive zero; only two negative zeros add up to a negative one. -/
def add : Binary64 → Binary64 → Binary64
  | nan, _ => nan
  | _, nan => nan
  | infinity s, infinity t => if s = t then infinity s else nan
  | infinity s, finite .. => infinity s
  | finite .., infinity t => infinity t
  | finite s m u, finite t n v =>
    let sum := signed s m u + signed t n v
    if sum = 0 then finite (s && t) 0 0 else ofRatio (sum < 0) sum.natAbs 1

def sub (x y : Binary64) : Binary64 := add x y.neg

def mul : Binary64 → Binary64 → Binary64
  | nan, _ => nan
  | _, nan => nan
  | infinity s, infinity t => infinity (s != t)
  | infinity s, finite t n _ => if n = 0 then nan else infinity (s != t)
  | finite s m _, infinity t => if m = 0 then nan else infinity (s != t)
  | finite s m u, finite t n v => ofRatio (s != t) (m * 2 ^ u * (n * 2 ^ v)) one

def div : Binary64 → Binary64 → Binary64
  | nan, _ => nan
  | _, nan => nan
  | infinity _, infinity _ => nan
  | infinity s, finite t _ _ => infinity (s != t)
  | finite s _ _, infinity t => finite (s != t) 0 0
  | finite s m u, finite t n v =>
    if n = 0 then (if m = 0 then nan else infinity (s != t))
    else ofRatio (s != t) (m * 2 ^ u * one) (n * 2 ^ v)

def rem : Binary64 → Binary64 → Binary64
  | nan, _ => nan
  | _, nan => nan
  | infinity _, _ => nan
  | finite s m u, infinity _ => finite s m u
  | finite s m u, finite _ n v =>
    if n = 0 then nan else ofRatio s (m * 2 ^ u % (n * 2 ^ v)) 1

def compare : Binary64 → Binary64 → Option Ordering
  | nan, _ => none
  | _, nan => none
  | infinity s, infinity t => some (Ord.compare (!s) (!t))
  | infinity s, finite .. => some (if s then .lt else .gt)
  | finite .., infinity t => some (if t then .gt else .lt)
  | finite s m u, finite t n v => some (Ord.compare (signed s m u) (signed t n v))

def same (x y : Binary64) : Bool :=
  match x.compare y with
  | some o => o == .eq
  | none => x.isNaN && y.isNaN

def trunc? : Binary64 → Option Int
  | finite s m u => some (Int.tdiv (signed s m u) one)
  | _ => none

def floor? : Binary64 → Option Int
  | finite s m u => some (Int.fdiv (signed s m u) one)
  | _ => none

end Binary64

end Frontend
