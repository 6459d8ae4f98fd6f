import Frontend.Span
import Frontend.Digest.XxHash64
import Frontend.Digest.XxHash3

/-! Digests of names and of contents. A name digest identifies a declaration across updates; a changed content
digest tells that its text was edited. The three seeds keep units, names and contents apart. -/

attribute [local instance (high)] instPowNat

namespace Frontend

structure NameHash where
  bits : Nat
  deriving DecidableEq, Inhabited

structure ContentHash where
  bits : UInt64
  deriving DecidableEq, Inhabited

def hex (width n : Nat) : String :=
  let ds := Nat.toDigits 16 n
  String.ofList (List.replicate (width - ds.length) '0' ++ ds)

namespace NameHash

instance : LT NameHash := ⟨fun a b => a.bits < b.bits⟩

instance : DecidableLT NameHash := fun a b => inferInstanceAs (Decidable (a.bits < b.bits))

def ofWide (w : Digest.XxHash3.Wide) : NameHash := ⟨w.high.toNat * 2 ^ (64 : Nat) + w.low.toNat⟩

def root (path : String) : NameHash :=
  ofWide (Digest.XxHash3.hash (utf8 path).toArray 0x4bc94d6bd06053ad)

def child (parent : NameHash) (name : String) : NameHash :=
  ofWide (Digest.XxHash3.hash (Digest.bytesLE 16 parent.bits ++ 0x1f :: utf8 name).toArray 0x2fac10b63a6cc57c)

def text (h : NameHash) : String := hex 32 h.bits

end NameHash

namespace ContentHash

def of (bytes : List UInt8) : ContentHash := ⟨Digest.XxHash64.hash bytes.toArray 0x5ea77ffbcdf5f302⟩

def text (h : ContentHash) : String := hex 16 h.bits.toNat

end ContentHash

end Frontend
