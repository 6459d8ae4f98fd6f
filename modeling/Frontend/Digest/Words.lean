/-! Words of a byte string, and the word arithmetic that digests share. -/

namespace Frontend.Digest

def byteAt (bytes : Array UInt8) (i : Nat) : UInt8 := bytes.getD i 0

def word32 (bytes : Array UInt8) (i : Nat) : UInt64 :=
  (byteAt bytes i).toUInt64 ||| (byteAt bytes (i + 1)).toUInt64 <<< 8 |||
    (byteAt bytes (i + 2)).toUInt64 <<< 16 ||| (byteAt bytes (i + 3)).toUInt64 <<< 24

def word64 (bytes : Array UInt8) (i : Nat) : UInt64 :=
  word32 bytes i ||| word32 bytes (i + 4) <<< 32

def rotl (x : UInt64) (n : UInt64) : UInt64 := x <<< n ||| x >>> (64 - n)

def swap32 (x : UInt64) : UInt64 :=
  (x &&& 0xff) <<< 24 ||| (x >>> 8 &&& 0xff) <<< 16 ||| (x >>> 16 &&& 0xff) <<< 8 ||| (x >>> 24 &&& 0xff)

def swap64 (x : UInt64) : UInt64 := swap32 x <<< 32 ||| swap32 (x >>> 32)

def xorShift (x n : UInt64) : UInt64 := x ^^^ x >>> n

def bytesLE : Nat → Nat → List UInt8
  | 0, _ => []
  | n + 1, v => UInt8.ofNat (v % 256) :: bytesLE n (v / 256)

def prime32x1 : UInt64 := 0x9e3779b1
def prime32x2 : UInt64 := 0x85ebca77
def prime32x3 : UInt64 := 0xc2b2ae3d
def prime64x1 : UInt64 := 0x9e3779b185ebca87
def prime64x2 : UInt64 := 0xc2b2ae3d27d4eb4f
def prime64x3 : UInt64 := 0x165667b19e3779f9
def prime64x4 : UInt64 := 0x85ebca77c2b2ae63
def prime64x5 : UInt64 := 0x27d4eb2f165667c5

def avalanche64 (h : UInt64) : UInt64 :=
  xorShift (xorShift (xorShift h 33 * prime64x2) 29 * prime64x3) 32

end Frontend.Digest
