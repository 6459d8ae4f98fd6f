import Frontend.Digest.Words

/-! The 128-bit XXH3 digest with a seed. Short inputs are mixed whole, middling ones in pairs of 16-byte
lanes, and long ones through eight accumulators over stripes of 64 bytes. -/

attribute [local instance (high)] instPowNat

namespace Frontend.Digest.XxHash3

structure Wide where
  high : UInt64
  low : UInt64

def key : Array UInt8 := #[
  0xb8, 0xfe, 0x6c, 0x39, 0x23, 0xa4, 0x4b, 0xbe, 0x7c, 0x01, 0x81, 0x2c, 0xf7, 0x21, 0xad, 0x1c,
  0xde, 0xd4, 0x6d, 0xe9, 0x83, 0x90, 0x97, 0xdb, 0x72, 0x40, 0xa4, 0xa4, 0xb7, 0xb3, 0x67, 0x1f,
  0xcb, 0x79, 0xe6, 0x4e, 0xcc, 0xc0, 0xe5, 0x78, 0x82, 0x5a, 0xd0, 0x7d, 0xcc, 0xff, 0x72, 0x21,
  0xb8, 0x08, 0x46, 0x74, 0xf7, 0x43, 0x24, 0x8e, 0xe0, 0x35, 0x90, 0xe6, 0x81, 0x3a, 0x26, 0x4c,
  0x3c, 0x28, 0x52, 0xbb, 0x91, 0xc3, 0x00, 0xcb, 0x88, 0xd0, 0x65, 0x8b, 0x1b, 0x53, 0x2e, 0xa3,
  0x71, 0x64, 0x48, 0x97, 0xa2, 0x0d, 0xf9, 0x4e, 0x38, 0x19, 0xef, 0x46, 0xa9, 0xde, 0xac, 0xd8,
  0xa8, 0xfa, 0x76, 0x3f, 0xe3, 0x9c, 0x34, 0x3f, 0xf9, 0xdc, 0xbb, 0xc7, 0xc7, 0x0b, 0x4f, 0x1d,
  0x8a, 0x51, 0xe0, 0x4b, 0xcd, 0xb4, 0x59, 0x31, 0xc8, 0x9f, 0x7e, 0xc9, 0xd9, 0x78, 0x73, 0x64,
  0xea, 0xc5, 0xac, 0x83, 0x34, 0xd3, 0xeb, 0xc3, 0xc5, 0x81, 0xa0, 0xff, 0xfa, 0x13, 0x63, 0xeb,
  0x17, 0x0d, 0xdd, 0x51, 0xb7, 0xf0, 0xda, 0x49, 0xd3, 0x16, 0x55, 0x26, 0x29, 0xd4, 0x68, 0x9e,
  0x2b, 0x16, 0xbe, 0x58, 0x7d, 0x47, 0xa1, 0xfc, 0x8f, 0xf8, 0xb8, 0xd1, 0x7a, 0xd0, 0x31, 0xce,
  0x45, 0xcb, 0x3a, 0x8f, 0x95, 0x16, 0x04, 0x28, 0xaf, 0xd7, 0xfb, 0xca, 0xbb, 0x4b, 0x40, 0x7e]

def mixPrime1 : UInt64 := 0x165667919e3779f9
def mixPrime2 : UInt64 := 0x9fb21c651e98df25

def avalanche (h : UInt64) : UInt64 := xorShift (xorShift h 37 * mixPrime1) 32

def product (a b : UInt64) : Wide :=
  let p := a.toNat * b.toNat
  ⟨UInt64.ofNat (p / 2 ^ (64 : Nat)), UInt64.ofNat p⟩

def fold (a b : UInt64) : UInt64 :=
  let p := product a b
  p.high ^^^ p.low

def low32 (x : UInt64) : UInt64 := x &&& 0xffffffff

def empty (seed : UInt64) : Wide :=
  ⟨avalanche64 (seed ^^^ (word64 key 80 ^^^ word64 key 88)),
    avalanche64 (seed ^^^ (word64 key 64 ^^^ word64 key 72))⟩

def tiny (bytes : Array UInt8) (seed : UInt64) : Wide :=
  let n := bytes.size
  let first := (byteAt bytes 0).toUInt64
  let middle := (byteAt bytes (n / 2)).toUInt64
  let last := (byteAt bytes (n - 1)).toUInt64
  let lo := first <<< 16 ||| middle <<< 24 ||| last ||| UInt64.ofNat n <<< 8
  let swapped := swap32 lo
  let hi := low32 (swapped <<< 13 ||| swapped >>> 19)
  ⟨avalanche64 (hi ^^^ ((word32 key 8 ^^^ word32 key 12) - seed)),
    avalanche64 (lo ^^^ ((word32 key 0 ^^^ word32 key 4) + seed))⟩

def small (bytes : Array UInt8) (seed : UInt64) : Wide :=
  let n := bytes.size
  let seed := seed ^^^ swap32 seed <<< 32
  let input := word32 bytes 0 + word32 bytes (n - 4) <<< 32
  let keyed := input ^^^ ((word64 key 16 ^^^ word64 key 24) + seed)
  let p := product keyed (prime64x1 + UInt64.ofNat n <<< 2)
  let high := p.high + p.low <<< 1
  let low := p.low ^^^ high >>> 3
  ⟨avalanche high, xorShift (xorShift low 35 * mixPrime2) 28⟩

def medium (bytes : Array UInt8) (seed : UInt64) : Wide :=
  let n := bytes.size
  let flipLow := (word64 key 32 ^^^ word64 key 40) - seed
  let flipHigh := (word64 key 48 ^^^ word64 key 56) + seed
  let inputLow := word64 bytes 0
  let inputHigh := word64 bytes (n - 8)
  let p := product (inputLow ^^^ inputHigh ^^^ flipLow) prime64x1
  let inputHigh := inputHigh ^^^ flipHigh
  let high := p.high + (inputHigh + low32 inputHigh * (prime32x2 - 1))
  let low := (p.low + UInt64.ofNat (n - 1) <<< 54) ^^^ swap64 high
  let q := product low prime64x2
  ⟨avalanche (q.high + high * prime64x2), avalanche q.low⟩

def mix16 (bytes : Array UInt8) (i k : Nat) (seed : UInt64) : UInt64 :=
  fold (word64 bytes i ^^^ (word64 key k + seed)) (word64 bytes (i + 8) ^^^ (word64 key (k + 8) - seed))

def mix32 (bytes : Array UInt8) (seed : UInt64) (acc : Wide) (i j k : Nat) : Wide :=
  ⟨(acc.high + mix16 bytes j (k + 16) seed) ^^^ (word64 bytes i + word64 bytes (i + 8)),
    (acc.low + mix16 bytes i k seed) ^^^ (word64 bytes j + word64 bytes (j + 8))⟩

def finish (n : Nat) (seed : UInt64) (acc : Wide) : Wide :=
  ⟨0 - avalanche (acc.low * prime64x1 + acc.high * prime64x4 + (UInt64.ofNat n - seed) * prime64x2),
    avalanche (acc.low + acc.high)⟩

def paired (bytes : Array UInt8) (seed : UInt64) : Wide :=
  let n := bytes.size
  let pairs := (n - 1) / 32
  finish n seed <| (List.range (pairs + 1)).reverse.foldl
    (fun acc i => mix32 bytes seed acc (16 * i) (n - 16 * (i + 1)) (32 * i))
    ⟨0, UInt64.ofNat n * prime64x1⟩

def chained (bytes : Array UInt8) (seed : UInt64) : Wide :=
  let n := bytes.size
  let acc := (List.range 4).foldl
    (fun acc i => mix32 bytes seed acc (32 * i) (32 * i + 16) (32 * i)) ⟨0, UInt64.ofNat n * prime64x1⟩
  let acc := (List.range (n / 32 - 4)).foldl
    (fun acc i => mix32 bytes seed acc (32 * (i + 4)) (32 * (i + 4) + 16) (3 + 32 * i))
    ⟨avalanche acc.high, avalanche acc.low⟩
  finish n seed (mix32 bytes (0 - seed) acc (n - 16) (n - 32) 103)

def seededKey (seed : UInt64) : Array UInt8 :=
  ((List.range 12).flatMap fun i =>
    bytesLE 8 (word64 key (16 * i) + seed).toNat ++ bytesLE 8 (word64 key (16 * i + 8) - seed).toNat).toArray

def lane (acc : Array UInt64) (i : Nat) : UInt64 := acc.getD i 0

def accumulate (bytes keys : Array UInt8) (i k : Nat) (acc : Array UInt64) : Array UInt64 :=
  (Array.range 8).map fun l =>
    let keyed := word64 bytes (i + 8 * l) ^^^ word64 keys (k + 8 * l)
    lane acc l + word64 bytes (i + 8 * (l ^^^ 1)) + low32 keyed * (keyed >>> 32)

def scramble (keys : Array UInt8) (acc : Array UInt64) : Array UInt64 :=
  (Array.range 8).map fun l =>
    (xorShift (lane acc l) 47 ^^^ word64 keys (128 + 8 * l)) * prime32x1

def mergeLanes (keys : Array UInt8) (k : Nat) (start : UInt64) (acc : Array UInt64) : UInt64 :=
  avalanche <| (List.range 4).foldl
    (fun h i => h + fold (lane acc (2 * i) ^^^ word64 keys (k + 16 * i))
      (lane acc (2 * i + 1) ^^^ word64 keys (k + 16 * i + 8))) start

def striped (bytes : Array UInt8) (seed : UInt64) : Wide :=
  let n := bytes.size
  let keys := seededKey seed
  let block := fun (base stripes : Nat) (acc : Array UInt64) =>
    (List.range stripes).foldl (fun acc s => accumulate bytes keys (base + 64 * s) (8 * s) acc) acc
  let blocks := (n - 1) / 1024
  let acc := (List.range blocks).foldl (fun acc b => scramble keys (block (1024 * b) 16 acc))
    #[prime32x3, prime64x1, prime64x2, prime64x3, prime64x4, prime32x2, prime64x5, prime32x1]
  let acc := block (1024 * blocks) ((n - 1 - 1024 * blocks) / 64) acc
  let acc := accumulate bytes keys (n - 64) 121 acc
  ⟨mergeLanes keys 117 (~~~(UInt64.ofNat n * prime64x2)) acc,
    mergeLanes keys 11 (UInt64.ofNat n * prime64x1) acc⟩

def hash (bytes : Array UInt8) (seed : UInt64) : Wide :=
  if bytes.size = 0 then empty seed
  else if bytes.size ≤ 3 then tiny bytes seed
  else if bytes.size ≤ 8 then small bytes seed
  else if bytes.size ≤ 16 then medium bytes seed
  else if bytes.size ≤ 128 then paired bytes seed
  else if bytes.size ≤ 240 then chained bytes seed
  else striped bytes seed

end Frontend.Digest.XxHash3
