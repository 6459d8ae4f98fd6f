import Frontend.Digest.Words

/-! The XXH64 digest: four lanes over stripes of 32 bytes, then the tail by words and bytes. -/

namespace Frontend.Digest.XxHash64

def round (acc input : UInt64) : UInt64 := rotl (acc + input * prime64x2) 31 * prime64x1

def merge (acc lane : UInt64) : UInt64 := (acc ^^^ round 0 lane) * prime64x1 + prime64x4

def lanes (bytes : Array UInt8) (seed : UInt64) : UInt64 × UInt64 × UInt64 × UInt64 :=
  (List.range (bytes.size / 32)).foldl
    (fun (a, b, c, d) i =>
      (round a (word64 bytes (32 * i)), round b (word64 bytes (32 * i + 8)),
        round c (word64 bytes (32 * i + 16)), round d (word64 bytes (32 * i + 24))))
    (seed + prime64x1 + prime64x2, seed + prime64x2, seed, seed - prime64x1)

def start (bytes : Array UInt8) (seed : UInt64) : UInt64 :=
  if bytes.size < 32 then seed + prime64x5
  else
    let (a, b, c, d) := lanes bytes seed
    merge (merge (merge (merge (rotl a 1 + rotl b 7 + rotl c 12 + rotl d 18) a) b) c) d

def tail (bytes : Array UInt8) (h : UInt64) : UInt64 :=
  let base := bytes.size / 32 * 32
  let words := (bytes.size - base) / 8
  let h := (List.range words).foldl
    (fun h i => rotl (h ^^^ round 0 (word64 bytes (base + 8 * i))) 27 * prime64x1 + prime64x4) h
  let base := base + 8 * words
  let half := (bytes.size - base) / 4
  let h := if half = 0 then h
    else rotl (h ^^^ word32 bytes base * prime64x1) 23 * prime64x2 + prime64x3
  let base := base + 4 * half
  (List.range (bytes.size - base)).foldl
    (fun h i => rotl (h ^^^ (byteAt bytes (base + i)).toUInt64 * prime64x5) 11 * prime64x1) h

def hash (bytes : Array UInt8) (seed : UInt64) : UInt64 :=
  avalanche64 (tail bytes (start bytes seed + UInt64.ofNat bytes.size))

end Frontend.Digest.XxHash64
