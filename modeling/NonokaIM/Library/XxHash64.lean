import Mathlib.Data.List.Basic

/-! The 64-bit xxHash with seed 0. -/

namespace XxHash64

def prime1 : UInt64 := 0x9E3779B185EBCA87
def prime2 : UInt64 := 0xC2B2AE3D27D4EB4F
def prime3 : UInt64 := 0x165667B19E3779F9
def prime4 : UInt64 := 0x85EBCA77C2B2AE63
def prime5 : UInt64 := 0x27D4EB2F165667C5

def rol (x r : UInt64) : UInt64 := (x <<< r) ||| (x >>> (64 - r))

def round (acc input : UInt64) : UInt64 := rol (acc + input * prime2) 31 * prime1

def mergeRound (acc val : UInt64) : UInt64 := (acc ^^^ round 0 val) * prime1 + prime4

/-- Bytes as a number, the lowest first. -/
def littleEndian (bytes : List UInt8) : UInt64 :=
  bytes.foldr (fun b n => (n <<< 8) ||| b.toUInt64) 0

/-- The four accumulators of inputs of at least 32 bytes. -/
structure Lanes where
  v1 : UInt64 := prime1 + prime2
  v2 : UInt64 := prime2
  v3 : UInt64 := 0
  v4 : UInt64 := 0 - prime1

def Lanes.add (v : Lanes) (block : List UInt8) : Lanes where
  v1 := round v.v1 (littleEndian (block.take 8))
  v2 := round v.v2 (littleEndian ((block.drop 8).take 8))
  v3 := round v.v3 (littleEndian ((block.drop 16).take 8))
  v4 := round v.v4 (littleEndian ((block.drop 24).take 8))

def Lanes.digest (v : Lanes) : UInt64 :=
  let h := rol v.v1 1 + rol v.v2 7 + rol v.v3 12 + rol v.v4 18
  mergeRound (mergeRound (mergeRound (mergeRound h v.v1) v.v2) v.v3) v.v4

/-- The blocks of 32 bytes at the head; the first argument bounds their number. -/
def blocks : ℕ → Lanes → List UInt8 → Lanes × List UInt8
  | 0, v, bytes => (v, bytes)
  | n + 1, v, bytes =>
    if 32 ≤ bytes.length then blocks n (v.add (bytes.take 32)) (bytes.drop 32) else (v, bytes)

/-- The words of eight bytes at the head of what is left. -/
def words : ℕ → UInt64 → List UInt8 → UInt64 × List UInt8
  | 0, h, bytes => (h, bytes)
  | n + 1, h, bytes =>
    if 8 ≤ bytes.length then
      words n (rol (h ^^^ round 0 (littleEndian (bytes.take 8))) 27 * prime1 + prime4)
        (bytes.drop 8)
    else (h, bytes)

def halfWord (h : UInt64) (bytes : List UInt8) : UInt64 × List UInt8 :=
  if 4 ≤ bytes.length then
    (rol (h ^^^ (littleEndian (bytes.take 4) * prime1)) 23 * prime2 + prime3, bytes.drop 4)
  else (h, bytes)

def lastByte (h : UInt64) (b : UInt8) : UInt64 := rol (h ^^^ (b.toUInt64 * prime5)) 11 * prime1

def avalanche (h : UInt64) : UInt64 :=
  let h := (h ^^^ (h >>> 33)) * prime2
  let h := (h ^^^ (h >>> 29)) * prime3
  h ^^^ (h >>> 32)

def sum64 (bytes : List UInt8) : UInt64 :=
  let (v, rest) := blocks bytes.length {} bytes
  let h := (if 32 ≤ bytes.length then v.digest else prime5) + UInt64.ofNat bytes.length
  let (h, rest) := words rest.length h rest
  let (h, rest) := halfWord h rest
  avalanche (rest.foldl lastByte h)

def sum64String (s : String) : UInt64 := sum64 s.toUTF8.data.toList

example : sum64String "abc" = 0x44BC2CF5AD770999 := by decide

end XxHash64
