/-
The hash function SHA-1.
-/
import Gnostr.Lib.Bytes

namespace Gnostr

namespace Sha1

def rotl (word : UInt32) (count : UInt32) : UInt32 :=
  (word <<< count) ||| (word >>> (32 - count))

/-- The message, a bit, the padding and the length of the message in bits. -/
def padded (message : Bytes) : Bytes :=
  message ++ [0x80] ++ List.replicate ((119 - message.length % 64) % 64) 0 ++
    beBytes 8 (8 * message.length)

/-- The words of a block, the last one first. -/
def blockWords (block : Bytes) : List UInt32 :=
  (List.range 16).reverse.map fun i =>
    UInt32.ofNat (ofBeBytes ((block.drop (4 * i)).take 4))

/-- More words of the schedule, from the words before them. -/
def schedule : ℕ → List UInt32 → List UInt32
  | 0, words => words
  | more + 1, words =>
      schedule more
        (rotl (words.getD 2 0 ^^^ words.getD 7 0 ^^^ words.getD 13 0 ^^^ words.getD 15 0) 1 ::
          words)

structure State where
  a : UInt32
  b : UInt32
  c : UInt32
  d : UInt32
  e : UInt32

def State.init : State := ⟨0x67452301, 0xEFCDAB89, 0x98BADCFE, 0x10325476, 0xC3D2E1F0⟩

/-- The function of a round on three of the words, and its constant. -/
def roundFunction (round : ℕ) (b c d : UInt32) : UInt32 × UInt32 :=
  if round < 20 then ((b &&& c) ||| (~~~b &&& d), 0x5A827999)
  else if round < 40 then (b ^^^ c ^^^ d, 0x6ED9EBA1)
  else if round < 60 then ((b &&& c) ||| (b &&& d) ||| (c &&& d), 0x8F1BBCDC)
  else (b ^^^ c ^^^ d, 0xCA62C1D6)

def State.round (s : State) (round : UInt32 × ℕ) : State :=
  let (f, k) := roundFunction round.2 s.b s.c s.d
  ⟨rotl s.a 5 + f + s.e + k + round.1, s.a, rotl s.b 30, s.c, s.d⟩

def State.block (s : State) (block : Bytes) : State :=
  let t := (schedule 64 (blockWords block)).reverse.zipIdx.foldl State.round s
  ⟨s.a + t.a, s.b + t.b, s.c + t.c, s.d + t.d, s.e + t.e⟩

/-- The blocks of a padded message one after the other. -/
def State.blocks : ℕ → State → Bytes → State
  | 0, s, _ => s
  | more + 1, s, bytes => State.blocks more (s.block (bytes.take 64)) (bytes.drop 64)

def State.bytes (s : State) : Bytes :=
  [s.a, s.b, s.c, s.d, s.e].flatMap fun word => beBytes 4 word.toNat

end Sha1

def sha1 (message : Bytes) : Vector UInt8 20 :=
  let bytes := Sha1.padded message
  let digest := (Sha1.State.blocks (bytes.length / 64) .init bytes).bytes
  Vector.ofFn fun i => digest.getD i 0

example : (sha1 (utf8 "abc")).toList =
    [0xA9, 0x99, 0x3E, 0x36, 0x47, 0x06, 0x81, 0x6A, 0xBA, 0x3E, 0x25, 0x71, 0x78, 0x50,
      0xC2, 0x6C, 0x9C, 0xD0, 0xD8, 0x9D] := by
  decide +kernel

end Gnostr
