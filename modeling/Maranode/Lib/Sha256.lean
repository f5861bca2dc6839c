/-
  Maranode.Lib.Sha256

  SHA-256 (FIPS 180-4) and HMAC-SHA256 (RFC 2104) over lists of bytes.

  No law about them is stated or used but the length of a digest: they stand for the crates
  `sha2` and `hmac` where a result is applied to a concrete log.
-/
import Maranode.Lib.Text

namespace Lib.Sha256

/-- The first 32 bits of the fractional parts of the cube roots of the first 64
    primes. -/
def roundConstants : List UInt32 :=
  [0x428a2f98, 0x71374491, 0xb5c0fbcf, 0xe9b5dba5, 0x3956c25b, 0x59f111f1, 0x923f82a4, 0xab1c5ed5,
    0xd807aa98, 0x12835b01, 0x243185be, 0x550c7dc3, 0x72be5d74, 0x80deb1fe, 0x9bdc06a7, 0xc19bf174,
    0xe49b69c1, 0xefbe4786, 0x0fc19dc6, 0x240ca1cc, 0x2de92c6f, 0x4a7484aa, 0x5cb0a9dc, 0x76f988da,
    0x983e5152, 0xa831c66d, 0xb00327c8, 0xbf597fc7, 0xc6e00bf3, 0xd5a79147, 0x06ca6351, 0x14292967,
    0x27b70a85, 0x2e1b2138, 0x4d2c6dfc, 0x53380d13, 0x650a7354, 0x766a0abb, 0x81c2c92e, 0x92722c85,
    0xa2bfe8a1, 0xa81a664b, 0xc24b8b70, 0xc76c51a3, 0xd192e819, 0xd6990624, 0xf40e3585, 0x106aa070,
    0x19a4c116, 0x1e376c08, 0x2748774c, 0x34b0bcb5, 0x391c0cb3, 0x4ed8aa4a, 0x5b9cca4f, 0x682e6ff3,
    0x748f82ee, 0x78a5636f, 0x84c87814, 0x8cc70208, 0x90befffa, 0xa4506ceb, 0xbef9a3f7, 0xc67178f2]

/-- The working variables. -/
structure State where
  a : UInt32
  b : UInt32
  c : UInt32
  d : UInt32
  e : UInt32
  f : UInt32
  g : UInt32
  h : UInt32

def initial : State where
  a := 0x6a09e667
  b := 0xbb67ae85
  c := 0x3c6ef372
  d := 0xa54ff53a
  e := 0x510e527f
  f := 0x9b05688c
  g := 0x1f83d9ab
  h := 0x5be0cd19

def State.add (s t : State) : State where
  a := s.a + t.a
  b := s.b + t.b
  c := s.c + t.c
  d := s.d + t.d
  e := s.e + t.e
  f := s.f + t.f
  g := s.g + t.g
  h := s.h + t.h

def State.words (s : State) : List UInt32 := [s.a, s.b, s.c, s.d, s.e, s.f, s.g, s.h]

def rotr (x n : UInt32) : UInt32 := (x >>> n) ||| (x <<< (32 - n))

def smallSigma0 (x : UInt32) : UInt32 := rotr x 7 ^^^ rotr x 18 ^^^ (x >>> 3)

def smallSigma1 (x : UInt32) : UInt32 := rotr x 17 ^^^ rotr x 19 ^^^ (x >>> 10)

def bigSigma0 (x : UInt32) : UInt32 := rotr x 2 ^^^ rotr x 13 ^^^ rotr x 22

def bigSigma1 (x : UInt32) : UInt32 := rotr x 6 ^^^ rotr x 11 ^^^ rotr x 25

def ch (x y z : UInt32) : UInt32 := (x &&& y) ^^^ (~~~x &&& z)

def maj (x y z : UInt32) : UInt32 := (x &&& y) ^^^ (x &&& z) ^^^ (y &&& z)

/-- One round, with the round constant and the word of the schedule. -/
def round (s : State) (k w : UInt32) : State :=
  let t1 := s.h + bigSigma1 s.e + ch s.e s.f s.g + k + w
  let t2 := bigSigma0 s.a + maj s.a s.b s.c
  { a := t1 + t2, b := s.a, c := s.b, d := s.c, e := s.d + t1, f := s.e, g := s.f, h := s.g }

/-- The rounds over the constants left.  The window is the next sixteen words of the
    schedule; each round takes the first and adds one at the end. -/
def rounds (s : State) (window : List UInt32) : List UInt32 → State
  | [] => s
  | k :: ks =>
      let w := window.headD 0
      let next := smallSigma1 (window.getD 14 0) + window.getD 9 0 +
        smallSigma0 (window.getD 1 0) + w
      rounds (round s k w) (window.drop 1 ++ [next]) ks

def compress (s : State) (block : List UInt32) : State := s.add (rounds s block roundConstants)

def ofBytes : Bytes → List UInt32
  | a :: b :: c :: d :: bs =>
      ((a.toUInt32 <<< 24) ||| (b.toUInt32 <<< 16) ||| (c.toUInt32 <<< 8) ||| d.toUInt32) ::
        ofBytes bs
  | _ => []

def toBytes (ws : List UInt32) : Bytes :=
  ws.flatMap fun (w : UInt32) =>
    [(w >>> 24).toUInt8, (w >>> 16).toUInt8, (w >>> 8).toUInt8, w.toUInt8]

/-- A one bit, zeros up to the last eight bytes of a block, and the length in bits. -/
def pad (msg : Bytes) : Bytes :=
  let bits := msg.length * 8
  msg ++ 0x80 :: List.replicate ((119 - msg.length % 64) % 64) 0 ++
    toBytes [UInt32.ofNat (bits / 2 ^ 32), UInt32.ofNat bits]

/-- Sixteen words at a time; the fuel is the number of blocks. -/
def blocks (s : State) (words : List UInt32) : Nat → State
  | 0 => s
  | n + 1 => blocks (compress s (words.take 16)) (words.drop 16) n

def digest (msg : Bytes) : Bytes :=
  let padded := pad msg
  toBytes (blocks initial (ofBytes padded) (padded.length / 64)).words

theorem length_toBytes (ws : List UInt32) : (toBytes ws).length = 4 * ws.length := by
  induction ws with
  | nil => rfl
  | cons w ws ih =>
      rw [toBytes, List.flatMap_cons, List.length_append, ← toBytes, ih, List.length_cons]
      change 4 + 4 * ws.length = 4 * (ws.length + 1)
      omega

theorem length_digest (msg : Bytes) : (digest msg).length = 32 := by
  rw [digest, length_toBytes]
  rfl

example : digest [0x61, 0x62, 0x63] =
    [0xba, 0x78, 0x16, 0xbf, 0x8f, 0x01, 0xcf, 0xea, 0x41, 0x41, 0x40, 0xde, 0x5d, 0xae, 0x22,
      0x23, 0xb0, 0x03, 0x61, 0xa3, 0x96, 0x17, 0x7a, 0x9c, 0xb4, 0x10, 0xff, 0x61, 0xf2, 0x00,
      0x15, 0xad] := by
  decide +kernel

/-- RFC 2104 with the 64-byte block of SHA-256. -/
def hmac (key msg : Bytes) : Bytes :=
  let short := if 64 < key.length then digest key else key
  let block := short ++ List.replicate (64 - short.length) 0
  digest (block.map (· ^^^ 0x5c) ++ digest (block.map (· ^^^ 0x36) ++ msg))

/-- `hex::encode`. -/
def hex (bs : Bytes) : String :=
  String.ofList (bs.flatMap fun b => [Nat.digitChar (b.toNat / 16), Nat.digitChar (b.toNat % 16)])

end Lib.Sha256
