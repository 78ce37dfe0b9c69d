import Madoka.Core.Config

/-!
# SHA-256

SHA-256 of a 32-byte key, which is one padded block, and the dotted-quad
`inet_pton`. The results take both as an `External`; the concrete runs below
them use these, so that an identifier in an example is the one a node would
really derive.
-/

namespace Madoka.Sha256

open Octets

def rotr (x n : Nat) : Nat :=
  (x >>> n ||| x <<< (32 - n)) % 2 ^ 32

def roundConstants : List Nat :=
  [0x428a2f98, 0x71374491, 0xb5c0fbcf, 0xe9b5dba5, 0x3956c25b, 0x59f111f1,
   0x923f82a4, 0xab1c5ed5, 0xd807aa98, 0x12835b01, 0x243185be, 0x550c7dc3,
   0x72be5d74, 0x80deb1fe, 0x9bdc06a7, 0xc19bf174, 0xe49b69c1, 0xefbe4786,
   0x0fc19dc6, 0x240ca1cc, 0x2de92c6f, 0x4a7484aa, 0x5cb0a9dc, 0x76f988da,
   0x983e5152, 0xa831c66d, 0xb00327c8, 0xbf597fc7, 0xc6e00bf3, 0xd5a79147,
   0x06ca6351, 0x14292967, 0x27b70a85, 0x2e1b2138, 0x4d2c6dfc, 0x53380d13,
   0x650a7354, 0x766a0abb, 0x81c2c92e, 0x92722c85, 0xa2bfe8a1, 0xa81a664b,
   0xc24b8b70, 0xc76c51a3, 0xd192e819, 0xd6990624, 0xf40e3585, 0x106aa070,
   0x19a4c116, 0x1e376c08, 0x2748774c, 0x34b0bcb5, 0x391c0cb3, 0x4ed8aa4a,
   0x5b9cca4f, 0x682e6ff3, 0x748f82ee, 0x78a5636f, 0x84c87814, 0x8cc70208,
   0x90befffa, 0xa4506ceb, 0xbef9a3f7, 0xc67178f2]

/-- `n` further words of the message schedule, kept newest first. -/
def schedule : Nat → List Nat → List Nat
  | 0, w => w
  | n + 1, w =>
      let w2 := w.getD 1 0
      let w7 := w.getD 6 0
      let w15 := w.getD 14 0
      let w16 := w.getD 15 0
      let s0 := rotr w15 7 ^^^ rotr w15 18 ^^^ w15 >>> 3
      let s1 := rotr w2 17 ^^^ rotr w2 19 ^^^ w2 >>> 10
      schedule n ((w16 + s0 + w7 + s1) % 2 ^ 32 :: w)

structure Registers where
  (a b c d e f g h : Nat)

def initial : Registers :=
  ⟨0x6a09e667, 0xbb67ae85, 0x3c6ef372, 0xa54ff53a, 0x510e527f, 0x9b05688c,
   0x1f83d9ab, 0x5be0cd19⟩

def round (s : Registers) (kw : Nat × Nat) : Registers :=
  let s1 := rotr s.e 6 ^^^ rotr s.e 11 ^^^ rotr s.e 25
  let ch := (s.e &&& s.f) ^^^ ((2 ^ 32 - 1 - s.e) &&& s.g)
  let t1 := s.h + s1 + ch + kw.1 + kw.2
  let s0 := rotr s.a 2 ^^^ rotr s.a 13 ^^^ rotr s.a 22
  let maj := (s.a &&& s.b) ^^^ (s.a &&& s.c) ^^^ (s.b &&& s.c)
  ⟨(t1 + (s0 + maj)) % 2 ^ 32, s.a, s.b, s.c, (s.d + t1) % 2 ^ 32, s.e, s.f, s.g⟩

def words : Nat → Bytes → List Nat
  | 0, _ => []
  | n + 1, bs => ofBe (bs.take 4) :: words n (bs.drop 4)

/-- The digest of a 32-byte message: 0x80, zeros and the length 256 fill up
its only block. -/
def digest (key : PublicKey) : NodeId :=
  let block := words 8 key.val ++ [0x80000000, 0, 0, 0, 0, 0, 0, 256]
  let s := (roundConstants.zip (schedule 48 block.reverse).reverse).foldl round initial
  ⟨beBytes 4 (initial.a + s.a) ++ beBytes 4 (initial.b + s.b)
      ++ beBytes 4 (initial.c + s.c) ++ beBytes 4 (initial.d + s.d)
      ++ beBytes 4 (initial.e + s.e) ++ beBytes 4 (initial.f + s.f)
      ++ beBytes 4 (initial.g + s.g) ++ beBytes 4 (initial.h + s.h), by simp⟩

/-- The digest of 32 zero bytes. -/
example : (digest (zero 32)).val.take 8
    = [0x66, 0x68, 0x7a, 0xad, 0xf8, 0x62, 0xbd, 0x77] := by decide

end Madoka.Sha256

namespace Madoka

open Octets

/-- One decimal octet of a dotted quad: no leading zero, at most 255. -/
def octetText (s : Bytes) : Bool :=
  s ≠ [] ∧ s.length ≤ 3 ∧ s.all isDigit ∧ (s.length = 1 ∨ s.head? ≠ some '0'.toUInt8)
    ∧ decimal s ≤ 255

/-- `inet_pton(AF_INET, ...)`. -/
def dottedQuad (s : Bytes) : Bool :=
  let parts := s.splitOn '.'.toUInt8
  parts.length = 4 ∧ parts.all octetText

/-- The externals of the concrete runs. Their endpoints are IPv4 texts, so
no IPv6 text is ever parsed. -/
def posix : External where
  sha256 := Sha256.digest
  inetPton4 := dottedQuad
  inetPton6 := fun _ => none

example : parseEndpoint posix (ascii "127.0.0.1:9001")
    = some (ascii "127.0.0.1", 9001) := by decide

end Madoka
