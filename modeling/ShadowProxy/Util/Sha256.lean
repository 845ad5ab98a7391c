import ShadowProxy.Evaluator.Text

/-! SHA-256 of a list of bytes, and its `hexdigest`. -/

namespace ShadowProxy.Sha256

abbrev Byte := BitVec 8

abbrev Word := BitVec 32

/-- The first 32 bits of the fractional parts of the cube roots of the first 64 primes. -/
def roundConstants : List Word :=
  [0x428a2f98, 0x71374491, 0xb5c0fbcf, 0xe9b5dba5, 0x3956c25b, 0x59f111f1, 0x923f82a4, 0xab1c5ed5,
    0xd807aa98, 0x12835b01, 0x243185be, 0x550c7dc3, 0x72be5d74, 0x80deb1fe, 0x9bdc06a7, 0xc19bf174,
    0xe49b69c1, 0xefbe4786, 0x0fc19dc6, 0x240ca1cc, 0x2de92c6f, 0x4a7484aa, 0x5cb0a9dc, 0x76f988da,
    0x983e5152, 0xa831c66d, 0xb00327c8, 0xbf597fc7, 0xc6e00bf3, 0xd5a79147, 0x06ca6351, 0x14292967,
    0x27b70a85, 0x2e1b2138, 0x4d2c6dfc, 0x53380d13, 0x650a7354, 0x766a0abb, 0x81c2c92e, 0x92722c85,
    0xa2bfe8a1, 0xa81a664b, 0xc24b8b70, 0xc76c51a3, 0xd192e819, 0xd6990624, 0xf40e3585, 0x106aa070,
    0x19a4c116, 0x1e376c08, 0x2748774c, 0x34b0bcb5, 0x391c0cb3, 0x4ed8aa4a, 0x5b9cca4f, 0x682e6ff3,
    0x748f82ee, 0x78a5636f, 0x84c87814, 0x8cc70208, 0x90befffa, 0xa4506ceb, 0xbef9a3f7, 0xc67178f2]

structure State where
  a : Word
  b : Word
  c : Word
  d : Word
  e : Word
  f : Word
  g : Word
  h : Word

def State.initial : State :=
  { a := 0x6a09e667, b := 0xbb67ae85, c := 0x3c6ef372, d := 0xa54ff53a,
    e := 0x510e527f, f := 0x9b05688c, g := 0x1f83d9ab, h := 0x5be0cd19 }

def State.add (s t : State) : State where
  a := s.a + t.a
  b := s.b + t.b
  c := s.c + t.c
  d := s.d + t.d
  e := s.e + t.e
  f := s.f + t.f
  g := s.g + t.g
  h := s.h + t.h

def State.words (s : State) : List Word := [s.a, s.b, s.c, s.d, s.e, s.f, s.g, s.h]

def bigSigma0 (x : Word) : Word := x.rotateRight 2 ^^^ x.rotateRight 13 ^^^ x.rotateRight 22

def bigSigma1 (x : Word) : Word := x.rotateRight 6 ^^^ x.rotateRight 11 ^^^ x.rotateRight 25

def sigma0 (x : Word) : Word := x.rotateRight 7 ^^^ x.rotateRight 18 ^^^ x >>> 3

def sigma1 (x : Word) : Word := x.rotateRight 17 ^^^ x.rotateRight 19 ^^^ x >>> 10

def ch (x y z : Word) : Word := (x &&& y) ^^^ (~~~x &&& z)

def maj (x y z : Word) : Word := (x &&& y) ^^^ (x &&& z) ^^^ (y &&& z)

def round (s : State) (kw : Word × Word) : State :=
  let t1 := s.h + bigSigma1 s.e + ch s.e s.f s.g + kw.1 + kw.2
  let t2 := bigSigma0 s.a + maj s.a s.b s.c
  { a := t1 + t2, b := s.a, c := s.b, d := s.c, e := s.d + t1, f := s.e, g := s.f, h := s.g }

def extend (ws : List Word) : ℕ → List Word
  | 0 => ws
  | n + 1 =>
    let next := sigma1 (ws.getD 1 0) + ws.getD 6 0 + sigma0 (ws.getD 14 0) + ws.getD 15 0
    extend (next :: ws) n

def words : List Byte → List Word
  | b₀ :: b₁ :: b₂ :: b₃ :: bs => (b₀ ++ b₁ ++ b₂ ++ b₃) :: words bs
  | _ => []

def compress (s : State) (block : List Byte) : State :=
  let schedule := (extend (words block).reverse 48).reverse
  s.add ((roundConstants.zip schedule).foldl round s)

def wordBytes (w : Word) : List Byte :=
  [w.extractLsb' 24 8, w.extractLsb' 16 8, w.extractLsb' 8 8, w.extractLsb' 0 8]

def pad (bs : List Byte) : List Byte :=
  let bits : BitVec 64 := BitVec.ofNat 64 (8 * bs.length)
  bs ++ 0x80 :: (List.replicate ((119 - bs.length % 64) % 64) 0 ++
    wordBytes (bits.extractLsb' 32 32) ++ wordBytes (bits.extractLsb' 0 32))

def blocks (bs : List Byte) : List (List Byte) :=
  (List.range (bs.length / 64)).map fun i => (bs.drop (64 * i)).take 64

def digest (bs : List Byte) : List Byte :=
  ((blocks (pad bs)).foldl compress State.initial).words.flatMap wordBytes

end ShadowProxy.Sha256
