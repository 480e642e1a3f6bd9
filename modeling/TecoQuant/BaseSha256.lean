import Mathlib.Data.BitVec

/-! SHA-256 (FIPS 180-4) over lists of bytes, written for evaluation: the message schedule is a
sliding window of sixteen words. -/

namespace Sha256

abbrev Word := BitVec 32

/-- The round constants. -/
def roundConstants : List Word := [
  0x428a2f98, 0x71374491, 0xb5c0fbcf, 0xe9b5dba5, 0x3956c25b, 0x59f111f1, 0x923f82a4, 0xab1c5ed5,
  0xd807aa98, 0x12835b01, 0x243185be, 0x550c7dc3, 0x72be5d74, 0x80deb1fe, 0x9bdc06a7, 0xc19bf174,
  0xe49b69c1, 0xefbe4786, 0x0fc19dc6, 0x240ca1cc, 0x2de92c6f, 0x4a7484aa, 0x5cb0a9dc, 0x76f988da,
  0x983e5152, 0xa831c66d, 0xb00327c8, 0xbf597fc7, 0xc6e00bf3, 0xd5a79147, 0x06ca6351, 0x14292967,
  0x27b70a85, 0x2e1b2138, 0x4d2c6dfc, 0x53380d13, 0x650a7354, 0x766a0abb, 0x81c2c92e, 0x92722c85,
  0xa2bfe8a1, 0xa81a664b, 0xc24b8b70, 0xc76c51a3, 0xd192e819, 0xd6990624, 0xf40e3585, 0x106aa070,
  0x19a4c116, 0x1e376c08, 0x2748774c, 0x34b0bcb5, 0x391c0cb3, 0x4ed8aa4a, 0x5b9cca4f, 0x682e6ff3,
  0x748f82ee, 0x78a5636f, 0x84c87814, 0x8cc70208, 0x90befffa, 0xa4506ceb, 0xbef9a3f7, 0xc67178f2]

/-- The eight working variables. -/
structure Working where
  (a b c d e f g h : Word)
  deriving DecidableEq, Repr

def initial : Working :=
  ⟨0x6a09e667, 0xbb67ae85, 0x3c6ef372, 0xa54ff53a, 0x510e527f, 0x9b05688c, 0x1f83d9ab, 0x5be0cd19⟩

def choose (x y z : Word) : Word := (x &&& y) ^^^ (~~~x &&& z)

def majority (x y z : Word) : Word := (x &&& y) ^^^ (x &&& z) ^^^ (y &&& z)

def bigSigma0 (x : Word) : Word := x.rotateRight 2 ^^^ x.rotateRight 13 ^^^ x.rotateRight 22

def bigSigma1 (x : Word) : Word := x.rotateRight 6 ^^^ x.rotateRight 11 ^^^ x.rotateRight 25

def smallSigma0 (x : Word) : Word := x.rotateRight 7 ^^^ x.rotateRight 18 ^^^ (x >>> 3)

def smallSigma1 (x : Word) : Word := x.rotateRight 17 ^^^ x.rotateRight 19 ^^^ (x >>> 10)

def step (s : Working) (constant word : Word) : Working :=
  let first := s.h + bigSigma1 s.e + choose s.e s.f s.g + constant + word
  let second := bigSigma0 s.a + majority s.a s.b s.c
  ⟨first + second, s.a, s.b, s.c, s.d + first, s.e, s.f, s.g⟩

/-- The next word of the schedule from the last sixteen, oldest first. -/
def nextWord : List Word → Word
  | [w0, w1, _, _, _, _, _, _, _, w9, _, _, _, _, w14, _] =>
      smallSigma1 w14 + w9 + smallSigma0 w1 + w0
  | _ => 0

/-- One round for each constant, sliding the window of the schedule. -/
def rounds : List Word → List Word → Working → Working
  | constant :: constants, word :: window, s =>
      rounds constants (window ++ [nextWord (word :: window)]) (step s constant word)
  | _, _, s => s

/-- Compress one block of sixteen words. -/
def compress (s : Working) (block : List Word) : Working :=
  let t := rounds roundConstants block s
  ⟨s.a + t.a, s.b + t.b, s.c + t.c, s.d + t.d, s.e + t.e, s.f + t.f, s.g + t.g, s.h + t.h⟩

/-- Big-endian words; a padded message has a multiple of four bytes. -/
def words : List UInt8 → List Word
  | b0 :: b1 :: b2 :: b3 :: rest =>
      BitVec.ofNat 32 (((b0.toNat * 256 + b1.toNat) * 256 + b2.toNat) * 256 + b3.toNat) :: words rest
  | _ => []

/-- The message, the bit `1`, zeros, and the bit length in eight bytes. -/
def pad (message : List UInt8) : List UInt8 :=
  let bits := 8 * message.length
  message ++ 0x80 :: List.replicate ((119 - message.length % 64) % 64) 0 ++
    (List.range 8).map fun i => UInt8.ofNat (bits / 256 ^ (7 - i))

/-- Compress `count` blocks in order. -/
def blocks : Nat → List Word → Working → Working
  | 0, _, s => s
  | count + 1, ws, s => blocks count (ws.drop 16) (compress s (ws.take 16))

def hexDigit (n : Nat) : Char :=
  if n < 10 then Char.ofNat (48 + n) else Char.ofNat (87 + n)

def hexWord (w : Word) : List Char :=
  (List.range 8).map fun i => hexDigit (w.toNat / 16 ^ (7 - i) % 16)

/-- The digest in lower-case hexadecimal, as `hexdigest` prints it. -/
def hexdigest (message : List UInt8) : List Char :=
  let ws := words (pad message)
  let s := blocks (ws.length / 16) ws initial
  [s.a, s.b, s.c, s.d, s.e, s.f, s.g, s.h].flatMap hexWord

example : hexdigest "abc".toUTF8.toList =
    "ba7816bf8f01cfea414140de5dae2223b00361a396177a9cb410ff61f20015ad".toList := by decide +kernel

end Sha256
