-- SUMMARY: SHA-256 (FIPS 180-4) on byte strings.
import Mathlib

/-!
# SHA-256

The hash function of FIPS 180-4, on lists of bytes. Words are natural numbers
below `2 ^ 32`. Nothing is proved about its collisions: developments that need
there to be none assume it of the finitely many inputs they hash, as
`Set.InjOn sha256 inputs`, which is a statement about this function.
-/

namespace Lib

namespace Sha256

abbrev Word := ℕ

def add (x y : Word) : Word := (x + y) % 2 ^ 32

def complement (x : Word) : Word := 2 ^ 32 - 1 - x

def rotr (n : ℕ) (x : Word) : Word := (x >>> n) ||| ((x <<< (32 - n)) % 2 ^ 32)

def ch (x y z : Word) : Word := (x &&& y) ^^^ (complement x &&& z)

def maj (x y z : Word) : Word := (x &&& y) ^^^ (x &&& z) ^^^ (y &&& z)

def bigSigma0 (x : Word) : Word := rotr 2 x ^^^ rotr 13 x ^^^ rotr 22 x

def bigSigma1 (x : Word) : Word := rotr 6 x ^^^ rotr 11 x ^^^ rotr 25 x

def smallSigma0 (x : Word) : Word := rotr 7 x ^^^ rotr 18 x ^^^ (x >>> 3)

def smallSigma1 (x : Word) : Word := rotr 17 x ^^^ rotr 19 x ^^^ (x >>> 10)

def constants : List Word := [
  0x428a2f98, 0x71374491, 0xb5c0fbcf, 0xe9b5dba5, 0x3956c25b, 0x59f111f1, 0x923f82a4, 0xab1c5ed5,
  0xd807aa98, 0x12835b01, 0x243185be, 0x550c7dc3, 0x72be5d74, 0x80deb1fe, 0x9bdc06a7, 0xc19bf174,
  0xe49b69c1, 0xefbe4786, 0x0fc19dc6, 0x240ca1cc, 0x2de92c6f, 0x4a7484aa, 0x5cb0a9dc, 0x76f988da,
  0x983e5152, 0xa831c66d, 0xb00327c8, 0xbf597fc7, 0xc6e00bf3, 0xd5a79147, 0x06ca6351, 0x14292967,
  0x27b70a85, 0x2e1b2138, 0x4d2c6dfc, 0x53380d13, 0x650a7354, 0x766a0abb, 0x81c2c92e, 0x92722c85,
  0xa2bfe8a1, 0xa81a664b, 0xc24b8b70, 0xc76c51a3, 0xd192e819, 0xd6990624, 0xf40e3585, 0x106aa070,
  0x19a4c116, 0x1e376c08, 0x2748774c, 0x34b0bcb5, 0x391c0cb3, 0x4ed8aa4a, 0x5b9cca4f, 0x682e6ff3,
  0x748f82ee, 0x78a5636f, 0x84c87814, 0x8cc70208, 0x90befffa, 0xa4506ceb, 0xbef9a3f7, 0xc67178f2]

/-- The eight working variables. -/
structure Registers where
  (a b c d e f g h : Word)

def initial : Registers :=
  ⟨0x6a09e667, 0xbb67ae85, 0x3c6ef372, 0xa54ff53a, 0x510e527f, 0x9b05688c, 0x1f83d9ab, 0x5be0cd19⟩

/-- The schedule word that follows a window of sixteen. -/
def nextWord (window : List Word) : Word :=
  add (add (smallSigma1 (window.getD 14 0)) (window.getD 9 0))
    (add (smallSigma0 (window.getD 1 0)) (window.getD 0 0))

/-- The first `n` schedule words from a window of sixteen on. -/
def schedule : ℕ → List Word → List Word
  | 0, _ => []
  | n + 1, window => window.getD 0 0 :: schedule n (window.tail ++ [nextWord window])

def round (r : Registers) (kw : Word × Word) : Registers :=
  let t₁ := add (add r.h (bigSigma1 r.e)) (add (ch r.e r.f r.g) (add kw.1 kw.2))
  let t₂ := add (bigSigma0 r.a) (maj r.a r.b r.c)
  ⟨add t₁ t₂, r.a, r.b, r.c, add r.d t₁, r.e, r.f, r.g⟩

def compress (r : Registers) (block : List Word) : Registers :=
  let x := (constants.zip (schedule 64 block)).foldl round r
  ⟨add r.a x.a, add r.b x.b, add r.c x.c, add r.d x.d,
    add r.e x.e, add r.f x.f, add r.g x.g, add r.h x.h⟩

/-- The `n` low bytes of `x`, most significant first. -/
def toBytes : ℕ → ℕ → List UInt8
  | 0, _ => []
  | n + 1, x => UInt8.ofNat (x >>> (8 * n)) :: toBytes n x

@[simp] theorem toBytes_length (n x : ℕ) : (toBytes n x).length = n := by
  induction n with
  | zero => rfl
  | succ n ih => simp [toBytes, ih]

def ofBytes (bs : List UInt8) : Word := bs.foldl (fun acc b => acc * 256 + b.toNat) 0

/-- Append a one bit, zeros, and the length in bits, up to a multiple of 64 bytes. -/
def pad (m : List UInt8) : List UInt8 :=
  m ++ [0x80] ++ List.replicate ((119 - m.length % 64) % 64) 0 ++ toBytes 8 (8 * m.length)

/-- Cut `l` into pieces of `n`; `fuel` bounds the number of pieces. -/
def chunks {α : Type} (n : ℕ) : (fuel : ℕ) → List α → List (List α)
  | _, [] => []
  | 0, _ => []
  | fuel + 1, l => l.take n :: chunks n fuel (l.drop n)

end Sha256

open Sha256 in
/-- The SHA-256 digest of a byte string. -/
def sha256 (m : List UInt8) : List UInt8 :=
  let padded := pad m
  let blocks := (chunks 64 padded.length padded).map fun b => (chunks 4 16 b).map ofBytes
  let r := blocks.foldl compress initial
  [r.a, r.b, r.c, r.d, r.e, r.f, r.g, r.h].flatMap (toBytes 4)

@[simp] theorem sha256_length (m : List UInt8) : (sha256 m).length = 32 := by
  simp [sha256]

-- The digest of the three bytes "abc", the first test vector of the standard.
set_option maxRecDepth 4096 in
example : sha256 [97, 98, 99] = [186, 120, 22, 191, 143, 1, 207, 234, 65, 65, 64, 222, 93, 174, 34, 35,
    176, 3, 97, 163, 150, 23, 122, 156, 180, 16, 255, 97, 242, 0, 21, 173] := by
  decide +kernel

end Lib
