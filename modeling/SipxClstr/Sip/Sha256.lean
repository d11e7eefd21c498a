import SipxClstr.Sip.Text

/-!
# SHA-256

The digest that nonces and challenge responses are built on.  Words are natural
numbers below `2 ^ 32`.
-/

namespace SipxClstr.Sip.Sha256

/-- Addition of words. -/
def add (x y : Nat) : Nat :=
  (x + y) % 0x100000000

def rotateRight (count x : Nat) : Nat :=
  (x >>> count) ||| ((x <<< (32 - count)) % 0x100000000)

def bigSigma0 (x : Nat) : Nat :=
  rotateRight 2 x ^^^ rotateRight 13 x ^^^ rotateRight 22 x

def bigSigma1 (x : Nat) : Nat :=
  rotateRight 6 x ^^^ rotateRight 11 x ^^^ rotateRight 25 x

def smallSigma0 (x : Nat) : Nat :=
  rotateRight 7 x ^^^ rotateRight 18 x ^^^ (x >>> 3)

def smallSigma1 (x : Nat) : Nat :=
  rotateRight 17 x ^^^ rotateRight 19 x ^^^ (x >>> 10)

/-- The bits of `y` where `x` is set, and of `z` where it is not. -/
def choose (x y z : Nat) : Nat :=
  (x &&& y) ^^^ ((x ^^^ 0xFFFFFFFF) &&& z)

def majority (x y z : Nat) : Nat :=
  (x &&& y) ^^^ (x &&& z) ^^^ (y &&& z)

/-- The round constants. -/
def roundConstants : List Nat :=
  [0x428A2F98, 0x71374491, 0xB5C0FBCF, 0xE9B5DBA5, 0x3956C25B, 0x59F111F1, 0x923F82A4, 0xAB1C5ED5,
    0xD807AA98, 0x12835B01, 0x243185BE, 0x550C7DC3, 0x72BE5D74, 0x80DEB1FE, 0x9BDC06A7, 0xC19BF174,
    0xE49B69C1, 0xEFBE4786, 0x0FC19DC6, 0x240CA1CC, 0x2DE92C6F, 0x4A7484AA, 0x5CB0A9DC, 0x76F988DA,
    0x983E5152, 0xA831C66D, 0xB00327C8, 0xBF597FC7, 0xC6E00BF3, 0xD5A79147, 0x06CA6351, 0x14292967,
    0x27B70A85, 0x2E1B2138, 0x4D2C6DFC, 0x53380D13, 0x650A7354, 0x766A0ABB, 0x81C2C92E, 0x92722C85,
    0xA2BFE8A1, 0xA81A664B, 0xC24B8B70, 0xC76C51A3, 0xD192E819, 0xD6990624, 0xF40E3585, 0x106AA070,
    0x19A4C116, 0x1E376C08, 0x2748774C, 0x34B0BCB5, 0x391C0CB3, 0x4ED8AA4A, 0x5B9CCA4F, 0x682E6FF3,
    0x748F82EE, 0x78A5636F, 0x84C87814, 0x8CC70208, 0x90BEFFFA, 0xA4506CEB, 0xBEF9A3F7, 0xC67178F2]

/-- The eight working words. -/
structure Working where
  a : Nat
  b : Nat
  c : Nat
  d : Nat
  e : Nat
  f : Nat
  g : Nat
  h : Nat

/-- The initial hash value. -/
def initial : Working :=
  ⟨0x6A09E667, 0xBB67AE85, 0x3C6EF372, 0xA54FF53A, 0x510E527F,
    0x9B05688C, 0x1F83D9AB, 0x5BE0CD19⟩

/-- One round, for a round constant and a schedule word. -/
def round (w : Working) (constant word : Nat) : Working :=
  let t1 := add (add (add w.h (bigSigma1 w.e)) (choose w.e w.f w.g)) (add constant word)
  let t2 := add (bigSigma0 w.a) (majority w.a w.b w.c)
  { a := add t1 t2, b := w.a, c := w.b, d := w.c, e := add w.d t1, f := w.e, g := w.f, h := w.g }

/-- The rounds of one block.  `window` holds the next sixteen schedule words. -/
def rounds : List Nat → List Nat → Working → Working
  | [], _, w => w
  | constant :: rest, window, w =>
      let next := add (add (smallSigma1 (window.getD 14 0)) (window.getD 9 0))
        (add (smallSigma0 (window.getD 1 0)) (window.getD 0 0))
      rounds rest (window.drop 1 ++ [next]) (round w constant (window.getD 0 0))

/-- The big-endian words of a byte string whose length is a multiple of four. -/
def wordsOf : Bytes → List Nat
  | b0 :: b1 :: b2 :: b3 :: rest =>
      (((b0.toNat * 256 + b1.toNat) * 256 + b2.toNat) * 256 + b3.toNat) :: wordsOf rest
  | _ => []

/-- Absorb one block of sixteen words. -/
def compress (w : Working) (block : List Nat) : Working :=
  let v := rounds roundConstants block w
  ⟨add w.a v.a, add w.b v.b, add w.c v.c, add w.d v.d, add w.e v.e, add w.f v.f, add w.g v.g,
    add w.h v.h⟩

/-- Absorb `count` blocks. -/
def blocks : Nat → List Nat → Working → Working
  | 0, _, w => w
  | count + 1, words, w => blocks count (words.drop 16) (compress w (words.take 16))

/-- The low `count` bytes of a number, most significant first. -/
def bigEndian : Nat → Nat → Bytes
  | 0, _ => []
  | count + 1, value => bigEndian count (value / 256) ++ [UInt8.ofNat (value % 256)]

/-- A message with its padding and its length in bits. -/
def padded (message : Bytes) : Bytes :=
  message ++ [0x80] ++ List.replicate ((119 - message.length % 64) % 64) 0 ++
    bigEndian 8 (8 * message.length)

/-- SHA-256. -/
def sha256 (message : Bytes) : Bytes :=
  let words := wordsOf (padded message)
  let w := blocks (words.length / 16) words initial
  [w.a, w.b, w.c, w.d, w.e, w.f, w.g, w.h].flatMap (bigEndian 4)

/-- Lower-case hexadecimal. -/
def hex (value : Bytes) : Text :=
  value.flatMap fun byte => [Nat.digitChar (byte.toNat / 16), Nat.digitChar (byte.toNat % 16)]

example : hex (sha256 (bytes "abc")) =
    text "ba7816bf8f01cfea414140de5dae2223b00361a396177a9cb410ff61f20015ad" := by
  decide +kernel

end SipxClstr.Sip.Sha256
