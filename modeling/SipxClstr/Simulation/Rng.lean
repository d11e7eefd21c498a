import SipxClstr.Sip.Text

/-!
# Seeded randomness, in named streams

`SplitMix64` expands a seed into a state, xoshiro256** draws from it, and a label is hashed
with FNV-1a into the seed of its own stream.
-/

namespace SipxClstr.Simulation

open SipxClstr.Sip

/-- One step of `SplitMix64`: the mixed word, and the state behind it. -/
def splitMix64 (state : UInt64) : UInt64 × UInt64 :=
  let state := state + 0x9e3779b97f4a7c15
  let x := (state ^^^ (state >>> 30)) * 0xbf58476d1ce4e5b9
  let x := (x ^^^ (x >>> 27)) * 0x94d049bb133111eb
  (x ^^^ (x >>> 31), state)

/-- A named, reproducible stream of random numbers. -/
structure SimRng where
  s0 : UInt64
  s1 : UInt64
  s2 : UInt64
  s3 : UInt64
  deriving DecidableEq

namespace SimRng

/-- A stream from a raw seed, with no label. -/
def fromSeed (seed : UInt64) : SimRng :=
  let (s0, seed) := splitMix64 seed
  let (s1, seed) := splitMix64 seed
  let (s2, seed) := splitMix64 seed
  ⟨s0, s1, s2, (splitMix64 seed).1⟩

/-- The stream a label draws from, under a master seed. -/
def stream (master : UInt64) (label : Text) : SimRng :=
  fromSeed (master ^^^ (utf8 label).foldl
    (fun hash byte => (hash ^^^ byte.toUInt64) * 0x00000100000001b3) 0xcbf29ce484222325)

def rotateLeft (word amount : UInt64) : UInt64 :=
  (word <<< amount) ||| (word >>> (64 - amount))

/-- The next value.  Each assignment reads what the ones before it wrote. -/
def nextU64 (rng : SimRng) : UInt64 × SimRng :=
  let result := rotateLeft (rng.s1 * 5) 7 * 9
  let t := rng.s1 <<< 17
  let s2 := rng.s2 ^^^ rng.s0
  let s3 := rng.s3 ^^^ rng.s1
  let s1 := rng.s1 ^^^ s2
  let s0 := rng.s0 ^^^ s3
  (result, ⟨s0, s1, s2 ^^^ t, rotateLeft s3 45⟩)

/-- A value in `[0, 1)`: the top 53 bits, scaled. -/
def unit (rng : SimRng) : Float × SimRng :=
  ((rng.nextU64.1 >>> 11).toFloat * (1.0 / 9007199254740992.0), rng.nextU64.2)

/-- Whether an event of this probability happens; a certain answer draws nothing. -/
def chance (rng : SimRng) (probability : Float) : Bool × SimRng :=
  if probability ≤ 0.0 then
    (false, rng)
  else if 1.0 ≤ probability then
    (true, rng)
  else
    (rng.unit.1 < probability, rng.unit.2)

/-- The first of the next draws that is below the limit. -/
def drawBelow (limit : UInt64) : Nat → SimRng → Option (UInt64 × SimRng)
  | 0, _ => none
  | attempts + 1, rng =>
      if rng.nextU64.1 < limit then some rng.nextU64 else drawBelow limit attempts rng.nextU64.2

/-- A value in `[low, high]`, rejection-sampled.  A generator has 2^256 states, so that many
draws are all there are. -/
def rangeInclusive (rng : SimRng) (low high : UInt64) : UInt64 × SimRng :=
  if high ≤ low then
    (low, rng)
  else
    let span := high - low
    if span = 0xffffffffffffffff then
      rng.nextU64
    else
      let bound := span + 1
      let limit := 0xffffffffffffffff - (0xffffffffffffffff % bound)
      match drawBelow limit (Nat.pow 2 256) rng with
      | some (draw, rng) => (low + draw % bound, rng)
      | none => (low, rng)

/-- The reference's two outputs from the state `[1, 2, 3, 4]`. -/
example : (nextU64 ⟨1, 2, 3, 4⟩).1 = 11520 ∧ (nextU64 (nextU64 ⟨1, 2, 3, 4⟩).2).1 = 0 := by
  decide +kernel

end SimRng

end SipxClstr.Simulation
