import Usdd.Foundation.Bytes
/-!
# Keccak-256

The hash of the Ethereum virtual machine: the sponge of rate 136 over the permutation of 25
lanes of 64 bits, with the original padding. A lane is a natural number below 2^64, five lanes
make a plane and five planes the state, so the definition evaluates on concrete messages.
-/
namespace Usdd.Foundation

namespace Keccak

/-- Rotate a 64-bit lane to the left. -/
def rotl (lane count : Nat) : Nat :=
  Nat.lor (Nat.mod (Nat.shiftLeft lane count) 18446744073709551616)
    (Nat.shiftRight lane (Nat.sub 64 count))

/-- Five lanes with one `y`, by `x`. -/
structure Plane where
  a : Nat
  b : Nat
  c : Nat
  d : Nat
  e : Nat

/-- Five planes, by `y`. -/
structure State where
  p : Plane
  q : Plane
  r : Plane
  s : Plane
  t : Plane

/-- Add two planes lane by lane. -/
def Plane.add (left right : Plane) : Plane :=
  ⟨Nat.xor left.a right.a, Nat.xor left.b right.b, Nat.xor left.c right.c, Nat.xor left.d right.d,
    Nat.xor left.e right.e⟩

/-- The parities of the two columns next to each column. -/
def Plane.mix (parity : Plane) : Plane :=
  ⟨Nat.xor parity.e (rotl parity.b 1), Nat.xor parity.a (rotl parity.c 1),
    Nat.xor parity.b (rotl parity.d 1), Nat.xor parity.c (rotl parity.e 1),
    Nat.xor parity.d (rotl parity.a 1)⟩

/-- Add to every lane the parities of its two neighbouring columns. -/
def theta (state : State) : State :=
  let mixed := (state.p.add (state.q.add (state.r.add (state.s.add state.t)))).mix
  ⟨state.p.add mixed, state.q.add mixed, state.r.add mixed, state.s.add mixed, state.t.add mixed⟩

/-- Rotate every lane by its offset and move it to its place. -/
def rhoPi (state : State) : State :=
  ⟨⟨state.p.a, rotl state.q.b 44, rotl state.r.c 43, rotl state.s.d 21, rotl state.t.e 14⟩,
    ⟨rotl state.p.d 28, rotl state.q.e 20, rotl state.r.a 3, rotl state.s.b 45, rotl state.t.c 61⟩,
    ⟨rotl state.p.b 1, rotl state.q.c 6, rotl state.r.d 25, rotl state.s.e 8, rotl state.t.a 18⟩,
    ⟨rotl state.p.e 27, rotl state.q.a 36, rotl state.r.b 10, rotl state.s.c 15, rotl state.t.d 56⟩,
    ⟨rotl state.p.c 62, rotl state.q.d 55, rotl state.r.e 39, rotl state.s.a 41, rotl state.t.b 2⟩⟩

/-- A lane combined with the two that follow it. -/
def combine (lane next after : Nat) : Nat :=
  Nat.xor lane (Nat.land (Nat.xor 18446744073709551615 next) after)

/-- Combine each lane of a plane with the two that follow it. -/
def Plane.chi (plane : Plane) : Plane :=
  ⟨combine plane.a plane.b plane.c, combine plane.b plane.c plane.d,
    combine plane.c plane.d plane.e, combine plane.d plane.e plane.a,
    combine plane.e plane.a plane.b⟩

/-- One round with its constant. -/
def round (state : State) (constant : Nat) : State :=
  let moved := rhoPi (theta state)
  let first := moved.p.chi
  ⟨{ first with a := Nat.xor first.a constant }, moved.q.chi, moved.r.chi, moved.s.chi,
    moved.t.chi⟩

/-- The constants of the rounds. -/
def roundConstants : List Nat :=
  [0x0000000000000001, 0x0000000000008082, 0x800000000000808a, 0x8000000080008000,
    0x000000000000808b, 0x0000000080000001, 0x8000000080008081, 0x8000000000008009,
    0x000000000000008a, 0x0000000000000088, 0x0000000080008009, 0x000000008000000a,
    0x000000008000808b, 0x800000000000008b, 0x8000000000008089, 0x8000000000008003,
    0x8000000000008002, 0x8000000000000080, 0x000000000000800a, 0x800000008000000a,
    0x8000000080008081, 0x8000000000008080, 0x0000000080000001, 0x8000000080008008]

/-- The permutation. -/
def permute (state : State) : State := roundConstants.foldl round state

/-- The number a little-endian byte string denotes. -/
def leNat : List UInt8 → Nat
  | [] => 0
  | byte :: rest => byte.toNat + 256 * leNat rest

/-- The low bytes of a number, least significant first. -/
def leBytes : Nat → Nat → List UInt8
  | 0, _ => []
  | width + 1, value => UInt8.ofNat value :: leBytes width (value / 256)

/-- The bytes each block absorbs. -/
def rate : Nat := 136

/-- A message with its padding: a first bit, zeros and a last bit up to a multiple of the rate. -/
def pad (message : List UInt8) : List UInt8 :=
  let missing := rate - message.length % rate
  if missing = 1 then message ++ [0x81]
  else message ++ 0x01 :: (List.replicate (missing - 2) 0 ++ [0x80])

/-- The lane at a position of a block; the capacity is left alone. -/
def blockLane (block : List UInt8) (position : Nat) : Nat :=
  leNat ((block.drop (8 * position)).take 8)

/-- The lanes of a block as a state. -/
def blockState (block : List UInt8) : State :=
  let lane := blockLane block
  ⟨⟨lane 0, lane 1, lane 2, lane 3, lane 4⟩, ⟨lane 5, lane 6, lane 7, lane 8, lane 9⟩,
    ⟨lane 10, lane 11, lane 12, lane 13, lane 14⟩, ⟨lane 15, lane 16, 0, 0, 0⟩, ⟨0, 0, 0, 0, 0⟩⟩

/-- Add two states plane by plane. -/
def State.add (left right : State) : State :=
  ⟨left.p.add right.p, left.q.add right.q, left.r.add right.r, left.s.add right.s,
    left.t.add right.t⟩

/-- Absorb the blocks of a padded message. -/
def absorb : Nat → State → List UInt8 → State
  | 0, state, _ => state
  | count + 1, state, bytes =>
    absorb count (permute (state.add (blockState (bytes.take rate)))) (bytes.drop rate)

/-- The state before any block. -/
def start : State :=
  ⟨⟨0, 0, 0, 0, 0⟩, ⟨0, 0, 0, 0, 0⟩, ⟨0, 0, 0, 0, 0⟩, ⟨0, 0, 0, 0, 0⟩, ⟨0, 0, 0, 0, 0⟩⟩

/-- The digest of a message: the first four lanes after all blocks. -/
def digest (message : List UInt8) : List UInt8 :=
  let padded := pad message
  let state := absorb (padded.length / rate) start padded
  [leBytes 8 state.p.a, leBytes 8 state.p.b, leBytes 8 state.p.c, leBytes 8 state.p.d].flatten

end Keccak

/-- `keccak256` of a byte string. -/
def keccak256 (message : List UInt8) : FixedBytes 32 := .ofNat 32 (beNat (Keccak.digest message))

end Usdd.Foundation
