import Usdd.Foundation.Bytes
/-!
# SHA-256

The digest on natural numbers below 2^32, so that it evaluates on concrete messages. The
message schedule is a window of sixteen words that moves along with the rounds.
-/
namespace Usdd.Foundation

namespace Sha256

/-- Reduce to 32 bits. -/
def word (value : Nat) : Nat := Nat.mod value 4294967296

/-- A word written twice, so that its rotation to the right is a shift of the pair. -/
def twice (value : Nat) : Nat := Nat.mul value 4294967297

/-- The low 32 bits are the exclusive or of three words shifted to the right. -/
def shifts (first second third : Nat) (one two three : Nat) : Nat :=
  Nat.xor (Nat.shiftRight first one) (Nat.xor (Nat.shiftRight second two)
    (Nat.shiftRight third three))

/-- The eight working words. -/
structure State where
  a : Nat
  b : Nat
  c : Nat
  d : Nat
  e : Nat
  f : Nat
  g : Nat
  h : Nat

/-- The constants of the rounds. -/
def roundConstants : List Nat :=
  [0x428a2f98, 0x71374491, 0xb5c0fbcf, 0xe9b5dba5, 0x3956c25b, 0x59f111f1, 0x923f82a4, 0xab1c5ed5,
    0xd807aa98, 0x12835b01, 0x243185be, 0x550c7dc3, 0x72be5d74, 0x80deb1fe, 0x9bdc06a7, 0xc19bf174,
    0xe49b69c1, 0xefbe4786, 0x0fc19dc6, 0x240ca1cc, 0x2de92c6f, 0x4a7484aa, 0x5cb0a9dc, 0x76f988da,
    0x983e5152, 0xa831c66d, 0xb00327c8, 0xbf597fc7, 0xc6e00bf3, 0xd5a79147, 0x06ca6351, 0x14292967,
    0x27b70a85, 0x2e1b2138, 0x4d2c6dfc, 0x53380d13, 0x650a7354, 0x766a0abb, 0x81c2c92e, 0x92722c85,
    0xa2bfe8a1, 0xa81a664b, 0xc24b8b70, 0xc76c51a3, 0xd192e819, 0xd6990624, 0xf40e3585, 0x106aa070,
    0x19a4c116, 0x1e376c08, 0x2748774c, 0x34b0bcb5, 0x391c0cb3, 0x4ed8aa4a, 0x5b9cca4f, 0x682e6ff3,
    0x748f82ee, 0x78a5636f, 0x84c87814, 0x8cc70208, 0x90befffa, 0xa4506ceb, 0xbef9a3f7, 0xc67178f2]

/-- One round with its constant and message word. -/
def round (state : State) (constant message : Nat) : State :=
  let pairE := twice state.e
  let pairA := twice state.a
  let choice := Nat.xor state.g (Nat.land state.e (Nat.xor state.f state.g))
  let majority := Nat.lor (Nat.land state.a state.b) (Nat.land state.c (Nat.lor state.a state.b))
  let first := Nat.add (Nat.add state.h (shifts pairE pairE pairE 6 11 25))
    (Nat.add choice (Nat.add constant message))
  let second := Nat.add (shifts pairA pairA pairA 2 13 22) majority
  ⟨word (Nat.add first second), state.a, state.b, state.c, word (Nat.add state.d first), state.e,
    state.f, state.g⟩

/-- The word that enters the window. -/
def scheduled (oldest next middle late : Nat) : Nat :=
  let pairLate := twice late
  let pairNext := twice next
  word (Nat.add (Nat.add (shifts pairLate pairLate late 17 19 10) middle)
    (Nat.add (shifts pairNext pairNext next 7 18 3) oldest))

/-- The sixteen message words in use. -/
structure Window where
  w0 : Nat
  w1 : Nat
  w2 : Nat
  w3 : Nat
  w4 : Nat
  w5 : Nat
  w6 : Nat
  w7 : Nat
  w8 : Nat
  w9 : Nat
  w10 : Nat
  w11 : Nat
  w12 : Nat
  w13 : Nat
  w14 : Nat
  w15 : Nat

/-- The window one round later. -/
def Window.next (window : Window) : Window :=
  ⟨window.w1, window.w2, window.w3, window.w4, window.w5, window.w6, window.w7, window.w8,
    window.w9, window.w10, window.w11, window.w12, window.w13, window.w14, window.w15,
    scheduled window.w0 window.w1 window.w9 window.w14⟩

/-- The rounds, along the constants and the window. -/
def rounds : State → Window → List Nat → State
  | state, _, [] => state
  | state, window, constant :: constants =>
    rounds (round state constant window.w0) window.next constants

/-- The big-endian words of a block. -/
def words : Nat → List UInt8 → List Nat
  | count + 1, a :: b :: c :: d :: rest =>
    Nat.add (Nat.mul (Nat.add (Nat.mul (Nat.add (Nat.mul a.toNat 256) b.toNat) 256) c.toNat) 256)
      d.toNat :: words count rest
  | _, _ => []

/-- The window before the first round; every block has sixteen words. -/
def blockWindow (block : List UInt8) : Window :=
  match words 16 block with
  | [w0, w1, w2, w3, w4, w5, w6, w7, w8, w9, w10, w11, w12, w13, w14, w15] =>
    ⟨w0, w1, w2, w3, w4, w5, w6, w7, w8, w9, w10, w11, w12, w13, w14, w15⟩
  | _ => ⟨0, 0, 0, 0, 0, 0, 0, 0, 0, 0, 0, 0, 0, 0, 0, 0⟩

/-- Fold one block into the state. -/
def compress (state : State) (block : List UInt8) : State :=
  let last := rounds state (blockWindow block) roundConstants
  ⟨word (state.a + last.a), word (state.b + last.b), word (state.c + last.c),
    word (state.d + last.d), word (state.e + last.e), word (state.f + last.f),
    word (state.g + last.g), word (state.h + last.h)⟩

/-- A message with its padding: a first bit, zeros, and the length in bits. -/
def pad (message : List UInt8) : List UInt8 :=
  message ++ 0x80 :: (List.replicate ((119 - message.length % 64) % 64) 0 ++
    beBytes 8 (8 * message.length))

/-- Fold the blocks of a padded message. -/
def absorb : Nat → State → List UInt8 → State
  | 0, state, _ => state
  | count + 1, state, bytes => absorb count (compress state (bytes.take 64)) (bytes.drop 64)

/-- The state before any block. -/
def start : State :=
  ⟨0x6a09e667, 0xbb67ae85, 0x3c6ef372, 0xa54ff53a, 0x510e527f, 0x9b05688c, 0x1f83d9ab, 0x5be0cd19⟩

/-- The digest as a number. -/
def digest (message : List UInt8) : Nat :=
  let padded := pad message
  let state := absorb (padded.length / 64) start padded
  [state.a, state.b, state.c, state.d, state.e, state.f, state.g, state.h].foldl
    (fun total word => total * 4294967296 + word) 0

end Sha256

/-- SHA-256 of a byte string. -/
def sha256 (message : List UInt8) : FixedBytes 32 := .ofNat 32 (Sha256.digest message)

example : sha256 [0x61, 0x62, 0x63] =
    .ofNat 32 0xba7816bf8f01cfea414140de5dae2223b00361a396177a9cb410ff61f20015ad := by
  decide +kernel

end Usdd.Foundation
