import Mathlib.Tactic
import Mathlib.Data.List.Basic
/-!
# Byte strings of fixed width and big-endian words

Two protocols that hash the same record must agree on its bytes. A fixed-width byte string
carries its length in its type; a big-endian word of a given width is the base-256 expansion
of a number. Reading and writing are inverse on numbers that fit, lexicographic order of
equally long strings is numeric order, and a concatenation of segments whose lengths are known
determines every segment.
-/
namespace Usdd.Foundation

/-- Two lists of one length are taken apart together. -/
@[elab_as_elim]
theorem sameLength_induction {α β : Type*}
    {motive : ∀ (left : List α) (right : List β), left.length = right.length → Prop}
    (nil : motive [] [] rfl)
    (cons : ∀ first rest first' rest' (tails : rest.length = rest'.length),
      motive rest rest' tails → motive (first :: rest) (first' :: rest') (congrArg Nat.succ tails))
    (left : List α) (right : List β) (lengths : left.length = right.length) :
    motive left right lengths := by
  induction left generalizing right with
  | nil =>
    cases right with
    | nil => exact nil
    | cons first' rest' => cases lengths
  | cons first rest ih =>
    cases right with
    | nil => cases lengths
    | cons first' rest' =>
      have tails : rest.length = rest'.length := Nat.succ.inj lengths
      exact cons first rest first' rest' tails (ih rest' tails)

/-- A byte string whose length is part of its type. -/
@[ext]
structure FixedBytes (width : Nat) where
  /-- The bytes, first byte first. -/
  bytes : List UInt8
  /-- The length the type promises. -/
  length_eq : bytes.length = width
deriving DecidableEq

namespace FixedBytes

variable {width : Nat}

/-- The string of zero bytes. -/
def zero (width : Nat) : FixedBytes width := ⟨List.replicate width 0, List.length_replicate⟩

instance : Inhabited (FixedBytes width) := ⟨zero width⟩

/-- Byte strings of one width compare byte by byte from the front. -/
instance : LT (FixedBytes width) := ⟨fun left right => left.bytes < right.bytes⟩

instance (left right : FixedBytes width) : Decidable (left < right) :=
  inferInstanceAs (Decidable (left.bytes < right.bytes))

end FixedBytes

/-- The number a big-endian byte string denotes. -/
def beNat : List UInt8 → Nat
  | [] => 0
  | byte :: rest => byte.toNat * Nat.pow 256 rest.length + beNat rest

/-- The low `width` base-256 digits of a number, most significant first. -/
def beBytes : Nat → Nat → List UInt8
  | 0, _ => []
  | width + 1, value => UInt8.ofNat (value / Nat.pow 256 width) :: beBytes width value

theorem beNat_nil : beNat [] = 0 := rfl

theorem beNat_cons (byte : UInt8) (rest : List UInt8) :
    beNat (byte :: rest) = byte.toNat * 256 ^ rest.length + beNat rest := rfl

theorem beBytes_succ (width value : Nat) :
    beBytes (width + 1) value = UInt8.ofNat (value / 256 ^ width) :: beBytes width value := rfl

@[simp]
theorem beBytes_length (width value : Nat) : (beBytes width value).length = width := by
  induction width with
  | zero => rfl
  | succ width ih => simp [beBytes_succ, ih]

/-- A byte string denotes a number below the power its length allows. -/
theorem beNat_lt (bytes : List UInt8) : beNat bytes < 256 ^ bytes.length := by
  induction bytes with
  | nil => simp [beNat_nil]
  | cons byte rest ih =>
    have digit : byte.toNat ≤ 255 := Nat.le_of_lt_succ byte.toNat_lt
    calc
      beNat (byte :: rest) < byte.toNat * 256 ^ rest.length + 256 ^ rest.length := by
        rw [beNat_cons]; omega
      _ ≤ 255 * 256 ^ rest.length + 256 ^ rest.length :=
        Nat.add_le_add_right (Nat.mul_le_mul_right _ digit) _
      _ = 256 ^ (byte :: rest).length := by rw [List.length_cons, Nat.pow_succ]; ring

/-- Writing a number and reading it back reduces it to the width written. -/
theorem beNat_beBytes (width value : Nat) :
    beNat (beBytes width value) = value % 256 ^ width := by
  induction width with
  | zero => simp [beBytes, beNat_nil, Nat.mod_one]
  | succ width ih =>
    simp only [beBytes_succ, beNat_cons, beBytes_length, ih, UInt8.toNat_ofNat']
    rw [show (2 : Nat) ^ 8 = 256 from rfl, Nat.mul_comm, Nat.pow_succ, Nat.mod_mul]
    omega

/-- A number that fits the width is read back unchanged. -/
theorem beNat_beBytes_of_lt {width value : Nat} (fits : value < 256 ^ width) :
    beNat (beBytes width value) = value := by
  rw [beNat_beBytes, Nat.mod_eq_of_lt fits]

/-- Writing only looks at the digits of the width. -/
theorem beBytes_congr {width left right : Nat}
    (same : left % 256 ^ width = right % 256 ^ width) :
    beBytes width left = beBytes width right := by
  induction width with
  | zero => rfl
  | succ width ih =>
    have low : left % 256 ^ width = right % 256 ^ width := by
      have reduced := congrArg (· % 256 ^ width) same
      simpa [Nat.pow_succ, Nat.mod_mul_right_mod] using reduced
    have high : left / 256 ^ width % 256 = right / 256 ^ width % 256 := by
      have split := same
      rw [Nat.pow_succ, Nat.mod_mul, Nat.mod_mul, low] at split
      exact Nat.eq_of_mul_eq_mul_left (Nat.pow_pos (by decide)) (Nat.add_left_cancel split)
    simp only [beBytes_succ, List.cons.injEq]
    refine ⟨UInt8.toNat_inj.mp ?_, ih low⟩
    simpa [UInt8.toNat_ofNat'] using high

/-- Reading a byte string and writing it back at its own length returns it. -/
theorem beBytes_beNat (bytes : List UInt8) : beBytes bytes.length (beNat bytes) = bytes := by
  induction bytes with
  | nil => rfl
  | cons byte rest ih =>
    have power : 0 < 256 ^ rest.length := Nat.pow_pos (by decide)
    have head : beNat (byte :: rest) / 256 ^ rest.length = byte.toNat := by
      rw [beNat_cons, Nat.mul_comm, Nat.mul_add_div power, Nat.div_eq_of_lt (beNat_lt rest),
        Nat.add_zero]
    have tail : beNat (byte :: rest) % 256 ^ rest.length = beNat rest % 256 ^ rest.length := by
      rw [beNat_cons, Nat.mul_comm, Nat.mul_add_mod]
    rw [List.length_cons, beBytes_succ, head, beBytes_congr tail, ih]
    simp

/-- Equally long byte strings that denote one number are equal. -/
theorem beNat_inj {left right : List UInt8} (lengths : left.length = right.length)
    (same : beNat left = beNat right) : left = right := by
  rw [← beBytes_beNat left, ← beBytes_beNat right, lengths, same]

/-- Two numbers that fit the width and are written alike are equal. -/
theorem beBytes_inj {width left right : Nat} (leftFits : left < 256 ^ width)
    (rightFits : right < 256 ^ width) (same : beBytes width left = beBytes width right) :
    left = right := by
  rw [← beNat_beBytes_of_lt leftFits, ← beNat_beBytes_of_lt rightFits, same]

/-- A number that fits a width is written behind zeros at a greater width. -/
theorem beBytes_add (padding width : Nat) {value : Nat} (fits : value < 256 ^ width) :
    beBytes (padding + width) value = List.replicate padding 0 ++ beBytes width value := by
  induction padding with
  | zero => simp
  | succ padding ih =>
    have small : value < 256 ^ (padding + width) :=
      Nat.lt_of_lt_of_le fits (Nat.pow_le_pow_right (by decide) (Nat.le_add_left _ _))
    rw [show padding + 1 + width = padding + width + 1 by omega, beBytes_succ,
      Nat.div_eq_of_lt small, ih, List.replicate_succ, List.cons_append]
    rfl

/-- Lexicographic order of equally long byte strings is the order of the numbers. -/
theorem lt_iff_beNat_lt {left right : List UInt8} (lengths : left.length = right.length) :
    left < right ↔ beNat left < beNat right := by
  induction left, right, lengths using sameLength_induction with
  | nil => simp [beNat_nil]
  | cons a left b right shorter ih =>
    rw [List.cons_lt_cons_iff, ih]
    have leftLow := beNat_lt left
    have rightLow := beNat_lt right
    rw [shorter] at leftLow
    simp only [beNat_cons, shorter, UInt8.lt_iff_toNat_lt, ← UInt8.toNat_inj]
    constructor
    · rintro (less | ⟨same, less⟩)
      · have step := Nat.mul_le_mul_right (256 ^ right.length) (Nat.succ_le_of_lt less)
        rw [Nat.succ_mul] at step
        omega
      · rw [same]; omega
    · intro less
      rcases Nat.lt_trichotomy a.toNat b.toNat with below | same | above
      · exact Or.inl below
      · rw [same] at less
        exact Or.inr ⟨same, by omega⟩
      · have step := Nat.mul_le_mul_right (256 ^ right.length) (Nat.succ_le_of_lt above)
        rw [Nat.succ_mul] at step
        omega

/-- A concatenation of segments of known lengths determines every segment. -/
theorem flatten_inj {α : Type*} {left right : List (List α)}
    (lengths : left.map List.length = right.map List.length)
    (same : left.flatten = right.flatten) : left = right := by
  induction left generalizing right with
  | nil =>
    cases right with
    | nil => rfl
    | cons _ _ => simp at lengths
  | cons head tail ih =>
    cases right with
    | nil => simp at lengths
    | cons head' tail' =>
      simp only [List.map_cons, List.cons.injEq] at lengths
      simp only [List.flatten_cons] at same
      obtain ⟨heads, tails⟩ := List.append_inj same lengths.1
      rw [heads, ih lengths.2 tails]

namespace FixedBytes

variable {width : Nat}

/-- The number the string denotes. -/
def toNat (value : FixedBytes width) : Nat := beNat value.bytes

/-- The big-endian string of a number, reduced to the width. -/
def ofNat (width value : Nat) : FixedBytes width := ⟨beBytes width value, beBytes_length _ _⟩

theorem toNat_lt (value : FixedBytes width) : value.toNat < 256 ^ width := by
  simpa [toNat, value.length_eq] using beNat_lt value.bytes

@[simp]
theorem toNat_zero : (zero width).toNat = 0 := by
  induction width with
  | zero => rfl
  | succ width ih => simpa [toNat, zero, List.replicate_succ, beNat_cons] using ih

theorem toNat_inj {left right : FixedBytes width} : left.toNat = right.toNat ↔ left = right := by
  refine ⟨fun same => FixedBytes.ext (beNat_inj ?_ same), fun same => same ▸ rfl⟩
  rw [left.length_eq, right.length_eq]

/-- The derived order of fixed byte strings is numeric. -/
theorem lt_iff_toNat_lt {left right : FixedBytes width} :
    left < right ↔ left.toNat < right.toNat :=
  lt_iff_beNat_lt (by rw [left.length_eq, right.length_eq])

@[simp]
theorem ofNat_toNat (value : FixedBytes width) : ofNat width value.toNat = value := by
  apply FixedBytes.ext
  simpa [ofNat, toNat, value.length_eq] using beBytes_beNat value.bytes

theorem toNat_ofNat {value : Nat} (fits : value < 256 ^ width) :
    (ofNat width value).toNat = value := beNat_beBytes_of_lt fits

end FixedBytes

end Usdd.Foundation
