import Usdd.Foundation.Bytes
/-!
# Little-endian bytes and multi-limb arithmetic

A little-endian byte string denotes its base-256 expansion, least significant digit first, and
a list of 64-bit limbs denotes its base-2^64 expansion. Addition with carry, subtraction with
borrow, multiplication and division by one limb, doubling and comparison run over the limbs as
a machine does; here they are tied to the numbers the lists denote.
-/
namespace Usdd.Foundation

section Bytes

/-- The number a little-endian byte string denotes. -/
def leNat : List UInt8 → Nat
  | [] => 0
  | byte :: rest => byte.toNat + 256 * leNat rest

/-- The low `width` base-256 digits of a number, least significant first. -/
def leBytes : Nat → Nat → List UInt8
  | 0, _ => []
  | width + 1, value => UInt8.ofNat (value % 256) :: leBytes width (value / 256)

@[simp]
theorem leBytes_length (width value : Nat) : (leBytes width value).length = width := by
  induction width generalizing value with
  | zero => rfl
  | succ width ih => simp [leBytes, ih]

/-- A byte string denotes a number below the power its length allows. -/
theorem leNat_lt (bytes : List UInt8) : leNat bytes < 256 ^ bytes.length := by
  induction bytes with
  | nil => simp [leNat]
  | cons byte rest ih =>
    have digit : byte.toNat < 256 := byte.toNat_lt
    rw [leNat, List.length_cons, Nat.pow_succ]
    omega

/-- Writing a number and reading it back reduces it to the width written. -/
theorem leNat_leBytes (width value : Nat) :
    leNat (leBytes width value) = value % 256 ^ width := by
  induction width generalizing value with
  | zero => simp [leBytes, leNat, Nat.mod_one]
  | succ width ih =>
    have digit : (UInt8.ofNat (value % 256)).toNat = value % 256 := by simp [UInt8.toNat_ofNat']
    rw [leBytes, leNat, ih, digit, Nat.pow_succ, Nat.mul_comm (256 ^ width) 256, Nat.mod_mul]

/-- A number that fits the width is read back unchanged. -/
theorem leNat_leBytes_of_lt {width value : Nat} (fits : value < 256 ^ width) :
    leNat (leBytes width value) = value := by
  rw [leNat_leBytes, Nat.mod_eq_of_lt fits]

/-- Reading a byte string and writing it back at its own length returns it. -/
theorem leBytes_leNat (bytes : List UInt8) : leBytes bytes.length (leNat bytes) = bytes := by
  induction bytes with
  | nil => rfl
  | cons byte rest ih =>
    have digit : byte.toNat < 256 := byte.toNat_lt
    have low : leNat (byte :: rest) % 256 = byte.toNat := by rw [leNat]; omega
    have high : leNat (byte :: rest) / 256 = leNat rest := by rw [leNat]; omega
    rw [List.length_cons, leBytes, low, high, ih, UInt8.ofNat_toNat]

/-- Byte strings of one length that denote one number are equal. -/
theorem leNat_inj {left right : List UInt8} (lengths : left.length = right.length)
    (same : leNat left = leNat right) : left = right := by
  rw [← leBytes_leNat left, ← leBytes_leNat right, lengths, same]

/-- A concatenation denotes its first part plus the shifted second. -/
theorem leNat_append (first second : List UInt8) :
    leNat (first ++ second) = leNat first + 256 ^ first.length * leNat second := by
  induction first with
  | nil => simp [leNat]
  | cons byte rest ih =>
    rw [List.cons_append, leNat, leNat, ih, List.length_cons, Nat.pow_succ]
    ring

/-- Reversing a string turns one byte order into the other. -/
theorem leNat_reverse (bytes : List UInt8) : leNat bytes.reverse = beNat bytes := by
  induction bytes with
  | nil => rfl
  | cons byte rest ih =>
    rw [List.reverse_cons, leNat_append, ih, List.length_reverse, beNat_cons, leNat, leNat]
    ring

end Bytes

section Words

/-- `u64::overflowing_add`: the wrapped sum and whether it wrapped. -/
def overflowingAdd (left right : UInt64) : UInt64 × Bool :=
  (left + right, decide (2 ^ 64 ≤ left.toNat + right.toNat))

/-- `u64::overflowing_sub`: the wrapped difference and whether it wrapped. -/
def overflowingSub (left right : UInt64) : UInt64 × Bool :=
  (left - right, decide (left.toNat < right.toNat))

/-- `u64::from` of a truth value. -/
def carryWord (carry : Bool) : UInt64 := if carry then 1 else 0

/-- The wrapped sum and the carry together are the exact sum. -/
theorem overflowingAdd_exact (left right : UInt64) :
    (overflowingAdd left right).1.toNat + 2 ^ 64 * (overflowingAdd left right).2.toNat =
      left.toNat + right.toNat := by
  have leftFits := left.toNat_lt
  have rightFits := right.toNat_lt
  simp only [overflowingAdd, UInt64.toNat_add]
  by_cases wraps : 2 ^ 64 ≤ left.toNat + right.toNat
  · simp only [wraps, decide_true, Bool.toNat_true]
    omega
  · simp only [wraps, decide_false, Bool.toNat_false]
    omega

@[simp]
theorem carryWord_toNat (carry : Bool) : (carryWord carry).toNat = carry.toNat := by
  cases carry <;> rfl

end Words

section Limbs

/-- The number a list of limbs denotes. -/
def limbsNat : List UInt64 → Nat
  | [] => 0
  | limb :: rest => limb.toNat + 2 ^ 64 * limbsNat rest

/-- The limbs of a byte string, eight bytes each. -/
def limbsOfBytes : Nat → List UInt8 → List UInt64
  | 0, _ => []
  | count + 1, bytes =>
    UInt64.ofNat (leNat (bytes.take 8)) :: limbsOfBytes count (bytes.drop 8)

/-- The bytes of the limbs, eight bytes each. -/
def bytesOfLimbs : List UInt64 → List UInt8
  | [] => []
  | limb :: rest => leBytes 8 limb.toNat ++ bytesOfLimbs rest

/-- Add limb by limb, passing the carry on. -/
def addLimbs : List UInt64 → List UInt64 → Bool → List UInt64 × Bool
  | left :: lefts, right :: rights, carry =>
    let (sum, firstCarry) := overflowingAdd left right
    let (sum, secondCarry) := overflowingAdd sum (carryWord carry)
    let (sums, lastCarry) := addLimbs lefts rights (firstCarry || secondCarry)
    (sum :: sums, lastCarry)
  | _, _, carry => ([], carry)

/-- Subtract limb by limb, passing the borrow on. -/
def subLimbs : List UInt64 → List UInt64 → Bool → List UInt64 × Bool
  | left :: lefts, right :: rights, borrow =>
    let (difference, firstBorrow) := overflowingSub left right
    let (difference, secondBorrow) := overflowingSub difference (carryWord borrow)
    let (differences, lastBorrow) := subLimbs lefts rights (firstBorrow || secondBorrow)
    (difference :: differences, lastBorrow)
  | _, _, borrow => ([], borrow)

/-- Shift every limb left by one bit, the carry entering at the low end. -/
def doubleLimbs : List UInt64 → UInt64 → List UInt64
  | [], _ => []
  | limb :: rest, carry => (limb <<< 1 ||| carry) :: doubleLimbs rest (limb >>> 63)

/-- Multiply every limb by a word; the running product has 128 bits. -/
def mulLimbs : List UInt64 → UInt64 → Nat → List UInt64 × Nat
  | [], _, carry => ([], carry)
  | limb :: rest, factor, carry =>
    let product := limb.toNat * factor.toNat + carry
    let (products, lastCarry) := mulLimbs rest factor (product / 2 ^ 64)
    (UInt64.ofNat product :: products, lastCarry)

/-- Divide by a word from the most significant limb down; the dividend has 128 bits. -/
def divLimbs : List UInt64 → UInt64 → List UInt64 × Nat
  | [], _ => ([], 0)
  | limb :: rest, divisor =>
    let (quotients, remainder) := divLimbs rest divisor
    let dividend := remainder * 2 ^ 64 + limb.toNat
    (UInt64.ofNat (dividend / divisor.toNat) :: quotients, dividend % divisor.toNat)

/-- Compare from the most significant limb down. -/
def cmpLimbs : List UInt64 → List UInt64 → Ordering
  | left :: lefts, right :: rights =>
    match cmpLimbs lefts rights with
    | .eq => compare left.toNat right.toNat
    | ordering => ordering
  | _, _ => .eq

@[simp]
theorem limbsOfBytes_length (count : Nat) (bytes : List UInt8) :
    (limbsOfBytes count bytes).length = count := by
  induction count generalizing bytes with
  | zero => rfl
  | succ count ih => simp [limbsOfBytes, ih]

@[simp]
theorem bytesOfLimbs_length (limbs : List UInt64) :
    (bytesOfLimbs limbs).length = 8 * limbs.length := by
  induction limbs with
  | nil => rfl
  | cons limb rest ih => simp [bytesOfLimbs, ih, Nat.mul_succ, Nat.add_comm]

/-- Writing limbs byte by byte keeps the number they denote. -/
theorem leNat_bytesOfLimbs (limbs : List UInt64) : leNat (bytesOfLimbs limbs) = limbsNat limbs := by
  induction limbs with
  | nil => rfl
  | cons limb rest ih =>
    have fits : limb.toNat < 256 ^ 8 := limb.toNat_lt
    rw [bytesOfLimbs, leNat_append, leNat_leBytes_of_lt fits, leBytes_length, ih, limbsNat]
    norm_num

/-- Limbs denote a number below the power their count allows. -/
theorem limbsNat_lt (limbs : List UInt64) : limbsNat limbs < 2 ^ (64 * limbs.length) := by
  induction limbs with
  | nil => simp [limbsNat]
  | cons limb rest ih =>
    have fits := limb.toNat_lt
    rw [limbsNat, List.length_cons, Nat.mul_succ, Nat.pow_add]
    omega

/-- Reading bytes limb by limb reads the number they denote. -/
theorem limbsNat_limbsOfBytes (count : Nat) (bytes : List UInt8)
    (length : bytes.length = 8 * count) : limbsNat (limbsOfBytes count bytes) = leNat bytes := by
  induction count generalizing bytes with
  | zero => simp [List.eq_nil_of_length_eq_zero length, limbsOfBytes, limbsNat, leNat]
  | succ count ih =>
    have taken : (bytes.take 8).length = 8 := by rw [List.length_take]; omega
    have dropped : (bytes.drop 8).length = 8 * count := by rw [List.length_drop]; omega
    have fits : leNat (bytes.take 8) < 2 ^ 64 := by
      have bound := leNat_lt (bytes.take 8)
      rw [taken] at bound
      exact bound
    have whole : leNat bytes = leNat (bytes.take 8) + 256 ^ 8 * leNat (bytes.drop 8) := by
      conv_lhs => rw [← List.take_append_drop 8 bytes]
      rw [leNat_append, taken]
    rw [limbsOfBytes, limbsNat, ih _ dropped, whole, UInt64.toNat_ofNat_of_lt' fits]
    norm_num

@[simp]
theorem addLimbs_length {left right : List UInt64} (carry : Bool)
    (lengths : left.length = right.length) :
    (addLimbs left right carry).1.length = left.length := by
  induction left, right, lengths using sameLength_induction generalizing carry with
  | nil => rfl
  | cons limb rest limb' rest' tails ih => simp [addLimbs, ih]

/-- The sum of the limbs and the last carry together are the exact sum. -/
theorem addLimbs_exact {left right : List UInt64} (carry : Bool)
    (lengths : left.length = right.length) :
    limbsNat (addLimbs left right carry).1 +
        2 ^ (64 * left.length) * (addLimbs left right carry).2.toNat =
      limbsNat left + limbsNat right + carry.toNat := by
  induction left, right, lengths using sameLength_induction generalizing carry with
  | nil => simp [addLimbs, limbsNat]
  | cons limb rest limb' rest' tails ih =>
    have first := overflowingAdd_exact limb limb'
    have second := overflowingAdd_exact (overflowingAdd limb limb').1 (carryWord carry)
    have sumFits := (overflowingAdd (overflowingAdd limb limb').1 (carryWord carry)).1.toNat_lt
    have limbFits := limb.toNat_lt
    have limbFits' := limb'.toNat_lt
    have incoming : carry.toNat ≤ 1 := Bool.toNat_le carry
    have others := ih ((overflowingAdd limb limb').2 ||
      (overflowingAdd (overflowingAdd limb limb').1 (carryWord carry)).2)
    rw [carryWord_toNat] at second
    -- The two carries cannot both be set, so their disjunction is their sum.
    have one : ((overflowingAdd limb limb').2 ||
        (overflowingAdd (overflowingAdd limb limb').1 (carryWord carry)).2).toNat =
        (overflowingAdd limb limb').2.toNat +
          (overflowingAdd (overflowingAdd limb limb').1 (carryWord carry)).2.toNat := by
      cases h : (overflowingAdd limb limb').2 <;>
        cases h' : (overflowingAdd (overflowingAdd limb limb').1 (carryWord carry)).2 <;>
        simp only [h, h', Bool.toNat_true, Bool.toNat_false] at first second ⊢ <;>
        first | rfl | omega
    rw [one] at others
    have power : 2 ^ (64 * (limb :: rest).length) = 2 ^ 64 * 2 ^ (64 * rest.length) := by
      rw [List.length_cons, Nat.mul_succ, Nat.pow_add, Nat.mul_comm]
    rw [power, addLimbs, limbsNat, limbsNat, limbsNat]
    linear_combination (2 ^ 64) * others + first + second

/-- Comparing limbs compares the numbers they denote. -/
theorem cmpLimbs_eq {left right : List UInt64} (lengths : left.length = right.length) :
    cmpLimbs left right = compare (limbsNat left) (limbsNat right) := by
  induction left, right, lengths using sameLength_induction with
  | nil => simp [cmpLimbs, limbsNat]
  | cons limb rest limb' rest' tails ih =>
    have fits := limb.toNat_lt
    have fits' := limb'.toNat_lt
    rw [cmpLimbs, ih, limbsNat, limbsNat]
    rcases lt_trichotomy (limbsNat rest) (limbsNat rest') with below | same | above
    · rw [compare_lt_iff_lt.mpr below, eq_comm, compare_lt_iff_lt]
      omega
    · rw [same, compare_eq_iff_eq.mpr rfl]
      rcases lt_trichotomy limb.toNat limb'.toNat with less | equal | more
      · rw [compare_lt_iff_lt.mpr less, eq_comm, compare_lt_iff_lt]
        omega
      · rw [equal]
        simp
      · rw [compare_gt_iff_gt.mpr more, eq_comm, compare_gt_iff_gt]
        omega
    · rw [compare_gt_iff_gt.mpr above, eq_comm, compare_gt_iff_gt]
      omega

end Limbs

end Usdd.Foundation
