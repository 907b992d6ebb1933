import Usdd.BitcoinBmm.CompactLaws
/-!
# Retargeting never overflows

At every 2016th height the target is scaled by the time the last interval took, clamped to a
quarter and four times the intended timespan. On the network's parameters the product with the
largest timespan and the proof-of-work limit stays just below 256 bits.
-/
namespace Usdd.Verif

open Usdd.Foundation hiding Uint256
open Usdd.BitcoinBmm

/-- The timespan a retarget of the network scales by. -/
def clampedTimespan (tipTime startTime : UInt32) : Int :=
  max 302400 (min ((tipTime.toNat : Int) - startTime.toNat) 4838400)

/-- The target after a retarget of the network, before it is encoded. -/
def nextTarget (target : Nat) (tipTime startTime : UInt32) : Nat :=
  min (target * (clampedTimespan tipTime startTime).toNat / 1209600)
    PowParameters.layerTwoSignet.powLimit.toNat

section Network

theorem powLimit_toNat :
    PowParameters.layerTwoSignet.powLimit.toNat = 0x377ae000000 * 2 ^ 192 := by decide

theorem layerTwoSignet_interval : PowParameters.layerTwoSignet.interval = .ok 2016 := rfl

/-- The clamped timespan lies between a quarter and four times the intended one. -/
theorem clampedTimespan_bounds (tipTime startTime : UInt32) :
    302400 ≤ clampedTimespan tipTime startTime ∧ clampedTimespan tipTime startTime ≤ 4838400 := by
  unfold clampedTimespan
  omega

/-- The word of the clamped timespan is the timespan. -/
theorem timespanWord_toNat (tipTime startTime : UInt32) :
    (UInt64.ofInt (clampedTimespan tipTime startTime)).toNat =
      (clampedTimespan tipTime startTime).toNat := by
  have bounds := clampedTimespan_bounds tipTime startTime
  rw [UInt64.ofInt, UInt64.toNat_ofNat']
  omega

/-- A target within the limit, scaled by the largest timespan, stays below 256 bits. -/
theorem scaled_lt {target : Nat}
    (below : target ≤ PowParameters.layerTwoSignet.powLimit.toNat) (tipTime startTime : UInt32) :
    target * (clampedTimespan tipTime startTime).toNat < 2 ^ 256 := by
  have bounds := clampedTimespan_bounds tipTime startTime
  have span : (clampedTimespan tipTime startTime).toNat ≤ 4838400 := by omega
  rw [powLimit_toNat] at below
  calc target * (clampedTimespan tipTime startTime).toNat
      ≤ 0x377ae000000 * 2 ^ 192 * 4838400 := Nat.mul_le_mul below span
    _ < 2 ^ 256 := by decide

/-- The next target lies between a quarter of the old one and four times it, within the limit. -/
theorem nextTarget_bounds {target : Nat}
    (below : target ≤ PowParameters.layerTwoSignet.powLimit.toNat) (tipTime startTime : UInt32) :
    target / 4 ≤ nextTarget target tipTime startTime ∧
      nextTarget target tipTime startTime ≤
        min (4 * target) PowParameters.layerTwoSignet.powLimit.toNat := by
  have bounds := clampedTimespan_bounds tipTime startTime
  have least : 302400 ≤ (clampedTimespan tipTime startTime).toNat := by omega
  have most : (clampedTimespan tipTime startTime).toNat ≤ 4838400 := by omega
  have scaledLeast := Nat.mul_le_mul_left target least
  have scaledMost := Nat.mul_le_mul_left target most
  have quarter : target / 4 ≤
      target * (clampedTimespan tipTime startTime).toNat / 1209600 := by omega
  have fourfold : target * (clampedTimespan tipTime startTime).toNat / 1209600 ≤ 4 * target := by
    omega
  unfold nextTarget
  constructor
  · exact Nat.le_min.mpr ⟨quarter, (Nat.div_le_self target 4).trans below⟩
  · exact Nat.le_min.mpr ⟨(Nat.min_le_left _ _).trans fourfold, Nat.min_le_right _ _⟩

/-- A retarget of the network succeeds from every decodable target, and encodes the next one. -/
theorem exists_retarget {bits : UInt32} {target : Uint256}
    (decoded : decodeAndValidateTarget bits PowParameters.layerTwoSignet.powLimit = .ok target)
    (tipTime startTime : UInt32) :
    ∃ next : Uint256, next.toNat = nextTarget target.toNat tipTime startTime ∧
      retarget .layerTwoSignet bits tipTime startTime = .ok next.toCompact := by
  have below := (decodeAndValidateTarget_eq_ok.mp decoded).2.2.2
  have word := timespanWord_toNat tipTime startTime
  obtain ⟨product, scaled⟩ := Uint256.exists_toNat (scaled_lt below tipTime startTime)
  have multiplied : target.checkedMulU64 (UInt64.ofInt (clampedTimespan tipTime startTime)) =
      some product := by
    rw [Uint256.checkedMulU64_eq_some, word, scaled]
  have small : product.toNat / 1209600 < 2 ^ 256 :=
    (Nat.div_le_self _ _).trans_lt product.toNat_lt
  obtain ⟨quotient, exact⟩ := Uint256.exists_toNat small
  have divided : product.divU64 1209600 = some quotient :=
    (Uint256.divU64_eq_some (by decide)).mpr exact.symm
  have span : ((PowParameters.layerTwoSignet.targetTimespan.toNat : Nat) : Int) = 1209600 := rfl
  have clamp : Max.max ((1209600 : Int) / 4)
      (Min.min ((tipTime.toNat : Int) - startTime.toNat) (1209600 * 4)) =
      clampedTimespan tipTime startTime := rfl
  have reached : retarget .layerTwoSignet bits tipTime startTime =
      .ok (if PowParameters.layerTwoSignet.powLimit < quotient
        then PowParameters.layerTwoSignet.powLimit else quotient).toCompact := by
    simp only [retarget, span, clamp, bind_eq_ok, mapError_eq_ok, okOr_eq_ok, pure_eq_ok,
      Option.bind_eq_some_iff]
    exact ⟨target, decoded, quotient, ⟨product, multiplied, divided⟩, rfl⟩
  refine ⟨_, ?_, reached⟩
  rw [nextTarget, ← scaled, ← exact]
  by_cases above : PowParameters.layerTwoSignet.powLimit < quotient
  · have larger := Uint256.lt_iff_toNat_lt.mp above
    rw [if_pos above, Nat.min_eq_right larger.le]
  · have within := mt Uint256.lt_iff_toNat_lt.mpr above
    rw [if_neg above, Nat.min_eq_left (Nat.not_lt.mp within)]

/-- The difficulty after a state of the network: the tip's own inside an interval, and a retarget
at its end. -/
theorem nextWorkRequired_layerTwoSignet {state : HeaderChainState}
    (height : state.height.toNat < 2 ^ 32 - 1) :
    nextWorkRequired state .layerTwoSignet =
      if (state.height.toNat + 1) % 2016 ≠ 0 then .ok state.tip.header.bits
      else retarget .layerTwoSignet state.tip.header.bits state.tip.header.time
        state.intervalStartTime := by
  obtain ⟨next, counted⟩ : ∃ next, checkedSucc state.height = some next := by
    unfold checkedSucc
    rw [if_pos (by omega)]
    exact ⟨_, rfl⟩
  have exact := checkedSucc_eq_some.mp counted
  have boundary : next % 2016 ≠ 0 ↔ (state.height.toNat + 1) % 2016 ≠ 0 := by
    rw [exact, ne_eq, ne_eq, ← UInt32.toNat_inj, UInt32.toNat_mod]
    rfl
  simp only [nextWorkRequired, counted, okOr, layerTwoSignet_interval]
  change (if next % 2016 ≠ 0 then Except.ok state.tip.header.bits else _) = _
  by_cases inside : next % 2016 ≠ 0
  · rw [if_pos inside, if_pos (boundary.mp inside)]
  · rw [if_neg inside, if_neg (fun still => inside (boundary.mpr still))]
    rfl

end Network

/-- Retargeting never overflows on the network's parameters: below the last height every tip with
a decodable target has a next difficulty. At a boundary the next target lies between a quarter of
the old one and four times it, within the limit, and from a target of four on its word decodes to
that target with only its leading bytes kept. -/
theorem retargeting_never_overflows {state : HeaderChainState} {target : Uint256}
    (height : state.height.toNat < 2 ^ 32 - 1)
    (decoded : decodeAndValidateTarget state.tip.header.bits
      PowParameters.layerTwoSignet.powLimit = .ok target) :
    ∃ bits, nextWorkRequired state .layerTwoSignet = .ok bits ∧
      ((state.height.toNat + 1) % 2016 = 0 →
        let next := nextTarget target.toNat state.tip.header.time state.intervalStartTime
        target.toNat / 4 ≤ next ∧
        next ≤ min (4 * target.toNat) PowParameters.layerTwoSignet.powLimit.toNat ∧
        (4 ≤ target.toNat → ∃ mantissa size new, CompactForm next mantissa size ∧
          decodeAndValidateTarget bits PowParameters.layerTwoSignet.powLimit = .ok new ∧
          0 < new.toNat ∧ new.toNat ≤ next ∧ new.toNat = compactValue mantissa size)) := by
  have below := (decodeAndValidateTarget_eq_ok.mp decoded).2.2.2
  obtain ⟨least, most⟩ := nextTarget_bounds below state.tip.header.time state.intervalStartTime
  obtain ⟨next, exact, retargeted⟩ :=
    exists_retarget decoded state.tip.header.time state.intervalStartTime
  by_cases inside : (state.height.toNat + 1) % 2016 ≠ 0
  · refine ⟨state.tip.header.bits, ?_, fun boundary => absurd boundary inside⟩
    rw [nextWorkRequired_layerTwoSignet height, if_pos inside]
  · refine ⟨next.toCompact, ?_, fun _ => ⟨least, most, ?_⟩⟩
    · rw [nextWorkRequired_layerTwoSignet height, if_neg inside, retargeted]
    · intro large
      rw [← exact] at least most ⊢
      have positive : 0 < next.toNat := by omega
      obtain ⟨mantissa, size, new, form, -, value, accepted⟩ :=
        decode_toCompact positive (most.trans (Nat.min_le_right _ _))
      have some := (decodeAndValidateTarget_eq_ok.mp accepted).2.2.1
      exact ⟨mantissa, size, new, form, accepted, some, value ▸ form.value_le (by decide), value⟩

/-- The end of the first interval at the proof-of-work limit. -/
def firstBoundary : HeaderChainState where
  height := 2015
  tip := {
    header := { BitcoinHeader.ofRaw (.zero 80) with time := 600000, bits := 0x1e0377ae }
    hash := .zero 32
    target := PowParameters.layerTwoSignet.powLimit
    work := .zero }
  cumulativeWork := .zero
  intervalStartTime := 0

/-- An interval mined in half the intended time. -/
theorem retargeting_never_overflows_sample :
    ∃ bits new, nextWorkRequired firstBoundary .layerTwoSignet = .ok bits ∧
      decodeAndValidateTarget bits PowParameters.layerTwoSignet.powLimit = .ok new ∧
      0 < new.toNat := by
  have limit : decodeAndValidateTarget firstBoundary.tip.header.bits
      PowParameters.layerTwoSignet.powLimit = .ok PowParameters.layerTwoSignet.powLimit :=
    decodeAndValidateTarget_eq_ok.mpr (by decide)
  obtain ⟨bits, required, boundary⟩ :=
    retargeting_never_overflows (by decide) limit
  obtain ⟨-, -, decoded⟩ := boundary (by decide)
  obtain ⟨-, -, new, -, accepted, positive, -, -⟩ := decoded (by decide)
  exact ⟨bits, new, required, accepted, positive⟩

end Usdd.Verif
