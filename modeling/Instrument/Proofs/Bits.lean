import Instrument.Number.Decimal
import Mathlib

namespace Instrument

namespace Binary64

open Float.Model (UnpackedFloat Format)
open Float.Model.UnpackedFloat (unpackMantissa unpackExponent unpackSign isNaNBits)

abbrev Bits : Type := BitVec Format.binary64.numBits

variable {body : Nat}

theorem toNat_unpackMantissa (b : Bits) : (unpackMantissa b).toNat = b.toNat % 2 ^ 52 := by
  rw [UnpackedFloat.unpackMantissa_def, BitVec.extractLsb'_toNat, Nat.shiftRight_zero]

theorem toNat_unpackExponent (b : Bits) : (unpackExponent b).toNat = b.toNat / 2 ^ 52 % 2 ^ 11 := by
  rw [UnpackedFloat.unpackExponent_def, BitVec.extractLsb'_toNat, Nat.shiftRight_eq_div_pow]

theorem toNat_unpackSign (b : Bits) : (unpackSign b).toNat = b.toNat / 2 ^ 63 := by
  have hb : b.toNat < 2 ^ 64 := b.isLt
  have hbit : (unpackSign b).toNat = b.toNat / 2 ^ 63 % 2 ^ 1 := by
    rw [UnpackedFloat.unpackSign_def, BitVec.extractLsb'_toNat, Nat.shiftRight_eq_div_pow]
    rfl
  omega

def bits (negative : Bool) (body : Nat) : Bits :=
  (UInt64.ofNat (if negative then Nat.pow 2 63 + body else body)).toBitVec

theorem toNat_bits (negative : Bool) (h : body ≤ infinityBody) :
    (bits negative body).toNat = if negative then 2 ^ 63 + body else body := by
  have hlt : body < 2 ^ 63 := Nat.lt_of_le_of_lt h (by decide)
  cases negative with
  | false =>
      have hmod : (bits false body).toNat = body % 2 ^ 64 := rfl
      simp only [hmod, Bool.false_eq_true, if_false]
      omega
  | true =>
      have hmod : (bits true body).toNat = (2 ^ 63 + body) % 2 ^ 64 := rfl
      simp only [hmod, if_true]
      omega

theorem toNat_unpackMantissa_bits (negative : Bool) (h : body ≤ infinityBody) :
    (unpackMantissa (bits negative body)).toNat = body % 2 ^ 52 := by
  rw [toNat_unpackMantissa, toNat_bits negative h]
  cases negative <;> simp only [Bool.false_eq_true, if_false, if_true]
  omega

theorem toNat_unpackExponent_bits (negative : Bool) (h : body ≤ infinityBody) :
    (unpackExponent (bits negative body)).toNat = body / 2 ^ 52 := by
  have hlt : body < 2 ^ 63 := Nat.lt_of_le_of_lt h (by decide)
  rw [toNat_unpackExponent, toNat_bits negative h]
  cases negative <;> simp only [Bool.false_eq_true, if_false, if_true] <;> omega

theorem toNat_unpackSign_bits (negative : Bool) (h : body ≤ infinityBody) :
    (unpackSign (bits negative body)).toNat = negative.toNat := by
  have hlt : body < 2 ^ 63 := Nat.lt_of_le_of_lt h (by decide)
  rw [toNat_unpackSign, toNat_bits negative h]
  cases negative <;> simp only [Bool.false_eq_true, if_false, if_true, Bool.toNat_false, Bool.toNat_true]
    <;> omega

theorem isNaNBits_bits (negative : Bool) (h : body ≤ infinityBody) : isNaNBits (bits negative body) = false := by
  rw [isNaNBits, decide_eq_false_iff_not]
  rintro ⟨hones, hmantissa⟩
  have hbody : body ≤ 2047 * 2 ^ 52 := h
  have hexponent := toNat_unpackExponent_bits negative h
  rw [hones] at hexponent
  have htop : (-BitVec.ofNat Format.binary64.exponentBits 1).toNat = 2047 := rfl
  rw [htop] at hexponent
  apply hmantissa
  apply BitVec.eq_of_toNat_eq
  rw [toNat_unpackMantissa_bits negative h]
  change _ = 0
  omega

theorem toBits_ofBody (negative : Bool) (h : body ≤ infinityBody) :
    (ofBody negative body).toBits.toBitVec = bits negative body := by
  have hpacked : (ofBody negative body).toBits.toBitVec =
      UnpackedFloat.pack .binary64 (UnpackedFloat.unpack .binary64 (bits negative body)) := rfl
  rw [hpacked, UnpackedFloat.pack_unpack, isNaNBits_bits negative h, if_neg Bool.false_ne_true]

theorem isNegative_ofBody (negative : Bool) (h : body ≤ infinityBody) :
    isNegative (ofBody negative body) = negative := by
  have hlt : body < 2 ^ 63 := Nat.lt_of_le_of_lt h (by decide)
  have hnat : (ofBody negative body).toBits.toNat = (bits negative body).toNat :=
    congrArg BitVec.toNat (toBits_ofBody negative h)
  rw [isNegative, hnat, toNat_bits negative h]
  cases negative with
  | false => simpa using hlt
  | true => simp

theorem parts?_ofBody (negative : Bool) (h : body < infinityBody) :
    parts? (ofBody negative body) = some (if body / 2 ^ 52 = 0 then ⟨negative, body % 2 ^ 52, -1074⟩
      else ⟨negative, 2 ^ 52 + body % 2 ^ 52, (body / 2 ^ 52 : Nat) - 1075⟩) := by
  have hle := Nat.le_of_lt h
  have hlt : body < 2 ^ 63 := Nat.lt_trans h (by decide)
  have hnat : (ofBody negative body).toBits.toNat % Nat.pow 2 63 = body := by
    have hbits : (ofBody negative body).toBits.toNat = (bits negative body).toNat :=
      congrArg BitVec.toNat (toBits_ofBody negative hle)
    rw [hbits, toNat_bits negative hle]
    cases negative <;> simpa using hlt
  have hfield : body / Nat.pow 2 52 ≠ 2047 := by
    have hbody : body < 2047 * 2 ^ 52 := h
    simp only [Nat.pow_eq]
    omega
  simp only [parts?, hnat, if_neg hfield, isNegative_ofBody negative hle, Nat.pow_eq]
  split <;> rfl

theorem unpack_bits_true (h : body ≤ infinityBody) :
    UnpackedFloat.unpack .binary64 (bits true body) =
      (UnpackedFloat.unpack .binary64 (bits false body)).neg := by
  have hmantissa : unpackMantissa (bits true body) = unpackMantissa (bits false body) :=
    BitVec.eq_of_toNat_eq ((toNat_unpackMantissa_bits true h).trans (toNat_unpackMantissa_bits false h).symm)
  have hexponent : unpackExponent (bits true body) = unpackExponent (bits false body) :=
    BitVec.eq_of_toNat_eq ((toNat_unpackExponent_bits true h).trans (toNat_unpackExponent_bits false h).symm)
  have hminus : unpackSign (bits true body) = 1#1 := BitVec.eq_of_toNat_eq (toNat_unpackSign_bits true h)
  have hplus : unpackSign (bits false body) = 0#1 := BitVec.eq_of_toNat_eq (toNat_unpackSign_bits false h)
  simp only [UnpackedFloat.unpack, hmantissa, hexponent, hminus, hplus]
  split
  · split <;> rfl
  · split
    · split <;> rfl
    · rfl

theorem neg_ofBody (h : body ≤ infinityBody) : -ofBody false body = ofBody true body := by
  have hneg : -ofBody false body = .ofModel
      (.pack (UnpackedFloat.unpack .binary64 (ofBody false body).toBits.toBitVec).neg) := rfl
  rw [hneg, toBits_ofBody false h, ← unpack_bits_true h]
  rfl

theorem neg_zero : -zero false = zero true := neg_ofBody (Nat.zero_le _)

theorem neg_infinity : -infinity false = infinity true := neg_ofBody (Nat.le_refl _)

theorem nearest?_true (num den : Nat) : nearest? true num den = (nearest? false num den).map (-·) := by
  rw [nearest?, nearest?]
  split
  · next h => rw [Option.map_some, neg_ofBody (Nat.le_of_lt h)]
  · rfl

end Binary64

theorem Decimal.toFloat_true (d : Decimal) : d.toFloat true = -d.toFloat false := by
  simp only [Decimal.toFloat]
  split
  · exact Binary64.neg_zero.symm
  · split
    · exact Binary64.neg_infinity.symm
    · rw [Binary64.nearest?_true]
      cases Binary64.nearest? false _ _ with
      | none => exact Binary64.neg_infinity.symm
      | some x => rfl

end Instrument
