import Mathlib
import SheetScript.Number.Binary64

/-!
# Doubles and their bits

A double is its bits: packing what was unpacked from valid bits gives the bits again, so
`Float.ofBits` takes back `Float.toBits` (`ofBits_toBits`). With the sign bit split off, a double is
made again from its sign and its magnitude (`ofMagnitude_magnitude`), every magnitude up to infinity
is that of a double (`magnitude_ofMagnitude`), and beyond stands one double that is not a number
(`eq_ofMagnitude_of_lt`). A minus sign changes the sign bit alone (`neg_ofMagnitude`).
-/

namespace SheetScript.Number

open Float.Model (Format)
open Float.Model.UnpackedFloat

@[simp] theorem toBitVec_ofBitVec (s : BitVec 1) : (Sign.ofBitVec s).toBitVec = s := by
  revert s
  decide

/-- Bits are the sign, the exponent and the mantissa in them. -/
theorem packComponents_unpack {spec : Format} (b : BitVec spec.numBits) :
    packComponents spec (Sign.ofBitVec (unpackSign b)) (unpackExponent b) (unpackMantissa b) =
      b := by
  ext i hi
  rw [packComponents, toBitVec_ofBitVec]
  have hm := spec.hm
  have he := spec.he
  by_cases hmantissa : i < spec.mantissaBitsWithoutImplicit
  · simp [BitVec.getElem_append, unpackMantissa, hmantissa]
    exact BitVec.getLsbD_eq_getElem hi
  · by_cases hexponent : i - spec.mantissaBitsWithoutImplicit < spec.exponentBits
    · have hi' : spec.mantissaBitsWithoutImplicit + (i - spec.mantissaBitsWithoutImplicit) = i := by
        omega
      simp [BitVec.getElem_append, unpackExponent, hmantissa, hexponent, hi']
      exact BitVec.getLsbD_eq_getElem hi
    · have hi' : spec.mantissaBitsWithoutImplicit + spec.exponentBits +
          (i - spec.mantissaBitsWithoutImplicit - spec.exponentBits) = i := by
        omega
      simp [BitVec.getElem_append, unpackSign, hmantissa, hexponent, hi']
      exact BitVec.getLsbD_eq_getElem hi

theorem toNat_append_one (mantissa : BitVec 52) :
    (1#1 ++ mantissa).toNat = 2 ^ 52 + mantissa.toNat := by
  rw [BitVec.toNat_append, ← Nat.shiftLeft_add_eq_or_of_lt mantissa.isLt]
  simp [Nat.shiftLeft_eq]

/-- A mantissa without its leading bit, at the least exponent. -/
theorem pack_subnormal (sign : Sign) (mantissa : BitVec 52) {exponent : Int}
    (hexponent : exponent = -1074) (hmantissa : 0 < mantissa.toNat) :
    pack Format.binary64 (.finite sign mantissa.toNat exponent hmantissa) =
      packComponents Format.binary64 sign 0#11 mantissa := by
  subst hexponent
  have hlog : mantissa.toNat.log2 < 52 :=
    (Nat.log2_lt (Nat.pos_iff_ne_zero.1 hmantissa)).2 mantissa.isLt
  unfold pack
  rw [if_neg (by decide), if_neg, BitVec.ofNat_toNat, BitVec.setWidth_eq]
  show ¬ mantissa.toNat.log2 + 1 = 1 + 52
  omega

/-- A mantissa with its leading bit. -/
theorem pack_normal (sign : Sign) (biased : BitVec 11) (mantissa : BitVec 52)
    (hbiased : biased ≠ -1#_) {exponent : Int} (hexponent : exponent = biased.toNat - 1075)
    (hmantissa : 0 < (1#1 ++ mantissa).toNat) :
    pack Format.binary64 (.finite sign (1#1 ++ mantissa).toNat exponent hmantissa) =
      packComponents Format.binary64 sign biased mantissa := by
  subst hexponent
  have hvalue := toNat_append_one mantissa
  have hlt := mantissa.isLt
  -- The leading bit is the one with the number 52, so packing does not shift the mantissa.
  have hlog : (1#1 ++ mantissa).toNat.log2 = 52 := by
    apply (Nat.log2_eq_iff (Nat.pos_iff_ne_zero.1 hmantissa)).2
    omega
  have hmax : biased.toNat ≠ 2047 := by
    intro h
    apply hbiased
    apply BitVec.eq_of_toNat_eq
    rw [h]
    rfl
  have hbias : ((biased.toNat : Int) - 1075 + Format.binary64.exponentBias + (52 : Nat)).toNat =
      biased.toNat := by
    show ((biased.toNat : Int) - 1075 + (1023 : Nat) + (52 : Nat)).toNat = biased.toNat
    omega
  have hmod : (2 ^ 52 + mantissa.toNat) % 2 ^ 52 = mantissa.toNat := by
    rw [Nat.add_mod_left, Nat.mod_eq_of_lt hlt]
  unfold pack
  simp only [hbias, hlog]
  have hbound := biased.isLt
  -- Neither too large nor subnormal: the exponent goes in as it is, and the leading bit comes off.
  rw [if_neg (show ¬ 2 ^ 11 ≤ biased.toNat + 1 by omega), if_pos (by rfl), BitVec.ofNat_toNat,
    BitVec.setWidth_eq]
  congr 1
  apply BitVec.eq_of_toNat_eq
  rw [BitVec.toNat_ofNat, hvalue]
  exact hmod

theorem pack_unpack {b : BitVec Format.binary64.numBits} (h : Format.binary64.Valid b) :
    pack Format.binary64 (unpack Format.binary64 b) = b := by
  have hb := packComponents_unpack b
  generalize hs : Sign.ofBitVec (unpackSign b) = sign at hb
  generalize he : unpackExponent b = exponent at hb
  generalize hm : unpackMantissa b = mantissa at hb
  unfold unpack
  simp only [hs, he, hm]
  by_cases hmax : exponent = -1#_
  · rw [if_pos hmax]
    by_cases hzero : mantissa = 0#_
    · rw [if_pos hzero, pack, packedInfinity, ← hb, hmax, hzero]
      rfl
    · rw [if_neg hzero, pack]
      exact (h.eq_packedNaN (he.trans hmax) (hm ▸ hzero)).symm
  · rw [if_neg hmax]
    by_cases hmin : exponent = 0#_
    · rw [if_pos hmin]
      by_cases hzero : mantissa = 0#_
      · rw [dif_pos hzero, pack, packedZero, ← hb, hmin, hzero]
        rfl
      · rw [dif_neg hzero, pack_subnormal, ← hb, hmin]
        rw [hmin]
        decide
    · rw [if_neg hmin, pack_normal sign exponent mantissa hmax, hb]
      rfl

@[simp] theorem ofBits_toBits (x : Float) : Float.ofBits x.toBits = x := by
  rcases x with ⟨⟨bits, hvalid⟩⟩
  show Float.ofModel (Float.Model.mk (UInt64.ofBitVec _) _) = _
  congr 2
  apply UInt64.toBitVec_inj.1
  exact pack_unpack hvalid

theorem infinityBits_eq : infinityBits = 2047 * 2 ^ 52 := by rw [infinityBits, Nat.shiftLeft_eq]

/-- Bits up to those of infinity, with either sign, are the bits of a double. -/
theorem valid_of_le {b : BitVec Format.binary64.numBits} (h : b.toNat % 2 ^ 63 ≤ infinityBits) :
    Format.binary64.Valid b := by
  refine ⟨fun hexponent hmantissa => absurd ?_ hmantissa⟩
  have hmax : b.toNat / 2 ^ 52 % 2 ^ 11 = 2 ^ 11 - 1 := by
    simpa [unpackExponent, Nat.shiftRight_eq_div_pow] using congrArg BitVec.toNat hexponent
  have hlt : b.toNat < 2 ^ 64 := b.isLt
  rw [infinityBits_eq] at h
  apply BitVec.eq_of_toNat_eq
  simp [unpackMantissa]
  omega

theorem toBits_ofBits {b : UInt64} (h : b.toNat % 2 ^ 63 ≤ infinityBits) :
    (Float.ofBits b).toBits = b := by
  show UInt64.ofBitVec (pack Format.binary64 (unpack Format.binary64 b.toBitVec)) = b
  apply UInt64.toBitVec_inj.1
  exact pack_unpack (valid_of_le h)

/-! ## Sign and magnitude -/

theorem toNat_toBits (x : Float) :
    x.toBits.toNat = if isNegative x then (1 <<< 63) + magnitude x else magnitude x := by
  have hlt := x.toBits.toNat_lt
  unfold isNegative magnitude
  simp only [decide_eq_true_eq, show (1 : Nat) <<< 63 = 2 ^ 63 from rfl]
  split_ifs with h <;> omega

/-- A double is made again from its sign and its magnitude. -/
@[simp] theorem ofMagnitude_magnitude (x : Float) :
    ofMagnitude (isNegative x) (magnitude x) = x := by
  rw [ofMagnitude, ← toNat_toBits, UInt64.ofNat_toNat, ofBits_toBits]

/-- Beyond infinity there is one double, which is not a number. -/
theorem eq_ofMagnitude_of_lt {x : Float} (h : infinityBits < magnitude x) :
    x = ofMagnitude false (infinityBits + (1 <<< 51)) := by
  have hbound := x.toBits.toNat_lt
  have hvalid : Format.binary64.Valid x.toBits.toBitVec := x.toModel.valid
  have hlarge : 2047 * 2 ^ 52 < x.toBits.toNat % 2 ^ 63 := by
    rw [← infinityBits_eq]
    exact h
  have hexponent : @unpackExponent Format.binary64 x.toBits.toBitVec = -1#11 := by
    apply BitVec.eq_of_toNat_eq
    simp [unpackExponent, Nat.shiftRight_eq_div_pow]
    omega
  have hmantissa : @unpackMantissa Format.binary64 x.toBits.toBitVec ≠ 0#52 := by
    intro hzero
    have hzero' : x.toBits.toNat % 2 ^ 52 = 0 := by
      simpa [unpackMantissa] using congrArg BitVec.toNat hzero
    omega
  have hnan := hvalid.eq_packedNaN hexponent hmantissa
  have hsame : x.toBits = UInt64.ofNat (infinityBits + (1 <<< 51)) :=
    UInt64.toBitVec_inj.1 (hnan.trans (by decide))
  calc x = Float.ofBits x.toBits := (ofBits_toBits x).symm
    _ = ofMagnitude false (infinityBits + (1 <<< 51)) := by
      rw [hsame]
      rfl

theorem magnitude_ofMagnitude (negative : Bool) {bits : Nat} (h : bits ≤ infinityBits) :
    magnitude (ofMagnitude negative bits) = bits := by
  have hlt : bits < 2 ^ 63 := by
    rw [infinityBits_eq] at h
    omega
  have hvalue : (UInt64.ofNat (if negative then (1 <<< 63) + bits else bits)).toNat % 2 ^ 63 =
      bits := by
    rw [UInt64.toNat_ofNat', Nat.shiftLeft_eq]
    split_ifs <;> omega
  rw [magnitude, ofMagnitude, toBits_ofBits (hvalue.symm ▸ h)]
  exact hvalue

/-- Bits that differ in the sign only are unpacked to opposite numbers. -/
theorem unpack_eq_neg {b b' : BitVec Format.binary64.numBits}
    (hexponent : unpackExponent b' = unpackExponent b) (hmantissa : unpackMantissa b' = unpackMantissa b)
    (hsign : Sign.ofBitVec (unpackSign b') = -Sign.ofBitVec (unpackSign b)) :
    unpack Format.binary64 b' = (unpack Format.binary64 b).neg := by
  unfold unpack
  simp only [hexponent, hmantissa, hsign]
  split_ifs <;> rfl

/-- The minus sign sets the sign bit. -/
theorem neg_ofMagnitude {bits : Nat} (h : bits ≤ infinityBits) :
    -(ofMagnitude false bits) = ofMagnitude true bits := by
  have hlt : bits < 2 ^ 63 := by
    rw [infinityBits_eq] at h
    omega
  have hsign : (1 : Nat) <<< 63 = 2 ^ 63 := rfl
  generalize hplus : (UInt64.ofNat bits).toBitVec = plus
  generalize hminus : (UInt64.ofNat (1 <<< 63 + bits)).toBitVec = minus
  have hplusNat : plus.toNat = bits := by
    rw [← hplus, UInt64.toNat_toBitVec, UInt64.toNat_ofNat']
    omega
  have hminusNat : minus.toNat = 2 ^ 63 + bits := by
    rw [← hminus, UInt64.toNat_toBitVec, UInt64.toNat_ofNat', hsign]
    omega
  have hvalid : Format.binary64.Valid plus := valid_of_le (by omega)
  -- The two words of bits have the same exponent and mantissa, and opposite signs.
  have hunpack : unpack Format.binary64 minus = (unpack Format.binary64 plus).neg := by
    refine unpack_eq_neg ?_ ?_ ?_
    · apply BitVec.eq_of_toNat_eq
      simp [unpackExponent, Nat.shiftRight_eq_div_pow]
      omega
    · apply BitVec.eq_of_toNat_eq
      simp [unpackMantissa]
      omega
    · have hone : @unpackSign Format.binary64 minus = 1#1 := by
        apply BitVec.eq_of_toNat_eq
        simp [unpackSign, Nat.shiftRight_eq_div_pow]
        omega
      have hzero : @unpackSign Format.binary64 plus = 0#1 := by
        apply BitVec.eq_of_toNat_eq
        simp [unpackSign, Nat.shiftRight_eq_div_pow]
        omega
      rw [hone, hzero]
      rfl
  -- Negation packs anew, which changes nothing in valid bits.
  show Float.ofModel (Float.Model.pack (unpack Format.binary64
      (pack Format.binary64 (unpack Format.binary64 (UInt64.ofNat bits).toBitVec))).neg) =
    Float.ofModel (Float.Model.pack
      (unpack Format.binary64 (UInt64.ofNat (1 <<< 63 + bits)).toBitVec))
  rw [hplus, hminus, pack_unpack hvalid, hunpack]
end SheetScript.Number
