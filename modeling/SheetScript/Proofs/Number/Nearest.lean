import Mathlib
import SheetScript.Number.Format
import SheetScript.Proofs.Number.Bits

/-!
# The nearest double

`nearest` depends on the value of a fraction alone (`nearest_mul`), sends a fraction below half of
the smallest double to zero (`nearest_eq_zero`), a fraction beyond all doubles to infinity
(`nearest_eq_infinityBits`) and a fraction that equals a finite double to that double
(`nearest_eq_of_scaled`). So every decimal that `shortest` gives reads back as its double
(`toBits_shortest`), the exact decimal behind the search included.
-/

namespace SheetScript.Number

theorem unitsPerOne_eq : unitsPerOne = 2 ^ 1074 := by
  unfold unitsPerOne
  generalize 1074 = places
  exact Nat.one_shiftLeft places

theorem unitsPerOne_pos : 0 < unitsPerOne := by
  rw [unitsPerOne_eq]
  apply Nat.two_pow_pos

theorem powerOfTen_eq (exponent : Nat) : powerOfTen exponent = 5 ^ exponent * 2 ^ exponent := by
  rw [← Nat.mul_pow]
  rfl

/-! ## Fractions -/

theorem roundHalfEven_mul_mul (a b : Nat) {k : Nat} (hk : 0 < k) :
    roundHalfEven (a * k) (b * k) = roundHalfEven a b := by
  have hlow : 2 * (a * k % (b * k)) < b * k ↔ 2 * (a % b) < b := by
    rw [Nat.mul_mod_mul_right, ← Nat.mul_assoc, Nat.mul_lt_mul_right hk]
  have hhigh : b * k < 2 * (a * k % (b * k)) ↔ b < 2 * (a % b) := by
    rw [Nat.mul_mod_mul_right, ← Nat.mul_assoc, Nat.mul_lt_mul_right hk]
  simp only [roundHalfEven, hlow, hhigh, Nat.mul_div_mul_right a b hk]

theorem nearest_mul (num den : Nat) {k : Nat} (hk : 0 < k) :
    nearest (num * k) (den * k) = nearest num den := by
  have hunits : num * k * unitsPerOne = num * unitsPerOne * k := by ring
  have hshift : ∀ shift, (den * k) <<< shift = den <<< shift * k := by
    intro shift
    rw [Nat.shiftLeft_eq, Nat.shiftLeft_eq]
    ring
  simp only [nearest, hunits, hshift, Nat.mul_div_mul_right _ _ hk, roundHalfEven_mul_mul _ _ hk]

theorem nearest_eq_nearest {num den num' den' : Nat} (hden : 0 < den) (hden' : 0 < den')
    (h : num * den' = num' * den) : nearest num den = nearest num' den' := by
  rw [← nearest_mul num den hden', ← nearest_mul num' den' hden, h, Nat.mul_comm den den']

theorem nearest_eq_zero {num den : Nat} (h : 2 * (num * unitsPerOne) < den) :
    nearest num den = 0 := by
  have hdiv : num * unitsPerOne / den = 0 := Nat.div_eq_of_lt (by omega)
  have hmod : num * unitsPerOne % den = num * unitsPerOne := Nat.mod_eq_of_lt (by omega)
  simp only [nearest, hdiv, Nat.log2_zero, Nat.zero_sub, Nat.zero_shiftLeft, Nat.shiftLeft_zero,
    roundHalfEven, hmod, if_pos h, Nat.zero_add, Nat.min_zero]

/-! ## Doubles -/

/-- The double with the given bits, as its mantissa and how far that is shifted. -/
theorem scaled_cases (bits : Nat) :
    (bits >>> 52 = 0 ∧ scaled bits = bits ∧ bits < 2 ^ 52) ∨
    ∃ shift mantissa, scaled bits = mantissa <<< shift ∧ 2 ^ 52 ≤ mantissa ∧ mantissa < 2 ^ 53 ∧
      bits = (shift <<< 52) + mantissa := by
  have hsplit := Nat.div_add_mod bits (2 ^ 52)
  have hlt := Nat.mod_lt bits (show 0 < 2 ^ 52 by decide)
  simp only [scaled, Nat.shiftRight_eq_div_pow, Nat.one_shiftLeft]
  by_cases hexponent : bits / 2 ^ 52 = 0
  · left
    rw [if_pos hexponent]
    omega
  · right
    rw [if_neg hexponent]
    refine ⟨bits / 2 ^ 52 - 1, 2 ^ 52 + bits % 2 ^ 52, rfl, by omega, by omega, ?_⟩
    rw [Nat.shiftLeft_eq]
    omega

/-- A fraction that equals a finite double has it as the nearest one. -/
theorem nearest_eq_of_scaled {bits num den : Nat} (hbits : bits < infinityBits) (hden : 0 < den)
    (h : num * unitsPerOne = scaled bits * den) : nearest num den = bits := by
  have hinf := infinityBits_eq
  simp only [nearest, h, Nat.mul_div_cancel _ hden]
  rcases scaled_cases bits with ⟨-, hscaled, hlt⟩ | ⟨shift, mantissa, hscaled, hle, hlt, heq⟩
  · have hlog : bits.log2 - 52 = 0 := by
      by_cases hzero : bits = 0
      · simp [hzero]
      · have := (Nat.log2_lt hzero).2 hlt
        omega
    rw [hscaled, hlog, Nat.shiftLeft_zero, roundHalfEven_mul _ hden, Nat.zero_shiftLeft,
      Nat.zero_add, Nat.min_eq_right (Nat.le_of_lt hbits)]
  · have hlog : (mantissa <<< shift).log2 - 52 = shift := by
      have hne : mantissa ≠ 0 := by omega
      have hpos := Nat.two_pow_pos shift
      rw [Nat.shiftLeft_eq, (Nat.log2_eq_iff (Nat.mul_ne_zero hne (by omega))).2,
        Nat.add_sub_cancel_left]
      rw [Nat.add_right_comm, Nat.pow_add, Nat.pow_add]
      exact ⟨Nat.mul_le_mul_right _ hle, Nat.mul_lt_mul_of_pos_right hlt hpos⟩
    have hround : roundHalfEven (mantissa <<< shift * den) (den <<< shift) = mantissa := by
      have hfactor : mantissa <<< shift * den = mantissa * den <<< shift := by
        rw [Nat.shiftLeft_eq, Nat.shiftLeft_eq]
        ring
      rw [hfactor, roundHalfEven_mul]
      rw [Nat.shiftLeft_eq]
      exact Nat.mul_pos hden (Nat.two_pow_pos shift)
    rw [hscaled, hlog, hround, ← heq, Nat.min_eq_right (Nat.le_of_lt hbits)]

theorem nearest_le (num den : Nat) : nearest num den ≤ infinityBits := Nat.min_le_left _ _

/-- A fraction beyond all finite doubles goes to infinity. -/
theorem nearest_eq_infinityBits {num den : Nat} (hden : 0 < den) (h : 2 ^ 1024 * den ≤ num) :
    nearest num den = infinityBits := by
  -- The power is kept as a variable, so that it is never computed.
  obtain ⟨top, htop⟩ : ∃ top, top = 1024 + 1074 := ⟨_, rfl⟩
  have hunits : 2 ^ top ≤ num * unitsPerOne / den := by
    rw [Nat.le_div_iff_mul_le hden, unitsPerOne_eq]
    calc 2 ^ top * den = 2 ^ 1024 * den * 2 ^ 1074 := by
          rw [Nat.mul_right_comm, ← Nat.pow_add, htop]
      _ ≤ num * 2 ^ 1074 := Nat.mul_le_mul_right _ h
  have hne : num * unitsPerOne / den ≠ 0 :=
    ((pow_pos Nat.two_pos _).trans_le hunits).ne'
  have hlog : top ≤ (num * unitsPerOne / den).log2 := (Nat.le_log2 hne).2 hunits
  have hself := Nat.log2_self_le hne
  simp only [nearest]
  generalize (num * unitsPerOne / den).log2 = log at hlog hself
  obtain ⟨shift, rfl⟩ : ∃ shift, log = shift + 52 := ⟨log - 52, by omega⟩
  have hround : 2 ^ 52 ≤ roundHalfEven (num * unitsPerOne) (den <<< shift) := by
    have hquotient : 2 ^ 52 ≤ num * unitsPerOne / den <<< shift := by
      rw [Nat.shiftLeft_eq, ← Nat.div_div_eq_div_mul,
        Nat.le_div_iff_mul_le (Nat.two_pow_pos shift), ← Nat.pow_add, Nat.add_comm]
      exact hself
    unfold roundHalfEven
    dsimp only
    split_ifs <;> omega
  rw [Nat.add_sub_cancel, Nat.shiftLeft_eq, Nat.min_eq_left]
  rw [infinityBits_eq]
  omega

/-- The exact decimal of a finite double reads back. -/
theorem toBits_exactDecimal {bits : Nat} (hbits : bits < infinityBits) :
    (exactDecimal bits).toBits = bits := by
  have hten : powerOfTen 1074 = 5 ^ 1074 * unitsPerOne := by
    rw [powerOfTen_eq, unitsPerOne_eq]
  have hfive : powerOfTen 1074 / unitsPerOne = 5 ^ 1074 := by
    rw [hten, Nat.mul_div_cancel _ unitsPerOne_pos]
  apply nearest_eq_of_scaled hbits
  · exact Nat.pow_pos (by decide)
  · show scaled bits * (powerOfTen 1074 / unitsPerOne) * unitsPerOne = scaled bits * powerOfTen 1074
    rw [hfive, hten, Nat.mul_assoc]

/-- The shortest decimal of a finite double reads back. -/
theorem toBits_shortest {bits : Nat} (hbits : bits < infinityBits) :
    (shortest bits).toBits = bits := by
  unfold shortest
  split_ifs with hzero
  · subst hzero
    apply nearest_eq_of_scaled hbits
    · exact Nat.pow_pos (by decide)
    · rw [Nat.zero_mul]
      exact (Nat.zero_mul _).symm
  · cases hsearch : searchGrids bits with
    | none => exact toBits_exactDecimal hbits
    | some d => exact toBits_of_searchGrids hsearch

end SheetScript.Number
