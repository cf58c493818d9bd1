import SheetScript.Number.Format
import SheetScript.Number.Read
import SheetScript.Proofs.Number.Bits
import SheetScript.Proofs.Number.Nearest
import SheetScript.Proofs.Text.Character

/-!
# Numbers read back

The text of a finite double is an optional minus sign and digits with at most one point among them
(`exists_positional_eq`), and it reads back as the same double (`read?_format`): the digits of a
decimal stand for the fraction that they were made from, and the decimal chosen for a double is
nearest to no other. Of a whole number all rows of digits are the same up to zeros in front
(`toDigits_valueOfRow`).
-/

namespace SheetScript.Number

/-! ## Rows of digits -/

@[simp] theorem ofDigits_nil : ofDigits [] = 0 := by
  simp [ofDigits_eq]

@[simp] theorem ofDigits_toDigits (n : Nat) : ofDigits (Nat.toDigits 10 n) = n := by
  simp [ofDigits_eq]

theorem valueOfRow_toDigits (n : Nat) : valueOfRow 10 digitValue (Nat.toDigits 10 n) = n := by
  rw [← positionalValue_eq]
  exact ofDigits_toDigits n

theorem ofDigits_append (high low : List Char) :
    ofDigits (high ++ low) = ofDigits high * 10 ^ low.length + ofDigits low := by
  simp only [ofDigits, positionalValue_eq]
  exact valueOfRow_append 10 digitValue high low

@[simp] theorem ofDigits_replicate_zero (zeros : Nat) : ofDigits (List.replicate zeros '0') = 0 := by
  simp [ofDigits_eq]

theorem digitValue_lt {c : Char} (h : c.isDigit = true) : digitValue c < 10 := by
  rw [Text.isDigit_iff] at h
  show c.toNat - 48 < 10
  omega

theorem toDigits_digitValue {c : Char} (h : c.isDigit = true) :
    Nat.toDigits 10 (digitValue c) = [c] := by
  have hlt := digitValue_lt h
  have hchar : (digitValue c).digitChar = c := by
    apply Char.toNat_inj.1
    rw [Nat.toNat_digitChar_of_lt_ten hlt]
    rw [Text.isDigit_iff] at h
    show 48 + (c.toNat - 48) = c.toNat
    omega
  rw [Nat.toDigits_of_lt_base hlt, hchar]

theorem ofDigits_lt {cs : List Char} (h : ∀ c ∈ cs, c.isDigit = true) :
    ofDigits cs < 10 ^ cs.length := by
  induction cs with
  | nil => simp [ofDigits_nil]
  | cons c cs ih =>
    have hfirst : ofDigits [c] < 10 := by
      rw [ofDigits_eq, Nat.ofDigitChars_cons, Nat.ofDigitChars_nil, Nat.mul_zero, Nat.zero_add]
      exact digitValue_lt (h c List.mem_cons_self)
    have hrest := ih fun d hd => h d (List.mem_cons_of_mem c hd)
    calc ofDigits (c :: cs) = ofDigits [c] * 10 ^ cs.length + ofDigits cs :=
          ofDigits_append [c] cs
      _ < ofDigits [c] * 10 ^ cs.length + 10 ^ cs.length := by omega
      _ = (ofDigits [c] + 1) * 10 ^ cs.length := by ring
      _ ≤ 10 * 10 ^ cs.length := Nat.mul_le_mul_right _ (by omega)
      _ = 10 ^ (c :: cs).length := by rw [List.length_cons]; ring

theorem isDigit_toDigits {n : Nat} : ∀ c ∈ Nat.toDigits 10 n, c.isDigit = true :=
  fun _ h => Nat.isDigit_of_mem_toDigits (by decide) (by decide) h

/-- Digits that follow a number other than zero are the digits of the number that both make up. -/
theorem toDigits_foldl {cs : List Char} (hcs : ∀ c ∈ cs, c.isDigit = true) {start : Nat}
    (hstart : 0 < start) :
    Nat.toDigits 10 (cs.foldl (fun n c => 10 * n + digitValue c) start) =
      Nat.toDigits 10 start ++ cs := by
  induction cs generalizing start with
  | nil => simp
  | cons c cs ih =>
    obtain ⟨hc, hcs⟩ := List.forall_mem_cons.1 hcs
    have hjoin := Nat.toDigits_append_toDigits (by decide) hstart (digitValue_lt hc)
    rw [List.foldl_cons, ih hcs (by omega), ← hjoin, toDigits_digitValue hc]
    simp

/-- The digits of a number are those of any row that stands for it, without the zeros in front. -/
theorem toDigits_valueOfRow {cs : List Char} (hcs : ∀ c ∈ cs, c.isDigit = true)
    (hpos : 0 < valueOfRow 10 digitValue cs) :
    Nat.toDigits 10 (valueOfRow 10 digitValue cs) = cs.dropWhile (· == '0') := by
  induction cs with
  | nil => exact absurd hpos (Nat.lt_irrefl 0)
  | cons c cs ih =>
    obtain ⟨hc, hrest⟩ := List.forall_mem_cons.1 hcs
    by_cases hzero : c = '0'
    · subst hzero
      have hvalue : valueOfRow 10 digitValue ('0' :: cs) = valueOfRow 10 digitValue cs := rfl
      rw [hvalue] at hpos ⊢
      simpa using ih hrest hpos
    · have hfirst : 0 < digitValue c := by
        have hne : c.toNat ≠ 48 := fun h => hzero (Char.toNat_inj.1 h)
        have hbounds := Text.isDigit_iff.1 hc
        show 0 < c.toNat - 48
        omega
      have hvalue : valueOfRow 10 digitValue (c :: cs) =
          cs.foldl (fun n c => 10 * n + digitValue c) (digitValue c) := by
        rw [valueOfRow, List.foldl_cons, Nat.mul_zero, Nat.zero_add]
      rw [hvalue, toDigits_foldl hrest hfirst, toDigits_digitValue hc]
      simp [hzero]

/-! ## The digits of a decimal -/

/-- Zeros at the end are all that is left out. -/
theorem exists_eq_append_zeros (cs : List Char) :
    ∃ zeros, (cs.reverse.dropWhile (· == '0')).reverse ++ List.replicate zeros '0' = cs := by
  refine ⟨(cs.reverse.takeWhile (· == '0')).length, ?_⟩
  have hzeros : cs.reverse.takeWhile (· == '0') =
      List.replicate (cs.reverse.takeWhile (· == '0')).length '0' := by
    apply List.eq_replicate_of_mem
    intro c hc
    simpa using List.mem_takeWhile_imp hc
  apply List.reverse_inj.1
  rw [List.reverse_append, List.reverse_replicate, List.reverse_reverse, ← hzeros,
    List.takeWhile_append_dropWhile]

/-- The digits of a number, with zeros in front up to the given length. -/
def paddedDigits (length n : Nat) : List Char :=
  List.replicate (length - (Nat.toDigits 10 n).length) '0' ++ Nat.toDigits 10 n

theorem isDigit_paddedDigits {length n : Nat} : ∀ c ∈ paddedDigits length n, c.isDigit = true := by
  intro c hc
  rcases List.mem_append.1 hc with hc | hc
  · rw [List.eq_of_mem_replicate hc]
    rfl
  · exact isDigit_toDigits c hc

@[simp] theorem ofDigits_paddedDigits (length n : Nat) : ofDigits (paddedDigits length n) = n := by
  rw [paddedDigits, ofDigits_append, ofDigits_replicate_zero, ofDigits_toDigits, Nat.zero_mul,
    Nat.zero_add]

theorem length_paddedDigits {length n : Nat} (hlength : 0 < length) (hn : n < 10 ^ length) :
    (paddedDigits length n).length = length := by
  have hle := (Nat.length_toDigits_le_iff (by decide) hlength).2 hn
  rw [paddedDigits, List.length_append, List.length_replicate]
  omega

/-- The digits after the point stand for the rest beside the whole part, up to zeros at the end. -/
theorem exists_fractionDigits (d : Decimal) :
    (∀ c ∈ d.fractionDigits, c.isDigit = true) ∧
    ∃ zeros, d.places = d.fractionDigits.length + zeros ∧
      d.digits % powerOfTen d.places = ofDigits d.fractionDigits * 10 ^ zeros := by
  unfold Decimal.fractionDigits
  dsimp only
  by_cases hzero : d.digits % powerOfTen d.places = 0
  · rw [if_pos hzero]
    exact ⟨fun _ h => absurd h List.not_mem_nil, d.places, (Nat.zero_add _).symm,
      by simp [hzero]⟩
  · have hlt : d.digits % powerOfTen d.places < 10 ^ d.places :=
      Nat.mod_lt _ (Nat.pow_pos (by decide))
    have hplaces : 0 < d.places := by
      by_contra h
      rw [Nat.eq_zero_of_not_pos h] at hlt hzero
      omega
    rw [if_neg hzero]
    -- The digits are padded to all the places; what is left out at the end are zeros.
    generalize d.digits % powerOfTen d.places = rest at hlt
    obtain ⟨zeros, hzeros⟩ := exists_eq_append_zeros (paddedDigits d.places rest)
    have hdigits : ∀ c ∈ paddedDigits d.places rest, c.isDigit = true := isDigit_paddedDigits
    refine ⟨fun c hc => hdigits c ?_, zeros, ?_, ?_⟩
    · rw [← hzeros]
      exact List.mem_append_left _ hc
    · have hlength := congrArg List.length hzeros
      rw [length_paddedDigits hplaces hlt, List.length_append, List.length_replicate] at hlength
      exact hlength.symm
    · have hvalue := congrArg ofDigits hzeros
      rw [ofDigits_paddedDigits, ofDigits_append, ofDigits_replicate_zero, List.length_replicate,
        Nat.add_zero] at hvalue
      exact hvalue.symm

/-- The text of a decimal: digits, and after a point more digits if there are any. -/
theorem exists_positional_eq (d : Decimal) :
    ∃ whole fraction, (∀ c ∈ whole, c.isDigit = true) ∧ (∀ c ∈ fraction, c.isDigit = true) ∧
      whole ≠ [] ∧ d.positional = whole ++ (if fraction = [] then [] else '.' :: fraction) ∧
      d.digits * 10 ^ fraction.length = ofDigits (whole ++ fraction) * powerOfTen d.places := by
  obtain ⟨hdigits, zeros, hplaces, hrest⟩ := exists_fractionDigits d
  refine ⟨Nat.toDigits 10 (d.digits / powerOfTen d.places), d.fractionDigits, isDigit_toDigits,
    hdigits, Nat.toDigits_ne_nil, ?_, ?_⟩
  · unfold Decimal.positional
    cases d.fractionDigits with
    | nil => exact (List.append_nil _).symm
    | cons c cs => rfl
  · have hpow : powerOfTen d.places = 10 ^ d.fractionDigits.length * 10 ^ zeros := by
      rw [← Nat.pow_add, ← hplaces]
      rfl
    have hsplit := Nat.div_add_mod d.digits (powerOfTen d.places)
    rw [ofDigits_append, ofDigits_toDigits]
    generalize d.digits / powerOfTen d.places = whole at hsplit ⊢
    calc d.digits * 10 ^ d.fractionDigits.length
        = (powerOfTen d.places * whole + ofDigits d.fractionDigits * 10 ^ zeros) *
            10 ^ d.fractionDigits.length := by rw [← hrest, hsplit]
      _ = (whole * 10 ^ d.fractionDigits.length + ofDigits d.fractionDigits) *
            powerOfTen d.places := by rw [hpow]; ring

theorem count_point_eq_zero {cs : List Char} (h : ∀ c ∈ cs, c.isDigit = true) :
    cs.count '.' = 0 :=
  List.count_eq_zero_of_not_mem fun hmem => by cases h '.' hmem

/-- The text of a decimal begins with a digit and goes on with digits and at most one point. -/
theorem exists_positional_eq_cons (d : Decimal) :
    ∃ first rest, d.positional = first :: rest ∧ first.isDigit = true ∧
      (∀ c ∈ rest, c.isDigit = true ∨ c = '.') ∧ rest.count '.' ≤ 1 := by
  obtain ⟨whole, fraction, hwhole, hfraction, hne, htext, -⟩ := exists_positional_eq d
  obtain ⟨first, rest, rfl⟩ := List.exists_cons_of_ne_nil hne
  obtain ⟨hfirst, hrest⟩ := List.forall_mem_cons.1 hwhole
  rw [List.cons_append] at htext
  refine ⟨first, _, htext, hfirst, ?_, ?_⟩
  · intro c hc
    rcases List.mem_append.1 hc with hc | hc
    · exact Or.inl (hrest c hc)
    · split_ifs at hc
      · cases hc
      · rcases List.mem_cons.1 hc with rfl | hc
        · exact Or.inr rfl
        · exact Or.inl (hfraction c hc)
  · rw [List.count_append, count_point_eq_zero hrest]
    split_ifs
    · simp
    · rw [List.count_cons_self, count_point_eq_zero hfraction]

/-! ## Reading -/

theorem bitsOfDigits_le (digits : List Char) (exponent : Int) :
    bitsOfDigits digits exponent ≤ infinityBits := by
  unfold bitsOfDigits
  dsimp only
  split_ifs
  · exact Nat.zero_le _
  · exact Nat.le_refl _
  · exact Nat.zero_le _
  · exact nearest_le _ _

theorem le_of_readDecimal? {cs : List Char} {bits : Nat} (h : readDecimal? cs = some bits) :
    bits ≤ infinityBits := by
  simp only [readDecimal?] at h
  split_ifs at h
  obtain ⟨exponent, -, rfl⟩ := Option.map_eq_some_iff.1 h
  exact bitsOfDigits_le _ _

/-- Half of the smallest double is far above the fractions that are zero by their exponent. -/
theorem two_mul_unitsPerOne_le {exponent : Nat} (h : extremeExponent ≤ exponent) :
    2 * unitsPerOne ≤ 10 ^ exponent := by
  have hdouble : ∀ n : Nat, 2 * 2 ^ n = 2 ^ (n + 1) := fun _ => Nat.pow_succ'.symm
  calc 2 * unitsPerOne = 2 ^ (1074 + 1) := by rw [unitsPerOne_eq, hdouble]
    _ ≤ 2 ^ (3 * exponent) := by
      apply Nat.pow_le_pow_right (by decide)
      rw [extremeExponent] at h
      omega
    _ = 8 ^ exponent := by rw [Nat.pow_mul]
    _ ≤ 10 ^ exponent := Nat.pow_le_pow_left (by decide) exponent

/-- Digits of which the last `places` stand after the point are read as the fraction they stand
for, also where their number decides alone. -/
theorem bitsOfDigits_neg {digits : List Char} (hdigits : ∀ c ∈ digits, c.isDigit = true)
    (places : Nat) :
    bitsOfDigits digits (-(places : Int)) = nearest (ofDigits digits) (powerOfTen places) := by
  have hpos : 0 < powerOfTen places := Nat.pow_pos (by decide)
  unfold bitsOfDigits
  dsimp only
  by_cases hzero : ofDigits digits = 0
  · rw [if_pos hzero, hzero, nearest_eq_zero]
    rwa [Nat.zero_mul, Nat.mul_zero]
  · rw [if_neg hzero, if_neg (by simp only [extremeExponent]; omega)]
    -- So many places that the number of digits alone tells that the fraction is next to nothing.
    by_cases hsmall : -(places : Int) + digits.length < -extremeExponent
    · rw [if_pos hsmall, nearest_eq_zero]
      simp only [extremeExponent] at hsmall
      obtain ⟨gap, rfl⟩ : ∃ gap, places = digits.length + gap :=
        ⟨places - digits.length, by omega⟩
      have hgap : 400 ≤ gap := by omega
      calc 2 * (ofDigits digits * unitsPerOne) = ofDigits digits * (2 * unitsPerOne) := by ring
        _ ≤ ofDigits digits * 10 ^ gap := Nat.mul_le_mul_left _ (two_mul_unitsPerOne_le hgap)
        _ < 10 ^ digits.length * 10 ^ gap :=
          Nat.mul_lt_mul_of_pos_right (ofDigits_lt hdigits) (Nat.pow_pos (by decide))
        _ = powerOfTen (digits.length + gap) := (Nat.pow_add _ _ _).symm
    · rw [if_neg hsmall, Decimal.ofScaled]
      by_cases hplaces : places = 0
      · subst hplaces
        simp [Decimal.toBits, powerOfTen]
      · rw [if_neg (by omega), Decimal.toBits]
        simp

theorem readDecimal?_of_isDigit {digits : List Char} (hne : digits ≠ [])
    (hdigits : ∀ c ∈ digits, c.isDigit = true) :
    readDecimal? digits = some (nearest (ofDigits digits) 1) := by
  have hend : ∀ c, ([] : List Char).head? = some c → c.isDigit = false := nofun
  have htake := Text.takeWhile_append_of_stop hdigits hend
  have hdrop := Text.dropWhile_append_of_stop hdigits hend
  have hbits : bitsOfDigits digits 0 = nearest (ofDigits digits) 1 := bitsOfDigits_neg hdigits 0
  rw [List.append_nil] at htake hdrop
  simp [readDecimal?, htake, hdrop, hne, hbits]

/-- The text of a decimal reads as the double nearest to it. -/
theorem readDecimal?_positional (d : Decimal) : readDecimal? d.positional = some d.toBits := by
  obtain ⟨whole, fraction, hwhole, hfraction, hne, htext, hvalue⟩ := exists_positional_eq d
  -- All digits together, read with the places behind the point as a negative exponent.
  have hbits : bitsOfDigits (whole ++ fraction) (0 - (fraction.length : Int)) = d.toBits := by
    have hdigits : ∀ c ∈ whole ++ fraction, c.isDigit = true := by
      intro c hc
      rcases List.mem_append.1 hc with hc | hc
      · exact hwhole c hc
      · exact hfraction c hc
    rw [Int.zero_sub, bitsOfDigits_neg hdigits]
    exact (nearest_eq_nearest (Nat.pow_pos (by decide)) (Nat.pow_pos (by decide)) hvalue).symm
  have hempty : whole.isEmpty = false := by simpa using hne
  have hend : ∀ c, ([] : List Char).head? = some c → c.isDigit = false := nofun
  rw [htext]
  by_cases hnil : fraction = []
  · subst hnil
    have htake := Text.takeWhile_append_of_stop hwhole hend
    have hdrop := Text.dropWhile_append_of_stop hwhole hend
    rw [List.append_nil] at htake hdrop
    simp [readDecimal?, htake, hdrop, hempty]
    simpa using hbits
  · rw [if_neg hnil]
    have hpoint : ∀ c, ('.' :: fraction).head? = some c → c.isDigit = false := by
      rintro c ⟨⟩
      rfl
    have htake := Text.takeWhile_append_of_stop hwhole hpoint
    have hdrop := Text.dropWhile_append_of_stop hwhole hpoint
    have htake' := Text.takeWhile_append_of_stop hfraction hend
    have hdrop' := Text.dropWhile_append_of_stop hfraction hend
    rw [List.append_nil] at htake' hdrop'
    simp [readDecimal?, htake, hdrop, htake', hdrop', hempty]
    simpa using hbits

theorem readWord?_eq_none {first : Char} (h : first.isDigit = true) (rest : List Char) :
    readWord? (first :: rest) = none := by
  have hlower : ∀ word : List Char, (∀ c, word.head? = some c → c.isDigit = false) →
      (first :: rest).map Char.toLower ≠ word := by
    intro word hword heq
    subst heq
    have := hword first.toLower rfl
    rw [Text.toLower_of_isDigit h, h] at this
    cases this
  have hinf := hlower "inf".toList (by simp)
  have hinfinity := hlower "infinity".toList (by simp)
  have hnan := hlower "nan".toList (by simp)
  simp only [readWord?, hinf, hinfinity, hnan, decide_false, Bool.or_self, Bool.false_eq_true,
    if_false]

theorem read?_finiteText (negative : Bool) {bits : Nat} (hbits : bits < infinityBits) :
    read? (finiteText negative bits) = some (ofMagnitude negative bits) := by
  obtain ⟨first, rest, htext, hfirst, -⟩ := exists_positional_eq_cons (shortest bits)
  have hread := readDecimal?_positional (shortest bits)
  rw [toBits_shortest hbits] at hread
  have hsign : readSign (finiteText negative bits) = (negative, (shortest bits).positional) := by
    unfold finiteText
    cases negative with
    | true => rfl
    | false =>
      rw [htext]
      unfold readSign
      split
      next heq => cases heq; cases hfirst
      next heq => cases heq; cases hfirst
      next => rfl
  have hword : readWord? (shortest bits).positional = none := by
    rw [htext]
    exact readWord?_eq_none hfirst rest
  simp [read?, hsign, hword, hread]

/-- **Numbers read back.** The text of a finite double stands for that double. -/
theorem read?_format {x : Float} (hx : isFinite x = true) :
    read? (format .plain x).toList = some x := by
  have hbits : magnitude x < infinityBits := by simpa [isFinite] using hx
  rw [format, if_pos hbits, String.toList_ofList, read?_finiteText _ hbits, ofMagnitude_magnitude]

/-- The text of a finite double is a digit, or a minus sign before a digit, and then digits with at
most one point. -/
theorem exists_format_eq_cons {x : Float} (hx : isFinite x = true) :
    ∃ c tail, (format .plain x).toList = c :: tail ∧
      (c.isDigit = true ∨ c = '-' ∧ tail.head?.any Char.isDigit = true) ∧
      (∀ d ∈ tail, d.isDigit = true ∨ d = '.') ∧ tail.count '.' ≤ 1 := by
  have hbits : magnitude x < infinityBits := by simpa [isFinite] using hx
  obtain ⟨first, rest, htext, hfirst, hrest, hcount⟩ :=
    exists_positional_eq_cons (shortest (magnitude x))
  rw [format, if_pos hbits, String.toList_ofList, finiteText]
  simp only [htext]
  cases isNegative x with
  | false => exact ⟨first, rest, rfl, Or.inl hfirst, hrest, hcount⟩
  | true =>
    refine ⟨'-', first :: rest, rfl, Or.inr ⟨rfl, by simpa using hfirst⟩, ?_, ?_⟩
    · exact List.forall_mem_cons.2 ⟨Or.inl hfirst, hrest⟩
    · have hpoint : first ≠ '.' := by
        rintro rfl
        cases hfirst
      rwa [List.count_cons_of_ne hpoint]

end SheetScript.Number
