/-
The digits of a floating-point number. The decimal that is chosen for a number lies between the
midpoints to its neighbours, and so it is read back as that number.
-/
import OccurrenceQuery.Number.Layout
import OccurrenceQuery.Proofs.Number.Decimals

namespace OccurrenceQuery.Number

open OccurrenceQuery.Text Float.Model Float.Model.UnpackedFloat

/-! ## Fields -/

section

variable {x : Float} {s : Sign} {m : ℕ} {e : ℤ} {h : 0 < m}

theorem toNat_exponentField (x : Float) : ((x.toBits >>> 52) &&& 0x7FF).toNat =
    (@unpackExponent Format.binary64 x.toBits.toBitVec).toNat := by
  rw [unpackExponent_def, BitVec.extractLsb'_toNat, UInt64.toNat_and, UInt64.toNat_shiftRight]
  exact Nat.and_two_pow_sub_one_eq_mod _ 11

theorem toNat_fractionField (x : Float) : (x.toBits &&& 0xFFFFFFFFFFFFF).toNat =
    (@unpackMantissa Format.binary64 x.toBits.toBitVec).toNat := by
  rw [unpackMantissa_def, BitVec.extractLsb'_toNat, UInt64.toNat_and]
  exact Nat.and_two_pow_sub_one_eq_mod _ 52

theorem signField_eq_one_iff (x : Float) : x.toBits >>> 63 = 1 ↔
    Sign.ofBitVec (@unpackSign Format.binary64 x.toBits.toBitVec) = .negative := by
  have hcode : x.toBits.toNat < 2 ^ 64 := x.toBits.toNat_lt
  have hshift : (x.toBits >>> 63).toNat = x.toBits.toNat >>> 63 := UInt64.toNat_shiftRight ..
  have hsign : (@unpackSign Format.binary64 x.toBits.toBitVec).toNat = x.toBits.toNat >>> 63 := by
    rw [unpackSign_def, BitVec.extractLsb'_toNat]
    refine Nat.mod_eq_of_lt ?_
    rw [Nat.shiftRight_eq_div_pow]
    exact Nat.div_lt_of_lt_mul hcode
  rw [← UInt64.toNat_inj, hshift, ← hsign]
  generalize @unpackSign Format.binary64 x.toBits.toBitVec = bit
  rcases BitVec.eq_zero_or_eq_one bit with rfl | rfl <;> simp [Sign.ofBitVec]

/-- The magnitude of a number is taken from its fields as it is unpacked. -/
theorem ofFloat_of_unpack (hunpack : x.toModel.unpack = .finite s m e h) :
    Binary.ofFloat x = ⟨m, e, decide (m = 2 ^ 52 ∧ -1074 < e)⟩ := by
  have hfields := (@fields_of_unpack x.toBits.toBitVec _ _ _ _ hunpack).2
  have hpower : Nat.pow 2 52 = 2 ^ 52 := rfl
  simp only [Binary.ofFloat, ← toNat_exponentField, ← toNat_fractionField, hpower] at hfields ⊢
  generalize (x.toBits &&& 0xFFFFFFFFFFFFF).toNat = fraction at hfields ⊢
  generalize ((x.toBits >>> 52) &&& 0x7FF).toNat = field at hfields ⊢
  rcases hfields with ⟨rfl, rfl, rfl⟩ | ⟨hfield, rfl, rfl⟩
  · simp
  · have htight : (fraction == 0 && decide (1 < field)) =
        decide (2 ^ 52 + fraction = 2 ^ 52 ∧ (-1074 : ℤ) < field - 1075) := by
      rw [Bool.eq_iff_iff, Bool.and_eq_true, beq_iff_eq, decide_eq_true_iff, decide_eq_true_iff]
      omega
    rw [if_neg hfield.ne', htight]

end

/-! ## Comparison -/

theorem compareBinary_eq (d : Decimal) (n : ℕ) (e : ℤ) :
    d.compareBinary n e = compare d.value (n * 2 ^ e) := by
  have hpos : (0 : ℚ) < 10 ^ (-d.exponent).toNat * 2 ^ (-e).toNat := by positivity
  have hcast : StrictMono (Nat.cast : ℕ → ℚ) := Nat.strictMono_cast
  have hscale : StrictMono fun q : ℚ => q * (10 ^ (-d.exponent).toNat * 2 ^ (-e).toNat) :=
    fun q t h => mul_lt_mul_of_pos_right h hpos
  have hleft : d.value * (10 ^ (-d.exponent).toNat * 2 ^ (-e).toNat) =
      (d.digits * 10 ^ d.exponent.toNat * 2 ^ (-e).toNat : ℕ) := by
    rw [Decimal.value, zpow_eq_div (by norm_num)]
    push_cast
    field_simp
  have hright : (n : ℚ) * 2 ^ e * (10 ^ (-d.exponent).toNat * 2 ^ (-e).toNat) =
      (n * 2 ^ e.toNat * 10 ^ (-d.exponent).toNat : ℕ) := by
    rw [zpow_eq_div (by norm_num)]
    push_cast
    field_simp
  rw [← cmp_eq_compare, ← hscale.cmp_map_eq, hleft, hright, hcast.cmp_map_eq, cmp_eq_compare]
  rfl

/-- The digits that read back are the decimals between the midpoints. -/
theorem attracts_iff {b : Binary} {d : Decimal} (hpos : 0 < b.mantissa)
    (htight : b.tightBelow = decide (b.mantissa = 2 ^ 52 ∧ -1074 < b.exponent)) :
    b.attracts d = true ↔ IsAttracted b.mantissa b.exponent d.value := by
  have hplace := two_zpow_pos b.exponent
  have hcompare : ∀ {n : ℕ} {midpoint : ℚ}, (n : ℚ) / 4 = midpoint →
      d.compareBinary n (b.exponent - 2) = compare (d.value / 2 ^ b.exponent) midpoint := by
    rintro n midpoint rfl
    have hscale : StrictMono fun q : ℚ => q / 2 ^ b.exponent :=
      fun q t h => div_lt_div_of_pos_right h hplace
    rw [compareBinary_eq, ← quarters_div n b.exponent, ← cmp_eq_compare, ← hscale.cmp_map_eq,
      cmp_eq_compare]
  have hlower : (((if b.tightBelow then 4 * b.mantissa - 1 else 4 * b.mantissa - 2 : ℕ) : ℚ)) / 4 =
      lowerMidpoint b.mantissa b.exponent := by
    have hfits : 2 ≤ 4 * b.mantissa := by omega
    simp only [htight, lowerMidpoint, decide_eq_true_eq]
    split <;> push_cast [Nat.cast_sub (one_le_two.trans hfits), Nat.cast_sub hfits] <;> ring
  have hupper : ((4 * b.mantissa + 2 : ℕ) : ℚ) / 4 = b.mantissa + 1 / 2 := by
    push_cast
    ring
  simp only [Binary.attracts, hcompare hlower, hcompare hupper, IsAttracted, Bool.and_eq_true,
    Bool.or_eq_true, beq_iff_eq, compare_lt_iff_lt, compare_gt_iff_gt, compare_eq_iff_eq,
    Nat.even_iff, eq_comm (a := lowerMidpoint b.mantissa b.exponent)]

/-! ## The choice -/

section

variable {b : Binary} {d : Decimal}

theorem attracts_of_nearest? {tie : TieRule} {e : ℤ} (h : b.nearest? tie e = some d) :
    b.attracts d = true := by
  unfold Binary.nearest? at h
  extract_lets numerator denominator lower upper nearLower at h
  split at h
  · rename_i hlower hupper
    obtain rfl := Option.some.inj h
    rcases ite_eq_or_eq (nearLower = true) lower upper with hchoice | hchoice <;> rw [hchoice]
    · exact hlower
    · exact hupper
  · rename_i hlower hupper
    exact Option.some.inj h ▸ hlower
  · rename_i hlower hupper
    exact Option.some.inj h ▸ hupper
  · cases h

theorem value_exact (b : Binary) : b.exact.value = b.mantissa * 2 ^ b.exponent := by
  have htwo : ∀ k, Nat.pow 2 k = 2 ^ k := fun _ => rfl
  have hfive : ∀ k, Nat.pow 5 k = 5 ^ k := fun _ => rfl
  simp only [Binary.exact, htwo, hfive]
  split
  · rename_i hsign
    obtain ⟨k, hk⟩ := Int.eq_ofNat_of_zero_le hsign
    simp [Decimal.value, hk]
  · rename_i hsign
    obtain ⟨k, hk⟩ : ∃ k : ℕ, b.exponent = -k := ⟨(-b.exponent).toNat, by omega⟩
    have hten : (10 : ℚ) ^ k = 5 ^ k * 2 ^ k := by rw [← mul_pow]; norm_num
    simp only [Decimal.value, hk, neg_neg, Int.toNat_natCast, zpow_neg, zpow_natCast, hten]
    push_cast
    field_simp

/-- The digits that are chosen are digits that read back. -/
theorem isAttracted_shortest (hpos : 0 < b.mantissa)
    (htight : b.tightBelow = decide (b.mantissa = 2 ^ 52 ∧ -1074 < b.exponent)) (tie : TieRule) :
    IsAttracted b.mantissa b.exponent (b.shortest tie).value := by
  simp only [Binary.shortest]
  cases hfound : (List.range 17).findSome? fun (n : ℕ) => b.nearest? tie (b.places - 1 - n) with
  | none =>
    rw [Option.getD_none, value_exact]
    exact isAttracted_self _ _
  | some d =>
    obtain ⟨n, -, hn⟩ := List.exists_of_findSome?_eq_some hfound
    exact (attracts_iff hpos htight).1 (attracts_of_nearest? hn)

end

/-! ## Layout -/

section

variable {d : Decimal} {digits : List Char} {place : ℤ}

theorem exists_zeros (d : Decimal) :
    ∃ k, numeral d.digits = d.significant.1 ++ List.replicate k '0' := by
  have hzeros : (numeral d.digits).reverse.takeWhile (· == '0') =
      List.replicate ((numeral d.digits).reverse.takeWhile (· == '0')).length '0' :=
    List.eq_replicate_of_mem fun c hc => by simpa using List.mem_takeWhile_imp hc
  refine ⟨((numeral d.digits).reverse.takeWhile (· == '0')).length, ?_⟩
  rw [← List.reverse_replicate, ← hzeros]
  simp only [Decimal.significant, ← List.reverse_append, List.takeWhile_append_dropWhile,
    List.reverse_reverse]

/-- The significant digits with their point stand for the decimal. -/
theorem value_significant (d : Decimal) :
    (numeralValue d.significant.1 : ℚ) * 10 ^ (d.significant.2 - d.significant.1.length) = d.value := by
  obtain ⟨k, hk⟩ := exists_zeros d
  have hplace : d.significant.2 - d.significant.1.length = k + d.exponent := by
    have hlength : ((numeral d.digits).length : ℤ) = d.significant.1.length + k := by
      rw [hk, List.length_append, List.length_replicate, Nat.cast_add]
    have hsecond : d.significant.2 = (numeral d.digits).length + d.exponent := rfl
    omega
  have hvalue : d.digits = 10 ^ k * numeralValue d.significant.1 := by
    rw [← numeralValue_numeral d.digits, hk, numeralValue_append, List.length_replicate,
      numeralValue_replicate_zero, Nat.add_zero]
  rw [hplace, zpow_add₀ (by norm_num), zpow_natCast, Decimal.value, hvalue]
  push_cast
  ring

theorem isDigit_of_mem_significant {c : Char} (h : c ∈ d.significant.1) : c.isDigit = true := by
  obtain ⟨k, hk⟩ := exists_zeros d
  refine isDigit_of_mem_numeral (n := d.digits) ?_
  rw [hk]
  exact List.mem_append_left _ h

theorem isDigit_of_mem_zeros {k : ℕ} {c : Char} (h : c ∈ List.replicate k '0') : c.isDigit = true := by
  rw [List.eq_of_mem_replicate h]
  rfl

/-- Digits with their point are laid out as a whole part and a fraction, or without the point when there
is no fraction. -/
theorem exists_parts_fixed (hdigits : ∀ c ∈ digits, c.isDigit = true) (place : ℤ) :
    ∃ whole fraction : List Char, whole ≠ [] ∧ (∀ c ∈ whole, c.isDigit = true) ∧
      (∀ c ∈ fraction, c.isDigit = true) ∧
      (plain.fixed digits place = whole ∧ fraction = [] ∨
        plain.fixed digits place = whole ++ '.' :: fraction) ∧
      (numeralValue (whole ++ fraction) : ℚ) * 10 ^ (-fraction.length : ℤ) =
        numeralValue digits * 10 ^ (place - digits.length) := by
  unfold Layout.fixed
  split
  · rename_i hplace
    obtain ⟨k, rfl⟩ : ∃ k : ℕ, place = -k := ⟨(-place).toNat, by omega⟩
    rw [neg_neg, Int.toNat_natCast]
    refine ⟨['0'], List.replicate k '0' ++ digits, by decide, List.forall_mem_singleton.2 rfl, ?_,
      .inr rfl, ?_⟩
    · exact List.forall_mem_append.2 ⟨fun c => isDigit_of_mem_zeros, hdigits⟩
    · have hzero : numeralValue ['0'] = 0 := rfl
      simp only [numeralValue_append, hzero, numeralValue_replicate_zero, List.length_append,
        List.length_replicate, Nat.mul_zero, Nat.zero_add, Nat.cast_add, neg_add, ← sub_eq_add_neg]
  split
  · rename_i hplace hlength
    obtain ⟨k, rfl⟩ : ∃ k : ℕ, place = digits.length + k := ⟨place.toNat - digits.length, by omega⟩
    have hcount : ((digits.length : ℤ) + k).toNat - digits.length = k := by omega
    rw [hcount]
    refine ⟨digits ++ List.replicate k '0', [], ?_, ?_, List.forall_mem_nil _, .inl ⟨?_, rfl⟩, ?_⟩
    · intro hnil
      have hlen := congrArg List.length hnil
      rw [List.length_append, List.length_replicate, List.length_nil] at hlen
      omega
    · exact List.forall_mem_append.2 ⟨hdigits, fun c => isDigit_of_mem_zeros⟩
    · simp [plain]
    · rw [List.append_nil, numeralValue_append, numeralValue_replicate_zero, List.length_replicate,
        add_sub_cancel_left, zpow_natCast]
      simp
      ring
  · rename_i hplace hlength
    refine ⟨digits.take place.toNat, digits.drop place.toNat, ?_, ?_, ?_, .inr rfl, ?_⟩
    · intro hnil
      have hlen := congrArg List.length hnil
      rw [List.length_take, List.length_nil] at hlen
      omega
    · exact fun c hc => hdigits c (List.mem_of_mem_take hc)
    · exact fun c hc => hdigits c (List.mem_of_mem_drop hc)
    · rw [List.take_append_drop, List.length_drop, Nat.cast_sub (by omega), Int.toNat_of_nonneg (by omega),
        neg_sub]

/-- What is laid out is read as the decimal that the digits stand for. -/
theorem exists_readFloat?_fixed (hdigits : ∀ c ∈ digits, c.isDigit = true) (place : ℤ) :
    ∃ d : Decimal, d.value = numeralValue digits * 10 ^ (place - digits.length) ∧
      readFloat? (plain.fixed digits place) = some d.toFloat ∧
      readFloat? ('-' :: plain.fixed digits place) = some (-d.toFloat) := by
  obtain ⟨whole, fraction, hne, hwhole, hfraction, hparts, hvalue⟩ := exists_parts_fixed hdigits place
  refine ⟨⟨numeralValue (whole ++ fraction), -fraction.length⟩, hvalue, ?_⟩
  have hdecimal : readDecimal? (plain.fixed digits place) =
      some ⟨numeralValue (whole ++ fraction), -fraction.length⟩ := by
    rcases hparts with ⟨hfixed, rfl⟩ | hfixed <;> rw [hfixed]
    · rw [readDecimal?_digits hne hwhole, List.append_nil]
      rfl
    · exact readDecimal?_point hne hwhole hfraction
  obtain ⟨c, rest, hhead, hc⟩ : ∃ c rest, plain.fixed digits place = c :: rest ∧ c.isDigit = true := by
    obtain ⟨c, rest, rfl⟩ := List.exists_cons_of_ne_nil hne
    have hc := hwhole c List.mem_cons_self
    rcases hparts with ⟨hfixed, -⟩ | hfixed
    · exact ⟨c, rest, hfixed, hc⟩
    · exact ⟨c, _, hfixed, hc⟩
  rw [hhead] at hdecimal ⊢
  have hspecial : specialNumber? (asciiLower (c :: rest)) = none := specialNumber?_eq_none_of_digit hc
  have hsign : ∀ d : Char, d.isDigit = false → c ≠ d := by
    rintro d hd rfl
    rw [hd] at hc
    cases hc
  constructor
  · simp [readFloat?, takeSign_cons (hsign '-' rfl) (hsign '+' rfl), hspecial, hdecimal]
  · simp [readFloat?, takeSign, hspecial, hdecimal]

end

end OccurrenceQuery.Number
