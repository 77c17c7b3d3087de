import CqlWorkload.Proofs.Statistic.Modulus

/-!
# The order of rounded moduli

Rounding never exchanges two moduli: the larger one is rounded to a number that is not
smaller, also when it has more digits and therefore a wider bucket
(`roundTo_bucket_mono`).  A modulus that was rounded is rounded to itself
(`roundTo_bucket_self`), although rounding may have added a digit to it.

**Powers of ten.** What separates two moduli with different numbers of digits is a power
of ten.  It is a multiple of the buckets on both of its sides, so neither of the two
roundings passes it.

**Negative significands.** A modulus that is to keep less than one digit is below its
step and becomes that step.  Then rounding again adds digits.
-/

namespace CqlWorkload.Modulus

/-! ## One step -/

section OneStep

variable {step n m : Nat}

/-- A multiple of the step that is not above a number is not passed either. -/
theorem le_roundTo_of_dvd (hs : 0 < step) {bound : Nat} (hd : step ∣ bound) (h : bound ≤ n) :
    bound ≤ roundTo step n := by
  have hsplit := Nat.div_add_mod' n step
  have hrest := Nat.mod_lt n hs
  have hlow : bound ≤ n / step * step := by
    rcases le_or_le_of_dvd n hd with hbound | hbound <;> omega
  rcases roundTo_cases step n with ⟨_, hr⟩ | ⟨_, hr⟩ <;> omega

/-- A multiple of the step is rounded to itself. -/
theorem roundTo_of_dvd (hs : 0 < step) (hd : step ∣ n) (hn : 0 < n) : roundTo step n = n := by
  have hlow : n / step * step = n := Nat.div_mul_cancel hd
  have hsplit := Nat.div_add_mod' n step
  rcases roundTo_cases step n with ⟨hup, _⟩ | ⟨_, hr⟩ <;> omega

/-- The number just below a multiple of the step is rounded to it. -/
theorem roundTo_pred (hs : 2 ≤ step) {bound : Nat} (hd : step ∣ bound) (hpos : 0 < bound) :
    roundTo step (bound - 1) = bound := by
  have hsplit := Nat.div_add_mod' (bound - 1) step
  have hrest := Nat.mod_lt (bound - 1) (Nat.lt_of_lt_of_le Nat.two_pos hs)
  rcases le_or_le_of_dvd (bound - 1) hd with hbound | hbound
  · omega
  · rcases roundTo_cases step (bound - 1) with ⟨_, hr⟩ | ⟨⟨_, hdown⟩, hr⟩ <;> omega

theorem roundTo_mono (hs : 0 < step) (h : n ≤ m) : roundTo step n ≤ roundTo step m := by
  have hn := Nat.div_add_mod' n step
  have hm := Nat.div_add_mod' m step
  have hlow : n / step * step ≤ m / step * step :=
    Nat.mul_le_mul_right step (Nat.div_le_div_right h)
  -- The multiples below the two numbers are the same, or a whole step apart.
  rcases le_or_le_of_dvd n (Nat.dvd_mul_left step (m / step)) with hnear | hfar <;>
    rcases roundTo_cases step n with ⟨_, hrn⟩ | ⟨_, hrn⟩ <;>
    rcases roundTo_cases step m with ⟨_, hrm⟩ | ⟨_, hrm⟩ <;> omega

end OneStep

/-! ## Buckets -/

section Buckets

variable {modulo other : Nat}

theorem bucket_dvd_of_length_le (significand : Nat)
    (h : (Nat.digits 10 modulo).length ≤ (Nat.digits 10 other).length) :
    bucket modulo significand ∣ bucket other significand :=
  Nat.pow_dvd_pow 10 (by omega)

/-- A bucket divides every power of ten with more digits than its modulus. -/
theorem bucket_dvd_pow {zeros : Nat} (significand : Nat) (hz : 1 ≤ zeros)
    (h : (Nat.digits 10 modulo).length ≤ zeros + 1) : bucket modulo significand ∣ 10 ^ zeros :=
  Nat.pow_dvd_pow 10 (by omega)

/-- **The order of moduli is kept**, whatever numbers of digits they have. -/
theorem roundTo_bucket_mono (significand : Nat) (hpos : 0 < modulo) (h : modulo ≤ other) :
    roundTo (bucket modulo significand) modulo ≤ roundTo (bucket other significand) other := by
  have hdigits := length_digits_pos hpos
  rcases Nat.eq_or_lt_of_le (Nat.le_length_digits_le 10 modulo other h) with hsame | hmore
  · have hbucket : bucket modulo significand = bucket other significand := by
      rw [bucket, bucket, hsame]
    rw [hbucket]
    exact roundTo_mono (bucket_pos other significand) h
  · calc roundTo (bucket modulo significand) modulo
      _ ≤ 10 ^ (Nat.digits 10 modulo).length :=
        roundTo_le_of_dvd (bucket_pos modulo significand)
          (bucket_dvd_pow significand hdigits (Nat.le_succ _))
          (Nat.lt_base_pow_length_digits (by decide))
      _ ≤ 10 ^ ((Nat.digits 10 other).length - 1) :=
        Nat.pow_le_pow_right (by decide) (by omega)
      _ ≤ roundTo (bucket other significand) other :=
        le_roundTo_of_dvd (bucket_pos other significand)
          (bucket_dvd_pow significand (by omega) (by omega))
          ((Nat.lt_digits_length_iff (by decide) _).mp (by omega))

/-- **A rounded modulus is rounded to itself.** -/
theorem roundTo_bucket_self (significand : Nat) (hpos : 0 < modulo) :
    roundTo (bucket (roundTo (bucket modulo significand) modulo) significand)
        (roundTo (bucket modulo significand) modulo) =
      roundTo (bucket modulo significand) modulo := by
  have hdigits := length_digits_pos hpos
  have hbound : roundTo (bucket modulo significand) modulo ≤
      10 ^ (Nat.digits 10 modulo).length :=
    roundTo_le_of_dvd (bucket_pos modulo significand)
      (bucket_dvd_pow significand hdigits (Nat.le_succ _))
      (Nat.lt_base_pow_length_digits (by decide))
  have hdvd : bucket modulo significand ∣ roundTo (bucket modulo significand) modulo :=
    dvd_roundTo _ _
  have hfound := roundTo_pos (bucket_pos modulo significand) modulo
  generalize roundTo (bucket modulo significand) modulo = found at hbound hdvd hfound ⊢
  refine roundTo_of_dvd (bucket_pos found significand) ?_ hfound
  rcases Nat.eq_or_lt_of_le hbound with hcarry | hbelow
  · -- A carry through all digits leaves a power of ten with one digit more.
    have hlength : (Nat.digits 10 found).length ≤ (Nat.digits 10 modulo).length + 1 := by
      rw [hcarry, length_digits_pow]
    have hten := bucket_dvd_pow significand hdigits hlength
    rwa [← hcarry] at hten
  · exact (bucket_dvd_of_length_le significand
      ((Nat.digits_length_le_iff (by decide) _).mpr hbelow)).trans hdvd

end Buckets

/-! ## Negative significands -/

section NegativeSignificands

variable {modulo : Nat}

theorem step_negSucc (h : 0 < modulo) (k : Nat) :
    Modulus.step (Nat.toDigits 10 modulo).length (Int.negSucc k) =
      10 ^ ((Nat.digits 10 modulo).length + k) := by
  have hdigits := length_digits_pos h
  have hzeros : (max 1 (((Nat.toDigits 10 modulo).length : Int) - 1 - Int.negSucc k)).toNat =
      (Nat.digits 10 modulo).length + k := by
    rw [length_toDigits h]
    omega
  rw [Modulus.step, hzeros]
  rfl

theorem quantize_negSucc (h : 0 < modulo) (k : Nat) :
    quantize modulo (Int.negSucc k) = 10 ^ ((Nat.digits 10 modulo).length + k) := by
  rw [quantize, step_negSucc h]
  refine roundTo_of_lt ?_
  calc modulo
    _ < 10 ^ (Nat.digits 10 modulo).length := Nat.lt_base_pow_length_digits (by decide)
    _ ≤ 10 ^ ((Nat.digits 10 modulo).length + k) :=
      Nat.pow_le_pow_right (by decide) (Nat.le_add_right _ _)

theorem quantize_pow_ne (zeros k : Nat) : quantize (10 ^ zeros) (Int.negSucc k) ≠ 10 ^ zeros := by
  rw [quantize_negSucc (Nat.pow_pos (by decide)), length_digits_pow]
  intro h
  have hzeros := Nat.pow_right_injective (by decide : 2 ≤ 10) h
  omega

end NegativeSignificands

/-! ## Any significand -/

theorem quantize_pos {modulo : Nat} (significand : Int) : 0 < quantize modulo significand :=
  roundTo_pos (Nat.pow_pos (by decide)) modulo

theorem quantize_mono {modulo other : Nat} (significand : Int) (hpos : 0 < modulo)
    (h : modulo ≤ other) : quantize modulo significand ≤ quantize other significand := by
  cases significand with
  | ofNat k =>
      rw [Int.ofNat_eq_natCast, quantize_natCast hpos, quantize_natCast (hpos.trans_le h)]
      exact roundTo_bucket_mono k hpos h
  | negSucc k =>
      rw [quantize_negSucc hpos, quantize_negSucc (hpos.trans_le h)]
      exact Nat.pow_le_pow_right (by decide)
        (Nat.add_le_add_right (Nat.le_length_digits_le 10 modulo other h) k)

/-- Rounding again changes nothing exactly when at least one digit is kept. -/
theorem quantize_quantize_iff {modulo : Nat} (significand : Int) (hpos : 0 < modulo) :
    quantize (quantize modulo significand) significand = quantize modulo significand ↔
      0 ≤ significand := by
  cases significand with
  | ofNat k =>
      refine iff_of_true ?_ (Int.natCast_nonneg k)
      rw [Int.ofNat_eq_natCast, quantize_natCast (quantize_pos k), quantize_natCast hpos]
      exact roundTo_bucket_self k hpos
  | negSucc k =>
      refine iff_of_false ?_ (Int.not_le.mpr (Int.negSucc_lt_zero k))
      rw [quantize_negSucc hpos]
      exact quantize_pow_ne _ k

/-- **Order and stability.** Of two positive moduli whose digits are not too many the larger
one is not rounded to a smaller number, for every significand.  A rounded modulus is rounded
to itself exactly when the significand is not negative and no digit too many was added. -/
theorem quantize_order_stable (significand : Int) {modulo other : Nat} (hpos : 1 ≤ modulo)
    (h : modulo ≤ other) (hshort : (Nat.digits 10 other).length ≤ Digit.limit) :
    ∃ low high : Nat, quantizeChecked modulo significand = .ok low ∧
      quantizeChecked other significand = .ok high ∧ low ≤ high ∧
      (quantizeChecked low significand = .ok low ↔
        0 ≤ significand ∧ (Nat.digits 10 low).length ≤ Digit.limit) := by
  have hother : 0 < other := Nat.lt_of_lt_of_le hpos h
  have hlow := Nat.le_trans (Nat.le_length_digits_le 10 modulo other h) hshort
  refine ⟨_, _, quantizeChecked_of_isShort hpos ((isShort_iff hpos).mpr hlow) significand,
    quantizeChecked_of_isShort hother ((isShort_iff hother).mpr hshort) significand,
    quantize_mono significand hpos h, ?_⟩
  rw [quantizeChecked_eq_ok_iff (quantize_pos significand), isShort_iff (quantize_pos significand),
    quantize_quantize_iff significand hpos]
  exact and_comm

/-- Two moduli on both sides of a power of ten, which is what both of them become. -/
theorem quantize_order_stable_carry :
    1 ≤ 9951 ∧ 9951 ≤ 10049 ∧ (Nat.digits 10 10049).length ≤ Digit.limit ∧
      quantizeChecked 9951 1 = .ok 10000 ∧
      quantizeChecked 10049 1 = .ok 10000 ∧ quantizeChecked (10000 : Nat) 1 = .ok 10000 := by
  have hshort : (Nat.digits 10 10049).length ≤ Digit.limit := by simp [Digit.limit]
  obtain ⟨low, high, hlow, hhigh, _, hstable⟩ :=
    @quantize_order_stable 1 9951 10049 (by decide) (by decide) hshort
  have hvalue : quantizeChecked (9951 : Nat) 1 = .ok 10000 := rfl
  have hother : quantizeChecked (10049 : Nat) 1 = .ok 10000 := rfl
  obtain rfl : 10000 = low := Except.ok.inj (hvalue.symm.trans hlow)
  exact ⟨by decide, by decide, hshort, hvalue, hother,
    hstable.mpr ⟨by decide, by simp [Digit.limit]⟩⟩

/-- A carry through all digits of a modulus of nines. -/
theorem quantize_nines {zeros : Nat} (hz : 3 ≤ zeros) :
    quantize (10 ^ zeros - 1) 1 = 10 ^ zeros := by
  have hten : 10 ^ 1 < 10 ^ zeros := Nat.pow_lt_pow_right (by decide) (by omega)
  have hlength : (Nat.digits 10 (10 ^ zeros - 1)).length ≤ zeros :=
    (Nat.digits_length_le_iff (by decide) _).mpr (by omega)
  have hbucket : 2 ≤ bucket (10 ^ zeros - 1) 1 :=
    Nat.le_trans (by decide : 2 ≤ 10 ^ 1) (Nat.pow_le_pow_right (by decide) (by omega))
  rw [show (1 : Int) = ((1 : Nat) : Int) from rfl, quantize_natCast (by omega)]
  exact roundTo_pred hbucket (bucket_dvd_pow 1 (by omega) (by omega)) (by omega)

/-- A carry through all digits of the longest moduli adds one that is too many. -/
theorem quantize_unstable :
    1 ≤ 10 ^ Digit.limit - 1 ∧
      quantizeChecked ((10 ^ Digit.limit - 1 : Nat) : Int) 1 = .ok (10 ^ Digit.limit) ∧
      quantizeChecked ((10 ^ Digit.limit : Nat) : Int) 1 ≠ .ok (10 ^ Digit.limit) := by
  have hten : 10 ^ 1 < 10 ^ Digit.limit := Nat.pow_lt_pow_right (by decide) (by decide)
  have hpos : 0 < 10 ^ Digit.limit - 1 := by omega
  have hshort : Digit.isShort (10 ^ Digit.limit - 1) = true :=
    (isShort_iff hpos).mpr ((Nat.digits_length_le_iff (by decide) _).mpr (by omega))
  refine ⟨hpos, (quantizeChecked_eq_ok_iff hpos).mpr ⟨hshort, quantize_nines (by decide)⟩,
    fun hagain => ?_⟩
  have hlong := (isShort_iff (by omega)).mp ((quantizeChecked_eq_ok_iff (by omega)).mp hagain).1
  rw [length_digits_pow] at hlong
  exact absurd hlong (Nat.not_succ_le_self _)

end CqlWorkload.Modulus
