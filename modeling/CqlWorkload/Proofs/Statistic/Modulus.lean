import CqlWorkload.Statistic.Ratio
import Mathlib.Data.Nat.Digits.Lemmas
import Mathlib.Data.Nat.Dist

/-!
# Rounded moduli

A modulus is rounded to a bucket, a multiple of a power of ten, that keeps so many of
its leading digits.

**Steps.** Rounding to the multiples of any step gives the nearest one
(`isNearest_roundTo`); only a number below the step is rounded away from zero
(`roundTo_of_lt`).  It never passes a multiple of the step that lies above the number
(`roundTo_le_of_dvd`), which bounds the digits that are left.

**Digits.** The step of a modulus with `d` digits has `d - 1 - s` zeros, but at least
one.  So the step is at most the modulus, unless that has one digit only, and a finer
step divides a coarser one.
-/

namespace CqlWorkload.Modulus

/-! ## Multiples of a step -/

variable {step n : Nat}

/-- The multiple of a step that is nearest to a number, and of two that are equally
near the larger one. -/
structure IsNearest (step n found : Nat) : Prop where
  multiple : step ∣ found
  nearest : ∀ other, step ∣ other → n.dist found ≤ n.dist other
  larger : ∀ other, step ∣ other → n.dist other = n.dist found → other ≤ found

/-- No multiple of a step lies between the two that are next to a number. -/
theorem le_or_le_of_dvd (n : Nat) {other : Nat} (h : step ∣ other) :
    other ≤ n / step * step ∨ n / step * step + step ≤ other := by
  obtain ⟨k, rfl⟩ := h
  rw [Nat.mul_comm step k, ← Nat.succ_mul]
  rcases Nat.lt_or_ge (n / step) k with hk | hk
  · exact Or.inr (Nat.mul_le_mul_right step hk)
  · exact Or.inl (Nat.mul_le_mul_right step hk)

theorem roundTo_cases (step n : Nat) :
    (n / step * step = 0 ∨ step ≤ 2 * (n % step)) ∧
        roundTo step n = n / step * step + step ∨
      (0 < n / step * step ∧ 2 * (n % step) < step) ∧ roundTo step n = n / step * step := by
  have hsplit := Nat.div_add_mod' n step
  unfold roundTo
  dsimp only
  split_ifs with hup
  · exact Or.inl ⟨by omega, rfl⟩
  · exact Or.inr ⟨by omega, rfl⟩

theorem dvd_roundTo (step n : Nat) : step ∣ roundTo step n := by
  rcases roundTo_cases step n with ⟨_, h⟩ | ⟨_, h⟩ <;> rw [h]
  · exact Nat.dvd_add (Nat.dvd_mul_left _ _) (Nat.dvd_refl _)
  · exact Nat.dvd_mul_left _ _

theorem roundTo_pos (hs : 0 < step) (n : Nat) : 0 < roundTo step n := by
  rcases roundTo_cases step n with ⟨_, h⟩ | ⟨hlow, h⟩ <;> omega

theorem roundTo_of_lt (h : n < step) : roundTo step n = step := by
  have hzero : n / step = 0 := Nat.div_eq_of_lt h
  simp [roundTo, hzero]

theorem div_mul_pos (hs : 0 < step) (h : step ≤ n) : 0 < n / step * step :=
  Nat.mul_pos (Nat.div_pos h hs) hs

theorem dist_roundTo_le (hs : 0 < step) (h : step ≤ n) :
    2 * n.dist (roundTo step n) ≤ step := by
  have hsplit := Nat.div_add_mod' n step
  have hlow := div_mul_pos hs h
  have hrest := Nat.mod_lt n hs
  rcases roundTo_cases step n with ⟨hup, hr⟩ | ⟨hdown, hr⟩ <;> rw [hr, Nat.dist] <;> omega

/-- Any other multiple of the step is further away, or as near and not larger. -/
theorem dist_roundTo_lt_or_eq (hs : 0 < step) (h : step ≤ n) {other : Nat}
    (ho : step ∣ other) :
    n.dist (roundTo step n) < n.dist other ∨
      n.dist (roundTo step n) = n.dist other ∧ other ≤ roundTo step n := by
  have hsplit := Nat.div_add_mod' n step
  have hlow := div_mul_pos hs h
  have hrest := Nat.mod_lt n hs
  unfold Nat.dist
  rcases le_or_le_of_dvd n ho with hother | hother <;>
    rcases roundTo_cases step n with ⟨hup, hr⟩ | ⟨hdown, hr⟩ <;> omega

/-- **Nearest multiple.** A number that is not below the step goes to the multiple of it
that is nearest, a half going up. -/
theorem isNearest_roundTo (hs : 0 < step) (h : step ≤ n) :
    IsNearest step n (roundTo step n) where
  multiple := dvd_roundTo step n
  nearest other ho := by
    rcases dist_roundTo_lt_or_eq hs h ho with hlt | ⟨heq, _⟩
    · exact Nat.le_of_lt hlt
    · exact Nat.le_of_eq heq
  larger other ho he := by
    rcases dist_roundTo_lt_or_eq hs h ho with hlt | ⟨_, hle⟩
    · exact absurd he (Nat.ne_of_gt hlt)
    · exact hle

/-- A multiple of the step above a number is not passed. -/
theorem roundTo_le_of_dvd (hs : 0 < step) {bound : Nat} (hd : step ∣ bound) (h : n < bound) :
    roundTo step n ≤ bound := by
  have hlow := Nat.div_mul_le_self n step
  rcases le_or_le_of_dvd n hd with hbound | hbound
  · omega
  · rcases roundTo_cases step n with ⟨_, hr⟩ | ⟨_, hr⟩ <;> omega

/-! ## Digits -/

variable {modulo : Nat}

theorem length_digits_pos (h : 0 < modulo) : 0 < (Nat.digits 10 modulo).length :=
  (Nat.lt_digits_length_iff (by decide) _).mpr h

theorem length_digits_pow (zeros : Nat) : (Nat.digits 10 (10 ^ zeros)).length = zeros + 1 := by
  refine Nat.le_antisymm ?_ ?_
  · exact (Nat.digits_length_le_iff (by decide) _).mpr
      (Nat.pow_lt_pow_right (by decide) (Nat.lt_succ_self zeros))
  · exact (Nat.lt_digits_length_iff (by decide) _).mpr (Nat.le_refl _)

theorem length_toDigits (h : 0 < modulo) :
    (Nat.toDigits 10 modulo).length = (Nat.digits 10 modulo).length := by
  have hbound (k : Nat) (hk : 0 < k) :
      (Nat.toDigits 10 modulo).length ≤ k ↔ (Nat.digits 10 modulo).length ≤ k := by
    rw [Nat.length_toDigits_le_iff (by decide) hk, Nat.digits_length_le_iff (by decide)]
  have hdigits := length_digits_pos h
  have hcount : 0 < (Nat.toDigits 10 modulo).length := Nat.length_toDigits_pos
  exact Nat.le_antisymm ((hbound _ hdigits).mpr (Nat.le_refl _))
    ((hbound _ hcount).mp (Nat.le_refl _))

theorem isShort_iff (h : 0 < modulo) :
    Digit.isShort modulo = true ↔ (Nat.digits 10 modulo).length ≤ Digit.limit := by
  rw [Digit.isShort, decide_eq_true_iff, length_toDigits h]

theorem digitCount_of_isShort (h : Digit.isShort modulo = true) :
    digitCount modulo = .ok (Nat.toDigits 10 modulo).length := by
  rw [digitCount, Digit.written, if_pos h]
  rfl

theorem digitCount_of_not_isShort (h : ¬Digit.isShort modulo = true) :
    digitCount modulo = .error (.impossibleValue (Digit.tooMany "")) := by
  rw [digitCount, Digit.written, if_neg h]
  rfl

/-- The bucket of a modulus: a one and as many zeros as it has digits behind its leading
digits, but at least one. -/
def bucket (modulo significand : Nat) : Nat :=
  10 ^ max 1 ((Nat.digits 10 modulo).length - 1 - significand)

theorem step_eq_bucket (h : 0 < modulo) (significand : Nat) :
    Modulus.step (Nat.toDigits 10 modulo).length significand = bucket modulo significand := by
  have hzeros : (max 1 (((Nat.toDigits 10 modulo).length : Int) - 1 - significand)).toNat =
      max 1 ((Nat.digits 10 modulo).length - 1 - significand) := by
    rw [length_toDigits h]
    omega
  rw [Modulus.step, hzeros]
  rfl

theorem bucket_pos (modulo significand : Nat) : 0 < bucket modulo significand :=
  Nat.pow_pos (by decide)

theorem bucket_of_length_le_one (h : (Nat.digits 10 modulo).length ≤ 1) (significand : Nat) :
    bucket modulo significand = 10 := by
  rw [bucket, show max 1 ((Nat.digits 10 modulo).length - 1 - significand) = 1 by omega,
    Nat.pow_one]

/-- A modulus of two digits or more is not below its bucket. -/
theorem bucket_le (significand : Nat) (h : 2 ≤ (Nat.digits 10 modulo).length) :
    bucket modulo significand ≤ modulo :=
  calc bucket modulo significand
    _ ≤ 10 ^ ((Nat.digits 10 modulo).length - 1) := Nat.pow_le_pow_right (by decide) (by omega)
    _ ≤ modulo := (Nat.lt_digits_length_iff (by decide) _).mp (by omega)

theorem bucket_dvd_bucket (modulo : Nat) {coarse fine : Nat} (h : coarse ≤ fine) :
    bucket modulo fine ∣ bucket modulo coarse :=
  Nat.pow_dvd_pow 10 (by omega)

/-- How many decimal digits a number has, the zeros at its end left out. -/
def significantDigits (n : Nat) : Nat := ((Nat.digits 10 n).dropWhile (· == 0)).length

theorem significantDigits_mul_pow_le (k zeros : Nat) :
    significantDigits (10 ^ zeros * k) ≤ (Nat.digits 10 k).length := by
  rcases Nat.eq_zero_or_pos k with rfl | hk
  · simp [significantDigits]
  · have hzeros : ∀ d ∈ List.replicate zeros 0, (d == 0) = true := by
      intro d hd
      simp [List.eq_of_mem_replicate hd]
    rw [significantDigits, Nat.digits_base_pow_mul (by decide) hk,
      List.dropWhile_append_of_pos hzeros]
    exact (List.dropWhile_sublist _).length_le

/-- A multiple of a power of ten that is not above another one has significant digits
between the two only. -/
theorem significantDigits_le {q zeros digits : Nat} (hz : zeros ≤ digits)
    (hd : 10 ^ zeros ∣ q) (hq : q ≤ 10 ^ digits) :
    significantDigits q ≤ max 1 (digits - zeros) := by
  obtain ⟨k, rfl⟩ := hd
  rcases Nat.eq_or_lt_of_le hq with hq | hq
  · have hone := significantDigits_mul_pow_le 1 digits
    rw [Nat.mul_one] at hone
    rw [hq]
    exact Nat.le_trans hone (Nat.le_max_left _ _)
  · have hsplit : 10 ^ digits = 10 ^ zeros * 10 ^ (digits - zeros) := by
      rw [← Nat.pow_add, Nat.add_sub_cancel' hz]
    have hk : (Nat.digits 10 k).length ≤ digits - zeros :=
      (Nat.digits_length_le_iff (by decide) _).mpr (Nat.lt_of_mul_lt_mul_left (hsplit ▸ hq))
    exact Nat.le_trans (significantDigits_mul_pow_le k zeros)
      (Nat.le_trans hk (Nat.le_max_right _ _))

/-! ## Rounding a modulus -/

/-- What rounding leaves of a modulus. -/
structure Quantized (modulo significand found : Nat) : Prop where
  positive : 0 < found
  multiple : bucket modulo significand ∣ found
  small : modulo < bucket modulo significand → found = bucket modulo significand
  nearest : bucket modulo significand ≤ modulo →
    IsNearest (bucket modulo significand) modulo found
  digits : significantDigits found ≤ significand + 1
  error : significand + 2 ≤ (Nat.digits 10 modulo).length →
    2 * 10 ^ significand * modulo.dist found ≤ modulo

/-- So many leading digits of a modulus are kept; a carry leaves a power of ten. -/
theorem significantDigits_roundTo_le (h : 0 < modulo) (significand : Nat) :
    significantDigits (roundTo (bucket modulo significand) modulo) ≤ significand + 1 := by
  have hcount := length_digits_pos h
  have hbelow : modulo < 10 ^ (Nat.digits 10 modulo).length :=
    Nat.lt_base_pow_length_digits (by decide)
  have hdvd : bucket modulo significand ∣ 10 ^ (Nat.digits 10 modulo).length :=
    Nat.pow_dvd_pow 10 (by omega)
  have hbound := roundTo_le_of_dvd (bucket_pos modulo significand) hdvd hbelow
  exact Nat.le_trans (significantDigits_le (by omega) (dvd_roundTo _ _) hbound) (by omega)

/-- A modulus changes by at most half of its bucket, which is a small part of it. -/
theorem error_roundTo_le (significand : Nat)
    (hlong : significand + 2 ≤ (Nat.digits 10 modulo).length) :
    2 * 10 ^ significand * modulo.dist (roundTo (bucket modulo significand) modulo) ≤ modulo := by
  have hhalf := dist_roundTo_le (bucket_pos modulo significand)
    (bucket_le significand (by omega))
  have hzeros : significand + max 1 ((Nat.digits 10 modulo).length - 1 - significand) =
      (Nat.digits 10 modulo).length - 1 := by omega
  calc 2 * 10 ^ significand * modulo.dist (roundTo (bucket modulo significand) modulo)
    _ = 10 ^ significand * (2 * modulo.dist (roundTo (bucket modulo significand) modulo)) := by
      rw [Nat.mul_comm 2, Nat.mul_assoc]
    _ ≤ 10 ^ significand * bucket modulo significand := Nat.mul_le_mul_left _ hhalf
    _ = 10 ^ ((Nat.digits 10 modulo).length - 1) := by rw [bucket, ← Nat.pow_add, hzeros]
    _ ≤ modulo := (Nat.lt_digits_length_iff (by decide) _).mp (by omega)

theorem quantized_roundTo (h : 0 < modulo) (significand : Nat) :
    Quantized modulo significand (roundTo (bucket modulo significand) modulo) where
  positive := roundTo_pos (bucket_pos modulo significand) modulo
  multiple := dvd_roundTo _ _
  small := roundTo_of_lt
  nearest := isNearest_roundTo (bucket_pos modulo significand)
  digits := significantDigits_roundTo_le h significand
  error := error_roundTo_le significand

/-- Keeping more digits never leads further away: the buckets that kept fewer are among
those that keep more. -/
theorem dist_roundTo_mono (modulo : Nat) {coarse fine : Nat} (hle : coarse ≤ fine) :
    modulo.dist (roundTo (bucket modulo fine) modulo) ≤
      modulo.dist (roundTo (bucket modulo coarse) modulo) := by
  have hdvd := bucket_dvd_bucket modulo hle
  rcases Nat.lt_or_ge modulo (bucket modulo fine) with hlt | hge
  · -- Only a modulus of one digit is below a bucket, and its bucket is always ten.
    have hshort : (Nat.digits 10 modulo).length ≤ 1 := by
      by_contra hlong
      exact absurd (bucket_le fine (by omega)) (Nat.not_le.mpr hlt)
    rw [bucket_of_length_le_one hshort, bucket_of_length_le_one hshort]
  · exact (isNearest_roundTo (bucket_pos modulo fine) hge).nearest _
      (hdvd.trans (dvd_roundTo _ _))

theorem quantize_natCast (h : 0 < modulo) (significand : Nat) :
    quantize modulo significand = roundTo (bucket modulo significand) modulo := by
  rw [quantize, step_eq_bucket h]

theorem quantizeChecked_of_isShort (h : 0 < modulo) (hshort : Digit.isShort modulo = true)
    (significand : Int) :
    quantizeChecked modulo significand = .ok (quantize modulo significand) := by
  have hpos : ¬(modulo : Int) ≤ 0 := by omega
  rw [quantizeChecked, Int.natAbs_natCast, digitCount_of_isShort hshort]
  simp only [bind, Except.bind, if_neg hpos, Int.toNat_natCast]
  rfl

/-- The digits are counted before anything else is looked at. -/
theorem quantizeChecked_of_not_isShort (hlong : ¬Digit.isShort modulo = true)
    (significand : Int) :
    quantizeChecked modulo significand = .error (.impossibleValue (Digit.tooMany "")) := by
  rw [quantizeChecked, Int.natAbs_natCast, digitCount_of_not_isShort hlong]
  rfl

/-- A modulus is rounded exactly when its digits are not too many. -/
theorem quantizeChecked_eq_ok_iff (h : 0 < modulo) {significand : Int} {found : Nat} :
    quantizeChecked modulo significand = .ok found ↔
      Digit.isShort modulo = true ∧ quantize modulo significand = found := by
  by_cases hshort : Digit.isShort modulo = true
  · rw [quantizeChecked_of_isShort h hshort, Except.ok.injEq]
    exact (and_iff_right hshort).symm
  · rw [quantizeChecked_of_not_isShort hshort]
    exact iff_of_false nofun fun hfound => hshort hfound.1

theorem quantizeChecked_eq (h : 0 < modulo)
    (hshort : (Nat.digits 10 modulo).length ≤ Digit.limit) (significand : Nat) :
    quantizeChecked modulo significand =
      .ok (roundTo (bucket modulo significand) modulo) := by
  rw [quantizeChecked_of_isShort h ((isShort_iff h).mpr hshort), quantize_natCast h]

/-- **Rounding to the nearest bucket.** Every positive modulus whose digits are not too many
is rounded to the bucket nearest to it, and to one that is no further away when more digits
are kept. -/
theorem quantize_nearest (modulo significand : Nat) (h : 0 < modulo)
    (hshort : (Nat.digits 10 modulo).length ≤ Digit.limit) :
    ∃ found : Nat, quantizeChecked modulo significand = .ok found ∧
      Quantized modulo significand found ∧
      ∀ more : Nat, significand ≤ more → ∃ closer : Nat,
        quantizeChecked modulo more = .ok closer ∧ modulo.dist closer ≤ modulo.dist found :=
  ⟨_, quantizeChecked_eq h hshort significand, quantized_roundTo h significand,
    fun more hmore => ⟨_, quantizeChecked_eq h hshort more, dist_roundTo_mono modulo hmore⟩⟩

/-- A tie that carries through all digits, and the modulus itself once all of its digits
are kept. -/
theorem quantize_nearest_tie :
    0 < 99950 ∧ (Nat.digits 10 99950).length ≤ Digit.limit ∧
      quantizeChecked 99950 2 = .ok 100000 ∧ Quantized 99950 2 100000 ∧
      quantizeChecked 99950 3 = .ok 99950 ∧ Nat.dist 99950 99950 ≤ Nat.dist 99950 100000 := by
  have hshort : (Nat.digits 10 99950).length ≤ Digit.limit := by simp [Digit.limit]
  obtain ⟨found, hfound, hquantized, hmore⟩ := quantize_nearest 99950 2 (by decide) hshort
  obtain ⟨closer, hcloser, hdist⟩ := hmore 3 (by decide)
  have hvalue : quantizeChecked (99950 : Nat) (2 : Nat) = .ok 100000 := rfl
  have hfine : quantizeChecked (99950 : Nat) (3 : Nat) = .ok 99950 := rfl
  obtain rfl : 100000 = found := Except.ok.inj (hvalue.symm.trans hfound)
  obtain rfl : 99950 = closer := Except.ok.inj (hfine.symm.trans hcloser)
  exact ⟨by decide, hshort, hvalue, hquantized, hfine, hdist⟩

/-- The smallest power of ten with too many digits is not rounded at all. -/
theorem quantize_unwritten :
    0 < 10 ^ Digit.limit ∧
      ¬∃ found : Nat, quantizeChecked ((10 ^ Digit.limit : Nat) : Int) 1 = .ok found := by
  have hpos : 0 < 10 ^ Digit.limit := Nat.pow_pos (by decide)
  refine ⟨hpos, fun ⟨found, hfound⟩ => ?_⟩
  have hshort := (isShort_iff hpos).mp ((quantizeChecked_eq_ok_iff hpos).mp hfound).1
  rw [length_digits_pow] at hshort
  exact absurd hshort (Nat.not_succ_le_self _)

end CqlWorkload.Modulus
