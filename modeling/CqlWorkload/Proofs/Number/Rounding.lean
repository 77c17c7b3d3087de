import CqlWorkload.Number.Double
import Mathlib.Tactic.Ring
import Mathlib.Tactic.NormNum

/-!
# Rounding to doubles

The rank nearest to a quotient depends on the quotient alone, so a fraction may
be extended before it is rounded (`nearestRank_eq_of_mul_eq`), and a finite
magnitude is nearest to itself (`nearestRank_unitsOf`).

**Decimals.** A decimal may be written with more zeros at the end of its digits
and a smaller exponent: it reads as the same double (`ofDecimal_mul_tenTo`).
-/

namespace CqlWorkload

theorem twoTo_pos (n : Nat) : 0 < twoTo n := Nat.pow_pos (by decide)

theorem tenTo_pos (n : Nat) : 0 < tenTo n := Nat.pow_pos (by decide)

theorem twoTo_mono {m n : Nat} (h : m ≤ n) : twoTo m ≤ twoTo n :=
  Nat.pow_le_pow_right (by decide) h

theorem twoTo_add (m n : Nat) : twoTo (m + n) = twoTo m * twoTo n := Nat.pow_add 2 m n

theorem tenTo_add (m n : Nat) : tenTo (m + n) = tenTo m * tenTo n := Nat.pow_add 10 m n

namespace Double

/-! ## Extending a fraction -/

theorem roundHalfEven_mul (num den : Nat) {k : Nat} (hk : 0 < k) :
    roundHalfEven (num * k) (den * k) = roundHalfEven num den := by
  have hmod : 2 * (num * k % (den * k)) = 2 * (num % den) * k := by
    rw [Nat.mul_mod_mul_right, Nat.mul_assoc]
  simp only [roundHalfEven, Nat.mul_div_mul_right _ _ hk, hmod, Nat.mul_lt_mul_right hk]

theorem roundHalfEven_whole (n : Nat) {den : Nat} (hd : 0 < den) :
    roundHalfEven (n * den) den = n := by
  simp [roundHalfEven, Nat.mul_div_cancel n hd, hd]

theorem nearestRank_mul (num den : Nat) {k : Nat} (hk : 0 < k) :
    nearestRank (num * k) (den * k) = nearestRank num den := by
  have hscaled : num * k * twoTo 1074 = num * twoTo 1074 * k := Nat.mul_right_comm _ _ _
  have hden (shift : Nat) : den * k * twoTo shift = den * twoTo shift * k :=
    Nat.mul_right_comm _ _ _
  simp only [nearestRank, hscaled, Nat.mul_div_mul_right _ _ hk, hden, roundHalfEven_mul _ _ hk]

/-- Equal quotients have the same nearest rank. -/
theorem nearestRank_eq_of_mul_eq {num den num' den' : Nat} (hd : 0 < den) (hd' : 0 < den')
    (h : num * den' = num' * den) : nearestRank num den = nearestRank num' den' :=
  calc nearestRank num den = nearestRank (num * den') (den * den') :=
        (nearestRank_mul num den hd').symm
    _ = nearestRank (num' * den) (den' * den) := by rw [h, Nat.mul_comm den den']
    _ = nearestRank num' den' := nearestRank_mul num' den' hd

/-! ## Magnitudes -/

theorem log2_mul_twoTo {n : Nat} (hn : n ≠ 0) (k : Nat) :
    Nat.log2 (n * twoTo k) = Nat.log2 n + k := by
  have hne : n * twoTo k ≠ 0 := Nat.mul_ne_zero hn (twoTo_pos k).ne'
  rw [Nat.log2_eq_iff hne]
  have hlow : 2 ^ Nat.log2 n ≤ n := Nat.log2_self_le hn
  have hhigh : n < 2 ^ (Nat.log2 n + 1) := Nat.lt_log2_self
  constructor
  · rw [pow_add]
    exact Nat.mul_le_mul_right _ hlow
  · rw [show Nat.log2 n + k + 1 = (Nat.log2 n + 1) + k by omega, pow_add]
    exact Nat.mul_lt_mul_of_pos_right hhigh (twoTo_pos k)

theorem nearestRank_units {n : Nat} (den : Nat) (hd : den = twoTo 1074) :
    nearestRank n den = min ((Nat.log2 n - 52) * twoTo 52 +
      roundHalfEven n (twoTo (Nat.log2 n - 52))) infinityRank := by
  have hpos : 0 < den := hd ▸ twoTo_pos _
  have hcomm (shift : Nat) : den * twoTo shift = twoTo shift * den := Nat.mul_comm _ _
  simp only [nearestRank, ← hd, Nat.mul_div_cancel n hpos, hcomm, roundHalfEven_mul _ _ hpos]

/-- A magnitude below the spacing of two units is its own rank. -/
theorem nearestRank_small {n : Nat} (h : n < twoTo 52) : nearestRank n (twoTo 1074) = n := by
  have hlog : Nat.log2 n - 52 = 0 := by
    rcases Nat.eq_zero_or_pos n with rfl | hp
    · decide
    · have := (Nat.log2_lt hp.ne').mpr h
      omega
  have hle : n ≤ infinityRank := h.le.trans (by decide)
  rw [nearestRank_units _ rfl, hlog, Nat.zero_mul, Nat.zero_add]
  simpa [twoTo, roundHalfEven, Nat.mod_one] using hle

/-- A magnitude with all digits of the significand, `k` doublings of the spacing up. -/
theorem nearestRank_large {f k : Nat} (hf : f < twoTo 52)
    (hk : k * twoTo 52 + (twoTo 52 + f) ≤ infinityRank) :
    nearestRank ((twoTo 52 + f) * twoTo k) (twoTo 1074) = k * twoTo 52 + (twoTo 52 + f) := by
  have hne : twoTo 52 + f ≠ 0 := by
    have := twoTo_pos 52
    omega
  have hbase : Nat.log2 (twoTo 52 + f) = 52 := by
    rw [Nat.log2_eq_iff hne]
    have hdouble : (2 : Nat) ^ (52 + 1) = twoTo 52 + twoTo 52 := by decide
    have hself : (2 : Nat) ^ 52 = twoTo 52 := rfl
    omega
  have hlog : Nat.log2 ((twoTo 52 + f) * twoTo k) - 52 = k := by
    rw [log2_mul_twoTo hne, hbase]
    omega
  rw [nearestRank_units _ rfl, hlog, roundHalfEven_whole _ (twoTo_pos k), Nat.min_eq_left hk]

theorem roundHalfEven_le (num den : Nat) : roundHalfEven num den ≤ num / den + 1 := by
  simp only [roundHalfEven]
  split
  · exact Nat.le_succ _
  · split
    · exact Nat.le_refl _
    · have hmod := Nat.mod_lt (num / den) (show 0 < 2 by decide)
      omega

/-- The magnitudes of whole numbers that are well below the largest double are finite. -/
theorem nearestRank_lt_infinityRank {n k : Nat} (hk : k ≤ 1022) (h : n < twoTo k) :
    nearestRank n 1 < infinityRank := by
  rcases Nat.eq_zero_or_pos n with rfl | hpos
  · decide +kernel
  · have hlog : Nat.log2 n < k := (Nat.log2_lt hpos.ne').mpr h
    have hscaled : Nat.log2 (n * twoTo 1074) = Nat.log2 n + 1074 := log2_mul_twoTo hpos.ne' 1074
    have hshift : Nat.log2 n + 1074 - 52 = Nat.log2 n + 1022 := by omega
    have hquotient : n * twoTo 1074 / twoTo (Nat.log2 n + 1022) < twoTo 53 := by
      rw [Nat.div_lt_iff_lt_mul (twoTo_pos _), ← twoTo_add]
      have hlt : n * twoTo 1074 < 2 ^ (Nat.log2 (n * twoTo 1074) + 1) := Nat.lt_log2_self
      rw [hscaled, show Nat.log2 n + 1074 + 1 = 53 + (Nat.log2 n + 1022) by omega] at hlt
      exact hlt
    have hround := roundHalfEven_le (n * twoTo 1074) (twoTo (Nat.log2 n + 1022))
    have hmul : (Nat.log2 n + 1022) * twoTo 52 ≤ 2043 * twoTo 52 :=
      Nat.mul_le_mul_right _ (by omega)
    have hdouble : 2043 * twoTo 52 + twoTo 53 < infinityRank := by decide
    unfold nearestRank
    simp only [Nat.div_one, hscaled, hshift, Nat.one_mul]
    exact (Nat.min_le_left _ _).trans_lt
      ((Nat.add_le_add hmul (hround.trans hquotient)).trans_lt hdouble)

theorem isFinite_ofInt {n k : Nat} (hk : k ≤ 1022) (h : n < twoTo k) :
    (ofInt n).isFinite = true :=
  decide_eq_true (nearestRank_lt_infinityRank hk h)

/-- **A finite magnitude is nearest to itself.** -/
theorem nearestRank_unitsOf {rank : Nat} (h : rank < infinityRank) :
    nearestRank (unitsOf rank) (twoTo 1074) = rank := by
  unfold unitsOf
  split_ifs with hs
  · exact nearestRank_small hs
  · have hpos := twoTo_pos 52
    have hq : 1 ≤ rank / twoTo 52 := (Nat.le_div_iff_mul_le hpos).mpr (by omega)
    have hsplit : (rank / twoTo 52 - 1) * twoTo 52 + (twoTo 52 + rank % twoTo 52) = rank := by
      have hone : (rank / twoTo 52 - 1) * twoTo 52 + twoTo 52 = rank / twoTo 52 * twoTo 52 := by
        rw [← Nat.succ_mul, Nat.succ_eq_add_one, Nat.sub_add_cancel hq]
      have hdiv := Nat.div_add_mod' rank (twoTo 52)
      omega
    rw [nearestRank_large (Nat.mod_lt _ hpos) (by omega), hsplit]

/-! ## Decimals -/

theorem length_toDigits_le_iff (n : Nat) {k : Nat} (hk : 0 < k) :
    (Nat.toDigits 10 n).length ≤ k ↔ n < tenTo k :=
  Nat.length_toDigits_le_iff (by decide) hk

theorem toDigits_mul_tenTo {n : Nat} (hn : n ≠ 0) (k : Nat) :
    Nat.toDigits 10 (n * tenTo k) = Nat.toDigits 10 n ++ List.replicate k '0' := by
  induction k with
  | zero => simp [tenTo]
  | succ k ih =>
      have hpos : 0 < n * tenTo k := Nat.mul_pos (Nat.pos_of_ne_zero hn) (tenTo_pos k)
      have hten : n * tenTo (k + 1) = 10 * (n * tenTo k) + 0 := by
        rw [tenTo_add, show tenTo 1 = 10 from rfl]
        ring
      rw [hten, ← Nat.toDigits_append_toDigits (by decide) hpos (by decide), ih,
        List.append_assoc, Nat.toDigits_zero, List.replicate_succ']

/-- A decimal within the cutoffs as a fraction. -/
theorem ofDecimal_eq_nearest {negative : Bool} {digits : Nat} {exponent : Int}
    (hd : digits ≠ 0) (hhigh : exponent + (Nat.toDigits 10 digits).length ≤ 400)
    (hlow : -400 ≤ exponent + (Nat.toDigits 10 digits).length) :
    ofDecimal negative digits exponent =
      if exponent < 0 then nearest negative digits (tenTo exponent.natAbs)
      else nearest negative (digits * tenTo exponent.natAbs) 1 := by
  have h1 : ¬400 < exponent + (Nat.toDigits 10 digits).length := by omega
  have h2 : ¬exponent + (Nat.toDigits 10 digits).length < -400 := by omega
  simp only [ofDecimal, hd, gt_iff_lt, h1, h2, if_false]

theorem nearest_eq_of_mul_eq {negative : Bool} {num den num' den' : Nat} (hd : 0 < den)
    (hd' : 0 < den') (h : num * den' = num' * den) :
    nearest negative num den = nearest negative num' den' := by
  simp only [nearest, nearestRank_eq_of_mul_eq hd hd' h]

/-- Zeros at the end of the digits may be moved into the exponent. -/
theorem ofDecimal_mul_tenTo (negative : Bool) (digits : Nat) (exponent : Int) (k : Nat) :
    ofDecimal negative (digits * tenTo k) (exponent - k) = ofDecimal negative digits exponent := by
  rcases Nat.eq_zero_or_pos digits with rfl | hd
  · simp [ofDecimal]
  · have hne : digits * tenTo k ≠ 0 := Nat.mul_ne_zero hd.ne' (tenTo_pos k).ne'
    have hlength : exponent - k + (Nat.toDigits 10 (digits * tenTo k)).length =
        exponent + (Nat.toDigits 10 digits).length := by
      rw [toDigits_mul_tenTo hd.ne', List.length_append, List.length_replicate]
      push_cast
      ring
    by_cases hhigh : 400 < exponent + (Nat.toDigits 10 digits).length
    · simp only [ofDecimal, hne, hd.ne', gt_iff_lt, hlength, hhigh, if_true, if_false]
    by_cases hlow : exponent + (Nat.toDigits 10 digits).length < -400
    · simp only [ofDecimal, hne, hd.ne', gt_iff_lt, hlength, hhigh, hlow, if_true, if_false]
    rw [ofDecimal_eq_nearest hne (by omega) (by omega),
      ofDecimal_eq_nearest hd.ne' (by omega) (by omega)]
    split_ifs with hshift hexp hexp
    · refine nearest_eq_of_mul_eq (tenTo_pos _) (tenTo_pos _) ?_
      rw [Nat.mul_assoc, ← tenTo_add, show k + exponent.natAbs = (exponent - k).natAbs by omega]
    · refine nearest_eq_of_mul_eq (tenTo_pos _) Nat.one_pos ?_
      rw [Nat.mul_one, Nat.mul_assoc, ← tenTo_add,
        show exponent.natAbs + (exponent - k).natAbs = k by omega]
    · omega
    · refine nearest_eq_of_mul_eq Nat.one_pos Nat.one_pos ?_
      rw [Nat.mul_one, Nat.mul_one, Nat.mul_assoc, ← tenTo_add,
        show k + (exponent - k).natAbs = exponent.natAbs by omega]

/-- The sign of a decimal is the sign of its double. -/
theorem ofDecimal_negative {negative sign : Bool} {digits : Nat} {exponent : Int}
    {rank : Fin (infinityRank + 1)} (h : ofDecimal sign digits exponent = .signed sign rank) :
    ofDecimal negative digits exponent = .signed negative rank := by
  unfold ofDecimal at h ⊢
  dsimp only [zero, infinite, nearest] at h ⊢
  split_ifs at h ⊢ <;> simp_all

/-! ## Signs -/

theorem unitsOf_one : unitsOf (nearestRank 1 1) = twoTo 1074 := by decide +kernel

/-- A product with one, or with minus one, changes nothing but the sign. -/
theorem ofInt_sign_mul (sign negative : Bool) {rank : Fin (infinityRank + 1)}
    (h : rank.val < infinityRank) :
    (ofInt (if sign then -1 else 1)).mul (.signed negative rank) =
      .signed (sign != negative) rank := by
  have hone : ofInt (if sign then -1 else 1) = nearest sign 1 1 := by cases sign <;> rfl
  have hfinite : ¬ nearestRank 1 1 = infinityRank := by decide +kernel
  have hfraction : twoTo 1074 * unitsOf rank.val * twoTo 1074 = unitsOf rank.val * twoTo 2148 := by
    rw [show twoTo 2148 = twoTo 1074 * twoTo 1074 from twoTo_add 1074 1074]
    ring
  rw [hone, nearest, mul]
  simp only [hfinite, h.ne, decide_false, Bool.or_self, Bool.false_eq_true, if_false, unitsOf_one]
  rw [nearest_eq_of_mul_eq (twoTo_pos _) (twoTo_pos _) hfraction, nearest]
  simp only [nearestRank_unitsOf h]

end Double
end CqlWorkload
