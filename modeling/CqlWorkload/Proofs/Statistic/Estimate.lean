import CqlWorkload.Proofs.Number.Shortest
import CqlWorkload.Proofs.Statistic.Modulus

/-!
# Estimates

A finite double has less than `2 ^ 2099` units, so a whole number that is drawn from a
double can be written (`Double.isShort_of_wholeBy`).  So can a ratio, and rounding a modulus
that comes from an estimate of partitions does not fail (`quantizeChecked_partitionModulo`).
-/

namespace CqlWorkload

theorem Digit.isShort_of_lt {n : Nat} (h : n < tenTo limit) : isShort n = true :=
  decide_eq_true ((Double.length_toDigits_le_iff n (by decide)).mpr h)

namespace Double

theorem natAbs_units_le {x : Double} (h : x.isFinite = true) :
    x.units.natAbs ≤ twoTo (53 + 2045) := by
  cases x with
  | nan => cases h
  | signed negative rank =>
      have hunits : (Double.signed negative rank).units.natAbs = unitsOf rank.val := by
        cases negative <;> simp [units]
      rw [hunits]
      exact Decimal.unitsOf_le (of_decide_eq_true h)

theorem isShort_of_wholeBy {pick : Int → Int → Int} {x : Double} {n : Int}
    (hpick : ∀ a b, (pick a b).natAbs ≤ a.natAbs) (h : x.wholeBy pick = .ok n) :
    Digit.isShort n.natAbs = true := by
  have hwide : twoTo (53 + 2045) < tenTo Digit.limit := by decide +kernel
  unfold wholeBy at h
  split_ifs at h with hnan hfinite
  injection h with h
  refine Digit.isShort_of_lt (Nat.lt_of_le_of_lt ?_ hwide)
  rw [← h]
  exact (hpick _ _).trans (natAbs_units_le hfinite)

end Double

theorem Failure.whole_eq_ok_iff {found : Except Double.NotWhole Int} {n : Int} :
    whole found = .ok n ↔ found = .ok n := by
  cases found <;> simp [whole, Except.mapError]

namespace Table

variable {t : Table} {name : String} {multiplier : Double} {n modulo : Int}

theorem isShort_of_ratioFor (h : t.ratioFor name = .ok n) : Digit.isShort n.natAbs = true := by
  unfold ratioFor at h
  split at h
  · split at h
    · cases h
    · exact Double.isShort_of_wholeBy Int.natAbs_tdiv_le_natAbs (Failure.whole_eq_ok_iff.mp h)
  · cases h
    rfl

theorem isShort_of_partitionModulo (h : t.partitionModulo multiplier = .ok modulo) :
    Digit.isShort modulo.natAbs = true := by
  unfold partitionModulo at h
  split at h
  · cases h
  · exact Double.isShort_of_wholeBy Int.natAbs_fdiv_le_natAbs (Failure.whole_eq_ok_iff.mp h)

theorem quantizeChecked_partitionModulo (h : t.partitionModulo multiplier = .ok modulo)
    (hpos : 0 < modulo) (significand : Int) :
    Modulus.quantizeChecked modulo significand =
      .ok (Modulus.quantize modulo.toNat significand) := by
  obtain ⟨size, rfl⟩ := Int.eq_ofNat_of_zero_le (Int.le_of_lt hpos)
  exact Modulus.quantizeChecked_of_isShort (by omega) (isShort_of_partitionModulo h) _

end Table
end CqlWorkload
