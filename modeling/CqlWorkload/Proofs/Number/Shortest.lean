import CqlWorkload.Number.Shortest
import CqlWorkload.Proofs.Number.Rounding

/-!
# Shortest decimals read back

The decimal that stands for a double reads as that double
(`ofDecimal_shortest`), with either sign and for every finite magnitude.  The
search only returns what reads back, moving zeros into the exponent keeps what
is read, and the exact expansion behind the search reads back as well.
-/

namespace CqlWorkload
namespace Decimal

/-- A decimal reads as the magnitude of a rank. -/
def ReadsBack (rank : Nat) (d : Decimal) : Prop :=
  readsAs rank d.exponent d.digits = true

theorem readsBack_of_searchFrom {rank num den : Nat} {leading : Int} {fuel length : Nat}
    {d : Decimal} (h : searchFrom rank num den leading fuel length = some d) :
    d.ReadsBack rank := by
  induction fuel generalizing length with
  | zero => cases h
  | succ fuel ih =>
      simp only [searchFrom] at h
      split at h
      · next digits hf =>
        injection h with h
        subst h
        exact List.find?_some hf
      · exact ih h

theorem readsBack_trimZeros {rank : Nat} (fuel : Nat) {d : Decimal} (h : d.ReadsBack rank) :
    (trimZeros fuel d).ReadsBack rank := by
  induction fuel generalizing d with
  | zero => exact h
  | succ fuel ih =>
      rw [trimZeros]
      split_ifs with hz
      · refine ih ?_
        have hdigits : d.digits = d.digits / 10 * tenTo 1 := by
          show d.digits = d.digits / 10 * 10
          omega
        have hexp : d.exponent = d.exponent + 1 - (1 : Nat) := by omega
        have hsame := Double.ofDecimal_mul_tenTo false (d.digits / 10) (d.exponent + 1) 1
        rw [← hdigits, ← hexp] at hsame
        simpa only [ReadsBack, readsAs, hsame] using h
      · exact h

/-! ## The exact expansion -/

theorem unitsOf_pos {rank : Nat} (h : rank ≠ 0) : 0 < Double.unitsOf rank := by
  unfold Double.unitsOf
  split_ifs
  · exact Nat.pos_of_ne_zero h
  · exact Nat.mul_pos (Nat.lt_of_lt_of_le (twoTo_pos 52) (Nat.le_add_right _ _)) (twoTo_pos _)

theorem unitsOf_le {rank : Nat} (h : rank < Double.infinityRank) :
    Double.unitsOf rank ≤ twoTo (53 + 2045) := by
  have hpos := twoTo_pos 52
  have hsig : twoTo 53 = twoTo 52 + twoTo 52 := by decide
  unfold Double.unitsOf
  split_ifs with hs
  · exact hs.le.trans (twoTo_mono (by decide))
  · have hq : rank / twoTo 52 < 2047 := (Nat.div_lt_iff_lt_mul hpos).mpr h
    have hmod := Nat.mod_lt rank hpos
    rw [twoTo_add]
    exact Nat.mul_le_mul (by omega) (twoTo_mono (by omega))

theorem readsBack_exact {rank : Nat} (hr : rank ≠ 0) (h : rank < Double.infinityRank) :
    ReadsBack rank ⟨Double.unitsOf rank * Nat.pow 5 1074, -1074⟩ := by
  have hten : tenTo 1074 = twoTo 1074 * Nat.pow 5 1074 := by decide +kernel
  have hmost : twoTo (53 + 2045) * Nat.pow 5 1074 < tenTo 1400 := by decide +kernel
  have hleast : tenTo 700 ≤ Nat.pow 5 1074 := by decide +kernel
  generalize Nat.pow 5 1074 = five at hten hmost hleast ⊢
  have hpos := unitsOf_pos hr
  have hfive : 0 < five := (tenTo_pos 700).trans_le hleast
  have hne : Double.unitsOf rank * five ≠ 0 := (Nat.mul_pos hpos hfive).ne'
  -- the expansion lies within the cutoffs of reading
  have hhigh : (Nat.toDigits 10 (Double.unitsOf rank * five)).length ≤ 1400 :=
    (Double.length_toDigits_le_iff _ (by decide)).mpr
      ((Nat.mul_le_mul_right _ (unitsOf_le h)).trans_lt hmost)
  have hlow : ¬(Nat.toDigits 10 (Double.unitsOf rank * five)).length ≤ 700 := fun hle =>
    Nat.not_lt.mpr (hleast.trans (Nat.le_mul_of_pos_left _ hpos))
      ((Double.length_toDigits_le_iff _ (by decide)).mp hle)
  have hrank : Double.nearestRank (Double.unitsOf rank * five) (tenTo 1074) = rank := by
    rw [hten, Double.nearestRank_mul _ _ hfive, Double.nearestRank_unitsOf h]
  have hself : Fin.ofNat (Double.infinityRank + 1) rank = ⟨rank, Nat.lt_succ_of_lt h⟩ :=
    Fin.ext (Nat.mod_eq_of_lt (Nat.lt_succ_of_lt h))
  rw [ReadsBack, readsAs, Double.ofDecimal_eq_nearest hne (by dsimp only; omega)
    (by dsimp only; omega), if_pos (show (-1074 : Int) < 0 by decide), hself]
  simp only [Double.nearest, show (-1074 : Int).natAbs = 1074 from rfl, hrank, beq_self_eq_true]

/-! ## Every finite double -/

theorem readsBack_shortest {rank : Nat} (hr : rank ≠ 0) (h : rank < Double.infinityRank) :
    (shortest rank).ReadsBack rank := by
  rw [shortest, if_neg hr]
  refine readsBack_trimZeros _ ?_
  cases hf : searchFrom rank (Double.unitsOf rank) (twoTo 1074)
      (leadingExponent (Double.unitsOf rank) (twoTo 1074)) 17 1 with
  | none => exact readsBack_exact hr h
  | some d => exact readsBack_of_searchFrom hf

theorem shortest_digits_ne_zero {rank : Nat} (hr : rank ≠ 0) (h : rank < Double.infinityRank) :
    (shortest rank).digits ≠ 0 := by
  intro h0
  have hread := readsBack_shortest hr h
  have hself : (Fin.ofNat (Double.infinityRank + 1) rank).val = rank :=
    Nat.mod_eq_of_lt (Nat.lt_succ_of_lt h)
  simp only [ReadsBack, readsAs, h0, Double.ofDecimal, if_true, Double.zero, beq_iff_eq,
    Double.signed.injEq, true_and, Fin.ext_iff, hself] at hread
  exact hr hread.symm

/-- **The shortest decimal of a finite double reads back to it.** -/
theorem ofDecimal_shortest (negative : Bool) {rank : Fin (Double.infinityRank + 1)}
    (h : rank.val < Double.infinityRank) :
    Double.ofDecimal negative (shortest rank.val).digits (shortest rank.val).exponent =
      .signed negative rank := by
  by_cases hr : rank.val = 0
  · have hz : rank = ⟨0, Nat.succ_pos _⟩ := Fin.ext hr
    simp [shortest, Double.ofDecimal, Double.zero, hz]
  · have hread := readsBack_shortest hr h
    rw [ReadsBack, readsAs, beq_iff_eq] at hread
    have hself : Fin.ofNat (Double.infinityRank + 1) rank.val = rank :=
      Fin.ext (Nat.mod_eq_of_lt rank.isLt)
    rw [hself] at hread
    exact Double.ofDecimal_negative hread

end Decimal

end CqlWorkload
