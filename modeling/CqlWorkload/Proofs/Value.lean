import CqlWorkload.Proofs.Number.Rounding
import CqlWorkload.Value
import Mathlib.Algebra.Order.Field.Rat

/-!
# Numbers and mappings among values

**Numbers.** Truth values, whole numbers and doubles have exact values, and two of them
are the same key exactly when these are equal (`sameKey_iff_quantity?`), whatever kinds
they are of.

**Mappings.** What is put under a text key is found under it, and nothing else changes
(`lookup_putKey_self`, `filter_putKey`).
-/

namespace CqlWorkload

/-- The exact value of a number: a fraction, or one of the two ends of the line. -/
inductive Quantity
  | finite (q : ℚ)
  | infinite (negative : Bool)
  deriving DecidableEq

/-! ## Doubles -/

namespace Double

/-- The fraction that a finite double is. -/
def fraction (x : Double) : ℚ := x.units / twoTo 1074

/-- The exact value of a double, none for `nan`. -/
def quantity? : Double → Option Quantity
  | .nan => none
  | .signed negative rank =>
      if rank.val < infinityRank then some (.finite (Double.signed negative rank).fraction)
      else some (.infinite negative)

theorem isSome_quantity?_iff {x : Double} : x.quantity?.isSome = true ↔ x.isNaN = false := by
  cases x with
  | nan => simp [quantity?, isNaN]
  | signed negative rank =>
      rw [quantity?]
      split <;> simp [isNaN]

theorem unitsOf_inj {a b : Nat} (ha : a < infinityRank) (hb : b < infinityRank) :
    unitsOf a = unitsOf b ↔ a = b := by
  refine ⟨fun h => ?_, congrArg unitsOf⟩
  rw [← nearestRank_unitsOf ha, h, nearestRank_unitsOf hb]

theorem infinityRank_pos : 0 < infinityRank := by decide

theorem unitsOf_eq_zero_iff {a : Nat} (ha : a < infinityRank) : unitsOf a = 0 ↔ a = 0 := by
  have hzero : unitsOf 0 = 0 := rfl
  rw [← unitsOf_inj ha infinityRank_pos, hzero]

/-- Finite doubles are at the same place exactly when their values are the same. -/
theorem units_eq_iff {s t : Bool} {a b : Fin (infinityRank + 1)} (ha : a.val < infinityRank)
    (hb : b.val < infinityRank) : (signed s a).units = (signed t b).units ↔
      (signed s a).place = (signed t b).place := by
  have hinj := unitsOf_inj ha hb
  have hza := unitsOf_eq_zero_iff ha
  have hzb := unitsOf_eq_zero_iff hb
  cases s <;> cases t <;> simp only [units, place, Bool.false_eq_true, if_true, if_false] <;> omega

theorem twoTo_cast_ne_zero : (twoTo 1074 : ℚ) ≠ 0 :=
  Nat.cast_ne_zero.mpr (Nat.pos_iff_ne_zero.mp (twoTo_pos 1074))

theorem fraction_eq_fraction_iff {x y : Double} : x.fraction = y.fraction ↔ x.units = y.units := by
  rw [fraction, fraction, div_left_inj' twoTo_cast_ne_zero, Int.cast_inj]

theorem fraction_eq_intCast_iff {x : Double} {n : Int} :
    x.fraction = n ↔ x.units = n * twoTo 1074 := by
  rw [fraction, div_eq_iff twoTo_cast_ne_zero, ← Int.cast_natCast, ← Int.cast_mul, Int.cast_inj]

theorem same_signed_iff {s t : Bool} {a b : Fin (infinityRank + 1)} :
    (signed s a).same (signed t b) = true ↔ (signed s a).place = (signed t b).place := by
  simp [same, isNaN]

/-- Doubles are equal as numbers exactly when their exact values are. -/
theorem same_iff_quantity? {x y : Double} (hx : x.isNaN = false) :
    x.same y = true ↔ x.quantity? = y.quantity? := by
  cases x with
  | nan => cases hx
  | signed s a =>
      cases y with
      | nan =>
          have hsame : (signed s a).same .nan = false := rfl
          rw [hsame]
          simp only [quantity?]
          split_ifs <;> simp
      | signed t b =>
          have hpos := infinityRank_pos
          have hla := a.isLt
          have hlb := b.isLt
          rw [same_signed_iff, quantity?, quantity?]
          split_ifs with ha hb hb
          · rw [← units_eq_iff ha hb, Option.some.injEq, Quantity.finite.injEq,
              fraction_eq_fraction_iff]
          · refine iff_of_false (fun h => ?_) (by simp)
            cases s <;> cases t <;>
              simp only [place, Bool.false_eq_true, if_true, if_false] at h <;> omega
          · refine iff_of_false (fun h => ?_) (by simp)
            cases s <;> cases t <;>
              simp only [place, Bool.false_eq_true, if_true, if_false] at h <;> omega
          · rw [Option.some.injEq, Quantity.infinite.injEq]
            have hae : a.val = infinityRank := by omega
            have hbe : b.val = infinityRank := by omega
            cases s <;> cases t <;> simp [place, hae, hbe] <;> omega

theorem toInt?_eq_none {x : Double} (h : x.isFinite = false) : x.toInt? = none := by
  rw [toInt?, h, Bool.false_and, if_neg Bool.false_ne_true]

theorem toInt?_eq_some_iff_units {x : Double} (h : x.isFinite = true) {n : Int} :
    x.toInt? = some n ↔ x.units = n * twoTo 1074 := by
  have hne : (twoTo 1074 : Int) ≠ 0 := Int.natCast_ne_zero.mpr (twoTo_pos 1074).ne'
  rw [toInt?, h, Bool.true_and]
  constructor
  · intro hn
    split_ifs at hn with hmod
    cases hn
    exact (Int.ediv_mul_cancel (Int.dvd_of_emod_eq_zero (beq_iff_eq.mp hmod))).symm
  · intro hn
    rw [hn, Int.mul_emod_left, if_pos (beq_self_eq_true 0), Int.mul_ediv_cancel n hne]

/-- A double is a whole number exactly when its exact value is. -/
theorem toInt?_eq_some_iff {x : Double} {n : Int} :
    x.toInt? = some n ↔ x.quantity? = some (.finite n) := by
  cases x with
  | nan =>
      rw [toInt?_eq_none rfl]
      exact iff_of_false nofun nofun
  | signed s a =>
      rw [quantity?]
      by_cases ha : a.val < infinityRank
      · have hfinite : (signed s a).isFinite = true := decide_eq_true ha
        rw [toInt?_eq_some_iff_units hfinite, if_pos ha, Option.some.injEq,
          Quantity.finite.injEq, fraction_eq_intCast_iff]
      · have hinfinite : (signed s a).isFinite = false := decide_eq_false ha
        rw [toInt?_eq_none hinfinite, if_neg ha]
        exact iff_of_false nofun nofun

end Double

namespace Value

/-- The exact value of a number, truth values being one and zero. -/
def quantity? : Value → Option Quantity
  | .bool b => some (.finite (if b then 1 else 0))
  | .int n => some (.finite n)
  | .float x => x.quantity?
  | _ => none

theorem amount?_eq_whole_iff {v : Value} {n : Int} :
    v.amount? = some (.whole n) ↔ v.quantity? = some (.finite n) := by
  cases v with
  | bool b => cases b <;> simp [amount?, quantity?, eq_comm]
  | int m => simp [amount?, quantity?]
  | float x =>
      rw [quantity?, ← Double.toInt?_eq_some_iff, amount?]
      cases x.toInt? <;> simp
  | _ => simp [amount?, quantity?]

theorem amount?_eq_none_of_quantity? {v : Value} (h : v.amount? = none) : v.quantity? = none := by
  cases v with
  | bool b => cases h
  | int n => cases h
  | float x =>
      rw [amount?] at h
      split at h <;> cases h
  | _ => rfl

theorem eq_float_of_amount? {v : Value} {x : Double} (h : v.amount? = some (.broken x)) :
    v = .float x := by
  cases v with
  | float y =>
      rw [amount?] at h
      split at h
      · cases h
      · rw [Amount.broken.inj (Option.some.inj h)]
  | _ => cases h

/-- A number of the same exact value as a double that is no whole number is one, too. -/
theorem exists_broken_of_quantity? {x y : Value} {a : Double} {e : Quantity}
    (hax : x.amount? = some (.broken a)) (hx : x.quantity? = some e) (hy : y.quantity? = some e) :
    ∃ b, y.amount? = some (.broken b) := by
  cases hay : y.amount? with
  | none =>
      rw [amount?_eq_none_of_quantity? hay] at hy
      cases hy
  | some other =>
      cases other with
      | whole m =>
          -- The other number would be whole, so this one would be, too.
          rw [hy.symm.trans (amount?_eq_whole_iff.mp hay), ← amount?_eq_whole_iff, hax] at hx
          cases hx
      | broken b => exact ⟨b, rfl⟩

theorem sameKey_iff_of_whole {x y : Value} {n : Int} (hx : x.amount? = some (.whole n)) :
    x.sameKey y = true ↔ y.amount? = some (.whole n) := by
  rw [sameKey, hx]
  cases y.amount? with
  | none => simp
  | some other =>
      show (Amount.whole n == other) = true ↔ _
      rw [beq_iff_eq, Option.some.injEq]
      exact eq_comm

theorem sameKey_iff_of_broken {x y : Value} {a : Double} (hx : x.amount? = some (.broken a)) :
    x.sameKey y = true ↔ ∃ b, y.amount? = some (.broken b) ∧ a.same b = true := by
  rw [sameKey, hx]
  cases y.amount? with
  | none => simp
  | some other =>
      cases other with
      | whole m => simp
      | broken b => simp

/-- **Numbers as keys.** A number is the same key as the values of the same exact value,
and as no other value. -/
theorem sameKey_iff_quantity? {x y : Value} {e : Quantity} (hx : x.quantity? = some e) :
    x.sameKey y = true ↔ y.quantity? = some e := by
  cases hax : x.amount? with
  | none =>
      rw [amount?_eq_none_of_quantity? hax] at hx
      cases hx
  | some amount =>
      cases amount with
      | whole n =>
          obtain rfl : Quantity.finite n = e :=
            Option.some.inj ((amount?_eq_whole_iff.mp hax).symm.trans hx)
          rw [sameKey_iff_of_whole hax, amount?_eq_whole_iff]
      | broken a =>
          obtain rfl := eq_float_of_amount? hax
          have hsame (b : Double) : a.same b = true ↔ b.quantity? = some e := by
            rw [Double.same_iff_quantity? (Double.isSome_quantity?_iff.mp
              (Option.isSome_of_eq_some hx)), show a.quantity? = some e from hx]
            exact eq_comm
          rw [sameKey_iff_of_broken hax]
          constructor
          · rintro ⟨b, hb, hab⟩
            obtain rfl := eq_float_of_amount? hb
            exact (hsame b).mp hab
          · intro hy
            obtain ⟨b, hb⟩ := exists_broken_of_quantity? hax hx hy
            obtain rfl := eq_float_of_amount? hb
            exact ⟨b, hb, (hsame b).mpr hy⟩

/-- A value that is neither a number nor a place in time is the same key as itself only. -/
theorem sameKey_iff_eq {x y : Value} (h : x.amount? = none ∨ y.amount? = none)
    (hi : x.instant? = none ∨ y.instant? = none) : x.sameKey y = true ↔ x = y := by
  rw [sameKey]
  cases hx : x.amount? with
  | none =>
      cases hy : y.amount? with
      | none =>
          rcases hi with hi | hi
          · simp only [hi]
            exact beq_iff_eq
          · simp only [hi]
            cases x.instant? <;> exact beq_iff_eq
      | some b =>
          refine iff_of_false Bool.false_ne_true ?_
          rintro rfl
          cases hx.symm.trans hy
  | some a =>
      have hy : y.amount? = none := h.resolve_left fun hn => by cases hx.symm.trans hn
      rw [hy]
      refine iff_of_false (by simp) ?_
      rintro rfl
      cases hx.symm.trans hy

/-! ## Mappings -/

theorem sameKey_text_iff {v : Value} {name : String} :
    v.sameKey (.text name) = true ↔ v = .text name :=
  sameKey_iff_eq (Or.inr rfl) (Or.inr rfl)

theorem lookup_eq_none_iff {entries : List (Value × Value)} {name : String} :
    lookup entries name = none ↔ ∀ entry, entry ∈ entries → entry.1 ≠ .text name := by
  induction entries with
  | nil => simp [lookup]
  | cons entry rest ih =>
      rw [lookup]
      split
      next h => simp [h]
      next h => rw [ih, List.forall_mem_cons, and_iff_right h]

theorem lookup_putKey_self (entries : List (Value × Value)) (name : String) (value : Value) :
    lookup (putKey entries (.text name) value) name = some value := by
  induction entries with
  | nil => simp [putKey, lookup]
  | cons entry rest ih =>
      rw [putKey]
      split
      next h => rw [lookup, if_pos (sameKey_text_iff.mp h)]
      next h => rw [lookup, if_neg (mt sameKey_text_iff.mpr h), ih]

/-- Putting a value under a key changes no entry of another key. -/
theorem filter_putKey (keep : Value → Bool) {name : String} (h : keep (.text name) = false)
    (entries : List (Value × Value)) (value : Value) :
    (putKey entries (.text name) value).filter (keep ·.1) = entries.filter (keep ·.1) := by
  induction entries with
  | nil => simp [putKey, h]
  | cons entry rest ih =>
      rw [putKey]
      split
      next hk =>
        have hkey := sameKey_text_iff.mp hk
        simp [hkey, h]
      next hk => rw [List.filter_cons, List.filter_cons, ih]

theorem lookup_putKey_of_ne {name other : String} (h : other ≠ name)
    (entries : List (Value × Value)) (value : Value) :
    lookup (putKey entries (.text name) value) other = lookup entries other := by
  induction entries with
  | nil => simp [putKey, lookup, h.symm]
  | cons entry rest ih =>
      rw [putKey]
      split
      next hk =>
        have hne : entry.1 ≠ .text other := by
          rw [sameKey_text_iff.mp hk]
          simpa using h.symm
        rw [lookup, lookup, if_neg hne, if_neg hne]
      next hk => rw [lookup, lookup, ih]

end Value
end CqlWorkload
