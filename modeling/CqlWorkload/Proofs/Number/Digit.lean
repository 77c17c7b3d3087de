import CqlWorkload.Number.Digit
import CqlWorkload.Text.Quoted
import Mathlib.Data.List.Basic
import Mathlib.Data.List.Induction
import Mathlib.Tactic.Ring

/-!
# Digits of numbers

The digits of a number to a base read back as the number, with any zeros in
front of them (`number?_toDigits`, `number?_zeros_append`).
-/

namespace CqlWorkload
namespace Digit

/-! ## Values of digits -/

theorem value?_digitChar {base d : Nat} (hb : base ≤ 16) (hd : d < base) :
    value? base d.digitChar = some d := by
  have hall : ∀ n < 16, ∀ m < n + 1, value? (n + 1) m.digitChar = some m := by decide
  obtain ⟨n, rfl⟩ : ∃ n, base = n + 1 := ⟨base - 1, by omega⟩
  exact hall n (by omega) d hd

theorem value?_zero {base : Nat} (hb : 0 < base) : value? base '0' = some 0 := by
  simp [value?, hb]

theorem value?_of_isDigit {c : Char} (h : c.isDigit = true) :
    value? 10 c = some (c.toNat - '0'.toNat) := by
  have hcode : 48 ≤ c.toNat ∧ c.toNat ≤ 57 := Char.isDigit_iff_toNat.mp h
  simp [value?, h]
  omega

/-! ## Numbers -/

theorem ofValues_append_singleton (base : Nat) (values : List Nat) (d : Nat) :
    ofValues base (values ++ [d]) = base * ofValues base values + d := by
  simp [ofValues]

theorem number?_append_singleton {base n d : Nat} {cs : List Char} {c : Char}
    (hn : number? base cs = some n) (hd : value? base c = some d) :
    number? base (cs ++ [c]) = some (base * n + d) := by
  rw [number?, Option.map_eq_some_iff] at hn ⊢
  obtain ⟨values, hv, rfl⟩ := hn
  exact ⟨values ++ [d], by simp [hv, hd], ofValues_append_singleton _ _ _⟩

theorem ofValues_lt {base : Nat} {values : List Nat} (h : ∀ d ∈ values, d < base) :
    ofValues base values < base ^ values.length := by
  induction values using List.reverseRecOn with
  | nil => simp [ofValues]
  | append_singleton values d ih =>
      have hvalues := ih fun other hm => h other (List.mem_append_left _ hm)
      have hd : d < base := h d (by simp)
      rw [ofValues_append_singleton, List.length_append, List.length_singleton, Nat.pow_succ']
      calc base * ofValues base values + d < base * (ofValues base values + 1) := by
            rw [Nat.mul_succ]
            omega
        _ ≤ base * base ^ values.length := Nat.mul_le_mul_left base hvalues

/-- The number of some digits is below that power of the base. -/
theorem number?_lt {base n : Nat} {cs : List Char} (h : number? base cs = some n) :
    n < base ^ cs.length := by
  have hvalues {values : List Nat} (hm : cs.mapM (value? base) = some values) :
      values.length = cs.length ∧ ∀ d ∈ values, d < base := by
    clear h
    induction cs generalizing values with
    | nil =>
        cases hm
        simp
    | cons c rest ih =>
        simp only [List.mapM_cons, Option.bind_eq_bind, Option.bind_eq_some_iff,
          Option.pure_def, Option.some.injEq] at hm
        obtain ⟨d, hd, others, hothers, rfl⟩ := hm
        obtain ⟨hlength, hlt⟩ := ih hothers
        have hdlt : d < base := by simpa using (Option.filter_eq_some_iff.mp hd).2
        exact ⟨by simp [hlength], List.forall_mem_cons.mpr ⟨hdlt, hlt⟩⟩
  obtain ⟨values, hm, rfl⟩ := Option.map_eq_some_iff.mp h
  obtain ⟨hlength, hlt⟩ := hvalues hm
  exact hlength ▸ ofValues_lt hlt

theorem number?_toDigits {base : Nat} (h1 : 1 < base) (hb : base ≤ 16) (n : Nat) :
    number? base (Nat.toDigits base n) = some n := by
  induction n using Nat.base_induction base h1 with
  | single m hm =>
      rw [Nat.toDigits_of_lt_base hm]
      simp [number?, value?_digitChar hb hm, ofValues]
  | digit m k hk hm ih =>
      rw [← Nat.toDigits_append_toDigits h1 hm hk, Nat.toDigits_of_lt_base hk]
      exact number?_append_singleton ih (value?_digitChar hb hk)

theorem number?_zeros_append {base : Nat} (hb : 0 < base) (k : Nat) (cs : List Char) :
    number? base (List.replicate k '0' ++ cs) = number? base cs := by
  induction k with
  | zero => rfl
  | succ k ih =>
      rw [← ih, List.replicate_succ, List.cons_append, number?, number?]
      cases h : (List.replicate k '0' ++ cs).mapM (value? base) with
      | none => simp [value?_zero hb, h]
      | some values => simp [value?_zero hb, h, ofValues]

/-- Digits may be replaced by others of the same values. -/
theorem number?_map {base : Nat} {f : Char → Char} {cs : List Char}
    (h : ∀ c ∈ cs, value? base (f c) = value? base c) :
    number? base (cs.map f) = number? base cs := by
  suffices hvalues : (cs.map f).mapM (value? base) = cs.mapM (value? base) by
    rw [number?, number?, hvalues]
  induction cs with
  | nil => rfl
  | cons c cs ih =>
      rw [List.map_cons, List.mapM_cons, List.mapM_cons, h c (by simp),
        ih fun d hd => h d (by simp [hd])]

/-- Digits of decimals as the number that they stand for. -/
theorem number_eq_ofDigitChars {cs : List Char} (h : ∀ c ∈ cs, c.isDigit = true) :
    number 10 cs = Nat.ofDigitChars 10 cs 0 := by
  suffices hs : ∀ n, (cs.filterMap (value? 10)).foldl (fun n d => 10 * n + d) n =
      Nat.ofDigitChars 10 cs n from hs 0
  induction cs with
  | nil => simp
  | cons c cs ih =>
      intro n
      have hc := value?_of_isDigit (h c (by simp))
      simp only [List.filterMap_cons, hc, List.foldl_cons, Nat.ofDigitChars_cons]
      exact ih (fun c hc => h c (List.mem_cons_of_mem _ hc)) _

theorem isDigit_of_mem_toDigits {n : Nat} {c : Char} (h : c ∈ Nat.toDigits 10 n) :
    c.isDigit = true :=
  Nat.isDigit_of_mem_toDigits (by decide) (by decide) h

theorem number_toDigits (n : Nat) : number 10 (Nat.toDigits 10 n) = n := by
  rw [number_eq_ofDigitChars fun c => isDigit_of_mem_toDigits]
  exact Nat.ofDigitChars_ten_toDigits

/-- A number above zero has no zero in front. -/
theorem exists_toDigits_cons {n : Nat} (hn : n ≠ 0) :
    ∃ c rest, Nat.toDigits 10 n = c :: rest ∧ c ≠ '0' := by
  induction n using Nat.base_induction 10 (by decide) with
  | single m hm =>
      have hall : ∀ m < 10, m ≠ 0 → m.digitChar ≠ '0' := by decide
      exact ⟨m.digitChar, [], Nat.toDigits_of_lt_base hm, hall m hm hn⟩
  | digit m k hk hm ih =>
      obtain ⟨c, rest, hc, h0⟩ := ih hm.ne'
      exact ⟨c, rest ++ Nat.toDigits 10 k,
        by rw [← Nat.toDigits_append_toDigits (by decide) hm hk, hc, List.cons_append], h0⟩

/-! ## Hexadecimal codes -/

theorem exists_digitChar_of_mem_toDigits {base n : Nat} {c : Char} (h1 : 1 < base)
    (hc : c ∈ Nat.toDigits base n) : ∃ d < base, c = d.digitChar := by
  induction n using Nat.base_induction base h1 with
  | single m hm =>
      rw [Nat.toDigits_of_lt_base hm, List.mem_singleton] at hc
      exact ⟨m, hm, hc⟩
  | digit m k hk hm ih =>
      rw [← Nat.toDigits_append_toDigits h1 hm hk, Nat.toDigits_of_lt_base hk,
        List.mem_append, List.mem_singleton] at hc
      rcases hc with hc | hc
      · exact ih hc
      · exact ⟨k, hk, hc⟩

theorem exists_digitChar_of_mem_hexText {width code : Nat} {c : Char}
    (hc : c ∈ Text.hexText width code) : ∃ d < 16, c = d.digitChar := by
  rw [Text.hexText, List.mem_append, List.mem_replicate] at hc
  rcases hc with ⟨-, rfl⟩ | hc
  · exact ⟨0, by decide, rfl⟩
  · exact exists_digitChar_of_mem_toDigits (by decide) hc

theorem length_hexText {width code : Nat} (hw : 0 < width) (h : code < 16 ^ width) :
    (Text.hexText width code).length = width := by
  have hle := (Nat.length_toDigits_le_iff (by decide) hw).mpr h
  simp [Text.hexText]
  omega

theorem number?_hexText (width code : Nat) : number? 16 (Text.hexText width code) = some code := by
  rw [Text.hexText, number?_zeros_append (by decide)]
  exact number?_toDigits (by decide) (by decide) code

end Digit
end CqlWorkload
