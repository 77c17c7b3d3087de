import CqlWorkload.Proofs.Text.Separator

/-!
# Parts of a text behind one another

Where a text is put together from parts, a mark tells where a part ends.  A part that has
the first character of the mark as often as another one ends where the other one does
(`append_mark_inj_of_count`), in particular if neither has it at all.

**Lists.** Items with a mark behind each are told apart, and so is what follows them if it
goes on like none of the items (`marked_append_inj`).
-/

namespace CqlWorkload.Text

section Marks

variable {x : Char} {mark a b rest rest' : String}

/-- The first character of a mark tells two texts apart in which it occurs equally often. -/
theorem append_cons_inj_of_count {cs ds more more' : List Char} (hc : cs.count x = ds.count x)
    (h : cs ++ x :: more = ds ++ x :: more') : cs = ds ∧ more = more' := by
  induction cs generalizing ds with
  | nil =>
      cases ds with
      | nil => exact ⟨rfl, (List.cons.inj h).2⟩
      | cons d ds =>
          obtain ⟨rfl, -⟩ := List.cons.inj h
          simp at hc
  | cons c cs ih =>
      cases ds with
      | nil =>
          obtain ⟨rfl, -⟩ := List.cons.inj h
          simp at hc
      | cons d ds =>
          obtain ⟨rfl, htail⟩ := List.cons.inj h
          obtain ⟨rfl, hmore⟩ := ih (by simpa [List.count_cons] using hc) htail
          exact ⟨rfl, hmore⟩

theorem append_mark_inj_of_count (hm : mark.toList.head? = some x)
    (hc : a.toList.count x = b.toList.count x)
    (h : a ++ (mark ++ rest) = b ++ (mark ++ rest')) : a = b ∧ rest = rest' := by
  obtain ⟨tail, hmark⟩ := List.head?_eq_some_iff.mp hm
  have hlist := congrArg String.toList h
  simp only [String.toList_append, hmark, List.cons_append] at hlist
  obtain ⟨hab, hrest⟩ := append_cons_inj_of_count hc hlist
  exact ⟨String.toList_inj.mp hab, String.toList_inj.mp (List.append_cancel_left hrest)⟩

theorem append_mark_inj (hm : mark.toList.head? = some x) (ha : x ∉ a.toList)
    (hb : x ∉ b.toList) (h : a ++ (mark ++ rest) = b ++ (mark ++ rest')) : a = b ∧ rest = rest' :=
  append_mark_inj_of_count hm
    ((List.count_eq_zero_of_not_mem ha).trans (List.count_eq_zero_of_not_mem hb).symm) h

/-- No text with a mark in it is empty. -/
theorem append_mark_ne_empty (hm : mark.toList.head? = some x) (a rest : String) :
    a ++ (mark ++ rest) ≠ "" := by
  intro h
  rw [String.append_eq_empty_iff, String.append_eq_empty_iff] at h
  rw [h.2.1] at hm
  cases hm

/-! ## Lists -/

/-- The items of a list with a mark behind each. -/
def marked (mark : String) (items : List String) : String := String.join (items.map (· ++ mark))

@[simp] theorem marked_nil : marked mark [] = "" := rfl

@[simp] theorem marked_cons {items : List String} :
    marked mark (a :: items) = a ++ (mark ++ marked mark items) := by
  simp [marked, String.append_assoc]

/-- Items that are joined by a mark lack it behind the last one only. -/
theorem joinWith_append_mark {items : List String} (h : items ≠ []) :
    joinWith mark items ++ mark = marked mark items := by
  induction items with
  | nil => exact absurd rfl h
  | cons a rest ih =>
      cases rest with
      | nil => simp [joinWith]
      | cons b more =>
          rw [joinWith_cons_cons, marked_cons, ← ih (List.cons_ne_nil b more),
            String.append_assoc, String.append_assoc]

/-- **Marked items are told apart** from each other and from what follows them. -/
theorem marked_append_inj (hm : mark.toList.head? = some x) {first second : List String}
    (hf : ∀ item, item ∈ first → x ∉ item.toList) (hs : ∀ item, item ∈ second → x ∉ item.toList)
    (hrest : ∀ item more, item ∈ second → rest ≠ item ++ (mark ++ more))
    (hrest' : ∀ item more, item ∈ first → rest' ≠ item ++ (mark ++ more))
    (h : marked mark first ++ rest = marked mark second ++ rest') :
    first = second ∧ rest = rest' := by
  induction first generalizing second with
  | nil =>
      cases second with
      | nil => simpa using h
      | cons b others =>
          rw [marked_nil, String.empty_append, marked_cons, String.append_assoc,
            String.append_assoc] at h
          exact absurd h (hrest b _ (List.mem_cons_self ..))
  | cons a items ih =>
      cases second with
      | nil =>
          rw [marked_nil, String.empty_append, marked_cons, String.append_assoc,
            String.append_assoc] at h
          exact absurd h.symm (hrest' a _ (List.mem_cons_self ..))
      | cons b others =>
          rw [marked_cons, marked_cons, String.append_assoc, String.append_assoc,
            String.append_assoc, String.append_assoc] at h
          obtain ⟨rfl, htail⟩ := append_mark_inj hm (hf a (List.mem_cons_self ..))
            (hs b (List.mem_cons_self ..)) h
          obtain ⟨rfl, hsame⟩ := ih (fun item hi => hf item (List.mem_cons_of_mem _ hi))
            (fun item hi => hs item (List.mem_cons_of_mem _ hi))
            (fun item more hi => hrest item more (List.mem_cons_of_mem _ hi))
            (fun item more hi => hrest' item more (List.mem_cons_of_mem _ hi)) htail
          exact ⟨rfl, hsame⟩

theorem marked_inj (hm : mark.toList.head? = some x) {first second : List String}
    (hf : ∀ item, item ∈ first → x ∉ item.toList) (hs : ∀ item, item ∈ second → x ∉ item.toList)
    (h : marked mark first = marked mark second) : first = second := by
  have h : marked mark first ++ "" = marked mark second ++ "" := by rw [h]
  exact (marked_append_inj hm hf hs (fun item more _ => (append_mark_ne_empty hm item more).symm)
    (fun item more _ => (append_mark_ne_empty hm item more).symm) h).1

theorem marked_eq_of_joinWith_eq {first second : List String} (hf : first ≠ []) (hs : second ≠ [])
    (h : joinWith mark first = joinWith mark second) : marked mark first = marked mark second := by
  rw [← joinWith_append_mark hf, ← joinWith_append_mark hs, h]

theorem not_mem_joinWith {names : List String} (hm : x ∉ mark.toList)
    (h : ∀ name, name ∈ names → x ∉ name.toList) : x ∉ (joinWith mark names).toList := by
  intro hj
  rcases mem_toList_joinWith hj with hx | ⟨name, hn, hx⟩
  · exact hm hx
  · exact h name hn hx

end Marks

/-! ## Plain names -/

/-- A text of letters, digits and underscores. -/
def IsPlainName (s : String) : Prop := ∀ c, c ∈ s.toList → c.isAlphanum = true ∨ c = '_'

instance (s : String) : Decidable (IsPlainName s) :=
  List.decidableBAll (fun c : Char => c.isAlphanum = true ∨ c = '_') s.toList

/-- No other character is in a plain name. -/
theorem IsPlainName.not_mem {s : String} (h : IsPlainName s) {c : Char}
    (ha : c.isAlphanum = false) (hc : c ≠ '_') : c ∉ s.toList := by
  intro hm
  rcases h c hm with hn | hn
  · rw [ha] at hn
    cases hn
  · exact hc hn

end CqlWorkload.Text
