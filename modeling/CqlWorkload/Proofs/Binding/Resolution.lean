import CqlWorkload.Proofs.Pattern.Literal
import CqlWorkload.Proofs.Text.Blank
import Mathlib.Data.List.TakeWhile

/-!
# Built-in recipes

What the built-in library finds for a collection and for a frozen type, whatever
stands inside the brackets.

**Depth.** Looking inside `frozen` shortens the text, so a search that may go as
deep as the text is long finds what any deeper one finds (`builtInRecipe?_eq`).

**Equations.** A collection has the recipe of its element generators, and a frozen
type the recipe of the type inside (`resolve_list`, `resolve_set`, `resolve_map`,
`resolve_frozen`).
-/

namespace CqlWorkload

namespace Text

theorem after?_eq_some_iff {start cs rest : List Char} :
    after? start cs = some rest ↔ cs = start ++ rest := by
  induction start generalizing cs with
  | nil => simp [after?]
  | cons p ps ih =>
      cases cs with
      | nil => simp [after?]
      | cons c others =>
          by_cases h : p = c
          · simp [after?, h, ih]
          · simp [after?, h, Ne.symm h]

theorem before?_eq_some_iff {ending cs front : List Char} :
    before? ending cs = some front ↔ cs = front ++ ending := by
  rw [before?, Option.map_eq_some_iff]
  constructor
  · rintro ⟨rest, hrest, rfl⟩
    rw [← List.reverse_reverse cs, after?_eq_some_iff.mp hrest]
    simp
  · rintro rfl
    exact ⟨front.reverse, after?_eq_some_iff.mpr (by simp), List.reverse_reverse front⟩

end Text

namespace Library

/-! ## Words and brackets -/

theorem afterWord?_eq_some_iff {ps cs rest : List Char} :
    afterWord? ps cs = some rest ↔ ∃ front, isWord ps front = true ∧ cs = front ++ rest := by
  induction ps generalizing cs with
  | nil =>
      constructor
      · rintro ⟨⟩
        exact ⟨[], rfl, rfl⟩
      · rintro ⟨front, hfront, rfl⟩
        cases front with
        | nil => rfl
        | cons c others => cases hfront
  | cons p ps ih =>
      constructor
      · intro h
        cases cs with
        | nil => cases h
        | cons c others =>
            rw [afterWord?] at h
            split_ifs at h with hlike
            obtain ⟨front, hfront, rfl⟩ := ih.mp h
            exact ⟨c :: front, by simp [isWord, hlike, hfront], rfl⟩
      · rintro ⟨front, hfront, rfl⟩
        cases front with
        | nil => cases hfront
        | cons c front =>
            obtain ⟨hlike, hrest⟩ := Bool.and_eq_true_iff.mp hfront
            rw [List.cons_append, afterWord?, if_pos hlike]
            exact ih.mpr ⟨front, hrest, rfl⟩

/-- What stands inside brackets is found unless it is empty. -/
theorem inside?_append {word : String} {front : List Char}
    (h : isWord (word.toList ++ ['<']) front = true) (inner : List Char) :
    inside? word (front ++ (inner ++ ['>'])) = if inner = [] then none else some inner := by
  have hrest : afterWord? (word.toList ++ ['<']) (front ++ (inner ++ ['>'])) =
      some (inner ++ ['>']) := afterWord?_eq_some_iff.mpr ⟨front, h, rfl⟩
  have hbefore : Text.before? ['>'] (inner ++ ['>']) = some inner :=
    Text.before?_eq_some_iff.mpr rfl
  simp only [inside?, hrest, hbefore]
  cases inner <;> rfl

theorem inside?_eq_some_iff {word : String} {cs inner : List Char} :
    inside? word cs = some inner ↔ inner ≠ [] ∧
      ∃ front, isWord (word.toList ++ ['<']) front = true ∧ cs = front ++ (inner ++ ['>']) := by
  constructor
  · intro h
    rw [inside?] at h
    split at h
    next => cases h
    next rest hrest =>
      obtain ⟨front, hfront, rfl⟩ := afterWord?_eq_some_iff.mp hrest
      split at h
      next c others hbefore =>
        cases h
        rw [Text.before?_eq_some_iff.mp hbefore]
        exact ⟨List.cons_ne_nil c others, front, hfront, rfl⟩
      next => cases h
  · rintro ⟨hne, front, hfront, rfl⟩
    rw [inside?_append hfront, if_neg hne]

theorem length_lt_of_inside? {word : String} {cs inner : List Char}
    (h : inside? word cs = some inner) : inner.length < cs.length := by
  obtain ⟨-, front, -, rfl⟩ := inside?_eq_some_iff.mp h
  simp
  omega

/-- The parts around the first comma are found unless one of them is empty. -/
theorem aroundComma?_append {key : List Char} (h : ',' ∉ key) (value : List Char) :
    aroundComma? (key ++ ',' :: value) =
      if key = [] ∨ value = [] then none else some (key, value) := by
  have hfront : ∀ c ∈ key, (c != ',') = true := by
    intro c hc
    rw [bne_iff_ne]
    rintro rfl
    exact h hc
  simp only [aroundComma?, List.takeWhile_append_of_pos hfront,
    List.dropWhile_append_of_pos hfront]
  cases key <;> cases value <;> simp

theorem eq_of_aroundComma? {cs key value : List Char} (h : aroundComma? cs = some (key, value)) :
    ',' ∉ key ∧ cs = key ++ ',' :: value := by
  unfold aroundComma? at h
  split at h
  next c front sep d behind hfront hbehind =>
    cases h
    obtain rfl : sep = ',' := by
      have hhead := List.head?_dropWhile_not (· != ',') cs
      rw [hbehind] at hhead
      simpa using hhead
    rw [← hfront, ← hbehind, List.takeWhile_append_dropWhile]
    exact ⟨fun hin => absurd (List.mem_takeWhile_imp hin) (by decide), rfl⟩
  next => cases h

/-! ## Depth -/

/-- A rule looks up shorter texts only. -/
theorem ruleRecipe?_congr {f g : List Char → Option String} {cs : List Char}
    (h : ∀ inner, inner.length < cs.length → f inner = g inner) (rule : Rule) :
    ruleRecipe? f cs rule = ruleRecipe? g cs rule := by
  cases rule with
  | frozen =>
      cases hinner : inside? "frozen" cs with
      | none => simp [ruleRecipe?, hinner]
      | some inner => simp [ruleRecipe?, hinner, h inner (length_lt_of_inside? hinner)]
  | _ => rfl

theorem firstRecipe?_congr {f g : List Char → Option String} {cs : List Char}
    (h : ∀ inner, inner.length < cs.length → f inner = g inner) (rules : List Rule) :
    firstRecipe? f rules cs = firstRecipe? g rules cs :=
  congrArg (rules.findSome? ·) (funext (ruleRecipe?_congr h))

/-- **A search deeper than the text is long finds nothing more.** -/
theorem builtInRecipe?_eq {cs : List Char} {m n : Nat} (hm : cs.length < m)
    (hn : cs.length < n) : builtInRecipe? m cs = builtInRecipe? n cs := by
  induction m generalizing cs n with
  | zero => omega
  | succ m ih =>
      obtain ⟨n, rfl⟩ := Nat.exists_eq_add_one_of_ne_zero (Nat.ne_zero_of_lt hn)
      exact firstRecipe?_congr (fun inner hinner => ih (by omega) (by omega)) _

theorem resolve_builtIn_eq {type : String} {depth : Nat}
    (h : (Text.withoutBlanks type).toList.length < depth) :
    builtIn.resolve type = builtInRecipe? depth (Text.withoutBlanks type).toList :=
  builtInRecipe?_eq (Nat.lt_succ_self _) h

/-! ## Collections and frozen types -/

section Equations

variable {f : List Char → Option String} {inner : List Char}

/-- When the rules around one have no recipe, the recipe is that rule's. -/
theorem firstRecipe?_eq_rule {cs : List Char} (rule : Rule) (place : Nat)
    (hrule : builtIn.rules = builtIn.rules.take place ++ rule :: builtIn.rules.drop (place + 1))
    (hbefore : (builtIn.rules.take place).findSome? (ruleRecipe? f cs) = none)
    (hbehind : (builtIn.rules.drop (place + 1)).findSome? (ruleRecipe? f cs) = none) :
    firstRecipe? f builtIn.rules cs = ruleRecipe? f cs rule := by
  rw [firstRecipe?, hrule, List.findSome?_append, hbefore, Option.none_or, List.findSome?_cons,
    hbehind]
  cases ruleRecipe? f cs rule <;> rfl

/-- An empty text is no element, so empty brackets need no look of their own. -/
theorem element?_inside? {word : String} {front : List Char}
    (h : isWord (word.toList ++ ['<']) front = true) (inner : List Char)
    (recipe : String → String) :
    ((inside? word (front ++ (inner ++ ['>']))).bind fun inner => (element? inner).map recipe) =
      (element? inner).map recipe := by
  rw [inside?_append h]
  split_ifs with hempty
  · rw [hempty]
    rfl
  · rfl

theorem firstRecipe?_list (f : List Char → Option String) (inner : List Char) :
    firstRecipe? f builtIn.rules ("list<".toList ++ (inner ++ ['>'])) =
      (element? inner).map fun e => "ListSizedHashed(" ++ collectionSize ++ "," ++ e ++ ")" := by
  rw [firstRecipe?_eq_rule .list 20 rfl rfl rfl]
  exact element?_inside? rfl inner _

theorem firstRecipe?_set (f : List Char → Option String) (inner : List Char) :
    firstRecipe? f builtIn.rules ("set<".toList ++ (inner ++ ['>'])) =
      (element? inner).map fun e => "SetSizedHashed(" ++ collectionSize ++ "," ++ e ++ ")" := by
  rw [firstRecipe?_eq_rule .set 21 rfl rfl rfl]
  exact element?_inside? rfl inner _

theorem firstRecipe?_map (f : List Char → Option String) {key : List Char} (h : ',' ∉ key)
    (value : List Char) :
    firstRecipe? f builtIn.rules ("map<".toList ++ (key ++ ',' :: value ++ ['>'])) =
      (element? key).bind fun k => (element? value).map fun v =>
        "MapSizedHashed(" ++ collectionSize ++ "," ++ k ++ "," ++ v ++ ")" := by
  have helement : element? [] = none := rfl
  rw [firstRecipe?_eq_rule .map 22 rfl rfl rfl, ruleRecipe?, inside?_append rfl,
    if_neg (by simp), Option.bind_some, aroundComma?_append h]
  split_ifs with hempty
  · rcases hempty with rfl | rfl <;> simp [helement]
  · cases hk : element? key <;> cases hv : element? value <;> simp [hk, hv]

theorem firstRecipe?_frozen (f : List Char → Option String) (hne : inner ≠ []) :
    firstRecipe? f builtIn.rules ("frozen<".toList ++ (inner ++ ['>'])) = f inner := by
  rw [firstRecipe?_eq_rule .frozen 23 rfl rfl rfl, ruleRecipe?, inside?_append rfl,
    if_neg hne, Option.bind_some]

end Equations

/-- A type in brackets without blanks. -/
theorem toList_withoutBlanks_brackets {word : String}
    (h : Text.IsBlankFree word) (t : String) :
    (Text.withoutBlanks (word ++ t ++ ">")).toList =
      word.toList ++ ((Text.withoutBlanks t).toList ++ ['>']) := by
  rw [Text.withoutBlanks_append, Text.withoutBlanks_append, Text.withoutBlanks_eq_self h,
    Text.withoutBlanks_eq_self (s := ">") (by decide)]
  simp

/-- The recipe of a list is made of the generator of its elements. -/
theorem resolve_list (t : String) : builtIn.resolve ("list<" ++ t ++ ">") =
    (element? (Text.withoutBlanks t).toList).map fun e =>
      "ListSizedHashed(" ++ collectionSize ++ "," ++ e ++ ")" := by
  rw [resolve, toList_withoutBlanks_brackets (by decide), firstRecipe?_list]

/-- The recipe of a set is made of the generator of its elements. -/
theorem resolve_set (t : String) : builtIn.resolve ("set<" ++ t ++ ">") =
    (element? (Text.withoutBlanks t).toList).map fun e =>
      "SetSizedHashed(" ++ collectionSize ++ "," ++ e ++ ")" := by
  rw [resolve, toList_withoutBlanks_brackets (by decide), firstRecipe?_set]

/-- The recipe of a map is made of the generators of its keys and its values. -/
theorem resolve_map {key : String} (h : ',' ∉ key.toList) (value : String) :
    builtIn.resolve ("map<" ++ (key ++ "," ++ value) ++ ">") =
      (element? (Text.withoutBlanks key).toList).bind fun k =>
        (element? (Text.withoutBlanks value).toList).map fun v =>
          "MapSizedHashed(" ++ collectionSize ++ "," ++ k ++ "," ++ v ++ ")" := by
  have hkey : ',' ∉ (Text.withoutBlanks key).toList := fun hmem =>
    h (Text.mem_withoutBlanks.mp hmem).1
  have hparts : (Text.withoutBlanks (key ++ "," ++ value)).toList =
      (Text.withoutBlanks key).toList ++ ',' :: (Text.withoutBlanks value).toList := by
    rw [Text.withoutBlanks_append, Text.withoutBlanks_append,
      Text.withoutBlanks_eq_self (s := ",") (by decide)]
    simp
  rw [resolve, toList_withoutBlanks_brackets (by decide), hparts, firstRecipe?_map _ hkey]

/-- **A frozen type has the recipe of the type inside.** -/
theorem resolve_frozen (t : String) :
    builtIn.resolve ("frozen<" ++ t ++ ">") = builtIn.resolve t := by
  rw [resolve, toList_withoutBlanks_brackets (by decide)]
  by_cases hempty : (Text.withoutBlanks t).toList = []
  · rw [resolve, hempty]
    rfl
  · rw [firstRecipe?_frozen _ hempty]
    exact builtInRecipe?_eq (by simp; omega) (Nat.lt_succ_self _)

end Library
end CqlWorkload
