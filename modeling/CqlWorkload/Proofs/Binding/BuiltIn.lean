import CqlWorkload.Proofs.Binding.Resolution
import Mathlib.Data.List.Basic

/-!
# Built-in types

The types that the built-in library has a recipe for, as a grammar: scalar types by
name, collections of elements, and frozen types to any depth.

**Case.** A type of ASCII characters is resolved as it is without blanks and in
lower case (`resolve_lowerText`).

**Derivations.** In lower case, what is found for a type is derived in the grammar
(`builtInType_of_recipe`), and what is derived is found (`BuiltInType.resolve_eq`).

**Elements of collections.** A frozen type is looked into to any depth, but an element
stands inside at most one `frozen`, and some scalar types are no elements
(`elementType_frozenTimes_iff`, `isSome_element?_iff`).
-/

namespace CqlWorkload

namespace Library

open Text

/-! ## The grammar -/

/-- The names of a rule for scalar types. -/
def scalarNames : Rule → List String
  | .named names _ => names
  | _ => []

/-- Types of elements, with the generators of their values. -/
inductive ElementType : String → String → Prop
  | plain {name generator : String} (h : (name, generator) ∈ elementGenerators) :
      ElementType name generator
  | frozen {name generator : String} (h : (name, generator) ∈ elementGenerators) :
      ElementType ("frozen<" ++ name ++ ">") generator

/-- Types that the built-in library knows, with their recipes. -/
inductive BuiltInType : String → String → Prop
  | scalar {names : List String} {name recipe : String} (h : .named names recipe ∈ builtIn.rules)
      (hname : name ∈ names) : BuiltInType name recipe
  | list {element e : String} (h : ElementType element e) :
      BuiltInType ("list<" ++ element ++ ">")
        ("ListSizedHashed(" ++ collectionSize ++ "," ++ e ++ ")")
  | set {element e : String} (h : ElementType element e) :
      BuiltInType ("set<" ++ element ++ ">")
        ("SetSizedHashed(" ++ collectionSize ++ "," ++ e ++ ")")
  | map {key value k v : String} (hkey : ElementType key k) (hvalue : ElementType value v) :
      BuiltInType ("map<" ++ (key ++ "," ++ value) ++ ">")
        ("MapSizedHashed(" ++ collectionSize ++ "," ++ k ++ "," ++ v ++ ")")
  | frozen {type recipe : String} (h : BuiltInType type recipe) :
      BuiltInType ("frozen<" ++ type ++ ">") recipe

/-! ## Plain types -/

/-- A type as it is matched: ASCII characters in lower case and no blanks. -/
def IsPlain (type : String) : Prop :=
  IsLower type.toList ∧ IsBlankFree type

instance (type : String) : Decidable (IsPlain type) :=
  inferInstanceAs (Decidable (_ ∧ _))

namespace IsPlain

theorem isLower {type : String} (h : IsPlain type) : IsLower type.toList := h.1

theorem withoutBlanks_eq {type : String} (h : IsPlain type) : withoutBlanks type = type :=
  withoutBlanks_eq_self h.2

theorem append {s t : String} (hs : IsPlain s) (ht : IsPlain t) : IsPlain (s ++ t) := by
  rw [IsPlain, IsBlankFree, String.toList_append]
  exact ⟨List.forall_mem_append.mpr ⟨hs.1, ht.1⟩, List.forall_mem_append.mpr ⟨hs.2, ht.2⟩⟩

theorem brackets {word type : String} (h : IsPlain type) (hword : IsPlain word) :
    IsPlain (word ++ type ++ ">") :=
  (hword.append h).append (by decide)

end IsPlain

/-! ## Case -/

section Case

variable {cs : List Char}

theorem isWord_map_toLower (h : IsAscii cs) (ps : List Char) :
    isWord ps (cs.map Char.toLower) = isWord ps cs := by
  induction ps generalizing cs with
  | nil => cases cs <;> rfl
  | cons p ps ih =>
      cases cs with
      | nil => rfl
      | cons c rest =>
          obtain ⟨hc, hrest⟩ := List.forall_mem_cons.mp h
          rw [List.map_cons, isWord, isWord, Pattern.isLike_toLower p hc, ih hrest]

theorem afterWord?_map_toLower (h : IsAscii cs) (ps : List Char) :
    afterWord? ps (cs.map Char.toLower) = (afterWord? ps cs).map (List.map Char.toLower) := by
  induction ps generalizing cs with
  | nil => rfl
  | cons p ps ih =>
      cases cs with
      | nil => rfl
      | cons c rest =>
          obtain ⟨hc, hrest⟩ := List.forall_mem_cons.mp h
          rw [List.map_cons, afterWord?, afterWord?, Pattern.isLike_toLower p hc, ih hrest]
          split_ifs <;> rfl

theorem before?_map_toLower (cs : List Char) :
    before? ['>'] (cs.map Char.toLower) = (before? ['>'] cs).map (List.map Char.toLower) := by
  rw [before?, before?, ← List.map_reverse]
  cases cs.reverse with
  | nil => rfl
  | cons last others =>
      have hmark : '>' = last.toLower ↔ '>' = last := by
        rw [eq_comm, toLower_eq_mark_iff (by decide), eq_comm]
      simp only [List.map_cons, List.reverse_singleton, after?, hmark]
      split_ifs <;> simp

theorem inside?_map_toLower (h : IsAscii cs) (word : String) :
    inside? word (cs.map Char.toLower) = (inside? word cs).map (List.map Char.toLower) := by
  rw [inside?, inside?, afterWord?_map_toLower h]
  cases afterWord? (word.toList ++ ['<']) cs with
  | none => rfl
  | some rest =>
      simp only [Option.map_some, before?_map_toLower]
      rcases before? ['>'] rest with _ | _ | ⟨c, inner⟩ <;> rfl

theorem aroundComma?_map_toLower (cs : List Char) :
    aroundComma? (cs.map Char.toLower) = (aroundComma? cs).map
      (Prod.map (List.map Char.toLower) (List.map Char.toLower)) := by
  have hcomma : (· != ',') ∘ Char.toLower = (· != ',') := by
    funext c
    rw [Function.comp_apply, Bool.eq_iff_iff, bne_iff_ne, bne_iff_ne]
    exact not_congr (toLower_eq_mark_iff (by decide) c)
  rw [aroundComma?, aroundComma?, List.takeWhile_map, List.dropWhile_map, hcomma]
  rcases cs.takeWhile (· != ',') with _ | ⟨c, key⟩ <;>
    rcases cs.dropWhile (· != ',') with _ | ⟨sep, _ | ⟨d, value⟩⟩ <;> rfl

theorem element?_map_toLower (h : IsAscii cs) :
    element? (cs.map Char.toLower) = element? cs := by
  rw [element?, h.isLower_map.map_toLower, element?]

/-- The built-in rules read a type of ASCII characters without regard to case. -/
theorem ruleRecipe?_map_toLower (h : IsAscii cs) {f : List Char → Option String}
    (hf : ∀ inner, IsAscii inner → f (inner.map Char.toLower) = f inner) {rule : Rule}
    (hrule : rule ∈ builtIn.rules) :
    ruleRecipe? f (cs.map Char.toLower) rule = ruleRecipe? f cs rule := by
  have hinner {word : String} {inner : List Char} (hin : inside? word cs = some inner) :
      IsAscii inner := by
    obtain ⟨-, front, -, rfl⟩ := inside?_eq_some_iff.mp hin
    exact fun c hc => h c (by simp [hc])
  cases rule with
  | ofPattern pattern recipe => simp [builtIn] at hrule
  | named names recipe => simp only [ruleRecipe?, isWord_map_toLower h]
  | list | set =>
      simp only [ruleRecipe?, inside?_map_toLower h]
      cases hin : inside? _ cs with
      | none => rfl
      | some inner =>
          rw [Option.map_some, Option.bind_some, Option.bind_some,
            element?_map_toLower (hinner hin)]
  | map =>
      simp only [ruleRecipe?, inside?_map_toLower h]
      cases hin : inside? "map" cs with
      | none => rfl
      | some inner =>
          simp only [Option.map_some, Option.bind_some, aroundComma?_map_toLower]
          cases hparts : aroundComma? inner with
          | none => rfl
          | some parts =>
              obtain ⟨key, value⟩ := parts
              have hascii := hinner hin
              obtain ⟨-, rfl⟩ := eq_of_aroundComma? hparts
              have hkey : IsAscii key := fun c hc => hascii c (by simp [hc])
              have hvalue : IsAscii value := fun c hc => hascii c (by simp [hc])
              simp only [Option.map_some, Option.bind_some, Prod.map, element?_map_toLower hkey,
                element?_map_toLower hvalue]
  | frozen =>
      simp only [ruleRecipe?, inside?_map_toLower h]
      cases hin : inside? "frozen" cs with
      | none => rfl
      | some inner =>
          rw [Option.map_some, Option.bind_some, Option.bind_some, hf inner (hinner hin)]

theorem builtInRecipe?_map_toLower (h : IsAscii cs) (depth : Nat) :
    builtInRecipe? depth (cs.map Char.toLower) = builtInRecipe? depth cs := by
  induction depth generalizing cs with
  | zero => rfl
  | succ depth ih =>
      rw [builtInRecipe?, builtInRecipe?, firstRecipe?, firstRecipe?, ← List.head?_filterMap,
        ← List.head?_filterMap]
      exact congrArg List.head? (List.filterMap_congr fun rule hrule =>
        ruleRecipe?_map_toLower h (fun inner hin => ih hin) hrule)

theorem isAscii_withoutBlanks {type : String} (h : IsAscii type.toList) :
    IsAscii (withoutBlanks type).toList :=
  fun c hc => h c (mem_withoutBlanks.mp hc).1

/-- Lower case brings no blanks into a text without them. -/
theorem withoutBlanks_lowerText {type : String} (h : IsAscii type.toList) :
    withoutBlanks (lowerText (withoutBlanks type)) = lowerText (withoutBlanks type) := by
  have hascii := isAscii_withoutBlanks h
  refine withoutBlanks_eq_self fun d hd => ?_
  rw [toList_lowerText hascii] at hd
  obtain ⟨c, hc, rfl⟩ := List.mem_map.mp hd
  rw [← lower_eq_toLower (hascii c hc), isBlank_lower]
  exact (mem_withoutBlanks.mp hc).2

/-- **Case and blanks are ignored.** -/
theorem resolve_lowerText {type : String} (h : IsAscii type.toList) :
    builtIn.resolve (lowerText (withoutBlanks type)) = builtIn.resolve type := by
  have hascii := isAscii_withoutBlanks h
  rw [resolve_builtIn_eq (Nat.lt_succ_self _), resolve_builtIn_eq (Nat.lt_succ_self _),
    withoutBlanks_lowerText h, toList_lowerText hascii, builtInRecipe?_map_toLower hascii,
    List.length_map]

end Case

/-! ## Elements -/

/-- The names of elements are plain words. -/
theorem elementGenerators_spec : ∀ entry ∈ elementGenerators,
    IsPlain entry.1 ∧ entry.1.toList ≠ [] ∧ '<' ∉ entry.1.toList ∧ ',' ∉ entry.1.toList := by
  decide

theorem generator?_eq_some_iff (name generator : String) :
    (elementGenerators.find? (·.1 == name)).map (·.2) = some generator ↔
      (name, generator) ∈ elementGenerators := by
  have hown : ∀ entry ∈ elementGenerators,
      (elementGenerators.find? (·.1 == entry.1)).map (·.2) = some entry.2 := by decide
  constructor
  · intro h
    obtain ⟨⟨key, value⟩, hfind, rfl⟩ := Option.map_eq_some_iff.mp h
    obtain rfl : key = name := by simpa using List.find?_some hfind
    exact List.mem_of_find?_eq_some hfind
  · exact hown (name, generator)

theorem unfrozen_frozen {inner : List Char} (hne : inner ≠ []) :
    unfrozen ("frozen<".toList ++ (inner ++ ['>'])) = inner := by
  have hafter : after? "frozen<".toList ("frozen<".toList ++ (inner ++ ['>'])) =
      some (inner ++ ['>']) := after?_eq_some_iff.mpr rfl
  have hbefore : before? ['>'] (inner ++ ['>']) = some inner := before?_eq_some_iff.mpr rfl
  obtain ⟨c, others, rfl⟩ := List.exists_cons_of_ne_nil hne
  simp only [unfrozen, hafter, hbefore]

/-- A type is taken out of a `frozen` around it, or it is left as it is. -/
theorem unfrozen_cases (cs : List Char) : unfrozen cs = cs ∨
    cs = "frozen<".toList ++ (unfrozen cs ++ ['>']) := by
  unfold unfrozen
  split
  next => exact Or.inl rfl
  next rest hafter =>
    split
    next c inner hbefore =>
      exact Or.inr (by rw [← before?_eq_some_iff.mp hbefore, ← after?_eq_some_iff.mp hafter])
    next => exact Or.inl rfl

theorem unfrozen_of_not_mem {cs : List Char} (h : '<' ∉ cs) : unfrozen cs = cs := by
  refine (unfrozen_cases cs).resolve_right fun heq => h ?_
  rw [heq]
  simp

theorem ofList_brackets (word : String) (inner : List Char) :
    String.ofList (word.toList ++ (inner ++ ['>'])) = word ++ String.ofList inner ++ ">" := by
  rw [← String.toList_inj]
  simp

/-- The elements that have a generator are those of the grammar. -/
theorem element?_eq_some_iff (cs : List Char) (generator : String) :
    element? cs = some generator ↔
      ElementType (String.ofList (cs.map Char.toLower)) generator := by
  rw [element?, generator?_eq_some_iff]
  generalize cs.map Char.toLower = cs
  constructor
  · intro h
    rcases unfrozen_cases cs with heq | heq
    · rw [heq] at h
      exact .plain h
    · rw [heq, ofList_brackets]
      exact .frozen h
  · intro h
    generalize htype : String.ofList cs = type at h
    have hcs : cs = type.toList := by rw [← htype, String.toList_ofList]
    cases h with
    | plain h =>
        obtain ⟨-, -, hbracket, -⟩ := elementGenerators_spec _ h
        rwa [hcs, unfrozen_of_not_mem hbracket, String.ofList_toList]
    | @frozen name _ h =>
        obtain ⟨-, hne, -, -⟩ := elementGenerators_spec _ h
        have hbrackets : cs = "frozen<".toList ++ (name.toList ++ ['>']) := by
          rw [hcs, String.toList_append, String.toList_append, List.append_assoc]
          rfl
        rwa [hbrackets, unfrozen_frozen hne, String.ofList_toList]

/-! ## Derivations -/

theorem isWord_eq_true_iff {ps cs : List Char} (hps : IsLower ps) (hcs : IsLower cs) :
    isWord ps cs = true ↔ ps = cs := by
  constructor
  · intro h
    induction ps generalizing cs with
    | nil =>
        cases cs with
        | nil => rfl
        | cons c rest => cases h
    | cons p ps ih =>
        cases cs with
        | nil => cases h
        | cons c rest =>
            obtain ⟨hp, hps⟩ := List.forall_mem_cons.mp hps
            obtain ⟨hc, hrest⟩ := List.forall_mem_cons.mp hcs
            obtain ⟨hlike, htail⟩ := Bool.and_eq_true_iff.mp h
            have heq := (Pattern.isLike_iff_of_ascii hp.1 hc.1).mp hlike
            rw [hc.2, hp.2] at heq
            rw [heq, ih hps hrest htail]
  · rintro rfl
    exact isWord_self ps

/-- In lower case, what stands inside brackets stands between the very characters. -/
theorem eq_of_inside? {word : String} {cs inner : List Char} (hcs : IsLower cs)
    (hword : IsLower (word.toList ++ ['<'])) (h : inside? word cs = some inner) :
    String.ofList cs = word ++ "<" ++ String.ofList inner ++ ">" ∧ IsLower inner := by
  obtain ⟨-, front, hfront, rfl⟩ := inside?_eq_some_iff.mp h
  have hlower : IsLower front := fun c hc => hcs c (List.mem_append_left _ hc)
  rw [← (isWord_eq_true_iff hword hlower).mp hfront]
  refine ⟨?_, fun c hc => hcs c (by simp [hc])⟩
  rw [← String.toList_inj]
  simp

theorem isLower_scalarNames : ∀ rule ∈ builtIn.rules, ∀ name ∈ scalarNames rule,
    IsLower name.toList := by
  decide

/-- Characters in lower case that have the recipe of an element are an element. -/
theorem elementType_of_isLower {cs : List Char} (hcs : IsLower cs) {generator : String}
    (h : element? cs = some generator) : ElementType (String.ofList cs) generator := by
  rwa [element?_eq_some_iff, hcs.map_toLower] at h

/-- The collection of an element that has a recipe. -/
theorem exists_elementType {word : String} {made : String → String} {cs : List Char}
    {recipe : String} (hcs : IsLower cs) (hword : IsLower (word.toList ++ ['<']))
    (h : ((inside? word cs).bind fun inner => (element? inner).map made) = some recipe) :
    ∃ element e, String.ofList cs = word ++ "<" ++ element ++ ">" ∧ ElementType element e ∧
      made e = recipe := by
  obtain ⟨inner, hin, hmade⟩ := Option.bind_eq_some_iff.mp h
  obtain ⟨e, helement, hrecipe⟩ := Option.map_eq_some_iff.mp hmade
  obtain ⟨heq, hinner⟩ := eq_of_inside? hcs hword hin
  exact ⟨String.ofList inner, e, heq, elementType_of_isLower hinner helement, hrecipe⟩

/-- What a search finds for a type in lower case is derived in the grammar. -/
theorem builtInType_of_recipe {cs : List Char} (hcs : IsLower cs) {depth : Nat} {recipe : String}
    (h : builtInRecipe? depth cs = some recipe) : BuiltInType (String.ofList cs) recipe := by
  -- On the depth of the search, which only the rule of frozen types uses up.
  induction depth generalizing cs with
  | zero => cases h
  | succ depth ih =>
      obtain ⟨rule, hrule, hfound⟩ := List.exists_of_findSome?_eq_some h
      cases rule with
      | ofPattern pattern made => simp [builtIn] at hrule
      | named names made =>
          rw [ruleRecipe?] at hfound
          split_ifs at hfound with hany
          obtain rfl := Option.some.inj hfound
          obtain ⟨name, hname, hword⟩ := List.any_eq_true.mp hany
          have hlower : IsLower name.toList := isLower_scalarNames _ hrule name hname
          rw [← (isWord_eq_true_iff hlower hcs).mp hword, String.ofList_toList]
          exact .scalar hrule hname
      | list =>
          obtain ⟨element, e, heq, helement, rfl⟩ := exists_elementType hcs (by decide) hfound
          rw [heq]
          exact .list helement
      | set =>
          obtain ⟨element, e, heq, helement, rfl⟩ := exists_elementType hcs (by decide) hfound
          rw [heq]
          exact .set helement
      | map =>
          obtain ⟨⟨key, value⟩, hparts, hmade⟩ := Option.bind_eq_some_iff.mp hfound
          obtain ⟨inner, hin, haround⟩ := Option.bind_eq_some_iff.mp hparts
          obtain ⟨heq, hinner⟩ := eq_of_inside? hcs (by decide) hin
          obtain ⟨-, rfl⟩ := eq_of_aroundComma? haround
          have hkey : IsLower key := fun c hc => hinner c (by simp [hc])
          have hvalue : IsLower value := fun c hc => hinner c (by simp [hc])
          simp only at hmade
          split at hmade
          next k v hk hv =>
            obtain rfl := Option.some.inj hmade
            have htext : String.ofList (key ++ ',' :: value) =
                String.ofList key ++ "," ++ String.ofList value := by
              rw [← String.toList_inj]
              simp
            rw [heq, htext]
            exact .map (elementType_of_isLower hkey hk) (elementType_of_isLower hvalue hv)
          next => cases hmade
      | frozen =>
          obtain ⟨inner, hin, hmade⟩ := Option.bind_eq_some_iff.mp hfound
          obtain ⟨heq, hinner⟩ := eq_of_inside? hcs (by decide) hin
          rw [heq]
          exact .frozen (ih hinner hmade)

theorem element?_of_isPlain {type : String} (h : IsPlain type) (generator : String) :
    element? (withoutBlanks type).toList = some generator ↔ ElementType type generator := by
  rw [h.withoutBlanks_eq, element?_eq_some_iff, h.isLower.map_toLower, String.ofList_toList]

theorem ElementType.isPlain {type generator : String} (h : ElementType type generator) :
    IsPlain type := by
  cases h with
  | plain h => exact (elementGenerators_spec _ h).1
  | frozen h => exact (elementGenerators_spec _ h).1.brackets (by decide)

theorem ElementType.comma_not_mem {type generator : String} (h : ElementType type generator) :
    ',' ∉ type.toList := by
  cases h with
  | plain h => exact (elementGenerators_spec _ h).2.2.2
  | frozen h => simp [(elementGenerators_spec _ h).2.2.2]

theorem ElementType.element?_eq {type generator : String} (h : ElementType type generator) :
    element? (withoutBlanks type).toList = some generator :=
  (element?_of_isPlain h.isPlain generator).mpr h

/-- A scalar type is found under each of its names. -/
theorem resolve_scalar {names : List String} {name recipe : String}
    (h : .named names recipe ∈ builtIn.rules) (hname : name ∈ names) :
    builtIn.resolve name = some recipe := by
  have hfound : (builtIn.rules.all fun
      | .named names recipe => names.all fun name => builtIn.resolve name == some recipe
      | _ => true) = true := by decide +kernel
  exact beq_iff_eq.mp (List.all_eq_true.mp (List.all_eq_true.mp hfound _ h) name hname)

/-- What is derived in the grammar is found. -/
theorem BuiltInType.resolve_eq {type recipe : String} (h : BuiltInType type recipe) :
    builtIn.resolve type = some recipe := by
  induction h with
  | scalar hrule hname => exact resolve_scalar hrule hname
  | list helement => rw [resolve_list, helement.element?_eq, Option.map_some]
  | set helement => rw [resolve_set, helement.element?_eq, Option.map_some]
  | map hkey hvalue =>
      rw [resolve_map hkey.comma_not_mem, hkey.element?_eq, hvalue.element?_eq,
        Option.bind_some, Option.map_some]
  | frozen _ ih => rw [resolve_frozen, ih]

theorem resolve_eq_some_iff {type : String} (h : IsAscii type.toList) (recipe : String) :
    builtIn.resolve type = some recipe ↔ BuiltInType (lowerText (withoutBlanks type)) recipe := by
  rw [← resolve_lowerText h]
  refine ⟨fun hfound => ?_, BuiltInType.resolve_eq⟩
  rw [resolve_builtIn_eq (Nat.lt_succ_self _), withoutBlanks_lowerText h] at hfound
  have hlower : IsLower (lowerText (withoutBlanks type)).toList := by
    rw [toList_lowerText (isAscii_withoutBlanks h)]
    exact (isAscii_withoutBlanks h).isLower_map
  simpa using builtInType_of_recipe hlower hfound

/-- **The built-in library resolves exactly its grammar.** A type of ASCII characters,
without blanks and in lower case, has the recipes that the grammar derives for it,
and none if it derives none.  A search as deep as the text is long comes to its end. -/
theorem resolves_exactly {type : String} (h : IsAscii type.toList) :
    (∀ recipe, builtIn.resolve type = some recipe ↔
      BuiltInType (lowerText (withoutBlanks type)) recipe) ∧
    (builtIn.resolve type = none ↔
      ∀ recipe, ¬BuiltInType (lowerText (withoutBlanks type)) recipe) ∧
    ∀ depth, (withoutBlanks type).toList.length < depth →
      builtInRecipe? depth (withoutBlanks type).toList = builtIn.resolve type := by
  refine ⟨resolve_eq_some_iff h, ?_, fun depth hdepth => (resolve_builtIn_eq hdepth).symm⟩
  simp only [← resolve_eq_some_iff h, Option.eq_none_iff_forall_ne_some, ne_eq]

/-- A map inside two `frozen` is derived, and a list of lists is not. -/
theorem resolves_exactly_nested :
    (IsAscii "Frozen<frozen< MAP<Text, frozen<INT>> >>".toList ∧
      BuiltInType (lowerText (withoutBlanks "Frozen<frozen< MAP<Text, frozen<INT>> >>"))
        "MapSizedHashed(HashRange(1,5),NumberNameToString(),ToInt())") ∧
    IsAscii "list<list<int>>".toList ∧
      ∀ recipe, ¬BuiltInType (lowerText (withoutBlanks "list<list<int>>")) recipe :=
  ⟨⟨by decide, ((resolves_exactly (by decide)).1 _).mp (by decide +kernel)⟩,
    by decide, (resolves_exactly (by decide)).2.1.mp (by decide +kernel)⟩

/-! ## Collections of scalar types -/

/-- The names of the scalar types. -/
def scalars : List String := builtIn.rules.flatMap scalarNames

/-- A type inside so many `frozen`. -/
def frozenTimes : Nat → String → String
  | 0, type => type
  | n + 1, type => "frozen<" ++ frozenTimes n type ++ ">"

/-- The scalar types that are no elements. -/
def withoutGenerator : List String := ["counter", "time", "duration", "blob"]

/-- What a scalar type looks like, and whether it is an element. -/
theorem scalars_spec : ∀ name ∈ scalars, IsPlain name ∧ '<' ∉ name.toList ∧ ',' ∉ name.toList ∧
    ((∃ entry ∈ elementGenerators, entry.1 = name) ↔ name ∉ withoutGenerator) := by
  decide +kernel

theorem isPlain_frozenTimes {name : String} (h : IsPlain name) (n : Nat) :
    IsPlain (frozenTimes n name) := by
  induction n with
  | zero => exact h
  | succ n ih => exact ih.brackets (by decide)

theorem comma_not_mem_frozenTimes {name : String} (h : ',' ∉ name.toList) (n : Nat) :
    ',' ∉ (frozenTimes n name).toList := by
  induction n with
  | zero => exact h
  | succ n ih => simp [frozenTimes, ih]

theorem eq_zero_of_bracket_not_mem {name : String} {n : Nat}
    (h : '<' ∉ (frozenTimes n name).toList) : n = 0 := by
  cases n with
  | zero => rfl
  | succ n => exact absurd (by simp [frozenTimes]) h

/-- An element is a name with a generator inside at most one `frozen`. -/
theorem elementType_frozenTimes_iff {name : String} (h : '<' ∉ name.toList) (n : Nat)
    (generator : String) : ElementType (frozenTimes n name) generator ↔
      n ≤ 1 ∧ (name, generator) ∈ elementGenerators := by
  constructor
  · intro helement
    -- The name of an element has no bracket, so no further `frozen` stands inside.
    generalize htype : frozenTimes n name = type at helement
    cases helement with
    | plain hentry =>
        subst htype
        obtain ⟨-, -, hbare, -⟩ := elementGenerators_spec _ hentry
        obtain rfl := eq_zero_of_bracket_not_mem hbare
        exact ⟨Nat.zero_le 1, hentry⟩
    | @frozen key _ hentry =>
        cases n with
        | zero => exact absurd (by simp [show name = _ from htype]) h
        | succ n =>
            obtain rfl : frozenTimes n name = key := by
              rw [frozenTimes, ← String.toList_inj] at htype
              simpa [String.toList_inj] using htype
            obtain ⟨-, -, hbare, -⟩ := elementGenerators_spec _ hentry
            obtain rfl := eq_zero_of_bracket_not_mem hbare
            exact ⟨Nat.le_refl 1, hentry⟩
  · rintro ⟨hn, hentry⟩
    match n, hn with
    | 0, _ => exact .plain hentry
    | 1, _ => exact .frozen hentry

theorem isSome_element?_iff {name : String} (h : name ∈ scalars) (n : Nat) :
    (element? (withoutBlanks (frozenTimes n name)).toList).isSome = true ↔
      n ≤ 1 ∧ name ∉ withoutGenerator := by
  obtain ⟨hplain, hbracket, -, hgenerator⟩ := scalars_spec name h
  rw [Option.isSome_iff_exists]
  simp only [element?_of_isPlain (isPlain_frozenTimes hplain n),
    elementType_frozenTimes_iff hbracket, exists_and_left, ← hgenerator]
  simp

/-- **Collections of scalar types.** A list or set of a scalar type inside some `frozen` has a
recipe exactly when there is at most one `frozen` around it and the type is none of
counter, time, duration and blob; a map, when this holds of its keys and its values. -/
theorem covers_collections_iff {name other : String} (hname : name ∈ scalars)
    (hother : other ∈ scalars) (m n : Nat) :
    ((builtIn.resolve ("list<" ++ frozenTimes m name ++ ">")).isSome = true ↔
      m ≤ 1 ∧ name ∉ withoutGenerator) ∧
    ((builtIn.resolve ("set<" ++ frozenTimes m name ++ ">")).isSome = true ↔
      m ≤ 1 ∧ name ∉ withoutGenerator) ∧
    ((builtIn.resolve
        ("map<" ++ (frozenTimes m name ++ "," ++ frozenTimes n other) ++ ">")).isSome = true ↔
      (m ≤ 1 ∧ name ∉ withoutGenerator) ∧ n ≤ 1 ∧ other ∉ withoutGenerator) := by
  have hcomma := comma_not_mem_frozenTimes (scalars_spec name hname).2.2.1 m
  rw [resolve_list, resolve_set, resolve_map hcomma, Option.isSome_map, Option.isSome_map,
    ← isSome_element?_iff hname, ← isSome_element?_iff hother]
  refine ⟨Iff.rfl, Iff.rfl, ?_⟩
  cases element? (withoutBlanks (frozenTimes m name)).toList with
  | none => simp
  | some k => simp

theorem covers_collections_iff_uuid : "uuid" ∈ scalars ∧ "blob" ∈ scalars ∧
    (builtIn.resolve ("list<" ++ frozenTimes 1 "uuid" ++ ">")).isSome = true ∧
    ¬(builtIn.resolve
      ("map<" ++ (frozenTimes 1 "uuid" ++ "," ++ frozenTimes 0 "blob") ++ ">")).isSome = true := by
  have huuid : "uuid" ∈ scalars := by decide
  have hblob : "blob" ∈ scalars := by decide
  obtain ⟨hlist, -, hmap⟩ := covers_collections_iff huuid hblob 1 0
  exact ⟨huuid, hblob, hlist.mpr (by decide), fun h => absurd (hmap.mp h) (by decide)⟩

/-- Lists of a scalar type that is no element, and of an element inside two `frozen`. -/
theorem uncovered_lists :
    ("blob" ∈ scalars ∧ builtIn.resolve "list<blob>" = none) ∧
    "int" ∈ scalars ∧ builtIn.resolve ("list<" ++ frozenTimes 2 "int" ++ ">") = none := by
  decide +kernel

end Library
end CqlWorkload
