import CqlWorkload.Proofs.Json.Scalar

/-!
# Reading written JSON

Reading the text of a value gives a value again, which `reread` describes
without any text: texts are kept, mappings take their keys one after the other,
and nothing is read when a whole number has too many digits or lists and
mappings are nested too deeply (`read?_write`).

**Storable values.** A value is storable when it comes back as it was
(`reread_eq_some_iff`).
-/

namespace CqlWorkload.Json

/-! ## Blanks -/

def IsBlank (lead : List Char) : Prop := ∀ c ∈ lead, c = ' ' ∨ c = '\n'

theorem isBlank_lineStart (level : Nat) : IsBlank (lineStart level) := by
  intro c hc
  simp only [lineStart, List.mem_cons, List.mem_replicate] at hc
  rcases hc with rfl | ⟨-, rfl⟩
  · exact Or.inr rfl
  · exact Or.inl rfl

/-- A character that is not passed over in front of a value. -/
def IsSolid (c : Char) : Prop := c ≠ ' ' ∧ c ≠ '\t' ∧ c ≠ '\n' ∧ c ≠ '\r'

instance (c : Char) : Decidable (IsSolid c) := inferInstanceAs (Decidable (_ ∧ _ ∧ _ ∧ _))

/-- A character that begins a value without parts. -/
structure StartsScalar (c : Char) : Prop where
  solid : IsSolid c
  opening : c ≠ '[' ∧ c ≠ '{'
  closing : c ≠ ']'

theorem startsScalar_of_isDigit {c : Char} (h : c.isDigit = true) : StartsScalar c := by
  refine ⟨⟨?_, ?_, ?_, ?_⟩, ⟨?_, ?_⟩, ?_⟩ <;>
    · rintro rfl
      simp at h

theorem skipBlank_cons_of_isSolid {c : Char} (h : IsSolid c) (rest : List Char) :
    skipBlank (c :: rest) = c :: rest := by
  simp [skipBlank, h.1, h.2.1, h.2.2.1, h.2.2.2]

theorem skipBlank_isBlank_append {lead : List Char} (hl : IsBlank lead) (rest : List Char) :
    skipBlank (lead ++ rest) = skipBlank rest := by
  induction lead with
  | nil => rfl
  | cons a lead ih =>
      have ih := ih fun c hc => hl c (List.mem_cons_of_mem _ hc)
      rcases hl a (by simp) with rfl | rfl
      · simpa [skipBlank] using ih
      · simpa [skipBlank] using ih

theorem skipBlank_append {lead : List Char} (hl : IsBlank lead) {c : Char} (h : IsSolid c)
    (rest : List Char) : skipBlank (lead ++ c :: rest) = c :: rest := by
  rw [skipBlank_isBlank_append hl, skipBlank_cons_of_isSolid h]

theorem skipBlank_of_isBlank {lead : List Char} (hl : IsBlank lead) : skipBlank lead = [] := by
  have hskip := skipBlank_isBlank_append hl []
  rwa [List.append_nil] at hskip

theorem endsNumber_of_isBlank {lead : List Char} (hl : IsBlank lead) : EndsNumber lead := by
  intro c hc
  rcases hl c (List.mem_of_mem_head? hc) with rfl | rfl <;> decide

/-! ## What is read again -/

mutual

/-- What a written value is read as, `depth` more levels of nesting being allowed and
every double being read as `double` says. -/
def reread (double : Double → Value) (depth : Nat) : Value → Option Value
  | .null => some .null
  | .bool b => some (.bool b)
  | .int n => if digitLimit < (Nat.toDigits 10 n.natAbs).length then none else some (.int n)
  | .float x => some (double x)
  | .text s => some (.text s)
  | .moment m => some (.text m.text)
  | .list items =>
    if items.isEmpty then some (.list [])
    else
      match depth with
      | 0 => none
      | depth + 1 => (rereadItems double depth items).map .list
  | .map entries =>
    if entries.isEmpty then some (.map [])
    else
      match depth with
      | 0 => none
      | depth + 1 => (rereadEntries double depth [] entries).map .map

def rereadItems (double : Double → Value) (depth : Nat) : List Value → Option (List Value)
  | [] => some []
  | item :: rest =>
    (reread double depth item).bind fun item =>
      (rereadItems double depth rest).map (item :: ·)

/-- The entries of a mapping put on top of the entries before them. -/
def rereadEntries (double : Double → Value) (depth : Nat) (before : List (Value × Value)) :
    List (Value × Value) → Option (List (Value × Value))
  | [] => some before
  | (key, value) :: rest =>
    (reread double depth value).bind fun value =>
      rereadEntries double depth (Value.putKey before (.text key.plainText) value) rest

end

/-- The doubles of a style are read again in a given way. -/
structure Style.Rereads (style : Style) (double : Double → Value) : Prop where
  start : ∀ x, ∃ c others, (style.floats.render x).toList = c :: others ∧ StartsScalar c
  read : ∀ x rest, EndsNumber rest →
    scalar? ((style.floats.render x).toList ++ rest) = some (double x, rest)

/-! ## Parts of a text -/

/-- What follows the first part of a list or mapping. -/
def tailText (closing : Char) (level : Nat) : List (List Char) → List Char
  | [] => lineStart level ++ [closing]
  | part :: rest => ',' :: lineStart (level + 1) ++ part ++ tailText closing level rest

theorem enclosed_cons (opening closing : Char) (level : Nat) (part : List Char)
    (parts : List (List Char)) :
    enclosed opening closing level (part :: parts) =
      opening :: lineStart (level + 1) ++ part ++ tailText closing level parts := by
  have htail : ∀ part, List.intercalate (',' :: lineStart (level + 1)) (part :: parts) ++
      (lineStart level ++ [closing]) = part ++ tailText closing level parts := by
    induction parts with
    | nil => simp [tailText]
    | cons next parts ih =>
        intro part
        rw [List.intercalate_cons_cons, List.append_assoc, List.append_assoc, ih next]
        simp [tailText]
  simp only [enclosed, List.append_assoc, List.cons_append, htail]

theorem endsNumber_tailText (closing : Char) (level : Nat) (parts : List (List Char))
    (rest : List Char) : EndsNumber (tailText closing level parts ++ rest) := by
  intro c hc
  cases parts <;>
    · simp only [tailText, lineStart, List.cons_append, List.head?_cons, Option.mem_def,
        Option.some.injEq] at hc
      subst hc
      decide

theorem one_lt_length_tailText (closing : Char) (level : Nat) (parts : List (List Char)) :
    1 < (tailText closing level parts).length := by
  cases parts <;> simp [tailText, lineStart]

/-! ## One level -/

theorem value?_of_startsScalar {c : Char} (h : StartsScalar c) {lead : List Char}
    (hl : IsBlank lead) (fuel depth : Nat) (rest : List Char) :
    value? (fuel + 1) depth (lead ++ c :: rest) = scalar? (c :: rest) := by
  rw [value?, skipBlank_append hl h.solid]
  split
  · next hc => exact absurd (List.cons.inj hc).1 h.opening.1
  · next hc => exact absurd (List.cons.inj hc).1 h.opening.2
  · rfl

theorem value?_list {lead : List Char} (hl : IsBlank lead) {c : Char} (hs : IsSolid c)
    (hc : c ≠ ']') {blank : List Char} (hb : IsBlank blank) (fuel depth : Nat)
    (rest : List Char) :
    value? (fuel + 1) depth (lead ++ '[' :: (blank ++ c :: rest)) =
      match depth with
      | 0 => none
      | depth + 1 => (items? fuel depth (c :: rest)).map fun found => (.list found.1, found.2) := by
  rw [value?, skipBlank_append hl (by decide)]
  simp only [skipBlank_append hb hs]
  cases depth <;> simp [hc]

theorem value?_map {lead : List Char} (hl : IsBlank lead) {blank : List Char}
    (hb : IsBlank blank) (fuel depth : Nat) (rest : List Char) :
    value? (fuel + 1) depth (lead ++ '{' :: (blank ++ '"' :: rest)) =
      match depth with
      | 0 => none
      | depth + 1 =>
        (members? fuel depth [] ('"' :: rest)).map fun found => (.map found.1, found.2) := by
  have hq : IsSolid '"' := by decide
  rw [value?, skipBlank_append hl (by decide)]
  simp only [skipBlank_append hb hq]
  cases depth <;> simp

section Values

variable {style : Style} {double : Double → Value}

/-- Written values are read again by this fuel. -/
def ReadsValues (style : Style) (double : Double → Value) (fuel : Nat) : Prop :=
  ∀ (v : Value) (depth level : Nat) (lead rest : List Char), IsBlank lead → EndsNumber rest →
    (valueText style level v).length ≤ fuel →
    value? fuel depth (lead ++ valueText style level v ++ rest) =
      (reread double depth v).map fun w => (w, rest)

/-- The written items of lists are read again by this fuel. -/
def ReadsItems (style : Style) (double : Double → Value) (fuel : Nat) : Prop :=
  ∀ (item : Value) (items : List Value) (depth level : Nat) (lead rest : List Char),
    IsBlank lead →
    (valueText style (level + 1) item).length +
      (tailText ']' level (itemTexts style (level + 1) items)).length ≤ fuel →
    items? fuel depth (lead ++ valueText style (level + 1) item ++
        tailText ']' level (itemTexts style (level + 1) items) ++ rest) =
      (rereadItems double depth (item :: items)).map fun ws => (ws, rest)

/-- The text of one entry of a mapping. -/
def entryText (style : Style) (level : Nat) (entry : Value × Value) : List Char :=
  stringText style.asciiOnly entry.1.plainText ++ ':' :: ' ' :: valueText style level entry.2

/-- The written entries of mappings are read again by this fuel. -/
def ReadsEntries (style : Style) (double : Double → Value) (fuel : Nat) : Prop :=
  ∀ (entry : Value × Value) (entries before : List (Value × Value)) (depth level : Nat)
    (lead rest : List Char), IsBlank lead →
    (entryText style (level + 1) entry).length +
      (tailText '}' level (entryTexts style (level + 1) entries)).length ≤ fuel →
    members? fuel depth before (lead ++ entryText style (level + 1) entry ++
        tailText '}' level (entryTexts style (level + 1) entries) ++ rest) =
      (rereadEntries double depth before (entry :: entries)).map fun ws => (ws, rest)

theorem startsScalar_quote : StartsScalar '"' := ⟨by decide, by decide, by decide⟩

theorem exists_valueText_startsScalar (hs : style.Rereads double) (level : Nat) {v : Value}
    (hk : v.isKey = true) :
    ∃ c others, valueText style level v = c :: others ∧ StartsScalar c := by
  cases v with
  | null => exact ⟨'n', _, rfl, by decide, by decide, by decide⟩
  | bool b =>
      cases b with
      | false => exact ⟨'f', _, rfl, by decide, by decide, by decide⟩
      | true => exact ⟨'t', _, rfl, by decide, by decide, by decide⟩
  | int n =>
      obtain ⟨c, others, hc⟩ := List.exists_cons_of_ne_nil (Nat.toDigits_ne_nil (n := n.natAbs) (b := 10))
      have hdigit : c.isDigit = true := Digit.isDigit_of_mem_toDigits (n := n.natAbs) (by simp [hc])
      by_cases hn : n < 0
      · exact ⟨'-', Nat.toDigits 10 n.natAbs,
          by simp [valueText, intText, hn, FloatLayout.digitsText], by decide, by decide, by decide⟩
      · exact ⟨c, others, by simp [valueText, intText, hn, FloatLayout.digitsText, hc],
          startsScalar_of_isDigit hdigit⟩
  | float x => exact hs.start x
  | text s => exact ⟨_, _, rfl, startsScalar_quote⟩
  | moment m => exact ⟨_, _, rfl, startsScalar_quote⟩
  | list items => cases hk
  | map entries => cases hk

theorem exists_valueText_cons (hs : style.Rereads double) (level : Nat) (v : Value) :
    ∃ c others, valueText style level v = c :: others ∧ IsSolid c ∧ c ≠ ']' := by
  by_cases hk : v.isKey = true
  · obtain ⟨c, others, hc, hstart⟩ := exists_valueText_startsScalar hs level hk
    exact ⟨c, others, hc, hstart.solid, hstart.closing⟩
  · cases v with
    | list items => cases items <;> exact ⟨'[', _, rfl, by decide, by decide⟩
    | map entries => cases entries <;> exact ⟨'{', _, rfl, by decide, by decide⟩
    | _ => exact absurd rfl hk

/-- A value without parts is read behind its first character. -/
theorem scalar?_valueText (hs : style.Rereads double) (depth level : Nat) {v : Value}
    (hk : v.isKey = true) {rest : List Char} (hr : EndsNumber rest) :
    scalar? (valueText style level v ++ rest) = (reread double depth v).map fun w => (w, rest) := by
  cases v with
  | null => rfl
  | bool b => cases b <;> rfl
  | int n =>
      rw [valueText, scalar?_intText n hr, reread]
      split_ifs <;> rfl
  | float x => exact hs.read x rest hr
  | text s => exact scalar?_stringText _ s rest
  | moment m => exact scalar?_stringText _ m.text rest
  | list items => cases hk
  | map entries => cases hk

theorem items?_of_value {fuel depth : Nat} {cs rest : List Char} {item : Option Value}
    (h : value? fuel depth cs = item.map fun w => (w, rest)) :
    items? (fuel + 1) depth cs = item.bind fun w =>
      match skipBlank rest with
      | ',' :: rest => (items? fuel depth rest).map fun found => (w :: found.1, found.2)
      | ']' :: rest => some ([w], rest)
      | _ => none := by
  rw [items?, h]
  cases item <;> rfl

theorem readsItems_succ {fuel : Nat} (hvalues : ReadsValues style double fuel)
    (hitems : ReadsItems style double fuel) : ReadsItems style double (fuel + 1) := by
  intro item items depth level lead rest hl hf
  have hlong := one_lt_length_tailText ']' level (itemTexts style (level + 1) items)
  have hvalue := hvalues item depth (level + 1) lead _ hl
    (endsNumber_tailText ']' level (itemTexts style (level + 1) items) rest) (by omega)
  rw [List.append_assoc, items?_of_value hvalue, rereadItems]
  cases hitem : reread double depth item with
  | none => rfl
  | some w =>
      cases items with
      | nil =>
          have hskip : skipBlank (lineStart level ++ ']' :: rest) = ']' :: rest :=
            skipBlank_append (isBlank_lineStart level) (by decide) rest
          simp [itemTexts, tailText, hskip, rereadItems]
      | cons next items =>
          have hcomma : IsSolid ',' := by decide
          have hnext := hitems next items depth level (lineStart (level + 1)) rest
            (isBlank_lineStart _) (by simp [itemTexts, tailText] at hf; omega)
          simp only [List.append_assoc] at hnext
          simp only [itemTexts, tailText, List.cons_append, List.append_assoc,
            skipBlank_cons_of_isSolid hcomma, hnext, Option.bind_some]
          cases rereadItems double depth (next :: items) <;> rfl

theorem members?_of_value {fuel depth : Nat} {before : List (Value × Value)} {asciiOnly : Bool}
    {lead cs rest : List Char} {key : String} {value : Option Value} (hl : IsBlank lead)
    (h : value? fuel depth cs = value.map fun w => (w, rest)) :
    members? (fuel + 1) depth before (lead ++ stringText asciiOnly key ++ ':' :: cs) =
      value.bind fun w =>
        match skipBlank rest with
        | ',' :: rest => members? fuel depth (Value.putKey before (.text key) w) rest
        | '}' :: rest => some (Value.putKey before (.text key) w, rest)
        | _ => none := by
  have hcolon : IsSolid ':' := by decide
  have hquote : skipBlank (lead ++ stringText asciiOnly key ++ ':' :: cs) =
      '"' :: (key.toList.flatMap (charText asciiOnly) ++ '"' :: ':' :: cs) := by
    have htext : lead ++ stringText asciiOnly key ++ ':' :: cs =
        lead ++ '"' :: (key.toList.flatMap (charText asciiOnly) ++ '"' :: ':' :: cs) := by
      simp [stringText]
    rw [htext]
    exact skipBlank_append hl (by decide) _
  rw [members?, hquote]
  simp only [stringBody_flatMap, skipBlank_cons_of_isSolid hcolon, h, String.ofList_toList]
  cases value <;> rfl

theorem readsEntries_succ {fuel : Nat} (hvalues : ReadsValues style double fuel)
    (hentries : ReadsEntries style double fuel) : ReadsEntries style double (fuel + 1) := by
  intro entry entries before depth level lead rest hl hf
  obtain ⟨key, value⟩ := entry
  have hlong := one_lt_length_tailText '}' level (entryTexts style (level + 1) entries)
  have hspace : IsBlank [' '] := by simp [IsBlank]
  have hvalue := hvalues value depth (level + 1) [' '] _ hspace
    (endsNumber_tailText '}' level (entryTexts style (level + 1) entries) rest)
    (by simp [entryText] at hf; omega)
  have htext : lead ++ entryText style (level + 1) (key, value) ++
      tailText '}' level (entryTexts style (level + 1) entries) ++ rest =
      lead ++ stringText style.asciiOnly key.plainText ++ ':' ::
        ([' '] ++ valueText style (level + 1) value ++
          (tailText '}' level (entryTexts style (level + 1) entries) ++ rest)) := by
    simp [entryText]
  rw [htext, members?_of_value hl hvalue, rereadEntries]
  cases hvalue : reread double depth value with
  | none => rfl
  | some w =>
      cases entries with
      | nil =>
          have hskip : skipBlank (lineStart level ++ '}' :: rest) = '}' :: rest :=
            skipBlank_append (isBlank_lineStart level) (by decide) rest
          simp [entryTexts, tailText, hskip, rereadEntries]
      | cons next entries =>
          have hcomma : IsSolid ',' := by decide
          have hnext := hentries next entries (Value.putKey before (.text key.plainText) w) depth
            level (lineStart (level + 1)) rest (isBlank_lineStart _)
            (by simp [entryTexts, tailText, entryText] at hf ⊢; omega)
          simp only [List.append_assoc, entryText, List.cons_append] at hnext
          simp only [entryTexts, tailText, List.cons_append, List.append_assoc,
            skipBlank_cons_of_isSolid hcomma, hnext, Option.bind_some]

theorem value?_listText {fuel : Nat} (hs : style.Rereads double)
    (hitems : ReadsItems style double fuel) (items : List Value) (depth level : Nat)
    {lead : List Char} (rest : List Char) (hl : IsBlank lead)
    (hf : (valueText style level (.list items)).length ≤ fuel + 1) :
    value? (fuel + 1) depth (lead ++ valueText style level (.list items) ++ rest) =
      (reread double depth (.list items)).map fun w => (w, rest) := by
  cases items with
  | nil =>
      have hopen : IsSolid '[' := by decide
      have hclose : IsSolid ']' := by decide
      simp [valueText, itemTexts, enclosed, value?, skipBlank_append hl hopen,
        skipBlank_cons_of_isSolid hclose, reread]
  | cons item items =>
      obtain ⟨c, others, hc, hsolid, hclose⟩ := exists_valueText_cons hs (level + 1) item
      have htext : lead ++ valueText style level (.list (item :: items)) ++ rest =
          lead ++ '[' :: (lineStart (level + 1) ++ c :: (others ++
            (tailText ']' level (itemTexts style (level + 1) items) ++ rest))) := by
        simp [valueText, itemTexts, enclosed_cons, hc]
      rw [htext, value?_list hl hsolid hclose (isBlank_lineStart _)]
      cases depth with
      | zero => rfl
      | succ depth =>
          have hitem := hitems item items depth level [] rest (by simp [IsBlank])
            (by simp [valueText, itemTexts, enclosed_cons] at hf; omega)
          simp only [hc, List.nil_append, List.append_assoc, List.cons_append] at hitem
          simp only [hitem, reread, List.isEmpty_cons, Bool.false_eq_true, if_false]
          cases rereadItems double depth (item :: items) <;> rfl

theorem value?_mapText {fuel : Nat} (hentries : ReadsEntries style double fuel)
    (entries : List (Value × Value)) (depth level : Nat) {lead : List Char} (rest : List Char)
    (hl : IsBlank lead) (hf : (valueText style level (.map entries)).length ≤ fuel + 1) :
    value? (fuel + 1) depth (lead ++ valueText style level (.map entries) ++ rest) =
      (reread double depth (.map entries)).map fun w => (w, rest) := by
  cases entries with
  | nil =>
      have hopen : IsSolid '{' := by decide
      have hclose : IsSolid '}' := by decide
      simp [valueText, entryTexts, enclosed, value?, skipBlank_append hl hopen,
        skipBlank_cons_of_isSolid hclose, reread]
  | cons entry entries =>
      obtain ⟨key, value⟩ := entry
      have htext : lead ++ valueText style level (.map ((key, value) :: entries)) ++ rest =
          lead ++ '{' :: (lineStart (level + 1) ++ '"' ::
            (key.plainText.toList.flatMap (charText style.asciiOnly) ++ '"' :: ':' :: ' ' ::
              (valueText style (level + 1) value ++
                (tailText '}' level (entryTexts style (level + 1) entries) ++ rest)))) := by
        simp [valueText, entryTexts, enclosed_cons, stringText]
      rw [htext, value?_map hl (isBlank_lineStart _)]
      cases depth with
      | zero => rfl
      | succ depth =>
          have hentry := hentries (key, value) entries [] depth level [] rest (by simp [IsBlank])
            (by simp [valueText, entryTexts, enclosed_cons, entryText] at hf ⊢; omega)
          simp only [entryText, stringText, List.nil_append, List.append_assoc,
            List.cons_append] at hentry
          simp only [hentry, reread, List.isEmpty_cons, Bool.false_eq_true, if_false]
          cases rereadEntries double depth [] ((key, value) :: entries) <;> rfl

theorem readsValues_succ {fuel : Nat} (hs : style.Rereads double)
    (hitems : ReadsItems style double fuel) (hentries : ReadsEntries style double fuel) :
    ReadsValues style double (fuel + 1) := by
  intro v depth level lead rest hl hr hf
  by_cases hk : v.isKey = true
  · obtain ⟨c, others, hc, hstart⟩ := exists_valueText_startsScalar hs level hk
    have hscalar := scalar?_valueText hs depth level hk hr
    rw [hc, List.cons_append] at hscalar
    rw [hc, List.append_assoc, List.cons_append, value?_of_startsScalar hstart hl, hscalar]
  cases v with
  | list items => exact value?_listText hs hitems items depth level rest hl hf
  | map entries => exact value?_mapText hentries entries depth level rest hl hf
  | _ => exact absurd rfl hk

/-- **Written values are read again.** -/
theorem reads (hs : style.Rereads double) (fuel : Nat) :
    ReadsValues style double fuel ∧ ReadsItems style double fuel ∧
      ReadsEntries style double fuel := by
  induction fuel with
  | zero =>
      refine ⟨?_, ?_, ?_⟩
      · intro v depth level lead rest hl hr hf
        obtain ⟨c, others, hc, -⟩ := exists_valueText_cons hs level v
        simp [hc] at hf
      · intro item items depth level lead rest hl hf
        have := one_lt_length_tailText ']' level (itemTexts style (level + 1) items)
        omega
      · intro entry entries before depth level lead rest hl hf
        have := one_lt_length_tailText '}' level (entryTexts style (level + 1) entries)
        omega
  | succ fuel ih =>
      obtain ⟨hvalues, hitems, hentries⟩ := ih
      exact ⟨readsValues_succ hs hitems hentries, readsItems_succ hvalues hitems,
        readsEntries_succ hvalues hentries⟩

/-- **Reading a written value** gives what `reread` says, blanks behind the value being
passed over. -/
theorem read?_write_append (hs : style.Rereads double) (depth : Nat) (v : Value) {tail : String}
    (ht : IsBlank tail.toList) : read? depth (write style v ++ tail) = reread double depth v := by
  have hread := (reads hs ((valueText style 0 v ++ tail.toList).length + 1)).1 v depth 0 []
    tail.toList (by simp [IsBlank]) (endsNumber_of_isBlank ht) (by simp; omega)
  simp only [List.nil_append] at hread
  simp only [read?, write, String.toList_append, String.toList_ofList, hread]
  cases reread double depth v with
  | none => rfl
  | some w => simp [skipBlank_of_isBlank ht]

/-- Reading a written value with nothing behind it. -/
theorem read?_write (hs : style.Rereads double) (depth : Nat) (v : Value) :
    read? depth (write style v) = reread double depth v := by
  have hread := read?_write_append hs depth v (show IsBlank "".toList by simp [IsBlank])
  rwa [String.append_empty] at hread

end Values

/-! ## Saved doubles -/

/-- A double in a saved text: what is not finite is dropped. -/
def savedDouble (x : Double) : Value := if x.isFinite then .float x else .null

/-- A double that is not finite is `nan` or one of the infinities. -/
theorem eq_of_not_isFinite {x : Double} (hx : x.isFinite = false) :
    x = .nan ∨ ∃ negative, x = .infinite negative := by
  cases x with
  | nan => exact Or.inl rfl
  | signed negative rank =>
      refine Or.inr ⟨negative, congrArg _ (Fin.ext ?_)⟩
      have hle := Nat.le_of_lt_succ rank.isLt
      simp only [Double.isFinite, decide_eq_false_iff_not] at hx
      exact Nat.le_antisymm hle (Nat.le_of_not_lt hx)

theorem render_saved_of_not_isFinite {x : Double} (hx : x.isFinite = false) :
    FloatLayout.saved.render x = "null" := by
  rcases eq_of_not_isFinite hx with rfl | ⟨_ | _, rfl⟩ <;> rfl

theorem exists_render_startsScalar {layout : FloatLayout} (hl : layout.IsRegular) {x : Double}
    (hx : x.isFinite = true) :
    ∃ c others, (layout.render x).toList = c :: others ∧ StartsScalar c := by
  cases x with
  | nan => cases hx
  | signed negative rank =>
      obtain ⟨s, hs, -, htext⟩ :=
        FloatLayout.exists_spelling_render hl negative (of_decide_eq_true hx)
      obtain ⟨c, others, hc, hdigit⟩ := hs.exists_text_cons
      cases negative with
      | false => exact ⟨c, others, by rw [htext, hc]; rfl, startsScalar_of_isDigit hdigit⟩
      | true => exact ⟨'-', s.text, htext, by decide, by decide, by decide⟩

theorem rereads_schemaStyle : schemaStyle.Rereads savedDouble where
  start x := by
    cases hx : x.isFinite with
    | true => exact exists_render_startsScalar (Or.inl rfl) hx
    | false =>
        refine ⟨'n', ['u', 'l', 'l'], ?_, by decide, by decide, by decide⟩
        rw [schemaStyle, render_saved_of_not_isFinite hx]
        rfl
  read x rest hr := by
    cases hx : x.isFinite with
    | true => simpa [savedDouble, hx] using scalar?_render (Or.inl rfl) hx hr
    | false =>
        rw [schemaStyle, render_saved_of_not_isFinite hx]
        simp [savedDouble, hx, scalar?, literal?]

end CqlWorkload.Json
