import CqlWorkload.Proofs.Text.Separator
import CqlWorkload.Proofs.Workload.Task

/-!
# Names from the standard template

The standard template joins the name of a block, the type of an operation and the
path of an element by hyphens, and the words of a path by underscores.  For
identifiers and ordinary names of blocks this can be undone, so names that are the
same have the same owner (`Ask.IsOrdinary.owner?_eq`), and none of them is an
identifier itself (`Ask.IsOrdinary.not_isIdentifier`).

**Registries.** A registry that was asked for such names only goes on to issue them
(`Registry.Tidy.nameFor`): it never comes to refuse one.
-/

namespace CqlWorkload

open Text

/-! ## The standard template -/

namespace Template

def standardPieces : List Piece := [
  .bracket "" .blockname "--", .bracket "" .optype "--", .bracket "" .keyspace "__",
  .bracket "" .table "__", .bracket "" .name "", .bracket "__" .modulo ""]

theorem read_standard : read standard = .ok ⟨standard, standardPieces⟩ := by
  rfl

/-- A text that a section shows as it is. -/
structure IsShown (s : String) : Prop where
  nonempty : s ≠ ""
  safe : ∀ c, c ∈ s.toList → safeChar c = c

theorem isShown_of_isIdentifier {s : String} (h : IsIdentifier s) : IsShown s where
  nonempty := h.nonempty
  safe := by
    intro c hc
    rcases h.chars c hc with ha | rfl
    · simp [safeChar, ha]
    · rfl

theorem isShown_of_isBlockName {s : String} (h : IsBlockName s) : IsShown s where
  nonempty := h.nonempty
  safe := by
    intro c hc
    rcases h.chars c hc with ha | rfl | rfl
    · simp [safeChar, ha]
    · rfl
    · rfl

variable {value : Field → Option String} {field : Field}

theorem render_bracket {v : String} (before after : String) (rest : List Piece)
    (hv : value field = some v) (h : IsShown v) :
    render value (.bracket before field after :: rest) =
      before ++ v ++ after ++ render value rest := by
  have hsafe : v.toList.map safeChar = v.toList := by
    conv_rhs => rw [← List.map_id v.toList]
    exact List.map_congr_left h.safe
  simp only [render, hv, if_neg h.nonempty, hsafe, String.ofList_toList]

theorem render_bracket_none (before after : String) (rest : List Piece)
    (hv : value field = none) :
    render value (.bracket before field after :: rest) = render value rest := by
  simp [render, hv]

/-- A section in front of joined words joins its value to them. -/
theorem render_section {double : String} {words : List String} {rest : List Piece}
    (hv : ∀ v, value field = some v → IsShown v) (hne : words ≠ [])
    (h : render value rest = joinWith double words) :
    render value (.bracket "" field double :: rest) =
      joinWith double ((value field).toList ++ words) := by
  cases hvalue : value field with
  | none =>
      rw [render_bracket_none _ _ _ hvalue, h]
      rfl
  | some v =>
      obtain ⟨word, more, rfl⟩ := List.exists_cons_of_ne_nil hne
      rw [render_bracket _ _ _ hvalue (hv v hvalue), h, String.empty_append]
      rfl

/-- **What the standard template makes of the values of its fields.** -/
theorem render_standard {name : String} (hname : value .name = some name)
    (hv : ∀ field, field ∈ [.blockname, .optype, .keyspace, .table, .name, .modulo] →
      ∀ v, value field = some v → IsShown v) :
    render value standardPieces =
      joinWith "--" ((value .blockname).toList ++ ((value .optype).toList ++
        [joinWith "__" ((value .keyspace).toList ++ ((value .table).toList ++
          name :: (value .modulo).toList))])) := by
  have hlast : render value [.bracket "" .name "", .bracket "__" .modulo ""] =
      joinWith "__" (name :: (value .modulo).toList) := by
    rw [render_bracket _ _ _ hname (hv .name (by decide) name hname), String.empty_append,
      String.append_empty]
    cases hm : value .modulo with
    | none => rw [render_bracket_none _ _ _ hm, render, String.append_empty]; rfl
    | some v =>
        rw [render_bracket _ _ _ hm (hv .modulo (by decide) v hm), render, String.append_empty,
          String.append_empty, ← String.append_assoc]
        rfl
  have hpath := render_section (hv .keyspace (by decide)) (by simp)
    (render_section (hv .table (by decide)) (List.cons_ne_nil _ _) hlast)
  exact render_section (hv .blockname (by decide)) (by simp)
    (render_section (hv .optype (by decide)) (List.cons_ne_nil _ _) hpath)

end Template

/-! ## Operations and bindings -/

/-- The kind of element that the operations of a component are about. -/
def Component.subject : Component → String
  | .schemaKeyspaces | .dropKeyspaces => "keyspace"
  | .schemaTypes | .dropTypes => "type"
  | _ => "table"

theorem Component.isBlockName_opType (component : Component) : IsBlockName component.opType := by
  cases component <;> decide

theorem Component.opType_injective : Function.Injective Component.opType := by
  have hn : (Component.all.map Component.opType).Nodup := by decide
  have hm : ∀ component, component ∈ Component.all := by
    intro component
    cases component <;> decide
  exact fun a b h => List.inj_on_of_nodup_map hn (hm a) (hm b) h

/-- The words of an owner's path. -/
def Owner.words (o : Owner) : List String := o.keyspace.toList ++ (o.table.toList ++ [o.name])

/-- The words of the path of an element. -/
def Element.words (e : Element) : List String := (e.owner?.map (·.words)).getD []

/-- A column that belongs to a table of a keyspace. -/
def Column.IsBound (c : Column) : Prop :=
  ∃ keyspace table, c.keyspace = some keyspace ∧ c.table = some table

theorem isIdentifier_digitsText (n : Nat) : IsIdentifier (FloatLayout.digitsText n) := by
  have hchars : ∀ c, c ∈ (FloatLayout.digitsText n).toList → c.isDigit = true := by
    intro c hc
    rw [FloatLayout.digitsText, String.toList_ofList] at hc
    exact Nat.isDigit_of_mem_toDigits (by decide) (by decide) hc
  have hne : FloatLayout.digitsText n ≠ "" := by
    intro he
    have hl := congrArg String.toList he
    rw [FloatLayout.digitsText, String.toList_ofList] at hl
    exact Nat.toDigits_ne_nil hl
  refine ⟨isWord_of_not_mem hne fun hm => ?_, fun c hc => Or.inl ?_⟩
  · exact absurd (hchars '_' hm) (by decide)
  · simp [Char.isAlphanum, hchars c hc]

namespace Task

variable {block : String} {task : Task}

theorem exists_base (task : Task) : ∃ keyspace name,
    task.element.owner? = some ⟨task.component.subject, keyspace, none, name, []⟩ := by
  cases task <;> exact ⟨_, _, rfl⟩

/-- Operations of one component have one owner if their elements have one path. -/
theorem owner?_eq_of_words {a b : Task} (hc : a.component = b.component)
    (hw : a.element.words = b.element.words) : a.element.owner? = b.element.owner? := by
  obtain ⟨keyspace, name, ha⟩ := exists_base a
  obtain ⟨keyspace', name', hb⟩ := exists_base b
  rw [Element.words, Element.words, ha, hb] at hw
  rw [ha, hb, hc]
  cases keyspace <;> cases keyspace' <;> simp_all [Owner.words]

theorem hint?_hints (field : Field) : Role.hint? (task.hints block) field =
    match field with
    | .blockname => some block
    | .optype => some task.component.opType
    | _ => none := by
  have hb : Text.upperText "blockname" = "BLOCKNAME" := by decide
  have ho : Text.upperText "optype" = "OPTYPE" := by decide
  cases field <;> simp [Role.hint?, hints, Field.text, hb, ho]

end Task

namespace Need

variable {need : Need}

/-- The modulus as a name shows it. -/
def digits? (need : Need) : Option String := need.modulus.map FloatLayout.digitsText

theorem hint?_hints (field : Field) : Role.hint? need.hints field =
    match field with
    | .modulo => need.digits?
    | _ => none := by
  have hm : Text.upperText "modulo" = "MODULO" := by decide
  obtain ⟨column, modulus⟩ := need
  cases modulus <;> cases field <;> simp [Role.hint?, hints, digits?, Field.text, hm]

theorem hints_eq (need : Need) : need.hints = need.digits?.toList.map ("modulo", ·) := by
  obtain ⟨column, modulus⟩ := need
  cases modulus <;> rfl

/-- Bindings have one owner if their columns have one path and they have one modulus. -/
theorem owner_eq_of_words {a b : Need} (ha : a.column.IsBound) (hb : b.column.IsBound)
    (h : a.owner.words ++ a.digits?.toList = b.owner.words ++ b.digits?.toList) :
    a.owner = b.owner := by
  obtain ⟨keyspace, table, hk, ht⟩ := ha
  obtain ⟨keyspace', table', hk', ht'⟩ := hb
  simp only [Owner.words, owner, hk, ht, hk', ht', Option.toList_some, List.cons_append,
    List.nil_append, List.cons.injEq] at h
  obtain ⟨rfl, rfl, hname, hdigits⟩ := h
  rw [owner, owner, hints_eq, hints_eq, hk, hk', ht, ht', hname, hdigits]

end Need

/-! ## Ordinary names -/

section Names

variable {t : Template} (ht : t.pieces = Template.standardPieces)
include ht

/-- **The name of an operation.** -/
theorem Task.nameOf_standard {block : String} {task : Task} (hb : IsBlockName block)
    (hw : ∀ word, word ∈ task.element.words → IsIdentifier word) :
    t.nameOf task.element (task.hints block) =
      joinWith "--" [block, task.component.opType, joinWith "__" task.element.words] := by
  obtain ⟨keyspace, name, hbase⟩ := exists_base task
  have howner := owner?_eq block task
  rw [owner?, hbase, Option.map_some] at howner
  have hwords : task.element.words = keyspace.toList ++ [name] := by
    rw [Element.words, hbase]
    rfl
  rw [Template.nameOf, howner, ht, ofHints_hints, hwords]
  dsimp only
  rw [Template.render_standard rfl]
  · simp [Owner.value, hint?_hints]
  · intro field hfield v hv
    simp only [List.mem_cons, List.not_mem_nil, or_false] at hfield
    rcases hfield with rfl | rfl | rfl | rfl | rfl | rfl <;>
      simp only [Owner.value, hint?_hints, Option.some.injEq, reduceCtorEq] at hv
    · exact hv ▸ Template.isShown_of_isBlockName hb
    · exact hv ▸ Template.isShown_of_isBlockName (Component.isBlockName_opType _)
    · exact Template.isShown_of_isIdentifier (hw v (by simp [hwords, hv]))
    · exact Template.isShown_of_isIdentifier (hw v (by simp [hwords, hv]))

/-- **The name of a binding.** -/
theorem Need.nameOf_standard {need : Need} {keyspace table : String}
    (hk : need.column.keyspace = some keyspace) (htable : need.column.table = some table)
    (hw : ∀ word, word ∈ [keyspace, table, need.column.name] → IsIdentifier word) :
    t.nameOf (.column need.column) need.hints =
      joinWith "__" (keyspace :: table :: need.column.name :: need.digits?.toList) := by
  rw [Template.nameOf, ownerIn?_hints, ht, ofHints_hints]
  dsimp only
  rw [Template.render_standard rfl]
  · simp [Owner.value, owner, hint?_hints, hk, htable, joinWith]
  · intro field hfield v hv
    refine Template.isShown_of_isIdentifier ?_
    simp only [List.mem_cons, List.not_mem_nil, or_false] at hfield
    rcases hfield with rfl | rfl | rfl | rfl | rfl | rfl <;>
      simp only [Owner.value, owner, hint?_hints, hk, htable, digits?,
        Option.some.injEq, reduceCtorEq, Option.map_eq_some_iff] at hv
    · exact hw v (by simp [hv])
    · exact hw v (by simp [hv])
    · exact hw v (by simp [hv])
    · obtain ⟨q, _, rfl⟩ := hv
      exact isIdentifier_digitsText q

end Names

/-- An element that is called by an identifier, and so is all that it is in. -/
def Element.IsOrdinary (e : Element) : Prop := ∀ word, word ∈ e.words → IsIdentifier word

/-- What a compile asks names for. -/
inductive Ask
  | op (block : String) (task : Task)
  | binding (need : Need)

namespace Ask

def element : Ask → Element
  | .op _ task => task.element
  | .binding need => .column need.column

def hints : Ask → List (String × String)
  | .op block task => task.hints block
  | .binding need => need.hints

def owner? (ask : Ask) : Option Owner := ask.element.ownerIn? ask.hints

/-- What a name shows in front of its path. -/
def front : Ask → List String
  | .op block task => [block, task.component.opType]
  | .binding _ => []

/-- The words of the path of a name. -/
def path : Ask → List String
  | .op _ task => task.element.words
  | .binding need => need.owner.words ++ need.digits?.toList

/-- The block has an ordinary name, and the element and all that it is in are called by
identifiers. -/
def IsOrdinary : Ask → Prop
  | .op block task => IsBlockName block ∧ task.element.IsOrdinary
  | .binding need => need.column.IsBound ∧ (Element.column need.column).IsOrdinary

variable {t : Template} {ask other : Ask}

theorem IsOrdinary.isIdentifier_path (h : ask.IsOrdinary) :
    ∀ word, word ∈ ask.path → IsIdentifier word := by
  cases ask with
  | op block task => exact h.2
  | binding need =>
      intro word hm
      rcases List.mem_append.mp hm with hm | hm
      · exact h.2 word hm
      · obtain ⟨q, _, rfl⟩ := Option.map_eq_some_iff.mp (Option.mem_toList.mp hm)
        exact isIdentifier_digitsText q

theorem IsOrdinary.isWord_path (h : ask.IsOrdinary) :
    ∀ word, word ∈ ask.path → IsWord '_' word :=
  fun word hm => (h.isIdentifier_path word hm).toIsWord

theorem path_ne_nil (ask : Ask) : ask.path ≠ [] := by
  cases ask with
  | op block task =>
      obtain ⟨keyspace, name, hbase⟩ := Task.exists_base task
      simp [Ask.path, Element.words, hbase, Owner.words]
  | binding need => simp [Ask.path, Owner.words]

theorem IsOrdinary.isWord_parts (h : ask.IsOrdinary) :
    ∀ part, part ∈ ask.front ++ [joinWith "__" ask.path] → IsWord '-' part := by
  intro part hm
  rcases List.mem_append.mp hm with hm | hm
  · cases ask with
    | op block task =>
        simp only [front, List.mem_cons, List.not_mem_nil, or_false] at hm
        rcases hm with rfl | rfl
        · exact h.1.toIsWord
        · exact (Component.isBlockName_opType _).toIsWord
    | binding need => cases hm
  · rw [List.mem_singleton.mp hm]
    exact isWord_joinWith ask.path_ne_nil h.isIdentifier_path

/-- **The name that is asked for** joins its parts by hyphens and its path by underscores. -/
theorem IsOrdinary.nameOf_eq (ht : t.pieces = Template.standardPieces) (h : ask.IsOrdinary) :
    t.nameOf ask.element ask.hints =
      joinWith "--" (ask.front ++ [joinWith "__" ask.path]) := by
  cases ask with
  | op block task => exact Task.nameOf_standard ht h.1 h.2
  | binding need =>
      obtain ⟨⟨keyspace, table, hk, htable⟩, hw⟩ := h
      have hwords : need.owner.words = [keyspace, table, need.column.name] := by
        simp [Owner.words, Need.owner, hk, htable]
      have hn := Need.nameOf_standard ht hk htable (hwords ▸ hw)
      rw [Ask.path, hwords]
      exact hn

theorem IsOrdinary.nameOf_ne_empty (ht : t.pieces = Template.standardPieces)
    (h : ask.IsOrdinary) : t.nameOf ask.element ask.hints ≠ "" := by
  rw [h.nameOf_eq ht]
  exact joinWith_ne_empty (by simp) fun part hm => (h.isWord_parts part hm).nonempty

/-- Names that are the same have the same parts. -/
theorem IsOrdinary.parts_eq (ht : t.pieces = Template.standardPieces) (ha : ask.IsOrdinary)
    (hb : other.IsOrdinary)
    (h : t.nameOf ask.element ask.hints = t.nameOf other.element other.hints) :
    ask.front = other.front ∧ ask.path = other.path := by
  rw [ha.nameOf_eq ht, hb.nameOf_eq ht] at h
  obtain ⟨hfront, hpath⟩ := List.append_inj'
    (joinWith_inj (by decide) ha.isWord_parts hb.isWord_parts h) rfl
  exact ⟨hfront, joinWith_inj (by decide) ha.isWord_path hb.isWord_path (List.cons.inj hpath).1⟩

/-- **Names that are the same have the same owner.** -/
theorem IsOrdinary.owner?_eq (ht : t.pieces = Template.standardPieces) (ha : ask.IsOrdinary)
    (hb : other.IsOrdinary)
    (h : t.nameOf ask.element ask.hints = t.nameOf other.element other.hints) :
    ask.owner? = other.owner? := by
  obtain ⟨hfront, hpath⟩ := ha.parts_eq ht hb h
  cases ask with
  | op block task =>
      cases other with
      | op block' task' =>
          simp only [front, List.cons.injEq, and_true] at hfront
          obtain ⟨rfl, htype⟩ := hfront
          have hc := Component.opType_injective htype
          have hbase := Task.owner?_eq_of_words hc hpath
          show task.owner? block = task'.owner? block
          rw [Task.owner?_eq, Task.owner?_eq, hbase, hc]
      | binding need => cases hfront
  | binding need =>
      cases other with
      | op block task => cases hfront
      | binding need' =>
          show (Element.column need.column).ownerIn? need.hints =
            (Element.column need'.column).ownerIn? need'.hints
          rw [Need.ownerIn?_hints, Need.ownerIn?_hints,
            Need.owner_eq_of_words ha.1 hb.1 hpath]

/-- **No such name is an identifier.** -/
theorem IsOrdinary.not_isIdentifier (ht : t.pieces = Template.standardPieces)
    (h : ask.IsOrdinary) : ¬IsIdentifier (t.nameOf ask.element ask.hints) := by
  intro hid
  have hparts := h.nameOf_eq ht
  generalize t.nameOf ask.element ask.hints = name at hid hparts
  have hname : ∀ part, part ∈ [name] → IsWord '-' part := by
    intro part hm
    rw [List.mem_singleton.mp hm]
    exact hid.isWord_hyphen
  have hall := @joinWith_inj '-' "--" rfl _ _ hname h.isWord_parts hparts
  cases ask with
  | op block task => simp [front] at hall
  | binding need =>
      -- The path is one word, but that of a column has three.
      have hpath : joinWith "__" [name] = joinWith "__" (Ask.binding need).path :=
        (List.cons.inj hall).1
      have hword : ∀ word, word ∈ [name] → IsWord '_' word := by
        intro word hm
        rw [List.mem_singleton.mp hm]
        exact hid.toIsWord
      have hwords := joinWith_inj (by decide) hword h.isWord_path hpath
      obtain ⟨⟨keyspace, table, hk, htable⟩, -⟩ := h
      simp [path, Owner.words, Need.owner, hk, htable] at hwords

theorem exists_owner (ask : Ask) : ∃ owner, ask.owner? = some owner := by
  cases ask with
  | op block task =>
      obtain ⟨base, _, _, ho⟩ := Task.exists_owner block task
      exact ⟨_, ho⟩
  | binding need => exact ⟨_, need.ownerIn?_hints⟩

end Ask

/-! ## Registries -/

/-- A registry with the standard template in which identifiers are declared and ordinary
names are issued only. -/
structure Registry.Tidy (r : Registry) : Prop where
  template : r.template.pieces = Template.standardPieces
  declared : ∀ name, r.declarers name ≠ [] → IsIdentifier name
  issued : ∀ name owner, r.issued.get? name = some owner → ∃ ask : Ask, ask.IsOrdinary ∧
    name = r.template.nameOf ask.element ask.hints ∧ ask.owner? = some owner

/-- **A tidy registry issues every ordinary name** and stays tidy. -/
theorem Registry.Tidy.nameFor {r : Registry} {ask : Ask} (h : r.Tidy) (ha : ask.IsOrdinary) :
    ∃ name later, r.nameFor ask.element ask.hints = .ok (name, later) ∧ later.Tidy := by
  obtain ⟨owner, ho⟩ := ask.exists_owner
  have hd : r.declarers (r.template.nameOf ask.element ask.hints) = [] := by
    by_contra hne
    exact ha.not_isIdentifier h.template (h.declared _ hne)
  have hi : ∀ existing,
      r.issued.get? (r.template.nameOf ask.element ask.hints) = some existing →
        existing = owner := by
    intro existing hg
    obtain ⟨other, hother, hname, hexisting⟩ := h.issued _ _ hg
    rw [← ha.owner?_eq h.template hother hname, ho] at hexisting
    exact (Option.some.inj hexisting).symm
  refine ⟨_, _, nameFor_of_claim ho (ha.nameOf_ne_empty h.template) (claim_of_free hd hi),
    h.template, h.declared, fun name its hg => ?_⟩
  by_cases hname : name = r.template.nameOf ask.element ask.hints
  · subst hname
    rw [Entries.get?_put_self] at hg
    exact ⟨ask, ha, rfl, ho.trans hg⟩
  · rw [Entries.get?_put_of_ne _ hname] at hg
    exact h.issued name its hg

end CqlWorkload
