import CqlWorkload.Proofs.Text.Marked
import CqlWorkload.Proofs.Workload.Coverage
import CqlWorkload.Proofs.Workload.Fitness

/-!
# Statements that create keyspaces

A replication that maps texts to texts is written entry by entry, each text between
quotes.  A quote in a text is written as it is, so that what stands between two quotes
need not be a text of the mapping.

**Quotes.** If the entries of two mappings have equally many quotes, place by place, then
their texts end at the same quotes and the statement tells the mappings apart
(`createKeyspace_eq_iff`); in particular it does if no text has a quote.
-/

namespace CqlWorkload

namespace Replication

open Text

/-- The replication that maps texts to texts. -/
def ofTexts (settings : Entries String) : Value :=
  .ofEntries (settings.map fun setting => (setting.1, .text setting.2))

/-- A setting as it stands between the braces. -/
def settingText (setting : String × String) : String :=
  "'" ++ setting.1 ++ "': '" ++ setting.2 ++ "'"

theorem settingText_append (setting : String × String) (rest : String) :
    settingText setting ++ rest =
      "'" ++ (setting.1 ++ ("': '" ++ (setting.2 ++ ("'" ++ rest)))) := by
  unfold settingText
  simp only [String.append_assoc]

theorem body?_ofTexts (settings : Entries String) :
    body? (ofTexts settings) = some (joinWith ", " (settings.map settingText)) := by
  have hwritable : Value.entriesWritable
      ((settings.map fun setting => (setting.1, Value.text setting.2)).map
        fun entry => (.text entry.1, entry.2)) = true := by
    induction settings with
    | nil => rfl
    | cons setting rest ih => exact ih
  rw [ofTexts, Value.ofEntries, body?, body_map, if_pos hwritable, List.map_map, List.map_map]
  rfl

/-- The number of quotes in a text. -/
def quotes (s : String) : Nat := s.toList.count '\''

/-- Settings at the same place of two mappings have equally many quotes, in the key and in
the value. -/
def QuotesAgree (settings settings' : Entries String) : Prop :=
  ∀ pair, pair ∈ settings.zip settings' →
    quotes pair.1.1 = quotes pair.2.1 ∧ quotes pair.1.2 = quotes pair.2.2

theorem quotesAgree_refl (settings : Entries String) : QuotesAgree settings settings := by
  induction settings with
  | nil =>
      intro pair hpair
      cases hpair
  | cons setting rest ih =>
      intro pair hpair
      rcases List.mem_cons.mp hpair with rfl | hpair
      · exact ⟨rfl, rfl⟩
      · exact ih pair hpair

/-- Texts without quotes have equally many at every place. -/
theorem quotesAgree_of_not_mem {settings settings' : Entries String}
    (h : ∀ setting, setting ∈ settings ++ settings' →
      '\'' ∉ setting.1.toList ∧ '\'' ∉ setting.2.toList) : QuotesAgree settings settings' := by
  intro pair hpair
  obtain ⟨hfirst, hsecond⟩ := List.of_mem_zip hpair
  obtain ⟨hkey, hvalue⟩ := h _ (List.mem_append_left _ hfirst)
  obtain ⟨hkey', hvalue'⟩ := h _ (List.mem_append_right _ hsecond)
  unfold quotes
  rw [List.count_eq_zero_of_not_mem hkey, List.count_eq_zero_of_not_mem hkey',
    List.count_eq_zero_of_not_mem hvalue, List.count_eq_zero_of_not_mem hvalue']
  exact ⟨rfl, rfl⟩

/-- **Settings end at the same quotes** if they have equally many. -/
theorem eq_of_marked_eq {settings settings' : Entries String} (hq : QuotesAgree settings settings')
    (h : marked ", " (settings.map settingText) = marked ", " (settings'.map settingText)) :
    settings = settings' := by
  induction settings generalizing settings' with
  | nil =>
      cases settings' with
      | nil => rfl
      | cons setting' rest' =>
          rw [List.map_cons, marked_cons] at h
          exact absurd h.symm (append_mark_ne_empty rfl _ _)
  | cons setting rest ih =>
      cases settings' with
      | nil =>
          rw [List.map_cons, marked_cons] at h
          exact absurd h (append_mark_ne_empty rfl _ _)
      | cons setting' rest' =>
          obtain ⟨hkeys, hvalues⟩ := hq (setting, setting') (List.mem_cons_self ..)
          rw [List.map_cons, List.map_cons, marked_cons, marked_cons, settingText_append,
            settingText_append, String.append_right_inj] at h
          obtain ⟨hkey, h⟩ := append_mark_inj_of_count rfl hkeys h
          obtain ⟨hvalue, h⟩ := append_mark_inj_of_count rfl hvalues h
          have hrest := ih (fun pair hm => hq pair (List.mem_cons_of_mem _ hm))
            ((String.append_right_inj _).mp h)
          exact List.cons_eq_cons.mpr ⟨Prod.ext hkey hvalue, hrest⟩

end Replication

namespace Context

open Text Replication

variable {ctx ctx' : Context} {s s' later later' : Session} {k k' : Keyspace}
  {settings settings' : Entries String} {op op' : Op}

/-- The statement that creates a keyspace with settings, of which there is at least one. -/
theorem statement_of_createKeyspace (hk : k.replication = ofTexts settings)
    (h : ctx.createKeyspace k s = (.ok (some op), later)) :
    settings ≠ [] ∧ op.statement = (Statement.createKeyspace k.name
      (joinWith ", " (settings.map settingText)) k.durableWrites).render := by
  cases Task.createKeyspace_eq_ok h with
  | done _ _ hyields =>
      obtain ⟨-, -, hstatement, hfaultless, -, -⟩ := hyields
      simp only [Task.statement, hk, body?_ofTexts, Option.getD_some] at hstatement hfaultless
      refine ⟨?_, hstatement⟩
      rintro rfl
      have hslot := ((Statement.fault?_eq_none_iff _).mp hfaultless).1 ("replication", true)
        (List.mem_cons_of_mem _ (List.mem_cons_self ..))
      cases hslot

/-- The statement shows what stands between the braces. -/
theorem body_eq_of_render_eq {name : String} {durable : Bool} {body body' : String}
    (h : (Statement.createKeyspace name body durable).render =
      (Statement.createKeyspace name body' durable).render) : body = body' := by
  unfold Statement.render at h
  simpa only [String.append_left_inj, String.append_right_inj] using h

/-- The statement tells settings that have equally many quotes at every place. -/
theorem settings_eq_of_render_eq {name : String} {durable : Bool} (hne : settings ≠ [])
    (hne' : settings' ≠ []) (hq : QuotesAgree settings settings')
    (h : (Statement.createKeyspace name (joinWith ", " (settings.map settingText))
        durable).render =
      (Statement.createKeyspace name (joinWith ", " (settings'.map settingText))
        durable).render) : settings = settings' := by
  have hbody := body_eq_of_render_eq h
  refine eq_of_marked_eq hq (marked_eq_of_joinWith_eq ?_ ?_ hbody)
  · exact List.map_eq_nil_iff.not.mpr hne
  · exact List.map_eq_nil_iff.not.mpr hne'

/-- **The statement tells settings whose quotes agree.** Keyspaces of the same name and
durability that map texts to texts have the same settings exactly when they are created
by the same statement and their settings have equally many quotes at every place.  So
the statement tells settings without quotes. -/
theorem createKeyspace_eq_iff
    (h : ctx.createKeyspace k s = (.ok (some op), later))
    (h' : ctx'.createKeyspace k' s' = (.ok (some op'), later')) (hname : k.name = k'.name)
    (hdurable : k.durableWrites = k'.durableWrites) (hk : k.replication = ofTexts settings)
    (hk' : k'.replication = ofTexts settings') :
    (settings = settings' ↔
      op.statement = op'.statement ∧ QuotesAgree settings settings') ∧
    ((∀ setting, setting ∈ settings ++ settings' →
        '\'' ∉ setting.1.toList ∧ '\'' ∉ setting.2.toList) →
      op.statement = op'.statement → settings = settings') := by
  obtain ⟨hne, hstatement⟩ := statement_of_createKeyspace hk h
  obtain ⟨hne', hstatement'⟩ := statement_of_createKeyspace hk' h'
  rw [hstatement, hstatement', hname, hdurable]
  refine ⟨⟨?_, fun hboth => settings_eq_of_render_eq hne hne' hboth.2 hboth.1⟩,
    fun hfree hrender => ?_⟩
  · rintro rfl
    exact ⟨rfl, quotesAgree_refl settings⟩
  · exact settings_eq_of_render_eq hne hne' (quotesAgree_of_not_mem hfree) hrender

end Context

/-! ## Examples -/

/-- A keyspace of a shop with settings for its replication. -/
def Keyspace.shopWith (settings : Entries String) : Keyspace :=
  ⟨"shop", Replication.ofTexts settings, true⟩

/-- The keyspace of the shop as it is given. -/
def Value.givenShop (settings : Entries String) : Value :=
  .ofEntries [("name", .text "shop"), ("replication", Replication.ofTexts settings)]

namespace Context

theorem createKeyspace_eq_iff_shop :
    ∃ op op' later later',
      plain.createKeyspace (.shopWith [("class", "SimpleStrategy")]) .plain =
        (.ok (some op), later) ∧
      plain.createKeyspace (.shopWith [("class", "LocalStrategy")]) .plain =
        (.ok (some op'), later') ∧
      op.statement ≠ op'.statement := by
  have h : plain.createKeyspace (.shopWith [("class", "SimpleStrategy")]) .plain =
    (.ok (some _), _) := rfl
  have h' : plain.createKeyspace (.shopWith [("class", "LocalStrategy")]) .plain =
    (.ok (some _), _) := rfl
  refine ⟨_, _, _, _, h, h', fun hsame => ?_⟩
  have hsettings := (createKeyspace_eq_iff h h' rfl rfl rfl rfl).2 (by decide) hsame
  exact absurd hsettings (by decide)

/-- A quote in a value ends it, and the rest of it is read as another setting. -/
theorem createKeyspace_quote_ends_value :
    ∃ settings settings' : Entries String, settings ≠ settings' ∧
      Keyspace.read (.givenShop settings) = .valid (.shopWith settings) ∧
      Keyspace.read (.givenShop settings') = .valid (.shopWith settings') ∧
      ∃ op op' later later',
        plain.createKeyspace (.shopWith settings) .plain = (.ok (some op), later) ∧
        plain.createKeyspace (.shopWith settings') .plain = (.ok (some op'), later') ∧
        op.statement = op'.statement :=
  ⟨[("class", "SimpleStrategy', 'replication_factor': '1")],
    [("class", "SimpleStrategy"), ("replication_factor", "1")], by decide, by rfl, by rfl,
    _, _, _, _, rfl, rfl, by decide +kernel⟩

end Context
end CqlWorkload
