import CqlWorkload.Proofs.Workload.Compile

/-!
# Assembled blocks

Taking a shared timeout out of the operations of a block changes nothing else
about them, and every operation still has its timeout: as its own, or as that of
the block.

**Numbers.** Timeouts are shared when they are the same as numbers, so the
timeout in effect is the same number as the configured one, if that is a number
at all.
-/

namespace CqlWorkload

namespace Double

/-- Numbers that are equal, or that are both none. -/
def Agrees (x y : Double) : Prop := x.same y = true ∨ x.isNaN = true ∧ y.isNaN = true

theorem agrees_self (x : Double) : x.Agrees x := by
  cases hx : x.isNaN with
  | false => exact Or.inl (by simp [same, hx])
  | true => exact Or.inr ⟨hx, hx⟩

theorem Agrees.symm {x y : Double} (h : x.Agrees y) : y.Agrees x := by
  rcases h with h | ⟨hx, hy⟩
  · simp only [same, Bool.and_eq_true, beq_iff_eq] at h
    exact Or.inl (by simp [same, h])
  · exact Or.inr ⟨hy, hx⟩

theorem Agrees.trans {x y z : Double} (hxy : x.Agrees y) (hyz : y.Agrees z) : x.Agrees z := by
  rcases hxy with hxy | ⟨hx, hy⟩ <;> rcases hyz with hyz | ⟨hy', hz⟩
  · simp only [same, Bool.and_eq_true, beq_iff_eq] at hxy hyz
    exact Or.inl (by simp [same, hxy, hyz])
  · simp [same, hy'] at hxy
  · simp [same, hy] at hyz
  · exact Or.inr ⟨hx, hz⟩

theorem Agrees.same {x y : Double} (h : x.Agrees y) (hy : y.isNaN = false) :
    x.same y = true := by
  rcases h with h | ⟨_, hn⟩
  · exact h
  · rw [hy] at hn
    cases hn

end Double

/-- The timeout in effect: that of the operation, else that of its block. -/
def Block.timeoutOf (b : Block) (op : Op) : Option Double := op.timeout.or b.timeout

namespace Op

/-- Operations that are the same but for their timeouts. -/
structure Matches (a b : Op) : Prop where
  form : a.form = b.form
  statement : a.statement = b.statement
  kind : a.kind = b.kind
  ratio : a.ratio = b.ratio

theorem Matches.refl (a : Op) : a.Matches a := ⟨rfl, rfl, rfl, rfl⟩

theorem matches_withoutTimeout (a : Op) : a.withoutTimeout.Matches a := ⟨rfl, rfl, rfl, rfl⟩

theorem agrees_of_sameTimeout {a b : Op} {x y : Double} (ha : a.timeout = some x)
    (hb : b.timeout = some y) (h : a.sameTimeout b = true) : x.Agrees y := by
  simp only [sameTimeout, ha, hb, Bool.or_eq_true, Bool.and_eq_true] at h
  rcases h with h | ⟨hn, _⟩
  · exact Or.inl h
  · exact Or.inr hn

end Op

theorem mem_of_common? {α : Type} {same : α → α → Bool} {items : List α} {first : α}
    (h : common? same items = some first) : first ∈ items := by
  cases items with
  | nil => cases h
  | cons a rest =>
      rw [common?] at h
      split at h
      · cases h
        exact List.mem_cons_self
      · cases h

theorem common?_eq_some {α : Type} {same : α → α → Bool} {items : List α} {first : α}
    (h : common? same items = some first) :
    ∀ item, item ∈ items → item = first ∨ same first item = true := by
  cases items with
  | nil => cases h
  | cons a rest =>
      rw [common?] at h
      split at h
      next hall =>
        cases h
        intro item hm
        rcases List.mem_cons.mp hm with rfl | hm
        · exact Or.inl rfl
        · exact Or.inr (List.all_eq_true.mp hall item hm)
      · cases h

theorem common?_map {α β : Type} {f : α → β} {same : α → α → Bool} {other : β → β → Bool}
    {items : List α} (h : ∀ a ∈ items, ∀ b, other (f a) (f b) = same a b) :
    common? other (items.map f) = (common? same items).map f := by
  cases items with
  | nil => rfl
  | cons a rest =>
      have hall : (rest.map f).all (other (f a)) = rest.all (same a) := by
        rw [List.all_map]
        exact List.all_congr rfl fun b => h a List.mem_cons_self b
      rw [List.map_cons, common?, common?, hall]
      split <;> rfl

/-- A block is assembled with a timeout that agrees with all those of its operations, or
with none. -/
theorem Block.ofOps_cases (ops : Entries Op) :
    Block.ofOps ops = ⟨none, ops⟩ ∨
      ∃ x, Block.ofOps ops = ⟨some x, ops.map fun entry => (entry.1, entry.2.withoutTimeout)⟩ ∧
        ∀ entry, entry ∈ ops → ∀ y, entry.2.timeout = some y → x.Agrees y := by
  unfold ofOps
  split
  next x hx =>
    obtain ⟨first, hfirst, htimeout⟩ := Option.bind_eq_some_iff.mp hx
    refine Or.inr ⟨x, rfl, fun entry hm y hy => ?_⟩
    rcases common?_eq_some hfirst entry.2 (List.mem_map.mpr ⟨entry, hm, rfl⟩) with he | hs
    · obtain rfl : y = x := by simpa [he, htimeout] using hy.symm
      exact Double.agrees_self y
    · exact Op.agrees_of_sameTimeout htimeout hy hs
  next => exact Or.inl rfl

/-- The timeouts in effect agree with those that the operations had. -/
theorem Block.agrees_ofOps (ops : Entries Op) :
    List.Forall₂ (fun before after : String × Op => ∀ y, before.2.timeout = some y →
      ∃ x, (Block.ofOps ops).timeoutOf after.2 = some x ∧ x.Agrees y)
      ops (Block.ofOps ops).ops := by
  rcases ofOps_cases ops with h | ⟨x, h, hagrees⟩ <;> rw [h]
  · rw [List.forall₂_same]
    intro entry _ y hy
    exact ⟨y, by rw [timeoutOf, hy, Option.some_or], Double.agrees_self y⟩
  · rw [List.forall₂_map_right_iff, List.forall₂_same]
    exact fun entry hm y hy => ⟨x, rfl, hagrees entry hm y hy⟩

/-- What assembling a block leaves of an operation in it. -/
structure Block.Holds (b : Block) (before after : String × Op) : Prop where
  name : after.1 = before.1
  matched : after.2.Matches before.2
  timeout : ∀ x, before.2.timeout = some x → x.isNaN = false →
    ∃ y, b.timeoutOf after.2 = some y ∧ y.same x = true

/-- Assembling a block changes the timeouts of its operations only. -/
theorem Block.matches_ofOps (ops : Entries Op) :
    List.Forall₂ (fun before after : String × Op =>
      after.1 = before.1 ∧ after.2.Matches before.2) ops (Block.ofOps ops).ops := by
  rcases ofOps_cases ops with h | ⟨x, h, _⟩ <;> rw [h]
  · rw [List.forall₂_same]
    exact fun entry _ => ⟨rfl, Op.Matches.refl _⟩
  · rw [List.forall₂_map_right_iff, List.forall₂_same]
    exact fun entry _ => ⟨rfl, Op.matches_withoutTimeout _⟩

/-- **Assembling a block** keeps its operations and the timeouts in effect. -/
theorem Block.holds_ofOps (ops : Entries Op) :
    List.Forall₂ (Block.ofOps ops).Holds ops (Block.ofOps ops).ops := by
  refine List.Forall₂.mp ?_ (matches_ofOps ops) (agrees_ofOps ops)
  rintro before after ⟨hname, hmatched⟩ htimeout
  refine ⟨hname, hmatched, fun x hx hn => ?_⟩
  obtain ⟨y, hy, hagrees⟩ := htimeout x hx
  exact ⟨y, hy, hagrees.same hn⟩

theorem Block.keys_ofOps (ops : Entries Op) : (Block.ofOps ops).ops.keys = ops.keys := by
  unfold ofOps
  split
  · simp [Entries.keys, Function.comp_def]
  · rfl

/-! ## Operations by task -/

theorem forall₂_comp {α β γ : Type} {R : α → β → Prop} {S : β → γ → Prop} {T : α → γ → Prop}
    (h : ∀ a b c, R a b → S b c → T a c) :
    ∀ {first : List α} {second : List β} {third : List γ},
      List.Forall₂ R first second → List.Forall₂ S second third → List.Forall₂ T first third
  | _, _, _, .nil, .nil => .nil
  | _, _, _, .cons hr hrs, .cons hs hss => .cons (h _ _ _ hr hs) (forall₂_comp h hrs hss)

theorem forall₂_exists_left {α β : Type} {R : α → β → Prop} {b : β} :
    ∀ {first : List α} {second : List β}, List.Forall₂ R first second → b ∈ second →
      ∃ a, a ∈ first ∧ R a b
  | _, _, .nil, hb => by cases hb
  | a :: first, _, .cons hr hrs, hb => by
      rcases List.mem_cons.mp hb with rfl | hb
      · exact ⟨a, List.mem_cons_self .., hr⟩
      · obtain ⟨other, hm, ho⟩ := forall₂_exists_left hrs hb
        exact ⟨other, List.mem_cons_of_mem _ hm, ho⟩

/-- The blocks are those of a plan, and each holds one operation for each of its
tasks, in order, that is related to the task. -/
def Workload.CarriesOut (w : Workload) (s : Schema) (c : Config)
    (related : Block → String → Task → String × Op → Prop) : Prop :=
  List.Forall₂ (fun planned block => block.1 = planned.1 ∧
    List.Forall₂ (related block.2 planned.1) (c.tasks s planned.2) block.2.ops)
      c.blockplan w.blocks

theorem Workload.CarriesOut.and {w : Workload} {s : Schema} {c : Config}
    {first second : Block → String → Task → String × Op → Prop} (h : w.CarriesOut s c first)
    (h' : w.CarriesOut s c second) : w.CarriesOut s c fun b block task entry =>
      first b block task entry ∧ second b block task entry :=
  List.Forall₂.mp (fun _ _ hb hb' =>
    ⟨hb.1, List.Forall₂.mp (fun _ _ => And.intro) hb.2 hb'.2⟩) h h'

/-- What is known of an operation of a compiled workload. -/
structure Task.Entered (ctx : Context) (last : Session) (b : Block) (block : String)
    (task : Task) (entry : String × Op) : Prop where
  name : entry.1 = last.registry.template.nameOf task.element (task.hints block)
  issued : last.registry.issued.get? entry.1 = task.owner? block
  form : entry.2.form = task.form
  kind : entry.2.kind = task.kind
  statement : entry.2.statement = (task.statement ctx.config.partitionMultiplier
    (Binding.boundIn ctx.libraries last.bindings)).render
  ratio : task.ratio = .ok entry.2.ratio
  timeout : (ctx.config.timeouts.get task.kind).isNaN = false →
    ∃ y, b.timeoutOf entry.2 = some y ∧ y.same (ctx.config.timeouts.get task.kind) = true

theorem Task.Fulfilled.entered {ctx : Context} {last : Session} {b : Block} {block : String}
    {task : Task} {before after : String × Op} (h : task.Fulfilled ctx block last before)
    (hb : b.Holds before after) : task.Entered ctx last b block after where
  name := hb.name.trans h.name
  issued := hb.name ▸ h.issued
  form := hb.matched.form.trans h.yields.form
  kind := hb.matched.kind.trans h.yields.kind
  statement := hb.matched.statement.trans h.yields.statement
  ratio := hb.matched.ratio ▸ h.yields.ratio
  timeout := hb.timeout _ h.yields.timeout

theorem Workload.Compiled.carriesOut {s : Schema} {c : Config} {ctx : Context} {last : Session}
    {w : Workload} (h : w.Compiled s c ctx last) :
    w.CarriesOut s c (Task.Entered ctx last) := by
  obtain rfl := h.config
  refine h.blocks.imp ?_
  rintro planned block ⟨hname, ops, hblock, _, hops⟩
  refine ⟨hname, ?_⟩
  rw [hblock]
  refine forall₂_comp ?_ hops (Block.holds_ofOps ops)
  exact fun task before after hf hb => hf.entered hb

/-- The timeout in effect of an operation agrees with the configured one. -/
theorem Workload.Compiled.timeouts {s : Schema} {c : Config} {ctx : Context} {last : Session}
    {w : Workload} (h : w.Compiled s c ctx last) :
    w.CarriesOut s c fun b _ task entry =>
      ∃ x, b.timeoutOf entry.2 = some x ∧ x.Agrees (c.timeouts.get task.kind) := by
  obtain rfl := h.config
  refine h.blocks.imp ?_
  rintro planned block ⟨hname, ops, hblock, _, hops⟩
  refine ⟨hname, ?_⟩
  rw [hblock]
  refine forall₂_comp ?_ hops (Block.agrees_ofOps ops)
  exact fun task before after hf htimeout => htimeout _ hf.yields.timeout

theorem Workload.Compiled.nodup_ops {s : Schema} {c : Config} {ctx : Context} {last : Session}
    {w : Workload} (h : w.Compiled s c ctx last) {block : String × Block}
    (hb : block ∈ w.blocks) : block.2.ops.keys.Nodup := by
  obtain ⟨planned, _, _, ops, hblock, hnodup, _⟩ := forall₂_exists_left h.blocks hb
  rw [hblock, Block.keys_ofOps]
  exact hnodup

theorem Workload.CarriesOut.keys_blocks {w : Workload} {s : Schema} {c : Config}
    {related : Block → String → Task → String × Op → Prop} (h : w.CarriesOut s c related) :
    w.blocks.keys = c.blockplan.keys := by
  have hnames : List.Forall₂ (· = ·) c.blockplan.keys w.blocks.keys := by
    rw [Entries.keys, Entries.keys, List.forall₂_map_left_iff, List.forall₂_map_right_iff]
    exact h.imp fun planned block hb => hb.1.symm
  exact (List.forall₂_eq_eq_eq ▸ hnames).symm

end CqlWorkload
