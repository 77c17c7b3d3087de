import CqlWorkload.Proofs.Value
import CqlWorkload.Proofs.Workload.Block
import CqlWorkload.Workload.Simplify

/-!
# Shared timeouts

Taking a shared timeout out of the operations of a block changes what is written and
nothing that it means.

**Blocks.** A block is a mapping that may hold operations by name and parameters, among
much else.  Timeouts are numbers of any kind, null or absent.

**Sharing.** Timeouts are shared when all operations have one and all of these have the
same exact value.  Then the block is hoisted, with the first of them among its
parameters (`simplifyTimeouts_of_shares`); otherwise it stays as it is
(`simplifyTimeouts_of_not_shares`).  No operation of a hoisted block has a timeout, so
none is shared any more.
-/

namespace CqlWorkload.Simplify

open Value

variable {block after : List (Value × Value)}

/-! ## Parts of a block -/

/-- The entries of a mapping, none of any other value. -/
def entriesOf : Value → List (Value × Value)
  | .map entries => entries
  | _ => []

/-- The entries of the mapping under a name in a block, none if it is not there. -/
def part (block : List (Value × Value)) (name : String) : List (Value × Value) :=
  (lookup block name).elim [] entriesOf

/-- The operations of a block with their names. -/
def opsIn (block : List (Value × Value)) : List (Value × List (Value × Value)) :=
  (part block "ops").map fun entry => (entry.1, entriesOf entry.2)

/-- A timeout that can be compared: a number, or null. -/
def IsTimeout (v : Value) : Prop := v = .null ∨ v.quantity?.isSome = true

/-- The operations and the parameters of a block are mappings, as far as they are there,
and so is every operation. -/
structure IsBlock (block : List (Value × Value)) : Prop where
  ops : ∀ value ∈ lookup block "ops", value = .map (entriesOf value)
  op : ∀ entry ∈ part block "ops", entry.2 = .map (entriesOf entry.2)
  timeout : ∀ op ∈ opsIn block, IsTimeout (timeoutOf op.2)
  params : ∀ value ∈ lookup block "params", value = .map (entriesOf value)

/-- Operations by name as the value of a block. -/
def opsMap (ops : List (Value × List (Value × Value))) : Value :=
  .map (ops.map fun op => (op.1, .map op.2))

theorem opsIn_of_lookup {ops : List (Value × List (Value × Value))}
    (h : lookup block "ops" = some (opsMap ops)) : opsIn block = ops := by
  have hpart : part block "ops" = ops.map fun op => (op.1, .map op.2) := by
    rw [part, h]
    rfl
  rw [opsIn, hpart, List.map_map]
  exact List.map_id ops

theorem isBlock_of_lookup {ops : List (Value × List (Value × Value))}
    {params : List (Value × Value)} (hops : lookup block "ops" = some (opsMap ops))
    (hparams : lookup block "params" = some (.map params))
    (htimeout : ∀ op ∈ ops, IsTimeout (timeoutOf op.2)) : IsBlock block where
  ops value hv := by
    obtain rfl : opsMap ops = value := Option.some.inj (hops.symm.trans hv)
    rfl
  op entry he := by
    rw [part, hops] at he
    obtain ⟨op, _, rfl⟩ := List.mem_map.mp he
    rfl
  timeout op ho := htimeout op (opsIn_of_lookup hops ▸ ho)
  params value hv := by
    obtain rfl : .map params = value := Option.some.inj (hparams.symm.trans hv)
    rfl

/-- The timeout in effect: that of an operation unless it is null, else that of the
parameters. -/
def inEffect (params op : List (Value × Value)) : Option Value :=
  if timeoutOf op = .null then lookup params "timeout" else some (timeoutOf op)

/-- The same value, or numbers of the same exact value. -/
def SameTimeout (x y : Option Value) : Prop :=
  x = y ∨ ∃ e, x.bind quantity? = some e ∧ y.bind quantity? = some e

/-- There are operations, and all of them have timeouts of one exact value. -/
def Shares (block : List (Value × Value)) : Prop :=
  opsIn block ≠ [] ∧ ∃ e, ∀ op, op ∈ opsIn block → (timeoutOf op.2).quantity? = some e

/-! ## Running -/

theorem isKey_of_isTimeout {v : Value} (h : IsTimeout v) : v.isKey = true := by
  rcases h with rfl | h
  · rfl
  · cases v with
    | list => cases h
    | map => cases h
    | _ => rfl

theorem opsOf_eq {entries : List (Value × Value)}
    (hop : ∀ entry, entry ∈ entries → entry.2 = .map (entriesOf entry.2))
    (htimeout : ∀ entry, entry ∈ entries → IsTimeout (timeoutOf (entriesOf entry.2))) :
    opsOf entries = .ok (entries.map fun entry => (entry.1, entriesOf entry.2)) := by
  induction entries with
  | nil => rfl
  | cons entry rest ih =>
      obtain ⟨name, value⟩ := entry
      have hrest := ih (fun e he => hop e (List.mem_cons_of_mem _ he))
        fun e he => htimeout e (List.mem_cons_of_mem _ he)
      obtain ⟨op, rfl⟩ : ∃ op, value = .map op := ⟨_, hop (name, value) (by simp)⟩
      have hkey : (timeoutOf op).isKey = true :=
        isKey_of_isTimeout (htimeout (name, .map op) (by simp))
      rw [opsOf, if_pos hkey, hrest]
      rfl

theorem paramsOf_eq (h : IsBlock block) : paramsOf block = .ok (part block "params") := by
  unfold paramsOf part
  cases hp : lookup block "params" with
  | none => rfl
  | some value =>
      obtain ⟨params, rfl⟩ : ∃ params, value = .map params := ⟨_, h.params value hp⟩
      rfl

/-- The block with a timeout taken out of its operations. -/
def hoisted (block : List (Value × Value)) (timeout : Value) : List (Value × Value) :=
  putKey (putKey block (.text "params")
      (.map (putKey (part block "params") (.text "timeout") timeout)))
    (.text "ops") (opsMap ((opsIn block).map fun op => (op.1, withoutTimeout op.2)))

theorem hoist_eq (h : IsBlock block) (timeout : Value) :
    hoist block (opsIn block) timeout = .ok (.map (hoisted block timeout)) := by
  rw [hoist, paramsOf_eq h, hoisted, opsMap, List.map_map]
  rfl

theorem simplifyTimeouts_eq (h : IsBlock block) :
    simplifyTimeouts block =
      match common? sameKey ((opsIn block).map fun op => timeoutOf op.2) with
      | none | some .null => .ok (.map block)
      | some timeout => hoist block (opsIn block) timeout := by
  unfold simplifyTimeouts
  cases hops : lookup block "ops" with
  | none =>
      have hnone : opsIn block = [] := by simp [opsIn, part, hops]
      rw [hnone]
      rfl
  | some value =>
      obtain ⟨entries, rfl⟩ : ∃ entries, value = .map entries := ⟨_, h.ops value hops⟩
      have hpart : part block "ops" = entries := by simp [part, hops, entriesOf]
      have hop := hpart ▸ h.op
      have htimeout := h.timeout
      rw [opsIn, hpart, List.forall_mem_map] at htimeout
      simp only [opsOf_eq hop htimeout, opsIn, hpart]
      rfl

theorem simplifyTimeouts_of_common {timeout : Value} (h : IsBlock block)
    (hc : common? sameKey ((opsIn block).map fun op => timeoutOf op.2) = some timeout)
    (ht : timeout ≠ .null) : simplifyTimeouts block = .ok (.map (hoisted block timeout)) := by
  rw [simplifyTimeouts_eq h, hc]
  split
  next hn => cases hn
  next hn => exact absurd (Option.some.inj hn) ht
  next hs =>
    rw [hoist_eq h]
    cases hs
    rfl

theorem simplifyTimeouts_of_no_common (h : IsBlock block)
    (hc : ∀ timeout, common? sameKey ((opsIn block).map fun op => timeoutOf op.2) =
      some timeout → timeout = .null) : simplifyTimeouts block = .ok (.map block) := by
  rw [simplifyTimeouts_eq h]
  split
  next => rfl
  next => rfl
  next timeout hnull hs => exact absurd (hc timeout hs) hnull

/-- A block that shares a timeout is hoisted, with one of that value. -/
theorem simplifyTimeouts_of_shares (h : IsBlock block) (hs : Shares block) :
    ∃ timeout e, simplifyTimeouts block = .ok (.map (hoisted block timeout)) ∧
      timeout.quantity? = some e ∧
      ∀ op, op ∈ opsIn block → (timeoutOf op.2).quantity? = some e := by
  obtain ⟨hne, e, he⟩ := hs
  obtain ⟨first, rest, hops⟩ := List.exists_cons_of_ne_nil hne
  have hfirst : (timeoutOf first.2).quantity? = some e := he first (by simp [hops])
  have hall : (rest.map fun op => timeoutOf op.2).all (sameKey (timeoutOf first.2)) = true := by
    rw [List.all_eq_true, List.forall_mem_map]
    intro op hm
    exact (sameKey_iff_quantity? hfirst).mpr (he op (by simp [hops, hm]))
  have hcommon : common? sameKey ((opsIn block).map fun op => timeoutOf op.2) =
      some (timeoutOf first.2) := by
    rw [hops, List.map_cons, common?, if_pos hall]
  refine ⟨_, e, simplifyTimeouts_of_common h hcommon ?_, hfirst, he⟩
  intro hnull
  rw [hnull] at hfirst
  cases hfirst

/-- Every other block stays as it is. -/
theorem simplifyTimeouts_of_not_shares (h : IsBlock block) (hs : ¬Shares block) :
    simplifyTimeouts block = .ok (.map block) := by
  refine simplifyTimeouts_of_no_common h fun timeout hc => ?_
  by_contra hnull
  obtain ⟨op, ho, rfl⟩ := List.mem_map.mp (mem_of_common? hc)
  obtain ⟨e, he⟩ := Option.isSome_iff_exists.mp ((h.timeout op ho).resolve_left hnull)
  refine hs ⟨List.ne_nil_of_mem ho, e, fun other hm => ?_⟩
  rcases common?_eq_some hc _ (List.mem_map_of_mem hm) with heq | hsame
  · rw [heq, he]
  · exact (sameKey_iff_quantity? he).mp hsame

/-! ## Hoisted blocks -/

theorem lookup_withoutTimeout (op : List (Value × Value)) :
    lookup (withoutTimeout op) "timeout" = none :=
  lookup_eq_none_iff.mpr fun entry he => by simpa using (List.mem_filter.mp he).2

theorem timeoutOf_withoutTimeout (op : List (Value × Value)) :
    timeoutOf (withoutTimeout op) = .null := by
  rw [timeoutOf, lookup_withoutTimeout]
  rfl

theorem withoutTimeout_withoutTimeout (op : List (Value × Value)) :
    withoutTimeout (withoutTimeout op) = withoutTimeout op := by
  simp [withoutTimeout]

theorem lookup_ops_hoisted (block : List (Value × Value)) (timeout : Value) :
    lookup (hoisted block timeout) "ops" =
      some (opsMap ((opsIn block).map fun op => (op.1, withoutTimeout op.2))) :=
  lookup_putKey_self _ _ _

theorem lookup_params_hoisted (block : List (Value × Value)) (timeout : Value) :
    lookup (hoisted block timeout) "params" =
      some (.map (putKey (part block "params") (.text "timeout") timeout)) := by
  rw [hoisted, lookup_putKey_of_ne (by decide), lookup_putKey_self]

theorem opsIn_hoisted (block : List (Value × Value)) (timeout : Value) :
    opsIn (hoisted block timeout) = (opsIn block).map fun op => (op.1, withoutTimeout op.2) :=
  opsIn_of_lookup (lookup_ops_hoisted block timeout)

theorem part_params_hoisted (block : List (Value × Value)) (timeout : Value) :
    part (hoisted block timeout) "params" =
      putKey (part block "params") (.text "timeout") timeout := by
  rw [part, lookup_params_hoisted]
  rfl

theorem isBlock_hoisted (block : List (Value × Value)) (timeout : Value) :
    IsBlock (hoisted block timeout) := by
  refine isBlock_of_lookup (lookup_ops_hoisted block timeout)
    (lookup_params_hoisted block timeout) (List.forall_mem_map.mpr fun op _ => ?_)
  exact Or.inl (timeoutOf_withoutTimeout op.2)

/-- No timeout is left that a hoisted block could share. -/
theorem not_shares_hoisted (block : List (Value × Value)) (timeout : Value) :
    ¬Shares (hoisted block timeout) := by
  rintro ⟨hne, e, he⟩
  obtain ⟨op, ho⟩ := List.exists_mem_of_ne_nil _ hne
  have hnumber := he op ho
  rw [opsIn_hoisted] at ho
  obtain ⟨before, _, rfl⟩ := List.mem_map.mp ho
  rw [timeoutOf_withoutTimeout] at hnumber
  cases hnumber

/-- A key of a block besides that of its operations and that of its parameters. -/
def isOther (key : Value) : Bool := key != .text "ops" && key != .text "params"

theorem filter_hoisted (block : List (Value × Value)) (timeout : Value) :
    (hoisted block timeout).filter (isOther ·.1) = block.filter (isOther ·.1) :=
  (filter_putKey isOther (by decide) _ _).trans (filter_putKey isOther (by decide) _ _)

/-! ## What a block means -/

/-- What becomes of an operation: it keeps its name, its other fields and the timeout in
effect. -/
structure Kept (block after : List (Value × Value))
    (old new : Value × List (Value × Value)) : Prop where
  name : new.1 = old.1
  fields : withoutTimeout new.2 = withoutTimeout old.2
  timeout : SameTimeout (inEffect (part after "params") new.2)
    (inEffect (part block "params") old.2)

/-- What becomes of a block. -/
structure Simplified (block after : List (Value × Value)) : Prop where
  wellFormed : IsBlock after
  ops : List.Forall₂ (Kept block after) (opsIn block) (opsIn after)
  params : withoutTimeout (part after "params") = withoutTimeout (part block "params")
  rest : after.filter (isOther ·.1) = block.filter (isOther ·.1)
  shared : Shares block → (lookup (part after "params") "timeout").isSome = true ∧
    ∀ op ∈ opsIn after, lookup op.2 "timeout" = none
  unshared : ¬Shares block → after = block

theorem simplified_hoisted {timeout : Value} {e : Quantity} (hs : Shares block)
    (ht : timeout.quantity? = some e)
    (he : ∀ op, op ∈ opsIn block → (timeoutOf op.2).quantity? = some e) :
    Simplified block (hoisted block timeout) where
  wellFormed := isBlock_hoisted block timeout
  ops := by
    rw [opsIn_hoisted, List.forall₂_map_right_iff, List.forall₂_same]
    intro op ho
    refine ⟨rfl, withoutTimeout_withoutTimeout op.2, Or.inr ⟨e, ?_, ?_⟩⟩
    · rw [inEffect, if_pos (timeoutOf_withoutTimeout op.2), part_params_hoisted,
        lookup_putKey_self, Option.bind_some, ht]
    · have hown : timeoutOf op.2 ≠ .null := by
        intro hnull
        have hnumber := he op ho
        rw [hnull] at hnumber
        cases hnumber
      rw [inEffect, if_neg hown, Option.bind_some, he op ho]
  params := by
    rw [part_params_hoisted]
    exact filter_putKey (· != .text "timeout") (by decide) _ _
  rest := filter_hoisted block timeout
  shared _ := by
    rw [part_params_hoisted, lookup_putKey_self, opsIn_hoisted, List.forall_mem_map]
    exact ⟨rfl, fun op _ => lookup_withoutTimeout op.2⟩
  unshared hn := absurd hs hn

theorem simplified_self (h : IsBlock block) (hs : ¬Shares block) : Simplified block block where
  wellFormed := h
  ops := List.forall₂_same.mpr fun _ _ => ⟨rfl, rfl, Or.inl rfl⟩
  params := rfl
  rest := rfl
  shared hn := absurd hn hs
  unshared _ := rfl

/-! ## Planned blocks -/

/-- The timeout of an operation as a value, null if it has none. -/
def timeoutValue (op : Op) : Value := op.timeout.elim .null .float

theorem timeoutOf_toValue (op : Op) :
    timeoutOf (entriesOf op.toValue) = timeoutValue op := by
  obtain ⟨form, statement, kind, timeout, ratio⟩ := op
  cases form <;> cases timeout <;> cases ratio <;> rfl

theorem withoutTimeout_toValue (op : Op) :
    Value.map (withoutTimeout (entriesOf op.toValue)) = op.withoutTimeout.toValue := by
  obtain ⟨form, statement, kind, timeout, ratio⟩ := op
  cases form <;> cases timeout <;> cases ratio <;> rfl

/-- Timeouts that are numbers are shared by operations as they are by values. -/
theorem sameKey_timeoutValue {a : Op} (ha : ∀ x ∈ a.timeout, x.isNaN = false) (b : Op) :
    (timeoutValue a).sameKey (timeoutValue b) = a.sameTimeout b := by
  unfold timeoutValue Op.sameTimeout
  cases hx : a.timeout with
  | none =>
      have hnull (v : Value) : Value.null.sameKey v = true ↔ Value.null = v :=
        sameKey_iff_eq (Or.inl rfl) (Or.inl rfl)
      cases b.timeout with
      | none => exact (hnull _).mpr rfl
      | some y =>
          refine Bool.eq_false_iff.mpr (mt (hnull _).mp ?_)
          exact Value.noConfusion
  | some x =>
      have hnumber := ha x hx
      obtain ⟨e, he⟩ : ∃ e, (Value.float x).quantity? = some e :=
        Option.isSome_iff_exists.mp (Double.isSome_quantity?_iff.mpr hnumber)
      cases b.timeout with
      | none =>
          have hnull : Value.null.quantity? ≠ some e := Option.some_ne_none e |>.symm
          exact Bool.eq_false_iff.mpr (mt (sameKey_iff_quantity? he).mp hnull)
      | some y =>
          have hsame : (Value.float x).sameKey (.float y) = x.same y := by
            rw [Bool.eq_iff_iff, sameKey_iff_quantity? he, Double.same_iff_quantity? hnumber,
              show x.quantity? = some e from he]
            exact eq_comm
          show (Value.float x).sameKey (.float y) = (x.same y || _)
          rw [hnumber, Bool.false_and, Bool.false_and, Bool.or_false, hsame]

/-- The entries of a block as it is planned, before a shared timeout is taken out. -/
def planned (ops : Entries Op) : List (Value × Value) :=
  [(.text "params", .map []), (.text "ops", Block.opsValue ops)]

theorem lookup_params_planned (ops : Entries Op) :
    lookup (planned ops) "params" = some (.map []) := by
  simp [planned, lookup]

theorem lookup_ops_planned (ops : Entries Op) :
    lookup (planned ops) "ops" =
      some (opsMap (ops.map fun entry => (.text entry.1, entriesOf entry.2.toValue))) := by
  have hops : Block.opsValue ops =
      opsMap (ops.map fun entry => (.text entry.1, entriesOf entry.2.toValue)) := by
    rw [Block.opsValue, Value.ofEntries, opsMap, List.map_map, List.map_map]
    rfl
  rw [← hops]
  simp [planned, lookup]

theorem opsIn_planned (ops : Entries Op) :
    opsIn (planned ops) = ops.map fun entry => (.text entry.1, entriesOf entry.2.toValue) :=
  opsIn_of_lookup (lookup_ops_planned ops)

theorem isBlock_planned {ops : Entries Op}
    (h : ∀ entry ∈ ops, ∀ x ∈ entry.2.timeout, x.isNaN = false) : IsBlock (planned ops) := by
  refine isBlock_of_lookup (lookup_ops_planned ops) (lookup_params_planned ops)
    (List.forall_mem_map.mpr fun entry hm => ?_)
  rw [timeoutOf_toValue, timeoutValue]
  cases hx : entry.2.timeout with
  | none => exact Or.inl rfl
  | some x => exact Or.inr (Double.isSome_quantity?_iff.mpr (h entry hm x hx))

theorem hoisted_planned (ops : Entries Op) (x : Double) :
    hoisted (planned ops) (.float x) =
      [(.text "params", .map [(.text "timeout", .float x)]),
        (.text "ops", Block.opsValue (ops.map fun entry =>
          (entry.1, entry.2.withoutTimeout)))] := by
  have hparams : part (planned ops) "params" = [] := by rw [part, lookup_params_planned]; rfl
  have hops : opsMap ((opsIn (planned ops)).map fun op => (op.1, withoutTimeout op.2)) =
      Block.opsValue (ops.map fun entry => (entry.1, entry.2.withoutTimeout)) := by
    rw [opsIn_planned, opsMap, Block.opsValue, Value.ofEntries, List.map_map, List.map_map,
      List.map_map, List.map_map]
    refine congrArg Value.map (List.map_congr_left fun entry _ => ?_)
    exact congrArg (Prod.mk (Value.text entry.1)) (withoutTimeout_toValue entry.2)
  rw [hoisted, hparams, hops, planned]
  simp [putKey, sameKey_text_iff]

/-- **Planned blocks.** A planned block is simplified as any other block is. -/
theorem simplifyTimeouts_planned {ops : Entries Op}
    (h : ∀ entry ∈ ops, ∀ x ∈ entry.2.timeout, x.isNaN = false) :
    simplifyTimeouts (planned ops) = .ok (Block.ofOps ops).toValue := by
  have hblock := isBlock_planned h
  have hcommon : common? sameKey ((opsIn (planned ops)).map fun op => timeoutOf op.2) =
      (common? Op.sameTimeout (ops.map (·.2))).map timeoutValue := by
    have htimeouts : ((opsIn (planned ops)).map fun op => timeoutOf op.2) =
        (ops.map (·.2)).map timeoutValue := by
      rw [opsIn_planned, List.map_map, List.map_map]
      exact List.map_congr_left fun entry _ => timeoutOf_toValue entry.2
    rw [htimeouts]
    refine common?_map fun a ha b => sameKey_timeoutValue ?_ b
    obtain ⟨entry, hm, rfl⟩ := List.mem_map.mp ha
    exact h entry hm
  unfold Block.ofOps
  cases hc : common? Op.sameTimeout (ops.map (·.2)) with
  | none =>
      refine simplifyTimeouts_of_no_common hblock fun timeout ht => ?_
      rw [hcommon, hc] at ht
      cases ht
  | some op =>
      rw [hc, Option.map_some] at hcommon
      rw [Option.bind_some]
      cases hx : op.timeout with
      | none =>
          refine simplifyTimeouts_of_no_common hblock fun timeout ht => ?_
          rw [hcommon, timeoutValue, hx] at ht
          exact (Option.some.inj ht).symm
      | some x =>
          rw [timeoutValue, hx] at hcommon
          rw [simplifyTimeouts_of_common hblock hcommon nofun]
          exact congrArg (Except.ok ∘ Value.map) (hoisted_planned ops x)

/-- **Simplifying a block** changes nothing that it means: every operation keeps its place,
its fields and the timeout in effect, and a second time nothing is left to do. -/
theorem simplifyTimeouts_keeps (h : IsBlock block) :
    ∃ after, simplifyTimeouts block = .ok (.map after) ∧ Simplified block after ∧
      simplifyTimeouts after = .ok (.map after) := by
  by_cases hs : Shares block
  · obtain ⟨timeout, e, hrun, ht, he⟩ := simplifyTimeouts_of_shares h hs
    exact ⟨_, hrun, simplified_hoisted hs ht he, simplifyTimeouts_of_not_shares
      (isBlock_hoisted block timeout) (not_shares_hoisted block timeout)⟩
  · have hrun := simplifyTimeouts_of_not_shares h hs
    exact ⟨block, hrun, simplified_self h hs, hrun⟩

instance (v : Value) : Decidable (IsTimeout v) :=
  inferInstanceAs (Decidable (v = .null ∨ v.quantity?.isSome = true))

instance (block : List (Value × Value)) : Decidable (IsBlock block) :=
  decidable_of_iff ((∀ value ∈ lookup block "ops", value = .map (entriesOf value)) ∧
      (∀ entry ∈ part block "ops", entry.2 = .map (entriesOf entry.2)) ∧
      (∀ op ∈ opsIn block, IsTimeout (timeoutOf op.2)) ∧
      ∀ value ∈ lookup block "params", value = .map (entriesOf value))
    ⟨fun h => ⟨h.1, h.2.1, h.2.2.1, h.2.2.2⟩, fun h => ⟨h.ops, h.op, h.timeout, h.params⟩⟩

/-- A block with one timeout as a whole number, as a double and as the truth value that is
equal to it, and with another one among its parameters. -/
def mixedKinds : List (Value × Value) :=
  [(.text "ops", .map [
      (.text "first", .map [(.text "timeout", .int 1), (.text "ratio", .int 3)]),
      (.text "second", .map [(.text "simple", .text "x"), (.text "timeout", .float (.ofInt 1))]),
      (.int 3, .map [(.text "timeout", .bool true)])]),
    (.text "note", .null),
    (.text "params", .map [(.text "timeout", .int 60), (.text "tag", .text "main")])]

theorem simplifyTimeouts_keeps_mixedKinds :
    IsBlock mixedKinds ∧
      simplifyTimeouts mixedKinds = .ok (.map (hoisted mixedKinds (.int 1))) ∧
      Simplified mixedKinds (hoisted mixedKinds (.int 1)) := by
  have hblock : IsBlock mixedKinds := by decide +kernel
  obtain ⟨after, hafter, hsimplified, _⟩ := simplifyTimeouts_keeps hblock
  have hrun : simplifyTimeouts mixedKinds = .ok (.map (hoisted mixedKinds (.int 1))) :=
    simplifyTimeouts_of_common hblock (by decide +kernel) nofun
  obtain rfl : hoisted mixedKinds (.int 1) = after :=
    Value.map.inj (Except.ok.inj (hrun.symm.trans hafter))
  exact ⟨hblock, hrun, hsimplified⟩

end CqlWorkload.Simplify
