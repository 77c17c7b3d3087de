import CqlWorkload.Proofs.Yaml.Quoted
import CqlWorkload.Yaml.Token

/-!
# Steps of the scanner

A state leads to another one when reading on from the first is reading on from the
second, with at most one unit of fuel for every character between them.  So what is
shown of the parts of a text holds of the whole.

**Settled states.** Between two tokens the scanner passes over blanks, gives up
candidates and closes blocks.  A state is settled when nothing of this is left to do.
-/

namespace CqlWorkload.Yaml

open Lexeme

/-- Is the character passed over in front of a token? -/
def isSkipped (c : Char) : Bool := isLayout c || c == '#' || c == byteOrderMark

theorem Stops.isLayout {cs : List Char} (h : Stops isSkipped cs) : Stops isLayout cs :=
  fun c hc => by
    have hskip := h c hc
    simp only [isSkipped, Bool.or_eq_false_iff] at hskip
    exact hskip.1.1

theorem Stops.isComment {cs : List Char} (h : Stops isSkipped cs) : Stops (· == '#') cs :=
  fun c hc => by
    have hskip := h c hc
    simp only [isSkipped, Bool.or_eq_false_iff] at hskip
    exact hskip.1.2

theorem Stops.isMark {cs : List Char} (h : Stops isSkipped cs) : Stops (· == byteOrderMark) cs :=
  fun c hc => by
    have hskip := h c hc
    simp only [isSkipped, Bool.or_eq_false_iff] at hskip
    exact hskip.2

namespace Scan

/-- Does reading on from one state come to reading on from another? -/
def Leads (s t : Scan) : Prop :=
  ∃ n, n + s.cursor.index ≤ t.cursor.index ∧ ∀ fuel, readAll (fuel + n) s = readAll fuel t

theorem Leads.trans {s t u : Scan} (hst : Leads s t) (htu : Leads t u) : Leads s u := by
  obtain ⟨m, hm, hs⟩ := hst
  obtain ⟨n, hn, ht⟩ := htu
  refine ⟨n + m, by omega, fun fuel => ?_⟩
  rw [← Nat.add_assoc, hs, ht]

/-- Does reading on from a state refuse the text? -/
def Fails (s : Scan) : Prop := ∃ n, ∀ fuel, readAll (fuel + n) s = .error .malformed

theorem Leads.fails {s t : Scan} (hst : Leads s t) (ht : Fails t) : Fails s := by
  obtain ⟨m, -, hs⟩ := hst
  obtain ⟨n, hn⟩ := ht
  exact ⟨n + m, fun fuel => by rw [← Nat.add_assoc, hs, hn]⟩

/-- Does reading come to a state if a condition holds, and refuse the text if not? -/
def Comes (condition : Bool) (s t : Scan) : Prop := if condition then Leads s t else Fails s

theorem Leads.comes {s t u : Scan} {condition : Bool} (hst : Leads s t)
    (htu : Comes condition t u) : Comes condition s u := by
  cases condition with
  | true => exact hst.trans htu
  | false => exact hst.fails htu

theorem Comes.trans {s t u : Scan} {a b : Bool} (hst : Comes a s t) (htu : Comes b t u) :
    Comes (a && b) s u := by
  cases a with
  | true => exact Leads.comes hst htu
  | false => exact hst

theorem Comes.leads {s t u : Scan} {condition : Bool} (hst : Comes condition s t)
    (htu : Leads t u) : Comes condition s u := by
  cases condition with
  | true => exact Leads.trans hst htu
  | false => exact hst

/-- What is done between two tokens. -/
def settle (s : Scan) : Except Fault Scan := do
  let s ← s.approach.dropStale
  return s.unwind

theorem readAll_succ (fuel : Nat) (s : Scan) : readAll (fuel + 1) s =
    s.settle.bind fun s =>
      match s.cursor.rest with
      | [] => s.unwindAll.dropCandidate
      | ch :: rest => (s.token ch rest).bind (readAll fuel) := by
  rw [readAll, settle]
  cases s.approach.dropStale <;> rfl

/-- States that settle alike are read on alike. -/
theorem Leads.of_settle {s t : Scan} (hindex : s.cursor.index ≤ t.cursor.index)
    (h : s.settle = t.settle) : Leads s t := by
  refine ⟨0, by omega, fun fuel => ?_⟩
  cases fuel with
  | zero => rfl
  | succ fuel => rw [Nat.add_zero, readAll_succ, readAll_succ, h]

/-- One token. -/
theorem Leads.of_token {s t u : Scan} {ch : Char} {rest : List Char}
    (hindex : s.cursor.index < u.cursor.index) (hsettle : s.settle = .ok t)
    (hrest : t.cursor.rest = ch :: rest) (htoken : t.token ch rest = .ok u) : Leads s u := by
  refine ⟨1, by omega, fun fuel => ?_⟩
  rw [readAll_succ, hsettle]
  simp only [Except.bind, hrest, htoken]

theorem Fails.of_settle {s : Scan} (hsettle : s.settle = .error .malformed) : Fails s :=
  ⟨1, fun fuel => by rw [readAll_succ, hsettle]; rfl⟩

theorem Fails.of_token {s t : Scan} {ch : Char} {rest : List Char} (hsettle : s.settle = .ok t)
    (hrest : t.cursor.rest = ch :: rest) (htoken : t.token ch rest = .error .malformed) :
    Fails s := by
  refine ⟨1, fun fuel => ?_⟩
  rw [readAll_succ, hsettle]
  simp only [Except.bind, hrest, htoken]

/-- More fuel does not change what is read. -/
theorem readAll_add {fuel : Nat} {s t : Scan} (h : readAll fuel s = .ok t) (n : Nat) :
    readAll (fuel + n) s = .ok t := by
  induction fuel generalizing s with
  | zero => contradiction
  | succ fuel ih =>
      rw [Nat.add_right_comm, readAll_succ]
      rw [readAll_succ] at h
      cases hsettle : s.settle with
      | error fault => rw [hsettle] at h; contradiction
      | ok u =>
          rw [hsettle] at h
          simp only [Except.bind] at h ⊢
          cases hrest : u.cursor.rest with
          | nil => rw [hrest] at h; exact h
          | cons ch rest =>
              rw [hrest] at h
              simp only at h ⊢
              cases htoken : u.token ch rest with
              | error fault => rw [htoken] at h; contradiction
              | ok v =>
                  rw [htoken] at h
                  exact ih h

theorem Fails.not_ok {s t : Scan} (h : Fails s) (fuel : Nat) : readAll fuel s ≠ .ok t := by
  intro hok
  obtain ⟨n, hn⟩ := h
  have hmore := readAll_add hok n
  rw [hn] at hmore
  contradiction

/-! ## Between two tokens -/

/-- A state without candidates, outside of brackets. -/
def between (c : Cursor) (tokens : List Token) (columns : List Nat) (allowed : Bool) : Scan :=
  ⟨c, tokens, columns, [none], allowed⟩

section Approach

variable {s : Scan} {n : Nat} {rest : List Char}

theorem toNext_blanks (fuel : Nat) (h : s.cursor.rest = blanks n ++ rest)
    (hrest : Stops isSkipped rest) :
    toNext (fuel + 1) s = { s with cursor := s.cursor.past (blanks n) } := by
  have hbehind : (s.cursor.past (blanks n)).rest = rest := Cursor.rest_past h
  have hsees : (s.cursor.past (blanks n)).sees '#' = false :=
    Cursor.sees_eq_false (by rw [hbehind]; exact hrest.isComment)
  have hnone : (s.cursor.past (blanks n)).takeBreak? = none :=
    Cursor.takeBreak?_eq_none (by rw [hbehind]; exact hrest.isLayout.isBreak)
  simp only [toNext, Cursor.skipBlanks_eq h hrest.isLayout.isBlank, Cursor.skipComment, hsees,
    Bool.false_eq_true, if_false, hnone]

theorem toNext_newLine (fuel : Nat) (h : s.cursor.rest = newLine n ++ rest)
    (hrest : Stops isSkipped rest) :
    toNext (fuel + 2) s =
      { s with
        cursor := s.cursor.past (newLine n)
        keyAllowed := s.keyAllowed || !s.inFlow } := by
  have h : s.cursor.rest = '\n' :: (blanks n ++ rest) := h
  have hskip : s.cursor.skipBlanks = s.cursor :=
    Cursor.skipWhile_of_stops (by rw [h]; exact Stops.cons (by decide))
  have hsees : s.cursor.sees '#' = false :=
    Cursor.sees_eq_false (by rw [h]; exact Stops.cons (by decide))
  rw [toNext]
  simp only [hskip, Cursor.skipComment, hsees, Bool.false_eq_true, if_false,
    Cursor.takeBreak?_cons h (by decide)]
  rw [toNext_blanks fuel (Cursor.rest_past (a := ['\n']) h) hrest, ← Cursor.past_append]
  rfl

theorem approach_eq (h : Stops (· == byteOrderMark) s.cursor.rest) :
    s.approach = toNext (s.cursor.rest.length + 1) s := by
  simp only [approach, Cursor.sees_eq_false h, Bool.and_false, Bool.false_eq_true, if_false]

theorem approach_blanks (h : s.cursor.rest = blanks n ++ rest) (hrest : Stops isSkipped rest) :
    s.approach = { s with cursor := s.cursor.past (blanks n) } := by
  rw [approach_eq, toNext_blanks _ h hrest]
  rw [h]
  exact Stops.append (fun c hc => by rw [mem_blanks (List.mem_of_mem_head? hc)]; decide)
    hrest.isMark

theorem approach_word (hrest : Stops isSkipped s.cursor.rest) : s.approach = s :=
  approach_blanks (n := 0) rfl hrest

theorem approach_newLine (h : s.cursor.rest = newLine n ++ rest)
    (hrest : Stops isSkipped rest) :
    s.approach =
      { s with
        cursor := s.cursor.past (newLine n)
        keyAllowed := s.keyAllowed || !s.inFlow } := by
  have hlength : s.cursor.rest.length + 1 = (blanks n ++ rest).length + 2 := by
    rw [h]
    rfl
  rw [approach_eq, hlength, toNext_newLine _ h hrest]
  rw [h]
  exact Stops.cons (by decide)

end Approach

theorem dropStale_between (c : Cursor) (tokens : List Token) (columns : List Nat)
    (allowed : Bool) : (between c tokens columns allowed).dropStale =
      .ok (between c tokens columns allowed) := rfl

/-- A candidate of another line is given up, unless nothing but a key may stand there. -/
theorem dropStale_stale {c : Cursor} {k : Option Candidate}
    (hk : ∀ k' ∈ k, k'.line < c.line ∧ k'.required = false) (tokens : List Token)
    (columns : List Nat) (allowed : Bool) :
    dropStale ⟨c, tokens, columns, [k], allowed⟩ = .ok (between c tokens columns allowed) := by
  cases k with
  | none => rfl
  | some k =>
      obtain ⟨hline, hrequired⟩ := hk k rfl
      have hstale : isStale c k = true := by simp [isStale, Nat.ne_of_lt hline]
      simp only [dropStale, freshCandidates, bind, Except.bind, pure, Except.pure, hstale,
        hrequired]
      rfl

theorem dropStale_fresh {c : Cursor} {k : Candidate} (hline : k.line = c.line)
    (hindex : c.index ≤ k.index + keyReach) (tokens : List Token) (columns : List Nat)
    (allowed : Bool) : dropStale ⟨c, tokens, columns, [some k], allowed⟩ =
      .ok ⟨c, tokens, columns, [some k], allowed⟩ := by
  have hreach : ¬ k.index + keyReach < c.index := by omega
  have hfresh : isStale c k = false := by simp [isStale, hline, hreach]
  simp only [dropStale, freshCandidates, bind, Except.bind, pure, Except.pure, hfresh]
  rfl

/-- A candidate too far away is given up, or refused if nothing but a key may stand there. -/
theorem dropStale_far {c : Cursor} {k : Candidate} (hindex : k.index + keyReach < c.index)
    (tokens : List Token) (columns : List Nat) (allowed : Bool) :
    dropStale ⟨c, tokens, columns, [some k], allowed⟩ =
      if k.required then .error .malformed else .ok (between c tokens columns allowed) := by
  have hstale : isStale c k = true := by simp [isStale, hindex]
  simp only [dropStale, freshCandidates, bind, Except.bind, pure, Except.pure, hstale]
  cases k.required <;> rfl

theorem unwind_of_le {s : Scan} (hflow : s.inFlow = false)
    (h : ∀ top ∈ s.columns.head?, top ≤ s.cursor.column) : s.unwind = s := by
  rw [unwind, hflow]
  cases hcolumns : s.columns with
  | nil => simp [closeBlocks, ← hcolumns]
  | cons top columns =>
      have htop : ¬ s.cursor.column < top := by simpa [hcolumns] using h
      simp [closeBlocks, htop, ← hcolumns]

/-! ## Settling -/

theorem Leads.of_approach {s t u : Scan} (hindex : s.cursor.index ≤ t.cursor.index)
    (hs : s.approach.dropStale = .ok u) (ht : t.approach.dropStale = .ok u) : Leads s t :=
  .of_settle hindex (by rw [settle, settle, hs, ht])

section Layout

variable {c : Cursor} {tokens : List Token} {columns : List Nat} {allowed : Bool} {n : Nat}
  {rest : List Char}

theorem approach_between (hrest : Stops isSkipped c.rest) :
    (between c tokens columns allowed).approach = between c tokens columns allowed :=
  approach_word hrest

/-- Blanks in front of a token are passed over. -/
theorem leads_blanks (h : c.rest = blanks n ++ rest) (hrest : Stops isSkipped rest) :
    Leads (between c tokens columns allowed)
      (between (c.past (blanks n)) tokens columns allowed) := by
  have hbehind : (c.past (blanks n)).rest = rest := Cursor.rest_past h
  refine .of_approach (u := between (c.past (blanks n)) tokens columns allowed) ?_ ?_ ?_
  · exact Cursor.index_le_past h
  · rw [approach_blanks h hrest]
    rfl
  · rw [approach_between (by rw [hbehind]; exact hrest)]
    rfl

/-- A candidate that was no key is given up on a later line. -/
theorem leads_later_line {k : Option Candidate} (hrest : Stops isSkipped c.rest)
    (hk : ∀ k' ∈ k, k'.line < c.line ∧ k'.required = false) :
    Leads ⟨c, tokens, columns, [k], allowed⟩ (between c tokens columns allowed) := by
  refine .of_approach (u := between c tokens columns allowed) (Nat.le_refl _) ?_ ?_
  · rw [approach_word hrest]
    exact dropStale_stale hk tokens columns allowed
  · rw [approach_between hrest]
    rfl

/-- The end of a line is passed over; a key may begin behind it. -/
theorem leads_newLine {k : Option Candidate} (h : c.rest = newLine n ++ rest)
    (hrest : Stops isSkipped rest) (hk : ∀ k' ∈ k, k'.line ≤ c.line ∧ k'.required = false) :
    Leads ⟨c, tokens, columns, [k], allowed⟩
      (between (c.past (newLine n)) tokens columns true) := by
  have hbehind : (c.past (newLine n)).rest = rest := Cursor.rest_past h
  have hline : c.line < (c.past (newLine n)).line :=
    (Cursor.past_break_blanks h (by decide)).2
  have hlater : ∀ k' ∈ k, k'.line < (c.past (newLine n)).line ∧ k'.required = false :=
    fun k' hk' => ⟨Nat.lt_of_le_of_lt (hk k' hk').1 hline, (hk k' hk').2⟩
  refine .of_approach (u := between (c.past (newLine n)) tokens columns true)
    (Cursor.index_le_past h) ?_ ?_
  · rw [approach_newLine h hrest]
    simpa [inFlow] using dropStale_stale hlater tokens columns true
  · rw [approach_between (by rw [hbehind]; exact hrest)]
    rfl

/-- A block ends in front of a line that is less deep. -/
theorem leads_blockEnd {top : Nat} (hrest : Stops isSkipped c.rest) (htop : c.column < top)
    (tokens : List Token) (columns : List Nat) (allowed : Bool) :
    Leads (between c tokens (top :: columns) allowed)
      (between c (.blockEnd :: tokens) columns allowed) := by
  refine .of_settle (Nat.le_refl _) ?_
  rw [settle, settle, approach_between hrest, approach_between hrest, dropStale_between,
    dropStale_between]
  simp [bind, Except.bind, unwind, between, inFlow, closeBlocks, htop]

/-- In front of a token of the innermost block nothing is left to do. -/
theorem settle_between (hrest : Stops isSkipped c.rest)
    (h : ∀ top ∈ columns.head?, top ≤ c.column) :
    (between c tokens columns allowed).settle = .ok (between c tokens columns allowed) := by
  have hunwind : (between c tokens columns allowed).unwind = between c tokens columns allowed :=
    unwind_of_le rfl h
  rw [settle, approach_between hrest, dropStale_between]
  simp only [bind, Except.bind, hunwind]
  rfl

/-- A candidate on the same line is kept. -/
theorem settle_candidate {k : Candidate} (hrest : Stops isSkipped c.rest)
    (hline : k.line = c.line) (hindex : c.index ≤ k.index + keyReach)
    (h : ∀ top ∈ columns.head?, top ≤ c.column) (tokens : List Token) (allowed : Bool) :
    settle ⟨c, tokens, columns, [some k], allowed⟩ =
      .ok ⟨c, tokens, columns, [some k], allowed⟩ := by
  have hunwind : unwind ⟨c, tokens, columns, [some k], allowed⟩ =
      ⟨c, tokens, columns, [some k], allowed⟩ := unwind_of_le rfl h
  rw [settle, approach_word hrest, dropStale_fresh hline hindex]
  simp only [bind, Except.bind, hunwind]
  rfl

end Layout

end Scan
end CqlWorkload.Yaml
