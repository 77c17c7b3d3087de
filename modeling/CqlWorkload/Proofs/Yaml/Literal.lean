import CqlWorkload.Proofs.Yaml.Quoted

/-!
# Literal blocks

A literal block is read line for line: only the next-line character U+0085 is not read
as itself but as the break of a line, as in single quotes.

**Lines.** `Lines` relates the text of a block from the first character of a line on to
what is written, and keeps apart the break at the end of the last line and the breaks
behind it, since the marks of the block decide which of them count.
-/

namespace CqlWorkload.Yaml

open Lexeme

/-- What a break or another character of a literal block is read as. -/
def literalSeen (cs : List Char) : List Char := cs.map Cursor.breakValue

theorem literalSeen_append (a b : List Char) :
    literalSeen (a ++ b) = literalSeen a ++ literalSeen b := List.map_append

theorem breakValue_of_ne {c : Char} (h : c ≠ '\x85') : Cursor.breakValue c = c := if_neg h

theorem breakValue_of_not_isBreak {c : Char} (h : isBreak c = false) :
    Cursor.breakValue c = c := by
  refine breakValue_of_ne ?_
  rintro rfl
  contradiction

theorem literalSeen_eq_self {cs : List Char} (h : '\x85' ∉ cs) : literalSeen cs = cs := by
  rw [literalSeen, List.map_congr_left (g := id), List.map_id]
  rintro c hc
  refine breakValue_of_ne ?_
  rintro rfl
  contradiction

theorem nextLine_not_mem_literalSeen (cs : List Char) : '\x85' ∉ literalSeen cs := by
  intro hmem
  obtain ⟨c, -, hc⟩ := List.mem_map.mp hmem
  rw [Cursor.breakValue] at hc
  split at hc
  · contradiction
  · next hne => exact hne hc

/-- How the breaks at the end of a block count. -/
def ending (chomp : Chomp) (last others : List Char) : List Char :=
  match chomp with
  | .strip => []
  | .clip => last
  | .keep => last ++ others

inductive Lines (indent : Nat) : (text last others written : List Char) → Prop
  | last {line others : List Char} {b : Char} (hline : line ≠ [])
      (hsolid : ∀ c ∈ line, isBreak c = false) (hb : isBreak b = true)
      (hothers : ∀ c ∈ others, isBreak c = true) :
      Lines indent line [Cursor.breakValue b] (literalSeen others) (line ++ b :: others)
  | more {line between text last others written : List Char} {b : Char} (hline : line ≠ [])
      (hsolid : ∀ c ∈ line, isBreak c = false) (hb : isBreak b = true)
      (hbetween : ∀ c ∈ between, isBreak c = true) (h : Lines indent text last others written) :
      Lines indent (line ++ Cursor.breakValue b :: literalSeen between ++ text) last others
        (line ++ b :: between ++ blanks indent ++ written)

/-! ## Marks -/

/-- The marks for a block that begins with a blank or a break, or does not. -/
def marks (deep : Bool) (chomp : Chomp) : List Char :=
  (if deep then ['2'] else []) ++
    match chomp with
    | .strip => ['-']
    | .clip => []
    | .keep => ['+']

/-- How the breaks at the end of a text have to count. -/
def chompOf (cs : List Char) : Chomp :=
  match cs.reverse with
  | [] => .clip
  | [c] => if isBreak c then .keep else .strip
  | c :: before :: _ => if !isBreak c then .strip else if isBreak before then .keep else .clip

/-- Does a text begin with a blank or a break? -/
def isDeep (cs : List Char) : Bool := cs.head?.any fun c => c == ' ' || isBreak c

theorem literalMarks_eq (cs : List Char) : literalMarks cs = marks (isDeep cs) (chompOf cs) := by
  simp only [literalMarks, marks, chompOf, isDeep]
  congr 1
  · cases cs <;> rfl
  · cases cs.reverse with
    | nil => rfl
    | cons c before =>
        cases before with
        | nil => cases hc : isBreak c <;> simp [hc]
        | cons b before => cases hc : isBreak c <;> cases hb : isBreak b <;> simp [hc, hb]

theorem depthMark_none {c : Cursor} {ch : Char} {rest : List Char} (h : c.rest = ch :: rest)
    (hch : Digit.value? 10 ch = none) : depthMark c = .ok (none, c) := by
  simp [depthMark, Cursor.peek?, h, hch]

theorem depthMark_two {c : Cursor} {rest : List Char} (h : c.rest = '2' :: rest) :
    depthMark c = .ok (some 2, c.past ['2']) := by
  have htwo : Digit.value? 10 '2' = some 2 := by decide
  simp [depthMark, Cursor.peek?, h, htwo, Cursor.next_eq_past c '2']

theorem blockMarks_ending_first {c behind : Cursor} {chomp : Chomp} {depth : Option Nat}
    (hchomp : chompMark? c.peek? = some chomp) (hdepth : depthMark c.next = .ok (depth, behind)) :
    blockMarks c = .ok ((chomp, depth), behind) := by
  simp only [blockMarks, hchomp, hdepth]
  rfl

theorem blockMarks_depth_first {c behind : Cursor} {chomp : Chomp} {depth : Nat}
    (hnone : chompMark? c.peek? = none) (hdepth : depthMark c = .ok (some depth, behind))
    (hchomp : chompMark? behind.peek? = some chomp) :
    blockMarks c = .ok ((chomp, some depth), behind.next) := by
  simp only [blockMarks, hnone, hdepth, bind, Except.bind, hchomp]
  rfl

theorem blockMarks_no_ending {c behind : Cursor} {depth : Option Nat}
    (hnone : chompMark? c.peek? = none) (hdepth : depthMark c = .ok (depth, behind))
    (hchomp : chompMark? behind.peek? = none) :
    blockMarks c = .ok ((.clip, depth), behind) := by
  simp only [blockMarks, hnone, hdepth, bind, Except.bind, hchomp]
  cases depth <;> rfl

/-- The marks are read as they are written: the depth in front of the ending. -/
theorem blockMarks_eq (deep : Bool) (chomp : Chomp) {c : Cursor} {rest : List Char}
    (h : c.rest = marks deep chomp ++ '\n' :: rest) :
    blockMarks c =
      .ok ((chomp, if deep then some 2 else none), c.past (marks deep chomp)) := by
  have hline : Digit.value? 10 '\n' = none := by decide
  have hpeek : ∀ {c : Cursor} {ch : Char} {cs : List Char}, c.rest = ch :: cs →
      c.peek? = some ch := fun h => by rw [Cursor.peek?, h, List.head?_cons]
  cases deep with
  | false =>
      cases chomp with
      | clip =>
          have h : c.rest = '\n' :: rest := h
          exact blockMarks_no_ending (congrArg chompMark? (hpeek h)) (depthMark_none h hline)
            (congrArg chompMark? (hpeek h))
      | strip =>
          have h : c.rest = '-' :: '\n' :: rest := h
          exact blockMarks_ending_first (congrArg chompMark? (hpeek h))
            (depthMark_none (Cursor.rest_next h) hline)
      | keep =>
          have h : c.rest = '+' :: '\n' :: rest := h
          exact blockMarks_ending_first (congrArg chompMark? (hpeek h))
            (depthMark_none (Cursor.rest_next h) hline)
  | true =>
      cases chomp with
      | clip =>
          have h : c.rest = '2' :: '\n' :: rest := h
          exact blockMarks_no_ending (congrArg chompMark? (hpeek h)) (depthMark_two h)
            (congrArg chompMark? (hpeek (Cursor.rest_past (a := ['2']) h)))
      | strip =>
          have h : c.rest = '2' :: '-' :: '\n' :: rest := h
          exact blockMarks_depth_first (congrArg chompMark? (hpeek h)) (depthMark_two h)
            (congrArg chompMark? (hpeek (Cursor.rest_past (a := ['2']) h)))
      | keep =>
          have h : c.rest = '2' :: '+' :: '\n' :: rest := h
          exact blockMarks_depth_first (congrArg chompMark? (hpeek h)) (depthMark_two h)
            (congrArg chompMark? (hpeek (Cursor.rest_past (a := ['2']) h)))

theorem lineEnd_eq {c : Cursor} {rest : List Char} (h : c.rest = '\n' :: rest) :
    lineEnd c = .ok (c.past ['\n']) := by
  have hskip : c.skipBlanks = c :=
    Cursor.skipWhile_of_stops (by rw [h]; exact Stops.cons (by decide))
  have hsees : c.sees '#' = false :=
    Cursor.sees_eq_false (by rw [h]; exact Stops.cons (by decide))
  have hends : endsLine c.rest = true := by rw [h]; rfl
  simp only [lineEnd, hskip, Cursor.skipComment, hsees, Bool.false_eq_true, if_false, hends]
  rfl

/-! ## Lines -/

/-- A line is entered up to the depth of the block, or up to its first word. -/
theorem skipIndent_eq {indent n : Nat} {rest : List Char}
    (hn : n = indent ∨ n < indent ∧ Stops (· == ' ') rest) {c : Cursor} (hcolumn : c.column = 0)
    (h : c.rest = blanks n ++ rest) : c.skipIndent indent = c.past (blanks n) := by
  have hrun : (c.run (· == ' ')).length = n + (rest.takeWhile (· == ' ')).length := by
    rw [Cursor.run, h, List.takeWhile_append_of_pos fun ch hch => by simp [mem_blanks hch],
      List.length_append, length_blanks]
  have hmin : min indent (c.run (· == ' ')).length = n := by
    rcases hn with rfl | ⟨hlt, hstops⟩
    · omega
    · rw [hrun, hstops.takeWhile_eq, List.length_nil]
      omega
  rw [Cursor.skipIndent, hcolumn, Nat.sub_zero, hmin, Cursor.past, length_blanks]

/-- The empty lines in front of a line, which may be deeper than the block or less deep. -/
theorem blockBreaks_eq {indent n : Nat} {others rest : List Char}
    (hothers : ∀ c ∈ others, isBreak c = true) (hrest : Stops isBreak rest)
    (hn : n = indent ∨ n < indent ∧ Stops (· == ' ') rest) {fuel : Nat}
    (hfuel : others.length < fuel) {c : Cursor} (hcolumn : c.column = 0)
    (h : c.rest = others ++ (blanks n ++ rest)) :
    blockBreaks indent fuel c = (literalSeen others, c.past (others ++ blanks n)) := by
  induction others generalizing fuel c with
  | nil =>
      obtain ⟨fuel, rfl⟩ : ∃ n, fuel = n + 1 := ⟨fuel - 1, by omega⟩
      have h : c.rest = blanks n ++ rest := h
      have hnone : (c.past (blanks n)).takeBreak? = none :=
        Cursor.takeBreak?_eq_none (by rw [Cursor.rest_past h]; exact hrest)
      simp only [blockBreaks, skipIndent_eq hn hcolumn h, hnone]
      rfl
  | cons b others ih =>
      obtain ⟨fuel, rfl⟩ : ∃ n, fuel = n + 1 := ⟨fuel - 1, by omega⟩
      have hb := hothers b (by simp)
      have hblank : b ≠ ' ' := by
        rintro rfl
        contradiction
      have hempty : 0 = indent ∨ 0 < indent ∧ Stops (· == ' ') c.rest := by
        rw [h]
        have hstops : Stops (· == ' ') (b :: others ++ (blanks n ++ rest)) :=
          Stops.cons (by simpa using hblank)
        exact (Nat.eq_zero_or_pos indent).imp Eq.symm fun hpos => ⟨hpos, hstops⟩
      have hskip : c.skipIndent indent = c := skipIndent_eq hempty hcolumn rfl
      have hnext := Cursor.next_break h hb
      have hshort : others.length < fuel := by
        simp only [List.length_cons] at hfuel
        omega
      have ih := ih (fun x hx => hothers x (by simp [hx])) hshort (c := c.past [b])
        (by rw [← Cursor.next_eq_past, hnext]) (Cursor.rest_past (a := [b]) h)
      rw [← Cursor.past_append] at ih
      simp only [blockBreaks, hskip, Cursor.takeBreak?_cons h hb, ih]
      rfl

theorem atBlockLine_of_ne {indent : Nat} {c : Cursor} (h : c.column ≠ indent) :
    atBlockLine indent c = false := by simp [atBlockLine, h]

theorem atBlockLine_of_cons {indent : Nat} {c : Cursor} {ch : Char} {rest : List Char}
    (h : c.column = indent) (hrest : c.rest = ch :: rest) : atBlockLine indent c = true := by
  simp [atBlockLine, h, Cursor.atEnd, hrest]

theorem Lines.head {indent : Nat} {text last others written : List Char}
    (h : Lines indent text last others written) :
    ∃ c rest, written = c :: rest ∧ isBreak c = false := by
  cases h with
  | @last line _ _ hline hsolid | @more line _ _ _ _ _ _ hline hsolid =>
      obtain ⟨c, line, rfl⟩ := List.exists_cons_of_ne_nil hline
      exact ⟨c, _, rfl, hsolid c (by simp)⟩

/-- A line, its break and the empty lines behind it. -/
theorem blockLines_step (fuel : Nat) (before : List Char) {indent n : Nat}
    {line others rest : List Char} {b : Char} {c : Cursor}
    (hsolid : ∀ ch ∈ line, isBreak ch = false) (hb : isBreak b = true)
    (hothers : ∀ ch ∈ others, isBreak ch = true) (hrest : Stops isBreak rest)
    (hn : n = indent ∨ n < indent ∧ Stops (· == ' ') rest) (hcolumn : c.column = indent)
    (h : c.rest = line ++ b :: (others ++ (blanks n ++ rest))) :
    blockLines false indent (fuel + 1) before c =
      if atBlockLine indent (c.past (line ++ b :: others ++ blanks n)) then
        match blockLines false indent fuel (literalSeen others)
            (c.past (line ++ b :: others ++ blanks n)) with
        | (text, last, others, c) =>
          (before ++ line ++ [Cursor.breakValue b] ++ text, last, others, c)
      else (before ++ line, [Cursor.breakValue b], literalSeen others,
        c.past (line ++ b :: others ++ blanks n)) := by
  have hat : atBlockLine indent c = true := by
    cases line with
    | nil => exact atBlockLine_of_cons hcolumn h
    | cons ch line => exact atBlockLine_of_cons hcolumn h
  have hrun : c.run (!isBreak ·) = line :=
    Cursor.run_eq h (fun ch hch => by simp [hsolid ch hch])
      (Stops.cons (by simp [hb]))
  have hline : (c.past line).rest = b :: (others ++ (blanks n ++ rest)) := Cursor.rest_past h
  have hcolumn : (c.past line).next.column = 0 := by rw [Cursor.next_break hline hb]
  have hfew : others.length < (c.past line).rest.length + 1 := by
    rw [hline]
    simp
    omega
  have hbreaks := blockBreaks_eq hothers hrest hn hfew hcolumn (Cursor.rest_next hline)
  rw [Cursor.next_eq_past _ b, ← Cursor.past_append, ← Cursor.past_append] at hbreaks
  have hskip : Cursor.skip line.length c = c.past line := rfl
  have hpiece : line ++ [b] ++ (others ++ blanks n) = line ++ b :: others ++ blanks n := by simp
  rw [hpiece] at hbreaks
  rw [blockLines]
  simp only [hat, hrun, hskip, Cursor.takeBreak?_cons hline hb, Cursor.next_eq_past _ b,
    ← Cursor.past_append, hbreaks]
  rfl

/-- The lines of a block are read to the first line that is less deep. -/
theorem Lines.blockLines_eq {indent n : Nat} {text last others written rest : List Char}
    (h : Lines indent text last others written) (hn : n < indent) (hrest : Stops isLayout rest)
    {fuel : Nat} (hfuel : written.length < fuel) (before : List Char) {c : Cursor}
    (hcolumn : c.column = indent) (hc : c.rest = written ++ (blanks n ++ rest)) :
    blockLines false indent fuel before c =
      (before ++ text, last, others, c.past (written ++ blanks n)) := by
  induction h generalizing fuel before c with
  | @last line others b hline hsolid hb hothers =>
      obtain ⟨fuel, rfl⟩ : ∃ n, fuel = n + 1 := ⟨fuel - 1, by omega⟩
      have hc : c.rest = line ++ b :: (others ++ (blanks n ++ rest)) := by simpa using hc
      have hstep := blockLines_step fuel before hsolid hb hothers
        hrest.isBreak (Or.inr ⟨hn, hrest.isBlank⟩) hcolumn hc
      have hbehind : atBlockLine indent (c.past (line ++ b :: others ++ blanks n)) = false := by
        have hcolumn : (c.past (line ++ b :: others ++ blanks n)).column = n :=
          Cursor.column_past_breaks hc (List.forall_mem_cons.mpr ⟨hb, hothers⟩) (by simp)
        exact atBlockLine_of_ne (by omega)
      rw [hstep, hbehind, if_neg (by simp)]
  | @more line between text last others written b hline hsolid hb hbetween h ih =>
      obtain ⟨fuel, rfl⟩ : ∃ n, fuel = n + 1 := ⟨fuel - 1, by omega⟩
      have hc : c.rest =
          line ++ b :: (between ++ (blanks indent ++ (written ++ (blanks n ++ rest)))) := by
        simpa using hc
      have hstops : Stops isBreak (written ++ (blanks n ++ rest)) := by
        obtain ⟨ch, others, rfl, hch⟩ := h.head
        exact Stops.cons hch
      have hstep := blockLines_step fuel before hsolid hb hbetween
        hstops (Or.inl rfl) hcolumn hc
      have hbehind : (c.past (line ++ b :: between ++ blanks indent)).rest =
          written ++ (blanks n ++ rest) := Cursor.rest_past (by rw [hc]; simp)
      have hdepth : (c.past (line ++ b :: between ++ blanks indent)).column = indent :=
        Cursor.column_past_breaks hc (List.forall_mem_cons.mpr ⟨hb, hbetween⟩) (by simp)
      have hat : atBlockLine indent (c.past (line ++ b :: between ++ blanks indent)) = true := by
        obtain ⟨ch, others, rfl, hch⟩ := h.head
        exact atBlockLine_of_cons hdepth hbehind
      have hshort : written.length < fuel := by
        simp at hfuel
        omega
      have ih := ih hshort (literalSeen between) hdepth hbehind
      rw [hstep, hat, if_pos rfl, ih]
      simp [← Cursor.past_append]

/-! ## Blocks -/

/-- What stands in front of the lines of a block. -/
def header (deep : Bool) (chomp : Chomp) : List Char := '|' :: marks deep chomp ++ ['\n']

/-- A block whose lines are known. -/
theorem block_eq {level indent : Nat} {deep : Bool} {chomp : Chomp} {c behind : Cursor}
    {body before text last others : List Char} {front : Cursor}
    (h : c.rest = header deep chomp ++ body)
    (hdeep : deep = true → max 1 level + 1 = indent ∧
      blockBreaks indent (body.length + 1) (c.past (header deep chomp)) = (before, front))
    (hflat : deep = false → ∃ deepest, max (max 1 level) deepest = indent ∧
      leadingLines (body.length + 1) 0 (c.past (header deep chomp)) = (before, deepest, front))
    (hlines : blockLines false indent (body.length + 1) before front =
      (text, last, others, behind)) :
    block false level c = .ok (text ++ ending chomp last others, behind) := by
  have hmark : c.rest = '|' :: (marks deep chomp ++ '\n' :: body) := by
    rw [h]
    simp [header]
  have hrest : c.next.rest = marks deep chomp ++ '\n' :: body := Cursor.rest_next hmark
  have hmarks := blockMarks_eq deep chomp hrest
  have hline : (c.next.past (marks deep chomp)).rest = '\n' :: body := Cursor.rest_past hrest
  have hfront : (c.next.past (marks deep chomp)).past ['\n'] = c.past (header deep chomp) := by
    rw [Cursor.next_eq_past c '|', ← Cursor.past_append, ← Cursor.past_append]
    rfl
  have hbody : (c.past (header deep chomp)).rest = body := Cursor.rest_past h
  have hends : endsLine (c.next.past (marks deep chomp)).rest = true := by rw [hline]; rfl
  simp only [block, hmarks, bind, Except.bind, hends, Bool.true_or, demand, if_true,
    lineEnd_eq hline, hfront, hbody]
  cases deep with
  | true =>
      obtain ⟨hindent, hbreaks⟩ := hdeep rfl
      have hindent : max 1 level + 2 - 1 = indent := by omega
      simp only [if_true, hindent, hbreaks, hlines]
      cases chomp <;> rfl
  | false =>
      obtain ⟨deepest, hindent, hleading⟩ := hflat rfl
      simp only [Bool.false_eq_true, if_false, hleading, hindent, hlines]
      cases chomp <;> rfl

/-! ## The writer -/

section Writer

variable {indent : Nat}

theorem literalFrom_breaks {breaks : List Char} (h : ∀ c ∈ breaks, isBreak c = true)
    (rest : List Char) :
    literalFrom indent true (breaks ++ rest) = breaks ++ literalFrom indent true rest := by
  induction breaks with
  | nil => rfl
  | cons b breaks ih =>
      rw [List.cons_append, literalFrom, if_pos (h b (by simp)),
        ih fun c hc => h c (by simp [hc])]
      rfl

theorem literalFrom_line {line : List Char} (h : ∀ c ∈ line, isBreak c = false)
    (rest : List Char) :
    literalFrom indent false (line ++ rest) = line ++ literalFrom indent false rest := by
  induction line with
  | nil => rfl
  | cons c line ih =>
      rw [List.cons_append, literalFrom, if_neg (by simp [h c]), ih fun d hd => h d (by simp [hd])]
      rfl

theorem literalFrom_start {c : Char} (h : isBreak c = false) (rest : List Char) :
    literalFrom indent true (c :: rest) =
      blanks indent ++ literalFrom indent false (c :: rest) := by
  simp [literalFrom, h]

theorem literalFrom_end {b : Char} (h : isBreak b = true) (rest : List Char) :
    literalFrom indent false (b :: rest) = b :: literalFrom indent true rest := by
  simp [literalFrom, h]

theorem literalSeen_line {line : List Char} (h : ∀ c ∈ line, isBreak c = false) :
    literalSeen line = line := by
  rw [literalSeen, List.map_congr_left fun c hc => breakValue_of_not_isBreak (h c hc)]
  exact List.map_id' line

/-- How the breaks at the end have to count is seen from the last line on. -/
theorem chompOf_append {c : Char} (hc : isBreak c = false) (front rest : List Char) :
    chompOf (front ++ c :: rest) = chompOf (c :: rest) := by
  have hreverse : (front ++ c :: rest).reverse = rest.reverse ++ c :: front.reverse := by simp
  rw [chompOf, chompOf, hreverse, List.reverse_cons]
  cases rest.reverse with
  | nil => cases front.reverse <;> simp [hc]
  | cons d ds => cases ds <;> simp

theorem chompOf_line {c : Char} (hc : isBreak c = false) : chompOf [c] = .strip := by
  simp [chompOf, hc]

theorem chompOf_clip {c b : Char} (hc : isBreak c = false) (hb : isBreak b = true) :
    chompOf [c, b] = .clip := by
  simp [chompOf, hc, hb]

/-- Several breaks at the end all count, and so does one without a line in front. -/
theorem chompOf_breaks {front breaks : List Char} (hbreaks : ∀ c ∈ breaks, isBreak c = true)
    (hmany : 1 < breaks.length ∨ front = [] ∧ breaks ≠ []) :
    chompOf (front ++ breaks) = .keep := by
  have hreverse : ∀ c ∈ breaks.reverse, isBreak c = true := fun c hc =>
    hbreaks c (List.mem_reverse.mp hc)
  rw [chompOf, List.reverse_append]
  rw [← List.length_reverse, ← List.reverse_ne_nil_iff] at hmany
  match h : breaks.reverse with
  | [] => simp [h] at hmany
  | [c] =>
      have hfront : front = [] := by simpa [h] using hmany
      simp [hfront, hreverse c (by simp [h])]
  | c :: d :: others => simp [hreverse c (by simp [h]), hreverse d (by simp [h])]

/-- Behind the last line one break counts by itself. -/
theorem chompOf_lastLine {c b : Char} {line breaks : List Char}
    (hsolid : ∀ d ∈ c :: line, isBreak d = false) (hb : isBreak b = true)
    (hbreaks : ∀ d ∈ breaks, isBreak d = true) :
    chompOf (c :: line ++ b :: breaks) = if breaks.isEmpty then .clip else .keep := by
  cases breaks with
  | nil =>
      obtain ⟨front, d, hfront⟩ : ∃ front d, c :: line = front ++ [d] :=
        ⟨_, _, (List.dropLast_concat_getLast (List.cons_ne_nil c line)).symm⟩
      have hd := hsolid d (by simp [hfront])
      rw [hfront, List.append_assoc, List.singleton_append, chompOf_append hd]
      exact chompOf_clip hd hb
  | cons e breaks =>
      exact chompOf_breaks (List.forall_mem_cons.mpr ⟨hb, hbreaks⟩) (Or.inl (by simp))

/-- From the first word of a line on a text is written in lines. -/
theorem exists_lines {c : Char} {cs : List Char} (hc : isBreak c = false) :
    ∃ text last others, Lines indent text last others (literalFrom indent false (c :: cs)) ∧
      literalSeen (c :: cs) = text ++ ending (chompOf (c :: cs)) last others := by
  induction hlength : cs.length using Nat.strongRecOn generalizing c cs with
  | _ length ih =>
    subst hlength
    obtain ⟨line, rest, rfl, hline, hrest⟩ := exists_run (!isBreak ·) cs
    have hsolid : ∀ d ∈ c :: line, isBreak d = false :=
      List.forall_mem_cons.mpr ⟨hc, fun d hd => by simpa using hline d hd⟩
    rw [← List.cons_append, literalFrom_line hsolid]
    cases rest with
    | nil =>
        refine ⟨c :: line, ['\n'], [], ?_, ?_⟩
        · show Lines indent (c :: line) [Cursor.breakValue '\n'] (literalSeen [])
            (c :: line ++ '\n' :: [])
          exact .last (by simp) hsolid (by decide) (by simp)
        · obtain ⟨front, d, hfront⟩ : ∃ front d, c :: line = front ++ [d] :=
            ⟨_, _, (List.dropLast_concat_getLast (List.cons_ne_nil c line)).symm⟩
          have hd := hsolid d (by simp [hfront])
          rw [List.append_nil, literalSeen_line hsolid]
          rw [hfront, chompOf_append hd, chompOf_line hd, ending, List.append_nil]
    | cons b rest =>
        have hb : isBreak b = true := by simpa using hrest
        obtain ⟨breaks, rest, rfl, hbreaks, hrest⟩ := exists_run isBreak rest
        rw [literalFrom_end hb, literalFrom_breaks hbreaks]
        cases rest with
        | nil =>
            rw [literalFrom, if_pos rfl, List.append_nil]
            refine ⟨c :: line, _, _, .last (by simp) hsolid hb hbreaks, ?_⟩
            have hseen : literalSeen (c :: line ++ b :: breaks) =
                c :: line ++ ([Cursor.breakValue b] ++ literalSeen breaks) := by
              rw [literalSeen_append, literalSeen_line hsolid]
              rfl
            rw [hseen, chompOf_lastLine hsolid hb hbreaks]
            cases breaks <;> rfl
        | cons d rest =>
            have hd : isBreak d = false := by simpa using hrest
            have hshort : rest.length < (line ++ b :: (breaks ++ d :: rest)).length := by
              simp
              omega
            obtain ⟨text, last, others, hlines, hseen⟩ := ih rest.length hshort hd rfl
            refine ⟨c :: line ++ Cursor.breakValue b :: literalSeen breaks ++ text, last, others,
              ?_, ?_⟩
            · rw [literalFrom_start hd]
              simpa using Lines.more (by simp) hsolid hb hbreaks hlines
            · have hpiece : c :: line ++ b :: (breaks ++ d :: rest) =
                  (c :: line ++ b :: breaks) ++ d :: rest := by simp
              rw [hpiece, chompOf_append hd, literalSeen_append, literalSeen_append,
                literalSeen_line hsolid, hseen]
              simp [literalSeen]

/-- The header of a block and empty lines leave the cursor on a line of its own. -/
theorem column_past_header {deep : Bool} {chomp : Chomp} {breaks rest : List Char} {n : Nat}
    {c : Cursor} (h : c.rest = header deep chomp ++ (breaks ++ (blanks n ++ rest)))
    (hbreaks : ∀ ch ∈ breaks, isBreak ch = true) :
    (c.past (header deep chomp ++ (breaks ++ blanks n))).column = n := by
  have hpiece : header deep chomp ++ (breaks ++ blanks n) =
      ('|' :: marks deep chomp) ++ ('\n' :: breaks) ++ blanks n := by simp [header]
  have h : c.rest =
      ('|' :: marks deep chomp) ++ (('\n' :: breaks) ++ (blanks n ++ rest)) := by
    rw [h]
    simp [header]
  rw [hpiece]
  exact Cursor.column_past_breaks h (List.forall_mem_cons.mpr ⟨by decide, hbreaks⟩) (by simp)

/-- A text of breaks only: all of them count. -/
theorem block_breaks {level n : Nat} {breaks rest : List Char} (hlevel : 0 < level)
    (hbreaks : ∀ ch ∈ breaks, isBreak ch = true) (hn : n ≤ level) (hrest : Stops isLayout rest)
    {c : Cursor} (h : c.rest = header true .keep ++ (breaks ++ (blanks n ++ rest))) :
    block false level c =
      .ok (literalSeen breaks, c.past (header true .keep ++ (breaks ++ blanks n))) := by
  have hbehind : (c.past (header true .keep)).rest = breaks ++ (blanks n ++ rest) :=
    Cursor.rest_past h
  have hcolumn : (c.past (header true .keep ++ ([] ++ blanks 0))).column = 0 :=
    column_past_header (by simpa using h) (by simp)
  have hdepth : n = level + 1 ∨ n < level + 1 ∧ Stops (· == ' ') rest :=
    Or.inr ⟨by omega, hrest.isBlank⟩
  have hfew : breaks.length < (breaks ++ (blanks n ++ rest)).length + 1 := by
    rw [List.length_append]
    omega
  have hread := blockBreaks_eq hbreaks hrest.isBreak hdepth hfew (by simpa using hcolumn) hbehind
  rw [← Cursor.past_append] at hread
  have hend : atBlockLine (level + 1) (c.past (header true .keep ++ (breaks ++ blanks n))) =
      false := atBlockLine_of_ne (by rw [column_past_header h hbreaks]; omega)
  have hlines : blockLines false (level + 1) ((breaks ++ (blanks n ++ rest)).length + 1)
      (literalSeen breaks) (c.past (header true .keep ++ (breaks ++ blanks n))) =
      ([], [], literalSeen breaks, c.past (header true .keep ++ (breaks ++ blanks n))) := by
    simp only [blockLines, hend]
    rfl
  exact block_eq h (fun _ => ⟨by omega, hread⟩) (by simp) hlines

/-- The first line of a text without breaks in front tells the depth of its block. -/
theorem leadingLines_eq {indent fuel : Nat} {written rest : List Char}
    (hblank : Stops (· == ' ') (written ++ rest)) (hbreak : Stops isBreak (written ++ rest))
    {c : Cursor} (h : c.rest = blanks indent ++ (written ++ rest))
    (hcolumn : (c.past (blanks indent)).column = indent) :
    leadingLines (fuel + 1) 0 c = ([], indent, c.past (blanks indent)) := by
  have hnone : (c.past (blanks indent)).takeBreak? = none :=
    Cursor.takeBreak?_eq_none (by rw [Cursor.rest_past h]; exact hbreak)
  simp only [leadingLines, Cursor.skipBlanks_eq h hblank, hnone, hcolumn, Nat.zero_max]

/-- A text with lines: the empty lines in front, then the others. -/
theorem block_lines {level n : Nat} {deep : Bool} {chomp : Chomp}
    {breaks text last others written rest : List Char} (hlevel : 0 < level)
    (hbreaks : ∀ ch ∈ breaks, isBreak ch = true)
    (hlines : Lines (level + 1) text last others written)
    (hflat : deep = false → breaks = [] ∧ Stops (· == ' ') written) (hn : n ≤ level)
    (hrest : Stops isLayout rest) {c : Cursor}
    (h : c.rest = header deep chomp ++
      (breaks ++ (blanks (level + 1) ++ (written ++ (blanks n ++ rest))))) :
    block false level c = .ok (literalSeen breaks ++ text ++ ending chomp last others,
      c.past (header deep chomp ++ (breaks ++ (blanks (level + 1) ++ (written ++ blanks n))))) := by
  have hfront : (c.past (header deep chomp ++ (breaks ++ blanks (level + 1)))).column =
      level + 1 := column_past_header h hbreaks
  have hstart : (c.past (header deep chomp ++ ([] ++ blanks 0))).column = 0 :=
    column_past_header (by simpa using h) (by simp)
  have hbehind : (c.past (header deep chomp ++ (breaks ++ blanks (level + 1)))).rest =
      written ++ (blanks n ++ rest) := Cursor.rest_past (by rw [h]; simp)
  have hstops : Stops isBreak (written ++ (blanks n ++ rest)) := by
    obtain ⟨ch, others, rfl, hch⟩ := hlines.head
    exact Stops.cons hch
  have hshort : written.length <
      (breaks ++ (blanks (level + 1) ++ (written ++ (blanks n ++ rest)))).length + 1 := by
    simp only [List.length_append]
    omega
  have hread := hlines.blockLines_eq (n := n) (by omega) hrest hshort (literalSeen breaks)
    hfront hbehind
  rw [← Cursor.past_append] at hread
  have hpiece : header deep chomp ++ (breaks ++ blanks (level + 1)) ++ (written ++ blanks n) =
      header deep chomp ++ (breaks ++ (blanks (level + 1) ++ (written ++ blanks n))) := by simp
  rw [hpiece] at hread
  refine block_eq h (fun _ => ⟨by omega, ?_⟩) (fun hdeep => ?_) hread
  · have hfew : breaks.length <
        (breaks ++ (blanks (level + 1) ++ (written ++ (blanks n ++ rest)))).length + 1 := by
      rw [List.length_append]
      omega
    have hbefore := blockBreaks_eq hbreaks hstops (Or.inl rfl) hfew (by simpa using hstart)
      (Cursor.rest_past h)
    rw [← Cursor.past_append] at hbefore
    exact hbefore
  · obtain ⟨rfl, hblank⟩ := hflat hdeep
    have hword : Stops (· == ' ') (written ++ (blanks n ++ rest)) := by
      obtain ⟨ch, others, rfl, -⟩ := hlines.head
      have hch : (ch == ' ') = false := by simpa using hblank
      exact Stops.cons hch
    have hcolumn := hfront
    rw [List.nil_append, Cursor.past_append] at hcolumn
    refine ⟨level + 1, by omega, ?_⟩
    rw [leadingLines_eq hword hstops (Cursor.rest_past h) hcolumn, ← Cursor.past_append]
    rfl

/-- A block is read as the text that it was written for. -/
theorem block_literal {level n : Nat} {cs rest : List Char} (hlevel : 0 < level)
    (hcs : cs ≠ []) (hn : n ≤ level) (hrest : Stops isLayout rest) {c : Cursor}
    (h : c.rest = header (isDeep cs) (chompOf cs) ++
      (literalFrom (level + 1) true cs ++ (blanks n ++ rest))) :
    block false level c = .ok (literalSeen cs,
      c.past (header (isDeep cs) (chompOf cs) ++
        (literalFrom (level + 1) true cs ++ blanks n))) := by
  obtain ⟨breaks, body, rfl, hbreaks, hbody⟩ := exists_run isBreak cs
  rw [literalFrom_breaks hbreaks] at h ⊢
  cases body with
  | nil =>
      have hne : breaks ≠ [] := by simpa using hcs
      have hdeep : isDeep (breaks ++ []) = true := by
        obtain ⟨b, others, rfl⟩ := List.exists_cons_of_ne_nil hne
        simp [isDeep, hbreaks b (by simp)]
      have hchomp : chompOf (breaks ++ []) = .keep := by
        rw [List.append_nil]
        exact chompOf_breaks hbreaks (Or.inr ⟨rfl, hne⟩)
      rw [hdeep, hchomp, literalFrom, if_pos rfl, List.append_nil] at h ⊢
      exact block_breaks hlevel hbreaks hn hrest h
  | cons d body =>
      have hd : isBreak d = false := by simpa using hbody
      obtain ⟨text, last, others, hlines, hseen⟩ :=
        exists_lines hd
      have hflat : isDeep (breaks ++ d :: body) = false →
          breaks = [] ∧ Stops (· == ' ') (literalFrom (level + 1) false (d :: body)) := by
        intro hdeep
        cases breaks with
        | nil =>
            have hblank : d ≠ ' ' := by
              rintro rfl
              simp [isDeep] at hdeep
            refine ⟨rfl, ?_⟩
            rw [literalFrom, if_neg (by simp [hd])]
            exact Stops.cons (by simpa using hblank)
        | cons b breaks => simp [isDeep, hbreaks b (by simp)] at hdeep
      rw [literalFrom_start hd, chompOf_append hd] at h ⊢
      have hread := block_lines hlevel hbreaks hlines hflat hn hrest (by simpa using h)
      rw [hread, literalSeen_append, hseen]
      simp

end Writer

end CqlWorkload.Yaml
