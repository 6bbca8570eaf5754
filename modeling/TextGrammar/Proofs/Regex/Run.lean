import TextGrammar.Proofs.Regex.Scans

/-!
# Programs of everyday use

The built-in engine knows the sources of everyday use: the programs that it makes of them find what
scanners take.

* `Program.TakesRun` — what the program for a character of one set with any number of another behind
  it does at each place; `Program.TakesRun.search_eq`: what it finds.
* `Program.longestRun`, `Program.headThenRun`, `Program.lineEnd` — the programs for one or more characters
  of a set, for a character of one set and any number of another, and for the end of a line.
* `Program.search_lineEnd` — what the last one finds.
* `Engine.everyday_builtIn` — so the sources of everyday use are searched for as they are meant.
-/

namespace TextGrammar.Regex

/-! ## Sets -/

theorem CharSet.mem_ofRange {lo hi : Nat} (h : lo ≤ hi) (c : Char) :
    (ofRange lo hi).mem c = decide (lo ≤ c.toNat ∧ c.toNat ≤ hi) := by
  rw [ofRange, mem_insert h, mem_empty, Bool.or_false]

/-- The digits of ASCII, by their code points. -/
theorem CharSet.mem_ofRange_digits (c : Char) : (ofRange 48 57).mem c = c.isDigit := by
  rw [mem_ofRange (by decide), Char.isDigit, Bool.eq_iff_iff]
  simp only [decide_eq_true_eq, Bool.and_eq_true, ge_iff_le, UInt32.le_iff_toNat_le, Char.toNat]
  rfl

/-- The letters of ASCII, by their code points. -/
theorem CharSet.mem_union_letters (c : Char) :
    ((ofRange 65 90).union (ofRange 97 122)).mem c = c.isAlpha := by
  rw [Bool.eq_iff_iff, mem_union, mem_ofRange (by decide), mem_ofRange (by decide),
    Text.isAlpha_iff]
  simp only [Bool.or_eq_true, decide_eq_true_eq]

namespace Program

/-! ## Programs for a run -/

/-- At the start of the text, the program takes a character of `head`; behind it, the program takes
characters of `tail` or accepts, and the longest match is preferred.  The addresses are those that
such a program is given. -/
structure TakesRun (p : Program) (head tail : CharSet) (first : Nat) : Prop where
  anchored : p.anchored = true
  /-- One thread waits for a first character. -/
  start : ∀ after, p.threads none after [⟨p.start, 0⟩] = [⟨first, 0⟩]
  waits : p.accepts ⟨first, 0⟩ = false
  step_head : ∀ c, p.step? c ⟨first, 0⟩ = if head.mem c then some ⟨1, 0⟩ else none
  /-- Behind a character, one thread waits for another and one accepts. -/
  next : ∀ before after, p.threads (some before) after [⟨1, 0⟩] = [⟨2, 0⟩, ⟨0, 0⟩]
  goes_on : p.accepts ⟨2, 0⟩ = false
  accepts : p.accepts ⟨0, 0⟩ = true
  step_tail : ∀ c, p.step? c ⟨2, 0⟩ = if tail.mem c then some ⟨1, 0⟩ else none
  stops : ∀ before after, p.threads (some before) after [] = []

namespace TakesRun

variable {p : Program} {head tail : CharSet} {first : Nat} (h : p.TakesRun head tail first)

include h

/-- Without a thread the best match stays. -/
theorem scan_nil (c : Char) (offset : Nat) (best : Option (Nat × Nat)) (text : List Char) :
    p.scan true (some c) offset [] best text = best := by
  cases text <;> simp [scan, h.stops, bestAt]

/-- Behind a character, the match may end or go on with one more character. -/
theorem scan_cons (c d : Char) (offset : Nat) (best : Option (Nat × Nat)) (text : List Char) :
    p.scan true (some c) offset [⟨1, 0⟩] best (d :: text) =
      p.scan true (some d) (offset + d.utf8Size) (if tail.mem d then [⟨1, 0⟩] else [])
        (some (0, offset)) text := by
  have hstep : [(⟨2, 0⟩ : Thread)].filterMap (p.step? d) =
      if tail.mem d then [⟨1, 0⟩] else [] := by
    rw [List.filterMap_cons, h.step_tail]
    cases tail.mem d <;> rfl
  rw [← hstep]
  simp [scan, h.next, bestAt, h.goes_on, h.accepts]

/-- Behind a character, a run goes on to the end of the characters of the set. -/
theorem scan_run (c : Char) (offset : Nat) (best : Option (Nat × Nat)) (text : List Char) :
    p.scan true (some c) offset [⟨1, 0⟩] best text =
      some (0, offset + Text.byteLength (text.takeWhile tail.mem)) := by
  induction text generalizing c offset best with
  | nil => simp [scan, h.next, bestAt, h.goes_on, h.accepts]
  | cons d ds ih =>
    rw [h.scan_cons]
    cases hd : tail.mem d with
    | true =>
      rw [if_pos rfl, ih, List.takeWhile_cons_of_pos hd, Text.byteLength_cons, Nat.add_assoc]
    | false =>
      rw [if_neg Bool.false_ne_true, h.scan_nil,
        List.takeWhile_cons_of_neg (by rw [hd]; exact Bool.false_ne_true), Text.byteLength_nil,
        Nat.add_zero]

theorem scan_start (c : Char) (text : List Char) :
    p.scan true none 0 [] none (c :: text) =
      p.scan true (some c) (0 + c.utf8Size) (if head.mem c then [⟨1, 0⟩] else []) none text := by
  have hstep : [(⟨first, 0⟩ : Thread)].filterMap (p.step? c) =
      if head.mem c then [⟨1, 0⟩] else [] := by
    rw [List.filterMap_cons, h.step_head]
    cases head.mem c <;> rfl
  rw [← hstep]
  simp [scan, h.start, bestAt, h.waits]

/-- **A character of the first set is found with the longest run of the second behind it.** -/
theorem search_eq (text : List Char) :
    p.search text = Match.taking (Text.headRun head.mem tail.mem text) := by
  cases text with
  | nil => simp [search, h.anchored, scan, h.start, bestAt, h.waits, Match.taking, Text.headRun]
  | cons c cs =>
    rw [search, h.anchored, h.scan_start, Text.headRun]
    cases head.mem c with
    | true =>
      rw [if_pos rfl, if_pos rfl, h.scan_run, Match.taking_of_ne_nil (List.cons_ne_nil _ _),
        Option.map_some, Nat.zero_add, Text.byteLength_cons]
    | false =>
      rw [if_neg Bool.false_ne_true, if_neg Bool.false_ne_true, h.scan_nil]
      rfl

end TakesRun

/-! ## Runs of characters -/

/-- One or more characters of a set at the start of the text, as many as there are. -/
def longestRun (s : CharSet) : Program :=
  ⟨#[.accept, .fork 2 0, .take s 1, .check .textStart 2], 3⟩

theorem takesRun_longestRun (s : CharSet) : (longestRun s).TakesRun s s 2 where
  anchored := rfl
  start after := show (longestRun s).threads none after [⟨3, 0⟩] = [⟨2, 0⟩] from rfl
  waits := rfl
  step_head _ := rfl
  next _ _ := rfl
  goes_on := rfl
  accepts := rfl
  step_tail _ := rfl
  stops _ _ := rfl

/-- A character of a set at the start of the text, and as many of another behind it as there are. -/
def headThenRun (head tail : CharSet) : Program :=
  ⟨#[.accept, .fork 2 0, .take tail 1, .take head 1, .check .textStart 3], 4⟩

theorem takesRun_headThenRun (head tail : CharSet) : (headThenRun head tail).TakesRun head tail 3 where
  anchored := rfl
  start after := show (headThenRun head tail).threads none after [⟨4, 0⟩] = [⟨3, 0⟩] from rfl
  waits := rfl
  step_head _ := rfl
  next _ _ := rfl
  goes_on := rfl
  accepts := rfl
  step_tail _ := rfl
  stops _ _ := rfl

/-! ## Ends of lines -/

/-- A carriage return and a newline, a newline, or a carriage return at the start of the text, the first
of these that is there. -/
def lineEnd : Program :=
  ⟨#[.accept, .take (.single '\r') 0, .take (.single '\n') 0, .fork 2 1, .take (.single '\n') 0,
    .take (.single '\r') 4, .fork 5 3, .check .textStart 6], 7⟩

/-- A thread that waits for one character goes on behind it. -/
theorem step?_single {p : Program} {a next : Nat} {d : Char}
    (hcode : p.code[a]? = some (.take (.single d) next)) (c : Char) (start : Nat) :
    p.step? c ⟨a, start⟩ = if c = d then some ⟨next, start⟩ else none := by
  simp [step?, hcode]

/-- Three threads wait for a first character, one for each way. -/
theorem threads_lineEnd_start (after : Option Char) :
    lineEnd.threads none after [⟨7, 0⟩] = [⟨5, 0⟩, ⟨2, 0⟩, ⟨1, 0⟩] := rfl

/-- Behind a carriage return, one thread waits for a newline and one accepts. -/
theorem threads_lineEnd_return (c : Char) (after : Option Char) :
    lineEnd.threads (some c) after [⟨4, 0⟩, ⟨0, 0⟩] = [⟨4, 0⟩, ⟨0, 0⟩] := by
  simp [threads, enter, follow, lineEnd]

theorem threads_lineEnd_stop (c : Char) (after : Option Char) :
    lineEnd.threads (some c) after [⟨0, 0⟩] = [⟨0, 0⟩] := rfl

theorem threads_lineEnd_nil (c : Char) (after : Option Char) :
    lineEnd.threads (some c) after [] = [] := rfl

/-- One thread that has come to accept is the match, and has no other behind it. -/
theorem scan_lineEnd_stop (c : Char) (offset : Nat) (best : Option (Nat × Nat))
    (text : List Char) :
    lineEnd.scan true (some c) offset [⟨0, 0⟩] best text = some (0, offset) := by
  have haccepts : lineEnd.accepts ⟨0, 0⟩ = true := rfl
  cases text <;> simp [scan, threads_lineEnd_stop, bestAt, haccepts]

theorem scan_lineEnd_nil (c : Char) (offset : Nat) (best : Option (Nat × Nat))
    (text : List Char) : lineEnd.scan true (some c) offset [] best text = best := by
  cases text <;> simp [scan, threads_lineEnd_nil, bestAt]

/-- Behind a carriage return, a newline is taken if it is there. -/
theorem scan_lineEnd_return (c : Char) (offset : Nat) (best : Option (Nat × Nat))
    (text : List Char) :
    lineEnd.scan true (some c) offset [⟨4, 0⟩, ⟨0, 0⟩] best text =
      some (0, if text.head? = some '\n' then offset + 1 else offset) := by
  have hwaits : lineEnd.accepts ⟨4, 0⟩ = false := rfl
  have haccepts : lineEnd.accepts ⟨0, 0⟩ = true := rfl
  have hstep (d : Char) : lineEnd.step? d ⟨4, 0⟩ = if d = '\n' then some ⟨0, 0⟩ else none :=
    step?_single rfl d 0
  cases text with
  | nil => simp [scan, threads_lineEnd_return, bestAt, hwaits, haccepts]
  | cons d text =>
    by_cases hd : d = '\n'
    · subst hd
      have hsize : ('\n').utf8Size = 1 := rfl
      simp [scan, threads_lineEnd_return, bestAt, hwaits, haccepts, hstep, scan_lineEnd_stop, hsize]
    · simp [scan, threads_lineEnd_return, bestAt, hwaits, haccepts, hstep, scan_lineEnd_nil, hd]

/-- Behind the first character, the threads that waited for it are left. -/
theorem filterMap_lineEnd_start (c : Char) :
    [(⟨5, 0⟩ : Thread), ⟨2, 0⟩, ⟨1, 0⟩].filterMap (lineEnd.step? c) =
      if c = '\r' then [⟨4, 0⟩, ⟨0, 0⟩] else if c = '\n' then [⟨0, 0⟩] else [] := by
  have hfirst : lineEnd.step? c ⟨5, 0⟩ = if c = '\r' then some ⟨4, 0⟩ else none :=
    step?_single rfl c 0
  have hsecond : lineEnd.step? c ⟨2, 0⟩ = if c = '\n' then some ⟨0, 0⟩ else none :=
    step?_single rfl c 0
  have hthird : lineEnd.step? c ⟨1, 0⟩ = if c = '\r' then some ⟨0, 0⟩ else none :=
    step?_single rfl c 0
  by_cases hreturn : c = '\r'
  · subst hreturn
    simp [hfirst, hsecond, hthird]
  · simp only [List.filterMap_cons, hfirst, hsecond, hthird, if_neg hreturn]
    by_cases hnewline : c = '\n' <;> simp [hnewline]

theorem scan_lineEnd (text : List Char) :
    lineEnd.scan true none 0 [] none text =
      if Text.lineEnd text = [] then none
      else some (0, Text.byteLength (Text.lineEnd text)) := by
  have hstart : lineEnd.start = 7 := rfl
  have hwaits : lineEnd.accepts ⟨5, 0⟩ = false ∧ lineEnd.accepts ⟨2, 0⟩ = false ∧
    lineEnd.accepts ⟨1, 0⟩ = false := ⟨rfl, rfl, rfl⟩
  cases text with
  | nil => simp [scan, hstart, threads_lineEnd_start, bestAt, hwaits, Text.lineEnd]
  | cons c text =>
    have hscan : lineEnd.scan true none 0 [] none (c :: text) =
        lineEnd.scan true (some c) (0 + c.utf8Size)
          ([(⟨5, 0⟩ : Thread), ⟨2, 0⟩, ⟨1, 0⟩].filterMap (lineEnd.step? c)) none text := by
      simp [scan, hstart, threads_lineEnd_start, bestAt, hwaits]
    rw [hscan, filterMap_lineEnd_start, Text.lineEnd]
    by_cases hreturn : c = '\r'
    · rw [if_pos hreturn, if_pos hreturn, scan_lineEnd_return, hreturn]
      by_cases hnext : text.head? = some '\n'
      · rw [if_pos hnext, if_pos hnext]
        rfl
      · rw [if_neg hnext, if_neg hnext]
        rfl
    · rw [if_neg hreturn, if_neg hreturn]
      by_cases hnewline : c = '\n'
      · rw [if_pos hnewline, if_pos hnewline, scan_lineEnd_stop, hnewline]
        rfl
      · rw [if_neg hnewline, if_neg hnewline, if_pos rfl, scan_lineEnd_nil]

/-- **The first of the ways to end a line that is there is found.** -/
theorem search_lineEnd (text : List Char) : lineEnd.search text = Match.taking (Text.lineEnd text) := by
  have hanchored : lineEnd.anchored = true := rfl
  rw [search, hanchored, scan_lineEnd, Match.taking]
  split <;> rfl

end Program

/-! ## Sources of everyday use -/

namespace Engine

variable {source : String} {p : Program} {t : Term} {scan : List Char → List Char}

/-- The engine searches for a source if the program and the term find what one scanner takes. -/
theorem searches_builtIn (hcompile : builtIn.compile? (Pattern.framed source) = some p.search)
    (hp : ∀ text, p.search text = Match.taking (scan text)) (ht : t.Takes scan) :
    builtIn.Searches source t :=
  ⟨p.search, hcompile, fun text => (hp text).trans (ht text).symm⟩

/-- Characters of a set are searched for as far as they go. -/
theorem searches_longestRun {s : CharSet} {kind : Char → Bool} (hs : s.mem = kind)
    (hcompile : builtIn.compile? (Pattern.framed source) = some (Program.longestRun s).search) :
    builtIn.Searches source (.run kind) := by
  refine searches_builtIn hcompile (fun text => ?_) (Term.takes_run kind)
  rw [(Program.takesRun_longestRun s).search_eq, hs, Text.headRun_self]

/-- **The built-in engine knows the sources of everyday use.** -/
theorem everyday_builtIn : builtIn.Everyday where
  letters := searches_longestRun (funext CharSet.mem_union_letters) rfl
  digits := searches_longestRun (funext CharSet.mem_ofRange_digits) rfl
  whitespace := searches_longestRun (s := .blank) rfl rfl
  newline := searches_builtIn (p := .lineEnd) rfl Program.search_lineEnd Term.takes_lineEnd

end Engine

end TextGrammar.Regex
