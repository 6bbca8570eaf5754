import TextGrammar.Regex.Program

/-!
# Matching

A program is run over a text by threads, each at one instruction, which are kept in the order in
which their matches are preferred.  At every place of the text the threads follow the checks and
forks that need no character; where two of them meet at an instruction, the one that is preferred
stays.  A thread that accepts ends all that come behind it.  As long as there is no match, a new
thread begins at every place, behind all others: so the match that begins first is found.

* `Program.threads` — the threads at a place, from the addresses that they have reached.
* `Program.scan` — the run over a text.
* `Program.search` — the leftmost match, and of the matches there the preferred one.
* `Program.scan_pinned`, `Program.search_eq` — a program that asks for the start of the text is tried
  there only, and nothing is lost by that.
-/

namespace TextGrammar.Regex

/-- A possible match: the address that it has reached, and the offset at which it began. -/
structure Thread where
  address : Nat
  start : Nat
deriving DecidableEq, Repr

/-- The threads at a place of the text: the addresses met there, as the bits of a number, and the
threads that wait for a character or accept, the last one first. -/
structure Frontier where
  met : Nat
  threads : List Thread

namespace Program

/-- Follows checks and forks from the addresses in `ahead`, the first one first, for a match that
began at `start`.  No address is met twice at one place. -/
def follow (p : Program) (before after : Option Char) (start : Nat) :
    (fuel : Nat) → (ahead : List Nat) → Frontier → Frontier
  | 0, _, f => f
  | _ + 1, [], f => f
  | fuel + 1, a :: ahead, f =>
    if f.met.testBit a then follow p before after start fuel ahead f
    else
      let met := f.met ||| 1 <<< a
      match p.code[a]? with
      | some (.check c next) =>
        if c.holds before after then
          follow p before after start fuel (next :: ahead) { f with met }
        else follow p before after start fuel ahead { f with met }
      | some (.fork first second) =>
        follow p before after start fuel (first :: second :: ahead) { f with met }
      | _ => follow p before after start fuel ahead ⟨met, ⟨a, start⟩ :: f.threads⟩

/-- The frontier with the threads that come from one that has arrived.  Every address met puts at most
two others ahead, which bounds the number of steps. -/
def enter (p : Program) (before after : Option Char) (f : Frontier) (t : Thread) : Frontier :=
  p.follow before after t.start (2 * p.code.size + 1) [t.address] f

/-- The threads at a place between two characters that come from the threads in `arrived`. -/
def threads (p : Program) (before after : Option Char) (arrived : List Thread) : List Thread :=
  (arrived.foldl (p.enter before after) ⟨0, []⟩).threads.reverse

/-- Whether a thread accepts. -/
def accepts (p : Program) (t : Thread) : Bool :=
  match p.code[t.address]? with
  | some .accept => true
  | _ => false

/-- The thread behind the next character, if it waits for that character. -/
def step? (p : Program) (c : Char) (t : Thread) : Option Thread :=
  match p.code[t.address]? with
  | some (.take s next) => if s.mem c then some { t with address := next } else none
  | _ => none

/-- The best match, once the threads at an offset are known: that of the first thread that accepts,
if there is one. -/
def bestAt (p : Program) (offset : Nat) (threads : List Thread) (best : Option (Nat × Nat)) :
    Option (Nat × Nat) :=
  match threads.find? p.accepts with
  | some t => some (t.start, offset)
  | none => best

/-- Runs the threads in `arrived` over the text ahead, which starts at `offset` behind the character
`before`.  The best match so far is `best`, given by its start and its end.  If `pinned`, matches
begin at the start of the text only. -/
def scan (p : Program) (pinned : Bool) (before : Option Char) (offset : Nat)
    (arrived : List Thread) (best : Option (Nat × Nat)) (text : List Char) :
    Option (Nat × Nat) :=
  let begins := best.isNone && (before.isNone || !pinned)
  let threads := p.threads before text.head?
    (if begins then arrived ++ [⟨p.start, offset⟩] else arrived)
  let waiting := threads.takeWhile (!p.accepts ·)
  let best := p.bestAt offset threads best
  match text with
  | [] => best
  | c :: cs =>
    if waiting.isEmpty && (best.isSome || pinned) then best
    else p.scan pinned (some c) (offset + c.utf8Size) (waiting.filterMap (p.step? c)) best cs

/-- The leftmost match in a text.  A program that asks for the start of the text is tried there
only. -/
def search (p : Program) (text : List Char) : Option Match :=
  (p.scan p.anchored none 0 [] none text).map fun (start, stop) => ⟨start, stop⟩

end Program

end TextGrammar.Regex

namespace TextGrammar.Regex.Program

variable {p : Program}

/-! ## Programs that ask for the start -/

/-- Behind the start of the text, a new match gets nowhere. -/
theorem threads_follow_start (h : p.anchored = true) (c : Char) (after : Option Char)
    (start fuel : Nat) (f : Frontier) :
    (p.follow (some c) after start fuel [p.start] f).threads = f.threads := by
  unfold anchored at h
  split at h
  · next next hcode =>
    cases fuel with
    | zero => rfl
    | succ fuel =>
      have nil : ∀ (fuel : Nat) (f : Frontier),
          p.follow (some c) after start fuel [] f = f := by
        intro fuel f
        cases fuel <;> rfl
      simp only [follow, hcode, Anchor.holds, Option.isNone_some, Bool.false_eq_true, if_false, nil]
      split <;> rfl
  · simp at h

theorem threads_append_start (h : p.anchored = true) (c : Char) (after : Option Char)
    (arrived : List Thread) (offset : Nat) :
    p.threads (some c) after (arrived ++ [⟨p.start, offset⟩]) =
      p.threads (some c) after arrived := by
  simp only [threads, List.foldl_append, List.foldl_cons, List.foldl_nil, enter,
    threads_follow_start h]

theorem scan_nil_of_anchored (h : p.anchored = true) (c : Char) (offset : Nat) (text : List Char) :
    p.scan false (some c) offset [] none text = none := by
  have none_at : ∀ (c : Char) (after : Option Char) (offset : Nat),
      p.threads (some c) after [⟨p.start, offset⟩] = [] := by
    intro c after offset
    simpa [threads] using threads_append_start h c after [] offset
  induction text generalizing c offset with
  | nil => simp [scan, none_at, bestAt]
  | cons d ds ih =>
    rw [scan]
    simp [none_at, ih, bestAt]

/-- The threads at a place behind the start are the same whether a match may begin there or not. -/
theorem threads_begin (h : p.anchored = true) (begins : Bool) (c : Char) (after : Option Char)
    (arrived : List Thread) (offset : Nat) :
    p.threads (some c) after (if begins then arrived ++ [⟨p.start, offset⟩] else arrived) =
      p.threads (some c) after arrived := by
  cases begins
  · rfl
  · exact threads_append_start h c after arrived offset

theorem scan_pinned_some (h : p.anchored = true) (c : Char) (offset : Nat) (arrived : List Thread)
    (best : Option (Nat × Nat)) (text : List Char) :
    p.scan true (some c) offset arrived best text =
      p.scan false (some c) offset arrived best text := by
  induction text generalizing c offset arrived best with
  | nil => simp only [scan, threads_begin h]
  | cons d ds ih =>
    rw [scan, scan]
    simp only [threads_begin h, ih, Bool.or_true, Bool.and_true, Bool.or_false]
    generalize p.threads (some c) (d :: ds).head? arrived = threads
    generalize p.bestAt offset threads best = best
    generalize threads.takeWhile (!p.accepts ·) = waiting
    cases waiting <;> cases best <;> simp [scan_nil_of_anchored h]

/-- A run that begins at the start of the text only finds what a run that begins anywhere finds, if
the program asks for the start of the text. -/
theorem scan_pinned (h : p.anchored = true) (text : List Char) :
    p.scan true none 0 [] none text = p.scan false none 0 [] none text := by
  cases text with
  | nil => simp [scan]
  | cons c cs =>
    rw [scan, scan]
    simp only [scan_pinned_some h, Option.isNone_none, Bool.true_or, Bool.and_true, if_true,
      List.nil_append, Bool.or_true, Bool.or_false]
    generalize p.threads none (c :: cs).head? [⟨p.start, 0⟩] = threads
    generalize p.bestAt 0 threads none = best
    generalize threads.takeWhile (!p.accepts ·) = waiting
    cases waiting <;> cases best <;> simp [scan_nil_of_anchored h]

/-- The search finds what a run that begins anywhere finds. -/
theorem search_eq (p : Program) (text : List Char) :
    p.search text = (p.scan false none 0 [] none text).map fun (start, stop) => ⟨start, stop⟩ := by
  rw [search]
  cases h : p.anchored
  · rfl
  · rw [scan_pinned h]

end TextGrammar.Regex.Program
