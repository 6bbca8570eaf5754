import TextGrammar.Proofs.Parser.Surroundings
import TextGrammar.Proofs.Progress
import TextGrammar.Proofs.Text.Checked

/-!
# Reachable states

Every state that can be made is made from the start of an input by the operations on states and by
parsers, whose own actions use these operations only.

* `State.Move`, `State.Moves` — one operation on a state, with any arguments, and any number of
  them.
* `Parser.ActsByMoves` — all actions in a parser are made of such operations.
* `State.Reachable` — the states that can be made over an input.
* `State.Reachable.leadsTo_start` — the invariant: such a state is over that input, on a boundary.
* `State.Reachable.on_boundary` — so slices from its cursor are not refused, and moving its cursor
  takes no more than words.
-/

namespace TextGrammar

variable {ν : Type}

/-! ## Operations on states -/

namespace State

/-- One state is made of another by one operation. -/
inductive Move : State ν → State ν → Prop where
  | advance (s : State ν) (n : Nat) (v : Value ν) : Move s (s.advance n v)
  | succeed (s : State ν) (v : Value ν) : Move s (s.succeed v)
  | fail (s : State ν) (f : Failure) : Move s (s.fail f)
  | collectAs (s : State ν) (d : Disposition) : Move s (s.collectAs d)
  | take (s : State ν) : Move s s.take
  | rewind (s : State ν) (n : Nat) : Move s (s.rewind n)

/-- One state is made of another by any number of operations. -/
def Moves : State ν → State ν → Prop := Relation.ReflTransGen Move

variable {s t : State ν}

/-- Going back to any offset ends on a boundary. -/
theorem onBoundary_rewind (s : State ν) (n : Nat) : (s.rewind n).OnBoundary := by
  show Text.IsBoundary s.input.chars (s.input.floor n)
  rw [Input.floor_eq]
  exact Text.isBoundary_lastBoundary _ _

/-- **Every operation stays on the input and between characters.** -/
theorem OnBoundary.leadsTo_move (hb : s.OnBoundary) (h : s.Move t) : s.LeadsTo true t := by
  cases h with
  | advance n v => exact hb.leadsTo_advance n v
  | succeed v => exact hb.leadsTo_self.succeed v
  | fail f => exact hb.leadsTo_self.fail f
  | collectAs d => exact hb.leadsTo_self.collectAs d
  | take => exact hb.leadsTo_self.take
  | rewind n => exact ⟨rfl, onBoundary_rewind s n, fun h => (nomatch h)⟩

theorem OnBoundary.leadsTo_moves (hb : s.OnBoundary) (h : s.Moves t) : s.LeadsTo true t := by
  induction h with
  | refl => exact hb.leadsTo_self
  | tail _ hmove ih => exact ih.trans (ih.onBoundary.leadsTo_move hmove)

end State

/-! ## Parsers -/

namespace Parser

/-- All actions that the parser contains are made of operations on states, whatever they choose to
do in each state. -/
def ActsByMoves (p : Parser ν) : Prop :=
  p.EveryAction fun act => ∀ s : State ν, s.failed = false → s.Moves (act s)

theorem ActsByMoves.actionsLead {p : Parser ν} (hp : p.ActsByMoves) : p.ActionsLead true := by
  intro shown act hc s t hs hb hrun
  cases hrun
  exact hb.leadsTo_moves (hp shown act hc s hs)

theorem actsByMoves_take (count : Nat) : (take count : Parser ν).ActsByMoves :=
  everyAction_custom_iff.2 fun s _ => .single (.advance s count _)

theorem actsByMoves_back (count : Nat) : (back count : Parser ν).ActsByMoves :=
  everyAction_custom_iff.2 fun s _ => .single (.rewind s (s.cursor - count))

end Parser

/-! ## States that can be made -/

/-- The states that can be made over an input: its start, what an operation makes of such a state,
and what a parser makes of it, alone or amid recursive parsers.  Each state may be used again and
again. -/
inductive State.Reachable (input : Input) : State ν → Prop where
  | start : Reachable input (.start input)
  | move {s t : State ν} (hs : Reachable input s) (h : s.Move t) : Reachable input t
  | run {around : Surroundings ν} (haround : ∀ r ∈ around, r.2.ActsByMoves) {p : Parser ν}
      (hp : p.ActsByMoves) {s t : State ν} (hs : Reachable input s)
      (h : p.EndsAmid around s t) : Reachable input t

namespace State.Reachable

variable {input : Input} {s : State ν}

/-- Handles keep to what the bodies of their parsers keep to. -/
theorem leads_scope {back : Bool} {around : Surroundings ν}
    (haround : ∀ r ∈ around, r.2.ActionsLead back) (b : Nat) (h : Handle) :
    (around.scope b h).Leads back := by
  refine Surroundings.forall_scope Step.leads_stray (fun r hr outer houter => ?_) h
  have hrecursive : (Parser.recursive r.1 r.2).ActionsLead back :=
    Parser.everyAction_recursive_iff.2 (haround r hr)
  exact hrecursive.step b houter

/-- **The invariant of all states:** the same input, and a cursor on a boundary. -/
theorem leadsTo_start (h : s.Reachable input) : (State.start input).LeadsTo true s := by
  induction h with
  | start => exact (onBoundary_start input).leadsTo_self
  | move _ hmove ih => exact ih.trans (ih.onBoundary.leadsTo_move hmove)
  | @run around haround p hp s t _ hends ih =>
    obtain ⟨b, hrun⟩ := hends
    rw [Parser.runFrom, Step.unlessFailed] at hrun
    split at hrun
    · cases hrun
      exact ih
    · rename_i hs
      rw [Bool.not_eq_true] at hs
      have hscope := leads_scope (fun r hr => (haround r hr).actionsLead) b
      exact ih.trans (hp.actionsLead.step b hscope s t hs ih.onBoundary hrun)

/-- **Cursors stay on boundaries.**  Every state that can be made over an input is over that input,
and its cursor lies on a boundary, not behind the end.  So a slice from the cursor on is not
refused, and is the text ahead; and over an input whose length is a word, to advance by any number
of bytes takes no number but words, and a walk back that does not pass the start. -/
theorem on_boundary (h : s.Reachable input) :
    s.input = input ∧ s.cursor ≤ input.size ∧ Text.IsBoundary input.chars s.cursor ∧
      Text.from? s.cursor input.chars = some s.rest ∧
      (input.size ≤ Text.maxWord → ∀ (n : Nat) (v : Value ν),
        Text.walkBack? input.chars (min (Text.addWord s.cursor n) input.size) =
          some (s.advance n v).cursor) := by
  have hlead := h.leadsTo_start
  have hinput : s.input = input := hlead.input
  have hb : Text.IsBoundary input.chars s.cursor := by
    have := hlead.onBoundary
    rwa [OnBoundary, hinput] at this
  refine ⟨hinput, ?_, hb, ?_, fun hsize n v => ?_⟩
  · rw [input.size_eq]
    exact hb.le_byteLength
  · rw [hb.from?_eq, rest, Input.drop_eq, hinput]
  · rw [Input.walkBack?_addWord input hsize]
    show some (input.floor (s.cursor + n)) = some (s.input.floor (s.cursor + n))
    rw [hinput]

/-- A rewind into the last letter goes to its start.  From there three bytes are taken, as far as
there are any, and one is given back, which leads into that letter again. -/
theorem on_boundary_of_back :
    ∃ s : State Nat, s.Reachable (.ofString "éaé") ∧ s.cursor = 3 ∧
      Text.IsBoundary (Input.ofString "éaé").chars s.cursor ∧
      Text.from? s.cursor (Input.ofString "éaé").chars = some s.rest ∧
      Text.walkBack? (Input.ofString "éaé").chars
          (min (Text.addWord s.cursor Text.maxWord) (Input.ofString "éaé").size) =
        some (s.advance Text.maxWord .absent).cursor := by
  have hactions : (Parser.and (.take 3) (.back 1) : Parser Nat).ActsByMoves :=
    Parser.everyAction_and_iff.2 ⟨Parser.actsByMoves_take 3, Parser.actsByMoves_back 1⟩
  have hbegin :
      ((State.start (.ofString "éaé")).rewind 4 : State Nat).Reachable (.ofString "éaé") :=
    .move .start (.rewind _ 4)
  obtain ⟨s, hends, hcursor⟩ : ∃ s : State Nat,
      (Parser.and (.take 3) (.back 1)).EndsAmid [] ((State.start (.ofString "éaé")).rewind 4) s ∧
        s.cursor = 3 :=
    ⟨((Parser.and (.take 3) (.back 1)).runFrom 1 Scope.none
        ((State.start (.ofString "éaé")).rewind 4)).get (by decide +kernel),
      ⟨1, (Option.some_get _).symm⟩, by decide +kernel⟩
  have hreach : s.Reachable (.ofString "éaé") :=
    .run (fun _ h => absurd h List.not_mem_nil) hactions hbegin hends
  obtain ⟨_, _, hb, hfrom, hwalk⟩ := hreach.on_boundary
  exact ⟨s, hreach, hcursor, hb, hfrom, hwalk (by decide +kernel) _ _⟩

end State.Reachable

end TextGrammar
