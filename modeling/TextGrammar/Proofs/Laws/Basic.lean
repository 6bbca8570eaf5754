import TextGrammar.Proofs.Independence
import TextGrammar.Proofs.Parser.Endings
import TextGrammar.Proofs.Reachable
import TextGrammar.Proofs.Termination

/-!
# What laws of parsers speak of

Laws say that grammars which are put together in different ways do the same.  They hold of parsers
that do not look back, so that it does not matter what has been run in front of them.

* `State.SameOutcome.spliced_eq` and others — what the same outcomes have in common.
* `State.GivesUp` — how a parser fails that has gone back to where it started.
* `Parser.Independent` — parsers that do not look back, told by what they do.  Handles in them stand
  for recursive parsers that are around.
* `Parser.independent_of_actions` — parsers whose actions do not look back, and are made of
  operations on states, are such parsers.
* `State.fresh` — a place alone; `Parser.Onward`, `Parser.EndsOver` — parsers that do not go back, and
  those that end wherever they are run.
* `Bracketing` — the ways to put any number of operands together by an operation for two.
-/

namespace TextGrammar

variable {ν : Type}

/-! ## The same outcomes -/

namespace State.SameOutcome

variable {t t' : State ν}

theorem refl (t : State ν) : t.SameOutcome t := ⟨⟨rfl, rfl⟩, rfl, fun _ => rfl, fun _ => rfl⟩

theorem failed_eq (h : t.SameOutcome t') : t.failed = t'.failed := by
  rw [failed, failed, h.failure]

theorem symm (h : t.SameOutcome t') : t'.SameOutcome t where
  input := h.input.symm
  cursor := h.cursor.symm
  failure := h.failure.symm
  result ht := (h.result (h.failed_eq.trans ht)).symm
  disposition ht := (h.disposition (h.failed_eq.trans ht)).symm

theorem spliced_eq (h : t.SameOutcome t') (ht : t.failed = false) : t.spliced = t'.spliced := by
  rw [spliced, spliced, h.result ht, h.disposition ht]

theorem kept_eq (h : t.SameOutcome t') (ht : t.failed = false) : t.kept = t'.kept := by
  rw [kept, kept, h.result ht, h.disposition ht]

theorem collectAs (h : t.SameOutcome t') (d : Disposition) :
    (t.collectAs d).SameOutcome (t'.collectAs d) :=
  ⟨⟨h.input, h.cursor⟩, h.failure, h.result, fun _ => rfl⟩

theorem joined {u u' : State ν} (hu : u.SameOutcome u') (huf : u.failed = false)
    (ht : t.SameOutcome t') (htf : t.failed = false) :
    (u.joined t).SameOutcome (u'.joined t') := by
  rw [State.joined, State.joined, hu.spliced_eq huf, ht.spliced_eq htf]
  exact (ht.toSamePlace.advance 0 _).collectAs .splice

end State.SameOutcome

/-! ## Giving up -/

/-- The state `t` has failed for a reason of the kind where `s` is, with nothing produced. -/
structure State.GivesUp (s : State ν) (kind : FailureKind) (t : State ν) : Prop
    extends s.SamePlace t where
  failure : t.failure.map Failure.kind = some kind
  result : t.result = .absent
  disposition : t.disposition = .keep

/-- To go back to a place and fail is to give up there, however far the parse had come. -/
theorem State.OnBoundary.givesUp_rewind {s t : State ν} (hb : s.OnBoundary)
    (hinput : t.input = s.input) (f : Failure) :
    s.GivesUp f.kind ((t.rewind s.cursor).fail f) where
  input := (hb.samePlace_rewind hinput).input
  cursor := (hb.samePlace_rewind hinput).cursor
  failure := rfl
  result := rfl
  disposition := rfl

theorem State.GivesUp.of_samePlace {s s' t : State ν} {kind : FailureKind}
    (h : s'.GivesUp kind t) (hplace : s.SamePlace s') : s.GivesUp kind t :=
  ⟨hplace.trans h.toSamePlace, h.failure, h.result, h.disposition⟩

/-! ## Independent parsers -/

namespace Parser

variable {around : Surroundings ν} {p : Parser ν}

/-- The parser stays on its input and between characters, and where it ends depends on the place
only, and not on what was produced before; it ends from all states at a place or from none. -/
structure Independent (around : Surroundings ν) (p : Parser ν) : Prop where
  leads : ∀ s t : State ν, s.failed = false → s.OnBoundary → p.EndsAmid around s t →
    s.LeadsTo true t
  alike : ∀ s s' t : State ν, s.failed = false → s'.failed = false → s.OnBoundary →
    s.SamePlace s' → p.EndsAmid around s t → ∃ t', p.EndsAmid around s' t' ∧ t.SameOutcome t'

/-- Every parser stays on its input and between characters whose actions are made of operations on
states. -/
theorem ActsByMoves.leadsTo_of_endsAmid (hp : p.ActsByMoves)
    (haround : ∀ r ∈ around, r.2.ActsByMoves) {s t : State ν} (hs : s.failed = false)
    (hb : s.OnBoundary) (hends : p.EndsAmid around s t) : s.LeadsTo true t := by
  obtain ⟨b, hrun⟩ := (endsAmid_iff_step hs).1 hends
  have hscope := State.Reachable.leads_scope fun r hr => (haround r hr).actionsLead
  exact hp.actionsLead.step b (hscope b) s t hs hb hrun

/-- **Parsers are independent if their actions are**, and those of the recursive parsers around
them, and if these are made of operations on states. -/
theorem independent_of_actions (hmoves : p.ActsByMoves) (hindependent : p.ActsIndependently)
    (haround : ∀ r ∈ around, r.2.ActsByMoves ∧ r.2.ActsIndependently) : p.Independent around where
  leads _ _ hs hb hends := hmoves.leadsTo_of_endsAmid (fun r hr => (haround r hr).1) hs hb hends
  alike _ _ _ hs hs' _ hplace hends :=
    hindependent.exists_sameOutcome (fun r hr => (haround r hr).2) hs hs' hplace hends

/-- Parsers of the library alone look at nothing but the input. -/
theorem independent_of_actionless (hp : p.EveryAction fun _ => False) : p.Independent [] :=
  independent_of_actions (fun shown act h => (hp shown act h).elim)
    (fun shown act h => (hp shown act h).elim) nofun

end Parser

/-! ## At a place -/

/-- The state at an offset of an input in which nothing has been produced before. -/
def State.fresh (input : Input) (offset : Nat) : State ν := { State.start input with cursor := offset }

theorem State.samePlace_fresh (s : State ν) : s.SamePlace (fresh s.input s.cursor) := ⟨rfl, rfl⟩

namespace Parser

variable {around : Surroundings ν} {p : Parser ν} {s t : State ν}

/-- What the parser does from a state, it does from the place of that state alone. -/
theorem Independent.exists_fresh (hp : p.Independent around) (hs : s.failed = false)
    (hb : s.OnBoundary) (ht : p.EndsAmid around s t) :
    ∃ u, p.EndsAmid around (.fresh s.input s.cursor) u ∧ u.SameOutcome t := by
  obtain ⟨u, hu, hout⟩ := hp.alike s _ t hs rfl hb s.samePlace_fresh ht
  exact ⟨u, hu, hout.symm⟩

/-- What the parser does from a place alone, it does from every state there. -/
theorem Independent.exists_at (hp : p.Independent around) (hs : s.failed = false)
    (hb : s.OnBoundary) {input : Input} {offset : Nat} {u : State ν}
    (hplace : (State.fresh input offset).SamePlace s)
    (hu : p.EndsAmid around (.fresh input offset) u) :
    ∃ t, p.EndsAmid around s t ∧ u.SameOutcome t ∧ s.LeadsTo true t := by
  obtain ⟨t, ht, hout⟩ := hp.alike _ s u rfl hs (hplace.onBoundary_iff.2 hb) hplace hu
  exact ⟨t, ht, hout, hp.leads s t hs hb ht⟩

/-- The parser does not go back. -/
def Onward (around : Surroundings ν) (p : Parser ν) : Prop :=
  ∀ s t : State ν, s.failed = false → s.OnBoundary → p.EndsAmid around s t → s.cursor ≤ t.cursor

theorem Onward.leads (honward : p.Onward around) (hp : p.Independent around)
    (hs : s.failed = false) (hb : s.OnBoundary) (ht : p.EndsAmid around s t) :
    s.LeadsTo false t where
  input := (hp.leads s t hs hb ht).input
  onBoundary := (hp.leads s t hs hb ht).onBoundary
  onward _ := honward s t hs hb ht

/-- Parsers do not go back if their actions and those of the recursive parsers around them do not. -/
theorem onward_of_actions (hp : p.ActionsLead false)
    (haround : ∀ r ∈ around, r.2.ActionsLead false) : p.Onward around := by
  intro s t hs hb ht
  obtain ⟨b, hrun⟩ := (endsAmid_iff_step hs).1 ht
  exact (hp.step b (State.Reachable.leads_scope haround b) s t hs hb hrun).onward rfl

theorem onward_of_actionless (hp : p.EveryAction fun _ => False) : p.Onward [] :=
  onward_of_actions (fun shown act h => (hp shown act h).elim) nofun

/-- The parser ends from every state over the input. -/
def EndsOver (around : Surroundings ν) (p : Parser ν) (input : Input) : Prop :=
  ∀ s : State ν, s.failed = false → s.OnBoundary → s.input = input → ∃ t, p.EndsAmid around s t

/-- Guarded grammars end over every input. -/
theorem endsOver_of_guarded (hg : p.Guarded []) (hp : p.ActionsLead false) (input : Input) :
    p.EndsOver [] input := by
  intro s _ hb _
  obtain ⟨t, ht⟩ := hg.exists_runFrom hp hb (Nat.lt_succ_self s.ahead)
  exact ⟨t, _, ht⟩

end Parser

/-! ## Brackets -/

/-- Operands in order, with brackets that put two at a time together. -/
inductive Bracketing (α : Type) where
  | operand (a : α)
  | pair (left right : Bracketing α)

namespace Bracketing

variable {α : Type}

/-- The operands, without brackets. -/
def operands : Bracketing α → List α
  | operand a => [a]
  | pair left right => left.operands ++ right.operands

/-- The operands put together by an operation, as the brackets say. -/
def join (op : α → α → α) : Bracketing α → α
  | operand a => a
  | pair left right => op (left.join op) (right.join op)

theorem exists_eq_pair {b : Bracketing α} (h : 2 ≤ b.operands.length) :
    ∃ left right, b = pair left right := by
  cases b with
  | operand a => exact absurd h (Nat.lt_irrefl 1)
  | pair left right => exact ⟨left, right, rfl⟩

end Bracketing

end TextGrammar
