import TextGrammar.Step
import TextGrammar.Proofs.State
import TextGrammar.Proofs.Step.Repeat

/-!
# Where steps lead

Whether a step succeeds or fails, it stays on its input and between characters, and it does not go
back behind the place where it began, unless actions that are given by the user do.

* `State.LeadsTo` — a state may come behind another one.
* `Step.Leads` — a step ends in such states only.  The flag tells whether going back is allowed, so
  that both laws, that of boundaries and that of progress, are proved by one set of lemmas.
* `Step.leads_literal` to `Step.leads_fix` — every way to put steps together keeps this.
-/

namespace TextGrammar

variable {ν : Type} {back : Bool}

/-- The state `t` may come behind `s`: it is over the same input, on a boundary, and not before `s`
unless it is allowed to go back. -/
structure State.LeadsTo (back : Bool) (s t : State ν) : Prop where
  input : t.input = s.input
  onBoundary : t.OnBoundary
  onward : back = false → s.cursor ≤ t.cursor

/-- A step that leads to such states, failed or not, from states that have not failed. -/
def Step.Leads (back : Bool) (p : Step ν) : Prop :=
  ∀ s t : State ν, s.failed = false → s.OnBoundary → p s = some t → s.LeadsTo back t

/-! ## States -/

namespace State

variable {s t u : State ν}

theorem OnBoundary.leadsTo_self (hb : s.OnBoundary) : s.LeadsTo back s :=
  ⟨rfl, hb, fun _ => Nat.le_refl _⟩

theorem OnBoundary.leadsTo_advance (hb : s.OnBoundary) (n : Nat) (v : Value ν) :
    s.LeadsTo back (s.advance n v) := by
  refine ⟨rfl, onBoundary_advance s n v, fun _ => ?_⟩
  rw [hb.cursor_advance]
  exact Nat.le_add_right _ _

namespace LeadsTo

theorem trans (h : s.LeadsTo back t) (h' : t.LeadsTo back u) : s.LeadsTo back u :=
  ⟨h'.input.trans h.input, h'.onBoundary, fun hback =>
    Nat.le_trans (h.onward hback) (h'.onward hback)⟩

/-- Where a state leads depends on the place only. -/
theorem of_samePlace (h : s.LeadsTo back t) (hplace : t.SamePlace u) : s.LeadsTo back u :=
  ⟨hplace.input.symm.trans h.input, hplace.onBoundary_iff.1 h.onBoundary, fun hback => by
    rw [← hplace.cursor]
    exact h.onward hback⟩

theorem collected (h : s.LeadsTo back t) : s.LeadsTo back t.collected :=
  h.of_samePlace (samePlace_collected t)

theorem succeed (h : s.LeadsTo back t) (v : Value ν) : s.LeadsTo back (t.succeed v) :=
  h.of_samePlace (h.onBoundary.samePlace_succeed v)

theorem fail (h : s.LeadsTo back t) (f : Failure) : s.LeadsTo back (t.fail f) :=
  h.of_samePlace ⟨rfl, rfl⟩

theorem collectAs (h : s.LeadsTo back t) (d : Disposition) : s.LeadsTo back (t.collectAs d) :=
  h.of_samePlace ⟨rfl, rfl⟩

theorem take (h : s.LeadsTo back t) : s.LeadsTo back t.take := h.of_samePlace ⟨rfl, rfl⟩

/-- A failure gives back what was taken, and so does not come before what it returns to. -/
theorem rewind (hu : s.LeadsTo back u) (h : u.LeadsTo back t) :
    s.LeadsTo back (t.rewind u.cursor) :=
  hu.of_samePlace (hu.onBoundary.samePlace_rewind h.input)

end LeadsTo

end State

/-! ## Single steps -/

namespace Step

variable {p q : Step ν} {ps : List (Step ν)}

theorem leads_literal (text : String) : (literal text : Step ν).Leads back := by
  intro s t _ hb hrun
  unfold literal at hrun
  split at hrun
  · cases hrun
    exact hb.leadsTo_advance _ _
  · cases hrun
    exact hb.leadsTo_self.fail _

theorem leads_pattern (pattern : Pattern) : (Step.pattern pattern : Step ν).Leads back := by
  intro s t _ hb hrun
  unfold Step.pattern at hrun
  split at hrun
  · cases hrun
    exact hb.leadsTo_advance _ _
  · cases hrun
    exact hb.leadsTo_self.fail _

theorem leads_endOfInput : (endOfInput : Step ν).Leads back := by
  intro s t _ hb hrun
  unfold endOfInput at hrun
  split at hrun
  · cases hrun
    exact (hb.leadsTo_self.succeed _).collectAs _
  · cases hrun
    exact hb.leadsTo_self.fail _

theorem leads_stray : (stray : Step ν).Leads back := by
  intro s t _ hb hrun
  cases hrun
  exact hb.leadsTo_self.of_samePlace ⟨rfl, rfl⟩

theorem leads_collectedAs (d : Disposition) (hp : p.Leads back) :
    (collectedAs d p).Leads back := by
  intro s t hs hb hrun
  obtain ⟨u, hu, hrun⟩ := Option.bind_eq_some_iff.1 hrun
  have hlead := hp s u hs hb hu
  split at hrun
  · cases hrun
    exact hlead
  · cases hrun
    exact hlead.collectAs d

theorem leads_mapWithLine (f : Value ν → Nat → Value ν) (hp : p.Leads back) :
    (mapWithLine f p).Leads back := by
  intro s t hs hb hrun
  obtain ⟨u, hu, hrun⟩ := Option.bind_eq_some_iff.1 hrun
  have hlead := hp s u hs hb hu
  split at hrun
  · cases hrun
    exact hlead
  · cases hrun
    exact hlead.succeed _

theorem leads_map (f : Value ν → Value ν) (hp : p.Leads back) : (map f p).Leads back :=
  leads_mapWithLine (fun v _ => f v) hp

/-- A recovered failure goes on where it failed. -/
theorem leads_recover (f : ParseError → Value ν) (hp : p.Leads back) :
    (recover f p).Leads back := by
  intro s t hs hb hrun
  obtain ⟨u, hu, hrun⟩ := Option.bind_eq_some_iff.1 hrun
  have hlead := hp s u hs hb hu
  split at hrun
  · cases hrun
    exact hlead.collectAs .keep
  · cases hrun
    exact (hlead.rewind hlead.onBoundary.leadsTo_self).succeed _

/-- Where a failure is recovered, the parse goes on. -/
theorem exists_recover_of_failed (f : ParseError → Value ν) {s t : State ν} (hrun : p s = some t)
    (hf : t.failed = true) (hb : t.OnBoundary) :
    ∃ u, recover f p s = some u ∧ u.failed = false ∧ t.SamePlace u := by
  obtain ⟨e, he⟩ : ∃ e, t.error? = some e := by
    obtain ⟨failure, hfailure⟩ := Option.isSome_iff_exists.1 hf
    rw [State.error?, hfailure]
    exact ⟨_, rfl⟩
  have hagain : t.LeadsTo true (t.rewind t.cursor) := hb.leadsTo_self.rewind hb.leadsTo_self
  have hplace := hb.samePlace_rewind (t := t) rfl
  have hplace' := hagain.onBoundary.samePlace_succeed ((f e).onLine e.line)
  refine ⟨(t.rewind t.cursor).succeed ((f e).onLine e.line), ?_, rfl, rfl,
    hplace.cursor.trans hplace'.cursor⟩
  simp [recover, hrun, he]

theorem leads_optional (hp : p.Leads back) : (Step.optional p).Leads back := by
  intro s t hs hb hrun
  obtain ⟨u, hu, hrun⟩ := Option.bind_eq_some_iff.1 hrun
  have hlead := hp s u hs hb hu
  split at hrun
  · cases hrun
    exact hb.leadsTo_self.rewind hlead
  · cases hrun
    exact hlead.collectAs .keep

theorem leads_chain {next : Value ν → Step ν} (hn : ∀ v, (next v).Leads back)
    (hp : p.Leads back) : (chain next p).Leads back := by
  intro s t hs hb hrun
  obtain ⟨u, hu, hrun⟩ := Option.bind_eq_some_iff.1 hrun
  have hlead := hp s u hs hb hu
  split at hrun
  · cases hrun
    exact hlead
  · rename_i hf
    rw [Bool.not_eq_true] at hf
    exact hlead.take.trans (hn u.result u.take t hf hlead.take.onBoundary hrun)

/-! ## Several steps -/

/-- Every step of a sequence goes on from where the one before it has led. -/
theorem leads_sequenceFrom (hps : ∀ p ∈ ps, p.Leads back) (items : Array (Value ν)) :
    (sequenceFrom items ps).Leads back := by
  induction ps generalizing items with
  | nil =>
    intro s t _ hb hrun
    cases hrun
    exact hb.leadsTo_self.succeed _
  | cons p ps ih =>
    intro s t hs hb hrun
    obtain ⟨u, hu, hrun⟩ := Option.bind_eq_some_iff.1 hrun
    have hlead := hps p List.mem_cons_self s u hs hb hu
    split at hrun
    · cases hrun
      exact hlead
    · rename_i hf
      rw [Bool.not_eq_true] at hf
      exact hlead.collected.trans <| ih (fun p hp => hps p (List.mem_cons_of_mem _ hp)) _
        u.collected t (u.failed_collected.trans hf) hlead.collected.onBoundary hrun

theorem leads_sequence (hps : ∀ p ∈ ps, p.Leads back) : (sequence ps).Leads back :=
  leads_sequenceFrom hps #[]

theorem leads_and (hp : p.Leads back) (hq : q.Leads back) : (Step.and p q).Leads back := by
  intro s t hs hb hrun
  obtain ⟨u, hu, hrun⟩ := Option.bind_eq_some_iff.1 hrun
  have hlead := hp s u hs hb hu
  split at hrun
  · cases hrun
    exact hlead
  · rename_i hf
    rw [Bool.not_eq_true] at hf
    obtain ⟨w, hw, hrun⟩ := Option.bind_eq_some_iff.1 hrun
    have hlead' := hlead.collected.trans <|
      hq u.collected w (u.failed_collected.trans hf) hlead.collected.onBoundary hw
    split at hrun
    · cases hrun
      exact hlead'
    · cases hrun
      exact (hlead'.succeed _).collectAs .splice

/-- The right branch starts where the left one did, so neither leads back behind that. -/
theorem leads_or (left right : String) (hp : p.Leads back) (hq : q.Leads back) :
    (Step.or left right p q).Leads back := by
  intro s t hs hb hrun
  obtain ⟨u, hu, hrun⟩ := Option.bind_eq_some_iff.1 hrun
  have hlead := hp s u hs hb hu
  split at hrun
  · have hagain : s.LeadsTo back (u.rewind s.cursor) := hb.leadsTo_self.rewind hlead
    obtain ⟨w, hw, hrun⟩ := Option.bind_eq_some_iff.1 hrun
    have hright := hagain.trans (hq _ w rfl hagain.onBoundary hw)
    split at hrun
    · cases hrun
      exact (hb.leadsTo_self.rewind hright).fail _
    · cases hrun
      exact hright
  · cases hrun
    exact hlead

theorem leads_choice (hps : ∀ p ∈ ps, p.Leads back) : (choice ps).Leads back := by
  suffices h : ∀ s s' t : State ν, s.OnBoundary → s'.failed = false → s.LeadsTo back s' →
      choiceFrom s.cursor ps s' = some t → s.LeadsTo back t from
    fun s t hs hb hrun => h s s t hb hs hb.leadsTo_self hrun
  induction ps with
  | nil =>
    intro s s' t _ _ h hrun
    cases hrun
    exact h.fail _
  | cons p ps ih =>
    intro s s' t hb hs' h hrun
    obtain ⟨u, hu, hrun⟩ := Option.bind_eq_some_iff.1 hrun
    have hlead := h.trans (hps p List.mem_cons_self s' u hs' h.onBoundary hu)
    split at hrun
    · exact ih (fun p hp => hps p (List.mem_cons_of_mem _ hp)) s _ t hb rfl
        (hb.leadsTo_self.rewind hlead) hrun
    · cases hrun
      exact hlead.collectAs .keep

end Step

/-! ## Repetition

Between two rounds the state has not failed, and lies where the rounds so far have led. -/

/-- The rounds that have been gathered have led from `s` to where the next one begins. -/
structure Harvest.LedFrom (back : Bool) (s : State ν) (h : Harvest ν) : Prop where
  live : h.state.failed = false
  led : s.LeadsTo back h.state

namespace Harvest.LedFrom

variable {h : Harvest ν} {s t u : State ν} {p q : Step ν}

theorem start (hs : s.failed = false) (hb : s.OnBoundary) : (Harvest.start s).LedFrom back s :=
  ⟨hs, hb.leadsTo_self⟩

theorem leadsTo (hh : h.LedFrom back s) (hp : p.Leads back) (hrun : p h.state = some t) :
    h.state.LeadsTo back t := hp h.state t hh.live hh.led.onBoundary hrun

theorem add (hh : h.LedFrom back s) (hp : p.Leads back) (hrun : p h.state = some t)
    (hf : t.failed = false) : (h.add t).LedFrom back s :=
  ⟨t.failed_collected.trans hf, (hh.led.trans (hh.leadsTo hp hrun)).collected⟩

theorem giveBack (hh : h.LedFrom back s) (hp : p.Leads back) (hrun : p h.state = some t) :
    (h.stop (t.rewind h.state.cursor)).LedFrom back s :=
  ⟨rfl, hh.led.rewind (hh.leadsTo hp hrun)⟩

end Harvest.LedFrom

namespace Step

variable {p q : Step ν}

theorem manyFrom_ledFrom (hp : p.Leads back) {s : State ν} (hs : s.failed = false)
    (hb : s.OnBoundary) {budget : Nat} {h : Harvest ν}
    (hrun : manyFrom p budget (.start s) = some h) : h.LedFrom back s :=
  manyFrom_invariant (I := Harvest.LedFrom back s) (fun _ _ hI ht _ => hI.giveBack hp ht)
    (fun _ _ hI ht hf => hI.add hp ht hf) (.start hs hb) hrun

theorem leads_many (budget least : Nat) (label : String) (hp : p.Leads back) :
    Step.Leads back (many budget least label p) := by
  intro s t hs hb hrun
  obtain ⟨h, hh, hrun⟩ := Option.bind_eq_some_iff.1 hrun
  have hled := manyFrom_ledFrom hp hs hb hh
  split at hrun
  · cases hrun
    exact (hb.leadsTo_self.rewind hled.led).fail _
  · cases hrun
    exact hled.led.succeed _

theorem separatedFrom_ledFrom (hp : p.Leads back) (hq : q.Leads back) {s : State ν}
    (hs : s.failed = false) (hb : s.OnBoundary) {budget : Nat} {h : Harvest ν}
    (hrun : separatedFrom p q budget (.start s) = some h) : h.LedFrom back s := by
  refine separatedFrom_invariant (I := Harvest.LedFrom back s)
    (fun _ _ hI ht _ => hI.giveBack hp ht) (fun h t u hI ht hf hu _ => ?_)
    (fun h t u hI ht hf hu hg => ?_) (.start hs hb) hrun
  · have hI' := (hI.add hp ht hf).giveBack hq hu
    rw [Harvest.add, State.cursor_collected] at hI'
    exact hI'
  · have hI' := hI.add hp ht hf
    exact ⟨hg, hI'.led.trans (hI'.leadsTo hq hu)⟩

theorem leads_separated (budget least : Nat) (valueLabel separatorLabel : String)
    (hp : p.Leads back) (hq : q.Leads back) :
    Step.Leads back (separated budget least valueLabel separatorLabel p q) := by
  intro s t hs hb hrun
  obtain ⟨h, hh, hrun⟩ := Option.bind_eq_some_iff.1 hrun
  have hled := separatedFrom_ledFrom hp hq hs hb hh
  split at hrun
  · cases hrun
    exact (hb.leadsTo_self.rewind hled.led).fail _
  · cases hrun
    exact hled.led.succeed _

theorem leads_all (budget : Nat) (label : String) (hp : p.Leads back) :
    Step.Leads back (all budget label p) := by
  intro s t hs hb hrun
  rcases allFrom_cases (I := Harvest.LedFrom back s) (fun _ _ hI ht hf => hI.add hp ht hf)
    (.start hs hb) hrun with ⟨h, hI, ht, _⟩ | ⟨h, hI, _, rfl⟩ | ⟨h, hI, _, rfl⟩
  · exact hI.led.trans (hI.leadsTo hp ht)
  · exact hI.led.succeed _
  · exact hI.led.fail _

/-! ## Recursion -/

/-- What the body of a recursion keeps, the recursion has. -/
theorem leads_fix {body : Step ν → Step ν} (h : ∀ p : Step ν, p.Leads back → (body p).Leads back)
    (budget : Nat) : (fix body budget).Leads back := by
  induction budget with
  | zero =>
    intro s t _ _ hrun
    cases hrun
  | succ budget ih => exact h _ ih

end Step

theorem Scope.leads_none (h : Handle) : (Scope.none h : Step ν).Leads back := Step.leads_stray

end TextGrammar
