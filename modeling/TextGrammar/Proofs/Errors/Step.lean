import TextGrammar.Proofs.Progress.Step

/-!
# What failures tell

A failure is made by one step, and passed on, dropped or replaced by the steps around it.  Its place
is kept apart from it, in the state, and so has to be right wherever the failure comes to.

* `Step.Tells` — every failure with which a step ends is true of the input at the place where it
  ends.  What that means is left open here.
* `Step.FailsAtPlaceOf` — what a step that makes a failure of others knows about them.
* `Step.tells_sequence`, `Step.tells_chain` and others — a failure that is passed on stays true.
* `Step.tells_or`, `Step.tells_choice`, `Step.tells_many`, `Step.tells_separated` — a step that goes
  back makes a new failure, which has to be true where the step began.
-/

namespace TextGrammar

variable {ν : Type} {T : Input → Nat → Failure → Prop} {back : Bool}

namespace State

variable {s t : State ν} {f : Failure}

theorem SamePlace.fail (h : s.SamePlace t) (f : Failure) : s.SamePlace (t.fail f) :=
  ⟨h.input, h.cursor⟩

/-- What is true at a place is true of every state there. -/
theorem SamePlace.true_of (hplace : s.SamePlace t) (h : T s.input s.cursor f) :
    T t.input t.cursor f := by
  rwa [← hplace.input, ← hplace.cursor]

theorem failed_of_failure (h : t.failure = some f) : t.failed = true :=
  Option.isSome_iff_exists.2 ⟨f, h⟩

end State

namespace Step

/-- Every failure with which the step ends is true of the input and of the place where it ends. -/
def Tells (T : Input → Nat → Failure → Prop) (p : Step ν) : Prop :=
  ∀ (s t : State ν) (f : Failure), s.failed = false → s.OnBoundary → p s = some t →
    t.failure = some f → T t.input t.cursor f

/-- From some state at the same place, the step fails. -/
def FailsAtPlaceOf (p : Step ν) (s : State ν) : Prop :=
  ∃ s' t, s'.failed = false ∧ s.SamePlace s' ∧ p s' = some t ∧ t.failed = true

variable {p q : Step ν} {ps : List (Step ν)}

theorem tells_of_succeeds (h : ∀ s t, p s = some t → t.failed = false) : p.Tells T := by
  intro s t f _ _ hrun hf
  exact Bool.noConfusion ((h s t hrun).symm.trans (State.failed_of_failure hf))

/-! ## Failures to match -/

theorem tells_literal {text : String}
    (h : ∀ s : State ν, ¬ text.toList <+: s.rest → T s.input s.cursor (.literal text s.rest)) :
    (literal text : Step ν).Tells T := by
  intro s t f _ _ hrun hf
  unfold literal at hrun
  split at hrun
  · cases hrun
    cases hf
  · rename_i hprefix
    cases hrun
    cases hf
    exact h s fun hp => hprefix (List.isPrefixOf_iff_prefix.2 hp)

theorem tells_pattern {pattern : Pattern}
    (h : ∀ s : State ν, pattern.find s.rest = none →
      T s.input s.cursor (.pattern pattern.source s.rest)) :
    (Step.pattern pattern : Step ν).Tells T := by
  intro s t f _ _ hrun hf
  unfold Step.pattern at hrun
  split at hrun
  · cases hrun
    cases hf
  · rename_i hfind
    cases hrun
    cases hf
    exact h s hfind

theorem tells_endOfInput
    (h : ∀ s : State ν, s.cursor < s.input.size → T s.input s.cursor (.trailing s.rest)) :
    (endOfInput : Step ν).Tells T := by
  intro s t f _ hb hrun hf
  unfold endOfInput at hrun
  split at hrun
  · cases hrun
    cases hf
  · rename_i hend
    cases hrun
    cases hf
    exact h s (hb.cursor_lt (by simpa using hend))

/-! ## Failures that are passed on -/

theorem tells_collectedAs (d : Disposition) (hp : p.Tells T) : (collectedAs d p).Tells T := by
  intro s t f hs hb hrun hf
  obtain ⟨u, hu, hrun⟩ := Option.bind_eq_some_iff.1 hrun
  split at hrun
  · cases hrun
    exact hp s t f hs hb hu hf
  · cases hrun
    exact hp s u f hs hb hu hf

theorem tells_mapWithLine (f : Value ν → Nat → Value ν) (hp : p.Tells T) :
    (mapWithLine f p).Tells T := by
  intro s t failure hs hb hrun hf
  obtain ⟨u, hu, hrun⟩ := Option.bind_eq_some_iff.1 hrun
  split at hrun
  · cases hrun
    exact hp s t failure hs hb hu hf
  · cases hrun
    cases hf

theorem tells_map (f : Value ν → Value ν) (hp : p.Tells T) : (map f p).Tells T :=
  tells_mapWithLine (fun v _ => f v) hp

theorem tells_recover (f : ParseError → Value ν) : (recover f p).Tells T := by
  refine tells_of_succeeds fun s t hrun => ?_
  obtain ⟨u, _, hrun⟩ := Option.bind_eq_some_iff.1 hrun
  split at hrun
  · rename_i hnone
    cases hrun
    have hfailure : u.failure = none := by simpa [State.error?] using hnone
    rw [State.failed_collectAs, State.failed, hfailure]
    rfl
  · cases hrun
    rfl

theorem tells_optional : (Step.optional p).Tells T := by
  refine tells_of_succeeds fun s t hrun => ?_
  obtain ⟨u, _, hrun⟩ := Option.bind_eq_some_iff.1 hrun
  split at hrun
  · cases hrun
    rfl
  · rename_i hf
    rw [Bool.not_eq_true] at hf
    cases hrun
    exact hf

theorem tells_chain {next : Value ν → Step ν} (hlead : p.Leads back) (hp : p.Tells T)
    (hn : ∀ v, (next v).Tells T) : (chain next p).Tells T := by
  intro s t f hs hb hrun hf
  obtain ⟨u, hu, hrun⟩ := Option.bind_eq_some_iff.1 hrun
  split at hrun
  · cases hrun
    exact hp s t f hs hb hu hf
  · rename_i hu'
    rw [Bool.not_eq_true] at hu'
    exact hn u.result u.take t f hu' (hlead s u hs hb hu).take.onBoundary hrun hf

theorem tells_sequenceFrom (hlead : ∀ p ∈ ps, p.Leads back) (hps : ∀ p ∈ ps, p.Tells T)
    (items : Array (Value ν)) : (sequenceFrom items ps).Tells T := by
  induction ps generalizing items with
  | nil =>
    refine tells_of_succeeds fun s t hrun => ?_
    cases hrun
    rfl
  | cons p ps ih =>
    intro s t f hs hb hrun hf
    obtain ⟨u, hu, hrun⟩ := Option.bind_eq_some_iff.1 hrun
    split at hrun
    · cases hrun
      exact hps p List.mem_cons_self s t f hs hb hu hf
    · rename_i hu'
      rw [Bool.not_eq_true] at hu'
      have hled := (hlead p List.mem_cons_self s u hs hb hu).collected
      exact ih (fun p hp => hlead p (List.mem_cons_of_mem _ hp))
        (fun p hp => hps p (List.mem_cons_of_mem _ hp)) _ u.collected t f
        (u.failed_collected.trans hu') hled.onBoundary hrun hf

theorem tells_sequence (hlead : ∀ p ∈ ps, p.Leads back) (hps : ∀ p ∈ ps, p.Tells T) :
    (sequence ps).Tells T := tells_sequenceFrom hlead hps #[]

theorem tells_and (hlead : p.Leads back) (hp : p.Tells T) (hq : q.Tells T) :
    (Step.and p q).Tells T := by
  intro s t f hs hb hrun hf
  obtain ⟨u, hu, hrun⟩ := Option.bind_eq_some_iff.1 hrun
  split at hrun
  · cases hrun
    exact hp s t f hs hb hu hf
  · rename_i hu'
    rw [Bool.not_eq_true] at hu'
    have hled := (hlead s u hs hb hu).collected
    obtain ⟨w, hw, hrun⟩ := Option.bind_eq_some_iff.1 hrun
    split at hrun
    · cases hrun
      exact hq u.collected t f (u.failed_collected.trans hu') hled.onBoundary hw hf
    · cases hrun
      cases hf

/-! ## Failures made of other failures -/

/-- Both branches have failed where the choice began. -/
theorem tells_or {left right : String} (hp : p.Leads back) (hq : q.Leads back)
    (h : ∀ s : State ν, p.FailsAtPlaceOf s → q.FailsAtPlaceOf s →
      T s.input s.cursor (.neither left right)) :
    (Step.or left right p q).Tells T := by
  intro s t f hs hb hrun hf
  obtain ⟨u, hu, hrun⟩ := Option.bind_eq_some_iff.1 hrun
  have hled := hp s u hs hb hu
  split at hrun
  · rename_i hu'
    have hagain : s.SamePlace (u.rewind s.cursor) := hb.samePlace_rewind hled.input
    obtain ⟨w, hw, hrun⟩ := Option.bind_eq_some_iff.1 hrun
    have hled' := hq (u.rewind s.cursor) w rfl (hagain.onBoundary_iff.1 hb) hw
    split at hrun
    · rename_i hw'
      cases hrun
      cases hf
      have hplace : s.SamePlace (w.rewind s.cursor) :=
        hb.samePlace_rewind (hled'.input.trans hagain.input.symm)
      have htrue := h s ⟨s, u, hs, ⟨rfl, rfl⟩, hu, hu'⟩ ⟨u.rewind s.cursor, w, rfl, hagain, hw, hw'⟩
      exact (hplace.fail _).true_of htrue
    · rename_i hw'
      cases hrun
      exact absurd (State.failed_of_failure hf) hw'
  · rename_i hu'
    cases hrun
    exact absurd (State.failed_of_failure hf) hu'

/-- All branches have failed where the choice began. -/
theorem tells_choice (hps : ∀ p ∈ ps, p.Leads back)
    (h : ∀ s : State ν, (∀ p ∈ ps, p.FailsAtPlaceOf s) → T s.input s.cursor .noAlternative) :
    (choice ps).Tells T := by
  suffices hall : ∀ (s s' t : State ν) (f : Failure), s.OnBoundary → s'.failed = false →
      s.SamePlace s' → choiceFrom s.cursor ps s' = some t → t.failure = some f →
        f = .noAlternative ∧ s.SamePlace t ∧ ∀ p ∈ ps, p.FailsAtPlaceOf s by
    intro s t f hs hb hrun hf
    obtain ⟨rfl, hplace, hfail⟩ := hall s s t f hb hs ⟨rfl, rfl⟩ hrun hf
    exact hplace.true_of (h s hfail)
  clear h
  induction ps with
  | nil =>
    intro s s' t f _ _ hplace hrun hf
    cases hrun
    cases hf
    exact ⟨rfl, hplace.fail _, fun _ hp => absurd hp List.not_mem_nil⟩
  | cons p ps ih =>
    intro s s' t f hb hs' hplace hrun hf
    obtain ⟨u, hu, hrun⟩ := Option.bind_eq_some_iff.1 hrun
    split at hrun
    · rename_i hu'
      have hled := hps p List.mem_cons_self s' u hs' (hplace.onBoundary_iff.1 hb) hu
      have hagain := hb.samePlace_rewind (hled.input.trans hplace.input.symm)
      obtain ⟨hf, hplace', hfail⟩ :=
        ih (fun p hp => hps p (List.mem_cons_of_mem _ hp)) s _ t f hb rfl hagain hrun hf
      refine ⟨hf, hplace', fun r hr => ?_⟩
      rcases List.mem_cons.1 hr with rfl | hr
      · exact ⟨s', u, hs', hplace, hu, hu'⟩
      · exact hfail r hr
    · rename_i hu'
      cases hrun
      exact absurd (State.failed_of_failure hf) hu'

/-- A repetition without any round has failed in the first one. -/
theorem exists_failed_of_manyFrom {b : Nat} {s : State ν} {g : Harvest ν}
    (hrun : manyFrom p b (.start s) = some g) (hcount : g.count < 1) :
    ∃ t, p s = some t ∧ t.failed = true := by
  cases b with
  | zero => cases hrun
  | succ b =>
    obtain ⟨t, ht, hrun⟩ := Option.bind_eq_some_iff.1 hrun
    split at hrun
    · rename_i hf
      exact ⟨t, ht, hf⟩
    · have hone : 1 ≤ ((Harvest.start s).add t).count := Nat.le_refl 1
      split at hrun
      · cases hrun
        omega
      · have hmore : 1 ≤ g.count :=
          manyFrom_invariant (I := fun h => 1 ≤ h.count) (fun _ _ h _ _ => h)
            (fun _ _ h _ _ => Nat.le_succ_of_le h) hone hrun
        omega

/-- Where one round is needed, the first one has failed, at the place where the step began. -/
theorem tells_many {b least : Nat} {label : String} (hleast : least ≤ 1) (hp : p.Leads back)
    (h : ∀ (s : State ν) (rest : List Char), least = 1 → p.FailsAtPlaceOf s →
      T s.input s.cursor (.tooFew least label rest)) :
    Step.Tells T (many b least label p) := by
  intro s t f hs hb hrun hf
  obtain ⟨g, hg, hrun⟩ := Option.bind_eq_some_iff.1 hrun
  have hled := (manyFrom_ledFrom hp hs hb hg).led
  split at hrun
  · rename_i hcount
    cases hrun
    cases hf
    obtain ⟨t, ht, ht'⟩ := exists_failed_of_manyFrom hg (Nat.lt_of_lt_of_le hcount hleast)
    have htrue := h s g.state.rest (by omega) ⟨s, t, hs, ⟨rfl, rfl⟩, ht, ht'⟩
    exact ((hb.samePlace_rewind hled.input).fail _).true_of htrue
  · cases hrun
    cases hf

theorem tells_separated {b least : Nat} {valueLabel separatorLabel : String} (hp : p.Leads back)
    (hq : q.Leads back)
    (h : ∀ (s : State ν) (g : Harvest ν) (rest : List Char), s.failed = false → s.OnBoundary →
      separatedFrom p q b (.start s) = some g → g.count < least →
        T s.input s.cursor (.tooFewSeparated least valueLabel separatorLabel rest)) :
    Step.Tells T (separated b least valueLabel separatorLabel p q) := by
  intro s t f hs hb hrun hf
  obtain ⟨g, hg, hrun⟩ := Option.bind_eq_some_iff.1 hrun
  have hled := (separatedFrom_ledFrom hp hq hs hb hg).led
  split at hrun
  · rename_i hcount
    cases hrun
    cases hf
    have htrue := h s g g.state.rest hs hb hg hcount
    exact ((hb.samePlace_rewind hled.input).fail _).true_of htrue
  · cases hrun
    cases hf

/-- A repetition up to the end of the input passes on the failure of a round, and otherwise fails
before that end. -/
theorem tells_all {b : Nat} {label : String} (hlead : p.Leads back) (hp : p.Tells T)
    (h : ∀ s : State ν, s.cursor < s.input.size → T s.input s.cursor (.stalled label s.rest)) :
    Step.Tells T (all b label p) := by
  intro s t f hs hb hrun hf
  rcases allFrom_cases (I := Harvest.LedFrom back s) (fun _ _ hI ht hf => hI.add hlead ht hf)
    (.start hs hb) hrun with ⟨g, hI, ht, _⟩ | ⟨g, _, _, rfl⟩ | ⟨g, hI, hend, rfl⟩
  · exact hp g.state t f hI.live hI.led.onBoundary ht hf
  · cases hf
  · cases hf
    exact h g.state (hI.led.onBoundary.cursor_lt hend)

end Step

end TextGrammar
