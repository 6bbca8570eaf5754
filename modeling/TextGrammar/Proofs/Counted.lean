import TextGrammar.Parser.Run
import TextGrammar.Proofs.Laws.Basic
import TextGrammar.Proofs.Parser.Repetition

/-!
# How often loops run their parts

Every round of a repetition but the last one takes text.  So the bytes ahead bound the rounds, and one
more for the last, which takes nothing or fails.

* `Forgets`, `Parser.forgets_counted` — without its count, a counted run is a run.
* `Parser.EndsCounting` — where a parser ends, and what it has counted.
* `Tally.Spends` — what a loop may add to a count; `Step.manyFrom_spends` and others: what the bytes
  ahead let it add.
* `Parser.Proceeds` — parsers that do not go back; `Parser.exists_repeats` and others: repetitions of
  those that end do so, too.
* `Parser.loops_bounded` — so the runs of the parts of a repetition are bounded, and its list is.
-/

namespace TextGrammar

variable {ν : Type}

/-! ## Forgetting the count -/

/-- Without its count, the first run is the second one, whatever was counted before. -/
def Forgets {α : Type} (x : StateT Tally Option α) (y : Option α) : Prop :=
  ∀ tally, (x.run tally).map Prod.fst = y

namespace Forgets

variable {α β : Type} {x x' : StateT Tally Option α} {y y' : Option α}

theorem pure (a : α) : Forgets (Pure.pure a) (some a) := fun _ => rfl

theorem bind (hx : Forgets x y) {f : α → StateT Tally Option β} {g : α → Option β}
    (hf : ∀ a, Forgets (f a) (g a)) : Forgets (x >>= f) (y >>= g) := by
  intro tally
  rw [← hx tally, StateT.run_bind]
  cases x.run tally with
  | none => rfl
  | some r => exact hf r.1 r.2

theorem ite {c : Prop} [Decidable c] (hx : Forgets x y) (hx' : Forgets x' y') :
    Forgets (if c then x else x') (if c then y else y') := by
  split
  · exact hx
  · exact hx'

/-- What the plain run gives, the counted one gives with some count. -/
theorem exists_count (h : Forgets x y) {a : α} (ha : y = some a) (tally : Tally) :
    ∃ tally', x.run tally = some (a, tally') := by
  obtain ⟨r, hr, rfl⟩ := Option.map_eq_some_iff.1 ((h tally).trans ha)
  exact ⟨r.2, hr⟩

theorem eq_some (h : Forgets x y) {a : α} {tally tally' : Tally}
    (hx : x.run tally = some (a, tally')) : y = some a := by
  rw [← h tally, hx]
  rfl

end Forgets

namespace Step

variable {p value separator : Step ν} {note note' : Tally → Tally}

theorem forgets_noted (note : Tally → Tally) (p : Step ν) (s : State ν) :
    Forgets (p.noted note s) (p s) := by
  intro tally
  show ((p s).bind fun t => some (t, note tally)).map Prod.fst = p s
  cases p s <;> rfl

theorem forgets_many (b least : Nat) (label : String) (s : State ν) :
    Forgets (many b least label (p.noted note) s) (many b least label p s) := by
  have hloop (b : Nat) (h : Harvest ν) :
      Forgets (manyFrom (p.noted note) b h) (manyFrom p b h) := by
    induction b generalizing h with
    | zero => exact fun _ => rfl
    | succ b ih =>
      exact (forgets_noted note p h.state).bind fun t =>
        .ite (.pure _) (.ite (.pure _) (ih (h.add t)))
  exact (hloop b (.start s)).bind fun h => .ite (.pure _) (.pure _)

theorem forgets_separated (b least : Nat) (valueLabel separatorLabel : String) (s : State ν) :
    Forgets
      (separated b least valueLabel separatorLabel (value.noted note) (separator.noted note') s)
      (separated b least valueLabel separatorLabel value separator s) := by
  have hloop (b : Nat) (h : Harvest ν) :
      Forgets (separatedFrom (value.noted note) (separator.noted note') b h)
        (separatedFrom value separator b h) := by
    induction b generalizing h with
    | zero => exact fun _ => rfl
    | succ b ih =>
      exact (forgets_noted note value h.state).bind fun t =>
        .ite (.pure _) ((forgets_noted note' separator (h.add t).state).bind fun u =>
          .ite (.pure _) (.ite (.pure _) (ih ((h.add t).stop u))))
  exact (hloop b (.start s)).bind fun h => .ite (.pure _) (.pure _)

theorem forgets_all (b : Nat) (label : String) (s : State ν) :
    Forgets (all b label (p.noted note) s) (all b label p s) := by
  have hloop (b : Nat) (h : Harvest ν) :
      Forgets (allFrom label (p.noted note) b h) (allFrom label p b h) := by
    induction b generalizing h with
    | zero => exact fun _ => rfl
    | succ b ih =>
      exact (forgets_noted note p h.state).bind fun t =>
        .ite (.pure _) (.ite (.pure _) (.ite (.pure _) (ih (h.add t))))
  exact hloop b (.start s)

end Step

namespace Parser

variable {around : Surroundings ν} {p : Parser ν} {s t : State ν}

theorem forgets_lift (x : Option (State ν)) : Forgets (x : StateT Tally Option (State ν)) x := by
  intro tally
  cases x <;> rfl

/-- **Without its count, a counted run is a run.** -/
theorem forgets_counted (b : Nat) (scope : Scope ν) (p : Parser ν) (s : State ν) :
    Forgets (p.counted b scope s) (p.step b scope s) := by
  cases p with
  | many least p =>
    rw [step]
    exact Step.forgets_many b least p.label s
  | separated least value separator =>
    rw [step]
    exact Step.forgets_separated b least value.label separator.label s
  | all p =>
    rw [step]
    exact Step.forgets_all b p.label s
  | _ => exact forgets_lift _

/-- The parser ends in state `t` when it is run from state `s` amid recursive parsers that exist, and
has counted so many runs. -/
def EndsCounting (around : Surroundings ν) (p : Parser ν) (s t : State ν) (tally : Tally) : Prop :=
  ∃ b, (p.counted b (around.scope b) s).run .zero = some (t, tally)

/-- **Counting changes nothing.** -/
theorem endsAmid_iff_counting (hs : s.failed = false) :
    p.EndsAmid around s t ↔ ∃ tally, p.EndsCounting around s t tally := by
  rw [endsAmid_iff_step hs]
  constructor
  · rintro ⟨b, hb⟩
    obtain ⟨tally, htally⟩ := (forgets_counted b _ p s).exists_count hb .zero
    exact ⟨tally, b, htally⟩
  · rintro ⟨tally, b, hb⟩
    exact ⟨b, (forgets_counted b _ p s).eq_some hb⟩

end Parser

/-! ## What loops spend -/

/-- A loop has added no more than so many runs of the operand to a count, not more runs of the separator
than of the operand, and not more to its list. -/
structure Tally.Spends (limit : Nat) (before after : Tally) (listed listed' : Nat) : Prop where
  operand : after.operand ≤ before.operand + limit
  separator : after.separator + before.operand ≤ before.separator + after.operand
  listed : listed' + before.operand ≤ listed + after.operand

namespace Tally.Spends

variable {limit limit' listed listed₁ listed' : Nat} {tally tally' : Tally}

/-- The last round may run the operand alone. -/
theorem last (hlisted : listed' ≤ listed + 1) :
    Spends (limit + 1) tally tally.addOperand listed listed' := by
  constructor <;> simp only [addOperand] <;> omega

/-- The last round may run the operand and the separator. -/
theorem lastPair (hlisted : listed' ≤ listed + 1) :
    Spends (limit + 1) tally tally.addOperand.addSeparator listed listed' := by
  constructor <;> simp only [addOperand, addSeparator] <;> omega

/-- A round in front takes one from the limit. -/
theorem next (h : Spends limit tally.addOperand tally' listed₁ listed')
    (hlisted : listed₁ ≤ listed + 1) (hlimit : limit < limit') :
    Spends limit' tally tally' listed listed' := by
  obtain ⟨hoperand, hseparator, hlist⟩ := h
  simp only [addOperand] at hoperand hseparator hlist
  constructor <;> omega

theorem nextPair (h : Spends limit tally.addOperand.addSeparator tally' listed₁ listed')
    (hlisted : listed₁ ≤ listed + 1) (hlimit : limit < limit') :
    Spends limit' tally tally' listed listed' := by
  obtain ⟨hoperand, hseparator, hlist⟩ := h
  simp only [addOperand, addSeparator] at hoperand hseparator hlist
  constructor <;> omega

end Tally.Spends

theorem State.length_kept_le (t : State ν) : t.kept.length ≤ 1 := by
  unfold kept
  split <;> simp

theorem Harvest.size_add_le (h : Harvest ν) (t : State ν) :
    (h.add t).items.size ≤ h.items.size + 1 := by
  have hkept := t.length_kept_le
  have hsize := congrArg List.length (h.toList_add t)
  rw [List.length_append, Array.length_toList, Array.length_toList] at hsize
  omega

namespace Step

variable {p value separator : Step ν} {s : State ν} {b : Nat} {h g : Harvest ν} {t : State ν}
  {tally tally' : Tally} {α : Type}

/-- A run that is noted comes first, and the rest of the loop goes on from the count with it. -/
theorem exists_of_noted_bind {note : Tally → Tally} {k : State ν → StateT Tally Option α}
    {r : α × Tally} (hrun : (p.noted note s >>= k).run tally = some r) :
    ∃ t, p s = some t ∧ (k t).run (note tally) = some r := by
  have hbind : (p.noted note s >>= k).run tally =
      (p s).bind fun t => (k t).run (note tally) := by
    show ((p s).bind fun t => some (t, note tally)).bind (fun r => (k r.1).run r.2) = _
    cases p s <;> rfl
  exact Option.bind_eq_some_iff.1 (hbind.symm.trans hrun)

/-- **A repetition runs its step once for each byte ahead, and once more.** -/
theorem manyFrom_spends (hp : p.Leads false) (hh : h.LedFrom false s)
    (hrun : (manyFrom (p.noted Tally.addOperand) b h).run tally = some (g, tally')) :
    tally.Spends (h.state.ahead + 1) tally' h.items.size g.items.size := by
  induction b generalizing h tally with
  | zero => cases hrun
  | succ b ih =>
    obtain ⟨t, ht, hrun⟩ := exists_of_noted_bind hrun
    split at hrun
    · cases hrun
      exact .last (Nat.le_succ _)
    · rename_i hf
      rw [Bool.not_eq_true] at hf
      split at hrun
      · cases hrun
        exact .last (h.size_add_le t)
      · rename_i hne
        have hlt : t.ahead < h.state.ahead := (hh.leadsTo hp ht).ahead_lt hne
        have hadded : (h.add t).state.ahead = t.ahead := t.samePlace_collected.ahead_eq.symm
        exact (ih (hh.add hp ht hf) hrun).next (h.size_add_le t) (by omega)

/-- **Of values and separators that take turns, neither is run more often than that.** -/
theorem separatedFrom_spends (hp : value.Leads false) (hq : separator.Leads false)
    (hh : h.LedFrom false s)
    (hrun : (separatedFrom (value.noted Tally.addOperand) (separator.noted Tally.addSeparator)
      b h).run tally = some (g, tally')) :
    tally.Spends (h.state.ahead + 1) tally' h.items.size g.items.size := by
  induction b generalizing h tally with
  | zero => cases hrun
  | succ b ih =>
    obtain ⟨t, ht, hrun⟩ := exists_of_noted_bind hrun
    split at hrun
    · cases hrun
      exact .last (Nat.le_succ _)
    · rename_i hf
      rw [Bool.not_eq_true] at hf
      have hadded := hh.add hp ht hf
      obtain ⟨u, hu, hrun⟩ := exists_of_noted_bind hrun
      split at hrun
      · cases hrun
        exact .lastPair (h.size_add_le t)
      · rename_i hf'
        rw [Bool.not_eq_true] at hf'
        split at hrun
        · cases hrun
          exact .lastPair (h.size_add_le t)
        · rename_i hne
          have hround : h.state.LeadsTo false u :=
            (hh.leadsTo hp ht).collected.trans (hadded.leadsTo hq hu)
          have hlt : u.ahead < h.state.ahead := hround.ahead_lt hne
          have hnext : ((h.add t).stop u).LedFrom false s := ⟨hf', hh.led.trans hround⟩
          exact (ih hnext hrun).nextPair (h.size_add_le t) (Nat.add_lt_add_right hlt 1)

/-- **So is a step that is run up to the end of the input.**  If that succeeds, it lists what it has
gathered. -/
theorem allFrom_spends {label : String} (hp : p.Leads false) (hh : h.LedFrom false s)
    (hrun : (allFrom label (p.noted Tally.addOperand) b h).run tally = some (t, tally')) :
    ∃ items : List (Value ν), (t.failed = false → t.result = .list items) ∧
      tally.Spends (h.state.ahead + 1) tally' h.items.size items.length := by
  induction b generalizing h tally with
  | zero => cases hrun
  | succ b ih =>
    obtain ⟨u, hu, hrun⟩ := exists_of_noted_bind hrun
    split at hrun
    · rename_i hf
      cases hrun
      exact ⟨[], fun hlive => absurd (hf.symm.trans hlive) Bool.noConfusion, .last (Nat.zero_le _)⟩
    · rename_i hf
      rw [Bool.not_eq_true] at hf
      simp only at hrun
      split at hrun
      · cases hrun
        refine ⟨(h.add u).items.toList, fun _ => rfl, .last ?_⟩
        rw [Array.length_toList]
        exact h.size_add_le u
      · split at hrun
        · cases hrun
          exact ⟨[], nofun, .last (Nat.zero_le _)⟩
        · rename_i hne
          have hlt : u.ahead < h.state.ahead := (hh.leadsTo hp hu).ahead_lt hne
          have hadded : (h.add u).state.ahead = u.ahead := u.samePlace_collected.ahead_eq.symm
          obtain ⟨items, hitems, hspends⟩ := ih (hh.add hp hu hf) hrun
          exact ⟨items, hitems, hspends.next (h.size_add_le u) (by omega)⟩

/-- What a loop has gathered is listed where it is enough, and nothing more is counted. -/
theorem listed_of_run {c : Prop} [Decidable c] {u : State ν} {f : Failure}
    (hrun : (if c then pure (u.fail f) else pure g.succeed : StateT Tally Option (State ν)).run tally =
      some (t, tally')) :
    tally = tally' ∧ (t.failed = false → t.result = .list g.items.toList) := by
  split at hrun
  · cases hrun
    exact ⟨rfl, nofun⟩
  · cases hrun
    exact ⟨rfl, fun _ => rfl⟩

theorem many_spends {least : Nat} {label : String} (hp : p.Leads false) (hs : s.failed = false)
    (hb : s.OnBoundary)
    (hrun : (many b least label (p.noted Tally.addOperand) s).run tally = some (t, tally')) :
    ∃ items : List (Value ν), (t.failed = false → t.result = .list items) ∧
      tally.Spends (s.ahead + 1) tally' 0 items.length := by
  obtain ⟨⟨g, tally₁⟩, hloop, hrest⟩ := Option.bind_eq_some_iff.1 hrun
  obtain ⟨rfl, hitems⟩ := listed_of_run hrest
  refine ⟨g.items.toList, hitems, ?_⟩
  rw [Array.length_toList]
  exact manyFrom_spends hp (.start hs hb) hloop

theorem separated_spends {least : Nat} {valueLabel separatorLabel : String}
    (hp : value.Leads false) (hq : separator.Leads false) (hs : s.failed = false)
    (hb : s.OnBoundary)
    (hrun : (separated b least valueLabel separatorLabel (value.noted Tally.addOperand)
      (separator.noted Tally.addSeparator) s).run tally = some (t, tally')) :
    ∃ items : List (Value ν), (t.failed = false → t.result = .list items) ∧
      tally.Spends (s.ahead + 1) tally' 0 items.length := by
  obtain ⟨⟨g, tally₁⟩, hloop, hrest⟩ := Option.bind_eq_some_iff.1 hrun
  obtain ⟨rfl, hitems⟩ := listed_of_run hrest
  refine ⟨g.items.toList, hitems, ?_⟩
  rw [Array.length_toList]
  exact separatedFrom_spends hp hq (.start hs hb) hloop

end Step

/-! ## Repetitions that end -/

namespace Parser

variable {around : Surroundings ν} {p q : Parser ν} {s : State ν} {g : Harvest ν} {input : Input}

/-- The parser stays on its input and between characters, and does not go back. -/
def Proceeds (around : Surroundings ν) (p : Parser ν) : Prop :=
  ∀ s t : State ν, s.failed = false → s.OnBoundary → p.EndsAmid around s t → s.LeadsTo false t

/-- Parsers do so if they do not go back and all actions in them are made of operations on states. -/
theorem Onward.proceeds (honward : p.Onward around) (hp : p.ActsByMoves)
    (haround : ∀ r ∈ around, r.2.ActsByMoves) : p.Proceeds around := by
  intro s t hs hb ht
  have hled := hp.leadsTo_of_endsAmid haround hs hb ht
  exact ⟨hled.input, hled.onBoundary, fun _ => honward s t hs hb ht⟩

theorem Proceeds.leads (hp : p.Proceeds around) (b : Nat) :
    Step.Leads false (p.step b (around.scope b)) :=
  fun s t hs hb hrun => hp s t hs hb ((endsAmid_iff_step hs).2 ⟨b, hrun⟩)

/-- The place where the next round of a repetition begins. -/
structure Ready (input : Input) (s : State ν) : Prop where
  live : s.failed = false
  onBoundary : s.OnBoundary
  input : s.input = input

theorem Ready.of_leadsTo {t : State ν} (h : Ready input s) (hled : s.LeadsTo false t)
    (ht : t.failed = false) : Ready input t.collected :=
  ⟨t.failed_collected.trans ht, hled.collected.onBoundary, hled.collected.input.trans h.input⟩

/-- **A repetition of a parser that ends does so itself**: there are fewer bytes ahead of each round. -/
theorem exists_repeats (hp : p.Proceeds around) (hends : p.EndsOver around input)
    (hg : Ready input g.state) : ∃ g', Repeats around p g g' := by
  induction hn : g.state.ahead using Nat.strongRecOn generalizing g with
  | ind n ih =>
    obtain ⟨t, ht⟩ := hends g.state hg.live hg.onBoundary hg.input
    have hled := hp g.state t hg.live hg.onBoundary ht
    cases hf : t.failed with
    | true => exact ⟨_, .stop ht hf⟩
    | false =>
      by_cases hstill : t.cursor = g.state.cursor
      · exact ⟨_, .still ht hf hstill⟩
      · have hlt : (g.add t).state.ahead < n := by
          rw [← hn, Harvest.state_add, ← t.samePlace_collected.ahead_eq]
          exact hled.ahead_lt hstill
        obtain ⟨g', hg'⟩ := ih _ hlt (hg.of_leadsTo hled hf) rfl
        exact ⟨g', .next ht hf hstill hg'⟩

theorem exists_takesTurns (hp : p.Proceeds around) (hends : p.EndsOver around input)
    (hq : q.Proceeds around) (hends' : q.EndsOver around input) (hg : Ready input g.state) :
    ∃ g', TakesTurns around p q g g' := by
  induction hn : g.state.ahead using Nat.strongRecOn generalizing g with
  | ind n ih =>
    obtain ⟨t, ht⟩ := hends g.state hg.live hg.onBoundary hg.input
    have hled := hp g.state t hg.live hg.onBoundary ht
    cases hf : t.failed with
    | true => exact ⟨_, .stop ht hf⟩
    | false =>
      have hbetween := hg.of_leadsTo hled hf
      obtain ⟨u, hu⟩ := hends' _ hbetween.live hbetween.onBoundary hbetween.input
      have hturn : Turn around p q g.state t u := ⟨ht, hf, hu⟩
      have hround : g.state.LeadsTo false u :=
        hled.collected.trans (hq _ _ hbetween.live hbetween.onBoundary hu)
      cases hf' : u.failed with
      | true => exact ⟨_, .last hturn hf'⟩
      | false =>
        by_cases hstill : u.cursor = g.state.cursor
        · exact ⟨_, .still hturn hf' hstill⟩
        · have hlt : u.ahead < n := hn ▸ hround.ahead_lt hstill
          have hready : Ready input ((g.add t).stop u).state :=
            ⟨hf', hround.onBoundary, hround.input.trans hg.input⟩
          obtain ⟨g', hg'⟩ := ih _ hlt hready rfl
          exact ⟨g', .next hturn hf' hstill hg'⟩

theorem exists_repeatsToEnd (hp : p.Proceeds around) (hends : p.EndsOver around input)
    (hg : Ready input g.state) : ∃ t, RepeatsToEnd around p g t := by
  induction hn : g.state.ahead using Nat.strongRecOn generalizing g with
  | ind n ih =>
    obtain ⟨t, ht⟩ := hends g.state hg.live hg.onBoundary hg.input
    have hled := hp g.state t hg.live hg.onBoundary ht
    cases hf : t.failed with
    | true => exact ⟨_, .stop ht hf⟩
    | false =>
      cases hend : t.atEnd with
      | true => exact ⟨_, .done ht hf hend⟩
      | false =>
        by_cases hstill : t.cursor = g.state.cursor
        · exact ⟨_, .still ht hf hend hstill⟩
        · have hlt : (g.add t).state.ahead < n := by
            rw [← hn, Harvest.state_add, ← t.samePlace_collected.ahead_eq]
            exact hled.ahead_lt hstill
          obtain ⟨u, hu⟩ := ih _ hlt (hg.of_leadsTo hled hf) rfl
          exact ⟨u, .next ht hf hend hstill hu⟩

/-! ## Bounds -/

/-- Run from `s`, the parser ends, and when it does, the loop in it has run its operand, and its
separator if it has one, no more often than the limit says.  A success is a list that is no longer. -/
structure LoopBounded (around : Surroundings ν) (p : Parser ν) (s : State ν) (limit : Nat) :
    Prop where
  ends : ∃ t tally, p.EndsAmid around s t ∧ p.EndsCounting around s t tally
  runs : ∀ t tally, p.EndsCounting around s t tally →
    tally.operand ≤ limit ∧ tally.separator ≤ limit ∧
      (t.failed = false → ∃ items, t.result = .list items ∧ items.length ≤ limit)

/-- It is enough that it ends, and that what is counted keeps to the limit. -/
theorem loopBounded_of_spends {limit : Nat} (hs : s.failed = false)
    (hends : ∃ t, p.EndsAmid around s t)
    (hspends : ∀ b t tally, (p.counted b (around.scope b) s).run .zero = some (t, tally) →
      ∃ items : List (Value ν), (t.failed = false → t.result = .list items) ∧
        Tally.zero.Spends limit tally 0 items.length) : p.LoopBounded around s limit where
  ends := by
    obtain ⟨t, ht⟩ := hends
    obtain ⟨tally, htally⟩ := (endsAmid_iff_counting hs).1 ht
    exact ⟨t, tally, ht, htally⟩
  runs := by
    rintro t tally ⟨b, hrun⟩
    obtain ⟨items, hitems, hoperand, hseparator, hlisted⟩ := hspends b t tally hrun
    simp only [Tally.zero] at hoperand hseparator hlisted
    exact ⟨by omega, by omega, fun hlive => ⟨items, hitems hlive, by omega⟩⟩

/-- **The bytes ahead bound the loops.**  From a state that has not failed, repetitions of a parser that
ends and does not go back, whatever its actions are, end, too.  Each runs the parser once for each byte
ahead at most, and once more, and lists no more results.  If there is a separator of that kind, it is
not run more often, either. -/
theorem loops_bounded (hp : p.Proceeds around) (hpends : p.EndsOver around s.input)
    (hs : s.failed = false) (hb : s.OnBoundary) :
    (∀ least, (many least p).LoopBounded around s (s.input.size - s.cursor + 1)) ∧
    (∀ least q, q.Proceeds around → q.EndsOver around s.input →
      (separated least p q).LoopBounded around s (s.input.size - s.cursor + 1)) ∧
    (all p).LoopBounded around s (s.input.size - s.cursor + 1) := by
  have hready : Ready s.input (Harvest.start s).state := ⟨hs, hb, rfl⟩
  refine ⟨fun least => loopBounded_of_spends hs ?_ fun b t tally hrun => ?_,
    fun least q hq hqends => loopBounded_of_spends hs ?_ fun b t tally hrun => ?_,
    loopBounded_of_spends hs ?_ fun b t tally hrun => ?_⟩
  · obtain ⟨g, hg⟩ := exists_repeats hp hpends hready
    exact ⟨_, (endsAmid_many_iff hs).2 ⟨g, hg, rfl⟩⟩
  · exact Step.many_spends (hp.leads b) hs hb hrun
  · obtain ⟨g, hg⟩ := exists_takesTurns hp hpends hq hqends hready
    exact ⟨_, (endsAmid_separated_iff hs).2 ⟨g, hg, rfl⟩⟩
  · exact Step.separated_spends (hp.leads b) (hq.leads b) hs hb hrun
  · obtain ⟨t, ht⟩ := exists_repeatsToEnd hp hpends hready
    exact ⟨t, (endsAmid_all_iff hs).2 ht⟩
  · exact Step.allFrom_spends (hp.leads b) (.start hs hb) hrun

/-- A run that succeeds has its count and its list. -/
theorem LoopBounded.exists_list {limit b : Nat} {tally : Tally} (h : p.LoopBounded around s limit)
    (hrun : ((p.counted b (around.scope b) s).run .zero).map (fun r => (r.1.failed, r.2)) =
      some (false, tally)) :
    ∃ (t : State ν) (items : List (Value ν)),
      p.EndsCounting around s t tally ∧ t.result = .list items ∧ items.length ≤ limit := by
  obtain ⟨⟨t, tally'⟩, hcounted, heq⟩ := Option.map_eq_some_iff.1 hrun
  obtain ⟨hlive, rfl⟩ := Prod.mk.inj heq
  obtain ⟨_, _, hlisted⟩ := h.runs t tally' ⟨b, hcounted⟩
  obtain ⟨items, hitems, hlength⟩ := hlisted hlive
  exact ⟨t, items, ⟨b, hcounted⟩, hitems, hlength⟩

/-- One byte in each round: the bound is reached by a last round that takes nothing at the end, also
with a separator that takes nothing; up to the end of the input, there is no such round. -/
theorem loops_bounded_take :
    (∃ (t : State Nat) (items : List (Value Nat)),
      (many 0 (take 1)).EndsCounting [] (.start (.ofString "ab")) t ⟨3, 0⟩ ∧
        t.result = .list items ∧ items.length ≤ 3) ∧
    (∃ (t : State Nat) (items : List (Value Nat)),
      (separated 0 (take 1) (take 0)).EndsCounting [] (.start (.ofString "ab")) t ⟨3, 3⟩ ∧
        t.result = .list items ∧ items.length ≤ 3) ∧
    ∃ (t : State Nat) (items : List (Value Nat)),
      (all (take 1)).EndsCounting [] (.start (.ofString "ab")) t ⟨2, 0⟩ ∧
        t.result = .list items ∧ items.length ≤ 3 := by
  have hproceeds (count : Nat) : (take count : Parser Nat).Proceeds [] :=
    (onward_of_actions (actionsLead_take count) fun _ h => absurd h List.not_mem_nil).proceeds
      (actsByMoves_take count) fun _ h => absurd h List.not_mem_nil
  have hends (count : Nat) : (take count : Parser Nat).EndsOver [] (.ofString "ab") :=
    fun s hs _ _ => ⟨_, (endsAmid_iff_step hs).2 ⟨0, rfl⟩⟩
  obtain ⟨hmany, hseparated, hall⟩ := loops_bounded (hproceeds 1) (hends 1)
    (s := .start (.ofString "ab")) rfl (State.onBoundary_start _)
  exact ⟨(hmany 0).exists_list (b := 4) (by decide +kernel),
    (hseparated 0 _ (hproceeds 0) (hends 0)).exists_list (b := 4) (by decide +kernel),
    hall.exists_list (b := 4) (by decide +kernel)⟩

end Parser

end TextGrammar
