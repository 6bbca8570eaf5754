import TextGrammar.Proofs.Parser.Endings

/-!
# How repetitions end

The rounds of a repetition, one after the other, with no budget in sight.  Each law goes both ways,
so that it also tells when a repetition does not end at all.

* `Parser.Repeats`, `Parser.endsAmid_many_iff` — a parser again and again, up to the first round that
  fails or takes no text.
* `Parser.Turn`, `Parser.TakesTurns`, `Parser.endsAmid_separated_iff` — values and separators in turn.
* `Parser.RepeatsToEnd`, `Parser.endsAmid_all_iff` — a parser again and again, up to the end of the
  input.
-/

namespace TextGrammar

variable {ν : Type}

namespace Harvest

@[simp] theorem toList_add (g : Harvest ν) (t : State ν) :
    (g.add t).items.toList = g.items.toList ++ t.kept :=
  Array.toList_appendList

@[simp] theorem state_add (g : Harvest ν) (t : State ν) : (g.add t).state = t.collected := rfl

@[simp] theorem items_stop (g : Harvest ν) (s : State ν) : (g.stop s).items = g.items := rfl

@[simp] theorem state_stop (g : Harvest ν) (s : State ν) : (g.stop s).state = s := rfl

end Harvest

namespace Parser

variable {around : Surroundings ν} {p value separator : Parser ν} {s t : State ν}
  {g g' : Harvest ν} {b k : Nat}

/-- A run that ends does so with every budget from some one on. -/
theorem EndsAmid.exists_budget (h : p.EndsAmid around s t) (hs : s.failed = false) :
    ∃ b, ∀ b', b ≤ b' → p.step b' (around.scope b') s = some t := by
  obtain ⟨b, hb⟩ := (endsAmid_iff_step hs).1 h
  exact ⟨b, fun b' hle => p.step_amid_le around hle s t hb⟩

/-! ## Again and again -/

/-- A parser runs again and again, each time from where it ended.  What has been gathered in `g`
becomes `g'` at the end: where a round fails, with what it has taken given back, or where a round has
taken nothing. -/
inductive Repeats (around : Surroundings ν) (p : Parser ν) : Harvest ν → Harvest ν → Prop where
  | stop {g : Harvest ν} {t : State ν} (hp : p.EndsAmid around g.state t) (ht : t.failed = true) :
      Repeats around p g (g.stop (t.rewind g.state.cursor))
  | still {g : Harvest ν} {t : State ν} (hp : p.EndsAmid around g.state t) (ht : t.failed = false)
      (hstill : t.cursor = g.state.cursor) : Repeats around p g (g.add t)
  | next {g g' : Harvest ν} {t : State ν} (hp : p.EndsAmid around g.state t)
      (ht : t.failed = false) (hne : t.cursor ≠ g.state.cursor)
      (hrest : Repeats around p (g.add t) g') : Repeats around p g g'

theorem Repeats.exists_manyFrom (h : Repeats around p g g') (hg : g.state.failed = false) :
    ∃ b, Step.manyFrom (p.step b (around.scope b)) b g = some g' := by
  induction h with
  | stop hp ht =>
    obtain ⟨b, hb⟩ := hp.exists_budget hg
    have hround := hb (b + 1) (Nat.le_succ b)
    exact ⟨b + 1, by simp [Step.manyFrom, hround, ht]⟩
  | still hp ht hstill =>
    obtain ⟨b, hb⟩ := hp.exists_budget hg
    have hround := hb (b + 1) (Nat.le_succ b)
    exact ⟨b + 1, by simp [Step.manyFrom, hround, ht, hstill]⟩
  | @next g g' t hp ht hne _ ih =>
    obtain ⟨b, hb⟩ := hp.exists_budget hg
    obtain ⟨b', hb'⟩ := ih (t.failed_collected.trans ht)
    have hround := hb (max b b' + 1) (Nat.le_succ_of_le (Nat.le_max_left b b'))
    have hrest := Step.manyFrom_le
      (p.step_amid_le around (Nat.le_succ_of_le (Nat.le_max_right b b')))
      (Nat.le_max_right b b') hb'
    exact ⟨max b b' + 1, by simp [Step.manyFrom, hround, ht, hne, hrest]⟩

theorem repeats_of_manyFrom (hg : g.state.failed = false)
    (hrun : Step.manyFrom (p.step b (around.scope b)) k g = some g') : Repeats around p g g' := by
  induction k generalizing g with
  | zero => cases hrun
  | succ k ih =>
    obtain ⟨t, ht, hrun⟩ := Option.bind_eq_some_iff.1 hrun
    have hp : p.EndsAmid around g.state t := (endsAmid_iff_step hg).2 ⟨b, ht⟩
    split at hrun
    · rename_i hf
      cases hrun
      exact .stop hp hf
    · rename_i hf
      rw [Bool.not_eq_true] at hf
      split at hrun
      · rename_i hstill
        cases hrun
        exact .still hp hf hstill
      · rename_i hne
        exact .next hp hf hne (ih (t.failed_collected.trans hf) hrun)

/-- **A repetition** ends where its rounds do, and fails where it began if there were too few. -/
theorem endsAmid_many_iff {least : Nat} (hs : s.failed = false) :
    (many least p).EndsAmid around s t ↔
      ∃ g, Repeats around p (.start s) g ∧
        t = if g.count < least then
            (g.state.rewind s.cursor).fail (.tooFew least p.label g.state.rest)
          else g.succeed := by
  rw [endsAmid_iff_step hs]
  constructor
  · rintro ⟨b, hrun⟩
    obtain ⟨g, hg, hrun⟩ := Option.bind_eq_some_iff.1 hrun
    refine ⟨g, repeats_of_manyFrom hs hg, ?_⟩
    rw [← apply_ite pure] at hrun
    exact (Option.some.inj hrun).symm
  · rintro ⟨g, hg, rfl⟩
    obtain ⟨b, hb⟩ := hg.exists_manyFrom hs
    refine ⟨b, ?_⟩
    simp only [step, Step.many, hb, Option.bind_eq_bind, Option.bind_some, ← apply_ite pure]
    rfl

/-! ## Values and separators in turn -/

/-- From the state `s`, a value succeeds in `t`, and a separator behind it ends in `u`. -/
structure Turn (around : Surroundings ν) (value separator : Parser ν) (s t u : State ν) : Prop where
  value_ends : value.EndsAmid around s t
  live : t.failed = false
  separator_ends : separator.EndsAmid around t.collected u

theorem Turn.unique {s t t' u u' : State ν} (h : Turn around value separator s t u)
    (h' : Turn around value separator s t' u') : t = t' ∧ u = u' := by
  obtain rfl := h.value_ends.unique h'.value_ends
  exact ⟨rfl, h.separator_ends.unique h'.separator_ends⟩

theorem Turn.exists_budget {s t u : State ν} (h : Turn around value separator s t u)
    (hs : s.failed = false) :
    ∃ b, ∀ b', b ≤ b' → value.step b' (around.scope b') s = some t ∧
      separator.step b' (around.scope b') t.collected = some u := by
  obtain ⟨b, hb⟩ := h.value_ends.exists_budget hs
  obtain ⟨c, hc⟩ := h.separator_ends.exists_budget (t.failed_collected.trans h.live)
  exact ⟨max b c, fun b' hle => ⟨hb b' (Nat.le_trans (Nat.le_max_left b c) hle),
    hc b' (Nat.le_trans (Nat.le_max_right b c) hle)⟩⟩

/-- A value and a separator run in turn, each from where the one before it ended.  What has been
gathered in `g` becomes `g'` at the end: where a value or a separator fails, with what it has taken
given back, or where a value and its separator have taken nothing. -/
inductive TakesTurns (around : Surroundings ν) (value separator : Parser ν) :
    Harvest ν → Harvest ν → Prop where
  | stop {g : Harvest ν} {t : State ν} (hvalue : value.EndsAmid around g.state t)
      (ht : t.failed = true) :
      TakesTurns around value separator g (g.stop (t.rewind g.state.cursor))
  | last {g : Harvest ν} {t u : State ν} (hturn : Turn around value separator g.state t u)
      (hu : u.failed = true) :
      TakesTurns around value separator g ((g.add t).stop (u.rewind t.cursor))
  | still {g : Harvest ν} {t u : State ν} (hturn : Turn around value separator g.state t u)
      (hu : u.failed = false) (hstill : u.cursor = g.state.cursor) :
      TakesTurns around value separator g ((g.add t).stop u)
  | next {g g' : Harvest ν} {t u : State ν} (hturn : Turn around value separator g.state t u)
      (hu : u.failed = false) (hne : u.cursor ≠ g.state.cursor)
      (hrest : TakesTurns around value separator ((g.add t).stop u) g') :
      TakesTurns around value separator g g'

theorem TakesTurns.exists_separatedFrom (h : TakesTurns around value separator g g')
    (hg : g.state.failed = false) :
    ∃ b, Step.separatedFrom (value.step b (around.scope b)) (separator.step b (around.scope b)) b g =
      some g' := by
  induction h with
  | stop hvalue ht =>
    obtain ⟨b, hb⟩ := hvalue.exists_budget hg
    have hround := hb (b + 1) (Nat.le_succ b)
    exact ⟨b + 1, by simp [Step.separatedFrom, hround, ht]⟩
  | last hturn hu =>
    obtain ⟨b, hb⟩ := hturn.exists_budget hg
    obtain ⟨hround, hround'⟩ := hb (b + 1) (Nat.le_succ b)
    exact ⟨b + 1, by simp [Step.separatedFrom, hround, hturn.live, hround', hu]⟩
  | still hturn hu hstill =>
    obtain ⟨b, hb⟩ := hturn.exists_budget hg
    obtain ⟨hround, hround'⟩ := hb (b + 1) (Nat.le_succ b)
    exact ⟨b + 1, by simp [Step.separatedFrom, hround, hturn.live, hround', hu, hstill]⟩
  | next hturn hu hne _ ih =>
    obtain ⟨b, hb⟩ := hturn.exists_budget hg
    obtain ⟨b', hb'⟩ := ih hu
    obtain ⟨hround, hround'⟩ := hb (max b b' + 1) (Nat.le_succ_of_le (Nat.le_max_left b b'))
    have hle : b' ≤ max b b' + 1 := Nat.le_succ_of_le (Nat.le_max_right b b')
    have hrest := Step.separatedFrom_le (value.step_amid_le around hle)
      (separator.step_amid_le around hle) (Nat.le_max_right b b') hb'
    exact ⟨max b b' + 1, by
      simp [Step.separatedFrom, hround, hturn.live, hround', hu, hne, hrest]⟩

theorem takesTurns_of_separatedFrom (hg : g.state.failed = false)
    (hrun : Step.separatedFrom (value.step b (around.scope b)) (separator.step b (around.scope b)) k
      g = some g') : TakesTurns around value separator g g' := by
  induction k generalizing g with
  | zero => cases hrun
  | succ k ih =>
    obtain ⟨t, ht, hrun⟩ := Option.bind_eq_some_iff.1 hrun
    have hvalue : value.EndsAmid around g.state t := (endsAmid_iff_step hg).2 ⟨b, ht⟩
    split at hrun
    · rename_i hf
      cases hrun
      exact .stop hvalue hf
    · rename_i hf
      rw [Bool.not_eq_true] at hf
      obtain ⟨u, hu, hrun⟩ := Option.bind_eq_some_iff.1 hrun
      have hturn : Turn around value separator g.state t u :=
        ⟨hvalue, hf, (endsAmid_iff_step (t.failed_collected.trans hf)).2 ⟨b, hu⟩⟩
      split at hrun
      · rename_i hf'
        cases hrun
        exact .last hturn hf'
      · rename_i hf'
        rw [Bool.not_eq_true] at hf'
        split at hrun
        · rename_i hstill
          cases hrun
          exact .still hturn hf' hstill
        · rename_i hne
          exact .next hturn hf' hne (ih hf' hrun)

/-- **Values with separators between them** end where their turns do, and fail where they began if
there were too few values. -/
theorem endsAmid_separated_iff {least : Nat} (hs : s.failed = false) :
    (separated least value separator).EndsAmid around s t ↔
      ∃ g, TakesTurns around value separator (.start s) g ∧
        t = if g.count < least then
            (g.state.rewind s.cursor).fail
              (.tooFewSeparated least value.label separator.label g.state.rest)
          else g.succeed := by
  rw [endsAmid_iff_step hs]
  constructor
  · rintro ⟨b, hrun⟩
    obtain ⟨g, hg, hrun⟩ := Option.bind_eq_some_iff.1 hrun
    refine ⟨g, takesTurns_of_separatedFrom hs hg, ?_⟩
    rw [← apply_ite pure] at hrun
    exact (Option.some.inj hrun).symm
  · rintro ⟨g, hg, rfl⟩
    obtain ⟨b, hb⟩ := hg.exists_separatedFrom hs
    refine ⟨b, ?_⟩
    simp only [step, Step.separated, hb, Option.bind_eq_bind, Option.bind_some, ← apply_ite pure]
    rfl

/-! ## Up to the end of the input -/

/-- A parser runs again and again, each time from where it ended, up to the end of the input.  With
what has been gathered in `g` before, that ends in a state: where a round fails, with its failure;
where a round has come to the end of the input, with a list; and where a round before that has taken
nothing, with a failure that says so. -/
inductive RepeatsToEnd (around : Surroundings ν) (p : Parser ν) : Harvest ν → State ν → Prop where
  | stop {g : Harvest ν} {t : State ν} (hp : p.EndsAmid around g.state t) (ht : t.failed = true) :
      RepeatsToEnd around p g t
  | done {g : Harvest ν} {t : State ν} (hp : p.EndsAmid around g.state t) (ht : t.failed = false)
      (hend : t.atEnd = true) : RepeatsToEnd around p g (g.add t).succeed
  | still {g : Harvest ν} {t : State ν} (hp : p.EndsAmid around g.state t) (ht : t.failed = false)
      (hend : t.atEnd = false) (hstill : t.cursor = g.state.cursor) :
      RepeatsToEnd around p g (t.collected.fail (.stalled p.label t.rest))
  | next {g : Harvest ν} {t u : State ν} (hp : p.EndsAmid around g.state t)
      (ht : t.failed = false) (hend : t.atEnd = false) (hne : t.cursor ≠ g.state.cursor)
      (hrest : RepeatsToEnd around p (g.add t) u) : RepeatsToEnd around p g u

theorem RepeatsToEnd.exists_allFrom (h : RepeatsToEnd around p g t) (hg : g.state.failed = false) :
    ∃ b, Step.allFrom p.label (p.step b (around.scope b)) b g = some t := by
  induction h with
  | stop hp ht =>
    obtain ⟨b, hb⟩ := hp.exists_budget hg
    have hround := hb (b + 1) (Nat.le_succ b)
    exact ⟨b + 1, by simp [Step.allFrom, hround, ht]⟩
  | done hp ht hend =>
    obtain ⟨b, hb⟩ := hp.exists_budget hg
    have hround := hb (b + 1) (Nat.le_succ b)
    exact ⟨b + 1, by simp [Step.allFrom, hround, ht, hend]⟩
  | still hp ht hend hstill =>
    obtain ⟨b, hb⟩ := hp.exists_budget hg
    have hround := hb (b + 1) (Nat.le_succ b)
    exact ⟨b + 1, by simp [Step.allFrom, hround, ht, hend, hstill]⟩
  | @next g t u hp ht hend hne _ ih =>
    obtain ⟨b, hb⟩ := hp.exists_budget hg
    obtain ⟨b', hb'⟩ := ih (t.failed_collected.trans ht)
    have hround := hb (max b b' + 1) (Nat.le_succ_of_le (Nat.le_max_left b b'))
    have hrest := Step.allFrom_le
      (p.step_amid_le around (Nat.le_succ_of_le (Nat.le_max_right b b')))
      (Nat.le_max_right b b') p.label hb'
    exact ⟨max b b' + 1, by simp [Step.allFrom, hround, ht, hend, hne, hrest]⟩

theorem repeatsToEnd_of_allFrom (hg : g.state.failed = false)
    (hrun : Step.allFrom p.label (p.step b (around.scope b)) k g = some t) :
    RepeatsToEnd around p g t := by
  induction k generalizing g with
  | zero => cases hrun
  | succ k ih =>
    obtain ⟨u, hu, hrun⟩ := Option.bind_eq_some_iff.1 hrun
    have hp : p.EndsAmid around g.state u := (endsAmid_iff_step hg).2 ⟨b, hu⟩
    split at hrun
    · rename_i hf
      cases hrun
      exact .stop hp hf
    · rename_i hf
      rw [Bool.not_eq_true] at hf
      simp only at hrun
      split at hrun
      · rename_i hend
        cases hrun
        exact .done hp hf hend
      · rename_i hend
        rw [Bool.not_eq_true] at hend
        split at hrun
        · rename_i hstill
          cases hrun
          exact .still hp hf hend hstill
        · rename_i hne
          exact .next hp hf hend hne (ih (u.failed_collected.trans hf) hrun)

/-- **A repetition up to the end of the input** ends where its rounds do. -/
theorem endsAmid_all_iff (hs : s.failed = false) :
    (all p).EndsAmid around s t ↔ RepeatsToEnd around p (.start s) t := by
  rw [endsAmid_iff_step hs]
  constructor
  · rintro ⟨b, hrun⟩
    exact repeatsToEnd_of_allFrom hs hrun
  · intro h
    exact h.exists_allFrom hs

end Parser

end TextGrammar
