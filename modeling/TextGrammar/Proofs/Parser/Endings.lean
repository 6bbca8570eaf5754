import TextGrammar.Proofs.Parser.Surroundings
import TextGrammar.Proofs.Progress.Step

/-!
# How combined parsers end

Where a combination of parsers ends is told by where its parts do, with no budget in sight.  Each
law goes both ways, so that it also tells when a combination does not end at all.

* `State.joined` — two successes made one.
* `Parser.endsAmid_collectedAs_iff`, `Parser.endsAmid_map_iff` — a parser whose result is collected in
  another way or changed.
* `Parser.endsAmid_and_iff`, `Parser.endsAmid_or_iff` — two parsers in order, and a choice of two.
* `Parser.endsAmid_choice_nil_iff`, `Parser.endsAmid_choice_cons_iff` — a choice of any number.
* `Parser.InTurn` — parsers that run one after the other, with the states in which they end.
* `Parser.endsAmid_sequence_iff` — a sequence is such a run.
-/

namespace TextGrammar

variable {ν : Type}

/-! ## Joined successes -/

namespace State

/-- What a success `w` becomes if it comes behind a success `u`: the results of both, in one list. -/
def joined (u w : State ν) : State ν :=
  (w.succeed (.list (u.spliced ++ w.spliced))).collectAs .splice

@[simp] theorem failed_joined (u w : State ν) : (u.joined w).failed = false := rfl

@[simp] theorem result_joined (u w : State ν) :
    (u.joined w).result = .list (u.spliced ++ w.spliced) := rfl

@[simp] theorem disposition_joined (u w : State ν) : (u.joined w).disposition = .splice := rfl

/-- Joined results add up where they are spliced again. -/
@[simp] theorem spliced_joined (u w : State ν) :
    (u.joined w).spliced = u.spliced ++ w.spliced := rfl

theorem OnBoundary.samePlace_joined {w : State ν} (h : w.OnBoundary) (u : State ν) :
    w.SamePlace (u.joined w) :=
  ⟨rfl, (h.samePlace_succeed (.list (u.spliced ++ w.spliced))).cursor⟩

end State

namespace Parser

variable {around : Surroundings ν} {p q : Parser ν} {ps : List (Parser ν)} {s t : State ν}

/-! ## Steps and their budgets -/

theorem step_amid_le (p : Parser ν) (around : Surroundings ν) {b b' : Nat} (hb : b ≤ b') :
    Step.Le (p.step b (around.scope b)) (p.step b' (around.scope b')) :=
  p.step_le hb (around.scope_le hb)

theorem steps_amid_le (ps : List (Parser ν)) (around : Surroundings ν) {b b' : Nat} (hb : b ≤ b') :
    List.Forall₂ Step.Le (steps b (around.scope b) ps) (steps b' (around.scope b') ps) :=
  forall₂_steps (List.forall₂_same.2 fun p _ => p.step_amid_le around hb)

theorem endsAmid_iff_step (hs : s.failed = false) :
    p.EndsAmid around s t ↔ ∃ b, p.step b (around.scope b) s = some t := by
  refine exists_congr fun b => ?_
  rw [p.runFrom_of_live b _ hs]

/-- What the first parser of a combination and then the rest of it do with some budgets, they do
together with one, if a greater budget serves the rest, too. -/
theorem exists_step_bind_iff {k : Nat → State ν → Option (State ν)} (hs : s.failed = false)
    (hk : ∀ b b' u t, b ≤ b' → k b u = some t → k b' u = some t) :
    (∃ b, (p.step b (around.scope b) s).bind (k b) = some t) ↔
      ∃ u, p.EndsAmid around s u ∧ ∃ b, k b u = some t := by
  constructor
  · rintro ⟨b, hb⟩
    obtain ⟨u, hu, ht⟩ := Option.bind_eq_some_iff.1 hb
    exact ⟨u, (endsAmid_iff_step hs).2 ⟨b, hu⟩, b, ht⟩
  · rintro ⟨u, hu, b', ht⟩
    obtain ⟨b, hu⟩ := (endsAmid_iff_step hs).1 hu
    have hu' := p.step_amid_le around (Nat.le_max_left b b') s u hu
    have ht' := hk b' _ u t (Nat.le_max_right b b') ht
    exact ⟨max b b', Option.bind_eq_some_iff.2 ⟨u, hu', ht'⟩⟩

/-- If the rest always ends, where it does is told by the state in which the parser ends. -/
theorem exists_step_map_iff {f : State ν → State ν} (hs : s.failed = false) :
    (∃ b, (p.step b (around.scope b) s >>= fun u => pure (f u)) = some t) ↔
      ∃ u, p.EndsAmid around s u ∧ f u = t := by
  refine (exists_step_bind_iff (k := fun _ u => some (f u)) hs fun _ _ _ _ _ h => h).trans ?_
  simp only [exists_const, Option.some.injEq]

/-! ## One parser -/

/-- A parser whose result is collected in another way ends where it does. -/
theorem endsAmid_collectedAs_iff {d : Disposition} (hs : s.failed = false) :
    (collectedAs d p).EndsAmid around s t ↔
      ∃ u, p.EndsAmid around s u ∧ (if u.failed = true then u else u.collectAs d) = t := by
  rw [endsAmid_iff_step hs, ← exists_step_map_iff hs]
  refine exists_congr fun b => ?_
  simp only [step, Step.collectedAs, apply_ite pure]

/-- A parser whose result is changed ends where it does. -/
theorem endsAmid_map_iff {f : Value ν → Value ν} (hs : s.failed = false) :
    (map f p).EndsAmid around s t ↔
      ∃ u, p.EndsAmid around s u ∧
        (if u.failed = true then u else u.succeed ((f u.result).onLine u.line)) = t := by
  rw [endsAmid_iff_step hs, ← exists_step_map_iff hs]
  refine exists_congr fun b => ?_
  simp only [step, Step.map, apply_ite pure]

/-! ## Two parsers -/

/-- **Two parsers in order** end where the first one fails, or where the second one does, which goes
on from the end of the first one, or where both have succeeded. -/
theorem endsAmid_and_iff (hs : s.failed = false) :
    (and p q).EndsAmid around s t ↔
      (p.EndsAmid around s t ∧ t.failed = true) ∨
      (∃ u, p.EndsAmid around s u ∧ u.failed = false ∧
        q.EndsAmid around u.collected t ∧ t.failed = true) ∨
      ∃ u w, p.EndsAmid around s u ∧ u.failed = false ∧
        q.EndsAmid around u.collected w ∧ w.failed = false ∧ u.joined w = t := by
  rw [endsAmid_iff_step hs]
  refine (exists_step_bind_iff hs fun b b' u t hb => ?_).trans ⟨?_, ?_⟩
  · split
    · exact id
    · exact Step.bind_le (q.step_amid_le around hb u.collected) fun _ h => h
  · rintro ⟨u, hp, h⟩
    cases hu : u.failed with
    | true =>
      simp only [hu, if_true, exists_const] at h
      obtain rfl : u = t := Option.some.inj h
      exact .inl ⟨hp, hu⟩
    | false =>
      simp only [hu, Bool.false_eq_true, if_false, ← apply_ite pure] at h
      obtain ⟨w, hq, rfl⟩ := (exists_step_map_iff (u.failed_collected.trans hu)).1 h
      cases hw : w.failed with
      | true => exact .inr (.inl ⟨u, hp, hu, by simpa [hw] using hq⟩)
      | false => exact .inr (.inr ⟨u, w, hp, hu, hq, hw, by simp [State.joined]⟩)
  · rintro (⟨hp, ht⟩ | ⟨u, hp, hu, hq, ht⟩ | ⟨u, w, hp, hu, hq, hw, rfl⟩)
    · exact ⟨t, hp, by simp [ht]⟩
    · refine ⟨u, hp, ?_⟩
      simp only [hu, Bool.false_eq_true, if_false, ← apply_ite pure]
      exact (exists_step_map_iff (u.failed_collected.trans hu)).2 ⟨t, hq, if_pos ht⟩
    · refine ⟨u, hp, ?_⟩
      simp only [hu, Bool.false_eq_true, if_false, ← apply_ite pure]
      refine (exists_step_map_iff (u.failed_collected.trans hu)).2 ⟨w, hq, ?_⟩
      rw [hw, if_neg Bool.false_ne_true, State.joined]

/-- Once the first parser has succeeded, the second one decides. -/
theorem EndsAmid.exists_and {u w : State ν} (hs : s.failed = false) (hp : p.EndsAmid around s u)
    (hu : u.failed = false) (hq : q.EndsAmid around u.collected w) :
    ∃ t, (and p q).EndsAmid around s t ∧ t.failed = w.failed ∧
      (w.failed = false → t = u.joined w) := by
  cases hw : w.failed with
  | true => exact ⟨w, (endsAmid_and_iff hs).2 (.inr (.inl ⟨u, hp, hu, hq, hw⟩)), hw, nofun⟩
  | false =>
    exact ⟨u.joined w, (endsAmid_and_iff hs).2 (.inr (.inr ⟨u, w, hp, hu, hq, hw, rfl⟩)), rfl,
      fun _ => rfl⟩

/-- Two parsers in order that succeed have joined their results. -/
theorem result_of_endsAmid_and (hs : s.failed = false) (h : (and p q).EndsAmid around s t)
    (ht : t.failed = false) : t.disposition = .splice ∧ t.result = .list t.spliced := by
  rcases (endsAmid_and_iff hs).1 h with ⟨_, hf⟩ | ⟨_, _, _, _, hf⟩ | ⟨_, _, _, _, _, _, rfl⟩
  · simp [ht] at hf
  · simp [ht] at hf
  · exact ⟨rfl, rfl⟩

/-- **A choice of two** ends where the first one succeeds, or where the second one does, which starts
over from the same place, or there if both have failed. -/
theorem endsAmid_or_iff (hs : s.failed = false) :
    (or p q).EndsAmid around s t ↔
      (p.EndsAmid around s t ∧ t.failed = false) ∨
      (∃ u, p.EndsAmid around s u ∧ u.failed = true ∧
        q.EndsAmid around (u.rewind s.cursor) t ∧ t.failed = false) ∨
      ∃ u w, p.EndsAmid around s u ∧ u.failed = true ∧
        q.EndsAmid around (u.rewind s.cursor) w ∧ w.failed = true ∧
        (w.rewind s.cursor).fail (.neither p.label q.label) = t := by
  rw [endsAmid_iff_step hs]
  refine (exists_step_bind_iff hs fun b b' u t hb => ?_).trans ⟨?_, ?_⟩
  · split
    · exact Step.bind_le (q.step_amid_le around hb _) fun _ h => h
    · exact id
  · rintro ⟨u, hp, h⟩
    cases hu : u.failed with
    | true =>
      simp only [hu, if_true, ← apply_ite pure] at h
      obtain ⟨w, hq, rfl⟩ := (exists_step_map_iff rfl).1 h
      cases hw : w.failed with
      | true => exact .inr (.inr ⟨u, w, hp, hu, hq, hw, by simp⟩)
      | false => exact .inr (.inl ⟨u, hp, hu, by simpa [hw] using hq⟩)
    | false =>
      simp only [hu, Bool.false_eq_true, if_false, exists_const] at h
      obtain rfl : u = t := Option.some.inj h
      exact .inl ⟨hp, hu⟩
  · rintro (⟨hp, ht⟩ | ⟨u, hp, hu, hq, ht⟩ | ⟨u, w, hp, hu, hq, hw, rfl⟩)
    · exact ⟨t, hp, by simp [ht]⟩
    · refine ⟨u, hp, ?_⟩
      simp only [hu, if_true, ← apply_ite pure]
      exact (exists_step_map_iff rfl).2 ⟨t, hq, by simp [ht]⟩
    · refine ⟨u, hp, ?_⟩
      simp only [hu, if_true, ← apply_ite pure]
      exact (exists_step_map_iff rfl).2 ⟨w, hq, if_pos hw⟩

/-- Once the first parser has failed, the second one decides. -/
theorem EndsAmid.exists_or {u w : State ν} (hs : s.failed = false) (hp : p.EndsAmid around s u)
    (hu : u.failed = true) (hq : q.EndsAmid around (u.rewind s.cursor) w) :
    ∃ t, (or p q).EndsAmid around s t ∧ t.failed = w.failed ∧ (w.failed = false → t = w) := by
  cases hw : w.failed with
  | true =>
    exact ⟨_, (endsAmid_or_iff hs).2 (.inr (.inr ⟨u, w, hp, hu, hq, hw, rfl⟩)), rfl, nofun⟩
  | false =>
    exact ⟨w, (endsAmid_or_iff hs).2 (.inr (.inl ⟨u, hp, hu, hq, hw⟩)), hw, fun _ => rfl⟩

/-! ## Any number of parsers -/

theorem endsAmid_choice_nil_iff (hs : s.failed = false) :
    (choice []).EndsAmid around s t ↔ t = s.fail .noAlternative := by
  rw [endsAmid_iff_step hs]
  show (∃ _ : Nat, some (s.fail .noAlternative) = some t) ↔ t = s.fail .noAlternative
  rw [exists_const, Option.some.injEq, eq_comm]

/-- **A choice** ends where the first parser succeeds, or where a choice of the others does, which
starts over from the same place.  That it does so rests on the first one's staying on the input. -/
theorem endsAmid_choice_cons_iff (hs : s.failed = false) (hb : s.OnBoundary)
    (hinput : ∀ u, p.EndsAmid around s u → u.input = s.input) :
    (choice (p :: ps)).EndsAmid around s t ↔
      (∃ u, p.EndsAmid around s u ∧ u.failed = false ∧ u.collectAs .keep = t) ∨
      ∃ u, p.EndsAmid around s u ∧ u.failed = true ∧
        (choice ps).EndsAmid around (u.rewind s.cursor) t := by
  have hrest {u : State ν} (hu : p.EndsAmid around s u) :
      (choice ps).EndsAmid around (u.rewind s.cursor) t ↔
        ∃ b, Step.choiceFrom s.cursor (steps b (around.scope b) ps) (u.rewind s.cursor) =
          some t := by
    rw [endsAmid_iff_step (State.failed_rewind u s.cursor)]
    refine exists_congr fun b => ?_
    rw [step, Step.choice, ← (hb.samePlace_rewind (hinput u hu)).cursor]
  rw [endsAmid_iff_step hs]
  refine (exists_step_bind_iff hs fun b b' u t hb => ?_).trans ⟨?_, ?_⟩
  · split
    · exact Step.Le.choiceFrom (steps_amid_le ps around hb) _ _ _
    · exact id
  · rintro ⟨u, hp, h⟩
    cases hu : u.failed with
    | true =>
      simp only [hu, if_true] at h
      exact .inr ⟨u, hp, hu, (hrest hp).2 h⟩
    | false =>
      simp only [hu, Bool.false_eq_true, if_false, exists_const] at h
      exact .inl ⟨u, hp, hu, Option.some.inj h⟩
  · rintro (⟨u, hp, hu, rfl⟩ | ⟨u, hp, hu, hps⟩)
    · exact ⟨u, hp, by simp [hu]⟩
    · refine ⟨u, hp, ?_⟩
      simp only [hu, if_true]
      exact (hrest hp).1 hps

/-- The parsers run one after the other from the state `s`, each from where the one before it ended:
those that succeed end in `ts`, and the whole run in `u`, where one has failed or all have succeeded
and what the last one has produced has been collected. -/
inductive InTurn (around : Surroundings ν) :
    List (Parser ν) → State ν → List (State ν) → State ν → Prop where
  | nil {s : State ν} : InTurn around [] s [] s
  | stop {p : Parser ν} {ps : List (Parser ν)} {s u : State ν} (hp : p.EndsAmid around s u)
      (hu : u.failed = true) : InTurn around (p :: ps) s [] u
  | next {p : Parser ν} {ps : List (Parser ν)} {s t u : State ν} {ts : List (State ν)}
      (hp : p.EndsAmid around s t) (ht : t.failed = false)
      (hps : InTurn around ps t.collected ts u) : InTurn around (p :: ps) s (t :: ts) u

theorem exists_sequenceFrom_iff (hs : s.failed = false) (items : Array (Value ν)) :
    (∃ b, Step.sequenceFrom items (steps b (around.scope b) ps) s = some t) ↔
      ∃ ts u, InTurn around ps s ts u ∧ t = if u.failed = true then u
        else u.succeed (.list (items.toList ++ ts.flatMap State.kept)) := by
  induction ps generalizing s items with
  | nil =>
    show (∃ _ : Nat, some (s.succeed (.list items.toList)) = some t) ↔ _
    rw [exists_const, Option.some.injEq]
    constructor
    · rintro rfl
      exact ⟨[], s, .nil, by simp [hs]⟩
    · rintro ⟨_, _, ⟨⟩, rfl⟩
      simp [hs]
  | cons p ps ih =>
    refine (exists_step_bind_iff hs fun b b' u t hb => ?_).trans ⟨?_, ?_⟩
    · split
      · exact id
      · exact Step.Le.sequenceFrom (steps_amid_le ps around hb) _ _ _
    · rintro ⟨v, hp, hrest⟩
      by_cases hv : v.failed = true
      · simp only [hv, if_true, exists_const] at hrest
        obtain rfl : v = t := Option.some.inj hrest
        exact ⟨[], v, .stop hp hv, (if_pos hv).symm⟩
      · simp only [if_neg hv] at hrest
        rw [Bool.not_eq_true] at hv
        obtain ⟨ts, u, hps, rfl⟩ := (ih (v.failed_collected.trans hv) _).1 hrest
        exact ⟨v :: ts, u, .next hp hv hps, by simp⟩
    · rintro ⟨_, u, hrun, rfl⟩
      cases hrun with
      | stop hp hu => exact ⟨u, hp, by simp [hu]⟩
      | next hp hv hps =>
        refine ⟨_, hp, ?_⟩
        simp only [hv, Bool.false_eq_true, if_false]
        exact (ih ((State.failed_collected _).trans hv) _).2 ⟨_, u, hps, by simp⟩

/-- **A sequence ends where its parsers do that run one after the other**, and lists what those that
are not to be ignored have produced. -/
theorem endsAmid_sequence_iff (hs : s.failed = false) :
    (sequence ps).EndsAmid around s t ↔
      ∃ ts u, InTurn around ps s ts u ∧
        t = if u.failed = true then u else u.succeed (.list (ts.flatMap State.kept)) := by
  rw [endsAmid_iff_step hs]
  exact exists_sequenceFrom_iff hs #[]

end Parser

end TextGrammar
