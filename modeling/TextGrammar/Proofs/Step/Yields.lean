import TextGrammar.Proofs.Step.Takes
import Mathlib.Data.List.Forall2

/-!
# Steps with results up to a condition

The rules for the ways to put steps in order where the results are known no more than up to a
condition.

* `Step.Yields.and`, `Step.Yields.between` — two steps in order, and a step between two others.
* `Step.Rounds`, `Step.Rounds.yields` — the rounds of a repetition, and the rule for all of them.
-/

namespace TextGrammar

variable {ν : Type}

namespace Step

variable {p q : Step ν} {taken ahead x y : List Char} {v v' : Value ν} {P Q : Value ν → Prop}
  {d d' : Disposition}

/-! ### Steps in order -/

/-- **Two steps in order take what they take in turn**, and join what each adds to a list. -/
theorem Yields.and (hp : p.Yields x (y ++ ahead) P d) (hq : q.Yields y ahead Q d') :
    (and p q).Yields (x ++ y) ahead
      (fun v => ∃ a b, P a ∧ Q b ∧ v = .list (State.splicedOf a d ++ State.splicedOf b d'))
      .splice := by
  intro s hs
  have hs' := hs
  rw [List.append_assoc] at hs'
  obtain ⟨t, a, ht, ha, htook⟩ := hp s hs'
  obtain ⟨u, b, hu, hb, htook'⟩ := hq _ (htook.at hs').collected
  have hboth := htook.trans (State.samePlace_collected t) htook'
  refine ⟨_, _, ?_, ⟨a, b, ha, hb, rfl⟩, (hboth.succeed hs _).collectAs .splice⟩
  simp [Step.and, ht, htook.failed, htook.spliced, hu, htook'.failed, htook'.spliced]

theorem Takes.and (hp : p.Takes x (y ++ ahead) v d) (hq : q.Takes y ahead v' d') :
    (and p q).Takes (x ++ y) ahead (.list (State.splicedOf v d ++ State.splicedOf v' d'))
      .splice := by
  refine ((takes_iff_yields.1 hp).and (takes_iff_yields.1 hq)).takes ?_
  rintro _ ⟨_, _, rfl, rfl, rfl⟩
  rfl

/-- Between two others, a step gives its own result, on the line on which the last one ends. -/
theorem Yields.between {opening closing center : Step ν} {w w' : Value ν} {e e' : Disposition}
    (ho : opening.Takes x (taken ++ (y ++ ahead)) w e)
    (hp : center.Yields taken (y ++ ahead) P .keep) (hc : closing.Takes y ahead w' e')
    (hQ : ∀ w line, P w → Q (w.onLine line)) :
    (Step.between opening closing center).Yields (x ++ (taken ++ y)) ahead Q .keep := by
  have hcenter : Yields (sequence [collectedAs .ignore opening, center,
      collectedAs .ignore closing]) (x ++ (taken ++ y)) ahead
        (fun v => ∃ a, P a ∧ v = .list [a]) .keep := by
    intro s hs
    have hs' := hs
    rw [List.append_assoc, List.append_assoc] at hs'
    obtain ⟨t, ht, htook⟩ := ho.collectedAs .ignore s hs'
    obtain ⟨u, a, hu, ha, htook'⟩ := hp _ (htook.at hs').collected
    have hopen := htook.trans (State.samePlace_collected t) htook'
    rw [← List.append_assoc] at hs'
    obtain ⟨r, hr, htook''⟩ := hc.collectedAs .ignore _ (hopen.at hs').collected
    have hall := hopen.trans (State.samePlace_collected u) htook''
    rw [List.append_assoc] at hall
    have hcollected : r.collected = r := by rw [State.collected, htook''.disposition]
    refine ⟨r.succeed (.list [a]), .list [a], ?_, ⟨a, ha, rfl⟩, hall.succeed hs _⟩
    simp [sequence, sequenceFrom, ht, htook.failed, htook.kept, hu, htook'.failed, htook'.kept, hr,
      htook''.failed, htook''.kept, hcollected, State.keptOf]
  refine hcenter.map ?_
  rintro _ line ⟨a, ha, rfl⟩
  exact hQ a line ha

/-! ### Repetition -/

/-- In front of the text `taken ++ ahead`, the step takes `taken` in rounds and then fails; the
results of the rounds meet the conditions in order. -/
inductive Rounds (p : Step ν) : (taken ahead : List Char) → List (Value ν → Prop) → Prop where
  | stop {ahead : List Char} {f : Failure} {n : Nat} (hstop : p.Refuses ahead f n) :
      Rounds p [] ahead []
  | next {taken taken' ahead : List Char} {P : Value ν → Prop} {Ps : List (Value ν → Prop)}
      {d : Disposition} (hround : p.Yields taken (taken' ++ ahead) P d) (hd : d ≠ .ignore)
      (hne : taken ≠ []) (htail : Rounds p taken' ahead Ps) :
      Rounds p (taken ++ taken') ahead (P :: Ps)

variable {Ps : List (Value ν → Prop)}

theorem Rounds.manyFrom (h : Rounds p taken ahead Ps) {b : Nat} (hb : taken.length < b)
    {g : Harvest ν} (hg : g.state.At (taken ++ ahead)) :
    ∃ g' items, manyFrom p b g = some g' ∧ g'.count = g.count + Ps.length ∧
      g'.items.toList = g.items.toList ++ items ∧ List.Forall₂ (fun v P => P v) items Ps ∧
      ∃ v d, g.state.Took taken v d g'.state := by
  obtain ⟨b, rfl⟩ := Nat.exists_eq_add_of_le' (Nat.lt_of_le_of_lt (Nat.zero_le _) hb)
  induction h generalizing b g with
  | stop hstop =>
    obtain ⟨t, ht, hrefused⟩ := hstop g.state hg
    refine ⟨g.stop (t.rewind g.state.cursor), [], ?_, rfl, (List.append_nil _).symm, .nil, _, _,
      hg.took_rewind hrefused.input⟩
    simp [Step.manyFrom, ht, hrefused.failed]
  | @next taken taken' ahead P Ps d hround hd hne htail ih =>
    rw [List.append_assoc] at hg
    obtain ⟨t, v, ht, hv, htook⟩ := hround g.state hg
    have hcursor : t.cursor ≠ g.state.cursor := by
      have hpos := Text.byteLength_pos hne
      rw [htook.cursor]
      omega
    have hlength := List.length_pos_iff.2 hne
    rw [List.length_append] at hb
    obtain ⟨b, rfl⟩ := Nat.exists_eq_add_of_le' (show 1 ≤ b by omega)
    obtain ⟨g', items, hg', hcount, hitems, hall, w, e, htail⟩ :=
      ih (g := g.add t) (htook.at hg).collected b (by omega)
    have hround : Step.manyFrom p (b + 1 + 1) g = Step.manyFrom p (b + 1) (g.add t) := by
      rw [Step.manyFrom]
      simp [ht, htook.failed, hcursor]
    have hkept : State.keptOf v d = [v] := by
      cases d with
      | keep => rfl
      | ignore => exact absurd rfl hd
      | splice => rfl
    refine ⟨g', v :: items, hround.trans hg', ?_, ?_, .cons hv hall, w, e,
      htook.trans (State.samePlace_collected t) htail⟩
    · rw [hcount]
      show g.count + 1 + Ps.length = g.count + (Ps.length + 1)
      omega
    · rw [hitems, htook.toList_add, hkept, List.append_assoc]
      rfl

/-- **A repetition takes what its rounds take together.** -/
theorem Rounds.yields (h : Rounds p taken ahead Ps) {b : Nat} (hb : taken.length < b) {least : Nat}
    (hleast : least ≤ Ps.length) (label : String) :
    Yields (many b least label p) taken ahead
      (fun v => ∃ items, v = .list items ∧ List.Forall₂ (fun v P => P v) items Ps) .keep := by
  intro s hs
  obtain ⟨g, items, hg, hcount, hitems, hall, v, d, htook⟩ := h.manyFrom hb (g := .start s) hs
  have hitems : g.items.toList = items := hitems
  refine ⟨g.succeed, .list items, ?_, ⟨items, rfl, hall⟩, ?_⟩
  · have hle : ¬ g.count < least := by
      rw [hcount]
      exact Nat.not_lt.2 (Nat.le_trans hleast (Nat.le_add_left _ _))
    simp [Step.many, hg, hle]
  · rw [Harvest.succeed, hitems]
    exact htook.succeed hs (.list items)

end Step

end TextGrammar
