import TextGrammar.Step

/-!
# Invariants of repeated steps

What every round of a repetition keeps holds of what the repetition has gathered in the end.  A
repetition has no other way to end than those listed here.

* `Step.manyFrom_invariant`, `Step.separatedFrom_invariant` — the rules for repetitions that a
  failure ends.
* `Step.allFrom_cases` — the rule for the repetition that runs up to the end of the input, with the
  three ways in which it ends.
-/

namespace TextGrammar.Step

variable {ν : Type} {p value separator : Step ν} {I : Harvest ν → Prop}

/-- **What the rounds of a repetition keep holds at its end.** -/
theorem manyFrom_invariant
    (hstop : ∀ h t, I h → p h.state = some t → t.failed = true →
      I (h.stop (t.rewind h.state.cursor)))
    (hadd : ∀ h t, I h → p h.state = some t → t.failed = false → I (h.add t))
    {b : Nat} {h h' : Harvest ν} (hI : I h) (hrun : manyFrom p b h = some h') : I h' := by
  induction b generalizing h with
  | zero => cases hrun
  | succ b ih =>
    obtain ⟨t, ht, hrun⟩ := Option.bind_eq_some_iff.1 hrun
    split at hrun
    · rename_i hf
      cases hrun
      exact hstop h t hI ht hf
    · rename_i hf
      have hI' : I (h.add t) := hadd h t hI ht (by simpa using hf)
      split at hrun
      · cases hrun
        exact hI'
      · exact ih hI' hrun

/-- **What the rounds of a repetition with separators keep holds at its end.**  The separator runs
behind a value that has been collected, and where it fails it gives back what it has taken. -/
theorem separatedFrom_invariant
    (hstop : ∀ h t, I h → value h.state = some t → t.failed = true →
      I (h.stop (t.rewind h.state.cursor)))
    (hlast : ∀ h t u, I h → value h.state = some t → t.failed = false →
      separator t.collected = some u → u.failed = true → I ((h.add t).stop (u.rewind t.cursor)))
    (hnext : ∀ h t u, I h → value h.state = some t → t.failed = false →
      separator t.collected = some u → u.failed = false → I ((h.add t).stop u))
    {b : Nat} {h h' : Harvest ν} (hI : I h) (hrun : separatedFrom value separator b h = some h') :
    I h' := by
  induction b generalizing h with
  | zero => cases hrun
  | succ b ih =>
    obtain ⟨t, ht, hrun⟩ := Option.bind_eq_some_iff.1 hrun
    split at hrun
    · rename_i hf
      cases hrun
      exact hstop h t hI ht hf
    · rename_i hf
      rw [Bool.not_eq_true] at hf
      obtain ⟨u, hu, hrun⟩ := Option.bind_eq_some_iff.1 hrun
      split at hrun
      · rename_i hg
        cases hrun
        exact hlast h t u hI ht hf hu hg
      · rename_i hg
        rw [Bool.not_eq_true] at hg
        have hI' : I ((h.add t).stop u) := hnext h t u hI ht hf hu hg
        split at hrun
        · cases hrun
          exact hI'
        · exact ih hI' hrun

/-- **A repetition up to the end of the input ends in one of three ways:** with a round that fails,
with a list at the end of the input, or with a round that takes no text before it. -/
theorem allFrom_cases {label : String}
    (hadd : ∀ h t, I h → p h.state = some t → t.failed = false → I (h.add t))
    {b : Nat} {h : Harvest ν} {t : State ν} (hI : I h) (hrun : allFrom label p b h = some t) :
    (∃ h', I h' ∧ p h'.state = some t ∧ t.failed = true) ∨
      (∃ h', I h' ∧ h'.state.atEnd = true ∧ t = h'.succeed) ∨
      (∃ h', I h' ∧ h'.state.atEnd = false ∧
        t = h'.state.fail (.stalled label h'.state.rest)) := by
  induction b generalizing h with
  | zero => cases hrun
  | succ b ih =>
    obtain ⟨u, hu, hrun⟩ := Option.bind_eq_some_iff.1 hrun
    split at hrun
    · rename_i hf
      cases hrun
      exact .inl ⟨h, hI, hu, hf⟩
    · rename_i hf
      have hI' : I (h.add u) := hadd h u hI hu (by simpa using hf)
      have hinput : (h.add u).state.input = u.input := u.input_collected
      have hcursor : (h.add u).state.cursor = u.cursor := u.cursor_collected
      have hend : (h.add u).state.atEnd = u.atEnd := by
        rw [State.atEnd, State.atEnd, hinput, hcursor]
      simp only at hrun
      split at hrun
      · rename_i he
        cases hrun
        exact .inr (.inl ⟨h.add u, hI', hend.trans he, rfl⟩)
      · rename_i he
        split at hrun
        · cases hrun
          refine .inr (.inr ⟨h.add u, hI', hend.trans (by simpa using he), ?_⟩)
          rw [State.rest, State.rest, hinput, hcursor]
        · exact ih hI' hrun

end TextGrammar.Step
