import TextGrammar.Step
import TextGrammar.Proofs.Step.Repeat

/-!
# Conditions that steps keep

The steps of this library come from state to state by the operations of `State` only, and of those
only one tells that a recursive parser was used outside of its definition.

* `State.Lasting` — a condition on states that all other operations keep.
* `Step.Keeps` — a step that leads from states of that condition to states of that condition.
* `Step.keeps_literal` to `Step.Keeps.fix` — every way to put steps together keeps it.
* `State.Settled` — the condition that no recursive parser has been used outside of its definition.
-/

namespace TextGrammar

variable {ν : Type}

/-- A condition that holds still after every operation, but perhaps not after the failure of a
recursive parser that is used outside of its definition. -/
structure State.Lasting (I : State ν → Prop) : Prop where
  advance : ∀ {s}, I s → ∀ n v, I (s.advance n v)
  fail : ∀ {s}, I s → ∀ f : Failure, f.kind ≠ .danglingRecursion → I (s.fail f)
  collectAs : ∀ {s}, I s → ∀ d, I (s.collectAs d)
  take : ∀ {s}, I s → I s.take
  rewind : ∀ {s}, I s → ∀ n, I (s.rewind n)

/-- A step that ends in a state of a condition whenever it begins in one. -/
def Step.Keeps (I : State ν → Prop) (p : Step ν) : Prop := ∀ s t, I s → p s = some t → I t

variable {I : State ν → Prop} {p q : Step ν} {ps : List (Step ν)}

namespace State.Lasting

variable (hI : Lasting I) {s : State ν}

include hI

theorem succeed (h : I s) (v : Value ν) : I (s.succeed v) := hI.advance h 0 v

theorem collected (h : I s) : I s.collected := by
  unfold State.collected
  split
  · exact h
  · exact hI.take h

end State.Lasting

namespace Step

variable (hI : State.Lasting I)

include hI

/-! ## Single steps -/

theorem keeps_literal (text : String) : (literal text).Keeps I := by
  intro s t hs hrun
  unfold literal at hrun
  split at hrun
  · cases hrun
    exact hI.advance hs _ _
  · cases hrun
    exact hI.fail hs _ nofun

theorem keeps_pattern (pattern : Pattern) : (Step.pattern pattern).Keeps I := by
  intro s t hs hrun
  unfold Step.pattern at hrun
  split at hrun
  · cases hrun
    exact hI.advance hs _ _
  · cases hrun
    exact hI.fail hs _ nofun

theorem keeps_endOfInput : endOfInput.Keeps I := by
  intro s t hs hrun
  unfold endOfInput at hrun
  split at hrun
  · cases hrun
    exact hI.collectAs (hI.succeed hs _) _
  · cases hrun
    exact hI.fail hs _ nofun

theorem Keeps.collectedAs (hp : p.Keeps I) (d : Disposition) : (collectedAs d p).Keeps I := by
  intro s t hs hrun
  obtain ⟨u, hu, hrun⟩ := Option.bind_eq_some_iff.1 hrun
  have hkept := hp s u hs hu
  split at hrun
  · cases hrun
    exact hkept
  · cases hrun
    exact hI.collectAs hkept d

theorem Keeps.mapWithLine (hp : p.Keeps I) (f : Value ν → Nat → Value ν) :
    (mapWithLine f p).Keeps I := by
  intro s t hs hrun
  obtain ⟨u, hu, hrun⟩ := Option.bind_eq_some_iff.1 hrun
  have hkept := hp s u hs hu
  split at hrun
  · cases hrun
    exact hkept
  · cases hrun
    exact hI.succeed hkept _

theorem Keeps.map (hp : p.Keeps I) (f : Value ν → Value ν) : (map f p).Keeps I :=
  Keeps.mapWithLine hI hp fun v _ => f v

theorem Keeps.recover (hp : p.Keeps I) (f : ParseError → Value ν) : (recover f p).Keeps I := by
  intro s t hs hrun
  obtain ⟨u, hu, hrun⟩ := Option.bind_eq_some_iff.1 hrun
  have hkept := hp s u hs hu
  split at hrun
  · cases hrun
    exact hI.collectAs hkept .keep
  · cases hrun
    exact hI.succeed (hI.rewind hkept _) _

theorem Keeps.optional (hp : p.Keeps I) : (Step.optional p).Keeps I := by
  intro s t hs hrun
  obtain ⟨u, hu, hrun⟩ := Option.bind_eq_some_iff.1 hrun
  have hkept := hp s u hs hu
  split at hrun
  · cases hrun
    exact hI.rewind hkept _
  · cases hrun
    exact hI.collectAs hkept .keep

theorem Keeps.chain (hp : p.Keeps I) {next : Value ν → Step ν} (hn : ∀ v, (next v).Keeps I) :
    (chain next p).Keeps I := by
  intro s t hs hrun
  obtain ⟨u, hu, hrun⟩ := Option.bind_eq_some_iff.1 hrun
  have hkept := hp s u hs hu
  split at hrun
  · cases hrun
    exact hkept
  · exact hn u.result u.take t (hI.take hkept) hrun

/-! ## Several steps -/

theorem keeps_sequenceFrom (hps : ∀ p ∈ ps, p.Keeps I) (items : Array (Value ν)) :
    (sequenceFrom items ps).Keeps I := by
  induction ps generalizing items with
  | nil =>
    intro s t hs hrun
    cases hrun
    exact hI.succeed hs _
  | cons p ps ih =>
    intro s t hs hrun
    obtain ⟨u, hu, hrun⟩ := Option.bind_eq_some_iff.1 hrun
    have hkept := hps p List.mem_cons_self s u hs hu
    split at hrun
    · cases hrun
      exact hkept
    · exact ih (fun p hp => hps p (List.mem_cons_of_mem _ hp)) _ u.collected t
        (hI.collected hkept) hrun

theorem keeps_sequence (hps : ∀ p ∈ ps, p.Keeps I) : (sequence ps).Keeps I :=
  keeps_sequenceFrom hI hps #[]

theorem Keeps.and (hp : p.Keeps I) (hq : q.Keeps I) : (Step.and p q).Keeps I := by
  intro s t hs hrun
  obtain ⟨u, hu, hrun⟩ := Option.bind_eq_some_iff.1 hrun
  have hkept := hp s u hs hu
  split at hrun
  · cases hrun
    exact hkept
  · obtain ⟨w, hw, hrun⟩ := Option.bind_eq_some_iff.1 hrun
    have hkept' := hq u.collected w (hI.collected hkept) hw
    split at hrun
    · cases hrun
      exact hkept'
    · cases hrun
      exact hI.collectAs (hI.succeed hkept' _) .splice

theorem Keeps.or (hp : p.Keeps I) (hq : q.Keeps I) (left right : String) :
    (Step.or left right p q).Keeps I := by
  intro s t hs hrun
  obtain ⟨u, hu, hrun⟩ := Option.bind_eq_some_iff.1 hrun
  have hkept := hp s u hs hu
  split at hrun
  · obtain ⟨w, hw, hrun⟩ := Option.bind_eq_some_iff.1 hrun
    have hkept' := hq _ w (hI.rewind hkept _) hw
    split at hrun
    · cases hrun
      exact hI.fail (hI.rewind hkept' _) _ nofun
    · cases hrun
      exact hkept'
  · cases hrun
    exact hkept

theorem keeps_choiceFrom (hps : ∀ p ∈ ps, p.Keeps I) (start : Nat) :
    (choiceFrom start ps).Keeps I := by
  induction ps with
  | nil =>
    intro s t hs hrun
    cases hrun
    exact hI.fail hs _ nofun
  | cons p ps ih =>
    intro s t hs hrun
    obtain ⟨u, hu, hrun⟩ := Option.bind_eq_some_iff.1 hrun
    have hkept := hps p List.mem_cons_self s u hs hu
    split at hrun
    · exact ih (fun p hp => hps p (List.mem_cons_of_mem _ hp)) _ t (hI.rewind hkept _) hrun
    · cases hrun
      exact hI.collectAs hkept .keep

theorem keeps_choice (hps : ∀ p ∈ ps, p.Keeps I) : (choice ps).Keeps I :=
  fun s => keeps_choiceFrom hI hps s.cursor s

/-! ## Repetition -/

theorem Keeps.many (hp : p.Keeps I) (budget least : Nat) (label : String) :
    Step.Keeps I (many budget least label p) := by
  intro s t hs hrun
  obtain ⟨h, hh, hrun⟩ := Option.bind_eq_some_iff.1 hrun
  have hkept : I h.state := manyFrom_invariant (I := fun h => I h.state)
    (fun h t hs ht _ => hI.rewind (hp _ t hs ht) _)
    (fun h t hs ht _ => hI.collected (hp _ t hs ht)) hs hh
  split at hrun
  · cases hrun
    exact hI.fail (hI.rewind hkept _) _ nofun
  · cases hrun
    exact hI.succeed hkept _

theorem Keeps.separated (hp : p.Keeps I) (hq : q.Keeps I) (budget least : Nat)
    (value separator : String) : Step.Keeps I (separated budget least value separator p q) := by
  intro s t hs hrun
  obtain ⟨h, hh, hrun⟩ := Option.bind_eq_some_iff.1 hrun
  have hkept : I h.state := separatedFrom_invariant (I := fun h => I h.state)
    (fun h t hs ht _ => hI.rewind (hp _ t hs ht) _)
    (fun h t u hs ht _ hu _ => hI.rewind (hq _ u (hI.collected (hp _ t hs ht)) hu) _)
    (fun h t u hs ht _ hu _ => hq _ u (hI.collected (hp _ t hs ht)) hu) hs hh
  split at hrun
  · cases hrun
    exact hI.fail (hI.rewind hkept _) _ nofun
  · cases hrun
    exact hI.succeed hkept _

theorem Keeps.all (hp : p.Keeps I) (budget : Nat) (label : String) :
    Step.Keeps I (all budget label p) := by
  intro s t hs hrun
  rcases allFrom_cases (I := fun h => I h.state)
    (fun h t hs ht _ => hI.collected (hp _ t hs ht)) hs hrun with
    ⟨h, hs, ht, _⟩ | ⟨h, hs, _, rfl⟩ | ⟨h, hs, _, rfl⟩
  · exact hp _ t hs ht
  · exact hI.succeed hs _
  · exact hI.fail hs _ nofun

/-! ## Recursion -/

omit hI in
/-- What the body of a recursion keeps, the recursion keeps. -/
theorem Keeps.fix {body : Step ν → Step ν} (h : ∀ p : Step ν, p.Keeps I → (body p).Keeps I)
    (budget : Nat) : (fix body budget).Keeps I := by
  induction budget with
  | zero =>
    intro s t _ hrun
    cases hrun
  | succ budget ih => exact h _ ih

end Step

/-! ## Recursive parsers in their place -/

/-- Recursive parsers have been used `n` times outside of their definitions, and that is not why the
parse has failed, if it has. -/
structure State.Settled (n : Nat) (t : State ν) : Prop where
  strayed : t.strayed = n
  kind : ∀ f : Failure, t.failure = some f → f.kind ≠ .danglingRecursion

theorem State.lasting_settled (n : Nat) : State.Lasting (State.Settled (ν := ν) n) where
  advance h _ _ := ⟨h.strayed, nofun⟩
  fail h f hf := ⟨h.strayed, fun f' hf' => by cases hf'; exact hf⟩
  collectAs h _ := ⟨h.strayed, h.kind⟩
  take h := ⟨h.strayed, h.kind⟩
  rewind h _ := ⟨h.strayed, nofun⟩

end TextGrammar
