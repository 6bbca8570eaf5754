import TextGrammar.Step
import TextGrammar.Proofs.Step.Repeat

/-!
# How steps want their results collected

Most steps say themselves how a result of theirs is to be collected, whatever the steps inside of them
say and whatever was said before.

* `Step.CollectsAs` — every success of a step is to be collected in a given way.
* `Step.collectsAs_choice`, `Step.collectsAs_optional`, `Step.collectsAs_map` and others — a step that
  makes a value of what another one produces, or takes it for one, says that the value is to be kept.
* `Step.collectsAs_and`, `Step.collectsAs_collectedAs`, `Step.collectsAs_endOfInput` — those that say
  something else.
-/

namespace TextGrammar.Step

variable {ν : Type}

/-- Every success of the step is to be collected in the given way. -/
def CollectsAs (d : Disposition) (p : Step ν) : Prop :=
  ∀ s t : State ν, p s = some t → t.failed = false → t.disposition = d

/-! ## Single steps -/

theorem collectsAs_literal (text : String) : (literal text : Step ν).CollectsAs .keep := by
  intro s t hrun ht
  unfold literal at hrun
  split at hrun
  · cases hrun
    rfl
  · cases hrun
    cases ht

theorem collectsAs_pattern (pattern : Pattern) :
    (Step.pattern pattern : Step ν).CollectsAs .keep := by
  intro s t hrun ht
  unfold Step.pattern at hrun
  split at hrun
  · cases hrun
    rfl
  · cases hrun
    cases ht

theorem collectsAs_endOfInput : (endOfInput : Step ν).CollectsAs .ignore := by
  intro s t hrun ht
  unfold endOfInput at hrun
  split at hrun
  · cases hrun
    rfl
  · cases hrun
    cases ht

theorem collectsAs_collectedAs (d : Disposition) (p : Step ν) :
    (collectedAs d p).CollectsAs d := by
  intro s t hrun ht
  obtain ⟨u, _, hrun⟩ := Option.bind_eq_some_iff.1 hrun
  split at hrun
  · rename_i hu
    cases hrun
    simp [hu] at ht
  · cases hrun
    rfl

theorem collectsAs_mapWithLine (f : Value ν → Nat → Value ν) (p : Step ν) :
    (mapWithLine f p).CollectsAs .keep := by
  intro s t hrun ht
  obtain ⟨u, _, hrun⟩ := Option.bind_eq_some_iff.1 hrun
  split at hrun
  · rename_i hu
    cases hrun
    simp [hu] at ht
  · cases hrun
    rfl

theorem collectsAs_map (f : Value ν → Value ν) (p : Step ν) : (map f p).CollectsAs .keep :=
  collectsAs_mapWithLine (fun v _ => f v) p

/-- That holds of a value that has been made of a failure, and of one that was there. -/
theorem collectsAs_recover (f : ParseError → Value ν) (p : Step ν) :
    (recover f p).CollectsAs .keep := by
  intro s t hrun _
  obtain ⟨u, _, hrun⟩ := Option.bind_eq_some_iff.1 hrun
  split at hrun <;> cases hrun <;> rfl

/-! ## Steps in sequence -/

theorem collectsAs_sequenceFrom (items : Array (Value ν)) (ps : List (Step ν)) :
    (sequenceFrom items ps).CollectsAs .keep := by
  induction ps generalizing items with
  | nil =>
    intro s t hrun _
    cases hrun
    rfl
  | cons p ps ih =>
    intro s t hrun ht
    obtain ⟨u, _, hrun⟩ := Option.bind_eq_some_iff.1 hrun
    split at hrun
    · rename_i hu
      cases hrun
      simp [hu] at ht
    · exact ih _ u.collected t hrun ht

theorem collectsAs_sequence (ps : List (Step ν)) : (sequence ps).CollectsAs .keep :=
  collectsAs_sequenceFrom #[] ps

theorem collectsAs_and (p q : Step ν) : (Step.and p q).CollectsAs .splice := by
  intro s t hrun ht
  obtain ⟨u, _, hrun⟩ := Option.bind_eq_some_iff.1 hrun
  split at hrun
  · rename_i hu
    cases hrun
    simp [hu] at ht
  · obtain ⟨w, _, hrun⟩ := Option.bind_eq_some_iff.1 hrun
    split at hrun
    · rename_i hw
      cases hrun
      simp [hw] at ht
    · cases hrun
      rfl

/-! ## Choices -/

/-- A branch that is to be left out or spliced is not so once it has been chosen. -/
theorem collectsAs_choiceFrom (start : Nat) (ps : List (Step ν)) :
    (choiceFrom start ps).CollectsAs .keep := by
  induction ps with
  | nil =>
    intro s t hrun ht
    cases hrun
    cases ht
  | cons p ps ih =>
    intro s t hrun ht
    obtain ⟨u, _, hrun⟩ := Option.bind_eq_some_iff.1 hrun
    split at hrun
    · exact ih (u.rewind start) t hrun ht
    · cases hrun
      rfl

theorem collectsAs_choice (ps : List (Step ν)) : (choice ps).CollectsAs .keep :=
  fun s t hrun ht => collectsAs_choiceFrom s.cursor ps s t hrun ht

theorem collectsAs_optional (p : Step ν) : (Step.optional p).CollectsAs .keep := by
  intro s t hrun _
  obtain ⟨u, _, hrun⟩ := Option.bind_eq_some_iff.1 hrun
  split at hrun <;> cases hrun <;> rfl

/-! ## Repetitions -/

theorem collectsAs_many (budget least : Nat) (label : String) (p : Step ν) :
    Step.CollectsAs .keep (many budget least label p) := by
  intro s t hrun ht
  obtain ⟨g, _, hrun⟩ := Option.bind_eq_some_iff.1 hrun
  split at hrun
  · cases hrun
    cases ht
  · cases hrun
    rfl

theorem collectsAs_separated (budget least : Nat) (valueLabel separatorLabel : String)
    (value separator : Step ν) :
    Step.CollectsAs .keep (separated budget least valueLabel separatorLabel value separator) := by
  intro s t hrun ht
  obtain ⟨g, _, hrun⟩ := Option.bind_eq_some_iff.1 hrun
  split at hrun
  · cases hrun
    cases ht
  · cases hrun
    rfl

theorem collectsAs_all (budget : Nat) (label : String) (p : Step ν) :
    Step.CollectsAs .keep (all budget label p) := by
  intro s t hrun ht
  rcases allFrom_cases (I := fun _ => True) (fun _ _ _ _ _ => trivial) trivial hrun with
    ⟨_, _, _, hf⟩ | ⟨_, _, _, rfl⟩ | ⟨_, _, _, rfl⟩
  · simp [hf] at ht
  · rfl
  · cases ht

end TextGrammar.Step
