import TextGrammar.Step
import TextGrammar.Proofs.Lockstep.Basic
import Mathlib.Data.List.Forall2

/-!
# Steps in lockstep

Every way to put steps together keeps two runs in lockstep, if what is put together does.  One lemma
for each way, `Lockstep.or`, `Lockstep.sequence` and so on; repetitions and recursion by induction on
the budget, which both runs share.
-/

namespace TextGrammar.Pairing

open Step

variable {ν : Type} {K : Pairing ν} {p q p' q' : Step ν}

theorem rel_bind {α β γ δ : Type} {R : α → β → Prop} {S : γ → δ → Prop} {x : Option α}
    {y : Option β} {f : α → Option γ} {g : β → Option δ} (h : Option.Rel R x y)
    (hf : ∀ a b, R a b → Option.Rel S (f a) (g b)) : Option.Rel S (x >>= f) (y >>= g) := by
  cases h with
  | none => exact .none
  | some hab => exact hf _ _ hab

/-! ## Matching text -/

theorem Lockstep.literal (text : String) : K.Lockstep (literal text) (literal text) := by
  intro s s' _ _ hp
  unfold Step.literal
  rw [hp.rest_eq]
  split
  · exact .some (Outcomes.advance hp _ rfl)
  · exact .some (Outcomes.fail hp (Failures.refl _))

theorem Lockstep.pattern (p : Pattern) : K.Lockstep (pattern p) (pattern p) := by
  intro s s' _ _ hp
  unfold Step.pattern
  rw [hp.rest_eq]
  split
  · exact .some (Outcomes.advance hp _ rfl)
  · exact .some (Outcomes.fail hp (Failures.refl _))

theorem Lockstep.endOfInput : K.Lockstep endOfInput endOfInput := by
  intro s s' _ _ hp
  unfold Step.endOfInput
  rw [hp.rest_eq, hp.atEnd_eq]
  split
  · exact .some ((Outcomes.succeed hp rfl).collectAs _)
  · exact .some (Outcomes.fail hp (Failures.refl _))

theorem Lockstep.stray : K.Lockstep stray stray := fun _ _ _ _ hp => .some (Outcomes.stray hp)

/-! ## Single steps -/

theorem Lockstep.unlessFailed (h : K.Lockstep p p') {s s' : State ν} (hs : s.failed = false)
    (hs' : s'.failed = false) (hp : K.Places s s') :
    Option.Rel K.Outcomes (Step.unlessFailed p s) (Step.unlessFailed p' s') := by
  rw [Step.unlessFailed, Step.unlessFailed, hs, hs']
  exact h s s' hs hs' hp

theorem Lockstep.collectedAs (d : Disposition) (h : K.Lockstep p p') :
    K.Lockstep (collectedAs d p) (collectedAs d p') := by
  intro s s' hs hs' hp
  refine rel_bind (h s s' hs hs' hp) fun t t' ht => ?_
  rw [ht.failed_eq]
  split
  · exact .some ht
  · exact .some (ht.collectAs d)

theorem Lockstep.optional (h : K.Lockstep p p') : K.Lockstep (optional p) (optional p') := by
  intro s s' hs hs' hp
  refine rel_bind (h s s' hs hs' hp) fun t t' ht => ?_
  rw [ht.failed_eq]
  split
  · exact .some (ht.rewind hp)
  · exact .some (ht.collectAs .keep)

theorem Lockstep.mapWithLine {f f' : Value ν → Nat → Value ν}
    (hf : ∀ v v' n, K.view.see v = K.view.see v' →
      K.view.see ((f v (K.ahead.count '\n' + n)).onLine (K.ahead.count '\n' + n)) =
        K.view.see ((f' v' n).onLine n))
    (h : K.Lockstep p p') : K.Lockstep (mapWithLine f p) (mapWithLine f' p') := by
  intro s s' hs hs' hp
  refine rel_bind (h s s' hs hs' hp) fun t t' ht => ?_
  have hfailed := ht.failed_eq
  rw [hfailed]
  split
  · exact .some ht
  · rename_i hok
    rw [Bool.not_eq_true, ← hfailed] at hok
    refine .some (Outcomes.succeed ht.toPlaces ?_)
    rw [ht.toPlaces.line_eq]
    exact hf _ _ _ (ht.result hok)

theorem Lockstep.map {f f' : Value ν → Value ν}
    (hf : ∀ v v' n, K.view.see v = K.view.see v' →
      K.view.see ((f v).onLine (K.ahead.count '\n' + n)) = K.view.see ((f' v').onLine n))
    (h : K.Lockstep p p') : K.Lockstep (map f p) (map f' p') :=
  @Lockstep.mapWithLine ν K p p' (fun v _ => f v) (fun v _ => f' v) hf h

theorem Lockstep.recover {f f' : ParseError → Value ν}
    (hf : ∀ e e' : ParseError, e.kind = e'.kind → (K.strict = true → e.message = e'.message) →
      e.position = Text.byteLength K.ahead + e'.position → e.line = K.ahead.count '\n' + e'.line →
      K.view.see ((f e).onLine e.line) = K.view.see ((f' e').onLine e'.line))
    (h : K.Lockstep p p') : K.Lockstep (recover f p) (recover f' p') := by
  intro s s' hs hs' hp
  refine rel_bind (h s s' hs hs' hp) fun t t' ht => ?_
  have herror := ht.error?_rel
  generalize t.error? = e at herror ⊢
  generalize t'.error? = e' at herror ⊢
  cases herror with
  | none => exact .some (ht.collectAs .keep)
  | some he =>
    refine .some (Outcomes.succeed (ht.rewind ht.toPlaces).toPlaces ?_)
    exact hf _ _ he.1 he.2.1 he.2.2.1 he.2.2.2

theorem Lockstep.chain {next next' : Value ν → Step ν}
    (hn : ∀ v v', K.view.see v = K.view.see v' → K.Lockstep (next v) (next' v'))
    (h : K.Lockstep p p') : K.Lockstep (chain next p) (chain next' p') := by
  intro s s' hs hs' hp
  refine rel_bind (h s s' hs hs' hp) fun t t' ht => ?_
  have hfailed := ht.failed_eq
  rw [hfailed]
  split
  · exact .some ht
  · rename_i hok'
    rw [Bool.not_eq_true] at hok'
    have hok : t.failed = false := hfailed.trans hok'
    exact hn _ _ (ht.result hok) _ _ hok hok' ⟨ht.chars, ht.cursor⟩

/-! ## Several steps -/

theorem Lockstep.sequenceFrom {ps ps' : List (Step ν)} (h : List.Forall₂ K.Lockstep ps ps')
    {items items' : Array (Value ν)}
    (hi : items.toList.map K.view.see = items'.toList.map K.view.see) :
    K.Lockstep (sequenceFrom items ps) (sequenceFrom items' ps') := by
  induction h generalizing items items' with
  | nil =>
    intro s s' _ _ hp
    refine .some (Outcomes.succeed hp ?_)
    rw [K.view.see_list, K.view.see_list, hi]
  | cons h _ ih =>
    intro s s' hs hs' hp
    refine rel_bind (h s s' hs hs' hp) fun t t' ht => ?_
    have hfailed := ht.failed_eq
    rw [hfailed]
    split
    · exact .some ht
    · rename_i hok'
      rw [Bool.not_eq_true] at hok'
      have hok : t.failed = false := hfailed.trans hok'
      refine ih ?_ _ _ ?_ ?_ ht.toPlaces.collected
      · simp [hi, ht.kept_eq hok]
      · rwa [State.failed_collected]
      · rwa [State.failed_collected]

theorem Lockstep.sequence {ps ps' : List (Step ν)} (h : List.Forall₂ K.Lockstep ps ps') :
    K.Lockstep (sequence ps) (sequence ps') := Lockstep.sequenceFrom h rfl

theorem Lockstep.and (hp : K.Lockstep p p') (hq : K.Lockstep q q') :
    K.Lockstep (and p q) (and p' q') := by
  intro s s' hs hs' hplace
  refine rel_bind (hp s s' hs hs' hplace) fun t t' ht => ?_
  have hfailed := ht.failed_eq
  rw [hfailed]
  split
  · exact .some ht
  · rename_i hok'
    rw [Bool.not_eq_true] at hok'
    have hok : t.failed = false := hfailed.trans hok'
    refine rel_bind (hq _ _ (by rwa [State.failed_collected]) (by rwa [State.failed_collected])
      ht.toPlaces.collected) fun u u' hu => ?_
    have hfailed' := hu.failed_eq
    rw [hfailed']
    split
    · exact .some hu
    · rename_i huok'
      rw [Bool.not_eq_true, ← hfailed'] at huok'
      refine .some ((Outcomes.succeed hu.toPlaces ?_).collectAs .splice)
      rw [K.view.see_list, K.view.see_list, List.map_append, List.map_append, ht.spliced_eq hok,
        hu.spliced_eq huok']

theorem Lockstep.or {left left' right right' : String}
    (hl : K.strict = true → left = left' ∧ right = right') (hp : K.Lockstep p p')
    (hq : K.Lockstep q q') : K.Lockstep (or left right p q) (or left' right' p' q') := by
  intro s s' hs hs' hplace
  refine rel_bind (hp s s' hs hs' hplace) fun t t' ht => ?_
  rw [ht.failed_eq]
  split
  · refine rel_bind (hq _ _ rfl rfl (ht.rewind hplace).toPlaces) fun u u' hu => ?_
    rw [hu.failed_eq]
    split
    · refine .some (Outcomes.fail (hu.rewind hplace).toPlaces ⟨rfl, fun hstrict => ?_⟩)
      rw [(hl hstrict).1, (hl hstrict).2]
    · exact .some hu
  · exact .some ht

theorem Lockstep.choiceFrom {ps ps' : List (Step ν)} (h : List.Forall₂ K.Lockstep ps ps')
    {s₀ s₀' : State ν} (h₀ : K.Places s₀ s₀') :
    K.Lockstep (choiceFrom s₀.cursor ps) (choiceFrom s₀'.cursor ps') := by
  induction h with
  | nil => exact fun s s' _ _ hp => .some (Outcomes.fail hp (Failures.refl _))
  | cons h _ ih =>
    intro s s' hs hs' hp
    refine rel_bind (h s s' hs hs' hp) fun t t' ht => ?_
    rw [ht.failed_eq]
    split
    · exact ih _ _ rfl rfl (ht.rewind h₀).toPlaces
    · exact .some (ht.collectAs .keep)

theorem Lockstep.choice {ps ps' : List (Step ν)} (h : List.Forall₂ K.Lockstep ps ps') :
    K.Lockstep (choice ps) (choice ps') :=
  fun s s' hs hs' hp => Lockstep.choiceFrom h hp s s' hs hs' hp

/-! ## Repetition -/

theorem manyFrom_rel (h : K.Lockstep p p') (b : Nat) {g g' : Harvest ν} (hg : K.Harvests g g') :
    Option.Rel K.Harvests (manyFrom p b g) (manyFrom p' b g') := by
  induction b generalizing g g' with
  | zero => exact .none
  | succ b ih =>
    refine rel_bind (h _ _ hg.live hg.live' hg.places) fun t t' ht => ?_
    have hfailed := ht.failed_eq
    rw [hfailed]
    split
    · exact .some (hg.stop (ht.rewind hg.places).toPlaces rfl rfl)
    · rename_i hok'
      rw [Bool.not_eq_true, ← hfailed] at hok'
      have hadd := hg.add ht hok'
      by_cases hc : t.cursor = g.state.cursor
      · rw [if_pos hc, if_pos ((hg.places.cursor_eq_iff ht.toPlaces).1 hc)]
        exact .some hadd
      · rw [if_neg hc, if_neg (mt (hg.places.cursor_eq_iff ht.toPlaces).2 hc)]
        exact ih hadd

theorem Lockstep.many (h : K.Lockstep p p') (b least : Nat) {label label' : String}
    (hl : K.strict = true → label = label') :
    K.Lockstep (many b least label p) (many b least label' p') := by
  intro s s' hs hs' hp
  refine rel_bind (manyFrom_rel h b (Harvests.start hp hs hs')) fun g g' hg => ?_
  rw [hg.count, hg.places.rest_eq]
  split
  · refine .some (Outcomes.fail (hg.places.rewind hp) ⟨rfl, fun hstrict => ?_⟩)
    rw [hl hstrict]
  · exact .some hg.succeed

theorem separatedFrom_rel (hp : K.Lockstep p p') (hq : K.Lockstep q q') (b : Nat)
    {g g' : Harvest ν} (hg : K.Harvests g g') :
    Option.Rel K.Harvests (separatedFrom p q b g) (separatedFrom p' q' b g') := by
  induction b generalizing g g' with
  | zero => exact .none
  | succ b ih =>
    refine rel_bind (hp _ _ hg.live hg.live' hg.places) fun t t' ht => ?_
    have hfailed := ht.failed_eq
    rw [hfailed]
    split
    · exact .some (hg.stop (ht.rewind hg.places).toPlaces rfl rfl)
    · rename_i hok'
      rw [Bool.not_eq_true, ← hfailed] at hok'
      have hadd := hg.add ht hok'
      refine rel_bind (hq _ _ hadd.live hadd.live' hadd.places) fun u u' hu => ?_
      have hfailed' := hu.failed_eq
      rw [hfailed']
      split
      · exact .some (hadd.stop (hu.rewind ht.toPlaces).toPlaces rfl rfl)
      · rename_i huok'
        rw [Bool.not_eq_true] at huok'
        have hstop := hadd.stop hu.toPlaces (hfailed'.trans huok') huok'
        by_cases hc : u.cursor = g.state.cursor
        · rw [if_pos hc, if_pos ((hg.places.cursor_eq_iff hu.toPlaces).1 hc)]
          exact .some hstop
        · rw [if_neg hc, if_neg (mt (hg.places.cursor_eq_iff hu.toPlaces).2 hc)]
          exact ih hstop

theorem Lockstep.separated (hp : K.Lockstep p p') (hq : K.Lockstep q q') (b least : Nat)
    {value value' separator separator' : String}
    (hl : K.strict = true → value = value' ∧ separator = separator') :
    K.Lockstep (separated b least value separator p q)
      (separated b least value' separator' p' q') := by
  intro s s' hs hs' hplace
  refine rel_bind (separatedFrom_rel hp hq b (Harvests.start hplace hs hs')) fun g g' hg => ?_
  rw [hg.count, hg.places.rest_eq]
  split
  · refine .some (Outcomes.fail (hg.places.rewind hplace) ⟨rfl, fun hstrict => ?_⟩)
    rw [(hl hstrict).1, (hl hstrict).2]
  · exact .some hg.succeed

theorem allFrom_rel (h : K.Lockstep p p') (b : Nat) {label label' : String}
    (hl : K.strict = true → label = label') {g g' : Harvest ν} (hg : K.Harvests g g') :
    Option.Rel K.Outcomes (allFrom label p b g) (allFrom label' p' b g') := by
  induction b generalizing g g' with
  | zero => exact .none
  | succ b ih =>
    refine rel_bind (h _ _ hg.live hg.live' hg.places) fun t t' ht => ?_
    have hfailed := ht.failed_eq
    rw [hfailed]
    split
    · exact .some ht
    · rename_i hok'
      rw [Bool.not_eq_true, ← hfailed] at hok'
      have hadd := hg.add ht hok'
      simp only
      rw [ht.toPlaces.atEnd_eq]
      split
      · exact .some hadd.succeed
      · by_cases hc : t.cursor = g.state.cursor
        · rw [if_pos hc, if_pos ((hg.places.cursor_eq_iff ht.toPlaces).1 hc), ht.toPlaces.rest_eq]
          refine .some (Outcomes.fail hadd.places ⟨rfl, fun hstrict => ?_⟩)
          rw [hl hstrict]
        · rw [if_neg hc, if_neg (mt (hg.places.cursor_eq_iff ht.toPlaces).2 hc)]
          exact ih hadd

theorem Lockstep.all (h : K.Lockstep p p') (b : Nat) {label label' : String}
    (hl : K.strict = true → label = label') : K.Lockstep (all b label p) (all b label' p') :=
  fun _ _ hs hs' hp => allFrom_rel h b hl (Harvests.start hp hs hs')

/-! ## Recursion -/

theorem Lockstep.fix {body body' : Step ν → Step ν}
    (h : ∀ p p', K.Lockstep p p' → K.Lockstep (body p) (body' p')) (b : Nat) :
    K.Lockstep (fix body b) (fix body' b) := by
  induction b with
  | zero => exact fun _ _ _ _ _ => .none
  | succ b ih => exact h _ _ ih

theorem Lockstep.bind {scope scope' : Scope ν} (hs : ∀ h, K.Lockstep (scope h) (scope' h))
    (h : Handle) (hp : K.Lockstep p p') (other : Handle) :
    K.Lockstep (scope.bind h p other) (scope'.bind h p' other) := by
  by_cases heq : other = h
  · subst heq
    rwa [Scope.bind_self, Scope.bind_self]
  · rw [Scope.bind_of_ne _ _ heq, Scope.bind_of_ne _ _ heq]
    exact hs other

end TextGrammar.Pairing
