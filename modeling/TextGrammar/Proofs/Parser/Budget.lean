import TextGrammar.Parser.Basic
import TextGrammar.Parser.Run
import Mathlib.Data.List.Forall2

/-!
# Budgets only decide whether a run ends

* `Step.Le` — one step ends wherever another does, in the same state.  Every way to put steps
  together keeps this order.
* `Parser.step_le` — a run that ends with some budget ends in the same state with every greater one.
* `Parser.Ends.unique` — so a parser ends in one state at most.
-/

namespace TextGrammar

variable {ν : Type}

/-- `q` ends wherever `p` does, and in the same state. -/
def Step.Le (p q : Step ν) : Prop := ∀ s t, p s = some t → q s = some t

namespace Step

theorem bind_le {α β : Type} {x y : Option α} {f g : α → Option β} {b : β}
    (hx : ∀ a, x = some a → y = some a) (hf : ∀ a, f a = some b → g a = some b)
    (h : (x >>= f) = some b) : (y >>= g) = some b := by
  cases x with
  | none => cases h
  | some a =>
    rw [hx a rfl]
    exact hf a h

variable {p q p' q' : Step ν}

theorem Le.refl (p : Step ν) : p.Le p := fun _ _ h => h

theorem Le.unlessFailed (h : p.Le q) : (unlessFailed p).Le (unlessFailed q) := by
  intro s t hs
  unfold Step.unlessFailed at hs ⊢
  split
  · rename_i hf
    rwa [if_pos hf] at hs
  · rename_i hf
    rw [if_neg hf] at hs
    exact h s t hs

theorem Le.collectedAs (d : Disposition) (h : p.Le q) : (collectedAs d p).Le (collectedAs d q) :=
  fun s _ => bind_le (h s) fun _ h => h

theorem Le.map (f : Value ν → Value ν) (h : p.Le q) : (map f p).Le (map f q) :=
  fun s _ => bind_le (h s) fun _ h => h

theorem Le.mapWithLine (f : Value ν → Nat → Value ν) (h : p.Le q) :
    (mapWithLine f p).Le (mapWithLine f q) :=
  fun s _ => bind_le (h s) fun _ h => h

theorem Le.recover (f : ParseError → Value ν) (h : p.Le q) : (recover f p).Le (recover f q) :=
  fun s _ => bind_le (h s) fun _ h => h

theorem Le.optional (h : p.Le q) : (optional p).Le (optional q) :=
  fun s _ => bind_le (h s) fun _ h => h

theorem Le.chain {next next' : Value ν → Step ν} (hn : ∀ v, (next v).Le (next' v)) (h : p.Le q) :
    (chain next p).Le (chain next' q) := by
  intro s t
  refine bind_le (h s) fun u hu => ?_
  split
  · rename_i hf
    rwa [if_pos hf] at hu
  · rename_i hf
    rw [if_neg hf] at hu
    exact hn _ _ _ hu

theorem Le.and (h : p.Le q) (h' : p'.Le q') : (and p p').Le (and q q') := by
  intro s t
  refine bind_le (h s) fun u hu => ?_
  split
  · rename_i hf
    rwa [if_pos hf] at hu
  · rename_i hf
    rw [if_neg hf] at hu
    exact bind_le (h' _) (fun _ h => h) hu

theorem Le.or (left right : String) (h : p.Le q) (h' : p'.Le q') :
    (or left right p p').Le (or left right q q') := by
  intro s t
  refine bind_le (h s) fun u hu => ?_
  split
  · rename_i hf
    rw [if_pos hf] at hu
    exact bind_le (h' _) (fun _ h => h) hu
  · rename_i hf
    rwa [if_neg hf] at hu

theorem Le.sequenceFrom {ps qs : List (Step ν)} (h : List.Forall₂ Step.Le ps qs)
    (items : Array (Value ν)) : (sequenceFrom items ps).Le (sequenceFrom items qs) := by
  induction h generalizing items with
  | nil => exact Le.refl _
  | cons hp _ ih =>
    intro s t
    refine bind_le (hp s) fun u hu => ?_
    split
    · rename_i hf
      rwa [if_pos hf] at hu
    · rename_i hf
      rw [if_neg hf] at hu
      exact ih _ _ _ hu

theorem Le.sequence {ps qs : List (Step ν)} (h : List.Forall₂ Step.Le ps qs) :
    (sequence ps).Le (sequence qs) := Le.sequenceFrom h #[]

theorem Le.choiceFrom {ps qs : List (Step ν)} (h : List.Forall₂ Step.Le ps qs) (start : Nat) :
    (choiceFrom start ps).Le (choiceFrom start qs) := by
  induction h with
  | nil => exact Le.refl _
  | cons hp _ ih =>
    intro s t
    refine bind_le (hp s) fun u hu => ?_
    split
    · rename_i hf
      rw [if_pos hf] at hu
      exact ih _ _ hu
    · rename_i hf
      rwa [if_neg hf] at hu

theorem Le.choice {ps qs : List (Step ν)} (h : List.Forall₂ Step.Le ps qs) :
    (choice ps).Le (choice qs) := fun s t => Le.choiceFrom h s.cursor s t

/-! ## Repetition

A greater budget allows for more rounds.  The induction is on the smaller one. -/

theorem manyFrom_le (h : p.Le q) {b b' : Nat} (hb : b ≤ b') {g g' : Harvest ν}
    (hg : manyFrom p b g = some g') : manyFrom q b' g = some g' := by
  induction b generalizing b' g with
  | zero => cases hg
  | succ b ih =>
    obtain ⟨c, rfl⟩ := Nat.exists_eq_add_of_le' (Nat.le_trans (Nat.le_add_left 1 b) hb)
    refine bind_le (h g.state) (fun t ht => ?_) hg
    split
    · rename_i hf
      rwa [if_pos hf] at ht
    · rename_i hf
      rw [if_neg hf] at ht
      split
      · rename_i hc
        rwa [if_pos hc] at ht
      · rename_i hc
        rw [if_neg hc] at ht
        exact ih (by omega) ht

theorem Le.many (h : p.Le q) {b b' : Nat} (hb : b ≤ b') (least : Nat) (label : String) :
    Le (many b least label p) (many b' least label q) :=
  fun _ _ => bind_le (fun _ => manyFrom_le h hb) fun _ h => h

theorem separatedFrom_le (h : p.Le q) (h' : p'.Le q') {b b' : Nat} (hb : b ≤ b')
    {g g' : Harvest ν} (hg : separatedFrom p p' b g = some g') :
    separatedFrom q q' b' g = some g' := by
  induction b generalizing b' g with
  | zero => cases hg
  | succ b ih =>
    obtain ⟨c, rfl⟩ := Nat.exists_eq_add_of_le' (Nat.le_trans (Nat.le_add_left 1 b) hb)
    refine bind_le (h g.state) (fun t ht => ?_) hg
    split
    · rename_i hf
      rwa [if_pos hf] at ht
    · rename_i hf
      rw [if_neg hf] at ht
      refine bind_le (h' _) (fun u hu => ?_) ht
      split
      · rename_i hf
        rwa [if_pos hf] at hu
      · rename_i hf
        rw [if_neg hf] at hu
        split
        · rename_i hc
          rwa [if_pos hc] at hu
        · rename_i hc
          rw [if_neg hc] at hu
          exact ih (by omega) hu

theorem Le.separated (h : p.Le q) (h' : p'.Le q') {b b' : Nat} (hb : b ≤ b') (least : Nat)
    (value separator : String) :
    Le (separated b least value separator p p') (separated b' least value separator q q') :=
  fun _ _ => bind_le (fun _ => separatedFrom_le h h' hb) fun _ h => h

theorem allFrom_le (h : p.Le q) {b b' : Nat} (hb : b ≤ b') (label : String) {g : Harvest ν}
    {t : State ν} (hg : allFrom label p b g = some t) : allFrom label q b' g = some t := by
  induction b generalizing b' g with
  | zero => cases hg
  | succ b ih =>
    obtain ⟨c, rfl⟩ := Nat.exists_eq_add_of_le' (Nat.le_trans (Nat.le_add_left 1 b) hb)
    refine bind_le (h g.state) (fun u hu => ?_) hg
    split
    · rename_i hf
      rwa [if_pos hf] at hu
    · rename_i hf
      rw [if_neg hf] at hu
      simp only at hu ⊢
      split
      · rename_i he
        rwa [if_pos he] at hu
      · rename_i he
        rw [if_neg he] at hu
        split
        · rename_i hc
          rwa [if_pos hc] at hu
        · rename_i hc
          rw [if_neg hc] at hu
          exact ih (by omega) hu

theorem Le.all (h : p.Le q) {b b' : Nat} (hb : b ≤ b') (label : String) :
    Le (all b label p) (all b' label q) := fun _ _ => allFrom_le h hb label

/-- A greater budget allows for deeper recursion. -/
theorem fix_le {body body' : Step ν → Step ν}
    (h : ∀ p q : Step ν, p.Le q → (body p).Le (body' q)) {b b' : Nat} (hb : b ≤ b') :
    (fix body b).Le (fix body' b') := by
  induction b generalizing b' with
  | zero => intro s t hs; cases hs
  | succ b ih =>
    obtain ⟨c, rfl⟩ := Nat.exists_eq_add_of_le' (Nat.le_trans (Nat.le_add_left 1 b) hb)
    intro s t hs
    exact h _ _ (ih (by omega)) s t hs

end Step

theorem Scope.le_bind {scope scope' : Scope ν} (hs : ∀ h, (scope h).Le (scope' h)) (h : Handle)
    {p q : Step ν} (hp : p.Le q) (other : Handle) :
    (scope.bind h p other).Le (scope'.bind h q other) := by
  by_cases heq : other = h
  · subst heq
    rwa [Scope.bind_self, Scope.bind_self]
  · rw [Scope.bind_of_ne _ _ heq, Scope.bind_of_ne _ _ heq]
    exact hs other

namespace Parser

/-- What holds of the steps of the parsers holds of the steps of a list of them. -/
theorem forall_mem_steps {P : Step ν → Prop} {b : Nat} {scope : Scope ν} {ps : List (Parser ν)}
    (h : ∀ p ∈ ps, P (p.step b scope)) : ∀ q ∈ steps b scope ps, P q := by
  intro q hq
  rw [steps_eq_map] at hq
  obtain ⟨p, hp, rfl⟩ := List.mem_map.1 hq
  exact h p hp

/-- Steps of two lists of parsers are related one by one if those of the parsers are. -/
theorem forall₂_steps {R : Step ν → Step ν → Prop} {b b' : Nat} {scope scope' : Scope ν}
    {ps ps' : List (Parser ν)}
    (h : List.Forall₂ (fun p p' => R (step b scope p) (step b' scope' p')) ps ps') :
    List.Forall₂ R (steps b scope ps) (steps b' scope' ps') := by
  rw [steps_eq_map, steps_eq_map, List.forall₂_map_left_iff, List.forall₂_map_right_iff]
  exact h

/-- **A run that ends with some budget ends in the same state with every greater one.** -/
theorem step_le (p : Parser ν) {b b' : Nat} (hb : b ≤ b') {scope scope' : Scope ν}
    (hs : ∀ h, (scope h).Le (scope' h)) : Step.Le (p.step b scope) (p.step b' scope') := by
  induction p generalizing scope scope' with
  | literal text => exact Step.Le.refl _
  | pattern p => exact Step.Le.refl _
  | endOfInput => exact Step.Le.refl _
  | sequence ps ih =>
    exact Step.Le.sequence (forall₂_steps (List.forall₂_same.2 fun p hp => ih p hp hs))
  | and left right ihl ihr => exact (ihl hs).and (ihr hs)
  | or left right ihl ihr => exact (ihl hs).or _ _ (ihr hs)
  | choice ps ih =>
    exact Step.Le.choice (forall₂_steps (List.forall₂_same.2 fun p hp => ih p hp hs))
  | optional p ih => exact (ih hs).optional
  | collectedAs d p ih => exact (ih hs).collectedAs d
  | many least p ih => exact (ih hs).many hb least _
  | separated least value separator ihv ihs => exact (ihv hs).separated (ihs hs) hb least _ _
  | all p ih => exact (ih hs).all hb _
  | map f p ih => exact (ih hs).map f
  | mapWithLine f p ih => exact (ih hs).mapWithLine f
  | recover f p ih => exact (ih hs).recover f
  | chain next p ihn ih => exact Step.Le.chain (fun v => ihn v hs) (ih hs)
  | named label p ih => exact ih hs
  | recursive h body ih => exact Step.fix_le (fun p q hpq => ih (Scope.le_bind hs h hpq)) hb
  | handle h => exact hs h
  | custom shown act => exact Step.Le.refl _

theorem runFrom_of_live (p : Parser ν) (b : Nat) (scope : Scope ν) {s : State ν}
    (hs : s.failed = false) : p.runFrom b scope s = p.step b scope s := by
  rw [runFrom, Step.unlessFailed, hs, if_neg Bool.false_ne_true]

theorem runFrom_le (p : Parser ν) {b b' : Nat} (hb : b ≤ b') (scope : Scope ν) :
    Step.Le (p.runFrom b scope) (p.runFrom b' scope) :=
  (p.step_le hb fun _ => Step.Le.refl _).unlessFailed

/-- **A parser ends in one state at most.** -/
theorem Ends.unique {p : Parser ν} {scope : Scope ν} {s t t' : State ν} (h : p.Ends scope s t)
    (h' : p.Ends scope s t') : t = t' := by
  obtain ⟨b, hb⟩ := h
  obtain ⟨b', hb'⟩ := h'
  have hmax := p.runFrom_le (Nat.le_max_left b b') scope s t hb
  rw [p.runFrom_le (Nat.le_max_right b b') scope s t' hb'] at hmax
  exact (Option.some.inj hmax).symm

/-- Two runs that are related for every budget end both or none, and in related states. -/
theorem ends_rel {R : State ν → State ν → Prop} {p p' : Parser ν} {scope scope' : Scope ν}
    {s s' : State ν} (h : ∀ b, Option.Rel R (p.runFrom b scope s) (p'.runFrom b scope' s')) :
    ((∃ t, p.Ends scope s t) ↔ ∃ t', p'.Ends scope' s' t') ∧
      ∀ t t', p.Ends scope s t → p'.Ends scope' s' t' → R t t' := by
  have right : ∀ {t}, p.Ends scope s t → ∃ t', p'.Ends scope' s' t' ∧ R t t' := by
    rintro t ⟨b, hb⟩
    have hrel := h b
    rw [hb] at hrel
    cases hb' : p'.runFrom b scope' s' with
    | none => rw [hb'] at hrel; cases hrel
    | some t' =>
      rw [hb'] at hrel
      cases hrel with
      | some hrel => exact ⟨t', ⟨b, hb'⟩, hrel⟩
  have left : ∀ {t'}, p'.Ends scope' s' t' → ∃ t, p.Ends scope s t := by
    rintro t' ⟨b, hb'⟩
    have hrel := h b
    rw [hb'] at hrel
    cases hb : p.runFrom b scope s with
    | none => rw [hb] at hrel; cases hrel
    | some t => exact ⟨t, b, hb⟩
  refine ⟨⟨fun ⟨t, ht⟩ => ?_, fun ⟨t', ht'⟩ => left ht'⟩, fun t t' ht ht' => ?_⟩
  · obtain ⟨t', ht', _⟩ := right ht
    exact ⟨t', ht'⟩
  · obtain ⟨u, hu, hrel⟩ := right ht
    rwa [hu.unique ht'] at hrel

end Parser

end TextGrammar
