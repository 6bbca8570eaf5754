import TextGrammar.Proofs.Lockstep.Step

/-!
# Steps that differ in their messages

Labels are written into the messages of failures, and a failure travels with the state.  Here two
steps are run from one and the same state, and they end in states that are equal but for such a
message.

* `State.SameButMessage` — the relation between the two ends.  A success carries no message, and to
  go back removes it, so that in both cases the two states are equal.
* `Step.Agrees` — steps that end in such states, or do not end both.
* `Step.Agrees.or`, `Step.Agrees.many` and others — every way to put steps together keeps this, with
  any labels.  Two repetitions even gather the same, for a round that fails is given back.
-/

namespace TextGrammar

variable {ν : Type}

/-! ## States -/

/-- Errors for the same reason at the same place. -/
structure ParseError.SameButMessage (e e' : ParseError) : Prop where
  kind : e.kind = e'.kind
  position : e.position = e'.position
  line : e.line = e'.line

namespace State

/-- States that are equal but for the message of a failure. -/
structure SameButMessage (t t' : State ν) : Prop where
  input : t.input = t'.input
  cursor : t.cursor = t'.cursor
  result : t.result = t'.result
  kind : t.failure.map Failure.kind = t'.failure.map Failure.kind
  disposition : t.disposition = t'.disposition
  strayed : t.strayed = t'.strayed

namespace SameButMessage

variable {t t' : State ν}

theorem refl (t : State ν) : t.SameButMessage t := ⟨rfl, rfl, rfl, rfl, rfl, rfl⟩

theorem failed_eq (h : t.SameButMessage t') : t.failed = t'.failed := by
  have hkind := congrArg Option.isSome h.kind
  rwa [Option.isSome_map, Option.isSome_map] at hkind

/-- **Only a failure has a message.** -/
theorem eq_of_live (h : t.SameButMessage t') (ht : t.failed = false) : t = t' := by
  have ht' := h.failed_eq.symm.trans ht
  obtain ⟨_, _, _, f, _, _⟩ := t
  obtain ⟨_, _, _, f', _, _⟩ := t'
  obtain rfl : f = none := Option.not_isSome_iff_eq_none.1 (Bool.eq_false_iff.1 ht)
  obtain rfl : f' = none := Option.not_isSome_iff_eq_none.1 (Bool.eq_false_iff.1 ht')
  obtain ⟨rfl, rfl, rfl, _, rfl, rfl⟩ := h
  rfl

/-- **To go back leaves the message behind.** -/
theorem rewind_eq (h : t.SameButMessage t') (n : Nat) : t.rewind n = t'.rewind n := by
  obtain ⟨_, _, _, _, _, _⟩ := t
  obtain ⟨_, _, _, _, _, _⟩ := t'
  obtain ⟨rfl, rfl, rfl, _, rfl, rfl⟩ := h
  rfl

/-- Messages are told apart by nothing else. -/
theorem fail (t : State ν) {f f' : Failure} (h : f.kind = f'.kind) :
    (t.fail f).SameButMessage (t.fail f') := ⟨rfl, rfl, rfl, congrArg some h, rfl, rfl⟩

theorem error?_rel (h : t.SameButMessage t') :
    Option.Rel ParseError.SameButMessage t.error? t'.error? := by
  have hkind := h.kind
  have hcursor := h.cursor
  have hline : t.line = t'.line := by rw [line, line, h.input, h.cursor]
  unfold error?
  generalize t.failure = f at hkind ⊢
  generalize t'.failure = f' at hkind ⊢
  cases f with
  | none =>
    cases f' with
    | none => exact .none
    | some f' => cases hkind
  | some f =>
    cases f' with
    | none => cases hkind
    | some f' => exact .some ⟨Option.some.inj hkind, hcursor, hline⟩

end SameButMessage

end State

/-! ## Steps -/

namespace Step

/-- Steps that end in the same state but for the message of a failure, or do not end both. -/
def Agrees (p p' : Step ν) : Prop :=
  ∀ s : State ν, s.failed = false → Option.Rel State.SameButMessage (p s) (p' s)

variable {p p' q q' : Step ν} {ps ps' : List (Step ν)}

theorem rel_self {α : Type} {R : α → α → Prop} (hR : ∀ a, R a a) (x : Option α) :
    Option.Rel R x x := by
  cases x with
  | none => exact .none
  | some a => exact .some (hR a)

theorem Agrees.refl (p : Step ν) : p.Agrees p := fun s _ => rel_self State.SameButMessage.refl (p s)

/-- **What comes behind two steps that agree** goes on from one and the same success, or from two
failures that differ in their message. -/
theorem Agrees.branch {β : Type} {R : β → β → Prop} (h : p.Agrees p') {s : State ν}
    (hs : s.failed = false) {failing failing' going going' : State ν → Option β}
    (hgoing : ∀ t, t.failed = false → Option.Rel R (going t) (going' t))
    (hfailing : ∀ t t' : State ν, t.SameButMessage t' → Option.Rel R (failing t) (failing' t')) :
    Option.Rel R (p s >>= fun t => if t.failed then failing t else going t)
      (p' s >>= fun t => if t.failed then failing' t else going' t) := by
  refine Pairing.rel_bind (h s hs) fun t t' ht => ?_
  rw [← ht.failed_eq]
  split
  · exact hfailing t t' ht
  · rename_i hok
    rw [Bool.not_eq_true] at hok
    obtain rfl := ht.eq_of_live hok
    exact hgoing t hok

/-! ## Single steps -/

theorem Agrees.unlessFailed (h : p.Agrees p') (s : State ν) :
    Option.Rel State.SameButMessage (unlessFailed p s) (unlessFailed p' s) := by
  unfold Step.unlessFailed
  split
  · exact .some (.refl s)
  · rename_i hs
    rw [Bool.not_eq_true] at hs
    exact h s hs

theorem Agrees.collectedAs (d : Disposition) (h : p.Agrees p') :
    (collectedAs d p).Agrees (collectedAs d p') :=
  fun _ hs => h.branch hs (fun _ _ => .some (.refl _)) fun _ _ ht => .some ht

theorem Agrees.optional (h : p.Agrees p') : (optional p).Agrees (optional p') := by
  intro s hs
  refine h.branch hs (fun _ _ => .some (.refl _)) fun t t' ht => ?_
  rw [ht.rewind_eq]
  exact .some (.refl _)

theorem Agrees.mapWithLine (f : Value ν → Nat → Value ν) (h : p.Agrees p') :
    (mapWithLine f p).Agrees (mapWithLine f p') :=
  fun _ hs => h.branch hs (fun _ _ => .some (.refl _)) fun _ _ ht => .some ht

theorem Agrees.map (f : Value ν → Value ν) (h : p.Agrees p') : (map f p).Agrees (map f p') :=
  Agrees.mapWithLine (fun v _ => f v) h

/-- A recovery that does not read the message makes the same value of both errors. -/
theorem Agrees.recover {f : ParseError → Value ν}
    (hf : ∀ e e' : ParseError, e.SameButMessage e' → f e = f e') (h : p.Agrees p') :
    (recover f p).Agrees (recover f p') := by
  intro s hs
  refine Pairing.rel_bind (h s hs) fun t t' ht => ?_
  have herror := ht.error?_rel
  rw [ht.rewind_eq, ht.cursor]
  generalize t.error? = e at herror ⊢
  generalize t'.error? = e' at herror ⊢
  cases herror with
  | none => exact .some ⟨ht.input, ht.cursor, ht.result, ht.kind, rfl, ht.strayed⟩
  | some he =>
    refine .some ?_
    rw [hf _ _ he, he.line]
    exact .refl _

theorem Agrees.chain {next next' : Value ν → Step ν} (hn : ∀ v, (next v).Agrees (next' v))
    (h : p.Agrees p') : (chain next p).Agrees (chain next' p') :=
  fun _ hs => h.branch hs (fun t hok => hn _ _ (t.failed_take.trans hok)) fun _ _ ht => .some ht

/-! ## Several steps -/

theorem Agrees.sequenceFrom (h : List.Forall₂ Agrees ps ps') (items : Array (Value ν)) :
    (sequenceFrom items ps).Agrees (sequenceFrom items ps') := by
  induction h generalizing items with
  | nil => exact .refl _
  | cons h _ ih =>
    exact fun _ hs => h.branch hs (fun t hok => ih _ _ (t.failed_collected.trans hok))
      fun _ _ ht => .some ht

theorem Agrees.sequence (h : List.Forall₂ Agrees ps ps') :
    (sequence ps).Agrees (sequence ps') := Agrees.sequenceFrom h #[]

theorem Agrees.and (hp : p.Agrees p') (hq : q.Agrees q') : (and p q).Agrees (and p' q') := by
  intro s hs
  refine hp.branch hs (fun t hok => ?_) fun _ _ ht => .some ht
  exact hq.branch (t.failed_collected.trans hok) (fun _ _ => .some (.refl _))
    fun _ _ hu => .some hu

/-- Where both branches fail, their labels are told. -/
theorem Agrees.or (left right left' right' : String) (hp : p.Agrees p') (hq : q.Agrees q') :
    (or left right p q).Agrees (or left' right' p' q') := by
  intro s hs
  refine hp.branch hs (fun _ _ => .some (.refl _)) fun t t' ht => ?_
  rw [ht.rewind_eq]
  refine hq.branch rfl (fun _ _ => .some (.refl _)) fun u u' hu => ?_
  rw [hu.rewind_eq]
  exact .some (.fail _ rfl)

theorem Agrees.choiceFrom (h : List.Forall₂ Agrees ps ps') (start : Nat) :
    (choiceFrom start ps).Agrees (choiceFrom start ps') := by
  induction h with
  | nil => exact .refl _
  | cons h _ ih =>
    intro s hs
    refine h.branch hs (fun _ _ => .some (.refl _)) fun t t' ht => ?_
    rw [ht.rewind_eq]
    exact ih _ rfl

theorem Agrees.choice (h : List.Forall₂ Agrees ps ps') : (choice ps).Agrees (choice ps') :=
  fun s hs => Agrees.choiceFrom h s.cursor s hs

/-! ## Repetition

Rounds that succeed are equal, and the one that fails is given back: so the harvests are equal. -/

theorem manyFrom_agrees (h : p.Agrees p') (b : Nat) {g : Harvest ν} (hg : g.state.failed = false) :
    Option.Rel Eq (manyFrom p b g) (manyFrom p' b g) := by
  induction b generalizing g with
  | zero => exact .none
  | succ b ih =>
    refine h.branch hg (fun t hok => ?_) fun t t' ht => ?_
    · split
      · exact .some rfl
      · exact ih (g := g.add t) (t.failed_collected.trans hok)
    · rw [ht.rewind_eq]
      exact .some rfl

theorem Agrees.many (h : p.Agrees p') (b least : Nat) (label label' : String) :
    Agrees (many b least label p) (many b least label' p') := by
  intro s hs
  refine Pairing.rel_bind (manyFrom_agrees h b (g := .start s) hs) ?_
  rintro g _ rfl
  split
  · exact .some (.fail _ rfl)
  · exact .some (.refl _)

theorem separatedFrom_agrees (hp : p.Agrees p') (hq : q.Agrees q') (b : Nat) {g : Harvest ν}
    (hg : g.state.failed = false) :
    Option.Rel Eq (separatedFrom p q b g) (separatedFrom p' q' b g) := by
  induction b generalizing g with
  | zero => exact .none
  | succ b ih =>
    refine hp.branch hg (fun t hok => ?_) fun t t' ht => ?_
    · refine hq.branch (t.failed_collected.trans hok) (fun u hok => ?_) fun u u' hu => ?_
      · split
        · exact .some rfl
        · exact ih (g := (g.add t).stop u) hok
      · rw [hu.rewind_eq]
        exact .some rfl
    · rw [ht.rewind_eq]
      exact .some rfl

theorem Agrees.separated (hp : p.Agrees p') (hq : q.Agrees q') (b least : Nat)
    (value separator value' separator' : String) :
    Agrees (separated b least value separator p q)
      (separated b least value' separator' p' q') := by
  intro s hs
  refine Pairing.rel_bind (separatedFrom_agrees hp hq b (g := .start s) hs) ?_
  rintro g _ rfl
  split
  · exact .some (.fail _ rfl)
  · exact .some (.refl _)

theorem allFrom_agrees (h : p.Agrees p') (b : Nat) (label label' : String) {g : Harvest ν}
    (hg : g.state.failed = false) :
    Option.Rel State.SameButMessage (allFrom label p b g) (allFrom label' p' b g) := by
  induction b generalizing g with
  | zero => exact .none
  | succ b ih =>
    refine h.branch hg (fun t hok => ?_) fun _ _ ht => .some ht
    simp only
    split
    · exact .some (.refl _)
    · split
      · exact .some (.fail _ rfl)
      · exact ih (g := g.add t) (t.failed_collected.trans hok)

theorem Agrees.all (h : p.Agrees p') (b : Nat) (label label' : String) :
    Agrees (all b label p) (all b label' p') :=
  fun _ hs => allFrom_agrees h b label label' hs

/-! ## Recursion -/

theorem Agrees.fix {body body' : Step ν → Step ν}
    (h : ∀ p p' : Step ν, p.Agrees p' → (body p).Agrees (body' p')) (b : Nat) :
    (fix body b).Agrees (fix body' b) := by
  induction b with
  | zero => exact fun _ _ => .none
  | succ b ih => exact h _ _ ih

theorem Agrees.bind {scope scope' : Scope ν} (hs : ∀ h, (scope h).Agrees (scope' h)) (h : Handle)
    (hp : p.Agrees p') (other : Handle) :
    (scope.bind h p other).Agrees (scope'.bind h p' other) := by
  by_cases heq : other = h
  · subst heq
    rwa [Scope.bind_self, Scope.bind_self]
  · rw [Scope.bind_of_ne _ _ heq, Scope.bind_of_ne _ _ heq]
    exact hs other

end Step

end TextGrammar
