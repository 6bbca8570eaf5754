import TextGrammar.Proofs.Progress.Step

/-!
# Steps that end

A step is total by its budget, so that to end means to give a state before the budget runs out.  The
bytes ahead bound the rounds of every repetition, since a round that takes nothing is the last one.

* `State.ahead` — how many bytes lie ahead; a step that does not go back leaves no more than that.
* `Step.EndsBelow` — a step ends from all states with fewer than so many bytes ahead.
* `Step.Progresses`, `Step.Enters` — a step that succeeds has taken text, and so leaves fewer bytes.
* `Step.endsBelow_and`, `Step.endsBelow_sequence` — what comes later need only end from there.
* `Step.endsBelow_many`, `Step.endsBelow_separated`, `Step.endsBelow_all` — a repetition ends if its
  rounds end and the budget is not less than the bound on the bytes ahead.
* `Step.endsBelow_fix` — a recursion ends if its body does wherever what refers to it need only end
  with fewer bytes ahead.
-/

namespace TextGrammar

variable {ν : Type}

/-! ## Bytes ahead -/

namespace State

/-- How many bytes lie ahead. -/
def ahead (s : State ν) : Nat := s.input.size - s.cursor

variable {s t : State ν}

theorem SamePlace.ahead_eq (h : s.SamePlace t) : s.ahead = t.ahead := by
  rw [ahead, ahead, h.input, h.cursor]

theorem LeadsTo.ahead_le (h : s.LeadsTo false t) : t.ahead ≤ s.ahead := by
  have honward := h.onward rfl
  rw [ahead, ahead, h.input]
  omega

theorem LeadsTo.ahead_lt (h : s.LeadsTo false t) (hne : t.cursor ≠ s.cursor) :
    t.ahead < s.ahead := by
  have honward := h.onward rfl
  have hend := h.onBoundary.cursor_le
  rw [h.input] at hend
  rw [ahead, ahead, h.input]
  omega

end State

namespace Step

variable {p q : Step ν} {ps : List (Step ν)} {n m : Nat}

/-- The step ends from all states with fewer than `n` bytes ahead. -/
def EndsBelow (n : Nat) (p : Step ν) : Prop :=
  ∀ s : State ν, s.failed = false → s.OnBoundary → s.ahead < n → ∃ t, p s = some t

theorem EndsBelow.mono (h : p.EndsBelow n) (hm : m ≤ n) : p.EndsBelow m :=
  fun s hs hb hlt => h s hs hb (Nat.lt_of_lt_of_le hlt hm)

/-- A step that always ends ends in particular from there. -/
theorem endsBelow_of_forall (h : ∀ s, ∃ t, p s = some t) : p.EndsBelow n := fun s _ _ _ => h s

/-- Where the step succeeds, it has taken text. -/
def Progresses (p : Step ν) : Prop :=
  ∀ s t : State ν, s.failed = false → s.OnBoundary → p s = some t → t.failed = false →
    s.cursor < t.cursor

/-- From fewer than `n` bytes ahead, the step succeeds with fewer than `m` bytes ahead. -/
def Enters (n m : Nat) (p : Step ν) : Prop :=
  ∀ s t : State ν, s.failed = false → s.OnBoundary → s.ahead < n → p s = some t →
    t.failed = false → t.OnBoundary ∧ t.ahead < m

theorem Leads.enters (h : p.Leads false) : p.Enters n n := by
  intro s t hs hb hn hrun _
  have hlead := h s t hs hb hrun
  exact ⟨hlead.onBoundary, Nat.lt_of_le_of_lt hlead.ahead_le hn⟩

theorem Progresses.enters (hp : p.Progresses) (h : p.Leads false) : p.Enters n (n - 1) := by
  intro s t hs hb hn hrun hf
  have hlead := h s t hs hb hrun
  have hlt := hlead.ahead_lt (Nat.ne_of_gt (hp s t hs hb hrun hf))
  exact ⟨hlead.onBoundary, by omega⟩

/-! ## Steps that take text -/

theorem progresses_literal {text : String} (h : text ≠ "") :
    (literal text : Step ν).Progresses := by
  intro s t _ hb hrun hf
  unfold literal at hrun
  split at hrun
  · rename_i hprefix
    cases hrun
    obtain ⟨rest, hrest⟩ := List.isPrefixOf_iff_prefix.1 hprefix
    have hne : text.toList ≠ [] := by simpa using h
    have hpos := Text.byteLength_pos hne
    rw [hb.cursor_advance_of_rest hrest.symm]
    omega
  · cases hrun
    cases hf

theorem progresses_collectedAs (d : Disposition) (hp : p.Progresses) :
    (collectedAs d p).Progresses := by
  intro s t hs hb hrun hf
  obtain ⟨u, hu, hrun⟩ := Option.bind_eq_some_iff.1 hrun
  split at hrun
  · cases hrun
    exact hp s t hs hb hu hf
  · cases hrun
    exact hp s u hs hb hu hf

theorem progresses_mapWithLine (f : Value ν → Nat → Value ν) (hp : p.Progresses)
    (hlead : p.Leads false) : (mapWithLine f p).Progresses := by
  intro s t hs hb hrun hf
  obtain ⟨u, hu, hrun⟩ := Option.bind_eq_some_iff.1 hrun
  split at hrun
  · cases hrun
    exact hp s t hs hb hu hf
  · rename_i hu'
    rw [Bool.not_eq_true] at hu'
    cases hrun
    have hplace := (hlead s u hs hb hu).onBoundary.samePlace_succeed
      ((f u.result u.line).onLine u.line)
    have hlt := hp s u hs hb hu hu'
    rwa [hplace.cursor] at hlt

theorem progresses_map (f : Value ν → Value ν) (hp : p.Progresses) (hlead : p.Leads false) :
    (map f p).Progresses := progresses_mapWithLine (fun v _ => f v) hp hlead

theorem progresses_chain {next : Value ν → Step ν} (hp : p.Progresses) (hlead : p.Leads false)
    (hn : ∀ v, (next v).Leads false) : (chain next p).Progresses := by
  intro s t hs hb hrun hf
  obtain ⟨u, hu, hrun⟩ := Option.bind_eq_some_iff.1 hrun
  split at hrun
  · cases hrun
    exact hp s t hs hb hu hf
  · rename_i hu'
    rw [Bool.not_eq_true] at hu'
    have hlater := hn u.result u.take t hu' (hlead s u hs hb hu).take.onBoundary hrun
    exact Nat.lt_of_lt_of_le (hp s u hs hb hu hu') (hlater.onward rfl)

/-- One step that takes text is enough for a sequence of steps that do not go back. -/
theorem progresses_sequenceFrom (hps : ∀ p ∈ ps, p.Leads false) (hp : ∃ p ∈ ps, p.Progresses)
    (items : Array (Value ν)) : (sequenceFrom items ps).Progresses := by
  induction ps generalizing items with
  | nil =>
    obtain ⟨p, hmem, _⟩ := hp
    exact absurd hmem List.not_mem_nil
  | cons p ps ih =>
    intro s t hs hb hrun hf
    obtain ⟨u, hu, hrun⟩ := Option.bind_eq_some_iff.1 hrun
    have hlead := hps p List.mem_cons_self s u hs hb hu
    have hrest : ∀ q ∈ ps, q.Leads false := fun q hq => hps q (List.mem_cons_of_mem _ hq)
    split at hrun
    · rename_i hfailed
      cases hrun
      exact Bool.noConfusion (hf.symm.trans hfailed)
    · rename_i hu'
      rw [Bool.not_eq_true] at hu'
      have hlive : u.collected.failed = false := u.failed_collected.trans hu'
      have hcursor : u.collected.cursor = u.cursor := u.cursor_collected
      obtain ⟨r, hr, hprogress⟩ := hp
      rcases List.mem_cons.1 hr with heq | hr
      · rw [heq] at hprogress
        have hfirst := hprogress s u hs hb hu hu'
        have hlater := (leads_sequenceFrom hrest _ u.collected t hlive hlead.collected.onBoundary
          hrun).onward rfl
        omega
      · have hfirst := hlead.onward rfl
        have hlater := ih hrest ⟨r, hr, hprogress⟩ _ u.collected t hlive
          hlead.collected.onBoundary hrun hf
        omega

theorem progresses_and (hleft : p.Leads false) (hright : q.Leads false)
    (h : p.Progresses ∨ q.Progresses) : (Step.and p q).Progresses := by
  intro s t hs hb hrun hf
  obtain ⟨u, hu, hrun⟩ := Option.bind_eq_some_iff.1 hrun
  have hlead := hleft s u hs hb hu
  split at hrun
  · rename_i hfailed
    cases hrun
    exact Bool.noConfusion (hf.symm.trans hfailed)
  · rename_i hu'
    rw [Bool.not_eq_true] at hu'
    have hlive : u.collected.failed = false := u.failed_collected.trans hu'
    have hcursor : u.collected.cursor = u.cursor := u.cursor_collected
    obtain ⟨w, hw, hrun⟩ := Option.bind_eq_some_iff.1 hrun
    have hlead' := hright u.collected w hlive hlead.collected.onBoundary hw
    split at hrun
    · rename_i hfailed
      cases hrun
      exact Bool.noConfusion (hf.symm.trans hfailed)
    · rename_i hw'
      rw [Bool.not_eq_true] at hw'
      cases hrun
      have hend := (hlead'.onBoundary.samePlace_succeed (.list (u.spliced ++ w.spliced))).cursor
      show s.cursor < (w.succeed (.list (u.spliced ++ w.spliced))).cursor
      rw [← hend]
      have hfirst := hlead.onward rfl
      have hsecond := hlead'.onward rfl
      rcases h with hp | hq
      · have hlt := hp s u hs hb hu hu'
        omega
      · have hlt := hq u.collected w hlive hlead.collected.onBoundary hw hw'
        omega

/-- A choice takes text if both branches do. -/
theorem progresses_or (left right : String) (hleft : p.Leads false) (hp : p.Progresses)
    (hq : q.Progresses) : (Step.or left right p q).Progresses := by
  intro s t hs hb hrun hf
  obtain ⟨u, hu, hrun⟩ := Option.bind_eq_some_iff.1 hrun
  split at hrun
  · have hplace := hb.samePlace_rewind (hleft s u hs hb hu).input
    obtain ⟨w, hw, hrun⟩ := Option.bind_eq_some_iff.1 hrun
    split at hrun
    · cases hrun
      cases hf
    · cases hrun
      have hlt := hq _ t rfl (hplace.onBoundary_iff.1 hb) hw hf
      rwa [← hplace.cursor] at hlt
  · cases hrun
    exact hp s t hs hb hu hf

/-! ## Steps that end -/

/-- A computation in two parts ends if the first does, and the second wherever the first has. -/
theorem exists_bind {α β : Type} {x : Option α} {f : α → Option β} (hx : ∃ a, x = some a)
    (hf : ∀ a, x = some a → ∃ b, f a = some b) : ∃ b, (x >>= f) = some b := by
  obtain ⟨a, ha⟩ := hx
  obtain ⟨b, hb⟩ := hf a ha
  exact ⟨b, Option.bind_eq_some_iff.2 ⟨a, ha, hb⟩⟩

theorem endsBelow_collectedAs (d : Disposition) (hp : p.EndsBelow n) :
    (collectedAs d p).EndsBelow n := by
  intro s hs hb hn
  refine exists_bind (hp s hs hb hn) fun t _ => ?_
  split <;> exact ⟨_, rfl⟩

theorem endsBelow_mapWithLine (f : Value ν → Nat → Value ν) (hp : p.EndsBelow n) :
    (mapWithLine f p).EndsBelow n := by
  intro s hs hb hn
  refine exists_bind (hp s hs hb hn) fun t _ => ?_
  split <;> exact ⟨_, rfl⟩

theorem endsBelow_map (f : Value ν → Value ν) (hp : p.EndsBelow n) : (map f p).EndsBelow n :=
  endsBelow_mapWithLine (fun v _ => f v) hp

theorem endsBelow_recover (f : ParseError → Value ν) (hp : p.EndsBelow n) :
    (recover f p).EndsBelow n := by
  intro s hs hb hn
  refine exists_bind (hp s hs hb hn) fun t _ => ?_
  split <;> exact ⟨_, rfl⟩

theorem endsBelow_optional (hp : p.EndsBelow n) : (Step.optional p).EndsBelow n := by
  intro s hs hb hn
  refine exists_bind (hp s hs hb hn) fun t _ => ?_
  split <;> exact ⟨_, rfl⟩

theorem endsBelow_chain {next : Value ν → Step ν} (hp : p.EndsBelow n) (hm : p.Enters n m)
    (hn : ∀ v, (next v).EndsBelow m) : (chain next p).EndsBelow n := by
  intro s hs hb hlt
  refine exists_bind (hp s hs hb hlt) fun t ht => ?_
  split
  · exact ⟨_, rfl⟩
  · rename_i hf
    rw [Bool.not_eq_true] at hf
    obtain ⟨hb', hlt'⟩ := hm s t hs hb hlt ht hf
    exact hn t.result t.take hf hb' hlt'

/-- The right step need only end from where the left one leads. -/
theorem endsBelow_and (hp : p.EndsBelow n) (hm : p.Enters n m) (hq : q.EndsBelow m) :
    (Step.and p q).EndsBelow n := by
  intro s hs hb hlt
  refine exists_bind (hp s hs hb hlt) fun t ht => ?_
  split
  · exact ⟨_, rfl⟩
  · rename_i hf
    rw [Bool.not_eq_true] at hf
    obtain ⟨hb', hlt'⟩ := hm s t hs hb hlt ht hf
    have hplace := t.samePlace_collected
    rw [hplace.ahead_eq] at hlt'
    refine exists_bind (hq t.collected (t.failed_collected.trans hf) (hplace.onBoundary_iff.1 hb')
      hlt') fun u _ => ?_
    split <;> exact ⟨_, rfl⟩

/-- The right branch starts where the left one did. -/
theorem endsBelow_or (left right : String) (hp : p.EndsBelow n) (hlead : p.Leads false)
    (hq : q.EndsBelow n) : (Step.or left right p q).EndsBelow n := by
  intro s hs hb hn
  refine exists_bind (hp s hs hb hn) fun t ht => ?_
  split
  · have hplace := hb.samePlace_rewind (hlead s t hs hb ht).input
    have hn' : (t.rewind s.cursor).ahead < n := by rwa [← hplace.ahead_eq]
    refine exists_bind (hq _ rfl (hplace.onBoundary_iff.1 hb) hn') fun u _ => ?_
    split <;> exact ⟨_, rfl⟩
  · exact ⟨_, rfl⟩

theorem endsBelow_choice (hps : ∀ p ∈ ps, p.EndsBelow n ∧ p.Leads false) :
    (choice ps).EndsBelow n := by
  suffices h : ∀ s s' : State ν, s.OnBoundary → s.SamePlace s' → s'.failed = false →
      s.ahead < n → ∃ t, choiceFrom s.cursor ps s' = some t from
    fun s hs hb hn => h s s hb ⟨rfl, rfl⟩ hs hn
  induction ps with
  | nil => exact fun _ _ _ _ _ _ => ⟨_, rfl⟩
  | cons p ps ih =>
    intro s s' hb hplace hs' hn
    obtain ⟨hp, hlead⟩ := hps p List.mem_cons_self
    have hb' := hplace.onBoundary_iff.1 hb
    refine exists_bind (hp s' hs' hb' (by rwa [← hplace.ahead_eq])) fun t ht => ?_
    split
    · have hinput := (hlead s' t hs' hb' ht).input.trans hplace.input.symm
      exact ih (fun p hp => hps p (List.mem_cons_of_mem _ hp)) s _ hb
        (hb.samePlace_rewind hinput) rfl hn
    · exact ⟨_, rfl⟩

/-- Steps that end one after the other: the first from all states with fewer than `n` bytes ahead,
and each other from where the ones before it lead. -/
inductive EndInOrder : Nat → List (Step ν) → Prop where
  | nil (n : Nat) : EndInOrder n []
  | cons {n m : Nat} {p : Step ν} {ps : List (Step ν)} (hp : p.EndsBelow n) (hm : p.Enters n m)
      (hps : EndInOrder m ps) : EndInOrder n (p :: ps)

theorem EndInOrder.endsBelow_sequenceFrom (h : EndInOrder n ps) (items : Array (Value ν)) :
    (sequenceFrom items ps).EndsBelow n := by
  induction h generalizing items with
  | nil n => exact endsBelow_of_forall fun s => ⟨_, rfl⟩
  | cons hp hm _ ih =>
    intro s hs hb hlt
    refine exists_bind (hp s hs hb hlt) fun t ht => ?_
    split
    · exact ⟨_, rfl⟩
    · rename_i hf
      rw [Bool.not_eq_true] at hf
      obtain ⟨hb', hlt'⟩ := hm s t hs hb hlt ht hf
      have hplace := t.samePlace_collected
      rw [hplace.ahead_eq] at hlt'
      exact ih _ t.collected (t.failed_collected.trans hf) (hplace.onBoundary_iff.1 hb') hlt'

theorem endsBelow_sequence (h : EndInOrder n ps) : (sequence ps).EndsBelow n :=
  h.endsBelow_sequenceFrom #[]

/-! ## Repetition

The budget need only be greater than the number of bytes ahead: a round that is not the last one
leaves fewer of them. -/

section

variable {h : Harvest ν} {s : State ν} {b : Nat}

theorem exists_manyFrom (hp : p.EndsBelow n) (hlead : p.Leads false) (hh : h.LedFrom false s)
    (hs : s.ahead < n) (hb : h.state.ahead < b) : ∃ h', manyFrom p b h = some h' := by
  induction b generalizing h with
  | zero => exact absurd hb (Nat.not_lt_zero _)
  | succ b ih =>
    have hn := Nat.lt_of_le_of_lt hh.led.ahead_le hs
    refine exists_bind (hp h.state hh.live hh.led.onBoundary hn) fun t ht => ?_
    split
    · exact ⟨_, rfl⟩
    · rename_i hf
      rw [Bool.not_eq_true] at hf
      split
      · exact ⟨_, rfl⟩
      · rename_i hne
        have hlt : t.ahead < h.state.ahead := (hh.leadsTo hlead ht).ahead_lt hne
        have hadded : (h.add t).state.ahead = t.ahead := t.samePlace_collected.ahead_eq.symm
        exact ih (hh.add hlead ht hf) (by omega)

theorem exists_separatedFrom (hp : p.EndsBelow n) (hlead : p.Leads false) (hq : q.EndsBelow n)
    (hlead' : q.Leads false) (hh : h.LedFrom false s) (hs : s.ahead < n)
    (hb : h.state.ahead < b) : ∃ h', separatedFrom p q b h = some h' := by
  induction b generalizing h with
  | zero => exact absurd hb (Nat.not_lt_zero _)
  | succ b ih =>
    have hn := Nat.lt_of_le_of_lt hh.led.ahead_le hs
    refine exists_bind (hp h.state hh.live hh.led.onBoundary hn) fun t ht => ?_
    split
    · exact ⟨_, rfl⟩
    · rename_i hf
      rw [Bool.not_eq_true] at hf
      have hadded := hh.add hlead ht hf
      have hn' := Nat.lt_of_le_of_lt hadded.led.ahead_le hs
      refine exists_bind (hq _ hadded.live hadded.led.onBoundary hn') fun u hu => ?_
      split
      · exact ⟨_, rfl⟩
      · rename_i hg
        rw [Bool.not_eq_true] at hg
        split
        · exact ⟨_, rfl⟩
        · rename_i hne
          have hround : h.state.LeadsTo false u :=
            (hh.leadsTo hlead ht).collected.trans (hadded.leadsTo hlead' hu)
          have hlt : u.ahead < h.state.ahead := hround.ahead_lt hne
          have hnext : ((h.add t).stop u).LedFrom false s := ⟨hg, hh.led.trans hround⟩
          exact ih hnext (Nat.lt_of_lt_of_le hlt (Nat.le_of_lt_succ hb))

theorem exists_allFrom (label : String) (hp : p.EndsBelow n) (hlead : p.Leads false)
    (hh : h.LedFrom false s) (hs : s.ahead < n) (hb : h.state.ahead < b) :
    ∃ t, allFrom label p b h = some t := by
  induction b generalizing h with
  | zero => exact absurd hb (Nat.not_lt_zero _)
  | succ b ih =>
    have hn := Nat.lt_of_le_of_lt hh.led.ahead_le hs
    refine exists_bind (hp h.state hh.live hh.led.onBoundary hn) fun t ht => ?_
    split
    · exact ⟨_, rfl⟩
    · rename_i hf
      rw [Bool.not_eq_true] at hf
      simp only
      split
      · exact ⟨_, rfl⟩
      · split
        · exact ⟨_, rfl⟩
        · rename_i hne
          have hlt : t.ahead < h.state.ahead := (hh.leadsTo hlead ht).ahead_lt hne
          have hadded : (h.add t).state.ahead = t.ahead := t.samePlace_collected.ahead_eq.symm
          exact ih (hh.add hlead ht hf) (by omega)

theorem endsBelow_many (least : Nat) (label : String) (hp : p.EndsBelow n) (hlead : p.Leads false)
    (hb : n ≤ b) : Step.EndsBelow n (many b least label p) := by
  intro s hs hbound hn
  refine exists_bind (exists_manyFrom hp hlead (.start hs hbound) hn (Nat.lt_of_lt_of_le hn hb))
    fun h _ => ?_
  split <;> exact ⟨_, rfl⟩

theorem endsBelow_separated (least : Nat) (valueLabel separatorLabel : String)
    (hp : p.EndsBelow n) (hlead : p.Leads false) (hq : q.EndsBelow n) (hlead' : q.Leads false)
    (hb : n ≤ b) : Step.EndsBelow n (separated b least valueLabel separatorLabel p q) := by
  intro s hs hbound hn
  refine exists_bind (exists_separatedFrom hp hlead hq hlead' (.start hs hbound) hn
    (Nat.lt_of_lt_of_le hn hb)) fun h _ => ?_
  split <;> exact ⟨_, rfl⟩

theorem endsBelow_all (label : String) (hp : p.EndsBelow n) (hlead : p.Leads false) (hb : n ≤ b) :
    Step.EndsBelow n (all b label p) := fun _ hs hbound hn =>
  exists_allFrom label hp hlead (.start hs hbound) hn (Nat.lt_of_lt_of_le hn hb)

end

/-! ## Recursion -/

/-- Within its body, what refers to a recursion need only end with fewer bytes ahead.  So the depth
of the recursion is bounded by their number. -/
theorem endsBelow_fix {body : Step ν → Step ν}
    (h : ∀ m ≤ n, ∀ self : Step ν, self.Leads false → self.EndsBelow (m - 1) →
      (body self).EndsBelow m)
    (hlead : ∀ self : Step ν, self.Leads false → (body self).Leads false) {b : Nat} (hb : n ≤ b) :
    (fix body b).EndsBelow n := by
  suffices hdepth : ∀ m k, m ≤ n → m ≤ k → (fix body k).EndsBelow m from
    hdepth n b (Nat.le_refl n) hb
  intro m
  induction m with
  | zero => exact fun _ _ _ s _ _ hlt => absurd hlt (Nat.not_lt_zero _)
  | succ m ih =>
    intro k hm hk
    obtain ⟨k, rfl⟩ := Nat.exists_eq_add_of_le' (Nat.le_trans (Nat.le_add_left 1 m) hk)
    have hself : (fix body k).EndsBelow m := ih k (by omega) (by omega)
    exact h (m + 1) hm (fix body k) (leads_fix hlead k) hself

end Step

end TextGrammar
