import TextGrammar.Proofs.Progress.Step
import TextGrammar.Proofs.Text.Lines

/-!
# Steps that put nodes on lines

A new node is put on the line on which the step that made it has ended, and stays on it however far
it travels from there.

* `Value.Holds` — the nodes in a value at any depth, also those inside of other nodes.
* `Value.MadeOf` — what may be made of a value: nodes copied from it, and a new node around them.
* `Value.LinesIn` — all nodes are on lines of a range, and none on an earlier line than a node that
  it holds.
* `Step.Stamps` — a step whose results are so between the lines where it begins and where it ends.
* `State.Stamped` — the invariant of sequences and loops, which says the same of all items collected
  so far.
* `Step.stamps_literal` to `Step.stamps_fix` — each way to put steps together keeps it.
-/

namespace TextGrammar

variable {ν : Type} {inside : ν → Value ν}

/-! ## The nodes in a value -/

namespace Value

/-- The node `n` stands in the value at some depth, with its line: as the value itself, in an item of
a list, or in what another node holds.  What a node holds is told by `inside`. -/
inductive Holds (inside : ν → Value ν) (n : ν) (line : Option Nat) : Value ν → Prop where
  | here : Holds inside n line (node n line)
  | item {v : Value ν} {items : List (Value ν)} (hv : v ∈ items) (h : Holds inside n line v) :
      Holds inside n line (list items)
  | inner {outer : ν} {outerLine : Option Nat} (h : Holds inside n line (inside outer)) :
      Holds inside n line (node outer outerLine)

/-- All nodes in `w` are nodes in `v`, on the same lines. -/
def CopiedFrom (inside : ν → Value ν) (w v : Value ν) : Prop :=
  ∀ n line, w.Holds inside n line → v.Holds inside n line

/-- The value `w` is made of `v`: its nodes are copied from `v`, or it is a new node, on no line yet,
in which all nodes are. -/
def MadeOf (inside : ν → Value ν) (v w : Value ν) : Prop :=
  w.CopiedFrom inside v ∨ ∃ n, w = ofNode n ∧ (inside n).CopiedFrom inside v

/-- Every node in the value is on a line from `first` to `last`, and so are all nodes that it holds,
on no later line than itself. -/
def LinesIn (inside : ν → Value ν) (first last : Nat) (v : Value ν) : Prop :=
  ∀ n line, v.Holds inside n line → ∃ l, line = some l ∧ first ≤ l ∧ l ≤ last ∧
    ∀ m line', (inside n).Holds inside m line' → ∃ l', line' = some l' ∧ l' ≤ l

variable {v w : Value ν} {first last first' last' : Nat}

theorem holds_list_iff {n : ν} {line : Option Nat} {items : List (Value ν)} :
    (list items).Holds inside n line ↔ ∃ v ∈ items, v.Holds inside n line := by
  constructor
  · rintro (_ | ⟨hv, h⟩)
    exact ⟨_, hv, h⟩
  · rintro ⟨v, hv, h⟩
    exact .item hv h

theorem linesIn_token (text : String) : (token text).LinesIn inside first last := nofun

theorem linesIn_absent : absent.LinesIn inside first last := nofun

theorem linesIn_list_iff {items : List (Value ν)} :
    (list items).LinesIn inside first last ↔ ∀ v ∈ items, v.LinesIn inside first last := by
  constructor
  · intro h v hv n line hn
    exact h n line (.item hv hn)
  · intro h n line hn
    obtain ⟨v, hv, hn⟩ := holds_list_iff.1 hn
    exact h v hv n line hn

theorem LinesIn.mono (h : v.LinesIn inside first last) (hfirst : first' ≤ first)
    (hlast : last ≤ last') : v.LinesIn inside first' last' := by
  intro n line hn
  obtain ⟨l, hline, hl, hl', hinner⟩ := h n line hn
  exact ⟨l, hline, Nat.le_trans hfirst hl, Nat.le_trans hl' hlast, hinner⟩

/-- What is copied stays on its line. -/
theorem LinesIn.copied (h : v.LinesIn inside first last) (hw : w.CopiedFrom inside v) :
    w.LinesIn inside first last := fun n line hn => h n line (hw n line hn)

/-- A node that is on a line is not put on another one. -/
theorem LinesIn.onLine_eq (h : v.LinesIn inside first last) (line : Nat) : v.onLine line = v := by
  match v with
  | token _ => rfl
  | list _ => rfl
  | node n none =>
    obtain ⟨l, hl, _⟩ := h n none .here
    cases hl
  | node _ (some _) => rfl
  | absent => rfl

/-- **A new node on the last line is on no earlier line than what it holds.** -/
theorem LinesIn.onLine (h : v.LinesIn inside first last) (hle : first ≤ last)
    (hw : v.MadeOf inside w) : (w.onLine last).LinesIn inside first last := by
  rcases hw with hw | ⟨n, rfl, hw⟩
  · have hcopied := h.copied hw
    rwa [hcopied.onLine_eq]
  · have hinner := h.copied hw
    intro m line hm
    cases hm with
    | here =>
      refine ⟨last, rfl, hle, Nat.le_refl _, fun m line' hm => ?_⟩
      obtain ⟨l', hl', _, hlast, _⟩ := hinner m line' hm
      exact ⟨l', hl', hlast⟩
    | inner hm => exact hinner m line hm

/-- The first item of a list is copied from it. -/
theorem madeOf_head (v : Value ν) : v.MadeOf inside v.head := by
  refine .inl fun n line hn => ?_
  match v with
  | token _ => cases hn
  | list [] => cases hn
  | list (_ :: _) => exact .item List.mem_cons_self hn
  | node _ _ => cases hn
  | absent => cases hn

end Value

/-! ## Lines of states -/

namespace State

variable {s s₀ t u : State ν} {items : List (Value ν)}

theorem SamePlace.line_eq (h : s.SamePlace t) : s.line = t.line := by
  rw [line, line, h.input, h.cursor]

/-- To go on does not lead to an earlier line. -/
theorem LeadsTo.line_le (h : s.LeadsTo false t) : s.line ≤ t.line := by
  rw [line, line, h.input]
  exact s.input.line_mono (h.onward rfl)

theorem OnBoundary.line_succeed (h : s.OnBoundary) (v : Value ν) : (s.succeed v).line = s.line :=
  (h.samePlace_succeed v).line_eq.symm

/-! ### What has been collected -/

/-- The items have their nodes on lines from `s₀` to the state `s`, from which the parse goes on. -/
structure Stamped (inside : ν → Value ν) (s₀ : State ν) (items : List (Value ν)) (s : State ν) :
    Prop where
  live : s.failed = false
  led : s₀.LeadsTo false s
  items : ∀ v ∈ items, v.LinesIn inside s₀.line s.line

/-- The state `t` may come behind `s`, and if it is a success then with its nodes on lines between
the two. -/
structure StampsTo (inside : ν → Value ν) (s t : State ν) : Prop where
  led : s.LeadsTo false t
  lines : t.failed = false → t.result.LinesIn inside s.line t.line

theorem StampsTo.kept (h : s.StampsTo inside t) (hf : t.failed = false) :
    ∀ v ∈ t.kept, v.LinesIn inside s.line t.line := by
  unfold State.kept
  split
  · exact fun v hv => absurd hv List.not_mem_nil
  · intro v hv
    rw [List.mem_singleton.1 hv]
    exact h.lines hf

theorem StampsTo.spliced (h : s.StampsTo inside t) (hf : t.failed = false) :
    ∀ v ∈ t.spliced, v.LinesIn inside s.line t.line := by
  have hlines := h.lines hf
  unfold State.spliced
  split
  · exact fun v hv => absurd hv List.not_mem_nil
  · rename_i hlist
    rw [hlist] at hlines
    exact Value.linesIn_list_iff.1 hlines
  · intro v hv
    rw [List.mem_singleton.1 hv]
    exact hlines

/-- What has no nodes has them on all lines. -/
theorem stampsTo_of_noNodes (hled : s.LeadsTo false t)
    (h : ∀ first last, t.result.LinesIn inside first last) : s.StampsTo inside t :=
  ⟨hled, fun _ => h _ _⟩

theorem stampsTo_of_failed (hled : s.LeadsTo false t) (hf : t.failed = true) :
    s.StampsTo inside t :=
  ⟨hled, fun hf' => Bool.noConfusion (hf.symm.trans hf')⟩

/-- Lines from a later place on are lines from an earlier one on. -/
theorem StampsTo.of_leadsTo (h : t.StampsTo inside u) (hled : s.LeadsTo false t) :
    s.StampsTo inside u :=
  ⟨hled.trans h.led, fun hf => (h.lines hf).mono hled.line_le (Nat.le_refl _)⟩

theorem StampsTo.collectAs (h : s.StampsTo inside t) (d : Disposition) :
    s.StampsTo inside (t.collectAs d) := ⟨h.led.collectAs d, h.lines⟩

/-- A success with another value whose nodes are on lines so far. -/
theorem LeadsTo.stampsTo_succeed (hled : s.LeadsTo false t) {v : Value ν}
    (hv : v.LinesIn inside s.line t.line) : s.StampsTo inside (t.succeed v) := by
  refine ⟨hled.succeed v, fun _ => ?_⟩
  rw [hled.onBoundary.line_succeed]
  exact hv

/-- A success that is made of another one. -/
theorem StampsTo.succeed (h : s.StampsTo inside t) (hf : t.failed = false) {v : Value ν}
    (hv : t.result.MadeOf inside v) : s.StampsTo inside (t.succeed (v.onLine t.line)) :=
  h.led.stampsTo_succeed ((h.lines hf).onLine h.led.line_le hv)

namespace Stamped

theorem start (hs : s.failed = false) (hb : s.OnBoundary) : s.Stamped inside [] s :=
  ⟨hs, hb.leadsTo_self, nofun⟩

/-- What comes behind adds the nodes that it has made. -/
theorem add (h : s₀.Stamped inside items s) (hst : s.StampsTo inside t) (hf : t.failed = false)
    {new : List (Value ν)} (hnew : ∀ v ∈ new, v.LinesIn inside s.line t.line) :
    s₀.Stamped inside (items ++ new) t.collected := by
  refine ⟨t.failed_collected.trans hf, (h.led.trans hst.led).collected, fun v hv => ?_⟩
  rw [← (samePlace_collected t).line_eq]
  rcases List.mem_append.1 hv with hv | hv
  · exact (h.items v hv).mono (Nat.le_refl _) hst.led.line_le
  · exact (hnew v hv).mono h.led.line_le (Nat.le_refl _)

/-- What comes behind may be left out. -/
theorem goOn (h : s₀.Stamped inside items s) (hled : s.LeadsTo false t) (hf : t.failed = false) :
    s₀.Stamped inside items t :=
  ⟨hf, h.led.trans hled, fun v hv => (h.items v hv).mono (Nat.le_refl _) hled.line_le⟩

theorem giveBack (h : s₀.Stamped inside items s) (hled : s.LeadsTo false t) :
    s₀.Stamped inside items (t.rewind s.cursor) :=
  h.goOn (h.led.onBoundary.leadsTo_self.rewind hled) rfl

theorem succeed (h : s₀.Stamped inside items s) :
    s₀.StampsTo inside (s.succeed (.list items)) :=
  h.led.stampsTo_succeed (Value.linesIn_list_iff.2 h.items)

end Stamped

end State

/-! ## Steps -/

/-- A step that does not go back, and whose successes have their nodes on lines between the places
where it begins and where it ends. -/
def Step.Stamps (inside : ν → Value ν) (p : Step ν) : Prop :=
  ∀ s t : State ν, s.failed = false → s.OnBoundary → p s = some t → s.StampsTo inside t

namespace Step

variable {p q : Step ν} {ps : List (Step ν)}

theorem Stamps.leads (hp : p.Stamps inside) : p.Leads false :=
  fun s t hs hb hrun => (hp s t hs hb hrun).led

/-! ### Single steps -/

theorem stamps_literal (text : String) : (literal text : Step ν).Stamps inside := by
  intro s t hs hb hrun
  have hled : s.LeadsTo false t := leads_literal text s t hs hb hrun
  unfold literal at hrun
  split at hrun
  · cases hrun
    exact State.stampsTo_of_noNodes hled fun _ _ => Value.linesIn_token text
  · cases hrun
    exact State.stampsTo_of_failed hled rfl

theorem stamps_pattern (pattern : Pattern) : (Step.pattern pattern : Step ν).Stamps inside := by
  intro s t hs hb hrun
  have hled : s.LeadsTo false t := leads_pattern pattern s t hs hb hrun
  unfold Step.pattern at hrun
  split at hrun
  · cases hrun
    exact State.stampsTo_of_noNodes hled fun _ _ => Value.linesIn_token _
  · cases hrun
    exact State.stampsTo_of_failed hled rfl

theorem stamps_endOfInput : (endOfInput : Step ν).Stamps inside := by
  intro s t hs hb hrun
  have hled : s.LeadsTo false t := leads_endOfInput s t hs hb hrun
  unfold endOfInput at hrun
  split at hrun
  · cases hrun
    exact State.stampsTo_of_noNodes hled fun _ _ => Value.linesIn_absent
  · cases hrun
    exact State.stampsTo_of_failed hled rfl

theorem stamps_stray : (stray : Step ν).Stamps inside := by
  intro s t hs hb hrun
  have hled : s.LeadsTo false t := leads_stray s t hs hb hrun
  cases hrun
  exact State.stampsTo_of_failed hled rfl

theorem stamps_collectedAs (d : Disposition) (hp : p.Stamps inside) :
    (collectedAs d p).Stamps inside := by
  intro s t hs hb hrun
  obtain ⟨u, hu, hrun⟩ := Option.bind_eq_some_iff.1 hrun
  have hst := hp s u hs hb hu
  split at hrun
  · cases hrun
    exact hst
  · cases hrun
    exact hst.collectAs d

theorem stamps_mapWithLine {f : Value ν → Nat → Value ν}
    (hmade : ∀ (v : Value ν) (line : Nat), v.MadeOf inside (f v line)) (hp : p.Stamps inside) :
    (mapWithLine f p).Stamps inside := by
  intro s t hs hb hrun
  obtain ⟨u, hu, hrun⟩ := Option.bind_eq_some_iff.1 hrun
  have hst := hp s u hs hb hu
  split at hrun
  · cases hrun
    exact hst
  · rename_i hf
    rw [Bool.not_eq_true] at hf
    cases hrun
    exact hst.succeed hf (hmade _ _)

theorem stamps_map {f : Value ν → Value ν} (hmade : ∀ v : Value ν, v.MadeOf inside (f v))
    (hp : p.Stamps inside) : (map f p).Stamps inside :=
  stamps_mapWithLine (f := fun v _ => f v) (fun v _ => hmade v) hp

/-- A recovered failure puts its node on the line where it failed. -/
theorem stamps_recover {f : ParseError → Value ν} (hmade : ∀ e, Value.absent.MadeOf inside (f e))
    (hp : p.Stamps inside) : (recover f p).Stamps inside := by
  intro s t hs hb hrun
  obtain ⟨u, hu, hrun⟩ := Option.bind_eq_some_iff.1 hrun
  have hst := hp s u hs hb hu
  split at hrun
  · cases hrun
    exact hst.collectAs .keep
  · rename_i e he
    cases hrun
    obtain ⟨failure, _, rfl⟩ := Option.map_eq_some_iff.1 he
    have hplace := hst.led.onBoundary.samePlace_rewind (t := u) rfl
    have hled := hst.led.of_samePlace hplace
    refine hled.stampsTo_succeed ?_
    rw [← hplace.line_eq]
    exact Value.linesIn_absent.onLine hst.led.line_le (hmade _)

theorem stamps_optional (hp : p.Stamps inside) : (Step.optional p).Stamps inside := by
  intro s t hs hb hrun
  have hled := leads_optional hp.leads s t hs hb hrun
  obtain ⟨u, hu, hrun⟩ := Option.bind_eq_some_iff.1 hrun
  split at hrun
  · cases hrun
    exact State.stampsTo_of_noNodes hled fun _ _ => Value.linesIn_absent
  · cases hrun
    exact (hp s u hs hb hu).collectAs .keep

theorem stamps_chain {next : Value ν → Step ν} (hn : ∀ v, (next v).Stamps inside)
    (hp : p.Stamps inside) : (chain next p).Stamps inside := by
  intro s t hs hb hrun
  obtain ⟨u, hu, hrun⟩ := Option.bind_eq_some_iff.1 hrun
  have hst := hp s u hs hb hu
  split at hrun
  · cases hrun
    exact hst
  · rename_i hf
    rw [Bool.not_eq_true] at hf
    have hled := hst.led.take
    exact (hn u.result u.take t hf hled.onBoundary hrun).of_leadsTo hled

/-! ### Several steps -/

theorem stamps_sequence (hps : ∀ p ∈ ps, p.Stamps inside) : (sequence ps).Stamps inside := by
  suffices h : ∀ (items : Array (Value ν)) (s₀ s t : State ν), s₀.Stamped inside items.toList s →
      sequenceFrom items ps s = some t → s₀.StampsTo inside t from
    fun s t hs hb hrun => h #[] s s t (.start hs hb) hrun
  induction ps with
  | nil =>
    intro items s₀ s t h hrun
    cases hrun
    exact h.succeed
  | cons p ps ih =>
    intro items s₀ s t h hrun
    obtain ⟨u, hu, hrun⟩ := Option.bind_eq_some_iff.1 hrun
    have hst := hps p List.mem_cons_self s u h.live h.led.onBoundary hu
    split at hrun
    · rename_i hf
      cases hrun
      exact hst.of_leadsTo h.led
    · rename_i hf
      rw [Bool.not_eq_true] at hf
      have hadd := h.add hst hf (hst.kept hf)
      rw [← Array.toList_appendList] at hadd
      exact ih (fun p hp => hps p (List.mem_cons_of_mem _ hp)) _ s₀ _ t hadd hrun

theorem stamps_and (hp : p.Stamps inside) (hq : q.Stamps inside) :
    (Step.and p q).Stamps inside := by
  intro s t hs hb hrun
  obtain ⟨u, hu, hrun⟩ := Option.bind_eq_some_iff.1 hrun
  have hst := hp s u hs hb hu
  split at hrun
  · cases hrun
    exact hst
  · rename_i hf
    rw [Bool.not_eq_true] at hf
    have hleft := (State.Stamped.start hs hb).add hst hf (hst.spliced hf)
    obtain ⟨w, hw, hrun⟩ := Option.bind_eq_some_iff.1 hrun
    have hst' := hq u.collected w hleft.live hleft.led.onBoundary hw
    split at hrun
    · cases hrun
      exact hst'.of_leadsTo hleft.led
    · rename_i hf'
      rw [Bool.not_eq_true] at hf'
      cases hrun
      refine State.StampsTo.collectAs ?_ .splice
      refine (hleft.led.trans hst'.led).stampsTo_succeed (Value.linesIn_list_iff.2 fun v hv => ?_)
      rw [(State.samePlace_collected w).line_eq]
      exact (hleft.add hst' hf' (hst'.spliced hf')).items v hv

theorem stamps_or (left right : String) (hp : p.Stamps inside) (hq : q.Stamps inside) :
    (Step.or left right p q).Stamps inside := by
  intro s t hs hb hrun
  have hled := leads_or left right hp.leads hq.leads s t hs hb hrun
  obtain ⟨u, hu, hrun⟩ := Option.bind_eq_some_iff.1 hrun
  have hst := hp s u hs hb hu
  split at hrun
  · have hagain : s.LeadsTo false (u.rewind s.cursor) := hb.leadsTo_self.rewind hst.led
    obtain ⟨w, hw, hrun⟩ := Option.bind_eq_some_iff.1 hrun
    have hst' := (hq _ w rfl hagain.onBoundary hw).of_leadsTo hagain
    split at hrun
    · cases hrun
      exact State.stampsTo_of_failed hled rfl
    · cases hrun
      exact hst'
  · cases hrun
    exact hst

theorem stamps_choice (hps : ∀ p ∈ ps, p.Stamps inside) : (choice ps).Stamps inside := by
  suffices h : ∀ s s' t : State ν, s.OnBoundary → s'.failed = false → s.LeadsTo false s' →
      choiceFrom s.cursor ps s' = some t → s.StampsTo inside t from
    fun s t hs hb hrun => h s s t hb hs hb.leadsTo_self hrun
  induction ps with
  | nil =>
    intro s s' t _ _ h hrun
    cases hrun
    exact State.stampsTo_of_failed (h.fail _) rfl
  | cons p ps ih =>
    intro s s' t hb hs' h hrun
    obtain ⟨u, hu, hrun⟩ := Option.bind_eq_some_iff.1 hrun
    have hst := (hps p List.mem_cons_self s' u hs' h.onBoundary hu).of_leadsTo h
    split at hrun
    · exact ih (fun p hp => hps p (List.mem_cons_of_mem _ hp)) s _ t hb rfl
        (hb.leadsTo_self.rewind hst.led) hrun
    · cases hrun
      exact hst.collectAs .keep

/-! ### Repetition -/

theorem Stamps.add (hp : p.Stamps inside) {s t : State ν} {h : Harvest ν}
    (hh : s.Stamped inside h.items.toList h.state) (hrun : p h.state = some t)
    (hf : t.failed = false) : s.Stamped inside (h.add t).items.toList (h.add t).state := by
  have hst := hp h.state t hh.live hh.led.onBoundary hrun
  show s.Stamped inside (h.items ++ t.kept).toList t.collected
  rw [Array.toList_appendList]
  exact hh.add hst hf (hst.kept hf)

theorem stamps_many (budget least : Nat) (label : String) (hp : p.Stamps inside) :
    Step.Stamps inside (many budget least label p) := by
  intro s t hs hb hrun
  have hled := leads_many budget least label hp.leads s t hs hb hrun
  obtain ⟨h, hh, hrun⟩ := Option.bind_eq_some_iff.1 hrun
  have hstamped : s.Stamped inside h.items.toList h.state := by
    refine manyFrom_invariant (I := fun h => s.Stamped inside h.items.toList h.state)
      (fun h t hI ht _ => ?_) (fun _ _ hI ht hf => hp.add hI ht hf) (.start hs hb) hh
    exact hI.giveBack (hp h.state t hI.live hI.led.onBoundary ht).led
  split at hrun
  · cases hrun
    exact State.stampsTo_of_failed hled rfl
  · cases hrun
    exact hstamped.succeed

/-- Separators make nodes too, but these are not collected. -/
theorem stamps_separated (budget least : Nat) (valueLabel separatorLabel : String)
    (hp : p.Stamps inside) (hq : q.Leads false) :
    Step.Stamps inside (separated budget least valueLabel separatorLabel p q) := by
  intro s t hs hb hrun
  have hled := leads_separated budget least valueLabel separatorLabel hp.leads hq s t hs hb hrun
  obtain ⟨h, hh, hrun⟩ := Option.bind_eq_some_iff.1 hrun
  have hstamped : s.Stamped inside h.items.toList h.state := by
    refine separatedFrom_invariant (I := fun h => s.Stamped inside h.items.toList h.state)
      (fun h t hI ht _ => ?_) (fun h t u hI ht hf hu _ => ?_) (fun h t u hI ht hf hu hg => ?_)
      (.start hs hb) hh
    · exact hI.giveBack (hp h.state t hI.live hI.led.onBoundary ht).led
    · have hadd := hp.add hI ht hf
      have hback := hadd.giveBack (hq _ u hadd.live hadd.led.onBoundary hu)
      rw [Harvest.add, State.cursor_collected] at hback
      exact hback
    · have hadd := hp.add hI ht hf
      exact hadd.goOn (hq _ u hadd.live hadd.led.onBoundary hu) hg
  split at hrun
  · cases hrun
    exact State.stampsTo_of_failed hled rfl
  · cases hrun
    exact hstamped.succeed

theorem stamps_all (budget : Nat) (label : String) (hp : p.Stamps inside) :
    Step.Stamps inside (all budget label p) := by
  intro s t hs hb hrun
  rcases allFrom_cases (I := fun h => s.Stamped inside h.items.toList h.state)
    (fun _ _ hI ht hf => hp.add hI ht hf) (.start hs hb) hrun with
    ⟨h, hI, ht, _⟩ | ⟨h, hI, _, rfl⟩ | ⟨h, hI, _, rfl⟩
  · exact (hp h.state t hI.live hI.led.onBoundary ht).of_leadsTo hI.led
  · exact hI.succeed
  · exact State.stampsTo_of_failed (hI.led.fail _) rfl

/-! ### Recursion -/

/-- What the body of a recursion keeps, the recursion has. -/
theorem stamps_fix {body : Step ν → Step ν}
    (h : ∀ p : Step ν, p.Stamps inside → (body p).Stamps inside) (budget : Nat) :
    (fix body budget).Stamps inside := by
  induction budget with
  | zero =>
    intro s t _ _ hrun
    cases hrun
  | succ budget ih => exact h _ ih

end Step

end TextGrammar
