import TextGrammar.Proofs.Progress
import TextGrammar.Proofs.Termination.Step

/-!
# Guarded grammars end

A parser may refer to itself only behind some text.  Then the bytes ahead bound the depth of the
recursion, as they bound the rounds of every repetition.

* `Parser.takesText` — whether a success tells by the form of the parser that text was taken.
* `Parser.Guarded` — every handle stands behind such text within the recursive parser that binds it.
* `Scope.Ready` — which handles end at once, and which only behind text.
* `Parser.Guarded.endsBelow` — a guarded parser ends within any budget that is greater than the
  number of bytes ahead.  The induction is on the parser, with a second one on the number of bytes
  where a recursion is entered.
* `Parser.ends_of_guarded`, `Parser.Guarded.exists_run` — so every run of it ends.
* `Parser.not_ends_recursive_handle` — without a guard that need not be so.
-/

namespace TextGrammar

variable {ν : Type} {p : Parser ν} {ps : List (Parser ν)} {pending : List Handle}

namespace Parser

/-! ## Guards -/

mutual

/-- Whether a success tells by the form of the parser that text was taken: it is a literal that is
not empty, or has one where it cannot be left out. -/
def takesText : Parser ν → Bool
  | literal text => text != ""
  | sequence ps => oneTakesText ps
  | and left right => left.takesText || right.takesText
  | or left right => left.takesText && right.takesText
  | collectedAs _ p => p.takesText
  | map _ p => p.takesText
  | mapWithLine _ p => p.takesText
  | chain _ p => p.takesText
  | named _ p => p.takesText
  | _ => false

/-- Whether that is so for one of several parsers at least. -/
def oneTakesText : List (Parser ν) → Bool
  | [] => false
  | p :: ps => p.takesText || oneTakesText ps

end

/-- Which of the pending handles are still pending behind the parser. -/
def pendingBehind (p : Parser ν) (pending : List Handle) : List Handle :=
  if p.takesText then [] else pending

mutual

/-- No pending handle is reached before text has been taken, and the handle of a recursive parser is
pending from the start of its body. -/
def Guarded (pending : List Handle) : Parser ν → Prop
  | literal _ => True
  | pattern _ => True
  | endOfInput => True
  | sequence ps => GuardedInOrder pending ps
  | and left right => left.Guarded pending ∧ right.Guarded (left.pendingBehind pending)
  | or left right => left.Guarded pending ∧ right.Guarded pending
  | choice ps => GuardedEach pending ps
  | optional p => p.Guarded pending
  | collectedAs _ p => p.Guarded pending
  | many _ p => p.Guarded pending
  | separated _ value separator => value.Guarded pending ∧ separator.Guarded pending
  | all p => p.Guarded pending
  | map _ p => p.Guarded pending
  | mapWithLine _ p => p.Guarded pending
  | recover _ p => p.Guarded pending
  | chain next p => p.Guarded pending ∧ ∀ v, (next v).Guarded (p.pendingBehind pending)
  | named _ p => p.Guarded pending
  | recursive h body => body.Guarded (h :: pending)
  | handle h => h ∉ pending
  | custom _ _ => True

/-- The parsers are guarded, each behind those before it. -/
def GuardedInOrder (pending : List Handle) : List (Parser ν) → Prop
  | [] => True
  | p :: ps => p.Guarded pending ∧ GuardedInOrder (p.pendingBehind pending) ps

/-- The parsers are guarded, all in the same place. -/
def GuardedEach (pending : List Handle) : List (Parser ν) → Prop
  | [] => True
  | p :: ps => p.Guarded pending ∧ GuardedEach pending ps

end

theorem oneTakesText_iff : oneTakesText ps = true ↔ ∃ p ∈ ps, p.takesText = true := by
  induction ps with
  | nil => simp [oneTakesText]
  | cons p ps ih => simp [oneTakesText, ih]

theorem GuardedEach.mem (h : GuardedEach pending ps) (hp : p ∈ ps) : p.Guarded pending := by
  induction ps with
  | nil => cases hp
  | cons q ps ih =>
    rcases List.mem_cons.1 hp with rfl | hp
    · exact h.1
    · exact ih h.2 hp

/-- **A parser with a guard takes text where it succeeds.** -/
theorem progresses_of_takesText (ht : p.takesText = true) (hp : p.ActionsLead false) (b : Nat)
    {scope : Scope ν} (hscope : ∀ h, (scope h).Leads false) :
    Step.Progresses (p.step b scope) := by
  induction p with
  | literal text => exact Step.progresses_literal (by simpa [takesText] using ht)
  | sequence ps ih =>
    obtain ⟨q, hq, hqt⟩ := oneTakesText_iff.1 ht
    have hmem : q.step b scope ∈ steps b scope ps := by
      rw [steps_eq_map]
      exact List.mem_map_of_mem hq
    exact Step.progresses_sequenceFrom
      (forall_mem_steps fun p h => ActionsLead.step (hp.part (.sequence h)) b hscope)
      ⟨_, hmem, ih q hq hqt (hp.part (.sequence hq))⟩ #[]
  | and left right ihl ihr =>
    have hl : left.ActionsLead false := hp.part (.andLeft left right)
    have hr : right.ActionsLead false := hp.part (.andRight left right)
    refine Step.progresses_and (hl.step b hscope) (hr.step b hscope) ?_
    rcases Bool.or_eq_true_iff.1 ht with ht | ht
    · exact .inl (ihl ht hl)
    · exact .inr (ihr ht hr)
  | or left right ihl ihr =>
    have hl : left.ActionsLead false := hp.part (.orLeft left right)
    have hr : right.ActionsLead false := hp.part (.orRight left right)
    obtain ⟨htl, htr⟩ := Bool.and_eq_true_iff.1 ht
    exact Step.progresses_or _ _ (hl.step b hscope) (ihl htl hl) (ihr htr hr)
  | collectedAs d p ih => exact Step.progresses_collectedAs d (ih ht (hp.part (.collectedAs d p)))
  | map f p ih =>
    have hp' : p.ActionsLead false := hp.part (.map f p)
    exact Step.progresses_map f (ih ht hp') (hp'.step b hscope)
  | mapWithLine f p ih =>
    have hp' : p.ActionsLead false := hp.part (.mapWithLine f p)
    exact Step.progresses_mapWithLine f (ih ht hp') (hp'.step b hscope)
  | chain next p _ ih =>
    have hp' : p.ActionsLead false := hp.part (.chain next p)
    exact Step.progresses_chain (ih ht hp') (hp'.step b hscope) fun v =>
      ActionsLead.step (hp.part (.chosen next p v)) b hscope
  | named label p ih => exact ih ht (hp.part (.named label p))
  | pattern | endOfInput | choice | optional | many | separated | all | recover | recursive
  | handle | custom => cases ht

end Parser

/-! ## Scopes -/

/-- With fewer than `n` bytes ahead, the handles end that are not pending, and with one byte less
all of them do. -/
structure Scope.Ready (pending : List Handle) (n : Nat) (scope : Scope ν) : Prop where
  leads : ∀ h, (scope h).Leads false
  later : ∀ h, (scope h).EndsBelow (n - 1)
  now : ∀ h, h ∉ pending → (scope h).EndsBelow n

namespace Scope.Ready

variable {scope : Scope ν} {n : Nat}

theorem none : Scope.none.Ready (ν := ν) [] n where
  leads := Scope.leads_none
  later _ := Step.endsBelow_of_forall fun _ => ⟨_, rfl⟩
  now _ _ := Step.endsBelow_of_forall fun _ => ⟨_, rfl⟩

/-- Behind a parser, the handles that are not pending there end: a parser that takes text leaves
fewer bytes ahead. -/
theorem behind (hs : scope.Ready pending n) (hp : p.ActionsLead false) (b : Nat) :
    ∃ m ≤ n, Step.Enters n m (p.step b scope) ∧ scope.Ready (p.pendingBehind pending) m := by
  have hlead := hp.step b hs.leads
  by_cases ht : p.takesText = true
  · refine ⟨n - 1, Nat.sub_le n 1,
      (Parser.progresses_of_takesText ht hp b hs.leads).enters hlead, hs.leads, fun h => ?_,
      fun h _ => hs.later h⟩
    exact (hs.later h).mono (Nat.sub_le _ 1)
  · refine ⟨n, Nat.le_refl n, hlead.enters, ?_⟩
    rw [Parser.pendingBehind, if_neg ht]
    exact hs

/-- Within a recursion its own handle is pending. -/
theorem bind (hs : scope.Ready pending n) (h : Handle) {m : Nat} (hm : m ≤ n) {self : Step ν}
    (hlead : self.Leads false) (hself : self.EndsBelow (m - 1)) :
    (scope.bind h self).Ready (h :: pending) m where
  leads := Scope.forall_bind hs.leads h hlead
  later :=
    Scope.forall_bind (fun other => (hs.later other).mono (Nat.sub_le_sub_right hm 1)) h hself
  now other hother := by
    rw [List.mem_cons, not_or] at hother
    rw [Scope.bind_of_ne _ _ hother.1]
    exact (hs.now other hother.2).mono hm

end Scope.Ready

namespace Parser

/-! ## Termination -/

/-- The steps of parsers that are guarded one behind the other end in order. -/
theorem endInOrder_steps {b n : Nat} {scope : Scope ν}
    (ih : ∀ p ∈ ps, ∀ {pending : List Handle} {n : Nat}, p.Guarded pending → n ≤ b →
      scope.Ready pending n → Step.EndsBelow n (p.step b scope))
    (hps : ∀ p ∈ ps, p.ActionsLead false) (hg : GuardedInOrder pending ps) (hb : n ≤ b)
    (hs : scope.Ready pending n) : Step.EndInOrder n (steps b scope ps) := by
  induction ps generalizing pending n with
  | nil => exact .nil n
  | cons p ps ihps =>
    obtain ⟨m, hm, henters, hbehind⟩ := hs.behind (hps p List.mem_cons_self) b
    refine .cons (ih p List.mem_cons_self hg.1 hb hs) henters ?_
    exact ihps (fun p hp => ih p (List.mem_cons_of_mem _ hp))
      (fun p hp => hps p (List.mem_cons_of_mem _ hp)) hg.2 (Nat.le_trans hm hb) hbehind

/-- **A guarded parser ends** within any budget not less than the bound on the bytes ahead. -/
theorem Guarded.endsBelow (hg : p.Guarded pending) (hp : p.ActionsLead false) {b n : Nat}
    (hb : n ≤ b) {scope : Scope ν} (hs : scope.Ready pending n) :
    Step.EndsBelow n (p.step b scope) := by
  induction p generalizing pending n scope with
  | literal text =>
    refine Step.endsBelow_of_forall fun s => ?_
    show ∃ t, Step.literal text s = some t
    unfold Step.literal
    split <;> exact ⟨_, rfl⟩
  | pattern p =>
    refine Step.endsBelow_of_forall fun s => ?_
    show ∃ t, Step.pattern p s = some t
    unfold Step.pattern
    split <;> exact ⟨_, rfl⟩
  | endOfInput =>
    refine Step.endsBelow_of_forall fun s => ?_
    show ∃ t, Step.endOfInput s = some t
    unfold Step.endOfInput
    split <;> exact ⟨_, rfl⟩
  | sequence ps ih =>
    have hps : ∀ p ∈ ps, p.ActionsLead false := fun p h => hp.part (.sequence h)
    exact Step.endsBelow_sequence <|
      endInOrder_steps (fun p h _ _ hg hb hs => ih p h hg (hps p h) hb hs) hps hg hb hs
  | and left right ihl ihr =>
    have hl : left.ActionsLead false := hp.part (.andLeft left right)
    have hr : right.ActionsLead false := hp.part (.andRight left right)
    obtain ⟨m, hm, henters, hbehind⟩ := hs.behind hl b
    exact Step.endsBelow_and (ihl hg.1 hl hb hs) henters
      (ihr hg.2 hr (Nat.le_trans hm hb) hbehind)
  | or left right ihl ihr =>
    have hl : left.ActionsLead false := hp.part (.orLeft left right)
    have hr : right.ActionsLead false := hp.part (.orRight left right)
    exact Step.endsBelow_or _ _ (ihl hg.1 hl hb hs) (hl.step b hs.leads) (ihr hg.2 hr hb hs)
  | choice ps ih =>
    refine Step.endsBelow_choice (forall_mem_steps fun p h => ?_)
    have hp' : p.ActionsLead false := hp.part (.choice h)
    exact ⟨ih p h (hg.mem h) hp' hb hs, hp'.step b hs.leads⟩
  | optional p ih => exact Step.endsBelow_optional (ih hg (hp.part (.optional p)) hb hs)
  | collectedAs d p ih =>
    exact Step.endsBelow_collectedAs d (ih hg (hp.part (.collectedAs d p)) hb hs)
  | many least p ih =>
    have hp' : p.ActionsLead false := hp.part (.many least p)
    exact Step.endsBelow_many least _ (ih hg hp' hb hs) (hp'.step b hs.leads) hb
  | separated least value separator ihv ihs =>
    have hv : value.ActionsLead false := hp.part (.value least value separator)
    have hsep : separator.ActionsLead false := hp.part (.separator least value separator)
    exact Step.endsBelow_separated least _ _ (ihv hg.1 hv hb hs) (hv.step b hs.leads)
      (ihs hg.2 hsep hb hs) (hsep.step b hs.leads) hb
  | all p ih =>
    have hp' : p.ActionsLead false := hp.part (.all p)
    exact Step.endsBelow_all _ (ih hg hp' hb hs) (hp'.step b hs.leads) hb
  | map f p ih => exact Step.endsBelow_map f (ih hg (hp.part (.map f p)) hb hs)
  | mapWithLine f p ih =>
    exact Step.endsBelow_mapWithLine f (ih hg (hp.part (.mapWithLine f p)) hb hs)
  | recover f p ih => exact Step.endsBelow_recover f (ih hg (hp.part (.recover f p)) hb hs)
  | chain next p ihn ih =>
    have hp' : p.ActionsLead false := hp.part (.chain next p)
    obtain ⟨m, hm, henters, hbehind⟩ := hs.behind hp' b
    exact Step.endsBelow_chain (ih hg.1 hp' hb hs) henters fun v =>
      ihn v (hg.2 v) (hp.part (.chosen next p v)) (Nat.le_trans hm hb) hbehind
  | named label p ih => exact ih hg (hp.part (.named label p)) hb hs
  | recursive h body ih =>
    have hbody : body.ActionsLead false := hp.part (.recursive h body)
    refine Step.endsBelow_fix (fun m hm self hlead hself => ?_)
      (fun self hlead => hbody.step b (Scope.forall_bind hs.leads h hlead)) hb
    exact ih hg hbody (Nat.le_trans hm hb) (hs.bind h hm hlead hself)
  | handle h => exact hs.now h hg
  | custom shown act => exact Step.endsBelow_of_forall fun s => ⟨act s, rfl⟩

theorem Guarded.exists_runFrom (hg : p.Guarded []) (hp : p.ActionsLead false) {s : State ν}
    (hb : s.OnBoundary) {b : Nat} (hlt : s.ahead < b) :
    ∃ t, p.runFrom b Scope.none s = some t := by
  cases hs : s.failed with
  | false =>
    rw [p.runFrom_of_live b Scope.none hs]
    exact hg.endsBelow hp (Nat.le_refl b) .none s hs hb hlt
  | true => exact ⟨s, by rw [runFrom, Step.unlessFailed, if_pos hs]⟩

/-- The budget of a run over a whole input is enough. -/
theorem Guarded.exists_run (hg : p.Guarded []) (hp : p.ActionsLead false) (input : Input) :
    ∃ outcome, p.run input = some outcome := by
  have hahead : (State.start input : State ν).ahead < budgetFor input.size := by
    show input.size - 0 < input.size + 0x100000000
    omega
  obtain ⟨t, ht⟩ := hg.exists_runFrom hp (State.onBoundary_start input) hahead
  exact ⟨t.outcome, by rw [run, finalState, ht, Option.map_some]⟩

/-- Without a guard a recursion need not end: a parser that is nothing but itself never does. -/
theorem not_ends_recursive_handle (h : Handle) (scope : Scope ν) {s : State ν}
    (hs : s.failed = false) (t : State ν) : ¬ (recursive h (handle h)).Ends scope s t := by
  rintro ⟨b, hrun⟩
  rw [runFrom_of_live _ b scope hs] at hrun
  have hdepth : ∀ k, Step.fix (fun self => (handle h).step b (scope.bind h self)) k s = none := by
    intro k
    induction k with
    | zero => rfl
    | succ k ih =>
      show scope.bind h (Step.fix (fun self => (handle h).step b (scope.bind h self)) k) h s = none
      rw [Scope.bind_self]
      exact ih
  exact nomatch (hdepth b).symm.trans hrun

/-- **Every guarded grammar ends on every input.**  From any state there is one in which the parser
ends, and it gets there with any budget of rounds that is greater than the number of bytes ahead. -/
theorem ends_of_guarded (hg : p.Guarded []) (hp : p.ActionsLead false) {s : State ν}
    (hb : s.OnBoundary) :
    ∃ t, p.Ends Scope.none s t ∧ ∀ b, s.ahead < b → p.runFrom b Scope.none s = some t := by
  obtain ⟨t, ht⟩ := hg.exists_runFrom hp hb (Nat.lt_succ_self s.ahead)
  exact ⟨t, ⟨_, ht⟩, fun b hlt => p.runFrom_le hlt Scope.none s t ht⟩

/-- Loops within loops, all over operands that may take nothing, with a handle inside the innermost:
the last bracket is not closed, so that what takes it gives it back. -/
theorem ends_of_guarded_brackets :
    ∃ t : State Nat,
      (recursive 0 (many 0 (optional (inBrackets (many 0 (handle 0)))))).Ends Scope.none
          (State.start (.ofString "[[]][")) t ∧
        t.failed = false ∧ t.cursor = 4 := by
  have hguarded : (recursive 0 (many 0 (optional (inBrackets (many 0 (handle 0))))) :
      Parser Nat).Guarded [] := by
    simp [inBrackets, between, ignore, Guarded, GuardedInOrder, pendingBehind, takesText]
  have hactions : (recursive 0 (many 0 (optional (inBrackets (many 0 (handle 0))))) :
      Parser Nat).ActionsLead false := by
    simp [ActionsLead, inBrackets, between, ignore]
  obtain ⟨t, hends, hbudget⟩ := ends_of_guarded hguarded hactions
    (State.onBoundary_start (.ofString "[[]]["))
  have ht := hbudget 6 (by decide)
  have hrun : ((recursive 0 (many 0 (optional (inBrackets (many 0 (handle 0))))) :
      Parser Nat).runFrom 6 Scope.none (State.start (.ofString "[[]]["))).map
        (fun t => (t.failed, t.cursor)) = some (false, 4) := by decide +kernel
  rw [ht, Option.map_some, Option.some_inj, Prod.mk.injEq] at hrun
  exact ⟨t, hends, hrun.1, hrun.2⟩

end Parser

end TextGrammar
