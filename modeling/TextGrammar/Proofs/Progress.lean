import TextGrammar.Parser.Run
import TextGrammar.Parser.Basic
import TextGrammar.Proofs.Parser.Budget
import TextGrammar.Proofs.Parser.Part
import TextGrammar.Proofs.Progress.Step

/-!
# No parser goes back

Parsers that try and fail give back what they have taken, and no more than that.

* `Parser.ActionsLead` — all actions in a parser keep to their input and to boundaries and, unless
  going back is allowed, do not go back.  Of the actions of this library, only that of `back` does.
* `Parser.ActionsLead.step` — then so does the parser.
* `Parser.ends_onward` — a parser whose actions do not go back does not either, whether it succeeds
  or fails, and goes on from there if its failure is recovered.
-/

namespace TextGrammar.Parser

variable {ν : Type} {back : Bool} {p : Parser ν}

/-- All actions that the parser contains lead to states that may come behind. -/
def ActionsLead (back : Bool) (p : Parser ν) : Prop :=
  p.EveryAction fun act => (Step.ofState act).Leads back

/-- **A parser leads where its actions may lead**, whatever handles stand for that keeps to this
itself. -/
theorem ActionsLead.step (hp : p.ActionsLead back) (b : Nat) {scope : Scope ν}
    (hscope : ∀ h, (scope h).Leads back) : Step.Leads back (p.step b scope) := by
  induction p generalizing scope with
  | literal text => exact Step.leads_literal text
  | pattern p => exact Step.leads_pattern p
  | endOfInput => exact Step.leads_endOfInput
  | sequence ps ih =>
    exact Step.leads_sequence (forall_mem_steps fun p h => ih p h (hp.part (.sequence h)) hscope)
  | and left right ihl ihr =>
    exact Step.leads_and (ihl (hp.part (.andLeft left right)) hscope)
      (ihr (hp.part (.andRight left right)) hscope)
  | or left right ihl ihr =>
    exact Step.leads_or _ _ (ihl (hp.part (.orLeft left right)) hscope)
      (ihr (hp.part (.orRight left right)) hscope)
  | choice ps ih =>
    exact Step.leads_choice (forall_mem_steps fun p h => ih p h (hp.part (.choice h)) hscope)
  | optional p ih => exact Step.leads_optional (ih (hp.part (.optional p)) hscope)
  | collectedAs d p ih => exact Step.leads_collectedAs d (ih (hp.part (.collectedAs d p)) hscope)
  | many least p ih => exact Step.leads_many b least _ (ih (hp.part (.many least p)) hscope)
  | separated least value separator ihv ihs =>
    exact Step.leads_separated b least _ _ (ihv (hp.part (.value least value separator)) hscope)
      (ihs (hp.part (.separator least value separator)) hscope)
  | all p ih => exact Step.leads_all b _ (ih (hp.part (.all p)) hscope)
  | map f p ih => exact Step.leads_map f (ih (hp.part (.map f p)) hscope)
  | mapWithLine f p ih => exact Step.leads_mapWithLine f (ih (hp.part (.mapWithLine f p)) hscope)
  | recover f p ih => exact Step.leads_recover f (ih (hp.part (.recover f p)) hscope)
  | chain next p ihn ih =>
    exact Step.leads_chain (fun v => ihn v (hp.part (.chosen next p v)) hscope)
      (ih (hp.part (.chain next p)) hscope)
  | named label p ih => exact ih (hp.part (.named label p)) hscope
  | recursive h body ih =>
    exact Step.leads_fix (fun self hself =>
      ih (hp.part (.recursive h body)) (Scope.forall_bind hscope h hself)) b
  | handle h => exact hscope h
  | custom shown act => exact hp shown act (.refl _)

theorem ActionsLead.ends (hp : p.ActionsLead back) {scope : Scope ν}
    (hscope : ∀ h, (scope h).Leads back) {s t : State ν} (hs : s.failed = false)
    (hb : s.OnBoundary) (hends : p.Ends scope s t) : s.LeadsTo back t := by
  obtain ⟨b, hrun⟩ := hends
  rw [p.runFrom_of_live b scope hs] at hrun
  exact hp.step b hscope s t hs hb hrun

/-! ## Actions -/

theorem actionsLead_take (count : Nat) : (take count : Parser ν).ActionsLead back := by
  refine everyAction_custom_iff.2 fun s t _ hb hrun => ?_
  cases hrun
  exact hb.leadsTo_advance count _

theorem actionsLead_lineNumber : (lineNumber : Parser ν).ActionsLead back := by
  refine everyAction_custom_iff.2 fun s t _ hb hrun => ?_
  cases hrun
  exact hb.leadsTo_self.succeed _

theorem actionsLead_seen : (seen : Parser ν).ActionsLead back := by
  refine everyAction_custom_iff.2 fun s t _ hb hrun => ?_
  cases hrun
  exact hb.leadsTo_self.succeed _

theorem actionsLead_succeed (v : Value ν) : (succeed v).ActionsLead back := by
  refine everyAction_custom_iff.2 fun s t _ hb hrun => ?_
  cases hrun
  exact hb.leadsTo_self.succeed _

theorem actionsLead_fail (failure : Failure) : (fail failure : Parser ν).ActionsLead back := by
  refine everyAction_custom_iff.2 fun s t _ hb hrun => ?_
  cases hrun
  exact hb.leadsTo_self.fail _

/-- To go back is no progress. -/
theorem not_actionsLead_back : ¬ (Parser.back 1 : Parser ν).ActionsLead false := by
  intro h
  have hlead := everyAction_custom_iff.1 h ((State.start (.ofChars ['a'])).advance 1 .absent) _ rfl
    (State.onBoundary_advance _ _ _) rfl
  have honward : 1 ≤ 0 := hlead.onward rfl
  omega

/-! ## Progress -/

/-- **No parser goes back.**  A parser whose actions do not go back ends over the same input, and
not before the place where it began, whether it succeeds or fails.  If its failure is recovered, the
success lies where the failure did. -/
theorem ends_onward (hp : p.ActionsLead false) {scope : Scope ν}
    (hscope : ∀ h, (scope h).Leads false) {s t : State ν} (hs : s.failed = false)
    (hb : s.OnBoundary) (hends : p.Ends scope s t) :
    t.input = s.input ∧ s.cursor ≤ t.cursor ∧
      ∀ f : ParseError → Value ν, t.failed = true →
        ∃ u, (recover f p).Ends scope s u ∧ u.failed = false ∧ u.input = s.input ∧
          u.cursor = t.cursor := by
  have hlead := hp.ends hscope hs hb hends
  refine ⟨hlead.input, hlead.onward rfl, fun f hf => ?_⟩
  obtain ⟨b, hrun⟩ := hends
  rw [p.runFrom_of_live b scope hs] at hrun
  obtain ⟨u, hu, hsucceeded, hplace⟩ := Step.exists_recover_of_failed f hrun hf hlead.onBoundary
  refine ⟨u, ⟨b, ?_⟩, hsucceeded, hplace.input.symm.trans hlead.input, hplace.cursor.symm⟩
  rw [(recover f p).runFrom_of_live b scope hs]
  exact hu

/-- Pairs behind a sign of two bytes, cut off where another sign should be: the failure lies there,
and so does the success that its recovery makes of it. -/
theorem ends_onward_of_missing :
    ∃ t u : State Nat,
      (and (many 0 (and (literal "a") (take 1))) (literal "!")).Ends Scope.none
          ((State.start (.ofString "éabacd")).advance 2 .absent) t ∧
        t.failed = true ∧ t.cursor = 6 ∧ t.input = .ofString "éabacd" ∧ 2 ≤ t.cursor ∧
        (recover (fun e => .token e.message)
          (and (many 0 (and (literal "a") (take 1))) (literal "!"))).Ends Scope.none
            ((State.start (.ofString "éabacd")).advance 2 .absent) u ∧
        u.failed = false ∧ u.cursor = 6 := by
  have hround : (and (literal "a") (take 1) : Parser Nat).ActionsLead false :=
    everyAction_and_iff.2 ⟨everyAction_literal "a", actionsLead_take 1⟩
  have hactions : (and (many 0 (and (literal "a") (take 1))) (literal "!") : Parser Nat).ActionsLead
      false :=
    everyAction_and_iff.2 ⟨everyAction_many_iff.2 hround, everyAction_literal "!"⟩
  obtain ⟨t, hends, hf, hcursor⟩ : ∃ t : State Nat,
      (and (many 0 (and (literal "a") (take 1))) (literal "!")).Ends Scope.none
          ((State.start (.ofString "éabacd")).advance 2 .absent) t ∧
        t.failed = true ∧ t.cursor = 6 :=
    ⟨((and (many 0 (and (literal "a") (take 1))) (literal "!")).runFrom 4 Scope.none
        ((State.start (.ofString "éabacd")).advance 2 .absent)).get (by decide +kernel),
      ⟨4, (Option.some_get _).symm⟩, by decide +kernel, by decide +kernel⟩
  have hstart : ((State.start (.ofString "éabacd")).advance 2 .absent : State Nat).cursor = 2 := by
    decide +kernel
  obtain ⟨hinput, honward, hrecover⟩ :=
    ends_onward hactions Scope.leads_none rfl (State.onBoundary_advance _ _ _) hends
  rw [hstart] at honward
  obtain ⟨u, hu, hsucceeded, _, hplace⟩ := hrecover (fun e => .token e.message) hf
  exact ⟨t, u, hends, hf, hcursor, hinput, honward, hu, hsucceeded, hplace.trans hcursor⟩

end TextGrammar.Parser
