import TextGrammar.Proofs.Errors.Step
import TextGrammar.Proofs.Parser.Endings
import TextGrammar.Proofs.Progress

/-!
# Where failures are made and where they are passed on

Only some parsers make failures.  The others end with a failure that one of their parts has made, at the
place where it was made.  So what holds of all failures of a grammar is a matter of those that make
them.

* `Parser.makesFailures` — the parsers all of whose failures are made by themselves.
* `Parser.InPlace` — a part of a grammar with a scope for its handles, of which something is known.
* `Parser.InPlace.tells` — what is true of all failures where they are made, and of the ends of
  stalled repetitions, is true of every failure of a part.  The induction is on the part, with a second
  one on the depth of the recursion.
-/

namespace TextGrammar.Parser

variable {ν : Type} {T : Input → Nat → Failure → Prop} {root p q : Parser ν}
  {around : Surroundings ν} {b : Nat} {scope : Scope ν} {s t : State ν}

/-- Every failure of the parser is one that it makes.  A repetition up to the end of the input makes
failures as well, but also ends with those of a round. -/
def makesFailures : Parser ν → Bool
  | literal _ | pattern _ | endOfInput | or _ _ | choice _ | many _ _ | separated _ _ _ => true
  | _ => false

/-- The part stands in the grammar amid recursive parsers, and the handles stand for these, down to
some depth.  Failures of those that are free in the part meet the condition. -/
structure InPlace (T : Input → Nat → Failure → Prop) (root : Parser ν) (around : Surroundings ν)
    (b : Nat) (scope : Scope ν) (p : Parser ν) : Prop where
  actionless : root.EveryAction fun _ => False
  occurs : root.Occurs around p
  le : ∀ h, (scope h).Le (around.scope b h)
  leads : ∀ h, (scope h).Leads false
  tells_free : ∀ h, p.Free h → (scope h).Tells T

namespace InPlace

theorem part (hp : InPlace T root around b scope p) (h : Part p q)
    (hbind : ∀ h body, p ≠ recursive h body) : InPlace T root around b scope q where
  actionless := hp.actionless
  occurs := hp.occurs.part h fun h => hbind h q
  le := hp.le
  leads := hp.leads
  tells_free h' hfree := hp.tells_free h' (hfree.part h fun body => hbind h' body)

/-- The body of a recursion stands amid one recursive parser more, which is unfolded less deeply. -/
theorem body {h : Handle} {body : Parser ν}
    (hp : InPlace T root around b scope (recursive h body)) {self : Step ν}
    (hle : self.Le ((recursive h body).step b (around.scope b))) (hlead : self.Leads false)
    (htells : self.Tells T) : InPlace T root ((h, body) :: around) b (scope.bind h self) body where
  actionless := hp.actionless
  occurs := hp.occurs.body
  le := Scope.le_bind hp.le h hle
  leads := Scope.forall_bind hp.leads h hlead
  tells_free other hfree := by
    by_cases heq : other = h
    · rw [heq, Scope.bind_self]
      exact htells
    · rw [Scope.bind_of_ne _ _ heq]
      refine hp.tells_free other (hfree.part (.recursive h body) fun body' hbody => heq ?_)
      cases hbody
      rfl

theorem actionsLead (hp : InPlace T root around b scope p) : p.ActionsLead false :=
  fun shown act hc => (hp.actionless shown act (hp.occurs.contains.trans hc)).elim

theorem leads_step (hp : InPlace T root around b scope p) : Step.Leads false (p.step b scope) :=
  hp.actionsLead.step b hp.leads

/-- What the part does in the run, it does amid the recursive parsers themselves. -/
theorem endsAmid (hp : InPlace T root around b scope p) (hs : s.failed = false)
    (hrun : p.step b scope s = some t) : p.EndsAmid around s t :=
  (endsAmid_iff_step hs).2 ⟨b, p.step_le (Nat.le_refl b) hp.le s t hrun⟩

/-- **Every failure of a part of a grammar is passed on from where it was made.** -/
theorem tells
    (hmade : ∀ {around scope p}, InPlace T root around b scope p → p.makesFailures = true →
      Step.Tells T (p.step b scope))
    (hstalled : ∀ {around : Surroundings ν} {p}, root.Occurs around (all p) → ∀ s : State ν,
      s.cursor < s.input.size → T s.input s.cursor (.stalled p.label s.rest))
    (hp : InPlace T root around b scope p) : Step.Tells T (p.step b scope) := by
  induction p generalizing around scope with
  | literal | pattern | endOfInput | or | choice | many | separated => exact hmade hp rfl
  | sequence ps ih =>
    have hps : ∀ p ∈ ps, InPlace T root around b scope p := fun p h => hp.part (.sequence h) nofun
    exact Step.tells_sequence (forall_mem_steps fun p h => (hps p h).leads_step)
      (forall_mem_steps fun p h => ih p h (hps p h))
  | and left right ihl ihr =>
    have hl : InPlace T root around b scope left := hp.part (.andLeft left right) nofun
    exact Step.tells_and hl.leads_step (ihl hl) (ihr (hp.part (.andRight left right) nofun))
  | optional p ih => exact Step.tells_optional
  | collectedAs d p ih => exact Step.tells_collectedAs d (ih (hp.part (.collectedAs d p) nofun))
  | all p ih =>
    have hp' : InPlace T root around b scope p := hp.part (.all p) nofun
    exact Step.tells_all hp'.leads_step (ih hp') (hstalled hp.occurs)
  | map f p ih => exact Step.tells_map f (ih (hp.part (.map f p) nofun))
  | mapWithLine f p ih => exact Step.tells_mapWithLine f (ih (hp.part (.mapWithLine f p) nofun))
  | recover f p ih => exact Step.tells_recover f
  | chain next p ihn ih =>
    have hp' : InPlace T root around b scope p := hp.part (.chain next p) nofun
    exact Step.tells_chain hp'.leads_step (ih hp') fun v =>
      ihn v (hp.part (.chosen next p v) nofun)
  | named label p ih => exact ih (hp.part (.named label p) nofun)
  | recursive h body ih =>
    -- the recursion to every depth up to the budget, which is the depth that stands for the handle
    suffices hdepth : ∀ k ≤ b,
        Step.Tells T (Step.fix (fun self => body.step b (scope.bind h self)) k) from
      hdepth b (Nat.le_refl b)
    have hbody : body.ActionsLead false := hp.actionsLead.part (.recursive h body)
    intro k
    induction k with
    | zero =>
      intro _ s t f _ _ hrun
      cases hrun
    | succ k ihk =>
      intro hk
      have hle := Step.fix_le (b := k)
        (fun p q hpq => body.step_le (Nat.le_refl b) (Scope.le_bind hp.le h hpq))
        (Nat.le_of_succ_le hk)
      have hlead := Step.leads_fix
        (fun self hself => hbody.step b (Scope.forall_bind hp.leads h hself)) k
      exact ih (hp.body hle hlead (ihk (Nat.le_of_succ_le hk)))
  | handle h => exact hp.tells_free h .handle
  | custom shown act => exact (hp.actionless shown act hp.occurs.contains).elim

end InPlace

end TextGrammar.Parser
