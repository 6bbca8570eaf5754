import TextGrammar.Proofs.Errors.Passed
import TextGrammar.Proofs.Independence
import TextGrammar.Proofs.Parser.Closed

/-!
# Errors are true

What an error says of the input at its position is so, however far the failure has come from the
parser that made it.

* `Parser.ValuesAt` — how many values match between separators from an offset on.
* `Failure.TrueAt` — what a failure says: which parser of the grammar does not match there.
* `Parser.Ordinary` — parsers that are put together from the library alone.
* `Parser.Stands` — a part of the grammar in its place, with a scope for its handles.
* `Parser.Stands.tells` — every failure of such a part is true, since those are that the parsers make.
  That a branch fails wherever it is run again rests on the fact that parsers do not look back.
* `Parser.error_true` — so every error of a grammar is true.
-/

namespace TextGrammar

variable {ν : Type}

/-! ## What failures say -/

/-- From the offset on, so many values match with separators between them: up to the first value or
separator that fails, or to a pair that takes no text. -/
inductive Parser.ValuesAt (around : Surroundings ν) (value separator : Parser ν) (input : Input) :
    Nat → Nat → Prop where
  | none {q : Nat} (hvalue : value.FailsAt around input q) :
      ValuesAt around value separator input q 0
  | last {q r : Nat} (hvalue : value.PassesTo around input q r)
      (hseparator : separator.FailsAt around input r) :
      ValuesAt around value separator input q 1
  | still {q r : Nat} (hvalue : value.PassesTo around input q r)
      (hseparator : separator.PassesTo around input r q) :
      ValuesAt around value separator input q 1
  | more {q r r' m : Nat} (hvalue : value.PassesTo around input q r)
      (hseparator : separator.PassesTo around input r r') (hne : r' ≠ q)
      (hrest : ValuesAt around value separator input r' m) :
      ValuesAt around value separator input q (m + 1)

/-- What the failure says of a grammar and of the input at an offset. -/
def Failure.TrueAt (root : Parser ν) (input : Input) (q : Nat) (f : Failure) : Prop :=
  match f.kind with
  | .literalMismatch =>
    ∃ text, root.Contains (.literal text) ∧ ¬ text.toList <+: input.drop q ∧
      f.message = (Failure.literal text (input.drop q)).message
  | .patternMismatch =>
    ∃ pattern : Pattern, root.Contains (.pattern pattern) ∧ pattern.find (input.drop q) = none ∧
      f.message = (Failure.pattern pattern.source (input.drop q)).message
  | .alternativesExhausted =>
    (∃ around left right, root.Occurs around (.or left right) ∧ left.FailsAt around input q ∧
      right.FailsAt around input q) ∨
    (∃ around ps, root.Occurs around (.choice ps) ∧ ∀ p ∈ ps, p.FailsAt around input q)
  | .repetitionUnsatisfied =>
    (∃ around p, root.Occurs around (.oneOrMore p) ∧ p.FailsAt around input q) ∨
    (∃ around least value separator m, root.Occurs around (.separated least value separator) ∧
      Parser.ValuesAt around value separator input q m ∧ m < least)
  | .incompleteConsumption => q < input.size
  | .danglingRecursion => False

namespace Parser

variable {root p q value separator : Parser ν} {around : Surroundings ν} {b : Nat} {scope : Scope ν}

/-! ## Parsers of the library alone -/

/-- The parser is put together from primitives and combinations of the library: it contains no
actions, and no repetition but `zeroOrMore` and `oneOrMore`. -/
structure Ordinary (p : Parser ν) : Prop where
  actionless : p.EveryAction fun _ => False
  least_le : ∀ least q, p.Contains (many least q) → least ≤ 1

namespace Ordinary

theorem contained (hp : p.Ordinary) (hq : p.Contains q) : q.Ordinary where
  actionless shown act hc := hp.actionless shown act (hq.trans hc)
  least_le least r hc := hp.least_le least r (hq.trans hc)

theorem of_part (hcustom : ∀ shown act, p ≠ custom shown act)
    (hmany : ∀ least q, p = many least q → least ≤ 1) (h : ∀ q, Part p q → q.Ordinary) :
    p.Ordinary where
  actionless := everyAction_of_part hcustom fun q hq => (h q hq).actionless
  least_le least r hc := by
    rcases contains_iff.1 hc with hr | ⟨q, hq, hr⟩
    · exact hmany least r hr.symm
    · exact (h q hq).least_le least r hr

theorem part (hp : p.Ordinary) (h : Part p q) : q.Ordinary := hp.contained (h.contains (.refl q))

theorem iff_of_part (hcustom : ∀ shown act, p ≠ custom shown act)
    (hmany : ∀ least q, p = many least q → least ≤ 1) :
    p.Ordinary ↔ ∀ q, Part p q → q.Ordinary :=
  ⟨fun h _ hq => h.part hq, of_part hcustom hmany⟩

theorem actionsLead (hp : p.Ordinary) : p.ActionsLead false :=
  fun shown act hc => (hp.actionless shown act hc).elim

theorem actsIndependently (hp : p.Ordinary) : p.ActsIndependently :=
  fun shown act hc => (hp.actionless shown act hc).elim

end Ordinary

@[simp] theorem ordinary_literal (text : String) : (literal text : Parser ν).Ordinary := by
  simp [Ordinary.iff_of_part]

@[simp] theorem ordinary_pattern (pattern : Pattern) : (.pattern pattern : Parser ν).Ordinary := by
  simp [Ordinary.iff_of_part]

@[simp] theorem ordinary_handle (h : Handle) : (handle h : Parser ν).Ordinary := by
  simp [Ordinary.iff_of_part]

@[simp] theorem ordinary_and_iff : (and p q).Ordinary ↔ p.Ordinary ∧ q.Ordinary := by
  simp [Ordinary.iff_of_part]

@[simp] theorem ordinary_or_iff : (or p q).Ordinary ↔ p.Ordinary ∧ q.Ordinary := by
  simp [Ordinary.iff_of_part]

@[simp] theorem ordinary_oneOrMore_iff : (oneOrMore p).Ordinary ↔ p.Ordinary := by
  rw [oneOrMore, Ordinary.iff_of_part (by simp) fun _ _ h => by cases h; exact Nat.le_refl 1]
  simp

@[simp] theorem ordinary_separated_iff {least : Nat} :
    (separated least p q).Ordinary ↔ p.Ordinary ∧ q.Ordinary := by
  simp [Ordinary.iff_of_part]

@[simp] theorem ordinary_recursive_iff {h : Handle} : (recursive h p).Ordinary ↔ p.Ordinary := by
  simp [Ordinary.iff_of_part]


/-! ## Parts in their place -/

/-- The part stands in the grammar amid recursive parsers, and the handles stand for these, down to
some depth.  Those that are free in the part tell the truth. -/
structure Stands (root : Parser ν) (around : Surroundings ν) (b : Nat) (scope : Scope ν)
    (p : Parser ν) : Prop where
  ordinary : root.Ordinary
  occurs : root.Occurs around p
  le : ∀ h, (scope h).Le (around.scope b h)
  leads : ∀ h, (scope h).Leads false
  tells_free : ∀ h, p.Free h → (scope h).Tells (Failure.TrueAt root)

namespace Stands

theorem part (hp : Stands root around b scope p) (h : Part p q)
    (hbind : ∀ h body, p ≠ recursive h body) : Stands root around b scope q where
  ordinary := hp.ordinary
  occurs := hp.occurs.part h fun h => hbind h q
  le := hp.le
  leads := hp.leads
  tells_free h' hfree := hp.tells_free h' (hfree.part h fun body => hbind h' body)

/-- A part stands in the grammar where it is in place and free handles tell the truth. -/
theorem of_inPlace (hroot : root.Ordinary)
    (hp : InPlace (Failure.TrueAt root) root around b scope p) : Stands root around b scope p where
  ordinary := hroot
  occurs := hp.occurs
  le := hp.le
  leads := hp.leads
  tells_free := hp.tells_free

theorem inPlace (hp : Stands root around b scope p) :
    InPlace (Failure.TrueAt root) root around b scope p where
  actionless := hp.ordinary.actionless
  occurs := hp.occurs
  le := hp.le
  leads := hp.leads
  tells_free := hp.tells_free

theorem leads_step (hp : Stands root around b scope p) : Step.Leads false (p.step b scope) :=
  hp.inPlace.leads_step

/-- What the part does in the run, it does wherever it is run at the same place. -/
theorem exists_sameOutcome (hp : Stands root around b scope p) {s s' t : State ν}
    (hs : s.failed = false) (hs' : s'.failed = false) (hplace : s.SamePlace s')
    (hrun : p.step b scope s = some t) : ∃ t', p.EndsAmid around s' t' ∧ t.SameOutcome t' := by
  have hp' := (hp.ordinary.contained hp.occurs.contains).actsIndependently
  have haround : ∀ r ∈ around, r.2.ActsIndependently := by
    intro r hr
    have hr' := hp.ordinary.contained (hp.occurs.contains_around r hr)
    exact EveryAction.part hr'.actsIndependently (.recursive r.1 r.2)
  exact hp'.exists_sameOutcome haround hs hs' hplace (hp.inPlace.endsAmid hs hrun)

theorem failsAt (hp : Stands root around b scope p) {s : State ν}
    (h : Step.FailsAtPlaceOf (p.step b scope) s) : p.FailsAt around s.input s.cursor := by
  obtain ⟨s₀, t, hs₀, hplace, hrun, hf⟩ := h
  intro s' hs' hinput hcursor
  have hplace' : s₀.SamePlace s' :=
    ⟨hplace.input.symm.trans hinput.symm, hplace.cursor.symm.trans hcursor.symm⟩
  obtain ⟨t', hends, hout⟩ := hp.exists_sameOutcome hs₀ hs' hplace' hrun
  exact ⟨t', hends, by rw [State.failed, ← hout.failure]; exact hf⟩

theorem passesTo (hp : Stands root around b scope p) {s t : State ν} (hs : s.failed = false)
    (hrun : p.step b scope s = some t) (hf : t.failed = false) :
    p.PassesTo around s.input s.cursor t.cursor := by
  intro s' hs' hinput hcursor
  obtain ⟨t', hends, hout⟩ := hp.exists_sameOutcome hs hs' ⟨hinput.symm, hcursor.symm⟩ hrun
  exact ⟨t', hends, by rw [State.failed, ← hout.failure]; exact hf, hout.cursor.symm⟩

/-- A repetition gathers the values that match, besides those that it has already. -/
theorem exists_valuesAt (hv : Stands root around b scope value)
    (hsep : Stands root around b scope separator) {k : Nat} {s : State ν} {g g' : Harvest ν}
    (hg : g.LedFrom false s)
    (hrun : Step.separatedFrom (value.step b scope) (separator.step b scope) k g = some g') :
    ∃ m, ValuesAt around value separator s.input g.state.cursor m ∧ g'.count = g.count + m := by
  induction k generalizing g with
  | zero => cases hrun
  | succ k ih =>
    have hinput := hg.led.input
    obtain ⟨t, ht, hrun⟩ := Option.bind_eq_some_iff.1 hrun
    split at hrun
    · rename_i hf
      cases hrun
      have hfail := hv.failsAt ⟨g.state, t, hg.live, ⟨rfl, rfl⟩, ht, hf⟩
      rw [hinput] at hfail
      exact ⟨0, .none hfail, rfl⟩
    · rename_i hf
      rw [Bool.not_eq_true] at hf
      have hadded := hg.add hv.leads_step ht hf
      have hpass := hv.passesTo hg.live ht hf
      rw [hinput] at hpass
      have hinput' : (g.add t).state.input = s.input := hadded.led.input
      have hcursor : (g.add t).state.cursor = t.cursor := t.cursor_collected
      obtain ⟨u, hu, hrun⟩ := Option.bind_eq_some_iff.1 hrun
      split at hrun
      · rename_i hf'
        cases hrun
        have hfail := hsep.failsAt ⟨(g.add t).state, u, hadded.live, ⟨rfl, rfl⟩, hu, hf'⟩
        rw [hinput', hcursor] at hfail
        exact ⟨1, .last hpass hfail, rfl⟩
      · rename_i hf'
        rw [Bool.not_eq_true] at hf'
        have hpass' := hsep.passesTo hadded.live hu hf'
        rw [hinput', hcursor] at hpass'
        split at hrun
        · rename_i hstill
          cases hrun
          rw [hstill] at hpass'
          exact ⟨1, .still hpass hpass', rfl⟩
        · rename_i hne
          have hnext : ((g.add t).stop u).LedFrom false s :=
            ⟨hf', hadded.led.trans (hadded.leadsTo hsep.leads_step hu)⟩
          obtain ⟨m, hvalues, hcount⟩ := ih hnext hrun
          refine ⟨m + 1, .more hpass hpass' hne hvalues, ?_⟩
          rw [hcount]
          show g.count + 1 + m = g.count + (m + 1)
          omega

/-- **Every failure of a part of a grammar is true** of the grammar. -/
theorem tells (hp : Stands root around b scope p) :
    Step.Tells (Failure.TrueAt root) (p.step b scope) := by
  refine hp.inPlace.tells (fun {around scope p} hplace hmakes => ?_) fun _ s hlt => hlt
  have hp := of_inPlace hp.ordinary hplace
  cases p with
  | literal text =>
    exact Step.tells_literal fun s hprefix => ⟨text, hp.occurs.contains, hprefix, rfl⟩
  | pattern pattern =>
    exact Step.tells_pattern fun s hfind => ⟨pattern, hp.occurs.contains, hfind, rfl⟩
  | endOfInput => exact Step.tells_endOfInput fun s hlt => hlt
  | or left right =>
    have hl : Stands root around b scope left := hp.part (.orLeft left right) nofun
    have hr : Stands root around b scope right := hp.part (.orRight left right) nofun
    exact Step.tells_or hl.leads_step hr.leads_step fun s hfail hfail' =>
      .inl ⟨around, left, right, hp.occurs, hl.failsAt hfail, hr.failsAt hfail'⟩
  | choice ps =>
    have hps : ∀ p ∈ ps, Stands root around b scope p := fun p h => hp.part (.choice h) nofun
    refine Step.tells_choice (forall_mem_steps fun p h => (hps p h).leads_step) fun s hfail => ?_
    refine .inr ⟨around, ps, hp.occurs, fun p h => (hps p h).failsAt (hfail _ ?_)⟩
    rw [steps_eq_map]
    exact List.mem_map_of_mem h
  | many least p =>
    have hp' : Stands root around b scope p := hp.part (.many least p) nofun
    have hleast : least ≤ 1 := hp.ordinary.least_le least p hp.occurs.contains
    refine Step.tells_many hleast hp'.leads_step fun s rest hone hfail => ?_
    subst hone
    exact .inl ⟨around, p, hp.occurs, hp'.failsAt hfail⟩
  | separated least value separator =>
    have hv : Stands root around b scope value := hp.part (.value least value separator) nofun
    have hsep : Stands root around b scope separator :=
      hp.part (.separator least value separator) nofun
    refine Step.tells_separated hv.leads_step hsep.leads_step fun s g rest hs hb hg hcount => ?_
    obtain ⟨m, hvalues, hm⟩ := hv.exists_valuesAt hsep (.start hs hb) hg
    refine .inr ⟨around, least, value, separator, m, hp.occurs, hvalues, ?_⟩
    have hstart : (Harvest.start s).count = 0 := rfl
    omega
  | _ => cases hmakes

end Stands

/-! ## Errors -/

theorem Closed.stands (hclosed : p.Closed) (hp : p.Ordinary) (b : Nat) :
    Stands p [] b Scope.none p where
  ordinary := hp
  occurs := .root
  le _ := Step.Le.refl _
  leads := Scope.leads_none
  tells_free h hfree := absurd hfree (hclosed h)

/-- **Every error is true.**  If a grammar of the library's parsers fails, the error lies not before
the place where the run began and not behind the end of the input, and what it says is true of the
grammar and of the input there. -/
theorem error_true (hp : p.Ordinary) (hclosed : p.Closed) {s t : State ν} (hs : s.failed = false)
    (hb : s.OnBoundary) (hends : p.Ends Scope.none s t) {e : ParseError} (he : t.error? = some e) :
    s.cursor ≤ e.position ∧ e.position ≤ s.input.size ∧
      Failure.TrueAt p s.input e.position ⟨e.kind, e.message⟩ := by
  obtain ⟨b, hrun⟩ := hends
  rw [p.runFrom_of_live b Scope.none hs] at hrun
  have hstands := hclosed.stands hp b
  have hlead := hstands.leads_step s t hs hb hrun
  obtain ⟨f, hf, rfl⟩ := Option.map_eq_some_iff.1 he
  have hend := hlead.onBoundary.cursor_le
  have htrue := hstands.tells s t f hs hb hrun hf
  rw [hlead.input] at hend
  rw [hlead.input] at htrue
  exact ⟨hlead.onward rfl, hend, htrue⟩

/-- Brackets that are never closed, with something in each: what is missing in the inner one is
reported for the outer one, from where nothing matches. -/
theorem error_true_of_missing :
    ∃ (t : State Nat) (e : ParseError),
      (recursive 0 (and (literal "[") (oneOrMore (or (handle 0) (literal "x"))))).Ends Scope.none
          ((State.start (.ofString "é[[y")).advance 2 .absent) t ∧
        t.error? = some e ∧ e.kind = .repetitionUnsatisfied ∧ e.position = 3 ∧
        Failure.TrueAt
          (recursive 0 (and (literal "[") (oneOrMore (or (handle 0) (literal "x")))) : Parser Nat)
          (.ofString "é[[y") 3 ⟨.repetitionUnsatisfied, e.message⟩ := by
  have hordinary : (recursive 0 (and (literal "[") (oneOrMore (or (handle 0) (literal "x")))) :
      Parser Nat).Ordinary := by simp
  have hclosed : (recursive 0 (and (literal "[") (oneOrMore (or (handle 0) (literal "x")))) :
      Parser Nat).Closed := by simp [Closed, oneOrMore]
  obtain ⟨t, hends, herror⟩ : ∃ t : State Nat,
      (recursive 0 (and (literal "[") (oneOrMore (or (handle 0) (literal "x"))))).Ends Scope.none
          ((State.start (.ofString "é[[y")).advance 2 .absent) t ∧
        t.error?.map (fun e => (e.kind, e.position)) = some (.repetitionUnsatisfied, 3) :=
    ⟨((recursive 0 (and (literal "[") (oneOrMore (or (handle 0) (literal "x"))))).runFrom 4
        Scope.none ((State.start (.ofString "é[[y")).advance 2 .absent)).get (by decide +kernel),
      ⟨4, (Option.some_get _).symm⟩, by decide +kernel⟩
  obtain ⟨e, he, heq⟩ := Option.map_eq_some_iff.1 herror
  obtain ⟨hkind, hposition⟩ := Prod.mk.inj heq
  obtain ⟨_, _, htrue⟩ :=
    error_true hordinary hclosed rfl (State.onBoundary_advance _ _ _) hends he
  rw [hkind, hposition] at htrue
  exact ⟨t, e, hends, he, hkind, hposition, htrue⟩

end Parser

end TextGrammar
