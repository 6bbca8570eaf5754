import TextGrammar.Proofs.Errors
import TextGrammar.Proofs.Errors.Passed
import TextGrammar.Proofs.Laws.Separated
import TextGrammar.Proofs.Regex.Run

/-!
# What errors say was found

Most messages say what was found, by a preview of the text at some offset.  This is the text at the
position of the error, but for values with separators of which two or more are asked for: if the first
value has matched, the preview is of the text where the values stopped, and the position is where they
began.

* `Failure.Silent` — the failures whose messages do not say what was found.
* `Failure.Found` — what the others say, and where the text lies that they show.
* `Parser.InPlace.tells_found` — every failure of a part of a grammar is one of these.
* `Parser.error_found` — so an error shows the text at its position, or else comes from such a
  repetition.
* `Parser.error_found_elsewhere` — a grammar for which that text lies farther on.
-/

namespace TextGrammar

variable {ν : Type}

/-- What comes behind the rounds is the text from the offset on where they stop. -/
theorem Harvest.Gains.rest_eq {g g' : Harvest ν} {ts : List (State ν)} {q : Nat}
    (h : g.Gains ts q g') : g'.state.rest = g.state.input.drop q := by
  rw [State.rest, h.input, h.cursor]

namespace Failure

/-- The message does not say what was found. -/
def Silent (f : Failure) : Prop :=
  f = .noAlternative ∨ f = .dangling ∨ ∃ left right, f = .neither left right

/-- The failure at the offset `q` has been made by a parser of the grammar, and shows the text from the
offset on that comes next: `q` itself, or for values with separators where the chain of turns from `q`
on has stopped. -/
inductive Found (root : Parser ν) (input : Input) (q : Nat) : Nat → Failure → Prop where
  | literal {text : String} (h : root.Contains (.literal text)) :
      Found root input q q (.literal text (input.drop q))
  | pattern {pattern : Pattern} (h : root.Contains (.pattern pattern)) :
      Found root input q q (.pattern pattern.source (input.drop q))
  | trailing (h : root.Contains .endOfInput) : Found root input q q (.trailing (input.drop q))
  | tooFew {p : Parser ν} (h : root.Contains (.oneOrMore p)) :
      Found root input q q (.tooFew 1 p.label (input.drop q))
  | stalled {p : Parser ν} (h : root.Contains (.all p)) :
      Found root input q q (.stalled p.label (input.drop q))
  | tooFewSeparated {around : Surroundings ν} {least : Nat} {value separator : Parser ν}
      {ts : List (State ν)} {r : Nat} (h : root.Occurs around (.separated least value separator))
      (hchain : Parser.Alternation around value separator input q ts r) (hfew : ts.length < least) :
      Found root input q r (.tooFewSeparated least value.label separator.label (input.drop r))

/-- The failure at an offset of the input does not say what was found, or says it of some text. -/
def Told (root : Parser ν) (input : Input) (q : Nat) (f : Failure) : Prop :=
  f.Silent ∨ ∃ r, f.Found root input q r

/-- **The text that is shown lies at the offset of the failure**, or else two or more values were asked
for and one at least has matched. -/
theorem Found.eq_or {root : Parser ν} {input : Input} {q r : Nat} {f : Failure}
    (h : f.Found root input q r) :
    r = q ∨ ∃ around least value separator ts,
      root.Occurs around (.separated least value separator) ∧
      Parser.Alternation around value separator input q ts r ∧ 1 ≤ ts.length ∧ ts.length < least ∧
      f = .tooFewSeparated least value.label separator.label (input.drop r) := by
  cases h with
  | literal | pattern | trailing | tooFew | stalled => exact .inl rfl
  | @tooFewSeparated around least value separator ts r hocc hchain hfew =>
    cases ts with
    | nil =>
      cases hchain
      exact .inl rfl
    | cons t ts =>
      exact .inr ⟨around, least, value, separator, t :: ts, hocc, hchain, Nat.le_add_left 1 _, hfew,
        rfl⟩

end Failure

namespace Parser

variable {root p value separator : Parser ν} {around : Surroundings ν} {b : Nat} {scope : Scope ν}
  {s t : State ν}

namespace Occurs

theorem independent (hroot : root.EveryAction fun _ => False) (hp : root.Occurs around p) :
    p.Independent around := by
  refine independent_of_actions (fun shown act hc => (hroot shown act (hp.contains.trans hc)).elim)
    (fun shown act hc => (hroot shown act (hp.contains.trans hc)).elim) fun r hr => ?_
  have hbody := (hp.contains_around r hr).tail (.recursive r.1 r.2)
  exact ⟨fun shown act hc => (hroot shown act (hbody.trans hc)).elim,
    fun shown act hc => (hroot shown act (hbody.trans hc)).elim⟩

theorem onward (hroot : root.EveryAction fun _ => False) (hp : root.Occurs around p) :
    p.Onward around := by
  refine onward_of_actions (fun shown act hc => (hroot shown act (hp.contains.trans hc)).elim)
    fun r hr => ?_
  have hbody := (hp.contains_around r hr).tail (.recursive r.1 r.2)
  exact fun shown act hc => (hroot shown act (hbody.trans hc)).elim

end Occurs

namespace InPlace

/-- A failure that is made where a parser has gone back to is told there. -/
theorem told_rewind (hb : s.OnBoundary) (hinput : t.input = s.input) {f : Failure} {r : Nat}
    (hfound : f.Found root s.input s.cursor r) :
    Failure.Told root ((t.rewind s.cursor).fail f).input ((t.rewind s.cursor).fail f).cursor f :=
  ((hb.samePlace_rewind hinput).fail f).true_of (T := Failure.Told root) (.inr ⟨r, hfound⟩)

/-- Fewer rounds than one are none, so the repetition has stopped where it began. -/
theorem told_many {least : Nat} (hleast : least ≤ 1)
    (hp : InPlace (Failure.Told root) root around b scope (many least p)) :
    Step.Tells (Failure.Told root) ((many least p).step b scope) := by
  intro s t f hs hb hrun hf
  have ht := hp.endsAmid hs hrun
  have hpart : root.Occurs around p := hp.occurs.part (.many least p) nofun
  have hind := hpart.independent hp.actionless
  obtain ⟨ts, q, hrounds⟩ :=
    (exists_many_iff hind (hpart.onward hp.actionless) hs hb least).1 ⟨t, ht⟩
  obtain ⟨g, hgains, hends⟩ := hrounds.exists_many hind hs hb
  obtain rfl := ht.unique (hends least)
  split at hf
  · next hfew =>
    obtain ⟨rfl, rfl⟩ : least = 1 ∧ ts = [] := ⟨by omega, List.eq_nil_of_length_eq_zero (by omega)⟩
    cases hf
    rw [if_pos hfew, hgains.rest_eq]
    cases hrounds
    exact told_rewind hb hgains.input (.tooFew hp.occurs.contains)
  · cases hf

/-- Values with separators show the text where their chain of turns has stopped. -/
theorem told_separated {least : Nat}
    (hp : InPlace (Failure.Told root) root around b scope (separated least value separator)) :
    Step.Tells (Failure.Told root) ((separated least value separator).step b scope) := by
  intro s t f hs hb hrun hf
  have ht := hp.endsAmid hs hrun
  have hvalue : root.Occurs around value := hp.occurs.part (.value least value separator) nofun
  have hseparator : root.Occurs around separator :=
    hp.occurs.part (.separator least value separator) nofun
  have hind := hvalue.independent hp.actionless
  have honward := hvalue.onward hp.actionless
  have hind' := hseparator.independent hp.actionless
  have honward' := hseparator.onward hp.actionless
  obtain ⟨ts, q, hchain⟩ :=
    (exists_separated_iff hind honward hind' honward' hs hb least).1 ⟨t, ht⟩
  obtain ⟨g, hgains, hends⟩ := hchain.exists_separated hind honward hind' honward' hs hb
  obtain rfl := ht.unique (hends least)
  split at hf
  · next hfew =>
    cases hf
    rw [if_pos hfew, hgains.rest_eq]
    exact told_rewind hb hgains.input (.tooFewSeparated hp.occurs hchain hfew)
  · cases hf

/-- **Every failure of a part of a grammar is told**: it is silent, or shows the text where a parser has
found it. -/
theorem tells_found (hroot : root.Ordinary)
    (hp : InPlace (Failure.Told root) root around b scope p) :
    Step.Tells (Failure.Told root) (p.step b scope) := by
  refine hp.tells (fun {around scope p} hp hmakes => ?_) fun hocc s _ =>
    .inr ⟨_, .stalled hocc.contains⟩
  cases p with
  | literal text => exact Step.tells_literal fun s _ => .inr ⟨_, .literal hp.occurs.contains⟩
  | pattern pattern => exact Step.tells_pattern fun s _ => .inr ⟨_, .pattern hp.occurs.contains⟩
  | endOfInput => exact Step.tells_endOfInput fun s _ => .inr ⟨_, .trailing hp.occurs.contains⟩
  | or left right =>
    have hl : InPlace _ root around b scope left := hp.part (.orLeft left right) nofun
    have hr : InPlace _ root around b scope right := hp.part (.orRight left right) nofun
    exact Step.tells_or hl.leads_step hr.leads_step fun s _ _ => .inl (.inr (.inr ⟨_, _, rfl⟩))
  | choice ps =>
    have hps : ∀ p ∈ ps, InPlace _ root around b scope p := fun p h => hp.part (.choice h) nofun
    exact Step.tells_choice (forall_mem_steps fun p h => (hps p h).leads_step) fun s _ =>
      .inl (.inl rfl)
  | many least p => exact told_many (hroot.least_le least p hp.occurs.contains) hp
  | separated least value separator => exact told_separated hp
  | _ => cases hmakes

end InPlace

/-! ## Errors -/

/-- What is not bound stands for nothing, and says so. -/
theorem Ordinary.inPlace (hroot : root.Ordinary) (b : Nat) :
    InPlace (Failure.Told root) root [] b Scope.none root where
  actionless := hroot.actionless
  occurs := .root
  le _ := Step.Le.refl _
  leads := Scope.leads_none
  tells_free h _ := by
    intro s t f _ _ hrun hf
    cases hrun
    cases hf
    exact .inl (.inr (.inl rfl))

/-- **Errors show the text at their position.**  If a grammar of the library's parsers fails, the message
does not say what was found, or it shows the text at the position of the error; the exception is a
repetition with separators that is to have two values or more, and has got one at least, which shows
the text where it has stopped. -/
theorem error_found (hp : p.Ordinary) (hs : s.failed = false) (hb : s.OnBoundary)
    (hends : p.Ends Scope.none s t) {e : ParseError} (he : t.error? = some e) :
    Failure.Silent ⟨e.kind, e.message⟩ ∨
    ∃ r, Failure.Found p s.input e.position r ⟨e.kind, e.message⟩ ∧
      (r = e.position ∨ ∃ around least value separator ts,
        p.Occurs around (.separated least value separator) ∧
        Alternation around value separator s.input e.position ts r ∧
        1 ≤ ts.length ∧ ts.length < least) := by
  obtain ⟨b, hrun⟩ := hends
  rw [p.runFrom_of_live b Scope.none hs] at hrun
  have hplace := hp.inPlace b
  have hlead := hplace.leads_step s t hs hb hrun
  obtain ⟨f, hf, rfl⟩ := Option.map_eq_some_iff.1 he
  have htold := hplace.tells_found hp s t f hs hb hrun hf
  rw [hlead.input] at htold
  refine htold.imp_right ?_
  rintro ⟨r, hfound⟩
  refine ⟨r, hfound, hfound.eq_or.imp_right ?_⟩
  rintro ⟨around, least, value, separator, ts, hocc, hchain, hone, hfew, -⟩
  exact ⟨around, least, value, separator, ts, hocc, hchain, hone, hfew⟩

open Regex.Engine (everyday_builtIn)

/-- Two numbers or more, with commas between them. -/
def twoNumbers : Parser Element := separated 2 (digits everyday_builtIn) (literal ",")

theorem twoNumbers_ordinary : twoNumbers.Ordinary := by simp [twoNumbers, digits]

/-- Without any number, the text is shown where the first one is missing. -/
theorem error_found_missing :
    ∃ (t : State Element) (e : ParseError),
      twoNumbers.Ends Scope.none ((State.start (.ofString "éx")).advance 2 .absent) t ∧
        t.error? = some e ∧ e.position = 2 ∧
        e.message = "Expected at least 2 of /[0-9]+/ separated by \",\" but found \"x\"" ∧
        ∃ r, Failure.Found twoNumbers (.ofString "éx") 2 r ⟨e.kind, e.message⟩ := by
  obtain ⟨t, hends, herror⟩ : ∃ t : State Element,
      twoNumbers.Ends Scope.none ((State.start (.ofString "éx")).advance 2 .absent) t ∧
        t.error?.map (fun e => (e.kind, e.position, e.message)) = some (.repetitionUnsatisfied, 2,
          "Expected at least 2 of /[0-9]+/ separated by \",\" but found \"x\"") :=
    ⟨(twoNumbers.runFrom 5 Scope.none ((State.start (.ofString "éx")).advance 2 .absent)).get
        (by decide +kernel),
      ⟨5, (Option.some_get _).symm⟩, by decide +kernel⟩
  obtain ⟨e, he, heq⟩ := Option.map_eq_some_iff.1 herror
  obtain ⟨hkind, heq⟩ := Prod.mk.inj heq
  obtain ⟨hposition, hmessage⟩ := Prod.mk.inj heq
  rcases error_found twoNumbers_ordinary rfl (State.onBoundary_advance _ _ _) hends he with
    hsilent | ⟨r, hfound, _⟩
  · rw [hkind] at hsilent
    rcases hsilent with h | h | ⟨_, _, h⟩
    · cases h
    · cases h
    · cases h
  · rw [hposition] at hfound
    exact ⟨t, e, hends, he, hposition, hmessage, r, hfound⟩

/-- **The text that is shown may lie farther on.**  Behind a number and a comma, what follows is shown
for the position in front of both. -/
theorem error_found_elsewhere :
    ∃ (t : State Element) (e : ParseError),
      twoNumbers.Ends Scope.none (.start (.ofString "1,x")) t ∧ t.error? = some e ∧ e.position = 0 ∧
        e.message = Failure.expected "at least 2 of /[0-9]+/ separated by \",\""
          ((Input.ofString "1,x").drop 2) ∧
        Text.preview ((Input.ofString "1,x").drop 2) ≠
          Text.preview ((Input.ofString "1,x").drop e.position) := by
  obtain ⟨t, hends, herror⟩ : ∃ t : State Element,
      twoNumbers.Ends Scope.none (.start (.ofString "1,x")) t ∧
        t.error?.map (fun e => (e.position, e.message)) = some (0,
          Failure.expected "at least 2 of /[0-9]+/ separated by \",\""
            ((Input.ofString "1,x").drop 2)) :=
    ⟨(twoNumbers.runFrom 5 Scope.none (.start (.ofString "1,x"))).get (by decide +kernel),
      ⟨5, (Option.some_get _).symm⟩, by decide +kernel⟩
  obtain ⟨e, he, heq⟩ := Option.map_eq_some_iff.1 herror
  obtain ⟨hposition, hmessage⟩ := Prod.mk.inj heq
  refine ⟨t, e, hends, he, hposition, hmessage, ?_⟩
  rw [hposition]
  decide +kernel

end Parser

end TextGrammar
