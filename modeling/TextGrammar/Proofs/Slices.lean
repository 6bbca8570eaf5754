import TextGrammar.Proofs.Parser.Budget
import TextGrammar.Proofs.Slices.Step
import TextGrammar.Proofs.Regex.Run

/-!
# Tokens are slices of the input

What a grammar matches comes back in its result: nothing twice, nothing out of order, and nothing
lost unless the grammar leaves it out.

* `Parser.Textual` — the grammars whose results are made of what they match.  Only those in which
  gaps are allowed leave text out: by `ignore`, and as separators and around `between`.
* `Parser.ends_slices` — the tokens of the result are slices between the place where the match
  begins and the place where it ends; without gaps, they make up all the text between.
-/

namespace TextGrammar

variable {ν : Type} {gaps : Bool}

/-! ## Grammars of text -/

namespace Parser

/-- The grammar takes text only by literals and by patterns whose matches begin where the text ahead
does, and does nothing to results but to collect them.  If there may be no gaps, it leaves none
out. -/
inductive Textual (gaps : Bool) : Parser ν → Prop where
  | literal (text : String) : Textual gaps (literal text)
  | pattern {p : Pattern} (h : ∀ text m, p.find text = some m → m.start = 0) :
      Textual gaps (pattern p)
  | endOfInput : Textual gaps endOfInput
  | sequence {ps : List (Parser ν)} (h : ∀ p ∈ ps, Textual gaps p) : Textual gaps (sequence ps)
  | and {left right : Parser ν} (hl : Textual gaps left) (hr : Textual gaps right) :
      Textual gaps (and left right)
  | or {left right : Parser ν} (hl : Textual gaps left) (hr : Textual gaps right) :
      Textual gaps (or left right)
  | choice {ps : List (Parser ν)} (h : ∀ p ∈ ps, Textual gaps p) : Textual gaps (choice ps)
  | optional {p : Parser ν} (h : Textual gaps p) : Textual gaps (optional p)
  | ignore (hgaps : gaps = true) {p : Parser ν} (h : Textual gaps p) : Textual gaps (ignore p)
  | many (least : Nat) {p : Parser ν} (h : Textual gaps p) : Textual gaps (many least p)
  | separated (hgaps : gaps = true) (least : Nat) {value separator : Parser ν}
      (hv : Textual gaps value) (hs : Textual gaps separator) :
      Textual gaps (separated least value separator)
  | all {p : Parser ν} (h : Textual gaps p) : Textual gaps (all p)
  | between (hgaps : gaps = true) {opening closing center : Parser ν}
      (ho : Textual gaps opening) (hc : Textual gaps closing) (h : Textual gaps center) :
      Textual gaps (between opening closing center)
  | named (label : String) {p : Parser ν} (h : Textual gaps p) : Textual gaps (named label p)
  | recursive (h : Handle) {body : Parser ν} (hb : Textual gaps body) :
      Textual gaps (recursive h body)
  | handle (h : Handle) : Textual gaps (handle h)

/-- A source that is searched for at the start of the text ahead makes a grammar of text. -/
theorem textual_of_searches {E : Regex.Engine} {source : String} {t : Regex.Term}
    (h : E.Searches source t) : (pattern (.ofSource E source h.isSome) : Parser ν).Textual gaps := by
  refine .pattern fun text m hm => ?_
  rw [h.find_eq, Regex.Term.first_seq_textStart] at hm
  obtain ⟨_, _, rfl⟩ := Option.map_eq_some_iff.1 hm
  rfl

/-- **The results of a grammar of text are made of what it matches**, whatever handles stand for that
keeps to this itself. -/
theorem Textual.reads {p : Parser ν} (hp : p.Textual gaps) (b : Nat) {scope : Scope ν}
    (hs : ∀ h, (scope h).Reads gaps) : Step.Reads gaps (p.step b scope) := by
  induction hp generalizing scope with
  | literal text => exact Step.reads_literal text
  | pattern h => exact Step.reads_pattern h
  | endOfInput => exact Step.reads_endOfInput
  | sequence _ ih => exact Step.reads_sequence (forall_mem_steps fun p hp => ih p hp hs)
  | and _ _ ihl ihr => exact Step.reads_and (ihl hs) (ihr hs)
  | or _ _ ihl ihr => exact Step.reads_or _ _ (ihl hs) (ihr hs)
  | choice _ ih => exact Step.reads_choice (forall_mem_steps fun p hp => ih p hp hs)
  | optional _ ih => exact Step.reads_optional (ih hs)
  | ignore hgaps _ ih =>
    subst hgaps
    exact Step.reads_ignore (ih hs)
  | many least _ ih => exact Step.reads_many b least _ (ih hs)
  | separated hgaps least _ _ ihv ihs =>
    subst hgaps
    exact Step.reads_separated b least _ _ (ihv hs) (ihs hs)
  | all _ ih => exact Step.reads_all b _ (ih hs)
  | @between hgaps opening closing center _ _ _ iho ihc ih =>
    subst hgaps
    refine Step.reads_map_head (Step.reads_sequence (forall_mem_steps fun p hp => ?_))
    simp only [List.mem_cons, List.not_mem_nil, or_false] at hp
    rcases hp with rfl | rfl | rfl
    · exact Step.reads_ignore (iho hs)
    · exact ih hs
    · exact Step.reads_ignore (ihc hs)
  | named label _ ih => exact ih hs
  | recursive h _ ih => exact Step.reads_fix (fun p hp => ih (Scope.forall_bind hs h hp)) b
  | handle h => exact hs h

/-- **No loss, no duplication and no reordering.**  Where a grammar of text succeeds, the tokens of
its result are slices of the input between the place where it began and the place where it ends, one
behind the other.  If it leaves nothing out, they make up all the text between. -/
theorem ends_slices {p : Parser ν} (hp : p.Textual gaps) {s t : State ν} (hs : s.failed = false)
    (hb : s.OnBoundary) (hends : p.Ends Scope.none s t) (ht : t.failed = false) :
    Text.Slices true s.input.chars s.cursor t.cursor t.result.tokens ∧
      (gaps = false → t.result.tokens.flatMap String.toList =
        Text.slice s.input.chars s.cursor t.cursor) := by
  obtain ⟨b, hrun⟩ := hends
  rw [runFrom, Step.unlessFailed, hs, if_neg Bool.false_ne_true] at hrun
  obtain ⟨hinput, hread⟩ := hp.reads b Scope.reads_none s t hb hrun
  refine ⟨(hread ht).result.loosen, fun hgaps => ?_⟩
  subst hgaps
  have hend := (hread ht).onBoundary
  rw [State.OnBoundary, hinput] at hend
  exact (hread ht).result.flatMap_toList hend

open Regex.Engine (everyday_builtIn)

/-- Letters with digits behind them that may be missing. -/
theorem ends_slices_many_and :
    ∃ t : State Nat,
      (many 0 (and (literal "ab") (optional (digits everyday_builtIn)))).Ends Scope.none
          (.start (.ofString "abab7")) t ∧
        t.result.tokens = ["ab", "ab", "7"] ∧
        Text.Slices true "abab7".toList 0 t.cursor t.result.tokens ∧
        t.result.tokens.flatMap String.toList = Text.slice "abab7".toList 0 t.cursor := by
  have hdigits : (digits everyday_builtIn : Parser Nat).Textual false :=
    textual_of_searches everyday_builtIn.digits
  have htextual : (many 0 (and (literal "ab") (optional (digits everyday_builtIn))) : Parser Nat).Textual false :=
    .many 0 (.and (.literal "ab") (.optional hdigits))
  obtain ⟨t, hends, ht, htokens⟩ : ∃ t : State Nat,
      (many 0 (and (literal "ab") (optional (digits everyday_builtIn)))).Ends Scope.none
          (.start (.ofString "abab7")) t ∧
        t.failed = false ∧ t.result.tokens = ["ab", "ab", "7"] :=
    ⟨((many 0 (and (literal "ab") (optional (digits everyday_builtIn)))).runFrom 3 Scope.none
        (.start (.ofString "abab7"))).get (by decide +kernel),
      ⟨3, (Option.some_get _).symm⟩, by decide +kernel, by decide +kernel⟩
  have h := ends_slices htextual rfl (State.onBoundary_start _) hends ht
  exact ⟨t, hends, htokens, h.1, h.2 rfl⟩

end Parser

end TextGrammar
