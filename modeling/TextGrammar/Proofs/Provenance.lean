import TextGrammar.Element
import TextGrammar.Parser.Basic
import TextGrammar.Proofs.Parser.Budget
import TextGrammar.Proofs.Parser.Part
import TextGrammar.Proofs.Provenance.Step
import TextGrammar.Proofs.Regex.Run

/-!
# Where nodes come from

The line of a node tells where in the input it was made, for every node in a result.

* `Parser.CopiesNodes` — grammars whose callbacks make at most one node at a time, around nodes that
  they are given.  The callback of `between` is such a one (`Parser.CopiesNodes.between`).
* `Parser.CopiesNodes.stamps` — the steps of such a grammar put its nodes on lines.
* `Parser.ends_linesIn` — so every node in a result is on a line of the match, and on no earlier one
  than the nodes inside of it.
-/

namespace TextGrammar.Parser

variable {ν : Type} {inside : ν → Value ν} {p q : Parser ν}

/-! ## Grammars that copy nodes -/

/-- The grammar is put together from primitives and combinations of the library, and what its
callbacks return is made of what they are given.  An error holds no nodes. -/
structure CopiesNodes (inside : ν → Value ν) (p : Parser ν) : Prop where
  map : ∀ f q, p.Contains (map f q) → ∀ v : Value ν, v.MadeOf inside (f v)
  mapWithLine : ∀ f q, p.Contains (mapWithLine f q) →
    ∀ (v : Value ν) (line : Nat), v.MadeOf inside (f v line)
  recover : ∀ f q, p.Contains (recover f q) → ∀ e, Value.absent.MadeOf inside (f e)
  actionless : p.EveryAction fun _ => False

namespace CopiesNodes

theorem part (hp : p.CopiesNodes inside) (h : Part p q) : q.CopiesNodes inside where
  map f r hc := hp.map f r (h.contains hc)
  mapWithLine f r hc := hp.mapWithLine f r (h.contains hc)
  recover f r hc := hp.recover f r (h.contains hc)
  actionless := hp.actionless.part h

/-- A grammar copies nodes if its parts do and its own callback, if it has one, does. -/
theorem of_part (hmap : ∀ f q, p = .map f q → ∀ v : Value ν, v.MadeOf inside (f v))
    (hline : ∀ f q, p = .mapWithLine f q →
      ∀ (v : Value ν) (line : Nat), v.MadeOf inside (f v line))
    (hrecover : ∀ f q, p = .recover f q → ∀ e, Value.absent.MadeOf inside (f e))
    (hcustom : ∀ shown act, p ≠ custom shown act) (h : ∀ q, Part p q → q.CopiesNodes inside) :
    p.CopiesNodes inside where
  map f r hc := by
    rcases contains_iff.1 hc with hr | ⟨q, hq, hr⟩
    · exact hmap f r hr.symm
    · exact (h q hq).map f r hr
  mapWithLine f r hc := by
    rcases contains_iff.1 hc with hr | ⟨q, hq, hr⟩
    · exact hline f r hr.symm
    · exact (h q hq).mapWithLine f r hr
  recover f r hc := by
    rcases contains_iff.1 hc with hr | ⟨q, hq, hr⟩
    · exact hrecover f r hr.symm
    · exact (h q hq).recover f r hr
  actionless := everyAction_of_part hcustom fun q hq => (h q hq).actionless

theorem literal (text : String) : (literal text : Parser ν).CopiesNodes inside :=
  of_part nofun nofun nofun nofun nofun

theorem pattern (p : Pattern) : (pattern p : Parser ν).CopiesNodes inside :=
  of_part nofun nofun nofun nofun nofun

theorem and (hp : p.CopiesNodes inside) (hq : q.CopiesNodes inside) :
    (and p q).CopiesNodes inside := by
  refine of_part nofun nofun nofun nofun fun r hr => ?_
  cases hr with
  | andLeft => exact hp
  | andRight => exact hq

theorem sequence {ps : List (Parser ν)} (hps : ∀ p ∈ ps, p.CopiesNodes inside) :
    (sequence ps).CopiesNodes inside := by
  refine of_part nofun nofun nofun nofun fun r hr => ?_
  cases hr with
  | sequence hr => exact hps r hr

theorem collectedAs (d : Disposition) (hp : p.CopiesNodes inside) :
    (collectedAs d p).CopiesNodes inside := by
  refine of_part nofun nofun nofun nofun fun r hr => ?_
  cases hr
  exact hp

theorem many (least : Nat) (hp : p.CopiesNodes inside) : (many least p).CopiesNodes inside := by
  refine of_part nofun nofun nofun nofun fun r hr => ?_
  cases hr
  exact hp

theorem of_map {f : Value ν → Value ν} (hf : ∀ v : Value ν, v.MadeOf inside (f v))
    (hp : p.CopiesNodes inside) : (Parser.map f p).CopiesNodes inside := by
  refine of_part (fun g r h => ?_) nofun nofun nofun fun r hr => ?_
  · cases h
    exact hf
  · cases hr
    exact hp

theorem of_recover {f : ParseError → Value ν} (hf : ∀ e, Value.absent.MadeOf inside (f e))
    (hp : p.CopiesNodes inside) : (Parser.recover f p).CopiesNodes inside := by
  refine of_part nofun nofun (fun g r h => ?_) nofun fun r hr => ?_
  · cases h
    exact hf
  · cases hr
    exact hp

/-- **Brackets copy what stands between them.** -/
theorem between {opening closing : Parser ν} (ho : opening.CopiesNodes inside)
    (hc : closing.CopiesNodes inside) (hp : p.CopiesNodes inside) :
    (between opening closing p).CopiesNodes inside := by
  refine (sequence fun q hq => ?_).of_map Value.madeOf_head
  simp only [List.mem_cons, List.not_mem_nil, or_false] at hq
  rcases hq with rfl | rfl | rfl
  · exact ho.collectedAs .ignore
  · exact hp
  · exact hc.collectedAs .ignore

/-- **The nodes of such a grammar are on lines between the places where a step begins and where it
ends**, whatever handles stand for that keeps to this itself. -/
theorem stamps (hp : p.CopiesNodes inside) (b : Nat) {scope : Scope ν}
    (hscope : ∀ h, (scope h).Stamps inside) : Step.Stamps inside (p.step b scope) := by
  induction p generalizing scope with
  | literal text => exact Step.stamps_literal text
  | pattern p => exact Step.stamps_pattern p
  | endOfInput => exact Step.stamps_endOfInput
  | sequence ps ih =>
    exact Step.stamps_sequence (forall_mem_steps fun p h => ih p h (hp.part (.sequence h)) hscope)
  | and left right ihl ihr =>
    exact Step.stamps_and (ihl (hp.part (.andLeft left right)) hscope)
      (ihr (hp.part (.andRight left right)) hscope)
  | or left right ihl ihr =>
    exact Step.stamps_or _ _ (ihl (hp.part (.orLeft left right)) hscope)
      (ihr (hp.part (.orRight left right)) hscope)
  | choice ps ih =>
    exact Step.stamps_choice (forall_mem_steps fun p h => ih p h (hp.part (.choice h)) hscope)
  | optional p ih => exact Step.stamps_optional (ih (hp.part (.optional p)) hscope)
  | collectedAs d p ih =>
    exact Step.stamps_collectedAs d (ih (hp.part (.collectedAs d p)) hscope)
  | many least p ih => exact Step.stamps_many b least _ (ih (hp.part (.many least p)) hscope)
  | separated least value separator ihv ihs =>
    exact Step.stamps_separated b least _ _ (ihv (hp.part (.value least value separator)) hscope)
      (ihs (hp.part (.separator least value separator)) hscope).leads
  | all p ih => exact Step.stamps_all b _ (ih (hp.part (.all p)) hscope)
  | map f p ih => exact Step.stamps_map (hp.map f p (.refl _)) (ih (hp.part (.map f p)) hscope)
  | mapWithLine f p ih =>
    exact Step.stamps_mapWithLine (hp.mapWithLine f p (.refl _))
      (ih (hp.part (.mapWithLine f p)) hscope)
  | recover f p ih =>
    exact Step.stamps_recover (hp.recover f p (.refl _)) (ih (hp.part (.recover f p)) hscope)
  | chain next p ihn ih =>
    exact Step.stamps_chain (fun v => ihn v (hp.part (.chosen next p v)) hscope)
      (ih (hp.part (.chain next p)) hscope)
  | named label p ih => exact ih (hp.part (.named label p)) hscope
  | recursive h body ih =>
    exact Step.stamps_fix (fun self hself =>
      ih (hp.part (.recursive h body)) (Scope.forall_bind hscope h hself)) b
  | handle h => exact hscope h
  | custom shown act => exact (hp.actionless shown act (.refl _)).elim

end CopiesNodes

/-! ## Lines of nodes -/

/-- **Every node tells where it was made.**  Where a grammar succeeds whose callbacks copy nodes and
make at most one around them, every node in the result, at any depth, is on a line from that of the
place where the match began to that of the place where it ends, counted by newlines, and on no
earlier line than the nodes inside of it. -/
theorem ends_linesIn (hp : p.CopiesNodes inside) {s t : State ν} (hs : s.failed = false)
    (hb : s.OnBoundary) (hends : p.Ends Scope.none s t) (ht : t.failed = false) {n : ν}
    {line : Option Nat} (hn : t.result.Holds inside n line) :
    ∃ l, line = some l ∧ 1 + Text.newlinesBefore s.input.chars s.cursor ≤ l ∧
      l ≤ 1 + Text.newlinesBefore s.input.chars t.cursor ∧
      ∀ m line', (inside n).Holds inside m line' → ∃ l', line' = some l' ∧ l' ≤ l := by
  obtain ⟨b, hrun⟩ := hends
  rw [p.runFrom_of_live b Scope.none hs] at hrun
  have hst := hp.stamps b (fun _ => Step.stamps_stray) s t hs hb hrun
  obtain ⟨l, hline, hfirst, hlast, hinner⟩ := hst.lines ht n line hn
  rw [State.line, Input.line_eq] at hfirst hlast
  rw [hst.led.input] at hlast
  exact ⟨l, hline, hfirst, hlast, hinner⟩

open Regex.Engine (everyday_builtIn)

/-- A page of notes in parentheses, one to a line.  What is wrong with the end of a line is noted,
too. -/
def notes : Parser Element :=
  map (Change.node "page").apply
    (many 0 (and (inParens (map (Change.node "note").apply (literal "a")))
      (recover (Recovery.node "cut").apply (ignore (newline everyday_builtIn)))))

theorem copiesNodes_notes : notes.CopiesNodes Element.value := by
  have hnode (tag : String) (v : Value Element) : v.MadeOf Element.value (.ofNode (.mk tag v)) :=
    .inr ⟨.mk tag v, rfl, fun _ _ h => h⟩
  have herror (e : ParseError) :
      Value.absent.MadeOf Element.value (.ofNode (.mk "cut" (Recovery.parts e))) := by
    refine .inr ⟨_, rfl, fun n line hn => ?_⟩
    obtain ⟨v, hv, hn⟩ := Value.holds_list_iff.1 hn
    simp only [List.mem_cons, List.not_mem_nil, or_false] at hv
    rcases hv with rfl | rfl | rfl | rfl <;> cases hn
  have hnote : (map (Change.node "note").apply (.literal "a")).CopiesNodes Element.value :=
    (CopiesNodes.literal "a").of_map (hnode "note")
  have hend : (recover (Recovery.node "cut").apply (ignore (newline everyday_builtIn))).CopiesNodes Element.value :=
    ((CopiesNodes.pattern (.newline everyday_builtIn)).collectedAs .ignore).of_recover herror
  exact ((((CopiesNodes.literal "(").between (.literal ")") hnote).and hend).many 0).of_map
    (hnode "page")

/-- Two notes, read from the second line on: the page is on the third line, where it ends, and holds
the first note, on the second. -/
theorem ends_linesIn_notes :
    ∃ (s t : State Element) (page note : Element),
      s = (State.start (.ofString "é\n(a)\n(a)")).advance 3 .absent ∧
        notes.Ends Scope.none s t ∧ t.failed = false ∧ t.result = .node page (some 3) ∧
        page.value.Holds Element.value note (some 2) ∧
        ∃ l, some 3 = some l ∧ 1 + Text.newlinesBefore s.input.chars s.cursor ≤ l ∧
          l ≤ 1 + Text.newlinesBefore s.input.chars t.cursor ∧
          ∀ m line', page.value.Holds Element.value m line' → ∃ l', line' = some l' ∧ l' ≤ l := by
  let note : Element := .mk "note" (.token "a")
  let cut : Element := .mk "cut" (.list [.token "pattern mismatch",
    .token "Expected /\\r\\n|\\n|\\r/ but found end of input", .token "10", .token "3"])
  let page : Element := .mk "page" (.list [.list [.node note (some 2), .token "\n"],
    .list [.node note (some 3), .node cut (some 3)]])
  obtain ⟨t, hends, hlive, hresult⟩ : ∃ t : State Element,
      notes.Ends Scope.none ((State.start (.ofString "é\n(a)\n(a)")).advance 3 .absent) t ∧
        t.failed = false ∧ t.result = .node page (some 3) :=
    ⟨(notes.runFrom 4 Scope.none
        ((State.start (.ofString "é\n(a)\n(a)")).advance 3 .absent)).get (by decide +kernel),
      ⟨4, (Option.some_get _).symm⟩, by decide +kernel, by decide +kernel⟩
  have hpage : t.result.Holds Element.value page (some 3) := by
    rw [hresult]
    exact .here
  have hnote : page.value.Holds Element.value note (some 2) :=
    .item List.mem_cons_self (.item List.mem_cons_self .here)
  exact ⟨_, t, page, note, rfl, hends, hlive, hresult, hnote,
    ends_linesIn copiesNodes_notes rfl (State.onBoundary_advance _ _ _) hends hlive hpage⟩

end TextGrammar.Parser
