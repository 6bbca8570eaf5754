import TextGrammar.Element
import TextGrammar.Proofs.Laws.Sequence

/-!
# A parser between two others

The parser between two others gives the only result, whatever the others produce and however its own
result is to be collected.

* `State.Projects` — an end of three parsers in turn that keeps only the second of their results.
* `Parser.InTurn.exists_ignored` — parsers run in turn, also if the outer ones are to be ignored.  The
  runs differ in what these leave behind, and so are the same only up to what was produced before.
* `Parser.between_projects` — so `between` ends and succeeds where the three parsers in turn do, with
  the result of the second one.
-/

namespace TextGrammar

variable {ν : Type}

/-- Three parsers have run in turn from `s`: those that succeed have ended in `ts`, and the whole run in
`u`.  The state `t` has failed as that has, or is the success with the result of the second parser
alone: nothing if that is to be ignored, and else the whole of it, put on the line where the third
parser has ended. -/
structure State.Projects (s : State ν) (ts : List (State ν)) (u t : State ν) : Prop where
  failure : t.failure = u.failure
  cursor : t.cursor = u.cursor
  success : ∀ a b d, ts = [a, b, d] → t.disposition = .keep ∧ t.cursor = d.cursor ∧
    t.result =
      if b.disposition = .ignore then .absent else b.result.onLine (s.input.line d.cursor)

/-- The head of what a result adds to a list is the result, unless that is to be ignored. -/
theorem State.head_kept (t : State ν) :
    (Value.list t.kept).head = if t.disposition = .ignore then .absent else t.result := by
  cases h : t.disposition <;> simp [kept, h, Value.head, Value.asList?]

namespace Parser

variable {around : Surroundings ν} {opening center closing p : Parser ν} {ps : List (Parser ν)}
  {s s' t u : State ν} {ts : List (State ν)}

/-- A run in turn has succeeded if and only if each of its parsers has. -/
theorem InTurn.live_iff (h : InTurn around ps s ts u) (hs : s.failed = false) :
    u.failed = false ↔ ts.length = ps.length := by
  induction h with
  | nil => exact ⟨fun _ => rfl, fun _ => hs⟩
  | stop _ hu => simp [hu]
  | next _ ht _ ih => simpa using ih ((State.failed_collected _).trans ht)

/-- A parser that is to be ignored does what the parser does from any state at the same place, and its
success stays behind. -/
theorem Independent.exists_ignore (hp : p.Independent around) (hs : s.failed = false)
    (hs' : s'.failed = false) (hb : s.OnBoundary) (hplace : s.SamePlace s')
    (ht : p.EndsAmid around s t) :
    ∃ t', (ignore p).EndsAmid around s' t' ∧ t.SamePlace t' ∧ t'.failure = t.failure ∧
      (t.failed = false → t'.kept = []) := by
  obtain ⟨t', ht', hout⟩ := hp.alike s s' t hs hs' hb hplace ht
  refine ⟨_, (endsAmid_collectedAs_iff hs').2 ⟨t', ht', rfl⟩, ?_⟩
  cases hf : t.failed with
  | true =>
    rw [if_pos (hout.failed_eq.symm.trans hf)]
    exact ⟨hout.toSamePlace, hout.failure.symm, nofun⟩
  | false =>
    rw [if_neg (by rw [← hout.failed_eq, hf]; exact Bool.false_ne_true)]
    exact ⟨⟨hout.input, hout.cursor⟩, hout.failure.symm, fun _ => rfl⟩

/-- A parser that is to be ignored ends where the parser does. -/
theorem exists_of_ignore (hs : s.failed = false) (ht : (ignore p).EndsAmid around s t) :
    ∃ u, p.EndsAmid around s u ∧ u.SamePlace t ∧ u.failed = t.failed := by
  obtain ⟨u, hu, rfl⟩ := (endsAmid_collectedAs_iff hs).1 ht
  refine ⟨u, hu, ?_⟩
  split
  · exact ⟨⟨rfl, rfl⟩, rfl⟩
  · exact ⟨⟨rfl, rfl⟩, rfl⟩

section

variable (ho : opening.Independent around) (hp : center.Independent around)
  (hc : closing.Independent around)

include ho hp hc

/-- **Three parsers run in turn also if the outer two are to be ignored**, and what they contribute is
then the contribution of the second one. -/
theorem InTurn.exists_ignored (h : InTurn around [opening, center, closing] s ts u)
    (hs : s.failed = false) (hb : s.OnBoundary) :
    ∃ ts' v, InTurn around [ignore opening, center, ignore closing] s ts' v ∧ u.SamePlace v ∧
      v.failure = u.failure ∧
      ∀ a b d, ts = [a, b, d] → u.cursor = d.cursor ∧ ts'.flatMap State.kept = b.kept := by
  cases h with
  | stop hopening hu =>
    obtain ⟨v, hv, hplace, hfailure, _⟩ := ho.exists_ignore hs hs hb ⟨rfl, rfl⟩ hopening
    have hvf : v.failed = true := by rw [State.failed, hfailure]; exact hu
    exact ⟨[], v, .stop hv hvf, hplace, hfailure, fun _ _ _ h => by cases h⟩
  | @next _ _ _ a _ _ hopening ha h =>
    obtain ⟨a', ha', hplace, hfailure, hkept⟩ := ho.exists_ignore hs hs hb ⟨rfl, rfl⟩ hopening
    have haf : a'.failed = false := by rw [State.failed, hfailure]; exact ha
    have hba : a.collected.OnBoundary := (ho.leads s a hs hb hopening).collected.onBoundary
    have hplace : a.collected.SamePlace a'.collected :=
      a.samePlace_collected.symm.trans (hplace.trans a'.samePlace_collected)
    have hlive := a.failed_collected.trans ha
    have hlive' := a'.failed_collected.trans haf
    cases h with
    | stop hcenter hu =>
      obtain ⟨v, hv, hout⟩ := hp.alike _ _ _ hlive hlive' hba hplace hcenter
      exact ⟨[a'], v, .next ha' haf (.stop hv (hout.failed_eq.symm.trans hu)), hout.toSamePlace,
        hout.failure.symm, fun _ _ _ h => by cases h⟩
    | @next _ _ _ b _ _ hcenter hbf h =>
      obtain ⟨b', hb', hout⟩ := hp.alike _ _ _ hlive hlive' hba hplace hcenter
      have hbf' : b'.failed = false := hout.failed_eq.symm.trans hbf
      have hbb : b.collected.OnBoundary := (hp.leads _ b hlive hba hcenter).collected.onBoundary
      have hplace : b.collected.SamePlace b'.collected :=
        b.samePlace_collected.symm.trans (hout.toSamePlace.trans b'.samePlace_collected)
      have hlive := b.failed_collected.trans hbf
      have hlive' := b'.failed_collected.trans hbf'
      cases h with
      | stop hclosing hu =>
        obtain ⟨v, hv, hplace, hfailure, _⟩ := hc.exists_ignore hlive hlive' hbb hplace hclosing
        have hvf : v.failed = true := by rw [State.failed, hfailure]; exact hu
        exact ⟨[a', b'], v, .next ha' haf (.next hb' hbf' (.stop hv hvf)), hplace, hfailure,
          fun _ _ _ h => by cases h⟩
      | @next _ _ _ d _ _ hclosing hd h =>
        obtain ⟨d', hd', hplace, hfailure, hkept'⟩ :=
          hc.exists_ignore hlive hlive' hbb hplace hclosing
        have hdf : d'.failed = false := by rw [State.failed, hfailure]; exact hd
        cases h
        refine ⟨[a', b', d'], d'.collected, .next ha' haf (.next hb' hbf' (.next hd' hdf .nil)),
          d.samePlace_collected.symm.trans (hplace.trans d'.samePlace_collected), ?_, ?_⟩
        · rw [State.failure_eq_none (d'.failed_collected.trans hdf),
            State.failure_eq_none (d.failed_collected.trans hd)]
        · rintro _ _ _ ⟨⟩
          refine ⟨d.cursor_collected, ?_⟩
          simp [hkept ha, hkept' hd, hout.kept_eq hbf]

/-- What three parsers do in turn, the second one does between the others. -/
theorem InTurn.exists_between (h : InTurn around [opening, center, closing] s ts u)
    (hs : s.failed = false) (hb : s.OnBoundary) :
    ∃ t, (between opening closing center).EndsAmid around s t ∧ s.Projects ts u t := by
  obtain ⟨ts', v, hrun, hplace, hfailure, hkept⟩ := h.exists_ignored ho hp hc hs hb
  have hled : s.LeadsTo true u := h.leads (by simp [ho, hp, hc]) hs hb
  have hbv : v.OnBoundary := hplace.onBoundary_iff.1 hled.onBoundary
  have hseq := (endsAmid_sequence_iff hs).2 ⟨ts', v, hrun, rfl⟩
  refine ⟨_, (endsAmid_map_iff hs).2 ⟨_, hseq, rfl⟩, ?_⟩
  have hfailed : v.failed = u.failed := by rw [State.failed, State.failed, hfailure]
  have hlive := h.live_iff hs
  cases hu : u.failed with
  | true =>
    rw [if_pos (hfailed.trans hu), if_pos (hfailed.trans hu)]
    refine ⟨hfailure, hplace.cursor.symm, ?_⟩
    rintro a b d rfl
    simp [hu] at hlive
  | false =>
    have hvf : v.failed = false := hfailed.trans hu
    rw [if_neg (by simp [hvf]), if_neg (by simp [hvf])]
    have hplace' := hplace.trans (hbv.samePlace_succeed (.list (ts'.flatMap State.kept)))
    have hend := hplace'.trans ((hplace'.onBoundary_iff.1 hled.onBoundary).samePlace_succeed
      ((Value.list (ts'.flatMap State.kept)).head.onLine
        (v.succeed (.list (ts'.flatMap State.kept))).line))
    refine ⟨(State.failure_eq_none hu).symm, hend.cursor.symm, ?_⟩
    rintro a b d rfl
    obtain ⟨hcursor, hkept⟩ := hkept a b d rfl
    refine ⟨rfl, hend.cursor.symm.trans hcursor, ?_⟩
    have hline : (v.succeed (.list (ts'.flatMap State.kept))).line = s.input.line d.cursor := by
      rw [State.line, ← hplace'.input, ← hplace'.cursor, hled.input, hcursor]
    show (Value.list (ts'.flatMap State.kept)).head.onLine
        (v.succeed (.list (ts'.flatMap State.kept))).line = _
    rw [hline, hkept, State.head_kept]
    split
    · rfl
    · rfl

/-- What the second parser does between the others, the three do in turn. -/
theorem exists_inTurn_of_between (ht : (between opening closing center).EndsAmid around s t)
    (hs : s.failed = false) (hb : s.OnBoundary) :
    ∃ ts u, InTurn around [opening, center, closing] s ts u := by
  obtain ⟨w, hw, -⟩ := (endsAmid_map_iff hs).1 ht
  obtain ⟨ts', v, hrun, -⟩ := (endsAmid_sequence_iff hs).1 hw
  cases hrun with
  | stop hopening hv =>
    obtain ⟨u, hu, -, hfailed⟩ := exists_of_ignore hs hopening
    exact ⟨[], u, .stop hu (hfailed.trans hv)⟩
  | @next _ _ _ a' _ _ hopening ha' hrun =>
    obtain ⟨a, ha, hplace, hfailed⟩ := exists_of_ignore hs hopening
    have hlive := a.failed_collected.trans (hfailed.trans ha')
    have hlive' := a'.failed_collected.trans ha'
    have hba : a.collected.OnBoundary := (ho.leads s a hs hb ha).collected.onBoundary
    have hplace : a.collected.SamePlace a'.collected :=
      a.samePlace_collected.symm.trans (hplace.trans a'.samePlace_collected)
    have hba' : a'.collected.OnBoundary := hplace.onBoundary_iff.1 hba
    cases hrun with
    | stop hcenter hv =>
      obtain ⟨u, hu, hout⟩ := hp.alike _ _ _ hlive' hlive hba' hplace.symm hcenter
      exact ⟨[a], u, .next ha (hfailed.trans ha') (.stop hu (hout.failed_eq.symm.trans hv))⟩
    | @next _ _ _ b' _ _ hcenter hb' hrun =>
      obtain ⟨b, hbe, hout⟩ := hp.alike _ _ _ hlive' hlive hba' hplace.symm hcenter
      have hbf : b.failed = false := hout.failed_eq.symm.trans hb'
      have hbb' : b'.collected.OnBoundary := (hp.leads _ b' hlive' hba' hcenter).collected.onBoundary
      have hplace : b'.collected.SamePlace b.collected :=
        b'.samePlace_collected.symm.trans (hout.toSamePlace.trans b.samePlace_collected)
      -- What comes after the closing parser is the end of the run, so only that it ends is needed.
      obtain ⟨d', hd'⟩ : ∃ d', (ignore closing).EndsAmid around b'.collected d' := by
        cases hrun with
        | stop hclosing _ => exact ⟨_, hclosing⟩
        | next hclosing _ _ => exact ⟨_, hclosing⟩
      obtain ⟨d, hd, -, -⟩ := exists_of_ignore (b'.failed_collected.trans hb') hd'
      obtain ⟨e, he, -⟩ := hc.alike _ _ _ (b'.failed_collected.trans hb')
        (b.failed_collected.trans hbf) hbb' hplace hd
      cases hef : e.failed with
      | true =>
        exact ⟨[a, b], e, .next ha (hfailed.trans ha') (.next hbe hbf (.stop he hef))⟩
      | false =>
        exact ⟨[a, b, e], e.collected,
          .next ha (hfailed.trans ha') (.next hbe hbf (.next he hef .nil))⟩

/-- **A parser between two others has its own result.**  It ends wherever the three parsers end that run
in turn, and is then the projection of that run: it succeeds if all three do, where the last one does,
with the result of the one between, and else fails as the first one that does. -/
theorem between_projects (hs : s.failed = false) (hb : s.OnBoundary) :
    ((∃ t, (between opening closing center).EndsAmid around s t) ↔
      ∃ ts u, InTurn around [opening, center, closing] s ts u) ∧
    ∀ t ts u, (between opening closing center).EndsAmid around s t →
      InTurn around [opening, center, closing] s ts u →
      (t.failed = false ↔ ts.length = 3) ∧ s.Projects ts u t := by
  refine ⟨⟨?_, ?_⟩, ?_⟩
  · rintro ⟨t, ht⟩
    exact exists_inTurn_of_between ho hp hc ht hs hb
  · rintro ⟨ts, u, hrun⟩
    obtain ⟨t, ht, -⟩ := hrun.exists_between ho hp hc hs hb
    exact ⟨t, ht⟩
  · intro t ts u ht hrun
    obtain ⟨t', ht', hproj⟩ := hrun.exists_between ho hp hc hs hb
    obtain rfl := ht.unique ht'
    refine ⟨?_, hproj⟩
    rw [State.failed, hproj.failure]
    exact hrun.live_iff hs

end

/-- A letter, as a node that is still without a line. -/
def unplaced : Parser Element :=
  chain (fun letter => succeed (.ofNode ⟨"letter", letter⟩)) (literal "a")

theorem unplaced_independent : unplaced.Independent [] :=
  independent_of_actions
    (everyAction_chain_iff.2
      ⟨everyAction_literal "a", fun _ => everyAction_custom_iff.2 fun s _ => .single (.succeed s _)⟩)
    (everyAction_chain_iff.2 ⟨everyAction_literal "a", fun _ => actsIndependently_succeed _⟩) nofun

/-- The opening parser has produced a list of two tokens, to be spliced, and the closing one ends a
line behind the letter.  The result is the letter alone, and has the line of the end. -/
theorem between_projects_unplaced :
    ∃ (ts : List (State Element)) (t u : State Element),
      InTurn [] [and (literal "(") (literal "("), unplaced, and (literal "\n") (literal ")")]
          ((State.start (.ofString "é((a\n)")).advance 2 .absent) ts u ∧ ts.length = 3 ∧
        (between (and (literal "(") (literal "(")) (and (literal "\n") (literal ")"))
            unplaced).EndsAmid [] ((State.start (.ofString "é((a\n)")).advance 2 .absent) t ∧
        ((State.start (.ofString "é((a\n)")).advance 2 .absent).Projects ts u t ∧
        t.cursor = 7 ∧ t.result = .node ⟨"letter", .token "a"⟩ (some 2) := by
  obtain ⟨t, ht, hlive, hcursor, hresult⟩ : ∃ t : State Element,
      (between (and (literal "(") (literal "(")) (and (literal "\n") (literal ")"))
          unplaced).EndsAmid [] ((State.start (.ofString "é((a\n)")).advance 2 .absent) t ∧
        t.failed = false ∧ t.cursor = 7 ∧ t.result = .node ⟨"letter", .token "a"⟩ (some 2) :=
    ⟨((between (and (literal "(") (literal "(")) (and (literal "\n") (literal ")"))
        unplaced).runFrom 5 Scope.none
          ((State.start (.ofString "é((a\n)")).advance 2 .absent)).get (by decide +kernel),
      ⟨5, (Option.some_get _).symm⟩, by decide +kernel, by decide +kernel, by decide +kernel⟩
  obtain ⟨hends, hproj⟩ := between_projects
    (independent_of_actionless (p := and (literal "(") (literal "(")) (by simp))
    unplaced_independent
    (independent_of_actionless (p := and (literal "\n") (literal ")")) (by simp))
    (s := (State.start (.ofString "é((a\n)")).advance 2 .absent) rfl (State.onBoundary_advance _ _ _)
  obtain ⟨ts, u, hrun⟩ := hends.1 ⟨t, ht⟩
  obtain ⟨hall, hprojects⟩ := hproj t ts u ht hrun
  exact ⟨ts, t, u, hrun, hall.1 hlive, ht, hprojects, hcursor, hresult⟩

end Parser

end TextGrammar
