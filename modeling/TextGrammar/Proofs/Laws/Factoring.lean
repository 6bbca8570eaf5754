import TextGrammar.Element
import TextGrammar.Proofs.Laws.Basic

/-!
# Left factoring

A choice of two sequences that begin alike is a sequence that ends in a choice.  The first spelling
goes back to the start between its branches and runs what they have in common again; the second one
goes back to behind it.

* `Parser.exists_and_again` — the common beginning, run again from where it was run before.
* `Parser.exists_or_of_factored`, `Parser.exists_factored_of_or` — each of the two spellings ends
  where the other one does.
* `Parser.or_and_and_agree` — so they succeed alike.
-/

namespace TextGrammar.Parser

variable {ν : Type} {around : Surroundings ν} {a b c : Parser ν} {s s' t u r w : State ν}

/-- Where `a` has succeeded and then `c` has ended in `w`, both run again from the same place end as
`w` tells, whatever has been run in between. -/
theorem exists_and_again (ha : a.Independent around) (hc : c.Independent around)
    (hs : s.failed = false) (hs' : s'.failed = false) (hb : s.OnBoundary) (hplace : s.SamePlace s')
    (hu : a.EndsAmid around s u) (huf : u.failed = false) (hr : r.failed = false)
    (hplace' : u.SamePlace r) (hw : c.EndsAmid around r w) :
    ∃ t, (and a c).EndsAmid around s' t ∧ t.failed = w.failed ∧
      (w.failed = false → (u.joined w).SameOutcome t) := by
  obtain ⟨u', hu', hout⟩ := ha.alike s s' u hs hs' hb hplace hu
  have huf' : u'.failed = false := hout.failed_eq.symm.trans huf
  have hbu : u.OnBoundary := (ha.leads s u hs hb hu).onBoundary
  have hagain : r.SamePlace u'.collected :=
    hplace'.symm.trans (hout.toSamePlace.trans u'.samePlace_collected)
  obtain ⟨w', hw', hout'⟩ := hc.alike r u'.collected w hr (u'.failed_collected.trans huf')
    (hplace'.onBoundary_iff.1 hbu) hagain hw
  obtain ⟨t, ht, htf, hjoined⟩ := hu'.exists_and hs' huf' hw'
  refine ⟨t, ht, htf.trans hout'.failed_eq.symm, fun hwf => ?_⟩
  rw [hjoined (hout'.failed_eq.symm.trans hwf)]
  exact hout.joined huf hout' hwf

/-- Where `a` has succeeded in `u`, and `b` failed behind it, what `c` does there decides also for
the choice in which `a` is run again. -/
theorem exists_or_of_second (ha : a.Independent around) (hb : b.Independent around)
    (hc : c.Independent around) (hs : s.failed = false) (hbound : s.OnBoundary)
    (hu : a.EndsAmid around s u) (huf : u.failed = false) (hr : b.EndsAmid around u.collected r)
    (hrf : r.failed = true) (hw : c.EndsAmid around (r.rewind u.collected.cursor) w) :
    ∃ t, (or (and a b) (and a c)).EndsAmid around s t ∧ t.failed = w.failed ∧
      (w.failed = false → (u.joined w).SameOutcome t) := by
  have hled : s.LeadsTo true u := ha.leads s u hs hbound hu
  have hled' : u.collected.LeadsTo true r :=
    hb.leads _ r (u.failed_collected.trans huf) hled.collected.onBoundary hr
  have hinput : r.input = s.input := hled'.input.trans hled.collected.input
  have hleft : (and a b).EndsAmid around s r :=
    (endsAmid_and_iff hs).2 (.inr (.inl ⟨u, hu, huf, hr, hrf⟩))
  have hback : u.SamePlace (r.rewind u.collected.cursor) :=
    u.samePlace_collected.trans (hled.collected.onBoundary.samePlace_rewind hled'.input)
  obtain ⟨v, hv, hvf, hout⟩ := exists_and_again ha hc hs (r.failed_rewind s.cursor) hbound
    (hbound.samePlace_rewind hinput) hu huf (r.failed_rewind u.collected.cursor) hback hw
  obtain ⟨t, ht, htf, heq⟩ := hleft.exists_or hs hrf hv
  refine ⟨t, ht, htf.trans hvf, fun hwf => ?_⟩
  rw [heq (hvf.trans hwf)]
  exact hout hwf

/-- **Where the factored spelling ends, the other one does**, and succeeds if it does, with the same
outcome. -/
theorem exists_or_of_factored (ha : a.Independent around) (hb : b.Independent around)
    (hc : c.Independent around) (hs : s.failed = false) (hbound : s.OnBoundary)
    (ht : (and a (or b c)).EndsAmid around s t) :
    ∃ t', (or (and a b) (and a c)).EndsAmid around s t' ∧ t'.failed = t.failed ∧
      (t.failed = false → t.SameOutcome t') := by
  -- once `a` has succeeded, what the inner choice does decides
  have goesOn {u w : State ν} (hu : a.EndsAmid around s u) (huf : u.failed = false)
      (hw : (or b c).EndsAmid around u.collected w) :
      ∃ t', (or (and a b) (and a c)).EndsAmid around s t' ∧ t'.failed = w.failed ∧
        (w.failed = false → (u.joined w).SameOutcome t') := by
    rcases (endsAmid_or_iff (u.failed_collected.trans huf)).1 hw with
      ⟨hbw, hwf⟩ | ⟨r, hr, hrf, hcw, hwf⟩ | ⟨r, v, hr, hrf, hcv, hvf, rfl⟩
    · obtain ⟨t', ht', htf, heq⟩ := hu.exists_and hs huf hbw
      refine ⟨t', (endsAmid_or_iff hs).2 (.inl ⟨ht', htf.trans hwf⟩), htf, fun _ => ?_⟩
      rw [heq hwf]
      exact .refl _
    · exact exists_or_of_second ha hb hc hs hbound hu huf hr hrf hcw
    · obtain ⟨t', ht', htf, _⟩ := exists_or_of_second ha hb hc hs hbound hu huf hr hrf hcv
      exact ⟨t', ht', htf.trans hvf, nofun⟩
  rcases (endsAmid_and_iff hs).1 ht with
    ⟨hat, hf⟩ | ⟨u, hu, huf, hw, hf⟩ | ⟨u, w, hu, huf, hw, hwf, rfl⟩
  · -- `a` fails, and does so again
    have hback := hbound.samePlace_rewind (ha.leads s t hs hbound hat).input
    obtain ⟨v, hv, hout⟩ := ha.alike s _ t hs (t.failed_rewind s.cursor) hbound hback hat
    have hvf : v.failed = true := hout.failed_eq.symm.trans hf
    have hleft : (and a b).EndsAmid around s t := (endsAmid_and_iff hs).2 (.inl ⟨hat, hf⟩)
    have hright : (and a c).EndsAmid around (t.rewind s.cursor) v :=
      (endsAmid_and_iff (t.failed_rewind s.cursor)).2 (.inl ⟨hv, hvf⟩)
    obtain ⟨t', ht', htf, _⟩ := hleft.exists_or hs hf hright
    refine ⟨t', ht', htf.trans (hvf.trans hf.symm), fun hf' => ?_⟩
    simp [hf] at hf'
  · obtain ⟨t', ht', htf, _⟩ := goesOn hu huf hw
    refine ⟨t', ht', htf, fun hf' => ?_⟩
    simp [hf] at hf'
  · obtain ⟨t', ht', htf, hout⟩ := goesOn hu huf hw
    exact ⟨t', ht', htf.trans hwf, fun _ => hout hwf⟩

/-- Where `a` has succeeded in `u`, and `b` failed behind it, `c` ends behind it if it does so behind
`a` in another run. -/
theorem exists_factored_of_second (ha : a.Independent around) (hb : b.Independent around)
    (hc : c.Independent around) (hs : s.failed = false) (hbound : s.OnBoundary)
    (hu : a.EndsAmid around s u) (huf : u.failed = false) (hr : b.EndsAmid around u.collected r)
    (hrf : r.failed = true) (hw : (and a c).EndsAmid around (r.rewind s.cursor) w) :
    ∃ t, (and a (or b c)).EndsAmid around s t := by
  have huf₀ : u.collected.failed = false := u.failed_collected.trans huf
  have hled : s.LeadsTo true u := ha.leads s u hs hbound hu
  have hled' : u.collected.LeadsTo true r := hb.leads _ r huf₀ hled.collected.onBoundary hr
  have hback := hbound.samePlace_rewind (hled'.input.trans hled.collected.input)
  have hback' := hled.collected.onBoundary.samePlace_rewind hled'.input
  obtain ⟨u', hu', hout⟩ := ha.alike s _ u hs (r.failed_rewind s.cursor) hbound hback hu
  have huf' : u'.failed = false := hout.failed_eq.symm.trans huf
  obtain ⟨v, hv⟩ : ∃ v, c.EndsAmid around u'.collected v := by
    rcases (endsAmid_and_iff (r.failed_rewind s.cursor)).1 hw with
      ⟨haw, hwf⟩ | ⟨x, hx, _, hcw, _⟩ | ⟨x, v, hx, _, hcv, _⟩
    · obtain rfl := hu'.unique haw
      simp [huf'] at hwf
    · obtain rfl := hu'.unique hx
      exact ⟨w, hcw⟩
    · obtain rfl := hu'.unique hx
      exact ⟨v, hcv⟩
  have hplace : u.collected.SamePlace u'.collected :=
    u.samePlace_collected.symm.trans (hout.toSamePlace.trans u'.samePlace_collected)
  obtain ⟨v', hv', _⟩ := hc.alike _ _ v (u'.failed_collected.trans huf')
    (r.failed_rewind u.collected.cursor) (hplace.onBoundary_iff.1 hled.collected.onBoundary)
    (hplace.symm.trans hback') hv
  obtain ⟨x, hx, _⟩ := hr.exists_or huf₀ hrf hv'
  obtain ⟨t, ht, _⟩ := hu.exists_and hs huf hx
  exact ⟨t, ht⟩

/-- **Where the other spelling ends, the factored one does.** -/
theorem exists_factored_of_or (ha : a.Independent around) (hb : b.Independent around)
    (hc : c.Independent around) (hs : s.failed = false) (hbound : s.OnBoundary)
    (ht : (or (and a b) (and a c)).EndsAmid around s t) :
    ∃ t', (and a (or b c)).EndsAmid around s t' := by
  -- after the first branch has failed, the second one is run, whether it succeeds or fails
  have goesOn {r w : State ν} (hr : (and a b).EndsAmid around s r) (hrf : r.failed = true)
      (hw : (and a c).EndsAmid around (r.rewind s.cursor) w) :
      ∃ t', (and a (or b c)).EndsAmid around s t' := by
    rcases (endsAmid_and_iff hs).1 hr with
      ⟨har, _⟩ | ⟨u, hu, huf, hbr, _⟩ | ⟨_, _, _, _, _, _, rfl⟩
    · exact ⟨r, (endsAmid_and_iff hs).2 (.inl ⟨har, hrf⟩)⟩
    · exact exists_factored_of_second ha hb hc hs hbound hu huf hbr hrf hw
    · cases hrf
  rcases (endsAmid_or_iff hs).1 ht with ⟨hab, hf⟩ | ⟨r, hr, hrf, hw, _⟩ | ⟨r, w, hr, hrf, hw, _⟩
  · rcases (endsAmid_and_iff hs).1 hab with
      ⟨_, hf'⟩ | ⟨_, _, _, _, hf'⟩ | ⟨u, w, hu, huf, hw, hwf, _⟩
    · simp [hf] at hf'
    · simp [hf] at hf'
    · have hor : (or b c).EndsAmid around u.collected w :=
        (endsAmid_or_iff (u.failed_collected.trans huf)).2 (.inl ⟨hw, hwf⟩)
      obtain ⟨t', ht', _⟩ := hu.exists_and hs huf hor
      exact ⟨t', ht'⟩
  · exact goesOn hr hrf hw
  · exact goesOn hr hrf hw

/-- **Left factoring is sound.**  A choice of two sequences that begin with the same parser ends and
succeeds where the parser and behind it a choice of the rests do, and with the same list, to be
spliced, at the same place, however the results of the three are to be collected. -/
theorem or_and_and_agree (ha : a.Independent around) (hb : b.Independent around)
    (hc : c.Independent around) (hs : s.failed = false) (hbound : s.OnBoundary) :
    ((∃ t, (or (and a b) (and a c)).EndsAmid around s t) ↔
      ∃ t', (and a (or b c)).EndsAmid around s t') ∧
    ∀ t t', (or (and a b) (and a c)).EndsAmid around s t → (and a (or b c)).EndsAmid around s t' →
      (t.failed = false ↔ t'.failed = false) ∧
      (t.failed = false → t.cursor = t'.cursor ∧
        (∃ items, t.result = .list items ∧ t'.result = .list items) ∧
        t.disposition = .splice ∧ t'.disposition = .splice) := by
  refine ⟨⟨?_, ?_⟩, fun t t' ht ht' => ?_⟩
  · rintro ⟨t, ht⟩
    exact exists_factored_of_or ha hb hc hs hbound ht
  · rintro ⟨t', ht'⟩
    obtain ⟨t, ht, _⟩ := exists_or_of_factored ha hb hc hs hbound ht'
    exact ⟨t, ht⟩
  · obtain ⟨u, hu, huf, hout⟩ := exists_or_of_factored ha hb hc hs hbound ht'
    obtain rfl := ht.unique hu
    refine ⟨by rw [huf], fun hf => ?_⟩
    have hf' : t'.failed = false := huf.symm.trans hf
    have hsame := hout hf'
    obtain ⟨hd, hresult⟩ := result_of_endsAmid_and hs ht' hf'
    exact ⟨hsame.cursor.symm, ⟨t'.spliced, (hsame.result hf').symm.trans hresult, hresult⟩,
      (hsame.disposition hf').symm.trans hd, hd⟩

/-- Behind a sign of two bytes, the first branch fails two bytes behind what the branches have in
common, and the second one goes on from there with a list; what they have in common is spliced. -/
theorem or_and_and_agree_of_pair :
    ∃ t t' : State Element,
      (or (and (and (literal "a") (ignore comma)) (and (literal "b") (literal "x")))
          (and (and (literal "a") (ignore comma)) (many 0 (literal "b")))).EndsAmid []
            ((State.start (.ofString "éa,bb")).advance 2 .absent) t ∧
        (and (and (literal "a") (ignore comma))
          (or (and (literal "b") (literal "x")) (many 0 (literal "b")))).EndsAmid []
            ((State.start (.ofString "éa,bb")).advance 2 .absent) t' ∧
        t.failed = false ∧ t'.failed = false ∧ t.cursor = t'.cursor ∧
        t.result = .list [.token "a", .list [.token "b", .token "b"]] ∧
        t'.result = .list [.token "a", .list [.token "b", .token "b"]] := by
  obtain ⟨hends, hagree⟩ := or_and_and_agree
    (independent_of_actionless (p := and (literal "a") (ignore comma)) (by simp [ignore, comma]))
    (independent_of_actionless (p := and (literal "b") (literal "x")) (by simp))
    (independent_of_actionless (p := many 0 (literal "b")) (by simp))
    (s := (State.start (.ofString "éa,bb")).advance 2 .absent) rfl (State.onBoundary_advance _ _ _)
  obtain ⟨t, ht, hf, hresult⟩ : ∃ t : State Element,
      (or (and (and (literal "a") (ignore comma)) (and (literal "b") (literal "x")))
          (and (and (literal "a") (ignore comma)) (many 0 (literal "b")))).EndsAmid []
            ((State.start (.ofString "éa,bb")).advance 2 .absent) t ∧
        t.failed = false ∧ t.result = .list [.token "a", .list [.token "b", .token "b"]] :=
    ⟨((or (and (and (literal "a") (ignore comma)) (and (literal "b") (literal "x")))
        (and (and (literal "a") (ignore comma)) (many 0 (literal "b")))).runFrom 3 Scope.none
          ((State.start (.ofString "éa,bb")).advance 2 .absent)).get (by decide +kernel),
      ⟨3, (Option.some_get _).symm⟩, by decide +kernel, by decide +kernel⟩
  obtain ⟨t', ht'⟩ := hends.1 ⟨t, ht⟩
  obtain ⟨hiff, hsame⟩ := hagree t t' ht ht'
  obtain ⟨hcursor, ⟨items, hitems, hitems'⟩, _⟩ := hsame hf
  exact ⟨t, t', ht, ht', hf, hiff.1 hf, hcursor, hresult,
    hitems'.trans (hitems.symm.trans hresult)⟩

end TextGrammar.Parser
