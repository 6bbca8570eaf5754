import TextGrammar.Proofs.Laws.Repetition

/-!
# Values and separators in turn

Like any repetition, one with separators gathers what a chain of turns produces that depends on the
input and on where it begins alone.

* `Parser.Alternation` — the chain of turns from an offset; there is one at most, and one in any case
  if value and separator always end.
* `Parser.Alternation.exists_takesTurns`, `Parser.TakesTurns.exists_alternation` — the turns of a
  repetition are such a chain, and the other way round.
* `Parser.separated_gathers` — so `separated` lists the results of the values, and stays behind the
  last separator.
-/

namespace TextGrammar.Parser

variable {ν : Type} {around : Surroundings ν} {value separator : Parser ν} {input : Input}
  {c q q' : Nat} {ts ts' : List (State ν)} {s s' t u : State ν} {g g' : Harvest ν}

/-! ## Chains of turns -/

/-- From the offset `c` of the input on, value and separator succeed in turn, each from where the one
before it ended, whatever was produced before the turn; the values end in the states `ts`.  That stops
at the offset `q`: where a value fails, where a separator fails behind a value, or where a value and
its separator have taken nothing. -/
inductive Alternation (around : Surroundings ν) (value separator : Parser ν) (input : Input) :
    Nat → List (State ν) → Nat → Prop where
  | stop {c : Nat} {t : State ν} (hvalue : value.EndsAmid around (.fresh input c) t)
      (ht : t.failed = true) : Alternation around value separator input c [] c
  | last {c : Nat} {t u : State ν} (hturn : Turn around value separator (.fresh input c) t u)
      (hu : u.failed = true) : Alternation around value separator input c [t] t.cursor
  | still {c : Nat} {t u : State ν} (hturn : Turn around value separator (.fresh input c) t u)
      (hu : u.failed = false) (hstill : u.cursor = c) :
      Alternation around value separator input c [t] c
  | next {c q : Nat} {t u : State ν} {ts : List (State ν)}
      (hturn : Turn around value separator (.fresh input c) t u) (hu : u.failed = false)
      (honward : c < u.cursor) (hrest : Alternation around value separator input u.cursor ts q) :
      Alternation around value separator input c (t :: ts) q

/-- **There is one chain of turns at most.** -/
theorem Alternation.unique (h : Alternation around value separator input c ts q)
    (h' : Alternation around value separator input c ts' q') : ts' = ts ∧ q' = q := by
  induction h generalizing ts' q' with
  | stop hvalue ht =>
    cases h' with
    | stop => exact ⟨rfl, rfl⟩
    | last hturn | still hturn | next hturn =>
      exact (hturn.value_ends.not_both hturn.live hvalue ht).elim
  | last hturn hu =>
    cases h' with
    | stop hvalue ht => exact (hturn.value_ends.not_both hturn.live hvalue ht).elim
    | last hturn' =>
      obtain ⟨rfl, rfl⟩ := hturn.unique hturn'
      exact ⟨rfl, rfl⟩
    | still hturn' hu' | next hturn' hu' =>
      obtain ⟨rfl, rfl⟩ := hturn.unique hturn'
      simp [hu] at hu'
  | still hturn hu hstill =>
    cases h' with
    | stop hvalue ht => exact (hturn.value_ends.not_both hturn.live hvalue ht).elim
    | last hturn' hu' =>
      obtain ⟨rfl, rfl⟩ := hturn.unique hturn'
      simp [hu] at hu'
    | still hturn' =>
      obtain ⟨rfl, rfl⟩ := hturn.unique hturn'
      exact ⟨rfl, rfl⟩
    | next hturn' _ honward =>
      obtain ⟨rfl, rfl⟩ := hturn.unique hturn'
      omega
  | next hturn hu honward _ ih =>
    cases h' with
    | stop hvalue ht => exact (hturn.value_ends.not_both hturn.live hvalue ht).elim
    | last hturn' hu' =>
      obtain ⟨rfl, rfl⟩ := hturn.unique hturn'
      simp [hu] at hu'
    | still hturn' _ hstill =>
      obtain ⟨rfl, rfl⟩ := hturn.unique hturn'
      omega
    | next hturn' _ _ hrest =>
      obtain ⟨rfl, rfl⟩ := hturn.unique hturn'
      obtain ⟨rfl, rfl⟩ := ih hrest
      exact ⟨rfl, rfl⟩

section

variable (hvalue : value.Independent around) (honward : value.Onward around)
  (hseparator : separator.Independent around) (honward' : separator.Onward around)

include hvalue honward hseparator honward'

/-- A turn does not go back. -/
theorem Turn.leads (h : Turn around value separator s t u) (hs : s.failed = false)
    (hb : s.OnBoundary) : s.LeadsTo false t ∧ t.LeadsTo false u := by
  have hled := honward.leads hvalue hs hb h.value_ends
  have hled' := honward'.leads hseparator (t.failed_collected.trans h.live)
    hled.collected.onBoundary h.separator_ends
  exact ⟨hled, hled.onBoundary.leadsTo_self.collected.trans hled'⟩

omit honward honward' in
/-- A turn depends on the place only, and not on what was produced before. -/
theorem Turn.exists_alike (h : Turn around value separator s t u) (hs : s.failed = false)
    (hs' : s'.failed = false) (hb : s.OnBoundary) (hplace : s.SamePlace s') :
    ∃ t' u', Turn around value separator s' t' u' ∧ t.SameOutcome t' ∧ u.SameOutcome u' := by
  obtain ⟨t', ht', hout⟩ := hvalue.alike s s' t hs hs' hb hplace h.value_ends
  have hlive : t'.failed = false := hout.failed_eq.symm.trans h.live
  have hplace' : t.collected.SamePlace t'.collected :=
    t.samePlace_collected.symm.trans (hout.toSamePlace.trans t'.samePlace_collected)
  have hb' := (hvalue.leads s t hs hb h.value_ends).collected.onBoundary
  obtain ⟨u', hu', hout'⟩ := hseparator.alike _ _ u (t.failed_collected.trans h.live)
    (t'.failed_collected.trans hlive) hb' hplace' h.separator_ends
  exact ⟨t', u', ⟨ht', hlive, hu'⟩, hout, hout'⟩

/-- **There is a chain of turns** if value and separator always end. -/
theorem exists_alternation (hends : value.EndsOver around input)
    (hends' : separator.EndsOver around input) (hb : Text.IsBoundary input.chars c) :
    ∃ ts q, Alternation around value separator input c ts q := by
  induction hn : input.size - c using Nat.strongRecOn generalizing c with
  | _ n ih =>
    have hb₀ : (State.fresh input c : State ν).OnBoundary := hb
    obtain ⟨t, ht⟩ := hends (.fresh input c) rfl hb₀ rfl
    cases hf : t.failed with
    | true => exact ⟨[], c, .stop ht hf⟩
    | false =>
      have hcollected := (honward.leads hvalue rfl hb₀ ht).collected
      obtain ⟨u, hu⟩ := hends' t.collected (t.failed_collected.trans hf) hcollected.onBoundary
        hcollected.input
      have hturn : Turn around value separator (.fresh input c) t u := ⟨ht, hf, hu⟩
      obtain ⟨hled, hled'⟩ := hturn.leads hvalue honward hseparator honward' rfl hb₀
      have hled := hled.trans hled'
      have hinput : u.input = input := hled.input
      cases hf' : u.failed with
      | true => exact ⟨[t], t.cursor, .last hturn hf'⟩
      | false =>
        rcases Nat.lt_or_eq_of_le (show c ≤ u.cursor from hled.onward rfl) with hlt | heq
        · have hend : u.cursor ≤ input.size := hinput ▸ hled.onBoundary.cursor_le
          have hb' : Text.IsBoundary input.chars u.cursor := hinput ▸ hled.onBoundary
          obtain ⟨ts, q, hrest⟩ := ih (input.size - u.cursor) (by omega) hb' rfl
          exact ⟨t :: ts, q, .next hturn hf' hlt hrest⟩
        · exact ⟨[t], c, .still hturn hf' heq.symm⟩

/-- **A repetition can do its turns** from any state at the place where the chain begins, whatever was
produced before. -/
theorem Alternation.exists_takesTurns (h : Alternation around value separator input c ts q)
    (hg : g.state.failed = false) (hb : g.state.OnBoundary)
    (hplace : (State.fresh input c).SamePlace g.state) :
    ∃ g', TakesTurns around value separator g g' ∧ g.Gains ts q g' := by
  induction h generalizing g with
  | @stop c t₀ ht₀ hf =>
    obtain ⟨t, ht, hout, hled⟩ := hvalue.exists_at hg hb hplace ht₀
    obtain rfl : c = g.state.cursor := hplace.cursor
    exact ⟨_, .stop ht (hout.failed_eq.symm.trans hf), .giveBack hb hled.input⟩
  | @last c t₀ u₀ hturn₀ hf =>
    obtain ⟨t, u, hturn, hout, hout'⟩ :=
      hturn₀.exists_alike hvalue hseparator rfl hg (hplace.onBoundary_iff.2 hb) hplace
    obtain ⟨hled, hled'⟩ := hturn.leads hvalue honward hseparator honward' hg hb
    have hback := Harvest.Gains.giveBack (g := g.add t) hled.collected.onBoundary
      (hled'.input.trans t.input_collected.symm)
    rw [Harvest.state_add, State.cursor_collected, ← hout.cursor] at hback
    exact ⟨_, hout.cursor ▸ .last hturn (hout'.failed_eq.symm.trans hf),
      hback.cons (by rw [Harvest.toList_add, hout.kept_eq hturn₀.live]) rfl hled.collected.input⟩
  | @still c t₀ u₀ hturn₀ hf hstill =>
    obtain ⟨t, u, hturn, hout, hout'⟩ :=
      hturn₀.exists_alike hvalue hseparator rfl hg (hplace.onBoundary_iff.2 hb) hplace
    obtain ⟨hled, hled'⟩ := hturn.leads hvalue honward hseparator honward' hg hb
    have hlive : u.failed = false := hout'.failed_eq.symm.trans hf
    have hcursor : u.cursor = c := hout'.cursor.symm.trans hstill
    have hdone := Harvest.Gains.refl (g := (g.add t).stop u) hlive hled'.onBoundary
    rw [Harvest.state_stop, hcursor] at hdone
    exact ⟨_, .still hturn hlive (hcursor.trans hplace.cursor),
      hdone.cons (by rw [Harvest.items_stop, Harvest.toList_add, hout.kept_eq hturn₀.live]) rfl
        (hled.trans hled').input⟩
  | @next c q t₀ u₀ ts hturn₀ hf hlt _ ih =>
    obtain ⟨t, u, hturn, hout, hout'⟩ :=
      hturn₀.exists_alike hvalue hseparator rfl hg (hplace.onBoundary_iff.2 hb) hplace
    obtain ⟨hled, hled'⟩ := hturn.leads hvalue honward hseparator honward' hg hb
    have hlive : u.failed = false := hout'.failed_eq.symm.trans hf
    have hne : u.cursor ≠ g.state.cursor := by
      rw [← hout'.cursor, ← hplace.cursor]
      exact Nat.ne_of_gt hlt
    have hplace' : (State.fresh input u₀.cursor).SamePlace ((g.add t).stop u).state :=
      ⟨hplace.input.trans (hled.trans hled').input.symm, hout'.cursor⟩
    obtain ⟨g', hg', hgains⟩ := ih (g := (g.add t).stop u) hlive hled'.onBoundary hplace'
    exact ⟨g', .next hturn hlive hne hg',
      hgains.cons (by rw [Harvest.items_stop, Harvest.toList_add, hout.kept_eq hturn₀.live]) rfl
        (hled.trans hled').input⟩

/-- **Where a repetition ends, its turns are a chain.** -/
theorem TakesTurns.exists_alternation (h : TakesTurns around value separator g g')
    (hg : g.state.failed = false) (hb : g.state.OnBoundary) :
    ∃ ts q, Alternation around value separator g.state.input g.state.cursor ts q := by
  induction h with
  | stop ht hf =>
    obtain ⟨t₀, ht₀, hout⟩ := hvalue.exists_fresh hg hb ht
    exact ⟨[], _, .stop ht₀ (hout.failed_eq.trans hf)⟩
  | last hturn hf =>
    obtain ⟨t₀, u₀, hturn₀, _, hout'⟩ :=
      hturn.exists_alike hvalue hseparator hg rfl hb (State.samePlace_fresh _)
    exact ⟨[t₀], _, .last hturn₀ (hout'.failed_eq.symm.trans hf)⟩
  | still hturn hf hstill =>
    obtain ⟨t₀, u₀, hturn₀, _, hout'⟩ :=
      hturn.exists_alike hvalue hseparator hg rfl hb (State.samePlace_fresh _)
    exact ⟨[t₀], _, .still hturn₀ (hout'.failed_eq.symm.trans hf) (hout'.cursor.symm.trans hstill)⟩
  | @next g g' t u hturn hf hne _ ih =>
    obtain ⟨t₀, u₀, hturn₀, _, hout'⟩ :=
      hturn.exists_alike hvalue hseparator hg rfl hb (State.samePlace_fresh _)
    obtain ⟨hled, hled'⟩ := hturn.leads hvalue honward hseparator honward' hg hb
    have hled := hled.trans hled'
    obtain ⟨ts, q, hrest⟩ := ih hf hled'.onBoundary
    have hlt : g.state.cursor < u₀.cursor := by
      rw [← hout'.cursor]
      exact Nat.lt_of_le_of_ne (hled.onward rfl) hne.symm
    rw [Harvest.state_stop, hled.input, hout'.cursor] at hrest
    exact ⟨t₀ :: ts, q, .next hturn₀ (hout'.failed_eq.symm.trans hf) hlt hrest⟩

/-! ## Values with separators between them -/

/-- Where there is a chain of turns, a repetition ends, however many values it is to have, and has
gathered what the values produce. -/
theorem Alternation.exists_separated (h : Alternation around value separator s.input s.cursor ts q)
    (hs : s.failed = false) (hb : s.OnBoundary) :
    ∃ g, (Harvest.start s).Gains ts q g ∧ ∀ least,
      (separated least value separator).EndsAmid around s (if ts.length < least then
          (g.state.rewind s.cursor).fail
            (.tooFewSeparated least value.label separator.label g.state.rest)
        else g.succeed) := by
  obtain ⟨g, hg, hgains⟩ := h.exists_takesTurns hvalue honward hseparator honward' (g := .start s)
    hs hb s.samePlace_fresh.symm
  have hcount : g.count = ts.length := hgains.count.trans (Nat.zero_add _)
  refine ⟨g, hgains, fun least => (endsAmid_separated_iff hs).2 ⟨g, hg, ?_⟩⟩
  rw [hcount]

theorem exists_separated_iff (hs : s.failed = false) (hb : s.OnBoundary) (least : Nat) :
    (∃ t, (separated least value separator).EndsAmid around s t) ↔
      ∃ ts q, Alternation around value separator s.input s.cursor ts q := by
  constructor
  · rintro ⟨t, ht⟩
    obtain ⟨g, hg, _⟩ := (endsAmid_separated_iff hs).1 ht
    exact hg.exists_alternation hvalue honward hseparator honward' (g := .start s) hs hb
  · rintro ⟨ts, q, h⟩
    obtain ⟨g, _, ht⟩ := h.exists_separated hvalue honward hseparator honward' hs hb
    exact ⟨_, ht least⟩

/-- **A repetition with separators gathers the results of the values in the longest chain of turns.**
From every state there is one chain at most, and one if value and separator always end; the repetition
ends if there is one, and fails if and only if that has too few values.  Then it gives up where it
began.  Else it lists the results of the values that are not to be ignored, and is where the chain has
stopped: behind the last value if no separator follows, and else behind the last separator. -/
theorem separated_gathers (hs : s.failed = false) (hb : s.OnBoundary) :
    (value.EndsOver around s.input → separator.EndsOver around s.input →
      ∃ ts q, Alternation around value separator s.input s.cursor ts q) ∧
    (∀ least, (∃ t, (separated least value separator).EndsAmid around s t) ↔
      ∃ ts q, Alternation around value separator s.input s.cursor ts q) ∧
    ∀ ts q, Alternation around value separator s.input s.cursor ts q →
      (∀ ts' q', Alternation around value separator s.input s.cursor ts' q' → ts' = ts ∧ q' = q) ∧
      ∀ least t, (separated least value separator).EndsAmid around s t →
        (t.failed = true ↔ ts.length < least) ∧
        (t.failed = true → s.GivesUp .repetitionUnsatisfied t) ∧
        (t.failed = false → t.cursor = q ∧ t.disposition = .keep ∧
          t.result = .list (ts.flatMap State.kept)) := by
  refine ⟨fun hends hends' =>
      exists_alternation hvalue honward hseparator honward' hends hends' hb,
    exists_separated_iff hvalue honward hseparator honward' hs hb,
    fun ts q h => ⟨fun ts' q' h' => h.unique h', fun least t ht => ?_⟩⟩
  obtain ⟨g, hgains, hends⟩ := h.exists_separated hvalue honward hseparator honward' hs hb
  obtain rfl := ht.unique (hends least)
  by_cases hfew : ts.length < least
  · rw [if_pos hfew]
    refine ⟨⟨fun _ => hfew, fun _ => rfl⟩, fun _ => ?_, nofun⟩
    exact hb.givesUp_rewind hgains.input
      (.tooFewSeparated least value.label separator.label g.state.rest)
  · rw [if_neg hfew]
    have hplace : g.state.SamePlace g.succeed := Harvest.samePlace_succeed hgains.onBoundary ⟨rfl, rfl⟩
    exact ⟨⟨nofun, fun h => absurd h hfew⟩, nofun,
      fun _ => ⟨hplace.cursor.symm.trans hgains.cursor, rfl, congrArg Value.list hgains.items⟩⟩

end

/-- A letter, another one that is to be left out, or two letters in order. -/
def piece : Parser Element :=
  or (literal "a") (or (ignore (literal "b")) (and (literal "c") (literal "d")))

theorem piece_actionless : piece.EveryAction fun _ => False := by simp [piece, ignore]

/-- The second of two values is left out and counted.  Behind the last separator, a third one has been
given up half way, and so the separator stays. -/
theorem separated_gathers_pieces :
    ∃ (ts : List (State Element)) (t t' : State Element),
      Alternation [] piece comma (.ofString "éa,b,cx") 2 ts 6 ∧ ts.length = 2 ∧
        (separated 2 piece comma).EndsAmid [] ((State.start (.ofString "éa,b,cx")).advance 2 .absent) t ∧
        t.cursor = 6 ∧ t.result = .list [.token "a"] ∧
        (separated 3 piece comma).EndsAmid []
          ((State.start (.ofString "éa,b,cx")).advance 2 .absent) t' ∧
        ((State.start (.ofString "éa,b,cx")).advance 2 .absent).GivesUp .repetitionUnsatisfied t' := by
  have hs : ((State.start (.ofString "éa,b,cx")).advance 2 .absent : State Element).cursor = 2 := by
    decide +kernel
  obtain ⟨t, ht, hlive, hcursor, hresult⟩ : ∃ t : State Element,
      (separated 2 piece comma).EndsAmid []
          ((State.start (.ofString "éa,b,cx")).advance 2 .absent) t ∧
        t.failed = false ∧ t.cursor = 6 ∧ t.result = .list [.token "a"] :=
    ⟨((separated 2 piece comma).runFrom 5 Scope.none
        ((State.start (.ofString "éa,b,cx")).advance 2 .absent)).get (by decide +kernel),
      ⟨5, (Option.some_get _).symm⟩, by decide +kernel, by decide +kernel, by decide +kernel⟩
  obtain ⟨t', ht', hf⟩ : ∃ t' : State Element,
      (separated 3 piece comma).EndsAmid []
          ((State.start (.ofString "éa,b,cx")).advance 2 .absent) t' ∧ t'.failed = true :=
    ⟨((separated 3 piece comma).runFrom 5 Scope.none
        ((State.start (.ofString "éa,b,cx")).advance 2 .absent)).get (by decide +kernel),
      ⟨5, (Option.some_get _).symm⟩, by decide +kernel⟩
  obtain ⟨_, hends, hgathers⟩ := separated_gathers (independent_of_actionless piece_actionless)
    (onward_of_actionless piece_actionless) (independent_of_actionless (everyAction_literal ","))
    (onward_of_actionless (everyAction_literal ","))
    (s := (State.start (.ofString "éa,b,cx")).advance 2 .absent) rfl (State.onBoundary_advance _ _ _)
  obtain ⟨ts, q, hchain⟩ := (hends 2).1 ⟨t, ht⟩
  obtain ⟨_, hboth⟩ := hgathers ts q hchain
  obtain ⟨henough, _, hdone⟩ := hboth 2 t ht
  obtain ⟨hfew, hgives, _⟩ := hboth 3 t' ht'
  have hlength : ts.length = 2 := by
    have hge : ¬ ts.length < 2 := fun h => by simp [henough.2 h] at hlive
    have hlt : ts.length < 3 := hfew.1 hf
    omega
  rw [hs, ← (hdone hlive).1, hcursor] at hchain
  exact ⟨ts, t, t', hchain, hlength, ht, hcursor, hresult, ht', hgives hf⟩

end TextGrammar.Parser
