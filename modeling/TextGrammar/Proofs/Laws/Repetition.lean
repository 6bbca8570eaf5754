import TextGrammar.Element
import TextGrammar.Proofs.Laws.Basic
import TextGrammar.Proofs.Parser.Repetition

/-!
# Repetitions

A repetition gathers what its parser produces in a chain of rounds that depends on the input and on
where it begins alone, and that goes on for as long as it can.

* `Parser.Rounds` — the chain of rounds from an offset; there is one at most, and one in any case if
  the parser always ends.
* `Parser.Rounds.exists_repeats`, `Parser.Repeats.exists_rounds` — the rounds of a repetition are such
  a chain, and the other way round.
* `Parser.many_gathers` — so `zeroOrMore` and `oneOrMore` list the results of the chain.
* `Parser.EndsBeside` — how a repetition up to the end of the input ends, seen from where the same
  rounds stop that may stop anywhere.
* `Parser.all_agrees` — so `all` is `zeroOrMore` with a check for the end of the input.
-/

namespace TextGrammar

variable {ν : Type}

/-! ## Gains -/

theorem State.kept_eq_nil_or (t : State ν) : t.kept = [] ∨ t.kept = [t.result] := by
  cases h : t.disposition <;> simp [kept, h]

/-- To list what has been gathered moves nothing. -/
theorem Harvest.samePlace_succeed {s : State ν} {g : Harvest ν} (hb : s.OnBoundary)
    (hplace : s.SamePlace g.state) : s.SamePlace g.succeed :=
  hplace.trans ((hplace.onBoundary_iff.1 hb).samePlace_succeed _)

/-- What has been gathered in `g` becomes `g'` by rounds that end in the states `ts`, up to the offset
`q`. -/
structure Harvest.Gains (ts : List (State ν)) (q : Nat) (g g' : Harvest ν) : Prop where
  items : g'.items.toList = g.items.toList ++ ts.flatMap State.kept
  count : g'.count = g.count + ts.length
  live : g'.state.failed = false
  input : g'.state.input = g.state.input
  cursor : g'.state.cursor = q
  onBoundary : g'.state.OnBoundary

namespace Harvest.Gains

variable {g g₁ g' : Harvest ν} {ts : List (State ν)} {t u : State ν} {q : Nat}

theorem refl (hg : g.state.failed = false) (hb : g.state.OnBoundary) :
    g.Gains [] g.state.cursor g :=
  ⟨(List.append_nil _).symm, rfl, hg, rfl, rfl, hb⟩

/-- A round that fails gives back what it has taken. -/
theorem giveBack (hb : g.state.OnBoundary) (hinput : t.input = g.state.input) :
    g.Gains [] g.state.cursor (g.stop (t.rewind g.state.cursor)) := by
  have hback := hb.samePlace_rewind hinput
  exact ⟨(List.append_nil _).symm, rfl, rfl, hinput, hback.cursor.symm, hback.onBoundary_iff.1 hb⟩

/-- One round more in front. -/
theorem cons (h : g₁.Gains ts q g') (hitems : g₁.items.toList = g.items.toList ++ u.kept)
    (hcount : g₁.count = g.count + 1) (hinput : g₁.state.input = g.state.input) :
    g.Gains (u :: ts) q g' where
  items := by rw [h.items, hitems, List.flatMap_cons, List.append_assoc]
  count := by rw [h.count, hcount, List.length_cons]; omega
  live := h.live
  input := h.input.trans hinput
  cursor := h.cursor
  onBoundary := h.onBoundary

end Harvest.Gains

namespace Parser

variable {around : Surroundings ν} {p : Parser ν} {input : Input} {c q q' : Nat}
  {ts ts' : List (State ν)} {s t m : State ν} {g g' : Harvest ν}

/-! ## Chains of rounds -/

/-- From the offset `c` of the input on, the parser succeeds again and again in the states `ts`, each
time from where it ended before, whatever was produced there.  That stops at the offset `q`, where it
fails or where a success has taken nothing. -/
inductive Rounds (around : Surroundings ν) (p : Parser ν) (input : Input) :
    Nat → List (State ν) → Nat → Prop where
  | stop {c : Nat} {t : State ν} (hp : p.EndsAmid around (.fresh input c) t)
      (ht : t.failed = true) : Rounds around p input c [] c
  | still {c : Nat} {t : State ν} (hp : p.EndsAmid around (.fresh input c) t)
      (ht : t.failed = false) (hstill : t.cursor = c) : Rounds around p input c [t] c
  | next {c q : Nat} {t : State ν} {ts : List (State ν)}
      (hp : p.EndsAmid around (.fresh input c) t) (ht : t.failed = false) (honward : c < t.cursor)
      (hrest : Rounds around p input t.cursor ts q) : Rounds around p input c (t :: ts) q

/-- **There is one chain of rounds at most.** -/
theorem Rounds.unique (h : Rounds around p input c ts q) (h' : Rounds around p input c ts' q') :
    ts' = ts ∧ q' = q := by
  induction h generalizing ts' q' with
  | stop hp ht =>
    cases h' with
    | stop => exact ⟨rfl, rfl⟩
    | still hp' ht' | next hp' ht' => exact (hp'.not_both ht' hp ht).elim
  | still hp ht hstill =>
    cases h' with
    | stop hp' ht' => exact (hp.not_both ht hp' ht').elim
    | still hp' =>
      obtain rfl := hp.unique hp'
      exact ⟨rfl, rfl⟩
    | next hp' _ honward =>
      obtain rfl := hp.unique hp'
      omega
  | next hp ht honward _ ih =>
    cases h' with
    | stop hp' ht' => exact (hp.not_both ht hp' ht').elim
    | still hp' _ hstill =>
      obtain rfl := hp.unique hp'
      omega
    | next hp' _ _ hrest =>
      obtain rfl := hp.unique hp'
      obtain ⟨rfl, rfl⟩ := ih hrest
      exact ⟨rfl, rfl⟩

/-- **There is a chain of rounds** if the parser always ends: each round that is not the last one
leaves less of the input. -/
theorem exists_rounds (hp : p.Independent around) (honward : p.Onward around)
    (hends : p.EndsOver around input) (hb : Text.IsBoundary input.chars c) :
    ∃ ts q, Rounds around p input c ts q := by
  induction hn : input.size - c using Nat.strongRecOn generalizing c with
  | _ n ih =>
    have hb' : (State.fresh input c : State ν).OnBoundary := hb
    obtain ⟨t, ht⟩ := hends (.fresh input c) rfl hb' rfl
    have hled := honward.leads hp rfl hb' ht
    have hinput : t.input = input := hled.input
    cases hf : t.failed with
    | true => exact ⟨[], c, .stop ht hf⟩
    | false =>
      rcases Nat.lt_or_eq_of_le (show c ≤ t.cursor from hled.onward rfl) with hlt | heq
      · have hend : t.cursor ≤ input.size := hinput ▸ hled.onBoundary.cursor_le
        have hbt : Text.IsBoundary input.chars t.cursor := hinput ▸ hled.onBoundary
        obtain ⟨ts, q, hrest⟩ := ih (input.size - t.cursor) (by omega) hbt rfl
        exact ⟨t :: ts, q, .next ht hf hlt hrest⟩
      · exact ⟨[t], c, .still ht hf heq.symm⟩

/-- **A repetition can do its rounds** from any state at the place where the chain begins, whatever was
produced before. -/
theorem Rounds.exists_repeats (h : Rounds around p input c ts q) (hp : p.Independent around)
    (hg : g.state.failed = false) (hb : g.state.OnBoundary)
    (hplace : (State.fresh input c).SamePlace g.state) :
    ∃ g', Repeats around p g g' ∧ g.Gains ts q g' := by
  induction h generalizing g with
  | @stop c u hu hf =>
    obtain ⟨t, ht, hout, hled⟩ := hp.exists_at hg hb hplace hu
    obtain rfl : c = g.state.cursor := hplace.cursor
    exact ⟨_, .stop ht (hout.failed_eq.symm.trans hf), .giveBack hb hled.input⟩
  | @still c u hu hf hstill =>
    obtain ⟨t, ht, hout, hled⟩ := hp.exists_at hg hb hplace hu
    have hft : t.failed = false := hout.failed_eq.symm.trans hf
    have hcursor : t.cursor = c := hout.cursor.symm.trans hstill
    refine ⟨g.add t, .still ht hft (hcursor.trans hplace.cursor), ?_⟩
    have hadded := Harvest.Gains.refl (g := g.add t) (t.failed_collected.trans hft)
      hled.collected.onBoundary
    rw [Harvest.state_add, State.cursor_collected, hcursor] at hadded
    exact hadded.cons (by rw [Harvest.toList_add, hout.kept_eq hf]) rfl hled.collected.input
  | @next c q u ts hu hf honward _ ih =>
    obtain ⟨t, ht, hout, hled⟩ := hp.exists_at hg hb hplace hu
    have hft : t.failed = false := hout.failed_eq.symm.trans hf
    have hne : t.cursor ≠ g.state.cursor := by
      rw [← hout.cursor, ← hplace.cursor]
      exact Nat.ne_of_gt honward
    have hplace' : (State.fresh input u.cursor).SamePlace (g.add t).state :=
      ⟨hplace.input.trans hled.collected.input.symm,
        hout.cursor.trans t.cursor_collected.symm⟩
    obtain ⟨g', hg', hgains⟩ := ih (g := g.add t) (t.failed_collected.trans hft)
      hled.collected.onBoundary hplace'
    exact ⟨g', .next ht hft hne hg',
      hgains.cons (by rw [Harvest.toList_add, hout.kept_eq hf]) rfl hled.collected.input⟩

/-- **Where a repetition ends, its rounds are a chain.** -/
theorem Repeats.exists_rounds (h : Repeats around p g g') (hp : p.Independent around)
    (honward : p.Onward around) (hg : g.state.failed = false) (hb : g.state.OnBoundary) :
    ∃ ts q, Rounds around p g.state.input g.state.cursor ts q := by
  induction h with
  | stop ht hf =>
    obtain ⟨u, hu, hout⟩ := hp.exists_fresh hg hb ht
    exact ⟨[], _, .stop hu (hout.failed_eq.trans hf)⟩
  | still ht hf hstill =>
    obtain ⟨u, hu, hout⟩ := hp.exists_fresh hg hb ht
    exact ⟨[u], _, .still hu (hout.failed_eq.trans hf) (hout.cursor.trans hstill)⟩
  | @next g g' t ht hf hne _ ih =>
    obtain ⟨u, hu, hout⟩ := hp.exists_fresh hg hb ht
    have hled := honward.leads hp hg hb ht
    obtain ⟨ts, q, hrest⟩ := ih (t.failed_collected.trans hf) hled.collected.onBoundary
    have hlt : g.state.cursor < u.cursor := by
      rw [hout.cursor]
      exact Nat.lt_of_le_of_ne (hled.onward rfl) hne.symm
    rw [Harvest.state_add, State.input_collected, State.cursor_collected, hled.input,
      ← hout.cursor] at hrest
    exact ⟨u :: ts, q, .next hu (hout.failed_eq.trans hf) hlt hrest⟩

/-! ## Any number of rounds -/

/-- Where there is a chain of rounds, a repetition ends, however often it is to succeed, and has
gathered what the rounds produce. -/
theorem Rounds.exists_many (h : Rounds around p s.input s.cursor ts q) (hp : p.Independent around)
    (hs : s.failed = false) (hb : s.OnBoundary) :
    ∃ g, (Harvest.start s).Gains ts q g ∧ ∀ least,
      (many least p).EndsAmid around s (if ts.length < least then
          (g.state.rewind s.cursor).fail (.tooFew least p.label g.state.rest)
        else g.succeed) := by
  obtain ⟨g, hg, hgains⟩ := h.exists_repeats hp (g := .start s) hs hb s.samePlace_fresh.symm
  have hcount : g.count = ts.length := hgains.count.trans (Nat.zero_add _)
  refine ⟨g, hgains, fun least => (endsAmid_many_iff hs).2 ⟨g, hg, ?_⟩⟩
  rw [hcount]

theorem exists_many_iff (hp : p.Independent around) (honward : p.Onward around)
    (hs : s.failed = false) (hb : s.OnBoundary) (least : Nat) :
    (∃ t, (many least p).EndsAmid around s t) ↔ ∃ ts q, Rounds around p s.input s.cursor ts q := by
  constructor
  · rintro ⟨t, ht⟩
    obtain ⟨g, hg, _⟩ := (endsAmid_many_iff hs).1 ht
    exact hg.exists_rounds hp honward (g := .start s) hs hb
  · rintro ⟨ts, q, h⟩
    obtain ⟨g, _, ht⟩ := h.exists_many hp hs hb
    exact ⟨_, ht least⟩

/-- A chain has no rounds if and only if the parser fails where it begins. -/
theorem Rounds.eq_nil_iff (h : Rounds around p s.input s.cursor ts q) (hp : p.Independent around)
    (hs : s.failed = false) (hb : s.OnBoundary) :
    ts = [] ↔ ∃ u, p.EndsAmid around s u ∧ u.failed = true := by
  constructor
  · rintro rfl
    cases h with
    | stop hu hf =>
      obtain ⟨t, ht, hout, _⟩ := hp.exists_at hs hb s.samePlace_fresh.symm hu
      exact ⟨t, ht, hout.failed_eq.symm.trans hf⟩
  · rintro ⟨t, ht, hf⟩
    obtain ⟨u, hu, hout⟩ := hp.exists_fresh hs hb ht
    have hstop : Rounds around p s.input s.cursor [] s.cursor := .stop hu (hout.failed_eq.trans hf)
    exact (hstop.unique h).1

/-- **A repetition gathers the results of the longest chain of rounds.**  From every state there is one
chain at most, and one if the parser always ends; `zeroOrMore` and `oneOrMore` end if there is one.
Then `zeroOrMore` succeeds where the chain stops, with the list of the results that are not to be
ignored.  The other one gives up where it began if the parser fails there, and else does the same. -/
theorem many_gathers (hp : p.Independent around) (honward : p.Onward around)
    (hs : s.failed = false) (hb : s.OnBoundary) :
    (p.EndsOver around s.input → ∃ ts q, Rounds around p s.input s.cursor ts q) ∧
    ((∃ t, (zeroOrMore p).EndsAmid around s t) ↔
      ∃ ts q, Rounds around p s.input s.cursor ts q) ∧
    ((∃ t', (oneOrMore p).EndsAmid around s t') ↔
      ∃ ts q, Rounds around p s.input s.cursor ts q) ∧
    ∀ ts q, Rounds around p s.input s.cursor ts q →
      (∀ ts' q', Rounds around p s.input s.cursor ts' q' → ts' = ts ∧ q' = q) ∧
      ∀ t t', (zeroOrMore p).EndsAmid around s t → (oneOrMore p).EndsAmid around s t' →
        (t.failed = false ∧ t.cursor = q ∧ t.disposition = .keep ∧
          t.result = .list (ts.flatMap State.kept)) ∧
        (t'.failed = true ↔ ∃ u, p.EndsAmid around s u ∧ u.failed = true) ∧
        (t'.failed = true → s.GivesUp .repetitionUnsatisfied t') ∧
        (t'.failed = false → t' = t) := by
  refine ⟨fun hends => exists_rounds hp honward hends hb, exists_many_iff hp honward hs hb 0,
    exists_many_iff hp honward hs hb 1, fun ts q h => ⟨fun ts' q' h' => h.unique h',
      fun t t' ht ht' => ?_⟩⟩
  obtain ⟨g, hgains, hends⟩ := h.exists_many hp hs hb
  obtain rfl := ht.unique (hends 0)
  obtain rfl := ht'.unique (hends 1)
  have hnil := h.eq_nil_iff hp hs hb
  rw [if_neg (Nat.not_lt_zero _)]
  refine ⟨⟨rfl, (Harvest.samePlace_succeed hgains.onBoundary ⟨rfl, rfl⟩).cursor.symm.trans hgains.cursor, rfl,
    congrArg Value.list hgains.items⟩, ?_⟩
  cases ts with
  | nil =>
    rw [List.length_nil, if_pos Nat.zero_lt_one]
    refine ⟨⟨fun _ => hnil.1 rfl, fun _ => rfl⟩, fun _ => ?_, nofun⟩
    exact hb.givesUp_rewind hgains.input (.tooFew 1 p.label g.state.rest)
  | cons u ts =>
    rw [List.length_cons, if_neg (Nat.not_lt.2 (Nat.le_add_left 1 ts.length))]
    exact ⟨⟨nofun, fun hfails => nomatch hnil.2 hfails⟩, nofun, fun _ => rfl⟩

/-- A letter, a comma to be left out, or another letter that may be missing. -/
def item : Parser Element := or (literal "a") (or (ignore comma) (optional (literal "b")))

theorem item_actionless : item.EveryAction fun _ => False := by simp [item, ignore, comma]

theorem item_endsOver (input : Input) : item.EndsOver [] input := by
  have hguarded : item.Guarded [] := by simp [item, ignore, comma, Guarded]
  exact endsOver_of_guarded hguarded (fun shown act h => (item_actionless shown act h).elim) input

/-- Behind a sign of two bytes, the second of four rounds is left out, and the last one takes nothing
and is listed. -/
theorem many_gathers_items :
    ∃ (ts : List (State Element)) (t t' : State Element),
      Rounds [] item (.ofString "éa,ax") 2 ts 5 ∧
        (zeroOrMore item).EndsAmid [] ((State.start (.ofString "éa,ax")).advance 2 .absent) t ∧
        (oneOrMore item).EndsAmid [] ((State.start (.ofString "éa,ax")).advance 2 .absent) t' ∧
        ts.flatMap State.kept = [.token "a", .token "a", .absent] ∧ t.cursor = 5 ∧ t' = t := by
  have hs : ((State.start (.ofString "éa,ax")).advance 2 .absent : State Element).cursor = 2 := by
    decide +kernel
  obtain ⟨t, ht, hcursor, hresult⟩ : ∃ t : State Element,
      (zeroOrMore item).EndsAmid [] ((State.start (.ofString "éa,ax")).advance 2 .absent) t ∧
        t.cursor = 5 ∧ t.result = .list [.token "a", .token "a", .absent] :=
    ⟨((zeroOrMore item).runFrom 5 Scope.none
        ((State.start (.ofString "éa,ax")).advance 2 .absent)).get (by decide +kernel),
      ⟨5, (Option.some_get _).symm⟩, by decide +kernel, by decide +kernel⟩
  obtain ⟨t', ht', hf'⟩ : ∃ t' : State Element,
      (oneOrMore item).EndsAmid [] ((State.start (.ofString "éa,ax")).advance 2 .absent) t' ∧
        t'.failed = false :=
    ⟨((oneOrMore item).runFrom 5 Scope.none
        ((State.start (.ofString "éa,ax")).advance 2 .absent)).get (by decide +kernel),
      ⟨5, (Option.some_get _).symm⟩, by decide +kernel⟩
  obtain ⟨hchain, _, _, hgathers⟩ := many_gathers (independent_of_actionless item_actionless)
    (onward_of_actionless item_actionless)
    (s := (State.start (.ofString "éa,ax")).advance 2 .absent) rfl (State.onBoundary_advance _ _ _)
  obtain ⟨ts, q, hrounds⟩ := hchain (item_endsOver _)
  obtain ⟨_, hboth⟩ := hgathers ts q hrounds
  obtain ⟨⟨_, hq, _, hlist⟩, _, _, hsame⟩ := hboth t t' ht ht'
  rw [hs, ← hq, hcursor] at hrounds
  exact ⟨ts, t, t', hrounds, ht, ht', Value.list.inj (hlist.symm.trans hresult), hcursor, hsame hf'⟩

/-! ## Up to the end of the input -/

/-- How a repetition up to the end of the input ends, after `g`, where the same rounds lead to `g'` if
they may stop anywhere: with a list, once a round has come to the end, where the other repetition may
do one round more that takes nothing; with the failure of a round, at the place where the other
repetition has stopped; or with a failure of its own there, since a round has taken nothing. -/
inductive EndsBeside (around : Surroundings ν) (p : Parser ν) (g g' : Harvest ν) : State ν → Prop where
  | done {h : Harvest ν} {u : State ν} (hp : p.EndsAmid around g.state u) (hu : u.failed = false)
      (hh : h.state.failed = false) (hled : g.state.LeadsTo false h.state)
      (hplace : h.state.SamePlace g'.succeed) (hend : h.state.atEnd = true)
      (hmore : g'.items = h.items ∨ ∃ w, p.EndsAmid around h.state w ∧ w.failed = false ∧
        w.cursor = h.state.cursor ∧ g'.items.toList = h.items.toList ++ w.kept) :
      EndsBeside around p g g' h.succeed
  | stop {x t : State ν} (hx : x.failed = false) (hled : g.state.LeadsTo false x)
      (hplace : x.SamePlace g'.succeed) (hp : p.EndsAmid around x t) (ht : t.failed = true)
      (hend : x = g.state ∨ x.atEnd = false) : EndsBeside around p g g' t
  | still {x t : State ν} (hx : x.failed = false) (hled : g.state.LeadsTo false x)
      (hplace : x.SamePlace g'.succeed) (hp : p.EndsAmid around x t) (ht : t.failed = false)
      (hend : x.atEnd = false) (hstill : t.cursor = x.cursor) :
      EndsBeside around p g g' (t.collected.fail (.stalled p.label t.rest))

/-- One round more in front, which does not come to the end of the input. -/
theorem EndsBeside.cons (h : EndsBeside around p (g.add t) g' m) (hp : p.EndsAmid around g.state t)
    (ht : t.failed = false) (hled : g.state.LeadsTo false t) (hend : t.atEnd = false) :
    EndsBeside around p g g' m := by
  cases h with
  | done _ _ hh hled' hplace hend' hmore =>
    exact .done hp ht hh (hled.collected.trans hled') hplace hend' hmore
  | stop hx hled' hplace hq hf hend' =>
    refine .stop hx (hled.collected.trans hled') hplace hq hf (.inr ?_)
    rcases hend' with rfl | hend'
    · exact t.samePlace_collected.atEnd_eq.symm.trans hend
    · exact hend'
  | still hx hled' hplace hq hf hend' hstill =>
    exact .still hx (hled.collected.trans hled') hplace hq hf hend' hstill

/-- At the end of the input, a repetition can do one round more at most, that takes nothing. -/
theorem Repeats.endsBeside_of_atEnd (h : Repeats around p (g.add t) g') (hp : p.Independent around)
    (honward : p.Onward around) (hfirst : p.EndsAmid around g.state t) (ht : t.failed = false)
    (hled : g.state.LeadsTo false t) (hend : t.atEnd = true) :
    EndsBeside around p g g' (g.add t).succeed := by
  have hlive : (g.add t).state.failed = false := t.failed_collected.trans ht
  have hb : (g.add t).state.OnBoundary := hled.collected.onBoundary
  have hend' : (g.add t).state.atEnd = true := t.samePlace_collected.atEnd_eq.symm.trans hend
  have hround {u : State ν} (hu : p.EndsAmid around (g.add t).state u) := honward.leads hp hlive hb hu
  cases h with
  | stop hu =>
    have hback := hb.samePlace_rewind (hround hu).input
    exact .done hfirst ht hlive hled.collected (Harvest.samePlace_succeed hb hback) hend' (.inl rfl)
  | @still _ u hu hf hstill =>
    have hplace : (g.add t).state.SamePlace ((g.add t).add u).state :=
      ⟨(hround hu).collected.input.symm, (u.cursor_collected.trans hstill).symm⟩
    exact .done hfirst ht hlive hled.collected (Harvest.samePlace_succeed hb hplace) hend'
      (.inr ⟨u, hu, hf, hstill, Harvest.toList_add _ _⟩)
  | next hu _ hne =>
    have hlt := (hround hu).onBoundary.cursor_le
    rw [(hround hu).input, ← beq_iff_eq.1 hend'] at hlt
    exact absurd (Nat.le_antisymm hlt ((hround hu).onward rfl)) hne

/-- **The same rounds, with a look for the end of the input** after each of them. -/
theorem Repeats.exists_repeatsToEnd (h : Repeats around p g g') (hp : p.Independent around)
    (honward : p.Onward around) (hg : g.state.failed = false) (hb : g.state.OnBoundary) :
    ∃ t, RepeatsToEnd around p g t ∧ EndsBeside around p g g' t := by
  induction h with
  | @stop g t ht hf =>
    have hback := hb.samePlace_rewind (hp.leads _ _ hg hb ht).input
    exact ⟨t, .stop ht hf,
      .stop hg hb.leadsTo_self (Harvest.samePlace_succeed hb hback) ht hf (.inl rfl)⟩
  | @still g t ht hf hstill =>
    have hled := honward.leads hp hg hb ht
    have hend := t.samePlace_collected.atEnd_eq
    cases hat : t.atEnd with
    | true =>
      exact ⟨_, .done ht hf hat, .done ht hf (t.failed_collected.trans hf) hled.collected
        (Harvest.samePlace_succeed hled.collected.onBoundary ⟨rfl, rfl⟩) (hend.symm.trans hat) (.inl rfl)⟩
    | false =>
      have hplace : g.state.SamePlace (g.add t).state :=
        ⟨hled.collected.input.symm, (t.cursor_collected.trans hstill).symm⟩
      exact ⟨_, .still ht hf hat hstill, .still hg hb.leadsTo_self
        (Harvest.samePlace_succeed hb hplace) ht hf (hplace.atEnd_eq.trans (hend.symm.trans hat)) hstill⟩
  | @next g g' t ht hf hne hrest ih =>
    have hled := honward.leads hp hg hb ht
    cases hat : t.atEnd with
    | true =>
      exact ⟨_, .done ht hf hat, hrest.endsBeside_of_atEnd hp honward ht hf hled hat⟩
    | false =>
      obtain ⟨u, hu, hbeside⟩ := ih (t.failed_collected.trans hf) hled.collected.onBoundary
      exact ⟨u, .next ht hf hat hne hu, hbeside.cons ht hf hled hat⟩

/-- Where the repetition stands that has stopped elsewhere or here. -/
theorem EndsBeside.leads (h : EndsBeside around p g g' t) : g.state.LeadsTo false g'.succeed := by
  cases h with
  | done _ _ _ hled hplace => exact hled.of_samePlace hplace
  | stop _ hled hplace => exact hled.of_samePlace hplace
  | still _ hled hplace => exact hled.of_samePlace hplace

theorem EndsBeside.live_iff (h : EndsBeside around p g g' t) :
    t.failed = false ↔
      (∃ u, p.EndsAmid around g.state u ∧ u.failed = false) ∧ g'.succeed.atEnd = true := by
  cases h with
  | @done h u hu hf _ hled hplace hend =>
    have hend' := hplace.atEnd_eq.symm.trans hend
    exact ⟨fun _ => ⟨⟨u, hu, hf⟩, hend'⟩, fun _ => rfl⟩
  | @stop x _ _ hled hplace hp hf hend =>
    refine ⟨fun hlive => by simp [hf] at hlive, fun ⟨⟨u, hu, hlive⟩, hat⟩ => ?_⟩
    rcases hend with rfl | hend
    · rw [hp.unique hu, hlive]
    · rw [← hplace.atEnd_eq, hend] at hat
      cases hat
  | still _ hled hplace _ _ hend =>
    refine ⟨nofun, fun ⟨_, hat⟩ => ?_⟩
    rw [← hplace.atEnd_eq, hend] at hat
    cases hat

/-- Where the end of the input has been reached, the same has been listed, but for a last round that
takes nothing. -/
theorem EndsBeside.exists_list (h : EndsBeside around p g g' t) (hp : p.Independent around)
    (ht : t.failed = false) :
    t.SamePlace g'.succeed ∧ t.disposition = .keep ∧
      ∃ items more, t.result = .list items ∧ g'.items.toList = items ++ more ∧
        (more = [] ∨ ∃ u, p.EndsAmid around g'.succeed u ∧ u.failed = false ∧
          u.cursor = g'.succeed.cursor ∧ more = [u.result]) := by
  cases h with
  | @done h u _ _ hh hled hplace _ hmore =>
    refine ⟨(hled.onBoundary.samePlace_succeed _).symm.trans hplace, rfl, ?_⟩
    rcases hmore with hsame | ⟨w, hw, hf, hstill, hmore⟩
    · exact ⟨_, [], rfl, by rw [hsame, List.append_nil], .inl rfl⟩
    · obtain ⟨w', hw', hout⟩ := hp.alike _ _ w hh rfl hled.onBoundary hplace hw
      refine ⟨_, w.kept, rfl, hmore, ?_⟩
      rw [hout.kept_eq hf]
      rcases w'.kept_eq_nil_or with hk | hk
      · exact .inl hk
      · exact .inr ⟨w', hw', hout.failed_eq.symm.trans hf,
          hout.cursor.symm.trans (hstill.trans hplace.cursor), hk⟩
  | stop _ _ _ _ hf => simp [hf] at ht
  | still => cases ht

/-- Where that fails, it does so as the parser does, or since the parser takes nothing. -/
theorem EndsBeside.exists_failure (h : EndsBeside around p g g' t) (hp : p.Independent around)
    (ht : t.failed = true) :
    (∃ u, p.EndsAmid around g'.succeed u ∧ u.failed = true ∧ t.failure = u.failure ∧
      t.cursor = u.cursor) ∨
    (g'.succeed.atEnd = false ∧ t.failure.map Failure.kind = some .incompleteConsumption ∧
      t.cursor = g'.succeed.cursor ∧
      ∃ u, p.EndsAmid around g'.succeed u ∧ u.failed = false ∧ u.cursor = g'.succeed.cursor) := by
  cases h with
  | done => cases ht
  | @stop x t hx hled hplace hu hf =>
    obtain ⟨u, hu', hout⟩ :=
      hp.alike x _ t hx rfl hled.onBoundary hplace hu
    exact .inl ⟨u, hu', hout.failed_eq.symm.trans hf, hout.failure, hout.cursor⟩
  | @still x t hx hled hplace hu hf hend hstill =>
    obtain ⟨u, hu', hout⟩ := hp.alike x _ t hx rfl hled.onBoundary hplace hu
    have hcursor := hstill.trans hplace.cursor
    exact .inr ⟨hplace.atEnd_eq.symm.trans hend, rfl, t.cursor_collected.trans hcursor, u, hu',
      hout.failed_eq.symm.trans hf, hout.cursor.symm.trans hcursor⟩

/-- **A repetition up to the end of the input is one that may stop anywhere, with a check for the
end.**  It succeeds if and only if the parser does so at first and the other repetition stops at the
end of the input.  Then it is there as well, and has listed the same, but for a last round of the other
one that takes nothing.  Where it fails, it does so where the other one stops: as the parser does there,
or since the parser takes nothing there. -/
theorem all_agrees (hp : p.Independent around) (honward : p.Onward around)
    (hs : s.failed = false) (hb : s.OnBoundary) :
    (p.EndsOver around s.input → ∃ m, (zeroOrMore p).EndsAmid around s m) ∧
    ((∃ m, (zeroOrMore p).EndsAmid around s m) → ∃ t, (all p).EndsAmid around s t) ∧
    ∀ m t, (zeroOrMore p).EndsAmid around s m → (all p).EndsAmid around s t →
      (t.failed = false ↔
        (∃ u, p.EndsAmid around s u ∧ u.failed = false) ∧ m.cursor = s.input.size) ∧
      (t.failed = false → t.cursor = s.input.size ∧ t.disposition = .keep ∧
        ∃ items more, t.result = .list items ∧ m.result = .list (items ++ more) ∧
          (more = [] ∨ ∃ u, p.EndsAmid around m u ∧ u.failed = false ∧ u.cursor = m.cursor ∧
            more = [u.result])) ∧
      (t.failed = true →
        (∃ u, p.EndsAmid around m u ∧ u.failed = true ∧ t.failure = u.failure ∧
          t.cursor = u.cursor) ∨
        (m.cursor < s.input.size ∧ t.failure.map Failure.kind = some .incompleteConsumption ∧
          t.cursor = m.cursor ∧
          ∃ u, p.EndsAmid around m u ∧ u.failed = false ∧ u.cursor = m.cursor)) := by
  refine ⟨fun hends => ?_, ?_, fun m t hm ht => ?_⟩
  · exact (exists_many_iff hp honward hs hb 0).2 (exists_rounds hp honward hends hb)
  · rintro ⟨m, hm⟩
    obtain ⟨g, hg, _⟩ := (endsAmid_many_iff hs).1 hm
    obtain ⟨t, ht, _⟩ := hg.exists_repeatsToEnd hp honward hs hb
    exact ⟨t, (endsAmid_all_iff hs).2 ht⟩
  · obtain ⟨g, hg, rfl⟩ := (endsAmid_many_iff hs).1 hm
    obtain ⟨t', ht', hbeside⟩ := hg.exists_repeatsToEnd hp honward hs hb
    obtain rfl := ht.unique ((endsAmid_all_iff hs).2 ht')
    rw [if_neg (Nat.not_lt_zero _)]
    have hled : s.LeadsTo false g.succeed := hbeside.leads
    have hsize : g.succeed.atEnd = true ↔ g.succeed.cursor = s.input.size := by
      rw [State.atEnd, beq_iff_eq, hled.input]
    refine ⟨hbeside.live_iff.trans (and_congr_right' hsize), fun hlive => ?_, fun hf => ?_⟩
    · obtain ⟨hplace, hkeep, items, more, hitems, hall, hmore⟩ := hbeside.exists_list hp hlive
      have hend := hsize.1 (hbeside.live_iff.1 hlive).2
      exact ⟨hplace.cursor.trans hend, hkeep, items, more, hitems, congrArg Value.list hall, hmore⟩
    · have hfailure := hbeside.exists_failure hp hf
      rw [← hled.input]
      exact hfailure.imp_right (And.imp_left hled.onBoundary.cursor_lt)

/-- Where the end of the input has been reached, only the repetition that does not look for it does a
round more that takes nothing. -/
theorem all_agrees_items :
    ∃ m t : State Element,
      (zeroOrMore item).EndsAmid [] ((State.start (.ofString "éa,a")).advance 2 .absent) m ∧
        (all item).EndsAmid [] ((State.start (.ofString "éa,a")).advance 2 .absent) t ∧
        t.cursor = 5 ∧ t.result = .list [.token "a", .token "a"] ∧
        ∃ u, item.EndsAmid [] m u ∧ u.failed = false ∧ u.cursor = m.cursor ∧
          m.result = .list [.token "a", .token "a", u.result] := by
  obtain ⟨m, hm, hlisted⟩ : ∃ m : State Element,
      (zeroOrMore item).EndsAmid [] ((State.start (.ofString "éa,a")).advance 2 .absent) m ∧
        m.result = .list ([.token "a", .token "a"] ++ [.absent]) :=
    ⟨((zeroOrMore item).runFrom 5 Scope.none
        ((State.start (.ofString "éa,a")).advance 2 .absent)).get (by decide +kernel),
      ⟨5, (Option.some_get _).symm⟩, by decide +kernel⟩
  obtain ⟨t, ht, hlive, hcursor, hresult⟩ : ∃ t : State Element,
      (all item).EndsAmid [] ((State.start (.ofString "éa,a")).advance 2 .absent) t ∧
        t.failed = false ∧ t.cursor = 5 ∧ t.result = .list [.token "a", .token "a"] :=
    ⟨((all item).runFrom 5 Scope.none
        ((State.start (.ofString "éa,a")).advance 2 .absent)).get (by decide +kernel),
      ⟨5, (Option.some_get _).symm⟩, by decide +kernel, by decide +kernel, by decide +kernel⟩
  obtain ⟨_, _, hagree⟩ := all_agrees (independent_of_actionless item_actionless)
    (onward_of_actionless item_actionless)
    (s := (State.start (.ofString "éa,a")).advance 2 .absent) rfl (State.onBoundary_advance _ _ _)
  obtain ⟨_, _, items, more, hitems, hall, hmore⟩ := (hagree m t hm ht).2.1 hlive
  obtain rfl := Value.list.inj (hresult.symm.trans hitems)
  obtain rfl := List.append_cancel_left (Value.list.inj (hlisted.symm.trans hall))
  rcases hmore with hmore | ⟨u, hu, huf, hstill, hmore⟩
  · cases hmore
  · exact ⟨m, t, hm, ht, hcursor, hresult, u, hu, huf, hstill, hmore ▸ hlisted⟩

end Parser

end TextGrammar
