import TextGrammar.Element
import TextGrammar.Proofs.Laws.Basic

/-!
# Brackets in sequences

However parsers are put together two by two with `and`, what they do is to run one after the other.

* `Parser.InTurn.append_iff` — a run of parsers and of further ones.
* `Parser.InTurn.exists_join_and`, `Parser.exists_inTurn_of_join_and` — parsers in brackets do what
  they do in turn, and the other way round.  The induction is on the brackets; the runs differ in
  what states they start from, and so are the same only up to what was produced before.
* `Parser.join_and_agree` — so all ways to put brackets agree, and `sequence` does with them.
-/

namespace TextGrammar

variable {ν : Type}

namespace State

variable {ts : List (State ν)} {t u : State ν}

theorem failure_eq_none (h : t.failed = false) : t.failure = none := by
  simpa [failed] using h

/-- A result that is not to be spliced adds the same to a list in both ways. -/
theorem kept_eq_spliced (h : t.disposition ≠ .splice) : t.kept = t.spliced := by
  rw [kept, spliced]
  cases hd : t.disposition with
  | keep => rfl
  | ignore => rfl
  | splice => exact absurd hd h

/-- The state `t` is where `u` is and has failed like it; if it is a success, it contributes to a
list what the states in `ts` do, in order. -/
structure Gathers (ts : List (State ν)) (u t : State ν) : Prop extends u.SamePlace t where
  failure : t.failure = u.failure
  spliced : t.failed = false → t.spliced = ts.flatMap State.spliced

theorem Gathers.failed_eq (h : Gathers ts u t) : t.failed = u.failed := by
  rw [failed, failed, h.failure]

end State

namespace Parser

variable {around : Surroundings ν} {ps qs : List (Parser ν)} {s s' t u : State ν}
  {ts : List (State ν)}

/-! ## Runs in turn -/

namespace InTurn

/-- Parsers that run in turn lead where each of them may lead. -/
theorem leads (h : InTurn around ps s ts u) (hps : ∀ p ∈ ps, p.Independent around)
    (hs : s.failed = false) (hb : s.OnBoundary) : s.LeadsTo true u := by
  induction h with
  | nil => exact hb.leadsTo_self
  | @stop p ps s u hp hu => exact (hps p List.mem_cons_self).leads s u hs hb hp
  | @next p ps s t u ts hp ht hrest ih =>
    have hled : s.LeadsTo true t := (hps p List.mem_cons_self).leads s t hs hb hp
    have hrest := ih (fun q hq => hps q (List.mem_cons_of_mem p hq))
      (t.failed_collected.trans ht) hled.collected.onBoundary
    exact hled.collected.trans hrest

/-- **A run of parsers and of further ones** ends where the first ones have failed, or goes on with
the further ones. -/
theorem append_iff (hs : s.failed = false) :
    InTurn around (ps ++ qs) s ts u ↔
      (InTurn around ps s ts u ∧ u.failed = true) ∨
      ∃ front v back, InTurn around ps s front v ∧ v.failed = false ∧
        InTurn around qs v back u ∧ front ++ back = ts := by
  induction ps generalizing s ts with
  | nil =>
    constructor
    · intro h
      exact .inr ⟨[], s, ts, .nil, hs, h, rfl⟩
    · rintro (⟨⟨⟩, hu⟩ | ⟨_, _, back, ⟨⟩, _, h, rfl⟩)
      · simp [hs] at hu
      · exact h
  | cons p ps ih =>
    constructor
    · intro h
      cases h with
      | stop hp hu => exact .inl ⟨.stop hp hu, hu⟩
      | next hp ht hrest =>
        rcases (ih ((State.failed_collected _).trans ht)).1 hrest with
          ⟨hps, hu⟩ | ⟨front, v, back, hps, hv, hqs, rfl⟩
        · exact .inl ⟨.next hp ht hps, hu⟩
        · exact .inr ⟨_ :: front, v, back, .next hp ht hps, hv, hqs, rfl⟩
    · rintro (⟨h, hu⟩ | ⟨_, v, back, h, hv, hqs, rfl⟩)
      · cases h with
        | stop hp _ => exact .stop hp hu
        | next hp ht hps =>
          exact .next hp ht ((ih ((State.failed_collected _).trans ht)).2 (.inl ⟨hps, hu⟩))
      · cases h with
        | stop _ hv' =>
          simp [hv] at hv'
        | next hp ht hps =>
          exact .next hp ht ((ih ((State.failed_collected _).trans ht)).2
            (.inr ⟨_, v, back, hps, hv, hqs, rfl⟩))

end InTurn

/-! ## Brackets -/

variable {b : Bracketing (Parser ν)}

/-- **What parsers do in turn, they do in brackets**, from any state at the same place. -/
theorem InTurn.exists_join_and (h : InTurn around b.operands s ts u)
    (hind : ∀ p ∈ b.operands, p.Independent around) (hs : s.failed = false)
    (hs' : s'.failed = false) (hb : s.OnBoundary) (hplace : s.SamePlace s') :
    ∃ t, (b.join and).EndsAmid around s' t ∧ State.Gathers ts u t := by
  induction b generalizing s s' ts u with
  | operand p =>
    cases h with
    | stop hp hu =>
      obtain ⟨t, ht, hout⟩ := (hind p List.mem_cons_self).alike _ _ _ hs hs' hb hplace hp
      refine ⟨t, ht, hout.toSamePlace, hout.failure.symm, fun hf => ?_⟩
      rw [← hout.failed_eq, hu] at hf
      cases hf
    | @next _ _ _ v _ _ hp hv hrest =>
      cases hrest
      obtain ⟨t, ht, hout⟩ := (hind p List.mem_cons_self).alike _ _ _ hs hs' hb hplace hp
      refine ⟨t, ht, v.samePlace_collected.symm.trans hout.toSamePlace, ?_, fun _ => ?_⟩
      · rw [State.failure_eq_none (v.failed_collected.trans hv), ← hout.failure,
          State.failure_eq_none hv]
      · simp [hout.spliced_eq hv]
  | pair left right ihl ihr =>
    obtain ⟨hl, hr⟩ := List.forall_mem_append.1 hind
    rcases (InTurn.append_iff hs).1 h with
      ⟨hleft, hu⟩ | ⟨front, v, back, hleft, hv, hright, rfl⟩
    · obtain ⟨t, ht, hgathers⟩ := ihl hleft hl hs hs' hb hplace
      refine ⟨t, (endsAmid_and_iff hs').2 (.inl ⟨ht, hgathers.failed_eq.trans hu⟩), hgathers⟩
    · obtain ⟨t, ht, hgathers⟩ := ihl hleft hl hs hs' hb hplace
      have htf : t.failed = false := hgathers.failed_eq.trans hv
      have hbv : v.OnBoundary := (hleft.leads hl hs hb).onBoundary
      obtain ⟨w, hw, hgathers'⟩ := ihr hright hr hv (t.failed_collected.trans htf) hbv
        (hgathers.toSamePlace.trans t.samePlace_collected)
      cases hwf : w.failed with
      | true =>
        refine ⟨w, (endsAmid_and_iff hs').2 (.inr (.inl ⟨t, ht, htf, hw, hwf⟩)),
          hgathers'.toSamePlace, hgathers'.failure, fun hf => ?_⟩
        simp [hwf] at hf
      | false =>
        have hbw : w.OnBoundary :=
          hgathers'.onBoundary_iff.1 (hright.leads hr hv hbv).onBoundary
        refine ⟨t.joined w, (endsAmid_and_iff hs').2 (.inr (.inr ⟨t, w, ht, htf, hw, hwf, rfl⟩)),
          hgathers'.toSamePlace.trans (hbw.samePlace_joined t), ?_, fun _ => ?_⟩
        · rw [State.failure_eq_none (hgathers'.failed_eq.symm.trans hwf),
            State.failure_eq_none (t.failed_joined w)]
        · rw [State.spliced_joined, hgathers.spliced htf, hgathers'.spliced hwf,
            List.flatMap_append]

theorem InTurn.gathers_join_and (h : InTurn around b.operands s ts u)
    (hind : ∀ p ∈ b.operands, p.Independent around) (hs : s.failed = false)
    (hs' : s'.failed = false) (hb : s.OnBoundary) (hplace : s.SamePlace s')
    (ht : (b.join and).EndsAmid around s' t) : State.Gathers ts u t := by
  obtain ⟨t', ht', hgathers⟩ := h.exists_join_and hind hs hs' hb hplace
  rwa [ht.unique ht']

/-- **What parsers do in brackets, they do in turn.** -/
theorem exists_inTurn_of_join_and (ht : (b.join and).EndsAmid around s' t)
    (hind : ∀ p ∈ b.operands, p.Independent around) (hs : s.failed = false)
    (hs' : s'.failed = false) (hb : s.OnBoundary) (hplace : s.SamePlace s') :
    ∃ ts u, InTurn around b.operands s ts u := by
  induction b generalizing s s' t with
  | operand p =>
    have hb' : s'.OnBoundary := hplace.onBoundary_iff.1 hb
    obtain ⟨u, hu, _⟩ := (hind p List.mem_cons_self).alike _ _ _ hs' hs hb' hplace.symm ht
    cases hf : u.failed with
    | true => exact ⟨[], u, .stop hu hf⟩
    | false => exact ⟨[u], u.collected, .next hu hf .nil⟩
  | pair left right ihl ihr =>
    obtain ⟨hl, hr⟩ := List.forall_mem_append.1 hind
    -- once the left part has succeeded, the right part is run, whether it succeeds or fails
    have goesOn {v w : State ν} (hv : (left.join and).EndsAmid around s' v) (hvf : v.failed = false)
        (hw : (right.join and).EndsAmid around v.collected w) :
        ∃ ts u, InTurn around (left.operands ++ right.operands) s ts u := by
      obtain ⟨front, v', hleft⟩ := ihl hv hl hs hs' hb hplace
      have hgathers := hleft.gathers_join_and hl hs hs' hb hplace hv
      have hvf' : v'.failed = false := hgathers.failed_eq.symm.trans hvf
      have hbv' : v'.OnBoundary := (hleft.leads hl hs hb).onBoundary
      obtain ⟨back, u, hright⟩ := ihr hw hr hvf' (v.failed_collected.trans hvf) hbv'
        (hgathers.toSamePlace.trans v.samePlace_collected)
      exact ⟨_, u, (InTurn.append_iff hs).2 (.inr ⟨front, v', back, hleft, hvf', hright, rfl⟩)⟩
    rcases (endsAmid_and_iff hs').1 ht with
      ⟨hleft, hf⟩ | ⟨v, hv, hvf, hright, _⟩ | ⟨v, w, hv, hvf, hright, _⟩
    · obtain ⟨ts, u, hrun⟩ := ihl hleft hl hs hs' hb hplace
      have hgathers := hrun.gathers_join_and hl hs hs' hb hplace hleft
      exact ⟨ts, u, (InTurn.append_iff hs).2 (.inl ⟨hrun, hgathers.failed_eq.symm.trans hf⟩)⟩
    · exact goesOn hv hvf hright
    · exact goesOn hv hvf hright

/-- A run in brackets that succeeds lists what has been contributed. -/
theorem result_join_and (htwo : 2 ≤ b.operands.length) (hs : s.failed = false)
    (ht : (b.join and).EndsAmid around s t) (hf : t.failed = false) :
    t.disposition = .splice ∧ t.result = .list t.spliced := by
  obtain ⟨left, right, rfl⟩ := Bracketing.exists_eq_pair htwo
  exact result_of_endsAmid_and hs ht hf

theorem exists_join_and_iff (hind : ∀ p ∈ b.operands, p.Independent around)
    (hs : s.failed = false) (hb : s.OnBoundary) :
    (∃ t, (b.join and).EndsAmid around s t) ↔ ∃ ts u, InTurn around b.operands s ts u := by
  constructor
  · rintro ⟨t, ht⟩
    exact exists_inTurn_of_join_and ht hind hs hs hb ⟨rfl, rfl⟩
  · rintro ⟨ts, u, hrun⟩
    obtain ⟨t, ht, _⟩ := hrun.exists_join_and hind hs hs hb ⟨rfl, rfl⟩
    exact ⟨t, ht⟩

theorem exists_sequence_iff (hs : s.failed = false) :
    (∃ t, (sequence ps).EndsAmid around s t) ↔ ∃ ts u, InTurn around ps s ts u := by
  simp only [endsAmid_sequence_iff hs]
  constructor
  · rintro ⟨_, ts, u, hrun, _⟩
    exact ⟨ts, u, hrun⟩
  · rintro ⟨ts, u, hrun⟩
    exact ⟨_, ts, u, hrun, rfl⟩

/-- **Brackets do not matter.**  Two or more parsers that are put together by `and` end in the same
way in whatever brackets, if they end at all: all of them fail, with the same failure at the same
place, or succeed at the same place with the same list, that of what the parsers contribute if they
are run in turn.  A sequence of the parsers ends with them, and lists the same if no result in the
run is to be spliced. -/
theorem join_and_agree {a b : Bracketing (Parser ν)} (hsame : a.operands = b.operands)
    (htwo : 2 ≤ a.operands.length) (hind : ∀ p ∈ a.operands, p.Independent around) {s : State ν}
    (hs : s.failed = false) (hb : s.OnBoundary) :
    ((∃ t, (a.join and).EndsAmid around s t) ↔ ∃ t', (b.join and).EndsAmid around s t') ∧
    ((∃ t, (a.join and).EndsAmid around s t) ↔
      ∃ r, (sequence a.operands).EndsAmid around s r) ∧
    ∀ t t' r, (a.join and).EndsAmid around s t → (b.join and).EndsAmid around s t' →
      (sequence a.operands).EndsAmid around s r →
      (t.failed = true ∧ t'.failure = t.failure ∧ t'.cursor = t.cursor ∧
        r.failure = t.failure ∧ r.cursor = t.cursor) ∨
      ∃ ts u, InTurn around a.operands s ts u ∧ u.failed = false ∧
        (t.failed = false ∧ t'.failed = false ∧ r.failed = false) ∧
        (t.cursor = u.cursor ∧ t'.cursor = u.cursor ∧ r.cursor = u.cursor) ∧
        t.disposition = .splice ∧ t'.disposition = .splice ∧
        t.result = .list (ts.flatMap State.spliced) ∧
        t'.result = .list (ts.flatMap State.spliced) ∧
        ((∀ v ∈ ts, v.disposition ≠ .splice) → r.result = .list (ts.flatMap State.spliced)) := by
  have hind' : ∀ p ∈ b.operands, p.Independent around := hsame ▸ hind
  refine ⟨?_, ?_, fun t t' r ht ht' hr => ?_⟩
  · rw [exists_join_and_iff hind hs hb, exists_join_and_iff hind' hs hb, hsame]
  · rw [exists_join_and_iff hind hs hb, exists_sequence_iff hs]
  obtain ⟨ts, u, hrun⟩ := (exists_join_and_iff hind hs hb).1 ⟨t, ht⟩
  have hg := hrun.gathers_join_and hind hs hs hb ⟨rfl, rfl⟩ ht
  have hg' := (hsame ▸ hrun).gathers_join_and hind' hs hs hb ⟨rfl, rfl⟩ ht'
  obtain rfl := hr.unique ((endsAmid_sequence_iff hs).2 ⟨ts, u, hrun, rfl⟩)
  cases hu : u.failed with
  | true =>
    refine .inl ⟨hg.failed_eq.trans hu, hg'.failure.trans hg.failure.symm,
      hg'.cursor.symm.trans hg.cursor, ?_, ?_⟩
    · rw [if_pos rfl, hg.failure]
    · rw [if_pos rfl, hg.cursor]
  | false =>
    have hf : t.failed = false := hg.failed_eq.trans hu
    have hf' : t'.failed = false := hg'.failed_eq.trans hu
    obtain ⟨hd, hresult⟩ := result_join_and htwo hs ht hf
    obtain ⟨hd', hresult'⟩ := result_join_and (hsame ▸ htwo) hs ht' hf'
    rw [hg.spliced hf] at hresult
    rw [hg'.spliced hf'] at hresult'
    have hbu : u.OnBoundary := (hrun.leads hind hs hb).onBoundary
    refine .inr ⟨ts, u, hrun, hu, ⟨hf, hf', rfl⟩, ⟨hg.cursor.symm, hg'.cursor.symm, ?_⟩, hd, hd',
      hresult, hresult', fun hkeep => ?_⟩
    · exact (hbu.samePlace_succeed _).cursor.symm
    · have hkept : ts.flatMap State.kept = ts.flatMap State.spliced :=
        List.flatMap_congr fun v hv => State.kept_eq_spliced (hkeep v hv)
      rw [← hkept]
      rfl

/-- Parsers of all kinds, two by two: what they produce is kept, left out, spliced if it is a pair,
and a list. -/
def kinds : Bracketing (Parser Element) :=
  .pair (.pair (.operand (literal "a")) (.operand (ignore comma)))
    (.pair (.operand (or (and (literal "b") (literal "c")) (literal "d")))
      (.operand (many 0 (literal "x"))))

/-- The same parsers, with all brackets on the right. -/
def kindsFromRight : Bracketing (Parser Element) :=
  .pair (.operand (literal "a")) (.pair (.operand (ignore comma))
    (.pair (.operand (or (and (literal "b") (literal "c")) (literal "d")))
      (.operand (many 0 (literal "x")))))

theorem independent_of_mem_kinds : ∀ p ∈ kinds.operands, p.Independent [] := by
  intro p hp
  simp only [kinds, Bracketing.operands, List.cons_append, List.nil_append, List.mem_cons,
    List.not_mem_nil, or_false] at hp
  refine independent_of_actionless ?_
  rcases hp with rfl | rfl | rfl | rfl <;> simp [ignore, comma]

/-- Behind a sign of two bytes, the pair is joined to what is around it, and the list is one
element. -/
theorem join_and_agree_kinds :
    ∃ t t' : State Element,
      (kinds.join and).EndsAmid []
          ((State.start (.ofString "éa,bcxx")).advance 2 .absent) t ∧
        (kindsFromRight.join and).EndsAmid []
          ((State.start (.ofString "éa,bcxx")).advance 2 .absent) t' ∧
        t.failed = false ∧ t'.failed = false ∧ t.cursor = t'.cursor ∧ t'.result = t.result ∧
        t.result = .list [.token "a", .token "b", .token "c", .list [.token "x", .token "x"]] := by
  obtain ⟨hends, hsequence, hagree⟩ := join_and_agree (a := kinds) (b := kindsFromRight) rfl
    (by decide) independent_of_mem_kinds
    (s := (State.start (.ofString "éa,bcxx")).advance 2 .absent) rfl (State.onBoundary_advance _ _ _)
  obtain ⟨t, ht, hf, hresult⟩ : ∃ t : State Element,
      (kinds.join and).EndsAmid [] ((State.start (.ofString "éa,bcxx")).advance 2 .absent) t ∧
        t.failed = false ∧
        t.result = .list [.token "a", .token "b", .token "c", .list [.token "x", .token "x"]] :=
    ⟨((kinds.join and).runFrom 4 Scope.none
        ((State.start (.ofString "éa,bcxx")).advance 2 .absent)).get (by decide +kernel),
      ⟨4, (Option.some_get _).symm⟩, by decide +kernel, by decide +kernel⟩
  obtain ⟨t', ht'⟩ := hends.1 ⟨t, ht⟩
  obtain ⟨r, hr⟩ := hsequence.1 ⟨t, ht⟩
  rcases hagree t t' r ht ht' hr with
    ⟨hf', _⟩ | ⟨ts, u, _, _, ⟨_, hf', _⟩, ⟨hc, hc', _⟩, _, _, hlist, hlist', _⟩
  · simp [hf] at hf'
  · exact ⟨t, t', ht, ht', hf, hf', hc.trans hc'.symm, hlist'.trans hlist.symm, hresult⟩

end Parser

end TextGrammar
