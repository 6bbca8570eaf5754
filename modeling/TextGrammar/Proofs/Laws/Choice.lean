import TextGrammar.Element
import TextGrammar.Proofs.Laws.Basic

/-!
# Brackets in choices

However parsers are put together with `or`, or all at once with `choice`, the first one that
succeeds decides.

* `Parser.FirstOf` — the first of some parsers that succeeds, each run from the same state.
* `Parser.FirstOf.exists_join_or`, `Parser.exists_firstOf_of_join_or` — a choice in brackets ends
  as that one does, and the other way round; `Parser.FirstOf.exists_choice`,
  `Parser.exists_firstOf_of_choice` — the same for a choice of all at once.
* `Parser.join_or_agree` — so all spellings of a choice agree.
-/

namespace TextGrammar.Parser

variable {ν : Type} {around : Surroundings ν} {ps qs : List (Parser ν)} {s s' t : State ν}
  {o : Option (State ν)}

/-! ## The first success -/

/-- The first of the parsers that succeeds ends in the state `o`, where each of them is run from the
state `s`; there is none if all of them fail. -/
inductive FirstOf (around : Surroundings ν) (s : State ν) :
    List (Parser ν) → Option (State ν) → Prop where
  | empty : FirstOf around s [] none
  | here {p : Parser ν} {ps : List (Parser ν)} {t : State ν} (hp : p.EndsAmid around s t)
      (ht : t.failed = false) : FirstOf around s (p :: ps) (some t)
  | later {p : Parser ν} {ps : List (Parser ν)} {t : State ν} {o : Option (State ν)}
      (hp : p.EndsAmid around s t) (ht : t.failed = true) (hps : FirstOf around s ps o) :
      FirstOf around s (p :: ps) o

theorem FirstOf.live (h : FirstOf around s ps (some t)) : t.failed = false := by
  generalize ho : some t = o at h
  induction h with
  | empty => cases ho
  | here _ ht =>
    cases ho
    exact ht
  | later _ _ _ ih => exact ih ho

/-- **The first of parsers and of further ones** is the first of the former if there is one. -/
theorem firstOf_append_iff :
    FirstOf around s (ps ++ qs) o ↔
      (∃ t, FirstOf around s ps (some t) ∧ some t = o) ∨
      (FirstOf around s ps none ∧ FirstOf around s qs o) := by
  induction ps with
  | nil =>
    constructor
    · intro h
      exact .inr ⟨.empty, h⟩
    · rintro (⟨t, h, _⟩ | ⟨_, h⟩)
      · cases h
      · exact h
  | cons p ps ih =>
    constructor
    · intro h
      cases h with
      | here hp ht => exact .inl ⟨_, .here hp ht, rfl⟩
      | later hp ht hrest =>
        rcases ih.1 hrest with ⟨u, hps, rfl⟩ | ⟨hps, hqs⟩
        · exact .inl ⟨u, .later hp ht hps, rfl⟩
        · exact .inr ⟨.later hp ht hps, hqs⟩
    · rintro (⟨u, h, rfl⟩ | ⟨h, hqs⟩)
      · cases h with
        | here hp ht => exact .here hp ht
        | later hp ht hps => exact .later hp ht (ih.2 (.inl ⟨u, hps, rfl⟩))
      · cases h with
        | later hp ht hps => exact .later hp ht (ih.2 (.inr ⟨hps, hqs⟩))

/-! ## Two by two -/

variable {b : Bracketing (Parser ν)}

/-- **A choice in brackets ends as the first success does**, from any state at the same place.
Where there is none, it has gone back to where it started. -/
theorem FirstOf.exists_join_or (h : FirstOf around s b.operands o)
    (hind : ∀ p ∈ b.operands, p.Independent around) (hs : s.failed = false)
    (hs' : s'.failed = false) (hb : s.OnBoundary) (hplace : s.SamePlace s') :
    ∃ t, (b.join or).EndsAmid around s' t ∧ (∀ u, o = some u → u.SameOutcome t) ∧
      (o = none → t.failed = true ∧ t.input = s'.input ∧
        (2 ≤ b.operands.length → s'.GivesUp .alternativesExhausted t)) := by
  induction b generalizing s' o with
  | operand p =>
    have hp' := hind p List.mem_cons_self
    cases h with
    | here hp ht =>
      obtain ⟨t', ht', hout⟩ := hp'.alike _ _ _ hs hs' hb hplace hp
      refine ⟨t', ht', fun u hu => ?_, nofun⟩
      cases hu
      exact hout
    | later hp ht hrest =>
      cases hrest
      obtain ⟨t', ht', hout⟩ := hp'.alike _ _ _ hs hs' hb hplace hp
      have hinput := (hp'.leads _ _ hs hb hp).input
      refine ⟨t', ht', nofun, fun _ => ⟨hout.failed_eq.symm.trans ht,
        hout.input.symm.trans (hinput.trans hplace.input), fun htwo => ?_⟩⟩
      exact absurd htwo (Nat.lt_irrefl 1)
  | pair left right ihl ihr =>
    obtain ⟨hl, hr⟩ := List.forall_mem_append.1 hind
    rcases firstOf_append_iff.1 h with ⟨u, hleft, rfl⟩ | ⟨hleft, hright⟩
    · obtain ⟨t, ht, hout, _⟩ := ihl hleft hl hs' hplace
      have hf : t.failed = false := (hout u rfl).failed_eq.symm.trans hleft.live
      exact ⟨t, (endsAmid_or_iff hs').2 (.inl ⟨ht, hf⟩), hout, nofun⟩
    · obtain ⟨t, ht, _, hnone⟩ := ihl hleft hl hs' hplace
      obtain ⟨hf, hinput, _⟩ := hnone rfl
      have hb' : s'.OnBoundary := hplace.onBoundary_iff.1 hb
      obtain ⟨w, hw, hout, hnone'⟩ := ihr hright hr (t.failed_rewind s'.cursor)
        (hplace.trans (hb'.samePlace_rewind hinput))
      cases o with
      | some u =>
        have hwf : w.failed = false := (hout u rfl).failed_eq.symm.trans hright.live
        exact ⟨w, (endsAmid_or_iff hs').2 (.inr (.inl ⟨t, ht, hf, hw, hwf⟩)), hout, nofun⟩
      | none =>
        obtain ⟨hwf, hinput', _⟩ := hnone' rfl
        have hback : w.input = s'.input := hinput'.trans hinput
        exact ⟨_, (endsAmid_or_iff hs').2 (.inr (.inr ⟨t, w, ht, hf, hw, hwf, rfl⟩)), nofun,
          fun _ => ⟨rfl, hback, fun _ => hb'.givesUp_rewind hback (.neither _ _)⟩⟩

/-- **Where a choice in brackets ends, there is a first success or none.** -/
theorem exists_firstOf_of_join_or (ht : (b.join or).EndsAmid around s' t)
    (hind : ∀ p ∈ b.operands, p.Independent around) (hs : s.failed = false)
    (hs' : s'.failed = false) (hb : s.OnBoundary) (hplace : s.SamePlace s') :
    ∃ o, FirstOf around s b.operands o := by
  have hb' : s'.OnBoundary := hplace.onBoundary_iff.1 hb
  induction b generalizing s' t with
  | operand p =>
    obtain ⟨u, hu, _⟩ := (hind p List.mem_cons_self).alike _ _ _ hs' hs hb' hplace.symm ht
    cases hf : u.failed with
    | true => exact ⟨none, .later hu hf .empty⟩
    | false => exact ⟨some u, .here hu hf⟩
  | pair left right ihl ihr =>
    obtain ⟨hl, hr⟩ := List.forall_mem_append.1 hind
    -- once the left part has failed, the right part is run, whether it succeeds or fails
    have goesOn {u w : State ν} (hu : (left.join or).EndsAmid around s' u)
        (hw : (right.join or).EndsAmid around (u.rewind s'.cursor) w) :
        ∃ o, FirstOf around s (left.operands ++ right.operands) o := by
      obtain ⟨o, hleft⟩ := ihl hu hl hs' hplace hb'
      cases o with
      | some v => exact ⟨some v, firstOf_append_iff.2 (.inl ⟨v, hleft, rfl⟩)⟩
      | none =>
        obtain ⟨u', hu', _, hnone⟩ := hleft.exists_join_or hl hs hs' hb hplace
        obtain rfl := hu.unique hu'
        have hback := hb'.samePlace_rewind (hnone rfl).2.1
        obtain ⟨o, hright⟩ := ihr hw hr rfl (hplace.trans hback) (hback.onBoundary_iff.1 hb')
        exact ⟨o, firstOf_append_iff.2 (.inr ⟨hleft, hright⟩)⟩
    rcases (endsAmid_or_iff hs').1 ht with
      ⟨hleft, hf⟩ | ⟨u, hu, _, hw, _⟩ | ⟨u, w, hu, _, hw, _⟩
    · obtain ⟨o, hfirst⟩ := ihl hleft hl hs' hplace hb'
      cases o with
      | some v => exact ⟨some v, firstOf_append_iff.2 (.inl ⟨v, hfirst, rfl⟩)⟩
      | none =>
        obtain ⟨t', ht', _, hnone⟩ := hfirst.exists_join_or hl hs hs' hb hplace
        obtain rfl := hleft.unique ht'
        rw [hf] at hnone
        cases (hnone rfl).1
    · exact goesOn hu hw
    · exact goesOn hu hw

/-! ## All at once -/

/-- **A choice of all at once ends as the first success does**, which is to be collected as one
element, from any state at the same place.  With nothing to choose from, it fails where it is, and
so gives up if nothing has been produced. -/
theorem FirstOf.exists_choice (h : FirstOf around s ps o)
    (hind : ∀ p ∈ ps, p.Independent around) (hs : s.failed = false) (hs' : s'.failed = false)
    (hb : s.OnBoundary) (hplace : s.SamePlace s')
    (hempty : ps = [] → s'.result = .absent ∧ s'.disposition = .keep) :
    ∃ t, (choice ps).EndsAmid around s' t ∧
      (∀ u, o = some u → (u.collectAs .keep).SameOutcome t) ∧
      (o = none → s'.GivesUp .alternativesExhausted t) := by
  induction h generalizing s' with
  | empty =>
    obtain ⟨hresult, hdisposition⟩ := hempty rfl
    exact ⟨_, (endsAmid_choice_nil_iff hs').2 rfl, nofun,
      fun _ => ⟨⟨rfl, rfl⟩, rfl, hresult, hdisposition⟩⟩
  | @here p ps t hp ht =>
    have hp' := hind p List.mem_cons_self
    have hb' : s'.OnBoundary := hplace.onBoundary_iff.1 hb
    obtain ⟨t', ht', hout⟩ := hp'.alike _ _ _ hs hs' hb hplace hp
    have hf : t'.failed = false := hout.failed_eq.symm.trans ht
    refine ⟨_, (endsAmid_choice_cons_iff hs' hb' fun u hu => ?_).2 (.inl ⟨t', ht', hf, rfl⟩),
      fun u hu => ?_, nofun⟩
    · exact (hp'.leads _ _ hs' hb' hu).input
    · cases hu
      exact hout.collectAs .keep
  | @later p ps t o hp ht _ ih =>
    have hp' := hind p List.mem_cons_self
    have hb' : s'.OnBoundary := hplace.onBoundary_iff.1 hb
    obtain ⟨t', ht', hout⟩ := hp'.alike _ _ _ hs hs' hb hplace hp
    have hf : t'.failed = true := hout.failed_eq.symm.trans ht
    have hback := hb'.samePlace_rewind (hp'.leads _ _ hs' hb' ht').input
    obtain ⟨w, hw, hsome, hnone⟩ := ih (fun q hq => hind q (List.mem_cons_of_mem p hq))
      (t'.failed_rewind s'.cursor) (hplace.trans hback) fun _ => ⟨rfl, rfl⟩
    refine ⟨w, (endsAmid_choice_cons_iff hs' hb' fun u hu => ?_).2 (.inr ⟨t', ht', hf, hw⟩), hsome,
      fun ho => (hnone ho).of_samePlace hback⟩
    exact (hp'.leads _ _ hs' hb' hu).input

/-- **Where a choice of all at once ends, there is a first success or none.** -/
theorem exists_firstOf_of_choice (ht : (choice ps).EndsAmid around s' t)
    (hind : ∀ p ∈ ps, p.Independent around) (hs : s.failed = false) (hs' : s'.failed = false)
    (hb : s.OnBoundary) (hplace : s.SamePlace s') : ∃ o, FirstOf around s ps o := by
  have hb' : s'.OnBoundary := hplace.onBoundary_iff.1 hb
  induction ps generalizing s' with
  | nil => exact ⟨none, .empty⟩
  | cons p ps ih =>
    have hp := hind p List.mem_cons_self
    have hinput : ∀ u, p.EndsAmid around s' u → u.input = s'.input :=
      fun u hu => (hp.leads _ _ hs' hb' hu).input
    rcases (endsAmid_choice_cons_iff hs' hb' hinput).1 ht with ⟨u, hu, hf, _⟩ | ⟨u, hu, hf, hrest⟩
    · obtain ⟨v, hv, hout⟩ := hp.alike _ _ _ hs' hs hb' hplace.symm hu
      exact ⟨some v, .here hv (hout.failed_eq.symm.trans hf)⟩
    · obtain ⟨v, hv, hout⟩ := hp.alike _ _ _ hs' hs hb' hplace.symm hu
      have hback := hb'.samePlace_rewind (hinput u hu)
      obtain ⟨o, ho⟩ := ih hrest (fun q hq => hind q (List.mem_cons_of_mem p hq)) rfl
        (hplace.trans hback) (hback.onBoundary_iff.1 hb')
      exact ⟨o, .later hv (hout.failed_eq.symm.trans hf) ho⟩

/-! ## Choices -/

/-- **All spellings of a choice agree.**  Two or more parsers that are put together by `or` in
whatever brackets, or all at once, end if there is a first one that succeeds where those before it
fail, or if all of them fail, each run from where the choice starts.  They end as the first success
does, except that `choice` has its result collected as one element; or they give up where they
started, with nothing produced, however much has been taken by those that have failed. -/
theorem join_or_agree (htwo : 2 ≤ b.operands.length)
    (hind : ∀ p ∈ b.operands, p.Independent around) (hs : s.failed = false) (hb : s.OnBoundary) :
    ((∃ t, (b.join or).EndsAmid around s t) ↔ ∃ o, FirstOf around s b.operands o) ∧
    ((∃ t', (choice b.operands).EndsAmid around s t') ↔ ∃ o, FirstOf around s b.operands o) ∧
    ∀ t t', (b.join or).EndsAmid around s t → (choice b.operands).EndsAmid around s t' →
      (∀ u, FirstOf around s b.operands (some u) →
        t.failed = false ∧ t.cursor = u.cursor ∧ t.result = u.result ∧
          t.disposition = u.disposition ∧
        t'.failed = false ∧ t'.cursor = u.cursor ∧ t'.result = u.result ∧
          t'.disposition = .keep) ∧
      (FirstOf around s b.operands none →
        s.GivesUp .alternativesExhausted t ∧ s.GivesUp .alternativesExhausted t') := by
  have hplace : s.SamePlace s := ⟨rfl, rfl⟩
  have hempty : b.operands = [] → s.result = .absent ∧ s.disposition = .keep := by
    intro h
    simp [h] at htwo
  refine ⟨⟨?_, ?_⟩, ⟨?_, ?_⟩, fun t t' ht ht' => ⟨fun u hu => ?_, fun hnone => ?_⟩⟩
  · rintro ⟨t, ht⟩
    exact exists_firstOf_of_join_or ht hind hs hs hb hplace
  · rintro ⟨o, ho⟩
    obtain ⟨t, ht, _⟩ := ho.exists_join_or hind hs hs hb hplace
    exact ⟨t, ht⟩
  · rintro ⟨t', ht'⟩
    exact exists_firstOf_of_choice ht' hind hs hs hb hplace
  · rintro ⟨o, ho⟩
    obtain ⟨t', ht', _⟩ := ho.exists_choice hind hs hs hb hplace hempty
    exact ⟨t', ht'⟩
  · obtain ⟨v, hv, hsome, _⟩ := hu.exists_join_or hind hs hs hb hplace
    obtain ⟨v', hv', hsome', _⟩ := hu.exists_choice hind hs hs hb hplace hempty
    obtain rfl := ht.unique hv
    obtain rfl := ht'.unique hv'
    have hout := hsome u rfl
    have hout' := hsome' u rfl
    have hlive : (u.collectAs .keep).failed = false := hu.live
    exact ⟨hout.failed_eq.symm.trans hu.live, hout.cursor.symm, (hout.result hu.live).symm,
      (hout.disposition hu.live).symm, hout'.failed_eq.symm.trans hlive, hout'.cursor.symm,
      (hout'.result hlive).symm, (hout'.disposition hlive).symm⟩
  · obtain ⟨v, hv, _, hgives⟩ := hnone.exists_join_or hind hs hs hb hplace
    obtain ⟨v', hv', _, hgives'⟩ := hnone.exists_choice hind hs hs hb hplace hempty
    obtain rfl := ht.unique hv
    obtain rfl := ht'.unique hv'
    exact ⟨(hgives rfl).2.2 htwo, hgives' rfl⟩

/-- A pair of which only the first part may match, a pair to be left out, and a part of it. -/
def branches : Bracketing (Parser Element) :=
  .pair (.operand (and (literal "a") (literal "x")))
    (.pair (.operand (ignore (and (literal "a") (literal "b")))) (.operand (literal "a")))

theorem independent_of_mem_branches : ∀ p ∈ branches.operands, p.Independent [] := by
  intro p hp
  simp only [branches, Bracketing.operands, List.cons_append, List.nil_append, List.mem_cons,
    List.not_mem_nil, or_false] at hp
  refine independent_of_actionless ?_
  rcases hp with rfl | rfl | rfl <;> simp [ignore]

/-- Behind a sign of two bytes, the first branch takes a byte before it fails, and the second one
decides; `choice` does not leave its result out. -/
theorem join_or_agree_branches :
    ∃ t t' : State Element,
      (branches.join or).EndsAmid []
          ((State.start (.ofString "éab")).advance 2 .absent) t ∧
        (choice branches.operands).EndsAmid []
          ((State.start (.ofString "éab")).advance 2 .absent) t' ∧
        t.failed = false ∧ t'.failed = false ∧ t.cursor = 4 ∧ t'.cursor = 4 ∧
        t.result = .list [.token "a", .token "b"] ∧ t'.result = t.result ∧
        t.disposition = .ignore ∧ t'.disposition = .keep := by
  obtain ⟨hends, hchoice, hagree⟩ := join_or_agree (b := branches) (by decide)
    independent_of_mem_branches (s := (State.start (.ofString "éab")).advance 2 .absent) rfl
    (State.onBoundary_advance _ _ _)
  obtain ⟨v, hv, hvf⟩ : ∃ v : State Element, (and (literal "a") (literal "x")).EndsAmid []
      ((State.start (.ofString "éab")).advance 2 .absent) v ∧ v.failed = true :=
    ⟨((and (literal "a") (literal "x")).runFrom 1 Scope.none
        ((State.start (.ofString "éab")).advance 2 .absent)).get (by decide +kernel),
      ⟨1, (Option.some_get _).symm⟩, by decide +kernel⟩
  obtain ⟨u, hu, huf, hcursor, hresult, hdisposition⟩ : ∃ u : State Element,
      (ignore (and (literal "a") (literal "b"))).EndsAmid []
        ((State.start (.ofString "éab")).advance 2 .absent) u ∧ u.failed = false ∧
        u.cursor = 4 ∧ u.result = .list [.token "a", .token "b"] ∧ u.disposition = .ignore :=
    ⟨((ignore (and (literal "a") (literal "b"))).runFrom 1 Scope.none
        ((State.start (.ofString "éab")).advance 2 .absent)).get (by decide +kernel),
      ⟨1, (Option.some_get _).symm⟩, by decide +kernel, by decide +kernel, by decide +kernel,
      by decide +kernel⟩
  have hfirst : FirstOf [] ((State.start (.ofString "éab")).advance 2 .absent)
      branches.operands (some u) := .later hv hvf (.here hu huf)
  obtain ⟨t, ht⟩ := hends.2 ⟨_, hfirst⟩
  obtain ⟨t', ht'⟩ := hchoice.2 ⟨_, hfirst⟩
  obtain ⟨hf, hc, hr, hd, hf', hc', hr', hd'⟩ := (hagree t t' ht ht').1 u hfirst
  exact ⟨t, t', ht, ht', hf, hf', hc.trans hcursor, hc'.trans hcursor, hr.trans hresult,
    hr'.trans hr.symm, hd.trans hdisposition, hd'⟩

end TextGrammar.Parser
