import TextGrammar.Element
import TextGrammar.Proofs.Disposition.Step
import TextGrammar.Proofs.Parser.Closed
import TextGrammar.Proofs.Parser.Endings

/-!
# Who says how a result is to be collected

The way in which a result is to be collected travels with the state.  Most parsers set it; the others
pass on what a part of them, or the parser that a handle stands for, has set.

* `Parser.ownDisposition` — what a parser sets, if it does.
* `Parser.disposition_of_step` — a success has what its parser sets.
* `Parser.Origin` — the parser that has produced a state, which the others have passed on.
* `Parser.Placed` — a part of a grammar, with a scope for its handles.
* `Parser.Placed.traced` — every success of such a part has its origin in a parser that sets how it is
  to be collected.  The induction is on the part, with a second one on the depth of the recursion.
* `Parser.disposition_traced` — so that can be told of every success of a part of a grammar, and what
  is to be spliced is a list that two parsers in order have made.
-/

namespace TextGrammar.Parser

variable {ν : Type} {around around' : Surroundings ν} {root p q r : Parser ν} {s t u : State ν}
  {b : Nat} {scope : Scope ν}

/-! ## Own dispositions -/

/-- How every success of the parser is to be collected, if the parser itself says so.  The others pass
on what a parser inside has said, or one that is chosen by a result or bound to a handle. -/
def ownDisposition : Parser ν → Option Disposition
  | literal _ | pattern _ | sequence _ | choice _ | optional _ | many .. | separated .. | all _
  | map .. | mapWithLine .. | recover .. => some .keep
  | endOfInput => some .ignore
  | collectedAs d _ => some d
  | and .. => some .splice
  | or .. | chain .. | named .. | recursive .. | handle _ | custom .. => none

/-- **A success is to be collected as its parser says**, whatever the parsers inside have said. -/
theorem disposition_of_step {d : Disposition} (hd : p.ownDisposition = some d)
    (hrun : p.step b scope s = some t) (ht : t.failed = false) : t.disposition = d := by
  cases p with
  | literal text =>
    cases hd
    exact Step.collectsAs_literal text s t hrun ht
  | pattern pattern =>
    cases hd
    exact Step.collectsAs_pattern pattern s t hrun ht
  | endOfInput =>
    cases hd
    exact Step.collectsAs_endOfInput s t hrun ht
  | sequence ps =>
    cases hd
    exact Step.collectsAs_sequence _ s t hrun ht
  | and left right =>
    cases hd
    exact Step.collectsAs_and _ _ s t hrun ht
  | choice ps =>
    cases hd
    exact Step.collectsAs_choice _ s t hrun ht
  | optional p =>
    cases hd
    exact Step.collectsAs_optional _ s t hrun ht
  | collectedAs d p =>
    cases hd
    exact Step.collectsAs_collectedAs _ _ s t hrun ht
  | many least p =>
    cases hd
    exact Step.collectsAs_many _ _ _ _ s t hrun ht
  | separated least value separator =>
    cases hd
    exact Step.collectsAs_separated _ _ _ _ _ _ s t hrun ht
  | all p =>
    cases hd
    exact Step.collectsAs_all _ _ _ s t hrun ht
  | map f p =>
    cases hd
    exact Step.collectsAs_map _ _ s t hrun ht
  | mapWithLine f p =>
    cases hd
    exact Step.collectsAs_mapWithLine _ _ s t hrun ht
  | recover f p =>
    cases hd
    exact Step.collectsAs_recover _ _ s t hrun ht
  | or | chain | named | recursive | handle | custom => cases hd

/-! ## Origins -/

/-- The state `t`, in which `p` ends from `s`, has been produced by the parser `r` amid `around'`, and
has been passed on since: by the branch that a choice of two has taken, the parser that a result has
chosen, a parser that has got a name, or the body of a recursive parser, to which a handle leads as
well. -/
inductive Origin (t : State ν) (around' : Surroundings ν) (r : Parser ν) :
    Surroundings ν → Parser ν → State ν → Prop where
  | self {s : State ν} (hr : r.EndsAmid around' s t) : Origin t around' r around' r s
  | orLeft {around : Surroundings ν} {left right : Parser ν} {s : State ν}
      (h : Origin t around' r around left s) : Origin t around' r around (or left right) s
  | orRight {around : Surroundings ν} {left right : Parser ν} {s u : State ν}
      (hleft : left.EndsAmid around s u) (hu : u.failed = true)
      (h : Origin t around' r around right (u.rewind s.cursor)) :
      Origin t around' r around (or left right) s
  | chain {around : Surroundings ν} {next : Value ν → Parser ν} {p : Parser ν} {s u : State ν}
      (hp : p.EndsAmid around s u) (hu : u.failed = false)
      (h : Origin t around' r around (next u.result) u.take) :
      Origin t around' r around (chain next p) s
  | named {around : Surroundings ν} {label : String} {p : Parser ν} {s : State ν}
      (h : Origin t around' r around p s) : Origin t around' r around (named label p) s
  | recursive {around : Surroundings ν} {self : Handle} {body : Parser ν} {s : State ν}
      (h : Origin t around' r ((self, body) :: around) body s) :
      Origin t around' r around (recursive self body) s
  | handle (inner : Surroundings ν) {outer : Surroundings ν} {self : Handle} {body : Parser ν}
      {s : State ν} (hinner : self ∉ inner.map Prod.fst)
      (h : Origin t around' r ((self, body) :: outer) body s) :
      Origin t around' r (inner ++ (self, body) :: outer) (handle self) s

/-- The origin of a success stands in the same grammar. -/
theorem Origin.occurs (h : Origin t around' r around p s) (hp : root.Occurs around p) :
    root.Occurs around' r := by
  induction h with
  | self => exact hp
  | orLeft _ ih => exact ih (hp.part (.orLeft _ _) nofun)
  | orRight _ _ _ ih => exact ih (hp.part (.orRight _ _) nofun)
  | chain _ _ _ ih => exact ih (hp.part (.chosen _ _ _) nofun)
  | named _ ih => exact ih (hp.part (.named _ _) nofun)
  | recursive _ ih => exact ih hp.body
  | handle _ _ _ ih => exact ih (hp.outer rfl).body

/-- It has been run from a state that had not failed, and has ended there. -/
theorem Origin.exists_ends (h : Origin t around' r around p s) (hs : s.failed = false) :
    ∃ s', s'.failed = false ∧ r.EndsAmid around' s' t := by
  induction h with
  | self hr => exact ⟨_, hs, hr⟩
  | orLeft _ ih => exact ih hs
  | orRight _ _ _ ih => exact ih rfl
  | chain _ hu _ ih => exact ih hu
  | named _ ih => exact ih hs
  | recursive _ ih => exact ih hs
  | handle _ _ _ ih => exact ih hs

/-- The success `t` of the parser has its origin in a parser that says how it is to be collected. -/
def Traced (around : Surroundings ν) (p : Parser ν) (s t : State ν) : Prop :=
  ∃ around' r, Origin t around' r around p s ∧ r.ownDisposition = some t.disposition

theorem Traced.imp {around₁ : Surroundings ν} {p₁ : Parser ν} {s₁ : State ν}
    (h : Traced around p s t)
    (hpass : ∀ around' r, Origin t around' r around p s → Origin t around' r around₁ p₁ s₁) :
    Traced around₁ p₁ s₁ t := by
  obtain ⟨around', r, horigin, hown⟩ := h
  exact ⟨around', r, hpass around' r horigin, hown⟩

/-- A handle stands for the same among more parsers, unless the innermost of them binds it. -/
theorem Traced.of_outer {h h' : Handle} {body : Parser ν} (hne : h' ≠ h)
    (htraced : Traced around (handle h') s t) : Traced ((h, body) :: around) (handle h') s t := by
  obtain ⟨around', r, horigin, hr⟩ := htraced
  cases horigin with
  | self => cases hr
  | handle inner hinner horigin =>
    refine ⟨around', r, .handle ((h, body) :: inner) ?_ horigin, hr⟩
    rw [List.map_cons, List.mem_cons]
    exact not_or.2 ⟨hne, hinner⟩

/-! ## Parts in their place -/

/-- The parser is put together from the library alone: it contains no actions, and where it says how a
result is to be collected, the result is to be left out. -/
structure Plain (p : Parser ν) : Prop where
  actionless : p.EveryAction fun _ => False
  eq_ignore : ∀ d q, p.Contains (collectedAs d q) → d = .ignore

theorem Plain.of_part (hcustom : ∀ shown act, p ≠ custom shown act)
    (hcollected : ∀ d q, p = collectedAs d q → d = .ignore) (h : ∀ q, Part p q → q.Plain) :
    p.Plain where
  actionless := everyAction_of_part hcustom fun q hq => (h q hq).actionless
  eq_ignore d r hc := by
    rcases contains_iff.1 hc with hr | ⟨q, hq, hr⟩
    · exact hcollected d r hr.symm
    · exact (h q hq).eq_ignore d r hr

theorem Plain.iff_of_part (hcustom : ∀ shown act, p ≠ custom shown act)
    (hcollected : ∀ d q, p = collectedAs d q → d = .ignore) :
    p.Plain ↔ ∀ q, Part p q → q.Plain where
  mp h _ hq :=
    ⟨h.actionless.part hq, fun d r hc => h.eq_ignore d r (hq.contains hc)⟩
  mpr := .of_part hcustom hcollected

@[simp] theorem plain_literal (text : String) : (literal text : Parser ν).Plain := by
  simp [Plain.iff_of_part]

@[simp] theorem plain_handle (h : Handle) : (handle h : Parser ν).Plain := by
  simp [Plain.iff_of_part]

@[simp] theorem plain_and_iff : (and p q).Plain ↔ p.Plain ∧ q.Plain := by
  simp [Plain.iff_of_part]

@[simp] theorem plain_or_iff : (or p q).Plain ↔ p.Plain ∧ q.Plain := by
  simp [Plain.iff_of_part]

@[simp] theorem plain_ignore_iff : (ignore p).Plain ↔ p.Plain := by
  rw [ignore, Plain.iff_of_part (by simp) fun _ _ h => by cases h; rfl]
  simp

@[simp] theorem plain_named_iff {label : String} : (named label p).Plain ↔ p.Plain := by
  simp [Plain.iff_of_part]

@[simp] theorem plain_recursive_iff {h : Handle} : (recursive h p).Plain ↔ p.Plain := by
  simp [Plain.iff_of_part]

/-- The part stands amid recursive parsers, and the handles stand for these, down to some depth, and
their successes have their origins in them. -/
structure Placed (around : Surroundings ν) (b : Nat) (scope : Scope ν) (p : Parser ν) : Prop where
  actionless : p.EveryAction fun _ => False
  le : ∀ h, (scope h).Le (around.scope b h)
  traced_handle : ∀ h s t, s.failed = false → scope h s = some t → t.failed = false →
    Traced around (handle h) s t

namespace Placed

theorem part (hp : Placed around b scope p) (h : Part p q) : Placed around b scope q :=
  ⟨hp.actionless.part h, hp.le, hp.traced_handle⟩

/-- The body of a recursion stands amid one recursive parser more, which is unfolded less deeply. -/
theorem body {h : Handle} {body : Parser ν} (hp : Placed around b scope (recursive h body))
    {self : Step ν} (hle : self.Le ((recursive h body).step b (around.scope b)))
    (htraced : ∀ s t, s.failed = false → self s = some t → t.failed = false →
      Traced ((h, body) :: around) body s t) :
    Placed ((h, body) :: around) b (scope.bind h self) body where
  actionless := hp.actionless.part (.recursive h body)
  le := Scope.le_bind hp.le h hle
  traced_handle other s t hs hrun ht := by
    by_cases heq : other = h
    · subst heq
      rw [Scope.bind_self] at hrun
      exact (htraced s t hs hrun ht).imp fun _ _ => .handle [] List.not_mem_nil
    · rw [Scope.bind_of_ne _ _ heq] at hrun
      exact (hp.traced_handle other s t hs hrun ht).of_outer heq

theorem endsAmid (hp : Placed around b scope p) (hs : s.failed = false)
    (hrun : p.step b scope s = some t) : p.EndsAmid around s t :=
  (endsAmid_iff_step hs).2 ⟨b, p.step_le (Nat.le_refl b) hp.le s t hrun⟩

/-- A parser that says itself how its results are to be collected is an origin. -/
theorem traced_of_own (hp : Placed around b scope p) {d : Disposition}
    (hd : p.ownDisposition = some d) (hs : s.failed = false) (hrun : p.step b scope s = some t)
    (ht : t.failed = false) : Traced around p s t :=
  ⟨around, p, .self (hp.endsAmid hs hrun), by rw [hd, disposition_of_step hd hrun ht]⟩

/-- **Every success of a part of a grammar has its origin.** -/
theorem traced (hp : Placed around b scope p) (hs : s.failed = false)
    (hrun : p.step b scope s = some t) (ht : t.failed = false) : Traced around p s t := by
  induction p generalizing around scope s t with
  | literal | pattern | endOfInput | sequence | and | choice | optional | collectedAs | many
  | separated | all | map | mapWithLine | recover => exact hp.traced_of_own rfl hs hrun ht
  | or left right ihl ihr =>
    have hl : Placed around b scope left := hp.part (.orLeft left right)
    have hr : Placed around b scope right := hp.part (.orRight left right)
    obtain ⟨u, hu, hrun⟩ := Option.bind_eq_some_iff.1 hrun
    split at hrun
    · rename_i hf
      obtain ⟨w, hw, hrun⟩ := Option.bind_eq_some_iff.1 hrun
      split at hrun
      · cases hrun
        cases ht
      · cases hrun
        exact (ihr hr rfl hw ht).imp fun _ _ => .orRight (hl.endsAmid hs hu) hf
    · cases hrun
      exact (ihl hl hs hu ht).imp fun _ _ => .orLeft
  | chain next p ihn ih =>
    have hp' : Placed around b scope p := hp.part (.chain next p)
    obtain ⟨u, hu, hrun⟩ := Option.bind_eq_some_iff.1 hrun
    split at hrun
    · rename_i hf
      cases hrun
      simp [hf] at ht
    · rename_i hf
      rw [Bool.not_eq_true] at hf
      have hchosen : Traced around (next u.result) u.take t :=
        ihn u.result (hp.part (.chosen next p u.result)) hf hrun ht
      exact hchosen.imp fun _ _ => .chain (hp'.endsAmid hs hu) hf
  | named label p ih =>
    exact (ih (hp.part (.named label p)) hs hrun ht).imp fun _ _ => .named
  | recursive h body ih =>
    -- the recursion to every depth up to the budget, which is the depth that stands for the handle
    have hdepth : ∀ k ≤ b, ∀ s t, s.failed = false →
        Step.fix (fun self => body.step b (scope.bind h self)) k s = some t → t.failed = false →
          Traced ((h, body) :: around) body s t := by
      intro k
      induction k with
      | zero =>
        intro _ s t _ hrun
        cases hrun
      | succ k ihk =>
        intro hk s t hs hrun ht
        have hle := Step.fix_le (b := k)
          (fun p q hpq => body.step_le (Nat.le_refl b) (Scope.le_bind hp.le h hpq))
          (Nat.le_of_succ_le hk)
        exact ih (hp.body hle (ihk (Nat.le_of_succ_le hk))) hs hrun ht
    exact (hdepth b (Nat.le_refl b) s t hs hrun ht).imp fun _ _ => .recursive
  | handle h => exact hp.traced_handle h s t hs hrun ht
  | custom shown act => exact (hp.actionless shown act (.refl _)).elim

end Placed

/-- The successes of handles have their origins in the recursive parsers that bind them. -/
theorem traced_scope (haround : ∀ r ∈ around, (recursive r.1 r.2).EveryAction fun _ => False) :
    ∀ h s t, s.failed = false → around.scope b h s = some t → t.failed = false →
      Traced around (handle h) s t := by
  induction around with
  | nil =>
    intro h s t _ hrun ht
    cases hrun
    cases ht
  | cons r around ih =>
    intro h s t hs hrun ht
    obtain ⟨self, body⟩ := r
    have hinner := ih fun r hr => haround r (List.mem_cons_of_mem _ hr)
    by_cases heq : h = self
    · subst heq
      rw [Surroundings.scope, Scope.bind_self] at hrun
      have hp : Placed around b (Surroundings.scope b around) (recursive h body) :=
        ⟨haround _ List.mem_cons_self, fun _ => Step.Le.refl _, hinner⟩
      obtain ⟨around', r, horigin, hown⟩ := hp.traced hs hrun ht
      cases horigin with
      | self => cases hown
      | recursive horigin =>
        exact ⟨around', r, .handle [] List.not_mem_nil horigin, hown⟩
    · rw [Surroundings.scope, Scope.bind_of_ne _ _ heq] at hrun
      exact (hinner h s t hs hrun ht).of_outer heq

theorem Occurs.placed (hroot : root.EveryAction fun _ => False) (hp : root.Occurs around p)
    (b : Nat) : Placed around b (around.scope b) p where
  actionless shown act hc := hroot shown act (hp.contains.trans hc)
  le _ := Step.Le.refl _
  traced_handle :=
    traced_scope fun r hr shown act hc => hroot shown act ((hp.contains_around r hr).trans hc)

/-- **How every success is to be collected.**  In a grammar of the library's parsers, a success of any
part is to be collected as the part says, if it says so, and in any case as the parser of the grammar
says that is its origin.  So what is to be spliced is a list that two parsers in order have made. -/
theorem disposition_traced (hroot : root.Plain) (hp : root.Occurs around p) (hs : s.failed = false)
    (hends : p.EndsAmid around s t) (ht : t.failed = false) :
    (∀ d, p.ownDisposition = some d → t.disposition = d) ∧
    ∃ around' r s', Origin t around' r around p s ∧ root.Occurs around' r ∧
      s'.failed = false ∧ r.EndsAmid around' s' t ∧ r.ownDisposition = some t.disposition ∧
      (t.disposition = .splice → (∃ left right, r = and left right) ∧ t.result = .list t.spliced) := by
  obtain ⟨b, hrun⟩ := (endsAmid_iff_step hs).1 hends
  obtain ⟨around', r, horigin, hown⟩ := (hp.placed hroot.actionless b).traced hs hrun ht
  obtain ⟨s', hs', hr⟩ := horigin.exists_ends hs
  have hocc := horigin.occurs hp
  refine ⟨fun d hd => disposition_of_step hd hrun ht, around', r, s', horigin, hocc, hs', hr, hown,
    fun hsplice => ?_⟩
  rw [hsplice] at hown
  obtain ⟨left, right, rfl⟩ : ∃ left right, r = and left right := by
    cases r with
    | and left right => exact ⟨left, right, rfl⟩
    | collectedAs d q =>
      obtain rfl := hroot.eq_ignore d q hocc.contains
      cases hown
    | _ => cases hown
  exact ⟨⟨left, right, rfl⟩, (result_of_endsAmid_and hs' hr ht).2⟩

/-- Brackets around more of the kind, or a letter that is left out. -/
def nestBody : Parser Element :=
  or (and (literal "(") (and (handle 0) (literal ")"))) (ignore (literal "a"))

def nest : Parser Element := recursive 0 (named "nest" nestBody)

theorem nest_plain : nest.Plain := by simp [nest, nestBody]

/-- Run where the handle stands, on the inner of two pairs of brackets: what the handle gives is to be
spliced, as two parsers in order have said. -/
theorem disposition_traced_nest :
    ∃ (t : State Element) (around' : Surroundings Element) (left right : Parser Element),
      (handle 0).EndsAmid [(0, named "nest" nestBody)]
          ((State.start (.ofString "é((a))")).advance 3 .absent) t ∧
        t.disposition = .splice ∧
        Origin t around' (and left right) [(0, named "nest" nestBody)] (handle 0)
          ((State.start (.ofString "é((a))")).advance 3 .absent) ∧
        nest.Occurs around' (and left right) ∧
        t.result = .list [.token "(", .token ")"] ∧ t.spliced = [.token "(", .token ")"] := by
  have hbody : nest.Occurs [(0, named "nest" nestBody)] nestBody :=
    (Occurs.root.body).part (.named "nest" nestBody) nofun
  have hocc : nest.Occurs [(0, named "nest" nestBody)] (handle 0) :=
    ((hbody.part (.orLeft _ _) nofun).part (.andRight _ _) nofun).part (.andLeft _ _) nofun
  obtain ⟨t, hends, hlive, hsplice, hresult⟩ : ∃ t : State Element,
      (handle 0).EndsAmid [(0, named "nest" nestBody)]
          ((State.start (.ofString "é((a))")).advance 3 .absent) t ∧
        t.failed = false ∧ t.disposition = .splice ∧ t.result = .list [.token "(", .token ")"] :=
    ⟨((handle 0).runFrom 5 (Surroundings.scope 5 [(0, named "nest" nestBody)])
        ((State.start (.ofString "é((a))")).advance 3 .absent)).get (by decide +kernel),
      ⟨5, (Option.some_get _).symm⟩, by decide +kernel, by decide +kernel, by decide +kernel⟩
  obtain ⟨_, around', r, s', horigin, hocc', _, _, _, hlist⟩ :=
    disposition_traced nest_plain hocc rfl hends hlive
  obtain ⟨⟨left, right, rfl⟩, hspliced⟩ := hlist hsplice
  exact ⟨t, around', left, right, hends, hsplice, horigin, hocc', hresult,
    Value.list.inj (hspliced.symm.trans hresult)⟩

end TextGrammar.Parser
