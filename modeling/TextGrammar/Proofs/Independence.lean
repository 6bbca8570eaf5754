import TextGrammar.Parser.Basic
import TextGrammar.Parser.Run
import TextGrammar.Proofs.Parser.Part
import TextGrammar.Proofs.Parser.Surroundings
import TextGrammar.Proofs.State
import TextGrammar.Proofs.Lockstep.Parser

/-!
# Parsers do not look back

What a parser does depends on the input and on the place in it, and on nothing that earlier parsers
have left in the state.

* `State.SameOutcome` — states between which nothing that comes later can tell.
* `Step.Independent` — a step that leads from the same place to the same outcome.
* `Parser.ActsIndependently` — all actions in a parser are independent.  Those of `take`, `back`,
  `lineNumber`, `succeed` and `fail` are; that of `seen` is not.
* `Parser.ActsIndependently.exists_sameOutcome` — what a parser with such actions does amid recursive
  ones, it does from every state at the same place.
* `Parser.ends_sameOutcome` — a parser whose actions are independent is independent itself.

The proof runs a parser in lockstep with itself, with nothing in front of the text and results seen
as they are.
-/

namespace TextGrammar

variable {ν : Type}

/-! ## Outcomes -/

/-- States at the same place, failed for the same reason, or with the same result to be collected in
the same way.  The result that a failed state keeps is not compared. -/
structure State.SameOutcome (t t' : State ν) : Prop extends t.SamePlace t' where
  failure : t.failure = t'.failure
  result : t.failed = false → t.result = t'.result
  disposition : t.failed = false → t.disposition = t'.disposition

/-- A step that leads from the same place to the same outcome, whatever was produced before. -/
def Step.Independent (p : Step ν) : Prop :=
  ∀ s s' : State ν, s.failed = false → s'.failed = false → s.SamePlace s' →
    Option.Rel State.SameOutcome (p s) (p s')

/-- All actions that the parser contains are independent. -/
def Parser.ActsIndependently (p : Parser ν) : Prop :=
  ∀ shown act, p.Contains (Parser.custom shown act) → (Step.ofState act).Independent

/-! ## A parser in lockstep with itself -/

/-- Two runs over the same text that are to give the same. -/
def Pairing.same : Pairing ν := ⟨[], View.plain, true⟩

/-- Callbacks correspond to themselves only, and actions only if they are independent. -/
def Likeness.itself : Likeness ν where
  values v v' := v = v'
  maps f f' := f = f'
  mapsWithLine f f' := f = f'
  recoveries f f' := f = f'
  actions act act' := act = act' ∧ (Step.ofState act).Independent
  renames := false

theorem Pairing.same_places_iff {s s' : State ν} : same.Places s s' ↔ s.SamePlace s' := by
  constructor
  · rintro ⟨hchars, hcursor⟩
    exact ⟨Input.ext hchars, by simpa [same] using hcursor⟩
  · rintro ⟨hinput, hcursor⟩
    exact ⟨by rw [hinput]; rfl, by simpa [same] using hcursor⟩

theorem Pairing.same_failures_iff {f f' : Failure} : (@same ν).Failures f f' ↔ f = f' := by
  constructor
  · rintro ⟨hkind, hmessage⟩
    cases f
    cases f'
    cases hkind
    cases hmessage rfl
    rfl
  · rintro rfl
    exact Failures.refl f

theorem Pairing.same_outcomes_iff {t t' : State ν} : same.Outcomes t t' ↔ t.SameOutcome t' := by
  constructor
  · intro h
    refine ⟨same_places_iff.1 h.toPlaces, ?_, h.result, h.disposition⟩
    have hf := h.failure
    generalize t.failure = f at hf ⊢
    generalize t'.failure = f' at hf ⊢
    cases hf with
    | none => rfl
    | some hf => rw [same_failures_iff.1 hf]
  · intro h
    refine ⟨same_places_iff.2 h.toSamePlace, ?_, h.result, h.disposition⟩
    rw [h.failure]
    cases t'.failure with
    | none => exact .none
    | some f => exact .some (Failures.refl f)

theorem Pairing.rel_same_outcomes_iff {x y : Option (State ν)} :
    Option.Rel same.Outcomes x y ↔ Option.Rel State.SameOutcome x y := by
  rw [show same.Outcomes = State.SameOutcome from
    funext fun t => funext fun t' => propext (same_outcomes_iff (ν := ν))]

theorem Pairing.same_lockstep_iff {p : Step ν} : same.Lockstep p p ↔ p.Independent := by
  constructor
  · intro h s s' hs hs' hp
    exact rel_same_outcomes_iff.1 (h s s' hs hs' (same_places_iff.2 hp))
  · intro h s s' hs hs' hp
    exact rel_same_outcomes_iff.2 (h s s' hs hs' (same_places_iff.1 hp))

theorem Likeness.itself_sound : (@itself ν).Sound Pairing.same where
  values _ _ h := h
  maps _ _ hf v v' n hv := by
    obtain rfl : v = v' := hv
    rw [hf]
    simp [Pairing.same]
  mapsWithLine _ _ hf v v' n hv := by
    obtain rfl : v = v' := hv
    rw [hf]
    simp [Pairing.same]
  recoveries _ _ hf e e' hkind hmessage hposition hline := by
    obtain ⟨_, _, _, _⟩ := e
    obtain ⟨_, _, _, _⟩ := e'
    simp only [Pairing.same, Text.byteLength_nil, List.count_nil, Nat.zero_add] at *
    subst hkind hposition hline
    obtain rfl := hmessage trivial
    rw [hf]
  actions act act' h := by
    rw [← h.1]
    exact Pairing.same_lockstep_iff.2 h.2
  renames _ := rfl

namespace Parser

/-- A parser with independent actions is like itself. -/
theorem ActsIndependently.alike {p : Parser ν} (hp : p.ActsIndependently) :
    Alike Likeness.itself p p := by
  have zip : ∀ {ps : List (Parser ν)}, (∀ q ∈ ps, Alike Likeness.itself q q) →
      ∀ {q q' : Parser ν}, (q, q') ∈ ps.zip ps → Alike Likeness.itself q q' :=
    fun h _ _ hm => (List.forall₂_iff_zip.1 (List.forall₂_same.2 h)).2 hm
  have part : ∀ {p q : Parser ν}, p.ActsIndependently → Part p q → q.ActsIndependently :=
    fun hp h shown act hc => hp shown act (h.contains hc)
  induction p with
  | literal text => exact .literal text
  | pattern p => exact .pattern p
  | endOfInput => exact .endOfInput
  | sequence ps ih => exact .sequence rfl (zip fun q hq => ih q hq (part hp (.sequence hq)))
  | and left right ihl ihr =>
    exact .and (ihl (part hp (.andLeft left right))) (ihr (part hp (.andRight left right)))
  | or left right ihl ihr =>
    exact .or (ihl (part hp (.orLeft left right))) (ihr (part hp (.orRight left right)))
  | choice ps ih => exact .choice rfl (zip fun q hq => ih q hq (part hp (.choice hq)))
  | optional p ih => exact .optional (ih (part hp (.optional p)))
  | collectedAs d p ih => exact .collectedAs d (ih (part hp (.collectedAs d p)))
  | many least p ih => exact .many least (ih (part hp (.many least p)))
  | separated least value separator ihv ihs =>
    exact .separated least (ihv (part hp (.value least value separator)))
      (ihs (part hp (.separator least value separator)))
  | all p ih => exact .all (ih (part hp (.all p)))
  | map f p ih => exact .map rfl (ih (part hp (.map f p)))
  | mapWithLine f p ih => exact .mapWithLine rfl (ih (part hp (.mapWithLine f p)))
  | recover f p ih => exact .recover rfl (ih (part hp (.recover f p)))
  | chain next p ihn ih =>
    refine .chain (fun v v' hv => ?_) (ih (part hp (.chain next p)))
    obtain rfl : v = v' := hv
    exact ihn v (part hp (.chosen next p v))
  | named label p ih => exact .named label (ih (part hp (.named label p)))
  | recursive h body ih => exact .recursive h (ih (part hp (.recursive h body)))
  | handle h => exact .handle h
  | custom shown act => exact .custom shown ⟨rfl, hp shown act (.refl _)⟩

/-- The step of a parser with independent actions is independent, where handles are. -/
theorem ActsIndependently.independent_step {p : Parser ν} (hp : p.ActsIndependently) (b : Nat)
    {scope : Scope ν} (hscope : ∀ h, (scope h).Independent) : Step.Independent (p.step b scope) :=
  Pairing.same_lockstep_iff.1 <| hp.alike.lockstep Likeness.itself_sound b fun h =>
    Pairing.same_lockstep_iff.2 (hscope h)

end Parser

theorem Scope.independent_none (h : Handle) : (Scope.none h : Step ν).Independent :=
  Pairing.same_lockstep_iff.1 Pairing.Lockstep.stray

/-- **What a parser does amid recursive parsers, it does from every state at the same place**, if
its actions and those of the parsers around it are independent. -/
theorem Parser.ActsIndependently.exists_sameOutcome {around : Surroundings ν} {p : Parser ν}
    (hp : p.ActsIndependently) (haround : ∀ r ∈ around, r.2.ActsIndependently) {s s' t : State ν}
    (hs : s.failed = false) (hs' : s'.failed = false) (hplace : s.SamePlace s')
    (hends : p.EndsAmid around s t) : ∃ t', p.EndsAmid around s' t' ∧ t.SameOutcome t' := by
  obtain ⟨b, hrun⟩ := hends
  have hscope : ∀ h, (around.scope b h).Independent := by
    refine Surroundings.forall_scope (Scope.independent_none 0) fun r hr outer houter => ?_
    have hrecursive : (recursive r.1 r.2).ActsIndependently :=
      everyAction_recursive_iff.2 (haround r hr)
    exact hrecursive.independent_step b houter
  have hrel := hp.independent_step b hscope s s' hs hs' hplace
  rw [p.runFrom_of_live b _ hs] at hrun
  rw [hrun] at hrel
  cases hagain : p.step b (around.scope b) s' with
  | none => simp [hagain] at hrel
  | some t' =>
    rw [hagain] at hrel
    cases hrel with
    | some hout => exact ⟨t', ⟨b, (p.runFrom_of_live b _ hs').trans hagain⟩, hout⟩

/-! ## Actions -/

/-- A success made of what lies at the place only. -/
theorem State.SamePlace.advance {s s' : State ν} (h : s.SamePlace s') (n : Nat) (v : Value ν) :
    (s.advance n v).SameOutcome (s'.advance n v) := by
  refine ⟨⟨h.input, ?_⟩, rfl, fun _ => rfl, fun _ => rfl⟩
  show s.input.floor (s.cursor + n) = s'.input.floor (s'.cursor + n)
  rw [h.input, h.cursor]

namespace Parser

theorem actsIndependently_custom_iff {shown : String} {act : State ν → State ν} :
    (custom shown act).ActsIndependently ↔ (Step.ofState act).Independent :=
  everyAction_custom_iff

theorem actsIndependently_optional {p : Parser ν} (hp : p.ActsIndependently) :
    (optional p).ActsIndependently :=
  everyAction_optional_iff.2 hp

theorem actsIndependently_take (count : Nat) : (take count : Parser ν).ActsIndependently := by
  refine actsIndependently_custom_iff.2 fun s s' _ _ h => .some ?_
  simp only
  have hstop := (h.advance count .absent).cursor
  have hrest : s.rest = s'.rest := by rw [State.rest, State.rest, h.input, h.cursor]
  rw [hstop, hrest, h.cursor]
  exact h.advance count _

theorem actsIndependently_back (count : Nat) : (back count : Parser ν).ActsIndependently := by
  refine actsIndependently_custom_iff.2 fun s s' _ _ h => .some ?_
  refine ⟨⟨h.input, ?_⟩, rfl, fun _ => rfl, fun _ => rfl⟩
  show s.input.floor (s.cursor - count) = s'.input.floor (s'.cursor - count)
  rw [h.input, h.cursor]

theorem actsIndependently_lineNumber : (lineNumber : Parser ν).ActsIndependently := by
  refine actsIndependently_custom_iff.2 fun s s' _ _ h => .some ?_
  have hline : s.line = s'.line := by rw [State.line, State.line, h.input, h.cursor]
  simp only [hline]
  exact h.advance 0 _

theorem actsIndependently_succeed (v : Value ν) : (succeed v).ActsIndependently :=
  actsIndependently_custom_iff.2 fun _ _ _ _ h => .some (h.advance 0 v)

theorem actsIndependently_fail (failure : Failure) : (fail failure : Parser ν).ActsIndependently :=
  actsIndependently_custom_iff.2 fun _ _ _ _ h =>
    .some ⟨⟨h.input, h.cursor⟩, rfl, fun h => (nomatch h), fun h => (nomatch h)⟩

/-- What `seen` produces depends on what was produced before. -/
theorem not_actsIndependently_seen : ¬ (seen : Parser ν).ActsIndependently := by
  intro h
  have hseen := actsIndependently_custom_iff.1 h
    (.start (.ofChars [])) ((State.start (.ofChars [])).succeed (.token "")) rfl rfl ⟨rfl, rfl⟩
  cases hseen with
  | some hseen => exact nomatch hseen.result rfl

/-! ## Independence -/

/-- **Parsers do not look back.**  From states at the same place, whatever was produced before, a
parser whose actions are independent ends in both cases or in none; and if it ends, it fails in both
cases or in none, at the same place, with the same failure or with the same result, to be collected
in the same way. -/
theorem ends_sameOutcome {p : Parser ν} (hp : p.ActsIndependently) {scope : Scope ν}
    (hscope : ∀ h, (scope h).Independent) {s s' : State ν} (hs : s.failed = false)
    (hs' : s'.failed = false) (hplace : s.SamePlace s') :
    ((∃ t, p.Ends scope s t) ↔ ∃ t', p.Ends scope s' t') ∧
      ∀ t t', p.Ends scope s t → p.Ends scope s' t' → t.SameOutcome t' := by
  obtain ⟨hiff, hends⟩ := hp.alike.ends Likeness.itself_sound
    (fun h => Pairing.same_lockstep_iff.2 (hscope h)) hs hs' (Pairing.same_places_iff.2 hplace)
  exact ⟨hiff, fun t t' ht ht' => Pairing.same_outcomes_iff.1 (hends t t' ht ht')⟩

/-- A taken byte, from the start and from where an earlier parser has left a list to be spliced. -/
theorem ends_sameOutcome_optional_take :
    ((State.start (.ofString "ab")).advance 1 (.token "a") : State Nat).SameOutcome
      ((((State.start (.ofString "ab")).succeed (.list [.absent])).collectAs .splice).advance 1
        (.token "a")) := by
  have hs : (State.start (.ofString "ab") : State Nat).failed = false := rfl
  have hs' : (((State.start (.ofString "ab") : State Nat).succeed (.list [.absent])).collectAs
      .splice).failed = false := rfl
  exact (ends_sameOutcome (actsIndependently_optional (actsIndependently_take 1))
    Scope.independent_none hs hs' ⟨rfl, rfl⟩).2 _ _ ⟨1, rfl⟩ ⟨1, rfl⟩

end Parser

end TextGrammar
