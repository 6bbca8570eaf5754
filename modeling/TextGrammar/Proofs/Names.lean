import TextGrammar.Proofs.Lockstep.Parser
import TextGrammar.Proofs.Names.Step

/-!
# Names do not matter

A parser is told from others by its label, and a name changes the label.  Labels are written into
messages while a parse is under way; but nothing that a parse does next depends on a message, unless
a recovery reads it.

* `Parser.SameButNames` — parsers that differ in names only, anywhere in them and in what results
  choose, with recoveries that do not read messages.
* `Parser.Alike.agrees` — such parsers take every state to the same one but for a message.
* `Parser.ends_sameButNames` — so they succeed alike, or fail for the same reason at the same place.
-/

namespace TextGrammar

variable {ν : Type}

/-- Names may differ.  Callbacks correspond to themselves only, and to a recovery errors with the
same kind and place are the same. -/
def Likeness.renaming : Likeness ν where
  values v v' := v = v'
  maps f f' := f = f'
  mapsWithLine f f' := f = f'
  recoveries f f' := f = f' ∧ ∀ e e' : ParseError, e.SameButMessage e' → f e = f e'
  actions act act' := act = act'
  renames := true

namespace Parser

/-- One parser becomes the other if names are added, removed and changed, and no recovery in them
reads the message of an error. -/
def SameButNames (p p' : Parser ν) : Prop := Alike Likeness.renaming p p'

/-- **Parsers that differ in names take every state to the same one, but for a message.** -/
theorem Alike.agrees {p p' : Parser ν} (h : Alike Likeness.renaming p p') (b : Nat)
    {scope scope' : Scope ν} (hs : ∀ h, (scope h).Agrees (scope' h)) :
    Step.Agrees (p.step b scope) (p'.step b scope') := by
  induction h generalizing scope scope' with
  | literal text => exact .refl _
  | pattern p => exact .refl _
  | endOfInput => exact .refl _
  | sequence hlen _ ih =>
    exact Step.Agrees.sequence (forall₂_steps (List.forall₂_iff_zip.2 ⟨hlen, fun hm => ih hm hs⟩))
  | and _ _ ihl ihr => exact (ihl hs).and (ihr hs)
  | or _ _ ihl ihr => exact Step.Agrees.or _ _ _ _ (ihl hs) (ihr hs)
  | choice hlen _ ih =>
    exact Step.Agrees.choice (forall₂_steps (List.forall₂_iff_zip.2 ⟨hlen, fun hm => ih hm hs⟩))
  | optional _ ih => exact (ih hs).optional
  | collectedAs d _ ih => exact (ih hs).collectedAs d
  | many least _ ih => exact (ih hs).many b least _ _
  | separated least _ _ ihv ihs => exact (ihv hs).separated (ihs hs) b least _ _ _ _
  | all _ ih => exact (ih hs).all b _ _
  | @map f _ hf _ _ _ ih =>
    obtain rfl := hf
    exact (ih hs).map f
  | @mapWithLine f _ hf _ _ _ ih =>
    obtain rfl := hf
    exact (ih hs).mapWithLine f
  | recover hf _ ih =>
    obtain ⟨rfl, hf⟩ := hf
    exact Step.Agrees.recover hf (ih hs)
  | chain _ _ ihn ih => exact Step.Agrees.chain (fun v => ihn v v rfl hs) (ih hs)
  | named _ _ ih => exact ih hs
  | nameLeft _ _ _ ih => exact ih hs
  | nameRight _ _ _ ih => exact ih hs
  | recursive h _ ih => exact Step.Agrees.fix (fun q q' hq => ih (Step.Agrees.bind hs h hq)) b
  | handle h => exact hs h
  | custom _ hact =>
    obtain rfl := hact
    exact .refl _

/-- **Names do not matter.**  Parsers that differ in names only, run from the same state, end both or
none; and if they end, then both succeed in one and the same state, or both fail for the same reason
at the same place. -/
theorem ends_sameButNames {p p' : Parser ν} (h : p.SameButNames p') (scope : Scope ν)
    (s : State ν) :
    ((∃ t, p.Ends scope s t) ↔ ∃ t', p'.Ends scope s t') ∧
      ∀ t t', p.Ends scope s t → p'.Ends scope s t' →
        (t.failed = false ∧ t = t') ∨
          ∃ e e', t.error? = some e ∧ t'.error? = some e' ∧ e.SameButMessage e' := by
  obtain ⟨hiff, hends⟩ := ends_rel fun b =>
    (h.agrees b fun h => Step.Agrees.refl (scope h)).unlessFailed s
  refine ⟨hiff, fun t t' ht ht' => ?_⟩
  have hsame := hends t t' ht ht'
  cases hfailed : t.failed with
  | false => exact .inl ⟨rfl, hsame.eq_of_live hfailed⟩
  | true =>
    obtain ⟨f, hf⟩ := Option.isSome_iff_exists.1 hfailed
    obtain ⟨f', hf'⟩ := Option.isSome_iff_exists.1 (hsame.failed_eq.symm.trans hfailed)
    have herror := hsame.error?_rel
    rw [State.error?, State.error?, hf, hf', Option.map_some, Option.map_some] at herror ⊢
    cases herror with
    | some he => exact .inr ⟨_, _, rfl, rfl, he⟩

/-- A name is told by the message of a failure, and by nothing else. -/
theorem ends_sameButNames_of_neither :
    ∃ t t' : State Nat,
      (or (named "number" (literal "1")) (literal "a")).Ends Scope.none (.start (.ofString "b")) t ∧
        (or (literal "1") (literal "a")).Ends Scope.none (.start (.ofString "b")) t' ∧
        t.failure = some (.neither "number" "\"a\"") ∧
        t'.failure = some (.neither "\"1\"" "\"a\"") ∧
        ∃ e e', t.error? = some e ∧ t'.error? = some e' ∧ e.SameButMessage e' := by
  have hsame : (or (named "number" (literal "1")) (literal "a") : Parser Nat).SameButNames
      (or (literal "1") (literal "a")) :=
    .or (.nameLeft rfl "number" (.literal "1")) (.literal "a")
  have ht : (or (named "number" (literal "1")) (literal "a") : Parser Nat).Ends Scope.none
      (.start (.ofString "b")) _ := ⟨0, rfl⟩
  have ht' : (or (literal "1") (literal "a") : Parser Nat).Ends Scope.none
      (.start (.ofString "b")) _ := ⟨0, rfl⟩
  refine ⟨_, _, ht, ht', rfl, rfl, ?_⟩
  rcases (ends_sameButNames hsame Scope.none _).2 _ _ ht ht' with ⟨hok, _⟩ | herror
  · cases hok
  · exact herror

end Parser

end TextGrammar
