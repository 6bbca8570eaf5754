import TextGrammar.Element
import TextGrammar.Proofs.Parser.Endings
import TextGrammar.Proofs.Regex.Framed
import TextGrammar.Proofs.Regex.Matches

/-!
# Where patterns match

A pattern succeeds with a piece of the text ahead that ends where the cursor comes to.  The piece begins
at the cursor if all branches of the source in its frame ask for the start of the text, and so for every
source that can be compiled by itself.  Another source closes the group around it; if it also opens a
branch behind, that branch is not kept to the cursor, and text in front of its match is passed over.

* `State.Finds` — a success with the text between an offset and the cursor.
* `Parser.pattern_finds` — with every engine that finds matches only, every pattern finds such a piece,
  and finds it at the cursor unless the source breaks out of its frame.
* `Parser.pattern_passes_over` — a source for which text is passed over.
-/

namespace TextGrammar

variable {ν : Type}

/-- The state `t` is a success from `s` whose result is a single token: the text from the offset
`start`, at `s` or behind, up to where `t` is. -/
structure State.Finds (s : State ν) (start : Nat) (t : State ν) : Prop where
  input : t.input = s.input
  cursor_le : s.cursor ≤ start
  le_cursor : start ≤ t.cursor
  boundary : Text.IsBoundary s.input.chars start
  result : t.result = .token (String.ofList (Text.slice s.input.chars start t.cursor))
  disposition : t.disposition = .keep

/-- To go on by a match is to find it where the text in front of it ends. -/
theorem State.OnBoundary.finds_advance {s : State ν} (hb : s.OnBoundary)
    {before piece after : List Char} (hrest : s.rest = before ++ (piece ++ after)) :
    s.Finds (s.cursor + Text.byteLength before)
      (s.advance (Text.byteLength before + Text.byteLength piece)
        (.token (String.ofList piece))) := by
  have hcursor : (s.advance (Text.byteLength before + Text.byteLength piece)
      (.token (String.ofList piece))).cursor =
        s.cursor + (Text.byteLength before + Text.byteLength piece) := by
    rw [← Text.byteLength_append]
    exact hb.cursor_advance_of_rest (hrest.trans (List.append_assoc _ _ _).symm) _
  have hdrop : Text.dropBytes s.cursor s.input.chars = before ++ (piece ++ after) := by
    rw [← Input.drop_eq]
    exact hrest
  refine ⟨rfl, Nat.le_add_right _ _, by omega, ?_, ?_, rfl⟩
  · refine Text.IsBoundary.add hb ?_
    rw [hdrop]
    exact ⟨before, piece ++ after, rfl, rfl⟩
  · have hslice : Text.slice s.input.chars (s.cursor + Text.byteLength before)
        (s.cursor + (Text.byteLength before + Text.byteLength piece)) = piece := by
      rw [Text.slice, hb.dropBytes_add, hdrop, Text.dropBytes_byteLength_append,
        show s.cursor + (Text.byteLength before + Text.byteLength piece) -
          (s.cursor + Text.byteLength before) = Text.byteLength piece by omega,
        Text.takeBytes_byteLength_append]
    rw [hcursor, hslice]
    rfl

namespace Parser

variable {around : Surroundings ν} {source : String} {p : Pattern} {s t : State ν}

/-- A pattern always ends, by what it finds in the text ahead. -/
theorem endsAmid_pattern_iff (hs : s.failed = false) :
    (pattern p).EndsAmid around s t ↔ Step.pattern p s = some t :=
  (endsAmid_iff_step hs).trans ⟨fun ⟨_, h⟩ => h, fun h => ⟨0, h⟩⟩

section
variable {E : Regex.Engine} {meaning : List Char → Regex.Term}

/-- **Patterns match pieces of the text ahead.**  A pattern ends wherever it is run.  If it succeeds, its
token is the text from some offset up to where it ends.  That offset is the place where it was run if
all branches of the source in its frame ask for the start of the text, and also if the source can be
compiled by itself. -/
theorem pattern_finds (hE : E.Finds meaning) (hp : Pattern.ofSource? E source = some p)
    (hs : s.failed = false) (hb : s.OnBoundary) :
    (∃ t, (pattern p).EndsAmid around s t) ∧
    ∀ t, (pattern p).EndsAmid around s t → t.failed = false →
      ∃ start, s.Finds start t ∧
        ((meaning (Pattern.framed source)).Pinned → start = s.cursor) ∧
        (E.Frames meaning → (E.compile? source.toList).isSome = true → start = s.cursor) := by
  refine ⟨?_, fun t ht hlive => ?_⟩
  · simp only [endsAmid_pattern_iff hs, Step.pattern]
    split
    · exact ⟨_, rfl⟩
    · exact ⟨_, rfl⟩
  · rw [endsAmid_pattern_iff hs, Step.pattern] at ht
    split at ht
    · next m hm =>
      cases ht
      have hmatch := hE _ _ (Pattern.compile?_of_ofSource? hp) _ _ hm
      obtain ⟨front, piece, back, hrest, hstart, hstop, -⟩ := id hmatch
      have hslice : Text.slice s.rest m.start m.stop = piece := by
        rw [hstart, hstop, hrest, Text.slice, Nat.add_sub_cancel_left,
          Text.dropBytes_byteLength_append, Text.takeBytes_byteLength_append]
      rw [hslice, hstop]
      refine ⟨_, hb.finds_advance hrest, fun hpinned => ?_, fun hframes hsource => ?_⟩
      · rw [← hstart, Regex.Term.start_eq_zero_of_pinned hpinned hmatch, Nat.add_zero]
      · have hframed := Option.isSome_of_eq_some (Pattern.compile?_of_ofSource? hp)
        have hsame := (hframes source hsource hframed).matchesIn hmatch
        rw [← hstart, Regex.Term.start_eq_zero_of_pinned (Regex.Term.pinned_seq_textStart _) hsame,
          Nat.add_zero]
    · cases ht
      cases hlive

end

open Regex.Engine

theorem wellFormed_oneOfTwo : (Pattern.ofSource? builtIn "a|(b)").isSome = true := by
  decide +kernel

theorem wellFormed_oneThenOther : (Pattern.ofSource? builtIn "a)(b").isSome = true := by
  decide +kernel

/-- One of two letters, the second in a group. -/
def oneOfTwo : Pattern := .ofSource builtIn "a|(b)" wellFormed_oneOfTwo

/-- Two letters, of which the first closes the group around the source. -/
def oneThenOther : Pattern := .ofSource builtIn "a)(b" wellFormed_oneThenOther

/-- Run from the state, the pattern succeeds with the token, which begins where it was run. -/
def FindsHere (p : Pattern) (s : State ν) (token : String) : Prop :=
  ∃ t, (pattern p).EndsAmid [] s t ∧ s.Finds s.cursor t ∧ t.result = .token token

/-- The second branch is kept to the place, too, and so is a source that closes the group around it
without a branch behind. -/
theorem pattern_finds_branch :
    FindsHere oneOfTwo ((State.start (.ofString "éb")).advance 2 .absent : State Element) "b" ∧
      FindsHere oneThenOther (State.start (.ofString "abb") : State Element) "ab" := by
  have hends (p : Pattern) (s : State Element)
      (h : ((pattern p).runFrom 0 Scope.none s).isSome = true) :
      (pattern p).EndsAmid [] s (((pattern p).runFrom 0 Scope.none s).get h) :=
    ⟨0, (Option.some_get _).symm⟩
  refine ⟨?_, ?_⟩
  · have h := hends oneOfTwo ((State.start (.ofString "éb")).advance 2 .absent) (by decide +kernel)
    obtain ⟨_, hfinds⟩ := pattern_finds finds_builtIn
      (Pattern.ofSource?_eq_some wellFormed_oneOfTwo) rfl
      (State.onBoundary_advance _ _ _)
    obtain ⟨start, hfound, -, hstart⟩ := hfinds _ h (by decide +kernel)
    rw [hstart frames_builtIn (by decide +kernel)] at hfound
    exact ⟨_, h, hfound, by decide +kernel⟩
  · have h := hends oneThenOther (State.start (.ofString "abb")) (by decide +kernel)
    obtain ⟨_, hfinds⟩ := pattern_finds finds_builtIn
      (Pattern.ofSource?_eq_some wellFormed_oneThenOther) rfl
      (State.onBoundary_start _)
    obtain ⟨start, hfound, hstart, -⟩ := hfinds _ h (by decide +kernel)
    rw [hstart (Or.inl Regex.Term.pinned_textStart)] at hfound
    exact ⟨_, h, hfound, by decide +kernel⟩

/-- A source that closes the group around it, and opens a branch behind. -/
def brokenOut : Pattern := .ofSource builtIn "a)|(b" (by decide +kernel)

/-- **A source may break out of its frame.**  The branch behind it matches a letter that has another
one in front, which goes into no token. -/
theorem pattern_passes_over :
    ∃ t : State Element, Pattern.ofSource? builtIn "a)|(b" = some brokenOut ∧
      ¬ (Regex.meaning (Pattern.framed "a)|(b")).Pinned ∧
      builtIn.compile? "a)|(b".toList = none ∧
      (pattern brokenOut).EndsAmid [] (State.start (.ofString "xb")) t ∧ t.failed = false ∧
      t.result = .token "b" ∧
      t.result ≠ .token (String.ofList (Text.slice (Input.ofString "xb").chars 0 t.cursor)) :=
  ⟨((pattern brokenOut).runFrom 0 Scope.none (State.start (.ofString "xb"))).get
      (by decide +kernel),
    Pattern.ofSource?_eq_some _, fun h => h.2.elim id id, rfl, ⟨0, (Option.some_get _).symm⟩,
    by decide +kernel, by decide +kernel, by decide +kernel⟩

end Parser

end TextGrammar
