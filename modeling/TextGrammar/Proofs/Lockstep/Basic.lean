import TextGrammar.Step
import TextGrammar.Proofs.Text.Lines
import TextGrammar.Proofs.Text.Offset

/-!
# Two runs side by side

Two runs over two texts are compared state by state.  The first text is the second one with some
text put in front, so that offsets and lines differ by constants; results are compared as they are
seen by some view, and messages are compared or not.

* `View` — a way to look at values that shows tokens, lists and their structure.
* `Pairing` — what the two runs may differ in.
* `Pairing.Places`, `Pairing.Outcomes` — states at the same place, and states in which both runs may
  end: at the same place, failed for the same reason or with the same result as it is seen.
* `Pairing.Harvests` — repetitions that have gathered the same.
-/

namespace TextGrammar

variable {ν : Type}

/-! ## Views of values -/

/-- A way to look at values that may change nodes only. -/
structure View (ν : Type) where
  see : Value ν → Value ν
  see_token : ∀ text, see (.token text) = .token text
  see_list : ∀ items, see (.list items) = .list (items.map see)
  see_node : ∀ n line, ∃ n' line', see (.node n line) = .node n' line'
  see_absent : see .absent = .absent

namespace View

/-- Values as they are. -/
def plain : View ν where
  see v := v
  see_token _ := rfl
  see_list items := by rw [List.map_id' items]
  see_node n line := ⟨n, line, rfl⟩
  see_absent := rfl

/-- Only a list is seen as one. -/
theorem see_eq_list {view : View ν} {items : List (Value ν)} {v : Value ν}
    (h : view.see v = view.see (.list items)) :
    ∃ items', v = .list items' ∧ items'.map view.see = items.map view.see := by
  rw [view.see_list] at h
  cases v with
  | token text => rw [view.see_token] at h; cases h
  | list items' =>
    rw [view.see_list] at h
    exact ⟨items', rfl, Value.list.inj h⟩
  | node n line =>
    obtain ⟨n', line', hn⟩ := view.see_node n line
    rw [hn] at h
    cases h
  | absent => rw [view.see_absent] at h; cases h

end View

/-! ## Pairings -/

/-- What two runs may differ in: the text in front of the first one's text, how results are looked
at, and, unless the pairing is strict, the messages of failures. -/
structure Pairing (ν : Type) where
  ahead : List Char
  view : View ν
  strict : Bool

namespace Pairing

variable (K : Pairing ν)

/-- States at the same place. -/
structure Places (s s' : State ν) : Prop where
  chars : s.input.chars = K.ahead ++ s'.input.chars
  cursor : s.cursor = Text.byteLength K.ahead + s'.cursor

/-- Failures for the same reason. -/
structure Failures (f f' : Failure) : Prop where
  kind : f.kind = f'.kind
  message : K.strict = true → f.message = f'.message

/-- States in which both runs may end.  What a failed state has for a result is left open. -/
structure Outcomes (t t' : State ν) : Prop extends K.Places t t' where
  failure : Option.Rel K.Failures t.failure t'.failure
  result : t.failed = false → K.view.see t.result = K.view.see t'.result
  disposition : t.failed = false → t.disposition = t'.disposition

/-- Steps that end alike from states at the same place, or do not end both. -/
def Lockstep (p p' : Step ν) : Prop :=
  ∀ s s' : State ν, s.failed = false → s'.failed = false → K.Places s s' →
    Option.Rel K.Outcomes (p s) (p' s')

variable {K}

theorem Failures.refl (f : Failure) : K.Failures f f := ⟨rfl, fun _ => rfl⟩

/-! ## Places -/

section
variable {s s' : State ν}

theorem Places.rest_eq (h : K.Places s s') : s.rest = s'.rest := by
  rw [State.rest, State.rest, Input.drop_eq, Input.drop_eq, h.chars, h.cursor,
    Text.dropBytes_append]

theorem Places.atEnd_eq (h : K.Places s s') : s.atEnd = s'.atEnd := by
  have hcursor := h.cursor
  have hsize : s.input.size = Text.byteLength K.ahead + s'.input.size := by
    rw [s.input.size_eq, s'.input.size_eq, h.chars, Text.byteLength_append]
  rw [State.atEnd, State.atEnd, Bool.eq_iff_iff, beq_iff_eq, beq_iff_eq]
  omega

theorem Places.line_eq (h : K.Places s s') : s.line = K.ahead.count '\n' + s'.line := by
  rw [State.line, State.line, Input.line_eq, Input.line_eq, h.chars, h.cursor,
    Text.newlinesBefore_append]
  omega

theorem Places.floor_eq (h : K.Places s s') (n : Nat) :
    s.input.floor (Text.byteLength K.ahead + n) =
      Text.byteLength K.ahead + s'.input.floor n := by
  rw [Input.floor_eq, Input.floor_eq, h.chars, Text.lastBoundary_append]

theorem Places.advance (h : K.Places s s') (n : Nat) (v v' : Value ν) :
    K.Places (s.advance n v) (s'.advance n v') := by
  refine ⟨h.chars, ?_⟩
  show s.input.floor (s.cursor + n) = Text.byteLength K.ahead + s'.input.floor (s'.cursor + n)
  rw [h.cursor, Nat.add_assoc, h.floor_eq]

/-- Going back to the same place leads to the same place. -/
theorem Places.rewind {t t' : State ν} (h : K.Places t t') (hs : K.Places s s') :
    K.Places (t.rewind s.cursor) (t'.rewind s'.cursor) := by
  refine ⟨h.chars, ?_⟩
  show t.input.floor s.cursor = Text.byteLength K.ahead + t'.input.floor s'.cursor
  rw [hs.cursor, h.floor_eq]

theorem Places.collected (h : K.Places s s') : K.Places s.collected s'.collected := by
  refine ⟨?_, ?_⟩
  · rw [State.input_collected, State.input_collected]
    exact h.chars
  · rw [State.cursor_collected, State.cursor_collected]
    exact h.cursor

theorem Places.cursor_eq_iff {t t' : State ν} (h : K.Places s s') (ht : K.Places t t') :
    t.cursor = s.cursor ↔ t'.cursor = s'.cursor := by
  rw [h.cursor, ht.cursor]
  omega

end

/-! ## Outcomes -/

section
variable {s s' t t' : State ν}

theorem Outcomes.failed_eq (h : K.Outcomes t t') : t.failed = t'.failed := by
  have hf := h.failure
  unfold State.failed
  generalize t.failure = f at hf ⊢
  generalize t'.failure = f' at hf ⊢
  cases hf <;> rfl

/-- A success with results that look the same. -/
theorem Outcomes.advance (h : K.Places s s') (n : Nat) {v v' : Value ν}
    (hv : K.view.see v = K.view.see v') : K.Outcomes (s.advance n v) (s'.advance n v') :=
  ⟨h.advance n v v', .none, fun _ => hv, fun _ => rfl⟩

theorem Outcomes.succeed (h : K.Places s s') {v v' : Value ν}
    (hv : K.view.see v = K.view.see v') : K.Outcomes (s.succeed v) (s'.succeed v') :=
  Outcomes.advance h 0 hv

theorem Outcomes.fail (h : K.Places s s') {f f' : Failure} (hf : K.Failures f f') :
    K.Outcomes (s.fail f) (s'.fail f') :=
  ⟨⟨h.chars, h.cursor⟩, .some hf, fun h => (nomatch h), fun h => (nomatch h)⟩

theorem Outcomes.stray (h : K.Places s s') : K.Outcomes s.stray s'.stray :=
  ⟨⟨h.chars, h.cursor⟩, .some (Failures.refl _), fun h => (nomatch h), fun h => (nomatch h)⟩

theorem Outcomes.rewind (h : K.Outcomes t t') (hs : K.Places s s') :
    K.Outcomes (t.rewind s.cursor) (t'.rewind s'.cursor) :=
  ⟨h.toPlaces.rewind hs, .none, fun _ => rfl, fun _ => rfl⟩

theorem Outcomes.collectAs (h : K.Outcomes t t') (d : Disposition) :
    K.Outcomes (t.collectAs d) (t'.collectAs d) :=
  ⟨⟨h.chars, h.cursor⟩, h.failure, h.result, fun _ => rfl⟩

theorem Outcomes.kept_eq (h : K.Outcomes t t') (ht : t.failed = false) :
    t.kept.map K.view.see = t'.kept.map K.view.see := by
  have hr := h.result ht
  rw [State.kept, State.kept, ← h.disposition ht]
  cases t.disposition with
  | keep => simp [hr]
  | ignore => rfl
  | splice => simp [hr]

theorem Outcomes.spliced_eq (h : K.Outcomes t t') (ht : t.failed = false) :
    t.spliced.map K.view.see = t'.spliced.map K.view.see := by
  have hr := h.result ht
  rw [State.spliced, State.spliced, ← h.disposition ht]
  cases t.disposition with
  | keep => simp [hr]
  | ignore => rfl
  | splice =>
    -- a spliced result adds its items if it is a list, and only a list looks like one
    revert hr
    generalize t.result = v
    generalize t'.result = v'
    intro hr
    cases v with
    | list items =>
      obtain ⟨items', rfl, h⟩ := View.see_eq_list hr.symm
      exact h.symm
    | token text =>
      cases v' with
      | list items => obtain ⟨_, h, _⟩ := View.see_eq_list hr; cases h
      | _ => simp [hr]
    | node n line =>
      cases v' with
      | list items => obtain ⟨_, h, _⟩ := View.see_eq_list hr; cases h
      | _ => simp [hr]
    | absent =>
      cases v' with
      | list items => obtain ⟨_, h, _⟩ := View.see_eq_list hr; cases h
      | _ => simp [hr]

/-- The errors of outcomes: both missing, or for the same reason at the same place. -/
theorem Outcomes.error?_rel (h : K.Outcomes t t') :
    Option.Rel (fun e e' : ParseError => e.kind = e'.kind ∧
      (K.strict = true → e.message = e'.message) ∧
      e.position = Text.byteLength K.ahead + e'.position ∧
      e.line = K.ahead.count '\n' + e'.line) t.error? t'.error? := by
  have hcursor := h.cursor
  have hline := h.toPlaces.line_eq
  have hf := h.failure
  unfold State.error?
  generalize t.failure = f at hf ⊢
  generalize t'.failure = f' at hf ⊢
  cases hf with
  | none => exact .none
  | some hf => exact .some ⟨hf.kind, hf.message, hcursor, hline⟩

end

/-! ## Harvests -/

variable (K) in
/-- Repetitions that have gathered the same, at the same place. -/
structure Harvests (h h' : Harvest ν) : Prop where
  items : h.items.toList.map K.view.see = h'.items.toList.map K.view.see
  count : h.count = h'.count
  places : K.Places h.state h'.state
  live : h.state.failed = false
  live' : h'.state.failed = false

section
variable {h h' : Harvest ν} {s s' t t' : State ν}

theorem Harvests.start (hp : K.Places s s') (hs : s.failed = false) (hs' : s'.failed = false) :
    K.Harvests (.start s) (.start s') := ⟨rfl, rfl, hp, hs, hs'⟩

theorem Harvests.add (hh : K.Harvests h h') (ht : K.Outcomes t t') (hf : t.failed = false) :
    K.Harvests (h.add t) (h'.add t') := by
  refine ⟨?_, ?_, ht.toPlaces.collected, ?_, ?_⟩
  · show (h.items ++ t.kept).toList.map K.view.see = (h'.items ++ t'.kept).toList.map K.view.see
    simp [hh.items, ht.kept_eq hf]
  · show h.count + 1 = h'.count + 1
    rw [hh.count]
  · show t.collected.failed = false
    rwa [State.failed_collected]
  · show t'.collected.failed = false
    rwa [State.failed_collected, ← ht.failed_eq]

theorem Harvests.stop (hh : K.Harvests h h') (hp : K.Places s s') (hs : s.failed = false)
    (hs' : s'.failed = false) : K.Harvests (h.stop s) (h'.stop s') :=
  ⟨hh.items, hh.count, hp, hs, hs'⟩

theorem Harvests.succeed (hh : K.Harvests h h') : K.Outcomes h.succeed h'.succeed := by
  refine Outcomes.succeed hh.places ?_
  rw [K.view.see_list, K.view.see_list, hh.items]

end

end Pairing

end TextGrammar
