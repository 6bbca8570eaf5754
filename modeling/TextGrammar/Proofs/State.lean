import TextGrammar.State
import TextGrammar.Proofs.Text.Offset

/-!
# Places in the input

* `State.SamePlace` — states that differ at most in what was produced before.
* `State.OnBoundary` — the cursor does not fall into a character.  Every state that comes from
  `start` or `advance` is such a state.
* `State.OnBoundary.samePlace_succeed`, `State.OnBoundary.samePlace_rewind` — succeeding keeps a cursor
  that is on a boundary, and rewinding gives back exactly the place that was left.
* `State.OnBoundary.cursor_advance` — how far the cursor comes is decided by the text ahead.
-/

namespace TextGrammar.State

variable {ν : Type}

/-- States at the same place of the same input. -/
structure SamePlace (s s' : State ν) : Prop where
  input : s.input = s'.input
  cursor : s.cursor = s'.cursor

/-- The cursor is at the start of a character, or at the end of the input. -/
def OnBoundary (s : State ν) : Prop := Text.IsBoundary s.input.chars s.cursor

variable {s t u : State ν}

theorem SamePlace.symm (h : s.SamePlace t) : t.SamePlace s := ⟨h.input.symm, h.cursor.symm⟩

theorem SamePlace.trans (h : s.SamePlace t) (h' : t.SamePlace u) : s.SamePlace u :=
  ⟨h.input.trans h'.input, h.cursor.trans h'.cursor⟩

theorem samePlace_collected (s : State ν) : s.SamePlace s.collected :=
  ⟨s.input_collected.symm, s.cursor_collected.symm⟩

theorem SamePlace.onBoundary_iff (h : s.SamePlace t) : s.OnBoundary ↔ t.OnBoundary := by
  rw [OnBoundary, OnBoundary, h.input, h.cursor]

theorem SamePlace.atEnd_eq (h : s.SamePlace t) : s.atEnd = t.atEnd := by
  rw [atEnd, atEnd, h.input, h.cursor]

theorem OnBoundary.cursor_le (h : s.OnBoundary) : s.cursor ≤ s.input.size := by
  rw [Input.size_eq]
  exact h.le_byteLength

/-- The input is what has been taken and what lies ahead. -/
theorem OnBoundary.size_eq (h : s.OnBoundary) :
    s.input.size = s.cursor + Text.byteLength s.rest := by
  obtain ⟨before, ahead, hchars, hcursor⟩ := h
  have hrest : s.rest = ahead := by
    rw [rest, Input.drop_eq, hchars, ← hcursor, Text.dropBytes_byteLength_append]
  rw [Input.size_eq, hrest, hchars, Text.byteLength_append, hcursor]

/-- Where the input has not ended, there is some of it ahead. -/
theorem OnBoundary.cursor_lt (h : s.OnBoundary) (hend : s.atEnd = false) :
    s.cursor < s.input.size := by
  have hne : s.cursor ≠ s.input.size := by simpa [atEnd] using hend
  exact Nat.lt_of_le_of_ne h.cursor_le hne

theorem onBoundary_start (input : Input) : (start input : State ν).OnBoundary :=
  Text.isBoundary_zero _

theorem onBoundary_advance (s : State ν) (n : Nat) (v : Value ν) : (s.advance n v).OnBoundary := by
  show Text.IsBoundary s.input.chars (s.input.floor (s.cursor + n))
  rw [Input.floor_eq]
  exact Text.isBoundary_lastBoundary _ _

/-- **Going back to a place gets there.** -/
theorem OnBoundary.samePlace_rewind (h : s.OnBoundary) (hinput : t.input = s.input) :
    s.SamePlace (t.rewind s.cursor) := by
  refine ⟨hinput.symm, ?_⟩
  show s.cursor = t.input.floor s.cursor
  rw [Input.floor_eq, hinput, h.lastBoundary_eq_self]

/-- **The cursor moves on by what fits of the text ahead.** -/
theorem OnBoundary.cursor_advance (h : s.OnBoundary) (n : Nat) (v : Value ν) :
    (s.advance n v).cursor = s.cursor + Text.lastBoundary s.rest n := by
  show s.input.floor (s.cursor + n) = s.cursor + Text.lastBoundary (s.input.drop s.cursor) n
  rw [Input.floor_eq, Input.drop_eq, h.lastBoundary_add]

theorem OnBoundary.slice_advance (h : s.OnBoundary) (n : Nat) (v : Value ν) :
    Text.slice s.input.chars s.cursor (s.advance n v).cursor = Text.takeBytes n s.rest := by
  rw [h.cursor_advance, Text.slice_add, ← Input.drop_eq, ← rest, Text.takeBytes_lastBoundary]

theorem OnBoundary.samePlace_succeed (h : s.OnBoundary) (v : Value ν) :
    s.SamePlace (s.succeed v) := by
  refine ⟨rfl, ?_⟩
  show s.cursor = s.input.floor (s.cursor + 0)
  rw [Input.floor_eq, Nat.add_zero, h.lastBoundary_eq_self]

theorem OnBoundary.cursor_advance_of_rest (h : s.OnBoundary) {front back : List Char}
    (hrest : s.rest = front ++ back) (v : Value ν) :
    (s.advance (Text.byteLength front) v).cursor = s.cursor + Text.byteLength front := by
  rw [h.cursor_advance, hrest, Text.lastBoundary_eq, Text.takeBytes_byteLength_append]

/-- Behind the text that has been passed lies what came behind it. -/
theorem OnBoundary.rest_of_cursor (h : s.OnBoundary) {t : State ν} (hinput : t.input = s.input)
    {front back : List Char} (hrest : s.rest = front ++ back)
    (hcursor : t.cursor = s.cursor + Text.byteLength front) : t.rest = back := by
  rw [rest, Input.drop_eq] at hrest
  rw [rest, Input.drop_eq, hinput, hcursor, h.dropBytes_add, hrest,
    Text.dropBytes_byteLength_append]

end TextGrammar.State
