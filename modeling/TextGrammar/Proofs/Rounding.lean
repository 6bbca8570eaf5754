import TextGrammar.Proofs.LineIndex
import TextGrammar.Text.Bytes
import Mathlib.Order.Bounds.Basic

/-!
# Offsets are rounded down to boundaries

Wherever a cursor is sent, it comes to the last boundary that is not behind that place.

* `Text.utf8EncodeChar_eq_cons` — the form of a character is a first byte with other bytes behind it.
* `Text.isBoundaryAt_bytes_iff` — so the bytes of a text show its boundaries.
* `Text.roundDown?_bytes`, `Text.le_lastBoundary_add_three` — the walk among the bytes ends at the last
  boundary, after three bytes at most.
* `Text.RoundsTo` — what an offset is rounded to; `Input.roundsTo_floor`: inputs do it so.
* `Input.floor_mono`, `Input.floor_eq_self_iff` — the order of offsets is kept, and boundaries are, too.
* `State.isGreatest_advance` — how far a state advances.
* `Input.offsets_rounded` — all of it, over the states that can be made.
-/

namespace TextGrammar

namespace Text

/-! ## Forms of characters -/

theorem isFirstByte_or {x y : UInt8} (hy : 0xC0 ≤ y) : isFirstByte (x ||| y) = true := by
  have hle : y ≤ x ||| y := by
    rw [UInt8.le_iff_toNat_le, UInt8.toNat_or]
    exact Nat.right_le_or
  rw [isFirstByte, decide_eq_true (UInt8.le_trans hy hle), Bool.or_true]

theorem isFirstByte_low_or (x : UInt8) : isFirstByte (x &&& 0x3f ||| 0x80) = false := by
  have hlow : x.toNat &&& 63 < 2 ^ 6 := Nat.and_lt_two_pow _ (by decide)
  have hsum : (x &&& 0x3f ||| 0x80).toNat = 128 + (x.toNat &&& 63) := by
    have h := Nat.two_pow_add_eq_or_of_lt (i := 7) (b := x.toNat &&& 63) (by omega) 1
    rw [UInt8.toNat_or, UInt8.toNat_and, Nat.or_comm]
    exact h.symm
  rw [isFirstByte, Bool.or_eq_false_iff, decide_eq_false_iff_not, decide_eq_false_iff_not,
    UInt8.lt_iff_toNat_lt, UInt8.le_iff_toNat_le, hsum]
  refine ⟨Nat.not_lt.2 (Nat.le_add_right 128 _), Nat.not_le.2 ?_⟩
  show 128 + (x.toNat &&& 63) < 192
  omega

/-- **The form of a character is a first byte, and bytes that are none behind it.** -/
theorem utf8EncodeChar_eq_cons (c : Char) :
    ∃ b tail, String.utf8EncodeChar c = b :: tail ∧ isFirstByte b = true ∧
      ∀ x ∈ tail, isFirstByte x = false := by
  rcases c.utf8Size_eq with hsize | hsize | hsize | hsize
  · refine ⟨_, _, String.utf8EncodeChar_eq_singleton hsize, ?_, nofun⟩
    have hle : c.val.toNat ≤ 127 := Char.utf8Size_eq_one_iff.1 hsize
    have hlow : c.val.toUInt8 < 0x80 := by
      rw [UInt8.lt_iff_toNat_lt, UInt32.toNat_toUInt8]
      exact Nat.lt_of_le_of_lt (Nat.mod_le _ _) (Nat.lt_succ_of_le hle)
    rw [isFirstByte, decide_eq_true hlow, Bool.true_or]
  · refine ⟨_, _, String.utf8EncodeChar_eq_cons_cons hsize, isFirstByte_or (by decide), ?_⟩
    simp [isFirstByte_low_or]
  · refine ⟨_, _, String.utf8EncodeChar_eq_cons_cons_cons hsize, isFirstByte_or (by decide), ?_⟩
    simp [isFirstByte_low_or]
  · refine ⟨_, _, String.utf8EncodeChar_eq_cons_cons_cons_cons hsize, isFirstByte_or (by decide), ?_⟩
    simp [isFirstByte_low_or]

@[simp] theorem length_bytes (text : List Char) : (bytes text).length = byteLength text := by
  induction text with
  | nil => rfl
  | cons c cs ih =>
    rw [bytes_cons, List.length_append, String.length_utf8EncodeChar, ih, byteLength_cons]

/-! ## Boundaries among bytes -/

/-- No boundary lies inside a form. -/
theorem isBoundaryAt_inside {c : Char} {n : Nat} (hpos : 0 < n) (hn : n < c.utf8Size)
    (cs : List Char) : isBoundaryAt (bytes (c :: cs)) n = false := by
  obtain ⟨b, tail, hform, _, htail⟩ := utf8EncodeChar_eq_cons c
  obtain ⟨m, rfl⟩ := Nat.exists_eq_succ_of_ne_zero (Nat.ne_of_gt hpos)
  have hlength : tail.length + 1 = c.utf8Size := by
    rw [← String.length_utf8EncodeChar, hform, List.length_cons]
  have hm : m < tail.length := by omega
  rw [bytes_cons, hform, List.cons_append, isBoundaryAt, List.getElem?_cons_succ,
    List.getElem?_append_left hm, List.getElem?_eq_getElem hm]
  exact htail _ (List.getElem_mem hm)

/-- A boundary lies behind each form, and farther on are the boundaries of the rest. -/
theorem isBoundaryAt_behind (c : Char) (cs : List Char) (n : Nat) :
    isBoundaryAt (bytes (c :: cs)) (c.utf8Size + n) = isBoundaryAt (bytes cs) n := by
  have hlength := String.length_utf8EncodeChar c
  obtain ⟨m, hm⟩ := Nat.exists_eq_succ_of_ne_zero (Nat.ne_of_gt c.utf8Size_pos)
  have hentry : (bytes (c :: cs))[c.utf8Size + n]? = (bytes cs)[n]? := by
    rw [bytes_cons, List.getElem?_append_right (by omega), hlength, Nat.add_sub_cancel_left]
  rw [show c.utf8Size + n = m + n + 1 by omega] at hentry ⊢
  rw [isBoundaryAt, hentry, length_bytes, byteLength_cons]
  cases n with
  | zero =>
    cases cs with
    | nil => simp [bytes, isBoundaryAt, hm]
    | cons d ds =>
      obtain ⟨b, tail, hform, hb, _⟩ := utf8EncodeChar_eq_cons d
      rw [bytes_cons, hform]
      exact hb
  | succ n =>
    rw [isBoundaryAt]
    cases (bytes cs)[n + 1]? with
    | none => rw [length_bytes, Bool.eq_iff_iff, beq_iff_eq, beq_iff_eq]; omega
    | some b => rfl

/-- **The bytes of a text show its boundaries.** -/
theorem isBoundaryAt_bytes_iff {text : List Char} {n : Nat} :
    isBoundaryAt (bytes text) n = true ↔ IsBoundary text n := by
  rw [← lastBoundary_eq_self_iff]
  induction text generalizing n with
  | nil => cases n <;> simp [isBoundaryAt, bytes, lastBoundary]
  | cons c cs ih =>
    rw [lastBoundary]
    split
    · next hc =>
      obtain ⟨k, rfl⟩ := Nat.exists_eq_add_of_le hc
      rw [isBoundaryAt_behind, ih, Nat.add_sub_cancel_left, Nat.add_left_cancel_iff]
    · next hc =>
      rcases Nat.eq_zero_or_pos n with rfl | hn
      · simp [isBoundaryAt]
      · rw [isBoundaryAt_inside hn (Nat.lt_of_not_le hc), Bool.false_eq_true, false_iff]
        exact Nat.ne_of_lt hn

/-! ## The walk -/

/-- A walk among the bytes of a text comes to where a walk among its slices does. -/
theorem walkToBoundary?_bytes (text : List Char) (n : Nat) :
    walkToBoundary? (bytes text) n = walkBack? text n := by
  have htest : ∀ k, isBoundaryAt (bytes text) k = (from? k text).isSome := fun k =>
    Bool.eq_iff_iff.2 (isBoundaryAt_bytes_iff.trans from?_isSome_iff.symm)
  induction n with
  | zero => rw [walkToBoundary?, walkBack?, htest]
  | succ n ih => rw [walkToBoundary?, walkBack?, htest, ih]

/-- **The walk ends, at the last boundary.** -/
theorem roundDown?_bytes (text : List Char) (offset : Nat) :
    roundDown? (bytes text) offset = some (lastBoundary text offset) := by
  rw [roundDown?, walkToBoundary?_bytes, walkBack?_eq, length_bytes, lastBoundary_min]

/-- It goes back by no more than three bytes. -/
theorem le_lastBoundary_add_three {text : List Char} {n : Nat} (h : n ≤ byteLength text) :
    n ≤ lastBoundary text n + 3 := by
  induction text generalizing n with
  | nil => exact Nat.le_trans h (Nat.zero_le 3)
  | cons c cs ih =>
    rw [byteLength_cons] at h
    rw [lastBoundary]
    split
    · have := ih (n := n - c.utf8Size) (by omega)
      omega
    · have := c.utf8Size_le_four
      omega

/-- **The last boundary is the greatest one that is not behind the offset.** -/
theorem isGreatest_lastBoundary (text : List Char) (n : Nat) :
    IsGreatest {k | IsBoundary text k ∧ k ≤ n} (lastBoundary text n) :=
  ⟨⟨isBoundary_lastBoundary text n, lastBoundary_le text n⟩,
    fun _ hk => hk.1.le_lastBoundary hk.2⟩

/-- What an offset of a text is rounded to: there the walk among the bytes ends, which is a short one,
and no boundary between there and the offset, or the end, has been passed. -/
structure RoundsTo (text : List Char) (offset stop : Nat) : Prop where
  walk : roundDown? (bytes text) offset = some stop
  near : min offset (byteLength text) ≤ stop + 3
  greatest : IsGreatest {k | IsBoundary text k ∧ k ≤ min offset (byteLength text)} stop

theorem roundsTo_lastBoundary (text : List Char) (offset : Nat) :
    RoundsTo text offset (lastBoundary text offset) := by
  refine ⟨roundDown?_bytes text offset, ?_, ?_⟩
  · rw [← lastBoundary_min]
    exact le_lastBoundary_add_three (Nat.min_le_right _ _)
  · rw [← lastBoundary_min]
    exact isGreatest_lastBoundary text _

end Text

/-! ## Inputs -/

namespace Input

variable (input : Input)

theorem roundsTo_floor (offset : Nat) : Text.RoundsTo input.chars offset (input.floor offset) := by
  rw [floor_eq]
  exact Text.roundsTo_lastBoundary input.chars offset

/-- **Rounding keeps the order of offsets.** -/
theorem floor_mono : Monotone input.floor := by
  intro m n hmn
  rw [floor_eq, floor_eq]
  exact (Text.isBoundary_lastBoundary input.chars m).le_lastBoundary
    (Nat.le_trans (Text.lastBoundary_le input.chars m) hmn)

theorem floor_eq_self_iff {offset : Nat} :
    input.floor offset = offset ↔ Text.IsBoundary input.chars offset := by
  rw [floor_eq, Text.lastBoundary_eq_self_iff]

theorem floor_of_size_le {offset : Nat} (h : input.size ≤ offset) :
    input.floor offset = input.size := by
  rw [size_eq] at h ⊢
  rw [floor_eq, Text.lastBoundary_of_byteLength_le h]

/-- **A sum that is cut to a word is rounded to where the sum is**, if the input fits into a word. -/
theorem floor_addWord (hsize : input.size ≤ Text.maxWord) (a b : Nat) :
    input.floor (Text.addWord a b) = input.floor (a + b) := by
  have hwalk := input.walkBack?_addWord hsize a b
  rw [Text.walkBack?_eq, size_eq, Text.lastBoundary_min, ← floor_eq] at hwalk
  exact Option.some.inj hwalk

end Input

/-! ## Cursors -/

namespace State

variable {ν : Type}

/-- **A state advances to the greatest boundary within reach.** -/
theorem isGreatest_advance (s : State ν) (n : Nat) (v : Value ν) :
    IsGreatest {k | Text.IsBoundary s.input.chars k ∧ k ≤ s.cursor + n} (s.advance n v).cursor := by
  show IsGreatest _ (s.input.floor (s.cursor + n))
  rw [Input.floor_eq]
  exact Text.isGreatest_lastBoundary s.input.chars (s.cursor + n)

end State

/-- **Offsets are rounded down to boundaries.**  Of an input, every offset is rounded to the greatest
boundary that lies neither behind it nor behind the end, by a walk that ends; rounding keeps the order of
offsets, and leaves the boundaries and no other offsets as they are.  So a state that can be made over the
input advances to the greatest boundary within reach: it does not go back, and it comes to the end if that
is within reach, also where the offset is no word any more.  Any state of the input comes back to its
cursor by going there. -/
theorem Input.offsets_rounded (ν : Type) (input : Input) :
    (∀ offset, Text.RoundsTo input.chars offset (input.floor offset)) ∧
    (∀ offset, Text.isBoundaryAt (Text.bytes input.chars) offset = true ↔
      Text.IsBoundary input.chars offset) ∧
    Monotone input.floor ∧
    (∀ offset, input.floor offset = offset ↔ Text.IsBoundary input.chars offset) ∧
    ∀ s : State ν, s.Reachable input →
      (∀ (n : Nat) (v : Value ν),
        IsGreatest {k | Text.IsBoundary input.chars k ∧ k ≤ s.cursor + n} (s.advance n v).cursor ∧
        s.cursor ≤ (s.advance n v).cursor ∧
        (input.size ≤ s.cursor + n → (s.advance n v).cursor = input.size) ∧
        (input.size ≤ Text.maxWord →
          Text.RoundsTo input.chars (Text.addWord s.cursor n) (s.advance n v).cursor ∧
          (Text.maxWord < s.cursor + n → (s.advance n v).cursor = input.size))) ∧
      ∀ t : State ν, t.input = input →
        (∀ offset, Text.RoundsTo input.chars offset (t.rewind offset).cursor) ∧
        (t.rewind s.cursor).cursor = s.cursor := by
  refine ⟨input.roundsTo_floor, fun _ => Text.isBoundaryAt_bytes_iff, input.floor_mono,
    fun _ => input.floor_eq_self_iff, fun s hs => ?_⟩
  have hlead := hs.leadsTo_start
  have hinput : s.input = input := hlead.input
  have hb : s.OnBoundary := hlead.onBoundary
  have hcursor (n : Nat) (v : Value ν) : (s.advance n v).cursor = input.floor (s.cursor + n) := by
    rw [← hinput]
    rfl
  refine ⟨fun n v => ⟨hinput ▸ s.isGreatest_advance n v, (hb.leadsTo_advance n v).onward rfl,
    fun hend => ?_, fun hsize => ⟨?_, fun hover => ?_⟩⟩, fun t ht => ⟨fun offset => ?_, ?_⟩⟩
  · rw [hcursor, input.floor_of_size_le hend]
  · rw [hcursor, ← input.floor_addWord hsize]
    exact input.roundsTo_floor _
  · rw [hcursor, input.floor_of_size_le (Nat.le_trans hsize (Nat.le_of_lt hover))]
  · rw [← ht]
    exact t.input.roundsTo_floor offset
  · exact (hb.samePlace_rewind (ht.trans hinput.symm)).cursor.symm

/-- Characters of one to four bytes.  The walk from the last byte goes back by three.  A state behind the
second character does not get into the last one, but by a sum that is no word it gets to the end, and from
there back. -/
theorem Input.offsets_rounded_sizes :
    ∃ s t : State Nat, s.Reachable (.ofString "aé€😀") ∧ s.cursor = 3 ∧
      Text.roundDown? (Text.bytes (ofString "aé€😀").chars) 9 = some 6 ∧
      (s.advance 5 .absent).cursor = 6 ∧
      IsGreatest {k | Text.IsBoundary (ofString "aé€😀").chars k ∧ k ≤ s.cursor + 5} 6 ∧
      t = s.advance Text.maxWord .absent ∧ t.cursor = 10 ∧ (t.rewind s.cursor).cursor = 3 := by
  let input : Input := .ofString "aé€😀"
  let s : State Nat := (State.start input).advance 4 .absent
  have hs : s.Reachable input := .move .start (.advance _ 4 .absent)
  have hcursor : s.cursor = 3 := by decide +kernel
  have hsize : input.size = 10 := by decide +kernel
  obtain ⟨hrounds, _, _, _, hstates⟩ := offsets_rounded Nat input
  obtain ⟨hadvance, hrewind⟩ := hstates s hs
  have hwalk := (hrounds 9).walk
  rw [show input.floor 9 = 6 by decide +kernel] at hwalk
  have hnear : (s.advance 5 .absent).cursor = 6 := by decide +kernel
  have hgreatest := (hadvance 5 .absent).1
  rw [hnear] at hgreatest
  have hfar := ((hadvance Text.maxWord .absent).2.2.2 (by rw [hsize]; decide)).2
    (by rw [hcursor]; decide)
  have hback := (hrewind (s.advance Text.maxWord .absent) rfl).2
  exact ⟨s, _, hs, hcursor, hwalk, hnear, hgreatest, rfl, hfar.trans hsize, hback.trans hcursor⟩

end TextGrammar
