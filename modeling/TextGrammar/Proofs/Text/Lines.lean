import TextGrammar.Text.Input

/-!
# Lines by counting

The line of a place is read off a table by halving.  It is the number of newlines before the place,
counted in the text itself.

* `newlineOffsetsFrom_pairwise` — the table increases.
* `countBelow_spec` — halving finds where the entries stop to be below the bound.
* `lineAt_newlineOffsets` — the table gives the line that counting gives.
* `newlinesBefore_mono` — there are not fewer newlines before a later place.
* `newlinesBefore_append` — newlines of a beginning and of the rest add up.
-/

namespace TextGrammar.Text

/-! ## The table -/

theorem le_of_mem_newlineOffsetsFrom {text : List Char} {start n : Nat}
    (h : n ∈ newlineOffsetsFrom start text) : start ≤ n := by
  induction text generalizing start with
  | nil => simp [newlineOffsetsFrom] at h
  | cons c cs ih =>
    unfold newlineOffsetsFrom at h
    split at h
    · rcases List.mem_cons.1 h with rfl | h
      · exact Nat.le_refl _
      · have := ih h
        omega
    · have := ih h
      omega

/-- The offsets in the table increase. -/
theorem newlineOffsetsFrom_pairwise (start : Nat) (text : List Char) :
    (newlineOffsetsFrom start text).Pairwise (· < ·) := by
  induction text generalizing start with
  | nil => exact List.Pairwise.nil
  | cons c cs ih =>
    have hc := c.utf8Size_pos
    unfold newlineOffsetsFrom
    split
    · refine List.Pairwise.cons (fun n hn => ?_) (ih _)
      have := le_of_mem_newlineOffsetsFrom hn
      omega
    · exact ih _

/-- The entries below an offset are the newlines before it. -/
theorem countP_newlineOffsetsFrom (start : Nat) (text : List Char) (n : Nat) :
    (newlineOffsetsFrom start text).countP (· < start + n) = newlinesBefore text n := by
  induction text generalizing start n with
  | nil => rfl
  | cons c cs ih =>
    have behind : ∀ m, m ≤ start + c.utf8Size →
        (newlineOffsetsFrom (start + c.utf8Size) cs).countP (· < m) = 0 := by
      intro m hm
      rw [List.countP_eq_zero]
      intro k hk
      have := le_of_mem_newlineOffsetsFrom hk
      simp only [decide_eq_true_eq]
      omega
    have rest : n ≠ 0 → (newlineOffsetsFrom (start + c.utf8Size) cs).countP (· < start + n) =
        newlinesBefore cs (n - c.utf8Size) := by
      intro _
      by_cases hn : c.utf8Size ≤ n
      · rw [← ih, show start + c.utf8Size + (n - c.utf8Size) = start + n by omega]
      · rw [behind _ (by omega), show n - c.utf8Size = 0 by omega]
        cases cs <;> rfl
    unfold newlineOffsetsFrom newlinesBefore
    by_cases hn : n = 0
    · subst hn
      split
      · rw [List.countP_cons, behind _ (by omega)]
        simp
      · rw [behind _ (by omega)]
        simp
    · rw [if_neg hn]
      split
      · rw [List.countP_cons, rest hn, if_pos (by simp; omega)]
        omega
      · rw [rest hn]
        omega

/-! ## Halving -/

/-- Halving ends at an index below which all entries are below the bound, and from which on none
is, if that holds outside of the range in which it looks. -/
theorem countBelow_spec {table : Array Nat} {bound : Nat}
    (sorted : table.toList.Pairwise (· < ·)) (lo hi : Nat) (hle : lo ≤ hi) (hsize : hi ≤ table.size)
    (below : ∀ i < lo, table.getD i 0 < bound)
    (above : ∀ i, hi ≤ i → i < table.size → bound ≤ table.getD i 0) :
    countBelow table bound lo hi ≤ table.size ∧
      (∀ i < countBelow table bound lo hi, table.getD i 0 < bound) ∧
      ∀ i, countBelow table bound lo hi ≤ i → i < table.size → bound ≤ table.getD i 0 := by
  have increases : ∀ i j, i ≤ j → j < table.size → table.getD i 0 ≤ table.getD j 0 := by
    intro i j hij hj
    rcases Nat.eq_or_lt_of_le hij with rfl | hlt
    · exact Nat.le_refl _
    · have := List.pairwise_iff_getElem.1 sorted i j (by simpa using by omega) (by simpa using hj) hlt
      simpa [Array.getD, hj, show i < table.size by omega] using Nat.le_of_lt this
  unfold countBelow
  split
  · rename_i hlt
    simp only
    split
    · rename_i hmid
      refine countBelow_spec sorted _ hi (by omega) hsize (fun i hi' => ?_) above
      exact Nat.lt_of_le_of_lt (increases i ((lo + hi) / 2) (by omega) (by omega)) hmid
    · rename_i hmid
      refine countBelow_spec sorted lo _ (by omega) (by omega) below (fun i hi' hi2 => ?_)
      exact Nat.le_trans (Nat.le_of_not_lt hmid) (increases _ i hi' hi2)
  · exact ⟨by omega, below, fun i hi' hi2 => above i (by omega) hi2⟩
termination_by hi - lo

theorem countP_eq_of_split {l : List Nat} {bound k : Nat} (hk : k ≤ l.length)
    (below : ∀ i < k, l.getD i 0 < bound)
    (above : ∀ i, k ≤ i → i < l.length → bound ≤ l.getD i 0) : l.countP (· < bound) = k := by
  induction l generalizing k with
  | nil =>
    simp only [List.length_nil] at hk
    simp [show k = 0 by omega]
  | cons a l ih =>
    rw [List.countP_cons]
    cases k with
    | zero =>
      have ha := above 0 (Nat.le_refl _) (by simp)
      rw [ih (Nat.zero_le _) (fun i hi => absurd hi (by omega))
        (fun i _ hi => by simpa using above (i + 1) (by omega) (by simpa using hi))]
      simp only [List.getD_cons_zero] at ha
      simp [ha]
    | succ k =>
      have ha := below 0 (by omega)
      rw [ih (by simpa using hk) (fun i hi => by simpa using below (i + 1) (by omega))
        (fun i hi hi2 => by simpa using above (i + 1) (by omega) (by simpa using hi2))]
      simp only [List.getD_cons_zero] at ha
      simp [ha]

/-- **The table gives the line that counting gives.** -/
theorem lineAt_newlineOffsets (text : List Char) (n : Nat) :
    lineAt (newlineOffsets text) n = 1 + newlinesBefore text n := by
  have hsorted : (newlineOffsets text).toList.Pairwise (· < ·) := newlineOffsetsFrom_pairwise 0 text
  obtain ⟨hle, below, above⟩ : _ ∧ (∀ i < _, _ < n) ∧ ∀ i, _ → _ → n ≤ _ :=
    countBelow_spec hsorted 0 _ (Nat.zero_le _) (Nat.le_refl _)
      (fun i hi => absurd hi (by omega)) (fun i hi hi2 => absurd hi2 (by omega))
  have hcount := countP_newlineOffsetsFrom 0 text n
  rw [Nat.zero_add] at hcount
  rw [lineAt, ← hcount]
  congr 1
  refine (countP_eq_of_split (by simpa [newlineOffsets] using hle) (fun i hi => ?_) (fun i hi hi2 => ?_)).symm
  · simpa [newlineOffsets] using below i hi
  · simpa [newlineOffsets] using above i hi (by simpa [newlineOffsets] using hi2)

/-! ## Farther on -/

/-- There are not fewer newlines before a later place. -/
theorem newlinesBefore_mono (text : List Char) {m n : Nat} (h : m ≤ n) :
    newlinesBefore text m ≤ newlinesBefore text n := by
  induction text generalizing m n with
  | nil => exact Nat.le_refl 0
  | cons c cs ih =>
    by_cases hm : m = 0
    · rw [newlinesBefore, if_pos hm]
      exact Nat.zero_le _
    · rw [newlinesBefore, newlinesBefore, if_neg hm, if_neg (show ¬ n = 0 by omega)]
      exact Nat.add_le_add_left (ih (Nat.sub_le_sub_right h c.utf8Size)) _

/-! ## Behind a beginning -/

/-- Newlines of a beginning and of the rest add up. -/
theorem newlinesBefore_append (before text : List Char) (n : Nat) :
    newlinesBefore (before ++ text) (byteLength before + n) =
      before.count '\n' + newlinesBefore text n := by
  induction before with
  | nil => simp
  | cons c cs ih =>
    have hc := c.utf8Size_pos
    rw [byteLength_cons, List.cons_append, newlinesBefore, if_neg (by omega)]
    rw [show c.utf8Size + byteLength cs + n - c.utf8Size = byteLength cs + n by omega, ih,
      List.count_cons]
    by_cases h : c = '\n'
    · simp only [h, if_true, beq_self_eq_true]
      omega
    · simp [h]

end TextGrammar.Text

namespace TextGrammar.Input

open Text

/-- The line of an offset, by counting. -/
theorem line_eq (input : Input) (offset : Nat) :
    input.line offset = 1 + newlinesBefore input.chars offset := by
  rw [line, input.newlines_eq, lineAt_newlineOffsets]

theorem line_mono (input : Input) {m n : Nat} (h : m ≤ n) : input.line m ≤ input.line n := by
  rw [line_eq, line_eq]
  exact Nat.add_le_add_left (newlinesBefore_mono _ h) 1

end TextGrammar.Input
