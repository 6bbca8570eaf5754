import TextGrammar.Regex.Reader.Parts

/-!
# Readers and a parenthesis behind the text

What reads a small part of a regular expression stops where the part does.  So if it succeeds, it does
the same with a closing parenthesis behind the text, which it leaves there.  Where a reader looks
ahead, it looks for other signs.

* `Extends` — the readers that leave a parenthesis behind the text alone.
* `extends_readNumber`, `extends_readEscape`, `extends_readSet`, `extends_readGroup` — counts, escapes,
  bracketed sets and the heads of groups.
-/

namespace TextGrammar.Regex

/-- Where the reader succeeds, it gives the same if a closing parenthesis stands behind the text, and
leaves that behind what it leaves otherwise. -/
def Extends {α : Type} (read : List Char → Option (α × List Char)) : Prop :=
  ∀ text x rest, read text = some (x, rest) → read (text ++ [')']) = some (x, rest ++ [')'])

/-! ## Looking ahead -/

theorem dropWhile_append_of_cons {kind : Char → Bool} {text rest : List Char} {c : Char}
    (h : text.dropWhile kind = c :: rest) (tail : List Char) :
    (text ++ tail).dropWhile kind = c :: (rest ++ tail) := by
  rw [List.dropWhile_append, h]
  rfl

theorem takeWhile_append_of_cons {kind : Char → Bool} {text rest : List Char} {c : Char}
    (h : text.dropWhile kind = c :: rest) (tail : List Char) :
    (text ++ tail).takeWhile kind = text.takeWhile kind := by
  induction text with
  | nil => cases h
  | cons d ds ih =>
    rw [List.cons_append, List.takeWhile_cons, List.takeWhile_cons]
    cases hd : kind d with
    | false => rfl
    | true =>
      rw [List.dropWhile_cons_of_pos hd] at h
      rw [if_pos rfl, if_pos rfl, ih h]

theorem dropWhile_append_of_not {kind : Char → Bool} {d : Char} (h : kind d = false)
    (text : List Char) : (text ++ [d]).dropWhile kind = text.dropWhile kind ++ [d] := by
  rw [List.dropWhile_append]
  split
  · next hempty => rw [List.isEmpty_iff.1 hempty]; simp [h]
  · rfl

theorem takeWhile_append_of_not {kind : Char → Bool} {d : Char} (h : kind d = false)
    (text : List Char) : (text ++ [d]).takeWhile kind = text.takeWhile kind := by
  induction text with
  | nil => simp [h]
  | cons c cs ih =>
    rw [List.cons_append, List.takeWhile_cons, List.takeWhile_cons, ih]

theorem head?_append_iff {k : Char} (hk : ')' ≠ k) (cs : List Char) :
    (cs ++ [')']).head? = some k ↔ cs.head? = some k := by
  cases cs with
  | nil => simp [hk]
  | cons c cs => exact Iff.rfl

theorem tail_append_of_head? {k : Char} {cs : List Char} (h : cs.head? = some k) :
    (cs ++ [')']).tail = cs.tail ++ [')'] := by
  cases cs with
  | nil => cases h
  | cons c cs => rfl

/-- A sign at the start is taken off in the same way. -/
theorem tail_append_if {k : Char} (cs : List Char) :
    (if cs.head? = some k then (cs ++ [')']).tail else cs ++ [')']) =
      (if cs.head? = some k then cs.tail else cs) ++ [')'] := by
  split
  · next h => exact tail_append_of_head? h
  · rfl

theorem exists_cons_of_append {k : Char} (hk : ')' ≠ k) {text tail : List Char}
    (h : text ++ [')'] = k :: tail) : ∃ text', text = k :: text' := by
  cases text with
  | nil => exact absurd (List.cons.inj h).1 hk
  | cons c cs => exact ⟨cs, by rw [(List.cons.inj h).1]⟩

/-! ## Numbers and escapes -/

theorem extends_readNumber : Extends readNumber := by
  intro text n rest h
  have hblank : Text.isBlank ')' = false := by decide
  have hdigit : Char.isDigit ')' = false := by decide
  simp only [readNumber, dropWhile_append_of_not hblank, takeWhile_append_of_not hdigit,
    dropWhile_append_of_not hdigit] at h ⊢
  split at h
  · cases h
  · next hok =>
    cases h
    rw [if_neg hok]

theorem extends_readCode (count : Nat) : Extends (readCode count) := by
  intro text d rest h
  cases text with
  | nil => cases h
  | cons c cs =>
    simp only [readCode, List.cons_append] at h ⊢
    split
    · next hc =>
      rw [if_pos hc] at h
      split at h
      · cases h
      · next e tail hdrop =>
        rw [dropWhile_append_of_cons hdrop, takeWhile_append_of_cons hdrop]
        obtain ⟨d', hd, heq⟩ := Option.map_eq_some_iff.1 h
        cases heq
        rw [hd]
        rfl
    · next hc =>
      rw [if_neg hc] at h
      split at h
      · next hcount =>
        have hle : count ≤ (c :: cs).length := by
          rw [List.length_take] at hcount
          omega
        rw [← List.cons_append, List.take_append_of_le_length hle,
          List.drop_append_of_le_length hle, if_pos hcount]
        obtain ⟨d', hd, heq⟩ := Option.map_eq_some_iff.1 h
        cases heq
        rw [hd]
        rfl
      · cases h

theorem Extends.map {α β : Type} {read : List Char → Option (α × List Char)} (h : Extends read)
    (f : α → β) : Extends fun text => (read text).map fun (x, rest) => (f x, rest) := by
  intro text y rest hread
  obtain ⟨⟨x, rest'⟩, hx, heq⟩ := Option.map_eq_some_iff.1 hread
  cases heq
  simp only [h text x rest hx]
  rfl

theorem namesEdge_append (cs : List Char) : namesEdge (cs ++ [')']) = namesEdge cs := by
  match cs with
  | [] => rfl
  | [b] => simp [namesEdge]
  | b :: c :: cs => rfl

theorem exists_cons_of_namesEdge {text : List Char} (h : namesEdge text = true) :
    ∃ cs, text = '\x7b' :: cs := by
  match text with
  | [] => cases h
  | [b] => cases h
  | b :: c :: cs =>
    simp only [namesEdge, Bool.and_eq_true, decide_eq_true_eq] at h
    exact ⟨c :: cs, by rw [h.1]⟩

theorem extends_readEdge : Extends readEdge := by
  intro text a rest h
  unfold readEdge at h ⊢
  rw [namesEdge_append]
  split at h
  · next hedge =>
    rw [if_pos hedge]
    split at h
    · cases h
    · next d tail hdrop =>
      obtain ⟨cs, rfl⟩ := exists_cons_of_namesEdge hedge
      obtain ⟨a', ha, heq⟩ := Option.map_eq_some_iff.1 h
      cases heq
      have hname : (('\x7b' :: cs) ++ [')']).tail.takeWhile (· ≠ '\x7d') =
          cs.takeWhile (· ≠ '\x7d') := by
        rw [List.dropWhile_cons_of_pos (by decide)] at hdrop
        exact takeWhile_append_of_cons hdrop _
      rw [dropWhile_append_of_cons hdrop, hname]
      exact Option.map_eq_some_iff.2 ⟨a, ha, rfl⟩
  · next hedge =>
    cases h
    rw [if_neg hedge]

/-- **Escapes are read in the same way.** -/
theorem extends_readEscape : Extends readEscape := by
  intro text a rest h
  unfold readEscape at h
  split at h
  case h_1 => cases h
  case h_2 cs => exact (extends_readCode 2).map Atom.char cs a rest h
  case h_3 cs => exact (extends_readCode 4).map Atom.char cs a rest h
  case h_4 cs => exact (extends_readCode 8).map Atom.char cs a rest h
  case h_19 cs => exact extends_readEdge.map Atom.anchor cs a rest h
  case h_23 =>
    split at h
    · next hc =>
      cases h
      simp [readEscape, *]
    · cases h
  all_goals
    cases h
    rfl

/-! ## Bracketed sets -/

/-- What follows an opening bracket begins in the same way. -/
theorem start_append (text : List Char) :
    SetLevel.start (text ++ [')']) =
      ((SetLevel.start text).1, (SetLevel.start text).2 ++ [')']) := by
  have htake (cs : List Char) : (cs ++ [')']).takeWhile (· = '-') = cs.takeWhile (· = '-') :=
    takeWhile_append_of_not rfl cs
  have hdrop (cs : List Char) :
      (cs ++ [')']).dropWhile (· = '-') = cs.dropWhile (· = '-') ++ [')'] :=
    dropWhile_append_of_not rfl cs
  have hsign : ')' ≠ '^' := by decide
  simp only [SetLevel.start, head?_append_iff hsign, tail_append_if]
  generalize (if text.head? = some '^' then text.tail else text) = ahead
  match ahead with
  | [] => rfl
  | c :: cs =>
    rw [List.cons_append]
    split
    · next h =>
      cases h
      rfl
    · next h =>
      cases h
      simp only [htake, hdrop]
    · next hbracket hhyphen =>
      split
      · next h => cases h; exact absurd rfl (hbracket _)
      · next h => cases h; exact absurd rfl (hhyphen _)
      · rfl

theorem extends_readMember : Extends readMember := by
  intro text a rest h
  unfold readMember at h
  split at h
  · cases h
  · exact extends_readEscape _ a rest h
  · cases h
    simp [readMember, *]

/-- A hyphen ahead that begins no range begins none with a parenthesis behind it, unless it is all that
is ahead. -/
theorem append_ne_range {rest : List Char} (hrest : rest ≠ ['-'])
    (hno : ∀ c cs, rest = '-' :: c :: cs → False) (c : Char) (cs : List Char) :
    rest ++ [')'] = '-' :: c :: cs → False := by
  intro h
  match rest with
  | [] => cases h
  | [d] =>
    cases h
    exact hrest rfl
  | d :: e :: es =>
    cases h
    exact hno _ _ rfl

theorem readRange_append {text rest : List Char} {s : CharSet}
    (h : readRange text = some (s, rest)) (hrest : rest ≠ ['-']) :
    readRange (text ++ [')']) = some (s, rest ++ [')']) := by
  unfold readRange at h
  split at h
  · next first c cs hm =>
    rw [readRange, extends_readMember _ _ _ hm]
    simp only [List.cons_append]
    split at h
    · next hc =>
      cases h
      rw [if_pos hc]
      rfl
    · next hc =>
      rw [if_neg hc]
      split at h
      · next last rest' hm' =>
        rw [← List.cons_append, extends_readMember _ _ _ hm']
        simp only
        split at h
        · next hle =>
          cases h
          rw [if_pos hle]
        · cases h
      · cases h
  · next c rest' hno hm =>
    cases h
    rw [readRange, extends_readMember _ _ _ hm]
    have htail := append_ne_range hrest hno
    generalize rest ++ [')'] = tail at htail
    grind
  · next s c cs hm =>
    rw [readRange, extends_readMember _ _ _ hm]
    simp only [List.cons_append]
    split at h
    · next hc =>
      cases h
      rw [if_pos hc]
      rfl
    · cases h
  · next s rest' hno hm =>
    cases h
    rw [readRange, extends_readMember _ _ _ hm]
    have htail := append_ne_range hrest hno
    generalize rest ++ [')'] = tail at htail
    grind
  · cases h

/-- A set whose rest is a single hyphen is never closed. -/
theorem readSetFrom_hyphen (ignoreCase : Bool) (fuel : Nat) (level : SetLevel) :
    readSetFrom ignoreCase fuel level ['-'] = none := by
  match fuel with
  | 0 => rfl
  | 1 => rfl
  | fuel + 2 => rfl

/-- A class that is named, and what is not the name of one. -/
theorem readNamed_append (ignoreCase : Bool) (text : List Char) :
    readNamed ignoreCase (text ++ [')']) =
      (readNamed ignoreCase text).map fun (s, rest) => (s, rest ++ [')']) := by
  match text with
  | [] => rfl
  | c :: cs =>
    by_cases hc : c = ':'
    · subst hc
      have hsign : ')' ≠ '^' := by decide
      simp only [readNamed, List.cons_append, head?_append_iff hsign, tail_append_if]
      generalize (if cs.head? = some '^' then cs.tail else cs) = ahead
      match hdrop : ahead.dropWhile (· ≠ ':') with
      | [] =>
        rw [List.dropWhile_append, hdrop]
        rfl
      | d :: tail =>
        rw [dropWhile_append_of_cons hdrop, takeWhile_append_of_cons hdrop]
        match tail with
        | [] => by_cases hd : d = ':' <;> simp [hd]
        | e :: rest =>
          by_cases hd : d = ':' <;> by_cases he : e = ']' <;> simp [hd, he, Function.comp_def]
    · simp [readNamed, hc]

theorem readSetFrom_append {ignoreCase : Bool} {fuel fuel' : Nat} (hfuel : fuel ≤ fuel')
    {level : SetLevel} {text rest : List Char} {s : NestedSet}
    (h : readSetFrom ignoreCase fuel level text = some (s, rest)) :
    readSetFrom ignoreCase fuel' level (text ++ [')']) = some (s, rest ++ [')']) := by
  induction fuel generalizing fuel' level text s rest with
  | zero => cases h
  | succ fuel ih =>
    obtain ⟨fuel', rfl⟩ : ∃ k, fuel' = k + 1 := ⟨fuel' - 1, by omega⟩
    replace hfuel : fuel ≤ fuel' := by omega
    cases text with
    | nil => cases h
    | cons c cs =>
      have hamp : ')' ≠ '&' := by decide
      have hhyphen : ')' ≠ '-' := by decide
      have htilde : ')' ≠ '~' := by decide
      simp only [readSetFrom, List.cons_append, head?_append_iff hamp, head?_append_iff hhyphen,
        head?_append_iff htilde, start_append] at h ⊢
      split at h
      · rw [if_pos ‹c = ']'›]
        cases h
        rfl
      rw [if_neg ‹¬c = ']'›]
      split at h
      · rw [if_pos ‹c = '['›, readNamed_append]
        split at h
        · next hnamed =>
          rw [hnamed]
          exact ih hfuel h
        · next hnamed =>
          rw [hnamed]
          split at h
          · next inner hinner =>
            simp only [Option.map_none]
            rw [ih hfuel hinner]
            exact ih hfuel h
          · cases h
      rw [if_neg ‹¬c = '['›]
      -- the three operations
      iterate 3
        split at h
        · next hc =>
          rw [if_pos hc, tail_append_of_head? hc.2]
          exact ih hfuel h
        rw [if_neg ‹_›]
      split at h
      · next rest' hrange =>
        have hrest : rest' ≠ ['-'] := by
          rintro rfl
          rw [readSetFrom_hyphen] at h
          cases h
        rw [← List.cons_append, readRange_append hrange hrest]
        exact ih hfuel h
      · cases h

/-- **Bracketed sets are read in the same way.** -/
theorem extends_readSet (ignoreCase : Bool) : Extends (readSet ignoreCase) := by
  intro text s rest h
  unfold readSet at h ⊢
  rw [start_append]
  exact readSetFrom_append (by simp) h

/-! ## Groups -/

theorem extends_readName : Extends readName := by
  intro text name rest h
  unfold readName at h
  split at h
  · next c cs d rest' htake hdrop =>
    rw [readName, takeWhile_append_of_cons hdrop, dropWhile_append_of_cons hdrop, htake]
    simp only
    split at h
    · cases h
      rw [if_pos ‹_›]
    · cases h
  · cases h

theorem Flags.extends_read (flags : Flags) (on : Bool) (seen : List Char) :
    Extends (flags.read on seen) := by
  intro text
  induction text generalizing flags on seen with
  | nil => exact fun _ _ h => nomatch h
  | cons c cs ih =>
    intro flags' rest h
    simp only [List.cons_append, Flags.read] at h ⊢
    split at h
    · rw [if_pos ‹_›]
      split at h
      · cases h
      · rw [if_neg ‹_›]
        cases h
        rfl
    rw [if_neg ‹_›]
    split at h
    · cases h
    rw [if_neg ‹_›]
    split at h
    · rw [if_pos ‹_›]
      exact ih _ _ _ _ _ h
    rw [if_neg ‹_›]
    obtain ⟨flags₁, hset, h⟩ := Option.bind_eq_some_iff.1 h
    rw [hset]
    exact ih _ _ _ _ _ h

/-- **What follows an opening parenthesis is read in the same way.** -/
theorem extends_readGroup (flags : Flags) : Extends (readGroup flags) := by
  intro text opening rest h
  unfold readGroup at h
  split at h
  case h_5 cs => exact extends_readName.map (fun name => Opening.numbered (some name)) cs _ _ h
  case h_6 cs hequals hexclamation =>
    cases cs with
    | nil => cases h
    | cons c cs =>
      have hread : readGroup flags ('?' :: '<' :: (c :: cs ++ [')'])) =
          (readName (c :: cs ++ [')'])).map fun r => (Opening.numbered (some r.1), r.2) := by
        simp only [List.cons_append]
        rw [readGroup]
        · rintro tail ⟨⟩
          exact hequals _ rfl
        · rintro tail ⟨⟩
          exact hexclamation _ rfl
      exact hread.trans (extends_readName.map (fun name => Opening.numbered (some name)) _ _ _ h)
  case h_7 cs h₁ h₂ h₃ h₄ h₅ h₆ =>
    cases cs with
    | nil => cases h
    | cons c cs =>
      simp only [List.cons_append]
      rw [readGroup]
      · split at h
        · next hread =>
          cases h
          rw [← List.cons_append, Flags.extends_read _ _ _ _ _ _ hread]
          rfl
        · next hread =>
          split at h
          · cases h
          · next hhead =>
            cases h
            rw [← List.cons_append, Flags.extends_read _ _ _ _ _ _ hread]
            exact if_neg hhead
        · cases h
      · exact fun tail heq => h₁ cs (by rw [(List.cons.inj heq).1])
      · exact fun tail heq => h₂ cs (by rw [(List.cons.inj heq).1])
      · exact fun tail heq => h₆ cs (by rw [(List.cons.inj heq).1])
      · exact fun tail heq => h₆ cs (by rw [(List.cons.inj heq).1])
      · intro tail heq
        obtain ⟨rfl, hcs⟩ := List.cons.inj heq
        obtain ⟨cs', rfl⟩ := exists_cons_of_append (by decide) hcs
        exact h₅ cs' rfl
      · exact fun tail heq => h₆ cs (by rw [(List.cons.inj heq).1])
  case h_8 h =>
    cases text with
    | nil => cases h; rfl
    | cons c cs =>
      cases h
      simp only [List.cons_append]
      rw [readGroup]
      all_goals exact fun tail heq => h cs (by rw [(List.cons.inj heq).1])
  all_goals cases h

end TextGrammar.Regex
