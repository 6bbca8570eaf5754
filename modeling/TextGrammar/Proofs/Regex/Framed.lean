import TextGrammar.Pattern
import TextGrammar.Proofs.Regex.Ahead

/-!
# Sources in their frame

The source of a pattern is read in a group behind a sign for the start of the text.  If it can be read
by itself, it stays inside of that group.  What is read is then the sign and behind it what the source
is by itself.

* `Reader.within` — a reader inside of one more group; `Reader.next_within`: it does the same.
* `Reader.readFrom_within` — what can be read by itself, read inside of a group.
* `Expr.same_sequence_anchor` — expressions behind a sign mean what they mean by themselves.
* `Engine.frames_builtIn` — so do sources in their frame.
-/

namespace TextGrammar.Regex

/-! ## Inside of a group -/

namespace Reader

/-- The reader inside of one more group, around all the others. -/
def within (r : Reader) (level : Level) : Reader := { r with outer := r.outer ++ [level] }

variable {r r' : Reader} {level : Level} {text rest : List Char}

@[simp] theorem inner_within (r : Reader) (level : Level) : (r.within level).inner = r.inner := rfl

@[simp] theorem names_within (r : Reader) (level : Level) : (r.within level).names = r.names := rfl

theorem repeatLast_within {least : Nat} {most : Option Nat}
    (h : r.repeatLast least most text = some (r', rest)) :
    (r.within level).repeatLast least most (text ++ [')']) =
      some (r'.within level, rest ++ [')']) := by
  have hmark : ')' ≠ '?' := by decide
  simp only [repeatLast, within, head?_append_iff hmark] at h ⊢
  split at h
  · cases h
    simp only [Option.some.injEq, Prod.mk.injEq, true_and]
    split
    · exact tail_append_of_head? ‹_›
    · rfl
  · cases h

theorem repeatCounted_within (h : r.repeatCounted text = some (r', rest)) :
    (r.within level).repeatCounted (text ++ [')']) =
      some (r'.within level, rest ++ [')']) := by
  unfold repeatCounted at h
  split at h
  · cases h
  · next hnumber =>
    rw [repeatCounted, extends_readNumber _ _ _ hnumber]
    exact repeatLast_within h
  · next hnumber =>
    rw [repeatCounted, extends_readNumber _ _ _ hnumber]
    exact repeatLast_within h
  · next least ahead hno hnumber =>
    split at h
    · next most rest' hmost =>
      have hclosed (tail : List Char) : ahead ++ [')'] = '\x7d' :: tail → False := fun heq =>
        (exists_cons_of_append (by decide) heq).elim hno
      rw [repeatCounted, extends_readNumber _ _ _ hnumber]
      -- That `hclosed` rules out the branches in front is found among the hypotheses.
      simp only [List.cons_append, extends_readNumber _ _ _ hmost]
      split at h
      · next hle =>
        rw [if_pos hle]
        exact repeatLast_within h
      · cases h
    · cases h
  · cases h

theorem openGroup_within (h : r.openGroup text = some (r', rest)) :
    (r.within level).openGroup (text ++ [')']) = some (r'.within level, rest ++ [')']) := by
  simp only [openGroup, inner_within, names_within] at h ⊢
  split at h
  · cases h
  · next hgroup =>
    rw [extends_readGroup _ _ _ _ hgroup]
    cases h
    rfl
  · next hgroup =>
    rw [extends_readGroup _ _ _ _ hgroup]
    cases h
    rfl
  · next hgroup =>
    rw [extends_readGroup _ _ _ _ hgroup]
    split at h
    · cases h
    · next hfresh =>
      cases h
      exact if_neg hfresh

theorem closeGroup_within (h : r.closeGroup = some r') :
    (r.within level).closeGroup = some (r'.within level) := by
  cases hout : r.outer with
  | nil => simp [closeGroup, hout] at h
  | cons inner outer =>
    simp only [closeGroup, within, hout, List.cons_append] at h ⊢
    cases h
    rfl

theorem next_within {c : Char} (h : r.next c text = some (r', rest)) :
    (r.within level).next c (text ++ [')']) = some (r'.within level, rest ++ [')']) := by
  unfold next at h
  split at h
  · exact openGroup_within h
  · obtain ⟨r₁, hclose, heq⟩ := Option.map_eq_some_iff.1 h
    cases heq
    simp [next, closeGroup_within hclose]
  · cases h
    rfl
  · obtain ⟨⟨s, rest'⟩, hset, heq⟩ := Option.map_eq_some_iff.1 h
    cases heq
    simp only [next]
    rw [show (r.within level).inner = r.inner from rfl, extends_readSet _ _ _ _ hset]
    rfl
  · exact repeatLast_within h
  · exact repeatLast_within h
  · exact repeatLast_within h
  · exact repeatCounted_within h
  · cases h
    rfl
  · cases h
    rfl
  · cases h
    rfl
  · obtain ⟨⟨a, rest'⟩, hescape, heq⟩ := Option.map_eq_some_iff.1 h
    simp only [next]
    rw [extends_readEscape _ _ _ hescape]
    cases a <;> cases heq <;> rfl
  · cases h
    rw [next]
    · rfl
    all_goals assumption

/-- At the end of the text no group is open, so the parenthesis closes the group around. -/
theorem readFrom_nil_within {fuel : Nat} {item : Item} (h : readFrom fuel r [] = some item)
    (fuel' : Nat) (level : Level) :
    ∃ closed, closed.expr.term = item.expr.term ∧
      readFrom (fuel' + 1) (r.within level) [')'] = some (level.add closed).content := by
  simp only [readFrom, List.isEmpty_iff] at h
  split at h
  · next hout =>
    cases h
    refine ⟨r.inner.close, ?_, by simp [readFrom, next, closeGroup, within, hout]⟩
    -- whether the group has a number does not matter to what it means
    unfold Level.close
    cases r.inner.number <;> rfl
  · cases h

/-- **What can be read by itself can be read inside of a group**, and is one item of the group around
it, with the same meaning. -/
theorem readFrom_within {fuel fuel' : Nat} (hfuel : fuel < fuel') {item : Item}
    (h : readFrom fuel r text = some item) (level : Level) :
    ∃ closed, closed.expr.term = item.expr.term ∧
      readFrom fuel' (r.within level) (text ++ [')']) = some (level.add closed).content := by
  induction fuel generalizing r text fuel' with
  | zero =>
    cases text with
    | nil =>
      obtain ⟨k, rfl⟩ := Nat.exists_eq_add_of_lt hfuel
      exact readFrom_nil_within h _ level
    | cons c cs => cases h
  | succ fuel ih =>
    obtain ⟨k, rfl⟩ := Nat.exists_eq_add_of_lt hfuel
    cases text with
    | nil => exact readFrom_nil_within h _ level
    | cons c cs =>
      simp only [readFrom, List.cons_append] at h ⊢
      split at h
      · next hnext =>
        rw [next_within hnext]
        exact ih (by omega) h
      · cases h

end Reader

/-! ## Meaning of framed expressions -/

namespace Expr

open Term

/-- An expression in front of others is a sequence of two. -/
theorem same_allTerm_cons (e : Expr) (es : List Expr) :
    (allTerm (e :: es)).Same (.seq e.term (allTerm es)) := by
  intro x
  cases es with
  | nil => simp [allTerm, ways]
  | cons f es => rfl

theorem same_text_append (cs ds : List Char) :
    (text (cs ++ ds)).term.Same (.seq (text cs).term (text ds).term) := by
  induction cs with
  | nil =>
    intro x
    simp [term, ways]
  | cons c cs ih =>
    intro x
    have hways := congrArg (List.flatMap · ((Term.one (CharSet.single c).mem).ways x)) (funext ih)
    simpa only [term, List.cons_append, List.foldr_cons, ways, List.flatMap_assoc] using hways

/-- A text that joins the text that follows means both. -/
theorem same_addItem (e : Expr) (es : List Expr) :
    (allTerm (addItem e es)).Same (.seq e.term (allTerm es)) := by
  unfold addItem
  split
  · next cs ds es =>
    intro x
    rw [same_allTerm_cons, ways, ways, same_text_append, ways, List.flatMap_assoc]
    exact congrArg (List.flatMap · _) (funext fun y => (same_allTerm_cons (text ds) es y).symm)
  · exact same_allTerm_cons e es

theorem same_foldr_addItem (es : List Expr) : (allTerm (es.foldr addItem [])).Same (allTerm es) := by
  induction es with
  | nil => exact fun x => rfl
  | cons e es ih =>
    intro x
    rw [List.foldr_cons, same_addItem, same_allTerm_cons, ways, ways, funext ih]

/-- The items of an expression mean what it means. -/
theorem allTerm_items (e : Expr) : allTerm e.items = e.term := by
  cases e <;> rfl

/-- A condition in front of an expression stays in front. -/
theorem sequence_anchor (a : Anchor) (e : Expr) :
    sequence [.anchor a, e] =
      if e.items.foldr addItem [] = [] then .anchor a
      else .concat (.anchor a :: e.items.foldr addItem []) := by
  have h : ([Expr.anchor a, e].flatMap items).foldr addItem [] =
      .anchor a :: e.items.foldr addItem [] := by
    simp [items, addItem]
  rw [sequence, h]
  generalize e.items.foldr addItem [] = es
  cases es <;> rfl

/-- **A single branch with a sign in front means the sign and then the rest.** -/
theorem same_sequence_anchor (a : Anchor) (e : Expr) :
    (either [sequence [.anchor a, e]]).term.Same (.seq (.look a.holds) e.term) := by
  intro x
  have hitems := same_foldr_addItem e.items
  rw [allTerm_items] at hitems
  have hterm : (either [sequence [.anchor a, e]]).term =
      allTerm (.anchor a :: e.items.foldr addItem []) := by
    rw [sequence_anchor]
    generalize e.items.foldr addItem [] = es
    cases es <;> rfl
  rw [hterm, same_allTerm_cons, ways, ways, funext hitems]
  rfl

end Expr

/-! ## Sources -/

namespace Engine

open Pattern (framed)

/-- In its frame, the source is read inside of a group that follows the sign. -/
theorem readFrom_framed (source : String) :
    Reader.readFrom (framed source).length .start (framed source) =
      Reader.readFrom (source.length + 3)
        (Reader.start.within ((Level.start none {}).add (.simple (.anchor .textStart))))
        (source.toList ++ [')']) := by
  have hlength : (framed source).length = source.length + 3 + 1 + 1 := by
    simp only [framed, List.length_append, String.length_toList]
    show 4 + source.length + 1 = _
    omega
  rw [hlength]
  rfl

/-- What is well formed has been read. -/
theorem exists_of_isSome_compile? {text : List Char} (h : (builtIn.compile? text).isSome = true) :
    ∃ item, Reader.readFrom text.length .start text = some item ∧ meaning text = item.expr.term := by
  obtain ⟨find, hfind⟩ := Option.isSome_iff_exists.1 h
  simp only [builtIn] at hfind
  split at hfind
  · next e hread =>
    rw [meaning, hread]
    simp only [Expr.read?] at hread
    split at hread
    · next item hitem =>
      split at hread
      · cases hread
        exact ⟨item, hitem, rfl⟩
      · cases hread
    · cases hread
  · cases hfind

/-- **The built-in engine reads sources in their frame as it does by themselves**, if it can. -/
theorem frames_builtIn : builtIn.Frames meaning := by
  intro source hsource hframed x
  obtain ⟨item, hread, hmeaning⟩ := exists_of_isSome_compile? hsource
  obtain ⟨item', hread', hmeaning'⟩ := exists_of_isSome_compile? hframed
  rw [String.length_toList] at hread
  obtain ⟨closed, hclosed, hwithin⟩ := Reader.readFrom_within
    (show source.length < source.length + 3 by omega) hread
    ((Level.start none {}).add (.simple (.anchor .textStart)))
  rw [readFrom_framed, hwithin] at hread'
  rw [hmeaning', hmeaning, ← hclosed, ← Option.some.inj hread']
  exact Expr.same_sequence_anchor .textStart closed.expr x

end Engine

end TextGrammar.Regex
