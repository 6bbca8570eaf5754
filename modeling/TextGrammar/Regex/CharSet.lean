import TextGrammar.Text.Classes
import TextGrammar.Text.Table.Case

/-!
# Sets of characters

A set of characters is kept as the separated ranges of their code points, so that equal sets are
equal as values.

* `CharSet.mem` — membership.
* `CharSet.ofRange`, `digit`, `blank`, `word` — ranges and the classes that have letters.
* `CharSet.ascii?` — the classes of ASCII that have names.
* `CharSet.complement`, `union`, `inter`, `difference`, `symmetric` — the operations on sets, each
  with a lemma on membership.
* `CharSet.anyCase` — the characters that differ from a member at most by case.
-/

namespace TextGrammar.Regex

/-- A set of characters. -/
structure CharSet where
  ranges : List (Nat × Nat)
  separated : Text.Separated 0 ranges
deriving DecidableEq

namespace CharSet

/-- Membership. -/
def mem (s : CharSet) (c : Char) : Bool := Text.inRanges s.ranges c.toNat

/-- No character. -/
def empty : CharSet := ⟨[], trivial⟩

/-- The set with one more range of code points. -/
def insert (s : CharSet) (lo hi : Nat) : CharSet :=
  if h : lo ≤ hi then ⟨Text.insertRange lo hi s.ranges, s.separated.insertRange (Nat.zero_le _) h⟩
  else s

/-- The code points from `lo` to `hi`. -/
def ofRange (lo hi : Nat) : CharSet := empty.insert lo hi

/-- The set of one character. -/
def single (c : Char) : CharSet := ofRange c.toNat c.toNat

/-- The decimal digits. -/
def digit : CharSet := ⟨Text.digitRanges, Text.separated_digitRanges⟩

/-- White space. -/
def blank : CharSet := ⟨Text.blankRanges, Text.separated_blankRanges⟩

/-- The word characters. -/
def word : CharSet := ⟨Text.wordRanges, Text.separated_wordRanges⟩

/-- The ranges of the classes of ASCII that have names. -/
def asciiRanges? : String → Option (List (Nat × Nat))
  | "alnum" => some [(0x30, 0x39), (0x41, 0x5a), (0x61, 0x7a)]
  | "alpha" => some [(0x41, 0x5a), (0x61, 0x7a)]
  | "ascii" => some [(0x00, 0x7f)]
  | "blank" => some [(0x09, 0x09), (0x20, 0x20)]
  | "cntrl" => some [(0x00, 0x1f), (0x7f, 0x7f)]
  | "digit" => some [(0x30, 0x39)]
  | "graph" => some [(0x21, 0x7e)]
  | "lower" => some [(0x61, 0x7a)]
  | "print" => some [(0x20, 0x7e)]
  | "punct" => some [(0x21, 0x2f), (0x3a, 0x40), (0x5b, 0x60), (0x7b, 0x7e)]
  | "space" => some [(0x09, 0x0d), (0x20, 0x20)]
  | "upper" => some [(0x41, 0x5a)]
  | "word" => some [(0x30, 0x39), (0x41, 0x5a), (0x5f, 0x5f), (0x61, 0x7a)]
  | "xdigit" => some [(0x30, 0x39), (0x41, 0x46), (0x61, 0x66)]
  | _ => none

/-- The class of ASCII with a name. -/
def ascii? (name : String) : Option CharSet :=
  (asciiRanges? name).map fun ranges => ranges.foldl (fun s r => s.insert r.1 r.2) empty

/-- The greatest code point. -/
def lastCode : Nat := 0x10ffff

/-- The characters that are not members. -/
def complement (s : CharSet) : CharSet :=
  ⟨Text.gaps lastCode 0 s.ranges, s.separated.gaps (Nat.le_refl 0)⟩

/-- Every character. -/
def all : CharSet := empty.complement

/-- The members of either set. -/
def union (s t : CharSet) : CharSet := t.ranges.foldl (fun u r => u.insert r.1 r.2) s

/-- The members of both sets. -/
def inter (s t : CharSet) : CharSet := (s.complement.union t.complement).complement

/-- The members of the first set that are not in the second. -/
def difference (s t : CharSet) : CharSet := s.inter t.complement

/-- The members of one set that are not in the other. -/
def symmetric (s t : CharSet) : CharSet := (s.difference t).union (t.difference s)

/-- The only member of a set of one character. -/
def only? (s : CharSet) : Option Char :=
  match s.ranges with
  | [(lo, hi)] => if lo = hi then some (Char.ofNat lo) else none
  | _ => none

/-! ## Case -/

/-- Groups of code points that differ by case alone. -/
def caseGroups : List (List Nat) :=
  Text.Table.caseGroups ++ Text.Table.casePairs.flatMap fun (first, last, step, behind) =>
    (List.range ((last - first) / step + 1)).map fun k =>
      [first + step * k, first + step * k + behind]

/-- The set with all code points of the groups that meet `s`. -/
def addGroups (s : CharSet) (groups : List (List Nat)) : CharSet :=
  groups.foldl
    (fun u group =>
      if group.any (Text.inRanges s.ranges) then group.foldl (fun u n => u.insert n n) u else u) s

/-- The members, and the characters that differ from a member by case alone. -/
def anyCase (s : CharSet) : CharSet := s.addGroups caseGroups

/-! ## Membership -/

@[simp] theorem mem_empty (c : Char) : empty.mem c = false := rfl

theorem mem_insert {s : CharSet} {lo hi : Nat} (h : lo ≤ hi) (c : Char) :
    (s.insert lo hi).mem c = (decide (lo ≤ c.toNat ∧ c.toNat ≤ hi) || s.mem c) := by
  rw [insert, dif_pos h]
  exact Text.inRanges_insertRange s.separated h c.toNat

@[simp] theorem mem_single (c d : Char) : (single c).mem d = decide (d = c) := by
  rw [single, ofRange, mem_insert (Nat.le_refl _), mem_empty, Bool.or_false, decide_eq_decide,
    ← Char.toNat_inj]
  omega

@[simp] theorem mem_complement (s : CharSet) (c : Char) : s.complement.mem c = !s.mem c := by
  have h : c.toNat ≤ lastCode := by
    have := c.valid
    simp only [UInt32.isValidChar, Nat.isValidChar] at this
    simp only [Char.toNat, lastCode]
    omega
  simpa [mem, complement] using Text.inRanges_gaps s.separated h

@[simp] theorem mem_all (c : Char) : all.mem c = true := by simp [all]

theorem mem_foldl_insert {least : Nat} {ranges : List (Nat × Nat)}
    (h : Text.Separated least ranges) (s : CharSet) (c : Char) :
    (ranges.foldl (fun u r => u.insert r.1 r.2) s).mem c =
      (s.mem c || Text.inRanges ranges c.toNat) := by
  induction ranges generalizing least s with
  | nil => simp [Text.inRanges]
  | cons r rest ih =>
    obtain ⟨lo, hi⟩ := r
    obtain ⟨_, h2, h3⟩ := h
    have := h3.le_of_inRanges (n := c.toNat)
    rw [List.foldl_cons, ih h3, mem_insert h2]
    cases hm : Text.inRanges rest c.toNat <;> cases s.mem c <;> grind [Text.inRanges]

@[simp] theorem mem_union (s t : CharSet) (c : Char) : (s.union t).mem c = (s.mem c || t.mem c) :=
  mem_foldl_insert t.separated s c

@[simp] theorem mem_inter (s t : CharSet) (c : Char) :
    (s.inter t).mem c = (s.mem c && t.mem c) := by
  simp [inter]

@[simp] theorem mem_difference (s t : CharSet) (c : Char) :
    (s.difference t).mem c = (s.mem c && !t.mem c) := by
  simp [difference]

@[simp] theorem mem_symmetric (s t : CharSet) (c : Char) :
    (s.symmetric t).mem c = (s.mem c != t.mem c) := by
  simp only [symmetric, mem_union, mem_difference]
  cases s.mem c <;> cases t.mem c <;> rfl

end CharSet

end TextGrammar.Regex
