import TextGrammar.Proofs.Parser.Budget
import TextGrammar.Proofs.Parser.Part

/-!
# Parts in their place

A part of a recursive parser refers to it by a handle, and so cannot be run alone.  It is run with
the recursive parsers that it stands in.

* `Surroundings` — the recursive parsers around a part, and the scope that they make up.
* `Parser.EndsAmid` — the state in which a part ends when it is run where it stands.
* `Parser.Occurs` — the parts of a grammar at any depth, each with its surroundings.
* `Parser.Closed` — every handle stands inside the recursive parser that binds it.
* `Parser.FailsAt`, `Parser.PassesTo` — what becomes of a part at an offset of an input.
-/

namespace TextGrammar

variable {ν : Type}

/-- The recursive parsers around a part, with their handles and bodies, the innermost first. -/
abbrev Surroundings (ν : Type) := List (Handle × Parser ν)

namespace Surroundings

/-- What the handles stand for amid these recursive parsers. -/
def scope (budget : Nat) : Surroundings ν → Scope ν
  | [] => Scope.none
  | (h, body) :: around =>
    (scope budget around).bind h ((Parser.recursive h body).step budget (scope budget around))

/-- A property of the steps of handles, if recursive parsers have it whenever the handles around
them do. -/
theorem forall_scope {P : Step ν → Prop} (hstray : P Step.stray) {budget : Nat}
    {around : Surroundings ν}
    (hstep : ∀ r ∈ around, ∀ outer : Scope ν, (∀ h, P (outer h)) →
      P ((Parser.recursive r.1 r.2).step budget outer)) (h : Handle) :
    P (around.scope budget h) := by
  induction around generalizing h with
  | nil => exact hstray
  | cons r around ih =>
    have hinner : ∀ h, P (scope budget around h) :=
      ih fun r hr => hstep r (List.mem_cons_of_mem _ hr)
    exact Scope.forall_bind hinner r.1 (hstep r List.mem_cons_self _ hinner) h

/-- A greater budget serves handles as it serves parsers. -/
theorem scope_le {b b' : Nat} (hb : b ≤ b') (around : Surroundings ν) (h : Handle) :
    (around.scope b h).Le (around.scope b' h) := by
  induction around generalizing h with
  | nil => exact Step.Le.refl _
  | cons r around ih => exact Scope.le_bind ih r.1 ((Parser.recursive r.1 r.2).step_le hb ih) h

end Surroundings

namespace Parser

variable {around : Surroundings ν} {root p : Parser ν}

/-- The parser ends in state `t` when it is run from state `s` amid recursive parsers that exist. -/
def EndsAmid (around : Surroundings ν) (p : Parser ν) (s t : State ν) : Prop :=
  ∃ budget, p.runFrom budget (around.scope budget) s = some t

theorem EndsAmid.unique {s t t' : State ν} (h : p.EndsAmid around s t)
    (h' : p.EndsAmid around s t') : t = t' := by
  obtain ⟨b, hb⟩ := h
  obtain ⟨b', hb'⟩ := h'
  have hle {k : Nat} (hk : k ≤ max b b') :=
    (p.step_le hk (around.scope_le hk)).unlessFailed (ν := ν)
  have hmax := hle (Nat.le_max_left b b') s t hb
  rw [hle (Nat.le_max_right b b') s t' hb'] at hmax
  exact (Option.some.inj hmax).symm

/-- A parser does not both succeed and fail. -/
theorem EndsAmid.not_both {s t t' : State ν} (h : p.EndsAmid around s t) (ht : t.failed = false)
    (h' : p.EndsAmid around s t') (ht' : t'.failed = true) : False := by
  rw [h.unique h', ht'] at ht
  cases ht

/-! ## Occurrences -/

/-- The parser `p` occurs in the grammar amid these recursive parsers. -/
inductive Occurs (root : Parser ν) : Surroundings ν → Parser ν → Prop where
  | root : Occurs root [] root
  | part {around : Surroundings ν} {p q : Parser ν} (hp : Occurs root around p) (h : Part p q)
      (hbind : ∀ h, p ≠ recursive h q) : Occurs root around q
  | body {around : Surroundings ν} {h : Handle} {body : Parser ν}
      (hp : Occurs root around (recursive h body)) : Occurs root ((h, body) :: around) body

theorem Occurs.contains (h : root.Occurs around p) : root.Contains p := by
  induction h with
  | root => exact .refl root
  | part _ hpart _ ih => exact ih.tail hpart
  | body _ ih => exact ih.tail (.recursive _ _)

/-- What occurs in a grammar stands amid recursive parsers of the grammar. -/
theorem Occurs.contains_around (h : root.Occurs around p) :
    ∀ r ∈ around, root.Contains (recursive r.1 r.2) := by
  induction h with
  | root => exact fun _ hr => absurd hr List.not_mem_nil
  | part _ _ _ ih => exact ih
  | body hp ih =>
    intro r hr
    rcases List.mem_cons.1 hr with rfl | hr
    · exact hp.contains
    · exact ih r hr

/-- The handle stands in the parser outside of every recursive parser that binds it. -/
inductive Free (h : Handle) : Parser ν → Prop where
  | handle : Free h (handle h)
  | part {p q : Parser ν} (hq : Free h q) (hpart : Part p q)
      (hbind : ∀ body, p ≠ recursive h body) : Free h p

/-- The parser is a whole grammar: no handle in it is free. -/
def Closed (p : Parser ν) : Prop := ∀ h, ¬ p.Free h

/-! ## What becomes of a part -/

/-- Run at the offset `q`, the parser fails, whatever was produced before. -/
def FailsAt (around : Surroundings ν) (p : Parser ν) (input : Input) (q : Nat) : Prop :=
  ∀ s : State ν, s.failed = false → s.input = input → s.cursor = q →
    ∃ t, p.EndsAmid around s t ∧ t.failed = true

/-- Run at the offset `q`, the parser succeeds and has come to `r`, whatever was produced before. -/
def PassesTo (around : Surroundings ν) (p : Parser ν) (input : Input) (q r : Nat) : Prop :=
  ∀ s : State ν, s.failed = false → s.input = input → s.cursor = q →
    ∃ t, p.EndsAmid around s t ∧ t.failed = false ∧ t.cursor = r

end Parser

end TextGrammar
