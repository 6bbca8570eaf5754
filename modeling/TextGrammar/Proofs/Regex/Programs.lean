import TextGrammar.Regex.Match

/-!
# What programs accept

The program of an expression accepts only what the expression means.  An expression is put in front of
a program, whose code is still to be completed where a loop leads back.  So what its own instructions do
is said for any code that has them: whatever leads from them to acceptance leads by a way through the
expression to the program behind.

* `Program.Accepts` — the code comes to accept, step by step.
* `Program.Compiles` — what puts a part of a given meaning in front of programs.
* `Expr.compiles_before` — expressions are such parts.
* `Expr.mem_ways_of_accepts` — so the program of an expression accepts what the expression means.
-/

namespace TextGrammar.Regex

namespace Program

/-- From the address, at the first place, the code comes in so many steps to accept at the second. -/
inductive Accepts (code : Array Instr) : (steps address : Nat) → Place → Place → Prop where
  | accept {a x} (h : code[a]? = some .accept) : Accepts code 0 a x x
  | take {n a s next before c cs z} (h : code[a]? = some (.take s next)) (hc : s.mem c = true)
      (rest : Accepts code n next ⟨some c, cs⟩ z) : Accepts code (n + 1) a ⟨before, c :: cs⟩ z
  | check {n a k next x z} (h : code[a]? = some (.check k next))
      (hk : k.holds x.before x.ahead.head? = true) (rest : Accepts code n next x z) :
      Accepts code (n + 1) a x z
  | first {n a i j x z} (h : code[a]? = some (.fork i j)) (rest : Accepts code n i x z) :
      Accepts code (n + 1) a x z
  | second {n a i j x z} (h : code[a]? = some (.fork i j)) (rest : Accepts code n j x z) :
      Accepts code (n + 1) a x z

namespace Accepts

variable {code : Array Instr} {n a next i j : Nat} {x z : Place}

theorem eq_of_accept (h : Accepts code n a x z) (hcode : code[a]? = some .accept) : z = x := by
  cases h <;> simp_all

theorem of_take {s : CharSet} (h : Accepts code n a x z) (hcode : code[a]? = some (.take s next)) :
    ∃ y ∈ (Term.one s.mem).ways x, ∃ m ≤ n, Accepts code m next y z := by
  cases h with
  | @take n _ _ _ _ c cs _ h hc rest =>
    obtain ⟨rfl, rfl⟩ : s = _ ∧ next = _ := by simpa [hcode] using h
    exact ⟨⟨some c, cs⟩, by simp [Term.ways, hc], n, Nat.le_succ n, rest⟩
  | _ => simp_all

theorem of_check {k : Anchor} (h : Accepts code n a x z) (hcode : code[a]? = some (.check k next)) :
    ∃ y ∈ (Term.look k.holds).ways x, ∃ m ≤ n, Accepts code m next y z := by
  cases h with
  | @check n _ _ _ _ _ h hk rest =>
    obtain ⟨rfl, rfl⟩ : k = _ ∧ next = _ := by simpa [hcode] using h
    exact ⟨x, by simp [Term.ways, hk], n, Nat.le_succ n, rest⟩
  | _ => simp_all

theorem of_fork (h : Accepts code n a x z) (hcode : code[a]? = some (.fork i j)) :
    ∃ m < n, Accepts code m i x z ∨ Accepts code m j x z := by
  cases h with
  | @first n _ _ _ _ _ h rest =>
    obtain ⟨rfl, rfl⟩ : i = _ ∧ j = _ := by simpa [hcode] using h
    exact ⟨n, Nat.lt_succ_self n, .inl rest⟩
  | @second n _ _ _ _ _ h rest =>
    obtain ⟨rfl, rfl⟩ : i = _ ∧ j = _ := by simpa [hcode] using h
    exact ⟨n, Nat.lt_succ_self n, .inr rest⟩
  | _ => simp_all

/-- Whichever of the two is preferred. -/
theorem of_choice {greedy : Bool} (h : Accepts code n a x z)
    (hcode : code[a]? = some (choice greedy i j)) :
    ∃ m < n, Accepts code m i x z ∨ Accepts code m j x z := by
  cases greedy with
  | true => exact h.of_fork hcode
  | false =>
    obtain ⟨m, hm, hi | hj⟩ := h.of_fork hcode
    · exact ⟨m, hm, .inr hi⟩
    · exact ⟨m, hm, .inl hj⟩

end Accepts

/-! ## Parts of programs -/

/-- What puts instructions in front of a program leaves those that are there. -/
structure Grows (body : Program → Program) : Prop where
  size_le : ∀ p, p.code.size ≤ (body p).code.size
  keeps : ∀ p i, i < p.code.size → (body p).code[i]? = p.code[i]?

/-- The code has all instructions that are put in front of the program. -/
def HasPart (code : Array Instr) (p q : Program) : Prop :=
  ∀ i, p.code.size ≤ i → i < q.code.size → code[i]? = q.code[i]?

/-- Puts a part in front of programs.  In any code that has its instructions, what leads from the part
to acceptance goes one of its ways and leads on from the program behind, in no more steps. -/
structure Compiles (body : Program → Program) (ways : Place → List Place) : Prop
    extends Grows body where
  sound : ∀ p code, HasPart code p (body p) → ∀ n x z, Accepts code n (body p).start x z →
    ∃ y ∈ ways x, ∃ m ≤ n, Accepts code m p.start y z

section
variable {f g : Program → Program} {v w : Place → List Place} {greedy : Bool}

theorem grows_id : Grows fun p => p := ⟨fun _ => Nat.le_refl _, fun _ _ _ => rfl⟩

/-- One instruction more, which may also refer to what is behind. -/
theorem Grows.push (hf : Grows f) (i : Program → Nat → Instr) : Grows fun p => (f p).push (i p) where
  size_le p := by
    have hle := hf.size_le p
    simp only [Program.push, Array.size_push]
    omega
  keeps p k hk := by
    have hlt := Nat.lt_of_lt_of_le hk (hf.size_le p)
    rw [← hf.keeps p k hk]
    simp [Program.push, Array.getElem?_push, Nat.ne_of_lt hlt]

theorem Grows.comp (hf : Grows f) (hg : Grows g) : Grows fun p => f (g p) where
  size_le p := Nat.le_trans (hg.size_le p) (hf.size_le (g p))
  keeps p i hi := by
    rw [hf.keeps (g p) i (Nat.lt_of_lt_of_le hi (hg.size_le p)), hg.keeps p i hi]

theorem Grows.repeat (hf : Grows f) (n : Nat) : Grows fun p => Nat.repeat f n p := by
  induction n with
  | zero => exact grows_id
  | succ n ih => exact hf.comp ih

theorem Grows.option (hf : Grows f) (greedy : Bool) (leave : Nat) :
    Grows fun p => option greedy f leave p :=
  hf.push fun _ => (choice greedy · leave)

/-- A loop completes its own fork only. -/
theorem Grows.loop (hf : Grows f) (greedy : Bool) : Grows fun p => (loop greedy f p).1 where
  size_le p := by
    have hle := hf.size_le ⟨p.code.push .accept, p.code.size⟩
    simp only [Array.size_push] at hle
    simp only [Program.loop, Array.size_setIfInBounds]
    omega
  keeps p i hi := by
    have hkeeps := hf.keeps ⟨p.code.push .accept, p.code.size⟩ i
    simp only [Array.size_push, Array.getElem?_push, Nat.ne_of_lt hi, if_false] at hkeeps
    simp only [Program.loop, Array.getElem?_setIfInBounds, Nat.ne_of_gt hi, if_false]
    exact hkeeps (by omega)

/-- Of two parts, one in front of the other, the code has both. -/
theorem HasPart.of_comp {code : Array Instr} {p : Program} (hf : Grows f) (hg : Grows g)
    (h : HasPart code p (f (g p))) : HasPart code (g p) (f (g p)) ∧ HasPart code p (g p) := by
  refine ⟨fun i hlo hhi => h i (Nat.le_trans (hg.size_le p) hlo) hhi, fun i hlo hhi => ?_⟩
  rw [h i hlo (Nat.lt_of_lt_of_le hhi (hf.size_le (g p))), hf.keeps (g p) i hhi]

/-- An instruction in front is the one at the start. -/
theorem HasPart.of_push {code : Array Instr} {p : Program} {i : Nat → Instr} (hf : Grows f)
    (h : HasPart code p ((f p).push i)) :
    code[(f p).code.size]? = some (i (f p).start) ∧ HasPart code p (f p) := by
  refine ⟨?_, fun k hlo hhi => ?_⟩
  · rw [h _ (hf.size_le p) (by simp [push])]
    simp [push]
  · rw [h k hlo (by simp only [push, Array.size_push]; omega)]
    simp [push, Array.getElem?_push, Nat.ne_of_lt hhi]

/-- A loop leads from its fork to the part and on, and the part is in front of that fork. -/
theorem HasPart.of_loop {code : Array Instr} {p : Program} (hf : Grows f)
    (h : HasPart code p (loop greedy f p).1) :
    let hub : Program := ⟨p.code.push .accept, p.code.size⟩
    code[p.code.size]? = some (choice greedy (f hub).start p.start) ∧ HasPart code hub (f hub) := by
  have hle := hf.size_le ⟨p.code.push .accept, p.code.size⟩
  simp only [Array.size_push] at hle
  refine ⟨?_, fun k hlo hhi => ?_⟩
  · rw [h _ (Nat.le_refl _) (by simp only [loop, Array.size_setIfInBounds]; omega)]
    simp only [loop, Array.getElem?_setIfInBounds_self]
    exact if_pos hle
  · simp only [Array.size_push] at hlo
    rw [h k (by omega) (by simpa only [loop, Array.size_setIfInBounds] using hhi)]
    simp only [loop, Array.getElem?_setIfInBounds, Nat.ne_of_lt hlo, if_false]

/-! ### Ways to put parts together -/

/-- Nothing in front. -/
theorem compiles_id : Compiles (fun p => p) fun x => [x] where
  toGrows := grows_id
  sound _ _ _ n x _ h := ⟨x, List.mem_singleton_self x, n, Nat.le_refl n, h⟩

theorem compiles_take (s : CharSet) : Compiles (·.push (.take s)) (Term.one s.mem).ways where
  toGrows := grows_id.push fun _ => .take s
  sound _ _ hcode _ _ _ h := h.of_take (hcode.of_push grows_id).1

theorem compiles_check (k : Anchor) : Compiles (·.push (.check k)) (Term.look k.holds).ways where
  toGrows := grows_id.push fun _ => .check k
  sound _ _ hcode _ _ _ h := h.of_check (hcode.of_push grows_id).1

/-- One part in front of another. -/
theorem Compiles.comp (hf : Compiles f v) (hg : Compiles g w) :
    Compiles (fun p => f (g p)) fun x => (v x).flatMap w where
  toGrows := hf.toGrows.comp hg.toGrows
  sound p code hcode n x z h := by
    obtain ⟨hfirst, hsecond⟩ := hcode.of_comp hf.toGrows hg.toGrows
    obtain ⟨y, hy, m, hm, h⟩ := hf.sound (g p) code hfirst n x z h
    obtain ⟨y', hy', m', hm', h⟩ := hg.sound p code hsecond m y z h
    exact ⟨y', List.mem_flatMap.2 ⟨y, hy, hy'⟩, m', Nat.le_trans hm' hm, h⟩

theorem Compiles.copies (hf : Compiles f w) (n : Nat) :
    Compiles (fun p => Nat.repeat f n p) (Term.copies w n) := by
  induction n with
  | zero => exact compiles_id
  | succ n ih => exact hf.comp ih

/-- Two parts side by side, and a fork in front of them. -/
def fork (f g : Program → Program) (p : Program) : Program :=
  (f ⟨(g p).code, p.start⟩).push (.fork · (g p).start)

theorem Compiles.fork (hf : Compiles f v) (hg : Compiles g w) :
    Compiles (fork f g) fun x => v x ++ w x := by
  have hbehind : Grows fun p => ⟨(g p).code, p.start⟩ := ⟨hg.size_le, hg.keeps⟩
  have hside := hf.toGrows.comp hbehind
  refine ⟨hside.push fun p => (.fork · (g p).start), fun p code hcode n x z h => ?_⟩
  obtain ⟨hfork, hparts⟩ := hcode.of_push hside
  obtain ⟨hfirst, hsecond⟩ := hparts.of_comp hf.toGrows hbehind
  obtain ⟨k, hk, h | h⟩ := h.of_fork hfork
  · obtain ⟨y, hy, m, hm, h⟩ := hf.sound _ code hfirst k x z h
    exact ⟨y, List.mem_append_left _ hy, m, by omega, h⟩
  · obtain ⟨y, hy, m, hm, h⟩ := hg.sound p code hsecond k x z h
    exact ⟨y, List.mem_append_right _ hy, m, by omega, h⟩

section
variable (hw : Term.Onward w)
include hw

/-- Options inside of one another, all of which leave to the program behind. -/
theorem Compiles.options (hf : Compiles f w) (greedy : Bool) (n : Nat) :
    Compiles (fun p => Nat.repeat (option greedy f p.start) n p) (Term.rounds greedy w n) := by
  refine ⟨⟨fun p => ?_, fun p => ?_⟩, fun p code => ?_⟩
  · exact ((hf.toGrows.option greedy p.start).repeat n).size_le p
  · exact ((hf.toGrows.option greedy p.start).repeat n).keeps p
  · induction n with
    | zero => exact fun hcode n x z h => ⟨x, List.mem_singleton_self x, n, Nat.le_refl n, h⟩
    | succ n ih =>
      intro hcode steps x z h
      have hrest := (hf.toGrows.option greedy p.start).repeat n
      have hcode' : HasPart code p ((f (Nat.repeat (option greedy f p.start) n p)).push
        (choice greedy · p.start)) := hcode
      obtain ⟨hchoice, hparts⟩ := hcode'.of_push (hf.toGrows.comp hrest)
      obtain ⟨hround, hothers⟩ := hparts.of_comp hf.toGrows hrest
      obtain ⟨k, hk, h | h⟩ := h.of_choice hchoice
      · obtain ⟨y, hy, m, hm, h⟩ := hf.sound _ code hround k x z h
        obtain ⟨y', hy', m', hm', h⟩ := ih hothers m y z h
        exact ⟨y', hw.mem_rounds_of_round hy hy', m', by omega, h⟩
      · exact ⟨x, Term.mem_rounds_self, k, by omega, h⟩

/-- From the fork of a loop, any number of rounds lead on. -/
theorem Compiles.sound_hub (hf : Compiles f w) {p : Program} {code : Array Instr}
    (hcode : HasPart code p (loop greedy f p).1) (n : Nat) (x z : Place)
    (h : Accepts code n p.code.size x z) :
    ∃ y ∈ Term.rounds greedy w x.ahead.length x, ∃ m ≤ n, Accepts code m p.start y z := by
  induction n using Nat.strongRecOn generalizing x with
  | ind n ih =>
    obtain ⟨hchoice, hround⟩ := hcode.of_loop hf.toGrows
    obtain ⟨k, hk, h | h⟩ := h.of_choice hchoice
    · obtain ⟨y, hy, m, hm, h⟩ := hf.sound _ code hround k x z h
      obtain ⟨y', hy', m', hm', h⟩ := ih m (by omega) y h
      exact ⟨y', hw.mem_rounds_length hy hy', m', by omega, h⟩
    · exact ⟨x, Term.mem_rounds_self, k, by omega, h⟩

theorem Compiles.oneOrMore (hf : Compiles f w) (greedy : Bool) :
    Compiles (oneOrMore greedy f) fun x =>
      (w x).flatMap fun y => Term.rounds greedy w y.ahead.length y := by
  refine ⟨hf.toGrows.loop greedy, fun p code hcode n x z h => ?_⟩
  obtain ⟨y, hy, m, hm, h⟩ := hf.sound _ code (hcode.of_loop hf.toGrows).2 n x z h
  obtain ⟨y', hy', m', hm', h⟩ := hf.sound_hub hw hcode m y z h
  exact ⟨y', List.mem_flatMap.2 ⟨y, hy, hy'⟩, m', by omega, h⟩

theorem Compiles.anyNumber (hf : Compiles f w) (greedy nullable : Bool) :
    Compiles (anyNumber greedy nullable f) fun x => Term.rounds greedy w x.ahead.length x := by
  have hmore := hf.oneOrMore hw greedy
  cases nullable with
  | false =>
    refine ⟨⟨(hf.toGrows.loop greedy).size_le, (hf.toGrows.loop greedy).keeps⟩, ?_⟩
    exact fun p code hcode => hf.sound_hub hw hcode
  | true =>
    refine ⟨hmore.toGrows.push fun p => (choice greedy · p.start), fun p code hcode n x z h => ?_⟩
    have hcode' : HasPart code p ((Program.oneOrMore greedy f p).push (choice greedy · p.start)) :=
      hcode
    obtain ⟨hchoice, hround⟩ := hcode'.of_push hmore.toGrows
    obtain ⟨k, hk, h | h⟩ := h.of_choice hchoice
    · obtain ⟨y', hy', m, hm, h⟩ := hmore.sound p code hround k x z h
      obtain ⟨y, hy, hy'⟩ := List.mem_flatMap.1 hy'
      exact ⟨y', hw.mem_rounds_length hy hy', m, by omega, h⟩
    · exact ⟨x, Term.mem_rounds_self, k, by omega, h⟩

/-- **Repetitions are spelled out as they are meant.** -/
theorem Compiles.times (hf : Compiles f w) (greedy nullable : Bool) (least : Nat)
    (most : Option Nat) : Compiles (times greedy nullable f least most) fun x =>
      (Term.copies w least x).flatMap fun y => Term.rounds greedy w (Term.left least most y) y := by
  cases most with
  | some most => exact (hf.copies least).comp (hf.options hw greedy (most - least))
  | none =>
    cases least with
    | zero => exact compiles_id.comp (hf.anyNumber hw greedy nullable)
    | succ least =>
      have hmore := (hf.copies least).comp (hf.oneOrMore hw greedy)
      simp only [← List.flatMap_assoc, ← Term.copies_succ'] at hmore
      exact hmore

end

end

end Program

/-! ## Programs of expressions -/

namespace Expr

open Program

/-- A text is taken character by character. -/
theorem compiles_text (cs : List Char) :
    Compiles (fun p => cs.foldr (fun c p => p.push (.take (.single c))) p) (text cs).term.ways := by
  induction cs with
  | nil => exact compiles_id
  | cons c cs ih => exact (compiles_take (.single c)).comp ih

mutual

/-- **The program of an expression goes its ways**, in front of whatever program. -/
theorem compiles_before : ∀ e : Expr, Compiles e.before e.term.ways
  | text cs => compiles_text cs
  | one s => compiles_take s
  | anchor a => compiles_check a
  | group _ e => compiles_before e
  | repeated greedy least most e =>
    (compiles_before e).times (Term.onward_ways e.term) greedy e.nullable least most
  | concat es => compiles_allBefore es
  | alternate es => compiles_anyBefore es

theorem compiles_allBefore : ∀ es : List Expr, Compiles (allBefore es) (allTerm es).ways
  | [] => compiles_id
  | [e] => compiles_before e
  | e :: e' :: es => (compiles_before e).comp (compiles_allBefore (e' :: es))

theorem compiles_anyBefore : ∀ es : List Expr, Compiles (anyBefore es) (anyTerm es).ways
  | [] => compiles_id
  | [e] => compiles_before e
  | e :: e' :: es => (compiles_before e).fork (compiles_anyBefore (e' :: es))

end

/-- **What the program of an expression accepts is what the expression means.** -/
theorem mem_ways_of_accepts {e : Expr} {n : Nat} {x z : Place}
    (h : Accepts (ofExpr e).code n (ofExpr e).start x z) : z ∈ e.term.ways x := by
  have hbefore := compiles_before e
  obtain ⟨y, hy, m, -, h⟩ := hbefore.sound accepting _ (fun _ _ _ => rfl) n x z h
  have haccept : (ofExpr e).code[0]? = some .accept :=
    (hbefore.keeps accepting 0 Nat.zero_lt_one).trans rfl
  rwa [h.eq_of_accept haccept]

end Expr

end TextGrammar.Regex
