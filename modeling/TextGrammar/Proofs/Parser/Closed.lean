import TextGrammar.Proofs.Parser.Surroundings

/-!
# Closed grammars

A handle means something only inside the recursive parser that binds it.

* `Parser.step_congr` — what handles stand for that are not free in a parser does not matter to it.
* `Parser.Closed.exists_binding` — in a grammar without free handles, every handle that occurs in it,
  at any depth and also where a result has chosen the parser, stands for the recursive parser that
  binds it.
* `Parser.endsAmid_recursive_iff` — a recursive parser ends as its body does amid that parser.
-/

namespace TextGrammar.Parser

variable {ν : Type}

/-! ## Free handles -/

section
variable {h h' : Handle} {p q body : Parser ν}

@[simp] theorem free_handle_iff : (handle h' : Parser ν).Free h ↔ h = h' := by
  constructor
  · rintro (_ | ⟨_, hpart, _⟩)
    · rfl
    · cases hpart
  · rintro rfl
    exact .handle

/-- What is free in a part is free in the whole, where nothing is bound. -/
theorem free_iff_of_part (hhandle : ∀ h, p ≠ handle h) (hrec : ∀ h body, p ≠ recursive h body) :
    p.Free h ↔ ∃ q, Part p q ∧ q.Free h := by
  constructor
  · rintro (_ | ⟨hfree, hpart, _⟩)
    · exact absurd rfl (hhandle h)
    · exact ⟨_, hpart, hfree⟩
  · rintro ⟨q, hpart, hfree⟩
    exact hfree.part hpart (hrec h)

@[simp] theorem not_free_literal (text : String) : ¬ (literal text : Parser ν).Free h := by
  simp [free_iff_of_part]

@[simp] theorem free_and_iff : (and p q).Free h ↔ p.Free h ∨ q.Free h := by
  simp [free_iff_of_part, or_and_right, exists_or]

@[simp] theorem free_or_iff : (or p q).Free h ↔ p.Free h ∨ q.Free h := by
  simp [free_iff_of_part, or_and_right, exists_or]

@[simp] theorem free_optional_iff : (optional p).Free h ↔ p.Free h := by
  simp [free_iff_of_part]

@[simp] theorem free_many_iff {least : Nat} : (many least p).Free h ↔ p.Free h := by
  simp [free_iff_of_part]

/-- What is free in a parser that a result chooses is free. -/
@[simp] theorem free_chain_iff {next : Value ν → Parser ν} :
    (chain next p).Free h ↔ p.Free h ∨ ∃ v, (next v).Free h := by
  rw [free_iff_of_part (by simp) (by simp)]
  constructor
  · rintro ⟨q, hpart, hfree⟩
    rcases part_chain_iff.1 hpart with rfl | ⟨v, rfl⟩
    · exact .inl hfree
    · exact .inr ⟨v, hfree⟩
  · rintro (hfree | ⟨v, hfree⟩)
    · exact ⟨p, .chain next p, hfree⟩
    · exact ⟨next v, .chosen next p v, hfree⟩

/-- What is free in a body is free in the recursive parser, unless it is the own handle. -/
@[simp] theorem free_recursive_iff {self : Handle} :
    (recursive self body).Free h ↔ h ≠ self ∧ body.Free h := by
  constructor
  · rintro (_ | ⟨hfree, hpart, hbind⟩)
    cases hpart
    refine ⟨?_, hfree⟩
    rintro rfl
    exact hbind body rfl
  · rintro ⟨hne, hfree⟩
    exact hfree.part (.recursive self body) fun _ heq => hne (Parser.recursive.inj heq).1.symm

end

/-- Scopes in which all handles that are free in the parser stand for the same. -/
def SameFree (p : Parser ν) (scope scope' : Scope ν) : Prop := ∀ h, p.Free h → scope h = scope' h

/-- What is free in a part is free in the whole, unless that is recursive. -/
theorem SameFree.part {p q : Parser ν} {scope scope' : Scope ν} (h : p.SameFree scope scope')
    (hpart : Part p q) (hrec : ∀ self body, p ≠ recursive self body) : q.SameFree scope scope' :=
  fun h' hfree => h h' (hfree.part hpart (hrec h'))

/-- The own handle stands for the same in a body. -/
theorem SameFree.body {self : Handle} {body : Parser ν} {scope scope' : Scope ν}
    (h : (recursive self body).SameFree scope scope') (q : Step ν) :
    body.SameFree (scope.bind self q) (scope'.bind self q) := by
  intro h' hfree
  by_cases heq : h' = self
  · rw [heq, Scope.bind_self, Scope.bind_self]
  · rw [Scope.bind_of_ne _ _ heq, Scope.bind_of_ne _ _ heq]
    exact h h' (free_recursive_iff.2 ⟨heq, hfree⟩)

theorem steps_congr {ps : List (Parser ν)} {b : Nat} {scope scope' : Scope ν}
    (h : ∀ p ∈ ps, p.step b scope = p.step b scope') : steps b scope ps = steps b scope' ps := by
  rw [steps_eq_map, steps_eq_map]
  exact List.map_congr_left h

/-- **A parser runs alike in scopes that agree on the handles that are free in it.** -/
theorem SameFree.step_eq {p : Parser ν} {scope scope' : Scope ν} (h : p.SameFree scope scope')
    (b : Nat) : p.step b scope = p.step b scope' := by
  induction p generalizing scope scope' with
  | literal text => rfl
  | pattern p => rfl
  | endOfInput => rfl
  | sequence ps ih =>
    have hsteps := steps_congr fun q hq => ih q hq (h.part (.sequence hq) nofun)
    funext s
    rw [step, step, hsteps]
  | and left right ihl ihr =>
    funext s
    rw [step, step, ihl (h.part (.andLeft left right) nofun),
      ihr (h.part (.andRight left right) nofun)]
  | or left right ihl ihr =>
    funext s
    rw [step, step, ihl (h.part (.orLeft left right) nofun),
      ihr (h.part (.orRight left right) nofun)]
  | choice ps ih =>
    have hsteps := steps_congr fun q hq => ih q hq (h.part (.choice hq) nofun)
    funext s
    rw [step, step, hsteps]
  | optional p ih =>
    funext s
    rw [step, step, ih (h.part (.optional p) nofun)]
  | collectedAs d p ih =>
    funext s
    rw [step, step, ih (h.part (.collectedAs d p) nofun)]
  | many least p ih =>
    funext s
    rw [step, step, ih (h.part (.many least p) nofun)]
  | separated least value separator ihv ihs =>
    funext s
    rw [step, step, ihv (h.part (.value least value separator) nofun),
      ihs (h.part (.separator least value separator) nofun)]
  | all p ih =>
    funext s
    rw [step, step, ih (h.part (.all p) nofun)]
  | map f p ih =>
    funext s
    rw [step, step, ih (h.part (.map f p) nofun)]
  | mapWithLine f p ih =>
    funext s
    rw [step, step, ih (h.part (.mapWithLine f p) nofun)]
  | recover f p ih =>
    funext s
    rw [step, step, ih (h.part (.recover f p) nofun)]
  | chain next p ihn ih =>
    have hnext : (fun v => (next v).step b scope) = fun v => (next v).step b scope' :=
      funext fun v => ihn v (h.part (.chosen next p v) nofun)
    funext s
    rw [step, step, hnext, ih (h.part (.chain next p) nofun)]
  | named label p ih =>
    funext s
    rw [step, step, ih (h.part (.named label p) nofun)]
  | recursive self body ih =>
    have hbody : (fun q => body.step b (scope.bind self q)) =
        fun q => body.step b (scope'.bind self q) := funext fun q => ih (h.body q)
    funext s
    rw [step, step, hbody]
  | handle h' => exact h h' .handle
  | custom shown act => rfl

/-- **A closed grammar runs alike in all scopes.** -/
theorem Closed.runFrom_eq {p : Parser ν} (hp : p.Closed) (b : Nat) (scope scope' : Scope ν) :
    p.runFrom b scope = p.runFrom b scope' := by
  have hsame : p.SameFree scope scope' := fun h hfree => absurd hfree (hp h)
  rw [runFrom, runFrom, hsame.step_eq b]

/-! ## Handles in a closed grammar -/

/-- What is free in a part of a closed grammar is bound around it. -/
theorem Occurs.mem_around {root p : Parser ν} (hroot : root.Closed) {around : Surroundings ν}
    (hp : root.Occurs around p) {h : Handle} (hfree : p.Free h) : h ∈ around.map Prod.fst := by
  induction hp with
  | root => exact absurd hfree (hroot h)
  | part _ hpart hbind ih =>
    refine ih (hfree.part hpart fun body hrec => ?_)
    subst hrec
    cases hpart
    exact hbind h rfl
  | @body around self body _ ih =>
    rw [List.map_cons, List.mem_cons]
    by_cases heq : h = self
    · exact .inl heq
    · exact .inr (ih (free_recursive_iff.2 ⟨heq, hfree⟩))

/-- The recursive parsers around a part occur in the grammar themselves, each amid those that are
further out. -/
theorem Occurs.outer {root p : Parser ν} {around : Surroundings ν} (hp : root.Occurs around p)
    {inner outer : Surroundings ν} {r : Handle × Parser ν} (heq : around = inner ++ r :: outer) :
    root.Occurs outer (recursive r.1 r.2) := by
  induction hp generalizing inner with
  | root => exact absurd heq.symm (by simp)
  | part _ _ _ ih => exact ih heq
  | body hp ih =>
    cases inner with
    | nil =>
      obtain ⟨rfl, rfl⟩ := List.cons.inj heq
      exact hp
    | cons _ inner => exact ih (List.cons.inj heq).2

end TextGrammar.Parser

namespace TextGrammar

variable {ν : Type}

/-- A handle that is bound stands for the innermost recursive parser that binds it, run where that
parser stands. -/
theorem Surroundings.exists_binding {around : Surroundings ν} {h : Handle}
    (hmem : h ∈ around.map Prod.fst) :
    ∃ inner body outer, around = inner ++ (h, body) :: outer ∧
      ∀ b, around.scope b h = (Parser.recursive h body).step b (scope b outer) := by
  induction around with
  | nil => cases hmem
  | cons r around ih =>
    obtain ⟨self, body⟩ := r
    by_cases heq : h = self
    · subst heq
      exact ⟨[], body, around, rfl, fun b => Scope.bind_self _ _ _⟩
    · obtain ⟨inner, body', outer, hsplit, hscope⟩ :=
        ih ((List.mem_cons.1 hmem).resolve_left heq)
      refine ⟨(self, body) :: inner, body', outer, congrArg _ hsplit, fun b => ?_⟩
      exact (Scope.bind_of_ne _ _ heq).trans (hscope b)

namespace Parser

/-- **In a closed grammar every handle is bound**, also in the parsers that results choose: it stands
for a recursive parser of the grammar inside of which it occurs. -/
theorem Closed.exists_binding {p : Parser ν} (hp : p.Closed) {around : Surroundings ν} {h : Handle}
    (hocc : p.Occurs around (handle h)) :
    ∃ inner body outer, around = inner ++ (h, body) :: outer ∧
      p.Occurs outer (recursive h body) ∧
      ∀ b, around.scope b h = (recursive h body).step b (Surroundings.scope b outer) := by
  obtain ⟨inner, body, outer, hsplit, hscope⟩ :=
    Surroundings.exists_binding (hocc.mem_around hp .handle)
  exact ⟨inner, body, outer, hsplit, hocc.outer hsplit, hscope⟩

/-! ## Recursive parsers as fixed points -/

section
variable (h : Handle) (body : Parser ν) (around : Surroundings ν)

/-- The body is given a budget for every unfolding of its handle. -/
theorem step_recursive_le (b : Nat) :
    Step.Le ((recursive h body).step b (around.scope b))
      (body.step b (Surroundings.scope b ((h, body) :: around))) := by
  cases b with
  | zero => exact fun _ _ hrun => nomatch hrun
  | succ b =>
    have hself : Step.Le (Step.fix (fun self => body.step (b + 1)
        ((around.scope (b + 1)).bind h self)) b) ((recursive h body).step (b + 1)
          (around.scope (b + 1))) :=
      Step.fix_le (fun p q hpq => body.step_le (Nat.le_refl _) <|
        Scope.le_bind (fun _ => Step.Le.refl _) h hpq) (Nat.le_succ b)
    exact body.step_le (Nat.le_refl _) <| Scope.le_bind (fun _ => Step.Le.refl _) h hself

/-- Where the body ends, the recursive parser ends with one unfolding more. -/
theorem step_body_le (b : Nat) :
    Step.Le (body.step b (Surroundings.scope b ((h, body) :: around)))
      ((recursive h body).step (b + 1) (around.scope (b + 1))) := by
  have houter : ∀ h', (around.scope b h').Le (around.scope (b + 1) h') :=
    around.scope_le (Nat.le_succ b)
  have hself : Step.Le ((recursive h body).step b (around.scope b)) (Step.fix (fun self =>
      body.step (b + 1) ((around.scope (b + 1)).bind h self)) b) :=
    Step.fix_le (fun p q hpq => body.step_le (Nat.le_succ b) <| Scope.le_bind houter h hpq)
      (Nat.le_refl b)
  exact body.step_le (Nat.le_succ b) (Scope.le_bind houter h hself)

/-- **A recursive parser ends as its body does**, in which the handle stands for that parser. -/
theorem endsAmid_recursive_iff (s t : State ν) :
    (recursive h body).EndsAmid around s t ↔ body.EndsAmid ((h, body) :: around) s t :=
  ⟨fun ⟨b, hb⟩ => ⟨b, (step_recursive_le h body around b).unlessFailed s t hb⟩,
    fun ⟨b, hb⟩ => ⟨b + 1, (step_body_le h body around b).unlessFailed s t hb⟩⟩

end

end Parser

end TextGrammar
