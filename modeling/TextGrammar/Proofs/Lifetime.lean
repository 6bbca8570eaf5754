import TextGrammar.Parser.Lifetime
import TextGrammar.Parser.Log
import TextGrammar.Proofs.Lifetime.Step
import TextGrammar.Proofs.Parser.Closed

/-!
# The lifetime of a handle

A handle means something as long as its recursive parser exists: not before, and not later.  A run
of a whole grammar never meets a handle at any other time.

* `Cell.Alive` — the events after which a recursive parser exists: its definition has returned, and it
  has had an owner ever since; `Cell.upgrade_after_iff` — these are the events after which the upgrade
  succeeds.
* `Parser.runFromBeside_of_upgrade_none` — a handle fails where it stands before its parser exists and
  once that is gone.
* `Parser.endsBeside_iff` — meanwhile it stands for the recursive parser, which ends as its body does.
* `Parser.NeverStrays` — every handle in the grammar is bound where it occurs, what unbound handles
  do never matters, and no run fails or warns because of one.
* `Parser.Closed.neverStrays` — this holds if every handle occurs inside its own definition and the
  grammar has no actions but those of the library.
* `Parser.handle_lifetime` — all of it.
-/

namespace TextGrammar

variable {ν : Type}

/-! ## Cells -/

namespace Cell

namespace Event

def isShare : Event ν → Bool
  | share => true
  | _ => false

def isRelease : Event ν → Bool
  | release => true
  | _ => false

end Event

/-- In these events, behind the definition, one owner at least is always there: the first of them and
the copies outnumber those that are dropped. -/
def Owned (life : List (Event ν)) : Prop :=
  ∀ front, front <+: life → front.countP Event.isRelease ≤ front.countP Event.isShare

/-- The definition has returned the body, and the parser has had an owner ever since. -/
def Alive (history : List (Event ν)) (body : Parser ν) : Prop :=
  ∃ before life, history = before ++ .define body :: life ∧ (∀ other, .define other ∉ before) ∧
    Owned life

variable {body : Parser ν} {history : List (Event ν)}

/-- A parser that is gone does not come back. -/
theorem foldl_next_gone (body : Parser ν) (life : List (Event ν)) :
    life.foldl next (defined body 0) = defined body 0 := by
  induction life with
  | nil => rfl
  | cons event life ih =>
    rw [List.foldl_cons]
    cases event <;> exact ih

theorem forall_prefix_cons_iff {α : Type} {a : α} {l : List α} {P : List α → Prop} :
    (∀ front, front <+: a :: l → P front) ↔ P [] ∧ ∀ front, front <+: l → P (a :: front) := by
  simp only [List.prefix_cons_iff]
  constructor
  · exact fun h => ⟨h [] (.inl rfl), fun front hfront => h _ (.inr ⟨front, rfl, hfront⟩)⟩
  · rintro ⟨hnil, hcons⟩ front (rfl | ⟨front, rfl, hfront⟩)
    · exact hnil
    · exact hcons front hfront

/-- With so many owners at first, the parser is there as long as they and the copies outnumber those
that are dropped. -/
theorem upgrade_foldl_next_iff (body body' : Parser ν) (owners : Nat) (life : List (Event ν)) :
    (life.foldl next (defined body owners)).upgrade = some body' ↔
      body = body' ∧ ∀ front, front <+: life →
        front.countP Event.isRelease < front.countP Event.isShare + owners := by
  induction life generalizing owners with
  | nil => cases owners <;> simp [upgrade]
  | cons event life ih =>
    cases owners with
    | zero =>
      rw [foldl_next_gone]
      exact ⟨nofun, fun h => absurd (h.2 [] List.nil_prefix) (Nat.lt_irrefl 0)⟩
    | succ owners =>
      have hfirst : List.countP (Event.isRelease (ν := ν)) [] <
          List.countP Event.isShare ([] : List (Event ν)) + (owners + 1) := by simp
      rw [List.foldl_cons, forall_prefix_cons_iff, and_iff_right hfirst]
      cases event with
      | define other => exact ih (owners + 1)
      | share =>
        refine (ih (owners + 2)).trans (and_congr_right fun _ => forall₂_congr fun front _ => ?_)
        simp only [List.countP_cons, Event.isRelease, Event.isShare, Bool.false_eq_true, if_true, if_false]
        omega
      | release =>
        refine (ih owners).trans (and_congr_right fun _ => forall₂_congr fun front _ => ?_)
        simp only [List.countP_cons, Event.isRelease, Event.isShare, Bool.false_eq_true, if_true, if_false]
        omega

theorem alive_cons_define_iff {body body' : Parser ν} :
    Alive (.define body :: history) body' ↔ body = body' ∧ Owned history := by
  constructor
  · rintro ⟨before, life, heq, hbefore, howned⟩
    cases before with
    | nil =>
      cases heq
      exact ⟨rfl, howned⟩
    | cons event before =>
      cases heq
      exact absurd List.mem_cons_self (hbefore body)
  · rintro ⟨rfl, howned⟩
    exact ⟨[], history, rfl, fun _ => List.not_mem_nil, howned⟩

theorem alive_cons_iff {event : Event ν} (hevent : ∀ other, event ≠ .define other) :
    Alive (event :: history) body ↔ Alive history body := by
  constructor
  · rintro ⟨before, life, heq, hbefore, howned⟩
    cases before with
    | nil =>
      cases heq
      exact absurd rfl (hevent body)
    | cons _ before =>
      cases heq
      exact ⟨before, life, rfl, fun other hmem => hbefore other (List.mem_cons_of_mem _ hmem), howned⟩
  · rintro ⟨before, life, rfl, hbefore, howned⟩
    refine ⟨event :: before, life, rfl, fun other hmem => ?_, howned⟩
    rcases List.mem_cons.1 hmem with heq | hmem
    · exact hevent other heq.symm
    · exact hbefore other hmem

/-- **The parser is there if the definition has returned it and it has had an owner ever since**, and
at no other time. -/
theorem upgrade_after_iff : (after history).upgrade = some body ↔ Alive history body := by
  induction history with
  | nil =>
    refine ⟨nofun, ?_⟩
    rintro ⟨before, life, heq, _⟩
    exact absurd heq.symm (by simp)
  | cons event history ih =>
    cases event with
    | define other =>
      exact (upgrade_foldl_next_iff other body 1 history).trans
        ((and_congr_right fun _ => forall₂_congr fun _ _ => Nat.lt_succ_iff).trans
          alive_cons_define_iff.symm)
    | share => exact ih.trans (alive_cons_iff fun _ => by simp).symm
    | release => exact ih.trans (alive_cons_iff fun _ => by simp).symm

theorem upgrade_after_eq_none (h : ∀ body, ¬ Alive history body) :
    (after history).upgrade = none :=
  Option.eq_none_iff_forall_ne_some.2 fun body hbody => h body (upgrade_after_iff.1 hbody)

end Cell

namespace Parser

/-! ## Conditions that parsers keep -/

/-- **A parser keeps a condition** that its actions and the handles in it keep, if failures for
handles outside of their definitions are the only ones that might break it. -/
theorem EveryAction.keeps_step {I : State ν → Prop} (hI : State.Lasting I) {p : Parser ν}
    (hp : p.EveryAction fun act => ∀ s, I s → I (act s)) (b : Nat) {scope : Scope ν}
    (hscope : ∀ h, (scope h).Keeps I) : Step.Keeps I (p.step b scope) := by
  induction p generalizing scope with
  | literal text => exact Step.keeps_literal hI text
  | pattern p => exact Step.keeps_pattern hI p
  | endOfInput => exact Step.keeps_endOfInput hI
  | sequence ps ih =>
    exact Step.keeps_sequence hI (forall_mem_steps fun q hq => ih q hq (hp.part (.sequence hq)) hscope)
  | and left right ihl ihr =>
    exact (ihl (hp.part (.andLeft left right)) hscope).and hI
      (ihr (hp.part (.andRight left right)) hscope)
  | or left right ihl ihr =>
    exact (ihl (hp.part (.orLeft left right)) hscope).or hI
      (ihr (hp.part (.orRight left right)) hscope) _ _
  | choice ps ih =>
    exact Step.keeps_choice hI (forall_mem_steps fun q hq => ih q hq (hp.part (.choice hq)) hscope)
  | optional p ih => exact (ih (hp.part (.optional p)) hscope).optional hI
  | collectedAs d p ih => exact (ih (hp.part (.collectedAs d p)) hscope).collectedAs hI d
  | many least p ih => exact (ih (hp.part (.many least p)) hscope).many hI b least _
  | separated least value separator ihv ihs =>
    exact (ihv (hp.part (.value least value separator)) hscope).separated hI
      (ihs (hp.part (.separator least value separator)) hscope) b least _ _
  | all p ih => exact (ih (hp.part (.all p)) hscope).all hI b _
  | map f p ih => exact (ih (hp.part (.map f p)) hscope).map hI f
  | mapWithLine f p ih => exact (ih (hp.part (.mapWithLine f p)) hscope).mapWithLine hI f
  | recover f p ih => exact (ih (hp.part (.recover f p)) hscope).recover hI f
  | chain next p ihn ih =>
    exact (ih (hp.part (.chain next p)) hscope).chain hI fun v =>
      ihn v (hp.part (.chosen next p v)) hscope
  | named label p ih => exact ih (hp.part (.named label p)) hscope
  | recursive h body ih =>
    exact Step.Keeps.fix
      (fun q hq => ih (hp.part (.recursive h body)) (Scope.forall_bind hscope h hq)) b
  | handle h => exact hscope h
  | custom shown act =>
    intro s t hs hrun
    cases hrun
    exact everyAction_custom_iff.1 hp s hs

/-! ## Handles -/

section
variable (h : Handle) (around : Surroundings ν) {cell : Cell ν} {body : Parser ν}

/-- **Without its parser a handle fails where it stands.** -/
theorem runFromBeside_of_upgrade_none (hcell : cell.upgrade = none) (b : Nat) {s : State ν}
    (hs : s.failed = false) :
    (handle h).runFromBeside b (around.scope b) h cell s = some s.stray := by
  rw [runFromBeside, runFrom_of_live _ _ _ hs, step, Scope.bind_self, Cell.step, hcell]
  rfl

/-- **As long as its parser exists, a handle stands for it** in every parser, as it does inside. -/
theorem endsBeside_iff (hcell : cell.upgrade = some body) (p : Parser ν) (s t : State ν) :
    (∃ b, p.runFromBeside b (around.scope b) h cell s = some t) ↔
      p.EndsAmid ((h, body) :: around) s t := by
  simp only [runFromBeside, Cell.step, hcell]
  exact Iff.rfl

/-- By itself it ends as the parser does. -/
theorem endsAmid_handle_iff (body : Parser ν) (s t : State ν) :
    (handle h).EndsAmid ((h, body) :: around) s t ↔ (recursive h body).EndsAmid around s t := by
  have hsame (b : Nat) : (handle h).runFrom b (Surroundings.scope b ((h, body) :: around)) =
      (recursive h body).runFrom b (around.scope b) := by
    have hstep : (handle h).step b (Surroundings.scope b ((h, body) :: around)) =
        (recursive h body).step b (around.scope b) := Scope.bind_self _ _ _
    rw [runFrom, runFrom, hstep]
  simp only [EndsAmid, hsame]

end

/-! ## Grammars that do not stray -/

/-- No handle of the grammar is met outside of the recursive parser that binds it. -/
structure NeverStrays (p : Parser ν) : Prop where
  /-- Wherever a handle occurs, it stands for a recursive parser that it occurs in. -/
  bound : ∀ (around : Surroundings ν) (h : Handle), p.Occurs around (handle h) →
    ∃ inner body outer, around = inner ++ (h, body) :: outer ∧ p.Occurs outer (recursive h body) ∧
      ∀ b, around.scope b h = (recursive h body).step b (Surroundings.scope b outer)
  /-- It does not matter what handles do that nothing binds. -/
  unaffected : ∀ b scope, p.runFrom b Scope.none = p.runFrom b scope
  /-- The use of a handle that nothing binds would be counted. -/
  strayed : ∀ s t : State ν, s.failed = false → p.Ends Scope.none s t → t.strayed = s.strayed
  kind : ∀ (s t : State ν) (f : Failure), s.failed = false → p.Ends Scope.none s t →
    t.failure = some f → f.kind ≠ .danglingRecursion
  quiet : ∀ (input : Input) (t : State ν), p.Ends Scope.none (.start input) t →
    ∀ record ∈ p.log t, record.severity ≠ .warn

/-- The log warns only of handles outside of their definitions. -/
theorem severity_of_mem_log {p : Parser ν} {t : State ν} (ht : t.strayed = 0) {record : LogRecord}
    (hmem : record ∈ p.log t) : record.severity ≠ .warn := by
  rw [log, ht, List.replicate_zero, List.nil_append, List.mem_cons, Option.mem_toList] at hmem
  intro hwarn
  rcases hmem with rfl | hmem
  · cases hwarn
  · obtain ⟨f, _, rfl⟩ := Option.map_eq_some_iff.1 hmem
    cases hwarn

/-- A run of a closed grammar keeps every such condition: it does not meet an unbound handle. -/
theorem Closed.keeps {I : State ν → Prop} (hI : State.Lasting I) {p : Parser ν} (hclosed : p.Closed)
    (hp : p.EveryAction fun act => ∀ s, I s → I (act s)) {s t : State ν} (hs : s.failed = false)
    (hI' : I s) (hends : p.Ends Scope.none s t) : I t := by
  obtain ⟨b, hrun⟩ := hends
  -- handles that are not bound might as well never end
  rw [hclosed.runFrom_eq b Scope.none fun _ _ => none, runFrom_of_live _ _ _ hs] at hrun
  refine hp.keeps_step hI b (fun _ _ _ _ hrun => ?_) s t hI' hrun
  cases hrun

/-- **A closed grammar never strays.** -/
theorem Closed.neverStrays {p : Parser ν} (hclosed : p.Closed)
    (hp : p.EveryAction fun _ => False) : p.NeverStrays := by
  have settled {s t : State ν} (hs : s.failed = false) (hends : p.Ends Scope.none s t) :
      t.Settled s.strayed := by
    refine hclosed.keeps (State.lasting_settled s.strayed)
      (fun shown act hc => (hp shown act hc).elim) hs ⟨rfl, fun f hf => ?_⟩ hends
    rw [State.failed, hf] at hs
    cases hs
  exact {
    bound := fun _ _ hocc => hclosed.exists_binding hocc
    unaffected := fun b scope => hclosed.runFrom_eq b Scope.none scope
    strayed := fun s t hs hends => (settled hs hends).strayed
    kind := fun s t f hs hends => (settled hs hends).kind f
    quiet := fun input t hends _ hmem => severity_of_mem_log (settled rfl hends).strayed hmem }

/-- **The lifetime of a handle.**  Whatever has happened to the cell it refers to: if the definition
has not returned or all owners of the recursive parser were dropped at some time, the handle fails where
it stands; otherwise it ends exactly as that parser does, which ends as its body, and stands for it in
every other parser.  No run of a closed grammar without actions meets a handle at another time. -/
theorem handle_lifetime (h : Handle) (around : Surroundings ν) :
    (∀ history : List (Cell.Event ν), (∀ body, ¬ Cell.Alive history body) →
      ∀ (b : Nat) (s : State ν), s.failed = false →
        ∃ t, (handle h).runFromBeside b (around.scope b) h (.after history) s = some t ∧
          t.failure = some .dangling ∧ t.input = s.input ∧ t.cursor = s.cursor) ∧
    (∀ (history : List (Cell.Event ν)) (body : Parser ν), Cell.Alive history body →
      ∀ s t : State ν,
        ((∃ b, (handle h).runFromBeside b (around.scope b) h (.after history) s = some t) ↔
          (recursive h body).EndsAmid around s t) ∧
        ((recursive h body).EndsAmid around s t ↔ body.EndsAmid ((h, body) :: around) s t) ∧
        ∀ p : Parser ν,
          (∃ b, p.runFromBeside b (around.scope b) h (.after history) s = some t) ↔
            p.EndsAmid ((h, body) :: around) s t) ∧
    ∀ p : Parser ν, p.Closed → (p.EveryAction fun _ => False) → p.NeverStrays := by
  refine ⟨fun history hgone b s hs => ?_, fun history body halive s t => ?_,
    fun p hclosed hp => hclosed.neverStrays hp⟩
  · have hcell := Cell.upgrade_after_eq_none hgone
    exact ⟨s.stray, runFromBeside_of_upgrade_none h around hcell b hs, rfl, rfl, rfl⟩
  · have hbeside := endsBeside_iff h around (Cell.upgrade_after_iff.2 halive)
    exact ⟨(hbeside (handle h) s t).trans (endsAmid_handle_iff h around body s t),
      endsAmid_recursive_iff h body around s t, fun p => hbeside p s t⟩

/-- A recursive parser whose result chooses it again, or else the parser outside of it. -/
def retrying : Parser Nat := chain (fun _ => or (handle 1) (optional (handle 0))) (literal "a")

/-- Two recursive parsers, one inside of the other, whose handles are caught by what a result
chooses.  The inner handle takes the text when one of two owners has been dropped, and fails once both
have. -/
theorem handle_lifetime_of_retrying :
    (∃ t, (handle 1).runFromBeside 9 (Surroundings.scope 9 [(0, recursive 1 retrying)]) 1
          (.after [.define retrying, .share, .release, .release]) (.start (.ofString "aab")) = some t ∧
        t.failure = some .dangling ∧ t.cursor = 0) ∧
      (∃ t, (∃ b, (handle 1).runFromBeside b (Surroundings.scope b [(0, recursive 1 retrying)]) 1
            (.after [.define retrying, .share, .release]) (.start (.ofString "aab")) = some t) ∧
        t.failed = false ∧ t.cursor = 2) ∧
      (recursive 0 (recursive 1 retrying)).NeverStrays := by
  obtain ⟨hdangling, halive, hclosed⟩ := handle_lifetime 1 [(0, recursive 1 retrying)]
  have hactionless : (recursive 0 (recursive 1 retrying)).EveryAction fun _ => False := by
    simp [retrying]
  have hwhole : (recursive 0 (recursive 1 retrying)).Closed := by
    simp +contextual [Closed, retrying]
  refine ⟨?_, ?_, hclosed _ hwhole hactionless⟩
  · have hgone (body : Parser Nat) :
        ¬ Cell.Alive [.define retrying, .share, .release, .release] body := by
      rw [← Cell.upgrade_after_iff]
      exact nofun
    obtain ⟨t, ht, hfailure, _, hcursor⟩ := hdangling _ hgone 9 (.start (.ofString "aab")) rfl
    exact ⟨t, ht, hfailure, hcursor⟩
  · obtain ⟨t, ht, hend⟩ : ∃ t, EndsAmid [(0, recursive 1 retrying)] (recursive 1 retrying)
        (.start (.ofString "aab")) t ∧ (t.failed, t.cursor) = (false, 2) :=
      ⟨((recursive 1 retrying).runFrom 9 (Surroundings.scope 9 [(0, recursive 1 retrying)])
        (.start (.ofString "aab"))).get (by decide +kernel), ⟨9, (Option.some_get _).symm⟩,
        by decide +kernel⟩
    have hthere : Cell.Alive [.define retrying, .share, .release] retrying :=
      Cell.upgrade_after_iff.1 rfl
    exact ⟨t, (halive _ _ hthere _ t).1.2 ht, (Prod.mk.inj hend).1, (Prod.mk.inj hend).2⟩

end Parser

end TextGrammar
