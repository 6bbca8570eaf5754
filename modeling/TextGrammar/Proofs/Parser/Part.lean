import TextGrammar.Parser.Basic
import Mathlib.Logic.Relation

/-!
# Parts of parsers

* `Parser.Part` — the parsers from which a parser is put together, among them all that a result may
  choose.
* `Parser.part_and_iff` and others — what they are for each kind of parser.
* `Parser.Contains` — what a parser contains: itself, its parts, their parts and so on.
* `Parser.EveryAction` — a condition on all actions that a parser contains; it holds if it does of the
  actions of the parts.
-/

namespace TextGrammar.Parser

variable {ν : Type}

/-- `Part p q`: the parser `q` is one of those from which `p` is put together. -/
inductive Part : Parser ν → Parser ν → Prop where
  | sequence {ps : List (Parser ν)} {q : Parser ν} (h : q ∈ ps) : Part (sequence ps) q
  | andLeft (left right : Parser ν) : Part (and left right) left
  | andRight (left right : Parser ν) : Part (and left right) right
  | orLeft (left right : Parser ν) : Part (or left right) left
  | orRight (left right : Parser ν) : Part (or left right) right
  | choice {ps : List (Parser ν)} {q : Parser ν} (h : q ∈ ps) : Part (choice ps) q
  | optional (p : Parser ν) : Part (optional p) p
  | collectedAs (d : Disposition) (p : Parser ν) : Part (collectedAs d p) p
  | many (least : Nat) (p : Parser ν) : Part (many least p) p
  | value (least : Nat) (value separator : Parser ν) : Part (separated least value separator) value
  | separator (least : Nat) (value separator : Parser ν) :
      Part (separated least value separator) separator
  | all (p : Parser ν) : Part (all p) p
  | map (f : Value ν → Value ν) (p : Parser ν) : Part (map f p) p
  | mapWithLine (f : Value ν → Nat → Value ν) (p : Parser ν) : Part (mapWithLine f p) p
  | recover (f : ParseError → Value ν) (p : Parser ν) : Part (recover f p) p
  | chain (next : Value ν → Parser ν) (p : Parser ν) : Part (chain next p) p
  | chosen (next : Value ν → Parser ν) (p : Parser ν) (v : Value ν) : Part (chain next p) (next v)
  | named (label : String) (p : Parser ν) : Part (named label p) p
  | recursive (h : Handle) (body : Parser ν) : Part (recursive h body) body

/-! ## Inversion

What the parts of each kind of parser are. -/

section
variable {p q r : Parser ν}

@[simp] theorem not_part_literal (text : String) : ¬ Part (literal text) r := nofun

@[simp] theorem not_part_pattern (p : Pattern) : ¬ Part (pattern p) r := nofun

@[simp] theorem not_part_handle (h : Handle) : ¬ Part (handle h) r := nofun

@[simp] theorem not_part_custom (shown : String) (act : State ν → State ν) :
    ¬ Part (custom shown act) r := nofun

@[simp] theorem part_sequence_iff {ps : List (Parser ν)} : Part (sequence ps) r ↔ r ∈ ps :=
  ⟨fun h => by cases h; assumption, .sequence⟩

@[simp] theorem part_and_iff : Part (and p q) r ↔ r = p ∨ r = q := by
  constructor
  · rintro (_ | _) <;> simp
  · rintro (rfl | rfl) <;> constructor

@[simp] theorem part_or_iff : Part (or p q) r ↔ r = p ∨ r = q := by
  constructor
  · rintro (_ | _) <;> simp
  · rintro (rfl | rfl) <;> constructor

@[simp] theorem part_separated_iff {least : Nat} : Part (separated least p q) r ↔ r = p ∨ r = q := by
  constructor
  · rintro (_ | _) <;> simp
  · rintro (rfl | rfl) <;> constructor

@[simp] theorem part_chain_iff {next : Value ν → Parser ν} :
    Part (chain next p) r ↔ r = p ∨ ∃ v, r = next v := by
  constructor
  · intro h
    cases h with
    | chain => exact .inl rfl
    | chosen _ _ v => exact .inr ⟨v, rfl⟩
  · rintro (rfl | ⟨v, rfl⟩) <;> constructor

@[simp] theorem part_optional_iff : Part (optional p) r ↔ r = p :=
  ⟨fun h => by cases h; rfl, fun h => h ▸ .optional p⟩

@[simp] theorem part_collectedAs_iff {d : Disposition} : Part (collectedAs d p) r ↔ r = p :=
  ⟨fun h => by cases h; rfl, fun h => h ▸ .collectedAs d p⟩

@[simp] theorem part_many_iff {least : Nat} : Part (many least p) r ↔ r = p :=
  ⟨fun h => by cases h; rfl, fun h => h ▸ .many least p⟩

@[simp] theorem part_map_iff {f : Value ν → Value ν} : Part (map f p) r ↔ r = p :=
  ⟨fun h => by cases h; rfl, fun h => h ▸ .map f p⟩

@[simp] theorem part_recover_iff {f : ParseError → Value ν} : Part (recover f p) r ↔ r = p :=
  ⟨fun h => by cases h; rfl, fun h => h ▸ .recover f p⟩

@[simp] theorem part_named_iff {label : String} : Part (named label p) r ↔ r = p :=
  ⟨fun h => by cases h; rfl, fun h => h ▸ .named label p⟩

@[simp] theorem part_recursive_iff {h : Handle} : Part (recursive h p) r ↔ r = p :=
  ⟨fun h => by cases h; rfl, fun heq => heq ▸ .recursive h p⟩

end

/-! ## What a parser contains -/

/-- The parser `q` is `p`, or a part of it, or a part of a part, and so on. -/
def Contains : Parser ν → Parser ν → Prop := Relation.ReflTransGen Part

theorem Contains.refl (p : Parser ν) : p.Contains p := Relation.ReflTransGen.refl

/-- What a part contains, the whole contains. -/
theorem Part.contains {p q r : Parser ν} (h : Part p q) (hr : q.Contains r) : p.Contains r :=
  Relation.ReflTransGen.head h hr

/-- A parser contains itself and what its parts contain. -/
theorem contains_iff {p r : Parser ν} : p.Contains r ↔ r = p ∨ ∃ q, Part p q ∧ q.Contains r := by
  constructor
  · intro h
    rcases Relation.ReflTransGen.cases_head h with h | ⟨q, hq, hr⟩
    · exact .inl h.symm
    · exact .inr ⟨q, hq, hr⟩
  · rintro (rfl | ⟨q, hq, hr⟩)
    · exact .refl _
    · exact hq.contains hr

/-! ## Actions -/

/-- Every action that the parser contains meets a condition. -/
def EveryAction (P : (State ν → State ν) → Prop) (p : Parser ν) : Prop :=
  ∀ shown act, p.Contains (custom shown act) → P act

variable {P : (State ν → State ν) → Prop} {p : Parser ν}

theorem EveryAction.part (hp : p.EveryAction P) {q : Parser ν} (hpart : Part p q) :
    q.EveryAction P := fun shown act hc => hp shown act (hpart.contains hc)

/-- A parser that is no action itself has the actions of its parts. -/
theorem everyAction_of_part (hp : ∀ shown act, p ≠ custom shown act)
    (h : ∀ q, Part p q → q.EveryAction P) : p.EveryAction P := by
  intro shown act hc
  rcases contains_iff.1 hc with hc | ⟨q, hq, hr⟩
  · exact absurd hc.symm (hp shown act)
  · exact h q hq shown act hr

theorem everyAction_custom_iff {shown : String} {act : State ν → State ν} :
    (custom shown act).EveryAction P ↔ P act := by
  constructor
  · intro h
    exact h shown act (.refl _)
  · intro h shown' act' hc
    rcases contains_iff.1 hc with hc | ⟨q, hq, _⟩
    · cases hc
      exact h
    · cases hq

theorem everyAction_iff_of_part (hp : ∀ shown act, p ≠ custom shown act) :
    p.EveryAction P ↔ ∀ q, Part p q → q.EveryAction P :=
  ⟨fun h _ hq => h.part hq, everyAction_of_part hp⟩

section
variable {q : Parser ν}

@[simp] theorem everyAction_literal (text : String) : (literal text : Parser ν).EveryAction P := by
  simp [everyAction_iff_of_part]

@[simp] theorem everyAction_handle (h : Handle) : (handle h : Parser ν).EveryAction P := by
  simp [everyAction_iff_of_part]

@[simp] theorem everyAction_sequence_iff {ps : List (Parser ν)} :
    (sequence ps).EveryAction P ↔ ∀ p ∈ ps, p.EveryAction P := by
  simp [everyAction_iff_of_part]

@[simp] theorem everyAction_and_iff :
    (and p q).EveryAction P ↔ p.EveryAction P ∧ q.EveryAction P := by
  simp [everyAction_iff_of_part]

@[simp] theorem everyAction_or_iff :
    (or p q).EveryAction P ↔ p.EveryAction P ∧ q.EveryAction P := by
  simp [everyAction_iff_of_part]

@[simp] theorem everyAction_optional_iff : (optional p).EveryAction P ↔ p.EveryAction P := by
  simp [everyAction_iff_of_part]

@[simp] theorem everyAction_collectedAs_iff {d : Disposition} :
    (collectedAs d p).EveryAction P ↔ p.EveryAction P := by
  simp [everyAction_iff_of_part]

@[simp] theorem everyAction_many_iff {least : Nat} :
    (many least p).EveryAction P ↔ p.EveryAction P := by
  simp [everyAction_iff_of_part]

@[simp] theorem everyAction_map_iff {f : Value ν → Value ν} :
    (map f p).EveryAction P ↔ p.EveryAction P := by
  simp [everyAction_iff_of_part]

@[simp] theorem everyAction_chain_iff {next : Value ν → Parser ν} :
    (chain next p).EveryAction P ↔ p.EveryAction P ∧ ∀ v, (next v).EveryAction P := by
  simp [everyAction_iff_of_part]

@[simp] theorem everyAction_recursive_iff {h : Handle} :
    (recursive h p).EveryAction P ↔ p.EveryAction P := by
  simp [everyAction_iff_of_part]

end

end TextGrammar.Parser
