import TextGrammar.Regex.Normal

/-!
# Programs of regular expressions

A program is a table of instructions that go on to one another by their addresses.  It is put
together from its end: an expression is put in front of the program for what comes behind it.
A counted repetition is spelled out by copies, and a fork stands wherever a match can go on in
two ways, the preferred one first.

* `Expr.before` — an expression in front of a program.
* `Program.ofExpr` — the program of an expression.
* `Program.anchored` — whether a program begins by asking for the start of the text.
-/

namespace TextGrammar.Regex

/-- An instruction. -/
inductive Instr where
  /-- The match ends here. -/
  | accept
  /-- Takes a character of a set. -/
  | take (s : CharSet) (next : Nat)
  /-- Goes on where a condition holds. -/
  | check (a : Anchor) (next : Nat)
  /-- Goes on in one of two ways, the first preferred. -/
  | fork (first second : Nat)

/-- Instructions, each at the address that is its index, and the address at which to begin. -/
structure Program where
  code : Array Instr
  start : Nat

namespace Program

/-- The program that accepts at once. -/
def accepting : Program := ⟨#[.accept], 0⟩

/-- The program that begins with an instruction and goes on as `p`. -/
def push : (p : Program) → (i : Nat → Instr) → Program
  | ⟨code, start⟩, i =>
    let here := code.size
    ⟨code.push (i start), here⟩

/-- A fork between doing something and leaving it; doing it is preferred if `greedy`. -/
def choice (greedy : Bool) (body leave : Nat) : Instr :=
  if greedy then .fork body leave else .fork leave body

/-- `body` or nothing in front of `p`; nothing leads to the address `leave`. -/
def option (greedy : Bool) (body : Program → Program) (leave : Nat) (p : Program) : Program :=
  (body p).push (choice greedy · leave)

/-- `body` in front of a fork that leads back to it or on to `p`, and the address of the fork. -/
def loop (greedy : Bool) (body : Program → Program) : (p : Program) → Program × Nat
  | ⟨code, leave⟩ =>
    let hub := code.size
    let ⟨code, start⟩ := body ⟨code.push .accept, hub⟩
    (⟨code.setIfInBounds hub (choice greedy start leave), start⟩, hub)

/-- `body` any number of times, but at least once, in front of `p`. -/
def oneOrMore (greedy : Bool) (body : Program → Program) (p : Program) : Program :=
  (loop greedy body p).1

/-- `body` any number of times in front of `p`.  If a round may take no character, this is one or
more rounds or nothing; otherwise the fork behind each round also begins the first. -/
def anyNumber (greedy nullable : Bool) (body : Program → Program) (p : Program) : Program :=
  if nullable then
    let leave := p.start
    option greedy (oneOrMore greedy body) leave p
  else
    let (p, hub) := loop greedy body p
    { p with start := hub }

/-- `body` from `least` to `most` times in front of `p`. -/
def times (greedy nullable : Bool) (body : Program → Program) (least : Nat) :
    (most : Option Nat) → Program → Program
  | some most, p =>
    let leave := p.start
    Nat.repeat body least (Nat.repeat (option greedy body leave) (most - least) p)
  | none, p =>
    match least with
    | 0 => anyNumber greedy nullable body p
    | least + 1 => Nat.repeat body least (oneOrMore greedy body p)

end Program

namespace Expr

mutual

/-- The program that matches an expression and goes on as `p`. -/
def before : Expr → (p : Program) → Program
  | text cs, p => cs.foldr (fun c p => p.push (.take (.single c))) p
  | one s, p => p.push (.take s)
  | anchor a, p => p.push (.check a)
  | group _ e, p => before e p
  | repeated greedy least most e, p => p.times greedy e.nullable (before e) least most
  | concat es, p => allBefore es p
  | alternate es, p => anyBefore es p

/-- The program that matches expressions in order and goes on as `p`. -/
def allBefore : List Expr → (p : Program) → Program
  | [], p => p
  | [e], p => before e p
  | e :: es, p => before e (allBefore es p)

/-- The program that matches one of the expressions and goes on as `p`. -/
def anyBefore : List Expr → (p : Program) → Program
  | [], p => p
  | [e], p => before e p
  | e :: es, p =>
    let next := p.start
    let ⟨code, second⟩ := anyBefore es p
    (before e ⟨code, next⟩).push (.fork · second)

end

end Expr

namespace Program

/-- The program of an expression. -/
def ofExpr (e : Expr) : Program := e.before accepting

/-- Whether the program begins by asking for the start of the text. -/
def anchored (p : Program) : Bool :=
  match p.code[p.start]? with
  | some (.check .textStart _) => true
  | _ => false

end Program

end TextGrammar.Regex
