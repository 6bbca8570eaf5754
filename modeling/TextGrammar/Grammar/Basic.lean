import TextGrammar.Proofs.Regex.Run
import TextGrammar.Element
import TextGrammar.Parser.Run

/-!
# Grammars

A grammar is a description of a parser in which everything is written out: its parts have names, and
what is done to results is named by `Change` and its kin.  Each kind of grammar names a function that
builds a parser: `sequence`, `and`, `or` and so on.

* `Fault` — why a grammar, or a request that holds one, cannot be used.
* `Grammar` — the descriptions.
-/

namespace TextGrammar

/-- Why a request cannot be carried out. -/
inductive Fault where
  /-- A pattern whose source is not well formed. -/
  | invalidPattern (source : String)
  /-- A description of no known kind. -/
  | unknownParser (kind : String)
  /-- A name that nothing is bound to. -/
  | unbound (name : String)
  /-- A literal without its text. -/
  | missingText
  /-- An action of no known kind. -/
  | unknownAction (kind : String)
  /-- A slot in which no state was saved. -/
  | emptySlot
  /-- A request of no known kind. -/
  | unknownRequest (kind : String)
  /-- A request that does not name its kind. -/
  | missingRequest
  /-- A parser that used up its budget, so that nothing can be said about its end. -/
  | endless
deriving DecidableEq, Repr

namespace Fault

/-- The words for a fault. -/
def message : Fault → String
  | invalidPattern source => "invalid pattern `" ++ source ++ "`"
  | unknownParser kind => "unknown parser " ++ kind
  | unbound name => "unbound " ++ name
  | missingText => "missing text"
  | unknownAction kind => "unknown step " ++ kind
  | emptySlot => "empty slot"
  | unknownRequest kind => "unknown op " ++ kind
  | missingRequest => "missing op"
  | endless => "no end in sight"

end Fault

/-- Parsers that need no description but their name. -/
inductive Primitive where
  | letters
  | digits
  | whitespace
  | newline
  | comma
  | period
  | colon
  | semicolon
  | plus
  | minus
  | endOfInput
  | lineNumber
  | seen

namespace Primitive

/-- The parser with the name. -/
def parser {ν : Type} : Primitive → Parser ν
  | letters => .letters Regex.Engine.everyday_builtIn
  | digits => .digits Regex.Engine.everyday_builtIn
  | whitespace => .whitespace Regex.Engine.everyday_builtIn
  | newline => .newline Regex.Engine.everyday_builtIn
  | comma => .comma
  | period => .period
  | colon => .colon
  | semicolon => .semicolon
  | plus => .plus
  | minus => .minus
  | endOfInput => .endOfInput
  | lineNumber => .lineNumber
  | seen => .seen

end Primitive

/-- Pairs of brackets. -/
inductive Bracket where
  | parens
  | brackets
  | braces
  | angles

namespace Bracket

/-- A parser in the brackets. -/
def enclose {ν : Type} : Bracket → Parser ν → Parser ν
  | parens => .inParens
  | brackets => .inBrackets
  | braces => .inBraces
  | angles => .inAngles

end Bracket

/-- A description of a parser over elements. -/
inductive Grammar where
  /-- A description that cannot be used. -/
  | unusable (fault : Fault)
  | ref (name : String)
  | primitive (p : Primitive)
  | literal (text : String)
  | pattern (source : String)
  | sequence (gs : List Grammar)
  | and (left right : Grammar)
  | or (left right : Grammar)
  | choice (gs : List Grammar)
  | optional (g : Grammar)
  | collectedAs (disposition : Disposition) (g : Grammar)
  | many (least : Nat) (g : Grammar)
  | separated (least : Nat) (value separator : Grammar)
  | all (g : Grammar)
  | between (opening closing center : Grammar)
  | enclosed (bracket : Bracket) (g : Grammar)
  | named (label : String) (g : Grammar)
  /-- A grammar in which the name stands for the grammar itself. -/
  | recursive (name : String) (g : Grammar)
  /-- A grammar in which the names stand for others, each of which may use those before it. -/
  | bind (definitions : List (String × Grammar)) (g : Grammar)
  | map (f : Change) (g : Grammar)
  | mapWithLine (f : LineChange) (g : Grammar)
  | recover (f : Recovery) (g : Grammar)
  /-- A grammar, then the literal made of the text of its result between two others. -/
  | chainLiteral (before after : String) (g : Grammar)
  /-- A grammar, then a body as often as the text of its result says. -/
  | chainRepeat (g body : Grammar)
  /-- A grammar, then the case for the text of its result. -/
  | chainSelect (g : Grammar) (cases : List (String × Grammar)) (default : Grammar)
  /-- A grammar, then another whatever its result. -/
  | chainConst (g body : Grammar)
  /-- A grammar, then nothing, with its result again. -/
  | chainSucceed (g : Grammar)
  | take (count : Nat)
  | back (count : Nat)
  | succeed (v : Value Element)
  | fail (failure : Failure)

instance : Inhabited Grammar := ⟨.primitive .endOfInput⟩

end TextGrammar
