import TextGrammar.Session
import TextGrammar.Parser.Log
import TextGrammar.Parser.Lifetime
import TextGrammar.Proofs.Independence
import TextGrammar.Proofs.Translation
import TextGrammar.Proofs.Slices
import TextGrammar.Proofs.NestedList
import TextGrammar.Proofs.Reachable
import TextGrammar.Proofs.Termination
import TextGrammar.Proofs.Patterns
import TextGrammar.Proofs.Label
import TextGrammar.Proofs.Errors.Found
import TextGrammar.Proofs.Errors.Size
import TextGrammar.Proofs.Names
import TextGrammar.Proofs.Lifetime
import TextGrammar.Proofs.Arithmetic
import TextGrammar.Proofs.WordList
import TextGrammar.Proofs.Provenance
import TextGrammar.Proofs.Laws.Sequence
import TextGrammar.Proofs.Laws.Between
import TextGrammar.Proofs.Laws.Choice
import TextGrammar.Proofs.Laws.Factoring
import TextGrammar.Proofs.Laws.Repetition
import TextGrammar.Proofs.Laws.Separated
import TextGrammar.Proofs.Disposition
import TextGrammar.Proofs.LineIndex
import TextGrammar.Proofs.Rounding
import TextGrammar.Proofs.Scanners
import TextGrammar.Proofs.Counted
