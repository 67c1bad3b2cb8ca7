import RegexEngine.CharSet.Display
import RegexEngine.Main
import RegexEngine.Proofs.Classes
import RegexEngine.Proofs.Completeness
import RegexEngine.Proofs.Composition
import RegexEngine.Proofs.Dfa.Limits
import RegexEngine.Proofs.Dfa.Rounds
import RegexEngine.Proofs.Equivalence
import RegexEngine.Proofs.Errors
import RegexEngine.Proofs.FoldedClasses
import RegexEngine.Proofs.HexEscapes
import RegexEngine.Proofs.LineFilter
import RegexEngine.Proofs.Numbering.Copies
import RegexEngine.Proofs.Outlooks
import RegexEngine.Proofs.Possessive
import RegexEngine.Proofs.Quantifiers
import RegexEngine.Proofs.RoundTrip
import RegexEngine.Proofs.SetAlgebra
import RegexEngine.Proofs.Spans
import RegexEngine.Proofs.Splitting
import RegexEngine.Proofs.StaleRecords
import RegexEngine.Proofs.Succession
import RegexEngine.Proofs.Suffix
import RegexEngine.Proofs.Termination
import RegexEngine.Proofs.WellFormed
