import TokenGrammar.Main
import TokenGrammar.Proofs.Consumption
import TokenGrammar.Proofs.Nesting
import TokenGrammar.Proofs.Refinement
import TokenGrammar.Stock.Actions
import TokenGrammar.Stock.Factories
import TokenGrammar.Stock.Splitters
import TokenGrammar.TokenStream.Group
import TokenGrammar.Tracing
import TokenGrammar.Value.Sequence
import TokenGrammar.Proofs.Lockstep
import TokenGrammar.Proofs.Shadowing
import TokenGrammar.Proofs.Folding
import TokenGrammar.Proofs.Evaluation
import TokenGrammar.Proofs.Calculator.Denotation
import TokenGrammar.Proofs.Calculator.Soundness
import TokenGrammar.Proofs.Calculator.Exactness
import TokenGrammar.Proofs.Dictionary
import TokenGrammar.Proofs.Json.Document
import TokenGrammar.Proofs.Json.Productions
import TokenGrammar.Proofs.Json.Soundness
import TokenGrammar.Proofs.Json.Exactness
import TokenGrammar.Proofs.Provenance
import TokenGrammar.Proofs.Locality
import TokenGrammar.Proofs.Limit
import TokenGrammar.Proofs.Remainder
import TokenGrammar.Proofs.History
import TokenGrammar.Proofs.Invariant
import TokenGrammar.Proofs.Leaves
import TokenGrammar.Proofs.Exchange
import TokenGrammar.Proofs.RightRecursion
import TokenGrammar.Proofs.LeftRecursion
import TokenGrammar.Proofs.Enumeration
import TokenGrammar.Proofs.Lookahead
import TokenGrammar.Proofs.EmptyTokens
import TokenGrammar.Proofs.Interleaving
import TokenGrammar.Proofs.Revision
import TokenGrammar.Proofs.Equivalence
import TokenGrammar.Proofs.Snapshot
import TokenGrammar.Proofs.Reentrancy
import TokenGrammar.Proofs.Calculator.Failure
import TokenGrammar.Proofs.Json.Failure
import TokenGrammar.Proofs.Course
import TokenGrammar.Proofs.Trace
import TokenGrammar.Proofs.Blanking
import TokenGrammar.Proofs.Json.Lexing
import TokenGrammar.Proofs.Strays
import TokenGrammar.Proofs.Pattern.Acceptance
import TokenGrammar.Proofs.Json.Terminals
import TokenGrammar.Proofs.Json.Layout
import TokenGrammar.Proofs.Calculator.Chain
import TokenGrammar.Proofs.Calculator.Lexing
import TokenGrammar.Proofs.Words
import TokenGrammar.Proofs.Seal
