import SubsetC.Token.Lexer
import SubsetC.CommandLine.World
import SubsetC.Main
import SubsetC.Proofs.Lowering.Emission
import SubsetC.Proofs.Machine.Labels
import SubsetC.Proofs.Machine.Points
import SubsetC.Proofs.Names
import SubsetC.Proofs.Tree.Meaning
import SubsetC.Proofs.Lowering.Numbering
import SubsetC.Proofs.Lowering.Loading
import SubsetC.Proofs.Lowering.Evaluation
import SubsetC.Proofs.Lowering.Layout
import SubsetC.Proofs.Lowering.Simulation
import SubsetC.Proofs.Correctness
import SubsetC.Proofs.Grammar.Derivations
import SubsetC.Proofs.Grammar.Unambiguity
import SubsetC.Proofs.Grammar.Taking
import SubsetC.Proofs.Grammar.Soundness
import SubsetC.Proofs.Grammar.Completeness
import SubsetC.Proofs.Token.Scanning
import SubsetC.Proofs.Grammar.Recognition
import SubsetC.Proofs.Token.RoundTrip
import SubsetC.Proofs.Temporaries
import SubsetC.Proofs.Machine.Safety
import SubsetC.Proofs.Linking
import SubsetC.Proofs.Json.Scalars
import SubsetC.Proofs.Json.Values
import SubsetC.Proofs.Saving
import SubsetC.Proofs.Grammar.Alike
import SubsetC.Proofs.Grammar.Places
import SubsetC.Proofs.Lowering.Places
import SubsetC.Proofs.Places
import SubsetC.Proofs.Machine.Limits
import SubsetC.Proofs.Machine.Strictness
import SubsetC.Proofs.CommandLine.Execution
import SubsetC.Proofs.CommandLine.Agreement
import SubsetC.Proofs.Grammar.Declarations
import SubsetC.Proofs.Declarations
import SubsetC.Proofs.Token.Rules
import SubsetC.Proofs.Token.Covering
import SubsetC.Proofs.Tree.Height
import SubsetC.Proofs.Grammar.Progress
import SubsetC.Proofs.Grammar.Heights
import SubsetC.Proofs.Chains
import SubsetC.Proofs.Grammar.Stopping
import SubsetC.Proofs.Grammar.Viability
import SubsetC.Proofs.Grammar.Lookahead
import SubsetC.Proofs.Grammar.Failures
import SubsetC.Proofs.Tree.Nodes
import SubsetC.Proofs.Grammar.Spans
import SubsetC.Proofs.Grammar.Nodes
import SubsetC.Proofs.Slices
import SubsetC.Proofs.Layout
import SubsetC.Proofs.Regions
import SubsetC.Proofs.Divisions
import SubsetC.Proofs.Negation
import SubsetC.Proofs.Format
import SubsetC.Proofs.Printing
import SubsetC.Proofs.Machine.Tables
import SubsetC.Proofs.Tree.Misfits
import SubsetC.Proofs.Misfits
import SubsetC.Proofs.Lowering.Uses
import SubsetC.Proofs.Machine.Stretches
import SubsetC.Proofs.SingleAssignment
import SubsetC.Proofs.Token.Lines
import SubsetC.Proofs.Text.Numerals
import SubsetC.Proofs.Answers
import SubsetC.Proofs.Grammar.Congruence
import SubsetC.Proofs.Forwarding
import SubsetC.Proofs.Reuse
import SubsetC.Proofs.Escapes
import SubsetC.Proofs.Text.Quoted
import SubsetC.Proofs.Grammar.Names
import SubsetC.Proofs.Lowering.Names
import SubsetC.Proofs.Code.Spelling
import SubsetC.Proofs.Listing
import SubsetC.Proofs.Nesting
