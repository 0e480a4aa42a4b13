import ArithLines.Main
import ArithLines.Proofs.Machine
import ArithLines.Proofs.Tokens
import ArithLines.Proofs.Descent.Equations
import ArithLines.Proofs.Descent.View
import ArithLines.Proofs.Descent.Path
import ArithLines.Proofs.Descent.Line
import ArithLines.Proofs.Descent.Parse
import ArithLines.Proofs.Acceptance
import ArithLines.Proofs.Unrecognized
import ArithLines.Proofs.Reasons
import ArithLines.Proofs.Blame
import ArithLines.Proofs.Automaton
import ArithLines.Proofs.Tree.Listing
import ArithLines.Proofs.Tree.Spelling
import ArithLines.Proofs.Descent.Building
import ArithLines.Proofs.Decoding
import ArithLines.Proofs.Descent.Rebuilding
import ArithLines.Proofs.RoundTrip
import ArithLines.Proofs.Deletion
import ArithLines.Proofs.Cutting
import ArithLines.Proofs.Text.Lines
import ArithLines.Proofs.Text.Utf8
import ArithLines.Proofs.Text.Units
import ArithLines.Proofs.Text.Shortening
import ArithLines.Proofs.Text.Boundary
import ArithLines.Proofs.Rendering
import ArithLines.Proofs.Batch.Account
import ArithLines.Proofs.Batch.Lines
import ArithLines.Proofs.Batch.Faults
import ArithLines.Proofs.Batch.Concatenation
import ArithLines.Proofs.Batch.Recovery
import ArithLines.Proofs.Batch.Counts
import ArithLines.Proofs.Batch.Precut
import ArithLines.Proofs.Batch.Replacement
import ArithLines.Proofs.Session
import ArithLines.Proofs.Batch.Reporting
import ArithLines.Proofs.Batch.Terminators
import ArithLines.Proofs.Descent.Simulation
import ArithLines.Proofs.Prior
import ArithLines.Proofs.Excerpt
import ArithLines.Proofs.Tree.Subtrees
import ArithLines.Proofs.Likeness
import ArithLines.Proofs.Tree.Height
import ArithLines.Proofs.Respacing
import ArithLines.Proofs.Tokenization
import ArithLines.Proofs.Descent.Ending
import ArithLines.Proofs.Descent.Repetition
import ArithLines.Proofs.Descent.Calls
import ArithLines.Proofs.History
import ArithLines.Proofs.Log
import ArithLines.Proofs.Label
