import Lamplighter.Main
import Lamplighter.Proofs.BrokenOff
import Lamplighter.Proofs.Budget
import Lamplighter.Proofs.CallChain
import Lamplighter.Proofs.Charts
import Lamplighter.Proofs.Completion
import Lamplighter.Proofs.Cycles
import Lamplighter.Proofs.FanOut
import Lamplighter.Proofs.Hoisting
import Lamplighter.Proofs.Inlining
import Lamplighter.Proofs.Lamps
import Lamplighter.Proofs.Levels
import Lamplighter.Proofs.LineEndings
import Lamplighter.Proofs.Masking
import Lamplighter.Proofs.Matching
import Lamplighter.Proofs.Numerals
import Lamplighter.Proofs.Operands
import Lamplighter.Proofs.Outermost
import Lamplighter.Proofs.OwnCalls
import Lamplighter.Proofs.Phases
import Lamplighter.Proofs.Placement
import Lamplighter.Proofs.PrintedSummary
import Lamplighter.Proofs.ReadBack
import Lamplighter.Proofs.Renaming
import Lamplighter.Proofs.Reset
import Lamplighter.Proofs.Sequence
import Lamplighter.Proofs.SharedSnapshots
import Lamplighter.Proofs.Signatures
import Lamplighter.Proofs.Strays
import Lamplighter.Proofs.Structured
import Lamplighter.Proofs.Torus
import Lamplighter.Proofs.Unchanged
import Lamplighter.Proofs.Undoing
import Lamplighter.Proofs.Unrolling
import Lamplighter.Proofs.WholeWords
import Lamplighter.World.Bench
