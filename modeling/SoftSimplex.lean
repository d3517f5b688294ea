import SoftSimplex.Document.Loading
import SoftSimplex.Scalar.Binary64
import SoftSimplex.Scalar.Rational
import SoftSimplex.Solver.Command
import SoftSimplex.Proofs.Form.Support
import SoftSimplex.Proofs.Form.Value
import SoftSimplex.Proofs.Form.Grain
import SoftSimplex.Proofs.Form.Reduced
import SoftSimplex.Proofs.Ledger
import SoftSimplex.Proofs.Listing
import SoftSimplex.Proofs.Satisfaction
import SoftSimplex.Proofs.Solver.Activation
import SoftSimplex.Proofs.Solver.Addition
import SoftSimplex.Proofs.Solver.Meaning
import SoftSimplex.Proofs.Solver.Tolerance
import SoftSimplex.Proofs.Solver.Coherence
import SoftSimplex.Proofs.Solver.Awareness
import SoftSimplex.Proofs.Dependable
import SoftSimplex.Proofs.Solver.Drafting
import SoftSimplex.Proofs.Solver.Caches
import SoftSimplex.Proofs.Solver.Tally
import SoftSimplex.Proofs.Solver.Tethers
import SoftSimplex.Proofs.Solver.Reckoning
import SoftSimplex.Proofs.Solver.Squaring
import SoftSimplex.Proofs.Solver.Balance
import SoftSimplex.Proofs.Tableau.Waiting
import SoftSimplex.Proofs.Tableau.Counting
import SoftSimplex.Proofs.Solver.Repairs
import SoftSimplex.Proofs.Solver.Misuse
import SoftSimplex.Proofs.Solver.Teardown
import SoftSimplex.Proofs.Solver.Release
import SoftSimplex.Proofs.Solver.Clearing
import SoftSimplex.Proofs.SlotTable.Refinement
import SoftSimplex.Proofs.SlotTable.Walks
import SoftSimplex.Proofs.SlotTable.Capacity
import SoftSimplex.Proofs.Arena.History
import SoftSimplex.Proofs.Catalog.Refinement
import SoftSimplex.Proofs.Solver.Isolation
import SoftSimplex.Proofs.Solver.Course
import SoftSimplex.Proofs.Solver.Undoing
import SoftSimplex.Proofs.Solver.Conduct
import SoftSimplex.Proofs.Solver.Anchors
import SoftSimplex.Proofs.Solver.Acceptance
import SoftSimplex.Proofs.Tableau.NearTies
import SoftSimplex.Proofs.Tableau.Divisions
import SoftSimplex.Proofs.Solver.Divisors
import SoftSimplex.Proofs.Solver.Wording
import SoftSimplex.Proofs.Solver.Changes
import SoftSimplex.Proofs.Solver.Completion
import SoftSimplex.Proofs.Solver.Copying
import SoftSimplex.Proofs.Tableau.Growth
import SoftSimplex.Proofs.Tableau.Wishes
import SoftSimplex.Proofs.Tableau.Rivals
import SoftSimplex.Proofs.Solver.Settling
import SoftSimplex.Proofs.Solver.Scripts
import SoftSimplex.Proofs.Solver.Weighing
import SoftSimplex.Proofs.Tableau.Parting
import SoftSimplex.Proofs.Tableau.Progress
import SoftSimplex.Proofs.Tableau.Exhaustion
import SoftSimplex.Proofs.Tableau.Turns
import SoftSimplex.Proofs.Tableau.Careful
import SoftSimplex.Proofs.Tableau.Separate
import SoftSimplex.Proofs.Tableau.Reversal
import SoftSimplex.Proofs.Solver.Journal
import SoftSimplex.Proofs.Solver.OrderedTurns
import SoftSimplex.Proofs.Solver.Warrant
import SoftSimplex.Proofs.Solver.Separation
import SoftSimplex.Proofs.Tableau.Secluded
import SoftSimplex.Proofs.Solver.GuardedTurns
import SoftSimplex.Proofs.Solver.Seclusion
