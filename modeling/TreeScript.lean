import TreeScript.Main
import TreeScript.Proofs.Check.Soundness
import TreeScript.Proofs.Integer.Arithmetic
import TreeScript.Proofs.Integer.Decimal
import TreeScript.Proofs.Run.Formula
import TreeScript.Proofs.Run.Safety
import TreeScript.Proofs.Tree.Acceptance
import TreeScript.Tree.Build
import TreeScript.Proofs.Run.Confinement
import TreeScript.Proofs.Run.Lockstep
import TreeScript.Proofs.Run.Mention
import TreeScript.Proofs.Run.Limit
import TreeScript.Proofs.Run.Output
import TreeScript.Proofs.Run.Positions
import TreeScript.Proofs.Run.Lifetime
import TreeScript.Proofs.Integer.Order
import TreeScript.Proofs.Integer.Construction
import TreeScript.Proofs.Integer.LongDivision
import TreeScript.Proofs.Integer.Words
import TreeScript.Proofs.Run.Kinds
import TreeScript.Proofs.Run.Comparison
import TreeScript.Proofs.Run.Blame
import TreeScript.Proofs.Run.Emission
import TreeScript.Proofs.Run.Renaming
import TreeScript.Proofs.Run.Expansion
import TreeScript.Proofs.CommandLine.Report
import TreeScript.Proofs.Run.Atomicity
import TreeScript.Proofs.Run.Compound
import TreeScript.Proofs.Run.Counting
import TreeScript.Proofs.Check.Truncation
import TreeScript.Proofs.Check.StraightLine
import TreeScript.Proofs.CommandLine.Configuration
import TreeScript.Proofs.Tree.Placement
import TreeScript.Proofs.Tree.Positioned
import TreeScript.Proofs.Run.History
import TreeScript.Proofs.Run.Restoration
