import RegisterMachine.Builtin.Basic
import RegisterMachine.CommandLine.Basic
import RegisterMachine.Main
import RegisterMachine.Machine.Run
import RegisterMachine.Operator.Script
import RegisterMachine.Template
import RegisterMachine.Proofs.Builtin.Commit
import RegisterMachine.Proofs.Machine.Resume
import RegisterMachine.Proofs.Machine.StaticCheck
import RegisterMachine.Proofs.Machine.Lifecycle
import RegisterMachine.Proofs.Machine.Locality
import RegisterMachine.Proofs.Bank.FiniteMap
import RegisterMachine.Proofs.Machine.FaultLine
import RegisterMachine.Proofs.Machine.Accounts
import RegisterMachine.Proofs.Machine.Rename
import RegisterMachine.Proofs.Program.Grammar
import RegisterMachine.Proofs.Builtin.Fold
import RegisterMachine.Proofs.Program.Append
import RegisterMachine.Proofs.CommandLine.Logging
import RegisterMachine.Proofs.Program.Listing
import RegisterMachine.Proofs.Builtin.Commute
import RegisterMachine.Proofs.Builtin.Split
import RegisterMachine.Proofs.Builtin.Exact
import RegisterMachine.Proofs.Builtin.Division
import RegisterMachine.Proofs.Machine.Monotone
import RegisterMachine.Proofs.Machine.Settle
import RegisterMachine.Proofs.Text.Layout
import RegisterMachine.Proofs.Program.WrittenForm
import RegisterMachine.Proofs.Program.Layout
import RegisterMachine.Proofs.Operator.Registry
import RegisterMachine.Proofs.Program.Names
import RegisterMachine.Proofs.Program.Diagnostic
import RegisterMachine.Proofs.Log.ClockDay
import RegisterMachine.Proofs.Template.Segment
import RegisterMachine.Proofs.Template.Compose
import RegisterMachine.Proofs.CommandLine.Grammar
import RegisterMachine.Proofs.Builtin.Compare
import RegisterMachine.Proofs.Builtin.Arity
import RegisterMachine.Proofs.CommandLine.Declaration
