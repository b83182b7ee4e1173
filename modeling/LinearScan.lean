import LinearScan.Cli.Directory
import LinearScan.Main
import LinearScan.Proofs.Bank.Cache
import LinearScan.Proofs.Bank.History
import LinearScan.Proofs.Frame
import LinearScan.Proofs.Headroom
import LinearScan.Proofs.Ir.RoundTrip
import LinearScan.Proofs.Machine
import LinearScan.Proofs.Optimality
import LinearScan.Proofs.Overflow
import LinearScan.Proofs.Placement
import LinearScan.Proofs.Session
import LinearScan.Proofs.Liveness.Exact
import LinearScan.Proofs.Liveness.Warnings
import LinearScan.Proofs.Register.Calls
import LinearScan.Proofs.Ir.Grammar
import LinearScan.Proofs.Bank.Grouping
import LinearScan.Proofs.Register.Usability
import LinearScan.Proofs.CalleeSaved
import LinearScan.Proofs.Interference
import LinearScan.Proofs.Lifecycle
import LinearScan.Proofs.Plain.Relabel
import LinearScan.Proofs.Unused
import LinearScan.Proofs.Relabelling
import LinearScan.Proofs.Ir.Located
import LinearScan.Proofs.Ir.Layout
import LinearScan.Proofs.Ir.Spans
import LinearScan.Proofs.Accord
import LinearScan.Proofs.Target.Exact
