import WriteAhead.OpSet
import WriteAhead.Bench.Queue
import WriteAhead.Bench.Table
import WriteAhead.Bench.Journal
import WriteAhead.Main
import WriteAhead.Proofs.Journal.Delivery
import WriteAhead.Proofs.Journal.Ordering
import WriteAhead.Proofs.Journal.Release
import WriteAhead.Proofs.Journal.Hosted
import WriteAhead.Proofs.Journal.Stall
import WriteAhead.Proofs.Journal.Accounting
import WriteAhead.Proofs.Journal.Custody
import WriteAhead.Proofs.Journal.Quiescence
import WriteAhead.Proofs.Journal.Faults
import WriteAhead.Proofs.Journal.Refusals
import WriteAhead.Proofs.Journal.Aftermath
import WriteAhead.Proofs.Table.LateReports
import WriteAhead.Proofs.Table.Sleepers
import WriteAhead.Proofs.Table.Joins
import WriteAhead.Proofs.Shared
import WriteAhead.Proofs.Queue.Sleepers
import WriteAhead.Proofs.Queue.Fifo
import WriteAhead.Proofs.Journal.Submissions
import WriteAhead.Proofs.Device.Calls
import WriteAhead.Proofs.Device.Life
import WriteAhead.Proofs.Device.Losses
import WriteAhead.Proofs.Journal.Turns
import WriteAhead.Proofs.Simulation.Run
import WriteAhead.Proofs.Simulation.Traversal
import WriteAhead.Proofs.Simulation.Trail
import WriteAhead.Proofs.Batch.Checkpoints
import WriteAhead.Proofs.Device.Advance
import WriteAhead.Proofs.Device.Issues
import WriteAhead.Proofs.Device.Delays
import WriteAhead.Proofs.Device.Deadlines
import WriteAhead.Proofs.Table.Awakenings
import WriteAhead.Proofs.Device.Release
import WriteAhead.Proofs.Table.Vacancies
