import PolicyLedger.Proofs.Acknowledged
import PolicyLedger.Proofs.AllOrNothing
import PolicyLedger.Proofs.Backoff
import PolicyLedger.Proofs.Batches
import PolicyLedger.Proofs.BuildingOrder
import PolicyLedger.Proofs.CarriedText
import PolicyLedger.Proofs.ExactlyOnce
import PolicyLedger.Proofs.LentStore
import PolicyLedger.Proofs.Positions
import PolicyLedger.Proofs.Publishing
import PolicyLedger.Proofs.Reassignment
import PolicyLedger.Proofs.Retries
import PolicyLedger.Proofs.Settlement
import PolicyLedger.Proofs.SharedGroups
import PolicyLedger.Proofs.SingleWrite
import PolicyLedger.Proofs.Staleness
import PolicyLedger.Proofs.Streams
import PolicyLedger.Proofs.TailTracking
import PolicyLedger.Proofs.Tidy
import PolicyLedger.Proofs.Transparency
import PolicyLedger.Proofs.TwoReaders
import PolicyLedger.Proofs.Undoing
import PolicyLedger.Proofs.Visibility
import PolicyLedger.Proofs.Wakeups
import PolicyLedger.Proofs.WellFormed
import PolicyLedger.Proofs.WrittenCommands
import PolicyLedger.Proofs.WrittenText
import PolicyLedger.Simulation.Run
import PolicyLedger.Text.Hex
