import ApprovalGate.Logging
import ApprovalGate.Main
import ApprovalGate.Proofs.Api.Answer
import ApprovalGate.Proofs.Callback.Body
import ApprovalGate.Proofs.Callback.Form
import ApprovalGate.Proofs.Client.Address
import ApprovalGate.Proofs.Client.Agreement
import ApprovalGate.Proofs.Config.Checked
import ApprovalGate.Proofs.Endpoint
import ApprovalGate.Proofs.Gate.Agreement
import ApprovalGate.Proofs.Gate.Deadline
import ApprovalGate.Proofs.Gate.Delivered
import ApprovalGate.Proofs.Gate.Ended
import ApprovalGate.Proofs.Gate.Interim
import ApprovalGate.Proofs.Gate.Pass
import ApprovalGate.Proofs.Gate.Reopened
import ApprovalGate.Proofs.Gate.Replaced
import ApprovalGate.Proofs.Gate.Suspended
import ApprovalGate.Proofs.Gate.Timeout
import ApprovalGate.Proofs.Registry.Durable
import ApprovalGate.Proofs.Registry.Independence
import ApprovalGate.Proofs.Registry.Isolation
import ApprovalGate.Proofs.Registry.Jobs
import ApprovalGate.Proofs.Registry.Listed
import ApprovalGate.Proofs.Registry.Restart
import ApprovalGate.Proofs.Registry.Winner
import ApprovalGate.Proofs.Secrets.Service
import ApprovalGate.Proofs.Store.Attempt
import ApprovalGate.Proofs.Token
import ApprovalGate.Proofs.Wait.Printed
import ApprovalGate.Proofs.Wait.Readings
import ApprovalGate.Simulation.Crash
import ApprovalGate.Simulation.Exchange
import ApprovalGate.Simulation.Flow
