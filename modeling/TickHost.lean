import TickHost.Callback
import TickHost.Config.Loading
import TickHost.Session
import TickHost.Proofs.Admission
import TickHost.Proofs.AuditTrail
import TickHost.Proofs.Balance
import TickHost.Proofs.Chains
import TickHost.Proofs.Custody
import TickHost.Proofs.Firing
import TickHost.Proofs.HostRuns
import TickHost.Proofs.Isolation
import TickHost.Proofs.Leftovers
import TickHost.Proofs.Loading
import TickHost.Proofs.Locks
import TickHost.Proofs.Lockstep
import TickHost.Proofs.Members
import TickHost.Proofs.Openings
import TickHost.Proofs.Order
import TickHost.Proofs.Overtaking
import TickHost.Proofs.Punctuality
import TickHost.Proofs.Rearming
import TickHost.Proofs.Registrations
import TickHost.Proofs.Roster
import TickHost.Proofs.Sampling
import TickHost.Proofs.Sessions
import TickHost.Proofs.Termination
