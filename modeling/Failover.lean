import Failover.Json.Access
import Failover.Topology.Format
import Failover.Plane.Format
import Failover.Store.Memory
import Failover.Store.Files
import Failover.Store.Listening
import Failover.Node.Cluster
import Failover.Proofs.Json.RoundTrip
import Failover.Proofs.Node.Convergence
import Failover.Proofs.Node.Persisting
import Failover.Proofs.Rebind.Lossless
import Failover.Proofs.Json.Nesting
import Failover.Proofs.Persistence.ReadBack
import Failover.Proofs.Node.Announcements
import Failover.Proofs.Node.Fencing
import Failover.Proofs.Store.Tree
import Failover.Proofs.Store.Refinement
import Failover.Proofs.Rebind.Modes
import Failover.Proofs.Rebind.Handles
import Failover.Proofs.Node.Joining
import Failover.Proofs.Rebind.Reports
import Failover.Proofs.Node.Reported
import Failover.Proofs.Node.View
import Failover.Proofs.Rebind.Undisturbed
import Failover.Proofs.Rebind.Displaced
import Failover.Proofs.Node.Decision
import Failover.Proofs.Plane.LiveClaims
import Failover.Proofs.Rebind.Population
import Failover.Proofs.Persistence.Routing
import Failover.Proofs.Topology.Batch
import Failover.Proofs.Persistence.Leniency
import Failover.Proofs.Store.Leftovers
import Failover.Proofs.Node.Stamps
import Failover.Proofs.Node.Config
import Failover.Proofs.Store.Traffic
