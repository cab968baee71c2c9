import FaultInjection.Attack.Rehearsal
import FaultInjection.Cluster
import FaultInjection.CommandLine
import FaultInjection.Http.Station
import FaultInjection.Json.Member
import FaultInjection.Main
import FaultInjection.Master.Rehearsal
import FaultInjection.Proofs.Attack.Lifecycle
import FaultInjection.Proofs.Engine.Pass
import FaultInjection.Proofs.Engine.Step
import FaultInjection.Proofs.Engine.Invariant
import FaultInjection.Proofs.Engine.Run
import FaultInjection.Proofs.Engine.Window
import FaultInjection.Proofs.Yaml.Sameness
import FaultInjection.Proofs.Failure.Delivery
import FaultInjection.Proofs.Node.Turn
import FaultInjection.Proofs.Node.Pass
import FaultInjection.Proofs.Master.Ledger
import FaultInjection.Proofs.Master.Request
import FaultInjection.Proofs.Master.Call
import FaultInjection.Proofs.Node.Report
import FaultInjection.Proofs.Cluster.Run
import FaultInjection.Proofs.Cluster.Convergence
import FaultInjection.Proofs.Cluster.Requests
import FaultInjection.Proofs.Engine.Exposure
import FaultInjection.Proofs.Node.Run
import FaultInjection.Proofs.Node.Custody
import FaultInjection.Proofs.Node.Deed
import FaultInjection.Proofs.Node.Rest
import FaultInjection.Proofs.Wire.Assignment
import FaultInjection.Proofs.Failure.Transfer
import FaultInjection.Proofs.Master.Subscription
import FaultInjection.Proofs.Master.Chronicle
import FaultInjection.Proofs.Http.Refused
import FaultInjection.Proofs.Http.Remote
import FaultInjection.Master.Work
import FaultInjection.Duration.Scan
import FaultInjection.Proofs.Text.Blank
import FaultInjection.Proofs.Duration.Grammar
import FaultInjection.Proofs.Duration
import FaultInjection.Proofs.Duration.Reading
import FaultInjection.Proofs.Master.Order
import FaultInjection.Proofs.Master.Work
import FaultInjection.Proofs.Master.Handout
import FaultInjection.Proofs.Http.Watching
import FaultInjection.Proofs.Node.Again
import FaultInjection.Proofs.Engine.Token
import FaultInjection.Proofs.Node.Shutdown
import FaultInjection.Proofs.Node.Alike
import FaultInjection.Proofs.Node.Isolation
import FaultInjection.Proofs.Master.Sweep
import FaultInjection.Proofs.Master.Stay
import FaultInjection.Proofs.Master.Liveness
import FaultInjection.Proofs.Master.Eviction
import FaultInjection.Proofs.Wire.Exchange
import FaultInjection.Proofs.Node.Beating
import FaultInjection.Proofs.Node.Lifecycle
import FaultInjection.Proofs.Yaml.Json
import FaultInjection.Proofs.Http.Showing
import FaultInjection.Proofs.Yaml.Canonical
import FaultInjection.Proofs.Failure.Canonical
import FaultInjection.Proofs.Yaml.Rearranged
import FaultInjection.Proofs.Yaml.Mapping
import FaultInjection.Proofs.Yaml.Distinct
import FaultInjection.Proofs.Yaml.Sorting
import FaultInjection.Proofs.Failure.Shape
import FaultInjection.Proofs.Failure.Order
import FaultInjection.Proofs.Configuration
import FaultInjection.Proofs.Duration.Canonical
import FaultInjection.Proofs.Engine.Outcome
import FaultInjection.Proofs.Node.Account
import FaultInjection.Attack.Threads
import FaultInjection.Proofs.Attack.Options
import FaultInjection.Proofs.Attack.Run
import FaultInjection.Proofs.Attack.Phases
import FaultInjection.Proofs.Attack.Growth
import FaultInjection.Proofs.Node.Delivery
import FaultInjection.Proofs.Selector.Reading
import FaultInjection.Proofs.Selector.Labels
import FaultInjection.Proofs.Text.Split
import FaultInjection.Proofs.Selector.Conjunction
import FaultInjection.Proofs.Master.Flat
import FaultInjection.Proofs.Master.Mirror
