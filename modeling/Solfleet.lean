import Solfleet.Library.Program
import Solfleet.Library.Triple
import Solfleet.Library.Concurrent
import Solfleet.Library.Dict
import Solfleet.Library.Sorted
import Solfleet.Library.Text
import Solfleet.Library.Glob
import Solfleet.Library.Grep
import Solfleet.Library.Shell
import Solfleet.Library.Mounting
import Solfleet.Library.Reconcile
import Solfleet.Library.Json
import Solfleet.Config
import Solfleet.Safety
import Solfleet.Probe
import Solfleet.Probe.Rpc
import Solfleet.Probe.Isolation
import Solfleet.Dns
import Solfleet.Failover
import Solfleet.Watch
import Solfleet.DnsOverride
import Solfleet.Failover.Reconcile
import Solfleet.Failover.Foreign
import Solfleet.Failover.NeverEmpty
import Solfleet.Failover.Race
import Solfleet.Failover.Resolution
import Solfleet.Failover.Restoring
import Solfleet.Failover.Ownership
import Solfleet.Failover.Auditing
import Solfleet.Command
import Solfleet.Executor
import Solfleet.Builder
import Solfleet.Operations
import Solfleet.Upgrade
import Solfleet.Provision
import Solfleet.Orchestration
import Solfleet.Orchestration.DryRun
import Solfleet.Orchestration.VersionPolicy
import Solfleet.Orchestration.Distribution
import Solfleet.Orchestration.Verified
import Solfleet.Orchestration.Rehearsal
import Solfleet.Orchestration.MixedSet
import Solfleet.Orchestration.SwapSet
import Solfleet.Orchestration.Injection
import Solfleet.Orchestration.Provisioning
import Solfleet.Orchestration.Formatting
import Solfleet.Orchestration.Rerun
import Solfleet.Orchestration.Readiness
import Solfleet.Orchestration.Provenance
import Solfleet.Orchestration.Cycling
import Solfleet.Orchestration.Auditing
import Solfleet.Orchestration.Outcome
import Solfleet.Orchestration.Announced
import Solfleet.Library.Release
import Solfleet.Orchestration.ReleaseCheck
import Solfleet.Orchestration.DiskFloor
import Solfleet.Validate
import Solfleet.Validate.Gate
import Solfleet.Dns.Route53
import Solfleet.Dns.Agreement
import Solfleet.Dns.LawfulOn
import Solfleet.Dns.LostUpdate
import Solfleet.Library.EventLoop
import Solfleet.Orchestration.RestartLimit
import Solfleet.Orchestration.InstalledUnit
import Solfleet.Failover.Overriding
import Solfleet.Failover.RecordTtl
import Solfleet.Operations.CatchingUp
import Solfleet.Safety.Inheritance
import Solfleet.Voting
import Solfleet.Voting.Readers
import Solfleet.StatusTable
import Solfleet.Probe.Verdicts
import Solfleet.Schedule.FreeWindows
import Solfleet.Failover.Isolation
import Solfleet.Library.Expansion
import Solfleet.Failover.OnNames
import Solfleet.Failover.Convergence
import Solfleet.Failover.LoopLaw
import Solfleet.Failover.PoolStatus
import Solfleet.Dns.CloudflareApi
import Solfleet.Dns.Requests
import Solfleet.Failover.Requests
import Solfleet.Failover.EndToEnd
import Solfleet.Operations.Sampling
import Solfleet.Auditing
import Solfleet.Schedule
import Solfleet.Schedule.LeaderFree
import Solfleet.Library.Interleaving
import Solfleet.Orchestration.CrossedBuilds
import Solfleet.Orchestration.BuildOrigins
import Solfleet.Library.UnitFile
import Solfleet.Orchestration.RenderedUnit
import Solfleet.Orchestration.Site
import Solfleet.Orchestration.Rollout
