import Solfleet.DnsOverride
import Solfleet.Failover.Reconcile

/-! # The footprint of the operations

Which addresses of which records a pass or an override may add or remove. From
this alone, and for any number of clients under any faults and any schedule, the
addresses outside the footprint stay as they are.
-/

namespace Solfleet

open Interaction Program

/-! ## The calls of each operation -/

/-- Whatever the effect changes is the host of a member of a pool of that record. -/
def DnsEffect.InPools (fleet : Fleet) (op : DnsEffect) : Prop :=
  ∀ r ip, op.Changes r ip → ∃ pool ∈ fleet.pools, pool.record = r ∧ ip ∈ memberHosts fleet pool

theorem inPools_of_unchanging {fleet : Fleet} {op : DnsEffect} (h : ∀ r ip, ¬ op.Changes r ip) :
    op.InPools fleet :=
  fun r ip hop => absurd hop (h r ip)

section Footprint

variable {P : DnsEffect → Prop}

theorem allCalls_driverCall {c : DriverCall} (h : P (.driver c)) :
    AllCalls (S := dnsSignature) P (driverCall c) :=
  allCalls_perform.mpr h

theorem allCalls_recordAudit {audit : Bool} {event : AuditEvent} (h : P (.audit event)) :
    AllCalls (S := dnsSignature) P (recordAudit audit event) := by
  cases audit with
  | false => trivial
  | true => exact allCalls_perform.mpr h

/-- A turn removes only the pool's own addresses and adds only those it desires, and none in a
dry run. -/
theorem allCalls_applyTurn {audit dryRun : Bool} {pool : Pool}
    {hosts desired current : Finset String}
    (hsub : desired ⊆ hosts) (haudit : ∀ event, P (.audit event))
    (hmark : dryRun = false → P (.driver (.ensureMarker pool.record)))
    (hremove : dryRun = false → ∀ ip ∈ hosts, P (.driver (.removeMember pool.record ip)))
    (hadd : dryRun = false → ∀ ip ∈ desired, P (.driver (.addMember pool.record ip pool.ttl))) :
    AllCalls (S := dnsSignature) P (applyTurn audit dryRun pool hosts desired current) := by
  rw [applyTurn_eq hsub]
  split
  · exact allCalls_recordAudit (haudit _)
  split
  · trivial
  · rename_i hbusy
    have hexec : dryRun = false := by simpa using fun h => hbusy (.inr h)
    refine (allCalls_driverCall (P := P) (hmark hexec)).bind fun _ => ?_
    refine AllCalls.bind (AllCalls.each fun ip hip => ?_) fun _ => ?_
    · simp only [mem_sorted, Reconcile.toRemove, Finset.mem_sdiff, Finset.mem_inter] at hip
      exact allCalls_driverCall (hremove hexec ip hip.1.2)
    refine AllCalls.bind (AllCalls.each fun ip hip => ?_) fun _ => ?_
    · simp only [mem_sorted, Reconcile.toAdd, Finset.mem_sdiff] at hip
      exact allCalls_driverCall (hadd hexec ip hip.1)
    · exact allCalls_recordAudit (haudit _)

theorem allCalls_watchOnce (a : AcceptedFleet) {audit dryRun : Bool} (hprobe : P .probe)
    (haudit : ∀ event, P (.audit event))
    (hlist : ∀ pool ∈ a.fleet.pools, P (.driver (.listMembers pool.record)))
    (hmark : dryRun = false → ∀ pool ∈ a.fleet.pools, P (.driver (.ensureMarker pool.record)))
    (hchange : dryRun = false → ∀ pool ∈ a.fleet.pools, ∀ ip ∈ poolHosts a.fleet pool,
      P (.driver (.removeMember pool.record ip)) ∧
        P (.driver (.addMember pool.record ip pool.ttl))) :
    AllCalls (S := dnsSignature) P (watchOnce a.fleet audit dryRun) := by
  unfold watchOnce
  split
  · trivial
  refine (allCalls_perform.mpr hprobe).bind fun clusters => ?_
  refine (AllCalls.each fun pool hp => ?_).bind fun _ => trivial
  rw [a.watchPool_eq clusters audit dryRun hp]
  refine (allCalls_driverCall (hlist pool hp)).bind fun listed => ?_
  refine (allCalls_applyTurn (poolDesired_subset _ _ _) haudit (fun h => hmark h pool hp) ?_ ?_).bind
    fun _ => allCalls_pure _ _
  · exact fun h ip hip => (hchange h pool hp ip hip).1
  · exact fun h ip hip => (hchange h pool hp ip (poolDesired_subset _ _ _ hip)).2

theorem allCalls_overridePool {action : OverrideAction} {nodeName ip : String}
    {confirm audit : Bool} {pool : Pool} (haudit : ∀ event, P (.audit event))
    (hlist : P (.driver (.listMembers pool.record)))
    (hmark : P (.driver (.ensureMarker pool.record)))
    (hcall : P (.driver (action.call pool ip))) :
    AllCalls (S := dnsSignature) P (overridePool action nodeName ip confirm audit pool) := by
  have happly : AllCalls (S := dnsSignature) P (applyOverride action ip pool) :=
    (allCalls_driverCall (P := P) hmark).bind fun _ =>
      (allCalls_driverCall (P := P) hcall).bind fun _ => allCalls_driverCall hlist
  refine (allCalls_driverCall (P := P) hlist).bind fun listed => ?_
  refine AllCalls.bind ?_ fun _ =>
    (allCalls_recordAudit (haudit _)).bind fun _ => allCalls_pure _ _
  unfold GateRequest.guard
  split
  · exact happly.map _
  · trivial

theorem allCalls_dnsOverride {fleet : Fleet} {action : OverrideAction} {nodeName : String}
    {record : Option String} {confirm audit : Bool}
    (hpool : ∀ found, fleet.findNode nodeName = some found →
      ∀ pool ∈ poolsForNode fleet nodeName record,
        AllCalls (S := dnsSignature) P
          (overridePool action nodeName found.2.2.host confirm audit pool)) :
    AllCalls (S := dnsSignature) P (dnsOverride fleet nodeName action record confirm audit) := by
  unfold dnsOverride
  cases hfound : fleet.findNode nodeName with
  | none => trivial
  | some found =>
      dsimp only
      split
      · trivial
      · exact (AllCalls.each fun pool hp => hpool found hfound pool hp).bind fun _ => trivial

end Footprint

theorem poolHosts_subset (fleet : Fleet) (pool : Pool) :
    poolHosts fleet pool ⊆ memberHosts fleet pool := by
  intro ip hip
  simp only [poolHosts, List.mem_toFinset, List.mem_filterMap] at hip
  obtain ⟨m, hm, hget⟩ := hip
  obtain ⟨node, hnode, rfl, rfl⟩ := mem_nodes_of_nodeIps hget
  simp only [memberHosts, List.mem_toFinset, List.mem_map, List.mem_filter, decide_eq_true_eq]
  exact ⟨node, ⟨hnode, hm⟩, rfl⟩

theorem watchOnce_inPools (a : AcceptedFleet) (audit dryRun : Bool) :
    AllCalls (S := dnsSignature) (DnsEffect.InPools a.fleet) (watchOnce a.fleet audit dryRun) := by
  refine allCalls_watchOnce a (inPools_of_unchanging fun _ _ => id)
    (fun _ => inPools_of_unchanging fun _ _ => id) (fun _ _ => inPools_of_unchanging fun _ _ => id)
    (fun _ _ _ => inPools_of_unchanging fun _ _ => id) fun _ pool hp ip hip => ⟨?_, ?_⟩
  all_goals
    rintro r x ⟨rfl, rfl⟩
    exact ⟨pool, hp, rfl, poolHosts_subset _ _ hip⟩

theorem dnsOverride_inPools (fleet : Fleet) (nodeName : String) (action : OverrideAction)
    (record : Option String) (confirm audit : Bool) :
    AllCalls (S := dnsSignature) (DnsEffect.InPools fleet)
      (dnsOverride fleet nodeName action record confirm audit) := by
  refine allCalls_dnsOverride fun found hfound pool hp => ?_
  obtain ⟨⟨hpool, hmember⟩, -⟩ := mem_poolsForNode.mp hp
  have hhost : found.2.2.host ∈ memberHosts fleet pool := by
    simp only [memberHosts, List.mem_toFinset, List.mem_map, List.mem_filter, decide_eq_true_eq]
    refine ⟨found.2.2, ⟨Fleet.findNode_mem_nodes hfound, ?_⟩, rfl⟩
    rwa [(Fleet.findNode_spec hfound).2.2]
  refine allCalls_overridePool (fun _ => inPools_of_unchanging fun _ _ => id)
    (inPools_of_unchanging fun _ _ => id) (inPools_of_unchanging fun _ _ => id) ?_
  intro r x hchange
  obtain ⟨rfl, rfl⟩ := action.changes_call hchange
  exact ⟨pool, hpool, rfl, hhost⟩

/-! ## Clients -/

inductive DnsRequest where
  | watch (audit dryRun : Bool)
  | eject (nodeName : String) (record : Option String) (confirm audit : Bool)
  | restore (nodeName : String) (record : Option String) (confirm audit : Bool)

def DnsRequest.program (fleet : Fleet) : DnsRequest → DnsProgram Unit
  | .watch audit dryRun => (fun _ => ()) <$> watchOnce fleet audit dryRun
  | .eject nodeName record confirm audit =>
      (fun _ => ()) <$> dnsEject fleet nodeName record confirm audit
  | .restore nodeName record confirm audit =>
      (fun _ => ()) <$> dnsRestore fleet nodeName record confirm audit

/-- A client issues its requests in turn; an exception ends only its own request. -/
def dnsClient (fleet : Fleet) (requests : List DnsRequest) : DnsProgram (List (Except Exn Unit)) :=
  each requests fun request => (request.program fleet).attempt

theorem DnsRequest.program_inPools (a : AcceptedFleet) (request : DnsRequest) :
    AllCalls (S := dnsSignature) (DnsEffect.InPools a.fleet) (request.program a.fleet) := by
  cases request with
  | watch audit dryRun => exact (watchOnce_inPools a audit dryRun).map _
  | eject nodeName record confirm audit => exact (dnsOverride_inPools _ _ _ _ _ _).map _
  | restore nodeName record confirm audit => exact (dnsOverride_inPools _ _ _ _ _ _).map _

/-- The presence of an address that no pool of the record owns never changes. -/
theorem foreign_address_untouched (D : LawfulDriver) (a : AcceptedFleet) {ι : Type}
    [DecidableEq ι] (requests : ι → List DnsRequest) (probes : Set (List ClusterStatus))
    (s : D.State) (c : Config dnsSignature Exn (List (Except Exn Unit)) D.State ι)
    (run : Interleaves (D.Answers True probes) ⟨fun i => dnsClient a.fleet (requests i), s⟩ c)
    (r ip : String)
    (foreign : ∀ pool ∈ a.fleet.pools, pool.record = r → ip ∉ memberHosts a.fleet pool) :
    ip ∈ D.members c.state r ↔ ip ∈ D.members s r := by
  have hclient : ∀ i, AllCalls (S := dnsSignature) (DnsEffect.InPools a.fleet)
      (dnsClient a.fleet (requests i)) :=
    fun i => AllCalls.each fun request _ => (request.program_inPools a).attempt
  refine AllCalls.interleaves (P := DnsEffect.InPools a.fleet)
    (R := fun b t => (ip ∈ D.members t r ↔ ip ∈ D.members b r)) (fun _ => Iff.rfl)
    (fun _ _ _ hab hbc => hbc.trans hab) ?_ hclient run
  intro b op answer t hop hstep
  refine D.mem_iff_of_answers (fun hchange => ?_) hstep
  obtain ⟨pool, hp, hr, hip⟩ := hop r ip hchange
  exact foreign pool hp hr hip

def pairRequests (i : Bool) : List DnsRequest :=
  if i then [.watch false false] else [.eject "b" none true false]

/-- A pass in which `a` fails runs to its end while an eject of `b` has not begun. -/
theorem foreign_address_untouched_pair :
    "9.9.9.9" ∈ inMemoryDnsDriver.members (exec (inMemoryDnsDriver.handler (probeWith ["b"]))
      (dnsClient pairFleet.fleet (pairRequests true))
        (pairState {"10.0.0.1", "9.9.9.9"})).final "rpc.example.com" ↔
      "9.9.9.9" ∈ inMemoryDnsDriver.members (pairState {"10.0.0.1", "9.9.9.9"})
        "rpc.example.com" := by
  have hagree : ∀ op s, inMemoryDnsDriver.Answers True Set.univ s op
      (inMemoryDnsDriver.handler (probeWith ["b"]) op s).1
      (inMemoryDnsDriver.handler (probeWith ["b"]) op s).2 :=
    inMemoryDnsDriver.handler_answers (Set.mem_univ _)
  have hreach := reaches_exec hagree (dnsClient pairFleet.fleet (pairRequests true))
    (pairState {"10.0.0.1", "9.9.9.9"})
  have hrun := Interleaves.client true (fun i => dnsClient pairFleet.fleet (pairRequests i)) hreach
  exact foreign_address_untouched inMemoryDnsDriver pairFleet pairRequests Set.univ _ _ hrun
    "rpc.example.com" "9.9.9.9" (by decide)

end Solfleet
