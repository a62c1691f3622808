import Solfleet.Failover.Overriding
import Solfleet.Library.Matched

/-! # Reading the pools back

`dnsStatus` lists the addresses of the managed records and maps each back to the name of a node.
Where names and hosts are told apart it shows of every record exactly what the passes and the
overrides have made of it.
-/

namespace Solfleet

open Interaction Program

structure MemberRow where
  ip : String
  node : String
  deriving DecidableEq

structure PoolStatus where
  record : String
  cluster : String
  ttl : Int
  marker : Bool
  members : List MemberRow
  configuredMembers : List String
  deriving DecidableEq

structure DnsStatus where
  pools : List PoolStatus
  note : Option String := none
  deriving DecidableEq

/-- `{n.host: n.name}` over the whole fleet: the last node of a host counts. -/
def ipToName (fleet : Fleet) : Dict String String :=
  Dict.ofPairs (fleet.nodes.map fun n => (n.host, n.name))

def memberRow (names : Dict String String) (ip : String) : MemberRow :=
  ⟨ip, (names.get? ip).getD "?"⟩

def poolStatus (names : Dict String String) (pool : Pool) : DnsProgram PoolStatus := do
  let members ← driverCall (.listMembers pool.record)
  let marker ← driverCall (.hasMarker pool.record)
  pure
    { record := pool.record
      cluster := pool.cluster
      ttl := pool.ttl
      marker
      members := List.map (memberRow names) members
      configuredMembers := pool.members }

/-- `if record and pool.record != record: continue` -/
def shownPools (fleet : Fleet) (record : Option String) : List Pool :=
  fleet.pools.filter fun pool => !(Text.truthy record && record != some pool.record)

def dnsStatus (fleet : Fleet) (record : Option String) : DnsProgram DnsStatus :=
  if fleet.pools = [] then
    pure { pools := [], note := some "no dns pools configured" }
  else do
    let pools ← each (shownPools fleet record) (poolStatus (ipToName fleet))
    pure { pools }

/-! ## What it shows -/

/-- The node is among the members listed. -/
def PoolStatus.Shows (status : PoolStatus) (nodeName : String) : Prop :=
  ∃ row ∈ status.members, row.node = nodeName

instance (status : PoolStatus) (nodeName : String) : Decidable (status.Shows nodeName) :=
  inferInstanceAs (Decidable (∃ row ∈ status.members, row.node = nodeName))

/-- Hosts tell the nodes of the fleet apart. -/
def Fleet.UniqueHosts (fleet : Fleet) : Prop := (fleet.nodes.map (·.host)).Nodup

instance (fleet : Fleet) : Decidable fleet.UniqueHosts := inferInstanceAs (Decidable (List.Nodup _))

theorem Fleet.UniqueHosts.eq_of_host {fleet : Fleet} (h : fleet.UniqueHosts) {a b : Node}
    (ha : a ∈ fleet.nodes) (hb : b ∈ fleet.nodes) (hhost : a.host = b.host) : a = b :=
  List.inj_on_of_nodup_map h ha hb hhost

/-- Names and hosts are unique, and no node is named like an address nobody knows. -/
structure Fleet.Legible (fleet : Fleet) : Prop where
  names : fleet.UniqueNames
  hosts : fleet.UniqueHosts
  named : ∀ node ∈ fleet.nodes, node.name ≠ "?"

instance (fleet : Fleet) : Decidable fleet.Legible :=
  decidable_of_iff (fleet.UniqueNames ∧ fleet.UniqueHosts ∧ ∀ node ∈ fleet.nodes, node.name ≠ "?")
    ⟨fun h => ⟨h.1, h.2.1, h.2.2⟩, fun h => ⟨h.names, h.hosts, h.named⟩⟩

section Legible

variable {fleet : Fleet} {node : Node} {pool : Pool}

theorem memberRow_node_iff (legible : fleet.Legible) (hnode : node ∈ fleet.nodes) (ip : String) :
    (memberRow (ipToName fleet) ip).node = node.name ↔ ip = node.host := by
  constructor
  · intro hname
    cases hget : (ipToName fleet).get? ip with
    | none =>
        rw [memberRow, hget] at hname
        exact absurd hname.symm (legible.named node hnode)
    | some name =>
        rw [memberRow, hget] at hname
        have hpair := Dict.mem_of_get?_ofPairs hget
        rcases List.mem_map.mp hpair with ⟨other, hother, heq⟩
        have hother_name : other.name = node.name := (congrArg Prod.snd heq).trans hname
        rw [← legible.names.eq_of_name hother hnode hother_name]
        exact (congrArg Prod.fst heq).symm
  · rintro rfl
    have hkeys : ((fleet.nodes.map fun n => (n.host, n.name)).map Prod.fst).Nodup := by
      rw [List.map_map]
      exact legible.hosts
    have hget : (ipToName fleet).get? node.host = some node.name :=
      Dict.get?_ofPairs_of_nodup hkeys (List.mem_map.mpr ⟨node, hnode, rfl⟩)
    rw [memberRow, hget]
    rfl

theorem host_mem_memberHosts_iff (legible : fleet.Legible) (hnode : node ∈ fleet.nodes) :
    node.host ∈ memberHosts fleet pool ↔ node.name ∈ pool.members := by
  simp only [memberHosts, List.mem_toFinset, List.mem_map, List.mem_filter, decide_eq_true_eq]
  constructor
  · rintro ⟨other, ⟨hother, hmember⟩, hhost⟩
    rwa [← legible.hosts.eq_of_host hother hnode hhost]
  · intro hmember
    exact ⟨node, ⟨hnode, hmember⟩, rfl⟩

theorem host_mem_keptHosts_iff (legible : fleet.Legible) (hnode : node ∈ fleet.nodes)
    (clusters : List ClusterStatus) :
    node.host ∈ keptHosts fleet clusters pool ↔ node.name ∈ pool.members ∧
      (shouldEject ((statusByName clusters).get? node.name) pool.ejectWhen).1 = false := by
  simp only [keptHosts, List.mem_toFinset, List.mem_map, List.mem_filter, Bool.and_eq_true,
    decide_eq_true_eq, Bool.not_eq_true']
  constructor
  · rintro ⟨other, ⟨hother, hkept⟩, hhost⟩
    rwa [← legible.hosts.eq_of_host hother hnode hhost]
  · intro hkept
    exact ⟨node, ⟨hnode, hkept⟩, rfl⟩

end Legible

/-! ## Reading is all it does -/

section Reads

variable {D : LawfulDriver} {clusters : List ClusterStatus} {s : D.State}

def LawfulDriver.poolStatus (D : LawfulDriver) (names : Dict String String) (s : D.State)
    (pool : Pool) : PoolStatus where
  record := pool.record
  cluster := pool.cluster
  ttl := pool.ttl
  marker := D.hasMarker s pool.record
  members := (D.listMembers s pool.record).map (memberRow names)
  configuredMembers := pool.members

theorem idles_poolStatus (names : Dict String String) (pool : Pool) :
    Idles D clusters (poolStatus names pool) s (D.poolStatus names s pool) := by
  have hmarker : Idles D clusters (driverCall (.hasMarker pool.record)) s
      (D.hasMarker s pool.record) := idles_perform rfl id
  exact (idles_listMembers pool.record).bind (hmarker.bind (idles_pure _))

theorem idles_dnsStatus (fleet : Fleet) (record : Option String) :
    Idles D clusters (dnsStatus fleet record) s
      ⟨(shownPools fleet record).map (D.poolStatus (ipToName fleet) s), passNote fleet⟩ := by
  have hturns : ∀ pools : List Pool, Idles D clusters
      (each pools (poolStatus (ipToName fleet))) s
      (pools.map (D.poolStatus (ipToName fleet) s)) := by
    intro pools
    induction pools with
    | nil => exact idles_pure []
    | cons pool pools ih =>
        rw [each_cons]
        exact (idles_poolStatus _ pool).bind (ih.bind (idles_pure _))
  unfold dnsStatus passNote
  by_cases hpools : fleet.pools = []
  · rw [if_pos hpools, if_pos hpools, shownPools, hpools]
    exact idles_pure _
  · rw [if_neg hpools, if_neg hpools]
    exact (hturns _).bind (idles_pure _)

/-- What is shown of a pool whose record holds these addresses. -/
structure PoolStatus.Of (entry : PoolStatus) (fleet : Fleet) (pool : Pool) (marked : Bool)
    (ips : Finset String) : Prop where
  record : entry.record = pool.record
  cluster : entry.cluster = pool.cluster
  ttl : entry.ttl = pool.ttl
  marker : entry.marker = marked
  configured : entry.configuredMembers = pool.members
  listed : (entry.members.map (·.ip)).toFinset = ips
  named : ∀ row ∈ entry.members, row.node = ((ipToName fleet).get? row.ip).getD "?"

/-- `dnsStatus` run in `left` shows the pools it is asked for, each with these addresses. -/
def ReadsBack (D : LawfulDriver) (fleet : Fleet) (filter : Option String) (left : D.State)
    (ips : Pool → Finset String) : Prop :=
  ∃ status, (exec (D.handler []) (dnsStatus fleet filter) left).result = .ok status ∧
    status.note = passNote fleet ∧
    List.Forall₂ (fun pool entry => entry.Of fleet pool (D.hasMarker left pool.record) (ips pool))
      (shownPools fleet filter) status.pools

theorem poolStatus_of (fleet : Fleet) (pool : Pool) :
    (D.poolStatus (ipToName fleet) s pool).Of fleet pool (D.hasMarker s pool.record)
      (D.members s pool.record) where
  record := rfl
  cluster := rfl
  ttl := rfl
  marker := rfl
  configured := rfl
  listed := by
    have hips : (D.poolStatus (ipToName fleet) s pool).members.map (·.ip) =
        D.listMembers s pool.record := by
      simp [LawfulDriver.poolStatus, memberRow, Function.comp_def]
    rw [hips]
    rfl
  named := by
    intro row hrow
    rcases List.mem_map.mp hrow with ⟨ip, -, rfl⟩
    rfl

/-- Reading shows what the records hold. -/
theorem readsBack_of_members {fleet : Fleet} {left : D.State} {ips : Pool → Finset String}
    (filter : Option String) (h : ∀ pool ∈ fleet.pools, D.members left pool.record = ips pool) :
    ReadsBack D fleet filter left ips := by
  have hidles : Idles D [] (dnsStatus fleet filter) left _ := idles_dnsStatus fleet filter
  refine ⟨_, hidles.result, rfl, ?_⟩
  rw [List.forall₂_map_right_iff, List.forall₂_same]
  intro pool hpool
  rw [← h pool (List.mem_of_mem_filter hpool)]
  exact poolStatus_of fleet pool

/-- Where names and hosts tell the nodes apart, a node is shown exactly if its host is. -/
theorem PoolStatus.Of.shows_iff {entry : PoolStatus} {fleet : Fleet} {pool : Pool} {marked : Bool}
    {ips : Finset String} (h : entry.Of fleet pool marked ips) (legible : fleet.Legible)
    {node : Node} (hnode : node ∈ fleet.nodes) : entry.Shows node.name ↔ node.host ∈ ips := by
  rw [← h.listed, List.mem_toFinset, List.mem_map]
  have hrow : ∀ row ∈ entry.members, row.node = node.name ↔ row.ip = node.host := by
    intro row hmem
    rw [h.named row hmem]
    exact memberRow_node_iff legible hnode row.ip
  constructor
  · rintro ⟨row, hmem, hname⟩
    exact ⟨row, hmem, (hrow row hmem).mp hname⟩
  · rintro ⟨row, hmem, hip⟩
    exact ⟨row, hmem, (hrow row hmem).mpr hip⟩

end Reads

/-! ## Reading back what the operations did -/

section Operations

variable (D : LawfulDriver) (a : AcceptedFleet) (clusters : List ClusterStatus) (audit : Bool)
  (s : D.State)

theorem members_after_override (unique : a.fleet.UniqueNames)
    (distinct : a.fleet.DistinctRecords) {node : Node}
    (hnode : node ∈ a.fleet.nodes) (action : OverrideAction) (record : Option String) {pool : Pool}
    (hp : pool ∈ a.fleet.pools) :
    D.members (D.after clusters (dnsOverride a.fleet node.name action record true audit) s)
        pool.record =
      if pool ∈ poolsForNode a.fleet node.name record then
        overrideAim action node.host true (D.members s pool.record)
      else D.members s pool.record := by
  rcases unique.exists_findNode hnode with ⟨clusterName, cluster, hfound⟩
  have hmembers := after_members D clusters ⟨node.name, action, record, true, audit⟩ hfound s
    pool.record
  have hrecord : pool.record ∈ (poolsForNode a.fleet node.name record).map (·.record) ↔
      pool ∈ poolsForNode a.fleet node.name record := by
    constructor
    · intro hmem
      rcases List.mem_map.mp hmem with ⟨other, hother, heq⟩
      have hin : other ∈ a.fleet.pools := (mem_poolsForNode.mp hother).1.1
      rwa [← List.inj_on_of_nodup_map distinct hin hp heq]
    · intro hmem
      exact List.mem_map.mpr ⟨pool, hmem, rfl⟩
  simp only [hrecord] at hmembers
  exact hmembers

theorem members_after_pass (unique : a.fleet.UniqueNames)
    (distinct : a.fleet.DistinctRecords) {pool : Pool}
    (hp : pool ∈ a.fleet.pools) :
    D.members (exec (D.handler clusters) (watchOnce a.fleet audit false) s).final pool.record =
      Reconcile.target (D.members s pool.record) (memberHosts a.fleet pool)
        (keptHosts a.fleet clusters pool) := by
  have hpass : Leaves D clusters (watchOnce a.fleet audit false) s _ _ := leaves_watchOnce a audit
  have hview := congrFun (congrArg DnsView.members hpass.view) pool.record
  rwa [(DnsView.foldl_turn_of_mem a.fleet clusters (D.view s) distinct hp).1, DnsView.goal,
    poolHosts_eq unique, poolDesired_eq unique, D.view_members, D.view_members] at hview

/-- After an eject, a restore or a pass over all pools, `dnsStatus` shows of every pool what is
configured for it, the marker as it is, and the record as the operation made it, each address with
the name of the last node there. Where names and hosts tell the nodes apart, that is each node's own
name, and the hosts a pass wants are those of the members it does not eject. -/
theorem dnsStatus_reads_back (unique : a.fleet.UniqueNames)
    (distinct : a.fleet.DistinctRecords) (filter : Option String) :
    (∀ node ∈ a.fleet.nodes, ∀ record,
      (ReadsBack D a.fleet filter
          (D.after clusters (dnsEject a.fleet node.name record true audit) s)
        fun pool =>
          if pool ∈ poolsForNode a.fleet node.name record ∧
              D.members s pool.record ≠ {node.host} then
            (D.members s pool.record).erase node.host
          else D.members s pool.record) ∧
      ReadsBack D a.fleet filter
          (D.after clusters (dnsRestore a.fleet node.name record true audit) s)
        fun pool =>
          if pool ∈ poolsForNode a.fleet node.name record then
            insert node.host (D.members s pool.record)
          else D.members s pool.record) ∧
    (ReadsBack D a.fleet filter (exec (D.handler clusters) (watchOnce a.fleet audit false) s).final
      fun pool => Reconcile.target (D.members s pool.record) (memberHosts a.fleet pool)
        (keptHosts a.fleet clusters pool)) ∧
    (a.fleet.Legible → ∀ node ∈ a.fleet.nodes, ∀ pool,
      (∀ marked ips, ∀ entry : PoolStatus, entry.Of a.fleet pool marked ips →
        (entry.Shows node.name ↔ node.host ∈ ips)) ∧
      (node.host ∈ memberHosts a.fleet pool ↔ node.name ∈ pool.members) ∧
      (node.host ∈ keptHosts a.fleet clusters pool ↔ node.name ∈ pool.members ∧
        (shouldEject ((statusByName clusters).get? node.name) pool.ejectWhen).1 = false)) := by
  refine ⟨fun node hnode record => ⟨?_, ?_⟩, ?_, fun legible node hnode pool =>
    ⟨fun marked ips entry h => h.shows_iff legible hnode, host_mem_memberHosts_iff legible hnode,
      host_mem_keptHosts_iff legible hnode clusters⟩⟩
  · refine readsBack_of_members filter fun pool hp => ?_
    rw [dnsEject, members_after_override D a clusters audit s unique distinct hnode .eject record
      hp, overrideAim_eject]
    by_cases hin : pool ∈ poolsForNode a.fleet node.name record
    · by_cases hlast : D.members s pool.record = {node.host}
      · simp [hlast]
      · simp [hin, hlast]
    · simp [hin]
  · refine readsBack_of_members filter fun pool hp => ?_
    rw [dnsRestore, members_after_override D a clusters audit s unique distinct hnode .restore
      record hp, overrideAim_restore]
  · exact readsBack_of_members filter fun pool hp =>
      members_after_pass D a clusters audit s unique distinct hp

end Operations

/-- Node `a` is ejected by hand while `b` keeps serving: `b` alone is shown. -/
theorem dnsStatus_reads_back_pair :
    ∃ status : DnsStatus, (exec (inMemoryDnsDriver.handler [])
        (dnsStatus pairFleet.fleet none) (inMemoryDnsDriver.after [] (dnsEject pairFleet.fleet "a"
          none true false) (pairState {"10.0.0.1", "10.0.0.2"}))).result = .ok status ∧
      ∃ entry ∈ status.pools, ¬ entry.Shows "a" ∧ entry.Shows "b" := by
  have hall := dnsStatus_reads_back inMemoryDnsDriver pairFleet [] false
    (pairState {"10.0.0.1", "10.0.0.2"}) (by decide) (by decide) none
  rcases hall with ⟨hoverride, -, hshows⟩
  let node (name host url : String) : Node :=
    { name := name, role := .rpc, host := host, rpcUrl := some url }
  have ha : node "a" "10.0.0.1" "http://a" ∈ pairFleet.fleet.nodes := by decide
  have hb : node "b" "10.0.0.2" "http://b" ∈ pairFleet.fleet.nodes := by decide
  rcases (hoverride _ ha none).1 with ⟨status, hresult, -, hentries⟩
  rcases forall₂_exists_right hentries (by decide : pairPool ∈ _) with ⟨entry, hentry, hof⟩
  refine ⟨status, hresult, entry, hentry, ?_, ?_⟩
  · exact ((hshows (by decide) _ ha pairPool).1 _ _ entry hof).not.mpr (by decide)
  · exact ((hshows (by decide) _ hb pairPool).1 _ _ entry hof).mpr (by decide)

end Solfleet
