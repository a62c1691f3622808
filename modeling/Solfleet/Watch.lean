import Solfleet.Failover
import Solfleet.Library.Reconcile

/-! # The failover loop

`watchOnce` probes the fleet and then takes each pool in turn: read the record,
decide per member, and move the record towards the hosts of the members that are
not ejected. A pool whose members all fail is left as it is.
-/

namespace Solfleet

open Interaction Program

/-! ## Decisions -/

def shouldEject (status : Option NodeStatus) (ew : EjectWhen) : Bool × List String :=
  let unhealthy : List String :=
    if ew.unhealthy ∧ status.all fun s => !s.reachable || s.healthy == some false then
      ["unhealthy or unreachable"]
    else []
  let lagging : List String :=
    match ew.slotLag, status.bind (·.slotLag) with
    | some limit, some lag =>
        if limit < lag then ["slot_lag " ++ toString lag ++ " > " ++ toString limit] else []
    | _, _ => []
  let delinquent : List String :=
    if ew.delinquent ∧ (status.bind (·.delinquent)) = some true then ["delinquent"] else []
  let reasons := unhealthy ++ lagging ++ delinquent
  (decide (0 < reasons.length), reasons)

/-- `{n.name: n.host}` over the whole fleet: the last node of a name counts. -/
def nodeIps (fleet : Fleet) : Dict String String :=
  Dict.ofPairs (fleet.nodes.map fun n => (n.name, n.host))

/-- `{n.name: n}` over all probe results. -/
def statusByName (clusters : List ClusterStatus) : Dict String NodeStatus :=
  Dict.ofPairs ((clusters.flatMap (·.nodes)).map fun n => (n.name, n))

/-- Look every member up; an unknown name is a `KeyError`. -/
def resolveMembers (ips : Dict String String) :
    List String → Except Exn (List (String × String))
  | [] => .ok []
  | m :: ms =>
      match ips.get? m with
      | none => .error (.keyError m)
      | some ip =>
          match resolveMembers ips ms with
          | .error e => .error e
          | .ok rest => .ok ((m, ip) :: rest)

def memberDecision (statuses : Dict String NodeStatus) (pool : Pool) (m ip : String) : Decision :=
  let verdict := shouldEject (statuses.get? m) pool.ejectWhen
  ⟨ip, verdict.1, verdict.2⟩

/-! ## One pool -/

/-- The part of a pool's turn that follows the decisions: mark, remove, add. -/
def reconcilePool (audit : Bool) (pool : Pool) (toRemove toAdd : List String) :
    DnsProgram Unit := do
  driverCall (.ensureMarker pool.record)
  let _ ← each toRemove fun ip => driverCall (.removeMember pool.record ip)
  let _ ← each toAdd fun ip => driverCall (.addMember pool.record ip pool.ttl)
  recordAudit audit ⟨"dns_watch", pool.cluster, pool.record, .execute, true⟩

def poolReport (pool : Pool) (decisions : Dict String Decision)
    (memberIps desired current : Finset String) : PoolReport :=
  if desired = ∅ then
    { record := pool.record
      current := sorted current
      decisions
      isProtected := true
      note := some "all members failing; keeping current records to avoid NXDOMAIN"
      added := []
      removed := [] }
  else
    { record := pool.record
      current := sorted current
      decisions
      isProtected := false
      added := sorted (Reconcile.toAdd current desired)
      removed := sorted (Reconcile.toRemove current memberIps desired) }

/-- What a turn does besides reporting. -/
def applyTurn (audit dryRun : Bool) (pool : Pool) (memberIps desired current : Finset String) :
    DnsProgram Unit :=
  let toRemove := sorted (Reconcile.toRemove current memberIps desired)
  let toAdd := sorted (Reconcile.toAdd current desired)
  if desired = ∅ then
    -- last-member protection: keep whatever is serving
    recordAudit (audit && decide (current ≠ ∅))
      ⟨"dns_watch", pool.cluster, pool.record, if dryRun then .dryRun else .execute, true⟩
  else if toRemove = [] ∧ toAdd = [] then pure ()
  else if dryRun then pure ()
  else reconcilePool audit pool toRemove toAdd

/-- A turn by what it finds: a protected pool, a record that stays as it is, or one
that is moved to its target. -/
theorem applyTurn_eq {audit dryRun : Bool} {pool : Pool} {memberIps desired current : Finset String}
    (hsub : desired ⊆ memberIps) :
    applyTurn audit dryRun pool memberIps desired current =
      if desired = ∅ then
        recordAudit (audit && decide (current ≠ ∅))
          ⟨"dns_watch", pool.cluster, pool.record, if dryRun then .dryRun else .execute, true⟩
      else if Reconcile.target current memberIps desired = current ∨ dryRun = true then pure ()
      else
        reconcilePool audit pool (sorted (Reconcile.toRemove current memberIps desired))
          (sorted (Reconcile.toAdd current desired)) := by
  unfold applyTurn
  by_cases hne : desired = ∅
  · rw [if_pos hne, if_pos hne]
  · simp only [if_neg hne, sorted_eq_nil_iff, Reconcile.target_eq_self_iff hne hsub]
    by_cases hidle : Reconcile.toRemove current memberIps desired = ∅ ∧
        Reconcile.toAdd current desired = ∅
    · rw [if_pos hidle, if_pos (.inl hidle)]
    · simp only [hidle, if_false, false_or]

def watchPool (ips : Dict String String) (statuses : Dict String NodeStatus)
    (audit dryRun : Bool) (pool : Pool) : DnsProgram PoolReport := do
  let members ← Program.ofExcept (resolveMembers ips pool.members)
  let memberIps := (members.map (·.2)).toFinset
  let current := List.toFinset (← driverCall (.listMembers pool.record))
  let decisions := Dict.ofPairs (members.map fun p => (p.1, memberDecision statuses pool p.1 p.2))
  let desired :=
    ((members.filter fun p => !(memberDecision statuses pool p.1 p.2).eject).map (·.2)).toFinset
  applyTurn audit dryRun pool memberIps desired current
  pure (poolReport pool decisions memberIps desired current)

/-! ## One pass -/

def watchOnce (fleet : Fleet) (audit dryRun : Bool) : DnsProgram WatchReport :=
  if fleet.pools = [] then
    pure { pools := [], note := some "no dns pools configured" }
  else do
    let clusters ← probeFleet
    let reports ← each fleet.pools
      (watchPool (nodeIps fleet) (statusByName clusters) audit dryRun)
    pure { pools := reports }

/-- `iterations` rounds, with a pause between two of them. -/
def watchLoop (fleet : Fleet) (interval : Int) (audit dryRun notify : Bool) :
    Nat → DnsProgram Unit
  | 0 => pure ()
  | n + 1 => do
      let report ← watchOnce fleet audit dryRun
      if notify then perform (S := dnsSignature) (.onRound report) else pure ()
      if n = 0 then pure ()
      else do
        perform (S := dnsSignature) (.sleep interval)
        watchLoop fleet interval audit dryRun notify n

/-! ## The sets a turn works with -/

/-- The hosts `watchOnce` uses for the members of a pool. -/
def poolHosts (fleet : Fleet) (pool : Pool) : Finset String :=
  (pool.members.filterMap (nodeIps fleet).get?).toFinset

/-- The hosts of the members that are not ejected. -/
def poolDesired (fleet : Fleet) (clusters : List ClusterStatus) (pool : Pool) : Finset String :=
  ((pool.members.filter fun m =>
    !(shouldEject ((statusByName clusters).get? m) pool.ejectWhen).1).filterMap
      (nodeIps fleet).get?).toFinset

def poolDecisions (fleet : Fleet) (clusters : List ClusterStatus) (pool : Pool) :
    Dict String Decision :=
  Dict.ofPairs (pool.members.filterMap fun m => ((nodeIps fleet).get? m).map fun ip =>
    (m, memberDecision (statusByName clusters) pool m ip))

theorem poolDesired_subset (fleet : Fleet) (clusters : List ClusterStatus) (pool : Pool) :
    poolDesired fleet clusters pool ⊆ poolHosts fleet pool := by
  intro ip hip
  simp only [poolDesired, poolHosts, List.mem_toFinset, List.mem_filterMap,
    List.mem_filter] at hip ⊢
  obtain ⟨m, ⟨hm, -⟩, hget⟩ := hip
  exact ⟨m, hm, hget⟩

theorem mem_nodes_of_nodeIps {fleet : Fleet} {m ip : String}
    (h : (nodeIps fleet).get? m = some ip) :
    ∃ node ∈ fleet.nodes, node.name = m ∧ node.host = ip := by
  have hmem := Dict.mem_of_get?_ofPairs h
  simpa [Prod.ext_iff] using hmem

/-! ## Resolution of the members -/

theorem resolveMembers_eq {ips : Dict String String} {ms : List String}
    {members : List (String × String)} (h : resolveMembers ips ms = .ok members) :
    members = ms.filterMap fun m => (ips.get? m).map (Prod.mk m) := by
  induction ms generalizing members with
  | nil =>
      cases h
      rfl
  | cons m ms ih =>
      cases hip : ips.get? m with
      | none => simp [resolveMembers, hip] at h
      | some ip =>
          cases hrest : resolveMembers ips ms with
          | error e => simp [resolveMembers, hip, hrest] at h
          | ok rest =>
              obtain rfl : (m, ip) :: rest = members := by
                simpa [resolveMembers, hip, hrest] using h
              simp [hip, ← ih hrest]

theorem resolveMembers_ok {ips : Dict String String} {ms : List String}
    (h : ∀ m ∈ ms, (ips.get? m).isSome) : ∃ members, resolveMembers ips ms = .ok members := by
  induction ms with
  | nil => exact ⟨[], rfl⟩
  | cons m ms ih =>
      obtain ⟨ip, hip⟩ := Option.isSome_iff_exists.mp (h m (by simp))
      obtain ⟨rest, hrest⟩ := ih fun m' hm' => h m' (by simp [hm'])
      exact ⟨(m, ip) :: rest, by simp [resolveMembers, hip, hrest]⟩

theorem AcceptedFleet.resolveMembers_ok (a : AcceptedFleet) {pool : Pool}
    (hp : pool ∈ a.fleet.pools) :
    ∃ members, resolveMembers (nodeIps a.fleet) pool.members = .ok members := by
  refine Solfleet.resolveMembers_ok fun m hm => ?_
  obtain ⟨node, hnode, hname⟩ := a.member_mem_nodes hp hm
  rw [nodeIps, Dict.get?_ofPairs_isSome]
  simp only [List.map_map, List.mem_map, Function.comp_apply]
  exact ⟨node, hnode, hname⟩

/-- In an accepted fleet no lookup of a turn fails: it reads the record once and
goes on with the pool's own sets. -/
theorem AcceptedFleet.watchPool_eq (a : AcceptedFleet) (clusters : List ClusterStatus)
    (audit dryRun : Bool) {pool : Pool} (hp : pool ∈ a.fleet.pools) :
    watchPool (nodeIps a.fleet) (statusByName clusters) audit dryRun pool =
      (driverCall (.listMembers pool.record) >>= fun listed =>
        applyTurn audit dryRun pool (poolHosts a.fleet pool)
            (poolDesired a.fleet clusters pool) (List.toFinset listed) >>= fun _ =>
          pure (poolReport pool (poolDecisions a.fleet clusters pool) (poolHosts a.fleet pool)
            (poolDesired a.fleet clusters pool) (List.toFinset listed))) := by
  obtain ⟨members, hmembers⟩ := a.resolveMembers_ok hp
  have heq := resolveMembers_eq hmembers
  have hhosts : (members.map (·.2)).toFinset = poolHosts a.fleet pool := by
    simp [heq, poolHosts, List.map_filterMap, Function.comp_def]
  have hdecisions : Dict.ofPairs (members.map fun p =>
      (p.1, memberDecision (statusByName clusters) pool p.1 p.2)) =
        poolDecisions a.fleet clusters pool := by
    simp [heq, poolDecisions, List.map_filterMap, Function.comp_def]
  have hdesired : ((members.filter fun p =>
      !(memberDecision (statusByName clusters) pool p.1 p.2).eject).map (·.2)).toFinset =
        poolDesired a.fleet clusters pool := by
    ext ip
    simp only [heq, poolDesired, memberDecision, List.mem_toFinset, List.mem_map,
      List.mem_filter, List.mem_filterMap, Option.map_eq_some_iff]
    constructor
    · rintro ⟨_, ⟨⟨m, hm, found, hget, rfl⟩, hkeep⟩, rfl⟩
      exact ⟨m, ⟨hm, hkeep⟩, hget⟩
    · rintro ⟨m, ⟨hm, hkeep⟩, hget⟩
      exact ⟨(m, ip), ⟨⟨m, hm, ip, hget, rfl⟩, hkeep⟩, rfl⟩
  simp only [watchPool, hmembers, Program.ofExcept, done_ok_bind, hhosts, hdecisions, hdesired]

end Solfleet
