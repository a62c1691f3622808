import Solfleet.Failover.Foreign

/-! # What a pass restores

One boolean drives ejecting and restoring: a member is put back unless a condition is known
to be met. A condition whose data is missing therefore holds nobody back, and an address is
restored on what is known to be clear only where some member of that host is known clear.
-/

namespace Solfleet

open Interaction Program

/-! ## Conditions -/

/-- No enabled condition is known to be met. -/
structure Spared (ew : EjectWhen) (status : Option NodeStatus) : Prop where
  healthy : ew.unhealthy = true →
    ∃ s, status = some s ∧ s.reachable = true ∧ s.healthy ≠ some false
  caughtUp : ∀ limit lag, ew.slotLag = some limit → status.bind (·.slotLag) = some lag →
    lag ≤ limit
  voting : ew.delinquent = true → status.bind (·.delinquent) ≠ some true

/-- Every enabled condition is known not to be met. -/
structure KnownClear (ew : EjectWhen) (node : Node) (status : Option NodeStatus) : Prop where
  healthy : ew.unhealthy = true →
    ∃ s, status = some s ∧ s.reachable = true ∧ s.healthy = some true
  caughtUp : ∀ limit, ew.slotLag = some limit →
    ∃ lag, status.bind (·.slotLag) = some lag ∧ lag ≤ limit
  voting : ew.delinquent = true → Text.truthy node.identity = true →
    status.bind (·.delinquent) = some false

theorem shouldEject_eq_false_iff {status : Option NodeStatus} {ew : EjectWhen} :
    (shouldEject status ew).1 = false ↔ Spared ew status := by
  have hhealthy : (if ew.unhealthy = true ∧ status.all (fun s =>
        !s.reachable || s.healthy == some false) = true then ["unhealthy or unreachable"]
        else ([] : List String)) = [] ↔
      (ew.unhealthy = true → ∃ s, status = some s ∧ s.reachable = true ∧
        s.healthy ≠ some false) := by
    cases status with
    | none => simp
    | some s => simp
  have hvoting : (if ew.delinquent = true ∧ status.bind (·.delinquent) = some true then
        ["delinquent"] else ([] : List String)) = [] ↔
      (ew.delinquent = true → status.bind (·.delinquent) ≠ some true) := by
    simp
  simp only [shouldEject, decide_eq_false_iff_not, not_lt, Nat.le_zero_eq, List.length_eq_zero_iff,
    List.append_eq_nil_iff, hhealthy, hvoting]
  -- the lag speaks only where there is both a limit and a lag
  cases hlimit : ew.slotLag with
  | none =>
      constructor
      · intro h
        exact ⟨h.1.1, by simp [hlimit], h.2⟩
      · intro h
        exact ⟨⟨h.healthy, rfl⟩, h.voting⟩
  | some limit =>
      cases hlag : status.bind (·.slotLag) with
      | none =>
          constructor
          · intro h
            exact ⟨h.1.1, by simp [hlag], h.2⟩
          · intro h
            exact ⟨⟨h.healthy, rfl⟩, h.voting⟩
      | some lag =>
          by_cases hle : lag ≤ limit
          · constructor
            · intro h
              exact ⟨h.1.1, by simp [hlimit, hlag, hle], h.2⟩
            · intro h
              exact ⟨⟨h.healthy, if_neg (not_lt.mpr hle)⟩, h.voting⟩
          · constructor
            · intro h
              have hreason := (if_pos (not_le.mp hle)).symm.trans h.1.2
              exact nomatch hreason
            · intro h
              exact absurd (h.caughtUp limit lag hlimit hlag) hle

/-- Some member of the pool with this host is known to be clear. -/
def ClearMember (fleet : Fleet) (clusters : List ClusterStatus) (pool : Pool)
    (ip : String) : Prop :=
  ∃ node ∈ fleet.nodes, node.name ∈ pool.members ∧ node.host = ip ∧
    KnownClear pool.ejectWhen node ((statusByName clusters).get? node.name)

/-! ## Turns of a pass -/

def DnsEffect.lists : DnsEffect → Bool
  | .driver (.listMembers _) => true
  | _ => false

def DnsEffect.Adds (record ip : String) : DnsEffect → Prop
  | .driver (.addMember record' ip' _) => record' = record ∧ ip' = ip
  | _ => False

def recordReads (trace : List DnsEvent) : Nat := trace.countP fun event => event.op.lists

/-- Each turn reads its record once, so the reads tell whose turn it is. -/
def turnPool (pools : List Pool) (before : List DnsEvent) : Option Pool :=
  pools[recordReads before - 1]?

/-- Every address is added in the turn of a pool that has a clear member of that host. -/
def RestoresClear (fleet : Fleet) (clusters : List ClusterStatus) (trace : List DnsEvent) : Prop :=
  Along (fun before (event : DnsEvent) => ∀ record ip, event.op.Adds record ip →
    ∃ pool, turnPool fleet.pools before = some pool ∧ record = pool.record ∧
      ClearMember fleet clusters pool ip) trace

@[simp] theorem recordReads_nil : recordReads [] = 0 := rfl

@[simp] theorem recordReads_append (xs ys : List DnsEvent) :
    recordReads (xs ++ ys) = recordReads xs + recordReads ys :=
  List.countP_append

theorem recordReads_eq_zero {trace : List DnsEvent} (h : ∀ event ∈ trace, event.op.lists = false) :
    recordReads trace = 0 := by
  refine List.countP_eq_zero.mpr fun event he => ?_
  simp [h event he]

/-- Behind its read, a turn reads no more and adds only what the pool desires. -/
theorem AcceptedFleet.watchPool_steps (a : AcceptedFleet) (clusters : List ClusterStatus)
    (audit dryRun : Bool) {pool : Pool} (hp : pool ∈ a.fleet.pools) :
    ∃ rest : List String → DnsProgram PoolReport,
      watchPool (nodeIps a.fleet) (statusByName clusters) audit dryRun pool =
          (driverCall (.listMembers pool.record) >>= rest) ∧
        ∀ found, AllCalls (S := dnsSignature) (fun op => op.lists = false ∧
          ∀ record ip, op.Adds record ip →
            record = pool.record ∧ ip ∈ poolDesired a.fleet clusters pool) (rest found) := by
  refine ⟨_, a.watchPool_eq clusters audit dryRun hp, fun found => ?_⟩
  refine AllCalls.bind (allCalls_applyTurn (poolDesired_subset _ _ _) ?_ ?_ ?_ ?_) fun _ => trivial
  · exact fun _ => ⟨rfl, nofun⟩
  · exact fun _ => ⟨rfl, nofun⟩
  · exact fun _ _ _ => ⟨rfl, nofun⟩
  · rintro _ ip hip
    refine ⟨rfl, ?_⟩
    rintro _ _ ⟨rfl, rfl⟩
    exact ⟨rfl, hip⟩

/-- A turn that returns has read one record. -/
theorem AcceptedFleet.recordReads_watchPool (a : AcceptedFleet) {clusters : List ClusterStatus}
    {audit dryRun : Bool} {pool : Pool} (hp : pool ∈ a.fleet.pools) {trace : List DnsEvent}
    {report : PoolReport}
    (h : Runs (watchPool (nodeIps a.fleet) (statusByName clusters) audit dryRun pool) trace
      (.ok report)) : recordReads trace = 1 := by
  obtain ⟨rest, heq, hrest⟩ := a.watchPool_steps clusters audit dryRun hp
  rw [heq] at h
  obtain ⟨first, last, found, hfirst, hlast, rfl⟩ := runs_bind_ok_iff.mp h
  obtain rfl := runs_perform_iff.mp hfirst
  have hquiet := recordReads_eq_zero fun event he => (hlast.allCalls (hrest found) event he).1
  rw [recordReads_append, hquiet]
  rfl

theorem AcceptedFleet.follows_watchPool (a : AcceptedFleet) {clusters : List ClusterStatus}
    {audit dryRun : Bool} {pool : Pool} (hp : pool ∈ a.fleet.pools) :
    Follows (S := dnsSignature) (fun history op => ∀ record ip, op.Adds record ip →
      recordReads history = 1 ∧ record = pool.record ∧ ip ∈ poolDesired a.fleet clusters pool)
      (watchPool (nodeIps a.fleet) (statusByName clusters) audit dryRun pool) := by
  obtain ⟨rest, heq, hrest⟩ := a.watchPool_steps clusters audit dryRun hp
  rw [heq]
  refine Follows.bind ⟨nofun, fun _ => trivial⟩ fun first found hfirst => ?_
  obtain rfl := runs_perform_iff.mp hfirst
  refine (hrest found).follows fun history op hhistory hop record ip hadds => ?_
  have hquiet : recordReads history = 0 := recordReads_eq_zero fun event he => (hhistory event he).1
  rw [recordReads_append, hquiet]
  exact ⟨rfl, hop.2 record ip hadds⟩

/-- Over the turns of the pools behind `done`. -/
theorem AcceptedFleet.follows_turns (a : AcceptedFleet) {clusters : List ClusterStatus}
    {audit dryRun : Bool} (finished rest : List Pool)
    (hpools : ∀ pool ∈ rest, pool ∈ a.fleet.pools) :
    Follows (S := dnsSignature) (fun history op => ∀ record ip, op.Adds record ip →
      ∃ pool, (finished ++ rest)[finished.length + recordReads history - 1]? = some pool ∧
        record = pool.record ∧ ip ∈ poolDesired a.fleet clusters pool)
      (each rest (watchPool (nodeIps a.fleet) (statusByName clusters) audit dryRun)) := by
  induction rest generalizing finished with
  | nil => trivial
  | cons pool rest ih =>
      rw [each_cons]
      refine Follows.bind ?_ fun first report hfirst => ?_
      · refine (a.follows_watchPool (hpools pool (by simp))).mono
          fun history op h record ip hadds => ?_
        obtain ⟨hone, hrecord, hip⟩ := h record ip hadds
        exact ⟨pool, by simp [hone], hrecord, hip⟩
      · have hone := a.recordReads_watchPool (hpools pool (by simp)) hfirst
        refine Follows.bind ?_ fun _ _ _ => trivial
        refine (ih (finished ++ [pool]) fun p hp => hpools p (by simp [hp])).mono
          fun history op h record ip hadds => ?_
        obtain ⟨owner, howner, hrest⟩ := h record ip hadds
        refine ⟨owner, ?_, hrest⟩
        rw [recordReads_append, hone]
        simpa [Nat.add_assoc] using howner

/-- The probe that a run begins with found these clusters. -/
def ProbedAs (clusters : List ClusterStatus) (trace : List DnsEvent) : Prop :=
  ∀ (found : List ClusterStatus) (later : List DnsEvent),
    trace = ⟨.probe, .ok found⟩ :: later → found = clusters

theorem AcceptedFleet.follows_watchOnce (a : AcceptedFleet) (audit dryRun : Bool) :
    Follows (S := dnsSignature) (fun history op => ∀ record ip, op.Adds record ip →
      ∃ (clusters : List ClusterStatus) (later : List DnsEvent),
        history = ⟨.probe, .ok clusters⟩ :: later ∧
          ∃ pool, turnPool a.fleet.pools history = some pool ∧ record = pool.record ∧
            ip ∈ poolDesired a.fleet clusters pool)
      (watchOnce a.fleet audit dryRun) := by
  unfold watchOnce
  split
  · trivial
  refine Follows.bind ⟨nofun, fun _ => trivial⟩ fun first clusters hfirst => ?_
  obtain rfl := runs_perform_iff.mp hfirst
  refine Follows.bind ?_ fun _ _ _ => trivial
  refine (a.follows_turns [] a.fleet.pools fun _ hp => hp).mono
    fun history op h record ip hadds => ?_
  obtain ⟨pool, hpool, hrest⟩ := h record ip hadds
  have hprobe : recordReads ([⟨.probe, .ok clusters⟩] ++ history) = recordReads history := by
    rw [recordReads_append]
    exact Nat.zero_add _
  refine ⟨clusters, history, rfl, pool, ?_, hrest⟩
  rw [turnPool, hprobe]
  simpa using hpool

/-! ## With unique names -/

theorem mem_poolDesired_iff {fleet : Fleet} (unique : fleet.UniqueNames)
    {clusters : List ClusterStatus} {pool : Pool} {ip : String} :
    ip ∈ poolDesired fleet clusters pool ↔
      ∃ node ∈ fleet.nodes, node.name ∈ pool.members ∧ node.host = ip ∧
        Spared pool.ejectWhen ((statusByName clusters).get? node.name) := by
  simp only [poolDesired, List.mem_toFinset, List.mem_filterMap, List.mem_filter,
    Bool.not_eq_true', shouldEject_eq_false_iff]
  constructor
  · rintro ⟨m, ⟨hm, hspared⟩, hget⟩
    obtain ⟨node, hnode, rfl, rfl⟩ := mem_nodes_of_nodeIps hget
    exact ⟨node, hnode, hm, rfl, hspared⟩
  · rintro ⟨node, hnode, hm, rfl, hspared⟩
    exact ⟨node.name, ⟨hm, hspared⟩, (nodeIps_get?_iff unique).mpr ⟨node, hnode, rfl, rfl⟩⟩

/-! ## A pass that finds every record empty -/

theorem runs_adds (record : String) (ttl : Int) (ips : List String) :
    Runs (each ips fun ip => driverCall (.addMember record ip ttl))
      (ips.map fun ip => (⟨.driver (.addMember record ip ttl), .ok ()⟩ : DnsEvent))
      (.ok (ips.map fun _ => ())) := by
  induction ips with
  | nil => exact .done _
  | cons ip ips ih =>
      exact runs_each_cons_ok_iff.mpr ⟨_, _, (), _, runs_perform_iff.mpr rfl, ih, rfl, rfl⟩

/-- The turn of a pool whose record is empty adds all that the pool desires. -/
theorem AcceptedFleet.runs_watchPool_empty (a : AcceptedFleet) (clusters : List ClusterStatus)
    {pool : Pool} (hp : pool ∈ a.fleet.pools) :
    ∃ trace report,
      Runs (watchPool (nodeIps a.fleet) (statusByName clusters) false false pool) trace
        (.ok report) ∧
      ∀ ip ∈ poolDesired a.fleet clusters pool, ∃ before event after,
        trace = before ++ event :: after ∧ event.op.Adds pool.record ip ∧
          recordReads before = 1 := by
  let desired := poolDesired a.fleet clusters pool
  let read : DnsEvent := ⟨.driver (.listMembers pool.record), .ok []⟩
  let mark : DnsEvent := ⟨.driver (.ensureMarker pool.record), .ok ()⟩
  let add : String → DnsEvent := fun ip => ⟨.driver (.addMember pool.record ip pool.ttl), .ok ()⟩
  have hread : Runs (driverCall (.listMembers pool.record)) [read] (.ok []) :=
    runs_perform_iff.mpr rfl
  rw [a.watchPool_eq clusters false false hp]
  by_cases hempty : desired = ∅
  · have hturn : Runs (applyTurn false false pool (poolHosts a.fleet pool) desired
        (List.toFinset [])) [] (.ok ()) := by
      rw [applyTurn, if_pos hempty]
      exact .done _
    refine ⟨[read] ++ ([] ++ []), _, runs_bind_ok_iff.mpr ⟨_, _, _, hread,
      runs_bind_ok_iff.mpr ⟨_, _, _, hturn, .done _, rfl⟩, rfl⟩, fun ip hip => ?_⟩
    have hnone : ip ∈ desired := hip
    rw [hempty] at hnone
    exact (Finset.notMem_empty ip hnone).elim
  · have hadd : Reconcile.toAdd (List.toFinset []) desired = desired := by
      simp [Reconcile.toAdd]
    have hremove : Reconcile.toRemove (List.toFinset []) (poolHosts a.fleet pool) desired = ∅ := by
      simp [Reconcile.toRemove]
    have hturn : Runs (applyTurn false false pool (poolHosts a.fleet pool) desired
        (List.toFinset [])) ([mark] ++ ([] ++ ((sorted desired).map add ++ []))) (.ok ()) := by
      simp only [applyTurn, hadd, hremove, sorted_eq_nil_iff, hempty, and_false, if_false]
      refine runs_bind_ok_iff.mpr ⟨[mark], _, (), runs_perform_iff.mpr rfl, ?_, rfl⟩
      refine runs_bind_ok_iff.mpr ⟨[], _, [], .done _, ?_, rfl⟩
      exact runs_bind_ok_iff.mpr ⟨_, [], _, runs_adds .., .done _, rfl⟩
    refine ⟨[read] ++ (([mark] ++ ([] ++ ((sorted desired).map add ++ []))) ++ []), _,
      runs_bind_ok_iff.mpr ⟨_, _, _, hread, runs_bind_ok_iff.mpr ⟨_, _, _, hturn, .done _, rfl⟩,
        rfl⟩, fun ip hip => ?_⟩
    obtain ⟨earlier, later, hsplit⟩ := List.append_of_mem (mem_sorted.mpr hip)
    refine ⟨[read, mark] ++ earlier.map add, add ip, later.map add, ?_, ⟨rfl, rfl⟩, ?_⟩
    · rw [hsplit]
      simp
    · have hadds : recordReads (earlier.map add) = 0 := by
        refine recordReads_eq_zero fun event he => ?_
        obtain ⟨_, _, rfl⟩ := List.mem_map.mp he
        rfl
      rw [recordReads_append, hadds]
      rfl

/-- Turns of several pools that find their records empty. -/
theorem AcceptedFleet.runs_turns_empty (a : AcceptedFleet) (clusters : List ClusterStatus)
    {pools : List Pool} (hpools : ∀ pool ∈ pools, pool ∈ a.fleet.pools) :
    ∃ trace reports,
      Runs (each pools (watchPool (nodeIps a.fleet) (statusByName clusters) false false)) trace
        (.ok reports) ∧ recordReads trace = pools.length := by
  induction pools with
  | nil => exact ⟨[], [], .done _, rfl⟩
  | cons pool pools ih =>
      obtain ⟨rest, reports, hrest, hlisted⟩ := ih fun p hp => hpools p (by simp [hp])
      obtain ⟨first, report, hfirst, -⟩ := a.runs_watchPool_empty clusters (hpools pool (by simp))
      refine ⟨_, _, runs_each_cons_ok_iff.mpr
        ⟨first, rest, report, reports, hfirst, hrest, rfl, rfl⟩, ?_⟩
      rw [recordReads_append, hlisted, a.recordReads_watchPool (hpools pool (by simp)) hfirst,
        List.length_cons, Nat.add_comm]

/-- A pass over empty records adds, in the turn of each pool, all that the pool desires. -/
theorem AcceptedFleet.runs_watchOnce_empty (a : AcceptedFleet) (clusters : List ClusterStatus)
    {done rest : List Pool} {pool : Pool} (hpools : a.fleet.pools = done ++ pool :: rest) :
    ∃ trace report, Runs (watchOnce a.fleet false false) trace (.ok report) ∧
      ProbedAs clusters trace ∧
      ∀ ip ∈ poolDesired a.fleet clusters pool, ∃ before event after,
        trace = before ++ event :: after ∧ event.op.Adds pool.record ip ∧
          turnPool a.fleet.pools before = some pool := by
  have hmem : ∀ p ∈ done ++ pool :: rest, p ∈ a.fleet.pools := fun p hp => hpools ▸ hp
  obtain ⟨first, reports, hfirst, hlisted⟩ :=
    a.runs_turns_empty clusters fun p hp => hmem p (List.mem_append_left _ hp)
  obtain ⟨turn, report, hturn, hadds⟩ := a.runs_watchPool_empty clusters (hmem pool (by simp))
  have hrest : ∀ p ∈ rest, p ∈ a.fleet.pools := fun p hp => hmem p (by simp [hp])
  obtain ⟨last, reports', hlast, -⟩ := a.runs_turns_empty clusters hrest
  have hprobe : Runs probeFleet [⟨.probe, .ok clusters⟩] (.ok clusters) := runs_perform_iff.mpr rfl
  have hturns : Runs (each a.fleet.pools
      (watchPool (nodeIps a.fleet) (statusByName clusters) false false))
      (first ++ ((turn ++ last) ++ [])) (.ok (reports ++ report :: reports')) := by
    rw [hpools, each_append]
    exact runs_bind_ok_iff.mpr ⟨_, _, _, hfirst, runs_bind_ok_iff.mpr ⟨_, [], _,
      runs_each_cons_ok_iff.mpr ⟨_, _, _, _, hturn, hlast, rfl, rfl⟩, .done _, rfl⟩, rfl⟩
  have hne : a.fleet.pools ≠ [] := by
    simp [hpools]
  refine ⟨[⟨.probe, .ok clusters⟩] ++ ((first ++ ((turn ++ last) ++ [])) ++ []),
    { pools := reports ++ report :: reports' }, ?_, ?_, fun ip hip => ?_⟩
  · rw [watchOnce, if_neg hne]
    exact runs_bind_ok_iff.mpr ⟨_, _, _, hprobe, runs_bind_ok_iff.mpr ⟨_, _, _, hturns, .done _,
      rfl⟩, rfl⟩
  · intro found later htrace
    obtain ⟨hevent, _⟩ := List.cons.inj htrace
    exact (Except.ok.inj (eq_of_heq (Event.mk.inj hevent).2)).symm
  · obtain ⟨before, event, after, rfl, hevent, hone⟩ := hadds ip hip
    refine ⟨[⟨.probe, .ok clusters⟩] ++ (first ++ before), event, after ++ last, by simp, hevent,
      ?_⟩
    have hcount : recordReads ([⟨.probe, .ok clusters⟩] ++ (first ++ before)) =
        done.length + 1 := by
      rw [recordReads_append, recordReads_append, hlisted, hone]
      exact Nat.zero_add _
    rw [turnPool, hcount, hpools]
    simp

/-! ## A pool with a lag limit -/

def lagPool : Pool := { pairPool with ejectWhen := { slotLag := some 150 } }

def lagFleet : AcceptedFleet where
  fleet := { pairFleet.fleet with
    dns := some { provider := .cloudflare, zone := "z", pools := [lagPool] } }
  accepted := by decide

/-- The reference failed, so no lag is known. -/
def lagUnknown : List ClusterStatus :=
  [{ name := "mainnet"
     referenceRpc := "https://rpc"
     referenceError := some "reference rpc failed: connection refused"
     nodes := ["a", "b"].map fun n =>
       { name := n, cluster := "mainnet", role := .rpc, reachable := true,
         healthy := some true } }]

/-! ## Restored only when all clear -/

/-- Every run that probes these clusters restores clear members only exactly when each
member nothing is known against shares its host with one that is known to be clear. -/
theorem AcceptedFleet.restoresClear_iff (a : AcceptedFleet) (unique : a.fleet.UniqueNames)
    (clusters : List ClusterStatus) :
    (∀ audit dryRun trace result, Runs (watchOnce a.fleet audit dryRun) trace result →
      ProbedAs clusters trace → RestoresClear a.fleet clusters trace) ↔
    ∀ pool ∈ a.fleet.pools, ∀ node ∈ a.fleet.nodes, node.name ∈ pool.members →
      Spared pool.ejectWhen ((statusByName clusters).get? node.name) →
        ClearMember a.fleet clusters pool node.host := by
  constructor
  · intro h pool hpool node hnode hm hspared
    obtain ⟨done, rest, hpools⟩ := List.append_of_mem hpool
    obtain ⟨trace, report, hrun, hprobed, hadds⟩ := a.runs_watchOnce_empty clusters hpools
    have hdesired : node.host ∈ poolDesired a.fleet clusters pool :=
      (mem_poolDesired_iff unique).mpr ⟨node, hnode, hm, rfl, hspared⟩
    obtain ⟨before, event, after, htrace, hevent, hturn⟩ := hadds node.host hdesired
    obtain ⟨owner, howner, -, hclear⟩ :=
      h false false trace _ hrun hprobed before event after htrace _ _ hevent
    obtain rfl : pool = owner := Option.some_inj.mp (hturn.symm.trans howner)
    exact hclear
  · rintro h audit dryRun trace result hrun hprobed before event after rfl record ip hadds
    obtain ⟨found, later, rfl, pool, hturn, hrecord, hip⟩ :=
      hrun.follows (a.follows_watchOnce audit dryRun) rfl record ip hadds
    obtain rfl : found = clusters := hprobed found _ rfl
    obtain ⟨node, hnode, hm, rfl, hspared⟩ := (mem_poolDesired_iff unique).mp hip
    have hpool : pool ∈ a.fleet.pools := List.mem_of_getElem? hturn
    exact ⟨pool, hturn, hrecord, h pool hpool node hnode hm hspared⟩

theorem restoresClear_iff_lag :
    (∀ audit dryRun trace result, Runs (watchOnce lagFleet.fleet audit dryRun) trace result →
      ProbedAs lagUnknown trace → RestoresClear lagFleet.fleet lagUnknown trace) ↔
    ∀ pool ∈ lagFleet.fleet.pools, ∀ node ∈ lagFleet.fleet.nodes, node.name ∈ pool.members →
      Spared pool.ejectWhen ((statusByName lagUnknown).get? node.name) →
        ClearMember lagFleet.fleet lagUnknown pool node.host :=
  lagFleet.restoresClear_iff (by decide) lagUnknown

/-- With every lag unknown, both members are restored. -/
theorem unknown_lag_restored :
    ¬ ∀ (a : AcceptedFleet), a.fleet.UniqueNames → ∀ (clusters : List ClusterStatus) audit dryRun
      trace result, Runs (watchOnce a.fleet audit dryRun) trace result →
        ProbedAs clusters trace → RestoresClear a.fleet clusters trace := by
  intro h
  have hpools : lagFleet.fleet.pools = [] ++ lagPool :: [] := rfl
  obtain ⟨trace, report, hrun, hprobed, hadds⟩ := lagFleet.runs_watchOnce_empty lagUnknown hpools
  obtain ⟨before, event, after, htrace, hevent, hturn⟩ := hadds "10.0.0.1" (by decide)
  obtain ⟨owner, howner, -, node, hnode, -, -, hclear⟩ :=
    h lagFleet (by decide) lagUnknown false false trace _ hrun hprobed before event after htrace
      _ _ hevent
  obtain rfl : lagPool = owner := Option.some_inj.mp (hturn.symm.trans howner)
  obtain ⟨lag, hlag, -⟩ := hclear.caughtUp 150 rfl
  have hunknown : ∀ n ∈ lagFleet.fleet.nodes,
      ((statusByName lagUnknown).get? n.name).bind (·.slotLag) = none := by
    decide
  rw [hunknown node hnode] at hlag
  cases hlag

end Solfleet
