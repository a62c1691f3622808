import Mathlib.Data.List.Forall2
import Solfleet.Watch

/-! # The reconcile law

A pass seen through the A sets and the markers it leaves. `DnsView.turn` is what
one pool's turn is for; the turn of the code refines it, and a completed pass is
the fold of its turns.
-/

namespace Solfleet

open Interaction Program

/-! ## The view of a driver state -/

/-- What a driver state says about every record. -/
@[ext] structure DnsView where
  members : String → Finset String
  marked : String → Bool

def LawfulDriver.view (D : LawfulDriver) (s : D.State) : DnsView := ⟨D.members s, D.hasMarker s⟩

theorem LawfulDriver.view_members (D : LawfulDriver) (s : D.State) :
    (D.view s).members = D.members s := rfl

namespace DnsView

variable (fleet : Fleet) (clusters : List ClusterStatus)

/-- The set a record is to have after a pool's turn. -/
def goal (v : DnsView) (pool : Pool) : Finset String :=
  Reconcile.target (v.members pool.record) (poolHosts fleet pool) (poolDesired fleet clusters pool)

/-- One turn moves its record to the goal, marking it when that changes it. -/
def turn (v : DnsView) (pool : Pool) : DnsView where
  members := Function.update v.members pool.record (v.goal fleet clusters pool)
  marked :=
    if v.goal fleet clusters pool = v.members pool.record then v.marked
    else Function.update v.marked pool.record true

def report (v : DnsView) (pool : Pool) : PoolReport :=
  poolReport pool (poolDecisions fleet clusters pool) (poolHosts fleet pool)
    (poolDesired fleet clusters pool) (v.members pool.record)

/-- The reports of consecutive turns, each of the records it finds. -/
def reports (v : DnsView) : List Pool → List PoolReport
  | [] => []
  | pool :: pools => v.report fleet clusters pool :: (v.turn fleet clusters pool).reports pools

variable {fleet clusters} {v : DnsView} {pool : Pool} {pools : List Pool} {r : String}

@[simp] theorem turn_members_self :
    (v.turn fleet clusters pool).members pool.record = v.goal fleet clusters pool := by
  simp [turn]

@[simp] theorem turn_members_of_ne (h : r ≠ pool.record) :
    (v.turn fleet clusters pool).members r = v.members r := by
  simp [turn, h]

@[simp] theorem turn_marked_of_ne (h : r ≠ pool.record) :
    (v.turn fleet clusters pool).marked r = v.marked r := by
  unfold turn
  split <;> simp [h]

theorem turn_marked_of_changed
    (h : v.goal fleet clusters pool ≠ v.members pool.record) :
    (v.turn fleet clusters pool).marked pool.record = true := by
  simp [turn, h]

/-- A report depends on the record alone. -/
theorem report_congr {v w : DnsView} (h : v.members pool.record = w.members pool.record) :
    v.report fleet clusters pool = w.report fleet clusters pool := by
  simp [report, h]

theorem goal_congr {v w : DnsView} (h : v.members pool.record = w.members pool.record) :
    v.goal fleet clusters pool = w.goal fleet clusters pool := by
  simp [goal, h]

variable (fleet clusters v) in
theorem foldl_turn_of_notMem (h : r ∉ pools.map (·.record)) :
    (pools.foldl (turn fleet clusters) v).members r = v.members r ∧
      (pools.foldl (turn fleet clusters) v).marked r = v.marked r := by
  induction pools generalizing v with
  | nil => exact ⟨rfl, rfl⟩
  | cons pool pools ih =>
      simp only [List.map_cons, List.mem_cons, not_or] at h
      obtain ⟨hm, hk⟩ := ih (v.turn fleet clusters pool) h.2
      exact ⟨by simp [hm, h.1], by simp [hk, h.1]⟩

/-- With distinct records every turn finds its record as the pass found it. -/
theorem reports_eq_map (h : (pools.map (·.record)).Nodup) :
    v.reports fleet clusters pools = pools.map (v.report fleet clusters) := by
  induction pools generalizing v with
  | nil => rfl
  | cons pool pools ih =>
      obtain ⟨hne, hrest⟩ := List.nodup_cons.mp h
      rw [reports, ih hrest, List.map_cons]
      refine congrArg _ (List.map_congr_left fun q hq => report_congr ?_)
      exact turn_members_of_ne fun heq => hne (List.mem_map.mpr ⟨q, hq, heq⟩)

variable (fleet clusters v) in
theorem foldl_turn_of_mem (h : (pools.map (·.record)).Nodup) (hp : pool ∈ pools) :
    (pools.foldl (turn fleet clusters) v).members pool.record = v.goal fleet clusters pool ∧
      (v.goal fleet clusters pool ≠ v.members pool.record →
        (pools.foldl (turn fleet clusters) v).marked pool.record = true) := by
  induction pools generalizing v with
  | nil => simp at hp
  | cons q pools ih =>
      obtain ⟨hne, hrest⟩ := List.nodup_cons.mp h
      rcases List.mem_cons.mp hp with rfl | hp
      · obtain ⟨hm, hk⟩ := foldl_turn_of_notMem fleet clusters
          (v.turn fleet clusters pool) hne
        simp only [List.foldl_cons, hm, hk, turn_members_self, true_and]
        exact turn_marked_of_changed
      · have hqp : pool.record ≠ q.record := fun heq => hne (List.mem_map.mpr ⟨pool, hp, heq⟩)
        have hsame : (v.turn fleet clusters q).members pool.record = v.members pool.record :=
          turn_members_of_ne hqp
        have hih := ih (v.turn fleet clusters q) hrest hp
        rwa [goal_congr hsame, hsame] at hih

variable (fleet clusters v pool) in
/-- What a report says, in terms of the record before and after its turn. -/
theorem report_added_removed :
    (v.report fleet clusters pool).added =
        sorted (v.goal fleet clusters pool \ v.members pool.record) ∧
      (v.report fleet clusters pool).removed =
        sorted (v.members pool.record \ v.goal fleet clusters pool) := by
  by_cases hne : poolDesired fleet clusters pool = ∅
  · simp [report, poolReport, goal, hne]
  · simp [report, poolReport, goal, hne, Reconcile.target_sdiff_current hne,
      Reconcile.current_sdiff_target hne]

theorem goal_idempotent {w : DnsView}
    (h : w.members pool.record = v.goal fleet clusters pool) :
    w.goal fleet clusters pool = w.members pool.record := by
  by_cases hne : poolDesired fleet clusters pool = ∅
  · simp [goal, hne]
  · unfold goal
    rw [Reconcile.target_eq_self_iff hne (poolDesired_subset fleet clusters pool), h]
    exact ⟨Reconcile.toRemove_target hne, Reconcile.toAdd_target hne⟩

end DnsView

/-! ## What a program leaves behind -/

/-- Executed from `s` with every call answered, `p` returns `value` and leaves
the records as `w`. -/
structure Leaves (D : LawfulDriver) (clusters : List ClusterStatus) {α : Type}
    (p : DnsProgram α) (s : D.State) (value : α) (w : DnsView) : Prop where
  result : (exec (D.handler clusters) p s).result = .ok value
  view : D.view (exec (D.handler clusters) p s).final = w

section Leaves

variable {D : LawfulDriver} {clusters : List ClusterStatus} {α β : Type} {s : D.State}

theorem leaves_pure {w : DnsView} (value : α) (h : D.view s = w) :
    Leaves D clusters (pure value) s value w := ⟨rfl, h⟩

theorem Leaves.bind {p : DnsProgram α} {f : α → DnsProgram β} {a : α} {b : β} {v w : DnsView}
    (hp : Leaves D clusters p s a v)
    (hf : ∀ t, D.view t = v → Leaves D clusters (f a) t b w) :
    Leaves D clusters (p >>= f) s b w := by
  have hrest := hf _ hp.view
  constructor
  · rw [exec_bind_ok hp.result]
    exact hrest.result
  · rw [exec_bind_ok hp.result]
    exact hrest.view

theorem leaves_driverCall (c : DriverCall) :
    Leaves D clusters (driverCall c) s (D.perform s c).1 (D.view (D.perform s c).2) := ⟨rfl, rfl⟩

theorem leaves_recordAudit (audit : Bool) (event : AuditEvent) :
    Leaves D clusters (recordAudit audit event) s () (D.view s) := by
  cases audit <;> exact ⟨rfl, rfl⟩

/-- A loop of removals takes its addresses out of the record. -/
theorem leaves_removals {v : DnsView} (record : String) (ips : List String)
    (hv : D.view s = v) :
    Leaves D clusters (each ips fun ip => driverCall (.removeMember record ip)) s
      (ips.map fun _ => ())
      ⟨Function.update v.members record (v.members record \ ips.toFinset), v.marked⟩ := by
  subst hv
  induction ips generalizing s with
  | nil => exact leaves_pure [] (by simp)
  | cons ip ips ih =>
      refine (leaves_driverCall (.removeMember record ip)).bind fun t ht => ?_
      refine (ih (s := t)).bind fun u hu => leaves_pure _ (hu.trans ?_)
      rw [ht]
      simp [DnsDriver.perform, LawfulDriver.view, D.members_remove, D.marker_remove,
        Finset.sdiff_insert, Finset.erase_sdiff_comm]

/-- A loop of additions puts its addresses into the record. -/
theorem leaves_additions {v : DnsView} (record : String) (ttl : Int) (ips : List String)
    (hv : D.view s = v) :
    Leaves D clusters (each ips fun ip => driverCall (.addMember record ip ttl)) s
      (ips.map fun _ => ())
      ⟨Function.update v.members record (v.members record ∪ ips.toFinset), v.marked⟩ := by
  subst hv
  induction ips generalizing s with
  | nil => exact leaves_pure [] (by simp)
  | cons ip ips ih =>
      refine (leaves_driverCall (.addMember record ip ttl)).bind fun t ht => ?_
      refine (ih (s := t)).bind fun u hu => leaves_pure _ (hu.trans ?_)
      rw [ht]
      simp [DnsDriver.perform, LawfulDriver.view, D.members_add, D.marker_add, Finset.insert_union]

/-- Mark, remove and add: the record moves from its current set to the goal. -/
theorem leaves_reconcilePool {v : DnsView} (audit : Bool) (pool : Pool)
    (toRemove toAdd : List String)
    (hv : D.view s = v) :
    Leaves D clusters (reconcilePool audit pool toRemove toAdd) s ()
      ⟨Function.update v.members pool.record
          ((v.members pool.record \ toRemove.toFinset) ∪ toAdd.toFinset),
        Function.update v.marked pool.record true⟩ := by
  subst hv
  refine (leaves_driverCall (.ensureMarker pool.record)).bind fun t ht => ?_
  refine (leaves_removals pool.record toRemove ht).bind fun u hu => ?_
  refine (leaves_additions pool.record pool.ttl toAdd hu).bind fun x hx => ?_
  have haudit : Leaves D clusters (recordAudit audit
      ⟨"dns_watch", pool.cluster, pool.record, .execute, true⟩) x () (D.view x) :=
    leaves_recordAudit _ _
  refine ⟨haudit.result, haudit.view.trans (hx.trans ?_)⟩
  simp [DnsDriver.perform, LawfulDriver.view, D.members_ensure, D.marker_ensure]

end Leaves

/-! ## Turns and passes -/

section Pass

variable {D : LawfulDriver} {clusters : List ClusterStatus} {s : D.State}

/-- The part of a turn behind the reading of the record refines `DnsView.turn`. -/
theorem leaves_applyTurn {fleet : Fleet} {v : DnsView} (audit : Bool) (pool : Pool)
    (hv : D.view s = v) :
    Leaves D clusters
      (applyTurn audit false pool (poolHosts fleet pool) (poolDesired fleet clusters pool)
        (v.members pool.record)) s () (v.turn fleet clusters pool) := by
  subst hv
  have hsub := poolDesired_subset fleet clusters pool
  rw [applyTurn_eq hsub]
  by_cases hne : poolDesired fleet clusters pool = ∅
  · have hturn : (D.view s).turn fleet clusters pool = D.view s := by
      simp [DnsView.turn, DnsView.goal, hne]
    rw [if_pos hne, hturn]
    exact leaves_recordAudit _ _
  rw [if_neg hne]
  by_cases hidle : Reconcile.target ((D.view s).members pool.record) (poolHosts fleet pool)
      (poolDesired fleet clusters pool) = (D.view s).members pool.record
  · rw [if_pos (.inl hidle)]
    exact leaves_pure () (by simp [DnsView.turn, DnsView.goal, hidle])
  · rw [if_neg (not_or.mpr ⟨hidle, Bool.false_ne_true⟩)]
    have hdone : Leaves D clusters (reconcilePool audit pool
        (sorted (Reconcile.toRemove ((D.view s).members pool.record) (poolHosts fleet pool)
          (poolDesired fleet clusters pool)))
        (sorted (Reconcile.toAdd ((D.view s).members pool.record)
          (poolDesired fleet clusters pool)))) s () _ :=
      leaves_reconcilePool audit pool _ _ rfl
    refine ⟨hdone.result, hdone.view.trans ?_⟩
    have hchanged : (D.view s).goal fleet clusters pool ≠ (D.view s).members pool.record := hidle
    rw [DnsView.turn, if_neg hchanged, toFinset_sorted, toFinset_sorted,
      Reconcile.sdiff_toRemove_union_toAdd hsub, ← Reconcile.target_of_ne hne, DnsView.goal]

theorem leaves_watchPool (a : AcceptedFleet) {v : DnsView} (audit : Bool) {pool : Pool}
    (hp : pool ∈ a.fleet.pools) (hv : D.view s = v) :
    Leaves D clusters (watchPool (nodeIps a.fleet) (statusByName clusters) audit false pool) s
      (v.report a.fleet clusters pool) (v.turn a.fleet clusters pool) := by
  rw [a.watchPool_eq clusters audit false hp]
  refine (leaves_driverCall (.listMembers pool.record)).bind fun t ht => ?_
  subst hv
  refine (leaves_applyTurn (s := t) audit pool ht).bind fun u hu => leaves_pure _ hu

/-- The run lemma: a list of turns folds `DnsView.turn`. -/
theorem leaves_each_watchPool (a : AcceptedFleet) (audit : Bool) {pools : List Pool}
    (hpools : ∀ pool ∈ pools, pool ∈ a.fleet.pools) {v : DnsView} (hv : D.view s = v) :
    Leaves D clusters
      (each pools (watchPool (nodeIps a.fleet) (statusByName clusters) audit false)) s
      (v.reports a.fleet clusters pools) (pools.foldl (DnsView.turn a.fleet clusters) v) := by
  induction pools generalizing s v with
  | nil => exact leaves_pure [] hv
  | cons pool pools ih =>
      refine (leaves_watchPool a audit (hpools pool (by simp)) hv).bind fun t ht => ?_
      refine (ih (fun q hq => hpools q (by simp [hq])) ht).bind fun u hu => ?_
      exact leaves_pure _ hu

/-- The note of a pass that had nothing to do. -/
def passNote (fleet : Fleet) : Option String :=
  if fleet.pools = [] then some "no dns pools configured" else none

theorem leaves_watchOnce (a : AcceptedFleet) (audit : Bool) :
    Leaves D clusters (watchOnce a.fleet audit false) s
      ⟨(D.view s).reports a.fleet clusters a.fleet.pools, passNote a.fleet⟩
      (a.fleet.pools.foldl (DnsView.turn a.fleet clusters) (D.view s)) := by
  unfold watchOnce passNote
  by_cases hpools : a.fleet.pools = []
  · rw [if_pos hpools, if_pos hpools, hpools]
    exact leaves_pure _ rfl
  · rw [if_neg hpools, if_neg hpools]
    have hprobe : Leaves D clusters probeFleet s clusters (D.view s) := ⟨rfl, rfl⟩
    refine hprobe.bind fun t ht => ?_
    exact (leaves_each_watchPool a audit (fun _ h => h) ht).bind fun u hu => leaves_pure _ hu

/-! ## Passes that change nothing -/

/-- Executed from `s`, `p` returns `value` without a mutating call. -/
structure Idles (D : LawfulDriver) (clusters : List ClusterStatus) {α : Type}
    (p : DnsProgram α) (s : D.State) (value : α) : Prop where
  result : (exec (D.handler clusters) p s).result = .ok value
  final : (exec (D.handler clusters) p s).final = s
  quiet : ∀ event ∈ (exec (D.handler clusters) p s).trace, ¬ DnsEvent.Mutates event

theorem idles_pure {α : Type} (value : α) : Idles D clusters (pure value) s value :=
  ⟨rfl, rfl, by simp⟩

theorem Idles.bind {α β : Type} {p : DnsProgram α} {f : α → DnsProgram β} {a : α} {b : β}
    (hp : Idles D clusters p s a) (hf : Idles D clusters (f a) s b) :
    Idles D clusters (p >>= f) s b := by
  have heq := exec_bind_ok (f := f) hp.result
  simp only [hp.final] at heq
  refine ⟨?_, ?_, fun event hevent => ?_⟩
  · rw [heq]
    exact hf.result
  · rw [heq]
    exact hf.final
  · rw [heq, List.mem_append] at hevent
    exact hevent.elim (hp.quiet event) (hf.quiet event)

theorem idles_perform {op : DnsEffect} {answer : op.Answer}
    (h : D.handler clusters op s = (.ok answer, s))
    (hquiet : ¬ DnsEvent.Mutates ⟨op, .ok answer⟩) :
    Idles D clusters (perform (S := dnsSignature) op) s answer := by
  refine ⟨by rw [exec_perform, h], by rw [exec_perform, h], ?_⟩
  rw [exec_perform, h]
  simpa using hquiet

theorem idles_recordAudit (audit : Bool) (event : AuditEvent) :
    Idles D clusters (recordAudit audit event) s () := by
  cases audit with
  | false => exact idles_pure ()
  | true => exact idles_perform rfl id

theorem idles_listMembers (record : String) :
    Idles D clusters (driverCall (.listMembers record)) s (D.listMembers s record) :=
  idles_perform rfl id

/-- A turn is idle in a dry run, and whenever its record is already at the goal. -/
theorem idles_applyTurn {fleet : Fleet} (audit dryRun : Bool) (pool : Pool)
    (h : dryRun = true ∨ (D.view s).goal fleet clusters pool = D.members s pool.record) :
    Idles D clusters
      (applyTurn audit dryRun pool (poolHosts fleet pool) (poolDesired fleet clusters pool)
        (D.members s pool.record)) s () := by
  rw [applyTurn_eq (poolDesired_subset fleet clusters pool)]
  split
  · exact idles_recordAudit _ _
  · have hstay := h.symm
    simp only [DnsView.goal, D.view_members] at hstay
    rw [if_pos hstay]
    exact idles_pure ()

theorem idles_watchPool (a : AcceptedFleet) (audit dryRun : Bool) {pool : Pool}
    (hp : pool ∈ a.fleet.pools)
    (h : dryRun = true ∨ (D.view s).goal a.fleet clusters pool = D.members s pool.record) :
    Idles D clusters (watchPool (nodeIps a.fleet) (statusByName clusters) audit dryRun pool) s
      ((D.view s).report a.fleet clusters pool) := by
  rw [a.watchPool_eq clusters audit dryRun hp]
  exact (idles_listMembers pool.record).bind
    ((idles_applyTurn audit dryRun pool h).bind (idles_pure _))

theorem idles_each_watchPool (a : AcceptedFleet) (audit dryRun : Bool) {pools : List Pool}
    (hpools : ∀ pool ∈ pools, pool ∈ a.fleet.pools ∧
      (dryRun = true ∨ (D.view s).goal a.fleet clusters pool = D.members s pool.record)) :
    Idles D clusters
      (each pools (watchPool (nodeIps a.fleet) (statusByName clusters) audit dryRun)) s
      (pools.map ((D.view s).report a.fleet clusters)) := by
  induction pools with
  | nil => exact idles_pure []
  | cons pool pools ih =>
      obtain ⟨hp, hidle⟩ := hpools pool (by simp)
      have hrest := ih fun q hq => hpools q (by simp [hq])
      exact (idles_watchPool a audit dryRun hp hidle).bind (hrest.bind (idles_pure _))

theorem idles_watchOnce (a : AcceptedFleet) (audit dryRun : Bool)
    (h : ∀ pool ∈ a.fleet.pools,
      dryRun = true ∨ (D.view s).goal a.fleet clusters pool = D.members s pool.record) :
    Idles D clusters (watchOnce a.fleet audit dryRun) s
      ⟨a.fleet.pools.map ((D.view s).report a.fleet clusters), passNote a.fleet⟩ := by
  unfold watchOnce passNote
  by_cases hpools : a.fleet.pools = []
  · rw [if_pos hpools, if_pos hpools, hpools]
    exact idles_pure _
  · rw [if_neg hpools, if_neg hpools]
    have hprobe : Idles D clusters probeFleet s clusters := idles_perform rfl id
    have hturns : Idles D clusters (each a.fleet.pools _) s _ :=
      idles_each_watchPool a audit dryRun fun pool hp => ⟨hp, h pool hp⟩
    exact hprobe.bind (hturns.bind (idles_pure _))

end Pass

/-! ## The law -/

/-- The hosts of the members of a pool. -/
def memberHosts (fleet : Fleet) (pool : Pool) : Finset String :=
  ((fleet.nodes.filter fun n => decide (n.name ∈ pool.members)).map (·.host)).toFinset

/-- The hosts of the members that `shouldEject` keeps. -/
def keptHosts (fleet : Fleet) (clusters : List ClusterStatus) (pool : Pool) : Finset String :=
  ((fleet.nodes.filter fun n => decide (n.name ∈ pool.members) &&
    !(shouldEject ((statusByName clusters).get? n.name) pool.ejectWhen).1).map (·.host)).toFinset

section Names

variable {fleet : Fleet} (unique : fleet.UniqueNames)

include unique in
theorem nodeIps_get?_iff {m ip : String} :
    (nodeIps fleet).get? m = some ip ↔ ∃ node ∈ fleet.nodes, node.name = m ∧ node.host = ip := by
  refine ⟨mem_nodes_of_nodeIps, ?_⟩
  rintro ⟨node, hnode, rfl, rfl⟩
  have hsome : ((nodeIps fleet).get? node.name).isSome := by
    rw [nodeIps, Dict.get?_ofPairs_isSome]
    simpa using ⟨node, hnode, rfl⟩
  obtain ⟨ip, hip⟩ := Option.isSome_iff_exists.mp hsome
  obtain ⟨other, hother, hname, rfl⟩ := mem_nodes_of_nodeIps hip
  rw [hip, unique.eq_of_name hother hnode hname]

include unique in
theorem poolHosts_eq (pool : Pool) : poolHosts fleet pool = memberHosts fleet pool := by
  ext ip
  simp only [poolHosts, memberHosts, List.mem_toFinset, List.mem_filterMap, List.mem_map,
    List.mem_filter, decide_eq_true_eq, nodeIps_get?_iff unique]
  constructor
  · rintro ⟨_, hm, node, hnode, rfl, rfl⟩
    exact ⟨node, ⟨hnode, hm⟩, rfl⟩
  · rintro ⟨node, ⟨hnode, hm⟩, rfl⟩
    exact ⟨node.name, hm, node, hnode, rfl, rfl⟩

include unique in
theorem poolDesired_eq (clusters : List ClusterStatus) (pool : Pool) :
    poolDesired fleet clusters pool = keptHosts fleet clusters pool := by
  ext ip
  simp only [poolDesired, keptHosts, List.mem_toFinset, List.mem_filterMap, List.mem_map,
    List.mem_filter, Bool.and_eq_true, decide_eq_true_eq, nodeIps_get?_iff unique]
  constructor
  · rintro ⟨_, ⟨hm, hkeep⟩, node, hnode, rfl, rfl⟩
    exact ⟨node, ⟨hnode, hm, hkeep⟩, rfl⟩
  · rintro ⟨node, ⟨hnode, hm, hkeep⟩, rfl⟩
    exact ⟨node.name, ⟨hm, hkeep⟩, node, hnode, rfl, rfl⟩

end Names

/-- What a pass is to have done for one pool: `old` and `new` are the record
before and after it. -/
structure PoolReconciled (fleet : Fleet) (clusters : List ClusterStatus) (old new : Finset String)
    (marked : Bool) (pool : Pool) (entry : PoolReport) : Prop where
  record : entry.record = pool.record
  reconciled : new =
    if keptHosts fleet clusters pool = ∅ then old
    else (old \ memberHosts fleet pool) ∪ keptHosts fleet clusters pool
  added : entry.added = sorted (new \ old)
  removed : entry.removed = sorted (old \ new)
  owned : new ≠ old → marked = true

/-- A completed pass reconciles every pool and nothing else; its dry run reports the
same and does nothing; a second pass over the same probe results only reads. -/
theorem watchOnce_reconciles (D : LawfulDriver) (a : AcceptedFleet)
    (unique : a.fleet.UniqueNames) (distinct : a.fleet.DistinctRecords)
    (clusters : List ClusterStatus) (audit : Bool) (s : D.State) :
    let pass := exec (D.handler clusters) (watchOnce a.fleet audit false) s
    let dry := exec (D.handler clusters) (watchOnce a.fleet audit true) s
    let again := exec (D.handler clusters) (watchOnce a.fleet audit false) pass.final
    ∃ report, pass.result = .ok report ∧
      List.Forall₂ (fun pool entry =>
        PoolReconciled a.fleet clusters (D.members s pool.record)
          (D.members pass.final pool.record) (D.hasMarker pass.final pool.record) pool entry)
        a.fleet.pools report.pools ∧
      (∀ r ∉ a.fleet.pools.map (·.record),
        D.members pass.final r = D.members s r ∧ D.hasMarker pass.final r = D.hasMarker s r) ∧
      (dry.result = .ok report ∧ dry.final = s) ∧
      ∀ event ∈ again.trace, ¬ DnsEvent.Mutates event := by
  intro pass dry again
  have hpass : Leaves D clusters (watchOnce a.fleet audit false) s _ _ := leaves_watchOnce a audit
  rw [DnsView.reports_eq_map distinct] at hpass
  have hdry : Idles D clusters (watchOnce a.fleet audit true) s _ :=
    idles_watchOnce a audit true fun _ _ => .inl rfl
  have hmembers : ∀ r, D.members pass.final r =
      (a.fleet.pools.foldl (DnsView.turn a.fleet clusters) (D.view s)).members r :=
    fun r => congrFun (congrArg DnsView.members hpass.view) r
  have hmarked : ∀ r, D.hasMarker pass.final r =
      (a.fleet.pools.foldl (DnsView.turn a.fleet clusters) (D.view s)).marked r :=
    fun r => congrFun (congrArg DnsView.marked hpass.view) r
  refine ⟨_, hpass.result, ?_, fun r hr => ?_, ⟨hdry.result, hdry.final⟩, ?_⟩
  · rw [List.forall₂_map_right_iff, List.forall₂_same]
    intro pool hp
    obtain ⟨hgoal, howned⟩ := DnsView.foldl_turn_of_mem a.fleet clusters (D.view s) distinct hp
    obtain ⟨hadded, hremoved⟩ := DnsView.report_added_removed a.fleet clusters (D.view s) pool
    rw [hmembers, hmarked, hgoal]
    refine ⟨?_, ?_, hadded, hremoved, howned⟩
    · simp only [DnsView.report, poolReport]
      split <;> rfl
    · rw [DnsView.goal, Reconcile.target, poolHosts_eq unique, poolDesired_eq unique]
      rfl
  · obtain ⟨hm, hk⟩ := DnsView.foldl_turn_of_notMem a.fleet clusters (D.view s) hr
    exact ⟨(hmembers r).trans hm, (hmarked r).trans hk⟩
  · refine (idles_watchOnce a audit false fun pool hp => .inr ?_).quiet
    refine DnsView.goal_idempotent (v := D.view s) ?_
    exact (hmembers _).trans (DnsView.foldl_turn_of_mem _ _ _ distinct hp).1

/-! ## A small fleet -/

/-- Two rpc nodes behind one record. -/
def pairPool : Pool where
  record := "rpc.example.com"
  cluster := "mainnet"
  members := ["a", "b"]

def pairFleet : AcceptedFleet where
  fleet :=
    { clusters := ⟨[("mainnet",
        { referenceRpc := "https://rpc"
          nodes :=
            [{ name := "a", role := .rpc, host := "10.0.0.1", rpcUrl := some "http://a" },
             { name := "b", role := .rpc, host := "10.0.0.2", rpcUrl := some "http://b" }] })],
        by decide⟩
      dns := some { provider := .cloudflare, zone := "z", pools := [pairPool] } }
  accepted := by decide

/-- A probe that finds exactly the named nodes healthy. -/
def probeWith (healthy : List String) : List ClusterStatus :=
  [{ name := "mainnet"
     referenceRpc := "https://rpc"
     nodes := ["a", "b"].map fun n =>
       { name := n, cluster := "mainnet", role := .rpc, reachable := healthy.contains n,
         healthy := some (healthy.contains n) } }]

/-- The in-memory driver with these addresses in the record of the pool. -/
def pairState (hosts : Finset String) : inMemoryDnsDriver.State :=
  { a := fun r => if r = "rpc.example.com" then hosts else ∅ : InMemoryDns }

/-- Node `a` fails while it is in the record next to a foreign address. -/
theorem watchOnce_reconciles_pair :
    let s := pairState {"10.0.0.1", "9.9.9.9"}
    let pass := exec (inMemoryDnsDriver.handler (probeWith ["b"]))
      (watchOnce pairFleet.fleet false false) s
    ∃ report, pass.result = .ok report ∧
      List.Forall₂ (fun pool entry =>
        PoolReconciled pairFleet.fleet (probeWith ["b"]) (inMemoryDnsDriver.members s pool.record)
          (inMemoryDnsDriver.members pass.final pool.record)
          (inMemoryDnsDriver.hasMarker pass.final pool.record) pool entry)
        pairFleet.fleet.pools report.pools := by
  intro s pass
  obtain ⟨report, hok, hpools, -⟩ := watchOnce_reconciles inMemoryDnsDriver pairFleet
    (by decide) (by decide) (probeWith ["b"]) false s
  exact ⟨report, hok, hpools⟩

example :
    let pass := exec (inMemoryDnsDriver.handler (probeWith ["b"]))
      (watchOnce pairFleet.fleet false false) (pairState {"10.0.0.1", "9.9.9.9"})
    inMemoryDnsDriver.members pass.final "rpc.example.com" = {"10.0.0.2", "9.9.9.9"} := by
  decide

end Solfleet
