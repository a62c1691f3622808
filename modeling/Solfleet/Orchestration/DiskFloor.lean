import Mathlib.Data.List.ReduceOption
import Solfleet.Orchestration.Outcome

/-! # The disk floor

A restart and an upgrade look at the disks before their gate. The floor is checked against
the percentages that could be read; what could not be read is not among them.
-/

namespace Solfleet

open Interaction Program

/-! ## Percentages -/

theorem mem_reduceOption_mapM {α β : Type} {f : α → Except Exn (Option β)} {xs : List α}
    {ys : List (Option β)} (h : xs.mapM f = .ok ys) {y : β} :
    y ∈ ys.reduceOption ↔ ∃ x ∈ xs, f x = .ok (some y) := by
  rw [List.reduceOption_mem_iff]
  induction xs generalizing ys with
  | nil =>
      rw [List.mapM_nil] at h
      rw [← Except.ok.inj h]
      simp
  | cons x xs ih =>
      rw [List.mapM_cons] at h
      cases hx : f x with
      | error e =>
          rw [hx] at h
          exact nomatch h
      | ok z =>
          rw [hx] at h
          cases hrest : xs.mapM f with
          | error e =>
              rw [hrest] at h
              exact nomatch h
          | ok zs =>
              rw [hrest] at h
              have hys : z :: zs = ys := Except.ok.inj h
              rw [← hys, List.mem_cons, ih hrest, List.exists_mem_cons_iff, hx, Except.ok.injEq]
              exact or_congr_left eq_comm

/-- The percentages put before the gate are those of the rows that could be read. -/
theorem mem_usePcts {inspection : Inspection} {pcts : List Nat}
    (h : usePcts inspection = .ok pcts) {used : Nat} :
    used ∈ pcts ↔ ∃ row ∈ inspection.disk, usePct row = .ok (some used) := by
  unfold usePcts at h
  cases hrows : inspection.disk.mapM usePct with
  | error e =>
      rw [hrows] at h
      exact nomatch h
  | ok rows =>
      rw [hrows] at h
      have hpcts : rows.reduceOption = pcts := Except.ok.inj h
      rw [← hpcts]
      exact mem_reduceOption_mapM hrows

theorem diskFreeOk_iff {rules : PolicyRules} {floor : Int} (h : rules.minDiskFreePct = some floor)
    {pcts : List Nat} :
    diskFreeOk rules pcts = true ↔ ∀ used ∈ pcts, floor ≤ 100 - (used : Int) := by
  simp only [diskFreeOk, h, List.all_eq_true, decide_eq_true_eq]

/-! ## The output of `df` -/

/-- The paths an inspection asks `df` about. -/
def dataPaths (node : Node) : List String := [node.service.ledger, node.service.accounts]

/-- A row of the output gives this percentage for this mount. -/
def ReportsUse (node : Node) (r : CommandResult) (mount : String) (used : Nat) : Prop :=
  ∃ filesystem size taken avail pct,
    DiskRow.usage filesystem size taken avail pct mount ∈ readDiskUsage (dataPaths node) r ∧
      usePct (.usage filesystem size taken avail pct mount) = .ok (some used)

/-- The mounts of both paths are reported, and keep the floor. -/
def FloorMet (mountOf : String → String) (node : Node) (floor : Int) (r : CommandResult) : Prop :=
  ∀ path ∈ dataPaths node, (∃ used, ReportsUse node r (mountOf path) used) ∧
    ∀ used, ReportsUse node r (mountOf path) used → floor ≤ 100 - (used : Int)

/-! ## In front of the gate -/

section Prepare

variable {fleet : Fleet} {nodeName : String} {policy : Policy} {audit : Bool} {maxLag : Int}
  {trace : List OpsEvent}

theorem InspectionRead.append {node : Node} {xs ys : List OpsEvent} {inspection : Inspection}
    (h : InspectionRead node xs inspection)
    (hys : ∀ event ∈ ys, ∀ i, event.op ≠ .runner i) :
    Nonempty (InspectionRead node (xs ++ ys) inspection) := by
  have hne : ∀ command, ∀ event ∈ ys, event.op ≠ onNode node command :=
    fun command event he => hys event he _
  exact ⟨⟨h.shown, h.version, h.disks, h.shown_last.append (hne _), h.version_last.append (hne _),
    h.disks_last.append (hne _), h.service, h.binary, h.disk⟩⟩

theorem restartPrepare_reads {p : Prepared RestartResult}
    (h : Runs (restartPrepare fleet nodeName policy audit maxLag) trace (.ok (.inr p))) :
    ∃ clusterName cluster node before pcts,
      fleet.findNode nodeName = some (clusterName, cluster, node) ∧
      Nonempty (InspectionRead node trace before) ∧ usePcts before = .ok pcts ∧
      p.request = restartRequest clusterName cluster node nodeName (policy.forCluster clusterName)
        maxLag before pcts := by
  unfold restartPrepare at h
  cases hf : fleet.findNode nodeName with
  | none => simp [hf] at h
  | some found =>
      rw [hf] at h
      obtain ⟨t₁, rest₁, before, hbefore, hrest₁, rfl⟩ := runs_bind_ok_iff.mp h
      obtain ⟨t₂, rest₂, pcts, hpcts, hrest₂, rfl⟩ := runs_bind_ok_iff.mp hrest₁
      obtain ⟨t₃, rest₃, leader, hleader, hrest₃, rfl⟩ := runs_bind_ok_iff.mp hrest₂
      obtain ⟨rfl, hp⟩ := runs_pure_iff.mp hrest₃
      cases hp
      obtain ⟨rfl, hpcts'⟩ := runs_done_iff.mp hpcts
      have hread := (runs_inspectNode_ok hbefore).some
      refine ⟨_, _, _, before, pcts, rfl, hread.append ?_, hpcts'.symm, rfl⟩
      rw [runs_perform_iff.mp hleader]
      exact List.forall_mem_singleton.mpr fun i => nofun

theorem upgradePrepare_reads {targetVersion : String} {forceBuild : Bool}
    {p : Prepared UpgradeResult}
    (h : Runs (upgradePrepare fleet nodeName targetVersion policy audit maxLag forceBuild) trace
      (.ok (.inr p))) :
    ∃ clusterName cluster node before pcts,
      fleet.findNode nodeName = some (clusterName, cluster, node) ∧
      Nonempty (InspectionRead node trace before) ∧ usePcts before = .ok pcts ∧
      p.request = upgradeRequest fleet clusterName cluster node nodeName
        (policy.forCluster clusterName) targetVersion before pcts := by
  unfold upgradePrepare at h
  cases hf : fleet.findNode nodeName with
  | none => simp [hf] at h
  | some found =>
      rw [hf] at h
      obtain ⟨t₁, rest₁, before, hbefore, hrest₁, rfl⟩ := runs_bind_ok_iff.mp h
      obtain ⟨t₂, rest₂, pcts, hpcts, hrest₂, rfl⟩ := runs_bind_ok_iff.mp hrest₁
      obtain ⟨rfl, hp⟩ := runs_pure_iff.mp hrest₂
      cases hp
      obtain ⟨rfl, hpcts'⟩ := runs_done_iff.mp hpcts
      have hread := (runs_inspectNode_ok hbefore).some
      refine ⟨_, _, _, before, pcts, rfl, hread.append ?_, hpcts'.symm, rfl⟩
      exact fun event he => nomatch he

end Prepare

/-! ## The floor at the gate -/

/-- Behind the gate every percentage that was read keeps the floor. -/
theorem floorMet_iff {mountOf : String → String} {node : Node} {trace : List OpsEvent}
    {before : Inspection} (hread : InspectionRead node trace before) {pcts : List Nat}
    (hpcts : usePcts before = .ok pcts) {rules : PolicyRules} {floor : Int}
    (hfloor : rules.minDiskFreePct = some floor) {request : GateRequest} {confirm : Bool}
    (hcheck : (diskFreeOk rules pcts, belowDiskFloor rules) ∈ request.checks)
    (hallowed : (gate request confirm).allowed = true) :
    FloorMet mountOf node floor hread.disks ↔
      ∀ path ∈ dataPaths node, ∃ used, ReportsUse node hread.disks (mountOf path) used := by
  have hbelow : ∀ mount used, ReportsUse node hread.disks mount used →
      floor ≤ 100 - (used : Int) := by
    rintro mount used ⟨_, _, _, _, _, hrow, huse⟩
    have hok := gate_allowed_iff.mp hallowed _ hcheck
    refine (diskFreeOk_iff hfloor).mp hok used ((mem_usePcts hpcts).mpr ⟨_, ?_, huse⟩)
    rw [hread.disk]
    exact hrow
  constructor
  · intro h path hpath
    exact (h path hpath).1
  · intro h path hpath
    exact ⟨h path hpath, hbelow (mountOf path)⟩

/-- A gate that lets a restart or an upgrade through has seen both mounts above the floor if
`df` named a percentage for each of them, and not otherwise. -/
theorem disk_floor_iff (a : AcceptedFleet) (mountOf : String → String)
    {nodeName clusterName : String} {cluster : Cluster} {node : Node}
    (hf : a.fleet.findNode nodeName = some (clusterName, cluster, node)) {policy : Policy}
    {floor : Int} (hfloor : (policy.forCluster clusterName).minDiskFreePct = some floor)
    (confirm audit : Bool) (maxLag : Int) :
    (∀ trace p, Runs (restartPrepare a.fleet nodeName policy audit maxLag) trace (.ok (.inr p)) →
      (gate p.request confirm).allowed = true →
      ∃ r : CommandResult, LastAnswer trace (showDisks node) r ∧
        (FloorMet mountOf node floor r ↔
          ∀ path ∈ dataPaths node, ∃ used, ReportsUse node r (mountOf path) used)) ∧
    ∀ targetVersion forceBuild trace p,
      Runs (upgradePrepare a.fleet nodeName targetVersion policy audit maxLag forceBuild) trace
        (.ok (.inr p)) →
      (gate p.request confirm).allowed = true →
      ∃ r : CommandResult, LastAnswer trace (showDisks node) r ∧
        (FloorMet mountOf node floor r ↔
          ∀ path ∈ dataPaths node, ∃ used, ReportsUse node r (mountOf path) used) := by
  constructor
  · intro trace p h hallowed
    obtain ⟨_, _, _, before, pcts, hf', ⟨hread⟩, hpcts, hrequest⟩ := restartPrepare_reads h
    obtain ⟨rfl, rfl, rfl⟩ : clusterName = _ ∧ cluster = _ ∧ node = _ := by
      simpa using hf.symm.trans hf'
    refine ⟨hread.disks, hread.disks_last, floorMet_iff hread hpcts hfloor ?_ hallowed⟩
    rw [hrequest]
    simp [restartRequest]
  · intro targetVersion forceBuild trace p h hallowed
    obtain ⟨_, _, _, before, pcts, hf', ⟨hread⟩, hpcts, hrequest⟩ := upgradePrepare_reads h
    obtain ⟨rfl, rfl, rfl⟩ : clusterName = _ ∧ cluster = _ ∧ node = _ := by
      simpa using hf.symm.trans hf'
    refine ⟨hread.disks, hread.disks_last, floorMet_iff hread hpcts hfloor ?_ hallowed⟩
    rw [hrequest]
    simp [upgradeRequest]

/-- A host whose `df` fails. -/
def blindHost : Handler opsSignature Exn Unit
  | .runner (.ssh _ (.systemctlShow _)), s => (.ok ⟨0, "ActiveState=active", ""⟩, s)
  | .runner (.ssh _ (.df _)), s => (.ok ⟨1, "", "df: /mnt/ledger: Stale file handle"⟩, s)
  | .runner _, s => (.ok ⟨0, "abc", ""⟩, s)
  | .mkdtemp _, s => (.ok "/tmp/solfleet-0", s)
  | .sample .., s => (.ok {}, s)
  | .leader .., s => (.ok none, s)
  | .sleep _, s => (.ok (), s)
  | .audit _, s => (.ok (), s)

def flooredPolicy : Policy := { defaults := { minDiskFreePct := some 20 } }

/-- The decision on what was prepared. -/
def preparedAllowed {α : Type} : Except Exn (α ⊕ Prepared α) → Option Bool
  | .ok (.inr p) => some (gate p.request true).allowed
  | _ => none

theorem exists_prepared {α : Type} {result : Except Exn (α ⊕ Prepared α)} {allowed : Bool}
    (h : preparedAllowed result = some allowed) :
    ∃ p, result = .ok (.inr p) ∧ (gate p.request true).allowed = allowed := by
  unfold preparedAllowed at h
  split at h
  · exact ⟨_, rfl, Option.some.inj h⟩
  · exact nomatch h

theorem preparedAllowed_blind :
    preparedAllowed (exec blindHost
        (restartPrepare builtFleet.fleet "rpc-1" flooredPolicy true 2) ()).result = some true ∧
      preparedAllowed (exec blindHost
        (upgradePrepare builtFleet.fleet "rpc-1" "v3.0.1" flooredPolicy true 2 false) ()).result =
        some true := by
  decide +kernel

/-- Nothing is known of the disks, and the floor counts as kept. -/
theorem blind_gate_opens :
    ¬ ∀ (a : AcceptedFleet) (mountOf : String → String) (nodeName clusterName : String)
      (cluster : Cluster) (node : Node) (policy : Policy) (floor : Int) (audit : Bool)
      (maxLag : Int),
      a.fleet.findNode nodeName = some (clusterName, cluster, node) →
      (policy.forCluster clusterName).minDiskFreePct = some floor →
      (∀ trace p, Runs (restartPrepare a.fleet nodeName policy audit maxLag) trace
          (.ok (.inr p)) →
        (gate p.request true).allowed = true →
        ∀ r : CommandResult, LastAnswer trace (showDisks node) r →
          FloorMet mountOf node floor r) ∧
      ∀ targetVersion forceBuild trace p,
        Runs (upgradePrepare a.fleet nodeName targetVersion policy audit maxLag forceBuild) trace
          (.ok (.inr p)) →
        (gate p.request true).allowed = true →
        ∀ r : CommandResult, LastAnswer trace (showDisks node) r →
          FloorMet mountOf node floor r := by
  intro h
  obtain ⟨p, hresult, hallowed⟩ := exists_prepared preparedAllowed_blind.1
  have hrun := hresult ▸ exec_runs blindHost
    (restartPrepare builtFleet.fleet "rpc-1" flooredPolicy true 2) ()
  obtain ⟨_, _, _, _, _, hf, ⟨hread⟩, -, -⟩ := restartPrepare_reads hrun
  obtain ⟨rfl, rfl, rfl⟩ := Prod.mk.inj (Option.some.inj (builtFleet_findNode.symm.trans hf))
  have hmet := (h builtFleet id "rpc-1" _ _ _ flooredPolicy 20 true 2 builtFleet_findNode rfl).1 _
    p hrun hallowed _ hread.disks_last
  have hanswer : hread.disks = ⟨1, "", "df: /mnt/ledger: Stale file handle"⟩ := by
    obtain ⟨s, hs⟩ := answer_of_mem_exec hread.disks_last.mem
    exact Except.ok.inj hs
  obtain ⟨used, _, _, _, _, _, hrow, -⟩ := (hmet _ List.mem_cons_self).1
  have hrows : readDiskUsage (dataPaths builtNode) hread.disks =
      (dataPaths builtNode).map fun path =>
        .failed path "df: /mnt/ledger: Stale file handle" := by
    rw [hanswer]
    decide +kernel
  rw [hrows] at hrow
  obtain ⟨path, -, hpath⟩ := List.mem_map.mp hrow
  exact nomatch hpath

theorem disk_floor_iff_blind :
    (∃ (trace : List OpsEvent) (r : CommandResult), LastAnswer trace (showDisks builtNode) r ∧
      (FloorMet id builtNode 20 r ↔
        ∀ path ∈ dataPaths builtNode, ∃ used, ReportsUse builtNode r (id path) used)) ∧
    ∃ (trace : List OpsEvent) (r : CommandResult), LastAnswer trace (showDisks builtNode) r ∧
      (FloorMet id builtNode 20 r ↔
        ∀ path ∈ dataPaths builtNode, ∃ used, ReportsUse builtNode r (id path) used) := by
  have hfloor : (flooredPolicy.forCluster "testnet").minDiskFreePct = some 20 := rfl
  have hboth := disk_floor_iff builtFleet id builtFleet_findNode hfloor true true 2
  constructor
  · obtain ⟨p, hresult, hallowed⟩ := exists_prepared preparedAllowed_blind.1
    have hrun := hresult ▸ exec_runs blindHost
      (restartPrepare builtFleet.fleet "rpc-1" flooredPolicy true 2) ()
    exact ⟨_, hboth.1 _ p hrun hallowed⟩
  · obtain ⟨p, hresult, hallowed⟩ := exists_prepared preparedAllowed_blind.2
    have hrun := hresult ▸ exec_runs blindHost
      (upgradePrepare builtFleet.fleet "rpc-1" "v3.0.1" flooredPolicy true 2 false) ()
    exact ⟨_, hboth.2 _ _ _ p hrun hallowed⟩

end Solfleet
