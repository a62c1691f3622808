import Solfleet.Orchestration.DiskFloor
import Solfleet.Validate

/-! # Validation against the restart gate

Both look at a node through the same inspection. Validation fails a node that cannot be
reached, whose disks cannot be listed or whose RPC does not answer; the gate of a restart
wants it reachable, active and above the disk floor.
-/

namespace Solfleet

open Interaction Program

/-! ## One runner for both -/

/-- A runner and a leader view that answer from the question alone. The rest of the world
plays no part in a validation or a rehearsed restart. -/
def answering (runner : Invocation → Except Exn CommandResult)
    (leader : Node → String → Int → Option LeaderWindows) :
    (op : OpsEffect) → Except Exn op.Answer
  | .runner invocation => runner invocation
  | .mkdtemp stem => .ok stem
  | .sample _ _ => .ok {}
  | .leader node referenceRpc minWindow => .ok (leader node referenceRpc minWindow)
  | .sleep _ => .ok ()
  | .audit _ => .ok ()

section Inspection

variable {runner : Invocation → Except Exn CommandResult}
  {leader : Node → String → Int → Option LeaderWindows} {node : Node} {inspection : Inspection}

/-- The two answers of an inspection that are judged. -/
theorem evaluate_inspectNode_ok
    (h : evaluate (answering runner leader) (inspectNode node) = .ok inspection) :
    ∃ shown disks,
      runner (.ssh (.node node) (.systemctlShow node.service.unit)) = .ok shown ∧
      runner (.ssh (.node node) (.df (dataPaths node))) = .ok disks ∧
      inspection.service = readServiceState node shown ∧
      inspection.disk = readDiskUsage (dataPaths node) disks := by
  rcases (evaluate_bind_ok_iff _).mp h with ⟨service, hservice, h₁⟩
  rcases (evaluate_bind_ok_iff _).mp h₁ with ⟨version, _, h₂⟩
  rcases (evaluate_bind_ok_iff _).mp h₂ with ⟨disk, hdisk, h₃⟩
  rcases (evaluate_map_ok_iff _).mp hservice with ⟨shown, hshown, hread⟩
  rcases (evaluate_map_ok_iff _).mp hdisk with ⟨disks, hdisks, hrows⟩
  cases h₃
  exact ⟨shown, disks, hshown, hdisks, hread, hrows⟩

end Inspection

/-! ## What validation fails -/

/-- The RPC of the node was seen healthy, or was seen at all. -/
def RpcSeen (node : Node) (status : Option NodeStatus) : Prop :=
  Text.truthy node.rpcUrl = true →
    ∃ s, status = some s ∧ (s.reachable = true ∧ s.healthy = some true ∨ s.healthy = some false)

theorem rpcChecks_pass_iff {node : Node} {status : Option NodeStatus} :
    (∀ check ∈ rpcChecks node status, check.status ≠ .fail) ↔ RpcSeen node status := by
  unfold rpcChecks RpcSeen
  by_cases hurl : Text.truthy node.rpcUrl = true
  · rw [if_pos hurl, List.forall_mem_singleton]
    cases status with
    | none => simp [rpcCheck, hurl]
    | some s =>
        by_cases hpass : s.reachable = true ∧ s.healthy = some true
        · simp [rpcCheck, hpass]
        · by_cases hbehind : s.healthy = some false
          · simp [rpcCheck, hbehind]
          · simp only [rpcCheck, if_neg hpass, if_neg hbehind]
            constructor
            · exact fun h => absurd rfl h
            · rintro h -
              rcases h hurl with ⟨t, ht, hseen⟩
              cases ht
              exact absurd hseen (not_or.mpr ⟨hpass, hbehind⟩)
  · rw [if_neg hurl]
    constructor
    · exact fun _ h => absurd h hurl
    · exact fun _ => nofun

theorem readDiskRow_failedPath {line : String} {row : DiskRow} (h : readDiskRow line = some row) :
    row.failedPath = none := by
  unfold readDiskRow at h
  split at h
  · rw [← Option.some.inj h]
    rfl
  · exact nomatch h

theorem error_eq_none_iff {r : CommandResult} : r.error = none ↔ r.exitCode = 0 := by
  unfold CommandResult.error CommandResult.ok
  by_cases hexit : r.exitCode = 0
  · simp [hexit]
  · rw [if_neg (by simpa using hexit), iff_false_right hexit]
    split
    · exact nofun
    · exact nofun

theorem missingMounts_eq_nil_iff {inspection : Inspection} {paths : List String}
    {r : CommandResult} (hpaths : paths ≠ []) (h : inspection.disk = readDiskUsage paths r) :
    missingMounts inspection = [] ↔ r.exitCode = 0 := by
  rw [← error_eq_none_iff, missingMounts, h, readDiskUsage]
  cases r.error with
  | none =>
      rw [eq_self, iff_true]
      refine List.filterMap_eq_nil_iff.mpr fun row hrow => ?_
      obtain ⟨line, -, hline⟩ := List.mem_filterMap.mp hrow
      exact readDiskRow_failedPath hline
  | some error =>
      obtain ⟨path, rest, hcons⟩ := List.exists_cons_of_ne_nil hpaths
      rw [hcons]
      constructor
      · exact nofun
      · exact nofun

theorem hostChecks_pass_iff {rules : PolicyRules} {inspection : Inspection} {pcts : List Nat} :
    (∀ check ∈ hostChecks rules inspection pcts, check.status ≠ .fail) ↔
      missingMounts inspection = [] := by
  have hwarn : ∀ passed, passOr .warn passed ≠ .fail := by decide
  have hfloor : ∀ check ∈ (if diskFreeOk rules pcts then [] else
      [(⟨"disk_free", .warn,
        "below policy floor min_disk_free_pct=" ++ noneText rules.minDiskFreePct⟩ : Check)]),
      check.status ≠ .fail := by
    split
    · exact nofun
    · exact List.forall_mem_singleton.mpr nofun
  unfold hostChecks
  rw [List.forall_mem_append, and_iff_left hfloor]
  simp only [List.forall_mem_cons, hwarn, not_false_iff, ne_eq, true_and, List.not_mem_nil,
    false_imp_iff, implies_true, and_true]
  by_cases hmissing : missingMounts inspection = []
  · simp [hmissing, passOr]
  · simp [hmissing, passOr]

/-- The node is reached, its disks are listed and its RPC was seen: none of its checks
fails. -/
structure Faultless (runner : Invocation → Except Exn CommandResult) (status : Option NodeStatus)
    (node : Node) : Prop where
  reached : ∃ r, runner (.ssh (.node node) (.systemctlShow node.service.unit)) = .ok r ∧
    r.exitCode = 0
  listed : ∃ r, runner (.ssh (.node node) (.df (dataPaths node))) = .ok r ∧ r.exitCode = 0
  rpc : RpcSeen node status

/-- Loading has refused a validator without an identity, so that check never fails. -/
theorem AcceptedFleet.identityChecks_eq_nil (a : AcceptedFleet) {entry : String × Cluster}
    (he : entry ∈ a.fleet.clusters.entries) {node : Node} (hn : node ∈ entry.2.nodes) :
    identityChecks node = [] := by
  have hroles := (except_bind_ok_iff.mp (except_bind_ok_iff.mp (a.clusters_checked he)).2).1
  have hrole := checkAll_ok_iff.mp hroles node hn
  unfold identityChecks
  refine if_neg fun ⟨hvalidator, hidentity⟩ => ?_
  have hrpc : ¬ (node.role = .rpc ∧ Text.truthy node.rpcUrl = false) := by
    rw [hvalidator]
    exact nofun
  rw [Node.checkRoleFields, if_neg hrpc, if_pos ⟨hvalidator, hidentity⟩] at hrole
  exact nomatch hrole

theorem nodeChecks_pass_iff {runner : Invocation → Except Exn CommandResult}
    {leader : Node → String → Int → Option LeaderWindows} {node : Node}
    {status : Option NodeStatus} {rules : PolicyRules} {checks : List Check}
    (hidentity : identityChecks node = [])
    (h : evaluate (answering runner leader) (nodeChecks node status rules) = .ok checks) :
    (∀ check ∈ checks, check.status ≠ .fail) ↔ Faultless runner status node := by
  rcases (evaluate_bind_ok_iff _).mp h with ⟨inspection, hinspection, hread⟩
  rcases evaluate_inspectNode_ok hinspection with ⟨shown, disks, hshown, hdisks, hservice, hdisk⟩
  have hok : inspection.service.ok = true ↔ shown.exitCode = 0 := by
    rw [hservice]
    exact decide_eq_true_iff
  have hfaultless : Faultless runner status node ↔
      inspection.service.ok = true ∧ missingMounts inspection = [] ∧ RpcSeen node status := by
    rw [hok, missingMounts_eq_nil_iff (by simp [dataPaths]) hdisk]
    constructor
    · rintro ⟨⟨r, hr, hexit⟩, ⟨d, hd, hlisted⟩, hrpc⟩
      rw [hshown] at hr
      rw [hdisks] at hd
      cases hr
      cases hd
      exact ⟨hexit, hlisted, hrpc⟩
    · rintro ⟨hexit, hlisted, hrpc⟩
      exact ⟨⟨_, hshown, hexit⟩, ⟨_, hdisks, hlisted⟩, hrpc⟩
  rw [evaluate_ofExcept, readNodeChecks, hidentity] at hread
  rw [hfaultless]
  by_cases hreached : inspection.service.ok = true
  · rw [if_pos hreached] at hread
    cases hpcts : usePcts inspection with
    | error e =>
        rw [hpcts] at hread
        exact nomatch hread
    | ok pcts =>
        rw [hpcts] at hread
        have hchecks : sshCheck inspection.service :: hostChecks rules inspection pcts ++
            rpcChecks node status ++ [] = checks := Except.ok.inj hread
        rw [← hchecks, List.append_nil, List.cons_append, List.forall_mem_cons,
          List.forall_mem_append, hostChecks_pass_iff, rpcChecks_pass_iff]
        simp [sshCheck, passOr, hreached]
  · rw [if_neg hreached] at hread
    have hchecks : sshCheck inspection.service :: [] ++ rpcChecks node status ++ [] = checks :=
      Except.ok.inj hread
    rw [← hchecks]
    simp [sshCheck, passOr, hreached]

/-! ## The row of a node -/

section Rows

variable {a : AcceptedFleet} {policy : Policy} {clusters : List ClusterStatus}
  {environ : String → Option String} {runner : Invocation → Except Exn CommandResult}
  {leader : Node → String → Int → Option LeaderWindows} {report : ValidationReport}

/-- The rows of a report are those of the nodes, cluster by cluster. -/
theorem validateFleet_rows
    (h : evaluate (answering runner leader) (validateFleet a.fleet policy clusters environ) =
      .ok report) :
    ∃ rows, report.nodes = rows.flatten ∧
      List.Forall₂ (fun (entry : String × Cluster) rows =>
        List.Forall₂ (fun node row => evaluate (answering runner leader)
          (nodeReport (statusByName clusters) (policy.forCluster entry.1) entry.1 node) = .ok row)
          entry.2.nodes rows) a.fleet.clusters.entries rows := by
  rcases (evaluate_bind_ok_iff _).mp h with ⟨rows, hrows, h₁⟩
  rcases (evaluate_bind_ok_iff _).mp h₁ with ⟨builders, _, h₂⟩
  cases h₂
  refine ⟨rows, rfl, ?_⟩
  refine ((evaluate_each_ok_iff _).mp hrows).imp fun entry row hrow => ?_
  exact (evaluate_each_ok_iff _).mp hrow

theorem evaluate_nodeReport_ok {statuses : Dict String NodeStatus} {rules : PolicyRules}
    {clusterName : String} {node : Node} {row : NodeReport}
    (h : evaluate (answering runner leader) (nodeReport statuses rules clusterName node) =
      .ok row) :
    evaluate (answering runner leader) (nodeChecks node (statuses.get? node.name) rules) =
        .ok row.checks ∧ row.name = node.name ∧ row.cluster = clusterName := by
  rcases (evaluate_bind_ok_iff _).mp h with ⟨checks, hchecks, hrow⟩
  cases hrow
  exact ⟨hchecks, rfl, rfl⟩

/-- A finished validation has looked at every node. -/
theorem exists_row
    (h : evaluate (answering runner leader) (validateFleet a.fleet policy clusters environ) =
      .ok report)
    {entry : String × Cluster} (he : entry ∈ a.fleet.clusters.entries) {node : Node}
    (hn : node ∈ entry.2.nodes) :
    ∃ row ∈ report.nodes, row.cluster = entry.1 ∧ row.name = node.name ∧
      evaluate (answering runner leader) (nodeChecks node ((statusByName clusters).get? node.name)
        (policy.forCluster entry.1)) = .ok row.checks := by
  rcases validateFleet_rows h with ⟨rows, hnodes, hrows⟩
  rcases forall₂_exists_right hrows he with ⟨rowsOf, hrowsOf, hentry⟩
  rcases forall₂_exists_right hentry hn with ⟨row, hrow, hnode⟩
  rcases evaluate_nodeReport_ok hnode with ⟨hchecks, hname, hcluster⟩
  rw [hnodes]
  exact ⟨row, List.mem_flatten.mpr ⟨rowsOf, hrowsOf, hrow⟩, hcluster, hname, hchecks⟩

/-- The checks in the rows of a node, all of which pass or only warn. -/
def ValidationReport.NoFail (report : ValidationReport) (clusterName nodeName : String) : Prop :=
  ∀ row ∈ report.nodes, row.cluster = clusterName → row.name = nodeName →
    ∀ check ∈ row.checks, check.status ≠ .fail

theorem noFail_iff
    (h : evaluate (answering runner leader) (validateFleet a.fleet policy clusters environ) =
      .ok report)
    {entry : String × Cluster} (he : entry ∈ a.fleet.clusters.entries) {node : Node}
    (hn : node ∈ entry.2.nodes) :
    report.NoFail entry.1 node.name ↔
      Faultless runner ((statusByName clusters).get? node.name) node := by
  have hidentity := a.identityChecks_eq_nil he hn
  constructor
  · intro hnone
    rcases exists_row h he hn with ⟨row, hrow, hcluster, hname, hchecks⟩
    exact (nodeChecks_pass_iff hidentity hchecks).mp (hnone row hrow hcluster hname)
  · intro hfaultless row hrow hcluster hname
    rcases validateFleet_rows h with ⟨rows, hnodes, hrows⟩
    rw [hnodes] at hrow
    rcases List.mem_flatten.mp hrow with ⟨rowsOf, hrowsOf, hmem⟩
    rcases forall₂_exists_left hrows hrowsOf with ⟨entry', he', hentry⟩
    rcases forall₂_exists_left hentry hmem with ⟨node', hn', hnode⟩
    rcases evaluate_nodeReport_ok hnode with ⟨hchecks, hname', hcluster'⟩
    -- a cluster name and a name in it belong to one node
    have hsame : entry' = entry :=
      List.inj_on_of_nodup_map a.fleet.clusters.nodup he' he (hcluster'.symm.trans hcluster)
    rw [hsame] at hn' hchecks
    have hsameNode : node' = node :=
      List.inj_on_of_nodup_map (a.nodup_names he) hn' hn (hname'.symm.trans hname)
    rw [hsameNode] at hchecks
    exact (nodeChecks_pass_iff hidentity hchecks).mpr hfaultless

end Rows

/-! ## What the gate wants -/

/-- The service is active and every percentage `df` gives keeps the floor. -/
structure Restartable (runner : Invocation → Except Exn CommandResult) (rules : PolicyRules)
    (node : Node) : Prop where
  active : ∃ r, runner (.ssh (.node node) (.systemctlShow node.service.unit)) = .ok r ∧
    r.exitCode = 0 ∧ (keyValues r.stdout).get? "ActiveState" = some "active"
  roomy : ∀ r, runner (.ssh (.node node) (.df (dataPaths node))) = .ok r →
    ∀ floor, rules.minDiskFreePct = some floor → ∀ mount used, ReportsUse node r mount used →
      floor ≤ 100 - (used : Int)

theorem diskFreeOk_usePcts_iff {rules : PolicyRules} {node : Node} {inspection : Inspection}
    {r : CommandResult} (hdisk : inspection.disk = readDiskUsage (dataPaths node) r)
    {pcts : List Nat} (h : usePcts inspection = .ok pcts) :
    diskFreeOk rules pcts = true ↔ ∀ floor, rules.minDiskFreePct = some floor →
      ∀ mount used, ReportsUse node r mount used → floor ≤ 100 - (used : Int) := by
  have hmem : ∀ used, used ∈ pcts ↔ ∃ mount, ReportsUse node r mount used := by
    intro used
    rw [mem_usePcts h, hdisk]
    constructor
    · rintro ⟨row, hrow, huse⟩
      cases row with
      | failed path error => exact nomatch huse
      | usage filesystem size taken avail pct mount =>
          exact ⟨mount, filesystem, size, taken, avail, pct, hrow, huse⟩
    · rintro ⟨mount, filesystem, size, taken, avail, pct, hrow, huse⟩
      exact ⟨_, hrow, huse⟩
  cases hfloor : rules.minDiskFreePct with
  | none => simp [diskFreeOk, hfloor]
  | some floor =>
      rw [diskFreeOk_iff hfloor]
      constructor
      · intro hall floor' hfloor' mount used huse
        rw [← Option.some.inj hfloor']
        exact hall used ((hmem used).mpr ⟨mount, huse⟩)
      · intro hall used hused
        rcases (hmem used).mp hused with ⟨mount, huse⟩
        exact hall floor rfl mount used huse

/-- The rehearsal ends with a decision that allows the restart. -/
def RestartAllowed (runner : Invocation → Except Exn CommandResult)
    (leader : Node → String → Int → Option LeaderWindows) (fleet : Fleet) (nodeName : String)
    (policy : Policy) (audit : Bool) (maxLag : Int) : Prop :=
  ∃ decision before view,
    evaluate (answering runner leader) (restartNode fleet nodeName false policy audit maxLag) =
      .ok (.gated decision before view) ∧ decision.allowed = true

section Restart

variable {runner : Invocation → Except Exn CommandResult}
  {leader : Node → String → Int → Option LeaderWindows} {fleet : Fleet}
  {nodeName clusterName : String} {cluster : Cluster} {node : Node} {policy : Policy}

theorem evaluate_gated_false {α : Type} (request : GateRequest) (audit : Bool)
    (closed : GateDecision → α) (execute : GateDecision → OpsProgram α) :
    evaluate (answering runner leader) (gated request false audit closed execute) =
      .ok (closed (gate request false)) := by
  unfold gated
  rw [if_neg (not_opens_false request)]
  cases audit with
  | false => rfl
  | true => rfl

theorem restartAllowed_iff (hf : fleet.findNode nodeName = some (clusterName, cluster, node))
    {inspection : Inspection}
    (hinspection : evaluate (answering runner leader) (inspectNode node) = .ok inspection)
    (audit : Bool) (maxLag : Int) :
    RestartAllowed runner leader fleet nodeName policy audit maxLag ↔
      ∃ pcts, usePcts inspection = .ok pcts ∧ inspection.service.ok = true ∧
        inspection.service.active = some "active" ∧
        diskFreeOk (policy.forCluster clusterName) pcts = true := by
  have hallowed : ∀ pcts,
      (gate (restartRequest clusterName cluster node nodeName (policy.forCluster clusterName)
        maxLag inspection pcts) false).allowed = true ↔
      inspection.service.ok = true ∧ inspection.service.active = some "active" ∧
        diskFreeOk (policy.forCluster clusterName) pcts = true := by
    intro pcts
    rw [gate_allowed_iff]
    simp [restartRequest]
  unfold RestartAllowed restartNode
  rw [hf]
  constructor
  · rintro ⟨decision, before, view, h, hdecision⟩
    rcases (evaluate_bind_ok_iff _).mp h with ⟨first, hfirst, h₁⟩
    have hsame : first = inspection := Except.ok.inj (hfirst.symm.trans hinspection)
    rw [hsame] at h₁
    rcases (evaluate_bind_ok_iff _).mp h₁ with ⟨pcts, hpcts, h₂⟩
    rcases (evaluate_bind_ok_iff _).mp h₂ with ⟨seen, _, h₃⟩
    rw [evaluate_gated_false] at h₃
    cases h₃
    exact ⟨pcts, hpcts, (hallowed pcts).mp hdecision⟩
  · rintro ⟨pcts, hpcts, hchecks⟩
    refine ⟨_, inspection, leader node cluster.referenceRpc
      (policy.forCluster clusterName).requireLeaderWindowMinutes, ?_, (hallowed pcts).mpr hchecks⟩
    refine (evaluate_bind_ok_iff _).mpr ⟨inspection, hinspection, ?_⟩
    refine (evaluate_bind_ok_iff _).mpr ⟨pcts, hpcts, ?_⟩
    exact (evaluate_bind_ok_iff _).mpr ⟨_, rfl, evaluate_gated_false _ _ _ _⟩

/-- Where a node was validated, its percentages could be read. -/
theorem evaluate_nodeChecks_ok {status : Option NodeStatus} {rules : PolicyRules}
    {checks : List Check}
    (h : evaluate (answering runner leader) (nodeChecks node status rules) = .ok checks) :
    ∃ inspection, evaluate (answering runner leader) (inspectNode node) = .ok inspection ∧
      (inspection.service.ok = true → ∃ pcts, usePcts inspection = .ok pcts) := by
  rcases (evaluate_bind_ok_iff _).mp h with ⟨inspection, hinspection, hread⟩
  refine ⟨inspection, hinspection, fun hreached => ?_⟩
  rw [evaluate_ofExcept, readNodeChecks, if_pos hreached] at hread
  cases hpcts : usePcts inspection with
  | error e =>
      rw [hpcts] at hread
      exact nomatch hread
  | ok pcts => exact ⟨pcts, rfl⟩

theorem restartAllowed_iff_restartable
    (hf : fleet.findNode nodeName = some (clusterName, cluster, node))
    {status : Option NodeStatus} {rules : PolicyRules} {checks : List Check}
    (h : evaluate (answering runner leader) (nodeChecks node status rules) = .ok checks)
    (audit : Bool) (maxLag : Int) :
    RestartAllowed runner leader fleet nodeName policy audit maxLag ↔
      Restartable runner (policy.forCluster clusterName) node := by
  rcases evaluate_nodeChecks_ok h with ⟨inspection, hinspection, hread⟩
  rcases evaluate_inspectNode_ok hinspection with ⟨shown, disks, hshown, hdisks, hservice, hdisk⟩
  rw [restartAllowed_iff hf hinspection]
  have hok : inspection.service.ok = true ↔ shown.exitCode = 0 := by
    rw [hservice]
    exact decide_eq_true_iff
  have hactive : inspection.service.active = (keyValues shown.stdout).get? "ActiveState" := by
    rw [hservice]
    rfl
  constructor
  · rintro ⟨pcts, hpcts, hreached, hserving, hfree⟩
    refine ⟨⟨shown, hshown, hok.mp hreached, hactive.symm.trans hserving⟩, fun r hr => ?_⟩
    rw [hdisks] at hr
    cases hr
    exact (diskFreeOk_usePcts_iff hdisk hpcts).mp hfree
  · rintro ⟨⟨r, hr, hexit, hserving⟩, hroomy⟩
    rw [hshown] at hr
    cases hr
    rcases hread (hok.mpr hexit) with ⟨pcts, hpcts⟩
    exact ⟨pcts, hpcts, hok.mpr hexit, hactive.trans hserving,
      (diskFreeOk_usePcts_iff hdisk hpcts).mpr (hroomy disks hdisks)⟩

end Restart

/-! ## Agreement -/

/-- Within an accepted fleet the name of a node finds a node, the first of that name. -/
theorem Fleet.exists_findNode {fleet : Fleet} {entry : String × Cluster}
    (he : entry ∈ fleet.clusters.entries) {node : Node} (hn : node ∈ entry.2.nodes) :
    ∃ clusterName cluster found, fleet.findNode node.name = some (clusterName, cluster, found) := by
  cases hf : fleet.findNode node.name with
  | some found => exact ⟨_, _, _, rfl⟩
  | none =>
      have hnone := congrArg (Option.map (·.2.2)) hf
      rw [Fleet.findNode_node, Option.map_none, List.find?_eq_none] at hnone
      exact absurd (decide_eq_true rfl) (hnone node (Fleet.mem_nodes_iff.mpr ⟨entry, he, hn⟩))

/-- Where validation returned, a node without a failed check is let through the gate exactly
when it has a reason to fail a check after all, or the node of its name is active and keeps
the disk floor. -/
theorem validated_restart_iff (a : AcceptedFleet) (policy : Policy)
    (clusters : List ClusterStatus) (environ : String → Option String)
    (runner : Invocation → Except Exn CommandResult)
    (leader : Node → String → Int → Option LeaderWindows) (audit : Bool) (maxLag : Int)
    {report : ValidationReport}
    (h : evaluate (answering runner leader) (validateFleet a.fleet policy clusters environ) =
      .ok report)
    {entry : String × Cluster} (he : entry ∈ a.fleet.clusters.entries) {node : Node}
    (hn : node ∈ entry.2.nodes) :
    (report.NoFail entry.1 node.name →
        RestartAllowed runner leader a.fleet node.name policy audit maxLag) ↔
      (Faultless runner ((statusByName clusters).get? node.name) node →
        ∀ found ∈ a.fleet.findNode node.name,
          Restartable runner (policy.forCluster found.1) found.2.2) := by
  rcases Fleet.exists_findNode he hn with ⟨clusterName, cluster, found, hf⟩
  rcases Fleet.findNode_spec hf with ⟨hcluster, hfound, hname⟩
  have hentry : (clusterName, cluster) ∈ a.fleet.clusters.entries :=
    Dict.get?_eq_some_iff.mp hcluster
  rcases exists_row h hentry hfound with ⟨row, _, _, _, hchecks⟩
  rw [noFail_iff h he hn, restartAllowed_iff_restartable hf hchecks, hf]
  refine imp_congr_right fun _ => ?_
  constructor
  · intro hrestartable found' hfound'
    rw [← Option.some.inj hfound']
    exact hrestartable
  · exact fun hall => hall _ rfl

/-- A host that answers, with its service down. -/
def downRunner : Invocation → Except Exn CommandResult
  | .ssh _ (.systemctlShow _) => .ok ⟨0, "ActiveState=failed", ""⟩
  | _ => .ok ⟨0, "abc", ""⟩

/-- The RPC still answered when the fleet was probed. -/
def seenClusters : List ClusterStatus :=
  [{ name := "testnet"
     referenceRpc := "https://api.testnet.solana.com"
     nodes := [{ name := "rpc-1", cluster := "testnet", role := .rpc, reachable := true,
                 healthy := some true }] }]

def downReport : Except Exn ValidationReport :=
  evaluate (answering downRunner fun _ _ _ => none)
    (validateFleet builtFleet.fleet {} seenClusters fun _ => none)

theorem downReport_ok : ∃ report, downReport = .ok report := by
  have hok : downReport.isOk = true := by decide +kernel
  cases hreport : downReport with
  | ok report => exact ⟨report, rfl⟩
  | error e =>
      rw [hreport] at hok
      exact nomatch hok

theorem faultless_down :
    Faultless downRunner ((statusByName seenClusters).get? "rpc-1") builtNode :=
  ⟨⟨_, rfl, rfl⟩, ⟨_, rfl, rfl⟩, fun _ => ⟨_, rfl, .inl ⟨rfl, rfl⟩⟩⟩

theorem not_restartable_down (rules : PolicyRules) : ¬ Restartable downRunner rules builtNode := by
  rintro ⟨⟨r, hr, -, hactive⟩, -⟩
  have hstate : (keyValues "ActiveState=failed").get? "ActiveState" ≠ some "active" := by
    decide +kernel
  rw [← Except.ok.inj hr] at hactive
  exact hstate hactive

/-- A service that is down only earns a warning, and the gate stays shut. -/
theorem validated_down_blocked :
    ¬ ∀ (a : AcceptedFleet) (policy : Policy) (clusters : List ClusterStatus)
      (environ : String → Option String) (runner : Invocation → Except Exn CommandResult)
      (leader : Node → String → Int → Option LeaderWindows) (audit : Bool) (maxLag : Int)
      (report : ValidationReport),
      evaluate (answering runner leader) (validateFleet a.fleet policy clusters environ) =
        .ok report →
      ∀ entry ∈ a.fleet.clusters.entries, ∀ node ∈ entry.2.nodes,
        report.NoFail entry.1 node.name →
          RestartAllowed runner leader a.fleet node.name policy audit maxLag := by
  intro h
  rcases downReport_ok with ⟨report, hreport⟩
  have hentry : ("testnet", builtCluster) ∈ builtFleet.fleet.clusters.entries :=
    List.mem_cons_self
  have hnode : builtNode ∈ builtCluster.nodes := List.mem_cons_self
  have hnone := (noFail_iff hreport hentry hnode).mpr faultless_down
  have hallowed := h builtFleet {} seenClusters _ downRunner _ true 2 report hreport _ hentry _
    hnode hnone
  rcases exists_row hreport hentry hnode with ⟨row, _, _, _, hchecks⟩
  exact not_restartable_down _
    ((restartAllowed_iff_restartable builtFleet_findNode hchecks true 2).mp hallowed)

theorem validated_restart_iff_down :
    ∃ report : ValidationReport, downReport = .ok report ∧
      ((report.NoFail "testnet" "rpc-1" →
          RestartAllowed downRunner (fun _ _ _ => none) builtFleet.fleet "rpc-1" {} true 2) ↔
        (Faultless downRunner ((statusByName seenClusters).get? "rpc-1") builtNode →
          ∀ found ∈ builtFleet.fleet.findNode "rpc-1",
            Restartable downRunner (Policy.forCluster {} found.1) found.2.2)) := by
  rcases downReport_ok with ⟨report, hreport⟩
  have hentry : ("testnet", builtCluster) ∈ builtFleet.fleet.clusters.entries :=
    List.mem_cons_self
  have hnode : builtNode ∈ builtCluster.nodes := List.mem_cons_self
  exact ⟨report, hreport, validated_restart_iff builtFleet {} seenClusters
    (fun _ => none) downRunner
    (fun _ _ _ => none) true 2 hreport hentry hnode⟩

end Solfleet
