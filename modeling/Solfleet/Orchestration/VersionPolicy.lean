import Solfleet.Orchestration

/-! # The version policy on the install paths

Two orchestrators install software. An upgrade consults the allowed versions before
anything else; provisioning takes a policy and does not.
-/

namespace Solfleet

open Interaction Program

/-! ## Install commands -/

/-- The commands of building, distributing, swapping and starting. -/
def Command.installs : Command → Bool
  | .testFiles _ => true
  | .build _ => true
  | .sha256sum _ => true
  | .swap _ => true
  | .systemctl _ verb _ => verb == "start"
  | _ => false

def Invocation.installs : Invocation → Bool
  | .ssh _ command => command.installs
  | .scpFrom .. => true
  | .scpTo .. => true

/-- Under any answers, an install command is sent only where `allowed` holds. -/
def GuardsInstalls {α : Type} (allowed : Prop) (p : OpsProgram α) : Prop :=
  ∀ trace result, Runs p trace result → ∀ i ∈ invocations trace, i.installs = true → allowed

def Harmless (i : Invocation) : Prop := i.installs = false

theorem inspectInvocations_harmless {node : Node} :
    ∀ i ∈ inspectInvocations node, Harmless i :=
  forall_inspectInvocations (fun _ => rfl) (fun _ => rfl) (fun _ => rfl) (fun _ => rfl)

/-! ## Upgrades -/

theorem upgradeRequest_opens {fleet : Fleet} {clusterName : String} {cluster : Cluster}
    {node : Node} {nodeName targetVersion : String} {rules : PolicyRules} {before : Inspection}
    {pcts : List Nat} {confirm : Bool}
    (h : (upgradeRequest fleet clusterName cluster node nodeName rules targetVersion before
      pcts).Opens confirm) :
    versionAllowed rules (some targetVersion) = true ∧ (builderOf fleet cluster).isSome = true ∧
      (!buildsGeyser cluster || node.service.geyserLib.isSome) = true := by
  have hchecks := gate_allowed_iff.mp h.2
  simp only [upgradeRequest, upgradeChecks, List.cons_append, List.forall_mem_cons] at hchecks
  exact ⟨hchecks.1, hchecks.2.2.1, hchecks.2.2.2.1⟩

/-- An upgrade installs only what the policy allows. -/
theorem executeUpgrade_guardsInstalls (fleet : Fleet) {nodeName clusterName : String}
    {cluster : Cluster} {node : Node}
    (hf : fleet.findNode nodeName = some (clusterName, cluster, node)) (targetVersion : String)
    (confirm : Bool) (policy : Policy) (audit : Bool) (maxLag : Int) (forceBuild : Bool) :
    GuardsInstalls (versionAllowed (policy.forCluster clusterName) (some targetVersion) = true)
      (executeUpgrade fleet nodeName targetVersion confirm policy audit maxLag forceBuild) := by
  intro trace result h i hi hinstalls
  rw [executeUpgrade_eq] at h
  have hprepare : (upgradePrepare fleet nodeName targetVersion policy audit maxLag
      forceBuild).AllCalls (OpsEffect.Sends Harmless) :=
    allCalls_upgradePrepare fun _ _ _ _ => inspectInvocations_harmless
  obtain hharmless | ⟨_, _, p, hp, _, hopens, _⟩ := runs_staged_invocation hprepare h hi
  · rw [hharmless] at hinstalls
    cases hinstalls
  · obtain ⟨_, _, _, before, pcts, hf', hreq, _⟩ := upgradePrepare_inr hp
    obtain ⟨rfl, rfl, rfl⟩ : clusterName = _ ∧ cluster = _ ∧ node = _ := by
      simpa using hf.symm.trans hf'
    rw [hreq] at hopens
    exact (upgradeRequest_opens hopens).1

/-! ## Disks -/

/-- A disk to format whose device nobody acknowledged. -/
def DiskConfig.Unacknowledged (allowFormat : Finset String) (disk : DiskConfig) : Prop :=
  disk.fs ≠ .tmpfs ∧ disk.format = true ∧ disk.device ∉ allowFormat

theorem harmless_runOn {target : SSHTarget} {command : Command}
    (h : command.installs = false) : (runOn target command).AllCalls (OpsEffect.Sends Harmless) :=
  allCalls_runOn h

theorem setupDisk_harmless (node : Node) (allowFormat : Finset String) (disk : DiskConfig) :
    (setupDisk node allowFormat disk).AllCalls (OpsEffect.Sends Harmless) :=
  allCalls_setupDisk rfl rfl rfl rfl

theorem setupDisk_unacknowledged {node : Node} {allowFormat : Finset String} {disk : DiskConfig}
    (h : disk.Unacknowledged allowFormat) :
    Returns (fun d => DiskSetup.ok d = false) (setupDisk node allowFormat disk) := by
  obtain ⟨hfs, hformat, hdevice⟩ := h
  rw [setupDisk, if_neg hfs]
  refine Returns.after fun probe => ?_
  simp only [hformat, if_true, formatRefusal, if_pos hdevice]
  exact returns_pure_iff.mpr rfl

/-- What a command that succeeds and prints nothing reports. -/
def silent : CommandResult := ⟨0, "", ""⟩

/-- A disk that is not refused outright can be set up. -/
theorem setupDisk_succeeds (node : Node) {allowFormat : Finset String} {disk : DiskConfig}
    (h : ¬ disk.Unacknowledged allowFormat) :
    ∃ trace d, Runs (setupDisk node allowFormat disk) trace (.ok d) ∧ DiskSetup.ok d = true := by
  have hmount : ∀ formatted wasEmpty, ∃ trace d,
      Runs (mountDisk node disk formatted wasEmpty) trace (.ok d) ∧ DiskSetup.ok d = true :=
    fun _ _ => ⟨_, _, runs_runOn_bind silent (.done _), rfl⟩
  have hstrip : Text.strip silent.stdout = "" := by decide
  by_cases hfs : disk.fs = .tmpfs
  · rw [setupDisk, if_pos hfs]
    exact ⟨_, _, runs_runOn_bind silent (.done _), rfl⟩
  rw [setupDisk, if_neg hfs]
  by_cases hformat : disk.format = true
  · have hdevice : ¬ disk.device ∉ allowFormat := fun hd => h ⟨hfs, hformat, hd⟩
    obtain ⟨trace, d, hrun, hok⟩ := hmount true true
    refine ⟨⟨.runner (.ssh (.node node) (.probeDisk disk.device)), .ok silent⟩ ::
      ⟨.runner (.ssh (.node node) (.mkfs disk.fs disk.device)), .ok silent⟩ :: trace, d, ?_, hok⟩
    refine runs_runOn_bind silent ?_
    simp only [hformat, if_true, formatRefusal, if_neg hdevice, hstrip, ne_eq, not_true_eq_false,
      if_false]
    exact runs_runOn_bind silent hrun
  · obtain ⟨trace, d, hrun, hok⟩ := hmount false true
    refine ⟨⟨.runner (.ssh (.node node) (.probeDisk disk.device)), .ok silent⟩ :: trace, d, ?_, hok⟩
    refine runs_runOn_bind silent ?_
    simp only [hformat, hstrip]
    exact hrun

theorem setupDisks_succeed (node : Node) {allowFormat : Finset String} {disks : List DiskConfig}
    (h : ∀ disk ∈ disks, ¬ disk.Unacknowledged allowFormat) :
    ∃ trace results, Runs (each disks (setupDisk node allowFormat)) trace (.ok results) ∧
      results.all DiskSetup.ok = true := by
  induction disks with
  | nil => exact ⟨[], [], runs_pure_iff.mpr ⟨rfl, rfl⟩, rfl⟩
  | cons disk disks ih =>
      obtain ⟨first, d, hd, hok⟩ := setupDisk_succeeds node (h disk (by simp))
      obtain ⟨rest, results, hr, hall⟩ := ih fun d hd => h d (by simp [hd])
      refine ⟨first ++ rest, d :: results, runs_each_cons_ok_iff.mpr
        ⟨first, rest, d, results, hd, hr, rfl, rfl⟩, ?_⟩
      simp [hok, hall]

/-! ## Provisioning -/

theorem provisionRequest_opens {fleet : Fleet} {clusterName : String} {cluster : Cluster}
    {node : Node} {nodeName targetVersion : String} {pre : Preflight} {confirm : Bool} :
    (provisionRequest fleet clusterName cluster node nodeName targetVersion pre).Opens confirm ↔
      confirm = true ∧ pre.blockers = [] ∧ (builderName cluster).isSome = true ∧
        (builderOf fleet cluster).isSome = true := by
  simp [GateRequest.Opens, gate_allowed_iff, provisionRequest]

/-- A disk nobody acknowledged ends the stages before any software is touched. -/
theorem provisionStages_harmless {fleet : Fleet} {cluster : Cluster} {node : Node}
    {targetVersion : String} {allowFormat : Finset String} {maxLag catchupTimeout : Int}
    {disk : DiskConfig} (hd : disk ∈ node.disks) (h : disk.Unacknowledged allowFormat) :
    (provisionStages fleet cluster node targetVersion allowFormat maxLag
      catchupTimeout).AllCalls (OpsEffect.Sends Harmless) := by
  refine AllCalls.bind ((harmless_runOn rfl).bind fun _ => trivial) fun user => ?_
  refine AllCalls.bind ((harmless_runOn rfl).bind fun _ => trivial) fun system => ?_
  refine allCalls_bind_iff.mpr ⟨AllCalls.each fun d _ => setupDisk_harmless node allowFormat d, ?_⟩
  intro trace disks hdisks
  obtain ⟨d, hmem, hr⟩ := Returns.each_mem hd (setupDisk_unacknowledged h) _ _ hdisks
  have hall : disks.all DiskSetup.ok = false := List.all_eq_false.mpr ⟨d, hmem, by simp [hr]⟩
  simp only [hall]
  trivial

/-- A host that passes the preflight. -/
def bareHost : CommandResult := ⟨0, "arch=x86_64\ncores=8\nram=8589934592\n", ""⟩

theorem readPreflight_bareHost : (readPreflight bareHost).map (·.blockers) = .ok [] := by
  decide +kernel

def NoBuildStep (i : Invocation) : Prop := ∀ target step, i ≠ .ssh target (.build step)

theorem Harmless.noBuildStep {i : Invocation} (h : Harmless i) : NoBuildStep i := by
  rintro target step rfl
  cases h

/-- A build starts in some run, unless no builder is found or a disk is refused. -/
theorem provision_builds {fleet : Fleet} {nodeName clusterName : String} {cluster : Cluster}
    {node : Node} (hf : fleet.findNode nodeName = some (clusterName, cluster, node))
    {builder : BuilderHost} (hb : builderOf fleet cluster = some builder)
    {allowFormat : Finset String}
    (hdisks : ∀ disk ∈ node.disks, ¬ disk.Unacknowledged allowFormat) (targetVersion : String)
    (policy : Policy) (audit : Bool) (maxLag catchupTimeout : Int) :
    ¬ (provisionNode fleet nodeName targetVersion true allowFormat policy audit maxLag
      catchupTimeout).AllCalls (OpsEffect.Sends NoBuildStep) := by
  intro h
  obtain ⟨⟨install, hi⟩, hname⟩ := install_of_builderOf hb
  obtain ⟨pre, hpre, hblockers⟩ : ∃ pre, readPreflight bareHost = .ok pre ∧ pre.blockers = [] := by
    have hread := readPreflight_bareHost
    cases hr : readPreflight bareHost with
    | error e => simp [hr, Except.map] at hread
    | ok pre => exact ⟨pre, rfl, by simpa [hr, Except.map] using hread⟩
  -- walk the run in which every command succeeds but the look for a cached build
  rw [provisionNode, hf] at h
  have hgate := (allCalls_bind_iff.mp h).2 _ pre
    (runs_runOn_bind bareHost (runs_ofExcept_iff.mpr ⟨rfl, hpre.symm⟩))
  have hopens : (provisionRequest fleet clusterName cluster node nodeName targetVersion pre).Opens
      true := provisionRequest_opens.mpr ⟨rfl, hblockers, hname, by simp [hb]⟩
  rw [gated, if_pos hopens] at hgate
  have hstages := (allCalls_bind_iff.mp hgate).1
  obtain ⟨trace, disks, hrun, hall⟩ := setupDisks_succeed node hdisks
  have hsystem := (allCalls_bind_iff.mp hstages).2 _ _ (runs_runOn_bind silent (.done _))
  have hdisk := (allCalls_bind_iff.mp hsystem).2 _ _ (runs_runOn_bind silent (.done _))
  have hsoftware := (allCalls_bind_iff.mp hdisk).2 _ _ hrun
  simp only [hall, if_true, hi, hb] at hsoftware
  have hbuild := (allCalls_bind_iff.mp hsoftware).1
  have hfresh := (allCalls_bind_iff.mp hbuild).2 _ false
    (runs_map_iff.mpr ⟨_, runs_runOn _ _ ⟨1, "", ""⟩, rfl⟩)
  have hsteps := (allCalls_bind_iff.mp hfresh).1
  have hstep := sends_runner_iff.mp (allCalls_bind_iff.mp hsteps).1.1
  exact hstep _ _ rfl

theorem allCalls_of_guardsInstalls {α : Type} {allowed : Prop} {p : OpsProgram α}
    (hallowed : ¬ allowed) (h : GuardsInstalls allowed p) :
    p.AllCalls (OpsEffect.Sends Harmless) := by
  refine allCalls_iff_runs.mpr fun trace result hr event he invocation hop => ?_
  have hi := h trace result hr invocation (mem_invocations_iff.mpr ⟨event, he, hop⟩)
  exact Bool.eq_false_iff.mpr fun hinstalls => hallowed (hi hinstalls)

/-- When provisioning installs only what is allowed: when it is allowed anyway, or nothing
can be installed at all. -/
theorem provisionNode_guardsInstalls_iff {fleet : Fleet} {nodeName clusterName : String}
    {cluster : Cluster} {node : Node}
    (hf : fleet.findNode nodeName = some (clusterName, cluster, node)) (targetVersion : String)
    (allowFormat : Finset String) (policy : Policy) (audit : Bool) (maxLag catchupTimeout : Int)
    (allowed : Prop) :
    GuardsInstalls allowed
        (provisionNode fleet nodeName targetVersion true allowFormat policy audit maxLag
          catchupTimeout) ↔
      allowed ∨ builderOf fleet cluster = none ∨
        ∃ disk ∈ node.disks, disk.Unacknowledged allowFormat := by
  constructor
  · intro h
    by_contra hcon
    simp only [not_or, not_exists, not_and] at hcon
    obtain ⟨hallowed, hb, hdisks⟩ := hcon
    obtain ⟨builder, hb⟩ := Option.ne_none_iff_exists'.mp hb
    refine provision_builds hf hb hdisks targetVersion policy audit maxLag catchupTimeout ?_
    refine (allCalls_of_guardsInstalls hallowed h).mono fun op hop i hi => ?_
    exact (hop i hi).noBuildStep
  · rintro (hallowed | hblocked)
    · exact fun _ _ _ _ _ _ => hallowed
    intro trace result h i hi hinstalls
    rw [provisionNode_eq] at h
    have hprepare : (provisionPrepare fleet nodeName targetVersion allowFormat audit maxLag
        catchupTimeout).AllCalls (OpsEffect.Sends Harmless) :=
      allCalls_provisionPrepare fun _ _ _ _ => rfl
    obtain hharmless | ⟨_, rest, p, hp, _, hopens, hexec, hrest⟩ :=
      runs_staged_invocation hprepare h hi
    · rw [hharmless] at hinstalls
      cases hinstalls
    obtain ⟨_, _, _, pre, hf', hreq, hexecute⟩ := provisionPrepare_inr hp
    obtain ⟨rfl, rfl, rfl⟩ : clusterName = _ ∧ cluster = _ ∧ node = _ := by
      simpa using hf.symm.trans hf'
    rw [hreq, provisionRequest_opens] at hopens
    obtain hnone | ⟨disk, hd, hu⟩ := hblocked
    · simp [hnone] at hopens
    · rw [hexecute] at hexec
      have hstages : (auditedProvision fleet clusterName cluster node nodeName targetVersion
          allowFormat audit maxLag catchupTimeout (gate p.request true)).AllCalls
          (OpsEffect.Sends Harmless) :=
        (provisionStages_harmless hd hu).bind fun _ => allCalls_recordOps_pure ..
      rw [invocations_of_allCalls hstages hexec i hrest] at hinstalls
      cases hinstalls

/-- Both install paths keep to the allowed versions exactly where provisioning has
nothing to keep to: the version is allowed, no builder is found, or a disk is refused. -/
theorem installs_allowed_iff (a : AcceptedFleet) {nodeName clusterName : String}
    {cluster : Cluster} {node : Node}
    (hf : a.fleet.findNode nodeName = some (clusterName, cluster, node)) (targetVersion : String)
    (policy : Policy) (audit forceBuild : Bool) (maxLag catchupTimeout : Int)
    (allowFormat : Finset String) :
    (GuardsInstalls (versionAllowed (policy.forCluster clusterName) (some targetVersion) = true)
        (executeUpgrade a.fleet nodeName targetVersion true policy audit maxLag forceBuild) ∧
      GuardsInstalls (versionAllowed (policy.forCluster clusterName) (some targetVersion) = true)
        (provisionNode a.fleet nodeName targetVersion true allowFormat policy audit maxLag
          catchupTimeout)) ↔
      versionAllowed (policy.forCluster clusterName) (some targetVersion) = true ∨
        builderOf a.fleet cluster = none ∨
          ∃ disk ∈ node.disks, disk.Unacknowledged allowFormat := by
  rw [provisionNode_guardsInstalls_iff hf, and_iff_right]
  exact executeUpgrade_guardsInstalls a.fleet hf targetVersion true policy audit maxLag forceBuild

theorem installs_allowed_iff_built :
    GuardsInstalls (versionAllowed (Policy.forCluster {} "testnet") (some "v3.0.1") = true)
        (executeUpgrade builtFleet.fleet "rpc-1" "v3.0.1" true {} true 2 false) ∧
      GuardsInstalls (versionAllowed (Policy.forCluster {} "testnet") (some "v3.0.1") = true)
        (provisionNode builtFleet.fleet "rpc-1" "v3.0.1" true ∅ {} true 2 1800) :=
  (installs_allowed_iff builtFleet builtFleet_findNode "v3.0.1" {} true false 2 1800 ∅).mpr
    (.inl (by decide))

/-- Only the releases of one line. -/
def pinnedPolicy : Policy := { defaults := { allowedVersions := ["v3.*"] } }

/-- A version outside the policy is built for a new host. -/
theorem provision_builds_disallowed :
    versionAllowed (pinnedPolicy.forCluster "testnet") (some "v9.9.9") = false ∧
      ∃ trace result,
        Runs (provisionNode builtFleet.fleet "rpc-1" "v9.9.9" true ∅ pinnedPolicy true 2 1800)
          trace result ∧
        ∃ target step, .ssh target (.build step) ∈ invocations trace := by
  refine ⟨by decide, ?_⟩
  by_contra hcon
  have hdisks : ∀ disk ∈ builtNode.disks, ¬ disk.Unacknowledged ∅ := by simp [builtNode]
  refine provision_builds builtFleet_findNode rfl hdisks "v9.9.9" pinnedPolicy true 2
    1800 (allCalls_iff_runs.mpr fun trace result hr event he i hop target step hi => hcon ?_)
  exact ⟨trace, result, hr, target, step, mem_invocations_iff.mpr ⟨event, he, hi ▸ hop⟩⟩

end Solfleet
