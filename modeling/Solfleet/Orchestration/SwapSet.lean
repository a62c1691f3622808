import Solfleet.Orchestration.MixedSet

/-! # The swap set

Which destinations an upgrade swaps is decided by the artifacts the cluster builds and
by where the node's own paths put them. The service's binary and its geyser library are
among them only where the paths agree.
-/

namespace Solfleet

open Interaction Program

/-! ## Destinations -/

def binDir (node : Node) : String :=
  if Text.dirname node.service.binary = "" then "/usr/local/bin"
  else Text.dirname node.service.binary

theorem destFor_agave {node : Node} {b : String} (hb : b ∈ agaveBins) :
    destFor node b = some (binDir node ++ "/" ++ b) := by
  have hlib : b ≠ geyserLibName := by
    rintro rfl
    exact absurd hb (by decide)
  simp [destFor, hlib, hb, binDir]

theorem destFor_geyser (node : Node) : destFor node geyserLibName = node.service.geyserLib := by
  simp [destFor]

/-- The swaps contain the service's binary, and its geyser library if it has one. -/
def CompleteSet (node : Node) (swaps : List Swap) : Prop :=
  node.service.binary ∈ swaps.map (·.dest) ∧
    ∀ lib, node.service.geyserLib = some lib → lib ∈ swaps.map (·.dest)

/-- A path that `destFor` gives back: an artifact's name in a directory that is spelled
without a trailing slash. -/
theorem binary_eq_join_iff {node : Node} {b : String} (hb : '/' ∉ b.toList) :
    node.service.binary = binDir node ++ "/" ++ b ↔
      ∃ d, d ≠ "" ∧ Text.endsWith '/' d = false ∧ node.service.binary = d ++ "/" ++ b := by
  constructor
  · intro h
    by_cases hd : Text.dirname node.service.binary = ""
    · refine ⟨"/usr/local/bin", by decide, by decide, ?_⟩
      rw [h, binDir, if_pos hd]
    · have hdir : binDir node = Text.dirname node.service.binary := if_neg hd
      rw [hdir] at h
      have hself : Text.dirname (Text.dirname node.service.binary ++ "/" ++ b) =
          Text.dirname node.service.binary := congrArg Text.dirname h.symm
      obtain ⟨hne, hlast⟩ := Text.of_dirname_join hb hself
      exact ⟨_, hne, hlast, h⟩
  · rintro ⟨d, hne, hlast, h⟩
    have hdir : Text.dirname node.service.binary = d := by
      rw [h, Text.dirname_join hne hlast hb]
    rw [h, binDir, hdir, if_neg hne]

theorem mem_upgradeSwaps_dest_iff {cluster : Cluster} {node : Node} {install : InstallConfig}
    (hi : cluster.install = some install) {path : String} :
    path ∈ (upgradeSwaps cluster node).map (·.dest) ↔
      (∃ b ∈ agaveBins, path = binDir node ++ "/" ++ b) ∨
        (buildsGeyser cluster = true ∧ node.service.geyserLib = some path) := by
  have hswap : ∀ name, (∃ swap, swapFor node name = some swap ∧ swap.dest = path) ↔
      destFor node name = some path := by
    intro name
    cases hd : destFor node name with
    | none => simp [swapFor, hd]
    | some dest => simp [swapFor, hd]
  have hmem : path ∈ (upgradeSwaps cluster node).map (·.dest) ↔
      ∃ name ∈ artifactNames install, destFor node name = some path := by
    simp only [upgradeSwaps, hi, List.mem_map, List.mem_filterMap, ← hswap]
    constructor
    · rintro ⟨swap, ⟨name, hn, hs⟩, hd⟩
      exact ⟨name, hn, swap, hs, hd⟩
    · rintro ⟨name, hn, swap, hs, hd⟩
      exact ⟨swap, ⟨name, hn, hs⟩, hd⟩
  have hgeyser : buildsGeyser cluster = Text.truthy install.geyserRepo := by
    simp [buildsGeyser, hi]
  rw [hmem, hgeyser, artifactNames]
  constructor
  · rintro ⟨name, hn, hd⟩
    obtain hn | hn := List.mem_append.mp hn
    · rw [destFor_agave hn] at hd
      exact .inl ⟨name, hn, (Option.some.inj hd).symm⟩
    · split at hn
      case isFalse => cases hn
      case isTrue hrepo =>
      rw [List.mem_singleton] at hn
      rw [hn, destFor_geyser] at hd
      exact .inr ⟨hrepo, hd⟩
  · rintro (⟨b, hb, rfl⟩ | ⟨hrepo, hd⟩)
    · exact ⟨b, List.mem_append_left _ hb, destFor_agave hb⟩
    · refine ⟨geyserLibName, List.mem_append_right _ (by simp [hrepo]), ?_⟩
      rw [destFor_geyser, hd]

/-- The binary is an agave artifact in a plainly spelled directory (or doubles as the
geyser library), and the library is built or is an agave artifact beside the binary. -/
def LockstepPaths (cluster : Cluster) (node : Node) : Prop :=
  ((∃ b ∈ agaveBins, ∃ d, d ≠ "" ∧ Text.endsWith '/' d = false ∧
      node.service.binary = d ++ "/" ++ b) ∨
    (buildsGeyser cluster = true ∧ node.service.geyserLib = some node.service.binary)) ∧
  ∀ lib, node.service.geyserLib = some lib →
    buildsGeyser cluster = true ∨ ∃ b ∈ agaveBins, lib = binDir node ++ "/" ++ b

theorem completeSet_iff {cluster : Cluster} {node : Node} {install : InstallConfig}
    (hi : cluster.install = some install) :
    CompleteSet node (upgradeSwaps cluster node) ↔ LockstepPaths cluster node := by
  have hnames : ∀ b ∈ agaveBins, '/' ∉ b.toList := by decide
  unfold CompleteSet LockstepPaths
  refine and_congr ?_ (forall₂_congr fun lib hlib => ?_)
  · rw [mem_upgradeSwaps_dest_iff hi]
    refine or_congr_left (exists_congr fun b => and_congr_right fun hb => ?_)
    exact binary_eq_join_iff (hnames b hb)
  · rw [mem_upgradeSwaps_dest_iff hi, or_comm, hlib]
    simp

/-! ## Every run that swaps -/

/-- The only swap an upgrade sends is the one of its destinations. -/
def SwapsOnly (node : Node) (swaps : List Swap) (i : Invocation) : Prop :=
  ∀ target sent, i = .ssh target (.swap sent) → target = .node node ∧ sent = swaps

theorem swapsOnly_of_calm {node : Node} {swaps : List Swap} {i : Invocation}
    (h : i.disturbs = false) : SwapsOnly node swaps i := by
  rintro target sent rfl
  cases h

theorem allCalls_upgradeWith_swapsOnly {fleet : Fleet} {cluster : Cluster} {node : Node}
    (rules : PolicyRules) (version : String) (maxLag : Int) (forceBuild : Bool)
    (d : GateDecision) :
    (upgradeWith fleet cluster node rules version maxLag forceBuild d).AllCalls
      (OpsEffect.Sends (SwapsOnly node (upgradeSwaps cluster node))) := by
  have hcalm : ∀ {α : Type} {p : OpsProgram α},
      p.AllCalls (OpsEffect.Sends fun i => i.disturbs = false) →
      p.AllCalls (OpsEffect.Sends (SwapsOnly node (upgradeSwaps cluster node))) :=
    fun hp => AllCalls.mono hp fun _ hop i hi => swapsOnly_of_calm (hop i hi)
  unfold upgradeWith
  split
  · trivial
  · trivial
  case _ install builder hi hb =>
  refine allCalls_bind_iff.mpr ⟨hcalm (AllCalls.calm (quiet_buildArtifacts ..)),
    fun built build hbuild => ?_⟩
  split
  case isFalse => trivial
  case isTrue hbuildOk =>
  refine allCalls_bind_iff.mpr ⟨hcalm (calm_distribute ..), fun delivered dist hdist => ?_⟩
  split
  case isFalse => trivial
  case isTrue hdistOk =>
  have hswaps : dist.swaps = upgradeSwaps cluster node := by
    rw [(runs_distribute hdist hdistOk).2.2, (runs_buildArtifacts hbuild hbuildOk).1]
    simp only [upgradeSwaps, hi]
  refine AllCalls.map _ (AllCalls.bind ?_ fun cycled => ?_)
  · refine (afterDelivery_swapAndCycle rules version dist).mono fun op hop i hi => ?_
    rintro target sent rfl
    rw [← hswaps]
    exact hop _ hi
  · refine (allCalls_waitForCatchup ..).bind fun catchup => ?_
    exact hcalm (AllCalls.calm (allCalls_inspectNode inspectInvocations_quiet) |>.bind
      fun _ => trivial)

theorem executeUpgrade_swapsOnly {fleet : Fleet} {nodeName clusterName : String}
    {cluster : Cluster} {node : Node}
    (hf : fleet.findNode nodeName = some (clusterName, cluster, node)) {version : String}
    {confirm : Bool} {policy : Policy} {audit forceBuild : Bool} {maxLag : Int}
    {trace : List OpsEvent} {result : Except Exn UpgradeResult}
    (h : Runs (executeUpgrade fleet nodeName version confirm policy audit maxLag forceBuild) trace
      result) {target : SSHTarget} {swaps : List Swap}
    (hsent : .ssh target (.swap swaps) ∈ invocations trace) :
    swaps = upgradeSwaps cluster node ∧
      (gate (planRequest fleet clusterName cluster node nodeName (policy.forCluster clusterName)
        version) false).allowed = true ∧ ∃ install, cluster.install = some install := by
  rw [executeUpgrade_eq] at h
  have hprepare : (upgradePrepare fleet nodeName version policy audit maxLag
      forceBuild).AllCalls (OpsEffect.Sends fun i => i.disturbs = false) :=
    AllCalls.calm (allCalls_upgradePrepare fun _ _ _ _ => inspectInvocations_quiet)
  obtain hcalm | ⟨_, _, p, hp, _, hopens, hexec, hrest⟩ := runs_staged_invocation hprepare h hsent
  · cases hcalm
  obtain ⟨_, _, _, before, pcts, hf', hreq, hexecute⟩ := upgradePrepare_inr hp
  obtain ⟨rfl, rfl, rfl⟩ : clusterName = _ ∧ cluster = _ ∧ node = _ := by
    simpa using hf.symm.trans hf'
  rw [hreq] at hopens
  rw [hexecute] at hexec
  have hallowed := upgradeRequest_allowed hopens.2
  have honly : (auditedUpgrade fleet clusterName cluster node nodeName
      (policy.forCluster clusterName) version audit maxLag forceBuild
      (gate p.request confirm)).AllCalls
      (OpsEffect.Sends (SwapsOnly node (upgradeSwaps cluster node))) :=
    (allCalls_upgradeWith_swapsOnly ..).bind fun _ => allCalls_recordOps_pure ..
  obtain ⟨builder, hb⟩ := Option.isSome_iff_exists.mp (planRequest_allowed hallowed).2.1
  exact ⟨(invocations_of_allCalls honly hexec _ hrest target swaps rfl).2, hallowed,
    (install_of_builderOf hb).1⟩

/-- Every swap of an upgrade is complete exactly if the upgrade is not allowed or the
paths and the install section agree. -/
theorem upgrade_completeSet_iff (a : AcceptedFleet) {nodeName clusterName : String}
    {cluster : Cluster} {node : Node}
    (hf : a.fleet.findNode nodeName = some (clusterName, cluster, node)) (version : String)
    (policy : Policy) (audit : Bool) (maxLag : Int) (forceBuild : Bool) :
    (∀ trace result,
      Runs (executeUpgrade a.fleet nodeName version true policy audit maxLag forceBuild) trace
        result →
      ∀ target swaps, .ssh target (.swap swaps) ∈ invocations trace → CompleteSet node swaps) ↔
    (gate (planRequest a.fleet clusterName cluster node nodeName (policy.forCluster clusterName)
      version) false).allowed = false ∨ LockstepPaths cluster node := by
  constructor
  · intro h
    refine (Bool.eq_false_or_eq_true _).symm.imp_right fun hallowed => ?_
    obtain ⟨trace, result, hrun, _, hsent⟩ :=
      executeUpgrade_canSend_swap hf version policy audit maxLag forceBuild hallowed ⟨0, true, none⟩
    obtain ⟨builder, hb⟩ := Option.isSome_iff_exists.mp (planRequest_allowed hallowed).2.1
    obtain ⟨⟨install, hi⟩, _⟩ := install_of_builderOf hb
    exact (completeSet_iff hi).mp (h trace result hrun _ _ hsent)
  · intro h trace result hrun target swaps hsent
    obtain ⟨rfl, hallowed, install, hi⟩ := executeUpgrade_swapsOnly hf hrun hsent
    exact (completeSet_iff hi).mpr (h.resolve_left (by simp [hallowed]))

theorem upgrade_completeSet_iff_built :
    (∀ trace result,
      Runs (executeUpgrade builtFleet.fleet "rpc-1" "v3.0.1" true {} true 2 false) trace result →
      ∀ target swaps, .ssh target (.swap swaps) ∈ invocations trace →
        CompleteSet builtNode swaps) ↔
    (gate (planRequest builtFleet.fleet "testnet" builtCluster builtNode "rpc-1"
      (Policy.forCluster {} "testnet") "v3.0.1") false).allowed = false ∨
        LockstepPaths builtCluster builtNode :=
  upgrade_completeSet_iff builtFleet builtFleet_findNode "v3.0.1" {} true 2 false

/-- A node with a geyser plugin in a cluster that builds none. -/
def pluginNode : Node :=
  { builtNode with
    service := { geyserLib := some "/usr/local/lib/libyellowstone_grpc_geyser.so" } }

def pluginCluster : Cluster := { builtCluster with nodes := [pluginNode] }

def pluginFleet : AcceptedFleet where
  fleet := { builtFleet.fleet with clusters := ⟨[("testnet", pluginCluster)], by decide⟩ }
  accepted := by decide

/-- The plugin stays at the old version under the new validator. -/
theorem upgrade_leaves_plugin :
    ∃ trace result,
      Runs (executeUpgrade pluginFleet.fleet "rpc-1" "v3.0.1" true {} true 2 false) trace result ∧
        ∃ target swaps, .ssh target (.swap swaps) ∈ invocations trace ∧
          ¬ CompleteSet pluginNode swaps := by
  have hf : pluginFleet.fleet.findNode "rpc-1" = some ("testnet", pluginCluster, pluginNode) := rfl
  obtain ⟨trace, result, hrun, _, hsent⟩ :=
    executeUpgrade_canSend_swap hf "v3.0.1" {} true 2 false (by decide) ⟨0, true, none⟩
  refine ⟨trace, result, hrun, _, _, hsent, fun hcomplete => ?_⟩
  exact absurd (hcomplete.2 _ rfl) (by decide)

end Solfleet
