import Solfleet.Orchestration.Outcome

/-! # What success stands for

A plan announces steps: a restart ends by verifying that the service is active, and an
upgrade swaps the files together with the version marker. The success flags are conjunctions
over some of these steps.
-/

namespace Solfleet

open Interaction Program

/-! ## Announced steps -/

def markerCommand (node : Node) (version : String) : Option Command :=
  match node.service.versionMarker with
  | none => none
  | some marker => if marker = "" then none else some (.writeMarker (tag version) marker)

/-- The marker, if there is one, was written. -/
def MarkerExits (node : Node) (version : String) (trace : List OpsEvent) : Prop :=
  ∀ command ∈ markerCommand node version, Exits trace node command

structure RestartVerified (rules : PolicyRules) (cluster : Cluster) (node : Node) (maxLag : Int)
    (trace : List OpsEvent) : Prop where
  cycled : CycleExits rules node trace
  caughtUp : SeesCatchup node cluster.referenceRpc maxLag trace
  active : SeesActive node trace

structure UpgradeVerified (rules : PolicyRules) (cluster : Cluster) (node : Node)
    (version : String) (maxLag : Int) (swaps : List Swap) (trace : List OpsEvent) : Prop where
  swapped : Exits trace node (.swap swaps)
  marked : MarkerExits node version trace
  cycled : CycleExits rules node trace
  caughtUp : SeesCatchup node cluster.referenceRpc maxLag trace
  version : SeesVersion node version trace

/-- Nothing of the service is asked for the flag of a restart, and nothing of the marker for
that of an upgrade. -/
theorem succeeded_verified_iff (a : AcceptedFleet) {nodeName clusterName : String}
    {cluster : Cluster} {node : Node}
    (hf : a.fleet.findNode nodeName = some (clusterName, cluster, node)) (confirm : Bool)
    (policy : Policy) (audit : Bool) (maxLag : Int) :
    (∀ trace decision beforeSlot cycle catchup afterService leader succeeded,
      Runs (restartNode a.fleet nodeName confirm policy audit maxLag) trace
        (.ok (.executed decision beforeSlot cycle catchup afterService leader succeeded)) →
      ((succeeded = true →
          RestartVerified (policy.forCluster clusterName) cluster node maxLag trace) ↔
        SeesActive node trace ∨ ¬ CycleExits (policy.forCluster clusterName) node trace ∨
          ¬ SeesCatchup node cluster.referenceRpc maxLag trace)) ∧
    ∀ version forceBuild trace outcome,
      Runs (executeUpgrade a.fleet nodeName version confirm policy audit maxLag forceBuild) trace
        (.ok (.executed outcome)) →
      ((outcome.succeeded = true →
          UpgradeVerified (policy.forCluster clusterName) cluster node version maxLag
            outcome.distribution.swaps trace) ↔
        MarkerExits node version trace ∨ ¬ Exits trace node (.swap outcome.distribution.swaps) ∨
          ¬ CycleExits (policy.forCluster clusterName) node trace ∨
          ¬ SeesCatchup node cluster.referenceRpc maxLag trace ∨
          ¬ SeesVersion node version trace) := by
  constructor
  · intro trace decision beforeSlot cycle catchup afterService leader succeeded h
    obtain ⟨_, _, _, hf', hflag, -⟩ := restart_succeeded_iff h
    obtain ⟨rfl, rfl, rfl⟩ : clusterName = _ ∧ cluster = _ ∧ node = _ := by
      simpa using hf.symm.trans hf'
    rw [hflag]
    constructor
    · intro hverified
      by_cases hboth : CycleExits (policy.forCluster clusterName) node trace ∧
          SeesCatchup node cluster.referenceRpc maxLag trace
      · exact Or.inl (hverified hboth).active
      · exact Or.inr (not_and_or.mp hboth)
    · rintro hcond ⟨hcycled, hcaught⟩
      rcases hcond with hactive | hfailed | hbehind
      · exact ⟨hcycled, hcaught, hactive⟩
      · exact absurd hcycled hfailed
      · exact absurd hcaught hbehind
  · intro version forceBuild trace outcome h
    obtain ⟨_, _, _, hf', hflag, r, hr, hversion⟩ := upgrade_succeeded_iff h
    obtain ⟨rfl, rfl, rfl⟩ : clusterName = _ ∧ cluster = _ ∧ node = _ := by
      simpa using hf.symm.trans hf'
    rw [hversion, ← seesVersion_iff hr] at hflag
    rw [hflag]
    constructor
    · intro hverified
      by_cases hall : Exits trace node (.swap outcome.distribution.swaps) ∧
          CycleExits (policy.forCluster clusterName) node trace ∧
          SeesCatchup node cluster.referenceRpc maxLag trace ∧ SeesVersion node version trace
      · exact Or.inl (hverified hall).marked
      · simp only [not_and_or] at hall
        exact Or.inr hall
    · rintro hcond ⟨hswapped, hcycled, hcaught, hseen⟩
      rcases hcond with hmarked | hfailed | hfailed | hfailed | hfailed
      · exact ⟨hswapped, hmarked, hcycled, hcaught, hseen⟩
      · exact absurd hswapped hfailed
      · exact absurd hcycled hfailed
      · exact absurd hcaught hfailed
      · exact absurd hseen hfailed

/-- A host whose service is active until it is cycled, and then healthy all the same. -/
def fadingHost : Handler opsSignature Exn Nat
  | .runner (.ssh _ (.systemctlShow _)), n =>
      (.ok ⟨0, if n = 0 then "ActiveState=active" else "ActiveState=failed", ""⟩, n + 1)
  | .runner _, n => (.ok ⟨0, "abc 3.0.1", ""⟩, n)
  | .mkdtemp _, n => (.ok "/tmp/solfleet-0", n)
  | .sample .., n => (.ok { healthy := some true, lag := some 0 }, n)
  | .leader .., n => (.ok none, n)
  | .sleep _, n => (.ok (), n)
  | .audit _, n => (.ok (), n)

def restartReport : Except Exn RestartResult → Option (Option String × Bool)
  | .ok (.executed _ _ _ _ afterService _ succeeded) => some (afterService.active, succeeded)
  | _ => none

theorem exists_executed {result : Except Exn RestartResult} {active : Option String}
    {succeeded : Bool} (h : restartReport result = some (active, succeeded)) :
    ∃ decision beforeSlot cycle catchup afterService leader,
      result = .ok (.executed decision beforeSlot cycle catchup afterService leader succeeded) ∧
        afterService.active = active := by
  unfold restartReport at h
  split at h
  · obtain ⟨rfl, rfl⟩ := Prod.mk.inj (Option.some.inj h)
    exact ⟨_, _, _, _, _, _, rfl, rfl⟩
  · exact nomatch h

theorem restartReport_fading :
    restartReport (exec fadingHost (restartNode builtFleet.fleet "rpc-1" true {} true 2) 0).result =
      some (some "failed", true) := by
  decide +kernel

/-- The service is down at the end, and the restart has succeeded. -/
theorem inactive_restart_succeeds :
    ¬ ∀ (a : AcceptedFleet) (nodeName clusterName : String) (cluster : Cluster) (node : Node),
      a.fleet.findNode nodeName = some (clusterName, cluster, node) →
      ∀ (policy : Policy) (audit : Bool) (maxLag : Int),
        (∀ trace decision beforeSlot cycle catchup afterService leader,
          Runs (restartNode a.fleet nodeName true policy audit maxLag) trace
            (.ok (.executed decision beforeSlot cycle catchup afterService leader true)) →
          RestartVerified (policy.forCluster clusterName) cluster node maxLag trace) ∧
        ∀ version forceBuild trace outcome,
          Runs (executeUpgrade a.fleet nodeName version true policy audit maxLag forceBuild) trace
            (.ok (.executed outcome)) → outcome.succeeded = true →
          UpgradeVerified (policy.forCluster clusterName) cluster node version maxLag
            outcome.distribution.swaps trace := by
  intro h
  obtain ⟨decision, beforeSlot, cycle, catchup, afterService, leader, hresult, hactive⟩ :=
    exists_executed restartReport_fading
  have hrun := hresult ▸ exec_runs fadingHost
    (restartNode builtFleet.fleet "rpc-1" true {} true 2) 0
  have hverified := (h builtFleet _ _ _ _ builtFleet_findNode {} true 2).1 _ _ _ _ _ _ _ hrun
  obtain ⟨_, _, _, hf', -, r, hr, hservice⟩ := restart_succeeded_iff hrun
  obtain ⟨rfl, rfl, rfl⟩ := Prod.mk.inj (Option.some.inj (builtFleet_findNode.symm.trans hf'))
  obtain ⟨r', hr', -, hshown⟩ := hverified.active
  have heq : r' = r := hr'.unique hr
  rw [hservice] at hactive
  change (keyValues r.stdout).get? "ActiveState" = some "failed" at hactive
  rw [heq, hactive] at hshown
  exact absurd hshown (by decide)

def upgradeReport : Except Exn UpgradeResult → Option Bool
  | .ok (.executed outcome) => some outcome.succeeded
  | _ => none

theorem exists_upgraded {result : Except Exn UpgradeResult} {succeeded : Bool}
    (h : upgradeReport result = some succeeded) :
    ∃ outcome, result = .ok (.executed outcome) ∧ outcome.succeeded = succeeded := by
  unfold upgradeReport at h
  split at h
  · exact ⟨_, rfl, Option.some.inj h⟩
  · exact nomatch h

theorem succeeded_verified_iff_fading :
    (∃ (trace : List OpsEvent) (succeeded : Bool),
      ((succeeded = true →
          RestartVerified (Policy.forCluster {} "testnet") builtCluster builtNode 2 trace) ↔
        SeesActive builtNode trace ∨
          ¬ CycleExits (Policy.forCluster {} "testnet") builtNode trace ∨
          ¬ SeesCatchup builtNode builtCluster.referenceRpc 2 trace)) ∧
    ∃ (trace : List OpsEvent) (outcome : UpgradeOutcome), outcome.succeeded = true ∧
      ((outcome.succeeded = true →
          UpgradeVerified (Policy.forCluster {} "testnet") builtCluster builtNode "v3.0.1" 2
            outcome.distribution.swaps trace) ↔
        MarkerExits builtNode "v3.0.1" trace ∨
          ¬ Exits trace builtNode (.swap outcome.distribution.swaps) ∨
          ¬ CycleExits (Policy.forCluster {} "testnet") builtNode trace ∨
          ¬ SeesCatchup builtNode builtCluster.referenceRpc 2 trace ∨
          ¬ SeesVersion builtNode "v3.0.1" trace) := by
  have hiff := succeeded_verified_iff builtFleet builtFleet_findNode true {} true 2
  constructor
  · obtain ⟨decision, beforeSlot, cycle, catchup, afterService, leader, hresult, -⟩ :=
      exists_executed restartReport_fading
    have hrun := hresult ▸ exec_runs fadingHost
      (restartNode builtFleet.fleet "rpc-1" true {} true 2) 0
    exact ⟨_, true, hiff.1 _ _ _ _ _ _ _ _ hrun⟩
  · have hreport : upgradeReport (exec fadingHost
        (executeUpgrade builtFleet.fleet "rpc-1" "v3.0.1" true {} true 2 false) 0).result =
        some true := by
      decide +kernel
    obtain ⟨outcome, hresult, hsucceeded⟩ := exists_upgraded hreport
    have hrun := hresult ▸ exec_runs fadingHost
      (executeUpgrade builtFleet.fleet "rpc-1" "v3.0.1" true {} true 2 false) 0
    exact ⟨_, outcome, hsucceeded, hiff.2 _ _ _ _ hrun⟩

end Solfleet
