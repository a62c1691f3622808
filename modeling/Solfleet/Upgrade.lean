import Solfleet.Builder
import Solfleet.Operations

/-! # Upgrading a node

Build the artifact set, push each artifact beside its destination and compare
checksums, swap the verified files in, and cycle the service by role.
-/

namespace Solfleet

open Interaction Program

/-! ## The plan and its checks -/

def builderName (cluster : Cluster) : Option String := cluster.install.bind (·.builder)

def builderOf (fleet : Fleet) (cluster : Cluster) : Option BuilderHost :=
  fleet.findBuilder (builderName cluster)

def sourceText (cluster : Cluster) : String :=
  match cluster.install with
  | none => "agave"
  | some install => install.source.text

/-- `install and install.geyser_repo` -/
def buildsGeyser (cluster : Cluster) : Bool :=
  match cluster.install with
  | none => false
  | some install => Text.truthy install.geyserRepo

def upgradePlan (cluster : Cluster) (node : Node) (targetVersion : String) : List String :=
  ["on builder " ++ Text.pyReprOption (builderName cluster) ++ ": build " ++ sourceText cluster ++
      " " ++ targetVersion ++ " from source" ++
      (if buildsGeyser cluster then " (+ matching libyellowstone_grpc_geyser.so)" else ""),
    "distribute artifact set to " ++ node.name ++
      "; checksum-verify each (abort on mismatch)",
    if node.role = .validator then
      "agave-validator exit (leader-aware), systemd relaunches new binary"
    else "stop " ++ node.service.unit ++ ", swap, start",
    "swap " ++ node.service.binary ++ " + geyser .so + version marker atomically",
    "wait until healthy + caught up to " ++ cluster.referenceRpc,
    "verify reported version == " ++ targetVersion ++ "; record before/after"]

def upgradeChecks (clusterName : String) (cluster : Cluster) (node : Node) (rules : PolicyRules)
    (targetVersion : String) (builder : Option BuilderHost) : List (Bool × String) :=
  [(versionAllowed rules (some targetVersion),
      "version " ++ targetVersion ++ " not in allowed_versions " ++
        Text.pyReprList rules.allowedVersions ++ " for " ++ clusterName),
    ((builderName cluster).isSome,
      "cluster " ++ clusterName ++
        " has no install.builder configured (strategy=build requires one)"),
    (builder.isSome,
      "builder node " ++ Text.pyReprOption (builderName cluster) ++ " not found in fleet"),
    (!buildsGeyser cluster || node.service.geyserLib.isSome,
      node.name ++ " builds a geyser .so but service.geyser_lib (its target path) is unset")]

inductive PlanResult where
  | error (message : String)
  | planned (decision : GateDecision) (targetVersion : String) (note : String)
  deriving DecidableEq

def planNote : String :=
  "in-place upgrade: this single node has downtime during the swap; " ++
    "zero-downtime rolling arrives in M2 with the DNS pool."

def planRequest (fleet : Fleet) (clusterName : String) (cluster : Cluster) (node : Node)
    (nodeName : String) (rules : PolicyRules) (targetVersion : String) : GateRequest where
  operation := "upgrade"
  cluster := clusterName
  node := nodeName
  plan := upgradePlan cluster node targetVersion
  checks := upgradeChecks clusterName cluster node rules targetVersion (builderOf fleet cluster)

def planUpgrade (fleet : Fleet) (nodeName targetVersion : String) (policy : Policy) : PlanResult :=
  match fleet.findNode nodeName with
  | none => .error (unknownNode nodeName)
  | some (clusterName, cluster, node) =>
      .planned
        (gate (planRequest fleet clusterName cluster node nodeName (policy.forCluster clusterName)
          targetVersion) false)
        targetVersion planNote

/-! ## Distribution -/

/-- The path of an artifact on the node, or `none` where the node has no target for it. -/
def destFor (node : Node) (artifactName : String) : Option String :=
  if artifactName = geyserLibName then node.service.geyserLib
  else if artifactName ∈ agaveBins then
    let dir := Text.dirname node.service.binary
    some ((if dir = "" then "/usr/local/bin" else dir) ++ "/" ++ artifactName)
  else none

def stagedPath (dest : String) : String := dest ++ ".solfleet-new"

inductive DistributeEntry where
  | skipped (name : String)
  | pushed (name dest staged : String) (pullOk pushOk shaMatch : Bool)
      (expectedSha gotSha : Option String)
  deriving DecidableEq

def DistributeEntry.verified : DistributeEntry → Bool
  | .skipped _ => true
  | .pushed _ _ _ pullOk pushOk shaMatch _ _ => pullOk && pushOk && shaMatch

/-- `(staged, dest, name in AGAVE_BINS)` of an entry whose hash matched. -/
def DistributeEntry.swap? : DistributeEntry → Option Swap
  | .skipped _ => none
  | .pushed name dest staged _ _ shaMatch _ _ =>
      if shaMatch then some ⟨staged, dest, decide (name ∈ agaveBins)⟩ else none

structure Distribution where
  ok : Bool
  staging : String
  artifacts : List DistributeEntry
  deriving DecidableEq

def Distribution.swaps (dist : Distribution) : List Swap :=
  dist.artifacts.filterMap DistributeEntry.swap?

def shaMatches (got expected : Option String) : Bool :=
  got.isSome && expected.isSome && got == expected

/-- Pull, push, hash: one artifact onto the path beside its destination. -/
def pushArtifact (builder target : SSHTarget) (staging dest : String) (artifact : Artifact) :
    OpsProgram DistributeEntry := do
  let localPath := Text.pathJoin staging artifact.name
  let pull ← scpFrom builder artifact.remotePath localPath
  let push ← scpTo target localPath (stagedPath dest)
  let got ← remoteSha256 target (stagedPath dest)
  pure (.pushed artifact.name dest (stagedPath dest) pull.ok push.ok
    (shaMatches got artifact.sha256) artifact.sha256 got)

def distributeArtifact (builder : SSHTarget) (node : Node) (staging : String)
    (artifact : Artifact) : OpsProgram DistributeEntry :=
  match destFor node artifact.name with
  | none => pure (.skipped artifact.name)
  | some dest => pushArtifact builder (.node node) staging dest artifact

def distribute (builder : SSHTarget) (node : Node) (artifacts : List Artifact) :
    OpsProgram Distribution := do
  let staging ← perform (S := opsSignature) (.mkdtemp "solfleet-")
  let results ← each artifacts (distributeArtifact builder node staging)
  pure { ok := results.all DistributeEntry.verified, staging, artifacts := results }

/-! ## Swap, marker and cycle -/

inductive MarkerResult where
  | skipped
  | written (ok : Bool) (value : String) (error : Option String)
  deriving DecidableEq

def updateMarker (node : Node) (version : String) : OpsProgram MarkerResult :=
  match node.service.versionMarker with
  | none => pure .skipped
  | some marker =>
      if marker = "" then pure .skipped
      else do
        let r ← runOn (.node node) (.writeMarker (tag version) marker)
        pure (.written r.ok (tag version) r.error)

/-- Validators: replace the files first (the running process holds the old inode), then
exit. Others: stop, replace, start. -/
def swapAndCycle (node : Node) (rules : PolicyRules) (version : String) (swaps : List Swap) :
    OpsProgram (SwapResult × MarkerResult × Cycle) :=
  if node.role = .validator then do
    let swap ← atomicSwap node swaps
    let marker ← updateMarker node version
    let exited ← validatorSafeExit node rules.requireLeaderWindowMinutes
    pure (swap, marker, .safeExit exited)
  else do
    let stop ← stopService node
    let swap ← atomicSwap node swaps
    let marker ← updateMarker node version
    let start ← startService node
    pure (swap, marker, .restart stop start)

def versionMatches (reported : Option String) (target : String) : Bool :=
  match reported with
  | none => false
  | some reported =>
      reported ≠ "" &&
        (Text.lstrip 'v' target).toList.isPrefixOf (Text.lstrip 'v' reported).toList

/-! ## Upgrading -/

structure UpgradeOutcome where
  decision : GateDecision
  version : String
  cached : Bool
  artifactNames : List String
  distribution : Distribution
  swap : SwapResult
  marker : MarkerResult
  cycle : Cycle
  catchup : Catchup
  reportedVersion : Option String
  versionOk : Bool
  succeeded : Bool
  deriving DecidableEq

inductive UpgradeResult where
  | error (message : String)
  | gated (decision : GateDecision) (preflight : Inspection)
  | buildFailed (decision : GateDecision) (build : BuildResult)
  | distributeFailed (decision : GateDecision) (build : BuildResult) (distribution : Distribution)
  | executed (outcome : UpgradeOutcome)
  deriving DecidableEq

def upgradeRequest (fleet : Fleet) (clusterName : String) (cluster : Cluster) (node : Node)
    (nodeName : String) (rules : PolicyRules) (targetVersion : String) (before : Inspection)
    (pcts : List Nat) : GateRequest where
  operation := "upgrade"
  cluster := clusterName
  node := nodeName
  plan := upgradePlan cluster node targetVersion
  checks :=
    upgradeChecks clusterName cluster node rules targetVersion (builderOf fleet cluster) ++
      [(before.service.ok, unreachableNode), (diskFreeOk rules pcts, belowDiskFloor rules)]

/-- What follows a verified distribution. -/
def installUpgrade (cluster : Cluster) (node : Node) (rules : PolicyRules)
    (targetVersion : String) (maxLag : Int) (decision : GateDecision) (build : BuildResult)
    (dist : Distribution) : OpsProgram UpgradeOutcome := do
  let (swap, marker, cycle) ← swapAndCycle node rules targetVersion dist.swaps
  let catchup ← waitForCatchup node cluster.referenceRpc maxLag defaultCatchupTimeout
  let after ← inspectNode node
  let reported := after.version.binaryVersion
  let versionOk := versionMatches reported targetVersion
  pure
    { decision
      version := build.version
      cached := build.cached
      artifactNames := build.artifacts.map (·.name)
      distribution := dist
      swap
      marker
      cycle
      catchup
      reportedVersion := reported
      versionOk
      succeeded := swap.ok && cycle.ok && catchup.caughtUp && versionOk }

/-- The stages past the gate, without the audit entry each of them ends with. -/
def upgradeStages (builder : SSHTarget) (install : InstallConfig) (cluster : Cluster) (node : Node)
    (rules : PolicyRules) (targetVersion : String) (maxLag : Int) (forceBuild : Bool)
    (decision : GateDecision) : OpsProgram UpgradeResult := do
  let build ← buildArtifacts builder install targetVersion forceBuild
  if build.ok then do
    let dist ← distribute builder node build.artifacts
    if dist.ok then
      .executed <$> installUpgrade cluster node rules targetVersion maxLag decision build dist
    else pure (.distributeFailed decision build dist)
  else pure (.buildFailed decision build)

/-- Past the gate there is an install section and a builder; without them the calls
fail on `None`. -/
def upgradeWith (fleet : Fleet) (cluster : Cluster) (node : Node) (rules : PolicyRules)
    (targetVersion : String) (maxLag : Int) (forceBuild : Bool) (decision : GateDecision) :
    OpsProgram UpgradeResult :=
  match cluster.install, builderOf fleet cluster with
  | none, _ => raise (.attributeError "'NoneType' object has no attribute 'geyser_repo'")
  | some _, none => raise (.attributeError "'NoneType' object has no attribute 'ssh'")
  | some install, some builder =>
      upgradeStages (.builder builder) install cluster node rules targetVersion maxLag forceBuild
        decision

/-- Past the gate: the stages and the audit entry they end with. -/
def auditedUpgrade (fleet : Fleet) (clusterName : String) (cluster : Cluster) (node : Node)
    (nodeName : String) (rules : PolicyRules) (targetVersion : String) (audit : Bool)
    (maxLag : Int) (forceBuild : Bool) (decision : GateDecision) : OpsProgram UpgradeResult := do
  let result ← upgradeWith fleet cluster node rules targetVersion maxLag forceBuild decision
  recordOps audit ⟨"upgrade", clusterName, nodeName, .execute, true⟩
  pure result

def executeUpgrade (fleet : Fleet) (nodeName targetVersion : String) (confirm : Bool)
    (policy : Policy) (audit : Bool) (maxLag : Int) (forceBuild : Bool) :
    OpsProgram UpgradeResult :=
  match fleet.findNode nodeName with
  | none => pure (.error (unknownNode nodeName))
  | some (clusterName, cluster, node) => do
      let rules := policy.forCluster clusterName
      let before ← inspectNode node
      let pcts ← ofExcept (usePcts before)
      gated
        (upgradeRequest fleet clusterName cluster node nodeName rules targetVersion before pcts)
        confirm audit (fun decision => .gated decision before)
        (auditedUpgrade fleet clusterName cluster node nodeName rules targetVersion audit maxLag
          forceBuild)

end Solfleet
