import Solfleet.Upgrade

/-! # Provisioning a node

Bring a bare host to a serving node: preflight, user, system tuning, disks, software,
systemd unit, keys, start. A disk is formatted only when it is empty and its device
was acknowledged; keys are only looked for.
-/

namespace Solfleet

open Interaction Program

def gib : Nat := 1024 ^ 3

def provisionMinRamGib : Nat := 8

def provisionMinCores : Nat := 8

/-! ## The systemd unit -/

def networkArgs (flag : String) (values : List String) : List String :=
  values.map fun value => flag ++ " " ++ value

def flagArg (on : Bool) (args : List String) : List String := if on then args else []

def optionalArg (flag : String) (value : Option String) : List String :=
  match value with
  | none => []
  | some value => if value = "" then [] else [flag ++ " " ++ value]

def votingArgs (node : Node) : List String :=
  if node.launch.noVoting then ["--no-voting"]
  else optionalArg "--vote-account" node.service.voteAccountKeypair

def unitArgs (node : Node) (cluster : Cluster) : List String :=
  let service := node.service
  let launch := node.launch
  let network := cluster.network.getD {}
  [service.binary, "--identity " ++ service.identityKeypair] ++
  networkArgs "--known-validator" network.knownValidators ++
  ["--rpc-port " ++ toString launch.rpcPort, "--rpc-bind-address " ++ launch.rpcBindAddress] ++
  networkArgs "--entrypoint" network.entrypoints ++
  optionalArg "--expected-genesis-hash" network.expectedGenesisHash ++
  ["--wal-recovery-mode skip_any_corrupted_record"] ++
  (match launch.limitLedgerSize with
    | none => []
    | some limit => ["--limit-ledger-size " ++ toString limit]) ++
  ["--ledger " ++ service.ledger, "--accounts " ++ service.accounts] ++
  flagArg launch.enableRpcTxHistory
    ["--enable-rpc-transaction-history", "--enable-extended-tx-metadata-storage"] ++
  flagArg launch.privateRpc ["--private-rpc"] ++
  flagArg launch.fullRpcApi ["--full-rpc-api"] ++
  optionalArg "--geyser-plugin-config" service.geyserConfig ++
  votingArgs node ++
  launch.extraArgs ++
  ["--log -"]

def renderUnit (node : Node) (cluster : Cluster) : String :=
  "[Unit]\n" ++
  "Description=Solana validator (" ++ node.name ++ ")\n" ++
  "After=network-online.target\n" ++
  "Wants=network-online.target\n\n" ++
  "[Service]\n" ++
  "Type=simple\n" ++
  "User=" ++ node.service.runUser ++ "\n" ++
  "Group=" ++ node.service.runUser ++ "\n" ++
  "LimitNOFILE=" ++ toString node.system.openFiles ++ "\n" ++
  "Restart=always\n" ++
  "RestartSec=1\n" ++
  "ExecStart=" ++ Text.join " \\\n  " (unitArgs node cluster) ++ "\n\n" ++
  "[Install]\n" ++
  "WantedBy=multi-user.target\n"

/-! ## Preflight -/

structure Preflight where
  info : Dict String String
  checks : List (Bool × String)
  blockers : List String
  deriving DecidableEq

/-- `int(info[key]) if info.get(key, "").isdigit() else None` -/
def infoInt (info : Dict String String) (key : String) : Except Exn (Option Nat) :=
  match info.get? key with
  | none => .ok none
  | some value => if Text.allDigits value then some <$> readInt value else .ok none

/-- From here on `ram / GIB` rounds beyond the largest float. -/
def ramOverflow : Nat := (2 ^ 1024 - 2 ^ 970) * gib

def divideRam (ram : Nat) : Except Exn Unit :=
  if ram < ramOverflow then .ok ()
  else .error (.overflowError "integer division result too large for a float")

/-- The memory text is the interpreter's for every amount below 2^53 bytes, so for every
amount that fails the check. -/
def preflightChecks (reachable : Bool) (arch : Option String) (cores ram : Option Nat) :
    List (Bool × String) :=
  [(reachable, "host not reachable over SSH"),
    (arch == some "x86_64", "unsupported arch " ++ Text.pyReprOption arch ++ " (need x86_64)"),
    (decide (provisionMinCores ≤ cores.getD 0),
      "only " ++ noneText (cores.map Int.ofNat) ++ " cores (want >= " ++
        toString provisionMinCores ++ ")"),
    (decide (provisionMinRamGib * gib ≤ ram.getD 0),
      "only " ++ Text.roundTenths (ram.getD 0) gib ++ " GiB RAM (want >= " ++
        toString provisionMinRamGib ++ ")")]

def readPreflight (r : CommandResult) : Except Exn Preflight := do
  let info := keyValues r.stdout
  let cores ← infoInt info "cores"
  let ram ← infoInt info "ram"
  divideRam (ram.getD 0)
  let checks := preflightChecks r.ok (info.get? "arch") cores ram
  pure
    { info
      checks
      blockers := checks.filterMap fun check => if check.1 then none else some check.2 }

def preflight (node : Node) : OpsProgram Preflight := do
  let r ← runOn (.node node) .preflight
  ofExcept (readPreflight r)

/-! ## Stages -/

structure EnsureUser where
  user : String
  ok : Bool
  error : Option String
  deriving DecidableEq

def ensureUser (node : Node) : OpsProgram EnsureUser := do
  let r ← runOn (.node node) (.ensureUser node.service.runUser)
  pure { user := node.service.runUser, ok := r.ok, error := r.error }

structure ApplySystem where
  openFiles : Int
  sysctlKeys : List String
  governor : Option String
  ok : Bool
  error : Option String
  deriving DecidableEq

def applySystem (node : Node) : OpsProgram ApplySystem := do
  let r ← runOn (.node node) (.applySystem node.system node.service.runUser)
  pure
    { openFiles := node.system.openFiles
      sysctlKeys := node.system.sysctl.keys
      governor := node.system.cpuGovernor
      ok := r.ok
      error := r.error }

inductive DiskSetup where
  | refused (mount error : String)
  | tmpfs (mount : String) (ok : Bool) (error : Option String)
  | block (mount device : String) (fs : Filesystem) (formatted wasEmpty ok : Bool)
      (error : Option String)
  deriving DecidableEq

def DiskSetup.ok : DiskSetup → Bool
  | .refused .. => false
  | .tmpfs _ ok _ => ok
  | .block _ _ _ _ _ ok _ => ok

def setupTmpfs (node : Node) (disk : DiskConfig) : OpsProgram DiskSetup := do
  let r ← runOn (.node node) (.setupTmpfs disk node.service.runUser)
  pure (.tmpfs disk.mount r.ok r.error)

def mountDisk (node : Node) (disk : DiskConfig) (formatted wasEmpty : Bool) :
    OpsProgram DiskSetup := do
  let r ← runOn (.node node) (.mountDisk disk node.service.runUser)
  pure (.block disk.mount disk.device disk.fs formatted wasEmpty r.ok r.error)

/-- What keeps a disk that asks for it from being formatted. -/
def formatRefusal (disk : DiskConfig) (allowFormat : Finset String) (existing : String) :
    Option String :=
  if disk.device ∉ allowFormat then
    some ("format requested but " ++ disk.device ++
      " not acknowledged (pass --format-device to allow)")
  else if existing ≠ "" then
    some ("refusing to format " ++ disk.device ++ ": not empty/unmounted (" ++
      Text.pyRepr existing ++ ")")
  else none

def formatDisk (node : Node) (disk : DiskConfig) : OpsProgram DiskSetup := do
  let r ← runOn (.node node) (.mkfs disk.fs disk.device)
  if r.ok then mountDisk node disk true true
  else
    let cause := if Text.strip r.stderr = "" then toString r.exitCode else Text.strip r.stderr
    pure (.refused disk.mount ("mkfs failed: " ++ cause))

def setupBlock (node : Node) (disk : DiskConfig) (allowFormat : Finset String) :
    OpsProgram DiskSetup := do
  let probe ← runOn (.node node) (.probeDisk disk.device)
  let existing := Text.strip probe.stdout
  if disk.format then
    match formatRefusal disk allowFormat existing with
    | some error => pure (.refused disk.mount error)
    | none => formatDisk node disk
  else mountDisk node disk false (existing == "")

def setupDisk (node : Node) (allowFormat : Finset String) (disk : DiskConfig) :
    OpsProgram DiskSetup :=
  if disk.fs = .tmpfs then setupTmpfs node disk else setupBlock node disk allowFormat

structure InstallUnit where
  path : String
  ok : Bool
  error : Option String
  deriving DecidableEq

def installUnit (node : Node) (unitText : String) : OpsProgram InstallUnit := do
  let r ← runOn (.node node) (.installUnit node.service.unit unitText)
  pure { path := unitPath node.service.unit, ok := r.ok, error := r.error }

/-- Whether a key file is in place. -/
structure KeyCheck where
  action : String
  path : Option String
  present : Bool
  note : Option String
  deriving DecidableEq

def isPresent (r : CommandResult) : Bool := r.ok && Text.strip r.stdout == "present"

def checkIdentityKey (node : Node) : OpsProgram KeyCheck := do
  let path := node.service.identityKeypair
  let r ← runOn (.node node) (.testPresent path)
  pure
    { action := "check_identity_key"
      path := some path
      present := isPresent r
      note := some "solfleet never creates keys; place the identity keypair here" }

def isVoting (node : Node) : Bool := decide (node.role = .validator) && !node.launch.noVoting

def checkVoteKey (node : Node) : OpsProgram KeyCheck :=
  if Text.truthy node.service.voteAccountKeypair then do
    let path := node.service.voteAccountKeypair.getD ""
    let r ← runOn (.node node) (.testPresent path)
    pure { action := "check_vote_key", path := some path, present := isPresent r, note := none }
  else
    pure
      { action := "check_vote_key"
        path := none
        present := false
        note := some "voting node has no service.vote_account_keypair set" }

/-! ## The plan and its checks -/

def provisionPlan (node : Node) (cluster : Cluster) (targetVersion : String) : List String :=
  ["preflight " ++ node.name ++ " (OS / arch / cores / RAM / root)",
    "create user " ++ node.service.runUser,
    "apply system tuning (open_files=" ++ toString node.system.openFiles ++
      ", sysctl, governor)"] ++
  (node.disks.map fun d => "setup disk " ++ d.device ++ " -> " ++ d.mount ++ " (format=" ++
    Text.boolText d.format ++ ")") ++
  ["build " ++ sourceText cluster ++ " " ++ targetVersion ++ " on builder " ++
      Text.pyReprOption (builderName cluster),
    "distribute + place agave binary" ++ (if buildsGeyser cluster then " + geyser .so" else ""),
    "install systemd unit " ++ node.service.unit ++ ".service",
    "verify identity keypair at " ++ node.service.identityKeypair,
    "start " ++ node.service.unit ++ " and wait for catch-up"]

def provisionRequest (fleet : Fleet) (clusterName : String) (cluster : Cluster) (node : Node)
    (nodeName targetVersion : String) (pre : Preflight) : GateRequest where
  operation := "provision"
  cluster := clusterName
  node := nodeName
  plan := provisionPlan node cluster targetVersion
  checks :=
    [(pre.blockers.isEmpty, "preflight blockers: " ++ Text.join "; " pre.blockers),
      ((builderName cluster).isSome,
        "cluster has no install.builder (provision installs software)"),
      ((builderOf fleet cluster).isSome,
        "builder " ++ Text.pyReprOption (builderName cluster) ++ " not found in fleet")]

/-! ## Provisioning -/

/-- What the run has done so far; a stage it has not reached is `none`. -/
structure ProvisionSteps where
  user : EnsureUser
  system : ApplySystem
  disks : List DiskSetup
  build : Option BuildResult := none
  distribute : Option Distribution := none
  swap : Option SwapResult := none
  unit : Option InstallUnit := none
  identity : Option KeyCheck := none
  voteKey : Option KeyCheck := none
  start : Option UnitAction := none
  catchup : Option Catchup := none
  deriving DecidableEq

structure Provisioned where
  steps : ProvisionSteps
  succeeded : Bool
  note : Option String := none
  deriving DecidableEq

inductive ProvisionResult where
  | error (message : String)
  | gated (decision : GateDecision) (preflight : Preflight)
  | finished (decision : GateDecision) (outcome : Provisioned)
  deriving DecidableEq

def identityMissing : String := "identity keypair missing; place it on the host and re-run"

def voteKeyMissing : String :=
  "voting node: vote-account keypair missing; create+fund the vote account, " ++
    "place the keypair, and re-run"

/-- Start and wait; the keys are in place. -/
def provisionStart (cluster : Cluster) (node : Node) (maxLag catchupTimeout : Int)
    (steps : ProvisionSteps) (swap : SwapResult) (unit : InstallUnit) : OpsProgram Provisioned := do
  let start ← startService node
  let catchup ← waitForCatchup node cluster.referenceRpc maxLag catchupTimeout
  pure
    { steps := { steps with start := some start, catchup := some catchup }
      succeeded := steps.user.ok && steps.system.ok && steps.disks.all DiskSetup.ok && swap.ok &&
        unit.ok && start.ok && catchup.caughtUp }

/-- A voting validator needs its vote account's keypair as well. -/
def provisionVoteKey (cluster : Cluster) (node : Node) (maxLag catchupTimeout : Int)
    (steps : ProvisionSteps) (swap : SwapResult) (unit : InstallUnit) : OpsProgram Provisioned :=
  if isVoting node then do
    let voteKey ← checkVoteKey node
    let steps := { steps with voteKey := some voteKey }
    if voteKey.present then provisionStart cluster node maxLag catchupTimeout steps swap unit
    else pure { steps, succeeded := false, note := some voteKeyMissing }
  else provisionStart cluster node maxLag catchupTimeout steps swap unit

/-- What follows a verified distribution. -/
def provisionService (cluster : Cluster) (node : Node) (maxLag catchupTimeout : Int)
    (steps : ProvisionSteps) (dist : Distribution) : OpsProgram Provisioned := do
  let swap ← atomicSwap node dist.swaps
  let unit ← installUnit node (renderUnit node cluster)
  let identity ← checkIdentityKey node
  let steps := { steps with swap := some swap, unit := some unit, identity := some identity }
  if identity.present then
    provisionVoteKey cluster node maxLag catchupTimeout steps swap unit
  else pure { steps, succeeded := false, note := some identityMissing }

def provisionSoftware (builder : SSHTarget) (install : InstallConfig) (cluster : Cluster)
    (node : Node) (targetVersion : String) (maxLag catchupTimeout : Int)
    (steps : ProvisionSteps) : OpsProgram Provisioned := do
  let build ← buildArtifacts builder install targetVersion false
  let steps := { steps with build := some build }
  if build.ok then do
    let dist ← distribute builder node build.artifacts
    let steps := { steps with distribute := some dist }
    if dist.ok then provisionService cluster node maxLag catchupTimeout steps dist
    else
      pure { steps, succeeded := false, note := some "artifact distribution/verification failed" }
  else pure { steps, succeeded := false }

/-- The stages past the gate, without the audit entry each of them ends with. -/
def provisionStages (fleet : Fleet) (cluster : Cluster) (node : Node) (targetVersion : String)
    (allowFormat : Finset String) (maxLag catchupTimeout : Int) : OpsProgram Provisioned := do
  let user ← ensureUser node
  let system ← applySystem node
  let disks ← each node.disks (setupDisk node allowFormat)
  let steps : ProvisionSteps := { user, system, disks }
  if disks.all DiskSetup.ok then
    match cluster.install, builderOf fleet cluster with
    | none, _ => raise (.attributeError "'NoneType' object has no attribute 'geyser_repo'")
    | some _, none => raise (.attributeError "'NoneType' object has no attribute 'ssh'")
    | some install, some builder =>
        provisionSoftware (.builder builder) install cluster node targetVersion maxLag
          catchupTimeout steps
  else
    pure
      { steps
        succeeded := false
        note := some "disk setup failed; not installing software" }

def auditedProvision (fleet : Fleet) (clusterName : String) (cluster : Cluster) (node : Node)
    (nodeName targetVersion : String) (allowFormat : Finset String) (audit : Bool)
    (maxLag catchupTimeout : Int) (decision : GateDecision) : OpsProgram ProvisionResult := do
  let outcome ← provisionStages fleet cluster node targetVersion allowFormat maxLag catchupTimeout
  recordOps audit ⟨"provision", clusterName, nodeName, .execute, true⟩
  pure (.finished decision outcome)

/-- The policy is taken and not consulted. -/
def provisionNode (fleet : Fleet) (nodeName targetVersion : String) (confirm : Bool)
    (allowFormat : Finset String) (_policy : Policy) (audit : Bool)
    (maxLag catchupTimeout : Int) : OpsProgram ProvisionResult :=
  match fleet.findNode nodeName with
  | none => pure (.error (unknownNode nodeName))
  | some (clusterName, cluster, node) => do
      let pre ← preflight node
      gated (provisionRequest fleet clusterName cluster node nodeName targetVersion pre) confirm
        audit (fun decision => .gated decision pre)
        (auditedProvision fleet clusterName cluster node nodeName targetVersion allowFormat audit
          maxLag catchupTimeout)

end Solfleet
