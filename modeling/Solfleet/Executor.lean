import Mathlib.Data.Rat.Defs
import Solfleet.Command
import Solfleet.Safety

/-! # The executor

The effects of an orchestrated run, and the steps that read a node or change it.
Each step is one command over ssh and a reading of its result.
-/

namespace Solfleet

open Interaction Program

/-! ## Effects -/

structure CommandResult where
  exitCode : Int
  stdout : String
  stderr : String
  deriving DecidableEq

def CommandResult.ok (r : CommandResult) : Bool := decide (r.exitCode = 0)

/-- `None if r.ok else (r.stderr.strip() or f"exit {r.exit_code}")` -/
def CommandResult.error (r : CommandResult) : Option String :=
  if r.ok then none
  else if Text.strip r.stderr = "" then some ("exit " ++ toString r.exitCode)
  else some (Text.strip r.stderr)

/-- What a sampler reports of a node against its reference. -/
structure Sample where
  healthy : Option Bool := none
  nodeSlot : Option Int := none
  refSlot : Option Int := none
  lag : Option Int := none
  deriving DecidableEq

structure LeaderWindow where
  startSlot : Int
  endSlot : Int
  slots : Int
  durationMinutes : Rat
  deriving DecidableEq

structure LeaderWindows where
  identity : String
  epoch : Int
  currentSlot : Int
  leadsThisEpoch : Int
  nextLeaderSlot : Option Int
  secondsToNextLeader : Option Rat
  safeNow : Bool
  minWindowMinutes : Int
  windows : List LeaderWindow
  deriving DecidableEq

inductive OpsEffect where
  | runner (invocation : Invocation)
  | mkdtemp (stem : String)
  | sample (node : Node) (referenceRpc : String)
  | leader (node : Node) (referenceRpc : String) (minWindowMinutes : Int)
  | sleep (seconds : Int)
  | audit (event : AuditEvent)

abbrev OpsEffect.Answer : OpsEffect → Type
  | .runner _ => CommandResult
  | .mkdtemp _ => String
  | .sample .. => Sample
  | .leader .. => Option LeaderWindows
  | .sleep _ => Unit
  | .audit _ => Unit

abbrev opsSignature : Signature := ⟨OpsEffect, OpsEffect.Answer⟩

abbrev OpsProgram := Program opsSignature Exn

abbrev OpsEvent := Event opsSignature Exn

def invoke (invocation : Invocation) : OpsProgram CommandResult :=
  perform (S := opsSignature) (.runner invocation)

def runOn (target : SSHTarget) (command : Command) : OpsProgram CommandResult :=
  invoke (.ssh target command)

def scpFrom (target : SSHTarget) (remotePath localPath : String) : OpsProgram CommandResult :=
  invoke (.scpFrom target remotePath localPath)

def scpTo (target : SSHTarget) (localPath remotePath : String) : OpsProgram CommandResult :=
  invoke (.scpTo target localPath remotePath)

/-- `if audit: audit.record(...)` -/
def recordOps (audit : Bool) (event : AuditEvent) : OpsProgram Unit :=
  if audit then perform (S := opsSignature) (.audit event) else pure ()

/-- The first word of a successful, nonempty output: what `sha256sum` prints first. -/
def CommandResult.firstWord (r : CommandResult) : Option String :=
  if r.ok ∧ Text.strip r.stdout ≠ "" then (Text.split r.stdout).head? else none

def remoteSha256 (target : SSHTarget) (path : String) : OpsProgram (Option String) :=
  CommandResult.firstWord <$> runOn target (.sha256sum path)

/-! ## Inspection -/

structure ServiceState where
  unit : String
  active : Option String
  sub : Option String
  user : Option String
  startedAt : Option String
  ok : Bool
  error : Option String
  deriving DecidableEq

/-- `k=v` lines, the last one of a key counting. -/
def keyValues (text : String) : Dict String String :=
  Dict.ofPairs ((Text.splitlines text).filterMap (Text.partition? '='))

def readServiceState (node : Node) (r : CommandResult) : ServiceState :=
  let state := keyValues r.stdout
  { unit := node.service.unit
    active := state.get? "ActiveState"
    sub := state.get? "SubState"
    user := state.get? "User"
    startedAt := (state.get? "ExecMainStartTimestamp").filter (· != "")
    ok := r.ok
    error := r.error }

def serviceState (node : Node) : OpsProgram ServiceState :=
  readServiceState node <$> runOn (.node node) (.systemctlShow node.service.unit)

structure VersionInfo where
  binary : String
  binaryVersion : Option String
  markerVersion : Option String
  ok : Bool
  error : Option String
  deriving DecidableEq

/-- The second word of `agave-validator 4.1.0-beta.2 (src:...; feat:...)`. -/
def readBinaryVersion (r : CommandResult) : Option String :=
  if r.ok ∧ Text.strip r.stdout ≠ "" then (Text.split r.stdout)[1]? else none

def readMarker (m : CommandResult) : Option String :=
  if m.ok ∧ Text.strip m.stdout ≠ "" then some (Text.strip m.stdout) else none

/-- The marker file is read only when the service has one. -/
def markerVersion (node : Node) : OpsProgram (Option String) :=
  match node.service.versionMarker with
  | none => pure none
  | some marker =>
      if marker = "" then pure none else readMarker <$> runOn (.node node) (.cat marker)

def installedVersion (node : Node) : OpsProgram VersionInfo := do
  let r ← runOn (.node node) (.binaryVersion node.service.binary)
  let marker ← markerVersion node
  pure
    { binary := node.service.binary
      binaryVersion := readBinaryVersion r
      markerVersion := marker
      ok := r.ok
      error := r.error }

inductive DiskRow where
  | failed (path error : String)
  | usage (filesystem size used avail usePct path : String)
  deriving DecidableEq

def readDiskRow (line : String) : Option DiskRow :=
  match Text.split line with
  | filesystem :: size :: used :: avail :: usePct :: path :: _ =>
      some (.usage filesystem size used avail usePct path)
  | _ => none

def readDiskUsage (paths : List String) (r : CommandResult) : List DiskRow :=
  match r.error with
  | some error => paths.map fun path => .failed path error
  | none => ((Text.splitlines r.stdout).drop 1).filterMap readDiskRow

def diskUsage (node : Node) : OpsProgram (List DiskRow) :=
  let paths := [node.service.ledger, node.service.accounts]
  readDiskUsage paths <$> runOn (.node node) (.df paths)

structure Inspection where
  name : String
  host : String
  service : ServiceState
  version : VersionInfo
  disk : List DiskRow
  deriving DecidableEq

/-- All read-only steps for one node. -/
def inspectNode (node : Node) : OpsProgram Inspection := do
  let service ← serviceState node
  let version ← installedVersion node
  let disk ← diskUsage node
  pure { name := node.name, host := node.host, service, version, disk }

/-! ## Mutating steps -/

structure UnitAction where
  action : String
  unit : String
  ok : Bool
  error : Option String
  deriving DecidableEq

/-- `systemctl` needs root; prefix sudo unless the login is root already. -/
def systemctl (node : Node) (verb : String) : Command :=
  .systemctl (node.ssh.user != "root") verb node.service.unit

def unitAction (node : Node) (verb : String) : OpsProgram UnitAction := do
  let r ← runOn (.node node) (systemctl node verb)
  pure { action := verb, unit := node.service.unit, ok := r.ok, error := r.error }

def stopService (node : Node) : OpsProgram UnitAction := unitAction node "stop"

def startService (node : Node) : OpsProgram UnitAction := unitAction node "start"

structure SafeExit where
  action : String := "safe_exit"
  minIdleMinutes : Int
  ok : Bool
  error : Option String
  deriving DecidableEq

/-- The default of `max_delinquent_stake`, which no caller overrides. -/
def maxDelinquentStake : Int := 5

/-- The exit runs as the user that owns the admin socket. -/
def safeExitCommand (node : Node) (minIdleMinutes maxDelinquentStake : Int) : Command :=
  .safeExit (if node.ssh.user = node.service.runUser then none else some node.service.runUser)
    node.service.binary node.service.ledger minIdleMinutes maxDelinquentStake

def validatorSafeExit (node : Node) (minIdleMinutes : Int) : OpsProgram SafeExit := do
  let r ← runOn (.node node) (safeExitCommand node minIdleMinutes maxDelinquentStake)
  pure { minIdleMinutes, ok := r.ok, error := r.error }

structure SwapResult where
  action : String := "swap"
  count : Nat
  ok : Bool
  error : Option String
  deriving DecidableEq

def atomicSwap (node : Node) (swaps : List Swap) : OpsProgram SwapResult := do
  let r ← runOn (.node node) (.swap swaps)
  pure { count := swaps.length, ok := r.ok, error := r.error }

/-! ## Past the gate -/

/-- How every orchestrator ends: decide, and either record the decision and return it, or
execute. -/
def gated {α : Type} (request : GateRequest) (confirm audit : Bool) (closed : GateDecision → α)
    (execute : GateDecision → OpsProgram α) : OpsProgram α :=
  let decision := gate request confirm
  if request.Opens confirm then execute decision
  else do
    recordOps audit
      ⟨request.operation, request.cluster, request.node, decision.mode, decision.allowed⟩
    pure (closed decision)

end Solfleet
