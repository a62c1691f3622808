import Solfleet.Executor

/-! # Restarting a node

Waiting for a node to catch up with its reference, and the restart of one node: look
at it, decide, cycle its service, wait, look again.
-/

namespace Solfleet

open Interaction Program

/-! ## Catching up -/

structure Catchup where
  caughtUp : Bool
  waited : Int
  last : Option Sample := none
  deriving DecidableEq

/-- The default of `interval_s`, which no caller overrides. -/
def catchupInterval : Int := 5

/-- How often the loop condition `waited <= timeout_s` still holds. -/
def catchupRounds (timeout waited : Int) : Nat := ((timeout - waited) / catchupInterval + 1).toNat

def hasCaughtUp (maxLag : Int) (sample : Sample) : Bool :=
  sample.healthy == some true && sample.lag.any fun lag => decide (lag ≤ maxLag)

def catchupLoop (node : Node) (referenceRpc : String) (maxLag : Int) :
    Nat → Int → Option Sample → OpsProgram Catchup
  | 0, waited, last => pure { caughtUp := false, waited, last }
  | rounds + 1, waited, _ => do
      let sample ← perform (S := opsSignature) (.sample node referenceRpc)
      if hasCaughtUp maxLag sample then pure { caughtUp := true, waited, last := some sample }
      else do
        let _ ← perform (S := opsSignature) (.sleep catchupInterval)
        catchupLoop node referenceRpc maxLag rounds (waited + catchupInterval) (some sample)

def waitForCatchup (node : Node) (referenceRpc : String) (maxLag timeout : Int) :
    OpsProgram Catchup :=
  catchupLoop node referenceRpc maxLag (catchupRounds timeout 0) 0 none

theorem catchupRounds_eq_zero_iff {timeout waited : Int} :
    catchupRounds timeout waited = 0 ↔ timeout < waited := by
  unfold catchupRounds catchupInterval
  omega

theorem catchupRounds_succ {timeout waited : Int} (h : waited ≤ timeout) :
    catchupRounds timeout waited = catchupRounds timeout (waited + catchupInterval) + 1 := by
  unfold catchupRounds catchupInterval
  omega

/-- The counted loop is the source's `while waited <= timeout_s`. -/
theorem catchupLoop_while (node : Node) (referenceRpc : String) (maxLag timeout waited : Int)
    (last : Option Sample) :
    catchupLoop node referenceRpc maxLag (catchupRounds timeout waited) waited last =
      if waited ≤ timeout then do
        let sample ← perform (S := opsSignature) (.sample node referenceRpc)
        if hasCaughtUp maxLag sample then pure { caughtUp := true, waited, last := some sample }
        else do
          let _ ← perform (S := opsSignature) (.sleep catchupInterval)
          catchupLoop node referenceRpc maxLag (catchupRounds timeout (waited + catchupInterval))
            (waited + catchupInterval) (some sample)
      else pure { caughtUp := false, waited, last } := by
  by_cases h : waited ≤ timeout
  · rw [if_pos h, catchupRounds_succ h, catchupLoop]
  · rw [if_neg h, catchupRounds_eq_zero_iff.mpr (not_le.mp h), catchupLoop]

/-! ## Preflight -/

/-- What `int` raises on text that `isdigit` accepts but it cannot read. -/
def intError (s : String) : Exn :=
  if s.length ≤ 4300 then .valueError ("invalid literal for int() with base 10: " ++ Text.pyRepr s)
  else
    .valueError ("Exceeds the limit (4300 digits) for integer string conversion: value has " ++
      toString s.length ++ " digits; use sys.set_int_max_str_digits() to increase the limit")

def readInt (s : String) : Except Exn Nat :=
  match Text.int? s with
  | none => .error (intError s)
  | some n => .ok n

/-- The used percentage a row of `df` reports, if it reports one. -/
def usePct : DiskRow → Except Exn (Option Nat)
  | .failed .. => .ok none
  | .usage _ _ _ _ usePct _ =>
      if Text.endsWith '%' usePct && Text.allDigits (Text.dropLast usePct) then
        some <$> readInt (Text.dropLast usePct)
      else .ok none

def usePcts (inspection : Inspection) : Except Exn (List Nat) :=
  (·.reduceOption) <$> inspection.disk.mapM usePct

def noneText (n : Option Int) : String :=
  match n with
  | none => "None"
  | some n => toString n

/-! ## Cycling the service -/

/-- What a role-aware cycle reports. -/
inductive Cycle where
  | safeExit (exited : SafeExit)
  | restart (stop start : UnitAction)
  deriving DecidableEq

def Cycle.ok : Cycle → Bool
  | .safeExit exited => exited.ok
  | .restart stop start => stop.ok && start.ok

def cycleService (node : Node) (rules : PolicyRules) : OpsProgram Cycle :=
  if node.role = .validator then
    Cycle.safeExit <$> validatorSafeExit node rules.requireLeaderWindowMinutes
  else do
    let stop ← stopService node
    let start ← startService node
    pure (.restart stop start)

/-! ## Restarting -/

inductive RestartResult where
  | error (message : String)
  | gated (decision : GateDecision) (preflight : Inspection) (leader : Option LeaderWindows)
  | executed (decision : GateDecision) (beforeSlot : Option Int) (cycle : Cycle)
      (catchup : Catchup) (afterService : ServiceState) (leader : Option LeaderWindows)
      (succeeded : Bool)
  deriving DecidableEq

def unknownNode (name : String) : String := "unknown node " ++ Text.pyRepr name

def unreachableNode : String := "node not reachable over SSH for preflight"

def belowDiskFloor (rules : PolicyRules) : String :=
  "disk below policy floor min_disk_free_pct=" ++ noneText rules.minDiskFreePct

def restartPlan (cluster : Cluster) (node : Node) (rules : PolicyRules) (maxLag : Int) :
    List String :=
  (if node.role = .validator then
    ["agave-validator exit on " ++ node.name ++ " (wait for a leader gap of >= " ++
      toString rules.requireLeaderWindowMinutes ++ " min, then exit; systemd relaunches)"]
  else
    ["stop " ++ node.service.unit ++ " on " ++ node.name, "start " ++ node.service.unit]) ++
  ["wait until " ++ node.name ++ " reports healthy and lag <= " ++ toString maxLag ++ " vs " ++
      cluster.referenceRpc,
    "verify service active; record before/after slot"]

def restartRequest (clusterName : String) (cluster : Cluster) (node : Node) (nodeName : String)
    (rules : PolicyRules) (maxLag : Int) (before : Inspection) (pcts : List Nat) :
    GateRequest where
  operation := "restart_node"
  cluster := clusterName
  node := nodeName
  plan := restartPlan cluster node rules maxLag
  checks :=
    [(before.service.ok, unreachableNode),
      (before.service.active == some "active",
        "service not active before restart (is " ++ Text.pyReprOption before.service.active ++ ")"),
      (diskFreeOk rules pcts, belowDiskFloor rules)]

/-- The default timeout of `wait_for_catchup`. -/
def defaultCatchupTimeout : Int := 600

def executeRestart (clusterName : String) (cluster : Cluster) (node : Node) (nodeName : String)
    (rules : PolicyRules) (maxLag : Int) (audit : Bool) (leader : Option LeaderWindows)
    (decision : GateDecision) : OpsProgram RestartResult := do
  let sample ← perform (S := opsSignature) (.sample node cluster.referenceRpc)
  let cycle ← cycleService node rules
  let catchup ← waitForCatchup node cluster.referenceRpc maxLag defaultCatchupTimeout
  let after ← inspectNode node
  recordOps audit ⟨"restart_node", clusterName, nodeName, .execute, true⟩
  pure (.executed decision sample.nodeSlot cycle catchup after.service leader
    (cycle.ok && catchup.caughtUp))

def restartNode (fleet : Fleet) (nodeName : String) (confirm : Bool) (policy : Policy)
    (audit : Bool) (maxLag : Int) : OpsProgram RestartResult :=
  match fleet.findNode nodeName with
  | none => pure (.error (unknownNode nodeName))
  | some (clusterName, cluster, node) => do
      let rules := policy.forCluster clusterName
      let before ← inspectNode node
      let pcts ← ofExcept (usePcts before)
      let leader ← perform (S := opsSignature)
        (.leader node cluster.referenceRpc rules.requireLeaderWindowMinutes)
      gated (restartRequest clusterName cluster node nodeName rules maxLag before pcts) confirm audit
        (fun decision => .gated decision before leader)
        (executeRestart clusterName cluster node nodeName rules maxLag audit leader)

end Solfleet
