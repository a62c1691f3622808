import Solfleet.Library.Dict
import Solfleet.Library.Glob
import Solfleet.Library.Program

/-! # The safety gate

Policy rules, the checks computed from them and the decision every mutation
passes through. A caller executes only when the mode is `execute` and the
decision is allowed; `allowed` itself does not depend on the mode.
-/

namespace Solfleet

/-- What ends a run that does not return: the interpreter's own errors, or an
exception out of an injected runner, driver, prober or sampler. -/
inductive Exn where
  | keyError (key : String)
  | valueError (message : String)
  | overflowError (message : String)
  | attributeError (message : String)
  | raised (what : String)
  deriving DecidableEq, Inhabited

/-! ## Policy -/

structure PolicyRules where
  maxConcurrentRestarts : Int := 1
  allowedVersions : List String := ["*"]
  minDiskFreePct : Option Int := none
  requireLeaderWindowMinutes : Int := 5
  deriving DecidableEq

structure Policy where
  defaults : PolicyRules := {}
  clusters : Dict String PolicyRules := .empty

def Policy.forCluster (policy : Policy) (name : String) : PolicyRules :=
  (policy.clusters.get? name).getD policy.defaults

def versionAllowed (rules : PolicyRules) (version : Option String) : Bool :=
  match version with
  | none => false
  | some version => rules.allowedVersions.any fun pattern => Glob.fnmatch version pattern

/-- `usePcts` are the used percentages of the node's mounts. -/
def diskFreeOk (rules : PolicyRules) (usePcts : List Nat) : Bool :=
  match rules.minDiskFreePct with
  | none => true
  | some floor => usePcts.all fun (used : Nat) => decide (floor ≤ 100 - (used : Int))

/-! ## The gate -/

inductive Mode where
  | dryRun
  | execute
  deriving DecidableEq

def Mode.text : Mode → String
  | .dryRun => "dry-run"
  | .execute => "execute"

structure GateDecision where
  operation : String
  cluster : String
  node : String
  mode : Mode
  allowed : Bool
  plan : List String
  reasons : List String := []
  deriving DecidableEq

/-- What a caller puts before the gate: `checks` are pairs of an outcome and the
message that explains a failure. -/
structure GateRequest where
  operation : String
  cluster : String
  node : String
  plan : List String
  checks : List (Bool × String)

def GateRequest.failed (request : GateRequest) : List String :=
  request.checks.filterMap fun check => if check.1 then none else some check.2

def gate (request : GateRequest) (confirm : Bool) : GateDecision where
  operation := request.operation
  cluster := request.cluster
  node := request.node
  mode := if confirm then .execute else .dryRun
  allowed := request.failed.isEmpty
  plan := request.plan
  reasons :=
    if request.failed.isEmpty then
      if confirm then []
      else ["dry-run: preflight checks pass; pass confirm=true to execute"]
    else
      (if confirm then [] else ["dry-run: the following checks would block execution"]) ++
        request.failed

/-- The gate opens: confirmed, and no check failed. -/
def GateRequest.Opens (request : GateRequest) (confirm : Bool) : Prop :=
  confirm = true ∧ (gate request confirm).allowed = true

instance (request : GateRequest) (confirm : Bool) : Decidable (request.Opens confirm) :=
  inferInstanceAs (Decidable (_ ∧ _))

/-- Run the mutating part only past the gate. -/
def GateRequest.guard {S : Interaction.Signature} {α : Type} (request : GateRequest)
    (confirm : Bool) (p : Interaction.Program S Exn α) : Interaction.Program S Exn (Option α) :=
  if request.Opens confirm then some <$> p else pure none

theorem gate_allowed_iff {request : GateRequest} {confirm : Bool} :
    (gate request confirm).allowed = true ↔ ∀ check ∈ request.checks, check.1 = true := by
  simp only [gate, GateRequest.failed, List.isEmpty_iff, List.filterMap_eq_nil_iff]
  exact forall₂_congr fun check _ => by cases check.1 <;> simp

@[simp] theorem gate_plan (request : GateRequest) (confirm : Bool) :
    (gate request confirm).plan = request.plan := rfl

theorem not_opens_false (request : GateRequest) : ¬ request.Opens false :=
  fun h => absurd h.1 (by decide)

/-! ## Audit entries -/

/-- One row of the audit log. The detail column is never read back by an
operation and is left out. -/
structure AuditEvent where
  operation : String
  cluster : String
  node : String
  mode : Mode
  allowed : Bool
  deriving DecidableEq

end Solfleet
