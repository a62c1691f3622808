import Solfleet.Library.Text
import Solfleet.Safety

/-! # What a cluster's section leaves out

A policy document sets some rules under `defaults` and some under each cluster.
Validation fills every section from the class defaults, and the lookup takes a
cluster's section whole, so what `defaults` sets reaches a cluster only when the
cluster has no section.
-/

namespace Solfleet

/-! ## Documents -/

/-- The rules a section sets. `min_disk_free_pct: null` sets one. -/
structure RulesSection where
  maxConcurrentRestarts : Option Int := none
  allowedVersions : Option (List String) := none
  minDiskFreePct : Option (Option Int) := none
  requireLeaderWindowMinutes : Option Int := none
  deriving DecidableEq

/-- A missing field takes the default of the class. -/
def RulesSection.rules (written : RulesSection) : PolicyRules :=
  let builtin : PolicyRules := {}
  { maxConcurrentRestarts := written.maxConcurrentRestarts.getD builtin.maxConcurrentRestarts
    allowedVersions := written.allowedVersions.getD builtin.allowedVersions
    minDiskFreePct := written.minDiskFreePct.getD builtin.minDiskFreePct
    requireLeaderWindowMinutes :=
      written.requireLeaderWindowMinutes.getD builtin.requireLeaderWindowMinutes }

/-- What `policy.yaml` says, once it is known to be well formed. -/
structure PolicyDocument where
  defaults : Option RulesSection := none
  clusters : Dict String RulesSection := .empty

/-- `Policy.model_validate(raw)` -/
def PolicyDocument.policy (document : PolicyDocument) : Policy where
  defaults := (document.defaults.map (·.rules)).getD {}
  clusters := document.clusters.mapValues (·.rules)

def defaultPolicyPaths : List String := ["policy.yaml", "policy.yml"]

/-- The path that is read, if any. -/
def policyPath (files : String → Option PolicyDocument) (path : Option String) : Option String :=
  match path.filter (· ≠ "") with
  | some path => some path
  | none => defaultPolicyPaths.find? fun path => (files path).isSome

def loadPolicy (files : String → Option PolicyDocument) (path : Option String) :
    Except Exn Policy :=
  match policyPath files path with
  | none => .ok {}
  | some path =>
      match files path with
      | none => .error (.raised ("[Errno 2] No such file or directory: " ++ Text.pyRepr path))
      | some document => .ok document.policy

/-! ## One rule of a section -/

inductive RuleField where
  | maxConcurrentRestarts
  | allowedVersions
  | minDiskFreePct
  | requireLeaderWindowMinutes
  deriving DecidableEq

abbrev RuleField.Value : RuleField → Type
  | .maxConcurrentRestarts => Int
  | .allowedVersions => List String
  | .minDiskFreePct => Option Int
  | .requireLeaderWindowMinutes => Int

instance (field : RuleField) : DecidableEq field.Value := by
  cases field <;> exact inferInstance

def RulesSection.given (written : RulesSection) : (field : RuleField) → Option field.Value
  | .maxConcurrentRestarts => written.maxConcurrentRestarts
  | .allowedVersions => written.allowedVersions
  | .minDiskFreePct => written.minDiskFreePct
  | .requireLeaderWindowMinutes => written.requireLeaderWindowMinutes

def PolicyRules.value (rules : PolicyRules) : (field : RuleField) → field.Value
  | .maxConcurrentRestarts => rules.maxConcurrentRestarts
  | .allowedVersions => rules.allowedVersions
  | .minDiskFreePct => rules.minDiskFreePct
  | .requireLeaderWindowMinutes => rules.requireLeaderWindowMinutes

def RuleField.builtin (field : RuleField) : field.Value := ({} : PolicyRules).value field

theorem value_rules (written : RulesSection) (field : RuleField) :
    written.rules.value field = (written.given field).getD field.builtin := by
  cases field <;> rfl

/-! ## Inheritance -/

namespace PolicyDocument

def givenDefault (document : PolicyDocument) (field : RuleField) : Option field.Value :=
  document.defaults.bind (·.given field)

def givenFor (document : PolicyDocument) (cluster : String) (field : RuleField) :
    Option field.Value :=
  (document.clusters.get? cluster).bind (·.given field)

def effective (document : PolicyDocument) (cluster : String) (field : RuleField) : field.Value :=
  (document.policy.forCluster cluster).value field

/-- The cluster's section, else `defaults`, else the class. -/
def inherited (document : PolicyDocument) (cluster : String) (field : RuleField) : field.Value :=
  ((document.givenFor cluster field).or (document.givenDefault field)).getD field.builtin

/-- `defaults` leaves the rule as the class has it. -/
def KeepsBuiltin (document : PolicyDocument) (field : RuleField) : Prop :=
  document.givenDefault field = none ∨ document.givenDefault field = some field.builtin

def addSection (document : PolicyDocument) (cluster : String) (written : RulesSection) :
    PolicyDocument :=
  { document with clusters := document.clusters.insert cluster written }

theorem keepsBuiltin_iff {document : PolicyDocument} {field : RuleField} :
    document.KeepsBuiltin field ↔
      (document.givenDefault field).getD field.builtin = field.builtin := by
  unfold KeepsBuiltin
  cases document.givenDefault field with
  | none => simp
  | some value => simp

theorem value_policy_defaults (document : PolicyDocument) (field : RuleField) :
    document.policy.defaults.value field =
      (document.givenDefault field).getD field.builtin := by
  unfold policy givenDefault
  cases document.defaults with
  | none => rfl
  | some written => exact value_rules written field

theorem effective_of_no_section {document : PolicyDocument} {cluster : String}
    (h : document.clusters.get? cluster = none) (field : RuleField) :
    document.effective cluster field = (document.givenDefault field).getD field.builtin := by
  rw [← value_policy_defaults]
  unfold effective Policy.forCluster policy
  rw [Dict.get?_mapValues, h]
  rfl

/-- A section is taken whole: `defaults` is not looked at. -/
theorem effective_of_section {document : PolicyDocument} {cluster : String}
    {written : RulesSection} (h : document.clusters.get? cluster = some written)
    (field : RuleField) :
    document.effective cluster field = (written.given field).getD field.builtin := by
  rw [← value_rules]
  unfold effective Policy.forCluster policy
  rw [Dict.get?_mapValues, h]
  rfl

theorem get?_addSection (document : PolicyDocument) (cluster : String) (written : RulesSection) :
    (document.addSection cluster written).clusters.get? cluster = some written := by
  rw [addSection, Dict.get?_insert, if_pos rfl]

end PolicyDocument

open PolicyDocument

theorem forCluster_inherits_iff (document : PolicyDocument) (cluster : String)
    (field : RuleField) :
    (document.effective cluster field = document.inherited cluster field ↔
      (document.givenFor cluster field).isSome ∨ document.clusters.get? cluster = none ∨
        document.KeepsBuiltin field) ∧
      ∀ written : RulesSection, document.clusters.get? cluster = none →
        written.given field = none →
          ((document.addSection cluster written).effective cluster field =
              document.effective cluster field ↔ document.KeepsBuiltin field) := by
  refine ⟨?_, fun written hnone hgiven => ?_⟩
  · unfold inherited givenFor
    cases hsection : document.clusters.get? cluster with
    | none =>
        rw [effective_of_no_section hsection]
        simp
    | some written =>
        rw [effective_of_section hsection, Option.bind_some]
        cases written.given field with
        | some value => simp
        | none =>
            rw [keepsBuiltin_iff]
            simp [eq_comm]
  · rw [effective_of_section (get?_addSection document cluster written), hgiven]
    rw [effective_of_no_section hnone, keepsBuiltin_iff, Option.getD_none, eq_comm]

def pinnedDocument : PolicyDocument where
  defaults := some { minDiskFreePct := some (some 20) }
  clusters := Dict.ofPairs [("mainnet", { allowedVersions := some ["4.1.*"] })]

/-- An empty section takes the floor away from a cluster that had none. -/
theorem forCluster_inherits_iff_pinned :
    pinnedDocument.clusters.get? "testnet" = none ∧
      ¬ pinnedDocument.KeepsBuiltin .minDiskFreePct ∧
      (pinnedDocument.addSection "testnet" {}).effective "testnet" .minDiskFreePct ≠
        pinnedDocument.effective "testnet" .minDiskFreePct := by
  have hfloor : ¬ pinnedDocument.KeepsBuiltin .minDiskFreePct := by
    rw [keepsBuiltin_iff]
    decide
  refine ⟨by decide, hfloor, fun h => hfloor ?_⟩
  exact ((forCluster_inherits_iff pinnedDocument "testnet" .minDiskFreePct).2 {} (by decide)
    rfl).mp h

/-- The pin takes the floor away. -/
theorem forCluster_forgets_defaults :
    ¬ ∀ (document : PolicyDocument) (cluster : String) (field : RuleField),
      document.effective cluster field = document.inherited cluster field := by
  intro h
  exact absurd (h pinnedDocument "mainnet" .minDiskFreePct) (by decide)

end Solfleet
