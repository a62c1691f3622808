import Mathlib.Data.Finset.Card
import Solfleet.Watch

/-! # Manual overrides

`dnsEject` and `dnsRestore` pull one node from its pools or put it back. Each
pool of the node passes its own gate; an eject refuses the last address of a
record.
-/

namespace Solfleet

open Interaction Program

inductive OverrideAction where
  | eject
  | restore
  deriving DecidableEq

def OverrideAction.text : OverrideAction → String
  | .eject => "eject"
  | .restore => "restore"

def OverrideAction.call (pool : Pool) (ip : String) : OverrideAction → DriverCall
  | .eject => .removeMember pool.record ip
  | .restore => .addMember pool.record ip pool.ttl

structure OverrideEntry where
  record : String
  decision : GateDecision
  membersNow : Option (List String) := none
  deriving DecidableEq

inductive OverrideResult where
  | error (message : String)
  | pools (action : OverrideAction) (node : String) (entries : List OverrideEntry)
  deriving DecidableEq

def poolsForNode (fleet : Fleet) (nodeName : String) (record : Option String) : List Pool :=
  let pools := fleet.pools.filter fun p => p.members.contains nodeName
  match record with
  | none => pools
  | some record => if record = "" then pools else pools.filter fun p => p.record == record

/-- Ejecting `ip` would leave `current` empty. -/
def wouldEmpty (current : Finset String) (ip : String) : Bool :=
  decide ((current \ {ip}).card = 0 ∧ ip ∈ current)

def overrideRequest (action : OverrideAction) (nodeName ip : String) (pool : Pool)
    (current : Finset String) : GateRequest where
  operation := "dns_" ++ action.text
  cluster := pool.cluster
  node := pool.record
  plan :=
    match action with
    | .eject => ["remove " ++ ip ++ " (" ++ nodeName ++ ") from " ++ pool.record]
    | .restore => ["add " ++ ip ++ " (" ++ nodeName ++ ") to " ++ pool.record]
  checks :=
    match action with
    | .eject =>
        [(!wouldEmpty current ip,
          "refusing to eject: " ++ ip ++ " is the last record in " ++ pool.record ++
            " (would cause NXDOMAIN)")]
    | .restore => [(true, "")]

/-- The mutating half of an override, past its gate. -/
def applyOverride (action : OverrideAction) (ip : String) (pool : Pool) :
    DnsProgram (List String) := do
  driverCall (.ensureMarker pool.record)
  let _ ← driverCall (action.call pool ip)
  driverCall (.listMembers pool.record)

def overridePool (action : OverrideAction) (nodeName ip : String) (confirm audit : Bool)
    (pool : Pool) : DnsProgram OverrideEntry := do
  let current ← driverCall (.listMembers pool.record)
  let request := overrideRequest action nodeName ip pool (List.toFinset current)
  let decision := gate request confirm
  let membersNow ← request.guard confirm (applyOverride action ip pool)
  recordAudit audit
    ⟨"dns_" ++ action.text, pool.cluster, pool.record, decision.mode, decision.allowed⟩
  pure { record := pool.record, decision, membersNow }

def dnsOverride (fleet : Fleet) (nodeName : String) (action : OverrideAction)
    (record : Option String) (confirm audit : Bool) : DnsProgram OverrideResult :=
  match fleet.findNode nodeName with
  | none => pure (.error ("unknown node " ++ Text.pyRepr nodeName))
  | some (_, _, node) =>
      let pools := poolsForNode fleet nodeName record
      if pools = [] then
        pure (.error ("node " ++ Text.pyRepr nodeName ++ " is not a member of any DNS pool" ++
          if Text.truthy record then " matching record " ++ Text.pyReprOption record else ""))
      else do
        let entries ← each pools (overridePool action nodeName node.host confirm audit)
        pure (.pools action nodeName entries)

def dnsEject (fleet : Fleet) (nodeName : String) (record : Option String)
    (confirm audit : Bool) : DnsProgram OverrideResult :=
  dnsOverride fleet nodeName .eject record confirm audit

def dnsRestore (fleet : Fleet) (nodeName : String) (record : Option String)
    (confirm audit : Bool) : DnsProgram OverrideResult :=
  dnsOverride fleet nodeName .restore record confirm audit

/-! ## Facts about the pieces -/

/-- An override changes its own address of its own record. -/
theorem OverrideAction.changes_call (action : OverrideAction) {pool : Pool} {ip r x : String}
    (h : DnsEffect.Changes r x (.driver (action.call pool ip))) : pool.record = r ∧ ip = x := by
  cases action <;> exact h

@[simp] theorem mem_poolsForNode {fleet : Fleet} {nodeName : String} {record : Option String}
    {pool : Pool} :
    pool ∈ poolsForNode fleet nodeName record ↔
      (pool ∈ fleet.pools ∧ nodeName ∈ pool.members) ∧
        (Text.truthy record = true → record = some pool.record) := by
  unfold poolsForNode
  cases record with
  | none => simp [Text.truthy]
  | some record =>
      by_cases hr : record = ""
      · simp [hr, Text.truthy]
      · have heq : (some record = some pool.record) ↔ pool.record = record := by
          rw [Option.some_inj, eq_comm]
        simp only [Text.truthy, hr, if_false, List.mem_filter, List.contains_iff_mem, beq_iff_eq,
          not_false_eq_true, true_implies, heq, bne_iff_ne, ne_eq]

@[simp] theorem wouldEmpty_eq_true_iff {current : Finset String} {ip : String} :
    wouldEmpty current ip = true ↔ current = {ip} := by
  simp only [wouldEmpty, decide_eq_true_eq, Finset.card_eq_zero, Finset.sdiff_eq_empty_iff_subset,
    Finset.subset_singleton_iff]
  constructor
  · rintro ⟨rfl | rfl, hip⟩
    · simp at hip
    · rfl
  · rintro rfl
    simp

/-- When an override of a pool goes ahead. -/
theorem overrideRequest_opens_iff {action : OverrideAction} {nodeName ip : String} {pool : Pool}
    {current : Finset String} {confirm : Bool} :
    (overrideRequest action nodeName ip pool current).Opens confirm ↔
      confirm = true ∧ (action = .eject → current ≠ {ip}) := by
  unfold GateRequest.Opens
  rw [gate_allowed_iff]
  refine and_congr_right fun _ => ?_
  cases action with
  | eject => simp [overrideRequest, ← Bool.not_eq_true]
  | restore => simp [overrideRequest]

end Solfleet
