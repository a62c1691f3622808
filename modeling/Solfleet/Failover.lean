import Mathlib.Data.Set.Defs
import Solfleet.Dns

/-! # Programs over a driver

The failover loop and the manual overrides are programs whose effects are driver
calls, a probe of the fleet, audit entries, and the loop's own waiting and
reporting. `Answers` is the behaviour of the world they run in, with or without
calls that raise; `handler` is the world in which nothing raises.
-/

namespace Solfleet

open Interaction Program

/-! ## What a pass reports -/

structure Decision where
  ip : String
  eject : Bool
  reasons : List String
  deriving DecidableEq

structure PoolReport where
  record : String
  current : List String
  decisions : Dict String Decision
  isProtected : Bool
  note : Option String := none
  added : List String
  removed : List String
  deriving DecidableEq

structure WatchReport where
  pools : List PoolReport
  note : Option String := none
  deriving DecidableEq

/-! ## Effects -/

inductive DnsEffect where
  | driver (c : DriverCall)
  | probe
  | audit (event : AuditEvent)
  | sleep (seconds : Int)
  | onRound (report : WatchReport)

abbrev DnsEffect.Answer : DnsEffect → Type
  | .driver c => c.Answer
  | .probe => List ClusterStatus
  | .audit _ => Unit
  | .sleep _ => Unit
  | .onRound _ => Unit

abbrev dnsSignature : Signature := ⟨DnsEffect, DnsEffect.Answer⟩

abbrev DnsProgram := Program dnsSignature Exn

abbrev DnsEvent := Event dnsSignature Exn

def driverCall (c : DriverCall) : DnsProgram c.Answer := perform (S := dnsSignature) (.driver c)

def probeFleet : DnsProgram (List ClusterStatus) := perform (S := dnsSignature) .probe

/-- `if audit: audit.record(...)` -/
def recordAudit (audit : Bool) (event : AuditEvent) : DnsProgram Unit :=
  if audit then perform (S := dnsSignature) (.audit event) else pure ()

/-- The call may change provider state. -/
def DnsEvent.Mutates (event : DnsEvent) : Prop :=
  match event.op with
  | .driver c => c.Mutates
  | _ => False

/-- The effect may change whether `ip` is in the record. -/
def DnsEffect.Changes (record ip : String) : DnsEffect → Prop
  | .driver (.addMember record' ip' _) => record' = record ∧ ip' = ip
  | .driver (.removeMember record' ip') => record' = record ∧ ip' = ip
  | _ => False

@[simp] theorem DnsEffect.changes_add {record r ip x : String} {ttl : Int} :
    Changes r x (.driver (.addMember record ip ttl)) ↔ record = r ∧ ip = x := Iff.rfl

@[simp] theorem DnsEffect.changes_remove {record r ip x : String} :
    Changes r x (.driver (.removeMember record ip)) ↔ record = r ∧ ip = x := Iff.rfl

/-! ## The world -/

namespace DnsDriver

/-- Every call answers, and a probe finds `clusters`. -/
def handler (D : DnsDriver) (clusters : List ClusterStatus) : Handler dnsSignature Exn D.State
  | .driver c, s => (.ok (D.perform s c).1, (D.perform s c).2)
  | .probe, s => (.ok clusters, s)
  | .audit _, s => (.ok (), s)
  | .sleep _, s => (.ok (), s)
  | .onRound _, s => (.ok (), s)

/-- The answers a call may have when a probe may find anything in `probes`.
With `faults` any effect may raise instead, a driver call either before it
reached the provider or after. -/
inductive Answers (D : DnsDriver) (faults : Prop) (probes : Set (List ClusterStatus)) :
    Semantics dnsSignature Exn D.State
  | driver (s : D.State) (c : DriverCall) :
      Answers D faults probes s (.driver c) (.ok (D.perform s c).1) (D.perform s c).2
  | probe (s : D.State) {clusters : List ClusterStatus} (found : clusters ∈ probes) :
      Answers D faults probes s .probe (.ok clusters) s
  | audit (s : D.State) (event : AuditEvent) :
      Answers D faults probes s (.audit event) (.ok ()) s
  | sleep (s : D.State) (seconds : Int) :
      Answers D faults probes s (.sleep seconds) (.ok ()) s
  | onRound (s : D.State) (report : WatchReport) :
      Answers D faults probes s (.onRound report) (.ok ()) s
  | refused (s : D.State) (op : DnsEffect) (e : Exn) (h : faults) :
      Answers D faults probes s op (.error e) s
  | lost (s : D.State) (c : DriverCall) (e : Exn) (h : faults) :
      Answers D faults probes s (.driver c) (.error e) (D.perform s c).2

theorem handler_answers (D : DnsDriver) {faults : Prop} {probes : Set (List ClusterStatus)}
    {clusters : List ClusterStatus} (found : clusters ∈ probes) (op : DnsEffect) (s : D.State) :
    Answers D faults probes s op (D.handler clusters op s).1 (D.handler clusters op s).2 := by
  cases op with
  | driver c => exact .driver s c
  | probe => exact .probe s found
  | audit event => exact .audit s event
  | sleep seconds => exact .sleep s seconds
  | onRound report => exact .onRound s report

/-- What an answered effect did to the provider: nothing, or one driver call. -/
theorem Answers.state_cases {D : DnsDriver} {faults : Prop} {probes : Set (List ClusterStatus)}
    {s s' : D.State} {op : DnsEffect} {answer : Except Exn op.Answer}
    (h : Answers D faults probes s op answer s') :
    s' = s ∨ ∃ c, op = .driver c ∧ s' = (D.perform s c).2 := by
  cases h with
  | driver _ c => exact .inr ⟨c, rfl, rfl⟩
  | lost _ c => exact .inr ⟨c, rfl, rfl⟩
  | probe | audit | sleep | onRound | refused => exact .inl rfl

end DnsDriver

/-! ## How one call moves the A sets -/

namespace LawfulDriver

variable (D : LawfulDriver)

/-- The change a driver call makes to the A sets. -/
def effect : DriverCall → (String → Finset String) → String → Finset String
  | .addMember record ip _, a => Function.update a record (insert ip (a record))
  | .removeMember record ip, a => Function.update a record ((a record).erase ip)
  | .listMembers _, a | .hasMarker _, a | .ensureMarker _, a => a

theorem members_perform (s : D.State) (c : DriverCall) :
    D.members (D.perform s c).2 = effect c (D.members s) := by
  cases c with
  | listMembers record => rfl
  | addMember record ip ttl => exact D.members_add s record ip ttl
  | removeMember record ip => exact D.members_remove s record ip
  | hasMarker record => rfl
  | ensureMarker record => exact D.members_ensure s record

theorem mem_effect_iff {c : DriverCall} {a : String → Finset String} {record ip : String}
    (h : ¬ DnsEffect.Changes record ip (.driver c)) :
    ip ∈ effect c a record ↔ ip ∈ a record := by
  cases c with
  | listMembers | hasMarker | ensureMarker => exact Iff.rfl
  | addMember record' ip' ttl =>
      by_cases hr : record' = record
      · subst hr
        simp [effect, show ip ≠ ip' from fun hip => h ⟨rfl, hip.symm⟩]
      · simp [effect, Ne.symm hr]
  | removeMember record' ip' =>
      by_cases hr : record' = record
      · subst hr
        simp [effect, show ip ≠ ip' from fun hip => h ⟨rfl, hip.symm⟩]
      · simp [effect, Ne.symm hr]

/-- Only the two calls that name an address of a record change its presence,
answered or not. -/
theorem mem_iff_of_answers {faults : Prop} {probes : Set (List ClusterStatus)} {s s' : D.State}
    {op : DnsEffect} {answer : Except Exn op.Answer} {record ip : String}
    (h : ¬ op.Changes record ip) (step : D.Answers faults probes s op answer s') :
    ip ∈ D.members s' record ↔ ip ∈ D.members s record := by
  rcases step.state_cases with rfl | ⟨c, rfl, rfl⟩
  · exact Iff.rfl
  · rw [D.members_perform]
    exact mem_effect_iff h

end LawfulDriver

end Solfleet
