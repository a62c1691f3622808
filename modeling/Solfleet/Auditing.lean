import Solfleet.Failover.Auditing
import Solfleet.Orchestration.Auditing

/-! # Audit completeness

Seven calls take an audit log. What each owes it, and what keeps it from paying: an
exception between a change and the entry for it, and a dry pass, which makes no entry of
the changes it would make.
-/

namespace Solfleet

open Interaction Program

/-- Whatever the runner, the driver, the prober and the sampler do. -/
theorem audit_complete_iff (a : AcceptedFleet) :
    (∀ (o : Orchestration) (confirm : Bool) (trace : List OpsEvent) (result : Except Exn o.Result),
      o.audit = true → Runs (o.program a.fleet confirm) trace result → OpsLogWorks trace →
        (o.Audited a.fleet confirm trace ↔ OpsSteady trace)) ∧
    ∀ (request : DnsRequest) (trace : List DnsEvent) (result : Except Exn Unit),
      request.audit = true → Runs (request.program a.fleet) trace result → DnsLogWorks trace →
        (request.Audited a.fleet trace ↔ request.Steady a.fleet trace) :=
  ⟨fun _ _ _ _ given h works => Orchestration.audited_iff_steady given h works,
    fun _ _ _ given h works => DnsRequest.audited_iff a given h works⟩

/-- A bootstrap of `builder-1` whose script breaks off with an exception. -/
def brokenBootstrap : List OpsEvent :=
  [⟨.runner (.ssh (.builder { host := "10.0.0.9" }) .noop), .ok ⟨0, "", ""⟩⟩,
    ⟨.runner (.ssh (.builder { host := "10.0.0.9" }) .bootstrap), .error (.raised "decode")⟩]

theorem runs_brokenBootstrap :
    Runs ((Orchestration.bootstrap "builder-1" true).program builtFleet.fleet true) brokenBootstrap
      (.error (.raised "decode")) := by
  have hopens : (bootstrapRequest "builder-1" true).Opens true := by decide
  have hbehind : Runs (gated (bootstrapRequest "builder-1" true) true true
      (fun decision => .gated decision buildAptPackages)
      (executeBootstrap { host := "10.0.0.9" } "builder-1" true))
      [⟨.runner (.ssh (.builder { host := "10.0.0.9" }) .bootstrap), .error (.raised "decode")⟩]
      (.error (.raised "decode")) := by
    rw [gated, if_pos hopens]
    exact Runs.call (.error (Exn.raised "decode")) (Runs.done _)
  exact @Runs.call opsSignature _ _ (.runner _) _ (.ok ⟨0, "", ""⟩) _ _ hbehind

theorem opsLogWorks_brokenBootstrap : OpsLogWorks brokenBootstrap := by
  simp [OpsLogWorks, brokenBootstrap]

/-- The steps have run, the exception has left, and the log knows nothing of it. -/
theorem broken_bootstrap_unaudited :
    ¬ ∀ (a : AcceptedFleet),
      (∀ (o : Orchestration) (confirm : Bool) (trace : List OpsEvent)
        (result : Except Exn o.Result), o.audit = true →
        Runs (o.program a.fleet confirm) trace result → OpsLogWorks trace →
          o.Audited a.fleet confirm trace) ∧
      ∀ (request : DnsRequest) (trace : List DnsEvent) (result : Except Exn Unit),
        request.audit = true → Runs (request.program a.fleet) trace result →
          DnsLogWorks trace → request.Audited a.fleet trace := by
  intro h
  have haudited := (h builtFleet).1 (.bootstrap "builder-1" true) true brokenBootstrap
    (.error (.raised "decode")) rfl runs_brokenBootstrap opsLogWorks_brokenBootstrap
  obtain ⟨entry, hlogged, -⟩ := haudited.executed [_] _ [] rfl trivial
  exact nomatch hlogged

/-- No call of a run on the in-memory driver raises. -/
theorem calm_inMemory {α : Type} {p : DnsProgram α} {clusters : List ClusterStatus}
    {s : inMemoryDnsDriver.State} :
    ∀ event ∈ (exec (inMemoryDnsDriver.handler clusters) p s).trace, ¬ event.Raised := by
  rintro event he ⟨e, hraised⟩
  obtain ⟨s', hanswer⟩ := answer_of_mem_exec he
  have hok : ∀ op : DnsEffect, ∃ a, (inMemoryDnsDriver.handler clusters op s').1 = .ok a := by
    intro op
    cases op <;> exact ⟨_, rfl⟩
  obtain ⟨a, ha⟩ := hok event.op
  rw [hraised, ha] at hanswer
  cases hanswer

/-- The same run, and a pass that replaces the failing `a` by `b` and accounts for it. -/
theorem audit_complete_iff_builder :
    ((Orchestration.bootstrap "builder-1" true).Audited builtFleet.fleet true brokenBootstrap ↔
      OpsSteady brokenBootstrap) ∧
    let pass := exec (inMemoryDnsDriver.handler (probeWith ["b"]))
      ((DnsRequest.watch true false).program pairFleet.fleet) (pairState {"10.0.0.1", "9.9.9.9"})
    inMemoryDnsDriver.members pass.final "rpc.example.com" = {"10.0.0.2", "9.9.9.9"} ∧
      (DnsRequest.watch true false).Audited pairFleet.fleet pass.trace := by
  refine ⟨(audit_complete_iff builtFleet).1 (.bootstrap "builder-1" true) true brokenBootstrap
    (.error (.raised "decode")) rfl runs_brokenBootstrap opsLogWorks_brokenBootstrap, ?_⟩
  intro pass
  refine ⟨by decide, ?_⟩
  have hcalm : ∀ event ∈ pass.trace, ¬ event.Raised := calm_inMemory
  have hiff := (audit_complete_iff pairFleet).2 (.watch true false) pass.trace pass.result rfl
    (exec_runs _ _ _) fun event he hraised => absurd hraised (hcalm event he)
  refine hiff.mpr ⟨?_, fun h => by cases h⟩
  rintro before event after htrace -
  rw [htrace] at hcalm
  refine ⟨hcalm event (by simp), fun next hn => hcalm next ?_⟩
  have hnext : next ∈ after := List.mem_of_mem_head? hn
  simp [hnext]

end Solfleet
