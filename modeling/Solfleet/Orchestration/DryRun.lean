import Solfleet.Orchestration

/-! # Dry runs

A shut gate leaves every host alone, and a dry run predicts the confirmed one: they
decide alike, and the commands of the first begin those of the second.
-/

namespace Solfleet

open Interaction Program

/-! ## Shutting the gate -/

section Shape

variable {α : Type} {prepare : OpsProgram (α ⊕ Prepared α)} {confirm audit : Bool}
  {w : Oracle opsSignature Exn}

/-- The request a preflight leads to. -/
def request? (outcome : Except Exn (α ⊕ Prepared α)) : Option GateRequest :=
  match outcome with
  | .ok (.inr p) => some p.request
  | _ => none

theorem mem_request?_iff {outcome : Except Exn (α ⊕ Prepared α)} {request : GateRequest} :
    request ∈ request? outcome ↔ ∃ p, outcome = .ok (.inr p) ∧ p.request = request := by
  match outcome with
  | .error _ => simp [request?]
  | .ok (.inl _) => simp [request?]
  | .ok (.inr _) => simp [request?]

theorem run_staged_inl {r : α} (h : (run w prepare).result = .ok (.inl r)) :
    (run w (staged prepare confirm audit)).trace = (run w prepare).trace ∧
      (run w (staged prepare confirm audit)).result = .ok r := by
  rw [run, staged, exec_bind_ok h]
  simp [run]

theorem run_staged_error {e : Exn} (h : (run w prepare).result = .error e) :
    (run w (staged prepare confirm audit)).trace = (run w prepare).trace ∧
      (run w (staged prepare confirm audit)).result = .error e := by
  rw [run, staged, exec_bind_error h]
  exact ⟨rfl, rfl⟩

theorem run_staged_inr (confirm audit : Bool) {p : Prepared α}
    (h : (run w prepare).result = .ok (.inr p)) :
    ∃ rest, (run w (staged prepare confirm audit)).trace = (run w prepare).trace ++ rest ∧
      Runs (gated p.request confirm audit p.closed p.execute) rest
        (run w (staged prepare confirm audit)).result := by
  rw [run, staged, exec_bind_ok h]
  exact ⟨_, rfl, exec_runs _ _ _⟩

/-- A confirmed run begins with its preflight. -/
theorem run_staged_prefix :
    (run w prepare).trace <+: (run w (staged prepare confirm audit)).trace := by
  cases h : (run w prepare).result with
  | error e => rw [(run_staged_error h).1]
  | ok x =>
      cases x with
      | inl r => rw [(run_staged_inl h).1]
      | inr p =>
          obtain ⟨rest, htrace, _⟩ := run_staged_inr confirm audit h
          rw [htrace]
          exact List.prefix_append _ _

/-- Behind a shut gate hosts are reached by the preflight only. -/
theorem invocations_shut
    (hshut : ∀ request ∈ request? (run w prepare).result, ¬ request.Opens confirm) :
    invocations (run w (staged prepare confirm audit)).trace =
      invocations (run w prepare).trace := by
  cases h : (run w prepare).result with
  | error e => rw [(run_staged_error h).1]
  | ok x =>
      cases x with
      | inl r => rw [(run_staged_inl h).1]
      | inr p =>
          obtain ⟨rest, htrace, hg⟩ := run_staged_inr confirm audit h
          have hp : ¬ p.request.Opens confirm := hshut _ (by simp [h, request?])
          obtain ⟨ho, _⟩ | ⟨_, hnil, _⟩ := runs_gated hg
          · exact absurd ho hp
          · rw [htrace, invocations_append, hnil, List.append_nil]

/-! ## Deciding -/

variable {decision? : α → Option GateDecision}

/-- Results carry the decision of the gate they came through. -/
def Carries (decision? : α → Option GateDecision) : α ⊕ Prepared α → Prop
  | .inl r => decision? r = none
  | .inr p =>
      (∀ d, decision? (p.closed d) = some d) ∧
        ∀ d, Returns (fun r => decision? r = some d) (p.execute d)

theorem decision_of_run (hc : Returns (Carries decision?) prepare) {r : α}
    (hr : (run w (staged prepare confirm audit)).result = .ok r) :
    decision? r = (request? (run w prepare).result).map (gate · confirm) := by
  have hruns := run_runs w prepare
  cases h : (run w prepare).result with
  | error e => simp [(run_staged_error h).2] at hr
  | ok x =>
      rw [h] at hruns
      have hx := hc _ _ hruns
      cases x with
      | inl r' =>
          rw [(run_staged_inl h).2] at hr
          cases hr
          exact hx
      | inr p =>
          obtain ⟨rest, _, hg⟩ := run_staged_inr confirm audit h
          rw [hr] at hg
          obtain ⟨_, hexec⟩ | ⟨_, _, hclosed⟩ := runs_gated hg
          · exact hx.2 _ _ _ hexec
          · rw [hclosed r rfl]
            exact hx.1 _

end Shape

/-! ## The four orchestrators -/

def RestartResult.decision? : RestartResult → Option GateDecision
  | .error _ => none
  | .gated decision _ _ => some decision
  | .executed decision .. => some decision

def UpgradeResult.decision? : UpgradeResult → Option GateDecision
  | .error _ => none
  | .gated decision _ => some decision
  | .buildFailed decision _ => some decision
  | .distributeFailed decision _ _ => some decision
  | .executed outcome => some outcome.decision

def ProvisionResult.decision? : ProvisionResult → Option GateDecision
  | .error _ => none
  | .gated decision _ => some decision
  | .finished decision _ => some decision

def BootstrapResult.decision? : BootstrapResult → Option GateDecision
  | .error _ => none
  | .gated decision _ => some decision
  | .executed decision .. => some decision

theorem restartPrepare_carries (fleet : Fleet) (nodeName : String) (policy : Policy)
    (audit : Bool) (maxLag : Int) :
    Returns (Carries RestartResult.decision?)
      (restartPrepare fleet nodeName policy audit maxLag) := by
  unfold restartPrepare
  cases fleet.findNode nodeName with
  | none => exact returns_pure_iff.mpr rfl
  | some found =>
      refine Returns.after fun before => Returns.after fun pcts => Returns.after fun leader => ?_
      refine returns_pure_iff.mpr ⟨fun d => rfl, fun d => ?_⟩
      refine Returns.after fun sample => Returns.after fun cycle => Returns.after fun catchup => ?_
      exact Returns.after fun after => Returns.after fun _ => returns_pure_iff.mpr rfl

theorem upgradeStages_carries (builder : SSHTarget) (install : InstallConfig)
    (cluster : Cluster) (node : Node) (rules : PolicyRules) (targetVersion : String)
    (maxLag : Int) (forceBuild : Bool) (d : GateDecision) :
    Returns (fun r => UpgradeResult.decision? r = some d)
      (upgradeStages builder install cluster node rules targetVersion maxLag forceBuild d) := by
  refine Returns.after fun build => ?_
  split
  · refine Returns.after fun dist => ?_
    split
    · refine Returns.map (Returns.after fun cycled => ?_)
      exact Returns.after fun catchup => Returns.after fun after => returns_pure_iff.mpr rfl
    · exact returns_pure_iff.mpr rfl
  · exact returns_pure_iff.mpr rfl

theorem upgradePrepare_carries (fleet : Fleet) (nodeName targetVersion : String)
    (policy : Policy) (audit : Bool) (maxLag : Int) (forceBuild : Bool) :
    Returns (Carries UpgradeResult.decision?)
      (upgradePrepare fleet nodeName targetVersion policy audit maxLag forceBuild) := by
  unfold upgradePrepare
  cases fleet.findNode nodeName with
  | none => exact returns_pure_iff.mpr rfl
  | some found =>
      obtain ⟨clusterName, cluster, node⟩ := found
      refine Returns.after fun before => Returns.after fun pcts => ?_
      refine returns_pure_iff.mpr ⟨fun d => rfl, fun d => ?_⟩
      refine Returns.bind (M := fun r => UpgradeResult.decision? r = some d) ?_ fun r hr =>
        Returns.after fun _ => returns_pure_iff.mpr hr
      unfold upgradeWith
      split
      · simp [Returns]
      · simp [Returns]
      · exact upgradeStages_carries _ _ _ _ _ _ _ _ _

theorem provisionPrepare_carries (fleet : Fleet) (nodeName targetVersion : String)
    (allowFormat : Finset String) (audit : Bool) (maxLag catchupTimeout : Int) :
    Returns (Carries ProvisionResult.decision?)
      (provisionPrepare fleet nodeName targetVersion allowFormat audit maxLag catchupTimeout) := by
  unfold provisionPrepare
  cases fleet.findNode nodeName with
  | none => exact returns_pure_iff.mpr rfl
  | some found =>
      refine Returns.after fun pre => returns_pure_iff.mpr ⟨fun d => rfl, fun d => ?_⟩
      exact Returns.after fun outcome => Returns.after fun _ => returns_pure_iff.mpr rfl

theorem bootstrapPrepare_carries (fleet : Fleet) (builderName : String) (audit : Bool) :
    Returns (Carries BootstrapResult.decision?) (bootstrapPrepare fleet builderName audit) := by
  unfold bootstrapPrepare
  cases fleet.findBuilder (some builderName) with
  | none => exact returns_pure_iff.mpr rfl
  | some builder =>
      refine Returns.after fun r => returns_pure_iff.mpr ⟨fun d => rfl, fun d => ?_⟩
      exact Returns.after fun _ => Returns.after fun _ => returns_pure_iff.mpr rfl

namespace Orchestration

def decision? : (o : Orchestration) → o.Result → Option GateDecision
  | .restart .. => RestartResult.decision?
  | .upgrade .. => UpgradeResult.decision?
  | .provision .. => ProvisionResult.decision?
  | .bootstrap .. => BootstrapResult.decision?

/-- What the preflight of an orchestration may send: looks at its own host. -/
def probes (fleet : Fleet) : Orchestration → List Invocation
  | .restart nodeName .. | .upgrade nodeName .. =>
      match fleet.findNode nodeName with
      | none => []
      | some (_, _, node) => inspectInvocations node
  | .provision nodeName .. =>
      match fleet.findNode nodeName with
      | none => []
      | some (_, _, node) => [.ssh (.node node) .preflight]
  | .bootstrap builderName _ =>
      match fleet.findBuilder (some builderName) with
      | none => []
      | some builder => [.ssh (.builder builder) .noop]

theorem prepare_carries (fleet : Fleet) (o : Orchestration) :
    Returns (Carries o.decision?) (o.prepare fleet) := by
  cases o with
  | restart => exact restartPrepare_carries _ _ _ _ _
  | upgrade => exact upgradePrepare_carries _ _ _ _ _ _ _
  | provision => exact provisionPrepare_carries _ _ _ _ _ _ _
  | bootstrap => exact bootstrapPrepare_carries _ _ _

theorem allCalls_prepare (fleet : Fleet) (o : Orchestration) :
    (o.prepare fleet).AllCalls (OpsEffect.Sends (· ∈ o.probes fleet)) := by
  cases o with
  | restart nodeName =>
      exact allCalls_restartPrepare fun _ _ _ hf i hi => by simpa only [probes, hf] using hi
  | upgrade nodeName =>
      exact allCalls_upgradePrepare fun _ _ _ hf i hi => by simpa only [probes, hf] using hi
  | provision nodeName =>
      exact allCalls_provisionPrepare fun _ _ _ hf => by simp only [probes, hf, List.mem_singleton]
  | bootstrap builderName =>
      exact allCalls_bootstrapPrepare fun _ hf => by simp only [probes, hf, List.mem_singleton]

/-- The request the preflight of this run puts before the gate, if it gets there. -/
def gateRequest (fleet : Fleet) (w : Oracle opsSignature Exn) (o : Orchestration) :
    Option GateRequest :=
  request? (run w (o.prepare fleet)).result

/-- An upgrade the gate allows is one `plan_upgrade` allows, with the same plan. -/
def PlanAgrees (fleet : Fleet) (request : GateRequest) : Orchestration → Prop
  | .upgrade nodeName targetVersion policy _ _ _ =>
      (gate request true).allowed = true →
        ∃ d, planUpgrade fleet nodeName targetVersion policy = .planned d targetVersion planNote ∧
          d.allowed = true ∧ d.plan = request.plan
  | _ => True

end Orchestration

theorem planAgrees_of_runs {fleet : Fleet} {nodeName targetVersion : String} {policy : Policy}
    {audit forceBuild : Bool} {maxLag : Int} {trace : List OpsEvent}
    {outcome : Except Exn (UpgradeResult ⊕ Prepared UpgradeResult)} {request : GateRequest}
    (h : Runs (upgradePrepare fleet nodeName targetVersion policy audit maxLag forceBuild) trace
      outcome) (hr : request ∈ request? outcome) :
    (Orchestration.upgrade nodeName targetVersion policy audit maxLag forceBuild).PlanAgrees fleet
      request := by
  intro hallowed
  obtain ⟨p, rfl, rfl⟩ := mem_request?_iff.mp hr
  obtain ⟨clusterName, cluster, node, before, pcts, hf, hreq, _⟩ := upgradePrepare_inr h
  rw [hreq] at hallowed ⊢
  exact ⟨_, by rw [planUpgrade, hf], upgradeRequest_allowed hallowed, rfl⟩

theorem planAgrees (fleet : Fleet) (w : Oracle opsSignature Exn) (o : Orchestration)
    {request : GateRequest} (hr : request ∈ o.gateRequest fleet w) :
    o.PlanAgrees fleet request := by
  cases o with
  | upgrade => exact planAgrees_of_runs (run_runs w _) hr
  | restart | provision | bootstrap => trivial

/-- The four orchestrators, against one environment. Unless the run is confirmed and
every gate check passed, hosts see the preflight's looks and nothing else; what a run
decides is the gate's verdict on the request of its preflight, the same in both modes;
the dry run's commands begin those of the confirmed run; and an allowed upgrade was
planned the same. -/
theorem dry_run_predicts (a : AcceptedFleet) (w : Oracle opsSignature Exn) (o : Orchestration) :
    (∀ confirm,
      (confirm = false ∨ ∀ request ∈ o.gateRequest a.fleet w,
        ∃ check ∈ request.checks, check.1 = false) →
      ∀ i ∈ invocations (run w (o.program a.fleet confirm)).trace, i ∈ o.probes a.fleet) ∧
    (∀ confirm r, (run w (o.program a.fleet confirm)).result = .ok r →
      o.decision? r = (o.gateRequest a.fleet w).map (gate · confirm)) ∧
    (∀ dry confirmed, (run w (o.program a.fleet false)).result = .ok dry →
      (run w (o.program a.fleet true)).result = .ok confirmed →
      (o.decision? dry).map (fun d => (d.allowed, d.plan)) =
        (o.decision? confirmed).map fun d => (d.allowed, d.plan)) ∧
    invocations (run w (o.program a.fleet false)).trace <+:
      invocations (run w (o.program a.fleet true)).trace ∧
    ∀ request ∈ o.gateRequest a.fleet w, o.PlanAgrees a.fleet request := by
  have hdecide : ∀ confirm r, (run w (o.program a.fleet confirm)).result = .ok r →
      o.decision? r = (o.gateRequest a.fleet w).map (gate · confirm) := by
    intro confirm r hr
    rw [o.program_eq] at hr
    exact decision_of_run (o.prepare_carries a.fleet) hr
  refine ⟨?_, hdecide, ?_, ?_, fun request hr => planAgrees a.fleet w o hr⟩
  · intro confirm hshut i hi
    have hclosed : ∀ request ∈ o.gateRequest a.fleet w, ¬ request.Opens confirm := by
      rintro request hr ⟨hconfirm, hallowed⟩
      obtain hfalse | hfails := hshut
      · exact absurd (hfalse.symm.trans hconfirm) (by decide)
      · obtain ⟨check, hc, hcheck⟩ := hfails request hr
        rw [gate_allowed_iff.mp hallowed check hc] at hcheck
        cases hcheck
    rw [o.program_eq, invocations_shut hclosed] at hi
    exact invocations_of_allCalls (o.allCalls_prepare a.fleet) (run_runs w _) i hi
  · intro dry confirmed hdry hconfirmed
    rw [hdecide _ _ hdry, hdecide _ _ hconfirmed]
    cases o.gateRequest a.fleet w with
    | none => rfl
    | some request => rfl
  · rw [o.program_eq, o.program_eq, invocations_shut fun request _ => not_opens_false request]
    exact List.IsPrefix.filterMap _ run_staged_prefix

end Solfleet
