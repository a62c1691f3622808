import Solfleet.Provision

/-! # Orchestrations

The operations that change hosts are one family: a preflight that only looks, the gate,
and the stages behind it. `staged` is that shape, each orchestrator is an instance of
it, and what a run can do is read off the shape once.
-/

namespace Solfleet

open Interaction Program

/-! ## The shape -/

/-- Where a preflight leads: the request it puts before the gate, what a closed gate
returns, and what an open one runs. -/
structure Prepared (α : Type) where
  request : GateRequest
  closed : GateDecision → α
  execute : GateDecision → OpsProgram α

/-- A preflight that has its result already, or one that goes to the gate. -/
def staged {α : Type} (prepare : OpsProgram (α ⊕ Prepared α)) (confirm audit : Bool) :
    OpsProgram α :=
  prepare >>= fun
    | .inl result => pure result
    | .inr p => gated p.request confirm audit p.closed p.execute

/-- The calls of a run that reach a host. -/
def invocations (trace : List OpsEvent) : List Invocation :=
  trace.filterMap fun event =>
    match event.op with
    | .runner invocation => some invocation
    | _ => none

@[simp] theorem invocations_nil : invocations [] = [] := rfl

@[simp] theorem invocations_runner (invocation : Invocation)
    (answer : Except Exn CommandResult) (rest : List OpsEvent) :
    invocations (⟨.runner invocation, answer⟩ :: rest) = invocation :: invocations rest := rfl

@[simp] theorem invocations_append (xs ys : List OpsEvent) :
    invocations (xs ++ ys) = invocations xs ++ invocations ys := List.filterMap_append

theorem mem_invocations_iff {trace : List OpsEvent} {invocation : Invocation} :
    invocation ∈ invocations trace ↔ ∃ event ∈ trace, event.op = .runner invocation := by
  simp only [invocations, List.mem_filterMap]
  refine exists_congr fun event => and_congr_right fun _ => ?_
  cases event.op <;> simp

/-- Hosts are reached by these invocations only. -/
def OpsEffect.Sends (P : Invocation → Prop) (op : OpsEffect) : Prop :=
  ∀ invocation, op = .runner invocation → P invocation

theorem sends_runner_iff {P : Invocation → Prop} {invocation : Invocation} :
    (OpsEffect.runner invocation).Sends P ↔ P invocation :=
  ⟨fun h => h _ rfl, fun h _ he => OpsEffect.runner.inj he ▸ h⟩

theorem invocations_of_allCalls {α : Type} {P : Invocation → Prop} {p : OpsProgram α}
    {trace : List OpsEvent} {result : Except Exn α} (hp : p.AllCalls (OpsEffect.Sends P))
    (h : Runs p trace result) : ∀ invocation ∈ invocations trace, P invocation := by
  intro invocation hi
  obtain ⟨event, he, hop⟩ := mem_invocations_iff.mp hi
  exact h.allCalls hp event he invocation hop

theorem invocations_eq_nil_of_allCalls {α : Type} {p : OpsProgram α} {trace : List OpsEvent}
    {result : Except Exn α} (hp : p.AllCalls (OpsEffect.Sends fun _ => False))
    (h : Runs p trace result) : invocations trace = [] :=
  List.eq_nil_iff_forall_not_mem.mpr fun i hi => invocations_of_allCalls hp h i hi

theorem runs_runOn (target : SSHTarget) (command : Command) (r : CommandResult) :
    Runs (runOn target command) [⟨.runner (.ssh target command), .ok r⟩] (.ok r) :=
  runs_perform_iff.mpr rfl

/-- One command, answered with `r`, and what follows. -/
theorem runs_runOn_bind {α : Type} {target : SSHTarget} {command : Command} (r : CommandResult)
    {f : CommandResult → OpsProgram α} {trace : List OpsEvent} {result : Except Exn α}
    (h : Runs (f r) trace result) :
    Runs (runOn target command >>= f) (⟨.runner (.ssh target command), .ok r⟩ :: trace) result :=
  runs_bind_iff.mpr (.inl ⟨_, trace, r, runs_runOn _ _ _, h, rfl⟩)

/-! ## What a step of the shape can do -/

theorem allCalls_recordOps {P : Invocation → Prop} (audit : Bool) (event : AuditEvent) :
    (recordOps audit event).AllCalls (OpsEffect.Sends P) := by
  unfold recordOps
  cases audit with
  | false => trivial
  | true => exact allCalls_perform.mpr fun _ h => nomatch h

/-- An audit entry at the end reaches no host. -/
theorem allCalls_recordOps_pure {α : Type} {P : Invocation → Prop} (audit : Bool)
    (event : AuditEvent) (a : α) :
    (recordOps audit event >>= fun _ => pure a).AllCalls (OpsEffect.Sends P) :=
  (allCalls_recordOps audit event).bind fun _ => trivial

theorem follows_recordOps_pure {α : Type} {Q : List OpsEvent → Invocation → Prop} (audit : Bool)
    (event : AuditEvent) (a : α) :
    (recordOps audit event >>= fun _ => pure a).Follows fun history op =>
      OpsEffect.Sends (Q history) op :=
  AllCalls.follows (allCalls_recordOps_pure (P := fun _ => False) audit event a)
    fun _ _ _ hop i hi => (hop i hi).elim

section Shape

variable {α : Type} {request : GateRequest} {confirm audit : Bool}
  {closed : GateDecision → α} {execute : GateDecision → OpsProgram α}
  {prepare : OpsProgram (α ⊕ Prepared α)} {trace : List OpsEvent} {result : Except Exn α}

/-- Past the gate the stages run; before it, no host is reached. -/
theorem runs_gated (h : Runs (gated request confirm audit closed execute) trace result) :
    (request.Opens confirm ∧ Runs (execute (gate request confirm)) trace result) ∨
      (¬ request.Opens confirm ∧ invocations trace = [] ∧
        ∀ r, result = .ok r → r = closed (gate request confirm)) := by
  unfold gated at h
  by_cases ho : request.Opens confirm
  · rw [if_pos ho] at h
    exact .inl ⟨ho, h⟩
  · rw [if_neg ho] at h
    refine .inr ⟨ho, ?_⟩
    obtain ⟨first, rest, u, hp, hf, rfl⟩ | ⟨e, hp, rfl⟩ := runs_bind_iff.mp h
    · obtain ⟨rfl, rfl⟩ := runs_pure_iff.mp hf
      refine ⟨?_, fun r hr => (Except.ok.inj hr).symm⟩
      simpa using invocations_eq_nil_of_allCalls (allCalls_recordOps _ _) hp
    · exact ⟨invocations_eq_nil_of_allCalls (allCalls_recordOps _ _) hp, nofun⟩

/-- A run of the shape: the preflight ends it, or it goes on at the gate. -/
theorem runs_staged (h : Runs (staged prepare confirm audit) trace result) :
    (∃ r, Runs prepare trace (.ok (.inl r)) ∧ result = .ok r) ∨
      (∃ e, Runs prepare trace (.error e) ∧ result = .error e) ∨
      ∃ first rest p, Runs prepare first (.ok (.inr p)) ∧ trace = first ++ rest ∧
        Runs (gated p.request confirm audit p.closed p.execute) rest result := by
  obtain ⟨first, rest, r | p, hp, hf, rfl⟩ | ⟨e, hp, rfl⟩ := runs_bind_iff.mp h
  · obtain ⟨rfl, rfl⟩ := runs_pure_iff.mp hf
    exact .inl ⟨r, by simpa using hp, rfl⟩
  · exact .inr (.inr ⟨first, rest, p, hp, rfl, hf⟩)
  · exact .inr (.inl ⟨e, hp, rfl⟩)

/-- Hosts are reached by the preflight's invocations, or past an open gate. -/
theorem runs_staged_invocation {P : Invocation → Prop}
    (hprepare : prepare.AllCalls (OpsEffect.Sends P))
    (h : Runs (staged prepare confirm audit) trace result) {invocation : Invocation}
    (hi : invocation ∈ invocations trace) :
    P invocation ∨ ∃ first rest p, Runs prepare first (.ok (.inr p)) ∧ trace = first ++ rest ∧
      p.request.Opens confirm ∧ Runs (p.execute (gate p.request confirm)) rest result ∧
      invocation ∈ invocations rest := by
  obtain ⟨r, hp, _⟩ | ⟨e, hp, _⟩ | ⟨first, rest, p, hp, rfl, hg⟩ := runs_staged h
  · exact .inl (invocations_of_allCalls hprepare hp _ hi)
  · exact .inl (invocations_of_allCalls hprepare hp _ hi)
  · rw [invocations_append, List.mem_append] at hi
    obtain hi | hi := hi
    · exact .inl (invocations_of_allCalls hprepare hp _ hi)
    · obtain ⟨ho, hx⟩ | ⟨_, hnil, _⟩ := runs_gated hg
      · exact .inr ⟨first, rest, p, hp, rfl, ho, hx, hi⟩
      · simp [hnil] at hi

end Shape

/-! ## The preflights -/

def restartPrepare (fleet : Fleet) (nodeName : String) (policy : Policy) (audit : Bool)
    (maxLag : Int) : OpsProgram (RestartResult ⊕ Prepared RestartResult) :=
  match fleet.findNode nodeName with
  | none => pure (.inl (.error (unknownNode nodeName)))
  | some (clusterName, cluster, node) => do
      let rules := policy.forCluster clusterName
      let before ← inspectNode node
      let pcts ← ofExcept (usePcts before)
      let leader ← perform (S := opsSignature)
        (.leader node cluster.referenceRpc rules.requireLeaderWindowMinutes)
      pure (.inr
        { request := restartRequest clusterName cluster node nodeName rules maxLag before pcts
          closed := fun decision => .gated decision before leader
          execute := executeRestart clusterName cluster node nodeName rules maxLag audit leader })

def upgradePrepare (fleet : Fleet) (nodeName targetVersion : String) (policy : Policy)
    (audit : Bool) (maxLag : Int) (forceBuild : Bool) :
    OpsProgram (UpgradeResult ⊕ Prepared UpgradeResult) :=
  match fleet.findNode nodeName with
  | none => pure (.inl (.error (unknownNode nodeName)))
  | some (clusterName, cluster, node) => do
      let rules := policy.forCluster clusterName
      let before ← inspectNode node
      let pcts ← ofExcept (usePcts before)
      pure (.inr
        { request :=
            upgradeRequest fleet clusterName cluster node nodeName rules targetVersion before pcts
          closed := fun decision => .gated decision before
          execute := auditedUpgrade fleet clusterName cluster node nodeName rules targetVersion
            audit maxLag forceBuild })

def provisionPrepare (fleet : Fleet) (nodeName targetVersion : String)
    (allowFormat : Finset String) (audit : Bool) (maxLag catchupTimeout : Int) :
    OpsProgram (ProvisionResult ⊕ Prepared ProvisionResult) :=
  match fleet.findNode nodeName with
  | none => pure (.inl (.error (unknownNode nodeName)))
  | some (clusterName, cluster, node) => do
      let pre ← preflight node
      pure (.inr
        { request := provisionRequest fleet clusterName cluster node nodeName targetVersion pre
          closed := fun decision => .gated decision pre
          execute := auditedProvision fleet clusterName cluster node nodeName targetVersion
            allowFormat audit maxLag catchupTimeout })

def bootstrapPrepare (fleet : Fleet) (builderName : String) (audit : Bool) :
    OpsProgram (BootstrapResult ⊕ Prepared BootstrapResult) :=
  match fleet.findBuilder (some builderName) with
  | none => pure (.inl (.error (unknownBuilder fleet builderName)))
  | some builder => do
      let r ← runOn (.builder builder) .noop
      pure (.inr
        { request := bootstrapRequest builderName r.ok
          closed := fun decision => .gated decision buildAptPackages
          execute := executeBootstrap builder builderName audit })

theorem restartNode_eq (fleet : Fleet) (nodeName : String) (confirm : Bool) (policy : Policy)
    (audit : Bool) (maxLag : Int) :
    restartNode fleet nodeName confirm policy audit maxLag =
      staged (restartPrepare fleet nodeName policy audit maxLag) confirm audit := by
  unfold restartNode restartPrepare
  cases fleet.findNode nodeName with
  | none => rfl
  | some found => simp only [staged, bind_assoc, pure_bind]

theorem executeUpgrade_eq (fleet : Fleet) (nodeName targetVersion : String) (confirm : Bool)
    (policy : Policy) (audit : Bool) (maxLag : Int) (forceBuild : Bool) :
    executeUpgrade fleet nodeName targetVersion confirm policy audit maxLag forceBuild =
      staged (upgradePrepare fleet nodeName targetVersion policy audit maxLag forceBuild) confirm
        audit := by
  unfold executeUpgrade upgradePrepare
  cases fleet.findNode nodeName with
  | none => rfl
  | some found => simp only [staged, bind_assoc, pure_bind]

theorem provisionNode_eq (fleet : Fleet) (nodeName targetVersion : String) (confirm : Bool)
    (allowFormat : Finset String) (policy : Policy) (audit : Bool)
    (maxLag catchupTimeout : Int) :
    provisionNode fleet nodeName targetVersion confirm allowFormat policy audit maxLag
        catchupTimeout =
      staged (provisionPrepare fleet nodeName targetVersion allowFormat audit maxLag
        catchupTimeout) confirm audit := by
  unfold provisionNode provisionPrepare
  cases fleet.findNode nodeName with
  | none => rfl
  | some found => simp only [staged, bind_assoc, pure_bind]

theorem bootstrapBuilder_eq (fleet : Fleet) (builderName : String) (confirm audit : Bool) :
    bootstrapBuilder fleet builderName confirm audit =
      staged (bootstrapPrepare fleet builderName audit) confirm audit := by
  unfold bootstrapBuilder bootstrapPrepare
  cases fleet.findBuilder (some builderName) with
  | none => rfl
  | some builder => simp only [staged, bind_assoc, pure_bind]

/-! ## What a preflight looks at -/

/-- The commands of `inspect_node`. -/
def inspectCommands (node : Node) : List Command :=
  [.systemctlShow node.service.unit, .binaryVersion node.service.binary] ++
  (match node.service.versionMarker with
    | none => []
    | some marker => if marker = "" then [] else [.cat marker]) ++
  [.df [node.service.ledger, node.service.accounts]]

def inspectInvocations (node : Node) : List Invocation :=
  (inspectCommands node).map (.ssh (.node node))

theorem forall_inspectInvocations {P : Invocation → Prop} {node : Node}
    (hshow : ∀ unit, P (.ssh (.node node) (.systemctlShow unit)))
    (hversion : ∀ binary, P (.ssh (.node node) (.binaryVersion binary)))
    (hcat : ∀ path, P (.ssh (.node node) (.cat path)))
    (hdf : ∀ paths, P (.ssh (.node node) (.df paths))) :
    ∀ i ∈ inspectInvocations node, P i := by
  have hmarker : ∀ command ∈
      (match node.service.versionMarker with
        | none => []
        | some marker => if marker = "" then [] else [Command.cat marker]),
      P (.ssh (.node node) command) := by
    intro command hc
    split at hc
    · cases hc
    · split at hc
      · cases hc
      · rw [List.mem_singleton] at hc
        exact hc ▸ hcat _
  simp only [inspectInvocations, inspectCommands, List.forall_mem_map, List.forall_mem_append,
    List.forall_mem_cons, List.not_mem_nil, false_imp_iff, implies_true, and_true]
  exact ⟨⟨⟨hshow _, hversion _⟩, hmarker⟩, hdf _⟩

theorem allCalls_runOn {P : Invocation → Prop} {target : SSHTarget} {command : Command}
    (h : P (.ssh target command)) : (runOn target command).AllCalls (OpsEffect.Sends P) :=
  allCalls_perform.mpr (sends_runner_iff.mpr h)

theorem allCalls_ofExcept {α : Type} {P : OpsEffect → Prop} (r : Except Exn α) :
    (ofExcept r : OpsProgram α).AllCalls P := trivial

theorem allCalls_markerVersion {P : Invocation → Prop} {node : Node}
    (h : ∀ i ∈ inspectInvocations node, P i) :
    (markerVersion node).AllCalls (OpsEffect.Sends P) := by
  unfold markerVersion
  cases hm : node.service.versionMarker with
  | none => trivial
  | some marker =>
      by_cases hempty : marker = ""
      · simp [hempty]
      · simp only [hempty, if_false]
        have hcat : Invocation.ssh (.node node) (.cat marker) ∈ inspectInvocations node := by
          simp [inspectInvocations, inspectCommands, hm, hempty]
        exact (allCalls_runOn (h _ hcat)).map _

theorem allCalls_inspectNode {P : Invocation → Prop} {node : Node}
    (h : ∀ i ∈ inspectInvocations node, P i) :
    (inspectNode node).AllCalls (OpsEffect.Sends P) := by
  have hrun : ∀ command ∈ inspectCommands node,
      (runOn (.node node) command).AllCalls (OpsEffect.Sends P) := fun command hc =>
    allCalls_runOn (h _ (List.mem_map_of_mem hc))
  refine ((hrun _ (by simp [inspectCommands])).map _).bind fun service => ?_
  refine AllCalls.bind ?_ fun version => ?_
  · refine (hrun _ (by simp [inspectCommands])).bind fun r => ?_
    exact (allCalls_markerVersion h).bind fun _ => trivial
  · exact ((hrun _ (by simp [inspectCommands])).map _).bind fun _ => trivial

theorem allCalls_setupDisk {P : Invocation → Prop} {node : Node} {allowFormat : Finset String}
    {disk : DiskConfig} (htmpfs : P (.ssh (.node node) (.setupTmpfs disk node.service.runUser)))
    (hprobe : P (.ssh (.node node) (.probeDisk disk.device)))
    (hmkfs : P (.ssh (.node node) (.mkfs disk.fs disk.device)))
    (hmount : P (.ssh (.node node) (.mountDisk disk node.service.runUser))) :
    (setupDisk node allowFormat disk).AllCalls (OpsEffect.Sends P) := by
  have hmountDisk : ∀ formatted wasEmpty,
      (mountDisk node disk formatted wasEmpty).AllCalls (OpsEffect.Sends P) :=
    fun _ _ => (allCalls_runOn hmount).bind fun _ => trivial
  unfold setupDisk
  split
  · exact (allCalls_runOn htmpfs).bind fun _ => trivial
  · refine (allCalls_runOn hprobe).bind fun probe => ?_
    dsimp only
    split
    · split
      · trivial
      · refine (allCalls_runOn hmkfs).bind fun r => ?_
        split
        · exact hmountDisk true true
        · trivial
    · exact hmountDisk _ _

theorem allCalls_restartPrepare {P : Invocation → Prop} {fleet : Fleet} {nodeName : String}
    {policy : Policy} {audit : Bool} {maxLag : Int}
    (h : ∀ clusterName cluster node, fleet.findNode nodeName = some (clusterName, cluster, node) →
      ∀ i ∈ inspectInvocations node, P i) :
    (restartPrepare fleet nodeName policy audit maxLag).AllCalls (OpsEffect.Sends P) := by
  unfold restartPrepare
  cases hf : fleet.findNode nodeName with
  | none => trivial
  | some found =>
      refine (allCalls_inspectNode (h _ _ _ hf)).bind fun before => ?_
      refine (allCalls_ofExcept _).bind fun pcts => ?_
      exact (allCalls_perform.mpr fun _ he => nomatch he).bind fun _ => trivial

theorem allCalls_upgradePrepare {P : Invocation → Prop} {fleet : Fleet}
    {nodeName targetVersion : String} {policy : Policy} {audit forceBuild : Bool} {maxLag : Int}
    (h : ∀ clusterName cluster node, fleet.findNode nodeName = some (clusterName, cluster, node) →
      ∀ i ∈ inspectInvocations node, P i) :
    (upgradePrepare fleet nodeName targetVersion policy audit maxLag forceBuild).AllCalls
      (OpsEffect.Sends P) := by
  unfold upgradePrepare
  cases hf : fleet.findNode nodeName with
  | none => trivial
  | some found =>
      refine (allCalls_inspectNode (h _ _ _ hf)).bind fun before => ?_
      exact (allCalls_ofExcept _).bind fun _ => trivial

theorem allCalls_provisionPrepare {P : Invocation → Prop} {fleet : Fleet}
    {nodeName targetVersion : String} {allowFormat : Finset String} {audit : Bool}
    {maxLag catchupTimeout : Int}
    (h : ∀ clusterName cluster node, fleet.findNode nodeName = some (clusterName, cluster, node) →
      P (.ssh (.node node) .preflight)) :
    (provisionPrepare fleet nodeName targetVersion allowFormat audit maxLag
      catchupTimeout).AllCalls (OpsEffect.Sends P) := by
  unfold provisionPrepare
  cases hf : fleet.findNode nodeName with
  | none => trivial
  | some found =>
      refine AllCalls.bind ?_ fun pre => trivial
      exact (allCalls_runOn (h _ _ _ hf)).bind fun _ => allCalls_ofExcept _

theorem allCalls_bootstrapPrepare {P : Invocation → Prop} {fleet : Fleet} {builderName : String}
    {audit : Bool}
    (h : ∀ builder, fleet.findBuilder (some builderName) = some builder →
      P (.ssh (.builder builder) .noop)) :
    (bootstrapPrepare fleet builderName audit).AllCalls (OpsEffect.Sends P) := by
  unfold bootstrapPrepare
  cases hf : fleet.findBuilder (some builderName) with
  | none => trivial
  | some builder => exact (allCalls_runOn (h _ hf)).bind fun _ => trivial

/-! ## Where a preflight leads -/

theorem restartPrepare_inr {fleet : Fleet} {nodeName : String} {policy : Policy} {audit : Bool}
    {maxLag : Int} {trace : List OpsEvent} {p : Prepared RestartResult}
    (h : Runs (restartPrepare fleet nodeName policy audit maxLag) trace (.ok (.inr p))) :
    ∃ clusterName cluster node before pcts leader,
      fleet.findNode nodeName = some (clusterName, cluster, node) ∧
      p.request = restartRequest clusterName cluster node nodeName (policy.forCluster clusterName)
        maxLag before pcts ∧
      p.execute = executeRestart clusterName cluster node nodeName
        (policy.forCluster clusterName) maxLag audit leader := by
  unfold restartPrepare at h
  cases hf : fleet.findNode nodeName with
  | none => simp [hf] at h
  | some found =>
      rw [hf] at h
      obtain ⟨_, _, before, _, h, _⟩ := runs_bind_ok_iff.mp h
      obtain ⟨_, _, pcts, _, h, _⟩ := runs_bind_ok_iff.mp h
      obtain ⟨_, _, leader, _, h, _⟩ := runs_bind_ok_iff.mp h
      obtain ⟨_, h⟩ := runs_pure_iff.mp h
      cases h
      exact ⟨_, _, _, before, pcts, leader, rfl, rfl, rfl⟩

theorem upgradePrepare_inr {fleet : Fleet} {nodeName targetVersion : String} {policy : Policy}
    {audit forceBuild : Bool} {maxLag : Int} {trace : List OpsEvent}
    {p : Prepared UpgradeResult}
    (h : Runs (upgradePrepare fleet nodeName targetVersion policy audit maxLag forceBuild) trace
      (.ok (.inr p))) :
    ∃ clusterName cluster node before pcts,
      fleet.findNode nodeName = some (clusterName, cluster, node) ∧
      p.request = upgradeRequest fleet clusterName cluster node nodeName
        (policy.forCluster clusterName) targetVersion before pcts ∧
      p.execute = auditedUpgrade fleet clusterName cluster node nodeName
        (policy.forCluster clusterName) targetVersion audit maxLag forceBuild := by
  unfold upgradePrepare at h
  cases hf : fleet.findNode nodeName with
  | none => simp [hf] at h
  | some found =>
      rw [hf] at h
      obtain ⟨_, _, before, _, h, _⟩ := runs_bind_ok_iff.mp h
      obtain ⟨_, _, pcts, _, h, _⟩ := runs_bind_ok_iff.mp h
      obtain ⟨_, h⟩ := runs_pure_iff.mp h
      cases h
      exact ⟨_, _, _, before, pcts, rfl, rfl, rfl⟩

theorem provisionPrepare_inr {fleet : Fleet} {nodeName targetVersion : String}
    {allowFormat : Finset String} {audit : Bool} {maxLag catchupTimeout : Int}
    {trace : List OpsEvent} {p : Prepared ProvisionResult}
    (h : Runs (provisionPrepare fleet nodeName targetVersion allowFormat audit maxLag
      catchupTimeout) trace (.ok (.inr p))) :
    ∃ clusterName cluster node pre,
      fleet.findNode nodeName = some (clusterName, cluster, node) ∧
      p.request = provisionRequest fleet clusterName cluster node nodeName targetVersion pre ∧
      p.execute = auditedProvision fleet clusterName cluster node nodeName targetVersion
        allowFormat audit maxLag catchupTimeout := by
  unfold provisionPrepare at h
  cases hf : fleet.findNode nodeName with
  | none => simp [hf] at h
  | some found =>
      rw [hf] at h
      obtain ⟨_, _, pre, _, h, _⟩ := runs_bind_ok_iff.mp h
      obtain ⟨_, h⟩ := runs_pure_iff.mp h
      cases h
      exact ⟨_, _, _, pre, rfl, rfl, rfl⟩

theorem bootstrapPrepare_inr {fleet : Fleet} {builderName : String} {audit : Bool}
    {trace : List OpsEvent} {p : Prepared BootstrapResult}
    (h : Runs (bootstrapPrepare fleet builderName audit) trace (.ok (.inr p))) :
    ∃ builder reachable,
      fleet.findBuilder (some builderName) = some builder ∧
      p.request = bootstrapRequest builderName reachable ∧
      p.execute = executeBootstrap builder builderName audit := by
  unfold bootstrapPrepare at h
  cases hf : fleet.findBuilder (some builderName) with
  | none => simp [hf] at h
  | some builder =>
      rw [hf] at h
      obtain ⟨_, _, r, _, h, _⟩ := runs_bind_ok_iff.mp h
      obtain ⟨_, h⟩ := runs_pure_iff.mp h
      cases h
      exact ⟨_, r.ok, rfl, rfl, rfl⟩

theorem upgradeRequest_allowed {fleet : Fleet} {clusterName : String} {cluster : Cluster}
    {node : Node} {nodeName targetVersion : String} {rules : PolicyRules} {before : Inspection}
    {pcts : List Nat} {confirm : Bool}
    (h : (gate (upgradeRequest fleet clusterName cluster node nodeName rules targetVersion before
      pcts) confirm).allowed = true) :
    (gate (planRequest fleet clusterName cluster node nodeName rules targetVersion)
      false).allowed = true := by
  rw [gate_allowed_iff] at h ⊢
  exact fun check hc => h check (List.mem_append_left _ hc)

/-- A builder is found only through the name an install section gives. -/
theorem install_of_builderOf {fleet : Fleet} {cluster : Cluster} {builder : BuilderHost}
    (h : builderOf fleet cluster = some builder) :
    (∃ install, cluster.install = some install) ∧ (builderName cluster).isSome = true := by
  cases hi : cluster.install with
  | none => simp [builderOf, builderName, hi, Fleet.findBuilder] at h
  | some install =>
      refine ⟨⟨install, rfl⟩, ?_⟩
      cases hb : install.builder with
      | none => simp [builderOf, builderName, hi, hb, Fleet.findBuilder] at h
      | some name => simp [builderName, hi, hb]

theorem planRequest_allowed {fleet : Fleet} {clusterName : String} {cluster : Cluster}
    {node : Node} {nodeName targetVersion : String} {rules : PolicyRules}
    (h : (gate (planRequest fleet clusterName cluster node nodeName rules targetVersion)
      false).allowed = true) :
    versionAllowed rules (some targetVersion) = true ∧ (builderOf fleet cluster).isSome = true ∧
      (!buildsGeyser cluster || node.service.geyserLib.isSome) = true := by
  have hchecks := gate_allowed_iff.mp h
  simp only [planRequest, upgradeChecks, List.forall_mem_cons] at hchecks
  exact ⟨hchecks.1, hchecks.2.2.1, hchecks.2.2.2.1⟩

/-- The two checks an upgrade adds to its plan's are the runner's to decide. -/
theorem upgradeRequest_opens_of_planned {fleet : Fleet} {clusterName : String}
    {cluster : Cluster} {node : Node} {nodeName targetVersion : String} {rules : PolicyRules}
    {before : Inspection} {pcts : List Nat}
    (h : (gate (planRequest fleet clusterName cluster node nodeName rules targetVersion)
      false).allowed = true) (hreachable : before.service.ok = true)
    (hdisk : diskFreeOk rules pcts = true) :
    (upgradeRequest fleet clusterName cluster node nodeName rules targetVersion before
      pcts).Opens true := by
  refine ⟨rfl, gate_allowed_iff.mpr fun check hc => ?_⟩
  obtain hc | hc := List.mem_append.mp hc
  · exact gate_allowed_iff.mp h check hc
  · simp only [List.mem_cons, List.not_mem_nil, or_false] at hc
    obtain rfl | rfl := hc
    · exact hreachable
    · exact hdisk

theorem diskFreeOk_nil (rules : PolicyRules) : diskFreeOk rules [] = true := by
  unfold diskFreeOk
  split <;> rfl

/-! ## The family -/

inductive Orchestration where
  | restart (nodeName : String) (policy : Policy) (audit : Bool) (maxLag : Int)
  | upgrade (nodeName targetVersion : String) (policy : Policy) (audit : Bool) (maxLag : Int)
      (forceBuild : Bool)
  | provision (nodeName targetVersion : String) (allowFormat : Finset String) (policy : Policy)
      (audit : Bool) (maxLag catchupTimeout : Int)
  | bootstrap (builderName : String) (audit : Bool)

namespace Orchestration

abbrev Result : Orchestration → Type
  | .restart .. => RestartResult
  | .upgrade .. => UpgradeResult
  | .provision .. => ProvisionResult
  | .bootstrap .. => BootstrapResult

def program (fleet : Fleet) (confirm : Bool) : (o : Orchestration) → OpsProgram o.Result
  | .restart nodeName policy audit maxLag =>
      restartNode fleet nodeName confirm policy audit maxLag
  | .upgrade nodeName targetVersion policy audit maxLag forceBuild =>
      executeUpgrade fleet nodeName targetVersion confirm policy audit maxLag forceBuild
  | .provision nodeName targetVersion allowFormat policy audit maxLag catchupTimeout =>
      provisionNode fleet nodeName targetVersion confirm allowFormat policy audit maxLag
        catchupTimeout
  | .bootstrap builderName audit => bootstrapBuilder fleet builderName confirm audit

def prepare (fleet : Fleet) : (o : Orchestration) → OpsProgram (o.Result ⊕ Prepared o.Result)
  | .restart nodeName policy audit maxLag => restartPrepare fleet nodeName policy audit maxLag
  | .upgrade nodeName targetVersion policy audit maxLag forceBuild =>
      upgradePrepare fleet nodeName targetVersion policy audit maxLag forceBuild
  | .provision nodeName targetVersion allowFormat _ audit maxLag catchupTimeout =>
      provisionPrepare fleet nodeName targetVersion allowFormat audit maxLag catchupTimeout
  | .bootstrap builderName audit => bootstrapPrepare fleet builderName audit

def audit : Orchestration → Bool
  | .restart _ _ audit _ => audit
  | .upgrade _ _ _ audit _ _ => audit
  | .provision _ _ _ _ audit _ _ => audit
  | .bootstrap _ audit => audit

theorem program_eq (fleet : Fleet) (confirm : Bool) (o : Orchestration) :
    o.program fleet confirm = staged (o.prepare fleet) confirm o.audit := by
  cases o with
  | restart => exact restartNode_eq ..
  | upgrade => exact executeUpgrade_eq ..
  | provision _ _ _ policy => exact provisionNode_eq _ _ _ _ _ policy _ _ _
  | bootstrap => exact bootstrapBuilder_eq ..

end Orchestration

/-! ## A fleet to run them on -/

def builtNode : Node where
  name := "rpc-1"
  role := .rpc
  host := "10.0.0.1"
  rpcUrl := some "http://10.0.0.1:8899"

def builtInstall : InstallConfig := { builder := some "builder-1" }

def builtCluster : Cluster where
  referenceRpc := "https://api.testnet.solana.com"
  install := some builtInstall
  nodes := [builtNode]

/-- One node, one build host. -/
def builtFleet : AcceptedFleet where
  fleet :=
    { clusters := ⟨[("testnet", builtCluster)], by decide⟩
      builders := ⟨[("builder-1", { host := "10.0.0.9" })], by decide⟩ }
  accepted := by decide

theorem builtFleet_findNode :
    builtFleet.fleet.findNode "rpc-1" = some ("testnet", builtCluster, builtNode) := rfl

end Solfleet
