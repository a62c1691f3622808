import Solfleet.Orchestration.DryRun

/-! # The audit trail of the orchestrators

Behind the gate an orchestrator makes its entry at the end of its stages, so an
exception in between takes the entry along. `Plain` are the programs that make no
entry and raise only where a call does; every stage is one.
-/

namespace Solfleet

open Interaction Program

/-! ## Mutating commands -/

/-- The command may change its host; the others look. -/
def Command.Mutates : Command → Prop
  | .systemctlShow _ | .binaryVersion _ | .cat _ | .df _ | .sha256sum _ | .testFiles _ | .noop
  | .preflight | .probeDisk _ | .testPresent _ | .builderSpecs => False
  | .systemctl .. | .safeExit .. | .swap _ | .writeMarker .. | .build _ | .bootstrap
  | .ensureUser _ | .applySystem .. | .setupTmpfs .. | .mkfs .. | .mountDisk ..
  | .installUnit .. => True

def Invocation.Mutates : Invocation → Prop
  | .ssh _ command => command.Mutates
  | .scpFrom .. => False
  | .scpTo .. => True

def OpsEffect.Mutates : OpsEffect → Prop
  | .runner invocation => invocation.Mutates
  | _ => False

theorem OpsEffect.mutates_iff {op : OpsEffect} :
    op.Mutates ↔ ∃ invocation, op = .runner invocation ∧ invocation.Mutates := by
  cases op with
  | runner invocation => exact ⟨fun h => ⟨_, rfl, h⟩, fun ⟨_, h, hm⟩ => runner.inj h ▸ hm⟩
  | mkdtemp | sample | leader | sleep | audit => exact ⟨False.elim, fun ⟨_, h, _⟩ => nomatch h⟩

/-! ## The trail -/

/-- The log took the entry. -/
def OpsLogged (trace : List OpsEvent) (entry : AuditEvent) : Prop :=
  (⟨.audit entry, .ok ()⟩ : OpsEvent) ∈ trace

/-- No entry was refused. -/
def OpsLogWorks (trace : List OpsEvent) : Prop :=
  ∀ event ∈ trace, event.Raised → ∀ entry, event.op ≠ .audit entry

/-- From the first mutating command on no call raises. -/
def OpsSteady (trace : List OpsEvent) : Prop :=
  Ahead (fun (event : OpsEvent) after => event.op.Mutates → ∀ e ∈ event :: after, ¬ e.Raised) trace

/-! ## Plain programs -/

structure Plain {α : Type} (p : OpsProgram α) : Prop where
  propagates : p.Propagates
  silent : p.AllCalls fun op : OpsEffect => ∀ entry, op ≠ .audit entry

section Rules

variable {α β : Type}

theorem plain_pure (a : α) : Plain (pure a) := ⟨propagates_pure a, trivial⟩

theorem plain_perform (op : OpsEffect) (h : ∀ entry, op ≠ .audit entry) :
    Plain (perform (S := opsSignature) op) where
  propagates := @propagates_perform opsSignature _ op
  silent := allCalls_perform.mpr h

theorem Plain.bind {p : OpsProgram α} {f : α → OpsProgram β} (hp : Plain p)
    (hf : ∀ a, Plain (f a)) : Plain (p >>= f) :=
  ⟨hp.propagates.bind fun a => (hf a).propagates, hp.silent.bind fun a => (hf a).silent⟩

theorem Plain.map {p : OpsProgram α} (f : α → β) (hp : Plain p) : Plain (f <$> p) :=
  ⟨hp.propagates.map f, hp.silent.map f⟩

theorem plain_each {xs : List α} {body : α → OpsProgram β} (h : ∀ x, Plain (body x)) :
    Plain (each xs body) :=
  ⟨Propagates.each fun x _ => (h x).propagates, AllCalls.each fun x _ => (h x).silent⟩

theorem plain_invoke (invocation : Invocation) : Plain (invoke invocation) :=
  plain_perform (.runner invocation) nofun

theorem plain_runOn (target : SSHTarget) (command : Command) : Plain (runOn target command) :=
  plain_invoke _

/-- One command and a reading of its answer. -/
theorem plain_command {target : SSHTarget} {command : Command} {f : CommandResult → α} :
    Plain (runOn target command >>= fun r => pure (f r)) :=
  (plain_runOn _ _).bind fun _ => plain_pure _

end Rules

/-! ## The stages -/

theorem plain_inspectNode (node : Node) : Plain (inspectNode node) := by
  have hmarker : Plain (markerVersion node) := by
    unfold markerVersion
    split
    · exact plain_pure _
    · split
      · exact plain_pure _
      · exact (plain_runOn _ _).map _
  refine ((plain_runOn _ _).map _).bind fun service => Plain.bind ?_ fun version => ?_
  · exact (plain_runOn _ _).bind fun r => hmarker.bind fun marker => plain_pure _
  · exact ((plain_runOn _ _).map _).bind fun disk => plain_pure _

theorem plain_catchupLoop (node : Node) (referenceRpc : String) (maxLag : Int) (rounds : Nat)
    (waited : Int) (last : Option Sample) :
    Plain (catchupLoop node referenceRpc maxLag rounds waited last) := by
  induction rounds generalizing waited last with
  | zero => exact plain_pure _
  | succ rounds ih =>
      refine (plain_perform (.sample node referenceRpc) nofun).bind fun sample => ?_
      split
      · exact plain_pure _
      · exact (plain_perform (.sleep catchupInterval) nofun).bind fun _ => ih _ _

theorem plain_waitForCatchup (node : Node) (referenceRpc : String) (maxLag timeout : Int) :
    Plain (waitForCatchup node referenceRpc maxLag timeout) := plain_catchupLoop ..

theorem plain_cycleService (node : Node) (rules : PolicyRules) :
    Plain (cycleService node rules) := by
  unfold cycleService
  split
  · exact Plain.map _ plain_command
  · exact plain_command.bind fun stop => plain_command.bind fun start => plain_pure _

theorem plain_runBuildSteps (builder : SSHTarget) (steps : List BuildStep) (log : List String) :
    Plain (runBuildSteps builder steps log) := by
  induction steps generalizing log with
  | nil => exact plain_pure _
  | cons step steps ih =>
      refine (plain_runOn _ _).bind fun r => ?_
      dsimp only
      split
      · exact ih _
      · exact plain_pure _

theorem plain_remoteSha256 (target : SSHTarget) (path : String) :
    Plain (remoteSha256 target path) :=
  (plain_runOn _ _).map _

theorem plain_collect (builder : SSHTarget) (out : String) (names : List String) :
    Plain (collect builder out names) :=
  plain_each fun _ => (plain_remoteSha256 _ _).bind fun _ => plain_pure _

theorem plain_buildArtifacts (builder : SSHTarget) (install : InstallConfig) (version : String)
    (force : Bool) : Plain (buildArtifacts builder install version force) := by
  have hfresh : Plain (freshBuild builder install version) := by
    refine (plain_runBuildSteps _ _ _).bind fun (error, log) => ?_
    cases error with
    | some error => exact plain_pure _
    | none => exact (plain_collect _ _ _).bind fun artifacts => plain_pure _
  unfold buildArtifacts
  split
  · exact hfresh
  · refine ((plain_runOn _ _).map _).bind fun cached => ?_
    split
    · exact (plain_collect _ _ _).bind fun artifacts => plain_pure _
    · exact hfresh

theorem plain_distribute (builder : SSHTarget) (node : Node) (artifacts : List Artifact) :
    Plain (distribute builder node artifacts) := by
  refine (plain_perform (.mkdtemp "solfleet-") nofun).bind fun staging => ?_
  refine (plain_each fun artifact => ?_).bind fun results => plain_pure _
  unfold distributeArtifact
  split
  · exact plain_pure _
  · refine (plain_invoke _).bind fun pull => (plain_invoke _).bind fun push => ?_
    exact (plain_remoteSha256 _ _).bind fun got => plain_pure _

theorem plain_updateMarker (node : Node) (version : String) :
    Plain (updateMarker node version) := by
  unfold updateMarker
  split
  · exact plain_pure _
  · split
    · exact plain_pure _
    · exact plain_command

theorem plain_swapAndCycle (node : Node) (rules : PolicyRules) (version : String)
    (swaps : List Swap) : Plain (swapAndCycle node rules version swaps) := by
  have hmarker := plain_updateMarker node version
  unfold swapAndCycle
  split
  · refine plain_command.bind fun swap => hmarker.bind fun marker => ?_
    exact plain_command.bind fun exited => plain_pure _
  · refine plain_command.bind fun stop => plain_command.bind fun swap => ?_
    refine hmarker.bind fun marker => ?_
    exact plain_command.bind fun start => plain_pure _

theorem plain_upgradeStages (builder : SSHTarget) (install : InstallConfig) (cluster : Cluster)
    (node : Node) (rules : PolicyRules) (targetVersion : String) (maxLag : Int)
    (forceBuild : Bool) (decision : GateDecision) :
    Plain (upgradeStages builder install cluster node rules targetVersion maxLag forceBuild
      decision) := by
  refine (plain_buildArtifacts _ _ _ _).bind fun build => ?_
  split
  · refine (plain_distribute _ _ _).bind fun dist => ?_
    split
    · refine Plain.map _ ((plain_swapAndCycle _ _ _ _).bind fun cycled => ?_)
      refine (plain_waitForCatchup _ _ _ _).bind fun catchup => ?_
      exact (plain_inspectNode _).bind fun after => plain_pure _
    · exact plain_pure _
  · exact plain_pure _

theorem plain_setupDisk (node : Node) (allowFormat : Finset String) (disk : DiskConfig) :
    Plain (setupDisk node allowFormat disk) := by
  unfold setupDisk
  split
  · exact plain_command
  · refine (plain_runOn _ _).bind fun probe => ?_
    dsimp only
    split
    · split
      · exact plain_pure _
      · refine (plain_runOn _ _).bind fun r => ?_
        split
        · exact plain_command
        · exact plain_pure _
    · exact plain_command

theorem plain_provisionStart (cluster : Cluster) (node : Node) (maxLag catchupTimeout : Int)
    (steps : ProvisionSteps) (swap : SwapResult) (unit : InstallUnit) :
    Plain (provisionStart cluster node maxLag catchupTimeout steps swap unit) :=
  plain_command.bind fun _ => (plain_waitForCatchup _ _ _ _).bind fun _ => plain_pure _

theorem plain_provisionVoteKey (cluster : Cluster) (node : Node) (maxLag catchupTimeout : Int)
    (steps : ProvisionSteps) (swap : SwapResult) (unit : InstallUnit) :
    Plain (provisionVoteKey cluster node maxLag catchupTimeout steps swap unit) := by
  have hcheck : Plain (checkVoteKey node) := by
    unfold checkVoteKey
    split
    · exact plain_command
    · exact plain_pure _
  unfold provisionVoteKey
  split
  · refine hcheck.bind fun voteKey => ?_
    dsimp only
    split
    · exact plain_provisionStart ..
    · exact plain_pure _
  · exact plain_provisionStart ..

theorem plain_provisionSoftware (builder : SSHTarget) (install : InstallConfig)
    (cluster : Cluster) (node : Node) (targetVersion : String) (maxLag catchupTimeout : Int)
    (steps : ProvisionSteps) :
    Plain (provisionSoftware builder install cluster node targetVersion maxLag catchupTimeout
      steps) := by
  refine (plain_buildArtifacts _ _ _ _).bind fun build => ?_
  split
  · refine (plain_distribute _ _ _).bind fun dist => ?_
    split
    · refine plain_command.bind fun swap => plain_command.bind fun unit => ?_
      refine plain_command.bind fun identity => ?_
      dsimp only
      split
      · exact plain_provisionVoteKey ..
      · exact plain_pure _
    · exact plain_pure _
  · exact plain_pure _

/-! ## Behind the gate -/

/-- Plain stages and then the entry. -/
def EndsWith {α : Type} (entry : AuditEvent) (p : OpsProgram α) : Prop :=
  ∃ stages : OpsProgram α, Plain stages ∧
    p = stages >>= fun result => recordOps true entry >>= fun _ => pure result

theorem endsWith_recordOps {α : Type} (entry : AuditEvent) (a : α) :
    EndsWith entry (recordOps true entry >>= fun _ => pure a) := ⟨pure a, plain_pure a, rfl⟩

theorem EndsWith.after {α β : Type} {entry : AuditEvent} {p : OpsProgram β}
    {f : β → OpsProgram α} (hp : Plain p) (hf : ∀ b, EndsWith entry (f b)) :
    EndsWith entry (p >>= f) := by
  choose stages hplain heq using hf
  refine ⟨p >>= stages, hp.bind hplain, ?_⟩
  rw [bind_assoc]
  exact congrArg (p >>= ·) (funext heq)

theorem endsWith_executeRestart (clusterName : String) (cluster : Cluster) (node : Node)
    (nodeName : String) (rules : PolicyRules) (maxLag : Int) (leader : Option LeaderWindows)
    (decision : GateDecision) :
    EndsWith ⟨"restart_node", clusterName, nodeName, .execute, true⟩
      (executeRestart clusterName cluster node nodeName rules maxLag true leader decision) := by
  refine EndsWith.after (plain_perform (.sample node cluster.referenceRpc) nofun) fun sample => ?_
  refine EndsWith.after (plain_cycleService _ _) fun cycle => ?_
  refine EndsWith.after (plain_waitForCatchup _ _ _ _) fun catchup => ?_
  exact EndsWith.after (plain_inspectNode _) fun after => endsWith_recordOps _ _

theorem endsWith_executeBootstrap (builder : BuilderHost) (builderName : String)
    (decision : GateDecision) :
    EndsWith ⟨"bootstrap_builder", "builders", builderName, .execute, true⟩
      (executeBootstrap builder builderName true decision) :=
  EndsWith.after (plain_runOn _ _) fun _ => endsWith_recordOps _ _

theorem endsWith_auditedUpgrade {fleet : Fleet} {cluster : Cluster}
    (hbuilder : (builderOf fleet cluster).isSome = true) (clusterName : String) (node : Node)
    (nodeName : String) (rules : PolicyRules) (targetVersion : String) (maxLag : Int)
    (forceBuild : Bool) (decision : GateDecision) :
    EndsWith ⟨"upgrade", clusterName, nodeName, .execute, true⟩
      (auditedUpgrade fleet clusterName cluster node nodeName rules targetVersion true maxLag
        forceBuild decision) := by
  obtain ⟨builder, hb⟩ := Option.isSome_iff_exists.mp hbuilder
  obtain ⟨⟨install, hi⟩, -⟩ := install_of_builderOf hb
  refine EndsWith.after ?_ fun result => endsWith_recordOps _ _
  simp only [upgradeWith, hi, hb]
  exact plain_upgradeStages ..

theorem endsWith_auditedProvision {fleet : Fleet} {cluster : Cluster}
    (hbuilder : (builderOf fleet cluster).isSome = true) (clusterName : String) (node : Node)
    (nodeName targetVersion : String) (allowFormat : Finset String) (maxLag catchupTimeout : Int)
    (decision : GateDecision) :
    EndsWith ⟨"provision", clusterName, nodeName, .execute, true⟩
      (auditedProvision fleet clusterName cluster node nodeName targetVersion allowFormat true
        maxLag catchupTimeout decision) := by
  obtain ⟨builder, hb⟩ := Option.isSome_iff_exists.mp hbuilder
  obtain ⟨⟨install, hi⟩, -⟩ := install_of_builderOf hb
  refine EndsWith.after ?_ fun result => endsWith_recordOps _ _
  refine plain_command.bind fun user => plain_command.bind fun system => ?_
  refine (plain_each fun _ => plain_setupDisk ..).bind fun disks => ?_
  simp only [hi, hb]
  split
  · exact plain_provisionSoftware ..
  · exact plain_pure _

/-! ## Names and gates -/

namespace Orchestration

/-- The operation column of the entries. -/
def operation : Orchestration → String
  | .restart .. => "restart_node"
  | .upgrade .. => "upgrade"
  | .provision .. => "provision"
  | .bootstrap .. => "bootstrap_builder"

/-- The node column of the entries. -/
def subject : Orchestration → String
  | .restart nodeName .. | .upgrade nodeName .. | .provision nodeName .. => nodeName
  | .bootstrap builderName _ => builderName

/-- The entry is about this call. -/
def Names (o : Orchestration) (entry : AuditEvent) : Prop :=
  entry.operation = o.operation ∧ entry.node = o.subject

/-- What is put before the gate names the call, and what an open gate lets through ends
with an entry. -/
def Accounts (o : Orchestration) (confirm : Bool) (p : Prepared o.Result) : Prop :=
  (p.request.operation = o.operation ∧ p.request.node = o.subject) ∧
    (p.request.Opens confirm → ∃ entry, o.Names entry ∧ entry.mode = .execute ∧
      EndsWith entry (p.execute (gate p.request confirm)))

theorem accounts_of_runs {fleet : Fleet} {confirm : Bool} {o : Orchestration}
    (given : o.audit = true) {trace : List OpsEvent} {p : Prepared o.Result}
    (h : Runs (o.prepare fleet) trace (.ok (.inr p))) : o.Accounts confirm p := by
  cases o with
  | restart nodeName policy audit maxLag =>
      obtain rfl : audit = true := given
      obtain ⟨clusterName, cluster, node, before, pcts, leader, -, hrequest, hexec⟩ :=
        restartPrepare_inr h
      rw [Accounts, hrequest, hexec]
      exact ⟨⟨rfl, rfl⟩, fun _ => ⟨_, ⟨rfl, rfl⟩, rfl, endsWith_executeRestart ..⟩⟩
  | upgrade nodeName targetVersion policy audit maxLag forceBuild =>
      obtain rfl : audit = true := given
      obtain ⟨clusterName, cluster, node, before, pcts, -, hrequest, hexec⟩ :=
        upgradePrepare_inr h
      rw [Accounts, hrequest, hexec]
      refine ⟨⟨rfl, rfl⟩, fun hopens => ⟨_, ⟨rfl, rfl⟩, rfl, endsWith_auditedUpgrade ?_ ..⟩⟩
      exact (planRequest_allowed (upgradeRequest_allowed hopens.2)).2.1
  | provision nodeName targetVersion allowFormat policy audit maxLag catchupTimeout =>
      obtain rfl : audit = true := given
      obtain ⟨clusterName, cluster, node, pre, -, hrequest, hexec⟩ := provisionPrepare_inr h
      rw [Accounts, hrequest, hexec]
      refine ⟨⟨rfl, rfl⟩, fun hopens => ⟨_, ⟨rfl, rfl⟩, rfl, endsWith_auditedProvision ?_ ..⟩⟩
      have hchecks := gate_allowed_iff.mp hopens.2
      simp only [provisionRequest, List.forall_mem_cons] at hchecks
      exact hchecks.2.2.1
  | bootstrap builderName audit =>
      obtain rfl : audit = true := given
      obtain ⟨builder, reachable, -, hrequest, hexec⟩ := bootstrapPrepare_inr h
      rw [Accounts, hrequest, hexec]
      exact ⟨⟨rfl, rfl⟩, fun _ => ⟨_, ⟨rfl, rfl⟩, rfl, endsWith_executeBootstrap ..⟩⟩

/-- Every mutating command is followed by an `execute` entry of the call. -/
def Executed (o : Orchestration) (trace : List OpsEvent) : Prop :=
  Ahead (fun (event : OpsEvent) after => event.op.Mutates →
    ∃ entry, OpsLogged after entry ∧ o.Names entry ∧ entry.mode = .execute) trace

/-- A mutating command has its entry, and a gate that stays shut leaves one that says
why. -/
structure Audited (fleet : Fleet) (confirm : Bool) (o : Orchestration) (trace : List OpsEvent) :
    Prop where
  executed : o.Executed trace
  shut : ∀ first rest p, Runs (o.prepare fleet) first (.ok (.inr p)) → trace = first ++ rest →
    ¬ p.request.Opens confirm → ∃ entry, OpsLogged rest entry ∧ o.Names entry ∧
      (confirm = false → entry.mode = .dryRun) ∧
      ((gate p.request confirm).allowed = false → entry.allowed = false)

theorem not_mutates_of_probes {fleet : Fleet} {o : Orchestration} :
    ∀ i ∈ o.probes fleet, ¬ i.Mutates := by
  cases o with
  | restart nodeName | upgrade nodeName =>
      simp only [probes]
      split
      · simp
      · exact forall_inspectInvocations (P := fun i => ¬ i.Mutates) (fun _ => id) (fun _ => id)
          (fun _ => id) fun _ => id
  | provision nodeName =>
      simp only [probes]
      split
      · simp
      · exact List.forall_mem_singleton.mpr id
  | bootstrap builderName =>
      simp only [probes]
      split
      · simp
      · exact List.forall_mem_singleton.mpr id

theorem quiet_prepare {fleet : Fleet} {o : Orchestration} {trace : List OpsEvent}
    {outcome : Except Exn (o.Result ⊕ Prepared o.Result)}
    (h : Runs (o.prepare fleet) trace outcome) : ∀ event ∈ trace, ¬ event.op.Mutates := by
  intro event he hm
  obtain ⟨invocation, hop, hi⟩ := OpsEffect.mutates_iff.mp hm
  have hsends := h.allCalls (o.allCalls_prepare fleet) event he
  exact not_mutates_of_probes _ (hsends invocation hop) hi

section Trail

variable {o : Orchestration} {trace rest : List OpsEvent}

/-- Without a mutating command there is nothing to account for. -/
theorem executed_iff_of_quiet (h : ∀ event ∈ trace, ¬ event.op.Mutates) :
    o.Executed trace ↔ OpsSteady trace :=
  iff_of_true (ahead_of_forall fun event he _ hm => absurd hm (h event he))
    (ahead_of_forall fun event he _ hm => absurd hm (h event he))

theorem executed_append_iff (h : ∀ event ∈ trace, ¬ event.op.Mutates) :
    o.Executed (trace ++ rest) ↔ o.Executed rest := by
  rw [Executed, ahead_append_iff]
  exact and_iff_right (ahead_of_forall fun event he _ hm => absurd hm (h event he))

theorem opsSteady_append_iff (h : ∀ event ∈ trace, ¬ event.op.Mutates) :
    OpsSteady (trace ++ rest) ↔ OpsSteady rest := by
  rw [OpsSteady, ahead_append_iff]
  exact and_iff_right (ahead_of_forall fun event he _ hm => absurd hm (h event he))

/-- What is left of a run at its entry. -/
theorem runs_recordOps_pure {α : Type} {entry : AuditEvent} {a : α} {result : Except Exn α}
    (h : Runs (recordOps true entry >>= fun _ => pure a) trace result)
    (works : OpsLogWorks trace) : trace = [⟨.audit entry, .ok ()⟩] := by
  have hentry : ∀ {answer : Except Exn Unit} {events : List OpsEvent},
      Runs (recordOps true entry) events answer → events = [⟨.audit entry, answer⟩] :=
    fun h => runs_perform_iff.mp h
  obtain ⟨first, last, _, hfirst, hlast, rfl⟩ | ⟨e, hfirst, -⟩ := runs_bind_iff.mp h
  · obtain ⟨rfl, -⟩ := runs_pure_iff.mp hlast
    rw [hentry hfirst, List.append_nil]
  · rw [hentry hfirst] at works
    exact absurd rfl (works _ List.mem_cons_self ⟨e, rfl⟩ entry)

/-- Stages and their entry: either both are there, or the exception that ended the
stages took the entry along. -/
theorem executed_iff_of_endsWith {α : Type} {p : OpsProgram α} {entry : AuditEvent}
    (hnames : o.Names entry) (hmode : entry.mode = .execute) (hp : EndsWith entry p)
    {result : Except Exn α} (h : Runs p trace result) (works : OpsLogWorks trace) :
    o.Executed trace ↔ OpsSteady trace := by
  obtain ⟨stages, hplain, rfl⟩ := hp
  obtain ⟨first, rest, a, hfirst, hrest, rfl⟩ | ⟨e, hfirst, rfl⟩ := runs_bind_iff.mp h
  · have hcalm := hfirst.propagates hplain.propagates
    obtain rfl := runs_recordOps_pure hrest fun event he => works event (by simp [he])
    refine iff_of_true (ahead_append_iff.mpr ⟨?_, ?_⟩) ?_
    · exact ahead_of_forall fun event _ after _ =>
        ⟨entry, List.mem_append_right _ List.mem_cons_self, hnames, hmode⟩
    · exact ahead_of_forall fun event he _ hm => by
        rw [List.mem_singleton.mp he] at hm
        exact hm.elim
    · rintro before event after htrace - e he
      have hmem : e ∈ first ++ [⟨.audit entry, .ok ()⟩] :=
        htrace ▸ List.mem_append_right _ he
      obtain hmem | hmem := List.mem_append.mp hmem
      · exact hcalm e hmem
      · rw [List.mem_singleton.mp hmem]
        exact nofun
  · obtain ⟨before, last, rfl, hlast, -⟩ := hfirst.propagates hplain.propagates
    have hsilent := hfirst.allCalls hplain.silent
    by_cases hquiet : ∀ event ∈ before ++ [last], ¬ event.op.Mutates
    · exact executed_iff_of_quiet hquiet
    · push Not at hquiet
      obtain ⟨event, he, hm⟩ := hquiet
      obtain ⟨earlier, later, hsplit⟩ := List.append_of_mem he
      refine iff_of_false (fun hexec => ?_) fun hsteady => ?_
      · obtain ⟨other, hlogged, -⟩ := hexec earlier event later hsplit hm
        have hmem : (⟨.audit other, .ok ()⟩ : OpsEvent) ∈ before ++ [last] :=
          hsplit ▸ List.mem_append_right _ (List.mem_cons_of_mem _ hlogged)
        exact hsilent _ hmem other rfl
      · have hend : (earlier ++ event :: later).getLast? = some last :=
          hsplit ▸ List.getLast?_concat
        rw [List.getLast?_append_of_ne_nil _ (List.cons_ne_nil _ _)] at hend
        exact hsteady earlier event later hsplit hm last (List.mem_of_getLast? hend) hlast

/-- A run of an orchestrator given an audit log: a gate that stays shut always leaves its
entry, and every mutating command has one exactly when no call from the first of them on
raises. -/
theorem audited_iff_steady {fleet : Fleet} {confirm : Bool} (given : o.audit = true)
    {result : Except Exn o.Result} (h : Runs (o.program fleet confirm) trace result)
    (works : OpsLogWorks trace) : o.Audited fleet confirm trace ↔ OpsSteady trace := by
  rw [o.program_eq, given] at h
  have hshut : ∀ first rest p, Runs (o.prepare fleet) first (.ok (.inr p)) →
      trace = first ++ rest → ¬ p.request.Opens confirm → ∃ entry, OpsLogged rest entry ∧
        o.Names entry ∧ (confirm = false → entry.mode = .dryRun) ∧
          ((gate p.request confirm).allowed = false → entry.allowed = false) := by
    rintro first rest p hp rfl hshut
    have hgated : Runs (gated p.request confirm true p.closed p.execute) rest result :=
      hp.resume h
    rw [gated, if_neg hshut] at hgated
    have hentry := runs_recordOps_pure hgated fun event he => works event (by simp [he])
    have hnames : o.Accounts confirm p := accounts_of_runs given hp
    refine ⟨⟨p.request.operation, p.request.cluster, p.request.node,
      (gate p.request confirm).mode, (gate p.request confirm).allowed⟩,
      hentry ▸ List.mem_cons_self, hnames.1, ?_, id⟩
    rintro rfl
    rfl
  suffices hiff : o.Executed trace ↔ OpsSteady trace from
    ⟨fun haudited => hiff.mp haudited.executed, fun hsteady => ⟨hiff.mpr hsteady, hshut⟩⟩
  obtain ⟨r, hp, -⟩ | ⟨e, hp, -⟩ | ⟨first, rest, p, hp, rfl, hg⟩ := runs_staged h
  · exact executed_iff_of_quiet (quiet_prepare hp)
  · exact executed_iff_of_quiet (quiet_prepare hp)
  rw [executed_append_iff (quiet_prepare hp), opsSteady_append_iff (quiet_prepare hp)]
  obtain ⟨hopens, hexec⟩ | ⟨-, hnil, -⟩ := runs_gated hg
  · obtain ⟨entry, hnames, hmode, hends⟩ := (accounts_of_runs given hp).2 hopens
    exact executed_iff_of_endsWith hnames hmode hends hexec fun event he =>
      works event (by simp [he])
  · refine executed_iff_of_quiet fun event he hm => ?_
    obtain ⟨invocation, hop, -⟩ := OpsEffect.mutates_iff.mp hm
    have hmem : invocation ∈ invocations rest := mem_invocations_iff.mpr ⟨event, he, hop⟩
    simp [hnil] at hmem

end Trail

end Orchestration

end Solfleet
