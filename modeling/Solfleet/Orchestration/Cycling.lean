import Solfleet.Orchestration.Distribution

/-! # Cycling a service by role

A voting validator leaves through its leader-aware exit, any other node is stopped and
started. Between the two commands of a restart nothing can end the run once the runner
answers, so a stop is always followed by its start.
-/

namespace Solfleet

open Interaction Program

/-! ## The commands of a cycle -/

/-- The commands that take a service down or bring it up. -/
def Command.cycles : Command → Bool
  | .systemctl .. => true
  | .safeExit .. => true
  | _ => false

def Invocation.cycles : Invocation → Bool
  | .ssh _ command => command.cycles
  | _ => false

/-- What a run sends to cycle services, in order. -/
def cyclesSent (trace : List OpsEvent) : List Invocation :=
  (invocations trace).filter Invocation.cycles

/-- Nothing at all, or by role: one exit that waits for the cluster's leader window, or one
stop and then one start. -/
def RoleAware (rules : PolicyRules) (node : Node) (sent : List Invocation) : Prop :=
  sent = [] ∨ sent =
    match node.role with
    | .validator =>
        [.ssh (.node node)
          (safeExitCommand node rules.requireLeaderWindowMinutes maxDelinquentStake)]
    | .rpc =>
        [.ssh (.node node) (systemctl node "stop"), .ssh (.node node) (systemctl node "start")]

/-- The node is the one the name is found for, under the rules of its cluster. -/
def RoleAwareRun (fleet : Fleet) (policy : Policy) (nodeName : String)
    (trace : List OpsEvent) : Prop :=
  match fleet.findNode nodeName with
  | none => cyclesSent trace = []
  | some (clusterName, _, node) =>
      RoleAware (policy.forCluster clusterName) node (cyclesSent trace)

@[simp] theorem cyclesSent_nil : cyclesSent [] = [] := rfl

@[simp] theorem cyclesSent_append (xs ys : List OpsEvent) :
    cyclesSent (xs ++ ys) = cyclesSent xs ++ cyclesSent ys := by
  simp [cyclesSent]

theorem cyclesSent_eq_nil {α : Type} {p : OpsProgram α} {trace : List OpsEvent}
    {result : Except Exn α} (hp : p.AllCalls (OpsEffect.Sends fun i => i.cycles = false))
    (h : Runs p trace result) : cyclesSent trace = [] := by
  refine List.filter_eq_nil_iff.mpr fun i hi => ?_
  simp [invocations_of_allCalls hp h i hi]

/-! ## A runner that answers -/

/-- Every command is answered, with any exit code and any output. -/
def RunnerAnswers (trace : List OpsEvent) : Prop :=
  ∀ event ∈ trace, ∀ invocation, event.op = .runner invocation → ∀ e, event.answer ≠ .error e

theorem runnerAnswers_append_iff {xs ys : List OpsEvent} :
    RunnerAnswers (xs ++ ys) ↔ RunnerAnswers xs ∧ RunnerAnswers ys :=
  List.forall_mem_append

/-- Nothing but an unanswered command keeps the program from returning. -/
def Completes {α : Type} (p : OpsProgram α) : Prop :=
  ∀ trace e, Runs p trace (.error e) → ¬ RunnerAnswers trace

theorem Completes.pure {α : Type} (a : α) : Completes (pure a : OpsProgram α) := by
  intro trace e h
  cases (runs_pure_iff.mp h).2

theorem completes_runOn (target : SSHTarget) (command : Command) :
    Completes (runOn target command) := by
  intro trace e h ha
  obtain rfl := runs_runOn_iff.mp h
  exact ha _ List.mem_cons_self _ rfl e rfl

theorem Completes.bind {α β : Type} {p : OpsProgram α} {f : α → OpsProgram β}
    (hp : Completes p) (hf : ∀ a, Completes (f a)) : Completes (p >>= f) := by
  intro trace e h ha
  obtain ⟨first, rest, a, _, hrest, rfl⟩ | ⟨e', hfirst, _⟩ := runs_bind_iff.mp h
  · exact hf a rest e hrest (runnerAnswers_append_iff.mp ha).2
  · exact hp trace e' hfirst ha

/-- The next program runs once this one has returned. -/
theorem Completes.runs_bind {α β : Type} {p : OpsProgram α} {f : α → OpsProgram β}
    (hp : Completes p) {trace : List OpsEvent} {result : Except Exn β}
    (h : Runs (p >>= f) trace result) (ha : RunnerAnswers trace) :
    ∃ first rest a, Runs p first (.ok a) ∧ Runs (f a) rest result ∧ RunnerAnswers rest ∧
      trace = first ++ rest := by
  obtain ⟨first, rest, a, hfirst, hrest, rfl⟩ | ⟨e, hfirst, _⟩ := runs_bind_iff.mp h
  · exact ⟨first, rest, a, hfirst, hrest, (runnerAnswers_append_iff.mp ha).2, rfl⟩
  · exact (hp trace e hfirst ha).elim

theorem completes_unitAction (node : Node) (verb : String) : Completes (unitAction node verb) :=
  (completes_runOn _ _).bind fun _ => .pure _

/-! ## Programs that cycle by role -/

/-- Answered by the runner, the program cycles the node by its role. -/
def Cycled {α : Type} (rules : PolicyRules) (node : Node) (p : OpsProgram α) : Prop :=
  ∀ trace result, Runs p trace result → RunnerAnswers trace →
    RoleAware rules node (cyclesSent trace)

section Cycled

variable {α β : Type} {rules : PolicyRules} {node : Node} {p : OpsProgram α}
  {f : α → OpsProgram β}

theorem Cycled.of_quiet (hp : p.AllCalls (OpsEffect.Sends fun i => i.cycles = false)) :
    Cycled rules node p :=
  fun _ _ h _ => .inl (cyclesSent_eq_nil hp h)

/-- What comes first sends no command of a cycle. -/
theorem Cycled.after_quiet (hp : p.AllCalls (OpsEffect.Sends fun i => i.cycles = false))
    (hf : ∀ a, Cycled rules node (f a)) : Cycled rules node (p >>= f) := by
  intro trace result h ha
  obtain ⟨first, rest, a, hfirst, hrest, rfl⟩ | ⟨e, hfirst, _⟩ := runs_bind_iff.mp h
  · rw [cyclesSent_append, cyclesSent_eq_nil hp hfirst, List.nil_append]
    exact hf a rest result hrest (runnerAnswers_append_iff.mp ha).2
  · exact .inl (cyclesSent_eq_nil hp hfirst)

/-- What comes last sends no command of a cycle. -/
theorem Cycled.then_quiet (hp : Cycled rules node p)
    (hf : ∀ a, (f a).AllCalls (OpsEffect.Sends fun i => i.cycles = false)) :
    Cycled rules node (p >>= f) := by
  intro trace result h ha
  obtain ⟨first, rest, a, hfirst, hrest, rfl⟩ | ⟨e, hfirst, _⟩ := runs_bind_iff.mp h
  · rw [cyclesSent_append, cyclesSent_eq_nil (hf a) hrest, List.append_nil]
    exact hp first _ hfirst (runnerAnswers_append_iff.mp ha).1
  · exact hp trace _ hfirst ha

theorem cycled_validatorSafeExit (hrole : node.role = .validator) :
    Cycled rules node (validatorSafeExit node rules.requireLeaderWindowMinutes) := by
  intro trace result h _
  obtain ⟨answer, rfl, _⟩ := runs_command.mp h
  refine .inr ?_
  rw [hrole]
  rfl

/-- Whatever stands between a stop and its start, the start follows. -/
theorem cycled_stop_start (hrole : node.role = .rpc) {β γ : Type} {between : OpsProgram β}
    (hquiet : between.AllCalls (OpsEffect.Sends fun i => i.cycles = false))
    (hbetween : Completes between) (report : UnitAction → β → UnitAction → γ) :
    Cycled rules node (do
      let stop ← stopService node
      let b ← between
      let start ← startService node
      pure (report stop b start)) := by
  intro trace result h ha
  obtain ⟨stopped, afterStop, stop, hstop, hafter, ha₁, rfl⟩ :=
    (completes_unitAction node "stop").runs_bind h ha
  obtain ⟨mid, last, b, hmid, hlast, ha₂, rfl⟩ := hbetween.runs_bind hafter ha₁
  obtain ⟨started, rest, start, hstart, hend, _, rfl⟩ :=
    (completes_unitAction node "start").runs_bind hlast ha₂
  obtain ⟨_, rfl, _⟩ := runs_command.mp hstop
  obtain ⟨_, rfl, _⟩ := runs_command.mp hstart
  obtain ⟨rfl, _⟩ := runs_pure_iff.mp hend
  refine .inr ?_
  simp only [cyclesSent_append, cyclesSent_eq_nil hquiet hmid, hrole, List.nil_append,
    List.append_nil]
  rfl

/-! ## The two operations -/

theorem quiet_inspectInvocations (node : Node) :
    ∀ i ∈ inspectInvocations node, i.cycles = false :=
  forall_inspectInvocations (fun _ => rfl) (fun _ => rfl) (fun _ => rfl) fun _ => rfl

theorem quiet_inspectNode (node : Node) :
    (inspectNode node).AllCalls (OpsEffect.Sends fun i => i.cycles = false) :=
  allCalls_inspectNode (quiet_inspectInvocations node)

theorem cycled_cycleService : Cycled rules node (cycleService node rules) := by
  unfold cycleService
  cases hrole : node.role with
  | validator =>
      rw [if_pos rfl, map_eq_bind]
      exact (cycled_validatorSafeExit hrole).then_quiet fun _ => trivial
  | rpc =>
      rw [if_neg (by decide)]
      have hidle : (pure () : OpsProgram Unit).AllCalls
          (OpsEffect.Sends fun i => i.cycles = false) := trivial
      exact cycled_stop_start hrole hidle (.pure ()) fun stop _ start => Cycle.restart stop start

theorem cycled_executeRestart (clusterName : String) (cluster : Cluster) (nodeName : String)
    (maxLag : Int) (audit : Bool) (leader : Option LeaderWindows) (decision : GateDecision) :
    Cycled rules node
      (executeRestart clusterName cluster node nodeName rules maxLag audit leader decision) := by
  refine Cycled.after_quiet (allCalls_perform.mpr fun _ he => nomatch he) fun sample => ?_
  refine cycled_cycleService.then_quiet fun cycle => ?_
  refine (allCalls_waitForCatchup ..).bind fun catchup => ?_
  refine (quiet_inspectNode node).bind fun after => ?_
  exact allCalls_recordOps_pure ..

theorem completes_atomicSwap (node : Node) (swaps : List Swap) :
    Completes (atomicSwap node swaps) :=
  (completes_runOn _ _).bind fun _ => .pure _

theorem completes_updateMarker (node : Node) (version : String) :
    Completes (updateMarker node version) := by
  unfold updateMarker
  split
  · exact .pure _
  · split
    · exact .pure _
    · exact (completes_runOn _ _).bind fun _ => .pure _

theorem quiet_updateMarker (node : Node) (version : String) :
    (updateMarker node version).AllCalls (OpsEffect.Sends fun i => i.cycles = false) := by
  unfold updateMarker
  split
  · trivial
  · split
    · trivial
    · exact AllCalls.bind (allCalls_runOn rfl) fun _ => trivial

theorem quiet_atomicSwap (node : Node) (swaps : List Swap) :
    (atomicSwap node swaps).AllCalls (OpsEffect.Sends fun i => i.cycles = false) :=
  AllCalls.bind (allCalls_runOn rfl) fun _ => trivial

theorem cycled_swapAndCycle (version : String) (swaps : List Swap) :
    Cycled rules node (swapAndCycle node rules version swaps) := by
  unfold swapAndCycle
  cases hrole : node.role with
  | validator =>
      rw [if_pos rfl]
      refine Cycled.after_quiet (quiet_atomicSwap node swaps) fun swap => ?_
      refine Cycled.after_quiet (quiet_updateMarker node version) fun marker => ?_
      exact (cycled_validatorSafeExit hrole).then_quiet fun _ => trivial
  | rpc =>
      rw [if_neg (by decide)]
      -- the new files and the marker go in between the stop and the start
      have hquiet : (atomicSwap node swaps >>= fun swap =>
          updateMarker node version >>= fun marker => pure (swap, marker)).AllCalls
            (OpsEffect.Sends fun i => i.cycles = false) :=
        (quiet_atomicSwap node swaps).bind fun _ =>
          (quiet_updateMarker node version).bind fun _ => trivial
      have hplaced : Completes (atomicSwap node swaps >>= fun swap =>
          updateMarker node version >>= fun marker => pure (swap, marker)) :=
        (completes_atomicSwap node swaps).bind fun _ =>
          (completes_updateMarker node version).bind fun _ => .pure _
      have h : Cycled rules node _ := cycled_stop_start hrole hquiet hplaced
        fun stop placed start => (placed.1, placed.2, Cycle.restart stop start)
      simpa only [bind_assoc, pure_bind] using h

theorem cycled_upgradeWith (fleet : Fleet) (cluster : Cluster) (version : String) (maxLag : Int)
    (forceBuild : Bool) (d : GateDecision) :
    Cycled rules node (upgradeWith fleet cluster node rules version maxLag forceBuild d) := by
  unfold upgradeWith
  split
  · exact Cycled.of_quiet trivial
  · exact Cycled.of_quiet trivial
  refine Cycled.after_quiet (allCalls_buildArtifacts (P := fun i => i.cycles = false) rfl
    (fun _ _ => rfl) (fun _ _ => rfl) _) fun build => ?_
  split
  case isFalse => exact Cycled.of_quiet trivial
  refine Cycled.after_quiet (allCalls_distribute (P := fun i => i.cycles = false)
    (fun _ _ => rfl) (fun _ _ => rfl) (fun _ => rfl) _) fun dist => ?_
  split
  case isFalse => exact Cycled.of_quiet trivial
  rw [map_eq_bind]
  refine Cycled.then_quiet ?_ fun _ => trivial
  refine (cycled_swapAndCycle version dist.swaps).then_quiet fun cycled => ?_
  refine (allCalls_waitForCatchup ..).bind fun catchup => ?_
  exact (quiet_inspectNode node).bind fun _ => trivial

end Cycled

/-- Of a run of the common shape, only the stages behind the gate cycle the node. -/
theorem cycled_staged {α : Type} {rules : PolicyRules} {node : Node}
    {prepare : OpsProgram (α ⊕ Prepared α)} {confirm audit : Bool}
    (hprepare : prepare.AllCalls (OpsEffect.Sends fun i => i.cycles = false))
    (hexecute : ∀ trace p, Runs prepare trace (.ok (.inr p)) →
      ∀ d, Cycled rules node (p.execute d)) :
    Cycled rules node (staged prepare confirm audit) := by
  intro trace result h ha
  obtain ⟨r, hp, _⟩ | ⟨e, hp, _⟩ | ⟨first, rest, p, hp, rfl, hg⟩ := runs_staged h
  · exact .inl (cyclesSent_eq_nil hprepare hp)
  · exact .inl (cyclesSent_eq_nil hprepare hp)
  rw [cyclesSent_append, cyclesSent_eq_nil hprepare hp, List.nil_append]
  obtain ⟨_, hexec⟩ | ⟨_, hnil, _⟩ := runs_gated hg
  · exact hexecute first p hp _ rest result hexec (runnerAnswers_append_iff.mp ha).2
  · exact .inl (by simp [cyclesSent, hnil])

theorem cycled_restartNode {fleet : Fleet} {nodeName clusterName : String} {cluster : Cluster}
    {node : Node} (hf : fleet.findNode nodeName = some (clusterName, cluster, node))
    (confirm : Bool) (policy : Policy) (audit : Bool) (maxLag : Int) :
    Cycled (policy.forCluster clusterName) node
      (restartNode fleet nodeName confirm policy audit maxLag) := by
  rw [restartNode_eq]
  refine cycled_staged (allCalls_restartPrepare fun _ _ node _ => quiet_inspectInvocations node) ?_
  intro _ p hp d
  obtain ⟨_, _, _, _, _, _, hf', _, hexecute⟩ := restartPrepare_inr hp
  obtain ⟨rfl, rfl, rfl⟩ : clusterName = _ ∧ cluster = _ ∧ node = _ := by
    simpa using hf.symm.trans hf'
  rw [hexecute]
  exact cycled_executeRestart _ _ _ _ _ _ _

theorem cycled_executeUpgrade {fleet : Fleet} {nodeName clusterName : String} {cluster : Cluster}
    {node : Node} (hf : fleet.findNode nodeName = some (clusterName, cluster, node))
    (version : String) (confirm : Bool) (policy : Policy) (audit : Bool) (maxLag : Int)
    (forceBuild : Bool) :
    Cycled (policy.forCluster clusterName) node
      (executeUpgrade fleet nodeName version confirm policy audit maxLag forceBuild) := by
  rw [executeUpgrade_eq]
  refine cycled_staged (allCalls_upgradePrepare fun _ _ node _ => quiet_inspectInvocations node) ?_
  intro _ p hp d
  obtain ⟨_, _, _, _, _, hf', _, hexecute⟩ := upgradePrepare_inr hp
  obtain ⟨rfl, rfl, rfl⟩ : clusterName = _ ∧ cluster = _ ∧ node = _ := by
    simpa using hf.symm.trans hf'
  rw [hexecute]
  exact (cycled_upgradeWith _ _ _ _ _ _).then_quiet fun _ => allCalls_recordOps_pure ..

/-- Every run of a restart and of an upgrade in which the runner answers every command, with
whatever exit code and output, cycles the node by its role. -/
theorem cycling_roleAware (a : AcceptedFleet) (nodeName : String) (confirm : Bool)
    (policy : Policy) (audit : Bool) (maxLag : Int) :
    (∀ trace result,
      Runs (restartNode a.fleet nodeName confirm policy audit maxLag) trace result →
        RunnerAnswers trace → RoleAwareRun a.fleet policy nodeName trace) ∧
    ∀ version forceBuild trace result,
      Runs (executeUpgrade a.fleet nodeName version confirm policy audit maxLag forceBuild) trace
          result →
        RunnerAnswers trace → RoleAwareRun a.fleet policy nodeName trace := by
  unfold RoleAwareRun
  cases hf : a.fleet.findNode nodeName with
  | none =>
      refine ⟨fun trace result h _ => ?_, fun version forceBuild trace result h _ => ?_⟩
      · simp only [restartNode, hf] at h
        rw [(runs_pure_iff.mp h).1, cyclesSent_nil]
      · simp only [executeUpgrade, hf] at h
        rw [(runs_pure_iff.mp h).1, cyclesSent_nil]
  | some found =>
      obtain ⟨clusterName, cluster, node⟩ := found
      exact ⟨cycled_restartNode hf confirm policy audit maxLag,
        fun version forceBuild => cycled_executeUpgrade hf version confirm policy audit maxLag
          forceBuild⟩

/-- The service is active and every checksum is `abc`; the stop and the swap fail. -/
def stuckAnswer : Invocation → CommandResult
  | .ssh _ (.systemctlShow _) => ⟨0, "ActiveState=active", ""⟩
  | .ssh _ (.systemctl _ verb _) => ⟨if verb = "stop" then 1 else 0, "", ""⟩
  | .ssh _ (.swap _) => ⟨1, "", "mv: cannot stat"⟩
  | _ => ⟨0, "abc", ""⟩

def stuckHost : Handler opsSignature Exn Unit
  | .runner invocation, s => (.ok (stuckAnswer invocation), s)
  | .mkdtemp _, s => (.ok "/tmp/solfleet-0", s)
  | .sample .., s => (.ok { healthy := some true, lag := some 0 }, s)
  | .leader .., s => (.ok none, s)
  | .sleep _, s => (.ok (), s)
  | .audit _, s => (.ok (), s)

theorem runnerAnswers_stuckHost {α : Type} (p : OpsProgram α) :
    RunnerAnswers (exec stuckHost p ()).trace := by
  rintro ⟨op, answer⟩ he invocation rfl e herror
  obtain ⟨s, hanswer⟩ := answer_of_mem_exec he
  cases hanswer.symm.trans herror

/-- With a stop and a swap that fail, the start is sent all the same. -/
theorem cycling_roleAware_stuck :
    RoleAwareRun builtFleet.fleet {} "rpc-1"
        (exec stuckHost (restartNode builtFleet.fleet "rpc-1" true {} true 2) ()).trace ∧
      RoleAwareRun builtFleet.fleet {} "rpc-1"
        (exec stuckHost (executeUpgrade builtFleet.fleet "rpc-1" "v3.0.1" true {} true 2 false)
          ()).trace :=
  have h := cycling_roleAware builtFleet "rpc-1" true {} true 2
  ⟨h.1 _ _ (exec_runs _ _ _) (runnerAnswers_stuckHost _),
    h.2 _ _ _ _ (exec_runs _ _ _) (runnerAnswers_stuckHost _)⟩

example :
    cyclesSent (exec stuckHost (executeUpgrade builtFleet.fleet "rpc-1" "v3.0.1" true {} true 2
      false) ()).trace =
      [.ssh (.node builtNode) (systemctl builtNode "stop"),
        .ssh (.node builtNode) (systemctl builtNode "start")] := by
  decide +kernel

end Solfleet
