import Solfleet.Orchestration.Auditing
import Solfleet.Orchestration.Cycling

/-! # What a finished run was told

The answers behind a result: an inspection is read from three commands, a cycle from one
exit or from a stop and a start, and the wait ends with its last sample. In a run that
finished, the last answer to each of these calls is the one its result was read from.
-/

namespace Solfleet

open Interaction Program

/-! ## Calls on a node -/

/-- A command on a node. -/
abbrev onNode (node : Node) (command : Command) : OpsEffect := .runner (.ssh (.node node) command)

abbrev showState (node : Node) : OpsEffect := onNode node (.systemctlShow node.service.unit)

abbrev showVersion (node : Node) : OpsEffect := onNode node (.binaryVersion node.service.binary)

abbrev showDisks (node : Node) : OpsEffect :=
  onNode node (.df [node.service.ledger, node.service.accounts])

/-- The command ended with exit code 0 when it was last sent. -/
def Exits (trace : List OpsEvent) (node : Node) (command : Command) : Prop :=
  ∃ r : CommandResult, LastAnswer trace (onNode node command) r ∧ r.exitCode = 0

theorem exits_iff {trace : List OpsEvent} {node : Node} {command : Command} {r : CommandResult}
    (h : LastAnswer trace (onNode node command) r) : Exits trace node command ↔ r.ok = true := by
  rw [CommandResult.ok, decide_eq_true_eq]
  constructor
  · rintro ⟨r', hr', hexit⟩
    have heq : r' = r := hr'.unique h
    rwa [heq] at hexit
  · intro hexit
    exact ⟨r, h, hexit⟩

/-- The command was answered, and was not sent again. -/
def Sent (trace : List OpsEvent) (node : Node) (command : Command) : Prop :=
  ∃ r : CommandResult, LastAnswer trace (onNode node command) r

section Append

variable {xs ys : List OpsEvent} {node : Node} {command : Command}

theorem Sent.prepend (h : Sent ys node command) : Sent (xs ++ ys) node command := by
  obtain ⟨r, hr⟩ := h
  exact ⟨r, hr.prepend⟩

theorem Sent.append (h : Sent xs node command)
    (hys : ∀ event ∈ ys, event.op ≠ onNode node command) : Sent (xs ++ ys) node command := by
  obtain ⟨r, hr⟩ := h
  exact ⟨r, hr.append hys⟩

theorem Sent.exits_prepend_iff (h : Sent ys node command) :
    Exits (xs ++ ys) node command ↔ Exits ys node command := by
  obtain ⟨r, hr⟩ := h
  rw [exits_iff hr, exits_iff hr.prepend]

theorem Sent.exits_append_iff (h : Sent xs node command)
    (hys : ∀ event ∈ ys, event.op ≠ onNode node command) :
    Exits (xs ++ ys) node command ↔ Exits xs node command := by
  obtain ⟨r, hr⟩ := h
  rw [exits_iff hr, exits_iff (hr.append hys)]

theorem ne_onNode_of_looks (h : ∀ event ∈ ys, ¬ event.op.Mutates) (hcommand : command.Mutates) :
    ∀ event ∈ ys, event.op ≠ onNode node command := by
  intro event he hop
  have hlooks := h event he
  rw [hop] at hlooks
  exact hlooks hcommand

end Append

/-! ## Inspections -/

/-- The answers an inspection is read from, each the last one to its command. -/
structure InspectionRead (node : Node) (trace : List OpsEvent) (inspection : Inspection) where
  shown : CommandResult
  version : CommandResult
  disks : CommandResult
  shown_last : LastAnswer trace (showState node) shown
  version_last : LastAnswer trace (showVersion node) version
  disks_last : LastAnswer trace (showDisks node) disks
  service : inspection.service = readServiceState node shown
  binary : inspection.version.binaryVersion = readBinaryVersion version
  disk : inspection.disk = readDiskUsage [node.service.ledger, node.service.accounts] disks

theorem not_sent_of_allCalls {α : Type} {node : Node} {p : OpsProgram α} {trace : List OpsEvent}
    {result : Except Exn α} {K : Command → Prop}
    (hp : p.AllCalls (OpsEffect.Sends fun i => ∃ command, K command ∧
      i = .ssh (.node node) command)) (h : Runs p trace result) {command : Command}
    (hne : ¬ K command) : ∀ event ∈ trace, event.op ≠ onNode node command := by
  intro event he hop
  obtain ⟨sent, hkind, hsent⟩ := h.allCalls hp event he _ hop
  obtain ⟨-, rfl⟩ := Invocation.ssh.inj hsent
  exact hne hkind

theorem not_sent_of_markerVersion {node : Node} {trace : List OpsEvent}
    {result : Except Exn (Option String)} (h : Runs (markerVersion node) trace result)
    {command : Command} (hne : ∀ path, command ≠ .cat path) :
    ∀ event ∈ trace, event.op ≠ onNode node command := by
  refine not_sent_of_allCalls (K := fun c => ∃ path, c = .cat path) ?_ h
    fun ⟨path, hpath⟩ => hne path hpath
  unfold markerVersion
  split
  · trivial
  · split
    · trivial
    · exact AllCalls.map _ (allCalls_runOn ⟨_, ⟨_, rfl⟩, rfl⟩)

theorem runs_inspectNode_ok {node : Node} {trace : List OpsEvent} {inspection : Inspection}
    (h : Runs (inspectNode node) trace (.ok inspection)) :
    Nonempty (InspectionRead node trace inspection) := by
  obtain ⟨t₁, rest₁, service, hservice, hrest₁, rfl⟩ := runs_bind_ok_iff.mp h
  obtain ⟨t₂, rest₂, version, hversion, hrest₂, rfl⟩ := runs_bind_ok_iff.mp hrest₁
  obtain ⟨t₃, rest₃, disk, hdisk, hrest₃, rfl⟩ := runs_bind_ok_iff.mp hrest₂
  obtain ⟨rfl, hinspection⟩ := runs_pure_iff.mp hrest₃
  cases hinspection
  obtain ⟨shown, hshown, rfl⟩ := runs_map_ok_iff.mp hservice
  obtain ⟨t₄, rest₄, v, hv, hrest₄, rfl⟩ := runs_bind_ok_iff.mp hversion
  obtain ⟨t₅, rest₅, marker, hmarker, hrest₅, rfl⟩ := runs_bind_ok_iff.mp hrest₄
  obtain ⟨rfl, hinfo⟩ := runs_pure_iff.mp hrest₅
  cases hinfo
  obtain ⟨disks, hdisks, rfl⟩ := runs_map_ok_iff.mp hdisk
  rw [runs_runOn_iff] at hshown hv hdisks
  subst hshown hv hdisks
  refine ⟨⟨shown, v, disks, ?_, ?_, ?_, rfl, rfl, rfl⟩⟩
  · refine lastAnswer_singleton.append ?_
    intro event he
    rw [List.append_nil, List.append_nil] at he
    rcases List.mem_append.mp he with he | he
    · rcases List.mem_append.mp he with he | he
      · rw [List.mem_singleton.mp he]
        exact nofun
      · exact not_sent_of_markerVersion hmarker (fun _ h => by cases h) event he
    · rw [List.mem_singleton.mp he]
      exact nofun
  · refine LastAnswer.prepend ?_
    rw [List.append_nil, List.append_nil, List.append_assoc]
    refine lastAnswer_singleton.append ?_
    intro event he
    rcases List.mem_append.mp he with he | he
    · exact not_sent_of_markerVersion hmarker (fun _ h => by cases h) event he
    · rw [List.mem_singleton.mp he]
      exact nofun
  · refine LastAnswer.prepend (LastAnswer.prepend ?_)
    rw [List.append_nil]
    exact lastAnswer_singleton

/-! ## The wait -/

/-- The wait ends with the sample that decides it. -/
theorem runs_catchupLoop_ok {node : Node} {referenceRpc : String} {maxLag : Int} {rounds : Nat}
    {waited : Int} {last : Option Sample} {trace : List OpsEvent} {catchup : Catchup}
    (h : Runs (catchupLoop node referenceRpc maxLag (rounds + 1) waited last) trace
      (.ok catchup)) :
    ∃ sample, LastAnswer trace (.sample node referenceRpc) sample ∧
      catchup.caughtUp = hasCaughtUp maxLag sample := by
  induction rounds generalizing waited last trace with
  | zero =>
      obtain ⟨t, rest, sample, hsample, hrest, rfl⟩ := runs_bind_ok_iff.mp h
      rw [runs_perform_iff.mp hsample]
      refine ⟨sample, ?_⟩
      split at hrest
      · next hcaught =>
          obtain ⟨rfl, hcatchup⟩ := runs_pure_iff.mp hrest
          cases hcatchup
          exact ⟨lastAnswer_singleton, hcaught.symm⟩
      · next hbehind =>
          obtain ⟨t', rest', _, hsleep, hend, rfl⟩ := runs_bind_ok_iff.mp hrest
          obtain ⟨rfl, hcatchup⟩ := runs_pure_iff.mp hend
          cases hcatchup
          rw [runs_perform_iff.mp hsleep]
          refine ⟨lastAnswer_singleton.append ?_, (Bool.eq_false_iff.mpr hbehind).symm⟩
          intro event he
          rw [List.append_nil, List.mem_singleton] at he
          rw [he]
          exact nofun
  | succ rounds ih =>
      obtain ⟨t, rest, sample, hsample, hrest, rfl⟩ := runs_bind_ok_iff.mp h
      rw [runs_perform_iff.mp hsample]
      split at hrest
      · next hcaught =>
          obtain ⟨rfl, hcatchup⟩ := runs_pure_iff.mp hrest
          cases hcatchup
          exact ⟨sample, lastAnswer_singleton, hcaught.symm⟩
      · obtain ⟨t', rest', _, _, hloop, rfl⟩ := runs_bind_ok_iff.mp hrest
        obtain ⟨later, hlater, hcaught⟩ := ih hloop
        exact ⟨later, hlater.prepend.prepend, hcaught⟩

theorem runs_waitForCatchup_ok {node : Node} {referenceRpc : String} {maxLag : Int}
    {trace : List OpsEvent} {catchup : Catchup}
    (h : Runs (waitForCatchup node referenceRpc maxLag defaultCatchupTimeout) trace
      (.ok catchup)) :
    ∃ sample, LastAnswer trace (.sample node referenceRpc) sample ∧
      catchup.caughtUp = hasCaughtUp maxLag sample :=
  runs_catchupLoop_ok h

/-! ## Cycles -/

/-- The commands that cycle a node of either role. -/
def cycleCommands (rules : PolicyRules) (node : Node) : List Command :=
  match node.role with
  | .validator => [safeExitCommand node rules.requireLeaderWindowMinutes maxDelinquentStake]
  | .rpc => [systemctl node "stop", systemctl node "start"]

/-- Every command of the cycle ended with exit code 0. -/
def CycleExits (rules : PolicyRules) (node : Node) (trace : List OpsEvent) : Prop :=
  ∀ command ∈ cycleCommands rules node, Exits trace node command

theorem runs_unitAction_ok {node : Node} {verb : String} {trace : List OpsEvent}
    {action : UnitAction} (h : Runs (unitAction node verb) trace (.ok action)) :
    ∃ r : CommandResult, trace = [⟨onNode node (systemctl node verb), .ok r⟩] ∧
      action.ok = r.ok := by
  obtain ⟨answer, rfl, hanswer⟩ := runs_command.mp h
  cases answer with
  | error e => cases hanswer
  | ok r =>
      cases hanswer
      exact ⟨r, rfl, rfl⟩

theorem runs_validatorSafeExit_ok {node : Node} {minIdleMinutes : Int} {trace : List OpsEvent}
    {exited : SafeExit} (h : Runs (validatorSafeExit node minIdleMinutes) trace (.ok exited)) :
    ∃ r : CommandResult,
      trace = [⟨onNode node (safeExitCommand node minIdleMinutes maxDelinquentStake), .ok r⟩] ∧
        exited.ok = r.ok := by
  obtain ⟨answer, rfl, hanswer⟩ := runs_command.mp h
  cases answer with
  | error e => cases hanswer
  | ok r =>
      cases hanswer
      exact ⟨r, rfl, rfl⟩

theorem stop_ne_start (node : Node) :
    onNode node (systemctl node "start") ≠ onNode node (systemctl node "stop") := by
  intro h
  injection h with h
  injection h with _ h
  injection h with _ h
  exact absurd h (by decide)

theorem mutates_of_cycleCommands {rules : PolicyRules} {node : Node} {command : Command}
    (h : command ∈ cycleCommands rules node) : command.Mutates := by
  unfold cycleCommands at h
  split at h
  · rw [List.mem_singleton.mp h]
    trivial
  · rcases List.mem_cons.mp h with rfl | h
    · trivial
    · rw [List.mem_singleton.mp h]
      trivial

/-- The cycle was sent once, and reports how it ended. -/
structure CycleRead (rules : PolicyRules) (node : Node) (trace : List OpsEvent) (cycle : Cycle) :
    Prop where
  sent : ∀ command ∈ cycleCommands rules node, Sent trace node command
  ok : cycle.ok = true ↔ CycleExits rules node trace

section CycleRead

variable {rules : PolicyRules} {node : Node} {cycle : Cycle} {xs ys : List OpsEvent}

theorem CycleRead.prepend (h : CycleRead rules node ys cycle) :
    CycleRead rules node (xs ++ ys) cycle where
  sent command hc := (h.sent command hc).prepend
  ok := h.ok.trans (forall₂_congr fun command hc => (h.sent command hc).exits_prepend_iff.symm)

/-- Looking at the node afterwards changes nothing of it. -/
theorem CycleRead.append (h : CycleRead rules node xs cycle)
    (hys : ∀ event ∈ ys, ¬ event.op.Mutates) : CycleRead rules node (xs ++ ys) cycle where
  sent command hc :=
    (h.sent command hc).append (ne_onNode_of_looks hys (mutates_of_cycleCommands hc))
  ok := h.ok.trans (forall₂_congr fun command hc =>
    ((h.sent command hc).exits_append_iff
      (ne_onNode_of_looks hys (mutates_of_cycleCommands hc))).symm)

theorem cycleRead_exit {exited : SafeExit} {r : CommandResult} (hrole : node.role = .validator)
    (hok : exited.ok = r.ok) :
    CycleRead rules node
      [⟨onNode node (safeExitCommand node rules.requireLeaderWindowMinutes maxDelinquentStake),
        .ok r⟩] (.safeExit exited) := by
  have hcommands : cycleCommands rules node =
      [safeExitCommand node rules.requireLeaderWindowMinutes maxDelinquentStake] := by
    rw [cycleCommands, hrole]
  constructor
  · rw [hcommands, List.forall_mem_singleton]
    exact ⟨r, lastAnswer_singleton⟩
  · rw [CycleExits, hcommands, List.forall_mem_singleton, exits_iff lastAnswer_singleton, ← hok]
    rfl

/-- Whatever is done between the stop and the start, as long as it is neither. -/
theorem cycleRead_stop_start {between : List OpsEvent} {stop start : UnitAction}
    {r t : CommandResult} (hrole : node.role = .rpc) (hstop : stop.ok = r.ok)
    (hstart : start.ok = t.ok)
    (hbetween : ∀ event ∈ between, event.op ≠ onNode node (systemctl node "stop")) :
    CycleRead rules node
      ([⟨onNode node (systemctl node "stop"), .ok r⟩] ++
        (between ++ [⟨onNode node (systemctl node "start"), .ok t⟩])) (.restart stop start) := by
  have hcommands : cycleCommands rules node = [systemctl node "stop", systemctl node "start"] := by
    rw [cycleCommands, hrole]
  have hafter : ∀ event ∈ between ++ [⟨onNode node (systemctl node "start"), .ok t⟩],
      event.op ≠ onNode node (systemctl node "stop") := by
    refine List.forall_mem_append.mpr ⟨hbetween, ?_⟩
    exact List.forall_mem_singleton.mpr (stop_ne_start node)
  have hstopped : LastAnswer ([(⟨onNode node (systemctl node "stop"), .ok r⟩ : OpsEvent)] ++
      (between ++ [⟨onNode node (systemctl node "start"), .ok t⟩]))
      (onNode node (systemctl node "stop")) r := lastAnswer_singleton.append hafter
  have hstarted : LastAnswer ([(⟨onNode node (systemctl node "stop"), .ok r⟩ : OpsEvent)] ++
      (between ++ [⟨onNode node (systemctl node "start"), .ok t⟩]))
      (onNode node (systemctl node "start")) t := lastAnswer_singleton.prepend.prepend
  constructor
  · rw [hcommands, List.forall_mem_cons, List.forall_mem_singleton]
    exact ⟨⟨r, hstopped⟩, ⟨t, hstarted⟩⟩
  · rw [CycleExits, hcommands, List.forall_mem_cons, List.forall_mem_singleton, exits_iff hstopped,
      exits_iff hstarted, ← hstop, ← hstart]
    exact Bool.and_eq_true_iff

theorem runs_cycleService_ok (h : Runs (cycleService node rules) xs (.ok cycle)) :
    CycleRead rules node xs cycle := by
  unfold cycleService at h
  cases hrole : node.role with
  | validator =>
      rw [if_pos hrole] at h
      obtain ⟨exited, hexit, rfl⟩ := runs_map_ok_iff.mp h
      obtain ⟨r, rfl, hok⟩ := runs_validatorSafeExit_ok hexit
      exact cycleRead_exit hrole hok
  | rpc =>
      rw [if_neg (by rw [hrole]; decide)] at h
      obtain ⟨t₁, rest₁, stop, hstop, hrest₁, rfl⟩ := runs_bind_ok_iff.mp h
      obtain ⟨t₂, rest₂, start, hstart, hrest₂, rfl⟩ := runs_bind_ok_iff.mp hrest₁
      obtain ⟨rfl, hcycle⟩ := runs_pure_iff.mp hrest₂
      cases hcycle
      obtain ⟨r, rfl, hr⟩ := runs_unitAction_ok hstop
      obtain ⟨t, rfl, ht⟩ := runs_unitAction_ok hstart
      have hread : CycleRead rules node
          ([⟨onNode node (systemctl node "stop"), .ok r⟩] ++
            ([] ++ [⟨onNode node (systemctl node "start"), .ok t⟩])) (.restart stop start) :=
        cycleRead_stop_start hrole hr ht fun _ he => nomatch he
      exact hread

theorem not_sent_of_updateMarker {version : String} {result : Except Exn MarkerResult}
    (h : Runs (updateMarker node version) xs result) {command : Command}
    (hne : ∀ v path, command ≠ .writeMarker v path) :
    ∀ event ∈ xs, event.op ≠ onNode node command := by
  refine not_sent_of_allCalls (K := fun c => ∃ v path, c = .writeMarker v path) ?_ h
    fun ⟨v, path, hpath⟩ => hne v path hpath
  unfold updateMarker
  split
  · trivial
  · split
    · trivial
    · exact (allCalls_runOn ⟨_, ⟨_, _, rfl⟩, rfl⟩).bind fun _ => trivial

theorem runs_atomicSwap_ok {swaps : List Swap} {swap : SwapResult}
    (h : Runs (atomicSwap node swaps) xs (.ok swap)) :
    ∃ r : CommandResult, xs = [⟨onNode node (.swap swaps), .ok r⟩] ∧ swap.ok = r.ok := by
  obtain ⟨answer, rfl, hanswer⟩ := runs_command.mp h
  cases answer with
  | error e => cases hanswer
  | ok r =>
      cases hanswer
      exact ⟨r, rfl, rfl⟩

/-- New files and their marker go in before the exit, or between the stop and the start. -/
theorem runs_swapAndCycle_ok {version : String} {swaps : List Swap} {swap : SwapResult}
    {marker : MarkerResult}
    (h : Runs (swapAndCycle node rules version swaps) xs (.ok (swap, marker, cycle))) :
    CycleRead rules node xs cycle ∧ Sent xs node (.swap swaps) ∧
      (swap.ok = true ↔ Exits xs node (.swap swaps)) := by
  unfold swapAndCycle at h
  cases hrole : node.role with
  | validator =>
      rw [if_pos hrole] at h
      obtain ⟨t₁, rest₁, swap', hswap, hrest₁, rfl⟩ := runs_bind_ok_iff.mp h
      obtain ⟨t₂, rest₂, marker', hmarker, hrest₂, rfl⟩ := runs_bind_ok_iff.mp hrest₁
      obtain ⟨t₃, rest₃, exited, hexit, hrest₃, rfl⟩ := runs_bind_ok_iff.mp hrest₂
      obtain ⟨rfl, hresult⟩ := runs_pure_iff.mp hrest₃
      cases hresult
      obtain ⟨r, rfl, hr⟩ := runs_atomicSwap_ok hswap
      obtain ⟨t, rfl, ht⟩ := runs_validatorSafeExit_ok hexit
      have hlast : LastAnswer ([(⟨onNode node (.swap swaps), .ok r⟩ : OpsEvent)] ++
          (t₂ ++ ([⟨onNode node (safeExitCommand node rules.requireLeaderWindowMinutes
            maxDelinquentStake), .ok t⟩] ++ []))) (onNode node (.swap swaps)) r := by
        refine lastAnswer_singleton.append (List.forall_mem_append.mpr ⟨?_, ?_⟩)
        · exact not_sent_of_updateMarker hmarker nofun
        · exact List.forall_mem_singleton.mpr nofun
      refine ⟨?_, ⟨r, hlast⟩, by rw [exits_iff hlast, hr]⟩
      rw [List.append_nil]
      exact (cycleRead_exit hrole ht).prepend.prepend
  | rpc =>
      rw [if_neg (by rw [hrole]; decide)] at h
      obtain ⟨t₁, rest₁, stop, hstop, hrest₁, rfl⟩ := runs_bind_ok_iff.mp h
      obtain ⟨t₂, rest₂, swap', hswap, hrest₂, rfl⟩ := runs_bind_ok_iff.mp hrest₁
      obtain ⟨t₃, rest₃, marker', hmarker, hrest₃, rfl⟩ := runs_bind_ok_iff.mp hrest₂
      obtain ⟨t₄, rest₄, start, hstart, hrest₄, rfl⟩ := runs_bind_ok_iff.mp hrest₃
      obtain ⟨rfl, hresult⟩ := runs_pure_iff.mp hrest₄
      cases hresult
      obtain ⟨q, rfl, hq⟩ := runs_unitAction_ok hstop
      obtain ⟨r, rfl, hr⟩ := runs_atomicSwap_ok hswap
      obtain ⟨t, rfl, ht⟩ := runs_unitAction_ok hstart
      have hlast : LastAnswer ([(⟨onNode node (systemctl node "stop"), .ok q⟩ : OpsEvent)] ++
          ([⟨onNode node (.swap swaps), .ok r⟩] ++ (t₃ ++
            ([⟨onNode node (systemctl node "start"), .ok t⟩] ++ []))))
          (onNode node (.swap swaps)) r := by
        refine LastAnswer.prepend ?_
        refine lastAnswer_singleton.append (List.forall_mem_append.mpr ⟨?_, ?_⟩)
        · exact not_sent_of_updateMarker hmarker nofun
        · exact List.forall_mem_singleton.mpr nofun
      have hbetween : ∀ event ∈ [(⟨onNode node (.swap swaps), .ok r⟩ : OpsEvent)] ++ t₃,
          event.op ≠ onNode node (systemctl node "stop") := by
        refine List.forall_mem_append.mpr ⟨List.forall_mem_singleton.mpr nofun, ?_⟩
        exact not_sent_of_updateMarker hmarker nofun
      refine ⟨?_, ⟨r, hlast⟩, by rw [exits_iff hlast, hr]⟩
      have hread : CycleRead rules node _ (.restart stop start) :=
        cycleRead_stop_start hrole hq ht hbetween
      rwa [List.append_nil, ← List.append_assoc [_] t₃]

end CycleRead

/-! ## Looking at the node again -/

/-- The last sample shows the node healthy and close enough to its reference. -/
def SeesCatchup (node : Node) (referenceRpc : String) (maxLag : Int) (trace : List OpsEvent) :
    Prop :=
  ∃ sample : Sample, LastAnswer trace (.sample node referenceRpc) sample ∧
    hasCaughtUp maxLag sample = true

def SeesActive (node : Node) (trace : List OpsEvent) : Prop :=
  ∃ r : CommandResult, LastAnswer trace (showState node) r ∧ r.exitCode = 0 ∧
    (keyValues r.stdout).get? "ActiveState" = some "active"

def SeesVersion (node : Node) (targetVersion : String) (trace : List OpsEvent) : Prop :=
  ∃ r : CommandResult, LastAnswer trace (showVersion node) r ∧
    versionMatches (readBinaryVersion r) targetVersion = true

theorem looks_inspectNode {node : Node} {trace : List OpsEvent} {result : Except Exn Inspection}
    (h : Runs (inspectNode node) trace result) : ∀ event ∈ trace, ¬ event.op.Mutates := by
  have hsends : (inspectNode node).AllCalls (OpsEffect.Sends fun i => ¬ i.Mutates) :=
    allCalls_inspectNode (forall_inspectInvocations (P := fun i => ¬ i.Mutates) (fun _ => id)
      (fun _ => id) (fun _ => id) fun _ => id)
  intro event he hm
  obtain ⟨i, hop, hi⟩ := OpsEffect.mutates_iff.mp hm
  exact (h.allCalls hsends) event he i hop hi

theorem sends_inspectNode {node : Node} {trace : List OpsEvent} {result : Except Exn Inspection}
    (h : Runs (inspectNode node) trace result) : ∀ event ∈ trace, ∃ i, event.op = .runner i := by
  have hrun : ∀ command, (runOn (.node node) command).AllCalls
      fun op : OpsEffect => ∃ i, op = .runner i := fun _ => allCalls_perform.mpr ⟨_, rfl⟩
  have hmarker : (markerVersion node).AllCalls fun op : OpsEffect => ∃ i, op = .runner i := by
    unfold markerVersion
    split
    · trivial
    · split
      · trivial
      · exact (hrun _).map _
  have hall : (inspectNode node).AllCalls fun op : OpsEffect => ∃ i, op = .runner i := by
    refine ((hrun _).map _).bind fun service => AllCalls.bind ?_ fun version => ?_
    · exact (hrun _).bind fun r => hmarker.bind fun _ => trivial
    · exact ((hrun _).map _).bind fun disk => trivial
  exact h.allCalls hall

theorem waits_waitForCatchup {node : Node} {referenceRpc : String} {maxLag timeout : Int}
    {trace : List OpsEvent} {result : Except Exn Catchup}
    (h : Runs (waitForCatchup node referenceRpc maxLag timeout) trace result) :
    ∀ event ∈ trace, ∀ i, event.op ≠ .runner i := by
  intro event he i hop
  have hsends : (waitForCatchup node referenceRpc maxLag timeout).AllCalls
      (OpsEffect.Sends fun _ => False) := allCalls_waitForCatchup ..
  exact (h.allCalls hsends) event he i hop

/-- The entry at the end of a run, if it makes one. -/
theorem runs_recordOps_ok {α : Type} {audit : Bool} {entry : AuditEvent} {a b : α}
    {trace : List OpsEvent} (h : Runs (recordOps audit entry >>= fun _ => pure a) trace (.ok b)) :
    b = a ∧ ∀ event ∈ trace, event.op = .audit entry := by
  obtain ⟨first, rest, _, hentry, hend, rfl⟩ := runs_bind_ok_iff.mp h
  obtain ⟨rfl, hresult⟩ := runs_pure_iff.mp hend
  refine ⟨Except.ok.inj hresult, ?_⟩
  rw [List.append_nil]
  cases audit with
  | false =>
      obtain ⟨rfl, -⟩ := runs_pure_iff.mp hentry
      exact fun event he => nomatch he
  | true =>
      rw [show first = [⟨.audit entry, .ok ()⟩] from runs_perform_iff.mp hentry]
      exact List.forall_mem_singleton.mpr rfl

/-- Waiting, looking again and the entry: what the wait and the look were told is the last
the node said. -/
structure AfterRead (node : Node) (referenceRpc : String) (maxLag : Int) (trace : List OpsEvent)
    (catchup : Catchup) (after : Inspection) : Prop where
  looks : ∀ event ∈ trace, ¬ event.op.Mutates
  caughtUp : ∃ sample : Sample, LastAnswer trace (.sample node referenceRpc) sample ∧
    catchup.caughtUp = hasCaughtUp maxLag sample
  service : ∃ r : CommandResult, LastAnswer trace (showState node) r ∧
    after.service = readServiceState node r
  version : ∃ r : CommandResult, LastAnswer trace (showVersion node) r ∧
    after.version.binaryVersion = readBinaryVersion r

theorem AfterRead.of_runs {node : Node} {referenceRpc : String} {maxLag : Int}
    {waits looks entries : List OpsEvent} {catchup : Catchup} {after : Inspection}
    {entry : AuditEvent}
    (hwait : Runs (waitForCatchup node referenceRpc maxLag defaultCatchupTimeout) waits
      (.ok catchup))
    (hlook : Runs (inspectNode node) looks (.ok after))
    (hentries : ∀ event ∈ entries, event.op = .audit entry) :
    AfterRead node referenceRpc maxLag (waits ++ (looks ++ entries)) catchup after := by
  have hread := (runs_inspectNode_ok hlook).some
  have hlooks := looks_inspectNode hlook
  have hwaits := waits_waitForCatchup hwait
  have hnone : ∀ event ∈ looks ++ entries, event.op ≠ .sample node referenceRpc := by
    refine List.forall_mem_append.mpr ⟨?_, ?_⟩
    · intro event he
      obtain ⟨i, hop⟩ := sends_inspectNode hlook event he
      rw [hop]
      exact nofun
    · intro event he
      rw [hentries event he]
      exact nofun
  have hentries' : ∀ command, ∀ event ∈ entries, event.op ≠ onNode node command := by
    intro command event he
    rw [hentries event he]
    exact nofun
  obtain ⟨sample, hsample, hcaught⟩ := runs_waitForCatchup_ok hwait
  constructor
  · refine List.forall_mem_append.mpr ⟨?_, List.forall_mem_append.mpr ⟨hlooks, ?_⟩⟩
    · intro event he hm
      obtain ⟨i, hop, -⟩ := OpsEffect.mutates_iff.mp hm
      exact hwaits event he i hop
    · intro event he
      rw [hentries event he]
      exact id
  · exact ⟨sample, hsample.append hnone, hcaught⟩
  · exact ⟨_, (hread.shown_last.append (hentries' _)).prepend, hread.service⟩
  · exact ⟨_, (hread.version_last.append (hentries' _)).prepend, hread.binary⟩

theorem seesCatchup_iff {node : Node} {referenceRpc : String} {maxLag : Int}
    {trace : List OpsEvent} {sample : Sample}
    (h : LastAnswer trace (.sample node referenceRpc) sample) :
    SeesCatchup node referenceRpc maxLag trace ↔ hasCaughtUp maxLag sample = true := by
  constructor
  · rintro ⟨sample', hlast, hcaught⟩
    have heq : sample' = sample := hlast.unique h
    rwa [heq] at hcaught
  · intro hcaught
    exact ⟨sample, h, hcaught⟩

theorem seesVersion_iff {node : Node} {targetVersion : String} {trace : List OpsEvent}
    {r : CommandResult} (h : LastAnswer trace (showVersion node) r) :
    SeesVersion node targetVersion trace ↔
      versionMatches (readBinaryVersion r) targetVersion = true := by
  constructor
  · rintro ⟨r', hlast, hmatch⟩
    have heq : r' = r := hlast.unique h
    rwa [heq] at hmatch
  · intro hmatch
    exact ⟨r, h, hmatch⟩

/-! ## The success flags -/

theorem runs_restartNode_executed {fleet : Fleet} {nodeName : String} {confirm : Bool}
    {policy : Policy} {audit : Bool} {maxLag : Int} {trace : List OpsEvent}
    {decision : GateDecision} {beforeSlot : Option Int} {cycle : Cycle} {catchup : Catchup}
    {afterService : ServiceState} {leader : Option LeaderWindows} {succeeded : Bool}
    (h : Runs (restartNode fleet nodeName confirm policy audit maxLag) trace
      (.ok (.executed decision beforeSlot cycle catchup afterService leader succeeded))) :
    ∃ clusterName cluster node first rest leader' decision',
      fleet.findNode nodeName = some (clusterName, cluster, node) ∧ trace = first ++ rest ∧
      Runs (executeRestart clusterName cluster node nodeName (policy.forCluster clusterName) maxLag
        audit leader' decision') rest
        (.ok (.executed decision beforeSlot cycle catchup afterService leader succeeded)) := by
  unfold restartNode at h
  cases hfound : fleet.findNode nodeName with
  | none =>
      rw [hfound] at h
      exact nomatch (runs_pure_iff.mp h).2
  | some found =>
      obtain ⟨clusterName, cluster, node⟩ := found
      rw [hfound] at h
      obtain ⟨t₁, rest₁, before, -, hrest₁, rfl⟩ := runs_bind_ok_iff.mp h
      obtain ⟨t₂, rest₂, pcts, -, hrest₂, rfl⟩ := runs_bind_ok_iff.mp hrest₁
      obtain ⟨t₃, rest₃, leader', -, hgated, rfl⟩ := runs_bind_ok_iff.mp hrest₂
      rcases runs_gated hgated with ⟨-, hrun⟩ | ⟨-, -, hclosed⟩
      · refine ⟨clusterName, cluster, node, t₁ ++ (t₂ ++ t₃), rest₃, leader', _, rfl, ?_, hrun⟩
        simp only [List.append_assoc]
      · exact nomatch hclosed _ rfl

/-- What the success flag of a restart is made of. -/
theorem restart_succeeded_iff {fleet : Fleet} {nodeName : String} {confirm : Bool}
    {policy : Policy} {audit : Bool} {maxLag : Int} {trace : List OpsEvent}
    {decision : GateDecision} {beforeSlot : Option Int} {cycle : Cycle} {catchup : Catchup}
    {afterService : ServiceState} {leader : Option LeaderWindows} {succeeded : Bool}
    (h : Runs (restartNode fleet nodeName confirm policy audit maxLag) trace
      (.ok (.executed decision beforeSlot cycle catchup afterService leader succeeded))) :
    ∃ clusterName cluster node, fleet.findNode nodeName = some (clusterName, cluster, node) ∧
      (succeeded = true ↔ CycleExits (policy.forCluster clusterName) node trace ∧
        SeesCatchup node cluster.referenceRpc maxLag trace) ∧
      ∃ r : CommandResult, LastAnswer trace (showState node) r ∧
        afterService = readServiceState node r := by
  obtain ⟨clusterName, cluster, node, first, rest, leader', decision', hfound, rfl, hrun⟩ :=
    runs_restartNode_executed h
  refine ⟨clusterName, cluster, node, hfound, ?_⟩
  obtain ⟨t₁, rest₁, sample, hsample, hrest₁, rfl⟩ := runs_bind_ok_iff.mp hrun
  obtain ⟨t₂, rest₂, cycle', hcycle, hrest₂, rfl⟩ := runs_bind_ok_iff.mp hrest₁
  obtain ⟨t₃, rest₃, catchup', hcatchup, hrest₃, rfl⟩ := runs_bind_ok_iff.mp hrest₂
  obtain ⟨t₄, rest₄, after, hafter, hrest₄, rfl⟩ := runs_bind_ok_iff.mp hrest₃
  obtain ⟨hresult, hentries⟩ := runs_recordOps_ok hrest₄
  cases hresult
  have hread := AfterRead.of_runs hcatchup hafter hentries
  have hcycled := (runs_cycleService_ok hcycle).append hread.looks
  obtain ⟨last, hlast, hcaught⟩ := hread.caughtUp
  have hwhole : LastAnswer (first ++ (t₁ ++ (t₂ ++ (t₃ ++ (t₄ ++ rest₄)))))
      (.sample node cluster.referenceRpc) last := hlast.prepend.prepend.prepend
  have hcycle' : CycleRead (policy.forCluster clusterName) node
      (first ++ (t₁ ++ (t₂ ++ (t₃ ++ (t₄ ++ rest₄))))) cycle := hcycled.prepend.prepend
  obtain ⟨shown, hshown, hservice⟩ := hread.service
  refine ⟨?_, shown, hshown.prepend.prepend.prepend, hservice⟩
  rw [Bool.and_eq_true, hcycle'.ok, seesCatchup_iff hwhole, hcaught]

theorem runs_executeUpgrade_executed {fleet : Fleet} {nodeName targetVersion : String}
    {confirm : Bool} {policy : Policy} {audit : Bool} {maxLag : Int} {forceBuild : Bool}
    {trace : List OpsEvent} {outcome : UpgradeOutcome}
    (h : Runs (executeUpgrade fleet nodeName targetVersion confirm policy audit maxLag forceBuild)
      trace (.ok (.executed outcome))) :
    ∃ clusterName cluster node first rest entries decision build dist entry,
      fleet.findNode nodeName = some (clusterName, cluster, node) ∧
      trace = first ++ (rest ++ entries) ∧
      Runs (installUpgrade cluster node (policy.forCluster clusterName) targetVersion maxLag
        decision build dist) rest (.ok outcome) ∧
      ∀ event ∈ entries, event.op = .audit entry := by
  unfold executeUpgrade at h
  cases hfound : fleet.findNode nodeName with
  | none =>
      rw [hfound] at h
      exact nomatch (runs_pure_iff.mp h).2
  | some found =>
      obtain ⟨clusterName, cluster, node⟩ := found
      rw [hfound] at h
      obtain ⟨t₁, rest₁, before, -, hrest₁, rfl⟩ := runs_bind_ok_iff.mp h
      obtain ⟨t₂, rest₂, pcts, -, hgated, rfl⟩ := runs_bind_ok_iff.mp hrest₁
      rcases runs_gated hgated with ⟨-, hrun⟩ | ⟨-, -, hclosed⟩
      · obtain ⟨t₃, entries, result, hstages, hrecord, rfl⟩ := runs_bind_ok_iff.mp hrun
        obtain ⟨hresult, hentries⟩ := runs_recordOps_ok hrecord
        subst hresult
        unfold upgradeWith at hstages
        split at hstages
        · exact nomatch (runs_raise_iff.mp hstages).2
        · exact nomatch (runs_raise_iff.mp hstages).2
        obtain ⟨t₄, rest₄, build, -, hbuilt, rfl⟩ := runs_bind_ok_iff.mp hstages
        split at hbuilt
        · obtain ⟨t₅, rest₅, dist, -, hdist, rfl⟩ := runs_bind_ok_iff.mp hbuilt
          split at hdist
          · obtain ⟨outcome', hinstall, heq⟩ := runs_map_ok_iff.mp hdist
            cases heq
            refine ⟨clusterName, cluster, node, t₁ ++ (t₂ ++ (t₄ ++ t₅)), rest₅, entries, _, build,
              dist, _, rfl, ?_, hinstall, hentries⟩
            simp only [List.append_assoc]
          · exact nomatch (runs_pure_iff.mp hdist).2
        · exact nomatch (runs_pure_iff.mp hbuilt).2
      · exact nomatch hclosed _ rfl

/-- What the flags of an upgrade are made of. -/
theorem upgrade_succeeded_iff {fleet : Fleet} {nodeName targetVersion : String}
    {confirm : Bool} {policy : Policy} {audit : Bool} {maxLag : Int} {forceBuild : Bool}
    {trace : List OpsEvent} {outcome : UpgradeOutcome}
    (h : Runs (executeUpgrade fleet nodeName targetVersion confirm policy audit maxLag forceBuild)
      trace (.ok (.executed outcome))) :
    ∃ clusterName cluster node, fleet.findNode nodeName = some (clusterName, cluster, node) ∧
      (outcome.succeeded = true ↔ Exits trace node (.swap outcome.distribution.swaps) ∧
        CycleExits (policy.forCluster clusterName) node trace ∧
        SeesCatchup node cluster.referenceRpc maxLag trace ∧ outcome.versionOk = true) ∧
      ∃ r : CommandResult, LastAnswer trace (showVersion node) r ∧
        outcome.versionOk = versionMatches (readBinaryVersion r) targetVersion := by
  obtain ⟨clusterName, cluster, node, first, rest, entries, decision, build, dist, entry, hfound,
    rfl, hrun, hentries⟩ := runs_executeUpgrade_executed h
  refine ⟨clusterName, cluster, node, hfound, ?_⟩
  obtain ⟨t₁, rest₁, ⟨swap, marker, cycle⟩, hcycle, hrest₁, rfl⟩ := runs_bind_ok_iff.mp hrun
  obtain ⟨t₂, rest₂, catchup, hcatchup, hrest₂, rfl⟩ := runs_bind_ok_iff.mp hrest₁
  obtain ⟨t₃, rest₃, after, hafter, hrest₃, rfl⟩ := runs_bind_ok_iff.mp hrest₂
  obtain ⟨rfl, houtcome⟩ := runs_pure_iff.mp hrest₃
  cases houtcome
  obtain ⟨hcycled, hsent, hswap⟩ := runs_swapAndCycle_ok hcycle
  have hread := AfterRead.of_runs hcatchup hafter hentries
  have htrace : first ++ (t₁ ++ (t₂ ++ (t₃ ++ [])) ++ entries) =
      first ++ (t₁ ++ (t₂ ++ (t₃ ++ entries))) := by
    simp only [List.append_nil, List.append_assoc]
  rw [htrace]
  obtain ⟨last, hlast, hcaught⟩ := hread.caughtUp
  obtain ⟨r, hr, hversion⟩ := hread.version
  have hwhole : LastAnswer (first ++ (t₁ ++ (t₂ ++ (t₃ ++ entries))))
      (.sample node cluster.referenceRpc) last := hlast.prepend.prepend
  have hcycle' : CycleRead (policy.forCluster clusterName) node
      (first ++ (t₁ ++ (t₂ ++ (t₃ ++ entries)))) cycle := (hcycled.append hread.looks).prepend
  have hmutates : Command.Mutates (.swap dist.swaps) := trivial
  have hne : ∀ event ∈ t₂ ++ (t₃ ++ entries), event.op ≠ onNode node (.swap dist.swaps) :=
    ne_onNode_of_looks hread.looks hmutates
  have hswap' : swap.ok = true ↔
      Exits (first ++ (t₁ ++ (t₂ ++ (t₃ ++ entries)))) node (.swap dist.swaps) := by
    rw [(hsent.append hne).exits_prepend_iff, hsent.exits_append_iff hne, hswap]
  constructor
  · simp only [Bool.and_eq_true, hcycle'.ok, seesCatchup_iff hwhole, hcaught, hswap', and_assoc]
  · exact ⟨r, hr.prepend.prepend, by rw [hversion]⟩

end Solfleet
