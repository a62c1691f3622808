import Mathlib.Logic.Function.Basic
import Solfleet.Orchestration.Rehearsal
import Solfleet.Orchestration.Verified

/-! # Mixed sets

The files of a node when commands of an upgrade fail on it. The swap is several
commands joined by `&&`, the marker is written by another one, and the service is
cycled whatever became of both.
-/

namespace Solfleet

open Interaction Program

/-! ## The node -/

inductive Release where
  | old
  | new
  deriving DecidableEq

/-- What the destination files and the version marker hold. A marker of neither version is
`none`. -/
structure NodeFiles where
  files : String → Release
  marker : Option Release

/-- Which node commands fail: how many parts of the swap succeed before one fails, whether
the marker is written, and what a write that failed leaves in it. -/
structure NodeFaults where
  partsDone : Nat
  markerWritten : Bool
  markerLeft : Option Release
  deriving DecidableEq

/-- The marker after its write. The redirect empties the file first, so that a failed write
can leave anything. -/
def NodeFaults.markerAfter (faults : NodeFaults) : Option Release :=
  if faults.markerWritten then some .new else faults.markerLeft

def SwapPart.apply : SwapPart → (String → Release) → String → Release
  | .mv _ dest, files => Function.update files dest .new
  | .chmod _, files => files

/-- Parts joined by `&&`, of which `succeed` succeed. -/
def runParts : List SwapPart → Nat → (String → Release) → String → Release
  | [], _, files => files
  | _ :: _, 0, files => files
  | part :: parts, succeed + 1, files => runParts parts succeed (part.apply files)

def NodeFiles.step (faults : NodeFaults) (s : NodeFiles) (event : OpsEvent) : NodeFiles :=
  match event.op with
  | .runner (.ssh _ (.swap swaps)) =>
      { s with files := runParts (swapParts swaps) faults.partsDone s.files }
  | .runner (.ssh _ (.writeMarker ..)) => { s with marker := faults.markerAfter }
  | _ => s

def NodeFiles.after (faults : NodeFaults) (s : NodeFiles) (trace : List OpsEvent) : NodeFiles :=
  trace.foldl (NodeFiles.step faults) s

/-- Before the upgrade everything is of the old version. -/
def oldFiles : NodeFiles := ⟨fun _ => .old, some .old⟩

/-- The answers say what the faults did: a swap succeeds when all its parts do. -/
def NodeFaults.Answers (faults : NodeFaults) : OpsEvent → Prop
  | ⟨.runner (.ssh _ (.swap swaps)), answer⟩ =>
      ∃ r : CommandResult, answer = .ok r ∧
        (r.ok = true ↔ (swapParts swaps).length ≤ faults.partsDone)
  | ⟨.runner (.ssh _ (.writeMarker ..)), answer⟩ =>
      ∃ r : CommandResult, answer = .ok r ∧ r.ok = faults.markerWritten
  | _ => True

def hasMarker (node : Node) : Bool := Text.truthy node.service.versionMarker

/-- All destinations, and the marker where one is configured, are of one version. -/
def NodeFiles.Whole (node : Node) (swaps : List Swap) (s : NodeFiles) : Prop :=
  ∃ release, (∀ swap ∈ swaps, s.files swap.dest = release) ∧
    (hasMarker node = true → s.marker = some release)

/-- A start, or an exit after which the service manager starts the new binary. -/
def Invocation.launches : Invocation → Bool
  | .ssh _ (.systemctl _ verb _) => verb == "start"
  | .ssh _ (.safeExit ..) => true
  | _ => false

/-- Whenever the service is launched, and when the run returns, the node is whole. -/
def NeverMixed {α : Type} (faults : NodeFaults) (node : Node) (swaps : List Swap)
    (trace : List OpsEvent) (result : Except Exn α) : Prop :=
  (∀ before event after i, trace = before ++ event :: after → event.op = .runner i →
    i.launches = true → (oldFiles.after faults before).Whole node swaps) ∧
  ∀ r, result = .ok r → (oldFiles.after faults trace).Whole node swaps

def SwapPart.moved? : SwapPart → Option String
  | .mv _ dest => some dest
  | .chmod _ => none

def movedDests (parts : List SwapPart) : List String := parts.filterMap SwapPart.moved?

/-- Nothing was moved and the marker, where there is one, still the old one, or everything
moved and the marker the new one. -/
def NodeFaults.Clean (faults : NodeFaults) (node : Node) (swaps : List Swap) : Prop :=
  (faults.partsDone = 0 ∧ (hasMarker node = true → faults.markerAfter = some .old)) ∨
    (∀ swap ∈ swaps, swap.dest ∈ movedDests ((swapParts swaps).take faults.partsDone)) ∧
      (hasMarker node = true → faults.markerAfter = some .new)

instance (faults : NodeFaults) (node : Node) (swaps : List Swap) :
    Decidable (faults.Clean node swaps) := inferInstanceAs (Decidable (_ ∨ _))

/-! ## What the parts leave -/

theorem runParts_apply (parts : List SwapPart) (succeed : Nat) (files : String → Release)
    (path : String) :
    runParts parts succeed files path =
      if path ∈ movedDests (parts.take succeed) then .new else files path := by
  induction parts generalizing succeed files with
  | nil => simp [runParts, movedDests]
  | cons part parts ih =>
      cases succeed with
      | zero => simp [runParts, movedDests]
      | succ succeed =>
          rw [runParts, ih]
          cases part with
          | mv staged dest =>
              by_cases hp : path = dest
              · subst hp
                simp [SwapPart.apply, movedDests, SwapPart.moved?]
              · simp [SwapPart.apply, movedDests, SwapPart.moved?, hp]
          | chmod dest => simp [SwapPart.apply, movedDests, SwapPart.moved?]

/-- What a swap and a marker write leave of a node. -/
def NodeFiles.installed (faults : NodeFaults) (node : Node) (swaps : List Swap)
    (s : NodeFiles) : NodeFiles where
  files := runParts (swapParts swaps) faults.partsDone s.files
  marker := if hasMarker node then faults.markerAfter else s.marker

/-- The first part of a swap moves a file. -/
theorem head_mem_movedDests {swap : Swap} {swaps : List Swap} {succeed : Nat} (h : succeed ≠ 0) :
    swap.dest ∈ movedDests ((swapParts (swap :: swaps)).take succeed) := by
  obtain ⟨n, rfl⟩ := Nat.exists_eq_succ_of_ne_zero h
  simp [swapParts, Swap.parts, movedDests, SwapPart.moved?]

theorem installed_files (faults : NodeFaults) (node : Node) (swaps : List Swap) (path : String) :
    (oldFiles.installed faults node swaps).files path =
      if path ∈ movedDests ((swapParts swaps).take faults.partsDone) then .new else .old :=
  runParts_apply _ _ _ _

theorem installed_marker {faults : NodeFaults} {node : Node} {swaps : List Swap}
    (h : hasMarker node = true) :
    (oldFiles.installed faults node swaps).marker = faults.markerAfter := by
  simp [NodeFiles.installed, h]

theorem NodeFaults.Clean.whole {faults : NodeFaults} {node : Node} {swaps : List Swap}
    (h : faults.Clean node swaps) : (oldFiles.installed faults node swaps).Whole node swaps := by
  obtain ⟨hk, hw⟩ | ⟨hmoved, hw⟩ := h
  · refine ⟨.old, fun swap _ => ?_, fun hmarked => ?_⟩
    · rw [installed_files, hk, List.take_zero, if_neg (by simp [movedDests])]
    · rw [installed_marker hmarked, hw hmarked]
  · refine ⟨.new, fun swap hs => ?_, fun hmarked => ?_⟩
    · rw [installed_files, if_pos (hmoved swap hs)]
    · rw [installed_marker hmarked, hw hmarked]

theorem NodeFaults.clean_of_whole {faults : NodeFaults} {node : Node} {swaps : List Swap}
    (hne : swaps ≠ []) (h : (oldFiles.installed faults node swaps).Whole node swaps) :
    faults.Clean node swaps := by
  obtain ⟨swap, rest, rfl⟩ := List.exists_cons_of_ne_nil hne
  obtain ⟨release, hdests, hm⟩ := h
  cases release with
  | old =>
      refine .inl ⟨?_, fun hmarked => ?_⟩
      · by_contra hk
        have hold := hdests swap List.mem_cons_self
        rw [installed_files, if_pos (head_mem_movedDests hk)] at hold
        cases hold
      · have hold := hm hmarked
        rwa [installed_marker hmarked] at hold
  | new =>
      refine .inr ⟨fun other ho => ?_, fun hmarked => ?_⟩
      · by_contra hnot
        have hnew := hdests other ho
        rw [installed_files, if_neg hnot] at hnew
        cases hnew
      · have hnew := hm hmarked
        rwa [installed_marker hmarked] at hnew

/-! ## Idle calls -/

/-- Leaves the files as they are and launches nothing. -/
def Invocation.idle : Invocation → Bool
  | .ssh _ (.swap _) => false
  | .ssh _ (.writeMarker ..) => false
  | .ssh _ (.systemctl _ verb _) => verb != "start"
  | .ssh _ (.safeExit ..) => false
  | _ => true

theorem idle_of_calm {i : Invocation} (h : i.disturbs = false) : i.idle = true := by
  cases i with
  | ssh target command => cases command <;> first | rfl | cases h
  | scpFrom | scpTo => rfl

theorem not_launches_of_idle {i : Invocation} (h : i.idle = true) :
    i.launches = false := by
  cases i with
  | ssh target command =>
      cases command with
      | systemctl withSudo verb unit => simpa [Invocation.idle, Invocation.launches] using h
      | safeExit => cases h
      | _ => rfl
  | scpFrom | scpTo => rfl

def Idle (trace : List OpsEvent) : Prop := ∀ i ∈ invocations trace, i.idle = true

theorem Idle.append {xs ys : List OpsEvent} (hx : Idle xs) (hy : Idle ys) : Idle (xs ++ ys) := by
  intro i hi
  rw [invocations_append, List.mem_append] at hi
  exact hi.elim (hx i) (hy i)

theorem idle_of_allCalls {α : Type} {p : OpsProgram α} {trace : List OpsEvent}
    {result : Except Exn α} (hp : p.AllCalls (OpsEffect.Sends fun i => i.disturbs = false))
    (h : Runs p trace result) : Idle trace :=
  fun i hi => idle_of_calm (invocations_of_allCalls hp h i hi)

theorem step_idle {faults : NodeFaults} {s : NodeFiles} {event : OpsEvent}
    (h : ∀ i, event.op = .runner i → i.idle = true) : s.step faults event = s := by
  unfold NodeFiles.step
  split
  case h_1 hop => cases h _ hop
  case h_2 hop => cases h _ hop
  case h_3 => rfl

theorem after_idle {faults : NodeFaults} {s : NodeFiles} {trace : List OpsEvent}
    (h : Idle trace) : s.after faults trace = s := by
  induction trace with
  | nil => rfl
  | cons event trace ih =>
      have hevent : ∀ i, event.op = .runner i → i.idle = true := fun i hop =>
        h i (mem_invocations_iff.mpr ⟨event, List.mem_cons_self, hop⟩)
      rw [NodeFiles.after, List.foldl_cons, step_idle hevent]
      refine ih fun i hi => h i ?_
      obtain ⟨other, ho, hop⟩ := mem_invocations_iff.mp hi
      exact mem_invocations_iff.mpr ⟨other, List.mem_cons_of_mem _ ho, hop⟩

theorem after_append (faults : NodeFaults) (s : NodeFiles) (xs ys : List OpsEvent) :
    s.after faults (xs ++ ys) = (s.after faults xs).after faults ys := List.foldl_append

/-! ## Swap, marker and cycle -/

def Consistent (faults : NodeFaults) (trace : List OpsEvent) : Prop :=
  ∀ event ∈ trace, faults.Answers event

/-- The launch in a run: before it the files are installed, and they stay so. -/
def Launched (faults : NodeFaults) (node : Node) (swaps : List Swap)
    (trace : List OpsEvent) : Prop :=
  ∃ before event after, trace = before ++ event :: after ∧
    (∃ i, event.op = .runner i ∧ i.launches = true) ∧
    (∀ i ∈ invocations (before ++ after), i.launches = false) ∧
    (∃ target, .ssh target (.swap swaps) ∈ invocations before) ∧
    ∀ s, NodeFiles.after faults s before = NodeFiles.installed faults node swaps s ∧
      NodeFiles.after faults s trace = NodeFiles.installed faults node swaps s

theorem Launched.surround {faults : NodeFaults} {node : Node} {swaps : List Swap}
    {first trace last : List OpsEvent} (h : Launched faults node swaps trace)
    (hfirst : Idle first) (hlast : Idle last) :
    Launched faults node swaps (first ++ (trace ++ last)) := by
  obtain ⟨before, event, after, rfl, hlaunch, hno, ⟨target, hswap⟩, hstate⟩ := h
  refine ⟨first ++ before, event, after ++ last, by simp, hlaunch, fun i hi => ?_,
    ⟨target, by simp [hswap]⟩, fun s => ⟨?_, ?_⟩⟩
  · simp only [invocations_append, List.mem_append] at hi hno
    obtain (hi | hi) | hi | hi := hi
    · exact not_launches_of_idle (hfirst i hi)
    · exact hno i (.inl hi)
    · exact hno i (.inr hi)
    · exact not_launches_of_idle (hlast i hi)
  · rw [after_append, after_idle hfirst, (hstate s).1]
  · rw [after_append, after_idle hfirst, after_append, (hstate s).2, after_idle hlast]

/-- A command whose outcome the faults decide does not raise. -/
theorem runs_atomicSwap {faults : NodeFaults} {node : Node} {swaps : List Swap}
    {trace : List OpsEvent} {result : Except Exn SwapResult}
    (h : Runs (atomicSwap node swaps) trace result) (hc : Consistent faults trace) :
    (∃ answer, trace = [⟨.runner (.ssh (.node node) (.swap swaps)), answer⟩]) ∧
      ∃ swap, result = .ok swap := by
  obtain ⟨answer, rfl, rfl⟩ := runs_command.mp h
  obtain ⟨r, rfl, _⟩ := hc _ (List.mem_singleton_self _)
  exact ⟨⟨_, rfl⟩, _, rfl⟩

theorem runs_updateMarker {faults : NodeFaults} {node : Node} {version : String}
    {trace : List OpsEvent} {result : Except Exn MarkerResult}
    (h : Runs (updateMarker node version) trace result) (hc : Consistent faults trace) :
    (∃ marker, result = .ok marker) ∧ (∀ i ∈ invocations trace, i.launches = false) ∧
      ∀ s : NodeFiles, s.after faults trace =
        { s with marker := if hasMarker node then faults.markerAfter else s.marker } := by
  unfold updateMarker at h
  cases hm : node.service.versionMarker with
  | none =>
      rw [hm] at h
      obtain ⟨rfl, rfl⟩ := runs_pure_iff.mp h
      exact ⟨⟨_, rfl⟩, by simp, fun s => by simp [hasMarker, hm, Text.truthy, NodeFiles.after]⟩
  | some path =>
      simp only [hm] at h
      split at h
      case isTrue hempty =>
        obtain ⟨rfl, rfl⟩ := runs_pure_iff.mp h
        refine ⟨⟨_, rfl⟩, by simp, fun s => ?_⟩
        simp [hasMarker, hm, Text.truthy, NodeFiles.after, hempty]
      case isFalse hempty =>
        obtain ⟨answer, rfl, rfl⟩ := runs_command.mp h
        obtain ⟨r, rfl, _⟩ := hc _ (List.mem_singleton_self _)
        refine ⟨⟨_, rfl⟩, by simp [invocations, Invocation.launches], fun s => ?_⟩
        have hmarker : hasMarker node = true := by simp [hasMarker, hm, Text.truthy, hempty]
        simp [NodeFiles.after, NodeFiles.step, hmarker]

theorem Consistent.left {faults : NodeFaults} {xs ys : List OpsEvent}
    (h : Consistent faults (xs ++ ys)) : Consistent faults xs :=
  fun event he => h event (List.mem_append_left _ he)

theorem Consistent.right {faults : NodeFaults} {xs ys : List OpsEvent}
    (h : Consistent faults (xs ++ ys)) : Consistent faults ys :=
  fun event he => h event (List.mem_append_right _ he)

/-- The last command of the cycle, whatever it answers. -/
theorem runs_launch {α β : Type} {target : SSHTarget} {command : Command}
    {f : CommandResult → α} {g : α → β} {trace : List OpsEvent} {result : Except Exn β}
    (h : Runs ((runOn target command >>= fun r => pure (f r)) >>= fun a => pure (g a)) trace
      result) :
    ∃ answer, trace = [⟨.runner (.ssh target command), answer⟩] := by
  rw [bind_assoc] at h
  simp only [pure_bind] at h
  obtain ⟨answer, htrace, _⟩ := runs_command.mp h
  exact ⟨answer, htrace⟩

/-- Swap, marker, then a command that launches the service. -/
theorem runs_installThen {β : Type} {faults : NodeFaults} {node : Node} {swaps : List Swap}
    {version : String} {last : SwapResult → MarkerResult → OpsProgram β}
    (hlast : ∀ swap marker trace result, Runs (last swap marker) trace result →
      ∃ i answer, trace = [⟨.runner i, answer⟩] ∧ i.launches = true)
    {trace : List OpsEvent} {result : Except Exn β}
    (h : Runs (do
      let swap ← atomicSwap node swaps
      let marker ← updateMarker node version
      last swap marker) trace result) (hc : Consistent faults trace) :
    Launched faults node swaps trace := by
  obtain ⟨swapTrace, rest, swap, hswap, hrest, rfl⟩ | ⟨e, hswap, _⟩ := runs_bind_iff.mp h
  case inr =>
    obtain ⟨_, swap, hr⟩ := runs_atomicSwap hswap hc
    cases hr
  obtain ⟨⟨answer, rfl⟩, _⟩ := runs_atomicSwap hswap hc.left
  obtain ⟨markTrace, lastTrace, marker, hmarker, hend, rfl⟩ | ⟨e, hmarker, _⟩ :=
    runs_bind_iff.mp hrest
  case inl.inr =>
    obtain ⟨⟨marker, hr⟩, _⟩ := runs_updateMarker hmarker hc.right
    cases hr
  obtain ⟨_, hquiet, hmarked⟩ := runs_updateMarker hmarker hc.right.left
  obtain ⟨i, answer', rfl, hlaunches⟩ := hlast _ _ _ _ hend
  have hinstalled : ∀ s : NodeFiles,
      s.after faults ([⟨.runner (.ssh (.node node) (.swap swaps)), answer⟩] ++ markTrace) =
        s.installed faults node swaps := by
    intro s
    rw [after_append, hmarked]
    rfl
  refine ⟨[⟨.runner (.ssh (.node node) (.swap swaps)), answer⟩] ++ markTrace, ⟨.runner i, answer'⟩,
    [], by simp, ⟨i, rfl, hlaunches⟩, ?_, ⟨.node node, by simp [invocations]⟩, fun s =>
    ⟨hinstalled s, ?_⟩⟩
  · intro j hj
    rw [List.append_nil, invocations_append, List.mem_append] at hj
    obtain hj | hj := hj
    · rw [invocations_runner, invocations_nil, List.mem_singleton] at hj
      subst hj
      rfl
    · exact hquiet j hj
  · rw [← List.append_assoc, after_append, hinstalled]
    cases i with
    | scpFrom | scpTo => cases hlaunches
    | ssh target command => cases command <;> first | rfl | cases hlaunches

/-- The cycle launches the service on the files the swap left, unless the stop raised. -/
theorem runs_swapAndCycle {faults : NodeFaults} {node : Node} {rules : PolicyRules}
    {version : String} {swaps : List Swap} {trace : List OpsEvent}
    {result : Except Exn (SwapResult × MarkerResult × Cycle)}
    (h : Runs (swapAndCycle node rules version swaps) trace result)
    (hc : Consistent faults trace) :
    (Idle trace ∧ ∃ e, result = .error e) ∨ Launched faults node swaps trace := by
  unfold swapAndCycle at h
  split at h
  · refine .inr (runs_installThen (fun swap marker trace result hr => ?_) h hc)
    obtain ⟨answer, rfl⟩ := runs_launch hr
    exact ⟨_, answer, rfl, rfl⟩
  · have hstopIdle : ∀ answer,
        Idle [⟨.runner (.ssh (.node node) (systemctl node "stop")), answer⟩] := by
      intro answer i hi
      rw [invocations_runner, invocations_nil, List.mem_singleton] at hi
      subst hi
      rfl
    obtain ⟨stopTrace, rest, stop, hstop, hrest, rfl⟩ | ⟨e, hstop, hr⟩ := runs_bind_iff.mp h
    · obtain ⟨answer, rfl, _⟩ := runs_command.mp hstop
      refine .inr ?_
      have hlaunched := runs_installThen (fun swap marker trace result hr => ?_) hrest hc.right
      · have hnil : Idle [] := by simp [Idle]
        simpa using hlaunched.surround (hstopIdle answer) hnil
      · obtain ⟨answer, rfl⟩ := runs_launch hr
        exact ⟨_, answer, rfl, rfl⟩
    · obtain ⟨answer, rfl, _⟩ := runs_command.mp hstop
      exact .inl ⟨hstopIdle answer, e, hr⟩

/-! ## A whole run -/

section

variable {α β : Type} {faults : NodeFaults} {node : Node} {swaps : List Swap}

/-- Under the faults, nothing touches the files, or one launch finds them installed. -/
def Cycles (faults : NodeFaults) (node : Node) (swaps : List Swap) (p : OpsProgram α) : Prop :=
  ∀ trace result, Runs p trace result → Consistent faults trace →
    Idle trace ∨ Launched faults node swaps trace

theorem Cycles.of_calm {p : OpsProgram α}
    (hp : p.AllCalls (OpsEffect.Sends fun i => i.disturbs = false)) :
    Cycles faults node swaps p :=
  fun _ _ h _ => .inl (idle_of_allCalls hp h)

theorem Cycles.bind_calm {p : OpsProgram α} {f : α → OpsProgram β}
    (hp : p.AllCalls (OpsEffect.Sends fun i => i.disturbs = false))
    (hf : ∀ trace a, Runs p trace (.ok a) → Cycles faults node swaps (f a)) :
    Cycles faults node swaps (p >>= f) := by
  intro trace result h hc
  obtain ⟨first, rest, a, hfirst, hrest, rfl⟩ | ⟨e, hfirst, _⟩ := runs_bind_iff.mp h
  · have hidle := idle_of_allCalls hp hfirst
    obtain hr | hr := hf first a hfirst rest result hrest hc.right
    · exact .inl (hidle.append hr)
    · have hnil : Idle [] := by simp [Idle]
      exact .inr (by simpa using hr.surround hidle hnil)
  · exact .inl (idle_of_allCalls hp hfirst)

theorem Cycles.bind {p : OpsProgram α} {f : α → OpsProgram β} (hp : Cycles faults node swaps p)
    (hf : ∀ a, (f a).AllCalls (OpsEffect.Sends fun i => i.disturbs = false)) :
    Cycles faults node swaps (p >>= f) := by
  intro trace result h hc
  obtain ⟨first, rest, a, hfirst, hrest, rfl⟩ | ⟨e, hfirst, _⟩ := runs_bind_iff.mp h
  · have hidle := idle_of_allCalls (hf a) hrest
    obtain hr | hr := hp first _ hfirst hc.left
    · exact .inl (hr.append hidle)
    · have hnil : Idle [] := by simp [Idle]
      exact .inr (by simpa using hr.surround hnil hidle)
  · exact hp trace _ hfirst hc

theorem cycles_swapAndCycle (rules : PolicyRules) (version : String) :
    Cycles faults node swaps (swapAndCycle node rules version swaps) :=
  fun _ _ h hc => (runs_swapAndCycle h hc).imp And.left id

theorem calm_inspectNode : (inspectNode node).AllCalls
    (OpsEffect.Sends fun i => i.disturbs = false) :=
  AllCalls.calm (allCalls_inspectNode inspectInvocations_quiet)

theorem cycles_upgradeWith {fleet : Fleet} {cluster : Cluster} (rules : PolicyRules)
    (version : String) (maxLag : Int) (forceBuild : Bool) (d : GateDecision) :
    Cycles faults node (upgradeSwaps cluster node)
      (upgradeWith fleet cluster node rules version maxLag forceBuild d) := by
  unfold upgradeWith
  split
  · exact Cycles.of_calm trivial
  · exact Cycles.of_calm trivial
  case _ install builder hi hb =>
  refine Cycles.bind_calm (AllCalls.calm (quiet_buildArtifacts ..)) fun built build hbuild => ?_
  split
  case isFalse => exact Cycles.of_calm trivial
  case isTrue hbuildOk =>
  refine Cycles.bind_calm (calm_distribute ..) fun delivered dist hdist => ?_
  split
  case isFalse => exact Cycles.of_calm trivial
  case isTrue hdistOk =>
  have hswaps : dist.swaps = upgradeSwaps cluster node := by
    rw [(runs_distribute hdist hdistOk).2.2, (runs_buildArtifacts hbuild hbuildOk).1]
    simp only [upgradeSwaps, hi]
  rw [map_eq_bind]
  refine Cycles.bind (Cycles.bind (hswaps ▸ cycles_swapAndCycle rules version) fun cycled => ?_)
    fun _ => trivial
  refine (allCalls_waitForCatchup ..).bind fun catchup => ?_
  exact calm_inspectNode.bind fun _ => trivial

/-- The service is launched in no run, or in an upgrade that was planned as allowed. -/
theorem runs_executeUpgrade_cycles {fleet : Fleet} {nodeName clusterName : String}
    {cluster : Cluster} (hf : fleet.findNode nodeName = some (clusterName, cluster, node))
    {version : String} {confirm : Bool} {policy : Policy} {audit forceBuild : Bool}
    {maxLag : Int} {trace : List OpsEvent} {result : Except Exn UpgradeResult}
    (h : Runs (executeUpgrade fleet nodeName version confirm policy audit maxLag forceBuild) trace
      result) (hc : Consistent faults trace) :
    Idle trace ∨
      ((gate (planRequest fleet clusterName cluster node nodeName (policy.forCluster clusterName)
        version) false).allowed = true ∧
      Launched faults node (upgradeSwaps cluster node) trace) := by
  rw [executeUpgrade_eq] at h
  have hprepare : (upgradePrepare fleet nodeName version policy audit maxLag
      forceBuild).AllCalls (OpsEffect.Sends fun i => i.disturbs = false) :=
    AllCalls.calm (allCalls_upgradePrepare fun _ _ _ _ => inspectInvocations_quiet)
  obtain ⟨r, hp, _⟩ | ⟨e, hp, _⟩ | ⟨first, rest, p, hp, rfl, hg⟩ := runs_staged h
  · exact .inl (idle_of_allCalls hprepare hp)
  · exact .inl (idle_of_allCalls hprepare hp)
  have hfirst := idle_of_allCalls hprepare hp
  obtain ⟨hopens, hexec⟩ | ⟨_, hnil, _⟩ := runs_gated hg
  · obtain ⟨_, _, _, before, pcts, hf', hreq, hexecute⟩ := upgradePrepare_inr hp
    obtain ⟨rfl, rfl, rfl⟩ : clusterName = _ ∧ cluster = _ ∧ node = _ := by
      simpa using hf.symm.trans hf'
    rw [hexecute] at hexec
    rw [hreq] at hopens
    have hcycles : Cycles faults node (upgradeSwaps cluster node)
        (auditedUpgrade fleet clusterName cluster node nodeName (policy.forCluster clusterName)
          version audit maxLag forceBuild (gate p.request confirm)) :=
      Cycles.bind (cycles_upgradeWith _ _ _ _ _) fun _ => allCalls_recordOps_pure ..
    obtain hr | hr := hcycles _ _ hexec hc.right
    · exact .inl (hfirst.append hr)
    · have hnil : Idle [] := by simp [Idle]
      exact .inr ⟨upgradeRequest_allowed hopens.2, by simpa using hr.surround hfirst hnil⟩
  · exact .inl (hfirst.append fun i hi => by simp [hnil] at hi)

/-! ## A run that gets to the swap -/

theorem consistent_of_calm {p : OpsProgram α} {trace : List OpsEvent} {result : Except Exn α}
    (hp : p.AllCalls (OpsEffect.Sends fun i => i.disturbs = false)) (h : Runs p trace result) :
    Consistent faults trace := by
  intro event he
  have hcalm := h.allCalls hp event he
  unfold NodeFaults.Answers
  split
  case h_1 => cases hcalm _ rfl
  case h_2 => cases hcalm _ rfl
  case h_3 => trivial

/-- What the faults make of the two commands they decide. -/
theorem runs_swapAndCycle_faults (faults : NodeFaults) (node : Node) (rules : PolicyRules)
    (version : String) (swaps : List Swap) :
    ∃ trace r, Runs (swapAndCycle node rules version swaps) trace (.ok r) ∧
      Consistent faults trace ∧ .ssh (.node node) (.swap swaps) ∈ invocations trace := by
  let swapped := exitWith (decide ((swapParts swaps).length ≤ faults.partsDone))
  have hmarker : ∃ trace marker, Runs (updateMarker node version) trace (.ok marker) ∧
      Consistent faults trace := by
    unfold updateMarker
    split
    · exact ⟨[], _, .done _, by simp [Consistent]⟩
    · split
      · exact ⟨[], _, .done _, by simp [Consistent]⟩
      · refine ⟨_, _, runs_command.mpr ⟨.ok (exitWith faults.markerWritten), rfl, rfl⟩, ?_⟩
        intro event he
        rw [List.mem_singleton] at he
        subst he
        exact ⟨_, rfl, exitWith_ok _⟩
  obtain ⟨markTrace, marker, hmarker, hmarked⟩ := hmarker
  have hswap : Runs (atomicSwap node swaps)
      [⟨.runner (.ssh (.node node) (.swap swaps)), .ok swapped⟩] (.ok _) :=
    runs_command.mpr ⟨.ok swapped, rfl, rfl⟩
  have hanswer : faults.Answers ⟨.runner (.ssh (.node node) (.swap swaps)), .ok swapped⟩ := by
    refine ⟨swapped, rfl, ?_⟩
    rw [exitWith_ok]
    exact decide_eq_true_iff
  have hconsistent : ∀ rest, Consistent faults rest → Consistent faults
      (⟨.runner (.ssh (.node node) (.swap swaps)), .ok swapped⟩ :: (markTrace ++ rest)) :=
    fun rest hrest => List.forall_mem_cons.mpr ⟨hanswer, fun event he =>
      (List.mem_append.mp he).elim (hmarked event) (hrest event)⟩
  unfold swapAndCycle
  split
  · have hexit : Runs (validatorSafeExit node rules.requireLeaderWindowMinutes)
        [⟨.runner (.ssh (.node node) (safeExitCommand node rules.requireLeaderWindowMinutes
          maxDelinquentStake)), .ok (exitWith true)⟩] (.ok _) :=
      runs_command.mpr ⟨.ok (exitWith true), rfl, rfl⟩
    refine ⟨_, _, runs_bind_ok_iff.mpr ⟨_, _, _, hswap, runs_bind_ok_iff.mpr ⟨_, _, _, hmarker,
      runs_bind_ok_iff.mpr ⟨_, [], _, hexit, .done _, rfl⟩, rfl⟩, rfl⟩, hconsistent _ ?_, by simp⟩
    simp [Consistent, NodeFaults.Answers, safeExitCommand]
  · have hunit : ∀ verb, Runs (unitAction node verb)
        [⟨.runner (.ssh (.node node) (systemctl node verb)), .ok (exitWith true)⟩] (.ok _) :=
      fun verb => runs_command.mpr ⟨.ok (exitWith true), rfl, rfl⟩
    refine ⟨_, _, runs_bind_ok_iff.mpr ⟨_, _, _, hunit "stop", runs_bind_ok_iff.mpr
      ⟨_, _, _, hswap, runs_bind_ok_iff.mpr ⟨_, _, _, hmarker, runs_bind_ok_iff.mpr
      ⟨_, [], _, hunit "start", .done _, rfl⟩, rfl⟩, rfl⟩, rfl⟩, ?_, by simp⟩
    refine List.forall_mem_cons.mpr ⟨trivial, hconsistent _ ?_⟩
    simp [Consistent, NodeFaults.Answers, systemctl]

/-- Under the faults, some run sends `i`. -/
def CanSend (faults : NodeFaults) (i : Invocation) (p : OpsProgram α) : Prop :=
  ∃ trace result, Runs p trace result ∧ Consistent faults trace ∧ i ∈ invocations trace

theorem CanSend.bind {i : Invocation} {p : OpsProgram α} {f : α → OpsProgram β}
    (hp : CanSend faults i p)
    (hf : ∀ a, (f a).AllCalls (OpsEffect.Sends fun i => i.disturbs = false)) :
    CanSend faults i (p >>= f) := by
  obtain ⟨trace, result, h, hc, hi⟩ := hp
  cases result with
  | error e => exact ⟨trace, .error e, runs_bind_iff.mpr (.inr ⟨e, h, rfl⟩), hc, hi⟩
  | ok a =>
      obtain ⟨rest, result, hrest⟩ := exists_runs (f a)
      refine ⟨trace ++ rest, result, runs_bind_iff.mpr (.inl ⟨_, _, a, h, hrest, rfl⟩), ?_, ?_⟩
      · exact fun event he => (List.mem_append.mp he).elim (hc event)
          (consistent_of_calm (hf a) hrest event)
      · rw [invocations_append]
        exact List.mem_append_left _ hi

theorem CanSend.after {i : Invocation} {p : OpsProgram α} {f : α → OpsProgram β}
    {trace : List OpsEvent} {a : α}
    (hp : p.AllCalls (OpsEffect.Sends fun i => i.disturbs = false)) (h : Runs p trace (.ok a))
    (hf : CanSend faults i (f a)) : CanSend faults i (p >>= f) := by
  obtain ⟨rest, result, hrest, hc, hi⟩ := hf
  refine ⟨trace ++ rest, result, runs_bind_iff.mpr (.inl ⟨_, _, a, h, hrest, rfl⟩), ?_, ?_⟩
  · exact fun event he => (List.mem_append.mp he).elim (consistent_of_calm hp h event) (hc event)
  · rw [invocations_append]
    exact List.mem_append_right _ hi

/-- An upgrade that was planned as allowed reaches its swap in some run, whatever the
faults. -/
theorem executeUpgrade_canSend_swap {fleet : Fleet} {nodeName clusterName : String}
    {cluster : Cluster} (hf : fleet.findNode nodeName = some (clusterName, cluster, node))
    (version : String) (policy : Policy) (audit : Bool) (maxLag : Int) (forceBuild : Bool)
    (hallowed : (gate (planRequest fleet clusterName cluster node nodeName
      (policy.forCluster clusterName) version) false).allowed = true) (faults : NodeFaults) :
    CanSend faults (.ssh (.node node) (.swap (upgradeSwaps cluster node)))
      (executeUpgrade fleet nodeName version true policy audit maxLag forceBuild) := by
  obtain ⟨builder, hb⟩ := Option.isSome_iff_exists.mp (planRequest_allowed hallowed).2.1
  obtain ⟨⟨install, hi⟩, _⟩ := install_of_builderOf hb
  obtain ⟨inspected, before, hbefore, hreachable, hpcts⟩ := runs_inspectNode node
  obtain ⟨built, build, hbuild, hbuildOk, hhashed⟩ :=
    runs_buildArtifacts_hashed (.builder builder) install version forceBuild
  obtain ⟨delivered, dist, hdist, hdistOk⟩ :=
    runs_distribute_hashed (.builder builder) node hhashed
  have hswaps : dist.swaps = upgradeSwaps cluster node := by
    rw [(runs_distribute hdist hdistOk).2.2, (runs_buildArtifacts hbuild hbuildOk).1]
    simp only [upgradeSwaps, hi]
  obtain ⟨cycled, r, hcycle, hconsistent, hsent⟩ := runs_swapAndCycle_faults
    faults node (policy.forCluster clusterName) version dist.swaps
  rw [hswaps] at hsent
  have hopens : (upgradeRequest fleet clusterName cluster node nodeName
      (policy.forCluster clusterName) version before []).Opens true :=
    upgradeRequest_opens_of_planned hallowed hreachable (diskFreeOk_nil _)
  rw [executeUpgrade, hf]
  refine CanSend.after calm_inspectNode hbefore (CanSend.after trivial
    (runs_ofExcept_iff.mpr ⟨rfl, hpcts.symm⟩) ?_)
  rw [gated, if_pos hopens]
  refine CanSend.bind ?_ fun _ => allCalls_recordOps_pure ..
  simp only [upgradeWith, hi, hb]
  refine CanSend.after (AllCalls.calm (quiet_buildArtifacts ..)) hbuild ?_
  rw [if_pos hbuildOk]
  refine CanSend.after (calm_distribute ..) hdist ?_
  rw [if_pos hdistOk, map_eq_bind]
  refine CanSend.bind (CanSend.bind ⟨cycled, _, hcycle, hconsistent, hsent⟩ fun _ => ?_)
    fun _ => trivial
  exact (allCalls_waitForCatchup ..).bind fun catchup => calm_inspectNode.bind fun _ => trivial

/-! ## When an upgrade is never mixed -/

theorem not_launches_of_idle_split {before after : List OpsEvent} {event : OpsEvent}
    (h : Idle (before ++ event :: after)) {i : Invocation} (hop : event.op = .runner i) :
    i.launches = false := by
  refine not_launches_of_idle (h i ?_)
  rw [mem_invocations_iff]
  exact ⟨event, by simp, hop⟩

theorem neverMixed_of_idle {trace : List OpsEvent} {result : Except Exn α} (h : Idle trace) :
    NeverMixed faults node swaps trace result := by
  constructor
  · rintro before event after i rfl hop hlaunches
    rw [not_launches_of_idle_split h hop] at hlaunches
    cases hlaunches
  · intro r _
    rw [after_idle h]
    exact ⟨.old, fun _ _ => rfl, fun _ => rfl⟩

/-- A trace has one place for its launch. -/
theorem split_unique {before before' after after' : List OpsEvent} {event event' : OpsEvent}
    {i : Invocation} (h : before ++ event :: after = before' ++ event' :: after')
    (hno : ∀ i ∈ invocations (before ++ after), i.launches = false)
    (hop : event'.op = .runner i) (hlaunches : i.launches = true) : before = before' := by
  have hmem : event' ∈ before ++ after → False := fun he => by
    rw [hno i (mem_invocations_iff.mpr ⟨event', he, hop⟩)] at hlaunches
    cases hlaunches
  obtain ⟨c, rfl, hc⟩ | ⟨c, rfl, hc⟩ := List.append_eq_append_iff.mp h
  · cases c with
    | nil => simp
    | cons first c =>
        obtain ⟨-, rfl⟩ := List.cons.inj hc
        exact (hmem (by simp)).elim
  · cases c with
    | nil => simp
    | cons first c =>
        obtain ⟨rfl, -⟩ := List.cons.inj hc
        exact (hmem (by simp)).elim

theorem neverMixed_iff_of_launched {trace : List OpsEvent} {result : Except Exn α}
    (h : Launched faults node swaps trace) :
    NeverMixed faults node swaps trace result ↔
      (oldFiles.installed faults node swaps).Whole node swaps := by
  obtain ⟨before, event, after, rfl, ⟨i, hop, hlaunches⟩, hno, _, hstate⟩ := h
  constructor
  · intro hmixed
    have hwhole := hmixed.1 before event after i rfl hop hlaunches
    rwa [(hstate oldFiles).1] at hwhole
  · intro hwhole
    constructor
    · intro before' event' after' i' htrace hop' hlaunches'
      rw [← split_unique htrace hno hop' hlaunches', (hstate oldFiles).1]
      exact hwhole
    · intro r _
      rw [(hstate oldFiles).2]
      exact hwhole

theorem upgradeSwaps_ne_nil {cluster : Cluster} {install : InstallConfig}
    (hi : cluster.install = some install) : upgradeSwaps cluster node ≠ [] := by
  have hdest : (swapFor node "agave-validator").isSome = true := by
    simp [swapFor, destFor, agaveBins, geyserLibName]
  obtain ⟨swap, hswap⟩ := Option.isSome_iff_exists.mp hdest
  refine List.ne_nil_of_mem (a := swap) ?_
  simp only [upgradeSwaps, hi]
  exact List.mem_filterMap.mpr ⟨"agave-validator", by simp [artifactNames, agaveBins], hswap⟩

/-- Faults that are not clean show in some run of an allowed upgrade. -/
theorem executeUpgrade_mixes {fleet : Fleet} {nodeName clusterName : String}
    {cluster : Cluster} (hf : fleet.findNode nodeName = some (clusterName, cluster, node))
    (version : String) (policy : Policy) (audit : Bool) (maxLag : Int) (forceBuild : Bool)
    (hallowed : (gate (planRequest fleet clusterName cluster node nodeName
      (policy.forCluster clusterName) version) false).allowed = true)
    (hclean : ¬ faults.Clean node (upgradeSwaps cluster node)) :
    ∃ trace result,
      Runs (executeUpgrade fleet nodeName version true policy audit maxLag forceBuild) trace
        result ∧ Consistent faults trace ∧
      ¬ NeverMixed faults node (upgradeSwaps cluster node) trace result := by
  obtain ⟨trace, result, hrun, hconsistent, hsent⟩ :=
    executeUpgrade_canSend_swap hf version policy audit maxLag forceBuild hallowed faults
  refine ⟨trace, result, hrun, hconsistent, fun hmixed => hclean ?_⟩
  obtain hidle | ⟨_, hlaunched⟩ := runs_executeUpgrade_cycles hf hrun hconsistent
  · cases hidle _ hsent
  obtain ⟨builder, hb⟩ := Option.isSome_iff_exists.mp (planRequest_allowed hallowed).2.1
  obtain ⟨⟨install, hi⟩, _⟩ := install_of_builderOf hb
  refine NodeFaults.clean_of_whole (upgradeSwaps_ne_nil hi) ?_
  exact (neverMixed_iff_of_launched hlaunched).mp hmixed

/-- A launch or a return in the middle of a set happens in some run exactly if the upgrade
is allowed and the faults are not clean: part of the files moved, or the files and the
marker apart. -/
theorem upgrade_neverMixed_iff (a : AcceptedFleet) {nodeName clusterName : String}
    {cluster : Cluster} (hf : a.fleet.findNode nodeName = some (clusterName, cluster, node))
    (version : String) (policy : Policy) (audit : Bool) (maxLag : Int) (forceBuild : Bool)
    (faults : NodeFaults) :
    (∀ trace result,
      Runs (executeUpgrade a.fleet nodeName version true policy audit maxLag forceBuild) trace
        result → Consistent faults trace →
      NeverMixed faults node (upgradeSwaps cluster node) trace result) ↔
    (gate (planRequest a.fleet clusterName cluster node nodeName (policy.forCluster clusterName)
      version) false).allowed = false ∨ faults.Clean node (upgradeSwaps cluster node) := by
  constructor
  · intro h
    refine (Bool.eq_false_or_eq_true _).symm.imp_right fun hallowed => ?_
    by_contra hclean
    obtain ⟨trace, result, hrun, hconsistent, hmixed⟩ :=
      executeUpgrade_mixes hf version policy audit maxLag forceBuild hallowed hclean
    exact hmixed (h trace result hrun hconsistent)
  · intro h trace result hrun hconsistent
    obtain hidle | ⟨hallowed, hlaunched⟩ := runs_executeUpgrade_cycles hf hrun hconsistent
    · exact neverMixed_of_idle hidle
    · refine (neverMixed_iff_of_launched hlaunched).mpr (NodeFaults.Clean.whole ?_)
      exact h.resolve_left (by simp [hallowed])

end

theorem built_planned :
    (gate (planRequest builtFleet.fleet "testnet" builtCluster builtNode "rpc-1"
      (Policy.forCluster {} "testnet") "v3.0.1") false).allowed = true := by
  decide

theorem upgrade_neverMixed_iff_built :
    (∀ trace result,
      Runs (executeUpgrade builtFleet.fleet "rpc-1" "v3.0.1" true {} true 2 false) trace result →
        Consistent ⟨6, true, none⟩ trace →
      NeverMixed ⟨6, true, none⟩ builtNode (upgradeSwaps builtCluster builtNode) trace result) ↔
    (gate (planRequest builtFleet.fleet "testnet" builtCluster builtNode "rpc-1"
      (Policy.forCluster {} "testnet") "v3.0.1") false).allowed = false ∨
        NodeFaults.Clean ⟨6, true, none⟩ builtNode (upgradeSwaps builtCluster builtNode) :=
  upgrade_neverMixed_iff builtFleet builtFleet_findNode "v3.0.1" {} true 2 false ⟨6, true, none⟩

/-- The new validator is in place, the next file cannot be moved, and the node is started. -/
theorem upgrade_mixes_built :
    ∃ trace result,
      Runs (executeUpgrade builtFleet.fleet "rpc-1" "v3.0.1" true {} true 2 false) trace result ∧
        Consistent ⟨2, true, none⟩ trace ∧
        ¬ NeverMixed ⟨2, true, none⟩ builtNode (upgradeSwaps builtCluster builtNode) trace result :=
  executeUpgrade_mixes builtFleet_findNode "v3.0.1" {} true 2 false built_planned (by decide)

end Solfleet
