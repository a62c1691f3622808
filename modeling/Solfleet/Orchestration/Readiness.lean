import Solfleet.Orchestration.Provisioning
import Solfleet.Orchestration.Rehearsal

/-! # What a start comes after

A provisioning that starts the node has come through every stage before. Some of the
stages report and are not asked: their answers, and the keys that the unit names and
nobody looks for, decide whether the node was ready.
-/

namespace Solfleet

open Interaction Program

/-! ## Milestones -/

/-- The commands a start has to come after, and the start. -/
inductive Milestone where
  | user
  | system
  | swap
  | unit
  | key
  | start
  deriving DecidableEq

def Command.milestone : Command → Option Milestone
  | .ensureUser _ => some .user
  | .applySystem .. => some .system
  | .swap _ => some .swap
  | .installUnit .. => some .unit
  | .testPresent _ => some .key
  | .systemctl _ verb _ => if verb = "start" then some .start else none
  | _ => none

def Invocation.milestone : Invocation → Option Milestone
  | .ssh _ command => command.milestone
  | .scpFrom .. => none
  | .scpTo .. => none

/-- The answers to the commands of one kind, in order. -/
def milestoneAnswers (m : Milestone) (trace : List OpsEvent) : List (Except Exn CommandResult) :=
  trace.filterMap fun event =>
    match event with
    | ⟨.runner invocation, answer⟩ => if invocation.milestone = some m then some answer else none
    | _ => none

/-- The start command was sent. -/
def Starts (trace : List OpsEvent) : Prop := milestoneAnswers .start trace ≠ []

theorem not_starts_nil {trace : List OpsEvent} (h : trace = []) : ¬ Starts trace :=
  h ▸ fun hs => hs rfl

section Milestones

variable {m : Milestone}

@[simp] theorem milestoneAnswers_nil : milestoneAnswers m [] = [] := rfl

@[simp] theorem milestoneAnswers_append (xs ys : List OpsEvent) :
    milestoneAnswers m (xs ++ ys) = milestoneAnswers m xs ++ milestoneAnswers m ys :=
  List.filterMap_append

theorem milestoneAnswers_single (invocation : Invocation) (answer : Except Exn CommandResult) :
    milestoneAnswers m [⟨.runner invocation, answer⟩] =
      if invocation.milestone = some m then [answer] else [] := by
  simp only [milestoneAnswers, List.filterMap_cons, List.filterMap_nil]
  split <;> simp_all

theorem mem_milestoneAnswers {trace : List OpsEvent} {invocation : Invocation}
    {answer : Except Exn CommandResult} (h : ⟨.runner invocation, answer⟩ ∈ trace)
    (hm : invocation.milestone = some m) : answer ∈ milestoneAnswers m trace :=
  List.mem_filterMap.mpr ⟨_, h, if_pos hm⟩

theorem milestoneAnswers_of_allCalls {α : Type} {p : OpsProgram α} {trace : List OpsEvent}
    {result : Except Exn α} (hp : p.AllCalls (OpsEffect.Sends fun i => i.milestone ≠ some m))
    (h : Runs p trace result) : milestoneAnswers m trace = [] := by
  refine List.filterMap_eq_nil_iff.mpr fun event he => ?_
  obtain ⟨op, answer⟩ := event
  have hop := h.allCalls hp _ he
  cases op with
  | runner invocation => exact if_neg (hop invocation rfl)
  | _ => rfl

end Milestones

/-! ## Readiness -/

/-- The events are a whole run of a stage that reported success. -/
def StageOk {α : Type} (p : OpsProgram α) (ok : α → Bool) (events : List OpsEvent) : Prop :=
  ∃ a, Runs p events (.ok a) ∧ ok a = true

/-- The host was asked for the file and has it. -/
def PresentOnHost (node : Node) (path : String) (before : List OpsEvent) : Prop :=
  ∃ r, ⟨.runner (.ssh (.node node) (.testPresent path)), .ok r⟩ ∈ before ∧ isPresent r = true

def keypairFlags : List String := ["--identity", "--vote-account"]

/-- The values of the flags on a command line: the word after a flag, or what follows its `=`. -/
def flagValues (flags : List String) : List String → List String
  | [] => []
  | word :: rest =>
      (if word ∈ flags then rest.take 1
      else
        match Text.partition? '=' word with
        | none => []
        | some (flag, value) => if flag ∈ flags then [value] else []) ++
      flagValues flags rest

/-- The keypairs the unit passes to the validator. -/
def passedKeypairs (node : Node) (cluster : Cluster) : List String :=
  flagValues keypairFlags ((unitArgs node cluster).flatMap Text.split)

/-- The artifacts were built, what was built was distributed, and what was distributed was
swapped in. -/
inductive SoftwareOk (fleet : Fleet) (cluster : Cluster) (node : Node) (targetVersion : String) :
    List OpsEvent → Prop
  | intro {builder : BuilderHost} {install : InstallConfig} {build : BuildResult}
      {dist : Distribution} {built distributed swapped : List OpsEvent}
      (hbuilder : builderOf fleet cluster = some builder)
      (hinstall : cluster.install = some install)
      (hbuild : Runs (buildArtifacts (.builder builder) install targetVersion false) built
        (.ok build) ∧ build.ok = true)
      (hdist : Runs (distribute (.builder builder) node build.artifacts) distributed
        (.ok dist) ∧ dist.ok = true)
      (hswap : StageOk (atomicSwap node dist.swaps) (·.ok) swapped) :
      SoftwareOk fleet cluster node targetVersion (built ++ (distributed ++ swapped))

/-- The stages before the start, each right after the other, all reported success. -/
inductive StagesOk (fleet : Fleet) (cluster : Cluster) (node : Node) (targetVersion : String)
    (allowFormat : Finset String) : List OpsEvent → Prop
  | intro {prepared tuned disked software installed : List OpsEvent}
      (huser : StageOk (ensureUser node) (·.ok) prepared)
      (hsystem : StageOk (applySystem node) (·.ok) tuned)
      (hdisks : StageOk (each node.disks (setupDisk node allowFormat)) (·.all DiskSetup.ok) disked)
      (hsoftware : SoftwareOk fleet cluster node targetVersion software)
      (hunit : StageOk (installUnit node (renderUnit node cluster)) (·.ok) installed) :
      StagesOk fleet cluster node targetVersion allowFormat
        (prepared ++ (tuned ++ (disked ++ (software ++ installed))))

/-- Every stage before the start reported success, and the host has every key of the unit. -/
structure ReadyToStart (fleet : Fleet) (cluster : Cluster) (node : Node) (targetVersion : String)
    (allowFormat : Finset String) (before : List OpsEvent) : Prop where
  stages : ∃ events, events <:+: before ∧
    StagesOk fleet cluster node targetVersion allowFormat events
  keys : ∀ path ∈ passedKeypairs node cluster, PresentOnHost node path before

/-- A start is sent to a ready node only. -/
def StartsReady (fleet : Fleet) (cluster : Cluster) (node : Node) (targetVersion : String)
    (allowFormat : Finset String) (trace : List OpsEvent) : Prop :=
  Along (fun before (event : OpsEvent) => ∀ (invocation : Invocation) answer,
    event = ⟨.runner invocation, answer⟩ → invocation.milestone = some .start →
      ReadyToStart fleet cluster node targetVersion allowFormat before) trace

/-- The commands whose reports nothing looks at before the start. -/
def uncheckedMilestones : List Milestone := [.user, .system, .swap, .unit]

def UncheckedSucceed (trace : List OpsEvent) : Prop :=
  ∀ m ∈ uncheckedMilestones, ∀ answer ∈ milestoneAnswers m trace,
    ∃ r, answer = .ok r ∧ r.ok = true

/-- The unit names no key but the ones a provisioning looks for. -/
def KeysLookedFor (node : Node) (cluster : Cluster) : Prop :=
  ∀ path ∈ passedKeypairs node cluster, path = node.service.identityKeypair ∨
    (isVoting node = true ∧ path = node.service.voteAccountKeypair.getD "")

instance (node : Node) (cluster : Cluster) : Decidable (KeysLookedFor node cluster) :=
  inferInstanceAs (Decidable (∀ path ∈ passedKeypairs node cluster, _))

/-- The unit of a node with the role `rpc` names its vote account, and the role alone decides
that nobody looks for it. -/
example : ¬ KeysLookedFor
    { builtNode with
      launch := { noVoting := false }
      service := { voteAccountKeypair := some "/etc/solana-validator/vote.json" } }
    builtCluster := by decide +kernel

/-! ## Stages that are one command -/

section Single

variable {α : Type} {m : Milestone} {target : SSHTarget} {command : Command} {r : CommandResult}
  {before events : List OpsEvent} {f : CommandResult → α} {ok : α → Bool}

theorem stageOk_command_iff (hok : ∀ r, ok (f r) = r.ok) :
    StageOk (runOn target command >>= fun r => pure (f r)) ok events ↔
      ∃ r, events = [⟨.runner (.ssh target command), .ok r⟩] ∧ r.ok = true := by
  constructor
  · rintro ⟨a, hrun, ha⟩
    obtain ⟨answer, rfl, hresult⟩ := runs_command.mp hrun
    cases answer with
    | error e => cases hresult
    | ok r =>
        obtain rfl : a = f r := Except.ok.inj hresult
        exact ⟨r, rfl, hok r ▸ ha⟩
  · rintro ⟨r, rfl, hr⟩
    exact ⟨f r, runs_command.mpr ⟨_, rfl, rfl⟩, (hok r).trans hr⟩

theorem stageOk_command (hok : ∀ r, ok (f r) = r.ok) (hr : r.ok = true) :
    StageOk (runOn target command >>= fun r => pure (f r)) ok
      [⟨.runner (.ssh target command), .ok r⟩] :=
  (stageOk_command_iff hok).mpr ⟨r, rfl, hr⟩

theorem ok_of_stageOk (honly : milestoneAnswers m before = [.ok r])
    (hstage : StageOk (runOn target command >>= fun r => pure (f r)) ok events)
    (hin : events ⊆ before) (hm : command.milestone = some m) (hok : ∀ r, ok (f r) = r.ok) :
    r.ok = true := by
  obtain ⟨r', rfl, hr'⟩ := (stageOk_command_iff hok).mp hstage
  have hanswer := mem_milestoneAnswers (m := m) (hin (List.mem_singleton_self _)) hm
  rw [honly, List.mem_singleton] at hanswer
  rw [← Except.ok.inj hanswer]
  exact hr'

end Single

/-! ## Runs that start the node -/

theorem runs_bind_starts {α β : Type} {p : OpsProgram α} {f : α → OpsProgram β}
    {trace : List OpsEvent} {result : Except Exn β}
    (hp : p.AllCalls (OpsEffect.Sends fun i => i.milestone ≠ some .start))
    (h : Runs (p >>= f) trace result) (hs : Starts trace) :
    ∃ first rest a, Runs p first (.ok a) ∧ Runs (f a) rest result ∧ trace = first ++ rest ∧
      Starts rest := by
  obtain ⟨first, rest, a, hfirst, hrest, rfl⟩ | ⟨e, herror, _⟩ := runs_bind_iff.mp h
  · refine ⟨first, rest, a, hfirst, hrest, rfl, ?_⟩
    rw [Starts, milestoneAnswers_append, milestoneAnswers_of_allCalls hp hfirst] at hs
    exact hs
  · exact (hs (milestoneAnswers_of_allCalls hp herror)).elim

theorem runs_command_starts {α β : Type} {target : SSHTarget} {command : Command}
    {g : CommandResult → α} {f : α → OpsProgram β} {trace : List OpsEvent} {result : Except Exn β}
    (hm : command.milestone ≠ some .start)
    (h : Runs ((runOn target command >>= fun r => pure (g r)) >>= f) trace result)
    (hs : Starts trace) :
    ∃ r rest, trace = ⟨.runner (.ssh target command), .ok r⟩ :: rest ∧
      Runs (f (g r)) rest result ∧ Starts rest := by
  have hcalls : (runOn target command >>= fun r => pure (g r)).AllCalls
      (OpsEffect.Sends fun i => i.milestone ≠ some .start) :=
    AllCalls.bind (allCalls_runOn hm) fun _ => trivial
  obtain ⟨first, rest, a, hfirst, hrest, rfl, hstarts⟩ := runs_bind_starts hcalls h hs
  obtain ⟨answer, rfl, hresult⟩ := runs_command.mp hfirst
  cases answer with
  | error e => cases hresult
  | ok r =>
      obtain rfl := Except.ok.inj hresult
      exact ⟨r, rest, rfl, hrest, hstarts⟩

/-- A program that sends none of these commands. -/
def Uneventful {α : Type} (p : OpsProgram α) : Prop :=
  p.AllCalls (OpsEffect.Sends fun i => i.milestone = none)

theorem Uneventful.never {α : Type} {p : OpsProgram α} (hp : Uneventful p) (m : Milestone) :
    p.AllCalls (OpsEffect.Sends fun i => i.milestone ≠ some m) :=
  hp.mono fun op hop invocation hi => by
    have hnone : invocation.milestone = none := hop invocation hi
    simp [hnone]

theorem Uneventful.answers {α : Type} {p : OpsProgram α} {trace : List OpsEvent}
    {result : Except Exn α} (hp : Uneventful p) (h : Runs p trace result) (m : Milestone) :
    milestoneAnswers m trace = [] :=
  milestoneAnswers_of_allCalls (hp.never m) h

theorem Uneventful.not_present {α : Type} {p : OpsProgram α} {trace : List OpsEvent}
    {result : Except Exn α} (hp : Uneventful p) (h : Runs p trace result) (node : Node)
    (path : String) : ¬ PresentOnHost node path trace := by
  rintro ⟨r, hmem, _⟩
  have hanswer := mem_milestoneAnswers (m := .key) hmem rfl
  rw [hp.answers h] at hanswer
  cases hanswer

section Presence

variable {node : Node} {path : String}

theorem presentOnHost_append {xs ys : List OpsEvent} :
    PresentOnHost node path (xs ++ ys) ↔
      PresentOnHost node path xs ∨ PresentOnHost node path ys := by
  simp only [PresentOnHost, List.mem_append, or_and_right, exists_or]

theorem not_presentOnHost_single {invocation : Invocation} {answer : Except Exn CommandResult}
    (hm : invocation.milestone ≠ some .key) :
    ¬ PresentOnHost node path [⟨.runner invocation, answer⟩] := by
  rintro ⟨r, hmem, _⟩
  have hanswer := mem_milestoneAnswers (m := .key) hmem rfl
  rw [milestoneAnswers_single, if_neg hm] at hanswer
  cases hanswer

theorem presentOnHost_key {key : String} {r : CommandResult} (hr : isPresent r = true) :
    PresentOnHost node path [⟨.runner (.ssh (.node node) (.testPresent key)), .ok r⟩] ↔
      path = key := by
  constructor
  · rintro ⟨r', hmem, _⟩
    have heq := congrArg Event.op (List.mem_singleton.mp hmem)
    exact Command.testPresent.inj (Invocation.ssh.inj (OpsEffect.runner.inj heq)).2
  · rintro rfl
    exact ⟨r, List.mem_singleton_self _, hr⟩

end Presence

section Start

variable {fleet : Fleet} {cluster : Cluster} {node : Node} {targetVersion : String}
  {allowFormat : Finset String} {maxLag catchupTimeout : Int} {steps : ProvisionSteps}
  {swap : SwapResult} {unit : InstallUnit} {trace : List OpsEvent}
  {result : Except Exn Provisioned}

structure AtStart (node : Node) (start : OpsEvent) (after : List OpsEvent) : Prop where
  start : ∃ answer, start = ⟨.runner (.ssh (.node node) (systemctl node "start")), answer⟩
  after : ∀ m, milestoneAnswers m after = []

theorem runs_provisionStart
    (h : Runs (provisionStart cluster node maxLag catchupTimeout steps swap unit) trace result) :
    ∃ start after, trace = start :: after ∧ AtStart node start after := by
  have hwait : ∀ start : UnitAction, Uneventful (waitForCatchup node cluster.referenceRpc maxLag
      catchupTimeout >>= fun catchup => pure
        ({ steps := { steps with start := some start, catchup := some catchup }
           succeeded := steps.user.ok && steps.system.ok && steps.disks.all DiskSetup.ok &&
             swap.ok && unit.ok && start.ok && catchup.caughtUp } : Provisioned)) :=
    fun _ => (allCalls_waitForCatchup ..).bind fun _ => trivial
  obtain ⟨first, rest, start, hstart, hrest, rfl⟩ | ⟨e, hstart, rfl⟩ := runs_bind_iff.mp h
  · obtain ⟨answer, rfl, _⟩ := runs_command.mp hstart
    exact ⟨_, rest, rfl, ⟨_, rfl⟩, (hwait start).answers hrest⟩
  · obtain ⟨answer, rfl, _⟩ := runs_command.mp hstart
    exact ⟨_, [], rfl, ⟨_, rfl⟩, fun _ => rfl⟩

/-- What is asked about the keys before the start. -/
structure KeysAsked (node : Node) (voting : Prop) (keys : List OpsEvent) : Prop where
  only : ∀ m, m ≠ .key → milestoneAnswers m keys = []
  present : ∀ path, PresentOnHost node path keys ↔
    voting ∧ path = node.service.voteAccountKeypair.getD ""

theorem runs_provisionVoteKey
    (h : Runs (provisionVoteKey cluster node maxLag catchupTimeout steps swap unit) trace result)
    (hs : Starts trace) :
    ∃ keys start after, trace = keys ++ start :: after ∧ AtStart node start after ∧
      KeysAsked node (isVoting node = true) keys := by
  unfold provisionVoteKey at h
  split at h
  case isFalse hvoting =>
    obtain ⟨start, after, rfl, hat⟩ := runs_provisionStart h
    refine ⟨[], start, after, rfl, hat, ⟨fun _ _ => rfl, fun path => ?_⟩⟩
    simp [hvoting, PresentOnHost]
  case isTrue hvoting =>
    unfold checkVoteKey at h
    split at h
    case isFalse =>
      obtain ⟨rfl, _⟩ := runs_pure_iff.mp h
      exact (hs rfl).elim
    case isTrue =>
      obtain ⟨r, rest, rfl, hrest, hstarts⟩ :=
        runs_command_starts (by simp [Command.milestone]) h hs
      dsimp only at hrest
      split at hrest
      case isFalse =>
        obtain ⟨rfl, _⟩ := runs_pure_iff.mp hrest
        exact (hstarts rfl).elim
      case isTrue hpresent =>
        obtain ⟨start, after, rfl, hat⟩ := runs_provisionStart hrest
        refine ⟨[_], start, after, rfl, hat, ⟨fun m hm => ?_, fun path => ?_⟩⟩
        · rw [milestoneAnswers_single]
          exact if_neg fun heq => hm (Option.some.inj heq).symm
        · rw [presentOnHost_key hpresent]
          simp [hvoting]

/-- The keys are asked for after the swap and the unit. -/
theorem runs_provisionService {dist : Distribution}
    (h : Runs (provisionService cluster node maxLag catchupTimeout steps dist) trace result)
    (hs : Starts trace) :
    ∃ swapped installed identity keys start after,
      trace = ⟨.runner (.ssh (.node node) (.swap dist.swaps)), .ok swapped⟩ ::
        ⟨.runner (.ssh (.node node) (.installUnit node.service.unit (renderUnit node cluster))),
          .ok installed⟩ ::
        ⟨.runner (.ssh (.node node) (.testPresent node.service.identityKeypair)), .ok identity⟩ ::
        (keys ++ start :: after) ∧
      isPresent identity = true ∧ AtStart node start after ∧
      KeysAsked node (isVoting node = true) keys := by
  unfold provisionService at h
  obtain ⟨swapped, rest, rfl, h, hs⟩ := runs_command_starts (by simp [Command.milestone]) h hs
  obtain ⟨installed, rest, rfl, h, hs⟩ := runs_command_starts (by simp [Command.milestone]) h hs
  obtain ⟨identity, rest, rfl, h, hs⟩ := runs_command_starts (by simp [Command.milestone]) h hs
  dsimp only at h
  split at h
  case isFalse =>
    obtain ⟨rfl, _⟩ := runs_pure_iff.mp h
    exact (hs rfl).elim
  case isTrue hpresent =>
    obtain ⟨keys, start, after, rfl, hat, hkeys⟩ := runs_provisionVoteKey h hs
    exact ⟨swapped, installed, identity, keys, start, after, rfl, hpresent, hat, hkeys⟩

theorem uneventful_setupDisks : Uneventful (each node.disks (setupDisk node allowFormat)) :=
  AllCalls.each fun _ _ => allCalls_setupDisk rfl rfl rfl rfl

theorem uneventful_buildArtifacts (builder : SSHTarget) (install : InstallConfig) :
    Uneventful (buildArtifacts builder install targetVersion false) :=
  allCalls_buildArtifacts (P := fun i => i.milestone = none) rfl (fun _ _ => rfl) (fun _ _ => rfl) _

theorem uneventful_distribute (builder : SSHTarget) (artifacts : List Artifact) :
    Uneventful (distribute builder node artifacts) :=
  allCalls_distribute (P := fun i => i.milestone = none) (fun _ _ => rfl) (fun _ _ => rfl)
    (fun _ => rfl) _

theorem runs_provisionSoftware_starts {builder : SSHTarget} {install : InstallConfig}
    (h : Runs (provisionSoftware builder install cluster node targetVersion maxLag catchupTimeout
      steps) trace result) (hs : Starts trace) :
    ∃ built build distributed dist rest steps', trace = built ++ (distributed ++ rest) ∧
      Runs (buildArtifacts builder install targetVersion false) built (.ok build) ∧
      build.ok = true ∧
      Runs (distribute builder node build.artifacts) distributed (.ok dist) ∧ dist.ok = true ∧
      Runs (provisionService cluster node maxLag catchupTimeout steps' dist) rest result ∧
      Starts rest := by
  obtain ⟨built, _, build, hbuild, hbuilt, rfl, hs₁⟩ :=
    runs_bind_starts ((uneventful_buildArtifacts _ _).never _) h hs
  dsimp only at hbuilt
  split at hbuilt
  case isFalse => exact (not_starts_nil (runs_pure_iff.mp hbuilt).1 hs₁).elim
  case isTrue hbuildOk =>
    obtain ⟨distributed, rest, dist, hdist, hservice, rfl, hs₂⟩ :=
      runs_bind_starts ((uneventful_distribute _ _).never _) hbuilt hs₁
    split at hservice
    case isFalse => exact (not_starts_nil (runs_pure_iff.mp hservice).1 hs₂).elim
    case isTrue hdistOk =>
      exact ⟨built, build, distributed, dist, rest, _, rfl, hbuild, hbuildOk, hdist, hdistOk,
        hservice, hs₂⟩

structure Installable (fleet : Fleet) (cluster : Cluster) (node : Node) (targetVersion : String)
    (allowFormat : Finset String) (disks built distributed : List OpsEvent) (swaps : List Swap) :
    Prop where
  disks : StageOk (each node.disks (setupDisk node allowFormat)) (·.all DiskSetup.ok) disks
  software : ∃ builder install build dist, builderOf fleet cluster = some builder ∧
    cluster.install = some install ∧
      (Runs (buildArtifacts (.builder builder) install targetVersion false) built (.ok build) ∧
        build.ok = true) ∧
      (Runs (distribute (.builder builder) node build.artifacts) distributed (.ok dist) ∧
        dist.ok = true) ∧
      dist.swaps = swaps

theorem runs_provisionRest_starts
    (h : Runs (provisionRest fleet cluster node targetVersion maxLag catchupTimeout steps) trace
      result) (hs : Starts trace) :
    steps.disks.all DiskSetup.ok = true ∧ ∃ builder install,
      builderOf fleet cluster = some builder ∧ cluster.install = some install ∧
        Runs (provisionSoftware (.builder builder) install cluster node targetVersion maxLag
          catchupTimeout steps) trace result := by
  unfold provisionRest at h
  by_cases hok : steps.disks.all DiskSetup.ok = true
  · rw [if_pos hok] at h
    refine ⟨hok, ?_⟩
    split at h
    · exact (not_starts_nil (runs_raise_iff.mp h).1 hs).elim
    · exact (not_starts_nil (runs_raise_iff.mp h).1 hs).elim
    · exact ⟨_, _, by assumption, by assumption, h⟩
  · rw [if_neg hok] at h
    exact (not_starts_nil (runs_pure_iff.mp h).1 hs).elim

theorem runs_provisionStages_starts
    (h : Runs (provisionStages fleet cluster node targetVersion allowFormat maxLag catchupTimeout)
      trace result) (hs : Starts trace) :
    ∃ user system disks built distributed rest steps dist,
      trace = ⟨.runner (.ssh (.node node) (.ensureUser node.service.runUser)), .ok user⟩ ::
        ⟨.runner (.ssh (.node node) (.applySystem node.system node.service.runUser)), .ok system⟩ ::
        (disks ++ (built ++ (distributed ++ rest))) ∧
      Installable fleet cluster node targetVersion allowFormat disks built distributed dist.swaps ∧
      Runs (provisionService cluster node maxLag catchupTimeout steps dist) rest result ∧
      Starts rest := by
  rw [provisionStages_eq] at h
  simp only [prepareHost, bind_assoc, pure_bind] at h
  obtain ⟨user, _, rfl, huser, hs₁⟩ := runs_command_starts (by simp [Command.milestone]) h hs
  obtain ⟨system, _, rfl, hsystem, hs₂⟩ :=
    runs_command_starts (by simp [Command.milestone]) huser hs₁
  obtain ⟨disks, _, setups, hdisks, hrest, rfl, hs₃⟩ :=
    runs_bind_starts (uneventful_setupDisks.never _) hsystem hs₂
  obtain ⟨hok, builder, install, hbuilder, hinstall, hsoftware⟩ :=
    runs_provisionRest_starts hrest hs₃
  obtain ⟨built, build, distributed, dist, rest, steps, rfl, hbuild, hbuildOk, hdist, hdistOk,
    hservice, hs₄⟩ := runs_provisionSoftware_starts hsoftware hs₃
  exact ⟨user, system, disks, built, distributed, rest, steps, dist, rfl, ⟨⟨setups, hdisks, hok⟩,
    builder, install, build, dist, hbuilder, hinstall, ⟨hbuild, hbuildOk⟩, ⟨hdist, hdistOk⟩, rfl⟩,
    hservice, hs₄⟩

end Start

/-! ## Ready or not -/

theorem milestoneAnswers_of_invocations {trace : List OpsEvent} (h : invocations trace = [])
    (m : Milestone) : milestoneAnswers m trace = [] := by
  refine List.filterMap_eq_nil_iff.mpr fun event he => ?_
  obtain ⟨op, answer⟩ := event
  cases op with
  | runner invocation =>
      have hmem := mem_invocations_iff.mpr ⟨_, he, rfl⟩
      rw [h] at hmem
      cases hmem
  | _ => rfl

section Ready

variable {fleet : Fleet} {nodeName clusterName targetVersion : String} {cluster : Cluster}
  {node : Node} {confirm audit : Bool} {allowFormat : Finset String} {policy : Policy}
  {maxLag catchupTimeout : Int} {trace before : List OpsEvent}

structure StartPath where
  look : Except Exn CommandResult
  user : CommandResult
  system : CommandResult
  disks : List OpsEvent
  built : List OpsEvent
  distributed : List OpsEvent
  swaps : List Swap
  swapped : CommandResult
  installed : CommandResult
  identity : CommandResult
  keys : List OpsEvent

namespace StartPath

def software (p : StartPath) (node : Node) : List OpsEvent :=
  p.built ++ (p.distributed ++ [⟨.runner (.ssh (.node node) (.swap p.swaps)), .ok p.swapped⟩])

def stages (p : StartPath) (cluster : Cluster) (node : Node) : List OpsEvent :=
  [⟨.runner (.ssh (.node node) (.ensureUser node.service.runUser)), .ok p.user⟩] ++
    ([⟨.runner (.ssh (.node node) (.applySystem node.system node.service.runUser)),
      .ok p.system⟩] ++
    (p.disks ++ (p.software node ++
    [⟨.runner (.ssh (.node node) (.installUnit node.service.unit (renderUnit node cluster))),
      .ok p.installed⟩])))

def events (p : StartPath) (cluster : Cluster) (node : Node) : List OpsEvent :=
  [⟨.runner (.ssh (.node node) .preflight), p.look⟩] ++
    (p.stages cluster node ++
    ([⟨.runner (.ssh (.node node) (.testPresent node.service.identityKeypair)),
      .ok p.identity⟩] ++
    p.keys))

variable {p : StartPath}

/-- Between the milestones nothing answers for one. -/
theorem answers (hdisks : ∀ m, milestoneAnswers m p.disks = [])
    (hbuilt : ∀ m, milestoneAnswers m p.built = [])
    (hdistributed : ∀ m, milestoneAnswers m p.distributed = [])
    (hkeys : ∀ m, m ≠ .key → milestoneAnswers m p.keys = []) {m : Milestone} (hm : m ≠ .key) :
    milestoneAnswers m (p.events cluster node) =
      (if m = .user then [.ok p.user] else []) ++ ((if m = .system then [.ok p.system] else []) ++
        ((if m = .swap then [.ok p.swapped] else []) ++
          (if m = .unit then [.ok p.installed] else []))) := by
  simp only [events, stages, software, milestoneAnswers_append, milestoneAnswers_single, hdisks,
    hbuilt, hdistributed, hkeys m hm]
  cases m <;> simp_all [Invocation.milestone, Command.milestone]

/-- Besides the identity, only the keys that were asked for are known to be there. -/
theorem present_iff {path : String} (hdisks : ¬ PresentOnHost node path p.disks)
    (hbuilt : ¬ PresentOnHost node path p.built)
    (hdistributed : ¬ PresentOnHost node path p.distributed)
    (hidentity : isPresent p.identity = true) :
    PresentOnHost node path (p.events cluster node) ↔
      path = node.service.identityKeypair ∨ PresentOnHost node path p.keys := by
  have hother : ∀ (command : Command) (answer : Except Exn CommandResult),
      command.milestone ≠ some .key →
        ¬ PresentOnHost node path [⟨.runner (.ssh (.node node) command), answer⟩] :=
    fun _ _ hm => not_presentOnHost_single hm
  simp only [events, stages, software, presentOnHost_append, hdisks, hbuilt, hdistributed,
    presentOnHost_key hidentity, false_or]
  rw [or_iff_right (hother _ _ (by simp [Command.milestone])),
    or_iff_right (hother _ _ (by simp [Command.milestone])),
    or_iff_right (hother _ _ (by simp [Command.milestone])),
    or_iff_right (hother _ _ (by simp [Command.milestone])),
    or_iff_right (hother _ _ (by simp [Command.milestone]))]

end StartPath

structure StartedAfter (fleet : Fleet) (cluster : Cluster) (node : Node) (targetVersion : String)
    (allowFormat : Finset String) (p : StartPath) : Prop where
  installable : Installable fleet cluster node targetVersion allowFormat p.disks p.built
    p.distributed p.swaps
  answers : ∀ m, m ≠ .key → milestoneAnswers m (p.events cluster node) =
    (if m = .user then [.ok p.user] else []) ++ ((if m = .system then [.ok p.system] else []) ++
      ((if m = .swap then [.ok p.swapped] else []) ++
        (if m = .unit then [.ok p.installed] else [])))
  present : ∀ path, PresentOnHost node path (p.events cluster node) ↔
    path = node.service.identityKeypair ∨
      (isVoting node = true ∧ path = node.service.voteAccountKeypair.getD "")

/-- Only the stages of a provisioning start the node. -/
theorem starts_stages {look : Except Exn CommandResult} {stages tail : List OpsEvent}
    (htail : ∀ m, milestoneAnswers m tail = [])
    (hs : Starts (⟨.runner (.ssh (.node node) .preflight), look⟩ :: (stages ++ tail))) :
    Starts stages := by
  have hpre :
      (⟨.runner (.ssh (.node node) .preflight), look⟩ :: (stages ++ tail) : List OpsEvent) =
        [⟨.runner (.ssh (.node node) .preflight), look⟩] ++ stages ++ tail := by simp
  rw [hpre, Starts, milestoneAnswers_append, milestoneAnswers_append, htail,
    milestoneAnswers_single, if_neg (by simp [Invocation.milestone, Command.milestone])] at hs
  simpa [Starts] using hs

theorem runs_provisionNode_starts {result : Except Exn ProvisionResult}
    (hf : fleet.findNode nodeName = some (clusterName, cluster, node))
    (h : Runs (provisionNode fleet nodeName targetVersion confirm allowFormat policy audit maxLag
      catchupTimeout) trace result) (hs : Starts trace) :
    ∃ p start after, trace = StartPath.events p cluster node ++ start :: after ∧
      AtStart node start after ∧ StartedAfter fleet cluster node targetVersion allowFormat p := by
  obtain ⟨look, rest, rfl, hnil | ⟨stages, tail, outcome, rfl, hstages, htail⟩⟩ :=
    runs_provisionNode hf h
  · exact (hs (milestoneAnswers_of_invocations hnil _)).elim
  have htailQuiet := milestoneAnswers_of_invocations htail
  obtain ⟨user, system, disks, built, distributed, service, steps, dist, rfl, hinstallable,
    hservice, hservices⟩ := runs_provisionStages_starts hstages (starts_stages htailQuiet hs)
  obtain ⟨swapped, installed, identity, keys, start, after, rfl, hpresent, hat, hkeys⟩ :=
    runs_provisionService hservice hservices
  obtain ⟨setups, hdisks, _⟩ := hinstallable.disks
  obtain ⟨builder, install, build, dist', _, _, ⟨hbuild, _⟩, ⟨hdist, _⟩, _⟩ :=
    hinstallable.software
  let path : StartPath :=
    { look, user, system, disks, built, distributed, swaps := dist.swaps, swapped, installed
      identity, keys }
  refine ⟨path, start, after ++ tail,
    by simp [path, StartPath.events, StartPath.stages, StartPath.software],
    ⟨hat.start, fun m => ?_⟩, ⟨hinstallable, fun m => ?_, fun key => ?_⟩⟩
  · rw [milestoneAnswers_append, hat.after, htailQuiet]
    rfl
  · exact StartPath.answers (p := path) (uneventful_setupDisks.answers hdisks)
      ((uneventful_buildArtifacts _ _).answers hbuild)
      ((uneventful_distribute _ _).answers hdist) hkeys.only
  · have hpresents : PresentOnHost node key (path.events cluster node) ↔ _ :=
      StartPath.present_iff (p := path) (uneventful_setupDisks.not_present hdisks _ key)
      ((uneventful_buildArtifacts _ _).not_present hbuild _ key)
      ((uneventful_distribute _ _).not_present hdist _ key) hpresent
    exact hpresents.trans (or_congr_right (hkeys.present key))

section After

variable {p : StartPath}

theorem StartedAfter.software
    (h : StartedAfter fleet cluster node targetVersion allowFormat p)
    (hswapped : p.swapped.ok = true) :
    SoftwareOk fleet cluster node targetVersion (p.software node) := by
  obtain ⟨builder, install, build, dist, hbuilder, hinstall, hbuild, hdist, hswaps⟩ :=
    h.installable.software
  refine .intro hbuilder hinstall hbuild hdist ?_
  rw [hswaps]
  exact stageOk_command (fun _ => rfl) hswapped

/-- The run behind the start is ready for it if the reports nobody looked at are good. -/
theorem StartedAfter.stages
    (h : StartedAfter fleet cluster node targetVersion allowFormat p)
    (huser : p.user.ok = true) (hsystem : p.system.ok = true) (hswapped : p.swapped.ok = true)
    (hinstalled : p.installed.ok = true) :
    StagesOk fleet cluster node targetVersion allowFormat (p.stages cluster node) :=
  .intro (stageOk_command (fun _ => rfl) huser) (stageOk_command (fun _ => rfl) hsystem)
    h.installable.disks (h.software hswapped) (stageOk_command (fun _ => rfl) hinstalled)

theorem StartedAfter.of_stagesOk {events : List OpsEvent}
    (h : StartedAfter fleet cluster node targetVersion allowFormat p)
    (hstages : StagesOk fleet cluster node targetVersion allowFormat events)
    (hin : events ⊆ p.events cluster node) :
    p.user.ok = true ∧ p.system.ok = true ∧ p.swapped.ok = true ∧ p.installed.ok = true := by
  obtain ⟨huser, hsystem, _, hsoftware, hunit⟩ := hstages
  obtain ⟨_, _, _, _, hswap⟩ := hsoftware
  simp only [List.append_subset] at hin
  obtain ⟨hprepared, htuned, _, ⟨_, _, hswapped⟩, hinstalled⟩ := hin
  exact ⟨ok_of_stageOk (h.answers .user nofun) huser hprepared rfl fun _ => rfl,
    ok_of_stageOk (h.answers .system nofun) hsystem htuned rfl fun _ => rfl,
    ok_of_stageOk (h.answers .swap nofun) hswap hswapped rfl fun _ => rfl,
    ok_of_stageOk (h.answers .unit nofun) hunit hinstalled rfl fun _ => rfl⟩

theorem StartedAfter.ready_iff
    (h : StartedAfter fleet cluster node targetVersion allowFormat p) :
    ReadyToStart fleet cluster node targetVersion allowFormat (p.events cluster node) ↔
      UncheckedSucceed (p.events cluster node) ∧ KeysLookedFor node cluster := by
  have hunchecked : UncheckedSucceed (p.events cluster node) ↔
      p.user.ok = true ∧ p.system.ok = true ∧ p.swapped.ok = true ∧ p.installed.ok = true := by
    simp [UncheckedSucceed, uncheckedMilestones, h.answers]
  rw [hunchecked]
  constructor
  · rintro ⟨⟨events, hinfix, hstages⟩, hkeys⟩
    refine ⟨h.of_stagesOk hstages hinfix.subset, fun path hpath => ?_⟩
    exact (h.present path).mp (hkeys path hpath)
  · rintro ⟨⟨huser, hsystem, hswapped, hinstalled⟩, hkeys⟩
    refine ⟨⟨_, ?_, h.stages huser hsystem hswapped hinstalled⟩, fun path hpath => ?_⟩
    · exact (List.prefix_append _ _).isInfix.trans (List.suffix_append _ _).isInfix
    · exact (h.present path).mpr (hkeys path hpath)

theorem not_milestone_of_answers {m : Milestone} {invocation : Invocation}
    {answer : Except Exn CommandResult} (hmem : ⟨.runner invocation, answer⟩ ∈ trace)
    (h : milestoneAnswers m trace = []) : invocation.milestone ≠ some m := by
  intro hm
  have hanswer := mem_milestoneAnswers hmem hm
  rw [h] at hanswer
  cases hanswer

/-- The start is the only place where readiness is asked for. -/
theorem StartedAfter.startsReady_iff {start : OpsEvent} {after : List OpsEvent}
    (h : StartedAfter fleet cluster node targetVersion allowFormat p)
    (hat : AtStart node start after) :
    StartsReady fleet cluster node targetVersion allowFormat
        (p.events cluster node ++ start :: after) ↔
      ReadyToStart fleet cluster node targetVersion allowFormat (p.events cluster node) := by
  obtain ⟨answer, rfl⟩ := hat.start
  have hunstarted : milestoneAnswers .start (p.events cluster node) = [] := h.answers _ nofun
  have hbefore : StartsReady fleet cluster node targetVersion allowFormat
      (p.events cluster node) := by
    refine along_of_forall fun event he _ invocation answer heq hm => ?_
    exact (not_milestone_of_answers (heq ▸ he) hunstarted hm).elim
  unfold StartsReady at hbefore ⊢
  rw [along_append_iff, along_cons_iff, List.append_nil]
  constructor
  · rintro ⟨_, hstart, _⟩
    exact hstart _ _ rfl rfl
  · refine fun hready => ⟨hbefore, fun _ _ _ _ => hready, ?_⟩
    refine along_of_forall fun event he _ invocation answer heq hm => ?_
    exact (not_milestone_of_answers (heq ▸ he) (hat.after .start) hm).elim

end After

/-- A run that starts the node starts a ready one exactly if the stages nobody asked
reported success and the unit names no key but those that were looked for. -/
theorem provision_startsReady_iff {result : Except Exn ProvisionResult}
    (hf : fleet.findNode nodeName = some (clusterName, cluster, node))
    (h : Runs (provisionNode fleet nodeName targetVersion confirm allowFormat policy audit maxLag
      catchupTimeout) trace result) (hs : Starts trace) :
    StartsReady fleet cluster node targetVersion allowFormat trace ↔
      UncheckedSucceed trace ∧ KeysLookedFor node cluster := by
  obtain ⟨p, start, after, rfl, hat, hstarted⟩ := runs_provisionNode_starts hf h hs
  rw [hstarted.startsReady_iff hat, hstarted.ready_iff]
  obtain ⟨answer, rfl⟩ := hat.start
  generalize p.events cluster node = before
  have hsame : ∀ m ∈ uncheckedMilestones, milestoneAnswers m (before ++
      ⟨.runner (.ssh (.node node) (systemctl node "start")), answer⟩ :: after) =
      milestoneAnswers m before := by
    intro m hm
    have hsplit :
        before ++ ⟨.runner (.ssh (.node node) (systemctl node "start")), answer⟩ :: after =
          before ++ [⟨.runner (.ssh (.node node) (systemctl node "start")), answer⟩] ++ after := by
      simp
    have hstart : Invocation.milestone (.ssh (.node node) (systemctl node "start")) ≠ some m := by
      simp only [uncheckedMilestones, List.mem_cons, List.not_mem_nil, or_false] at hm
      obtain rfl | rfl | rfl | rfl := hm <;> exact nofun
    rw [hsplit, milestoneAnswers_append, milestoneAnswers_append, hat.after,
      milestoneAnswers_single,
      if_neg hstart, List.append_nil, List.append_nil]
  refine and_congr_left fun _ => ?_
  refine forall₂_congr fun m hm => ?_
  rw [hsame m hm]

end Ready

/-! ## Two hosts -/

/-- A host on which everything succeeds, but creating the user if `userOk` is false. -/
def serving (userOk : Bool) : Handler opsSignature Exn Unit
  | .runner (.ssh _ .preflight), s => (.ok bareHost, s)
  | .runner (.ssh _ (.ensureUser _)), s => (.ok (exitWith userOk), s)
  | .runner (.ssh _ (.sha256sum _)), s => (.ok hashed, s)
  | .runner (.ssh _ (.testPresent _)), s => (.ok ⟨0, "present\n", ""⟩, s)
  | .runner _, s => (.ok silent, s)
  | .mkdtemp _, s => (.ok "/tmp/solfleet-1", s)
  | .sample .., s => (.ok { healthy := some true, lag := some 0 }, s)
  | .leader .., s => (.ok none, s)
  | .sleep _, s => (.ok (), s)
  | .audit _, s => (.ok (), s)

def servingTrace (userOk : Bool) : List OpsEvent :=
  (exec (serving userOk) (provisionNode builtFleet.fleet "rpc-1" "v3.0.1" true ∅ {} true 2 1800)
    ()).trace

theorem runs_serving (userOk : Bool) : ∃ result,
    Runs (provisionNode builtFleet.fleet "rpc-1" "v3.0.1" true ∅ {} true 2 1800)
      (servingTrace userOk) result :=
  ⟨_, exec_runs _ _ _⟩

theorem provision_startsReady_iff_serving :
    StartsReady builtFleet.fleet builtCluster builtNode "v3.0.1" ∅ (servingTrace true) := by
  have hs : Starts (servingTrace true) := by
    unfold Starts
    decide +kernel
  obtain ⟨result, hrun⟩ := runs_serving true
  refine (provision_startsReady_iff builtFleet_findNode hrun hs).mpr ⟨?_, by decide +kernel⟩
  have huser : milestoneAnswers .user (servingTrace true) = [.ok (exitWith true)] := by
    decide +kernel
  have hsystem : milestoneAnswers .system (servingTrace true) = [.ok silent] := by decide +kernel
  have hswap : milestoneAnswers .swap (servingTrace true) = [.ok silent] := by decide +kernel
  have hunit : milestoneAnswers .unit (servingTrace true) = [.ok silent] := by decide +kernel
  simp [UncheckedSucceed, uncheckedMilestones, huser, hsystem, hswap, hunit, exitWith, silent,
    CommandResult.ok]

theorem start_without_user :
    Starts (servingTrace false) ∧
      ¬ StartsReady builtFleet.fleet builtCluster builtNode "v3.0.1" ∅ (servingTrace false) := by
  have hs : Starts (servingTrace false) := by
    unfold Starts
    decide +kernel
  refine ⟨hs, fun hready => ?_⟩
  obtain ⟨result, hrun⟩ := runs_serving false
  obtain ⟨p, start, after, htrace, hat, hstarted⟩ :=
    runs_provisionNode_starts builtFleet_findNode hrun hs
  rw [htrace, hstarted.startsReady_iff hat, hstarted.ready_iff] at hready
  have huser : milestoneAnswers .user (p.events builtCluster builtNode) = [.ok p.user] :=
    hstarted.answers .user nofun
  obtain ⟨answer, rfl⟩ := hat.start
  have hanswers : milestoneAnswers .user (servingTrace false) = [.ok (exitWith false)] := by
    decide +kernel
  have hmem : Except.ok p.user ∈ milestoneAnswers .user (servingTrace false) := by
    rw [htrace, milestoneAnswers_append, huser]
    exact List.mem_append_left _ (List.mem_singleton_self _)
  rw [hanswers, List.mem_singleton] at hmem
  have hok : p.user.ok = true := by
    obtain ⟨r, hr, hok⟩ := hready.1 .user (by decide) (.ok p.user) (by rw [huser]; simp)
    exact Except.ok.inj hr ▸ hok
  rw [Except.ok.inj hmem] at hok
  cases hok

end Solfleet
