import Solfleet.Orchestration.Distribution
import Solfleet.Orchestration.VersionPolicy

/-! # The run of a provisioning

A provisioning looks at the host, passes the gate, prepares the host, sets up its disks
and goes on to the software. The trace falls into these segments, and each command
belongs to one of them.
-/

namespace Solfleet

open Interaction Program

/-! ## Who is called -/

section Calls

variable {P : Invocation → Prop} {node : Node} {cluster : Cluster}

theorem allCalls_unitAction {verb : String} (h : P (.ssh (.node node) (systemctl node verb))) :
    (unitAction node verb).AllCalls (OpsEffect.Sends P) :=
  (allCalls_runOn h).bind fun _ => trivial

theorem allCalls_checkVoteKey (h : ∀ path, P (.ssh (.node node) (.testPresent path))) :
    (checkVoteKey node).AllCalls (OpsEffect.Sends P) := by
  unfold checkVoteKey
  split
  · exact (allCalls_runOn (h _)).bind fun _ => trivial
  · trivial

theorem allCalls_provisionStart (hstart : P (.ssh (.node node) (systemctl node "start")))
    (maxLag catchupTimeout : Int) (steps : ProvisionSteps) (swap : SwapResult)
    (unit : InstallUnit) :
    (provisionStart cluster node maxLag catchupTimeout steps swap unit).AllCalls
      (OpsEffect.Sends P) := by
  refine (allCalls_unitAction hstart).bind fun start => ?_
  exact (allCalls_waitForCatchup ..).bind fun _ => trivial

theorem allCalls_provisionVoteKey (hstart : P (.ssh (.node node) (systemctl node "start")))
    (hkey : ∀ path, P (.ssh (.node node) (.testPresent path))) (maxLag catchupTimeout : Int)
    (steps : ProvisionSteps) (swap : SwapResult) (unit : InstallUnit) :
    (provisionVoteKey cluster node maxLag catchupTimeout steps swap unit).AllCalls
      (OpsEffect.Sends P) := by
  unfold provisionVoteKey
  split
  · refine (allCalls_checkVoteKey hkey).bind fun voteKey => ?_
    dsimp only
    split
    · exact allCalls_provisionStart hstart ..
    · trivial
  · exact allCalls_provisionStart hstart ..

theorem allCalls_provisionService {dist : Distribution}
    (hswap : P (.ssh (.node node) (.swap dist.swaps)))
    (hunit : ∀ unit text, P (.ssh (.node node) (.installUnit unit text)))
    (hstart : P (.ssh (.node node) (systemctl node "start")))
    (hkey : ∀ path, P (.ssh (.node node) (.testPresent path))) (maxLag catchupTimeout : Int)
    (steps : ProvisionSteps) :
    (provisionService cluster node maxLag catchupTimeout steps dist).AllCalls
      (OpsEffect.Sends P) := by
  refine AllCalls.bind ((allCalls_runOn hswap).bind fun _ => trivial) fun swap => ?_
  refine AllCalls.bind ((allCalls_runOn (hunit _ _)).bind fun _ => trivial) fun unit => ?_
  refine AllCalls.bind ((allCalls_runOn (hkey _)).bind fun _ => trivial) fun identity => ?_
  dsimp only
  split
  · exact allCalls_provisionVoteKey hstart hkey ..
  · trivial

/-- The software of a host: build, distribute, install, start. -/
theorem allCalls_provisionSoftware {builder : SSHTarget} {install : InstallConfig}
    (htest : ∀ paths, P (.ssh builder (.testFiles paths)))
    (hbuild : ∀ step, P (.ssh builder (.build step)))
    (hsha : ∀ target path, P (.ssh target (.sha256sum path)))
    (hpull : ∀ remote local', P (.scpFrom builder remote local'))
    (hpush : ∀ local' dest, P (.scpTo (.node node) local' dest))
    (hswap : ∀ swaps, P (.ssh (.node node) (.swap swaps)))
    (hunit : ∀ unit text, P (.ssh (.node node) (.installUnit unit text)))
    (hstart : P (.ssh (.node node) (systemctl node "start")))
    (hkey : ∀ path, P (.ssh (.node node) (.testPresent path))) (targetVersion : String)
    (maxLag catchupTimeout : Int) (steps : ProvisionSteps) :
    (provisionSoftware builder install cluster node targetVersion maxLag catchupTimeout
      steps).AllCalls (OpsEffect.Sends P) := by
  refine AllCalls.bind (allCalls_buildArtifacts (htest _) (fun _ _ => hbuild _)
    (fun _ _ => hsha _ _) _) fun build => ?_
  dsimp only
  split
  · refine (allCalls_distribute hpull hpush (hsha _) _).bind fun dist => ?_
    split
    · exact allCalls_provisionService (hswap _) hunit hstart hkey ..
    · trivial
  · trivial

end Calls

/-! ## Two halves -/

/-- The host before any software: its user, its settings and its disks. -/
def prepareHost (node : Node) (allowFormat : Finset String) : OpsProgram ProvisionSteps := do
  let user ← ensureUser node
  let system ← applySystem node
  let disks ← each node.disks (setupDisk node allowFormat)
  pure { user, system, disks }

/-- What follows the disk stage. -/
def provisionRest (fleet : Fleet) (cluster : Cluster) (node : Node) (targetVersion : String)
    (maxLag catchupTimeout : Int) (steps : ProvisionSteps) : OpsProgram Provisioned :=
  if steps.disks.all DiskSetup.ok then
    match cluster.install, builderOf fleet cluster with
    | none, _ => raise (.attributeError "'NoneType' object has no attribute 'geyser_repo'")
    | some _, none => raise (.attributeError "'NoneType' object has no attribute 'ssh'")
    | some install, some builder =>
        provisionSoftware (.builder builder) install cluster node targetVersion maxLag
          catchupTimeout steps
  else
    pure
      { steps
        succeeded := false
        note := some "disk setup failed; not installing software" }

theorem provisionStages_eq (fleet : Fleet) (cluster : Cluster) (node : Node)
    (targetVersion : String) (allowFormat : Finset String) (maxLag catchupTimeout : Int) :
    provisionStages fleet cluster node targetVersion allowFormat maxLag catchupTimeout =
      prepareHost node allowFormat >>=
        provisionRest fleet cluster node targetVersion maxLag catchupTimeout := by
  simp only [provisionStages, prepareHost, bind_assoc, pure_bind]
  rfl

/-! ## Disk commands -/

/-- The commands that look at a block device before formatting it, and that format it. -/
def Command.formats : Command → Bool
  | .probeDisk _ => true
  | .mkfs .. => true
  | _ => false

def Invocation.formats : Invocation → Bool
  | .ssh _ command => command.formats
  | .scpFrom .. => false
  | .scpTo .. => false

/-- No probe and no format. -/
def Unformatting (trace : List OpsEvent) : Prop := ∀ i ∈ invocations trace, i.formats = false

theorem Unformatting.append {xs ys : List OpsEvent} (hx : Unformatting xs) (hy : Unformatting ys) :
    Unformatting (xs ++ ys) := by
  intro i hi
  rw [invocations_append, List.mem_append] at hi
  exact hi.elim (hx i) (hy i)

theorem Unformatting.of_nil {trace : List OpsEvent} (h : invocations trace = []) :
    Unformatting trace := by
  simp [Unformatting, h]

theorem unformatting_of_allCalls {α : Type} {p : OpsProgram α} {trace : List OpsEvent}
    {result : Except Exn α}
    (hp : p.AllCalls (OpsEffect.Sends fun i => i.formats = false)) (h : Runs p trace result) :
    Unformatting trace :=
  invocations_of_allCalls hp h

theorem unformatting_software (builder : SSHTarget) (install : InstallConfig) (cluster : Cluster)
    (node : Node) (targetVersion : String) (maxLag catchupTimeout : Int) (steps : ProvisionSteps) :
    (provisionSoftware builder install cluster node targetVersion maxLag catchupTimeout
      steps).AllCalls (OpsEffect.Sends fun i => i.formats = false) :=
  allCalls_provisionSoftware (P := fun i => i.formats = false) (fun _ => rfl) (fun _ => rfl)
    (fun _ _ => rfl) (fun _ _ => rfl) (fun _ _ => rfl) (fun _ => rfl) (fun _ _ => rfl) rfl
    (fun _ => rfl) ..

/-! ## Segments -/

section Segments

variable {fleet : Fleet} {nodeName clusterName targetVersion : String} {cluster : Cluster}
  {node : Node} {confirm audit : Bool} {allowFormat : Finset String} {policy : Policy}
  {maxLag catchupTimeout : Int} {trace : List OpsEvent}

/-- Past the gate the stages run, and what surrounds them reaches no host again. -/
theorem runs_provisionNode {result : Except Exn ProvisionResult}
    (hf : fleet.findNode nodeName = some (clusterName, cluster, node))
    (h : Runs (provisionNode fleet nodeName targetVersion confirm allowFormat policy audit maxLag
      catchupTimeout) trace result) :
    ∃ answer rest, trace = ⟨.runner (.ssh (.node node) .preflight), answer⟩ :: rest ∧
      (invocations rest = [] ∨ ∃ stages tail outcome, rest = stages ++ tail ∧
        Runs (provisionStages fleet cluster node targetVersion allowFormat maxLag catchupTimeout)
          stages outcome ∧ invocations tail = []) := by
  rw [provisionNode, hf] at h
  obtain ⟨first, rest, pre, hpre, hgate, rfl⟩ | ⟨e, hpre, rfl⟩ := runs_bind_iff.mp h
  · obtain ⟨look, empty, r, hlook, hread, rfl⟩ := runs_bind_ok_iff.mp hpre
    obtain rfl := runs_runOn_iff.mp hlook
    obtain ⟨rfl, _⟩ := runs_ofExcept_iff.mp hread
    refine ⟨_, rest, rfl, ?_⟩
    obtain ⟨_, hexec⟩ | ⟨_, hnil, _⟩ := runs_gated hgate
    · obtain ⟨stages, tail, outcome, hstages, htail, rfl⟩ | ⟨e, hstages, rfl⟩ :=
        runs_bind_iff.mp hexec
      · refine .inr ⟨stages, tail, _, rfl, hstages, ?_⟩
        exact invocations_eq_nil_of_allCalls (allCalls_recordOps_pure ..) htail
      · exact .inr ⟨rest, [], _, by simp, hstages, rfl⟩
    · exact .inl hnil
  · obtain ⟨look, rest, r, hlook, hread, rfl⟩ | ⟨e', hlook, _⟩ := runs_bind_iff.mp hpre
    · obtain rfl := runs_runOn_iff.mp hlook
      obtain ⟨rfl, _⟩ := runs_ofExcept_iff.mp hread
      exact ⟨_, [], rfl, .inl rfl⟩
    · obtain rfl := runs_runOn_iff.mp hlook
      exact ⟨_, [], rfl, .inl rfl⟩

/-- The stages up to the disks, the disks, and the software. -/
theorem runs_provisionStages {result : Except Exn Provisioned}
    (h : Runs (provisionStages fleet cluster node targetVersion allowFormat maxLag
      catchupTimeout) trace result) :
    ∃ before disks after, trace = before ++ disks ++ after ∧ Unformatting before ∧
      Unformatting after ∧
        (disks = [] ∨ ∃ outcome,
          Runs (each node.disks (setupDisk node allowFormat)) disks outcome) := by
  have huser : (ensureUser node).AllCalls (OpsEffect.Sends fun i => i.formats = false) :=
    AllCalls.bind (allCalls_runOn rfl) fun _ => trivial
  have hsystem : (applySystem node).AllCalls (OpsEffect.Sends fun i => i.formats = false) :=
    AllCalls.bind (allCalls_runOn rfl) fun _ => trivial
  obtain ⟨first, rest, user, hu, hrest, rfl⟩ | ⟨e, hu, rfl⟩ := runs_bind_iff.mp h
  swap
  · exact ⟨trace, [], [], by simp, unformatting_of_allCalls huser hu, .of_nil rfl, .inl rfl⟩
  obtain ⟨second, rest, system, hs, hdisks, rfl⟩ | ⟨e, hs, rfl⟩ := runs_bind_iff.mp hrest
  swap
  · exact ⟨first ++ rest, [], [], by simp,
      (unformatting_of_allCalls huser hu).append (unformatting_of_allCalls hsystem hs),
      .of_nil rfl, .inl rfl⟩
  have hbefore : Unformatting (first ++ second) :=
    (unformatting_of_allCalls huser hu).append (unformatting_of_allCalls hsystem hs)
  obtain ⟨disks, after, setups, hd, hafter, rfl⟩ | ⟨e, hd, rfl⟩ := runs_bind_iff.mp hdisks
  swap
  · exact ⟨first ++ second, rest, [], by simp, hbefore, .of_nil rfl, .inr ⟨_, hd⟩⟩
  refine ⟨first ++ second, disks, after, by simp, hbefore, ?_, .inr ⟨_, hd⟩⟩
  dsimp only at hafter
  split at hafter
  · split at hafter
    · exact .of_nil (by rw [(runs_raise_iff.mp hafter).1]; rfl)
    · exact .of_nil (by rw [(runs_raise_iff.mp hafter).1]; rfl)
    · exact unformatting_of_allCalls (unformatting_software ..) hafter
  · exact .of_nil (by rw [(runs_pure_iff.mp hafter).1]; rfl)

/-- Devices are probed and formatted in the disk segment only. -/
theorem runs_provisionNode_disks {result : Except Exn ProvisionResult}
    (hf : fleet.findNode nodeName = some (clusterName, cluster, node))
    (h : Runs (provisionNode fleet nodeName targetVersion confirm allowFormat policy audit maxLag
      catchupTimeout) trace result) :
    ∃ before disks after, trace = before ++ disks ++ after ∧ Unformatting before ∧
      Unformatting after ∧
        (disks = [] ∨ ∃ outcome,
          Runs (each node.disks (setupDisk node allowFormat)) disks outcome) := by
  obtain ⟨answer, rest, rfl, hnil | ⟨stages, tail, outcome, rfl, hstages, htail⟩⟩ :=
    runs_provisionNode hf h
  · refine ⟨⟨.runner (.ssh (.node node) .preflight), answer⟩ :: rest, [], [], by simp,
      fun i hi => ?_, .of_nil rfl, .inl rfl⟩
    rw [invocations_runner, hnil, List.mem_singleton] at hi
    exact hi ▸ rfl
  · obtain ⟨before, disks, after, rfl, hbefore, hafter, hdisks⟩ := runs_provisionStages hstages
    refine ⟨⟨.runner (.ssh (.node node) .preflight), answer⟩ :: before, disks, after ++ tail,
      by simp, fun i hi => ?_, hafter.append (.of_nil htail), hdisks⟩
    rw [invocations_runner] at hi
    obtain rfl | hi := List.mem_cons.mp hi
    · rfl
    · exact hbefore i hi

/-- On a host that passes the preflight, any run of the stages is one of the whole. -/
theorem runs_provisionNode_of_stages {builder : BuilderHost} {stages : List OpsEvent}
    {outcome : Provisioned} (hf : fleet.findNode nodeName = some (clusterName, cluster, node))
    (hb : builderOf fleet cluster = some builder)
    (h : Runs (provisionStages fleet cluster node targetVersion allowFormat maxLag catchupTimeout)
      stages (.ok outcome)) :
    ∃ tail result, invocations tail = [] ∧
      Runs (provisionNode fleet nodeName targetVersion true allowFormat policy audit maxLag
        catchupTimeout)
        (⟨.runner (.ssh (.node node) .preflight), .ok bareHost⟩ :: (stages ++ tail)) result := by
  obtain ⟨_, hname⟩ := install_of_builderOf hb
  obtain ⟨pre, hpre, hblockers⟩ : ∃ pre, readPreflight bareHost = .ok pre ∧ pre.blockers = [] := by
    have hread := readPreflight_bareHost
    cases hr : readPreflight bareHost with
    | error e => simp [hr, Except.map] at hread
    | ok pre => exact ⟨pre, rfl, by simpa [hr, Except.map] using hread⟩
  have hopens : (provisionRequest fleet clusterName cluster node nodeName targetVersion pre).Opens
      true := provisionRequest_opens.mpr ⟨rfl, hblockers, hname, by simp [hb]⟩
  have haudit : ∃ tail, Runs (recordOps audit ⟨"provision", clusterName, nodeName, .execute, true⟩)
      tail (.ok ()) := by
    cases audit with
    | false => exact ⟨[], runs_pure_iff.mpr ⟨rfl, rfl⟩⟩
    | true => exact ⟨_, runs_perform_iff.mpr rfl⟩
  obtain ⟨tail, htail⟩ := haudit
  refine ⟨tail, .ok (.finished (gate (provisionRequest fleet clusterName cluster node nodeName
    targetVersion pre) true) outcome),
    invocations_eq_nil_of_allCalls (allCalls_recordOps audit _) htail, ?_⟩
  rw [provisionNode, hf]
  refine runs_bind_iff.mpr (.inl ⟨_, stages ++ tail, pre,
    runs_runOn_bind bareHost (runs_ofExcept_iff.mpr ⟨rfl, hpre.symm⟩), ?_, rfl⟩)
  rw [gated, if_pos hopens]
  refine runs_bind_iff.mpr (.inl ⟨stages, tail, outcome, h, ?_, rfl⟩)
  exact runs_bind_iff.mpr (.inl ⟨tail, [], (), htail, runs_pure_iff.mpr ⟨rfl, rfl⟩, by simp⟩)

end Segments

end Solfleet
