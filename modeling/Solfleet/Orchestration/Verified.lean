import Solfleet.Orchestration.Provisioning

/-! # Only verified files are swapped in

Both install paths change a node only after every artifact with a place on it was
pulled, pushed and hashed to what the builder reported, and swap in nothing else.
-/

namespace Solfleet

open Interaction Program

/-! ## The evidence -/

/-- The files of a node are swapped or recorded, or its service is cycled. -/
def Invocation.disturbs : Invocation → Bool
  | .ssh _ (.swap _) => true
  | .ssh _ (.writeMarker ..) => true
  | .ssh _ (.systemctl ..) => true
  | .ssh _ (.safeExit ..) => true
  | _ => false

/-- The builder reported a hash of an artifact; it was pulled and pushed, and the file
beside its destination then hashed the same. -/
def VerifiedFile (builder : SSHTarget) (node : Node) (out name dest : String)
    (trace : List OpsEvent) : Prop :=
  ∃ staging hash reported pull push got,
    (⟨.runner (.ssh builder (.sha256sum (out ++ "/" ++ name))), .ok reported⟩ ::
      pushTrace builder node (out ++ "/" ++ name) (Text.pathJoin staging name) dest pull push
        got).Sublist trace ∧
    pull.ok = true ∧ push.ok = true ∧
    CommandResult.firstWord reported = some hash ∧ CommandResult.firstWord got = some hash

/-- What has to have happened before `i` is sent: every artifact of the build with a
place on the node is verified, no copy failed, and a swap is of such artifacts only. -/
def Evidence (fleet : Fleet) (cluster : Cluster) (node : Node) (version : String)
    (history : List OpsEvent) (i : Invocation) : Prop :=
  ∃ install builder, cluster.install = some install ∧ builderOf fleet cluster = some builder ∧
    (∀ name ∈ artifactNames install, ∀ dest, destFor node name = some dest →
      VerifiedFile (.builder builder) node (outDir install version) name dest history) ∧
    CopiesSucceed history ∧
    ∀ target swaps, i = .ssh target (.swap swaps) → target = .node node ∧
      ∀ swap ∈ swaps, ∃ name ∈ artifactNames install, swapFor node name = some swap

/-- Nothing disturbs the node before the evidence is in. -/
def VerifiedFirst (fleet : Fleet) (cluster : Cluster) (node : Node) (version : String)
    (trace : List OpsEvent) : Prop :=
  ∀ before event after i, trace = before ++ event :: after → event.op = .runner i →
    i.disturbs = true → Evidence fleet cluster node version before i

/-- The same of a single call. -/
def Justified (fleet : Fleet) (cluster : Cluster) (node : Node) (version : String)
    (history : List OpsEvent) (op : OpsEffect) : Prop :=
  op.Sends fun i => i.disturbs = true → Evidence fleet cluster node version history i

section

variable {fleet : Fleet} {cluster : Cluster} {node : Node} {version : String} {α β : Type}

theorem verifiedFirst_of_follows {p : OpsProgram α}
    (hp : p.Follows (Justified fleet cluster node version)) {trace : List OpsEvent}
    {result : Except Exn α} (h : Runs p trace result) :
    VerifiedFirst fleet cluster node version trace :=
  fun _ _ _ i htrace hop hdisturbs => h.follows hp htrace i hop hdisturbs

/-! ## Quiet calls -/

/-- Neither disturbs a node nor copies a file. -/
def Quiet (i : Invocation) : Prop := i.disturbs = false ∧ i.copies = false

theorem Evidence.after {first history : List OpsEvent} {i : Invocation}
    (h : Evidence fleet cluster node version history i) (hfirst : CopiesSucceed first) :
    Evidence fleet cluster node version (first ++ history) i := by
  obtain ⟨install, builder, hi, hb, hverified, hcopies, hswap⟩ := h
  refine ⟨install, builder, hi, hb, fun name hn dest hd => ?_, hfirst.append hcopies, hswap⟩
  obtain ⟨staging, hash, reported, pull, push, got, hsub, hoks⟩ := hverified name hn dest hd
  exact ⟨staging, hash, reported, pull, push, got, hsub.trans (List.sublist_append_right _ _), hoks⟩

theorem follows_of_calm {p : OpsProgram α}
    (hp : p.AllCalls (OpsEffect.Sends fun i => i.disturbs = false)) :
    p.Follows (Justified fleet cluster node version) := by
  refine hp.follows fun history op _ hop i hi hdisturbs => ?_
  rw [hop i hi] at hdisturbs
  cases hdisturbs

theorem AllCalls.calm {p : OpsProgram α} (hp : p.AllCalls (OpsEffect.Sends Quiet)) :
    p.AllCalls (OpsEffect.Sends fun i => i.disturbs = false) :=
  AllCalls.mono hp fun _ hop i hi => (hop i hi).1

/-- What a quiet first half leaves to be shown is the second half alone. -/
theorem follows_after_quiet {p : OpsProgram α} {f : α → OpsProgram β}
    (hp : p.AllCalls (OpsEffect.Sends Quiet))
    (hf : ∀ trace a, Runs p trace (.ok a) → (f a).Follows (Justified fleet cluster node version)) :
    (p >>= f).Follows (Justified fleet cluster node version) := by
  refine Follows.bind (follows_of_calm (AllCalls.calm hp)) fun first a hr => ?_
  refine Follows.mono (hf first a hr) fun history op hop i hi hdisturbs => ?_
  refine (hop i hi hdisturbs).after (CopiesSucceed.of_allCalls (AllCalls.mono hp ?_) hr)
  exact fun _ hop i hi => (hop i hi).2

theorem quiet_buildArtifacts (builder : SSHTarget) (install : InstallConfig) (version : String)
    (force : Bool) :
    (buildArtifacts builder install version force).AllCalls (OpsEffect.Sends Quiet) :=
  allCalls_buildArtifacts ⟨rfl, rfl⟩ (fun _ _ => ⟨rfl, rfl⟩) (fun _ _ => ⟨rfl, rfl⟩) _

theorem calm_distribute (builder : SSHTarget) (node : Node) (artifacts : List Artifact) :
    (distribute builder node artifacts).AllCalls
      (OpsEffect.Sends fun i => i.disturbs = false) :=
  allCalls_distribute (fun _ _ => rfl) (fun _ _ => rfl) (fun _ => rfl) _

theorem quiet_runOn {target : SSHTarget} {command : Command}
    (h : (Invocation.ssh target command).disturbs = false) :
    (runOn target command).AllCalls (OpsEffect.Sends Quiet) :=
  allCalls_runOn ⟨h, rfl⟩

theorem inspectInvocations_quiet {node : Node} : ∀ i ∈ inspectInvocations node, Quiet i :=
  forall_inspectInvocations (fun _ => ⟨rfl, rfl⟩) (fun _ => ⟨rfl, rfl⟩) (fun _ => ⟨rfl, rfl⟩)
    (fun _ => ⟨rfl, rfl⟩)

/-! ## Build, distribute, install -/

/-- What may follow a verified distribution: no copies, and only the swap it prepared. -/
def AfterDelivery (node : Node) (dist : Distribution) : Invocation → Prop
  | .ssh target (.swap swaps) => target = .node node ∧ swaps = dist.swaps
  | .ssh _ _ => True
  | .scpFrom .. => False
  | .scpTo .. => False

theorem AfterDelivery.copies {dist : Distribution} {i : Invocation}
    (h : AfterDelivery node dist i) : i.copies = false := by
  cases i with
  | ssh target command => rfl
  | scpFrom | scpTo => cases h

/-- The build and the distribution of a version, and what is done with them. -/
def deliverThen (builder : SSHTarget) (install : InstallConfig) (node : Node) (version : String)
    (force : Bool) (installed : BuildResult → Distribution → OpsProgram α)
    (notBuilt : BuildResult → α) (notDelivered : BuildResult → Distribution → α) :
    OpsProgram α := do
  let build ← buildArtifacts builder install version force
  if build.ok then do
    let dist ← distribute builder node build.artifacts
    if dist.ok then installed build dist else pure (notDelivered build dist)
  else pure (notBuilt build)

theorem verifiedFile_of_delivered {builder : SSHTarget} {out staging dest : String}
    {artifact : Artifact} {built delivered : List OpsEvent}
    (hreported : Reported builder out artifact built)
    (hdelivered : Delivered builder node staging dest artifact delivered) :
    VerifiedFile builder node out artifact.name dest (built ++ delivered) := by
  obtain ⟨hpath, reported, hmem, hsha⟩ := hreported
  obtain ⟨pull, push, got, hsub, hpull, hpush, hmatch⟩ := hdelivered
  rw [hpath] at hmem hsub
  simp only [shaMatches, Bool.and_eq_true, beq_iff_eq] at hmatch
  obtain ⟨⟨hgot, _⟩, heq⟩ := hmatch
  obtain ⟨hash, hgot⟩ := Option.isSome_iff_exists.mp hgot
  refine ⟨staging, hash, reported, pull, push, got, ?_, hpull, hpush, ?_, hgot⟩
  · exact (List.singleton_sublist.mpr hmem).append hsub
  · rw [← hsha, ← heq, hgot]

theorem follows_deliverThen {builder : BuilderHost} {install : InstallConfig} {force : Bool}
    {installed : BuildResult → Distribution → OpsProgram α} {notBuilt : BuildResult → α}
    {notDelivered : BuildResult → Distribution → α} (hi : cluster.install = some install)
    (hb : builderOf fleet cluster = some builder)
    (hinstalled : ∀ build dist, (installed build dist).AllCalls
      (OpsEffect.Sends (AfterDelivery node dist))) :
    (deliverThen (.builder builder) install node version force installed notBuilt
      notDelivered).Follows (Justified fleet cluster node version) := by
  refine Follows.bind (follows_of_calm (AllCalls.calm (quiet_buildArtifacts ..)))
    fun built build hbuild => ?_
  split
  case isFalse => trivial
  case isTrue hbuildOk =>
  obtain ⟨hnames, hreported⟩ := runs_buildArtifacts hbuild hbuildOk
  refine Follows.bind ?_ fun delivered dist hdist => ?_
  · refine (calm_distribute ..).follows fun history op _ hop i hi hdisturbs => ?_
    rw [hop i hi] at hdisturbs
    cases hdisturbs
  split
  case isFalse => trivial
  case isTrue hdistOk =>
  obtain ⟨hdelivered, hcopies, hswaps⟩ := runs_distribute hdist hdistOk
  refine (hinstalled build dist).follows fun history op hhistory hop i hi' _ => ?_
  rw [← List.append_assoc]
  refine ⟨install, builder, hi, hb, fun name hn dest hd => ?_, ?_, fun target swaps heq => ?_⟩
  · rw [← hnames] at hn
    obtain ⟨artifact, ha, rfl⟩ := List.mem_map.mp hn
    obtain ⟨staging, hash, reported, pull, push, got, hsub, hoks⟩ :=
      verifiedFile_of_delivered (hreported artifact ha) (hdelivered artifact ha dest hd)
    exact ⟨staging, hash, reported, pull, push, got,
      hsub.trans (List.sublist_append_left _ _), hoks⟩
  · refine CopiesSucceed.append (CopiesSucceed.append ?_ hcopies) fun event he i hop hc => ?_
    · refine CopiesSucceed.of_allCalls (AllCalls.mono (quiet_buildArtifacts ..) ?_) hbuild
      exact fun _ hop i hi => (hop i hi).2
    · rw [(hhistory event he i hop).copies] at hc
      cases hc
  · subst heq
    obtain ⟨htarget, rfl⟩ := hop _ hi'
    refine ⟨htarget, fun swap hs => ?_⟩
    rw [hswaps, hnames] at hs
    exact List.mem_filterMap.mp hs

end

/-! ## The two orchestrators -/

section

variable {fleet : Fleet} {cluster : Cluster} {node : Node} {version : String} {α : Type}

/-- Past the gate of either orchestrator the stages come first and the audit entry last. -/
theorem follows_recorded {β : Type} {p : OpsProgram α} {audit : Bool} {event : AuditEvent}
    {g : α → β} (hp : p.Follows (Justified fleet cluster node version)) :
    (do
      let a ← p
      recordOps audit event
      pure (g a) : OpsProgram β).Follows (Justified fleet cluster node version) := by
  exact hp.bind fun first a _ => follows_recordOps_pure audit event (g a)

theorem follows_staged {prepare : OpsProgram (α ⊕ Prepared α)} {confirm audit : Bool}
    (hprepare : prepare.AllCalls (OpsEffect.Sends Quiet))
    (hexecute : ∀ trace p, Runs prepare trace (.ok (.inr p)) →
      ∀ d, (p.execute d).Follows (Justified fleet cluster node version)) :
    (staged prepare confirm audit).Follows (Justified fleet cluster node version) := by
  refine follows_after_quiet hprepare fun trace x hr => ?_
  cases x with
  | inl r => trivial
  | inr p =>
      dsimp only [gated]
      split
      · exact hexecute trace p hr _
      · exact follows_recordOps_pure ..

theorem inspectInvocations_afterDelivery {dist : Distribution} :
    ∀ i ∈ inspectInvocations node, AfterDelivery node dist i :=
  forall_inspectInvocations (fun _ => trivial) (fun _ => trivial) (fun _ => trivial)
    (fun _ => trivial)

/-- A single command and a reading of its result. -/
theorem afterDelivery_runOn {β : Type} {dist : Distribution} {command : Command}
    {f : CommandResult → β} (h : AfterDelivery node dist (.ssh (.node node) command)) :
    (runOn (.node node) command >>= fun r => pure (f r)).AllCalls
      (OpsEffect.Sends (AfterDelivery node dist)) :=
  (allCalls_runOn h).bind fun _ => trivial

theorem afterDelivery_swap {dist : Distribution} :
    (atomicSwap node dist.swaps).AllCalls (OpsEffect.Sends (AfterDelivery node dist)) :=
  afterDelivery_runOn ⟨rfl, rfl⟩

theorem afterDelivery_unitAction {dist : Distribution} (verb : String) :
    (unitAction node verb).AllCalls (OpsEffect.Sends (AfterDelivery node dist)) :=
  afterDelivery_runOn trivial

theorem afterDelivery_updateMarker {dist : Distribution} (version : String) :
    (updateMarker node version).AllCalls (OpsEffect.Sends (AfterDelivery node dist)) := by
  unfold updateMarker
  split
  · trivial
  · split
    · trivial
    · exact afterDelivery_runOn trivial

theorem afterDelivery_swapAndCycle (rules : PolicyRules) (version : String)
    (dist : Distribution) :
    (swapAndCycle node rules version dist.swaps).AllCalls
      (OpsEffect.Sends (AfterDelivery node dist)) := by
  unfold swapAndCycle
  split
  · refine afterDelivery_swap.bind fun swap => ?_
    refine (afterDelivery_updateMarker version).bind fun marker => ?_
    exact AllCalls.bind (afterDelivery_runOn trivial) fun _ => trivial
  · refine (afterDelivery_unitAction "stop").bind fun stop => ?_
    refine afterDelivery_swap.bind fun swap => ?_
    refine (afterDelivery_updateMarker version).bind fun marker => ?_
    exact (afterDelivery_unitAction "start").bind fun _ => trivial

theorem follows_upgradeWith (rules : PolicyRules) (maxLag : Int) (forceBuild : Bool)
    (d : GateDecision) :
    (upgradeWith fleet cluster node rules version maxLag forceBuild d).Follows
      (Justified fleet cluster node version) := by
  unfold upgradeWith
  split
  · trivial
  · trivial
  case _ install builder hi hb =>
  change (deliverThen (.builder builder) install node version forceBuild
    (fun build dist =>
      UpgradeResult.executed <$> installUpgrade cluster node rules version maxLag d build dist)
    (UpgradeResult.buildFailed d) (UpgradeResult.distributeFailed d)).Follows _
  refine follows_deliverThen hi hb fun build dist => AllCalls.map _ ?_
  refine (afterDelivery_swapAndCycle rules version dist).bind fun cycled => ?_
  refine (allCalls_waitForCatchup ..).bind fun catchup => ?_
  exact (allCalls_inspectNode inspectInvocations_afterDelivery).bind fun _ => trivial

theorem quiet_setupDisk (node : Node) (allowFormat : Finset String) (disk : DiskConfig) :
    (setupDisk node allowFormat disk).AllCalls (OpsEffect.Sends Quiet) :=
  allCalls_setupDisk ⟨rfl, rfl⟩ ⟨rfl, rfl⟩ ⟨rfl, rfl⟩ ⟨rfl, rfl⟩

theorem follows_provisionStages (allowFormat : Finset String) (maxLag catchupTimeout : Int) :
    (provisionStages fleet cluster node version allowFormat maxLag catchupTimeout).Follows
      (Justified fleet cluster node version) := by
  refine follows_after_quiet ((quiet_runOn rfl).bind fun _ => trivial) fun _ user _ => ?_
  refine follows_after_quiet ((quiet_runOn rfl).bind fun _ => trivial) fun _ system _ => ?_
  refine follows_after_quiet (AllCalls.each fun disk _ => quiet_setupDisk node allowFormat disk)
    fun _ disks _ => ?_
  dsimp only
  split
  case isFalse => trivial
  split
  · trivial
  · trivial
  case _ install builder hi hb =>
  exact follows_deliverThen hi hb fun build dist =>
    allCalls_provisionService (P := AfterDelivery node dist) ⟨rfl, rfl⟩ (fun _ _ => trivial) trivial
      (fun _ => trivial) ..

/-- On both install paths, whatever the runner answers: before a swap, a marker or any
cycling of the service, every artifact with a place on the node has been pulled, pushed
and hashed to the builder's own hash, no copy has failed, and what is swapped is such
artifacts only. -/
theorem only_verified_swapped (a : AcceptedFleet) {nodeName clusterName : String}
    (hf : a.fleet.findNode nodeName = some (clusterName, cluster, node)) (version : String)
    (confirm : Bool) (policy : Policy) (audit forceBuild : Bool) (maxLag catchupTimeout : Int)
    (allowFormat : Finset String) :
    (∀ trace result,
      Runs (executeUpgrade a.fleet nodeName version confirm policy audit maxLag forceBuild) trace
        result → VerifiedFirst a.fleet cluster node version trace) ∧
    ∀ trace result,
      Runs (provisionNode a.fleet nodeName version confirm allowFormat policy audit maxLag
        catchupTimeout) trace result → VerifiedFirst a.fleet cluster node version trace := by
  constructor
  · intro trace result h
    rw [executeUpgrade_eq] at h
    refine verifiedFirst_of_follows (follows_staged
      (allCalls_upgradePrepare fun _ _ _ _ => inspectInvocations_quiet) ?_) h
    intro _ p hp d
    obtain ⟨_, _, _, _, _, hf', _, hexecute⟩ := upgradePrepare_inr hp
    obtain ⟨rfl, rfl, rfl⟩ : clusterName = _ ∧ cluster = _ ∧ node = _ := by
      simpa using hf.symm.trans hf'
    rw [hexecute]
    exact follows_recorded (follows_upgradeWith ..)
  · intro trace result h
    rw [provisionNode_eq] at h
    refine verifiedFirst_of_follows (follows_staged
      (allCalls_provisionPrepare fun _ _ _ _ => ⟨rfl, rfl⟩) ?_) h
    intro _ p hp d
    obtain ⟨_, _, _, _, hf', _, hexecute⟩ := provisionPrepare_inr hp
    obtain ⟨rfl, rfl, rfl⟩ : clusterName = _ ∧ cluster = _ ∧ node = _ := by
      simpa using hf.symm.trans hf'
    rw [hexecute]
    exact follows_recorded (follows_provisionStages ..)

theorem only_verified_swapped_built :
    (∀ trace result,
      Runs (executeUpgrade builtFleet.fleet "rpc-1" "v3.0.1" true {} true 2 false) trace result →
        VerifiedFirst builtFleet.fleet builtCluster builtNode "v3.0.1" trace) ∧
    ∀ trace result,
      Runs (provisionNode builtFleet.fleet "rpc-1" "v3.0.1" true ∅ {} true 2 1800) trace result →
        VerifiedFirst builtFleet.fleet builtCluster builtNode "v3.0.1" trace :=
  only_verified_swapped builtFleet builtFleet_findNode "v3.0.1" true {} true false 2 1800 ∅

end

end Solfleet
