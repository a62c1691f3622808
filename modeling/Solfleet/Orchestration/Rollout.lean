import Solfleet.Orchestration.Site

/-! # What a rollout installs

Upgrades of a site one after another, the builds, the copies and the swaps of which break off
anywhere.
-/

namespace Solfleet

open Interaction Program

/-! ## Destinations apart -/

/-- The path is where the host has an artifact. -/
def Fleet.Places (fleet : Fleet) (host path name : String) : Prop :=
  ∃ node ∈ fleet.nodes, node.host = host ∧ destFor node name = some path

/-- The destinations on a host are apart: from each other, from what is staged beside them and
from the version markers. -/
structure Fleet.FilesApart (fleet : Fleet) : Prop where
  name : ∀ {host path name name'}, fleet.Places host path name → fleet.Places host path name' →
    name = name'
  staged : ∀ {host path path' name name'}, fleet.Places host path name →
    fleet.Places host path' name' → path ≠ stagedPath path'
  marker : ∀ {host path name}, fleet.Places host path name → ∀ node ∈ fleet.nodes,
    node.host = host → node.service.versionMarker ≠ some path

/-- Every host, path and artifact that the fleet has. -/
def Fleet.placedFiles (fleet : Fleet) : List (String × String × String) :=
  fleet.nodes.flatMap fun node => (geyserLibName :: agaveBins).filterMap fun name =>
    (destFor node name).map fun path => (node.host, path, name)

theorem Fleet.places_iff {fleet : Fleet} {host path name : String} :
    fleet.Places host path name ↔ (host, path, name) ∈ fleet.placedFiles := by
  simp only [Fleet.placedFiles, List.mem_flatMap, List.mem_filterMap, Option.map_eq_some_iff]
  constructor
  · rintro ⟨node, hnode, rfl, hdest⟩
    refine ⟨node, hnode, name, ?_, path, hdest, rfl⟩
    by_contra hname
    rw [List.mem_cons, not_or] at hname
    rw [destFor, if_neg hname.1, if_neg hname.2] at hdest
    cases hdest
  · rintro ⟨node, hnode, name', -, path', hdest, heq⟩
    cases heq
    exact ⟨node, hnode, rfl, hdest⟩

theorem Fleet.filesApart_iff {fleet : Fleet} : fleet.FilesApart ↔
    (∀ p ∈ fleet.placedFiles, ∀ q ∈ fleet.placedFiles, p.1 = q.1 →
      (p.2.1 = q.2.1 → p.2.2 = q.2.2) ∧ p.2.1 ≠ stagedPath q.2.1) ∧
    ∀ p ∈ fleet.placedFiles, ∀ node ∈ fleet.nodes, node.host = p.1 →
      node.service.versionMarker ≠ some p.2.1 := by
  constructor
  · intro apart
    refine ⟨fun p hp q hq hhost => ?_, fun p hp node hnode hhost => ?_⟩
    · have hp' := Fleet.places_iff.mpr hp
      rw [hhost] at hp'
      have hq' := Fleet.places_iff.mpr hq
      refine ⟨fun hpath => ?_, apart.staged hp' hq'⟩
      rw [hpath] at hp'
      exact apart.name hp' hq'
    · exact apart.marker (Fleet.places_iff.mpr hp) node hnode hhost
  · rintro ⟨hpairs, hmarkers⟩
    refine ⟨fun h h' => ?_, fun h h' => ?_, fun h => ?_⟩
    · exact (hpairs _ (Fleet.places_iff.mp h) _ (Fleet.places_iff.mp h') rfl).1 rfl
    · exact (hpairs _ (Fleet.places_iff.mp h) _ (Fleet.places_iff.mp h') rfl).2
    · exact hmarkers _ (Fleet.places_iff.mp h)

instance (fleet : Fleet) : Decidable fleet.FilesApart := decidable_of_iff' _ Fleet.filesApart_iff

section Stages

variable {C : Type} {sum : Checksum C} {fleet : Fleet} {node : Node}
  {B : (String → BuildHost) → Prop} {base : String → String → Option C}

/-- The destinations hold what they held. -/
def Site.Undisturbed (fleet : Fleet) (B : (String → BuildHost) → Prop)
    (base : String → String → Option C) (s : Site C) : Prop :=
  B s.builders ∧ ∀ host path name, fleet.Places host path name →
    s.files host path = base host path

def OpsEffect.Spares (fleet : Fleet) (op : OpsEffect) : Prop :=
  ¬ op.Builds ∧ ∀ host path name, fleet.Places host path name → ¬ op.Touches host path

theorem OpsEffect.Inert.spares {op : OpsEffect} (h : op.Inert) : op.Spares fleet :=
  ⟨h.1, fun host path _ _ => h.2 host path⟩

theorem undisturbed_of_spares {op : OpsEffect} {s : Site C} (hop : op.Spares fleet)
    (h : s.Undisturbed fleet B base) :
    (siteHandler sum op s).2.Undisturbed fleet B base := by
  refine ⟨?_, fun host path name hplaces => ?_⟩
  · rw [siteHandler_builders hop.1]
    exact h.1
  · rw [siteHandler_files (hop.2 host path name hplaces)]
    exact h.2 host path name hplaces

/-! ## Distributing -/

/-- Beside its destination an artifact is as the builder hashed it. -/
def Site.Hashed (sum : Checksum C) (node : Node) (artifact : Artifact) (s : Site C) : Prop :=
  ∀ dest, destFor node artifact.name = some dest →
    ∃ c, s.files node.host (stagedPath dest) = some c ∧ artifact.sha256 = some (sum.digest c)

theorem triple_distributeArtifact (apart : fleet.FilesApart) (hnode : node ∈ fleet.nodes)
    (builder : SSHTarget) (staging : String) (artifact : Artifact) :
    Triple (siteHandler sum) (Site.Undisturbed fleet B base)
      (distributeArtifact builder node staging artifact)
      (fun entry s => (entry.verified = true → s.Hashed sum node artifact) ∧
        s.Undisturbed fleet B base) (Site.Undisturbed fleet B base) := by
  unfold distributeArtifact
  cases hdest : destFor node artifact.name with
  | none =>
      refine Triple.pure fun s hs => ⟨fun _ dest h => ?_, hs⟩
      rw [hdest] at h
      cases h
  | some dest =>
      have hplaces : fleet.Places node.host dest artifact.name := ⟨node, hnode, rfl, hdest⟩
      have hpull : (OpsEffect.runner (.scpFrom builder artifact.remotePath
          (Text.pathJoin staging artifact.name))).Spares fleet :=
        (inert_runner rfl).spares
      have hpush : (OpsEffect.runner (.scpTo (.node node) (Text.pathJoin staging artifact.name)
          (stagedPath dest))).Spares fleet := by
        refine ⟨?_, fun host path name h => ?_⟩
        · rintro ⟨_, _, h⟩
          cases h
        · rintro ⟨rfl, rfl⟩
          exact apart.staged h hplaces rfl
      refine Triple.bind (Triple.perform (fun s r hs _ => undisturbed_of_spares hpull hs)
        fun s e hs _ => undisturbed_of_spares hpull hs) fun pull => ?_
      refine Triple.bind (Triple.perform (fun s r hs _ => undisturbed_of_spares hpush hs)
        fun s e hs _ => undisturbed_of_spares hpush hs) fun push => ?_
      have hsum : Triple (siteHandler sum) (Site.Undisturbed fleet B base)
          (remoteSha256 (.node node) (stagedPath dest))
          (fun got s => (∀ sha, got = some sha → ∃ c,
            s.files node.host (stagedPath dest) = some c ∧ sha = sum.digest c) ∧
              s.Undisturbed fleet B base) (Site.Undisturbed fleet B base) := by
        refine Triple.map (Triple.perform (fun s r hs hr => ?_) fun s e _ he => by cases he)
        cases hr
        exact ⟨fun sha hsha => printSum_firstWord hsha, hs⟩
      refine hsum.bind fun got => Triple.pure fun s hs => ⟨fun hverified dest' hdest' => ?_, hs.2⟩
      rw [hdest] at hdest'
      cases hdest'
      simp only [DistributeEntry.verified, shaMatches, Bool.and_eq_true, beq_iff_eq] at hverified
      rcases hverified with ⟨-, ⟨hgot, -⟩, heq⟩
      rcases Option.isSome_iff_exists.mp hgot with ⟨sha, hsha⟩
      rcases hs.1 sha hsha with ⟨c, hc, rfl⟩
      exact ⟨c, hc, heq.symm.trans hsha⟩

/-- What is staged beside other destinations leaves a staged file alone. -/
theorem allCalls_distribute_other (apart : fleet.FilesApart) (hnode : node ∈ fleet.nodes)
    {builder : SSHTarget} {staging name dest : String} {artifacts : List Artifact}
    (hdest : destFor node name = some dest) (hne : name ∉ artifacts.map (·.name)) :
    (each artifacts (distributeArtifact builder node staging)).AllCalls
      fun op : OpsEffect => ¬ op.Touches node.host (stagedPath dest) := by
  refine AllCalls.each fun artifact ha => ?_
  unfold distributeArtifact
  cases hother : destFor node artifact.name with
  | none => trivial
  | some dest' =>
      refine AllCalls.bind (allCalls_perform.mpr fun h => h) fun pull => ?_
      refine AllCalls.bind (allCalls_perform.mpr ?_) fun push =>
        AllCalls.bind (AllCalls.map _ (allCalls_perform.mpr fun h => h)) fun got => trivial
      rintro ⟨-, hstaged⟩
      rw [stagedPath_inj] at hstaged
      subst hstaged
      have hplaces : fleet.Places node.host dest name := ⟨node, hnode, rfl, hdest⟩
      have hname : name = artifact.name := apart.name hplaces ⟨node, hnode, rfl, hother⟩
      exact hne (hname ▸ List.mem_map_of_mem ha)

theorem triple_distributeEach (apart : fleet.FilesApart) (hnode : node ∈ fleet.nodes)
    (builder : SSHTarget) (staging : String) {artifacts : List Artifact}
    (hnames : (artifacts.map (·.name)).Nodup) :
    Triple (siteHandler sum) (Site.Undisturbed fleet B base)
      (each artifacts (distributeArtifact builder node staging))
      (fun entries s => (entries.all DistributeEntry.verified = true →
        ∀ artifact ∈ artifacts, s.Hashed sum node artifact) ∧ s.Undisturbed fleet B base)
      (Site.Undisturbed fleet B base) := by
  induction artifacts with
  | nil => exact Triple.pure fun s hs => ⟨fun _ => by simp, hs⟩
  | cons artifact artifacts ih =>
      rw [List.map_cons, List.nodup_cons] at hnames
      rw [each_cons]
      refine (triple_distributeArtifact apart hnode builder staging artifact).bind fun entry => ?_
      -- the file of this artifact is not written again
      have hframe : Triple (siteHandler sum)
          (fun s => s.Undisturbed fleet B base ∧
            (entry.verified = true → s.Hashed sum node artifact)) _ _ _ :=
        (ih hnames.2).frame
          (C := fun op : OpsEffect => ∀ dest, destFor node artifact.name = some dest →
            ¬ op.Touches node.host (stagedPath dest))
          (I := fun s => entry.verified = true → s.Hashed sum node artifact) ?_
          fun op s hop hs hverified dest hdest => ?_
      · refine (hframe.relax fun s hs => hs.1).weaken (fun s hs => ⟨hs.2, hs.1⟩)
          (fun _ _ h => h) |>.bind fun entries => Triple.pure fun s hs => ⟨fun hall => ?_, hs.1.2⟩
        rw [List.all_cons, Bool.and_eq_true] at hall
        exact List.forall_mem_cons.mpr ⟨hs.2 hall.1, hs.1.1 hall.2⟩
      · cases hdest : destFor node artifact.name with
        | none => exact allCalls_of_forall (fun op dest h => by cases h) _
        | some dest =>
            refine AllCalls.mono (allCalls_distribute_other apart hnode hdest hnames.1)
              fun op hop dest' hdest' => ?_
            cases hdest'
            exact hop
      · rcases hs hverified dest hdest with ⟨c, hc, hsha⟩
        refine ⟨c, ?_, hsha⟩
        rw [siteHandler_files (hop dest hdest)]
        exact hc

/-- The content is what the build was to make of the artifact. -/
def BuildRequest.Makes (request : BuildRequest) (sum : Checksum C) (name : String)
    (content : Option C) : Prop :=
  ∃ r, request.Names name r ∧ content = some (sum.image name r)

/-- Beside its destination every artifact of the set is what the build was to make. -/
def Site.Staged (sum : Checksum C) (node : Node) (request : BuildRequest) (s : Site C) : Prop :=
  ∀ name ∈ artifactNames request.install, ∀ dest, destFor node name = some dest →
    request.Makes sum name (s.files node.host (stagedPath dest))

theorem nodup_artifactNames (install : InstallConfig) : (artifactNames install).Nodup := by
  unfold artifactNames
  split
  · decide
  · decide

variable {request : BuildRequest} {artifacts : List Artifact}

theorem staged_of_hashed {s : Site C} (hv : Vouched sum request artifacts)
    (h : ∀ artifact ∈ artifacts, s.Hashed sum node artifact) : s.Staged sum node request := by
  intro name hname dest hdest
  rw [← hv.1] at hname
  rcases List.mem_map.mp hname with ⟨artifact, ha, rfl⟩
  rcases h artifact ha dest hdest with ⟨c, hc, hsha⟩
  rcases hv.2 artifact ha _ hsha with ⟨r, hr, hdigest⟩
  exact ⟨r, hr, by rw [hc, sum.unforged hdigest]⟩

theorem triple_distribute (apart : fleet.FilesApart) (hnode : node ∈ fleet.nodes)
    (builder : SSHTarget) (hv : Vouched sum request artifacts) :
    Triple (siteHandler sum) (Site.Undisturbed fleet B base) (distribute builder node artifacts)
      (fun dist s => (dist.ok = true →
          dist.swaps = (artifactNames request.install).filterMap (swapFor node)) ∧
        (dist.ok = true → s.Staged sum node request) ∧ s.Undisturbed fleet B base)
      (Site.Undisturbed fleet B base) := by
  have hmkdtemp : (OpsEffect.mkdtemp "solfleet-").Spares fleet := by
    refine ⟨?_, fun _ _ _ _ h => h⟩
    rintro ⟨_, _, h⟩
    cases h
  have hnames : (artifacts.map (·.name)).Nodup := hv.1 ▸ nodup_artifactNames request.install
  refine Triple.returns ?_ fun trace dist hrun hok => ?_
  · refine Triple.bind (Triple.perform (fun s r hs _ => undisturbed_of_spares hmkdtemp hs)
      fun s e hs _ => undisturbed_of_spares hmkdtemp hs) fun staging => ?_
    refine (triple_distributeEach apart hnode builder staging hnames).bind fun entries => ?_
    exact Triple.pure fun s hs => ⟨fun hok => staged_of_hashed hv (hs.1 hok), hs.2⟩
  · rw [(runs_distribute hrun hok).2.2, hv.1]

/-! ## Installing -/

/-- The node is to get the artifact, and at this path. -/
def Node.Receives (node : Node) (install : InstallConfig) (path name : String) : Prop :=
  name ∈ artifactNames install ∧ destFor node name = some path

/-- A destination holds what it held or, if it is one of this node, what the build was to make of
it. -/
def Site.Deployed (fleet : Fleet) (B : (String → BuildHost) → Prop)
    (base : String → String → Option C) (sum : Checksum C) (node : Node) (request : BuildRequest)
    (s : Site C) : Prop :=
  B s.builders ∧ ∀ host path name, fleet.Places host path name →
    s.files host path = base host path ∨
      (host = node.host ∧ node.Receives request.install path name ∧
        request.Makes sum name (s.files host path))

/-- The node has the whole set. -/
def Site.Installed (sum : Checksum C) (node : Node) (request : BuildRequest) (s : Site C) : Prop :=
  ∀ name ∈ artifactNames request.install, ∀ dest, destFor node name = some dest →
    request.Makes sum name (s.files node.host dest)

theorem Site.Undisturbed.deployed {s : Site C} (h : s.Undisturbed fleet B base) :
    s.Deployed fleet B base sum node request :=
  ⟨h.1, fun host path name hplaces => .inl (h.2 host path name hplaces)⟩

theorem mem_swapParts_iff {names : List String} {staged dest : String} :
    .mv staged dest ∈ swapParts (names.filterMap (swapFor node)) ↔
      staged = stagedPath dest ∧ ∃ name ∈ names, destFor node name = some dest := by
  constructor
  · intro h
    rcases mem_swapParts_mv h with ⟨swap, hswap, rfl, rfl⟩
    rcases List.mem_filterMap.mp hswap with ⟨name, hname, hfor⟩
    rcases Option.map_eq_some_iff.mp hfor with ⟨dest, hdest, rfl⟩
    exact ⟨rfl, name, hname, hdest⟩
  · rintro ⟨rfl, name, hname, hdest⟩
    have hfor : swapFor node name =
        some ⟨stagedPath dest, dest, decide (name ∈ agaveBins)⟩ := by
      rw [swapFor, hdest]
      rfl
    exact List.mem_flatMap.mpr
      ⟨_, List.mem_filterMap.mpr ⟨name, hname, hfor⟩, List.mem_cons_self⟩

/-- The swap, wherever it breaks off. -/
theorem triple_swap (apart : fleet.FilesApart) (hnode : node ∈ fleet.nodes) :
    Triple (siteHandler sum)
      (fun s => s.Staged sum node request ∧ s.Undisturbed fleet B base)
      (atomicSwap node ((artifactNames request.install).filterMap (swapFor node)))
      (fun swap s => (swap.ok = true → s.Installed sum node request) ∧
        s.Deployed fleet B base sum node request)
      (Site.Deployed fleet B base sum node request) := by
  let names := artifactNames request.install
  have hplaces : ∀ {name dest}, destFor node name = some dest →
      fleet.Places node.host dest name := fun h => ⟨node, hnode, rfl, h⟩
  have hparts : PartsApart (swapParts (names.filterMap (swapFor node))) := by
    refine ⟨fun h => (mem_swapParts_iff.mp h).1, fun h h' => ?_⟩
    rcases mem_swapParts_iff.mp h with ⟨-, name, -, hdest⟩
    rcases mem_swapParts_iff.mp h' with ⟨rfl, name', -, hdest'⟩
    exact apart.staged (hplaces hdest) (hplaces hdest')
  refine Triple.bind (Q := fun r s => (r.ok = true → s.Installed sum node request) ∧
    s.Deployed fleet B base sum node request) (Triple.perform (fun s r hs hr => ?_)
      fun s e _ he => by cases he) fun r => Triple.pure fun s hs => hs
  cases hr
  rcases hs with ⟨hstaged, hB, hfiles⟩
  rcases swapFiles_moved hparts
    ((s.incidents 0).outcome.done (swapParts (names.filterMap (swapFor node))).length)
    (s.files node.host) with ⟨hsafe, hdone⟩
  refine ⟨fun hok name hname dest hdest => ?_, hB, fun host path name hpath => ?_⟩
  · rw [exitWith_ok, Bool.and_eq_true] at hok
    rcases hdone hok.2 _ dest (mem_swapParts_iff.mpr ⟨rfl, name, hname, hdest⟩) with ⟨c, hc, hnew⟩
    have hmade := hstaged name hname dest hdest
    rw [hc, ← hnew] at hmade
    show request.Makes sum name (Function.update s.files node.host _ node.host dest)
    rw [Function.update_self]
    exact hmade
  · show Function.update s.files node.host _ host path = _ ∨
      (_ ∧ _ ∧ request.Makes sum name (Function.update s.files node.host _ host path))
    by_cases hhost : host = node.host
    · subst hhost
      rw [Function.update_self]
      by_cases hmoved : ∃ name' ∈ names, destFor node name' = some path
      · rcases hmoved with ⟨name', hname', hdest⟩
        have hsame : name = name' := apart.name hpath (hplaces hdest)
        subst hsame
        rcases hsafe _ path (mem_swapParts_iff.mpr ⟨rfl, name, hname', hdest⟩) with
          hkept | ⟨c, hc, hnew⟩
        · exact .inl (hkept.trans (hfiles _ path name hpath))
        · have hmade := hstaged name hname' path hdest
          rw [hc, ← hnew] at hmade
          exact .inr ⟨rfl, ⟨hname', hdest⟩, hmade⟩
      · refine .inl (Eq.trans (swapFiles_outside (fun staged dest h => ?_) _ _)
          (hfiles _ path name hpath))
        rcases mem_swapParts_iff.mp h with ⟨rfl, name', hname', hdest⟩
        refine ⟨apart.staged hpath (hplaces hdest), ?_⟩
        rintro rfl
        exact hmoved ⟨name', hname', hdest⟩
    · rw [Function.update_of_ne hhost]
      exact .inl (hfiles host path name hpath)

/-! ## After the swap -/

/-- What a swap left stays as it is. -/
theorem deployed_of_spares {op : OpsEffect} {s : Site C} (hop : op.Spares fleet)
    (h : s.Deployed fleet B base sum node request) :
    (siteHandler sum op s).2.Deployed fleet B base sum node request := by
  refine ⟨?_, fun host path name hplaces => ?_⟩
  · rw [siteHandler_builders hop.1]
    exact h.1
  · rw [siteHandler_files (hop.2 host path name hplaces)]
    exact h.2 host path name hplaces

theorem installed_of_spares {op : OpsEffect} {s : Site C} (hnode : node ∈ fleet.nodes)
    (hop : op.Spares fleet) (h : s.Installed sum node request) :
    (siteHandler sum op s).2.Installed sum node request := by
  intro name hname dest hdest
  rw [siteHandler_files (hop.2 _ _ _ ⟨node, hnode, rfl, hdest⟩)]
  exact h name hname dest hdest

theorem triple_spares {α : Type} (hnode : node ∈ fleet.nodes) (flag : Prop) {p : OpsProgram α}
    (hp : p.AllCalls (OpsEffect.Spares fleet)) :
    Triple (siteHandler sum)
      (fun s => (flag → s.Installed sum node request) ∧ s.Deployed fleet B base sum node request)
      p
      (fun _ s => (flag → s.Installed sum node request) ∧
        s.Deployed fleet B base sum node request)
      (Site.Deployed fleet B base sum node request) :=
  (hp.keeps (I := fun s : Site C => (flag → s.Installed sum node request) ∧
    s.Deployed fleet B base sum node request) fun _ _ hop hs =>
      ⟨fun h => installed_of_spares hnode hop (hs.1 h), deployed_of_spares hop hs.2⟩).relax
    fun _ hs => hs.2

theorem inert_of_sends {op : OpsEffect} (h : op.Sends fun i => i.inert = true) : op.Inert := by
  cases op with
  | runner i => exact inert_runner (h i rfl)
  | _ =>
      refine ⟨?_, fun _ _ h => h⟩
      rintro ⟨_, _, h⟩
      cases h

theorem spares_of_sends {α : Type} {p : OpsProgram α}
    (hp : p.AllCalls (OpsEffect.Sends fun i => i.inert = true)) :
    p.AllCalls (OpsEffect.Spares fleet) :=
  hp.mono fun _ hop => (inert_of_sends hop).spares

theorem inspectInvocations_inert : ∀ i ∈ inspectInvocations node, i.inert = true :=
  forall_inspectInvocations (fun _ => rfl) (fun _ => rfl) (fun _ => rfl) fun _ => rfl

theorem inert_unitAction (verb : String) :
    (unitAction node verb).AllCalls (OpsEffect.Sends fun i => i.inert = true) :=
  (allCalls_runOn (P := fun i => i.inert = true) rfl).bind fun _ => trivial

theorem spares_updateMarker (apart : fleet.FilesApart) (hnode : node ∈ fleet.nodes)
    (version : String) : (updateMarker node version).AllCalls (OpsEffect.Spares fleet) := by
  unfold updateMarker
  cases hmarker : node.service.versionMarker with
  | none => trivial
  | some marker =>
      dsimp only
      split
      · trivial
      · refine AllCalls.bind (allCalls_perform.mpr ⟨?_, fun host path name hplaces => ?_⟩)
          fun _ => trivial
        · rintro ⟨_, _, h⟩
          cases h
        · rintro ⟨rfl, rfl⟩
          exact apart.marker hplaces node hnode rfl hmarker

theorem staged_of_inert {op : OpsEffect} {s : Site C} (hop : op.Inert)
    (h : s.Staged sum node request) : (siteHandler sum op s).2.Staged sum node request := by
  intro name hname dest hdest
  rw [siteHandler_files (hop.2 _ _)]
  exact h name hname dest hdest

/-- The swap in its place: a validator exits after it, another node stops before it. -/
theorem triple_swapAndCycle (apart : fleet.FilesApart) (hnode : node ∈ fleet.nodes)
    (rules : PolicyRules) (version : String) :
    Triple (siteHandler sum)
      (fun s => s.Staged sum node request ∧ s.Undisturbed fleet B base)
      (swapAndCycle node rules version
        ((artifactNames request.install).filterMap (swapFor node)))
      (fun cycled s => (cycled.1.ok = true → s.Installed sum node request) ∧
        s.Deployed fleet B base sum node request)
      (Site.Deployed fleet B base sum node request) := by
  have hswap : Triple (siteHandler sum) (fun s => s.Staged sum node request ∧
      s.Undisturbed fleet B base) _ _ (Site.Deployed fleet B base sum node request) :=
    triple_swap apart hnode
  have hmarker := spares_updateMarker apart hnode version
  unfold swapAndCycle
  split
  · refine hswap.bind fun swap => ?_
    refine (triple_spares hnode _ hmarker).bind fun marker => ?_
    have hexit : (validatorSafeExit node rules.requireLeaderWindowMinutes).AllCalls
        (OpsEffect.Sends fun i => i.inert = true) :=
      (allCalls_runOn (P := fun i => i.inert = true) rfl).bind fun _ => trivial
    exact (triple_spares hnode _ (spares_of_sends hexit)).bind fun _ => Triple.pure fun _ hs => hs
  · have hstop : Triple (siteHandler sum) (fun s => s.Staged sum node request ∧
        s.Undisturbed fleet B base) (stopService node) (fun _ s => s.Staged sum node request ∧
          s.Undisturbed fleet B base) (Site.Deployed fleet B base sum node request) := by
      refine (AllCalls.keeps ((inert_unitAction "stop").mono fun _ hop => inert_of_sends hop)
        fun op s hop hs => ?_).relax fun s hs => Site.Undisturbed.deployed hs.2
      exact ⟨staged_of_inert hop hs.1, undisturbed_of_spares hop.spares hs.2⟩
    refine hstop.bind fun stop => hswap.bind fun swap => ?_
    refine (triple_spares hnode _ hmarker).bind fun marker => ?_
    exact (triple_spares hnode _ (spares_of_sends (inert_unitAction "start"))).bind fun _ =>
      Triple.pure fun _ hs => hs

/-! ## An upgrade -/

/-- Every build host can be followed back to the builds it has seen. -/
def Traced (lines : String → Lineage) (seen : String → List BuildRequest)
    (builders : String → BuildHost) : Prop :=
  ∀ host, (lines host).Traces (seen host) (builders host)

/-- One more build on a host. -/
def noted (seen : String → List BuildRequest) (host : String) (request : BuildRequest) :
    String → List BuildRequest :=
  Function.update seen host (request :: seen host)

variable {lines : String → Lineage} {seen : String → List BuildRequest}

theorem Traced.noted {builders : String → BuildHost} (h : Traced lines seen builders)
    (host : String) (request : BuildRequest) :
    Traced lines (noted seen host request) builders := by
  intro other
  by_cases hother : other = host
  · subst hother
    rw [Solfleet.noted, Function.update_self]
    exact Traceable.cons (h other) request
  · rw [Solfleet.noted, Function.update_of_ne hother]
    exact h other

theorem triple_buildStage {b : BuilderHost} {X : Site C → Prop}
    (fits : (lines b.host).Fits request)
    (href : ∀ earlier ∈ seen b.host, RefAgrees earlier request) :
    Triple (siteHandler sum) (Site.Undisturbed fleet (Traced lines seen) base)
      (buildArtifacts (.builder b) request.install request.version request.force)
      (fun result s => (result.ok = true → Vouched sum request result.artifacts) ∧
        s.Undisturbed fleet (Traced lines (noted seen b.host request)) base) X := by
  intro s hs
  have hbuild : (exec (siteHandler sum) (buildArtifacts (.builder b) request.install
      request.version request.force) s).Meets _ X :=
    triple_buildArtifacts_site fits href s s ⟨hs.1 b.host, fun _ _ => rfl, rfl⟩
  refine hbuild.mono (fun result s' hs' => ⟨hs'.1, fun other => ?_, fun host path name h => ?_⟩)
    fun _ hx => hx
  · by_cases hother : other = b.host
    · subst hother
      rw [noted, Function.update_self]
      exact hs'.2.1
    · rw [noted, Function.update_of_ne hother, hs'.2.2.1 other hother]
      exact hs.1 other
  · rw [hs'.2.2.2]
    exact hs.2 host path name h

/-- What follows a verified distribution. -/
theorem triple_installUpgrade (apart : fleet.FilesApart) (hnode : node ∈ fleet.nodes)
    (cluster : Cluster) (rules : PolicyRules) (version : String) (maxLag : Int)
    (decision : GateDecision) (build : BuildResult) {dist : Distribution}
    (hswaps : dist.swaps = (artifactNames request.install).filterMap (swapFor node)) :
    Triple (siteHandler sum)
      (fun s => s.Staged sum node request ∧ s.Undisturbed fleet B base)
      (installUpgrade cluster node rules version maxLag decision build dist)
      (fun outcome s => (outcome.swap.ok = true → s.Installed sum node request) ∧
        s.Deployed fleet B base sum node request)
      (Site.Deployed fleet B base sum node request) := by
  unfold installUpgrade
  rw [hswaps]
  refine (triple_swapAndCycle apart hnode rules version).bind fun cycled => ?_
  rcases cycled with ⟨swap, marker, cycle⟩
  have hwait : (waitForCatchup node cluster.referenceRpc maxLag defaultCatchupTimeout).AllCalls
      (OpsEffect.Spares fleet) := spares_of_sends (allCalls_waitForCatchup ..)
  have hinspect : (inspectNode node).AllCalls (OpsEffect.Spares fleet) :=
    spares_of_sends (allCalls_inspectNode inspectInvocations_inert)
  refine (triple_spares hnode _ hwait).bind fun catchup => ?_
  exact (triple_spares hnode _ hinspect).bind fun after => Triple.pure fun _ hs => hs

/-- Building, distributing and installing: the node has the whole set if the swap is reported
to have gone through, and whatever happened no destination has other bytes. -/
theorem triple_upgradeStages (apart : fleet.FilesApart) (hnode : node ∈ fleet.nodes)
    {b : BuilderHost} {install : InstallConfig} {version : String} {force : Bool}
    (fits : (lines b.host).Fits ⟨install, version, force⟩)
    (href : ∀ earlier ∈ seen b.host, RefAgrees earlier ⟨install, version, force⟩)
    (cluster : Cluster) (rules : PolicyRules) (maxLag : Int) (decision : GateDecision) :
    Triple (siteHandler sum) (Site.Undisturbed fleet (Traced lines seen) base)
      (upgradeStages (.builder b) install cluster node rules version maxLag force decision)
      (fun result s => (∀ outcome, result = .executed outcome → outcome.swap.ok = true →
          s.Installed sum node ⟨install, version, force⟩) ∧
        s.Deployed fleet (Traced lines (noted seen b.host ⟨install, version, force⟩)) base sum node
          ⟨install, version, force⟩)
      (Site.Deployed fleet (Traced lines (noted seen b.host ⟨install, version, force⟩)) base sum
        node ⟨install, version, force⟩) := by
  unfold upgradeStages
  refine (triple_buildStage fits href).bind fun build => ?_
  split
  case isFalse =>
    exact Triple.pure fun s hs => ⟨fun _ h => (by cases h), hs.2.deployed⟩
  case isTrue hbuild =>
    refine Triple.weaken (P := fun s => _ ∧ _) (Triple.of_imp fun hv => ?_)
      (fun s hs => ⟨hs.1 hbuild, hs.2⟩) fun _ _ h => h
    refine ((triple_distribute apart hnode (.builder b) hv).relax fun s hs => hs.deployed).bind
      fun dist => Triple.of_imp fun hswaps => ?_
    split
    case isFalse =>
      exact Triple.pure fun s hs => ⟨fun _ h => (by cases h), hs.2.deployed⟩
    case isTrue hdist =>
      refine Triple.map ((triple_installUpgrade apart hnode cluster rules version maxLag decision
        build (hswaps hdist)).weaken (fun s hs => ⟨hs.1 hdist, hs.2⟩) fun outcome s hs =>
          ⟨fun outcome' heq hok => ?_, hs.2⟩)
      cases heq
      exact hs.1 hok

/-! ## Calls of an upgrade -/

structure UpgradeCall where
  nodeName : String
  version : String
  confirm : Bool
  policy : Policy
  audit : Bool
  maxLag : Int
  force : Bool

namespace UpgradeCall

def program (fleet : Fleet) (call : UpgradeCall) : OpsProgram UpgradeResult :=
  executeUpgrade fleet call.nodeName call.version call.confirm call.policy call.audit call.maxLag
    call.force

/-- The build that a call may come to, and its host. -/
def build? (fleet : Fleet) (call : UpgradeCall) : Option (String × BuildRequest) := do
  let (_, cluster, _) ← fleet.findNode call.nodeName
  let install ← cluster.install
  let builder ← builderOf fleet cluster
  if call.confirm then some (builder.host, ⟨install, call.version, call.force⟩) else none

def note (fleet : Fleet) (call : UpgradeCall) (seen : String → List BuildRequest) :
    String → List BuildRequest :=
  match call.build? fleet with
  | none => seen
  | some (host, request) => noted seen host request

/-- The path is one at which the node of a confirmed call, whose policy allows the version, gets
an artifact, and the content is what the build was to make of it. -/
def Makes (sum : Checksum C) (fleet : Fleet) (call : UpgradeCall) (host path name : String)
    (content : Option C) : Prop :=
  ∃ clusterName cluster node install,
    fleet.findNode call.nodeName = some (clusterName, cluster, node) ∧
    cluster.install = some install ∧ node.host = host ∧ node.Receives install path name ∧
    call.confirm = true ∧
    versionAllowed (call.policy.forCluster clusterName) (some call.version) = true ∧
    BuildRequest.Makes ⟨install, call.version, call.force⟩ sum name content

/-- The node of the call has the whole set. -/
def Completes (sum : Checksum C) (fleet : Fleet) (call : UpgradeCall)
    (files : String → String → Option C) : Prop :=
  ∃ clusterName cluster node install,
    fleet.findNode call.nodeName = some (clusterName, cluster, node) ∧
    cluster.install = some install ∧ ∀ name ∈ artifactNames install, ∀ dest,
      destFor node name = some dest →
        call.Makes sum fleet node.host dest name (files node.host dest)

end UpgradeCall

/-- A destination holds what it held, or what the call's build was to make of it. -/
def Site.Advanced (fleet : Fleet) (B : (String → BuildHost) → Prop)
    (base : String → String → Option C) (sum : Checksum C) (call : UpgradeCall) (s : Site C) :
    Prop :=
  B s.builders ∧ ∀ host path name, fleet.Places host path name →
    s.files host path = base host path ∨ call.Makes sum fleet host path name (s.files host path)

theorem Traced.note {builders : String → BuildHost} (h : Traced lines seen builders)
    (call : UpgradeCall) : Traced lines (call.note fleet seen) builders := by
  unfold UpgradeCall.note
  split
  · exact h
  · exact h.noted _ _

theorem Site.Undisturbed.advanced {s : Site C} {call : UpgradeCall}
    (h : s.Undisturbed fleet (Traced lines seen) base) :
    s.Advanced fleet (Traced lines (call.note fleet seen)) base sum call :=
  ⟨h.1.note call, fun host path name hplaces => .inl (h.2 host path name hplaces)⟩

/-- One call, whatever its commands come to. -/
theorem triple_upgradeCall (apart : fleet.FilesApart) (call : UpgradeCall)
    (fits : ∀ host request, call.build? fleet = some (host, request) →
      (lines host).Fits request ∧ ∀ earlier ∈ seen host, RefAgrees earlier request) :
    Triple (siteHandler sum) (Site.Undisturbed fleet (Traced lines seen) base)
      (call.program fleet)
      (fun result s => (∀ outcome, result = .executed outcome → outcome.swap.ok = true →
          call.Completes sum fleet s.files) ∧
        s.Advanced fleet (Traced lines (call.note fleet seen)) base sum call)
      (Site.Advanced fleet (Traced lines (call.note fleet seen)) base sum call) := by
  unfold UpgradeCall.program executeUpgrade
  cases hf : fleet.findNode call.nodeName with
  | none => exact Triple.pure fun s hs => ⟨fun _ h => (by cases h), hs.advanced⟩
  | some found =>
      rcases found with ⟨clusterName, cluster, node⟩
      have hnode := Fleet.findNode_mem_nodes hf
      dsimp only
      have hinspect : Triple (siteHandler sum) (Site.Undisturbed fleet (Traced lines seen) base)
          (inspectNode node) (fun _ => Site.Undisturbed fleet (Traced lines seen) base)
          (Site.Advanced fleet (Traced lines (call.note fleet seen)) base sum call) :=
        (AllCalls.keeps (spares_of_sends (allCalls_inspectNode inspectInvocations_inert))
          fun _ _ hop hs => undisturbed_of_spares hop hs).relax fun s hs => hs.advanced
      refine hinspect.bind fun before => ?_
      have hpcts : Triple (siteHandler sum) (Site.Undisturbed fleet (Traced lines seen) base)
          (ofExcept (usePcts before)) (fun _ => Site.Undisturbed fleet (Traced lines seen) base)
          (Site.Advanced fleet (Traced lines (call.note fleet seen)) base sum call) := by
        intro s hs
        unfold Program.ofExcept Execution.Meets
        rw [exec_done]
        dsimp only
        split
        · exact hs
        · exact hs.advanced
      refine hpcts.bind fun pcts => ?_
      have hrecord : ∀ event, (recordOps call.audit event).AllCalls (OpsEffect.Spares fleet) :=
        fun event => spares_of_sends (allCalls_recordOps _ _)
      unfold gated
      by_cases hopens : (upgradeRequest fleet clusterName cluster node call.nodeName
          (call.policy.forCluster clusterName) call.version before pcts).Opens call.confirm
      · rw [if_pos hopens]
        have hallowed := planRequest_allowed (upgradeRequest_allowed hopens.2)
        rcases Option.isSome_iff_exists.mp hallowed.2.1 with ⟨b, hb⟩
        rcases (install_of_builderOf hb).1 with ⟨install, hi⟩
        have hbuild : call.build? fleet =
            some (b.host, ⟨install, call.version, call.force⟩) := by
          simp [UpgradeCall.build?, hf, hi, hb, hopens.1]
        have hnote : call.note fleet seen =
            noted seen b.host ⟨install, call.version, call.force⟩ := by
          rw [UpgradeCall.note, hbuild]
        rcases fits _ _ hbuild with ⟨hfits, href⟩
        have hmakes : ∀ path name content, node.Receives install path name →
            BuildRequest.Makes ⟨install, call.version, call.force⟩ sum name content →
              call.Makes sum fleet node.host path name content := fun path name content hplace h =>
          ⟨clusterName, cluster, node, install, hf, hi, rfl, hplace, hopens.1, hallowed.1, h⟩
        have hadvanced : ∀ s : Site C, s.Deployed fleet (Traced lines
            (noted seen b.host ⟨install, call.version, call.force⟩)) base sum node
              ⟨install, call.version, call.force⟩ →
            s.Advanced fleet (Traced lines (call.note fleet seen)) base sum call := by
          intro s hs
          rw [hnote]
          refine ⟨hs.1, fun host path name hplaces => (hs.2 host path name hplaces).imp_right ?_⟩
          rintro ⟨rfl, hplace, h⟩
          exact hmakes path name _ hplace h
        unfold auditedUpgrade upgradeWith
        rw [hi, hb]
        dsimp only
        refine (((triple_upgradeStages apart hnode hfits href cluster _ call.maxLag _).relax
          hadvanced).bind fun result => ?_)
        have hkept := (triple_spares (B := Traced lines
            (noted seen b.host ⟨install, call.version, call.force⟩)) hnode
          (∃ outcome, result = .executed outcome ∧ outcome.swap.ok = true)
          (hrecord ⟨"upgrade", clusterName, call.nodeName, .execute, true⟩)).relax hadvanced
        refine (hkept.weaken (fun s hs => ⟨?_, hs.2⟩) fun _ _ h => h).bind fun _ =>
          Triple.pure fun s hs => ⟨?_, hadvanced s hs.2⟩
        · rintro ⟨outcome, heq, hok⟩
          exact hs.1 outcome heq hok
        · intro outcome heq hok
          refine ⟨clusterName, cluster, node, install, hf, hi, fun name hname dest hdest => ?_⟩
          exact hmakes dest name _ ⟨hname, hdest⟩ (hs.1 ⟨outcome, heq, hok⟩ name hname dest hdest)
      · rw [if_neg hopens]
        refine ((AllCalls.keeps (hrecord _) fun _ _ hop hs => undisturbed_of_spares hop hs).relax
          fun s hs => Site.Undisturbed.advanced hs).bind fun _ => ?_
        exact Triple.pure fun s hs => ⟨fun _ h => (by cases h), hs.advanced⟩

/-! ## Rollouts -/

/-- One call after the other, each on the site the ones before it left. -/
def rolledOut (sum : Checksum C) (fleet : Fleet) (calls : List UpgradeCall) (s : Site C) : Site C :=
  calls.foldl (fun s call => (exec (siteHandler sum) (call.program fleet) s).final) s

theorem rolledOut_concat (calls : List UpgradeCall) (call : UpgradeCall) (s : Site C) :
    rolledOut sum fleet (calls ++ [call]) s =
      (exec (siteHandler sum) (call.program fleet) (rolledOut sum fleet calls s)).final := by
  rw [rolledOut, List.foldl_append]
  rfl

/-- The builds a rollout may come to on a host. -/
def buildsOn (fleet : Fleet) (calls : List UpgradeCall) (host : String) : List BuildRequest :=
  calls.filterMap fun call =>
    (call.build? fleet).bind fun build => if build.1 = host then some build.2 else none

theorem buildsOn_eq_some {call : UpgradeCall} {host : String} :
    ((call.build? fleet).bind fun build => if build.1 = host then some build.2 else none) =
      some request ↔ call.build? fleet = some (host, request) := by
  cases call.build? fleet with
  | none => simp
  | some build =>
      rcases build with ⟨host', request'⟩
      by_cases hhost : host' = host
      · simp [hhost]
      · simp [hhost]

/-- The builds a host has seen. -/
def seenBy (fleet : Fleet) (calls : List UpgradeCall) : String → List BuildRequest :=
  calls.foldl (fun seen call => call.note fleet seen) fun _ => []

theorem seenBy_concat (calls : List UpgradeCall) (call : UpgradeCall) :
    seenBy fleet (calls ++ [call]) = call.note fleet (seenBy fleet calls) := by
  rw [seenBy, List.foldl_append]
  rfl

theorem exists_of_mem_seenBy {calls : List UpgradeCall} {host : String}
    (h : request ∈ seenBy fleet calls host) :
    ∃ call ∈ calls, call.build? fleet = some (host, request) := by
  induction calls using List.reverseRecOn with
  | nil => cases h
  | append_singleton calls call ih =>
      have hlater : ∀ {call'}, call' ∈ calls → call' ∈ calls ++ [call] :=
        fun hmem => List.mem_append_left _ hmem
      rw [seenBy_concat, UpgradeCall.note] at h
      cases hbuild : call.build? fleet with
      | none =>
          rw [hbuild] at h
          rcases ih h with ⟨call', hmem, hcall'⟩
          exact ⟨call', hlater hmem, hcall'⟩
      | some build =>
          rcases build with ⟨host', request'⟩
          rw [hbuild] at h
          dsimp only at h
          by_cases hhost : host = host'
          · subst hhost
            rw [noted, Function.update_self] at h
            rcases List.mem_cons.mp h with rfl | h
            · exact ⟨call, by simp, hbuild⟩
            · rcases ih h with ⟨call', hmem, hcall'⟩
              exact ⟨call', hlater hmem, hcall'⟩
          · rw [noted, Function.update_of_ne hhost] at h
            rcases ih h with ⟨call', hmem, hcall'⟩
            exact ⟨call', hlater hmem, hcall'⟩

/-- The calls build from the sources of their hosts, a reused library from its ref. -/
structure RolloutFits (lines : String → Lineage) (fleet : Fleet) (calls : List UpgradeCall) :
    Prop where
  sources : ∀ call ∈ calls, ∀ host request, call.build? fleet = some (host, request) →
    (lines host).Fits request
  refs : calls.Pairwise fun earlier later => ∀ host request request',
    earlier.build? fleet = some (host, request) → later.build? fleet = some (host, request') →
      RefAgrees request request'

theorem RolloutFits.init {calls : List UpgradeCall} {call : UpgradeCall}
    (h : RolloutFits lines fleet (calls ++ [call])) : RolloutFits lines fleet calls where
  sources := fun call' hmem => h.sources call' (List.mem_append_left _ hmem)
  refs := (List.pairwise_append.mp h.refs).1

/-- The last call of a rollout meets what its upgrade asks of the hosts. -/
theorem RolloutFits.last {calls : List UpgradeCall} {call : UpgradeCall}
    (h : RolloutFits lines fleet (calls ++ [call])) {host : String}
    (hbuild : call.build? fleet = some (host, request)) :
    (lines host).Fits request ∧
      ∀ earlier ∈ seenBy fleet calls host, RefAgrees earlier request := by
  refine ⟨h.sources call (by simp) host request hbuild, fun earlier hmem => ?_⟩
  rcases exists_of_mem_seenBy hmem with ⟨call', hcall', hearlier⟩
  exact (List.pairwise_append.mp h.refs).2.2 call' hcall' call (by simp) host earlier request
    hearlier hbuild

variable (sum) in
/-- The run lemma: the build hosts can be followed back, and no destination has other bytes. -/
theorem rolledOut_invariant (apart : fleet.FilesApart) {s : Site C}
    (fresh : ∀ host, s.builders host = BuildHost.empty) {calls : List UpgradeCall}
    (fits : RolloutFits lines fleet calls) :
    Traced lines (seenBy fleet calls) (rolledOut sum fleet calls s).builders ∧
      ∀ host path name, fleet.Places host path name →
        (rolledOut sum fleet calls s).files host path = s.files host path ∨
          ∃ call ∈ calls, call.Makes sum fleet host path name
            ((rolledOut sum fleet calls s).files host path) := by
  induction calls using List.reverseRecOn with
  | nil =>
      refine ⟨fun host => ?_, fun _ _ _ _ => .inl rfl⟩
      show (lines host).Traces [] (s.builders host)
      rw [fresh host]
      exact traceable_empty
  | append_singleton calls call ih =>
      rcases ih fits.init with ⟨htraced, hfiles⟩
      have hstep : (exec (siteHandler sum) (call.program fleet) (rolledOut sum fleet calls s)).Meets
          _ _ :=
        triple_upgradeCall apart call (fun _ _ => fits.last) _ ⟨htraced, fun _ _ _ _ => rfl⟩
      have hadvanced : (rolledOut sum fleet (calls ++ [call]) s).Advanced fleet
          (Traced lines (seenBy fleet (calls ++ [call]))) (rolledOut sum fleet calls s).files sum
            call := by
        rw [seenBy_concat, rolledOut_concat]
        unfold Execution.Meets at hstep
        split at hstep
        · exact hstep.2
        · exact hstep
      refine ⟨hadvanced.1, fun host path name hplaces => ?_⟩
      rcases hadvanced.2 host path name hplaces with hkept | hmade
      · rw [hkept]
        refine (hfiles host path name hplaces).imp_right ?_
        rintro ⟨call', hmem, hmade⟩
        exact ⟨call', List.mem_append_left _ hmem, hmade⟩
      · exact .inr ⟨call, by simp, hmade⟩

/-- Builds that agree on their sources have a lineage. -/
theorem SourcesAgree.exists_lineage {requests : List BuildRequest} {cache : String}
    (hcache : ∀ request ∈ requests, request.install.artifactCache = cache)
    (agree : SourcesAgree requests) :
    ∃ line : Lineage, ∀ request ∈ requests, line.Fits request := by
  have hagave : ∃ repo, ∀ request ∈ requests, request.install.agaveRepo = repo := by
    cases requests with
    | nil => exact ⟨"", by simp⟩
    | cons first requests =>
        exact ⟨_, fun request hr => agree.agave request hr first (by simp)⟩
  have hgeyser : ∃ repo, ∀ request ∈ requests,
      Text.truthy request.install.geyserRepo = true →
        request.install.geyserRepo = some repo := by
    by_cases hsome : ∃ first ∈ requests, Text.truthy first.install.geyserRepo = true
    · rcases hsome with ⟨first, hfirst, htruthy⟩
      refine ⟨first.install.geyserRepo.getD "", fun request hr ht => ?_⟩
      rw [agree.geyser request hr first hfirst ht htruthy]
      cases hrepo : first.install.geyserRepo with
      | none => simp [hrepo, Text.truthy] at htruthy
      | some repo => rfl
    · exact ⟨"", fun request hr ht => (hsome ⟨request, hr, ht⟩).elim⟩
  rcases hagave with ⟨agaveRepo, hagave⟩
  rcases hgeyser with ⟨geyserRepo, hgeyser⟩
  exact ⟨⟨Text.rstrip '/' cache, agaveRepo, geyserRepo⟩, fun request hr =>
    ⟨congrArg (Text.rstrip '/') (hcache request hr), (agree.plain request hr).no_slash,
      hagave request hr, hgeyser request hr⟩⟩

theorem exists_rolloutFits {calls : List UpgradeCall}
    (hcache : ∀ host, ∃ cache, ∀ request ∈ buildsOn fleet calls host,
      request.install.artifactCache = cache)
    (agree : ∀ host, SourcesAgree (buildsOn fleet calls host)) :
    ∃ lines, RolloutFits lines fleet calls := by
  have hlines : ∀ host, ∃ line : Lineage, ∀ request ∈ buildsOn fleet calls host,
      line.Fits request := by
    intro host
    rcases hcache host with ⟨cache, hcache⟩
    exact (agree host).exists_lineage hcache
  choose lines hlines using hlines
  refine ⟨lines, fun call hcall host request hbuild => hlines host request ?_, ?_⟩
  · exact List.mem_filterMap.mpr ⟨call, hcall, buildsOn_eq_some.mpr hbuild⟩
  · refine List.pairwise_iff_getElem.mpr fun i j hi hj hlt host request request' h h' => ?_
    have hpairs := List.pairwise_filterMap.mp (agree host).ref
    exact List.pairwise_iff_getElem.mp hpairs i j hi hj hlt request (buildsOn_eq_some.mpr h)
      request' (buildsOn_eq_some.mpr h')

end Stages

/-! ## A rollout -/

theorem isSpace_of_isDigit {c : Char} (h : c.isDigit = true) : Text.isSpace c = false := by
  simp only [Char.isDigit, Bool.and_eq_true, decide_eq_true_eq] at h
  have hrange : 48 ≤ c.toNat ∧ c.toNat ≤ 57 := ⟨h.1, h.2⟩
  rw [Text.isSpace, Text.inRanges, List.any_eq_false]
  intro r hr
  have hapart : r.2 < 48 ∨ 57 < r.1 := by
    revert r
    decide
  rw [decide_eq_true_eq]
  omega

/-- Sizes for bytes, and their digits for checksums. -/
def sizes : Checksum Nat where
  image name r := name.length + 100 * r.repo.length + 10000 * (r.ref.getD "").length
  digest n := String.ofList (Nat.toDigits 10 n)
  word n := by
    refine ⟨fun h => Nat.toDigits_ne_nil (String.ofList_eq_empty_iff.mp h), fun c hc => ?_⟩
    rw [String.toList_ofList] at hc
    exact isSpace_of_isDigit (Nat.isDigit_of_mem_toDigits (by decide) (by decide) hc)
  unforged {n name r} h := by
    have hdigits := congrArg (Nat.ofDigitChars 10 · 0) (String.ofList_inj.mp h)
    simpa only [Nat.ofDigitChars_ten_toDigits] using hdigits

def calmAnswer : (op : OpsEffect) → Except Exn op.Answer
  | .runner (.ssh _ (.systemctlShow _)) => .ok ⟨0, "ActiveState=active", ""⟩
  | .runner (.ssh _ (.binaryVersion _)) => .ok ⟨0, "agave-validator 3.0.0", ""⟩
  | .runner _ => .ok ⟨0, "", ""⟩
  | .mkdtemp _ => .ok "/tmp/solfleet-0"
  | .sample .. =>
      .ok { healthy := some true, nodeSlot := some 1000, refSlot := some 1000, lag := some 0 }
  | .leader .. => .ok none
  | .sleep _ => .ok ()
  | .audit _ => .ok ()

def builtRevision : Revision := ⟨builtInstall.agaveRepo, some "v3.0.1"⟩

/-- A new build host and an empty node. Copies arrive as they were built. -/
def calmSite : Site Nat where
  builders _ := BuildHost.empty
  files _ _ := none
  incidents n :=
    ⟨.completes, agaveBins[(n - 17) / 3]?.map (sizes.image · builtRevision), calmAnswer⟩

def builtCall : UpgradeCall := ⟨"rpc-1", "v3.0.1", true, {}, false, 2, false⟩

def swapReport : Except Exn UpgradeResult → Option Bool
  | .ok (.executed outcome) => some outcome.swap.ok
  | _ => none

theorem exists_swapped {result : Except Exn UpgradeResult} (h : swapReport result = some true) :
    ∃ outcome, result = .ok (.executed outcome) ∧ outcome.swap.ok = true := by
  unfold swapReport at h
  split at h
  · exact ⟨_, rfl, Option.some.inj h⟩
  · cases h

theorem buildsOn_builtCall (host : String) :
    buildsOn builtFleet.fleet ([] ++ [builtCall]) host =
      if "10.0.0.9" = host then [⟨builtInstall, "v3.0.1", false⟩] else [] := by
  have hbuild : builtCall.build? builtFleet.fleet =
      some ("10.0.0.9", ⟨builtInstall, "v3.0.1", false⟩) := rfl
  rw [buildsOn, List.nil_append, List.filterMap_cons, hbuild]
  by_cases hhost : "10.0.0.9" = host
  · simp [hhost]
  · simp [hhost]

end Solfleet
