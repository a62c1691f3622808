import Solfleet.Library.Interleaving
import Solfleet.Orchestration.Provenance

/-! # Two builds at once

Two builds on one host share the checkout of the agave sources and write to an output
directory each. A build compiles whatever is checked out when its installer runs, which is
its own tag unless the other build has checked out in between.
-/

namespace Solfleet

open Interaction Program

/-! ## One step -/

/-- The build host when every command completes. -/
def steadyHost : Handler opsSignature Exn BuildHost := fun op h =>
  let answered := buildHandler op (h, fun _ => .completes)
  (answered.1, answered.2.1)

def OpsEffect.buildStep? : OpsEffect → Option BuildStep
  | .runner (.ssh _ (.build step)) => some step
  | _ => none

/-- The host after a command, which may be no step of a build. -/
def BuildHost.after (h : BuildHost) : Option BuildStep → BuildHost
  | some step => (h.step .completes step).2
  | none => h

/-- Only the steps of a build change the host. -/
theorem steadyHost_state (op : OpsEffect) (h : BuildHost) :
    (steadyHost op h).2 = h.after op.buildStep? := by
  cases op with
  | runner invocation =>
      cases invocation with
      | ssh target command => cases command <;> rfl
      | scpFrom => rfl
      | scpTo => rfl
  | mkdtemp => rfl
  | sample => rfl
  | leader => rfl
  | sleep => rfl
  | audit => rfl

/-! ## A completed step, as equations -/

/-- The clones after a step that completes. -/
def BuildStep.clonesAfter (h : BuildHost) (src : String) : BuildStep → Option Revision
  | .clone repo src' =>
      if src = src' then some ((h.clones src').getD ⟨repo, none⟩) else h.clones src
  | .checkout src' ref =>
      if src = src' then (h.clones src').map fun r => { r with ref := some ref } else h.clones src
  | _ => h.clones src

/-- The files after a step that completes. -/
def BuildStep.filesAfter (h : BuildHost) (path : String) : BuildStep → Option Revision
  | .cargoInstall src out =>
      if path ∈ agaveBins.map (out ++ "/install/bin/" ++ ·) then (h.clones src).or (h.files path)
      else h.files path
  | .copy source dest => if path = dest then (h.files source).or (h.files path) else h.files path
  | .cargoBuild src =>
      if path = src ++ "/target/release/" ++ geyserLibName then (h.clones src).or (h.files path)
      else h.files path
  | _ => h.files path

section Equations

variable (h : BuildHost)

theorem setFiles_files (paths : List String) (r : Revision) (path : String) :
    (h.setFiles paths r).files path = if path ∈ paths then some r else h.files path := by
  induction paths generalizing h with
  | nil => rfl
  | cons p paths ih =>
      have hrest : (h.setFiles (p :: paths) r).files path =
          ((h.setFile p r).setFiles paths r).files path := rfl
      rw [hrest, ih]
      by_cases hmem : path ∈ paths
      · rw [if_pos hmem, if_pos (List.mem_cons_of_mem p hmem)]
      · by_cases hp : path = p
        · subst hp
          rw [if_neg hmem, if_pos List.mem_cons_self, setFile_self]
        · have hcons : path ∉ p :: paths := by
            rw [List.mem_cons, not_or]
            exact ⟨hp, hmem⟩
          rw [if_neg hmem, if_neg hcons]
          exact if_neg hp

theorem setFiles_clones (paths : List String) (r : Revision) :
    (h.setFiles paths r).clones = h.clones := by
  induction paths generalizing h with
  | nil => rfl
  | cons path paths ih => exact ih (h.setFile path r)

theorem clones_step (step : BuildStep) (src : String) :
    (h.step .completes step).2.clones src = step.clonesAfter h src := by
  cases step with
  | mkdir => rfl
  | clone repo src' =>
      cases hsrc : h.clones src' with
      | none =>
          simp only [BuildHost.step, BuildStep.clonesAfter, hsrc]
          rfl
      | some r =>
          simp only [BuildHost.step, BuildStep.clonesAfter, hsrc, Option.getD_some]
          by_cases heq : src = src'
          · rw [if_pos heq, heq, hsrc]
          · rw [if_neg heq]
  | fetch => rfl
  | checkout src' ref =>
      cases hsrc : h.clones src' with
      | none =>
          simp only [BuildHost.step, BuildStep.clonesAfter, hsrc, Option.map_none]
          by_cases heq : src = src'
          · rw [if_pos heq, heq, hsrc]
          · rw [if_neg heq]
      | some r =>
          simp only [BuildHost.step, BuildStep.clonesAfter, hsrc]
          rfl
  | cargoInstall src' out =>
      cases hsrc : h.clones src' with
      | none => simp only [BuildHost.step, BuildStep.clonesAfter, hsrc]
      | some r => simp only [BuildHost.step, BuildStep.clonesAfter, hsrc, setFiles_clones]
  | copy source dest =>
      cases hsource : h.files source with
      | none => simp only [BuildHost.step, BuildStep.clonesAfter, hsource]
      | some r =>
          simp only [BuildHost.step, BuildStep.clonesAfter, hsource]
          rfl
  | cargoBuild src' =>
      cases hsrc : h.clones src' with
      | none => simp only [BuildHost.step, BuildStep.clonesAfter, hsrc]
      | some r =>
          simp only [BuildHost.step, BuildStep.clonesAfter, hsrc]
          rfl

theorem files_step (step : BuildStep) (path : String) :
    (h.step .completes step).2.files path = step.filesAfter h path := by
  cases step with
  | mkdir => rfl
  | clone repo src =>
      cases hsrc : h.clones src with
      | none =>
          simp only [BuildHost.step, BuildStep.filesAfter, hsrc]
          rfl
      | some r => simp only [BuildHost.step, BuildStep.filesAfter, hsrc]
  | fetch => rfl
  | checkout src ref =>
      cases hsrc : h.clones src with
      | none => simp only [BuildHost.step, BuildStep.filesAfter, hsrc]
      | some r =>
          simp only [BuildHost.step, BuildStep.filesAfter, hsrc]
          rfl
  | cargoInstall src out =>
      cases hsrc : h.clones src with
      | none => simp only [BuildHost.step, BuildStep.filesAfter, hsrc, Option.none_or, ite_self]
      | some r =>
          simp only [BuildHost.step, BuildStep.filesAfter, hsrc, Outcome.done, List.take_length,
            setFiles_files, Option.some_or]
  | copy source dest =>
      cases hsource : h.files source with
      | none => simp only [BuildHost.step, BuildStep.filesAfter, hsource, Option.none_or, ite_self]
      | some r =>
          simp only [BuildHost.step, BuildStep.filesAfter, hsource, Option.some_or]
          rfl
  | cargoBuild src =>
      cases hsrc : h.clones src with
      | none => simp only [BuildHost.step, BuildStep.filesAfter, hsrc, Option.none_or, ite_self]
      | some r =>
          simp only [BuildHost.step, BuildStep.filesAfter, hsrc, Option.some_or]
          rfl

variable {h}

/-- A step never takes a file away. -/
theorem isSome_files_step {path : String} (step : BuildStep)
    (hs : (h.files path).isSome = true) :
    ((h.step .completes step).2.files path).isSome = true := by
  have hor : ∀ source : Option Revision, (source.or (h.files path)).isSome = true := by
    intro source
    rw [Option.isSome_or, hs, Bool.or_true]
  rw [files_step]
  unfold BuildStep.filesAfter
  split
  · split
    · exact hor _
    · exact hs
  · split
    · exact hor _
    · exact hs
  · split
    · exact hor _
    · exact hs
  · exact hs

theorem clone_step (repo src : String) :
    ((h.step .completes (.clone repo src)).2.clones src).isSome = true := by
  rw [clones_step]
  exact congrArg Option.isSome (if_pos rfl)

end Equations

/-! ## The steps of two builds -/

/-- Where all versions are checked out. -/
def agaveSrc (install : InstallConfig) : String := cacheDir install ++ "/src/agave"

/-- The binaries of a version, if there are any, come from its tag. -/
def OnlyOwn (install : InstallConfig) (version : String) (h : BuildHost) : Prop :=
  ∀ name ∈ agavePaths, ∀ r,
    h.files (cachePath (cacheDir install) version name) = some r → r.ref = some (tag version)

/-- The shared sources are at this ref. -/
def CheckedOut (install : InstallConfig) (ref : String) (h : BuildHost) : Prop :=
  ∃ r, h.clones (agaveSrc install) = some r ∧ r.ref = some ref

section Step

variable {install : InstallConfig} {version ref : String} {step : BuildStep} {h : BuildHost}

/-- A step of the plugin build. -/
inductive PluginStep (install : InstallConfig) (version : String) : BuildStep → Prop
  | clone (repo : String) :
      PluginStep install version (.clone repo (cacheDir install ++ "/src/geyser"))
  | fetch : PluginStep install version (.fetch (cacheDir install ++ "/src/geyser"))
  | checkout (ref : String) :
      PluginStep install version (.checkout (cacheDir install ++ "/src/geyser") ref)
  | build : PluginStep install version (.cargoBuild (cacheDir install ++ "/src/geyser"))
  | copy (source : String) :
      PluginStep install version (.copy source (outDir install version ++ "/" ++ geyserLibName))

theorem pluginStep_of_mem (hstep : step ∈ geyserSteps install version) :
    PluginStep install version step := by
  unfold geyserSteps at hstep
  cases hrepo : install.geyserRepo with
  | none =>
      rw [hrepo] at hstep
      cases hstep
  | some repo =>
      rw [hrepo] at hstep
      by_cases hempty : repo = ""
      · simp only [if_pos hempty] at hstep
        cases hstep
      · simp only [if_neg hempty, List.mem_append, List.mem_cons, List.not_mem_nil,
          or_false] at hstep
        rcases hstep with ((rfl | rfl) | href) | rfl | rfl
        · exact .clone repo
        · exact .fetch
        · cases hr : install.geyserRef with
          | none =>
              rw [hr] at href
              cases href
          | some ref =>
              rw [hr] at href
              by_cases hempty' : ref = ""
              · simp only [if_pos hempty'] at href
                cases href
              · simp only [if_neg hempty', List.mem_singleton] at href
                rw [href]
                exact .checkout ref
        · exact .build
        · exact .copy _

/-- The steps up to the checkout; the files stay as they are. -/
def agaveFront (install : InstallConfig) (version : String) : List BuildStep :=
  [.mkdir (outDir install version) (cacheDir install ++ "/src"),
    .clone install.agaveRepo (agaveSrc install), .fetch (agaveSrc install)]

def agaveCheckout (install : InstallConfig) (version : String) : BuildStep :=
  .checkout (agaveSrc install) (tag version)

def agaveInstall (install : InstallConfig) (version : String) : BuildStep :=
  .cargoInstall (agaveSrc install) (outDir install version)

def agaveCopies (install : InstallConfig) (version : String) : List BuildStep :=
  agaveBins.map fun b =>
    .copy (outDir install version ++ "/install/bin/" ++ b) (outDir install version ++ "/" ++ b)

theorem buildCommands_eq (install : InstallConfig) (version : String) :
    buildCommands install version =
      (agaveFront install version ++ [agaveCheckout install version]) ++
        agaveInstall install version ::
          (agaveCopies install version ++ geyserSteps install version) := rfl

theorem checkout_not_mem_front : agaveCheckout install version ∉ agaveFront install version := by
  simp [agaveFront, agaveCheckout]

theorem install_not_mem_before :
    agaveInstall install version ∉
      agaveFront install version ++ [agaveCheckout install version] := by
  simp [agaveInstall, agaveFront, agaveCheckout]

/-- The installer runs once. -/
theorem install_not_mem_after :
    agaveInstall install version ∉ agaveCopies install version ++ geyserSteps install version := by
  intro hmem
  rcases List.mem_append.mp hmem with hmem | hmem
  · simp [agaveInstall, agaveCopies] at hmem
  · cases pluginStep_of_mem hmem

theorem mem_buildCommands_iff :
    step ∈ buildCommands install version ↔
      step ∈ agaveFront install version ∨ step = agaveCheckout install version ∨
        step = agaveInstall install version ∨ step ∈ agaveCopies install version ∨
          step ∈ geyserSteps install version := by
  simp only [buildCommands_eq, List.mem_append, List.mem_cons, List.not_mem_nil, or_false,
    or_assoc]

section StepFiles

variable {version' name : String}

/-- The installer writes the binaries of its own version. -/
theorem agaveInstall_files (hv : '/' ∉ version.toList) (hv' : '/' ∉ version'.toList) :
    (agaveInstall install version).filesAfter h (cachePath (cacheDir install) version' name) =
        h.files (cachePath (cacheDir install) version' name) ∨
      version' = version ∧
        (agaveInstall install version).filesAfter h (cachePath (cacheDir install) version' name) =
          h.clones (agaveSrc install) := by
  have hpaths : agaveBins.map (outDir install version ++ "/install/bin/" ++ ·) =
      installedNames.map (cachePath (cacheDir install) version) := installed_eq _ _
  simp only [agaveInstall, BuildStep.filesAfter, hpaths]
  by_cases hmem : cachePath (cacheDir install) version' name ∈
      installedNames.map (cachePath (cacheDir install) version)
  · rcases List.mem_map.mp hmem with ⟨name', -, heq⟩
    have hversion : version = version' := (cachePath_inj hv hv' heq).1
    rw [if_pos hmem]
    cases hsrc : h.clones (agaveSrc install) with
    | none => exact .inl rfl
    | some r => exact .inr ⟨hversion.symm, rfl⟩
  · rw [if_neg hmem]
    exact .inl rfl

/-- A copy writes its own binary from the installed one. -/
theorem agaveCopies_files (hstep : step ∈ agaveCopies install version)
    (hv : '/' ∉ version.toList) (hv' : '/' ∉ version'.toList) :
    step.filesAfter h (cachePath (cacheDir install) version' name) =
        h.files (cachePath (cacheDir install) version' name) ∨
      version' = version ∧ name ∈ agaveBins ∧
        step.filesAfter h (cachePath (cacheDir install) version' name) =
          h.files (cachePath (cacheDir install) version' ("install/bin/" ++ name)) := by
  rcases List.mem_map.mp hstep with ⟨b, hb, rfl⟩
  have hsource : outDir install version ++ "/install/bin/" ++ b =
      cachePath (cacheDir install) version ("install/bin/" ++ b) := installed_eq_cachePath _ _ _
  have hdest : outDir install version ++ "/" ++ b = cachePath (cacheDir install) version b := rfl
  simp only [BuildStep.filesAfter, hsource, hdest]
  by_cases heq : cachePath (cacheDir install) version' name =
      cachePath (cacheDir install) version b
  · rcases cachePath_inj hv' hv heq with ⟨rfl, rfl⟩
    rw [if_pos rfl]
    cases hfile : h.files (cachePath (cacheDir install) version' ("install/bin/" ++ name)) with
    | none => exact .inl rfl
    | some r => exact .inr ⟨rfl, hb, rfl⟩
  · rw [if_neg heq]
    exact .inl rfl

/-- The plugin is built beside the binaries. -/
theorem geyserSteps_files (hstep : step ∈ geyserSteps install version)
    (hv : '/' ∉ version.toList) (hv' : '/' ∉ version'.toList) (hname : name ∈ agavePaths) :
    step.filesAfter h (cachePath (cacheDir install) version' name) =
      h.files (cachePath (cacheDir install) version' name) := by
  have hother : "geyser/target/release/" ++ geyserLibName ∉ agavePaths := by decide
  have hlib : geyserLibName ∉ agavePaths := by decide
  cases pluginStep_of_mem hstep with
  | clone => rfl
  | fetch => rfl
  | checkout => rfl
  | build =>
      rw [BuildStep.filesAfter, library_eq_cachePath]
      refine if_neg fun heq => ?_
      have hname' := (cachePath_inj hv' (by decide) heq).2
      exact hother (hname' ▸ hname)
  | copy source =>
      refine if_neg fun heq => ?_
      have hname' := (cachePath_inj hv' hv heq).2
      exact hlib (hname' ▸ hname)

/-- What a step does to a binary: the installer and the copies of its own version are all
that write there. -/
theorem step_files (hstep : step ∈ buildCommands install version)
    (hv : '/' ∉ version.toList) (hv' : '/' ∉ version'.toList) (hname : name ∈ agavePaths) :
    (h.step .completes step).2.files (cachePath (cacheDir install) version' name) =
        h.files (cachePath (cacheDir install) version' name) ∨
      version' = version ∧
        (step = agaveInstall install version ∧
            (h.step .completes step).2.files (cachePath (cacheDir install) version' name) =
              h.clones (agaveSrc install) ∨
          name ∈ agaveBins ∧
            (h.step .completes step).2.files (cachePath (cacheDir install) version' name) =
              h.files (cachePath (cacheDir install) version' ("install/bin/" ++ name))) := by
  rw [files_step]
  rcases mem_buildCommands_iff.mp hstep with hfront | rfl | rfl | hcopy | hplugin
  · left
    simp only [agaveFront, List.mem_cons, List.not_mem_nil, or_false] at hfront
    rcases hfront with rfl | rfl | rfl
    · rfl
    · rfl
    · rfl
  · exact .inl rfl
  · exact (agaveInstall_files hv hv').imp_right fun ⟨hversion, hfile⟩ =>
      ⟨hversion, .inl ⟨rfl, hfile⟩⟩
  · exact (agaveCopies_files hcopy hv hv').imp_right fun ⟨hversion, hbin, hfile⟩ =>
      ⟨hversion, .inr ⟨hbin, hfile⟩⟩
  · exact .inl (geyserSteps_files hplugin hv hv' hname)

end StepFiles

/-- A version keeps its own binaries if its installer finds its own tag. -/
theorem onlyOwn_step {version' : String} (hstep : step ∈ buildCommands install version)
    (hv : '/' ∉ version.toList) (hv' : '/' ∉ version'.toList)
    (htag : step = agaveInstall install version → CheckedOut install (tag version) h)
    (hown : OnlyOwn install version' h) : OnlyOwn install version' (h.step .completes step).2 := by
  intro name hname r hr
  rcases step_files (h := h) hstep hv hv' hname with
    hsame | ⟨rfl, ⟨hinstall, hfile⟩ | ⟨hbin, hfile⟩⟩
  · rw [hsame] at hr
    exact hown name hname r hr
  · rcases htag hinstall with ⟨r', hr', href⟩
    rw [hfile, hr', Option.some.injEq] at hr
    rw [← hr]
    exact href
  · rw [hfile] at hr
    exact hown _ (List.mem_append_right _ (List.mem_map_of_mem hbin)) r hr

/-- The shared sources once they are there: a checkout of theirs sets their ref, and nothing
else changes it. -/
theorem step_sources (hstep : step ∈ buildCommands install version) {r : Revision}
    (hr : h.clones (agaveSrc install) = some r) :
    (step = agaveCheckout install version ∧
        (h.step .completes step).2.clones (agaveSrc install) = some ⟨r.repo, some (tag version)⟩) ∨
      step ≠ agaveCheckout install version ∧
        (h.step .completes step).2.clones (agaveSrc install) = some r := by
  have hne : agaveSrc install ≠ cacheDir install ++ "/src/geyser" := by simp [agaveSrc]
  rw [clones_step]
  rcases mem_buildCommands_iff.mp hstep with hfront | rfl | rfl | hcopy | hplugin
  · refine .inr ⟨fun heq => checkout_not_mem_front (heq ▸ hfront), ?_⟩
    simp only [agaveFront, List.mem_cons, List.not_mem_nil, or_false] at hfront
    rcases hfront with rfl | rfl | rfl
    · exact hr
    · rw [BuildStep.clonesAfter, if_pos rfl, hr]
      rfl
    · exact hr
  · left
    refine ⟨rfl, ?_⟩
    rw [agaveCheckout, BuildStep.clonesAfter, if_pos rfl, hr]
    rfl
  · exact .inr ⟨by simp [agaveInstall, agaveCheckout], hr⟩
  · rcases List.mem_map.mp hcopy with ⟨b, -, rfl⟩
    exact .inr ⟨by simp [agaveCheckout], hr⟩
  · right
    cases pluginStep_of_mem hplugin with
    | clone => exact ⟨by simp [agaveCheckout], (if_neg hne).trans hr⟩
    | fetch => exact ⟨by simp [agaveCheckout], hr⟩
    | checkout =>
        exact ⟨fun heq => hne (BuildStep.checkout.inj heq).1.symm, (if_neg hne).trans hr⟩
    | build => exact ⟨by simp [agaveCheckout], hr⟩
    | copy => exact ⟨by simp [agaveCheckout], hr⟩

theorem checkedOut_step (hstep : step ∈ buildCommands install version)
    (hne : step ≠ agaveCheckout install version) (hs : CheckedOut install ref h) :
    CheckedOut install ref (h.step .completes step).2 := by
  rcases hs with ⟨r, hr, href⟩
  rcases step_sources hstep hr with ⟨heq, -⟩ | ⟨-, hafter⟩
  · exact absurd heq hne
  · exact ⟨r, hafter, href⟩

theorem isSome_sources_step (hstep : step ∈ buildCommands install version)
    (hs : (h.clones (agaveSrc install)).isSome = true) :
    ((h.step .completes step).2.clones (agaveSrc install)).isSome = true := by
  rcases Option.isSome_iff_exists.mp hs with ⟨r, hr⟩
  rcases step_sources hstep hr with ⟨-, hafter⟩ | ⟨-, hafter⟩
  · rw [hafter]
    rfl
  · rw [hafter]
    rfl

theorem checkedOut_checkout (hs : (h.clones (agaveSrc install)).isSome = true) :
    CheckedOut install (tag version)
      (h.step .completes (agaveCheckout install version)).2 := by
  rcases Option.isSome_iff_exists.mp hs with ⟨r, hr⟩
  have hmem : agaveCheckout install version ∈ buildCommands install version :=
    mem_buildCommands_iff.mpr (.inr (.inl rfl))
  rcases step_sources hmem hr with ⟨-, hafter⟩ | ⟨hne, -⟩
  · exact ⟨_, hafter, rfl⟩
  · exact absurd rfl hne

/-- A build leaves the sources at its own tag wherever it finds them so. -/
theorem checkedOut_own_step (hstep : step ∈ buildCommands install version)
    (hs : CheckedOut install (tag version) h) :
    CheckedOut install (tag version) (h.step .completes step).2 := by
  by_cases heq : step = agaveCheckout install version
  · rcases hs with ⟨r, hr, -⟩
    rw [heq]
    exact checkedOut_checkout (Option.isSome_iff_exists.mpr ⟨r, hr⟩)
  · exact checkedOut_step hstep heq hs

end Step

/-! ## What a build has run -/

/-- The build steps a process has sent, in their order. -/
def buildSteps (trace : List OpsEvent) : List BuildStep :=
  trace.filterMap fun event : OpsEvent => event.op.buildStep?

theorem buildSteps_append (xs ys : List OpsEvent) :
    buildSteps (xs ++ ys) = buildSteps xs ++ buildSteps ys := List.filterMap_append

section Runs

variable {builder : SSHTarget} {install : InstallConfig} {version : String} {α β : Type}

theorem buildSteps_of_allCalls {p : OpsProgram α} {trace : List OpsEvent} {result : Except Exn α}
    (hp : p.AllCalls fun op : OpsEffect => op.buildStep? = none) (h : Runs p trace result) :
    buildSteps trace = [] := by
  rw [buildSteps, List.filterMap_eq_nil_iff]
  exact h.allCalls hp

theorem allCalls_collect_noStep (out : String) (names : List String) :
    (collect builder out names).AllCalls fun op : OpsEffect => op.buildStep? = none := by
  apply AllCalls.each
  intro name _
  refine AllCalls.bind ?_ fun sha => trivial
  exact ⟨rfl, fun answer => by cases answer <;> trivial⟩

theorem buildSteps_runBuildSteps {steps : List BuildStep} {log : List String}
    {trace : List OpsEvent} {result : Except Exn (Option String × List String)}
    (h : Runs (runBuildSteps builder steps log) trace result) : buildSteps trace <+: steps := by
  induction steps generalizing log trace with
  | nil =>
      rw [(runs_pure_iff.mp h).1]
      exact List.prefix_rfl
  | cons step steps ih =>
      rcases runs_bind_iff.mp h with ⟨first, rest, r, hfirst, hrest, rfl⟩ | ⟨e, hfirst, -⟩
      · rw [runs_runOn_iff.mp hfirst]
        dsimp only at hrest
        by_cases hok : r.ok = true
        · rw [if_pos hok] at hrest
          exact (List.prefix_append_right_inj [step]).mpr (ih hrest)
        · rw [if_neg hok] at hrest
          rw [(runs_pure_iff.mp hrest).1]
          exact ⟨steps, rfl⟩
      · rw [runs_runOn_iff.mp hfirst]
        exact ⟨steps, rfl⟩

theorem buildSteps_freshBuild {trace : List OpsEvent} {result : Except Exn BuildResult}
    (h : Runs (freshBuild builder install version) trace result) :
    buildSteps trace <+: buildCommands install version := by
  rcases runs_bind_iff.mp h with ⟨first, rest, out, hfirst, hrest, rfl⟩ | ⟨e, hfirst, -⟩
  · have hnone : buildSteps rest = [] := by
      refine buildSteps_of_allCalls ?_ hrest
      rcases out with ⟨error, log⟩
      cases error with
      | some error => trivial
      | none => exact (allCalls_collect_noStep _ _).bind fun _ => trivial
    rw [buildSteps_append, hnone, List.append_nil]
    exact buildSteps_runBuildSteps hfirst
  · exact buildSteps_runBuildSteps hfirst

theorem buildSteps_buildArtifacts {force : Bool} {trace : List OpsEvent}
    {result : Except Exn BuildResult}
    (h : Runs (buildArtifacts builder install version force) trace result) :
    buildSteps trace <+: buildCommands install version := by
  unfold buildArtifacts at h
  cases force with
  | true => exact buildSteps_freshBuild h
  | false =>
      have htest : (isCached builder (outDir install version) (artifactNames install)).AllCalls
          fun op : OpsEffect => op.buildStep? = none := AllCalls.map _ ⟨rfl, fun _ => trivial⟩
      rcases runs_bind_iff.mp h with ⟨first, rest, cached, hfirst, hrest, rfl⟩ | ⟨e, hfirst, -⟩
      · rw [buildSteps_append, buildSteps_of_allCalls htest hfirst, List.nil_append]
        cases cached with
        | true =>
            have hcollect : (cachedBuild builder install version).AllCalls
                fun op : OpsEffect => op.buildStep? = none :=
              (allCalls_collect_noStep _ _).bind fun _ => trivial
            rw [buildSteps_of_allCalls hcollect hrest]
            exact List.nil_prefix
        | false => exact buildSteps_freshBuild hrest
      · rw [buildSteps_of_allCalls htest hfirst]
        exact List.nil_prefix

/-- The call was answered only because the file was there, or put it there. -/
inductive Confirms (path : String) : OpsEvent → Prop
  | tested (target : SSHTarget) {paths : List String} {r : CommandResult} (hpath : path ∈ paths)
      (hok : r.ok = true) : Confirms path ⟨.runner (.ssh target (.testFiles paths)), .ok r⟩
  | copied (target : SSHTarget) (source : String) {r : CommandResult} (hok : r.ok = true) :
      Confirms path ⟨.runner (.ssh target (.build (.copy source path))), .ok r⟩

theorem runBuildSteps_complete {steps : List BuildStep} {log log' : List String}
    {trace : List OpsEvent} (h : Runs (runBuildSteps builder steps log) trace (.ok (none, log'))) :
    ∀ step ∈ steps, ∃ r : CommandResult,
      ⟨.runner (.ssh builder (.build step)), .ok r⟩ ∈ trace ∧ r.ok = true := by
  induction steps generalizing log trace with
  | nil => exact nofun
  | cons step steps ih =>
      rcases runs_bind_ok_iff.mp h with ⟨first, rest, r, hfirst, hrest, rfl⟩
      rw [runs_runOn_iff.mp hfirst]
      dsimp only at hrest
      by_cases hok : r.ok = true
      · rw [if_pos hok] at hrest
        refine List.forall_mem_cons.mpr ⟨⟨r, List.mem_cons_self, hok⟩, fun step' hmem => ?_⟩
        rcases ih hrest step' hmem with ⟨r', hr', hok'⟩
        exact ⟨r', List.mem_cons_of_mem _ hr', hok'⟩
      · rw [if_neg hok] at hrest
        have hres := (runs_pure_iff.mp hrest).2
        cases hres

theorem freshBuild_confirms {trace : List OpsEvent} {result : BuildResult}
    (h : Runs (freshBuild builder install version) trace (.ok result)) (hok : result.ok = true) :
    ∀ name ∈ agaveBins, ∃ event ∈ trace,
      Confirms (outDir install version ++ "/" ++ name) event := by
  intro name hname
  rcases runs_bind_ok_iff.mp h with ⟨first, rest, out, hfirst, hrest, rfl⟩
  rcases out with ⟨error, log⟩
  cases error with
  | some error =>
      have hres := (runs_pure_iff.mp hrest).2
      cases hres
      cases hok
  | none =>
      have hcopy : (BuildStep.copy (outDir install version ++ "/install/bin/" ++ name)
          (outDir install version ++ "/" ++ name)) ∈ buildCommands install version :=
        mem_buildCommands_iff.mpr
          (.inr (.inr (.inr (.inl (List.mem_map_of_mem (f := fun b => BuildStep.copy
            (outDir install version ++ "/install/bin/" ++ b) (outDir install version ++ "/" ++ b))
            hname)))))
      rcases runBuildSteps_complete hfirst _ hcopy with ⟨r, hr, hrok⟩
      exact ⟨_, List.mem_append_left _ hr, .copied _ _ hrok⟩

/-- A build that succeeded has seen each binary in place. -/
theorem buildArtifacts_confirms {force : Bool} {trace : List OpsEvent} {result : BuildResult}
    (h : Runs (buildArtifacts builder install version force) trace (.ok result))
    (hok : result.ok = true) :
    ∀ name ∈ agaveBins, ∃ event ∈ trace,
      Confirms (outDir install version ++ "/" ++ name) event := by
  unfold buildArtifacts at h
  cases force with
  | true => exact freshBuild_confirms h hok
  | false =>
      intro name hname
      rcases runs_bind_ok_iff.mp h with ⟨first, rest, cached, hfirst, hrest, rfl⟩
      cases cached with
      | true =>
          rcases runs_map_ok_iff.mp hfirst with ⟨r, hr, hcached⟩
          rw [runs_runOn_iff.mp hr]
          refine ⟨_, List.mem_append_left _ List.mem_cons_self, .tested _ ?_ hcached.symm⟩
          exact List.mem_map_of_mem (List.mem_append_left _ hname)
      | false =>
          rcases freshBuild_confirms hrest hok name hname with ⟨event, hevent, hconfirms⟩
          exact ⟨event, List.mem_append_right _ hevent, hconfirms⟩

end Runs

/-! ## Two builds merged -/

/-- The build step of a call, if the process `i` made it. -/
def stepOf (i : Bool) (c : Bool × OpsEvent) : Option BuildStep :=
  if c.1 = i then c.2.op.buildStep? else none

theorem buildSteps_callsOf (i : Bool) (calls : List (Bool × OpsEvent)) :
    buildSteps (callsOf i calls) = calls.filterMap (stepOf i) := by
  unfold buildSteps callsOf
  rw [List.filterMap_filterMap]
  refine List.filterMap_congr fun c _ => ?_
  unfold stepOf
  by_cases hc : c.1 = i
  · rw [if_pos hc, if_pos hc]
    rfl
  · rw [if_neg hc, if_neg hc]
    rfl

/-- A process sends the steps of its own build, in their order. -/
def Merged (install : InstallConfig) (version : Bool → String) (calls : List (Bool × OpsEvent)) :
    Prop :=
  ∀ i, calls.filterMap (stepOf i) <+: buildCommands install (version i)

/-- A step of a call belongs to the build of its process. -/
def StepsOwn (install : InstallConfig) (version : Bool → String)
    (calls : List (Bool × OpsEvent)) : Prop :=
  ∀ c ∈ calls, ∀ step, c.2.op.buildStep? = some step → step ∈ buildCommands install (version c.1)

/-- Between the checkout of a build and its installer the other build checks out its tag. -/
def Crossed (install : InstallConfig) (version : Bool → String) (calls : List (Bool × OpsEvent))
    (i : Bool) : Prop :=
  ∃ before e between c after, calls = before ++ (i, e) :: (between ++ (i, c) :: after) ∧
    e.op.buildStep? = some (agaveCheckout install (version i)) ∧
    c.op.buildStep? = some (agaveInstall install (version i)) ∧
    ∃ d ∈ between, d.1 = !i ∧ d.2.op.buildStep? = some (agaveCheckout install (version !i))

section Merge

variable {install : InstallConfig} {version : Bool → String} {i : Bool} {h h' : BuildHost}
  {c : OpsEvent} {calls before between after : List (Bool × OpsEvent)}

theorem Merged.stepsOwn (hm : Merged install version calls) : StepsOwn install version calls := by
  intro c hc step hstep
  have hmem : step ∈ calls.filterMap (stepOf c.1) :=
    List.mem_filterMap.mpr ⟨c, hc, (if_pos rfl).trans hstep⟩
  exact (hm c.1).subset hmem

/-- Up to its installer a build has gone through its checkout, and after it the installer is
not run again. -/
theorem Merged.split (hm : Merged install version (before ++ (i, c) :: after))
    (hc : c.op.buildStep? = some (agaveInstall install (version i))) :
    before.filterMap (stepOf i) =
        agaveFront install (version i) ++ [agaveCheckout install (version i)] ∧
      agaveInstall install (version i) ∉ after.filterMap (stepOf i) := by
  rcases hm i with ⟨rest, hrest⟩
  have hstep : stepOf i (i, c) = some (agaveInstall install (version i)) := (if_pos rfl).trans hc
  rw [List.filterMap_append, List.filterMap_cons_some hstep, List.append_assoc, List.cons_append,
    buildCommands_eq] at hrest
  rcases (List.append_cons_inj_of_notMem install_not_mem_before install_not_mem_after).mp
    hrest.symm with ⟨hbefore, -, hafter⟩
  have hnot := @install_not_mem_after install (version i)
  rw [hafter] at hnot
  exact ⟨hbefore.symm, fun hmem => hnot (List.mem_append_left _ hmem)⟩

/-- What every step of a build keeps, a command keeps. -/
theorem steadyHost_keeps {P : BuildHost → Prop} {op : OpsEffect}
    (hstep : ∀ step, op.buildStep? = some step → P (h.step .completes step).2) (hP : P h) :
    P (steadyHost op h).2 := by
  rw [steadyHost_state]
  cases hop : op.buildStep? with
  | none => exact hP
  | some step => exact hstep step hop

theorem steadyHost_step {op : OpsEffect} {step : BuildStep} (hop : op.buildStep? = some step) :
    (steadyHost op h).2 = (h.step .completes step).2 := by
  rw [steadyHost_state, hop]
  rfl

theorem isSome_sources (hs : StepsOwn install version calls) (ha : Answered steadyHost h calls h')
    (hsome : (h.clones (agaveSrc install)).isSome = true) :
    (h'.clones (agaveSrc install)).isSome = true :=
  ha.invariant (P := fun t => (t.clones (agaveSrc install)).isSome = true) (fun c hc _ ht =>
    steadyHost_keeps (P := fun t => (t.clones (agaveSrc install)).isSome = true)
      (fun step hstep => isSome_sources_step (hs c hc step hstep) ht) ht) hsome

/-- Once a build is at its checkout, the sources are there. -/
theorem sources_of_front (hs : StepsOwn install version before)
    (ha : Answered steadyHost h before h')
    (hfront : before.filterMap (stepOf i) = agaveFront install (version i)) :
    (h'.clones (agaveSrc install)).isSome = true := by
  have hclone : BuildStep.clone install.agaveRepo (agaveSrc install) ∈
      before.filterMap (stepOf i) := by
    rw [hfront]
    exact List.mem_cons_of_mem _ List.mem_cons_self
  rcases List.mem_filterMap.mp hclone with ⟨c, hc, hstep⟩
  rcases List.append_of_mem hc with ⟨xs, ys, rfl⟩
  rcases answered_append_iff.mp ha with ⟨t, -, -, hrest⟩
  have hop : c.2.op.buildStep? = some (.clone install.agaveRepo (agaveSrc install)) := by
    unfold stepOf at hstep
    by_cases hi : c.1 = i
    · rwa [if_pos hi] at hstep
    · rw [if_neg hi] at hstep
      cases hstep
  refine isSome_sources (fun d hd => hs d ?_) hrest ?_
  · exact List.mem_append_right _ (List.mem_cons_of_mem _ hd)
  · rw [steadyHost_step hop]
    exact clone_step _ _

/-- A process that sends no steps leaves them to the other. -/
theorem other_of_step {d : Bool × OpsEvent} {step : BuildStep}
    (hnone : between.filterMap (stepOf i) = []) (hd : d ∈ between)
    (hstep : d.2.op.buildStep? = some step) : d.1 = !i := by
  have hown := List.filterMap_eq_nil_iff.mp hnone d hd
  unfold stepOf at hown
  by_cases hi : d.1 = i
  · rw [if_pos hi, hstep] at hown
    cases hown
  · exact Bool.eq_not_of_ne hi

/-- If the other build does not check out either, the sources stay at this tag. -/
theorem checkedOut_between (hs : StepsOwn install version between)
    (ha : Answered steadyHost h between h') (hnone : between.filterMap (stepOf i) = [])
    (hother : ∀ d ∈ between, d.1 = !i →
      d.2.op.buildStep? ≠ some (agaveCheckout install (version !i)))
    {ref : String} (hout : CheckedOut install ref h) : CheckedOut install ref h' := by
  refine ha.invariant (P := CheckedOut install ref) (fun d hd t ht => ?_) hout
  refine steadyHost_keeps (fun step hstep => ?_) ht
  have hi := other_of_step hnone hd hstep
  refine checkedOut_step (hs d hd step hstep) (fun heq => hother d hd hi ?_) ht
  rw [hstep, heq, hi]

/-- If it does, they end at its tag. -/
theorem checkedOut_crossed (hs : StepsOwn install version between)
    (ha : Answered steadyHost h between h') (hnone : between.filterMap (stepOf i) = [])
    {d : Bool × OpsEvent} (hd : d ∈ between)
    (hstep : d.2.op.buildStep? = some (agaveCheckout install (version !i)))
    (hsome : (h.clones (agaveSrc install)).isSome = true) :
    CheckedOut install (tag (version !i)) h' := by
  rcases List.append_of_mem hd with ⟨xs, ys, rfl⟩
  rcases answered_append_iff.mp ha with ⟨t, hxs, -, hys⟩
  have ht : (t.clones (agaveSrc install)).isSome = true :=
    isSome_sources (fun d hd => hs d (List.mem_append_left _ hd)) hxs hsome
  refine hys.invariant (P := CheckedOut install (tag (version !i))) (fun d' hd' t' ht' => ?_) ?_
  · have hmem : d' ∈ xs ++ d :: ys := List.mem_append_right _ (List.mem_cons_of_mem _ hd')
    refine steadyHost_keeps (fun step hstep' => ?_) ht'
    have hown := hs d' hmem step hstep'
    rw [other_of_step hnone hmem hstep'] at hown
    exact checkedOut_own_step hown ht'
  · rw [steadyHost_step hstep]
    exact checkedOut_checkout ht

end Merge

/-! ## What the merge leaves -/

/-- The binaries a build lists are compiled from its tag. -/
structure OwnBinaries (install : InstallConfig) (version : String) (result : BuildResult)
    (h : BuildHost) : Prop where
  names : result.artifacts.map (·.name) = artifactNames install
  compiled : ∀ artifact ∈ result.artifacts, artifact.name ∈ agaveBins →
    ∃ r, h.files artifact.remotePath = some r ∧ r.ref = some (tag version)

section Merge

variable {install : InstallConfig} {version : Bool → String} {i : Bool} {h h' : BuildHost}
  {c : OpsEvent} {calls before after : List (Bool × OpsEvent)}

/-- The installer finds its own tag, if the other build has not come in between or has the
same one. -/
theorem checkedOut_install (hm : Merged install version (before ++ (i, c) :: after))
    (ha : Answered steadyHost h before h')
    (hc : c.op.buildStep? = some (agaveInstall install (version i)))
    (hfine : tag (version !i) = tag (version i) ∨
      ¬ Crossed install version (before ++ (i, c) :: after) i) :
    CheckedOut install (tag (version i)) h' := by
  have hown := hm.stepsOwn
  rcases List.filterMap_eq_append_iff.mp (hm.split hc).1 with ⟨front, rest, rfl, hfront, hrest⟩
  rcases List.filterMap_eq_cons_iff.mp hrest with ⟨idle, e, between, rfl, hidle, he, hnone⟩
  rcases answered_append_iff.mp ha with ⟨h₁, hfront', hrest'⟩
  rcases answered_append_iff.mp hrest' with ⟨h₂, hidle', -, hbetween⟩
  have hi : e.1 = i := by
    by_contra hne
    rw [stepOf, if_neg hne] at he
    cases he
  have hcheckout : e.2.op.buildStep? = some (agaveCheckout install (version i)) := by
    rwa [stepOf, if_pos hi] at he
  have hsome : (h₂.clones (agaveSrc install)).isSome = true := by
    refine isSome_sources (fun d hd => hown d ?_) hidle' (sources_of_front (fun d hd => hown d ?_)
      hfront' hfront)
    · simp [hd]
    · simp [hd]
  have hout : CheckedOut install (tag (version i)) (steadyHost e.2.op h₂).2 := by
    rw [steadyHost_step hcheckout]
    exact checkedOut_checkout hsome
  have hbetweenOwn : StepsOwn install version between := fun d hd => hown d (by simp [hd])
  by_cases hother : ∃ d ∈ between, d.1 = !i ∧
      d.2.op.buildStep? = some (agaveCheckout install (version !i))
  · rcases hother with ⟨d, hd, hdi, hstep⟩
    rcases hfine with htag | hcrossed
    · rw [← htag]
      rcases hout with ⟨r, hr, -⟩
      exact checkedOut_crossed hbetweenOwn hbetween hnone hd hstep
        (Option.isSome_iff_exists.mpr ⟨r, hr⟩)
    · refine absurd ⟨front ++ idle, e.2, between, c, after, ?_, hcheckout, hc, d, hd, hdi, hstep⟩
        hcrossed
      rcases e with ⟨j, e⟩
      rw [← hi]
      simp
  · exact checkedOut_between hbetweenOwn hbetween hnone
      (fun d hd hdi hstep => hother ⟨d, hd, hdi, hstep⟩) hout

/-- Where every installer finds its own tag, the binaries of a version stay its own. -/
theorem onlyOwn_of_fine {v : String} (hm : Merged install version calls)
    (ha : Answered steadyHost h calls h') (hplain : ∀ i, PlainName (version i)) (hv : PlainName v)
    (hfine : ∀ i, tag (version !i) = tag (version i) ∨ ¬ Crossed install version calls i)
    (hown : OnlyOwn install v h) : OnlyOwn install v h' := by
  refine ha.invariant_at (P := OnlyOwn install v) (fun before c after heq t ht hown => ?_) hown
  rcases c with ⟨i, c⟩
  subst heq
  refine steadyHost_keeps (fun step hstep => ?_) hown
  have hmem : step ∈ buildCommands install (version i) := hm.stepsOwn (i, c) (by simp) step hstep
  refine onlyOwn_step hmem (hplain i).no_slash hv.no_slash (fun heq => ?_) hown
  exact checkedOut_install hm ht (heq ▸ hstep) (hfine i)

theorem install_files {r : Revision} {v : String} (hr : h.clones (agaveSrc install) = some r)
    {name : String} (hname : name ∈ installedNames) :
    (h.step .completes (agaveInstall install v)).2.files (cachePath (cacheDir install) v name) =
      some r := by
  have hpaths : agaveBins.map (outDir install v ++ "/install/bin/" ++ ·) =
      installedNames.map (cachePath (cacheDir install) v) := installed_eq _ _
  rw [files_step, agaveInstall, BuildStep.filesAfter, hpaths,
    if_pos (List.mem_map_of_mem hname), hr]
  rfl

/-- What the installer of a version has put under its own directory stays there, unless that
installer runs again. -/
theorem installed_stays {r : Revision} {name : String} (hname : name ∈ agavePaths)
    (hbin : name ∉ agaveBins) (hplain : ∀ i, PlainName (version i))
    (htag : tag (version !i) ≠ tag (version i)) (hown : StepsOwn install version after)
    (hlater : agaveInstall install (version i) ∉ after.filterMap (stepOf i))
    (ha : Answered steadyHost h after h')
    (hfile : h.files (cachePath (cacheDir install) (version i) name) = some r) :
    h'.files (cachePath (cacheDir install) (version i) name) = some r := by
  refine ha.invariant
    (P := fun t => t.files (cachePath (cacheDir install) (version i) name) = some r)
    (fun d hd t ht => ?_) hfile
  refine steadyHost_keeps
    (P := fun t => t.files (cachePath (cacheDir install) (version i) name) = some r)
    (fun step hstep => ?_) ht
  have hmem := hown d hd step hstep
  rcases step_files (h := t) hmem (hplain d.1).no_slash (hplain i).no_slash hname with
    hsame | ⟨hversion, ⟨rfl, -⟩ | ⟨hfalse, -⟩⟩
  · rw [hsame]
    exact ht
  · have hdi : d.1 = i := by
      by_contra hne
      rw [Bool.eq_not_of_ne hne] at hversion
      exact htag (congrArg tag hversion.symm)
    refine absurd (List.mem_filterMap.mpr ⟨d, hd, ?_⟩) hlater
    rw [stepOf, if_pos hdi, hstep, hdi]
  · exact absurd hfalse hbin

/-- An installer that found the other tag leaves binaries of the other version for good. -/
theorem not_onlyOwn_of_crossed (hm : Merged install version calls)
    (ha : Answered steadyHost h calls h') (hplain : ∀ i, PlainName (version i))
    (htag : tag (version !i) ≠ tag (version i)) (hcrossed : Crossed install version calls i) :
    ¬ OnlyOwn install (version i) h' := by
  rcases hcrossed with ⟨before, e, between, c, after, rfl, he, hc, d, hd, hdi, hstep⟩
  have hown := hm.stepsOwn
  have hlist : before ++ (i, e) :: (between ++ (i, c) :: after) =
      (before ++ (i, e) :: between) ++ (i, c) :: after := by simp
  rcases Merged.split (hlist ▸ hm) hc with ⟨hbefore, hlater⟩
  have hcheckout : stepOf i (i, e) = some (agaveCheckout install (version i)) :=
    (if_pos rfl).trans he
  rw [List.filterMap_append, List.filterMap_cons_some hcheckout] at hbefore
  rcases (List.append_cons_inj_of_notMem checkout_not_mem_front (by simp)).mp hbefore.symm
    with ⟨hfront, -, hnone⟩
  rcases answered_append_iff.mp ha with ⟨h₁, hfront', -, hrest⟩
  rcases answered_append_iff.mp hrest with ⟨h₂, hbetween, -, hafter⟩
  have hsome : (h₁.clones (agaveSrc install)).isSome = true :=
    sources_of_front (fun d hd => hown d (by simp [hd])) hfront' hfront.symm
  have hout : CheckedOut install (tag (version !i)) h₂ := by
    refine checkedOut_crossed (fun d hd => hown d (by simp [hd])) hbetween hnone.symm hd hstep ?_
    rw [steadyHost_step he]
    rcases checkedOut_checkout hsome with ⟨r, hr, -⟩
    exact Option.isSome_iff_exists.mpr ⟨r, hr⟩
  rcases hout with ⟨r, hr, href⟩
  have hpath : "install/bin/agave-validator" ∈ agavePaths := by decide
  have hfile : h'.files (cachePath (cacheDir install) (version i) "install/bin/agave-validator") =
      some r := by
    refine installed_stays hpath (by decide) hplain htag (fun d hd => hown d (by simp [hd])) hlater
      hafter ?_
    rw [steadyHost_step hc]
    exact install_files hr (by decide)
  intro honly
  have hsame := honly _ hpath r hfile
  rw [href, Option.some.injEq] at hsame
  exact htag hsame

/-- A file that a build has seen in place is still there at the end. -/
theorem isSome_of_confirms {path : String} {event : OpsEvent} (hconfirms : Confirms path event)
    (ha : Answered steadyHost h calls h') (hmem : (i, event) ∈ calls) :
    (h'.files path).isSome = true := by
  rcases List.append_of_mem hmem with ⟨before, after, rfl⟩
  rcases answered_append_iff.mp ha with ⟨t, -, hanswer, hafter⟩
  refine hafter.invariant (P := fun t => (t.files path).isSome = true) (fun c _ t ht =>
    steadyHost_keeps (P := fun t => (t.files path).isSome = true)
      (fun step _ => isSome_files_step step ht) ht) ?_
  cases hconfirms with
  | @tested target paths r hpath hok =>
      have hr : r = exitWith (paths.all fun path => (t.files path).isSome) := Except.ok.inj hanswer
      rw [hr, exitWith_ok, List.all_eq_true] at hok
      exact hok path hpath
  | @copied target source r hok =>
      have hr : r = exitWith (t.step .completes (.copy source path)).1 := Except.ok.inj hanswer
      rw [hr, exitWith_ok] at hok
      show ((t.step .completes (.copy source path)).2.files path).isSome = true
      cases hsource : t.files source with
      | none =>
          simp only [BuildHost.step, hsource] at hok
          cases hok
      | some r' =>
          simp only [BuildHost.step, hsource]
          exact congrArg Option.isSome (setFile_self t path r')

end Merge

/-- Two builds keep their versions apart if and only if they build the same tag or neither
checks out between the checkout and the installer of the other. -/
theorem builds_apart_iff (builder : SSHTarget) (install : InstallConfig) {version : Bool → String}
    (force : Bool → Bool) {h h' : BuildHost} {calls : List (Bool × OpsEvent)}
    {results : Bool → Except Exn BuildResult} (hplain : ∀ i, PlainName (version i))
    (hown : ∀ i, OnlyOwn install (version i) h)
    (hrun : Interleaving steadyHost
      (fun i => buildArtifacts builder install (version i) (force i)) h calls h' results) :
    ((∀ i result, results i = .ok result → result.ok = true →
        OwnBinaries install (version i) result h') ∧ ∀ i, OnlyOwn install (version i) h') ↔
      tag (version true) = tag (version false) ∨ ∀ i, ¬ Crossed install version calls i := by
  have hm : Merged install version calls := fun i => by
    rw [← buildSteps_callsOf]
    exact buildSteps_buildArtifacts (hrun.runs i)
  constructor
  · rintro ⟨-, honly⟩
    by_cases htag : tag (version true) = tag (version false)
    · exact .inl htag
    · refine .inr fun i hcrossed => ?_
      have hne : tag (version !i) ≠ tag (version i) := by
        cases i with
        | false => exact htag
        | true => exact fun heq => htag heq.symm
      exact not_onlyOwn_of_crossed hm hrun.answered hplain hne hcrossed (honly i)
  · intro hfine
    have hfine' : ∀ i, tag (version !i) = tag (version i) ∨ ¬ Crossed install version calls i := by
      intro i
      rcases hfine with htag | hnot
      · cases i with
        | false => exact .inl htag
        | true => exact .inl htag.symm
      · exact .inr (hnot i)
    have honly : ∀ i, OnlyOwn install (version i) h' := fun i =>
      onlyOwn_of_fine hm hrun.answered hplain (hplain i) hfine' (hown i)
    refine ⟨fun i result hresult hok => ?_, honly⟩
    have hi := hrun.runs i
    rw [hresult] at hi
    rcases runs_buildArtifacts hi hok with ⟨hnames, hreported⟩
    refine ⟨hnames, fun artifact ha hbin => ?_⟩
    rcases buildArtifacts_confirms hi hok artifact.name hbin with ⟨event, hevent, hconfirms⟩
    have hsome := isSome_of_confirms hconfirms hrun.answered (mem_callsOf.mp hevent)
    rcases Option.isSome_iff_exists.mp hsome with ⟨r, hr⟩
    rw [(hreported artifact ha).1]
    exact ⟨r, hr, honly i artifact.name (List.mem_append_left _ hbin) r hr⟩

/-! ## A crossing -/

section Crossing

def twoVersions (i : Bool) : String := if i then "3.0.1" else "3.0.2"

/-- The first build checks out its tag, then the second runs to its end. -/
def crossingOrder : List Bool :=
  List.replicate 5 true ++ List.replicate 12 false ++ List.replicate 7 true

def crossingRun : Scheduled opsSignature Exn BuildResult BuildHost Bool :=
  schedule steadyHost crossingOrder
    (fun i => buildArtifacts (.builder { host := "10.0.0.9" }) builtInstall (twoVersions i) false)
    BuildHost.empty

theorem crossingRun_ends (i : Bool) : (result? (crossingRun.programs i)).isSome = true := by
  cases i
  · decide +kernel
  · decide +kernel

def crossingResults (i : Bool) : Except Exn BuildResult :=
  (result? (crossingRun.programs i)).get (crossingRun_ends i)

theorem crossingRun_interleaving :
    Interleaving steadyHost
      (fun i => buildArtifacts (.builder { host := "10.0.0.9" }) builtInstall (twoVersions i) false)
      BuildHost.empty crossingRun.calls crossingRun.state crossingResults :=
  schedule_interleaving fun i => result?_eq_some_iff.mp (Option.some_get (crossingRun_ends i)).symm

theorem twoVersions_plain (i : Bool) : PlainName (twoVersions i) := by
  cases i
  · exact ⟨by decide, by decide, by decide, List.all_eq_true.mp (by decide)⟩
  · exact ⟨by decide, by decide, by decide, List.all_eq_true.mp (by decide)⟩

theorem onlyOwn_empty (install : InstallConfig) (version : String) :
    OnlyOwn install version BuildHost.empty := by
  intro name _ r hr
  cases hr

theorem crossingRun_compiled :
    crossingRun.state.files (cachePath (cacheDir builtInstall) "3.0.1" "agave-validator") =
      some ⟨"https://github.com/anza-xyz/agave", some "v3.0.2"⟩ := by
  decide +kernel

theorem builds_cross :
    ¬ ∀ (builder : SSHTarget) (install : InstallConfig) (version : Bool → String)
      (force : Bool → Bool) (h h' : BuildHost) (calls : List (Bool × OpsEvent))
      (results : Bool → Except Exn BuildResult), version true ≠ version false →
      (∀ i, PlainName (version i)) → (∀ i, OnlyOwn install (version i) h) →
      Interleaving steadyHost (fun i => buildArtifacts builder install (version i) (force i))
        h calls h' results →
      (∀ i result, results i = .ok result → result.ok = true →
        OwnBinaries install (version i) result h') ∧ ∀ i, OnlyOwn install (version i) h' := by
  intro h
  have honly := (h _ builtInstall twoVersions (fun _ => false) _ _ _ _ (by decide)
    twoVersions_plain (fun _ => onlyOwn_empty _ _) crossingRun_interleaving).2 true
  have hname : "agave-validator" ∈ agavePaths := by decide
  have htag := honly _ hname _ crossingRun_compiled
  exact absurd htag (by decide)

theorem builds_apart_iff_crossing :
    ((∀ i result, crossingResults i = .ok result → result.ok = true →
        OwnBinaries builtInstall (twoVersions i) result crossingRun.state) ∧
      ∀ i, OnlyOwn builtInstall (twoVersions i) crossingRun.state) ↔
      tag (twoVersions true) = tag (twoVersions false) ∨
        ∀ i, ¬ Crossed builtInstall twoVersions crossingRun.calls i :=
  builds_apart_iff _ builtInstall (fun _ => false) twoVersions_plain
    (fun _ => onlyOwn_empty _ _) crossingRun_interleaving

end Crossing

end Solfleet
