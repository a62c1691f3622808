import Solfleet.Orchestration.CrossedBuilds

/-! # Builds that disagree

A build that breaks off at each of its commands leaves the host as it is, so a sequence
of builds can be thinned out to any two of its own. The second of two builds that complete
compiles from the clones of the first, or lists the set of the first, and what it lists
shows where the two name different sources.
-/

namespace Solfleet

open Interaction Program

/-! ## A sequence thinned out -/

/-- How many outcomes a call takes. -/
def OpsEffect.outcomes : OpsEffect → Nat
  | .runner (.ssh _ (.build _)) => 1
  | .runner (.ssh _ (.testFiles _)) => 1
  | .runner (.ssh _ (.sha256sum _)) => 1
  | _ => 0

theorem buildHandler_agrees (op : OpsEffect) (h : BuildHost) {o o' : Nat → Outcome}
    (ho : 0 < op.outcomes → o' 0 = o 0) :
    (buildHandler op (h, o')).1 = (buildHandler op (h, o)).1 ∧
      (buildHandler op (h, o')).2 =
        ((buildHandler op (h, o)).2.1, fun n => o' (n + op.outcomes)) := by
  cases op with
  | runner invocation =>
      cases invocation with
      | ssh target command =>
          cases command with
          | build step =>
              have hfirst := ho Nat.one_pos
              simp only [buildHandler, hfirst, OpsEffect.outcomes, and_self]
          | testFiles paths =>
              have hfirst := ho Nat.one_pos
              simp only [buildHandler, hfirst, OpsEffect.outcomes, and_self]
          | sha256sum path =>
              have hfirst := ho Nat.one_pos
              simp only [buildHandler, hfirst, OpsEffect.outcomes, and_self]
          | _ => exact ⟨rfl, rfl⟩
      | scpFrom => exact ⟨rfl, rfl⟩
      | scpTo => exact ⟨rfl, rfl⟩
  | mkdtemp => exact ⟨rfl, rfl⟩
  | sample => exact ⟨rfl, rfl⟩
  | leader => exact ⟨rfl, rfl⟩
  | sleep => exact ⟨rfl, rfl⟩
  | audit => exact ⟨rfl, rfl⟩

/-- The first `n` outcomes of one sequence, then another. -/
def splice (n : Nat) (first rest : Nat → Outcome) : Nat → Outcome :=
  fun k => if k < n then first k else rest (k - n)

/-- A program takes finitely many outcomes; what comes behind them is left to the next. -/
theorem exec_splice {α : Type} (p : OpsProgram α) (h : BuildHost) (o : Nat → Outcome) :
    ∃ n, ∀ rest,
      (exec buildHandler p (h, splice n o rest)).result = (exec buildHandler p (h, o)).result ∧
        (exec buildHandler p (h, splice n o rest)).final =
          ((exec buildHandler p (h, o)).final.1, rest) := by
  induction p generalizing h o with
  | done r => exact ⟨0, fun rest => ⟨rfl, rfl⟩⟩
  | call op next ih =>
      have hself : (buildHandler op (h, o)).2 =
          ((buildHandler op (h, o)).2.1, fun n => o (n + op.outcomes)) :=
        (buildHandler_agrees op h fun _ => rfl).2
      rcases ih (buildHandler op (h, o)).1 (buildHandler op (h, o)).2.1
        (fun n => o (n + op.outcomes)) with ⟨n, hn⟩
      refine ⟨op.outcomes + n, fun rest => ?_⟩
      have hfirst : 0 < op.outcomes → splice (op.outcomes + n) o rest 0 = o 0 :=
        fun hpos => if_pos (by omega)
      have hrest : (fun k => splice (op.outcomes + n) o rest (k + op.outcomes)) =
          splice n (fun k => o (k + op.outcomes)) rest := by
        funext k
        unfold splice
        by_cases hk : k < n
        · rw [if_pos hk, if_pos (by omega)]
        · rw [if_neg hk, if_neg (by omega)]
          exact congrArg rest (by omega)
      have hagrees := buildHandler_agrees op h hfirst
      rw [hrest] at hagrees
      simp only [exec]
      rw [hagrees.1, hagrees.2, hself]
      exact hn rest

def allBreakOff : Nat → Outcome := fun _ => .breaksOff 0

def allComplete : Nat → Outcome := fun _ => .completes

theorem step_breaksOff (h : BuildHost) (step : BuildStep) :
    (h.step (.breaksOff 0) step).2 = h := by
  cases step with
  | mkdir => rfl
  | clone repo src =>
      cases hsrc : h.clones src with
      | none => simp only [BuildHost.step, hsrc, BuildHost.apply, Outcome.done]; rfl
      | some r => simp only [BuildHost.step, hsrc]
  | fetch => rfl
  | checkout src ref =>
      cases hsrc : h.clones src with
      | none => simp only [BuildHost.step, hsrc]
      | some r => simp only [BuildHost.step, hsrc, BuildHost.apply, Outcome.done]; rfl
  | cargoInstall src out =>
      cases hsrc : h.clones src with
      | none => simp only [BuildHost.step, hsrc]
      | some r =>
          simp only [BuildHost.step, hsrc, Outcome.done, Nat.zero_min, List.take_zero]
          rfl
  | copy source dest =>
      cases hsource : h.files source with
      | none => simp only [BuildHost.step, hsource]
      | some r => simp only [BuildHost.step, hsource, BuildHost.apply, Outcome.done]; rfl
  | cargoBuild src =>
      cases hsrc : h.clones src with
      | none => simp only [BuildHost.step, hsrc]
      | some r => simp only [BuildHost.step, hsrc, BuildHost.apply, Outcome.done]; rfl

theorem exec_breaksOff {α : Type} (p : OpsProgram α) (h : BuildHost) :
    (exec buildHandler p (h, allBreakOff)).final.1 = h := by
  have hkeeps : ∀ op : OpsEffect, (buildHandler op (h, allBreakOff)).2 = (h, allBreakOff) := by
    intro op
    cases op with
    | runner invocation =>
        cases invocation with
        | ssh target command =>
            cases command with
            | build step => exact congrArg (fun host => (host, allBreakOff)) (step_breaksOff h step)
            | _ => rfl
        | scpFrom => rfl
        | scpTo => rfl
    | mkdtemp => rfl
    | sample => rfl
    | leader => rfl
    | sleep => rfl
    | audit => rfl
  have hfinal : (exec buildHandler p (h, allBreakOff)).final = (h, allBreakOff) := by
    induction p with
    | done r => rfl
    | call op next ih =>
        simp only [exec]
        rw [hkeeps op]
        exact ih _
  rw [hfinal]

/-- Any builds of a sequence run as if the others were not there, once the others break off. -/
theorem buildRun_sublist (builder : SSHTarget) {requests requests' : List BuildRequest}
    (hsub : requests.Sublist requests') (h : BuildHost) (outcomes : Nat → Outcome) :
    ∃ outcomes', ∀ record ∈ buildRun builder requests (h, outcomes),
      record ∈ buildRun builder requests' (h, outcomes') := by
  induction hsub generalizing h outcomes with
  | slnil => exact ⟨outcomes, fun _ hr => hr⟩
  | cons request hsub ih =>
      rcases ih h outcomes with ⟨later, hlater⟩
      rcases exec_splice (buildArtifacts builder request.install request.version request.force) h
        allBreakOff with ⟨n, hn⟩
      refine ⟨splice n allBreakOff later, fun record hr => List.mem_cons_of_mem _ ?_⟩
      rw [(hn later).2, exec_breaksOff]
      exact hlater record hr
  | cons_cons request hsub ih =>
      rcases exec_splice (buildArtifacts builder request.install request.version request.force) h
        outcomes with ⟨n, hn⟩
      rcases ih (exec buildHandler (buildArtifacts builder request.install request.version
        request.force) (h, outcomes)).final.1 (exec buildHandler (buildArtifacts builder
          request.install request.version request.force) (h, outcomes)).final.2 with
        ⟨later, hlater⟩
      refine ⟨splice n outcomes later, fun record hr => ?_⟩
      simp only [buildRun, List.mem_cons] at hr ⊢
      rw [(hn later).1, (hn later).2]
      exact hr.imp_right (hlater record)

/-! ## Steps that complete -/

/-- The steps succeed one after the other. -/
inductive BuildHost.Leads : BuildHost → List BuildStep → BuildHost → Prop
  | nil (h : BuildHost) : Leads h [] h
  | cons {h h' : BuildHost} {step : BuildStep} {steps : List BuildStep}
      (hok : (h.step .completes step).1 = true)
      (hrest : Leads (h.step .completes step).2 steps h') : Leads h (step :: steps) h'

section Leads

variable {h h' h'' : BuildHost} {xs ys : List BuildStep}

theorem BuildHost.Leads.append (hxs : h.Leads xs h') (hys : h'.Leads ys h'') :
    h.Leads (xs ++ ys) h'' := by
  induction hxs with
  | nil => exact hys
  | cons hok _ ih => exact .cons hok (ih hys)

theorem leads_step {step : BuildStep} (hstep : h.step .completes step = (true, h')) :
    h.Leads [step] h' := by
  have hok : (h.step .completes step).1 = true := by rw [hstep]
  have hleads := BuildHost.Leads.cons hok (.nil _)
  rwa [hstep] at hleads

/-- A clone that is there stays as it is. -/
def BuildHost.cloned (h : BuildHost) (src repo : String) : Revision :=
  (h.clones src).getD ⟨repo, none⟩

theorem leads_clone (h : BuildHost) (repo src : String) :
    h.Leads [.clone repo src] (h.setClone src (h.cloned src repo)) := by
  apply leads_step
  cases hsrc : h.clones src with
  | none =>
      simp only [BuildHost.step, BuildHost.cloned, hsrc]
      rfl
  | some r =>
      have hclones : (fun path => if path = src then some r else h.clones path) = h.clones := by
        funext path
        by_cases hpath : path = src
        · rw [if_pos hpath, hpath, hsrc]
        · rw [if_neg hpath]
      simp only [BuildHost.step, BuildHost.cloned, BuildHost.setClone, hsrc, Option.getD_some,
        hclones]
      rfl

theorem leads_fetch {src : String} {r : Revision} (hr : h.clones src = some r) :
    h.Leads [.fetch src] h := by
  apply leads_step
  simp only [BuildHost.step, hr]
  rfl

theorem leads_checkout {src : String} {r : Revision} (hr : h.clones src = some r) (ref : String) :
    h.Leads [.checkout src ref] (h.setClone src { r with ref := some ref }) := by
  apply leads_step
  simp only [BuildHost.step, hr]
  rfl

theorem leads_cargoInstall {src out : String} {r : Revision} (hr : h.clones src = some r) :
    h.Leads [.cargoInstall src out]
      (h.setFiles (agaveBins.map (out ++ "/install/bin/" ++ ·)) r) := by
  apply leads_step
  simp only [BuildHost.step, hr, Outcome.done, List.take_length]
  rfl

theorem leads_copy {source dest : String} {r : Revision} (hr : h.files source = some r) :
    h.Leads [.copy source dest] (h.setFile dest r) := by
  apply leads_step
  simp only [BuildHost.step, hr]
  rfl

theorem leads_cargoBuild {src : String} {r : Revision} (hr : h.clones src = some r) :
    h.Leads [.cargoBuild src] (h.setFile (src ++ "/target/release/" ++ geyserLibName) r) := by
  apply leads_step
  simp only [BuildHost.step, hr]
  rfl

end Leads

/-! ## A build that completes -/

def geyserSrc (install : InstallConfig) : String := cacheDir install ++ "/src/geyser"

theorem agaveSrc_ne_geyserSrc (install : InstallConfig) : agaveSrc install ≠ geyserSrc install := by
  simp [agaveSrc, geyserSrc]

def agaveRevision (install : InstallConfig) (version : String) (h : BuildHost) : Revision :=
  { h.cloned (agaveSrc install) install.agaveRepo with ref := some (tag version) }

/-- What the plugin is at: its clone stays where it is unless the build names a ref. -/
def geyserRevision (install : InstallConfig) (repo : String) (h : BuildHost) : Revision :=
  { h.cloned (geyserSrc install) repo with
    ref := if Text.truthy install.geyserRef then install.geyserRef
      else (h.cloned (geyserSrc install) repo).ref }

/-- What a build makes of the host it finds. -/
structure Compiled (install : InstallConfig) (version : String) (h h' : BuildHost) : Prop where
  agaveClone : h'.clones (agaveSrc install) = some (agaveRevision install version h)
  agave : ∀ bin ∈ agaveBins,
    h'.files (outDir install version ++ "/" ++ bin) = some (agaveRevision install version h)
  geyser : ∀ repo, install.geyserRepo = some repo → repo ≠ "" →
    h'.clones (geyserSrc install) = some (geyserRevision install repo h) ∧
      h'.files (outDir install version ++ "/" ++ geyserLibName) =
        some (geyserRevision install repo h)

section Completing

variable {install : InstallConfig} {version : String} {h : BuildHost}

theorem setClone_self (h : BuildHost) (src : String) (r : Revision) :
    (h.setClone src r).clones src = some r := if_pos rfl

theorem setClone_setClone (h : BuildHost) (src : String) (r r' : Revision) :
    (h.setClone src r).setClone src r' = h.setClone src r' := by
  simp only [BuildHost.setClone, BuildHost.mk.injEq, and_true]
  funext path
  by_cases hpath : path = src
  · rw [if_pos hpath, if_pos hpath]
  · rw [if_neg hpath, if_neg hpath, if_neg hpath]

theorem setFile_keeps {path path' : String} {r : Revision} (hs : h.files path' = some r) :
    (h.setFile path r).files path' = some r := by
  simp only [BuildHost.setFile]
  split
  · rfl
  · exact hs

/-- The copies are of one revision, so they take nothing from each other. -/
theorem leads_copies {out : String} {r : Revision} (bins : List String)
    (hbins : ∀ bin ∈ bins, h.files (out ++ "/install/bin/" ++ bin) = some r) :
    ∃ h', h.Leads (bins.map fun b =>
        .copy (out ++ "/install/bin/" ++ b) (out ++ "/" ++ b)) h' ∧
      h'.clones = h.clones ∧ (∀ path, h.files path = some r → h'.files path = some r) ∧
        ∀ bin ∈ bins, h'.files (out ++ "/" ++ bin) = some r := by
  induction bins generalizing h with
  | nil => exact ⟨h, .nil h, rfl, fun _ hs => hs, by simp⟩
  | cons bin bins ih =>
      rcases List.forall_mem_cons.mp hbins with ⟨hbin, hrest⟩
      rcases ih (h := h.setFile (out ++ "/" ++ bin) r) fun b hb => setFile_keeps (hrest b hb) with
        ⟨h', hleads, hclones, hkeeps, hcopied⟩
      refine ⟨h', (leads_copy hbin).append hleads, hclones, fun path hs => ?_, ?_⟩
      · exact hkeeps path (setFile_keeps hs)
      · exact List.forall_mem_cons.mpr ⟨hkeeps _ (setFile_self ..), hcopied⟩

theorem leads_agave (install : InstallConfig) (version : String) (h : BuildHost) :
    ∃ h', h.Leads ((agaveFront install version ++ [agaveCheckout install version]) ++
        agaveInstall install version :: agaveCopies install version) h' ∧
      h'.clones =
          (h.setClone (agaveSrc install) (agaveRevision install version h)).clones ∧
        ∀ bin ∈ agaveBins,
          h'.files (outDir install version ++ "/" ++ bin) =
            some (agaveRevision install version h) := by
  have hfront : h.Leads (agaveFront install version)
      (h.setClone (agaveSrc install) (h.cloned (agaveSrc install) install.agaveRepo)) :=
    (leads_step rfl).append ((leads_clone h _ _).append (leads_fetch (setClone_self ..)))
  have hcheckout : (h.setClone (agaveSrc install)
      (h.cloned (agaveSrc install) install.agaveRepo)).Leads [agaveCheckout install version]
      (h.setClone (agaveSrc install) (agaveRevision install version h)) := by
    have hset := leads_checkout (setClone_self h (agaveSrc install)
      (h.cloned (agaveSrc install) install.agaveRepo)) (tag version)
    rwa [setClone_setClone] at hset
  have hinstall : (h.setClone (agaveSrc install) (agaveRevision install version h)).Leads
      [agaveInstall install version] _ := leads_cargoInstall (setClone_self ..)
  rcases leads_copies agaveBins fun bin (hbin : bin ∈ agaveBins) =>
    (setFiles_files (h.setClone (agaveSrc install) (agaveRevision install version h))
      (agaveBins.map (outDir install version ++ "/install/bin/" ++ ·)) _ _).trans
        (if_pos (List.mem_map_of_mem hbin)) with ⟨h', hcopies, hclones, -, hfiles⟩
  refine ⟨h', (hfront.append hcheckout).append (hinstall.append hcopies), ?_, hfiles⟩
  rw [hclones, setFiles_clones]

/-- The ref is checked out only where the build names one. -/
def geyserCheckout (install : InstallConfig) : List BuildStep :=
  if Text.truthy install.geyserRef then
    [.checkout (geyserSrc install) (install.geyserRef.getD "")]
  else []

theorem geyserSteps_of_truthy {repo : String} (hrepo : install.geyserRepo = some repo)
    (hne : repo ≠ "") :
    geyserSteps install version =
      [.clone repo (geyserSrc install), .fetch (geyserSrc install)] ++
        (geyserCheckout install ++ [.cargoBuild (geyserSrc install),
          .copy (geyserSrc install ++ "/target/release/" ++ geyserLibName)
            (outDir install version ++ "/" ++ geyserLibName)]) := by
  rw [geyserSteps_eq hrepo hne]
  unfold geyserCheckout
  cases hgref : install.geyserRef with
  | none => rfl
  | some ref =>
      by_cases hempty : ref = ""
      · subst hempty
        rfl
      · have htruthy : Text.truthy (some ref) = true := by simp [Text.truthy, hempty]
        rw [if_pos htruthy]
        simp only [if_neg hempty]
        rfl

theorem leads_geyserCheckout (install : InstallConfig) (repo : String) (h : BuildHost) :
    (h.setClone (geyserSrc install) (h.cloned (geyserSrc install) repo)).Leads
      (geyserCheckout install)
      (h.setClone (geyserSrc install) (geyserRevision install repo h)) := by
  unfold geyserCheckout geyserRevision
  by_cases htruthy : Text.truthy install.geyserRef = true
  · rw [if_pos htruthy, if_pos htruthy]
    have hset := leads_checkout (setClone_self h (geyserSrc install)
      (h.cloned (geyserSrc install) repo)) (install.geyserRef.getD "")
    rw [setClone_setClone] at hset
    cases hgref : install.geyserRef with
    | none => simp [hgref, Text.truthy] at htruthy
    | some ref =>
        rw [hgref] at hset
        exact hset
  · rw [if_neg htruthy, if_neg htruthy]
    exact .nil _

theorem leads_geyser {repo : String} (hrepo : install.geyserRepo = some repo) (hne : repo ≠ "")
    (version : String) (h : BuildHost) :
    h.Leads (geyserSteps install version)
      (((h.setClone (geyserSrc install) (geyserRevision install repo h)).setFile
        (geyserSrc install ++ "/target/release/" ++ geyserLibName)
          (geyserRevision install repo h)).setFile
            (outDir install version ++ "/" ++ geyserLibName)
              (geyserRevision install repo h)) := by
  rw [geyserSteps_of_truthy hrepo hne]
  have hclone : h.Leads [.clone repo (geyserSrc install), .fetch (geyserSrc install)] _ :=
    (leads_clone h _ _).append (leads_fetch (setClone_self ..))
  have hbuild : (h.setClone (geyserSrc install) (geyserRevision install repo h)).Leads
      [.cargoBuild (geyserSrc install)] _ := leads_cargoBuild (setClone_self ..)
  exact hclone.append ((leads_geyserCheckout install repo h).append
    (hbuild.append (leads_copy (setFile_self ..))))

theorem library_beside (install : InstallConfig) (hv : '/' ∉ version.toList) {bin : String}
    (hbin : bin ∈ agaveBins) :
    outDir install version ++ "/" ++ bin ≠ outDir install version ++ "/" ++ geyserLibName ∧
      outDir install version ++ "/" ++ bin ≠
        geyserSrc install ++ "/target/release/" ++ geyserLibName := by
  have hlib : geyserLibName ∉ agaveBins := by decide
  have hbuilt : "geyser/target/release/" ++ geyserLibName ∉ agaveBins := by decide
  have hpath : geyserSrc install ++ "/target/release/" ++ geyserLibName =
      cachePath (cacheDir install) "src" ("geyser/target/release/" ++ geyserLibName) :=
    library_eq_cachePath _
  rw [hpath]
  constructor
  · intro heq
    have hname : bin = geyserLibName := (cachePath_inj hv hv heq).2
    exact hlib (hname ▸ hbin)
  · intro heq
    have hname := (cachePath_inj hv (by decide) heq).2
    exact hbuilt (hname ▸ hbin)

theorem setFile_other {path path' : String} (r : Revision) (hne : path' ≠ path) :
    (h.setFile path r).files path' = h.files path' := if_neg hne

theorem setClone_other {src src' : String} (r : Revision) (hne : src' ≠ src) :
    (h.setClone src r).clones src' = h.clones src' := if_neg hne

theorem exists_repo_of_truthy {text : Option String} (htruthy : Text.truthy text = true) :
    ∃ repo, text = some repo ∧ repo ≠ "" := by
  cases text with
  | none => cases htruthy
  | some repo => exact ⟨repo, rfl, by simpa [Text.truthy] using htruthy⟩

theorem exists_compiled (install : InstallConfig) (hv : '/' ∉ version.toList) (h : BuildHost) :
    ∃ h', h.Leads (buildCommands install version) h' ∧ Compiled install version h h' := by
  rcases leads_agave install version h with ⟨h₁, hagave, hclones, hfiles⟩
  have hsteps : buildCommands install version =
      ((agaveFront install version ++ [agaveCheckout install version]) ++
        agaveInstall install version :: agaveCopies install version) ++
          geyserSteps install version := by
    simp only [buildCommands_eq, List.append_assoc, List.cons_append]
  have hclone : h₁.clones (agaveSrc install) = some (agaveRevision install version h) := by
    rw [hclones, setClone_self]
  rw [hsteps]
  by_cases htruthy : Text.truthy install.geyserRepo = true
  · rcases exists_repo_of_truthy htruthy with ⟨repo, hrepo, hne⟩
    have hrevision : geyserRevision install repo h₁ = geyserRevision install repo h := by
      unfold geyserRevision BuildHost.cloned
      rw [hclones, setClone_other _ (agaveSrc_ne_geyserSrc install).symm]
    have hgeyser := leads_geyser hrepo hne version h₁
    rw [hrevision] at hgeyser
    refine ⟨_, hagave.append hgeyser, ?_, fun bin hbin => ?_, fun repo' hrepo' _ => ?_⟩
    · exact (setClone_other _ (agaveSrc_ne_geyserSrc install)).trans hclone
    · rcases library_beside install hv hbin with ⟨hlib, hbuilt⟩
      rw [setFile_other _ hlib, setFile_other _ hbuilt]
      exact hfiles bin hbin
    · obtain rfl : repo = repo' := Option.some.inj (hrepo.symm.trans hrepo')
      exact ⟨setClone_self .., setFile_self ..⟩
  · rw [geyserSteps_of_not_truthy htruthy, List.append_nil]
    refine ⟨h₁, hagave, hclone, hfiles, fun repo hrepo hne => ?_⟩
    exact absurd (by simp [hrepo, Text.truthy, hne]) htruthy

end Completing

/-! ## Two builds that complete -/

section Programs

variable (builder : SSHTarget)

theorem BuildHost.Leads.ends {steps : List BuildStep} {h h' : BuildHost} (hleads : h.Leads steps h')
    (log : List String) :
    ∃ log', Ends buildHandler (runBuildSteps builder steps log) (h, allComplete) (none, log')
      (h', allComplete) := by
  induction hleads generalizing log with
  | nil h => exact ⟨log, ends_pure⟩
  | @cons h h' step steps hok _ ih =>
      have hstep : Ends buildHandler (runOn builder (.build step)) (h, allComplete)
          (exitWith (h.step .completes step).1) ((h.step .completes step).2, allComplete) :=
        ends_perform rfl
      rw [hok] at hstep
      rcases ih _ with ⟨log', hlog⟩
      refine ⟨log', hstep.bind ?_⟩
      dsimp only
      rw [if_pos (exitWith_ok true)]
      exact hlog

theorem exec_allComplete {α : Type} (p : OpsProgram α) (h : BuildHost) :
    (exec buildHandler p (h, allComplete)).final.2 = allComplete := by
  induction p generalizing h with
  | done r => rfl
  | call op next ih =>
      have hnext : (buildHandler op (h, allComplete)).2 =
          ((buildHandler op (h, allComplete)).2.1, allComplete) :=
        (buildHandler_agrees op h fun _ => rfl).2
      simp only [exec]
      rw [hnext]
      exact ih _ _

theorem ends_collect (out : String) (names : List String) (h : BuildHost) :
    ∃ artifacts, Ends buildHandler (collect builder out names) (h, allComplete) artifacts
        (h, allComplete) ∧ artifacts.map (·.name) = names ∧
      ∀ artifact ∈ artifacts, artifact.remotePath = out ++ "/" ++ artifact.name := by
  have hkept : Triple buildHandler (fun s => s.1 = h) (collect builder out names) _ _ :=
    triple_collect (· = h) out names
  have hmeets := hkept (h, allComplete) rfl
  unfold Execution.Meets at hmeets
  split at hmeets
  case h_2 => exact hmeets.elim
  case h_1 artifacts hresult =>
    have hfinal : (exec buildHandler (collect builder out names) (h, allComplete)).final =
        (h, allComplete) := Prod.ext hmeets.2 (exec_allComplete _ h)
    exact ⟨artifacts, ends_of_exec hresult hfinal, hmeets.1⟩

/-- The set a build may take instead of compiling. -/
def Cached (request : BuildRequest) (h : BuildHost) : Prop :=
  request.force = false ∧ ∀ name ∈ artifactNames request.install,
    (h.files (outDir request.install request.version ++ "/" ++ name)).isSome = true

/-- The build returned the whole set by the paths of its version. -/
structure ListsSet (request : BuildRequest) (result : BuildResult) : Prop where
  ok : result.ok = true
  names : result.artifacts.map (·.name) = artifactNames request.install
  paths : ∀ artifact ∈ result.artifacts,
    artifact.remotePath = outDir request.install request.version ++ "/" ++ artifact.name

/-- What a build does where all its commands complete. -/
structure BuildCompletes (request : BuildRequest) (h : BuildHost) (result : BuildResult)
    (h' : BuildHost) : Prop where
  ends : Ends buildHandler
    (buildArtifacts builder request.install request.version request.force) (h, allComplete)
      result (h', allComplete)
  lists : ListsSet request result
  cached : Cached request h → h' = h
  compiled : ¬ Cached request h → Compiled request.install request.version h h'

theorem ends_isCached (request : BuildRequest) (h : BuildHost) :
    ∃ cached, Ends buildHandler (isCached builder (outDir request.install request.version)
        (artifactNames request.install)) (h, allComplete) cached (h, allComplete) ∧
      (cached = true ↔ ∀ name ∈ artifactNames request.install,
        (h.files (outDir request.install request.version ++ "/" ++ name)).isSome = true) := by
  have htest : Ends buildHandler (runOn builder (.testFiles ((artifactNames request.install).map
      fun n => outDir request.install request.version ++ "/" ++ n))) (h, allComplete) _
        (h, allComplete) := ends_perform rfl
  refine ⟨_, htest.bind ends_pure, ?_⟩
  rw [exitWith_ok]
  simp [allComplete, Outcome.ok]

theorem exists_freshBuild (request : BuildRequest) (hv : '/' ∉ request.version.toList)
    (h : BuildHost) :
    ∃ result h', Ends buildHandler (freshBuild builder request.install request.version)
        (h, allComplete) result (h', allComplete) ∧
      ListsSet request result ∧ Compiled request.install request.version h h' := by
  rcases exists_compiled request.install hv h with ⟨h', hleads, hcompiled⟩
  rcases hleads.ends builder [] with ⟨log, hsteps⟩
  rcases ends_collect builder (outDir request.install request.version)
    (artifactNames request.install) h' with ⟨artifacts, hcollect, hnames, hpaths⟩
  exact ⟨_, h', hsteps.bind (hcollect.bind ends_pure), ⟨rfl, hnames, hpaths⟩, hcompiled⟩

theorem exists_cachedBuild (request : BuildRequest) (h : BuildHost) :
    ∃ result, Ends buildHandler (cachedBuild builder request.install request.version)
        (h, allComplete) result (h, allComplete) ∧ ListsSet request result := by
  rcases ends_collect builder (outDir request.install request.version)
    (artifactNames request.install) h with ⟨artifacts, hcollect, hnames, hpaths⟩
  exact ⟨_, hcollect.bind ends_pure, ⟨rfl, hnames, hpaths⟩⟩

theorem exists_completes (request : BuildRequest) (hv : '/' ∉ request.version.toList)
    (h : BuildHost) : ∃ result h', BuildCompletes builder request h result h' := by
  rcases ends_isCached builder request h with ⟨cached, hcached, hiff⟩
  by_cases hset : Cached request h
  · rcases exists_cachedBuild builder request h with ⟨result, hlisted, hlists⟩
    obtain rfl : cached = true := hiff.mpr hset.2
    refine ⟨result, h, ?_, hlists, fun _ => rfl, fun hnot => absurd hset hnot⟩
    unfold buildArtifacts
    rw [hset.1]
    exact hcached.bind hlisted
  · rcases exists_freshBuild builder request hv h with ⟨result, h', hfresh, hlists, hcompiled⟩
    refine ⟨result, h', ?_, hlists, fun hc => absurd hc hset, fun _ => hcompiled⟩
    unfold buildArtifacts
    cases hforce : request.force with
    | true => exact hfresh
    | false =>
        obtain rfl : cached = false := by
          cases cached with
          | true => exact absurd ⟨hforce, hiff.mp rfl⟩ hset
          | false => rfl
        exact hcached.bind hfresh

end Programs

section Pair

variable {builder : SSHTarget} {request : BuildRequest} {result : BuildResult} {host : BuildHost}

theorem ListsSet.artifact (hlists : ListsSet request result) {name : String}
    (hname : name ∈ artifactNames request.install) :
    ∃ artifact ∈ result.artifacts, artifact.name = name ∧
      artifact.remotePath = outDir request.install request.version ++ "/" ++ name := by
  rw [← hlists.names] at hname
  rcases List.mem_map.mp hname with ⟨artifact, hmem, rfl⟩
  exact ⟨artifact, hmem, rfl, hlists.paths artifact hmem⟩

theorem ListsSet.agave (hlists : ListsSet request result)
    (hprovenance : Provenance request result host) {bin : String} (hbin : bin ∈ agaveBins) :
    host.files (outDir request.install request.version ++ "/" ++ bin) =
      some ⟨request.install.agaveRepo, some (tag request.version)⟩ := by
  rcases hlists.artifact (List.mem_append_left _ hbin) with ⟨artifact, hmem, hname, hpath⟩
  rw [← hpath]
  exact hprovenance.agave artifact hmem (hname ▸ hbin)

theorem library_mem_artifactNames {install : InstallConfig}
    (htruthy : Text.truthy install.geyserRepo = true) : geyserLibName ∈ artifactNames install := by
  simp [artifactNames, htruthy]

theorem ListsSet.geyser (hlists : ListsSet request result)
    (hprovenance : Provenance request result host)
    (htruthy : Text.truthy request.install.geyserRepo = true) :
    ∃ r, host.files (outDir request.install request.version ++ "/" ++ geyserLibName) = some r ∧
      request.install.geyserRepo = some r.repo ∧
        (Text.truthy request.install.geyserRef = true → r.ref = request.install.geyserRef) := by
  rcases hlists.artifact (library_mem_artifactNames htruthy) with ⟨artifact, hmem, hname, hpath⟩
  rw [← hpath]
  exact hprovenance.geyser artifact hmem hname

theorem not_cached_empty (request : BuildRequest) : ¬ Cached request BuildHost.empty := by
  intro hcached
  have hsome := hcached.2 "agave-validator" (List.mem_append_left _ (by decide))
  cases hsome

variable {a b : BuildRequest} {result' : BuildResult} {first : BuildHost}

theorem BuildCompletes.traceable (hv : '/' ∉ a.version.toList)
    (ha : BuildCompletes builder a BuildHost.empty result first) :
    Traceable (cacheDir a.install) a.install.agaveRepo (a.install.geyserRepo.getD "") [a]
      first := by
  have hgeyser : Text.truthy a.install.geyserRepo = true →
      a.install.geyserRepo = some (a.install.geyserRepo.getD "") := by
    intro htruthy
    rcases exists_repo_of_truthy htruthy with ⟨repo, hrepo, -⟩
    rw [hrepo]
    rfl
  have hmeets := triple_buildArtifacts builder rfl hv rfl hgeyser (by simp)
    (BuildHost.empty, allComplete) traceable_empty
  unfold Execution.Meets at hmeets
  rw [ha.ends.result, ha.ends.final] at hmeets
  exact hmeets.1

theorem BuildCompletes.compiled_empty (ha : BuildCompletes builder a BuildHost.empty result first) :
    Compiled a.install a.version BuildHost.empty first :=
  ha.compiled (not_cached_empty a)

/-- The second build compiles the agave sources of the first, or lists its binaries. -/
theorem agaveRepo_of_pair (hcache : cacheDir a.install = cacheDir b.install)
    (hva : '/' ∉ a.version.toList) (hvb : '/' ∉ b.version.toList)
    (ha : BuildCompletes builder a BuildHost.empty result first)
    (hb : BuildCompletes builder b first result' host) (hprovenance : Provenance b result' host) :
    a.install.agaveRepo = b.install.agaveRepo := by
  have hbin : "agave-validator" ∈ agaveBins := by decide
  have hfile := hb.lists.agave hprovenance hbin
  by_cases hset : Cached b first
  · rw [hb.cached hset] at hfile
    have htraceable := ha.traceable hva
    rw [hcache] at htraceable
    have hfirst := htraceable.agave b.version _ _ hvb (List.mem_append_left _ hbin) hfile
    exact (Revision.mk.inj hfirst).1.symm
  · have hclone : first.clones (agaveSrc b.install) =
        some (agaveRevision a.install a.version BuildHost.empty) := by
      rw [agaveSrc, ← hcache]
      exact ha.compiled_empty.agaveClone
    have hcompiled := (hb.compiled hset).agave _ hbin
    rw [agaveRevision, BuildHost.cloned, hclone, hfile, Option.some.injEq] at hcompiled
    exact (Revision.mk.inj hcompiled).1.symm

theorem geyserRepo_of_pair (hcache : cacheDir a.install = cacheDir b.install)
    (hva : '/' ∉ a.version.toList) (hvb : '/' ∉ b.version.toList)
    (ha : BuildCompletes builder a BuildHost.empty result first)
    (hb : BuildCompletes builder b first result' host) (hprovenance : Provenance b result' host)
    (hta : Text.truthy a.install.geyserRepo = true)
    (htb : Text.truthy b.install.geyserRepo = true) :
    a.install.geyserRepo = b.install.geyserRepo := by
  rcases exists_repo_of_truthy hta with ⟨repo, hrepo, hne⟩
  rcases exists_repo_of_truthy htb with ⟨repo', hrepo', hne'⟩
  rcases hb.lists.geyser hprovenance htb with ⟨r, hfile, horigin, -⟩
  rw [horigin, hrepo, Option.some.injEq]
  by_cases hset : Cached b first
  · rw [hb.cached hset] at hfile
    have htraceable := ha.traceable hva
    rw [hcache] at htraceable
    have hfirst := (htraceable.geyser b.version _ hvb hfile).1
    rw [hrepo] at hfirst
    exact hfirst.symm
  · have hclone : first.clones (geyserSrc b.install) =
        some (geyserRevision a.install repo BuildHost.empty) := by
      rw [geyserSrc, ← hcache]
      exact (ha.compiled_empty.geyser repo hrepo hne).1
    have hcompiled := ((hb.compiled hset).geyser repo' hrepo' hne').2
    rw [geyserRevision, BuildHost.cloned, hclone, hfile, Option.some.injEq] at hcompiled
    exact congrArg Revision.repo hcompiled.symm

/-- A set that is reused has the library of the ref the first build named. -/
theorem refAgrees_of_pair (hcache : cacheDir a.install = cacheDir b.install)
    (ha : BuildCompletes builder a BuildHost.empty result first)
    (hb : BuildCompletes builder b first result' host) (hprovenance : Provenance b result' host) :
    RefAgrees a b := by
  intro hforce hversion hta htb href
  rcases exists_repo_of_truthy hta with ⟨repo, hrepo, hne⟩
  have hout : outDir a.install a.version = outDir b.install b.version := by
    rw [outDir, outDir, hcache, hversion]
  have hlibrary := (ha.compiled_empty.geyser repo hrepo hne).2
  rw [hout] at hlibrary
  have hset : Cached b first := by
    refine ⟨hforce, fun name hname => ?_⟩
    rw [artifactNames, if_pos htb] at hname
    rcases List.mem_append.mp hname with hbin | hlib
    · rw [← hout, ha.compiled_empty.agave name hbin]
      rfl
    · rw [List.mem_singleton.mp hlib, hlibrary]
      rfl
  rcases hb.lists.geyser hprovenance htb with ⟨r, hfile, -, hnamed⟩
  rw [hb.cached hset, hlibrary, Option.some.injEq] at hfile
  rw [← hnamed href, ← hfile, geyserRevision]
  by_cases hearlier : Text.truthy a.install.geyserRef = true
  · rw [if_pos hearlier]
  · have hnone := hnamed href
    rw [← hfile, geyserRevision, if_neg hearlier] at hnone
    rw [← hnone] at href
    cases href

end Pair

def BuildRequest.Agrees (a b : BuildRequest) : Prop :=
  a.install.agaveRepo = b.install.agaveRepo ∧
    (Text.truthy a.install.geyserRepo = true → Text.truthy b.install.geyserRepo = true →
      a.install.geyserRepo = b.install.geyserRepo) ∧ RefAgrees a b

/-- Builds of plain versions that return what they were asked for, whatever breaks off,
agree on their sources. -/
theorem sourcesAgree_of_provenance (builder : SSHTarget) {cache : String}
    {requests : List BuildRequest}
    (hcache : ∀ request ∈ requests, request.install.artifactCache = cache)
    (hplain : ∀ request ∈ requests, PlainName request.version)
    (hprovenance : ∀ outcomes, ∀ record ∈ buildRun builder requests (BuildHost.empty, outcomes),
      ∀ result, record.result = .ok result → result.ok = true →
        Provenance record.request result record.host) : SourcesAgree requests := by
  have hpairs : requests.Pairwise BuildRequest.Agrees := by
    rw [List.pairwise_iff_forall_sublist]
    intro a b hsub
    have hmema : a ∈ requests := hsub.subset (by simp)
    have hmemb : b ∈ requests := hsub.subset (by simp)
    have hva := (hplain a hmema).no_slash
    have hvb := (hplain b hmemb).no_slash
    have hsame : cacheDir a.install = cacheDir b.install := by
      rw [cacheDir, cacheDir, hcache a hmema, hcache b hmemb]
    rcases exists_completes builder a hva BuildHost.empty with ⟨result, first, ha⟩
    rcases exists_completes builder b hvb first with ⟨result', host, hb⟩
    rcases buildRun_sublist builder hsub BuildHost.empty allComplete with ⟨outcomes, hkept⟩
    have hrecord : ⟨b, .ok result', host⟩ ∈
        buildRun builder [a, b] (BuildHost.empty, allComplete) := by
      simp only [buildRun, ha.ends.final, hb.ends.result, hb.ends.final]
      exact List.mem_cons_of_mem _ List.mem_cons_self
    have hsecond := hprovenance outcomes _ (hkept _ hrecord) result' rfl hb.lists.ok
    exact ⟨agaveRepo_of_pair hsame hva hvb ha hb hsecond,
      geyserRepo_of_pair hsame hva hvb ha hb hsecond, refAgrees_of_pair hsame ha hb hsecond⟩
  refine ⟨hplain, ?_, ?_, hpairs.imp fun h => h.2.2⟩
  · exact List.Pairwise.forall_of_forall_of_flip (fun _ _ => rfl) (hpairs.imp fun h => h.1)
      (hpairs.imp fun h => h.1.symm)
  · exact List.Pairwise.forall_of_forall_of_flip (fun _ _ _ _ => rfl) (hpairs.imp fun h => h.2.1)
      (hpairs.imp fun h hb ha => (h.2.1 ha hb).symm)

end Solfleet
