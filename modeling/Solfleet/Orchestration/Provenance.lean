import Solfleet.Library.Triple
import Solfleet.Orchestration.Injection
import Solfleet.Orchestration.Rehearsal

/-! # Where artifacts come from

The build host keeps one clone of each source for all versions and reuses an output
directory by its name alone. Each clone has an origin and a ref that is checked out, and
each file the origin and the ref it was compiled from. What a build returns is followed
back to these over a sequence of builds whose commands may break off anywhere.
-/

namespace Solfleet

open Interaction Program

/-! ## The build host -/

/-- A repository and the ref of it that is checked out, or was compiled; `none` is the
branch a clone starts on. -/
structure Revision where
  repo : String
  ref : Option String
  deriving DecidableEq

structure BuildHost where
  clones : String → Option Revision
  files : String → Option Revision

namespace BuildHost

def empty : BuildHost := ⟨fun _ => none, fun _ => none⟩

def setClone (h : BuildHost) (src : String) (r : Revision) : BuildHost :=
  { h with clones := fun path => if path = src then some r else h.clones path }

def setFile (h : BuildHost) (path : String) (r : Revision) : BuildHost :=
  { h with files := fun p => if p = path then some r else h.files p }

def setFiles (h : BuildHost) (paths : List String) (r : Revision) : BuildHost :=
  paths.foldl (fun h path => h.setFile path r) h

end BuildHost

/-- How a command ends: it completes, or it breaks off and fails with this much of its
effect done. -/
inductive Outcome where
  | completes
  | breaksOff (progress : Nat)

def Outcome.ok : Outcome → Bool
  | .completes => true
  | .breaksOff _ => false

/-- How many of `n` parts of the effect take place. -/
def Outcome.done : Outcome → Nat → Nat
  | .completes, n => n
  | .breaksOff progress, n => min progress n

/-- A single effect takes place as a whole or not at all. -/
def BuildHost.apply (h h' : BuildHost) (outcome : Outcome) : Bool × BuildHost :=
  (outcome.ok, if outcome.done 1 = 1 then h' else h)

def BuildHost.step (h : BuildHost) (outcome : Outcome) : BuildStep → Bool × BuildHost
  | .mkdir .. => (outcome.ok, h)
  | .clone repo src =>
      match h.clones src with
      | some _ => (outcome.ok, h)
      | none => h.apply (h.setClone src ⟨repo, none⟩) outcome
  | .fetch src => (outcome.ok && (h.clones src).isSome, h)
  | .checkout src ref =>
      match h.clones src with
      | none => (false, h)
      | some r => h.apply (h.setClone src { r with ref := some ref }) outcome
  | .cargoInstall src out =>
      match h.clones src with
      | none => (false, h)
      | some r =>
          let installed := agaveBins.map (out ++ "/install/bin/" ++ ·)
          (outcome.ok, h.setFiles (installed.take (outcome.done installed.length)) r)
  | .copy source dest =>
      match h.files source with
      | none => (false, h)
      | some r => h.apply (h.setFile dest r) outcome
  | .cargoBuild src =>
      match h.clones src with
      | none => (false, h)
      | some r => h.apply (h.setFile (src ++ "/target/release/" ++ geyserLibName) r) outcome

/-- What the build host answers; each command takes the next of the given outcomes. -/
def buildHandler : Handler opsSignature Exn (BuildHost × (Nat → Outcome))
  | .runner (.ssh _ (.build step)), (h, outcomes) =>
      let stepped := h.step (outcomes 0) step
      (.ok (exitWith stepped.1), (stepped.2, fun n => outcomes (n + 1)))
  | .runner (.ssh _ (.testFiles paths)), (h, outcomes) =>
      (.ok (exitWith ((outcomes 0).ok && paths.all fun path => (h.files path).isSome)),
        (h, fun n => outcomes (n + 1)))
  | .runner (.ssh _ (.sha256sum path)), (h, outcomes) =>
      (.ok (if (outcomes 0).ok && (h.files path).isSome then hashed else exitWith false),
        (h, fun n => outcomes (n + 1)))
  | .runner _, s => (.ok (exitWith true), s)
  | .mkdtemp stem, s => (.ok stem, s)
  | .sample .., s => (.ok {}, s)
  | .leader .., s => (.ok none, s)
  | .sleep _, s => (.ok (), s)
  | .audit _, s => (.ok (), s)

/-! ## Sequences of builds -/

structure BuildRequest where
  install : InstallConfig
  version : String
  force : Bool

/-- A build of a sequence, what it returned, and the host it left. -/
structure BuildRecord where
  request : BuildRequest
  result : Except Exn BuildResult
  host : BuildHost

def buildRun (builder : SSHTarget) : List BuildRequest → BuildHost × (Nat → Outcome) →
    List BuildRecord
  | [], _ => []
  | request :: requests, s =>
      let run := exec buildHandler
        (buildArtifacts builder request.install request.version request.force) s
      ⟨request, run.result, run.final.1⟩ :: buildRun builder requests run.final

/-- The artifacts a build lists were compiled from the sources it was asked for. -/
structure Provenance (request : BuildRequest) (result : BuildResult) (host : BuildHost) : Prop where
  names : result.artifacts.map (·.name) = artifactNames request.install
  agave : ∀ artifact ∈ result.artifacts, artifact.name ∈ agaveBins →
    host.files artifact.remotePath = some ⟨request.install.agaveRepo, some (tag request.version)⟩
  geyser : ∀ artifact ∈ result.artifacts, artifact.name = geyserLibName →
    ∃ r, host.files artifact.remotePath = some r ∧ request.install.geyserRepo = some r.repo ∧
      (Text.truthy request.install.geyserRef = true → r.ref = request.install.geyserRef)

/-- Directly below the cache, and literal text for the shell. -/
def PlainName (version : String) : Prop :=
  version ≠ "" ∧ version ≠ "." ∧ version ≠ ".." ∧ ∀ c ∈ version.toList, plainChar c = true

/-- A later build that may reuse a library names the ref the earlier one did. -/
def RefAgrees (earlier later : BuildRequest) : Prop :=
  later.force = false → earlier.version = later.version →
    Text.truthy earlier.install.geyserRepo = true → Text.truthy later.install.geyserRepo = true →
      Text.truthy later.install.geyserRef = true →
        earlier.install.geyserRef = later.install.geyserRef

/-- The builds name the same sources, as far as they share clones and output directories. -/
structure SourcesAgree (requests : List BuildRequest) : Prop where
  plain : ∀ request ∈ requests, PlainName request.version
  agave : ∀ request ∈ requests, ∀ request' ∈ requests,
    request.install.agaveRepo = request'.install.agaveRepo
  geyser : ∀ request ∈ requests, ∀ request' ∈ requests,
    Text.truthy request.install.geyserRepo = true →
      Text.truthy request'.install.geyserRepo = true →
        request.install.geyserRepo = request'.install.geyserRepo
  ref : requests.Pairwise RefAgrees

/-! ## Paths below the cache -/

def cachePath (cache version name : String) : String := cache ++ "/" ++ version ++ "/" ++ name

theorem cachePath_inj {cache version version' name name' : String} (hv : '/' ∉ version.toList)
    (hv' : '/' ∉ version'.toList)
    (h : cachePath cache version name = cachePath cache version' name') :
    version = version' ∧ name = name' := by
  have hlists := congrArg String.toList h
  simp only [cachePath, String.toList_append, List.append_assoc, List.append_cancel_left_eq]
    at hlists
  obtain ⟨hversion, hname⟩ := Text.append_cons_inj hv hv' (by simpa using hlists)
  exact ⟨String.toList_inj.mp hversion, String.toList_inj.mp hname⟩

theorem installed_eq_cachePath (cache version bin : String) :
    cache ++ "/" ++ version ++ "/install/bin/" ++ bin =
      cachePath cache version ("install/bin/" ++ bin) := by
  have hsplit : "/install/bin/" = "/" ++ "install/bin/" := rfl
  simp only [cachePath, hsplit, String.append_assoc]

theorem library_eq_cachePath (cache : String) :
    cache ++ "/src/geyser" ++ "/target/release/" ++ geyserLibName =
      cachePath cache "src" ("geyser/target/release/" ++ geyserLibName) := by
  have hsplit : "/src/geyser" ++ "/target/release/" =
      "/" ++ "src" ++ "/" ++ "geyser/target/release/" :=
    rfl
  have hcache : cache ++ "/src/geyser" ++ "/target/release/" =
      cache ++ ("/src/geyser" ++ "/target/release/") := String.append_assoc
  rw [hcache, hsplit]
  simp only [cachePath, String.append_assoc]

/-! ## What the host holds -/

/-- Below the directory of a version: the binaries, installed and copied. -/
def agavePaths : List String := agaveBins ++ agaveBins.map ("install/bin/" ++ ·)

/-- Everything on the host can be followed back to the builds so far. -/
structure Traceable (cache agaveRepo geyserRepo : String) (seen : List BuildRequest)
    (h : BuildHost) : Prop where
  agaveClone : ∀ r, h.clones (cache ++ "/src/agave") = some r → r.repo = agaveRepo
  geyserClone : ∀ r, h.clones (cache ++ "/src/geyser") = some r → r.repo = geyserRepo
  agave : ∀ version name r, '/' ∉ version.toList → name ∈ agavePaths →
    h.files (cachePath cache version name) = some r → r = ⟨agaveRepo, some (tag version)⟩
  geyser : ∀ version r, '/' ∉ version.toList →
    h.files (cachePath cache version geyserLibName) = some r → r.repo = geyserRepo ∧
      ∃ request ∈ seen, request.version = version ∧
        Text.truthy request.install.geyserRepo = true ∧
          (Text.truthy request.install.geyserRef = true → r.ref = request.install.geyserRef)

section Traceable

variable {cache agaveRepo geyserRepo : String} {seen : List BuildRequest} {h : BuildHost}

theorem traceable_empty : Traceable cache agaveRepo geyserRepo [] BuildHost.empty where
  agaveClone := nofun
  geyserClone := nofun
  agave := nofun
  geyser := nofun

theorem Traceable.cons (hs : Traceable cache agaveRepo geyserRepo seen h) (request : BuildRequest) :
    Traceable cache agaveRepo geyserRepo (request :: seen) h :=
  { hs with
    geyser := fun version r hv hr => by
      obtain ⟨hrepo, earlier, hmem, h⟩ := hs.geyser version r hv hr
      exact ⟨hrepo, earlier, List.mem_cons_of_mem _ hmem, h⟩ }

/-- A clone of the agave sources may change its ref, never its origin. -/
theorem Traceable.setAgave (hs : Traceable cache agaveRepo geyserRepo seen h)
    (ref : Option String) :
    Traceable cache agaveRepo geyserRepo seen
      (h.setClone (cache ++ "/src/agave") ⟨agaveRepo, ref⟩) :=
  { hs with
    agaveClone := fun r hr => by
      simp only [BuildHost.setClone, if_true, Option.some.injEq] at hr
      exact hr ▸ rfl
    geyserClone := fun r hr => by
      have hne : cache ++ "/src/geyser" ≠ cache ++ "/src/agave" := by simp
      simp only [BuildHost.setClone, if_neg hne] at hr
      exact hs.geyserClone r hr }

theorem Traceable.setGeyser (hs : Traceable cache agaveRepo geyserRepo seen h)
    (ref : Option String) :
    Traceable cache agaveRepo geyserRepo seen
      (h.setClone (cache ++ "/src/geyser") ⟨geyserRepo, ref⟩) :=
  { hs with
    agaveClone := fun r hr => by
      have hne : cache ++ "/src/agave" ≠ cache ++ "/src/geyser" := by simp
      simp only [BuildHost.setClone, if_neg hne] at hr
      exact hs.agaveClone r hr
    geyserClone := fun r hr => by
      simp only [BuildHost.setClone, if_true, Option.some.injEq] at hr
      exact hr ▸ rfl }

/-- A file may be replaced by one compiled from the sources its path stands for. -/
theorem Traceable.setFile (hs : Traceable cache agaveRepo geyserRepo seen h)
    {version name : String} {r : Revision} (hv : '/' ∉ version.toList)
    (hagave : name ∈ agavePaths → r = ⟨agaveRepo, some (tag version)⟩)
    (hgeyser : name = geyserLibName → r.repo = geyserRepo ∧
      ∃ request ∈ seen, request.version = version ∧
        Text.truthy request.install.geyserRepo = true ∧
          (Text.truthy request.install.geyserRef = true → r.ref = request.install.geyserRef)) :
    Traceable cache agaveRepo geyserRepo seen (h.setFile (cachePath cache version name) r) :=
  { hs with
    agave := fun version' name' r' hv' hname hr => by
      simp only [BuildHost.setFile] at hr
      split at hr
      case isTrue heq =>
        obtain ⟨rfl, rfl⟩ := cachePath_inj hv' hv heq
        exact Option.some.inj hr ▸ hagave hname
      case isFalse => exact hs.agave version' name' r' hv' hname hr
    geyser := fun version' r' hv' hr => by
      simp only [BuildHost.setFile] at hr
      split at hr
      case isTrue heq =>
        obtain ⟨rfl, rfl⟩ := cachePath_inj hv' hv heq
        exact Option.some.inj hr ▸ hgeyser rfl
      case isFalse => exact hs.geyser version' r' hv' hr }

end Traceable

/-! ## Build steps -/

/-- However the step ends it keeps `I`, and if it succeeds it establishes `Q`. -/
def StepMeets (I P : BuildHost → Prop) (step : BuildStep) (Q : BuildHost → Prop) : Prop :=
  ∀ h outcome, I h → P h →
    I (h.step outcome step).2 ∧ ((h.step outcome step).1 = true → Q (h.step outcome step).2)

/-- The same of steps that run until one fails. -/
def StepsMeet (builder : SSHTarget) (I P : BuildHost → Prop) (steps : List BuildStep)
    (Q : BuildHost → Prop) : Prop :=
  ∀ log, Triple buildHandler (fun s => I s.1 ∧ P s.1) (runBuildSteps builder steps log)
    (fun out s => I s.1 ∧ (out.1 = none → Q s.1)) fun _ => False

section Rules

variable {builder : SSHTarget} {I P Q R : BuildHost → Prop}

theorem StepsMeet.nil (h : ∀ host, I host → P host → Q host) : StepsMeet builder I P [] Q :=
  fun _ => Triple.pure fun s hs => ⟨hs.1, fun _ => h s.1 hs.1 hs.2⟩

theorem triple_buildStep {step : BuildStep} (h : StepMeets I P step Q) :
    Triple buildHandler (fun s => I s.1 ∧ P s.1) (runOn builder (.build step))
      (fun r s => I s.1 ∧ (r.ok = true → Q s.1)) fun _ => False := by
  refine Triple.perform (fun s r hs hr => ?_) fun s e _ he => by cases he
  obtain ⟨host, outcomes⟩ := s
  obtain ⟨hI, hQ⟩ := h host (outcomes 0) hs.1 hs.2
  obtain rfl := Except.ok.inj hr
  exact ⟨hI, fun hok => hQ (by rwa [exitWith_ok] at hok)⟩

theorem StepsMeet.cons {step : BuildStep} {steps : List BuildStep} (hstep : StepMeets I P step Q)
    (hrest : StepsMeet builder I Q steps R) : StepsMeet builder I P (step :: steps) R := by
  intro log
  refine (triple_buildStep hstep).bind fun r => ?_
  dsimp only
  split
  case isTrue hok => exact (hrest _).weaken (fun s hs => ⟨hs.1, hs.2 hok⟩) fun _ _ h => h
  case isFalse => exact Triple.pure fun s hs => ⟨hs.1, nofun⟩

theorem runBuildSteps_append (builder : SSHTarget) (xs ys : List BuildStep) (log : List String) :
    runBuildSteps builder (xs ++ ys) log =
      runBuildSteps builder xs log >>= fun out =>
        match out.1 with
        | none => runBuildSteps builder ys out.2
        | some _ => pure out := by
  induction xs generalizing log with
  | nil => rfl
  | cons x xs ih =>
      simp only [List.cons_append, runBuildSteps, bind_assoc]
      refine congrArg _ (funext fun r => ?_)
      split
      · exact ih _
      · rfl

theorem StepsMeet.append {xs ys : List BuildStep} (hxs : StepsMeet builder I P xs Q)
    (hys : StepsMeet builder I Q ys R) : StepsMeet builder I P (xs ++ ys) R := by
  intro log
  rw [runBuildSteps_append]
  refine (hxs log).bind fun out => ?_
  cases hout : out.1 with
  | none => exact (hys _).weaken (fun s hs => ⟨hs.1, hs.2 rfl⟩) fun _ _ h => h
  | some error => exact Triple.pure fun s hs => ⟨hs.1, fun h => by rw [hout] at h; cases h⟩

/-- An effect that is there or not, and is there if the step succeeds. -/
theorem apply_meets {h h' : BuildHost} (outcome : Outcome) (hI : I h) (hI' : I h') (hQ : Q h') :
    I (h.apply h' outcome).2 ∧ ((h.apply h' outcome).1 = true → Q (h.apply h' outcome).2) := by
  unfold BuildHost.apply
  cases outcome with
  | completes => exact ⟨hI', fun _ => hQ⟩
  | breaksOff progress =>
      refine ⟨?_, nofun⟩
      dsimp only
      split
      · exact hI'
      · exact hI

theorem stepMeets_mkdir {out src : String} : StepMeets I P (.mkdir out src) P :=
  fun _ _ hI hP => ⟨hI, fun _ => hP⟩

theorem stepMeets_clone {repo src : String}
    (hclone : ∀ h, I h → P h → h.clones src = none →
      I (h.setClone src ⟨repo, none⟩) ∧ Q (h.setClone src ⟨repo, none⟩))
    (hkept : ∀ h, I h → P h → (h.clones src).isSome = true → Q h) :
    StepMeets I P (.clone repo src) Q := by
  intro h outcome hI hP
  cases hsrc : h.clones src with
  | none =>
      simp only [BuildHost.step, hsrc]
      exact apply_meets outcome hI (hclone h hI hP hsrc).1 (hclone h hI hP hsrc).2
  | some r =>
      simp only [BuildHost.step, hsrc]
      exact ⟨hI, fun _ => hkept h hI hP (by rw [hsrc]; rfl)⟩

theorem stepMeets_fetch {src : String} : StepMeets I P (.fetch src) P :=
  fun _ _ hI hP => ⟨hI, fun _ => hP⟩

theorem stepMeets_checkout {src ref : String}
    (h : ∀ h r, I h → P h → h.clones src = some r →
      I (h.setClone src { r with ref := some ref }) ∧
        Q (h.setClone src { r with ref := some ref })) :
    StepMeets I P (.checkout src ref) Q := by
  intro host outcome hI hP
  cases hsrc : host.clones src with
  | none =>
      simp only [BuildHost.step, hsrc]
      exact ⟨hI, nofun⟩
  | some r =>
      simp only [BuildHost.step, hsrc]
      exact apply_meets outcome hI (h host r hI hP hsrc).1 (h host r hI hP hsrc).2

theorem stepMeets_copy {source dest : String}
    (h : ∀ h r, I h → P h → h.files source = some r → I (h.setFile dest r) ∧ Q (h.setFile dest r)) :
    StepMeets I P (.copy source dest) Q := by
  intro host outcome hI hP
  cases hsource : host.files source with
  | none =>
      simp only [BuildHost.step, hsource]
      exact ⟨hI, nofun⟩
  | some r =>
      simp only [BuildHost.step, hsource]
      exact apply_meets outcome hI (h host r hI hP hsource).1 (h host r hI hP hsource).2

theorem stepMeets_cargoBuild {src : String}
    (h : ∀ h r, I h → P h → h.clones src = some r →
      I (h.setFile (src ++ "/target/release/" ++ geyserLibName) r) ∧
        Q (h.setFile (src ++ "/target/release/" ++ geyserLibName) r)) :
    StepMeets I P (.cargoBuild src) Q := by
  intro host outcome hI hP
  cases hsrc : host.clones src with
  | none =>
      simp only [BuildHost.step, hsrc]
      exact ⟨hI, nofun⟩
  | some r =>
      simp only [BuildHost.step, hsrc]
      exact apply_meets outcome hI (h host r hI hP hsrc).1 (h host r hI hP hsrc).2

end Rules

/-! ## A whole build -/

/-- The files are there. -/
def Holds (cache version : String) (names : List String) (h : BuildHost) : Prop :=
  ∀ name ∈ names, (h.files (cachePath cache version name)).isSome = true

section Files

variable {cache version : String} {names : List String} {h : BuildHost}

theorem isSome_setFile {path path' : String} {r : Revision}
    (hs : (h.files path').isSome = true) : ((h.setFile path r).files path').isSome = true := by
  simp only [BuildHost.setFile]
  split
  · rfl
  · exact hs

theorem setFile_self (h : BuildHost) (path : String) (r : Revision) :
    (h.setFile path r).files path = some r := if_pos rfl

theorem Holds.setFile (hs : Holds cache version names h) (path : String) (r : Revision) :
    Holds cache version names (h.setFile path r) :=
  fun name hname => isSome_setFile (hs name hname)

theorem isSome_setFiles {paths : List String} {path : String} {r : Revision}
    (hs : (h.files path).isSome = true) : ((h.setFiles paths r).files path).isSome = true := by
  induction paths generalizing h with
  | nil => exact hs
  | cons p paths ih => exact ih (isSome_setFile hs)

theorem isSome_setFiles_of_mem {paths : List String} {path : String} {r : Revision}
    (hmem : path ∈ paths) : ((h.setFiles paths r).files path).isSome = true := by
  induction paths generalizing h with
  | nil => cases hmem
  | cons p paths ih =>
      obtain rfl | hmem := List.mem_cons.mp hmem
      · have hself : ((h.setFile path r).files path).isSome = true := by
          rw [setFile_self]
          rfl
        show (((h.setFile path r).setFiles paths r).files path).isSome = true
        exact isSome_setFiles hself
      · exact ih hmem

end Files

def installedNames : List String := agaveBins.map ("install/bin/" ++ ·)

section Build

variable {builder : SSHTarget} {cache agaveRepo geyserRepo version : String}
  {seen : List BuildRequest}

theorem Traceable.setFiles {h : BuildHost} (hs : Traceable cache agaveRepo geyserRepo seen h)
    (hv : '/' ∉ version.toList) {names : List String} (hnames : ∀ name ∈ names, name ∈ agavePaths) :
    Traceable cache agaveRepo geyserRepo seen
      (h.setFiles (names.map (cachePath cache version)) ⟨agaveRepo, some (tag version)⟩) := by
  induction names generalizing h with
  | nil => exact hs
  | cons name names ih =>
      obtain ⟨hname, hnames⟩ := List.forall_mem_cons.mp hnames
      refine ih (hs.setFile hv (fun _ => rfl) ?_) hnames
      rintro rfl
      exact absurd hname (by decide)

theorem installed_eq (cache version : String) :
    agaveBins.map (cache ++ "/" ++ version ++ "/install/bin/" ++ ·) =
      installedNames.map (cachePath cache version) := by
  rw [installedNames, List.map_map]
  exact List.map_congr_left fun bin _ => installed_eq_cachePath cache version bin

/-- What is installed comes from the checked out tag. -/
theorem stepMeets_cargoInstall (hv : '/' ∉ version.toList) :
    StepMeets (Traceable cache agaveRepo geyserRepo seen)
      (fun h => h.clones (cache ++ "/src/agave") = some ⟨agaveRepo, some (tag version)⟩)
      (.cargoInstall (cache ++ "/src/agave") (cache ++ "/" ++ version))
      (Holds cache version installedNames) := by
  intro h outcome hI hclone
  have hinstalled : ∀ name ∈ installedNames, name ∈ agavePaths :=
    fun name hname => List.mem_append_right _ hname
  simp only [BuildHost.step, hclone, installed_eq]
  refine ⟨?_, fun hok => ?_⟩
  · rw [← List.map_take]
    exact hI.setFiles hv fun name hname => hinstalled name (List.mem_of_mem_take hname)
  · cases outcome with
    | breaksOff progress => cases hok
    | completes =>
        intro name hname
        refine isSome_setFiles_of_mem ?_
        rw [Outcome.done, List.take_length]
        exact List.mem_map_of_mem hname

/-- The copies come from what was installed. -/
theorem stepsMeet_copies (hv : '/' ∉ version.toList) (bins copied : List String)
    (hbins : ∀ bin ∈ bins, bin ∈ agaveBins) :
    StepsMeet builder (Traceable cache agaveRepo geyserRepo seen)
      (fun h => Holds cache version installedNames h ∧ Holds cache version copied h)
      (bins.map fun bin => .copy (cache ++ "/" ++ version ++ "/install/bin/" ++ bin)
        (cache ++ "/" ++ version ++ "/" ++ bin))
      (fun h => Holds cache version installedNames h ∧ Holds cache version (copied ++ bins) h) := by
  induction bins generalizing copied with
  | nil => exact StepsMeet.nil fun h _ hP => by rwa [List.append_nil]
  | cons bin bins ih =>
      obtain ⟨hbin, hbins⟩ := List.forall_mem_cons.mp hbins
      have hrest := ih (copied ++ [bin]) hbins
      rw [List.append_assoc] at hrest
      refine StepsMeet.cons (stepMeets_copy fun h r hI hP hr => ?_) hrest
      rw [installed_eq_cachePath] at hr
      have hname : "install/bin/" ++ bin ∈ agavePaths :=
        List.mem_append_right _ (List.mem_map_of_mem hbin)
      obtain rfl := hI.agave version _ r hv hname hr
      refine ⟨hI.setFile hv (fun _ => rfl) ?_, hP.1.setFile _ _, ?_⟩
      · rintro rfl
        exact absurd hbin (by decide)
      · intro name hmem
        obtain hmem | hmem := List.mem_append.mp hmem
        · exact isSome_setFile (hP.2 name hmem)
        · rw [List.mem_singleton] at hmem
          subst hmem
          exact congrArg Option.isSome (setFile_self h _ _)

theorem stepsMeet_agave (hv : '/' ∉ version.toList) :
    StepsMeet builder (Traceable cache agaveRepo geyserRepo seen) (fun _ => True)
      ([.mkdir (cache ++ "/" ++ version) (cache ++ "/src"),
        .clone agaveRepo (cache ++ "/src/agave"),
        .fetch (cache ++ "/src/agave"), .checkout (cache ++ "/src/agave") (tag version),
        .cargoInstall (cache ++ "/src/agave") (cache ++ "/" ++ version)] ++
        agaveBins.map fun bin => .copy (cache ++ "/" ++ version ++ "/install/bin/" ++ bin)
          (cache ++ "/" ++ version ++ "/" ++ bin))
      (Holds cache version agaveBins) := by
  have hsources : StepsMeet builder (Traceable cache agaveRepo geyserRepo seen) (fun _ => True)
      [.mkdir (cache ++ "/" ++ version) (cache ++ "/src"), .clone agaveRepo (cache ++ "/src/agave"),
        .fetch (cache ++ "/src/agave"), .checkout (cache ++ "/src/agave") (tag version),
        .cargoInstall (cache ++ "/src/agave") (cache ++ "/" ++ version)]
      (fun h => Holds cache version installedNames h ∧ Holds cache version [] h) := by
    refine StepsMeet.cons stepMeets_mkdir (StepsMeet.cons (Q := fun _ => True)
      (stepMeets_clone (fun h hI _ _ => ⟨hI.setAgave none, trivial⟩) fun _ _ _ _ => trivial)
      (StepsMeet.cons stepMeets_fetch (StepsMeet.cons (stepMeets_checkout fun h r hI _ hr => ?_)
        (StepsMeet.cons (stepMeets_cargoInstall hv) (StepsMeet.nil fun h _ hP => ⟨hP, nofun⟩)))))
    have hrepo := hI.agaveClone r hr
    rw [hrepo]
    exact ⟨hI.setAgave _, if_pos rfl⟩
  have hcopies := hsources.append (stepsMeet_copies hv agaveBins [] fun _ hb => hb)
  exact fun log => (hcopies log).weaken (fun _ h => h) fun _ _ h =>
    ⟨h.1, fun hnone => (h.2 hnone).2⟩

/-- The library of a version was compiled from the sources the build names. -/
def LibraryOf (cache : String) (request : BuildRequest) (h : BuildHost) : Prop :=
  ∃ r, h.files (cachePath cache request.version geyserLibName) = some r ∧
    request.install.geyserRepo = some r.repo ∧
      (Text.truthy request.install.geyserRef = true → r.ref = request.install.geyserRef)

/-- The ref is checked out only where the build names one. -/
theorem stepsMeet_checkoutRef {install : InstallConfig} {D : BuildHost → Prop}
    (hD : ∀ h src r, D h → D (h.setClone src r)) :
    StepsMeet builder (Traceable cache agaveRepo geyserRepo seen)
      (fun h => D h ∧ (h.clones (cache ++ "/src/geyser")).isSome = true)
      (match install.geyserRef with
        | none => []
        | some ref => if ref = "" then [] else [.checkout (cache ++ "/src/geyser") ref])
      (fun h => D h ∧ ∃ r, h.clones (cache ++ "/src/geyser") = some r ∧
        (Text.truthy install.geyserRef = true → r.ref = install.geyserRef)) := by
  cases hgref : install.geyserRef with
  | none =>
      refine StepsMeet.nil fun h _ hP => ⟨hP.1, ?_⟩
      obtain ⟨r, hr⟩ := Option.isSome_iff_exists.mp hP.2
      exact ⟨r, hr, nofun⟩
  | some ref =>
      by_cases hempty : ref = ""
      · simp only [hempty, if_true]
        refine StepsMeet.nil fun h _ hP => ⟨hP.1, ?_⟩
        obtain ⟨r, hr⟩ := Option.isSome_iff_exists.mp hP.2
        exact ⟨r, hr, nofun⟩
      · simp only [hempty, if_false]
        refine StepsMeet.cons (stepMeets_checkout fun h r hI hP hr => ?_)
          (StepsMeet.nil fun _ _ h => h)
        have hrepo := hI.geyserClone r hr
        rw [hrepo]
        exact ⟨hI.setGeyser _, hD h _ _ hP.1, _, if_pos rfl, fun _ => rfl⟩

theorem geyserSteps_eq {install : InstallConfig} {version : String}
    (hrepo : install.geyserRepo = some geyserRepo) (htruthy : geyserRepo ≠ "") :
    geyserSteps install version =
      [.clone geyserRepo (cacheDir install ++ "/src/geyser"),
        .fetch (cacheDir install ++ "/src/geyser")] ++
      ((match install.geyserRef with
        | none => []
        | some ref =>
            if ref = "" then [] else [.checkout (cacheDir install ++ "/src/geyser") ref]) ++
      [.cargoBuild (cacheDir install ++ "/src/geyser"),
        .copy (cacheDir install ++ "/src/geyser" ++ "/target/release/" ++ geyserLibName)
          (outDir install version ++ "/" ++ geyserLibName)]) := by
  rw [geyserSteps, hrepo]
  exact (if_neg htruthy).trans (List.append_assoc _ _ _)

theorem geyserSteps_of_not_truthy {install : InstallConfig} {version : String}
    (htruthy : ¬ Text.truthy install.geyserRepo = true) : geyserSteps install version = [] := by
  unfold geyserSteps
  split
  · rfl
  · rename_i repo hrepo
    have hempty : repo = "" := by simpa [hrepo, Text.truthy] using htruthy
    rw [if_pos hempty]

theorem stepsMeet_geyserClone {D : BuildHost → Prop}
    (hD : ∀ h src r, D h → D (h.setClone src r)) :
    StepsMeet builder (Traceable cache agaveRepo geyserRepo seen) D
      [.clone geyserRepo (cache ++ "/src/geyser"), .fetch (cache ++ "/src/geyser")]
      (fun h => D h ∧ (h.clones (cache ++ "/src/geyser")).isSome = true) := by
  refine StepsMeet.cons (stepMeets_clone (fun h hI hP _ => ⟨hI.setGeyser none, hD h _ _ hP, ?_⟩)
    fun h _ hP hsome => ⟨hP, hsome⟩)
      (StepsMeet.cons stepMeets_fetch (StepsMeet.nil fun _ _ h => h))
  simp [BuildHost.setClone]

/-- The library is built from what the plugin's clone is at. -/
theorem stepsMeet_geyserBuild {request : BuildRequest} (hcache : cacheDir request.install = cache)
    (hv : '/' ∉ request.version.toList) (hrepo : request.install.geyserRepo = some geyserRepo)
    (htruthy : geyserRepo ≠ "") (hseen : request ∈ seen) :
    StepsMeet builder (Traceable cache agaveRepo geyserRepo seen)
      (fun h => Holds cache request.version agaveBins h ∧
        ∃ r, h.clones (cache ++ "/src/geyser") = some r ∧
          (Text.truthy request.install.geyserRef = true → r.ref = request.install.geyserRef))
      [.cargoBuild (cache ++ "/src/geyser"),
        .copy (cache ++ "/src/geyser" ++ "/target/release/" ++ geyserLibName)
          (outDir request.install request.version ++ "/" ++ geyserLibName)]
      (fun h => Holds cache request.version agaveBins h ∧ LibraryOf cache request h) := by
  subst hcache
  have hother : "geyser/target/release/" ++ geyserLibName ∉ agavePaths := by decide
  refine StepsMeet.cons (Q := fun h =>
    Holds (cacheDir request.install) request.version agaveBins h ∧
      ∃ r, h.files (cacheDir request.install ++ "/src/geyser" ++ "/target/release/" ++
        geyserLibName) = some r ∧ r.repo = geyserRepo ∧
          (Text.truthy request.install.geyserRef = true → r.ref = request.install.geyserRef))
    (stepMeets_cargoBuild fun h r hI hP hr => ?_)
    (StepsMeet.cons (stepMeets_copy fun h r hI hP hr => ?_) (StepsMeet.nil fun _ _ h => h))
  · obtain ⟨hD, r', hr', href⟩ := hP
    obtain rfl := Option.some.inj (hr'.symm.trans hr)
    refine ⟨?_, hD.setFile _ _, r', setFile_self _ _ _, hI.geyserClone r' hr, href⟩
    rw [library_eq_cachePath]
    exact hI.setFile (by decide) (fun h => (hother h).elim) fun h => absurd h (by decide)
  · obtain ⟨hD, r', hr', hrepo', href⟩ := hP
    obtain rfl := Option.some.inj (hr'.symm.trans hr)
    refine ⟨hI.setFile hv (fun h => absurd h (by decide)) fun _ =>
      ⟨hrepo', request, hseen, rfl, ?_, href⟩, hD.setFile _ _, r', setFile_self _ _ _, ?_, href⟩
    · simp [hrepo, Text.truthy, htruthy]
    · rw [hrepo, hrepo']

variable (builder agaveRepo) in
theorem stepsMeet_geyser {request : BuildRequest} (hcache : cacheDir request.install = cache)
    (hv : '/' ∉ request.version.toList) (hrepo : request.install.geyserRepo = some geyserRepo)
    (htruthy : geyserRepo ≠ "") (hseen : request ∈ seen) :
    StepsMeet builder (Traceable cache agaveRepo geyserRepo seen)
      (Holds cache request.version agaveBins) (geyserSteps request.install request.version)
      (fun h => Holds cache request.version agaveBins h ∧ LibraryOf cache request h) := by
  have hbuild : StepsMeet builder (Traceable cache agaveRepo geyserRepo seen) _ _ _ :=
    stepsMeet_geyserBuild hcache hv hrepo htruthy hseen
  subst hcache
  rw [geyserSteps_eq hrepo htruthy]
  exact (stepsMeet_geyserClone fun _ _ _ h => h).append
    ((stepsMeet_checkoutRef fun _ _ _ h => h).append hbuild)

/-- The set a build was asked for is there, the library from the sources it names. -/
def Built (cache : String) (request : BuildRequest) (h : BuildHost) : Prop :=
  Holds cache request.version agaveBins h ∧
    (Text.truthy request.install.geyserRepo = true → LibraryOf cache request h)

section Request

variable {request : BuildRequest}

variable (builder) in
theorem stepsMeet_build (hcache : cacheDir request.install = cache)
    (hv : '/' ∉ request.version.toList) (hagave : request.install.agaveRepo = agaveRepo)
    (hgeyser : Text.truthy request.install.geyserRepo = true →
      request.install.geyserRepo = some geyserRepo) (hseen : request ∈ seen) :
    StepsMeet builder (Traceable cache agaveRepo geyserRepo seen) (fun _ => True)
      (buildCommands request.install request.version) (Built cache request) := by
  have hsteps : buildCommands request.install request.version =
      ([.mkdir (cache ++ "/" ++ request.version) (cache ++ "/src"),
        .clone agaveRepo (cache ++ "/src/agave"), .fetch (cache ++ "/src/agave"),
        .checkout (cache ++ "/src/agave") (tag request.version),
        .cargoInstall (cache ++ "/src/agave") (cache ++ "/" ++ request.version)] ++
        agaveBins.map fun bin =>
          .copy (cache ++ "/" ++ request.version ++ "/install/bin/" ++ bin)
            (cache ++ "/" ++ request.version ++ "/" ++ bin)) ++
      geyserSteps request.install request.version := by
    subst hcache hagave
    rfl
  rw [hsteps]
  refine (stepsMeet_agave hv).append ?_
  by_cases htruthy : Text.truthy request.install.geyserRepo = true
  · have hrepo := hgeyser htruthy
    have hne : geyserRepo ≠ "" := by simpa [hrepo, Text.truthy] using htruthy
    have hsome := stepsMeet_geyser builder agaveRepo hcache hv hrepo hne hseen
    exact fun log => (hsome log).weaken (fun _ h => h) fun _ _ h =>
      ⟨h.1, fun hnone => ⟨(h.2 hnone).1, fun _ => (h.2 hnone).2⟩⟩
  · rw [geyserSteps_of_not_truthy htruthy]
    exact StepsMeet.nil fun h _ hP => ⟨hP, fun ht => (htruthy ht).elim⟩

theorem provenance_of_built {result : BuildResult} {h : BuildHost}
    (hcache : cacheDir request.install = cache) (hv : '/' ∉ request.version.toList)
    (hagave : request.install.agaveRepo = agaveRepo)
    (hI : Traceable cache agaveRepo geyserRepo seen h) (hbuilt : Built cache request h)
    (hnames : result.artifacts.map (·.name) = artifactNames request.install)
    (hpaths : ∀ artifact ∈ result.artifacts, artifact.remotePath =
      outDir request.install request.version ++ "/" ++ artifact.name) :
    Provenance request result h := by
  subst hcache
  refine ⟨hnames, fun artifact ha hbin => ?_, fun artifact ha hlib => ?_⟩
  · obtain ⟨r, hr⟩ := Option.isSome_iff_exists.mp (hbuilt.1 _ hbin)
    obtain rfl := hI.agave _ _ r hv (List.mem_append_left _ hbin) hr
    rw [hpaths artifact ha, hagave]
    exact hr
  · have htruthy : Text.truthy request.install.geyserRepo = true := by
      by_contra hfalse
      have hmem : artifact.name ∈ artifactNames request.install := by
        rw [← hnames]
        exact List.mem_map_of_mem ha
      rw [artifactNames, if_neg hfalse, List.append_nil, hlib] at hmem
      exact absurd hmem (by decide)
    obtain ⟨r, hr, hrepo, href⟩ := hbuilt.2 htruthy
    refine ⟨r, ?_, hrepo, href⟩
    rw [hpaths artifact ha, hlib]
    exact hr

/-- Hashing the artifacts leaves the host as it is. -/
theorem triple_collect (J : BuildHost → Prop) (out : String) (names : List String) :
    Triple buildHandler (fun s => J s.1) (collect builder out names)
      (fun artifacts s => (artifacts.map (·.name) = names ∧
        ∀ artifact ∈ artifacts, artifact.remotePath = out ++ "/" ++ artifact.name) ∧ J s.1)
      fun _ => False := by
  have hkeep : Triple buildHandler (fun s => J s.1) (collect builder out names)
      (fun _ s => J s.1) fun _ => False := by
    refine Triple.each fun name _ => ?_
    refine Triple.bind (Triple.map (Triple.perform (fun s r hs hr => ?_) fun s e _ he => ?_))
      fun _ =>
      Triple.pure fun _ hs => hs
    · exact hs
    · cases he
  refine hkeep.returns fun trace artifacts hrun => ?_
  obtain ⟨hnames, hreported⟩ := runs_collect hrun
  exact ⟨hnames, fun artifact ha => (hreported artifact ha).1⟩

variable (builder geyserRepo seen) in
/-- The artifacts of a set that was built have their provenance. -/
theorem triple_collectBuilt (hcache : cacheDir request.install = cache)
    (hv : '/' ∉ request.version.toList) (hagave : request.install.agaveRepo = agaveRepo) :
    Triple buildHandler
      (fun s => Traceable cache agaveRepo geyserRepo seen s.1 ∧ Built cache request s.1)
      (collect builder (outDir request.install request.version) (artifactNames request.install))
      (fun artifacts s => Traceable cache agaveRepo geyserRepo seen s.1 ∧
        ∀ result : BuildResult, result.artifacts = artifacts → Provenance request result s.1)
      fun _ => False := by
  refine (triple_collect (fun h => Traceable cache agaveRepo geyserRepo seen h ∧
    Built cache request h) _ _).weaken (fun s hs => hs) fun artifacts s hs => ?_
  obtain ⟨⟨hnames, hpaths⟩, hI, hbuilt⟩ := hs
  refine ⟨hI, ?_⟩
  rintro result rfl
  exact provenance_of_built hcache hv hagave hI hbuilt hnames hpaths

theorem triple_isCached {J : BuildHost → Prop} (version : String) (names : List String) :
    Triple buildHandler (fun s => J s.1) (isCached builder (cache ++ "/" ++ version) names)
      (fun cached s => J s.1 ∧ (cached = true → Holds cache version names s.1)) fun _ => False := by
  refine Triple.map (Triple.perform (fun s r hs hr => ?_) fun s e _ he => by cases he)
  obtain rfl := Except.ok.inj hr
  refine ⟨hs, fun hok name hname => ?_⟩
  rw [exitWith_ok, Bool.and_eq_true, List.all_map, List.all_eq_true] at hok
  exact hok.2 name hname

variable (builder) in
/-- A build from scratch, and a build that found its set in the cache. -/
theorem triple_freshBuild (hcache : cacheDir request.install = cache)
    (hv : '/' ∉ request.version.toList) (hagave : request.install.agaveRepo = agaveRepo)
    (hgeyser : Text.truthy request.install.geyserRepo = true →
      request.install.geyserRepo = some geyserRepo) (hseen : request ∈ seen) :
    Triple buildHandler (fun s => Traceable cache agaveRepo geyserRepo seen s.1)
      (freshBuild builder request.install request.version)
      (fun result s => Traceable cache agaveRepo geyserRepo seen s.1 ∧
        (result.ok = true → Provenance request result s.1)) fun _ => False := by
  have hsteps := stepsMeet_build builder hcache hv hagave hgeyser hseen []
  refine Triple.bind (hsteps.weaken (fun s hs => ⟨hs, trivial⟩) fun _ _ h => h) fun out => ?_
  obtain ⟨error, log⟩ := out
  cases error with
  | some error => exact Triple.pure fun s hs => ⟨hs.1, nofun⟩
  | none =>
      have hcollect := triple_collectBuilt builder geyserRepo seen hcache hv hagave
      refine Triple.bind (hcollect.weaken (fun s hs => ⟨hs.1, hs.2 rfl⟩) fun _ _ h => h)
        fun artifacts => Triple.pure fun s hs => ?_
      exact ⟨hs.1, fun _ => hs.2 _ rfl⟩

theorem built_of_cached {h : BuildHost} (hI : Traceable cache agaveRepo geyserRepo seen h)
    (hv : '/' ∉ request.version.toList)
    (hgeyser : Text.truthy request.install.geyserRepo = true →
      request.install.geyserRepo = some geyserRepo)
    (hearlier : ∀ earlier ∈ seen, RefAgrees earlier request) (hforce : request.force = false)
    (hholds : Holds cache request.version (artifactNames request.install) h) :
    Built cache request h := by
  refine ⟨fun name hname => hholds name (List.mem_append_left _ hname), fun htruthy => ?_⟩
  have hlib : geyserLibName ∈ artifactNames request.install := by simp [artifactNames, htruthy]
  obtain ⟨r, hr⟩ := Option.isSome_iff_exists.mp (hholds _ hlib)
  obtain ⟨hrepo, earlier, hmem, hversion, hearlierGeyser, href⟩ := hI.geyser _ r hv hr
  refine ⟨r, hr, by rw [hgeyser htruthy, hrepo], fun hrefSet => ?_⟩
  have hsame := hearlier earlier hmem hforce hversion hearlierGeyser htruthy hrefSet
  rw [hsame] at href
  exact href hrefSet

variable (builder) in
/-- One build, after the builds in `seen`. -/
theorem triple_buildArtifacts (hcache : cacheDir request.install = cache)
    (hv : '/' ∉ request.version.toList) (hagave : request.install.agaveRepo = agaveRepo)
    (hgeyser : Text.truthy request.install.geyserRepo = true →
      request.install.geyserRepo = some geyserRepo)
    (hearlier : ∀ earlier ∈ seen, RefAgrees earlier request) :
    Triple buildHandler (fun s => Traceable cache agaveRepo geyserRepo seen s.1)
      (buildArtifacts builder request.install request.version request.force)
      (fun result s => Traceable cache agaveRepo geyserRepo (request :: seen) s.1 ∧
        (result.ok = true → Provenance request result s.1)) fun _ => False := by
  have hfresh := (triple_freshBuild builder hcache hv hagave hgeyser
    (List.mem_cons_self (a := request) (l := seen))).weaken
    (fun s (hs : Traceable cache agaveRepo geyserRepo seen s.1) => hs.cons request) fun _ _ h => h
  unfold buildArtifacts
  cases hforce : request.force with
  | true => exact hfresh
  | false =>
      subst hcache
      refine Triple.bind (triple_isCached request.version _) fun cached => ?_
      cases cached with
      | false => exact hfresh.weaken (fun s hs => hs.1) fun _ _ h => h
      | true =>
          have hcollect := triple_collectBuilt builder geyserRepo (request :: seen) rfl hv hagave
          refine Triple.bind (hcollect.weaken (fun s hs => ?_) fun _ _ h => h)
            fun artifacts => Triple.pure fun s hs => ⟨hs.1, fun _ => hs.2 _ rfl⟩
          exact ⟨hs.1.cons request, built_of_cached hs.1 hv hgeyser hearlier hforce (hs.2 rfl)⟩

end Request

theorem buildRun_provenance {requests : List BuildRequest} {s : BuildHost × (Nat → Outcome)}
    (hs : Traceable cache agaveRepo geyserRepo seen s.1)
    (hcache : ∀ request ∈ requests, cacheDir request.install = cache)
    (hv : ∀ request ∈ requests, '/' ∉ request.version.toList)
    (hagave : ∀ request ∈ requests, request.install.agaveRepo = agaveRepo)
    (hgeyser : ∀ request ∈ requests, Text.truthy request.install.geyserRepo = true →
      request.install.geyserRepo = some geyserRepo)
    (hearlier : ∀ request ∈ requests, ∀ earlier ∈ seen, RefAgrees earlier request)
    (hpairs : requests.Pairwise RefAgrees) :
    ∀ record ∈ buildRun builder requests s, ∀ result, record.result = .ok result →
      result.ok = true → Provenance record.request result record.host := by
  induction requests generalizing s seen with
  | nil => simp [buildRun]
  | cons request requests ih =>
      obtain ⟨hcache₁, hcaches⟩ := List.forall_mem_cons.mp hcache
      obtain ⟨hv₁, hvs⟩ := List.forall_mem_cons.mp hv
      obtain ⟨hagave₁, hagaves⟩ := List.forall_mem_cons.mp hagave
      obtain ⟨hgeyser₁, hgeysers⟩ := List.forall_mem_cons.mp hgeyser
      obtain ⟨hearlier₁, hearliers⟩ := List.forall_mem_cons.mp hearlier
      obtain ⟨hlater, hpairs⟩ := List.pairwise_cons.mp hpairs
      have hbuild := triple_buildArtifacts builder hcache₁ hv₁ hagave₁ hgeyser₁ hearlier₁ s hs
      unfold Execution.Meets at hbuild
      simp only [buildRun]
      split at hbuild
      case h_2 => exact hbuild.elim
      case h_1 result hresult =>
        refine List.forall_mem_cons.mpr ⟨fun result' hresult' hok => ?_, ?_⟩
        · obtain rfl := Except.ok.inj (hresult.symm.trans hresult')
          exact hbuild.2 hok
        · refine ih hbuild.1 hcaches hvs hagaves hgeysers (fun later hmem => ?_) hpairs
          exact List.forall_mem_cons.mpr ⟨hlater later hmem, hearliers later hmem⟩

end Build

theorem PlainName.no_slash {version : String} (h : PlainName version) : '/' ∉ version.toList :=
  fun hmem => by simpa [plainChar] using h.2.2.2 '/' hmem

/-- Whatever breaks off, builds that agree on their sources return what they were asked for. -/
theorem builds_provenance (builder : SSHTarget) {cache : String} {requests : List BuildRequest}
    (hcache : ∀ request ∈ requests, request.install.artifactCache = cache)
    (hagree : SourcesAgree requests) (outcomes : Nat → Outcome) :
    ∀ record ∈ buildRun builder requests (BuildHost.empty, outcomes), ∀ result,
      record.result = .ok result → result.ok = true →
        Provenance record.request result record.host := by
  obtain ⟨agaveRepo, hagave⟩ : ∃ agaveRepo, ∀ request ∈ requests,
      request.install.agaveRepo = agaveRepo := by
    cases requests with
    | nil => exact ⟨"", by simp⟩
    | cons first requests => exact ⟨_, fun request hr => hagree.agave request hr first (by simp)⟩
  obtain ⟨geyserRepo, hgeyser⟩ : ∃ geyserRepo, ∀ request ∈ requests,
      Text.truthy request.install.geyserRepo = true →
        request.install.geyserRepo = some geyserRepo := by
    by_cases hsome : ∃ first ∈ requests, Text.truthy first.install.geyserRepo = true
    · obtain ⟨first, hfirst, htruthy⟩ := hsome
      refine ⟨first.install.geyserRepo.getD "", fun request hr ht => ?_⟩
      rw [hagree.geyser request hr first hfirst ht htruthy]
      cases hrepo : first.install.geyserRepo with
      | none => simp [hrepo, Text.truthy] at htruthy
      | some repo => rfl
    · exact ⟨"", fun request hr ht => (hsome ⟨request, hr, ht⟩).elim⟩
  have hempty : Traceable (Text.rstrip '/' cache) agaveRepo geyserRepo [] BuildHost.empty :=
    traceable_empty
  exact buildRun_provenance hempty
    (fun request hr => congrArg (Text.rstrip '/') (hcache request hr))
    (fun request hr => (hagree.plain request hr).no_slash) hagave hgeyser (fun _ _ => nofun)
    hagree.ref

/-! ## An edited ref -/

/-- The plugin at a ref. -/
def pluginInstall (ref : String) : InstallConfig :=
  { builtInstall with
    geyserRepo := some "https://github.com/rpcpool/yellowstone-grpc"
    geyserRef := some ref }

def editedRef (force : Bool) : List BuildRequest :=
  [⟨pluginInstall "v10.0.0", "v3.0.1", false⟩, ⟨pluginInstall "v10.0.1", "v3.0.1", force⟩]

def secondBuild (requests : List BuildRequest) : Option BuildRecord :=
  (buildRun (.builder { host := "10.0.0.9" }) requests (BuildHost.empty, fun _ => .completes))[1]?

/-- What a build listed, and where each file came from. -/
def listed (record : BuildRecord) : Except Exn (Bool × List (String × Option Revision)) :=
  record.result.map fun result =>
    (result.ok, result.artifacts.map fun a => (a.name, record.host.files a.remotePath))

/-- A forced build follows the edited ref, also where the first one broke off. -/
theorem builds_provenance_forced :
    ∃ record ∈ buildRun (.builder { host := "10.0.0.9" }) (editedRef true)
        (BuildHost.empty, fun n => if n = 9 then .breaksOff 1 else .completes),
      ∃ result, record.result = .ok result ∧ result.ok = true ∧
        Provenance record.request result record.host := by
  have hcache : ∀ request ∈ editedRef true,
      request.install.artifactCache = builtInstall.artifactCache := by decide
  have hagree : SourcesAgree (editedRef true) := by
    refine ⟨?_, by decide, by decide, by simp [editedRef, RefAgrees]⟩
    intro request hr
    have hversion : request.version = "v3.0.1" := by
      revert hr
      simp only [editedRef, List.mem_cons, List.not_mem_nil, or_false]
      rintro (rfl | rfl) <;> rfl
    rw [hversion]
    exact ⟨by decide, by decide, by decide, List.all_eq_true.mp (by decide)⟩
  have hok : ((buildRun (.builder { host := "10.0.0.9" }) (editedRef true)
      (BuildHost.empty, fun n => if n = 9 then .breaksOff 1 else .completes))[1]?.map
        (·.result.map (·.ok))) = some (.ok true) := by
    decide +kernel
  obtain ⟨record, hrecord, heq⟩ := Option.map_eq_some_iff.mp hok
  cases hresult : record.result with
  | error e =>
      rw [hresult] at heq
      cases heq
  | ok result =>
      rw [hresult] at heq
      have hmem := List.mem_of_getElem? hrecord
      have htrue : result.ok = true := Except.ok.inj heq
      exact ⟨record, hmem, result, hresult, htrue,
        builds_provenance _ hcache hagree _ record hmem result hresult htrue⟩

/-- Without force the library of the old ref is taken for the new one. -/
theorem build_serves_edited_ref :
    ∃ record ∈ buildRun (.builder { host := "10.0.0.9" }) (editedRef false)
        (BuildHost.empty, fun _ => .completes),
      ∃ result, record.result = .ok result ∧ result.ok = true ∧
        ¬ Provenance record.request result record.host := by
  have hlisted : (secondBuild (editedRef false)).map listed = some (.ok (true,
      [("agave-validator", some ⟨"https://github.com/anza-xyz/agave", some "v3.0.1"⟩),
        ("agave-ledger-tool", some ⟨"https://github.com/anza-xyz/agave", some "v3.0.1"⟩),
        ("solana", some ⟨"https://github.com/anza-xyz/agave", some "v3.0.1"⟩),
        (geyserLibName,
          some ⟨"https://github.com/rpcpool/yellowstone-grpc", some "v10.0.0"⟩)])) := by
    decide +kernel
  have hrequest : (secondBuild (editedRef false)).map (·.request.install.geyserRef) =
      some (some "v10.0.1") := by decide +kernel
  obtain ⟨record, hrecord, heq⟩ := Option.map_eq_some_iff.mp hlisted
  obtain ⟨record', hrecord', href⟩ := Option.map_eq_some_iff.mp hrequest
  obtain rfl := Option.some.inj (hrecord.symm.trans hrecord')
  unfold listed at heq
  cases hresult : record.result with
  | error e =>
      rw [hresult] at heq
      cases heq
  | ok result =>
      rw [hresult] at heq
      obtain ⟨hok, hfiles⟩ := Prod.mk.inj (Except.ok.inj heq)
      refine ⟨record, List.mem_of_getElem? hrecord, result, hresult, hok, fun h => ?_⟩
      have hmem : (geyserLibName,
          some (⟨"https://github.com/rpcpool/yellowstone-grpc", some "v10.0.0"⟩ : Revision)) ∈
          result.artifacts.map fun a => (a.name, record.host.files a.remotePath) := by
        rw [hfiles]
        simp
      obtain ⟨artifact, ha, hartifact⟩ := List.mem_map.mp hmem
      obtain ⟨hname, hfile⟩ := Prod.mk.inj hartifact
      obtain ⟨r, hr, _, hrRef⟩ := h.geyser artifact ha hname
      rw [hfile, Option.some.injEq] at hr
      have hused := hrRef (by rw [href]; rfl)
      rw [← hr, href] at hused
      exact absurd hused (by decide)

end Solfleet
