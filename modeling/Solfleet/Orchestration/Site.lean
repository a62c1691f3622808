import Solfleet.Library.Matched
import Solfleet.Orchestration.Provenance
import Solfleet.Orchestration.SwapSet

/-! # Build hosts and nodes as one site

The clones and the files of each build host, and the bytes at each path of a node. Builds and
swaps break off anywhere, and a copy may leave anything at its destination and say anything of
it. What keeps other bytes out of a node is the checksum alone.
-/

namespace Solfleet

open Interaction Program

/-! ## Bytes -/

/-- What a build makes of an artifact, and the checksums of bytes. -/
structure Checksum (C : Type) where
  image : String → Revision → C
  digest : C → String
  word : ∀ c, digest c ≠ "" ∧ ∀ char ∈ (digest c).toList, Text.isSpace char = false
  /-- No other bytes hash to what a build made. -/
  unforged : ∀ {c name r}, digest c = digest (image name r) → c = image name r

def fileName (path : String) : String :=
  String.ofList (path.toList.rtakeWhile (· != '/'))

theorem fileName_join (dir : String) {name : String} (h : '/' ∉ name.toList) :
    fileName (dir ++ "/" ++ name) = name := by
  have hname : ∀ c ∈ name.toList, (c != '/') = true := fun c hc => by
    rw [bne_iff_ne]
    rintro rfl
    exact h hc
  have hchars : (dir ++ "/" ++ name).toList.rtakeWhile (· != '/') = name.toList := by
    rw [Text.toList_join, List.rtakeWhile, List.reverse_append, List.reverse_cons,
      List.append_assoc, List.takeWhile_append_of_pos (by simpa using hname)]
    simp
  rw [fileName, hchars, String.ofList_toList]

/-! ## The site -/

/-- How the next command goes: how it ends, what a copy or a redirection leaves in the file it
writes, and what a command that is not followed here answers. -/
structure Incident (C : Type) where
  outcome : Outcome
  arrives : Option C
  answer : (op : OpsEffect) → Except Exn op.Answer

structure Site (C : Type) where
  builders : String → BuildHost
  files : String → String → Option C
  incidents : Nat → Incident C

section Site

variable {C : Type}

def Site.next (s : Site C) : Site C := { s with incidents := fun n => s.incidents (n + 1) }

def Site.setBuilder (s : Site C) (host : String) (h : BuildHost) : Site C :=
  { s with builders := Function.update s.builders host h }

def Site.setFiles (s : Site C) (host : String) (files : String → Option C) : Site C :=
  { s with files := Function.update s.files host files }

def Site.write (s : Site C) (host path : String) (content : Option C) : Site C :=
  s.setFiles host (Function.update (s.files host) path content)

/-- Files are moved, not copied, and a missing one fails the part. -/
def SwapPart.run (files : String → Option C) : SwapPart → Option (String → Option C)
  | .mv staged dest =>
      (files staged).map fun c =>
        Function.update (Function.update files staged none) dest (some c)
  | .chmod dest => (files dest).map fun _ => files

/-- Parts joined by `&&`, of which at most `n` take place. -/
def swapFiles : List SwapPart → Nat → (String → Option C) → Bool × (String → Option C)
  | [], _, files => (true, files)
  | _ :: _, 0, files => (false, files)
  | part :: parts, n + 1, files =>
      match part.run files with
      | none => (false, files)
      | some files => swapFiles parts n files

/-- The bytes of a file. -/
def Site.bytes (sum : Checksum C) (s : Site C) : SSHTarget → String → Option C
  | .builder b, path => ((s.builders b.host).files path).map (sum.image (fileName path))
  | .node n, path => s.files n.host path

/-- The output of `sha256sum`. -/
def printSum (sum : Checksum C) (path : String) : Option C → Outcome → CommandResult
  | some c, .completes => ⟨0, sum.digest c ++ "  " ++ path ++ "\n", ""⟩
  | _, _ => exitWith false

/-- What the site answers. -/
def siteHandler (sum : Checksum C) : Handler opsSignature Exn (Site C)
  | .runner (.ssh target (.build step)), s =>
      let stepped := (s.builders target.host).step (s.incidents 0).outcome step
      (.ok (exitWith stepped.1), (s.setBuilder target.host stepped.2).next)
  | .runner (.ssh target (.testFiles paths)), s =>
      let found := paths.all fun path => ((s.builders target.host).files path).isSome
      (.ok (exitWith ((s.incidents 0).outcome.ok && found)), s.next)
  | .runner (.ssh target (.sha256sum path)), s =>
      (.ok (printSum sum path (s.bytes sum target path) (s.incidents 0).outcome), s.next)
  | .runner (.ssh target (.swap swaps)), s =>
      let parts := swapParts swaps
      let swapped := swapFiles parts ((s.incidents 0).outcome.done parts.length)
        (s.files target.host)
      (.ok (exitWith ((s.incidents 0).outcome.ok && swapped.1)),
        (s.setFiles target.host swapped.2).next)
  | .runner (.ssh target (.writeMarker value path)), s =>
      ((s.incidents 0).answer (.runner (.ssh target (.writeMarker value path))),
        (s.write target.host path (s.incidents 0).arrives).next)
  | .runner (.scpTo target localPath path), s =>
      ((s.incidents 0).answer (.runner (.scpTo target localPath path)),
        (s.write target.host path (s.incidents 0).arrives).next)
  | op, s => ((s.incidents 0).answer op, s.next)

/-! ## What a command leaves alone -/

def OpsEffect.Builds (op : OpsEffect) : Prop :=
  ∃ target step, op = .runner (.ssh target (.build step))

/-- The files a command may change. -/
def OpsEffect.Touches : OpsEffect → String → String → Prop
  | .runner (.ssh target (.swap swaps)), host, path =>
      target.host = host ∧ ∃ swap ∈ swaps, path = swap.staged ∨ path = swap.dest
  | .runner (.ssh target (.writeMarker _ marker)), host, path => target.host = host ∧ path = marker
  | .runner (.scpTo target _ dest), host, path => target.host = host ∧ path = dest
  | _, _, _ => False

theorem run_outside {files files' : String → Option C} {part : SwapPart} {path : String}
    (h : part.run files = some files')
    (hmv : ∀ staged dest, part = .mv staged dest → path ≠ staged ∧ path ≠ dest) :
    files' path = files path := by
  cases part with
  | mv staged dest =>
      rcases Option.map_eq_some_iff.mp h with ⟨c, -, rfl⟩
      rcases hmv staged dest rfl with ⟨hstaged, hdest⟩
      rw [Function.update_of_ne hdest, Function.update_of_ne hstaged]
  | chmod dest =>
      rcases Option.map_eq_some_iff.mp h with ⟨c, -, rfl⟩
      rfl

theorem swapFiles_outside {parts : List SwapPart} {path : String}
    (h : ∀ staged dest, .mv staged dest ∈ parts → path ≠ staged ∧ path ≠ dest) (n : Nat)
    (files : String → Option C) : (swapFiles parts n files).2 path = files path := by
  induction parts generalizing n files with
  | nil => rfl
  | cons part parts ih =>
      have hrest : ∀ staged dest, .mv staged dest ∈ parts → path ≠ staged ∧ path ≠ dest :=
        fun staged dest hmem => h staged dest (List.mem_cons_of_mem _ hmem)
      cases n with
      | zero => rfl
      | succ n =>
          cases hrun : part.run files with
          | none => simp only [swapFiles, hrun]
          | some files' =>
              simp only [swapFiles, hrun, ih hrest]
              refine run_outside hrun fun staged dest hpart => h staged dest ?_
              rw [hpart]
              exact List.mem_cons_self

theorem mem_swapParts_mv {swaps : List Swap} {staged dest : String}
    (h : .mv staged dest ∈ swapParts swaps) :
    ∃ swap ∈ swaps, swap.staged = staged ∧ swap.dest = dest := by
  rcases List.mem_flatMap.mp h with ⟨swap, hswap, hpart⟩
  refine ⟨swap, hswap, ?_⟩
  rcases List.mem_cons.mp hpart with hpart | hpart
  · cases hpart
    exact ⟨rfl, rfl⟩
  · split at hpart
    · simp at hpart
    · cases hpart

section Frame

variable {sum : Checksum C} {op : OpsEffect} {s : Site C} {host path : String}

theorem write_outside {target at' : String} {content : Option C}
    (h : ¬ (target = host ∧ path = at')) :
    (s.write target at' content).files host path = s.files host path := by
  unfold Site.write Site.setFiles
  by_cases hhost : host = target
  · subst hhost
    have hpath : path ≠ at' := fun heq => h ⟨rfl, heq⟩
    simp [hpath]
  · simp [hhost]

theorem siteHandler_files (h : ¬ op.Touches host path) :
    (siteHandler sum op s).2.files host path = s.files host path := by
  unfold siteHandler
  split
  · rfl
  · rfl
  · rfl
  · rename_i target swaps
    show (Function.update (Site.files _) target.host _) host path = _
    by_cases hhost : host = target.host
    · subst hhost
      rw [Function.update_self]
      refine swapFiles_outside (fun staged dest hmem => ?_) _ _
      rcases mem_swapParts_mv hmem with ⟨swap, hswap, rfl, rfl⟩
      refine ⟨fun hpath => h ⟨rfl, swap, hswap, .inl hpath⟩, fun hpath => ?_⟩
      exact h ⟨rfl, swap, hswap, .inr hpath⟩
    · rw [Function.update_of_ne hhost]
  · exact write_outside h
  · exact write_outside h
  · rfl

theorem siteHandler_builders (h : ¬ op.Builds) :
    (siteHandler sum op s).2.builders = s.builders := by
  unfold siteHandler
  split
  · exact (h ⟨_, _, rfl⟩).elim
  · rfl
  · rfl
  · rfl
  · rfl
  · rfl
  · rfl

end Frame

/-- Neither builds nor changes a file of a node. -/
def OpsEffect.Inert (op : OpsEffect) : Prop :=
  ¬ op.Builds ∧ ∀ host path, ¬ op.Touches host path

/-- The invocations that are. -/
def Invocation.inert : Invocation → Bool
  | .ssh _ (.build _) => false
  | .ssh _ (.swap _) => false
  | .ssh _ (.writeMarker ..) => false
  | .scpTo .. => false
  | _ => true

theorem inert_runner {i : Invocation} (h : i.inert = true) : (OpsEffect.runner i).Inert := by
  refine ⟨?_, fun host path htouches => ?_⟩
  · rintro ⟨target, step, hop⟩
    cases hop
    cases h
  · cases i with
    | scpTo => cases h
    | scpFrom => exact htouches
    | ssh target command =>
        cases command with
        | swap | writeMarker => cases h
        | _ => exact htouches

end Site

/-! ## Builds -/

/-- The sources that the builds of one host name. -/
structure Lineage where
  cache : String
  agaveRepo : String
  geyserRepo : String

def Lineage.Traces (line : Lineage) (seen : List BuildRequest) (h : BuildHost) : Prop :=
  Traceable line.cache line.agaveRepo line.geyserRepo seen h

/-- A build that names the sources of its host. -/
structure Lineage.Fits (line : Lineage) (request : BuildRequest) : Prop where
  cache : cacheDir request.install = line.cache
  slash : '/' ∉ request.version.toList
  agave : request.install.agaveRepo = line.agaveRepo
  geyser : Text.truthy request.install.geyserRepo = true →
    request.install.geyserRepo = some line.geyserRepo

/-- Where an artifact has to come from. -/
def BuildRequest.Names (request : BuildRequest) (name : String) (r : Revision) : Prop :=
  (name ∈ agaveBins → r = ⟨request.install.agaveRepo, some (tag request.version)⟩) ∧
    (name = geyserLibName → request.install.geyserRepo = some r.repo ∧
      (Text.truthy request.install.geyserRef = true → r.ref = request.install.geyserRef))

/-- The checksums a build reports are those of what it was asked for. -/
def Vouched {C : Type} (sum : Checksum C) (request : BuildRequest) (artifacts : List Artifact) :
    Prop :=
  artifacts.map (·.name) = artifactNames request.install ∧
    ∀ artifact ∈ artifacts, ∀ sha, artifact.sha256 = some sha →
      ∃ r, request.Names artifact.name r ∧ sha = sum.digest (sum.image artifact.name r)

theorem slash_not_mem_artifactNames (install : InstallConfig) :
    ∀ name ∈ artifactNames install, '/' ∉ name.toList := by
  have hbins : ∀ name ∈ agaveBins, '/' ∉ name.toList := by decide
  have hlib : '/' ∉ geyserLibName.toList := by decide
  intro name hname
  rcases List.mem_append.mp hname with hname | hname
  · exact hbins name hname
  · split at hname
    · rw [List.mem_singleton.mp hname]
      exact hlib
    · cases hname

section Build

variable {C : Type} {sum : Checksum C} {b : BuilderHost} {line : Lineage}
  {seen : List BuildRequest} {request : BuildRequest}
  {I : (String → BuildHost) → (String → String → Option C) → Prop}

/-- A build host and the fate of the commands to come. -/
def Site.view (host : String) (s : Site C) : BuildHost × (Nat → Outcome) :=
  (s.builders host, fun n => (s.incidents n).outcome)

def BuilderCall (builder : SSHTarget) (op : OpsEffect) : Prop :=
  (∃ step, op = .runner (.ssh builder (.build step))) ∨
    ∃ paths, op = .runner (.ssh builder (.testFiles paths))

theorem focuses_builder (sum : Checksum C) (builder : SSHTarget) :
    Focuses (BuilderCall builder) (Site.view builder.host) (siteHandler sum) buildHandler := by
  rintro op s (⟨step, rfl⟩ | ⟨paths, rfl⟩)
  · refine ⟨rfl, ?_⟩
    simp only [siteHandler, buildHandler, Site.view, Site.next, Site.setBuilder,
      Function.update_self]
  · exact ⟨rfl, rfl⟩

/-- Other build hosts and all nodes are as in `s₀`. -/
def Site.Beside (s : Site C) (host : String) (s₀ : Site C) : Prop :=
  (∀ other, other ≠ host → s.builders other = s₀.builders other) ∧ s.files = s₀.files

theorem beside_builderCall {builder : SSHTarget} {op : OpsEffect} {s₀ s : Site C}
    (hop : BuilderCall builder op) (h : s.Beside builder.host s₀) :
    (siteHandler sum op s).2.Beside builder.host s₀ := by
  rcases hop with ⟨step, rfl⟩ | ⟨paths, rfl⟩
  · refine ⟨fun other hother => ?_, h.2⟩
    show Function.update s.builders builder.host _ other = _
    rw [Function.update_of_ne hother]
    exact h.1 other hother
  · exact h

theorem allCalls_steps (builder : SSHTarget) (steps : List BuildStep) (log : List String) :
    (runBuildSteps builder steps log).AllCalls (BuilderCall builder) := by
  induction steps generalizing log with
  | nil => trivial
  | cons step steps ih =>
      refine AllCalls.bind (allCalls_perform.mpr (.inl ⟨step, rfl⟩)) fun r => ?_
      dsimp only
      split
      · exact ih _
      · trivial

/-- A build host's own triple, on the site. -/
theorem Triple.atBuilder {α : Type} {builder : SSHTarget} {p : OpsProgram α}
    (P : BuildHost → Prop) (Q : α → BuildHost → Prop) {X : Site C → Prop} (s₀ : Site C)
    (h : Triple buildHandler (fun s => P s.1) p (fun a s => Q a s.1) fun _ => False)
    (hp : p.AllCalls (BuilderCall builder)) :
    Triple (siteHandler sum) (fun s => P (s.builders builder.host) ∧ s.Beside builder.host s₀) p
      (fun a s => Q a (s.builders builder.host) ∧ s.Beside builder.host s₀) X :=
  ((h.focus (focuses_builder sum builder) hp).frame hp fun _ _ hop => beside_builderCall hop).relax
    fun _ hx => hx.1.elim

theorem printSum_firstWord {path sha : String} {content : Option C} {outcome : Outcome}
    (h : (printSum sum path content outcome).firstWord = some sha) :
    ∃ c, content = some c ∧ sha = sum.digest c := by
  cases content with
  | none => simp [printSum, CommandResult.firstWord, exitWith_ok] at h
  | some c =>
      cases outcome with
      | breaksOff progress => simp [printSum, CommandResult.firstWord, exitWith_ok] at h
      | completes =>
          rcases sum.word c with ⟨hne, hword⟩
          have hblank : sum.digest c ++ "  " ++ path ++ "\n" =
              sum.digest c ++ " " ++ (" " ++ path ++ "\n") := by
            have hsplit : "  " = " " ++ " " := rfl
            rw [hsplit]
            simp only [String.append_assoc]
          have hstrip := Text.strip_ne_empty hne hword ("  " ++ path ++ "\n")
          rw [← String.append_assoc, ← String.append_assoc] at hstrip
          have hfirst := Text.head?_split_append hne hword (" " ++ path ++ "\n")
          rw [← hblank] at hfirst
          have hok : (printSum sum path (some c) .completes).ok = true := rfl
          rw [CommandResult.firstWord, if_pos ⟨hok, hstrip⟩] at h
          exact ⟨c, rfl, Option.some.inj (h.symm.trans hfirst)⟩

variable (sum b) in
/-- Hashing on a build host. -/
theorem triple_collect_site (J : BuildHost → Prop) {X : Site C → Prop} (s₀ : Site C)
    (out : String) (names : List String) :
    Triple (siteHandler sum)
      (fun s => J (s.builders b.host) ∧ s.Beside b.host s₀) (collect (.builder b) out names)
      (fun artifacts s => List.Forall₂ (fun name artifact => artifact.name = name ∧
          artifact.remotePath = out ++ "/" ++ name ∧ ∀ sha, artifact.sha256 = some sha →
            ∃ h r, J h ∧ h.files artifact.remotePath = some r ∧
              sha = sum.digest (sum.image (fileName artifact.remotePath) r))
          names artifacts ∧ J (s.builders b.host) ∧ s.Beside b.host s₀) X := by
  refine Triple.each_forall fun name _ => ?_
  let path := out ++ "/" ++ name
  have hsum : Triple (siteHandler sum) (fun s => J (s.builders b.host) ∧ s.Beside b.host s₀)
      (remoteSha256 (.builder b) path)
      (fun answer s => (∀ sha, answer = some sha → ∃ h r, J h ∧ h.files path = some r ∧
        sha = sum.digest (sum.image (fileName path) r)) ∧
          J (s.builders b.host) ∧ s.Beside b.host s₀) X := by
    refine Triple.map (Triple.perform (fun s r hs hr => ?_) fun s e _ he => by cases he)
    cases hr
    refine ⟨fun sha hsha => ?_, hs⟩
    rcases printSum_firstWord hsha with ⟨c, hc, rfl⟩
    rcases Option.map_eq_some_iff.mp hc with ⟨r, hr, rfl⟩
    exact ⟨_, r, hs.1, hr, rfl⟩
  refine hsum.bind fun answer => Triple.pure fun s hs => ?_
  exact ⟨⟨rfl, rfl, hs.1⟩, hs.2⟩

/-- What is hashed is what was built. -/
theorem vouched_of_collected {names : List String} {artifacts : List Artifact}
    (fits : line.Fits request) (hnames : names = artifactNames request.install)
    (h : List.Forall₂ (fun name artifact => artifact.name = name ∧
      artifact.remotePath = outDir request.install request.version ++ "/" ++ name ∧
        ∀ sha, artifact.sha256 = some sha → ∃ h r,
          (line.Traces (request :: seen) h ∧ Built line.cache request h) ∧
            h.files artifact.remotePath = some r ∧
              sha = sum.digest (sum.image (fileName artifact.remotePath) r)) names artifacts) :
    Vouched sum request artifacts := by
  have hmap : artifacts.map (·.name) = artifactNames request.install := by
    rw [← hnames]
    clear hnames
    induction h with
    | nil => rfl
    | cons hfirst _ ih => rw [List.map_cons, ih, hfirst.1]
  have hpaths : ∀ artifact ∈ artifacts, artifact.remotePath =
      outDir request.install request.version ++ "/" ++ artifact.name := fun artifact ha => by
    rcases forall₂_exists_left h ha with ⟨name, -, hname, hpath, -⟩
    rw [hpath, hname]
  refine ⟨hmap, fun artifact ha sha hsha => ?_⟩
  rcases forall₂_exists_left h ha with ⟨name, hmem, hname, hpath, hsums⟩
  rcases hsums sha hsha with ⟨host, r, ⟨htraces, hbuilt⟩, hfile, rfl⟩
  let result : BuildResult :=
    { version := request.version, source := request.install.source,
      outDir := outDir request.install request.version, artifacts }
  have hprovenance : Provenance request result host :=
    provenance_of_built fits.cache fits.slash fits.agave htraces hbuilt hmap hpaths
  have hslash : '/' ∉ name.toList := by
    rw [hnames] at hmem
    exact slash_not_mem_artifactNames _ name hmem
  have hfileName : fileName artifact.remotePath = artifact.name := by
    rw [hpath, fileName_join _ hslash, hname]
  refine ⟨r, ⟨fun hbin => ?_, fun hlib => ?_⟩, by rw [hfileName]⟩
  · exact Option.some.inj (hfile.symm.trans (hprovenance.agave artifact ha hbin))
  · rcases hprovenance.geyser artifact ha hlib with ⟨r', hr', hrepo, href⟩
    rw [Option.some.inj (hfile.symm.trans hr')]
    exact ⟨hrepo, href⟩

/-- The checksums of a set that is built. -/
theorem triple_collectBuilt_site {X : Site C → Prop} (fits : line.Fits request)
    (s₀ : Site C) :
    Triple (siteHandler sum)
      (fun s => (line.Traces (request :: seen) (s.builders b.host) ∧
        Built line.cache request (s.builders b.host)) ∧ s.Beside b.host s₀)
      (collect (.builder b) (outDir request.install request.version)
        (artifactNames request.install))
      (fun artifacts s => Vouched sum request artifacts ∧
        line.Traces (request :: seen) (s.builders b.host) ∧ s.Beside b.host s₀) X := by
  have hcollect := triple_collect_site sum b
    (fun h => line.Traces (request :: seen) h ∧ Built line.cache request h) (X := X) s₀
    (outDir request.install request.version) (artifactNames request.install)
  refine hcollect.weaken (fun s hs => hs) fun artifacts s hs => ?_
  exact ⟨vouched_of_collected fits rfl hs.1, hs.2.1.1, hs.2.2⟩

theorem triple_freshBuild_site {X : Site C → Prop} (fits : line.Fits request)
    (s₀ : Site C) :
    Triple (siteHandler sum)
      (fun s => line.Traces (request :: seen) (s.builders b.host) ∧ s.Beside b.host s₀)
      (freshBuild (.builder b) request.install request.version)
      (fun result s => (result.ok = true → Vouched sum request result.artifacts) ∧
        line.Traces (request :: seen) (s.builders b.host) ∧ s.Beside b.host s₀) X := by
  have hsteps := stepsMeet_build (.builder b) fits.cache fits.slash fits.agave fits.geyser
    (List.mem_cons_self (a := request) (l := seen)) []
  have hsite : Triple (siteHandler sum) _ _ _ X := Triple.atBuilder
    (fun h => line.Traces (request :: seen) h ∧ True)
    (fun (out : Option String × List String) h =>
      line.Traces (request :: seen) h ∧ (out.1 = none → Built line.cache request h))
    s₀ hsteps (allCalls_steps _ _ _)
  refine (hsite.weaken (fun s hs => ⟨⟨hs.1, trivial⟩, hs.2⟩) fun _ _ h => h).bind fun out => ?_
  rcases out with ⟨error, log⟩
  cases error with
  | some error => exact Triple.pure fun s hs => ⟨fun h => Bool.noConfusion h, hs.1.1, hs.2⟩
  | none =>
      refine ((triple_collectBuilt_site fits s₀).weaken
        (fun s hs => ⟨⟨hs.1.1, hs.1.2 rfl⟩, hs.2⟩) fun _ _ h => h).bind fun artifacts => ?_
      exact Triple.pure fun s hs => ⟨fun _ => hs.1, hs.2⟩

/-- A build on the site, whatever breaks off. -/
theorem triple_buildArtifacts_site {X : Site C → Prop} (fits : line.Fits request)
    (href : ∀ earlier ∈ seen, RefAgrees earlier request) (s₀ : Site C) :
    Triple (siteHandler sum)
      (fun s => line.Traces seen (s.builders b.host) ∧ s.Beside b.host s₀)
      (buildArtifacts (.builder b) request.install request.version request.force)
      (fun result s => (result.ok = true → Vouched sum request result.artifacts) ∧
        line.Traces (request :: seen) (s.builders b.host) ∧ s.Beside b.host s₀) X := by
  have hfresh : Triple (siteHandler sum)
      (fun s => line.Traces seen (s.builders b.host) ∧ s.Beside b.host s₀) _ _ X :=
    (triple_freshBuild_site fits s₀).weaken (fun s hs => ⟨hs.1.cons request, hs.2⟩)
      fun _ _ h => h
  unfold buildArtifacts
  cases hforce : request.force with
  | true => exact hfresh
  | false =>
      have hcached : Triple (siteHandler sum) _
          (isCached (.builder b) (line.cache ++ "/" ++ request.version) _) _ X :=
        Triple.atBuilder (line.Traces seen)
          (fun cached h => line.Traces seen h ∧ (cached = true →
            Holds line.cache request.version (artifactNames request.install) h))
          s₀ (triple_isCached request.version (artifactNames request.install))
          (AllCalls.map _ (allCalls_perform.mpr (.inr ⟨_, rfl⟩)))
      have hout : outDir request.install request.version = line.cache ++ "/" ++ request.version :=
        congrArg (· ++ "/" ++ request.version) fits.cache
      rw [hout]
      refine hcached.bind fun cached => ?_
      cases cached with
      | false => exact hfresh.weaken (fun s hs => ⟨hs.1.1, hs.2⟩) fun _ _ h => h
      | true =>
          refine ((triple_collectBuilt_site fits s₀).weaken (fun s hs => ?_) fun _ _ h => h).bind
            fun artifacts => Triple.pure fun s hs => ⟨fun _ => hs.1, hs.2⟩
          refine ⟨⟨hs.1.1.cons request, ?_⟩, hs.2⟩
          exact built_of_cached hs.1.1 fits.slash fits.geyser href hforce (hs.1.2 rfl)

end Build

/-! ## Swapping -/

theorem stagedPath_inj {dest dest' : String} :
    stagedPath dest = stagedPath dest' ↔ dest = dest' := by
  simp [stagedPath]

/-- Files are moved from beside their destinations, and none to where another is staged. -/
structure PartsApart (parts : List SwapPart) : Prop where
  shape : ∀ {staged dest}, .mv staged dest ∈ parts → staged = stagedPath dest
  apart : ∀ {staged dest staged' dest'}, .mv staged dest ∈ parts →
    .mv staged' dest' ∈ parts → dest ≠ staged'

section Parts

variable {C : Type} {parts : List SwapPart} {part : SwapPart}
  {staged dest staged' dest' : String} {files : String → Option C} {c : C}

theorem PartsApart.tail (h : PartsApart (part :: parts)) : PartsApart parts :=
  ⟨fun hmem => h.shape (List.mem_cons_of_mem _ hmem),
    fun hmem hmem' => h.apart (List.mem_cons_of_mem _ hmem) (List.mem_cons_of_mem _ hmem')⟩

/-- A move is the first one or has another destination. -/
theorem PartsApart.split (h : PartsApart (.mv staged dest :: parts))
    (hmem : .mv staged' dest' ∈ SwapPart.mv staged dest :: parts) :
    (staged' = staged ∧ dest' = dest) ∨ (dest' ≠ dest ∧ .mv staged' dest' ∈ parts) := by
  have hfirst : .mv staged dest ∈ SwapPart.mv staged dest :: parts := List.mem_cons_self
  by_cases hsame : dest' = dest
  · rw [h.shape hmem, h.shape hfirst]
    exact .inl ⟨congrArg stagedPath hsame, hsame⟩
  · refine .inr ⟨hsame, (List.mem_cons.mp hmem).resolve_left fun heq => ?_⟩
    cases heq
    exact hsame rfl

/-- What another move finds is what was there before. -/
theorem PartsApart.found (h : PartsApart (.mv staged dest :: parts))
    (hmem : .mv staged' dest' ∈ parts) (hne : dest' ≠ dest) :
    Function.update (Function.update files staged none) dest (some c) dest' = files dest' ∧
      Function.update (Function.update files staged none) dest (some c) staged' =
        files staged' := by
  have hfirst : .mv staged dest ∈ SwapPart.mv staged dest :: parts := List.mem_cons_self
  have hother := List.mem_cons_of_mem (SwapPart.mv staged dest) hmem
  have hstaged : staged' ≠ staged := by
    rw [h.shape hother, h.shape hfirst, ne_eq, stagedPath_inj]
    exact hne
  have hdest' : dest' ≠ staged := h.apart hother hfirst
  have hstaged' : staged' ≠ dest := (h.apart hfirst hother).symm
  simp [hne, hstaged, hdest', hstaged']

/-- The file moved first stays where it was moved to. -/
theorem PartsApart.stays (h : PartsApart (.mv staged dest :: parts)) (n : Nat)
    (hsafe : .mv staged dest ∈ parts →
      (swapFiles parts n (Function.update (Function.update files staged none) dest
          (some c))).2 dest =
        Function.update (Function.update files staged none) dest (some c) dest ∨
      ∃ c', Function.update (Function.update files staged none) dest (some c) staged =
        some c') :
    (swapFiles parts n (Function.update (Function.update files staged none) dest
      (some c))).2 dest = some c := by
  have hfirst : .mv staged dest ∈ SwapPart.mv staged dest :: parts := List.mem_cons_self
  have hself : dest ≠ staged := h.apart hfirst hfirst
  by_cases hagain : .mv staged dest ∈ parts
  · rcases hsafe hagain with hkept | ⟨c', hc'⟩
    · rw [hkept, Function.update_self]
    · rw [Function.update_of_ne hself.symm, Function.update_self] at hc'
      cases hc'
  · rw [swapFiles_outside, Function.update_self]
    intro staged' dest' hmem
    refine ⟨h.apart hfirst (List.mem_cons_of_mem _ hmem), ?_⟩
    rintro rfl
    rw [h.shape hfirst] at hagain
    rw [h.tail.shape hmem] at hmem
    exact hagain hmem

/-- A moved file is at its destination, an unmoved one still beside it. -/
theorem swapFiles_moved (h : PartsApart parts) (n : Nat) (files : String → Option C) :
    (∀ staged dest, .mv staged dest ∈ parts →
      (swapFiles parts n files).2 dest = files dest ∨
        ∃ c, files staged = some c ∧ (swapFiles parts n files).2 dest = some c) ∧
    ((swapFiles parts n files).1 = true → ∀ staged dest, .mv staged dest ∈ parts →
      ∃ c, files staged = some c ∧ (swapFiles parts n files).2 dest = some c) := by
  induction parts generalizing n files with
  | nil => simp
  | cons part parts ih =>
      cases n with
      | zero => exact ⟨fun _ _ _ => .inl rfl, fun h => Bool.noConfusion h⟩
      | succ n =>
          cases hrun : part.run files with
          | none =>
              simp only [swapFiles, hrun]
              exact ⟨fun _ _ _ => .inl trivial, fun h => Bool.noConfusion h⟩
          | some files' =>
              simp only [swapFiles, hrun]
              rcases ih h.tail n files' with ⟨hsafe, hdone⟩
              cases part with
              | chmod dest =>
                  rcases Option.map_eq_some_iff.mp hrun with ⟨c, -, rfl⟩
                  refine ⟨fun staged dest' h => hsafe staged dest' ?_, fun hok staged dest' h =>
                    hdone hok staged dest' ?_⟩
                  · simpa using h
                  · simpa using h
              | mv staged dest =>
                  rcases Option.map_eq_some_iff.mp hrun with ⟨c, hc, rfl⟩
                  have hfirst := h.stays n fun hagain => (hsafe staged dest hagain).imp_right
                    fun hmoved => hmoved.imp fun _ h => h.1
                  refine ⟨fun staged' dest' hmem => ?_, fun hok staged' dest' hmem => ?_⟩
                  · rcases h.split hmem with ⟨rfl, rfl⟩ | ⟨hne, hrest⟩
                    · exact .inr ⟨c, hc, hfirst⟩
                    · have hkept := hsafe staged' dest' hrest
                      rw [(h.found hrest hne).1, (h.found hrest hne).2] at hkept
                      exact hkept
                  · rcases h.split hmem with ⟨rfl, rfl⟩ | ⟨hne, hrest⟩
                    · exact ⟨c, hc, hfirst⟩
                    · have hmoved := hdone hok staged' dest' hrest
                      rw [(h.found hrest hne).2] at hmoved
                      exact hmoved

end Parts

end Solfleet
