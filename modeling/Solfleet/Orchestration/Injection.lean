import Solfleet.Library.Shell
import Solfleet.Orchestration.Distribution

/-! # The version in a command line

The target version is spliced into the build steps, the cache test, the checksum paths
and the marker write. Each command is given as a template with holes for the version,
and what the gate lets into the holes is decided by the tokens of the policy's
patterns.
-/

namespace Solfleet

open Interaction Program Shell

/-! ## Templates -/

/-- A text with the output directory in it. -/
def aroundOut (install : InstallConfig) (before after : String) : Template :=
  [.fixed (before ++ cacheDir install ++ "/"), .hole, .fixed after]

/-- `_tag` -/
def tagPieces (version : String) : Template :=
  if Text.startsWith 'v' version then [.hole] else [.fixed "v", .hole]

def geyserTemplates (install : InstallConfig) : List Template :=
  match install.geyserRepo with
  | none => []
  | some repo =>
      if repo = "" then []
      else
        let geyserSrc := cacheDir install ++ "/src/geyser"
        [[.fixed (BuildStep.clone repo geyserSrc).text],
          [.fixed (BuildStep.fetch geyserSrc).text]] ++
        (match install.geyserRef with
          | none => []
          | some ref => if ref = "" then [] else [[.fixed (BuildStep.checkout geyserSrc ref).text]]) ++
        [[.fixed (BuildStep.cargoBuild geyserSrc).text],
          aroundOut install ("cp " ++ geyserSrc ++ "/target/release/" ++ geyserLibName ++ " ")
            ("/" ++ geyserLibName)]

def buildTemplates (install : InstallConfig) (version : String) : List Template :=
  let agaveSrc := cacheDir install ++ "/src/agave"
  [aroundOut install "mkdir -p " (" " ++ cacheDir install ++ "/src"),
    [.fixed (BuildStep.clone install.agaveRepo agaveSrc).text],
    [.fixed (BuildStep.fetch agaveSrc).text],
    .fixed ("git -C " ++ agaveSrc ++ " checkout ") :: tagPieces version,
    aroundOut install ("cd " ++ agaveSrc ++ " && ./scripts/cargo-install-all.sh ") "/install"] ++
  agaveBins.map (fun b =>
    aroundOut install "cp " ("/install/bin/" ++ b) ++ aroundOut install " " ("/" ++ b)) ++
  geyserTemplates install

def testTemplate (install : InstallConfig) : Template :=
  ((artifactNames install).map fun n => aroundOut install "test -f " ("/" ++ n)).intersperse
    [.fixed " && "] |>.flatten

def shaTemplates (install : InstallConfig) : List Template :=
  (artifactNames install).map fun n => aroundOut install "sha256sum " ("/" ++ n)

/-- The marker is written only where the service has one. -/
def markerPaths (node : Node) : List String := node.service.versionMarker.toList.filter (· != "")

def markerTemplates (node : Node) (version : String) : List Template :=
  (markerPaths node).map fun marker =>
    .fixed "printf '%s' '" :: (tagPieces version ++ [.fixed ("' > " ++ marker)])

def versionTemplates (install : InstallConfig) (node : Node) (version : String) : List Template :=
  buildTemplates install version ++ [testTemplate install] ++ shaTemplates install ++
    markerTemplates node version

/-! ## The commands they stand for -/

def builderCommands (install : InstallConfig) (version : String) : List Command :=
  (buildCommands install version).map .build ++
    [.testFiles ((artifactNames install).map fun n => outDir install version ++ "/" ++ n)] ++
    (artifactNames install).map fun n => .sha256sum (outDir install version ++ "/" ++ n)

def markerCommands (node : Node) (version : String) : List Command :=
  (markerPaths node).map (.writeMarker (tag version))

def versionCommands (install : InstallConfig) (node : Node) (version : String) : List Command :=
  builderCommands install version ++ markerCommands node version

@[simp] theorem render_aroundOut (install : InstallConfig) (version before after : String) :
    render version (aroundOut install before after) =
      before ++ outDir install version ++ after := by
  simp [aroundOut, outDir, String.append_assoc]

@[simp] theorem render_tagPieces (version : String) :
    render version (tagPieces version) = tag version := by
  unfold tagPieces tag
  split <;> simp

theorem render_intersperse (version sep : String) (ts : List Template) :
    render version (ts.intersperse [.fixed sep]).flatten =
      Text.join sep (ts.map (render version)) := by
  induction ts with
  | nil => simp [Text.join]
  | cons t ts ih =>
      cases ts with
      | nil => simp [Text.join]
      | cons u us =>
          simp only [Text.join, List.map_cons] at ih ⊢
          rw [String.intercalate_cons_cons, ← ih]
          simp [String.append_assoc]

theorem geyserTemplates_render (install : InstallConfig) (version : String) :
    (geyserTemplates install).map (render version) =
      (geyserSteps install version).map BuildStep.text := by
  unfold geyserTemplates geyserSteps
  cases install.geyserRepo with
  | none => rfl
  | some repo =>
      by_cases hrepo : repo = ""
      · simp [hrepo]
      · cases install.geyserRef with
        | none => simp [hrepo, BuildStep.text, String.append_assoc]
        | some ref =>
            by_cases href : ref = "" <;> simp [hrepo, href, BuildStep.text, String.append_assoc]

theorem buildTemplates_render (install : InstallConfig) (version : String) :
    (buildTemplates install version).map (render version) =
      (buildCommands install version).map BuildStep.text := by
  simp only [buildTemplates, buildCommands, List.map_append, geyserTemplates_render]
  simp [BuildStep.text, String.append_assoc, Function.comp_def]

theorem testTemplate_render (install : InstallConfig) (version : String) :
    render version (testTemplate install) =
      (Command.testFiles ((artifactNames install).map fun n =>
        outDir install version ++ "/" ++ n)).text := by
  have hparts : (((artifactNames install).map fun n => aroundOut install "test -f " ("/" ++ n)).map
      (render version)) =
      ((artifactNames install).map fun n => outDir install version ++ "/" ++ n).map
        fun path => "test -f " ++ path := by
    simp [Function.comp_def, String.append_assoc]
  simp only [testTemplate, render_intersperse, hparts, Command.text_testFiles]

theorem shaTemplates_render (install : InstallConfig) (version : String) :
    (shaTemplates install).map (render version) =
      ((artifactNames install).map fun n =>
        Command.sha256sum (outDir install version ++ "/" ++ n)).map Command.text := by
  simp only [shaTemplates, List.map_map]
  refine List.map_congr_left fun n _ => ?_
  simp [Command.text_sha256sum, String.append_assoc]

theorem markerTemplates_render (node : Node) (version : String) :
    (markerTemplates node version).map (render version) =
      (markerCommands node version).map Command.text := by
  simp only [markerTemplates, markerCommands, List.map_map]
  refine List.map_congr_left fun marker _ => ?_
  simp [Command.text_writeMarker, String.append_assoc]

/-- The templates of a version, filled with it, are the texts of its commands. -/
theorem versionTemplates_render (install : InstallConfig) (node : Node) (version : String) :
    (versionTemplates install node version).map (render version) =
      (versionCommands install node version).map Command.text := by
  have hbuild : (buildTemplates install version).map (render version) =
      ((buildCommands install version).map Command.build).map Command.text := by
    rw [buildTemplates_render, List.map_map]
    exact List.map_congr_left fun step _ => (Command.text_build step).symm
  simp only [versionTemplates, versionCommands, builderCommands, List.map_append, hbuild,
    List.map_cons, List.map_nil, testTemplate_render, shaTemplates_render, markerTemplates_render]

/-- A build sends the builder these commands only. -/
theorem allCalls_buildArtifacts_version (builder : SSHTarget) (install : InstallConfig)
    (node : Node) (version : String) (force : Bool) :
    (buildArtifacts builder install version force).AllCalls (OpsEffect.Sends fun i =>
      ∃ command ∈ versionCommands install node version, i = .ssh builder command) := by
  refine allCalls_buildArtifacts ?_ (fun step hstep => ?_) (fun n hn => ?_) force
  · exact ⟨_, by simp [versionCommands, builderCommands], rfl⟩
  · exact ⟨.build step, by simp [versionCommands, builderCommands, hstep], rfl⟩
  · exact ⟨_, by simp [versionCommands, builderCommands, hn], rfl⟩

/-- So does the marker write. -/
theorem allCalls_updateMarker_version (install : InstallConfig) (node : Node) (version : String) :
    (updateMarker node version).AllCalls (OpsEffect.Sends fun i =>
      ∃ command ∈ versionCommands install node version, i = .ssh (.node node) command) := by
  unfold updateMarker
  cases hm : node.service.versionMarker with
  | none => trivial
  | some marker =>
      by_cases hempty : marker = ""
      · simp [hempty]
      · simp only [hempty, if_false]
        refine (allCalls_runOn ⟨.writeMarker (tag version) marker, ?_, rfl⟩).bind fun _ => trivial
        simp [versionCommands, markerCommands, markerPaths, hm, hempty]

/-! ## Contained versions -/

/-- A directory entry directly below `dir`. -/
def ChildOf (dir path : String) : Prop :=
  ∃ name, path = dir ++ "/" ++ name ∧ '/' ∉ name.toList ∧ name ≠ "" ∧ name ≠ "." ∧ name ≠ ".."

/-- Wherever the version is spliced in it stays literal text, and its output directory is
a child of the cache. -/
structure Contained (install : InstallConfig) (node : Node) (version : String) : Prop where
  literal : ∀ template ∈ versionTemplates install node version, LiteralIn version template
  child : ChildOf (cacheDir install) (outDir install version)

theorem childOf_outDir_iff {install : InstallConfig} {version : String} :
    ChildOf (cacheDir install) (outDir install version) ↔
      '/' ∉ version.toList ∧ version ≠ "" ∧ version ≠ "." ∧ version ≠ ".." := by
  constructor
  · rintro ⟨name, heq, h⟩
    have hname : version = name := by
      have hlists := congrArg String.toList heq
      simp only [outDir, String.toList_append, List.append_cancel_left_eq] at hlists
      exact String.toList_inj.mp hlists
    exact hname ▸ h
  · exact fun h => ⟨version, rfl, h⟩

/-- Text that may stand unquoted in a word and in one path component. -/
def plainChar (c : Char) : Bool := !isSpecial c && c != '/'

theorem contained_of_plain {install : InstallConfig} {node : Node} {version : String}
    (hplain : ∀ c ∈ version.toList, plainChar c = true) (hempty : version ≠ "")
    (hdot : version ≠ ".") (hdots : version ≠ "..") : Contained install node version := by
  have hchar : ∀ c ∈ version.toList, isSpecial c = false ∧ c ≠ '/' := fun c hc => by
    simpa [plainChar] using hplain c hc
  refine ⟨fun template _ => literalIn_of_plain (fun c hc => (hchar c hc).1) template, ?_⟩
  exact childOf_outDir_iff.mpr ⟨fun h => (hchar _ h).2 rfl, hempty, hdot, hdots⟩

/-- The unquoted output directory of the default cache leaves no choice. -/
theorem plain_of_contained {node : Node} {version : String}
    (h : Contained builtInstall node version) : ∀ c ∈ version.toList, plainChar c = true := by
  have hmkdir := h.literal
    (aroundOut builtInstall "mkdir -p " (" " ++ cacheDir builtInstall ++ "/src"))
    (by simp [versionTemplates, buildTemplates])
  have hspecial := plain_of_literalIn (fun rest => by rfl) hmkdir
  intro c hc
  have hslash : c ≠ '/' := by
    rintro rfl
    exact (childOf_outDir_iff.mp h.child).1 hc
  simp [plainChar, hspecial c hc, hslash]

/-! ## Plain patterns -/

/-- A pattern that allows nothing, or plain names only: it has no wildcard, its literals
and bracket expressions admit plain characters, and it is none of the names that leave
the cache. -/
def PlainPattern (pattern : String) : Prop :=
  (∃ t ∈ Glob.tokens pattern, t.Dead) ∨
    ((∀ t ∈ Glob.tokens pattern, ∀ c, t.admits c = true → plainChar c = true) ∧
      Glob.fnmatch "" pattern = false ∧ Glob.fnmatch "." pattern = false ∧
      Glob.fnmatch ".." pattern = false)

theorem PlainPattern.plain {pattern version : String} (h : PlainPattern pattern)
    (hmatch : Glob.fnmatch version pattern = true) :
    (∀ c ∈ version.toList, plainChar c = true) ∧
      version ≠ "" ∧ version ≠ "." ∧ version ≠ ".." := by
  obtain ⟨t, ht, hdead⟩ | ⟨htokens, hempty, hdot, hdots⟩ := h
  · rw [Glob.fnmatch, Glob.accepts_eq_false_of_dead ht hdead] at hmatch
    cases hmatch
  · refine ⟨fun c hc => ?_, ?_, ?_, ?_⟩
    · obtain ⟨t, ht, ha⟩ := Glob.admits_of_accepts hmatch c hc
      exact htokens t ht c ha
    all_goals
      rintro rfl
      simp_all

/-- A pattern that is not plain allows a name that is not. -/
theorem exists_not_plain {pattern : String} (h : ¬ PlainPattern pattern) :
    ∃ version, Glob.fnmatch version pattern = true ∧
      ((∃ c ∈ version.toList, plainChar c = false) ∨
        version = "" ∨ version = "." ∨ version = "..") := by
  simp only [PlainPattern, not_or, not_exists, not_and] at h
  obtain ⟨hlive, hrest⟩ := h
  by_cases htokens : ∀ t ∈ Glob.tokens pattern, ∀ c, t.admits c = true → plainChar c = true
  · have hnames := hrest htokens
    by_cases hempty : Glob.fnmatch "" pattern = true
    · exact ⟨"", hempty, by simp⟩
    by_cases hdot : Glob.fnmatch "." pattern = true
    · exact ⟨".", hdot, by simp⟩
    · refine ⟨"..", ?_, by simp⟩
      simpa using hnames (by simpa using hempty) (by simpa using hdot)
  · push Not at htokens
    obtain ⟨t, ht, c, hadmits, hplain⟩ := htokens
    obtain ⟨cs, hcs, hin⟩ := (Glob.exists_accepts hlive).2 t ht c hadmits
    exact ⟨String.ofList cs, by simpa [Glob.fnmatch] using hcs,
      .inl ⟨c, by simpa using hin, by simpa using hplain⟩⟩

/-! ## What the gate lets through -/

/-- Rules under which a version that passes the upgrade's gate is contained, whatever the
fleet and the node. -/
def ContainsVersions (rules : PolicyRules) : Prop :=
  ∀ (a : AcceptedFleet) (nodeName clusterName : String) (cluster : Cluster) (node : Node)
    (install : InstallConfig) (version : String) (before : Inspection) (pcts : List Nat),
    a.fleet.findNode nodeName = some (clusterName, cluster, node) →
    cluster.install = some install →
    (upgradeRequest a.fleet clusterName cluster node nodeName rules version before pcts).Opens true →
    Contained install node version

/-- What an inspection of a running node finds. -/
def activeInspection (node : Node) : Inspection where
  name := node.name
  host := node.host
  service := ⟨node.service.unit, some "active", none, none, none, true, none⟩
  version := ⟨node.service.binary, none, none, true, none⟩
  disk := []

/-- On the built fleet the version check alone decides. -/
theorem built_opens {rules : PolicyRules} {version : String}
    (h : versionAllowed rules (some version) = true) :
    (upgradeRequest builtFleet.fleet "testnet" builtCluster builtNode "rpc-1" rules version
      (activeInspection builtNode) []).Opens true := by
  refine upgradeRequest_opens_of_planned (gate_allowed_iff.mpr ?_) rfl (diskFreeOk_nil rules)
  simp only [planRequest, upgradeChecks, List.forall_mem_cons]
  exact ⟨h, by decide, by decide, by decide, by simp⟩

/-- Versions are contained exactly under rules whose patterns are all plain. -/
theorem versions_contained_iff (rules : PolicyRules) :
    ContainsVersions rules ↔ ∀ pattern ∈ rules.allowedVersions, PlainPattern pattern := by
  constructor
  · intro h pattern hp
    by_contra hplain
    obtain ⟨version, hmatch, hbad⟩ := exists_not_plain hplain
    have hallowed : versionAllowed rules (some version) = true :=
      List.any_eq_true.mpr ⟨pattern, hp, hmatch⟩
    have hcontained := h builtFleet "rpc-1" _ _ _ _ version _ _ builtFleet_findNode rfl
      (built_opens hallowed)
    obtain ⟨c, hc, hnot⟩ | hname := hbad
    · rw [plain_of_contained hcontained c hc] at hnot
      cases hnot
    · have hchild := childOf_outDir_iff.mp hcontained.child
      obtain rfl | rfl | rfl := hname
      · exact hchild.2.1 rfl
      · exact hchild.2.2.1 rfl
      · exact hchild.2.2.2 rfl
  · intro h a nodeName clusterName cluster node install version before pcts _ _ hopens
    obtain ⟨hallowed, _, _⟩ := planRequest_allowed (upgradeRequest_allowed hopens.2)
    obtain ⟨pattern, hp, hmatch⟩ := List.any_eq_true.mp hallowed
    obtain ⟨hplain, hempty, hdot, hdots⟩ := (h pattern hp).plain hmatch
    exact contained_of_plain hplain hempty hdot hdots

/-- The default rules let a second command into the builder's shell. -/
theorem default_rules_inject :
    (upgradeRequest builtFleet.fleet "testnet" builtCluster builtNode "rpc-1" {} "v1;reboot"
      (activeInspection builtNode) []).Opens true ∧
    (BuildStep.mkdir (outDir builtInstall "v1;reboot") "/var/cache/solfleet/artifacts/src").text =
      "mkdir -p /var/cache/solfleet/artifacts/v1;reboot /var/cache/solfleet/artifacts/src" ∧
    ¬ Contained builtInstall builtNode "v1;reboot" := by
  refine ⟨by decide, by decide, fun h => ?_⟩
  have hplain := plain_of_contained h ';' (by decide)
  exact absurd hplain (by decide)

end Solfleet
