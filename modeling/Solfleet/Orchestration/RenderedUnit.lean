import Solfleet.Library.UnitFile
import Solfleet.Orchestration.InstalledUnit

/-! # What a rendered unit says

The text that a provisioning installs, read back as the service manager reads it: its sections
and keys are those of the template, and the command line is the configured one.
-/

namespace Solfleet

open Interaction Program UnitFile

/-! ## The unit as a file -/

def setting (key value : String) : Setting := { key := key.toList, first := value.toList }

def execStart (binary : String) (more : List String) : Setting where
  key := "ExecStart".toList
  first := binary.toList
  more := more.map String.toList

def unitPart (node : Node) : Part where
  name := "Unit".toList
  assignments :=
    [setting "Description" ("Solana validator (" ++ node.name ++ ")"),
      setting "After" "network-online.target",
      setting "Wants" "network-online.target"]

/-- `more` is what follows the binary in its command line. -/
def servicePart (node : Node) (more : List String) : Part where
  name := "Service".toList
  assignments :=
    [setting "Type" "simple",
      setting "User" node.service.runUser,
      setting "Group" node.service.runUser,
      setting "LimitNOFILE" (toString node.system.openFiles),
      setting "Restart" "always",
      setting "RestartSec" "1",
      execStart node.service.binary more]

def installPart : Part where
  name := "Install".toList
  assignments := [setting "WantedBy" "multi-user.target"]

def unitParts (node : Node) (more : List String) : List Part :=
  [unitPart node, servicePart node more, installPart]

theorem unitArgs_ends (node : Node) (cluster : Cluster) :
    ∃ more, unitArgs node cluster = node.service.binary :: (more ++ ["--log -"]) := ⟨_, rfl⟩

theorem toList_joined (separator first : String) (more : List String) :
    (Text.join separator (first :: more)).toList =
      first.toList ++ (more.map String.toList).flatMap (separator.toList ++ ·) := by
  induction more generalizing first with
  | nil => simp [Text.join]
  | cons next more ih =>
      have hcons : Text.join separator (first :: next :: more) =
          first ++ separator ++ Text.join separator (next :: more) :=
        String.intercalate_cons_cons
      rw [hcons, String.toList_append, String.toList_append, ih]
      simp

theorem text_unitPart (node : Node) :
    (unitPart node).text =
      ("[Unit]\n" ++ "Description=Solana validator (" ++ node.name ++ ")\n" ++
        "After=network-online.target\n" ++ "Wants=network-online.target\n\n").toList := by
  simp only [unitPart, Part.text, Setting.text, setting, List.flatMap_cons, List.flatMap_nil,
    List.append_nil, String.toList_append, List.append_assoc, List.cons_append, List.nil_append]
  rfl

theorem text_execStart (binary : String) (more : List String) :
    (execStart binary more).text =
      "ExecStart=".toList ++ (Text.join " \\\n  " (binary :: more)).toList ++ ['\n'] := by
  have hseparator : " \\\n  ".toList = [' ', '\\', '\n', ' ', ' '] := rfl
  rw [toList_joined, hseparator]
  rfl

theorem text_servicePart (node : Node) (more : List String) :
    (servicePart node more).text =
      ("[Service]\n" ++ "Type=simple\n" ++ "User=" ++ node.service.runUser ++ "\n" ++
        "Group=" ++ node.service.runUser ++ "\n" ++
        "LimitNOFILE=" ++ toString node.system.openFiles ++ "\n" ++ "Restart=always\n" ++
        "RestartSec=1\n" ++ "ExecStart=" ++ Text.join " \\\n  " (node.service.binary :: more) ++
        "\n\n").toList := by
  unfold servicePart Part.text
  simp only [List.flatMap_cons, List.flatMap_nil, text_execStart]
  generalize Text.join " \\\n  " (node.service.binary :: more) = joined
  generalize toString node.system.openFiles = openFiles
  simp only [Setting.text, setting, List.flatMap_nil, List.append_nil, String.toList_append,
    List.append_assoc, List.cons_append, List.nil_append]
  rfl

/-- The file on the host is the unit and an empty line. -/
theorem write_unitParts {node : Node} {cluster : Cluster} {more : List String}
    (hargs : unitArgs node cluster = node.service.binary :: more) :
    write (unitParts node more) 1 = (unitContents (renderUnit node cluster)).toList := by
  have hinstall : installPart.text =
      ("[Install]\n" ++ "WantedBy=multi-user.target\n" ++ "\n").toList := rfl
  rw [write_one, unitParts, List.flatMap_cons, List.flatMap_cons, List.flatMap_cons,
    List.flatMap_nil, List.append_nil, text_unitPart, text_servicePart, hinstall]
  unfold unitContents renderUnit
  rw [hargs]
  generalize Text.join " \\\n  " (node.service.binary :: more) = joined
  simp only [← String.toList_append, String.append_assoc]

/-! ## What is read back -/

/-- A word that a unit file takes as it is. -/
def PlainWord (s : String) : Prop := ∀ c ∈ s.toList, isBlank c = false ∧ c ≠ '\\'

instance (s : String) : Decidable (PlainWord s) := List.decidableBAll _ _

/-- What is configured stays in its line, and nothing of it is quoted, expanded, escaped or taken
for a comment. -/
structure PlainUnit (node : Node) (cluster : Cluster) : Prop where
  name : Inline node.name.toList
  user : PlainWord node.service.runUser
  args : ∀ arg ∈ unitArgs node cluster, '\n' ∉ arg.toList ∧ isComment arg.toList = false ∧
    ∀ c ∈ arg.toList, isMagic c = false
  binary : ∃ c ∈ node.service.binary.toList.head?, isBlank c = false ∧ isFlag c = false

def unitEntry (part key value : String) : Entry := ⟨part.toList, key.toList, value.toList⟩

/-- All that a rendered unit says but for its command line. -/
def unitEntries (node : Node) (line : List Char) : List Entry :=
  [unitEntry "Unit" "Description" ("Solana validator (" ++ node.name ++ ")"),
    unitEntry "Unit" "After" "network-online.target",
    unitEntry "Unit" "Wants" "network-online.target",
    unitEntry "Service" "Type" "simple",
    unitEntry "Service" "User" node.service.runUser,
    unitEntry "Service" "Group" node.service.runUser,
    unitEntry "Service" "LimitNOFILE" (toString node.system.openFiles),
    unitEntry "Service" "Restart" "always",
    unitEntry "Service" "RestartSec" "1",
    ⟨"Service".toList, "ExecStart".toList, line⟩,
    unitEntry "Install" "WantedBy" "multi-user.target"]

theorem isBlank_of_isDigit {c : Char} (h : c.isDigit = true) : isBlank c = false ∧ c ≠ '\\' := by
  constructor
  · by_contra hblank
    simp only [isBlank, Bool.or_eq_true, beq_iff_eq, Bool.not_eq_false] at hblank
    rcases hblank with ((rfl | rfl) | rfl) | rfl
    all_goals revert h; decide
  · rintro rfl
    revert h
    decide

theorem plainWord_nat (n : Nat) : PlainWord (toString n) := by
  intro c hc
  have hdigits : (toString n).toList = Nat.toDigits 10 n := by
    show (Nat.repr n).toList = _
    rw [Nat.repr, String.toList_ofList]
  rw [hdigits] at hc
  exact isBlank_of_isDigit (Nat.isDigit_of_mem_toDigits (by decide) (by decide) hc)

theorem plainWord_int (n : Int) : PlainWord (toString n) := by
  cases n with
  | ofNat n => exact plainWord_nat n
  | negSucc n =>
      intro c hc
      have hminus : toString (Int.negSucc n) = "-" ++ toString (n + 1) := rfl
      rw [hminus, String.toList_append, List.mem_append] at hc
      rcases hc with hc | hc
      · cases List.mem_singleton.mp hc
        decide
      · exact plainWord_nat (n + 1) c hc

theorem PlainWord.inline {s : String} (h : PlainWord s) : Inline s.toList := by
  refine ⟨fun hmem => ?_, fun hmem => (h _ hmem).2 rfl⟩
  have hblank := (h _ hmem).1
  revert hblank
  decide

theorem plain_setting {key value : String} (hkey : Letters key.toList)
    (hvalue : Inline value.toList) (hstrip : strip value.toList = value.toList) :
    (setting key value).Plain where
  key := hkey
  first := hvalue
  more := by simp [setting]
  trimmed := hstrip

theorem plain_word {key value : String} (hkey : Letters key.toList) (h : PlainWord value) :
    (setting key value).Plain :=
  plain_setting hkey h.inline (strip_of_word fun c hc => (h c hc).1)

theorem inline_of_magic {cs : List Char} (hline : '\n' ∉ cs)
    (hmagic : ∀ c ∈ cs, isMagic c = false) : Inline cs := by
  refine ⟨hline, fun hmem => ?_⟩
  have hbackslash := hmagic _ hmem
  revert hbackslash
  decide

section Plain

variable {node : Node} {cluster : Cluster} {more : List String}

theorem PlainUnit.piece (plain : PlainUnit node cluster)
    (hargs : unitArgs node cluster = node.service.binary :: more) {piece : List Char}
    (h : piece ∈ (execStart node.service.binary more).first ::
      (execStart node.service.binary more).more) :
    Inline piece ∧ isComment piece = false ∧ ∀ c ∈ piece, isMagic c = false := by
  have hpiece : piece ∈ (node.service.binary :: more).map String.toList := h
  rcases List.mem_map.mp hpiece with ⟨arg, harg, rfl⟩
  rw [← hargs] at harg
  have hplain := plain.args arg harg
  exact ⟨inline_of_magic hplain.1 hplain.2.2, hplain.2⟩

theorem execStart_getLast? (binary : String) (more : List String) :
    (execStart binary (more ++ ["--log -"])).value.getLast? = some '-' := by
  rw [Setting.value_eq]
  unfold execStart
  simp only [List.map_append, List.flatMap_append, List.map_cons, List.map_nil,
    List.flatMap_cons, List.flatMap_nil, List.append_nil, ← List.append_assoc]
  rw [List.getLast?_append]
  rfl

theorem PlainUnit.execStart (plain : PlainUnit node cluster)
    (hargs : unitArgs node cluster = node.service.binary :: (more ++ ["--log -"])) :
    (execStart node.service.binary (more ++ ["--log -"])).Plain where
  key := show Letters "ExecStart".toList by decide
  first := (plain.piece hargs List.mem_cons_self).1
  more := fun piece hpiece => by
    have hplain := plain.piece hargs (List.mem_cons_of_mem _ hpiece)
    exact ⟨hplain.1, hplain.2.1⟩
  trimmed := by
    rcases plain.binary with ⟨b, hb, hblank, -⟩
    refine strip_of_ends (fun c hc => ?_) fun c hc => ?_
    · rw [Setting.value_eq, List.head?_append] at hc
      have hhead : (node.service.binary.toList.head?).or _ = some c := hc
      rw [hb] at hhead
      cases hhead
      exact hblank
    · rw [execStart_getLast?] at hc
      cases hc
      rfl

theorem PlainUnit.parts (plain : PlainUnit node cluster)
    (hargs : unitArgs node cluster = node.service.binary :: (more ++ ["--log -"])) :
    ∀ part ∈ unitParts node (more ++ ["--log -"]), part.Plain := by
  have hdescription : (setting "Description" ("Solana validator (" ++ node.name ++ ")")).Plain := by
    refine plain_setting (by decide) ?_ (strip_of_ends (fun c hc => ?_) fun c hc => ?_)
    · simp only [String.toList_append]
      exact ((show Inline _ by decide).append plain.name).append (by decide)
    · rw [String.toList_append, String.toList_append] at hc
      have hfirst : 'S' = c := Option.some.inj hc
      rw [← hfirst]
      rfl
    · rw [String.toList_append, List.getLast?_append] at hc
      cases hc
      rfl
  have hunit : (unitPart node).Plain :=
    ⟨show Letters "Unit".toList by decide, List.forall_mem_cons.mpr ⟨hdescription,
      List.forall_mem_cons.mpr ⟨plain_word (by decide) (by decide),
        List.forall_mem_singleton.mpr (plain_word (by decide) (by decide))⟩⟩⟩
  have hservice : (servicePart node (more ++ ["--log -"])).Plain :=
    ⟨show Letters "Service".toList by decide,
      List.forall_mem_cons.mpr ⟨plain_word (by decide) (by decide),
      List.forall_mem_cons.mpr ⟨plain_word (by decide) plain.user,
      List.forall_mem_cons.mpr ⟨plain_word (by decide) plain.user,
      List.forall_mem_cons.mpr ⟨plain_word (by decide) (plainWord_int _),
      List.forall_mem_cons.mpr ⟨plain_word (by decide) (by decide),
      List.forall_mem_cons.mpr ⟨plain_word (by decide) (by decide),
        List.forall_mem_singleton.mpr (plain.execStart hargs)⟩⟩⟩⟩⟩⟩⟩
  have hinstall : installPart.Plain :=
    ⟨show Letters "Install".toList by decide,
      List.forall_mem_singleton.mpr (plain_word (by decide) (by decide))⟩
  exact List.forall_mem_cons.mpr ⟨hunit, List.forall_mem_cons.mpr ⟨hservice,
    List.forall_mem_singleton.mpr hinstall⟩⟩

theorem entries_unitParts (node : Node) (more : List String) :
    (unitParts node more).flatMap Part.entries =
      unitEntries node (execStart node.service.binary more).value := rfl

theorem words_execStart (binary : String) (more : List String) :
    ((execStart binary more).first :: (execStart binary more).more).flatMap words =
      (binary :: more).flatMap fun arg => words arg.toList := by
  rw [List.flatMap_cons, List.flatMap_cons]
  exact congrArg _ (List.flatMap_map ..)

/-- A rendered unit is read as the template has it, and its command line is the configured one. -/
theorem PlainUnit.reads_back (plain : PlainUnit node cluster) :
    ∃ line, read (unitContents (renderUnit node cluster)).toList = some (unitEntries node line) ∧
      argv? line = some ((unitArgs node cluster).flatMap fun arg => words arg.toList) := by
  rcases unitArgs_ends node cluster with ⟨more, hargs⟩
  refine ⟨(Solfleet.execStart node.service.binary (more ++ ["--log -"])).value, ?_, ?_⟩
  · have hne : unitParts node (more ++ ["--log -"]) ≠ [] := List.cons_ne_nil _ _
    rw [← write_unitParts hargs, read_write hne (plain.parts hargs), entries_unitParts]
  · rcases plain.binary with ⟨b, hb, -, hflag⟩
    rw [argv?_value (fun piece hpiece => (plain.piece hargs hpiece).2.2) ⟨b, hb, hflag⟩, hargs,
      words_execStart]

end Plain

/-! ## Provisioning -/

section Provisioned

variable {σ : Type} {world : Handler opsSignature Exn σ} {s : σ} {going : Going}
  {other : UnitHost → Int × UnitHost} {host : UnitHost} {fleet : Fleet}
  {nodeName clusterName : String} {cluster : Cluster} {node : Node}

end Provisioned

def plainArg (arg : String) : Bool :=
  !arg.toList.contains '\n' && !isComment arg.toList && !arg.toList.any isMagic

theorem of_plainArg {arg : String} (h : plainArg arg = true) :
    '\n' ∉ arg.toList ∧ isComment arg.toList = false ∧ ∀ c ∈ arg.toList, isMagic c = false := by
  simp only [plainArg, Bool.and_eq_true, Bool.not_eq_true', List.contains_eq_mem,
    decide_eq_false_iff_not, List.any_eq_false] at h
  exact ⟨h.1.1, h.1.2, fun c hc => by simpa using h.2 c hc⟩

theorem plainUnit_built : PlainUnit builtNode builtCluster where
  name := by decide
  user := by decide
  args := by
    have hall : (unitArgs builtNode builtCluster).all plainArg = true := by decide +kernel
    exact fun arg harg => of_plainArg (List.all_eq_true.mp hall arg harg)
  binary := ⟨'/', rfl, by decide⟩

theorem exists_succeeded {going : Going} (h : reportsSuccess going = true) :
    ∃ result, (provisionOlder going).result = .ok result ∧ result.succeeded = true := by
  unfold reportsSuccess at h
  split at h
  case h_1 result hresult => exact ⟨result, hresult, h⟩
  case h_2 => cases h

end Solfleet
