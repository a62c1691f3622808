import Solfleet.Library.Release
import Solfleet.Orchestration.Announced

/-! # The version check of an upgrade

An upgrade accepts a reported version that starts with the text of its target. Held against
the release the two denote: the numbers a version starts with, leading `v`s aside.
-/

namespace Solfleet

open Interaction Program

/-! ## Releases -/

/-- The dotted numbers of a version before any suffix. -/
def release (version : String) : List Nat :=
  Release.numbers none (Text.lstrip 'v' version).toList

/-- Where the reported version goes on after the text of the target, it leaves the numbers of
the target as they are. -/
def KeepsRelease (target reported : String) : Prop :=
  ∀ rest, (Text.lstrip 'v' reported).toList = (Text.lstrip 'v' target).toList ++ rest →
    ∀ reader, Release.resume none (Text.lstrip 'v' target).toList = some reader →
      Release.Keeps reader rest

theorem versionMatches_iff {reported target : String} (hne : reported ≠ "") :
    versionMatches (some reported) target = true ↔
      ∃ rest, (Text.lstrip 'v' reported).toList = (Text.lstrip 'v' target).toList ++ rest := by
  have hiff : versionMatches (some reported) target = true ↔
      (Text.lstrip 'v' target).toList <+: (Text.lstrip 'v' reported).toList := by
    simp [versionMatches, hne]
  rw [hiff]
  exact exists_congr fun rest => eq_comm

theorem release_of_matches_iff {reported target : String} (hne : reported ≠ "") :
    (versionMatches (some reported) target = true → release reported = release target) ↔
      KeepsRelease target reported := by
  rw [versionMatches_iff hne]
  constructor
  · intro h rest hrest
    have hsame := h ⟨rest, hrest⟩
    rw [release, release, hrest] at hsame
    exact (Release.numbers_append_eq_iff none _ rest).mp hsame
  · rintro h ⟨rest, hrest⟩
    rw [release, release, hrest]
    exact (Release.numbers_append_eq_iff none _ rest).mpr (h rest hrest)

/-- Equal up to leading `v`s, so matching. -/
theorem versionMatches_of_eq {reported target : String} (hne : reported ≠ "")
    (h : Text.lstrip 'v' reported = Text.lstrip 'v' target) :
    versionMatches (some reported) target = true := by
  rw [versionMatches_iff hne, h]
  exact ⟨[], (List.append_nil _).symm⟩

theorem ne_empty_of_readBinaryVersion {r : CommandResult} {reported : String}
    (h : readBinaryVersion r = some reported) : reported ≠ "" := by
  unfold readBinaryVersion at h
  split at h
  · exact Text.ne_empty_of_mem_split (List.mem_of_getElem? h)
  · exact nomatch h

/-! ## The check in a run -/

/-- What an upgrade accepts, given the last output of `--version`: only the release it was
asked for, and the same text in any case. -/
structure AcceptsRelease (target : String) (r : CommandResult) (outcome : UpgradeOutcome) :
    Prop where
  only : outcome.versionOk = true →
    ∃ reported, readBinaryVersion r = some reported ∧ release reported = release target
  same : ∀ reported, readBinaryVersion r = some reported →
    Text.lstrip 'v' reported = Text.lstrip 'v' target → outcome.versionOk = true
  succeeded : outcome.succeeded = true → outcome.versionOk = true

/-- The accepted release is the requested one unless the reported version runs on inside the
target's numbers. -/
theorem acceptsRelease_iff (a : AcceptedFleet) {nodeName target : String} {confirm : Bool}
    {policy : Policy} {audit : Bool} {maxLag : Int} {forceBuild : Bool} {trace : List OpsEvent}
    {outcome : UpgradeOutcome}
    (h : Runs (executeUpgrade a.fleet nodeName target confirm policy audit maxLag forceBuild)
      trace (.ok (.executed outcome))) :
    ∃ clusterName cluster node, a.fleet.findNode nodeName = some (clusterName, cluster, node) ∧
      ∃ r : CommandResult, LastAnswer trace (showVersion node) r ∧
        (AcceptsRelease target r outcome ↔
          ∀ reported, readBinaryVersion r = some reported → KeepsRelease target reported) := by
  obtain ⟨clusterName, cluster, node, hfound, hflag, r, hr, hversion⟩ := upgrade_succeeded_iff h
  refine ⟨clusterName, cluster, node, hfound, r, hr, ?_⟩
  constructor
  · intro haccepts reported hreported
    rw [← release_of_matches_iff (ne_empty_of_readBinaryVersion hreported)]
    intro hmatch
    have hok : outcome.versionOk = true := by
      rw [hversion, hreported]
      exact hmatch
    obtain ⟨reported', hreported', hsame⟩ := haccepts.only hok
    have heq : reported' = reported := Option.some.inj (hreported'.symm.trans hreported)
    rwa [heq] at hsame
  · intro hkeeps
    constructor
    · intro hok
      rw [hversion] at hok
      cases hreported : readBinaryVersion r with
      | none =>
          rw [hreported] at hok
          exact nomatch hok
      | some reported =>
          rw [hreported] at hok
          have hne := ne_empty_of_readBinaryVersion hreported
          exact ⟨reported, rfl, (release_of_matches_iff hne).mpr (hkeeps reported hreported) hok⟩
    · intro reported hreported hsame
      rw [hversion, hreported]
      exact versionMatches_of_eq (ne_empty_of_readBinaryVersion hreported) hsame
    · intro hsucceeded
      exact (hflag.mp hsucceeded).2.2.2

def laterHost : Handler opsSignature Exn Unit
  | .runner (.ssh _ (.systemctlShow _)), s => (.ok ⟨0, "ActiveState=active", ""⟩, s)
  | .runner (.ssh _ (.binaryVersion _)), s => (.ok ⟨0, "agave-validator 3.0.10", ""⟩, s)
  | .runner _, s => (.ok ⟨0, "abc", ""⟩, s)
  | .mkdtemp _, s => (.ok "/tmp/solfleet-0", s)
  | .sample .., s => (.ok { healthy := some true, lag := some 0 }, s)
  | .leader .., s => (.ok none, s)
  | .sleep _, s => (.ok (), s)
  | .audit _, s => (.ok (), s)

theorem upgradeReport_later :
    upgradeReport (exec laterHost
      (executeUpgrade builtFleet.fleet "rpc-1" "v3.0.1" true {} true 2 false) ()).result =
      some true := by
  decide +kernel

theorem later_release_accepted :
    ¬ ∀ (a : AcceptedFleet) (nodeName target : String) (policy : Policy) (audit : Bool)
      (maxLag : Int) (forceBuild : Bool) (trace : List OpsEvent) (outcome : UpgradeOutcome),
      Runs (executeUpgrade a.fleet nodeName target true policy audit maxLag forceBuild) trace
        (.ok (.executed outcome)) →
      ∀ clusterName cluster node, a.fleet.findNode nodeName = some (clusterName, cluster, node) →
      ∀ r : CommandResult, LastAnswer trace (showVersion node) r →
        AcceptsRelease target r outcome := by
  intro h
  obtain ⟨outcome, hresult, hsucceeded⟩ := exists_upgraded upgradeReport_later
  have hrun := hresult ▸ exec_runs laterHost
    (executeUpgrade builtFleet.fleet "rpc-1" "v3.0.1" true {} true 2 false) ()
  obtain ⟨clusterName, cluster, node, hfound, -, r, hr, -⟩ := upgrade_succeeded_iff hrun
  have haccepts := h builtFleet _ _ _ _ _ _ _ _ hrun _ _ _ hfound r hr
  obtain ⟨reported, hreported, hsame⟩ := haccepts.only (haccepts.succeeded hsucceeded)
  -- the host gives one answer to `--version`
  have hanswer : r = ⟨0, "agave-validator 3.0.10", ""⟩ := by
    obtain ⟨s, hs⟩ := answer_of_mem_exec hr.mem
    exact Except.ok.inj hs
  rw [hanswer] at hreported
  have hlater : reported = "3.0.10" := Option.some.inj (hreported.symm.trans (by decide +kernel))
  rw [hlater] at hsame
  exact absurd hsame (by decide +kernel)

theorem acceptsRelease_iff_later :
    ∃ (trace : List OpsEvent) (outcome : UpgradeOutcome) (clusterName : String)
      (cluster : Cluster) (node : Node),
      builtFleet.fleet.findNode "rpc-1" = some (clusterName, cluster, node) ∧
      ∃ r : CommandResult, LastAnswer trace (showVersion node) r ∧
        (AcceptsRelease "v3.0.1" r outcome ↔
          ∀ reported, readBinaryVersion r = some reported → KeepsRelease "v3.0.1" reported) := by
  obtain ⟨outcome, hresult, -⟩ := exists_upgraded upgradeReport_later
  have hrun := hresult ▸ exec_runs laterHost
    (executeUpgrade builtFleet.fleet "rpc-1" "v3.0.1" true {} true 2 false) ()
  exact ⟨_, outcome, acceptsRelease_iff builtFleet hrun⟩

end Solfleet
