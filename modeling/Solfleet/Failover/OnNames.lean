import Solfleet.Dns.LawfulOn
import Solfleet.Failover.Isolation
import Solfleet.Failover.Overriding
import Solfleet.Library.Triple

/-! # The failover on a driver that is lawful on some names

The operations of a fleet whose records are among these names never look at the others. So
what they do on the extended driver they do on the driver itself, and what is proved about
every lawful driver holds of Route53 for a fleet of bare names.
-/

namespace Solfleet

open Interaction Program

/-- A driver call is about one of these names. -/
def OnNames (names : String → Prop) : DnsEffect → Prop
  | .driver c => names c.record
  | _ => True

/-! ## The calls of the operations -/

section Calls

variable {names : String → Prop} {a : AcceptedFleet}

theorem onNames_watchOnce (hnames : ∀ pool ∈ a.fleet.pools, names pool.record)
    (audit dryRun : Bool) : AllCalls (S := dnsSignature) (OnNames names)
      (watchOnce a.fleet audit dryRun) :=
  allCalls_watchOnce a trivial (fun _ => trivial) hnames (fun _ => hnames)
    fun _ pool hp _ _ => ⟨hnames pool hp, hnames pool hp⟩

theorem onNames_dnsOverride (hnames : ∀ pool ∈ a.fleet.pools, names pool.record)
    (nodeName : String) (action : OverrideAction) (record : Option String)
    (confirm audit : Bool) : AllCalls (S := dnsSignature) (OnNames names)
      (dnsOverride a.fleet nodeName action record confirm audit) := by
  refine allCalls_dnsOverride fun found _ pool hp => ?_
  have hpool : names pool.record := hnames pool (mem_poolsForNode.mp hp).1.1
  refine allCalls_overridePool (fun _ => trivial) hpool hpool ?_
  cases action with
  | eject => exact hpool
  | restore => exact hpool

theorem onNames_program (hnames : ∀ pool ∈ a.fleet.pools, names pool.record)
    (request : DnsRequest) :
    AllCalls (S := dnsSignature) (OnNames names) (request.program a.fleet) := by
  cases request with
  | watch audit dryRun => exact (onNames_watchOnce hnames audit dryRun).map _
  | eject nodeName record confirm audit =>
      exact (onNames_dnsOverride hnames nodeName .eject record confirm audit).map _
  | restore nodeName record confirm audit =>
      exact (onNames_dnsOverride hnames nodeName .restore record confirm audit).map _

theorem onNames_watchLoop (hnames : ∀ pool ∈ a.fleet.pools, names pool.record) (interval : Int)
    (audit dryRun notify : Bool) (n : Nat) : AllCalls (S := dnsSignature) (OnNames names)
      (watchLoop a.fleet interval audit dryRun notify n) := by
  induction n with
  | zero => trivial
  | succ n ih =>
      have hrest : AllCalls (S := dnsSignature) (OnNames names) (if n = 0 then pure () else do
          perform (S := dnsSignature) (.sleep interval)
          watchLoop a.fleet interval audit dryRun notify n) := by
        split
        · trivial
        · exact AllCalls.bind (allCalls_perform.mpr trivial) fun _ => ih
      refine (onNames_watchOnce hnames audit dryRun).bind fun report => ?_
      cases notify with
      | false => exact hrest
      | true => exact AllCalls.bind (allCalls_perform.mpr trivial) fun _ => hrest

end Calls

/-! ## Both drivers -/

section Both

variable {D : DnsDriver} {names : String → Prop} [DecidablePred names]

/-- The state of the driver itself. -/
def DnsDriver.inner (D : DnsDriver) (names : String → Prop) [DecidablePred names]
    (t : (D.beside names).State) : D.State := t.1

theorem beside_perform {c : DriverCall} (hc : names c.record) (t : (D.beside names).State) :
    (D.beside names).perform t c =
      ((D.perform (D.inner names t) c).1, ((D.perform (D.inner names t) c).2, t.2)) := by
  cases c with
  | listMembers | hasMarker => exact Prod.ext (if_pos hc) rfl
  | addMember | removeMember | ensureMarker => exact Prod.ext rfl (if_pos hc)

theorem members_inner {r : String} (hr : names r) (t : (D.beside names).State) :
    (D.beside names).members t r = D.members (D.inner names t) r :=
  DnsDriver.beside_members.trans (if_pos hr)

theorem members_beside {r : String} (hr : ¬ names r) (t : (D.beside names).State) :
    (D.beside names).members t r = t.2.members r :=
  DnsDriver.beside_members.trans (if_neg hr)

theorem members_aside (s : D.State) : (D.beside names).members (D.aside names s) = D.members s :=
  congrArg Assignment.members (DnsDriver.shown_aside s)

theorem hasMarker_inner {r : String} (hr : names r) (t : (D.beside names).State) :
    (D.beside names).hasMarker t r = D.hasMarker (D.inner names t) r := if_pos hr

theorem hasMarker_aside (s : D.State) :
    (D.beside names).hasMarker (D.aside names s) = D.hasMarker s :=
  congrArg Assignment.marked (DnsDriver.shown_aside s)

theorem focuses_handler (clusters : List ClusterStatus) :
    Focuses (OnNames names) (D.inner names) ((D.beside names).handler clusters)
      (D.handler clusters) := by
  intro op t hop
  cases op with
  | driver c =>
      have hperform := beside_perform hop t
      exact ⟨congrArg (fun r => Except.ok (Prod.fst r)) hperform,
        congrArg (fun r => D.inner names r.2) hperform⟩
  | probe | audit | sleep | onRound => exact ⟨rfl, rfl⟩

/-- What a call leaves beside the driver. -/
theorem answers_beside {faults : Prop} {probes : Set (List ClusterStatus)}
    {t t' : (D.beside names).State} {op : DnsEffect} {answer : Except Exn op.Answer}
    (hop : OnNames names op) (h : (D.beside names).Answers faults probes t op answer t') :
    t'.2 = t.2 := by
  obtain rfl | ⟨c, rfl, rfl⟩ := h.state_cases
  · rfl
  · exact congrArg (fun r => r.2.2) (beside_perform hop t)

theorem answers_inner {faults : Prop} {probes : Set (List ClusterStatus)}
    {t t' : (D.beside names).State} {op : DnsEffect} {answer : Except Exn op.Answer}
    (hop : OnNames names op) (h : (D.beside names).Answers faults probes t op answer t') :
    D.Answers faults probes (D.inner names t) op answer (D.inner names t') := by
  cases h with
  | driver _ c =>
      rw [beside_perform hop]
      exact .driver (D.inner names t) c
  | probe _ found => exact .probe _ found
  | audit _ event => exact .audit _ event
  | sleep _ seconds => exact .sleep _ seconds
  | onRound _ report => exact .onRound _ report
  | refused _ _ e hfaults => exact .refused _ op e hfaults
  | lost _ c e hfaults =>
      rw [beside_perform hop]
      exact .lost (D.inner names t) c e hfaults

theorem answers_outer {faults : Prop} {probes : Set (List ClusterStatus)}
    {t : (D.beside names).State} {op : DnsEffect} {answer : Except Exn op.Answer} {s' : D.State}
    (hop : OnNames names op) (h : D.Answers faults probes (D.inner names t) op answer s') :
    (D.beside names).Answers faults probes t op answer (s', t.2) := by
  cases h with
  | driver _ c =>
      have hstep : (D.beside names).Answers faults probes t (.driver c)
          (.ok ((D.beside names).perform t c).1) ((D.beside names).perform t c).2 := .driver t c
      rwa [beside_perform hop] at hstep
  | probe _ found => exact .probe t found
  | audit _ event => exact .audit t event
  | sleep _ seconds => exact .sleep t seconds
  | onRound _ report => exact .onRound t report
  | refused _ _ e hfaults => exact .refused t op e hfaults
  | lost _ c e hfaults =>
      have hstep : (D.beside names).Answers faults probes t (.driver c) (.error e)
          ((D.beside names).perform t c).2 := .lost t c e hfaults
      rwa [beside_perform hop] at hstep

theorem mirrors_answers (faults : Prop) (probes : Set (List ClusterStatus)) :
    Mirrors (OnNames names) (D.inner names) ((D.beside names).Answers faults probes)
      (D.Answers faults probes) :=
  ⟨answers_inner, fun hop h => ⟨_, answers_outer hop h, rfl⟩⟩

/-! ## Serving -/

variable {a : AcceptedFleet}

/-- When a pass never empties a record, on a driver that is lawful on the fleet's names. -/
theorem keepsServing_iff_of_lawfulOn (h : D.LawfulOn names)
    (hnames : ∀ pool ∈ a.fleet.pools, names pool.record) (clusters : List ClusterStatus)
    (audit dryRun : Bool) {r : String} (hr : names r) {s : D.State}
    (hne : (D.members s r).Nonempty) :
    KeepsServing D a clusters audit dryRun r s ↔
      dryRun = true ∨
        RemovalsKeep Finset.Nonempty a.fleet clusters r a.fleet.pools (D.members s r) := by
  have hcalls := onNames_watchOnce hnames audit dryRun
  have hmirrors : Mirrors (OnNames names) (D.inner names)
      ((D.beside names).Answers True {clusters}) (D.Answers True {clusters}) :=
    mirrors_answers True {clusters}
  have hserves : KeepsServing D a clusters audit dryRun r s ↔
      KeepsServing (D.beside names) a clusters audit dryRun r (D.aside names s) := by
    constructor
    · intro hserves c hc
      rw [members_inner hr]
      exact hserves _ (hmirrors.reaches hcalls hc).1
    · intro hserves c hc
      obtain ⟨t, ht, hview, -⟩ := hmirrors.reaches_lift (t := D.aside names s) hcalls hc
      have houter := hserves _ ht
      rwa [members_inner hr, hview] at houter
  have hmembers : (D.beside names).members (D.aside names s) = D.members s := members_aside s
  rw [← hmembers] at hne ⊢
  exact hserves.trans (keepsServing_iff (D := h.extend) hne)

/-! ## Ownership -/

section Ownership

variable {α : Type} {p : DnsProgram α} {faults : Prop} {clusters : List ClusterStatus} {s : D.State}

theorem unowned_aside (r : String) :
    (D.beside names).Unowned (D.aside names s) r ↔ D.Unowned s r := by
  unfold DnsDriver.Unowned
  rw [members_aside, hasMarker_aside]

/-- Beside the driver nothing changes. -/
theorem respects_aside (hp : p.AllCalls (OnNames names))
    (hrespects : RespectsOwnership D faults clusters p s) :
    RespectsOwnership (D.beside names) faults clusters p (D.aside names s) := by
  have hmirrors : Mirrors (OnNames names) (D.inner names)
      ((D.beside names).Answers faults {clusters}) (D.Answers faults {clusters}) :=
    mirrors_answers faults {clusters}
  have hoff : ∀ (t t' : (D.beside names).State) r, ¬ names r → t'.2 = t.2 →
      (D.beside names).members t' r = (D.beside names).members t r := by
    intro t t' r hr heq
    rw [members_beside hr, members_beside hr, heq]
  refine ⟨fun c hc r hr => ?_, fun c d hc hstep r hchange => ?_⟩
  · by_cases hname : names r
    · rw [members_inner hname, members_aside]
      exact hrespects.untouched _ (hmirrors.reaches hp hc).1 r ((unowned_aside r).mp hr)
    · refine hoff _ _ r hname ?_
      exact hp.reaches (R := fun t t' : (D.beside names).State => t'.2 = t.2) (fun _ => rfl)
        (fun _ _ _ hab hbc => hbc.trans hab) (fun _ _ _ _ hop hstep => answers_beside hop hstep) hc
  · obtain ⟨hpath, hcalls⟩ := hmirrors.reaches hp hc
    by_cases hname : names r
    · rw [hasMarker_inner hname]
      refine hrespects.marked _ _ hpath (hmirrors.advance hcalls hstep).1 r fun heq => hchange ?_
      rw [members_inner hname, members_inner hname]
      exact heq
    · cases hstep with
      | call hsem => exact absurd (hoff _ _ r hname (answers_beside hcalls.1 hsem)) hchange

theorem respects_of_aside (h : D.LawfulOn names) (hp : p.AllCalls (OnNames names))
    (hrespects : RespectsOwnership (D.beside names) faults clusters p (D.aside names s)) :
    RespectsOwnership D faults clusters p s := by
  have hmirrors : Mirrors (OnNames names) (D.inner names)
      ((D.beside names).Answers faults {clusters}) (D.Answers faults {clusters}) :=
    mirrors_answers faults {clusters}
  refine ⟨fun c hc r hr => ?_, fun c d hc hstep r hchange => ?_⟩
  · obtain ⟨t, ht, hview, -⟩ := hmirrors.reaches_lift (t := D.aside names s) hp hc
    obtain ⟨r', hname, hsame⟩ := h.named r
    have hunowned : D.Unowned s r' := by
      rwa [DnsDriver.Unowned, (hsame s).1, (hsame s).2] at hr
    have huntouched := hrespects.untouched _ ht r' ((unowned_aside r').mpr hunowned)
    rw [members_inner hname, hview, members_aside] at huntouched
    rw [(hsame _).1, (hsame s).1, huntouched]
  · obtain ⟨t, ht, hview, hcalls⟩ := hmirrors.reaches_lift (t := D.aside names s) hp hc
    obtain ⟨r', hname, hsame⟩ := h.named r
    have hfrom : Advance (D.Answers faults {clusters}) (c.1, D.inner names t) d := by rwa [hview]
    obtain ⟨u, hadv, hview', -⟩ := hmirrors.advance_lift hcalls hfrom
    have hmarked := hrespects.marked _ _ ht hadv r'
    rw [members_inner hname, members_inner hname, hasMarker_inner hname, hview, hview'] at hmarked
    rw [(hsame _).2]
    refine hmarked fun heq => hchange ?_
    rw [(hsame _).1, (hsame c.2).1, heq]

/-- When an operation respects ownership, on a driver that is lawful on the fleet's names. -/
theorem respectsOwnership_iff_of_lawfulOn (h : D.LawfulOn names)
    (hnames : ∀ pool ∈ a.fleet.pools, names pool.record) (faults : Prop)
    (clusters : List ClusterStatus) (request : DnsRequest) (s : D.State) :
    RespectsOwnership D faults clusters (request.program a.fleet) s ↔
      (request.Executes → ∀ r, D.Unowned s r →
        request.Settled a.fleet clusters r (D.members s r)) := by
  have hcalls := onNames_program hnames request
  have hextended := respects_program_iff h.extend faults clusters (D.aside names s) a request
  have htransfer : RespectsOwnership D faults clusters (request.program a.fleet) s ↔
      RespectsOwnership (D.beside names) faults clusters (request.program a.fleet) (D.aside names s) :=
    ⟨respects_aside hcalls, respects_of_aside h hcalls⟩
  refine htransfer.trans (hextended.trans (imp_congr_right fun _ => forall_congr' fun r => ?_))
  have hmembers : h.extend.members (D.aside names s) r = D.members s r :=
    congrFun (members_aside s) r
  rw [hmembers]
  exact imp_congr_left (unowned_aside r)

end Ownership

/-! ## Overrides -/

theorem after_inner {α : Type} {p : DnsProgram α} (hp : p.AllCalls (OnNames names))
    (clusters : List ClusterStatus) (t : (D.beside names).State) :
    D.inner names ((D.beside names).after clusters p t) =
      D.after clusters p (D.inner names t) :=
  ((focuses_handler clusters).exec hp t).2

/-- The law of the overrides, on a driver that is lawful on the fleet's names. -/
theorem overrideLaw_of_lawfulOn (h : D.LawfulOn names)
    (hnames : ∀ pool ∈ a.fleet.pools, names pool.record) (unique : a.fleet.UniqueNames)
    (clusters : List ClusterStatus) {node : Node} (hnode : node ∈ a.fleet.nodes)
    (record : Option String) (audit : Bool) (s : D.State) :
    OverrideLaw D names a.fleet clusters node record audit s := by
  obtain ⟨clusterName, cluster, hfound⟩ := unique.exists_findNode hnode
  have law : OverrideLaw (D.beside names) (fun _ => True) a.fleet clusters node record audit
      (D.aside names s) := overrideLaw h.extend clusters hfound record audit (D.aside names s)
  have hcalls := fun action confirm =>
    onNames_dnsOverride hnames node.name action record confirm audit
  have hinner : ∀ action confirm (t : (D.beside names).State),
      D.inner names ((D.beside names).overridden a.fleet clusters node record audit action confirm t)
        = D.overridden a.fleet clusters node record audit action confirm (D.inner names t) :=
    fun action confirm t => after_inner (hcalls action confirm) clusters t
  have haside : D.inner names (D.aside names s) = s := rfl
  refine ⟨fun action confirm => ?_, fun r hr => ?_, fun r hr => ?_, fun action => ?_,
    fun action confirm r hr hout => ?_, fun action confirm r hr => ?_, fun calls r hr hne => ?_,
    fun r hr hin hhas hnot => ?_⟩
  · obtain ⟨result, hresult, hreports⟩ := law.returns action confirm
    rw [members_aside] at hreports
    refine ⟨result, ?_, hreports⟩
    rw [← haside, ← ((focuses_handler clusters).exec (hcalls action confirm) (D.aside names s)).1]
    exact hresult
  · have hlaw := law.ejects r trivial
    rwa [members_inner hr, hinner, haside, members_aside] at hlaw
  · have hlaw := law.restores r trivial
    rwa [members_inner hr, hinner, haside, members_aside] at hlaw
  · have hlaw := congrArg (D.inner names) (law.unconfirmed action)
    rwa [hinner] at hlaw
  · have hlaw := law.elsewhere action confirm r trivial hout
    rwa [hasMarker_inner hr, hinner, haside, hasMarker_aside] at hlaw
  · have hlaw := law.again action confirm r trivial
    rwa [members_inner hr, members_inner hr, hinner, hinner, haside] at hlaw
  · have hruns : (overrides a.fleet calls).AllCalls (OnNames names) :=
      AllCalls.each fun c _ => onNames_dnsOverride hnames c.nodeName c.action c.record c.confirm
        c.audit
    have hlaw := law.serves calls r trivial
    rw [members_aside, members_inner hr, after_inner hruns, haside] at hlaw
    exact hlaw hne
  · have hlaw := law.back r trivial hin
    rw [members_aside, members_inner hr, hinner, hinner, haside] at hlaw
    exact hlaw hhas hnot

/-! ## Isolation -/

/-- What the rounds show of the driver itself. -/
def Watched.inner (w : Watched (D.beside names)) : Watched D where
  dns := D.inner names w.dns
  starts := w.starts.map (D.inner names)
  raised := w.raised

theorem focuses_loopHandler (probes : Nat → List ClusterStatus) (faults : Faults) :
    Focuses (OnNames names) Watched.inner ((D.beside names).loopHandler probes faults)
      (D.loopHandler probes faults) := by
  intro op w hop
  have hlength : w.inner.starts.length = w.starts.length := List.length_map _
  cases op with
  | driver c =>
      have hperform := beside_perform hop w.dns
      simp only [DnsDriver.loopHandler, hlength]
      cases faults (w.starts.length - 1) c with
      | none => exact ⟨by rw [hperform]; rfl, by rw [hperform]; rfl⟩
      | some fault =>
          refine ⟨rfl, ?_⟩
          simp only [Watched.inner]
          cases fault.performed with
          | true => rw [hperform]; rfl
          | false => rfl
  | probe =>
      simp only [DnsDriver.loopHandler, hlength]
      exact ⟨trivial, by simp [Watched.inner]⟩
  | audit | sleep | onRound => exact ⟨rfl, rfl⟩

theorem endOf_inner {r : String} (hr : names r) (w : Watched (D.beside names)) (k : Nat) :
    w.inner.endOf k r = w.endOf k r := by
  have hstates : w.inner.states = w.states.map (D.inner names) := by
    simp [Watched.states, Watched.inner]
  rw [Watched.endOf, Watched.endOf, hstates, List.getElem?_map, Option.map_map]
  congr 1
  funext t
  exact (members_inner hr t).symm

/-- When the pools of a loop are isolated, on a driver that is lawful on the fleet's names. -/
theorem poolsIsolated_iff_of_lawfulOn (h : D.LawfulOn names)
    (hnames : ∀ pool ∈ a.fleet.pools, names pool.record) (distinct : a.fleet.DistinctRecords)
    (probes : Nat → List ClusterStatus) (faults : Faults) (interval : Int)
    (audit dryRun notify : Bool) (n : Nat) (s : D.State) :
    PoolsIsolated a.fleet n
        (D.watched probes (watchLoop a.fleet interval audit dryRun notify n) s) faults ↔
      FaultsContained a.fleet probes dryRun (D.members s) n faults := by
  have hcalls := onNames_watchLoop hnames interval audit dryRun notify n
  have hinner : ∀ faults, ((D.beside names).watched probes
      (watchLoop a.fleet interval audit dryRun notify n) (D.aside names s) faults).inner =
        D.watched probes (watchLoop a.fleet interval audit dryRun notify n) s faults :=
    fun faults => ((focuses_loopHandler probes faults).exec hcalls _).2
  have hextended : PoolsIsolated a.fleet n ((D.beside names).watched probes
      (watchLoop a.fleet interval audit dryRun notify n) (D.aside names s)) faults ↔
        FaultsContained a.fleet probes dryRun ((D.beside names).members (D.aside names s)) n faults :=
    ⟨contained_of_isolated (D := h.extend) a distinct interval audit notify n (D.aside names s),
      isolated_of_contained (D := h.extend) a distinct interval audit notify n (D.aside names s)⟩
  rw [members_aside] at hextended
  refine Iff.trans ?_ hextended
  unfold PoolsIsolated
  refine and_congr ?_ (forall₂_congr fun k _ => forall₂_congr fun pool hp => ?_)
  · rw [← hinner, Watched.inner, List.length_map]
  · have hrecord : names pool.record := hnames pool hp
    rw [← hinner, ← hinner, endOf_inner hrecord, endOf_inner hrecord]
    exact Iff.rfl

end Both

/-! ## Route53 -/

section Route53

variable [LinearOrder RecordKey] {a : AcceptedFleet}
  (bare : ∀ pool ∈ a.fleet.pools, BareName pool.record) (z : route53Driver.State)

include bare

theorem route53_keepsServing_iff (clusters : List ClusterStatus) (audit dryRun : Bool)
    {r : String} (hr : BareName r) (hne : (route53Driver.members z r).Nonempty) :
    KeepsServing route53Driver a clusters audit dryRun r z ↔
      dryRun = true ∨ RemovalsKeep Finset.Nonempty a.fleet clusters r a.fleet.pools
        (route53Driver.members z r) :=
  keepsServing_iff_of_lawfulOn route53_lawfulOn bare clusters audit dryRun hr hne

theorem route53_respectsOwnership_iff (faults : Prop) (clusters : List ClusterStatus)
    (request : DnsRequest) :
    RespectsOwnership route53Driver faults clusters (request.program a.fleet) z ↔
      (request.Executes → ∀ r, route53Driver.Unowned z r →
        request.Settled a.fleet clusters r (route53Driver.members z r)) :=
  respectsOwnership_iff_of_lawfulOn route53_lawfulOn bare faults clusters request z

theorem route53_overrideLaw (unique : a.fleet.UniqueNames) (clusters : List ClusterStatus)
    {node : Node} (hnode : node ∈ a.fleet.nodes) (record : Option String) (audit : Bool) :
    OverrideLaw route53Driver BareName a.fleet clusters node record audit z :=
  overrideLaw_of_lawfulOn route53_lawfulOn bare unique clusters hnode record audit z

theorem route53_poolsIsolated_iff (distinct : a.fleet.DistinctRecords)
    (probes : Nat → List ClusterStatus) (faults : Faults) (interval : Int)
    (audit dryRun notify : Bool) (n : Nat) :
    PoolsIsolated a.fleet n
        (route53Driver.watched probes (watchLoop a.fleet interval audit dryRun notify n) z) faults ↔
      FaultsContained a.fleet probes dryRun (route53Driver.members z) n faults :=
  poolsIsolated_iff_of_lawfulOn route53_lawfulOn bare distinct probes faults interval audit dryRun
    notify n z

end Route53

end Solfleet
