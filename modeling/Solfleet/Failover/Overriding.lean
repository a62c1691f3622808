import Solfleet.Failover.Ownership

/-! # The law of the manual overrides

An override takes the pools of a node in turn, and two of them may name one record. Its
aim for a record is idempotent, so however often the record comes up the whole is one
application of the aim to the set that was there first.
-/

namespace Solfleet

open Interaction Program

/-! ## Aims -/

section Aim

variable {action : OverrideAction} {nodeName ip : String} {confirm : Bool} {pool : Pool}
  {pools : List Pool} {current : Finset String} {v : DnsView} {r : String}

theorem overrideAim_eject (ip : String) (current : Finset String) :
    overrideAim .eject ip true current = if current = {ip} then current else current.erase ip := by
  by_cases h : current = {ip}
  · simp [overrideAim, h]
  · simp [overrideAim, OverrideAction.apply, h]

@[simp] theorem overrideAim_restore (ip : String) (current : Finset String) :
    overrideAim .restore ip true current = insert ip current := by
  simp [overrideAim, OverrideAction.apply]

@[simp] theorem overrideAim_unconfirmed : overrideAim action ip false current = current := by
  simp [overrideAim]

theorem erase_ne_singleton (ip : String) (current : Finset String) : current.erase ip ≠ {ip} := by
  intro h
  have hmem : ip ∈ current.erase ip := h ▸ Finset.mem_singleton_self ip
  exact Finset.notMem_erase ip current hmem

theorem overrideAim_eq_last (h : action = .eject) :
    overrideAim action ip confirm current = {ip} ↔ current = {ip} := by
  subst h
  cases confirm with
  | false => rw [overrideAim_unconfirmed]
  | true =>
      rw [overrideAim_eject]
      split
      · exact Iff.rfl
      case isFalse hne => exact iff_of_false (erase_ne_singleton ip current) hne

theorem apply_apply : action.apply ip (action.apply ip current) = action.apply ip current := by
  cases action with
  | eject => exact Finset.erase_idem
  | restore => exact Finset.insert_idem ip current

theorem overrideAim_idem :
    overrideAim action ip confirm (overrideAim action ip confirm current) =
      overrideAim action ip confirm current := by
  by_cases h : confirm = true ∧ (action = .eject → current ≠ {ip})
  · have haim : overrideAim action ip confirm current = action.apply ip current := if_pos h
    have hagain : confirm = true ∧
        (action = .eject → overrideAim action ip confirm current ≠ {ip}) :=
      ⟨h.1, fun heject => (overrideAim_eq_last heject).not.mpr (h.2 heject)⟩
    rw [haim] at hagain ⊢
    rw [overrideAim, if_pos hagain, apply_apply]
  · have haim : overrideAim action ip confirm current = current := if_neg h
    rw [haim, haim]

/-- No override empties a record. -/
theorem overrideAim_ne_empty (h : current ≠ ∅) : overrideAim action ip confirm current ≠ ∅ := by
  unfold overrideAim
  split
  case isFalse => exact h
  case isTrue hopens =>
    cases action with
    | restore => exact Finset.insert_ne_empty ip current
    | eject =>
        intro hempty
        rcases (Finset.erase_eq_empty_iff current ip).mp hempty with hcurrent | hlast
        · exact h hcurrent
        · exact hopens.2 rfl hlast

/-! ## Views -/

theorem override_members_eq (v : DnsView) (pool : Pool) (r : String) :
    (v.override action ip confirm pool).members r =
      if pool.record = r then overrideAim action ip confirm (v.members r) else v.members r :=
  override_members v r

/-- The run lemma: a record is taken to its aim once, if it comes up at all. -/
theorem foldl_override_members (v : DnsView) (pools : List Pool) (r : String) :
    (pools.foldl (fun w pool => w.override action ip confirm pool) v).members r =
      if r ∈ pools.map (·.record) then overrideAim action ip confirm (v.members r)
      else v.members r := by
  induction pools generalizing v with
  | nil => rfl
  | cons pool pools ih =>
      rw [List.foldl_cons, ih, override_members_eq]
      by_cases hr : pool.record = r
      · subst hr
        simp [overrideAim_idem]
      · simp [hr, Ne.symm hr]

theorem override_marked_of_ne (hr : pool.record ≠ r) :
    (v.override action ip confirm pool).marked r = v.marked r := by
  unfold DnsView.override
  split
  · exact Function.update_of_ne (Ne.symm hr) ..
  · rfl

theorem foldl_override_marked (h : r ∉ pools.map (·.record)) :
    (pools.foldl (fun w pool => w.override action ip confirm pool) v).marked r = v.marked r := by
  induction pools generalizing v with
  | nil => rfl
  | cons pool pools ih =>
      rw [List.map_cons, List.mem_cons, not_or] at h
      rw [List.foldl_cons, ih h.2, override_marked_of_ne (Ne.symm h.1)]

/-- The guard decides on the changed set as on the first one. -/
theorem EntryOf.of_aim {entry : OverrideEntry}
    (h : EntryOf action nodeName ip confirm pool (overrideAim action ip confirm current) entry) :
    EntryOf action nodeName ip confirm pool current entry := by
  have hguard : overrideRequest action nodeName ip pool (overrideAim action ip confirm current) =
      overrideRequest action nodeName ip pool current := by
    cases action with
    | restore => rfl
    | eject =>
        have hlast : wouldEmpty (overrideAim .eject ip confirm current) ip =
            wouldEmpty current ip := by
          rw [Bool.eq_iff_iff, wouldEmpty_eq_true_iff, wouldEmpty_eq_true_iff,
            overrideAim_eq_last rfl]
        simp only [overrideRequest, hlast]
  have hlast : (action = .eject → overrideAim action ip confirm current ≠ {ip}) ↔
      (action = .eject → current ≠ {ip}) :=
    forall_congr' fun heject => (overrideAim_eq_last heject).not
  have hopens :
      (confirm = true ∧ (action = .eject → overrideAim action ip confirm current ≠ {ip})) ↔
      (confirm = true ∧ (action = .eject → current ≠ {ip})) := and_congr_right fun _ => hlast
  refine ⟨h.record, hguard ▸ h.decision, h.allowed.trans hlast, h.membersNow.trans ?_⟩
  by_cases hgo : confirm = true ∧ (action = .eject → current ≠ {ip})
  · rw [if_pos (hopens.mpr hgo), if_pos hgo, overrideAim, if_pos hgo, apply_apply]
  · rw [if_neg (hopens.not.mpr hgo), if_neg hgo]

end Aim

/-! ## Overrides of several pools -/

section Programs

variable {D : LawfulDriver} {clusters : List ClusterStatus} {s : D.State}
  {action : OverrideAction} {nodeName : String} {record : Option String} {confirm audit : Bool}

/-- Each record is, when its turn comes, as it was before the first one or at its aim. -/
theorem leaves_each_override {v w : DnsView} (ip : String) (pools : List Pool) (hv : D.view s = v)
    (hfirst : ∀ pool ∈ pools, v.members pool.record = w.members pool.record ∨
      v.members pool.record = overrideAim action ip confirm (w.members pool.record)) :
    ∃ entries, List.Forall₂ (fun pool entry =>
        EntryOf action nodeName ip confirm pool (w.members pool.record) entry) pools entries ∧
      Leaves D clusters (each pools (overridePool action nodeName ip confirm audit)) s entries
        (pools.foldl (fun u pool => u.override action ip confirm pool) v) := by
  induction pools generalizing s v with
  | nil => exact ⟨[], .nil, leaves_pure [] hv⟩
  | cons pool pools ih =>
      obtain ⟨hpool, hpools⟩ := List.forall_mem_cons.mp hfirst
      obtain ⟨entry, hentry, hleaves⟩ : ∃ entry,
          EntryOf action nodeName ip confirm pool (v.members pool.record) entry ∧
            Leaves D clusters _ s entry _ :=
        leaves_overridePool_entry action nodeName ip confirm audit pool hv
      have hof : EntryOf action nodeName ip confirm pool (w.members pool.record) entry := by
        rcases hpool with hsame | haim
        · exact hsame ▸ hentry
        · exact EntryOf.of_aim (haim ▸ hentry)
      refine hleaves.bind_where fun t ht => ?_
      have hrest : ∀ q ∈ pools, (v.override action ip confirm pool).members q.record =
            w.members q.record ∨
          (v.override action ip confirm pool).members q.record =
            overrideAim action ip confirm (w.members q.record) := by
        intro q hq
        rw [override_members_eq]
        split
        · rcases hpools q hq with hsame | haim
          · exact .inr (by rw [hsame])
          · exact .inr (by rw [haim, overrideAim_idem])
        · exact hpools q hq
      obtain ⟨entries, hentries, hdone⟩ := ih ht hrest
      exact ⟨entry :: entries, .cons hof hentries, hdone.bind fun u hu => leaves_pure _ hu⟩

/-- What an override reports: an entry for each pool of the node that matches the filter. -/
inductive OverrideReports (action : OverrideAction) (nodeName ip : String) (confirm : Bool)
    (pools : List Pool) (members : String → Finset String) : OverrideResult → Prop
  | error (message : String) (hpools : pools = []) :
      OverrideReports action nodeName ip confirm pools members (.error message)
  | pools (entries : List OverrideEntry) (hpools : pools ≠ [])
      (hentries : List.Forall₂ (fun pool entry =>
        EntryOf action nodeName ip confirm pool (members pool.record) entry) pools entries) :
      OverrideReports action nodeName ip confirm pools members (.pools action nodeName entries)

theorem leaves_dnsOverride {fleet : Fleet} {found : String × Cluster × Node}
    (hfound : fleet.findNode nodeName = some found) (s : D.State) :
    ∃ result, OverrideReports action nodeName found.2.2.host confirm
        (poolsForNode fleet nodeName record) (D.members s) result ∧
      Leaves D clusters (dnsOverride fleet nodeName action record confirm audit) s result
        ((poolsForNode fleet nodeName record).foldl
          (fun u pool => u.override action found.2.2.host confirm pool) (D.view s)) := by
  simp only [dnsOverride, hfound]
  by_cases hpools : poolsForNode fleet nodeName record = []
  · rw [if_pos hpools, hpools]
    exact ⟨_, .error _ rfl, leaves_pure _ rfl⟩
  · rw [if_neg hpools]
    obtain ⟨entries, hentries, hleaves⟩ : ∃ entries, List.Forall₂ (fun pool entry =>
        EntryOf action nodeName found.2.2.host confirm pool ((D.view s).members pool.record) entry)
          (poolsForNode fleet nodeName record) entries ∧ Leaves D clusters _ s entries _ :=
      leaves_each_override found.2.2.host _ rfl fun _ _ => .inl rfl
    exact ⟨_, .pools entries hpools hentries, hleaves.bind fun u hu => leaves_pure _ hu⟩

/-! ## Unconfirmed -/

theorem idles_overridePool (ip : String) (pool : Pool) :
    ∃ entry, Idles D clusters (overridePool action nodeName ip false audit pool) s entry := by
  have hguard : ∀ request : GateRequest, Idles D clusters
      (request.guard false (applyOverride action ip pool)) s none := by
    intro request
    rw [GateRequest.guard, if_neg (not_opens_false request)]
    exact idles_pure none
  exact ⟨_, (idles_listMembers pool.record).bind
    ((hguard _).bind ((idles_recordAudit _ _).bind (idles_pure _)))⟩

theorem idles_dnsOverride (fleet : Fleet) :
    ∃ result, Idles D clusters (dnsOverride fleet nodeName action record false audit) s result := by
  have hturns : ∀ (ip : String) (pools : List Pool), ∃ entries, Idles D clusters
      (each pools (overridePool action nodeName ip false audit)) s entries := by
    intro ip pools
    induction pools with
    | nil => exact ⟨[], idles_pure []⟩
    | cons pool pools ih =>
        obtain ⟨entry, hentry⟩ : ∃ entry, Idles D clusters _ s entry := idles_overridePool ip pool
        obtain ⟨entries, hentries⟩ := ih
        exact ⟨_, hentry.bind (hentries.bind (idles_pure _))⟩
  unfold dnsOverride
  split
  · exact ⟨_, idles_pure _⟩
  case h_2 node _ =>
    dsimp only
    split
    · exact ⟨_, idles_pure _⟩
    · obtain ⟨entries, hentries⟩ := hturns node.host (poolsForNode fleet nodeName record)
      exact ⟨_, hentries.bind (idles_pure _)⟩

end Programs

/-! ## The law -/

/-- One call of `dnsEject` or `dnsRestore`. -/
structure OverrideCall where
  nodeName : String
  action : OverrideAction
  record : Option String
  confirm : Bool
  audit : Bool

def OverrideCall.run (fleet : Fleet) (c : OverrideCall) : DnsProgram OverrideResult :=
  dnsOverride fleet c.nodeName c.action c.record c.confirm c.audit

def overrides (fleet : Fleet) (calls : List OverrideCall) : DnsProgram (List OverrideResult) :=
  each calls (OverrideCall.run fleet)

/-- The state after a program in which every call is answered. -/
def DnsDriver.after {α : Type} (D : DnsDriver) (clusters : List ClusterStatus)
    (p : DnsProgram α) (s : D.State) : D.State :=
  (exec (D.handler clusters) p s).final

section Law

variable (D : LawfulDriver) (clusters : List ClusterStatus) {fleet : Fleet}
  {found : String × Cluster × Node}

theorem after_members (c : OverrideCall) (hfound : fleet.findNode c.nodeName = some found)
    (s : D.State) (r : String) :
    D.members (D.after clusters (c.run fleet) s) r =
      if r ∈ (poolsForNode fleet c.nodeName c.record).map (·.record) then
        overrideAim c.action found.2.2.host c.confirm (D.members s r)
      else D.members s r := by
  obtain ⟨result, -, hleaves⟩ : ∃ result, _ ∧ Leaves D clusters (c.run fleet) s result _ :=
    leaves_dnsOverride hfound s
  have hview := congrFun (congrArg DnsView.members hleaves.view) r
  rw [foldl_override_members] at hview
  exact hview

theorem after_keeps_nonempty (c : OverrideCall) (s : D.State) {r : String}
    (h : D.members s r ≠ ∅) : D.members (D.after clusters (c.run fleet) s) r ≠ ∅ := by
  cases hfound : fleet.findNode c.nodeName with
  | none =>
      have hsame : D.after clusters (c.run fleet) s = s := by
        simp [DnsDriver.after, OverrideCall.run, dnsOverride, hfound]
      rwa [hsame]
  | some found =>
      rw [after_members D clusters c hfound]
      split
      · exact overrideAim_ne_empty h
      · exact h

theorem returns_run (c : OverrideCall) (s : D.State) :
    ∃ result, (exec (D.handler clusters) (c.run fleet) s).result = .ok result := by
  cases hfound : fleet.findNode c.nodeName with
  | none =>
      refine ⟨.error ("unknown node " ++ Text.pyRepr c.nodeName), ?_⟩
      simp [OverrideCall.run, dnsOverride, hfound]
  | some found =>
      obtain ⟨result, -, hleaves⟩ : ∃ result, _ ∧ Leaves D clusters (c.run fleet) s result _ :=
        leaves_dnsOverride hfound s
      exact ⟨result, hleaves.result⟩

theorem overrides_keep_nonempty (calls : List OverrideCall) (s : D.State) {r : String}
    (h : D.members s r ≠ ∅) : D.members (D.after clusters (overrides fleet calls) s) r ≠ ∅ := by
  induction calls generalizing s with
  | nil => exact h
  | cons c calls ih =>
      obtain ⟨result, hresult⟩ : ∃ result,
          (exec (D.handler clusters) (c.run fleet) s).result = .ok result :=
        returns_run D clusters c s
      have hrest := ih (D.after clusters (c.run fleet) s) (after_keeps_nonempty D clusters c s h)
      have hsplit : D.after clusters (overrides fleet (c :: calls)) s =
          D.after clusters (overrides fleet calls) (D.after clusters (c.run fleet) s) := by
        rw [DnsDriver.after, overrides, each_cons, exec_bind_ok hresult]
        dsimp only
        rw [exec_bind, Execution.andThen]
        split
        · rfl
        · rfl
      rwa [hsplit]

/-- The state after an override of the node. -/
def DnsDriver.overridden (D : DnsDriver) (fleet : Fleet) (clusters : List ClusterStatus)
    (node : Node) (record : Option String) (audit : Bool) (action : OverrideAction)
    (confirm : Bool) (s : D.State) : D.State :=
  D.after clusters (dnsOverride fleet node.name action record confirm audit) s

/-- What the overrides of a node do to the records of these names, and what follows for
repeated calls, sequences of calls, and an eject that is taken back. -/
structure OverrideLaw (D : DnsDriver) (names : String → Prop) (fleet : Fleet)
    (clusters : List ClusterStatus) (node : Node) (record : Option String) (audit : Bool)
    (s : D.State) : Prop where
  returns : ∀ action confirm, ∃ result,
    (exec (D.handler clusters) (dnsOverride fleet node.name action record confirm audit)
      s).result = .ok result ∧
    OverrideReports action node.name node.host confirm (poolsForNode fleet node.name record)
      (D.members s) result
  ejects : ∀ r, names r →
    D.members (D.overridden fleet clusters node record audit .eject true s) r =
      if r ∈ (poolsForNode fleet node.name record).map (·.record) ∧ D.members s r ≠ {node.host}
      then (D.members s r).erase node.host else D.members s r
  restores : ∀ r, names r →
    D.members (D.overridden fleet clusters node record audit .restore true s) r =
      if r ∈ (poolsForNode fleet node.name record).map (·.record)
      then insert node.host (D.members s r) else D.members s r
  unconfirmed : ∀ action, D.overridden fleet clusters node record audit action false s = s
  elsewhere : ∀ action confirm r, names r →
    r ∉ (poolsForNode fleet node.name record).map (·.record) →
    D.hasMarker (D.overridden fleet clusters node record audit action confirm s) r =
      D.hasMarker s r
  again : ∀ action confirm r, names r →
    D.members (D.overridden fleet clusters node record audit action confirm
        (D.overridden fleet clusters node record audit action confirm s)) r =
      D.members (D.overridden fleet clusters node record audit action confirm s) r
  serves : ∀ (calls : List OverrideCall) r, names r → D.members s r ≠ ∅ →
    D.members (D.after clusters (overrides fleet calls) s) r ≠ ∅
  back : ∀ r, names r → r ∈ (poolsForNode fleet node.name record).map (·.record) →
    node.host ∈ D.members s r → D.members s r ≠ {node.host} →
    D.members (D.overridden fleet clusters node record audit .restore true
      (D.overridden fleet clusters node record audit .eject true s)) r = D.members s r

theorem overrideLaw {clusterName : String} {cluster : Cluster} {node : Node}
    (hfound : fleet.findNode node.name = some (clusterName, cluster, node))
    (record : Option String) (audit : Bool) (s : D.State) :
    OverrideLaw D (fun _ => True) fleet clusters node record audit s := by
  have hmembers : ∀ action confirm (t : D.State) r,
      D.members (D.overridden fleet clusters node record audit action confirm t) r =
        if r ∈ (poolsForNode fleet node.name record).map (·.record) then
          overrideAim action node.host confirm (D.members t r)
        else D.members t r := fun action confirm t r =>
    after_members D clusters ⟨node.name, action, record, confirm, audit⟩ hfound t r
  refine ⟨fun action confirm => ?_, fun r _ => ?_, fun r _ => ?_, fun action => ?_,
    fun action confirm r _ hr => ?_, fun action confirm r _ => ?_, fun calls r _ h => ?_,
    fun r _ hr hhas hnot => ?_⟩
  · obtain ⟨result, hreports, hleaves⟩ : ∃ result, _ ∧ Leaves D clusters _ s result _ :=
      leaves_dnsOverride hfound s
    exact ⟨result, hleaves.result, hreports⟩
  · rw [hmembers, overrideAim_eject]
    by_cases hr : r ∈ (poolsForNode fleet node.name record).map (·.record) <;>
      by_cases hlast : D.members s r = {node.host} <;> simp [hr, hlast]
  · rw [hmembers, overrideAim_restore]
  · obtain ⟨result, hidle⟩ : ∃ result, Idles D clusters _ s result := idles_dnsOverride fleet
    exact hidle.final
  · obtain ⟨result, -, hleaves⟩ : ∃ result, _ ∧ Leaves D clusters _ s result _ :=
      leaves_dnsOverride hfound s
    have hview := congrFun (congrArg DnsView.marked hleaves.view) r
    rw [foldl_override_marked hr] at hview
    exact hview
  · rw [hmembers, hmembers]
    split
    · exact overrideAim_idem
    · rfl
  · exact overrides_keep_nonempty D clusters calls s h
  · rw [hmembers, if_pos hr, hmembers, if_pos hr, overrideAim_eject, if_neg hnot,
      overrideAim_restore, Finset.insert_erase hhas]

end Law

/-- What the two overrides do to every record, and what follows for repeated calls,
sequences of calls, and an eject that is taken back. -/
theorem dnsOverride_law (D : LawfulDriver) (a : AcceptedFleet) (unique : a.fleet.UniqueNames)
    (clusters : List ClusterStatus) {node : Node} (hnode : node ∈ a.fleet.nodes)
    (record : Option String) (audit : Bool) (s : D.State) :
    let pools := poolsForNode a.fleet node.name record
    let records := pools.map (·.record)
    let after := fun (action : OverrideAction) (confirm : Bool) (s : D.State) =>
      D.after clusters (dnsOverride a.fleet node.name action record confirm audit) s
    (∀ action confirm, ∃ result,
      (exec (D.handler clusters) (dnsOverride a.fleet node.name action record confirm audit)
        s).result = .ok result ∧
      OverrideReports action node.name node.host confirm pools (D.members s) result) ∧
    (∀ r, D.members (after .eject true s) r =
      if r ∈ records ∧ D.members s r ≠ {node.host} then (D.members s r).erase node.host
      else D.members s r) ∧
    (∀ r, D.members (after .restore true s) r =
      if r ∈ records then insert node.host (D.members s r) else D.members s r) ∧
    (∀ action, after action false s = s) ∧
    (∀ action confirm, ∀ r ∉ records, D.hasMarker (after action confirm s) r = D.hasMarker s r) ∧
    (∀ action confirm, D.members (after action confirm (after action confirm s)) =
      D.members (after action confirm s)) ∧
    (∀ (calls : List OverrideCall) r, D.members s r ≠ ∅ →
      D.members (D.after clusters (overrides a.fleet calls) s) r ≠ ∅) ∧
    ∀ r ∈ records, node.host ∈ D.members s r → D.members s r ≠ {node.host} →
      D.members (after .restore true (after .eject true s)) r = D.members s r := by
  intro pools records after
  obtain ⟨clusterName, cluster, hfound⟩ := unique.exists_findNode hnode
  have law : OverrideLaw D (fun _ => True) a.fleet clusters node record audit s :=
    overrideLaw D clusters hfound record audit s
  exact ⟨law.returns, fun r => law.ejects r trivial, fun r => law.restores r trivial,
    law.unconfirmed, fun action confirm r => law.elsewhere action confirm r trivial,
    fun action confirm => funext fun r => law.again action confirm r trivial,
    fun calls r => law.serves calls r trivial, fun r => law.back r trivial⟩

/-- Node `a` is taken out of its record and put back. -/
theorem dnsOverride_law_pair :
    let s := pairState {"10.0.0.1", "10.0.0.2"}
    let ejected := inMemoryDnsDriver.after []
      (dnsOverride pairFleet.fleet "a" .eject none true false) s
    let restored := inMemoryDnsDriver.after []
      (dnsOverride pairFleet.fleet "a" .restore none true false) ejected
    inMemoryDnsDriver.members ejected "rpc.example.com" = {"10.0.0.2"} ∧
      inMemoryDnsDriver.members restored "rpc.example.com" = {"10.0.0.1", "10.0.0.2"} := by
  intro s ejected restored
  have hnode :
      ({ name := "a", role := .rpc, host := "10.0.0.1", rpcUrl := some "http://a" } : Node) ∈
        pairFleet.fleet.nodes := by decide
  obtain ⟨-, hejected, -, -, -, -, -, hback⟩ :=
    dnsOverride_law inMemoryDnsDriver pairFleet (by decide) [] hnode none false s
  have hmembers : inMemoryDnsDriver.members s "rpc.example.com" = {"10.0.0.1", "10.0.0.2"} := by
    decide
  constructor
  · have heject := hejected "rpc.example.com"
    rw [hmembers, if_pos (by decide)] at heject
    exact heject.trans (by decide)
  · have hrestore := hback "rpc.example.com" (by decide) (by rw [hmembers]; decide)
      (by rw [hmembers]; decide)
    exact hrestore.trans hmembers

end Solfleet
