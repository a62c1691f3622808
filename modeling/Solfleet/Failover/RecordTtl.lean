import Solfleet.Dns.Agreement
import Solfleet.Failover.Overriding

/-! # The TTL of a record set

A Route53 record set is rewritten as a whole, its TTL included: an addition writes the TTL
of the pool and a removal writes 60. What a record's TTL is after an operation is decided
by the last change the operation made to it.
-/

namespace Solfleet

open Interaction Program Route53

/-! ## One record set -/

/-- The addresses of a record set, and its TTL if there is a set. -/
@[ext] structure RowView where
  members : Finset String
  ttl : Option Int

def RowView.add (v : RowView) (ip : String) (ttl : Int) : RowView :=
  if ip ∈ v.members then v else ⟨insert ip v.members, some ttl⟩

def RowView.remove (v : RowView) (ip : String) : RowView :=
  if ip ∈ v.members then
    ⟨v.members.erase ip, if v.members.erase ip = ∅ then none else some 60⟩
  else v

section Folds

variable {v : RowView} {ips : List String}

/-- Removals of addresses that are there. -/
theorem foldl_remove (hnodup : ips.Nodup) (hsub : ips.toFinset ⊆ v.members) :
    ips.foldl RowView.remove v =
      ⟨v.members \ ips.toFinset,
        if ips = [] then v.ttl else if v.members \ ips.toFinset = ∅ then none else some 60⟩ := by
  induction ips generalizing v with
  | nil => simp
  | cons ip ips ih =>
      obtain ⟨hip, hrest⟩ := List.nodup_cons.mp hnodup
      have hmem : ip ∈ v.members := hsub (by simp)
      have hsub' : ips.toFinset ⊆ v.members.erase ip := by
        intro x hx
        refine Finset.mem_erase.mpr ⟨?_, hsub (by simp_all)⟩
        rintro rfl
        exact hip (List.mem_toFinset.mp hx)
      have hset : v.members.erase ip \ ips.toFinset = v.members \ (ip :: ips).toFinset := by
        rw [List.toFinset_cons, Finset.sdiff_insert, Finset.erase_sdiff_comm]
      have hremove : v.remove ip =
          ⟨v.members.erase ip, if v.members.erase ip = ∅ then none else some 60⟩ := if_pos hmem
      rw [List.foldl_cons, hremove, ih hrest hsub', hset, if_neg (List.cons_ne_nil ip ips)]
      congr 1
      by_cases hnil : ips = []
      · subst hnil
        have hlast : v.members \ [ip].toFinset = v.members.erase ip := by
          rw [← hset]
          simp
        rw [if_pos rfl, hlast]
      · rw [if_neg hnil]

/-- Additions of addresses that are not there. -/
theorem foldl_add (ttl : Int) (hnodup : ips.Nodup) (hnew : ∀ ip ∈ ips, ip ∉ v.members) :
    ips.foldl (fun w ip => w.add ip ttl) v =
      ⟨v.members ∪ ips.toFinset, if ips = [] then v.ttl else some ttl⟩ := by
  induction ips generalizing v with
  | nil => simp
  | cons ip ips ih =>
      obtain ⟨hip, hrest⟩ := List.nodup_cons.mp hnodup
      obtain ⟨hout, hnew⟩ := List.forall_mem_cons.mp hnew
      have hadd : v.add ip ttl = ⟨insert ip v.members, some ttl⟩ := if_neg hout
      have hnew' : ∀ x ∈ ips, x ∉ insert ip v.members := by
        intro x hx hmem
        rcases Finset.mem_insert.mp hmem with rfl | hmem
        · exact hip hx
        · exact hnew x hx hmem
      rw [List.foldl_cons, hadd, ih hrest hnew', if_neg (List.cons_ne_nil ip ips),
        List.toFinset_cons, Finset.union_insert, Finset.insert_union]
      congr 1
      exact ite_self _

end Folds

/-! ## The last change -/

/-- The last change that something made to a record set, if it made one. -/
inductive LastChange where
  | none
  | removal
  | addition (ttl : Int)
  deriving DecidableEq

namespace LastChange

/-- The TTL afterwards; `before` is the one it found. -/
def ttl (before : Option Int) : LastChange → Option Int
  | .none => before
  | .removal => some 60
  | .addition ttl => some ttl

def andThen (first second : LastChange) : LastChange :=
  match second with
  | .none => first
  | .removal => .removal
  | .addition ttl => .addition ttl

theorem ttl_andThen (first second : LastChange) (before : Option Int) :
    (first.andThen second).ttl before = second.ttl (first.ttl before) := by
  cases second <;> rfl

/-- The change leaves a TTL of `t` as it is. -/
def Keeps (t : Int) : LastChange → Prop
  | .none => True
  | .removal => t = 60
  | .addition ttl => ttl = t

instance (t : Int) (c : LastChange) : Decidable (c.Keeps t) := by
  cases c <;> unfold Keeps <;> infer_instance

theorem ttl_eq_iff {t : Int} {c : LastChange} : c.ttl (some t) = some t ↔ c.Keeps t := by
  cases c with
  | none => simp [ttl, Keeps]
  | removal => simp [ttl, Keeps, eq_comm]
  | addition ttl => simp [LastChange.ttl, Keeps]

end LastChange

/-- The last change of consecutive turns: `next` is the set a turn leaves, `change` what it
does to it. -/
def lastChange (next : Finset String → Pool → Finset String)
    (change : Finset String → Pool → LastChange) : List Pool → Finset String → LastChange
  | [], _ => .none
  | pool :: pools, current =>
      (change current pool).andThen (lastChange next change pools (next current pool))

/-- A turn as a step of the record set. -/
def rowStep (next : Finset String → Pool → Finset String)
    (change : Finset String → Pool → LastChange) (v : RowView) (pool : Pool) : RowView :=
  ⟨next v.members pool, (change v.members pool).ttl v.ttl⟩

theorem foldl_rowStep (next : Finset String → Pool → Finset String)
    (change : Finset String → Pool → LastChange) (v : RowView) (pools : List Pool) :
    pools.foldl (rowStep next change) v =
      ⟨pools.foldl next v.members, (lastChange next change pools v.members).ttl v.ttl⟩ := by
  induction pools generalizing v with
  | nil => rfl
  | cons pool pools ih =>
      rw [List.foldl_cons, ih, List.foldl_cons, lastChange, LastChange.ttl_andThen]
      rfl

/-! ## What the calls do to it -/

/-- Two names of one record set. -/
def SameSet (r record : String) : Prop := fqdn record = fqdn r

instance (r record : String) : Decidable (SameSet r record) := inferInstanceAs (Decidable (_ = _))

theorem SameSet.key {r record : String} (h : SameSet r record) : memberKey record = memberKey r :=
  congrArg (RecordKey.mk · .a) h

theorem memberKey_ne {r record : String} (h : ¬ SameSet r record) :
    memberKey r ≠ memberKey record :=
  fun heq => h (congrArg RecordKey.name heq).symm

section Calls

variable [LinearOrder RecordKey] {clusters : List ClusterStatus} {r : String}

/-- The record set of `r` in the zone. -/
def rowView (r : String) (z : Route53Zone) : RowView :=
  ⟨Route53.members z r, (z.row? (memberKey r)).map (·.ttl)⟩

theorem rowView_of_keeps {z z' : Route53Zone} {key : RecordKey} (h : Keeps key z z')
    (hne : memberKey r ≠ key) : rowView r z' = rowView r z := by
  rw [rowView, rowView, Route53.members, Route53.members, h _ hne]

theorem SameSet.members_eq {record : String} (h : SameSet r record) (z : Route53Zone) :
    Route53.members z record = (rowView r z).members := by
  rw [rowView, Route53.members, Route53.members, h.key]

theorem rowView_of_writes {z' : Route53Zone} {record : String} {values : Finset String} {ttl : Int}
    (h : SameSet r record) (hrow : z'.row? (memberKey record) =
      if values = ∅ then none else some ⟨fqdn record, .a, ttl, sorted values⟩) :
    rowView r z' = ⟨values, if values = ∅ then none else some ttl⟩ := by
  rw [rowView, Route53.members, ← h.key, hrow]
  by_cases hvalues : values = ∅
  · simp [hvalues, valuesOf]
  · simp [hvalues, valuesOf]

theorem addMember_row (z : Route53Zone) (record ip : String) (ttl : Int) :
    ∃ z', Ends route53 (Route53.addMember record ip ttl) z () z' ∧ rowView r z' =
      if SameSet r record then (rowView r z).add ip ttl else rowView r z := by
  by_cases hip : ip ∈ (Route53.listed z record).toFinset
  · refine ⟨z, (listMembers_ends z record).bind ?_, ?_⟩
    · rw [if_pos hip]
      exact ends_pure
    · split
      case isTrue hr =>
        rw [toFinset_listed, hr.members_eq] at hip
        exact (if_pos hip).symm
      case isFalse => rfl
  · obtain ⟨z', hends, hkeeps, hrow⟩ :=
      upsert_writes z record (insert ip (Route53.listed z record).toFinset) ttl
    refine ⟨z', (listMembers_ends z record).bind ?_, ?_⟩
    · rw [if_neg hip]
      exact hends
    · split
      case isTrue hr =>
        rw [rowView_of_writes hr hrow, if_neg (Finset.insert_ne_empty _ _)]
        rw [toFinset_listed, hr.members_eq] at hip ⊢
        exact (if_neg hip).symm
      case isFalse hr => exact rowView_of_keeps hkeeps (memberKey_ne hr)

theorem removeMember_row (z : Route53Zone) (record ip : String) :
    ∃ z', Ends route53 (Route53.removeMember record ip) z () z' ∧ rowView r z' =
      if SameSet r record then (rowView r z).remove ip else rowView r z := by
  by_cases hip : ip ∈ (Route53.listed z record).toFinset
  · obtain ⟨z', hends, hkeeps, hrow⟩ :=
      upsert_writes z record ((Route53.listed z record).toFinset.erase ip) 60
    refine ⟨z', (listMembers_ends z record).bind ?_, ?_⟩
    · rw [if_pos hip]
      exact hends
    · split
      case isTrue hr =>
        rw [rowView_of_writes hr hrow]
        rw [toFinset_listed, hr.members_eq] at hip ⊢
        exact (if_pos hip).symm
      case isFalse hr => exact rowView_of_keeps hkeeps (memberKey_ne hr)
  · refine ⟨z, (listMembers_ends z record).bind ?_, ?_⟩
    · rw [if_neg hip]
      exact ends_pure
    · split
      case isTrue hr =>
        rw [toFinset_listed, hr.members_eq] at hip
        exact (if_neg hip).symm
      case isFalse => rfl

/-- What a call makes of the record set `r`. -/
def RowView.effect (r : String) : DriverCall → RowView → RowView
  | .addMember record ip ttl, v => if SameSet r record then v.add ip ttl else v
  | .removeMember record ip, v => if SameSet r record then v.remove ip else v
  | .listMembers _, v | .hasMarker _, v | .ensureMarker _, v => v

theorem rowView_perform (z : Route53Zone) (c : DriverCall) :
    rowView r (route53Driver.perform z c).2 = (rowView r z).effect r c := by
  cases c with
  | listMembers record => rfl
  | hasMarker record => rfl
  | addMember record ip ttl =>
      obtain ⟨z', hends, hrow⟩ := addMember_row (r := r) z record ip ttl
      have hfinal : (route53Driver.perform z (.addMember record ip ttl)).2 = z' := hends.final
      rw [hfinal, hrow, RowView.effect]
  | removeMember record ip =>
      obtain ⟨z', hends, hrow⟩ := removeMember_row (r := r) z record ip
      have hfinal : (route53Driver.perform z (.removeMember record ip)).2 = z' := hends.final
      rw [hfinal, hrow, RowView.effect]
  | ensureMarker record =>
      obtain ⟨z', hends, hkeeps, -⟩ := ensureMarker_ends z record
      have hfinal : (route53Driver.perform z (.ensureMarker record)).2 = z' := hends.final
      rw [hfinal, rowView_of_keeps hkeeps (memberKey_ne_markerKey r record), RowView.effect]

/-! ## What the programs do to it -/

/-- From a record set `v` the program returns and leaves it as `w`. -/
def RowEnds {α : Type} (clusters : List ClusterStatus) (r : String) (p : DnsProgram α)
    (v w : RowView) : Prop :=
  ∀ z, rowView r z = v →
    ∃ a z', Ends (route53Driver.handler clusters) p z a z' ∧ rowView r z' = w

variable {α β : Type} {v u w : RowView}

theorem rowEnds_pure (a : α) : RowEnds clusters r (pure a) v v :=
  fun z hz => ⟨a, z, ends_pure, hz⟩

theorem RowEnds.bind {p : DnsProgram α} {f : α → DnsProgram β} (hp : RowEnds clusters r p v u)
    (hf : ∀ a, RowEnds clusters r (f a) u w) : RowEnds clusters r (p >>= f) v w := by
  intro z hz
  obtain ⟨a, z₁, hfirst, hz₁⟩ := hp z hz
  obtain ⟨b, z₂, hrest, hz₂⟩ := hf a z₁ hz₁
  exact ⟨b, z₂, hfirst.bind hrest, hz₂⟩

theorem RowEnds.map {p : DnsProgram α} (f : α → β) (hp : RowEnds clusters r p v w) :
    RowEnds clusters r (f <$> p) v w := by
  rw [map_eq_bind]
  exact hp.bind fun _ => rowEnds_pure _

theorem rowEnds_driverCall (c : DriverCall) :
    RowEnds clusters r (driverCall c) v (v.effect r c) :=
  fun z hz => ⟨_, _, ends_perform rfl, hz ▸ rowView_perform z c⟩

theorem rowEnds_recordAudit (audit : Bool) (event : AuditEvent) :
    RowEnds clusters r (recordAudit audit event) v v := by
  cases audit with
  | false => exact rowEnds_pure ()
  | true => exact fun z hz => ⟨(), z, ends_perform rfl, hz⟩

theorem rowEnds_probeFleet {f : List ClusterStatus → DnsProgram β}
    (hf : RowEnds clusters r (f clusters) v w) : RowEnds clusters r (probeFleet >>= f) v w := by
  intro z hz
  obtain ⟨b, z', hrest, hz'⟩ := hf z hz
  have hprobe : Ends (route53Driver.handler clusters) probeFleet z clusters z := ends_perform rfl
  exact ⟨b, z', hprobe.bind hrest, hz'⟩

/-- A listing of the record is a listing of its set. -/
theorem rowEnds_listMembers {record : String} {f : List String → DnsProgram β}
    (hf : ∀ listed : List String, (SameSet r record → listed.toFinset = v.members) →
      RowEnds clusters r (f listed) v w) :
    RowEnds clusters r (driverCall (.listMembers record) >>= f) v w := by
  intro z hz
  have hlisted : SameSet r record →
      (route53Driver.listMembers z record).toFinset = v.members := by
    intro hr
    rw [driver_listMembers, toFinset_listed, hr.members_eq, hz]
  obtain ⟨b, z', hrest, hz'⟩ := hf _ hlisted z hz
  have hlist : Ends (route53Driver.handler clusters) (driverCall (.listMembers record)) z
      (route53Driver.listMembers z record) z := ends_perform rfl
  exact ⟨b, z', hlist.bind hrest, hz'⟩

theorem rowEnds_each {xs : List β} {body : β → DnsProgram α} {step : RowView → β → RowView}
    (h : ∀ x ∈ xs, ∀ v, RowEnds clusters r (body x) v (step v x)) :
    RowEnds clusters r (each xs body) v (xs.foldl step v) := by
  induction xs generalizing v with
  | nil => exact rowEnds_pure []
  | cons x xs ih =>
      refine (h x (by simp) v).bind fun _ => ?_
      exact (ih fun y hy => h y (by simp [hy])).bind fun _ => rowEnds_pure _

end Calls

/-! ## Turns of a pass -/

/-- What the turn of a pool changes last: it removes first and adds then. -/
def turnChange (fleet : Fleet) (clusters : List ClusterStatus) (current : Finset String)
    (pool : Pool) : LastChange :=
  if poolDesired fleet clusters pool = ∅ then .none
  else if Reconcile.toAdd current (poolDesired fleet clusters pool) ≠ ∅ then .addition pool.ttl
  else if
      Reconcile.toRemove current (poolHosts fleet pool) (poolDesired fleet clusters pool) ≠ ∅ then
    .removal
  else .none

def turnSet (fleet : Fleet) (clusters : List ClusterStatus) (current : Finset String)
    (pool : Pool) : Finset String :=
  Reconcile.target current (poolHosts fleet pool) (poolDesired fleet clusters pool)

/-- The pools that name the record set of `r`. -/
def poolsOfSet (r : String) (pools : List Pool) : List Pool :=
  pools.filter fun pool => decide (SameSet r pool.record)

/-- Turns on other sets do not count. -/
theorem foldl_sameSet {r : String} (step : RowView → Pool → RowView) (v : RowView)
    (pools : List Pool) :
    pools.foldl (fun w pool => if SameSet r pool.record then step w pool else w) v =
      (poolsOfSet r pools).foldl step v := by
  simp [poolsOfSet, List.foldl_filter]

section Pass

variable [LinearOrder RecordKey] {clusters : List ClusterStatus} {r : String} {v : RowView}

theorem rowEnds_reconcilePool (audit : Bool) (pool : Pool) (toRemove toAdd : List String) :
    RowEnds clusters r (reconcilePool audit pool toRemove toAdd) v
      (toAdd.foldl (fun w ip => w.effect r (.addMember pool.record ip pool.ttl))
        (toRemove.foldl (fun w ip => w.effect r (.removeMember pool.record ip)) v)) := by
  refine (rowEnds_driverCall (.ensureMarker pool.record)).bind fun _ => ?_
  refine (rowEnds_each fun ip _ w => rowEnds_driverCall (.removeMember pool.record ip)).bind
    fun _ => ?_
  refine (rowEnds_each fun ip _ w =>
    rowEnds_driverCall (.addMember pool.record ip pool.ttl)).bind fun _ => ?_
  exact rowEnds_recordAudit _ _

omit [LinearOrder RecordKey] in
/-- The removals and additions of a turn, as one change. -/
theorem foldl_effects {fleet : Fleet} {pool : Pool} (hr : SameSet r pool.record)
    (hne : poolDesired fleet clusters pool ≠ ∅) (v : RowView) :
    (sorted (Reconcile.toAdd v.members (poolDesired fleet clusters pool))).foldl
        (fun w ip => w.effect r (.addMember pool.record ip pool.ttl))
        ((sorted (Reconcile.toRemove v.members (poolHosts fleet pool)
          (poolDesired fleet clusters pool))).foldl
            (fun w ip => w.effect r (.removeMember pool.record ip)) v) =
      rowStep (turnSet fleet clusters) (turnChange fleet clusters) v pool := by
  have hsub := poolDesired_subset fleet clusters pool
  let gone := Reconcile.toRemove v.members (poolHosts fleet pool) (poolDesired fleet clusters pool)
  let new := Reconcile.toAdd v.members (poolDesired fleet clusters pool)
  have hgone : gone ⊆ v.members := fun ip hip =>
    (Finset.mem_inter.mp (Finset.mem_sdiff.mp hip).1).1
  have hnew : ∀ ip ∈ sorted new, ip ∉ v.members \ gone := fun ip hip hmem =>
    (Finset.mem_sdiff.mp (mem_sorted.mp hip)).2 (Finset.mem_sdiff.mp hmem).1
  simp only [RowView.effect, if_pos hr]
  rw [foldl_remove (sorted_nodup gone) (by rwa [toFinset_sorted]), toFinset_sorted,
    foldl_add pool.ttl (sorted_nodup new) hnew, toFinset_sorted]
  have hset : (v.members \ gone) ∪ new = turnSet fleet clusters v.members pool := by
    rw [turnSet, Reconcile.target_of_ne hne]
    exact Reconcile.sdiff_toRemove_union_toAdd hsub
  rw [rowStep, hset, turnChange, if_neg hne]
  congr 1
  by_cases hadd : new = ∅
  · have hserves : v.members \ gone ≠ ∅ := by
      intro hempty
      have hturn : turnSet fleet clusters v.members pool = ∅ := by
        rw [← hset, hempty, hadd, Finset.union_empty]
      rw [turnSet, Reconcile.target_of_ne hne, Finset.union_eq_empty] at hturn
      exact hne hturn.2
    rw [if_pos (sorted_eq_nil_iff.mpr hadd), if_neg (not_not.mpr hadd), if_neg hserves]
    by_cases hremove : gone = ∅
    · rw [if_pos (sorted_eq_nil_iff.mpr hremove), if_neg (not_not.mpr hremove)]
      rfl
    · rw [if_neg (sorted_eq_nil_iff.not.mpr hremove), if_pos hremove]
      rfl
  · rw [if_neg (sorted_eq_nil_iff.not.mpr hadd), if_pos hadd]
    rfl

omit [LinearOrder RecordKey] in
theorem foldl_effects_of_ne {pool : Pool} (hr : ¬ SameSet r pool.record)
    (toRemove toAdd : List String)
    (v : RowView) :
    toAdd.foldl (fun w ip => w.effect r (.addMember pool.record ip pool.ttl))
      (toRemove.foldl (fun w ip => w.effect r (.removeMember pool.record ip)) v) = v := by
  simp only [RowView.effect, if_neg hr, List.foldl_fixed]

/-- What a pass that is no dry run makes of the set in one turn. -/
theorem rowEnds_watchPool (a : AcceptedFleet) (audit : Bool) {pool : Pool}
    (hp : pool ∈ a.fleet.pools) :
    RowEnds clusters r (watchPool (nodeIps a.fleet) (statusByName clusters) audit false pool) v
      (if SameSet r pool.record then
        rowStep (turnSet a.fleet clusters) (turnChange a.fleet clusters) v pool else v) := by
  rw [a.watchPool_eq clusters audit false hp]
  refine rowEnds_listMembers fun listed hlisted => RowEnds.bind ?_ fun _ => rowEnds_pure _
  rw [applyTurn_eq (poolDesired_subset a.fleet clusters pool)]
  split
  case isTrue hempty =>
    have hstill : rowStep (turnSet a.fleet clusters) (turnChange a.fleet clusters) v pool = v := by
      simp [rowStep, turnSet, turnChange, hempty, LastChange.ttl]
    rw [hstill, ite_self]
    exact rowEnds_recordAudit _ _
  case isFalse hne =>
    split
    case isTrue hidle =>
      split
      case isFalse => exact rowEnds_pure ()
      case isTrue hr =>
        rw [hlisted hr, or_iff_left Bool.false_ne_true,
          Reconcile.target_eq_self_iff hne (poolDesired_subset a.fleet clusters pool)] at hidle
        have hstill :
            rowStep (turnSet a.fleet clusters) (turnChange a.fleet clusters) v pool = v := by
          ext1
          · exact (Reconcile.target_eq_self_iff hne
              (poolDesired_subset a.fleet clusters pool)).mpr hidle
          · simp [rowStep, turnChange, hne, hidle.1, hidle.2, LastChange.ttl]
        rw [hstill]
        exact rowEnds_pure ()
    case isFalse =>
      have hdone : RowEnds clusters r (reconcilePool audit pool _ _) v _ :=
        rowEnds_reconcilePool audit pool
          (sorted (Reconcile.toRemove listed.toFinset (poolHosts a.fleet pool)
            (poolDesired a.fleet clusters pool)))
          (sorted (Reconcile.toAdd listed.toFinset (poolDesired a.fleet clusters pool)))
      split
      case isTrue hr =>
        rw [hlisted hr, foldl_effects hr hne] at hdone
        rw [hlisted hr]
        exact hdone
      case isFalse hr =>
        rw [foldl_effects_of_ne hr] at hdone
        exact hdone

theorem rowEnds_watchPool_dryRun (a : AcceptedFleet) (audit : Bool) {pool : Pool}
    (hp : pool ∈ a.fleet.pools) :
    RowEnds clusters r (watchPool (nodeIps a.fleet) (statusByName clusters) audit true pool)
      v v := by
  rw [a.watchPool_eq clusters audit true hp]
  refine rowEnds_listMembers fun listed _ => RowEnds.bind ?_ fun _ => rowEnds_pure _
  rw [applyTurn_eq (poolDesired_subset a.fleet clusters pool)]
  split
  · exact rowEnds_recordAudit _ _
  · rw [if_pos (.inr rfl)]
    exact rowEnds_pure ()

theorem rowEnds_watchOnce (a : AcceptedFleet) (audit : Bool) :
    RowEnds clusters r (watchOnce a.fleet audit false) v
      ((poolsOfSet r a.fleet.pools).foldl
        (rowStep (turnSet a.fleet clusters) (turnChange a.fleet clusters)) v) := by
  rw [← foldl_sameSet]
  unfold watchOnce
  by_cases hpools : a.fleet.pools = []
  · rw [if_pos hpools, hpools]
    exact rowEnds_pure _
  · rw [if_neg hpools]
    refine rowEnds_probeFleet ((rowEnds_each fun pool hp v => ?_).bind fun _ => rowEnds_pure _)
    exact rowEnds_watchPool a audit hp

theorem rowEnds_watchOnce_dryRun (a : AcceptedFleet) (audit : Bool) :
    RowEnds clusters r (watchOnce a.fleet audit true) v v := by
  unfold watchOnce
  split
  · exact rowEnds_pure _
  · have hturns : RowEnds clusters r (each a.fleet.pools _) v
        (a.fleet.pools.foldl (fun v _ => v) v) :=
      rowEnds_each fun pool hp v => rowEnds_watchPool_dryRun a audit hp
    rw [List.foldl_fixed] at hturns
    exact rowEnds_probeFleet (hturns.bind fun _ => rowEnds_pure _)

end Pass

/-! ## Turns of an override -/

def OverrideAction.change (pool : Pool) : OverrideAction → LastChange
  | .eject => .removal
  | .restore => .addition pool.ttl

/-- What an override changes: nothing where it is denied, or where the address already is as
it should be. -/
def overrideChange (action : OverrideAction) (ip : String) (confirm : Bool)
    (current : Finset String) (pool : Pool) : LastChange :=
  if overrideAim action ip confirm current = current then .none else action.change pool

def overrideNext (action : OverrideAction) (ip : String) (confirm : Bool)
    (current : Finset String) (_pool : Pool) : Finset String :=
  overrideAim action ip confirm current

section Override

variable [LinearOrder RecordKey] {clusters : List ClusterStatus} {r : String} {v : RowView}
  {action : OverrideAction} {nodeName ip : String} {confirm : Bool}

omit [LinearOrder RecordKey] in
theorem override_effect {pool : Pool} (hr : SameSet r pool.record)
    (hopens : confirm = true ∧ (action = .eject → v.members ≠ {ip})) :
    v.effect r (action.call pool ip) =
      rowStep (overrideNext action ip confirm) (overrideChange action ip confirm) v pool := by
  rw [rowStep, overrideNext, overrideChange]
  cases action with
  | restore =>
      have haim : overrideAim .restore ip confirm v.members = insert ip v.members := if_pos hopens
      show (if SameSet r pool.record then v.add ip pool.ttl else v) = _
      rw [if_pos hr, RowView.add]
      split
      case isTrue hmem =>
        have hsame := haim.trans (Finset.insert_eq_of_mem hmem)
        rw [if_pos hsame, hsame]
        rfl
      case isFalse hmem =>
        have hchanged : overrideAim .restore ip confirm v.members ≠ v.members :=
          fun hsame => hmem (Finset.insert_eq_self.mp (haim.symm.trans hsame))
        rw [if_neg hchanged, haim]
        rfl
  | eject =>
      have haim : overrideAim .eject ip confirm v.members = v.members.erase ip := if_pos hopens
      show (if SameSet r pool.record then v.remove ip else v) = _
      rw [if_pos hr, RowView.remove]
      split
      case isTrue hmem =>
        have hserves : v.members.erase ip ≠ ∅ := fun hempty => by
          rcases (Finset.erase_eq_empty_iff _ _).mp hempty with hempty | hlast
          · rw [hempty] at hmem
            exact Finset.notMem_empty ip hmem
          · exact hopens.2 rfl hlast
        have hchanged : overrideAim .eject ip confirm v.members ≠ v.members :=
          fun hsame => Finset.erase_eq_self.mp (haim.symm.trans hsame) hmem
        rw [if_neg hserves, if_neg hchanged, haim]
        rfl
      case isFalse hmem =>
        have hsame := haim.trans (Finset.erase_eq_of_notMem hmem)
        rw [if_pos hsame, hsame]
        rfl

omit [LinearOrder RecordKey] in
theorem override_still {pool : Pool}
    (hopens : ¬ (confirm = true ∧ (action = .eject → v.members ≠ {ip}))) :
    rowStep (overrideNext action ip confirm) (overrideChange action ip confirm) v pool = v := by
  have haim : overrideAim action ip confirm v.members = v.members := if_neg hopens
  rw [rowStep, overrideNext, overrideChange, if_pos haim, haim]
  rfl

theorem rowEnds_overridePool (audit : Bool) (pool : Pool) :
    RowEnds clusters r (overridePool action nodeName ip confirm audit pool) v
      (if SameSet r pool.record then
        rowStep (overrideNext action ip confirm) (overrideChange action ip confirm) v pool
      else v) := by
  refine rowEnds_listMembers fun listed hlisted => ?_
  dsimp only
  refine RowEnds.bind ?_ fun now => (rowEnds_recordAudit _ _).bind fun _ => rowEnds_pure _
  unfold GateRequest.guard
  have happly : RowEnds clusters r (applyOverride action ip pool) v
      (v.effect r (action.call pool ip)) := by
    refine (rowEnds_driverCall (.ensureMarker pool.record)).bind fun _ => ?_
    refine (rowEnds_driverCall (action.call pool ip)).bind fun _ => ?_
    exact rowEnds_driverCall (.listMembers pool.record)
  split
  case isTrue hopens =>
    rw [overrideRequest_opens_iff] at hopens
    split
    case isTrue hr =>
      rw [hlisted hr] at hopens
      rw [← override_effect hr hopens]
      exact happly.map _
    case isFalse hr =>
      have hstill : v.effect r (action.call pool ip) = v := by
        cases action <;> exact if_neg hr
      rw [hstill] at happly
      exact happly.map _
  case isFalse hopens =>
    split
    case isFalse => exact rowEnds_pure none
    case isTrue hr =>
      rw [overrideRequest_opens_iff, hlisted hr] at hopens
      rw [override_still hopens]
      exact rowEnds_pure none

theorem rowEnds_dnsOverride {fleet : Fleet} {found : String × Cluster × Node}
    (hfound : fleet.findNode nodeName = some found) (record : Option String) (audit : Bool) :
    RowEnds clusters r (dnsOverride fleet nodeName action record confirm audit) v
      ((poolsOfSet r (poolsForNode fleet nodeName record)).foldl
        (rowStep (overrideNext action found.2.2.host confirm)
          (overrideChange action found.2.2.host confirm)) v) := by
  rw [← foldl_sameSet]
  simp only [dnsOverride, hfound]
  by_cases hpools : poolsForNode fleet nodeName record = []
  · rw [if_pos hpools, hpools]
    exact rowEnds_pure _
  · rw [if_neg hpools]
    exact (rowEnds_each fun pool _ v => rowEnds_overridePool audit pool).bind fun _ =>
      rowEnds_pure _

end Override

/-! ## Runs -/

/-- The last change an override makes to the set of `r`. -/
def overridesChange (fleet : Fleet) (r : String) (current : Finset String) (action : OverrideAction)
    (nodeName : String) (record : Option String) (confirm : Bool) : LastChange :=
  match fleet.findNode nodeName with
  | none => .none
  | some (_, _, node) =>
      lastChange (overrideNext action node.host confirm) (overrideChange action node.host confirm)
        (poolsOfSet r (poolsForNode fleet nodeName record)) current

/-- The last change a request makes to the set of `r`, where it finds `current`. -/
def requestChange (fleet : Fleet) (clusters : List ClusterStatus) (r : String)
    (current : Finset String) : DnsRequest → LastChange
  | .watch _ dryRun =>
      if dryRun then .none
      else
        lastChange (turnSet fleet clusters) (turnChange fleet clusters) (poolsOfSet r fleet.pools)
          current
  | .eject nodeName record confirm _ =>
      overridesChange fleet r current .eject nodeName record confirm
  | .restore nodeName record confirm _ =>
      overridesChange fleet r current .restore nodeName record confirm

section Runs

variable [LinearOrder RecordKey]

def ttlOf (z : Route53Zone) (record : String) : Option Int := (rowView record z).ttl

/-- The zone a request leaves, its probe finding `clusters`. -/
def zoneAfter (fleet : Fleet) (step : List ClusterStatus × DnsRequest) (z : Route53Zone) :
    Route53Zone :=
  (exec (route53Driver.handler step.1) (step.2.program fleet) z).final

/-- The zones after each of the requests. -/
def zonesAfter (fleet : Fleet) : List (List ClusterStatus × DnsRequest) → Route53Zone →
    List Route53Zone
  | [], _ => []
  | step :: steps, z => zoneAfter fleet step z :: zonesAfter fleet steps (zoneAfter fleet step z)

/-- No request's last change to the record set is one that writes another TTL than `t`. -/
def ChangesKeep (fleet : Fleet) (r : String) (t : Int) :
    List (List ClusterStatus × DnsRequest) → Route53Zone → Prop
  | [], _ => True
  | step :: steps, z =>
      (requestChange fleet step.1 r (Route53.members z r) step.2).Keeps t ∧
        ChangesKeep fleet r t steps (zoneAfter fleet step z)

theorem rowEnds_overrides {clusters : List ClusterStatus} {r : String} {v : RowView}
    (fleet : Fleet) (action : OverrideAction) (nodeName : String) (record : Option String)
    (confirm audit : Bool) :
    ∃ members, RowEnds clusters r (dnsOverride fleet nodeName action record confirm audit) v
      ⟨members, (overridesChange fleet r v.members action nodeName record confirm).ttl v.ttl⟩ := by
  cases hfound : fleet.findNode nodeName with
  | none =>
      refine ⟨v.members, ?_⟩
      simp only [dnsOverride, overridesChange, hfound]
      exact rowEnds_pure _
  | some found =>
      have hends : RowEnds clusters r
          (dnsOverride fleet nodeName action record confirm audit) v _ :=
        rowEnds_dnsOverride hfound record audit
      rw [foldl_rowStep] at hends
      simp only [overridesChange, hfound]
      exact ⟨_, hends⟩

/-- The step lemma: a request writes the TTL of its last change. -/
theorem rowEnds_request {clusters : List ClusterStatus} {r : String} {v : RowView}
    (a : AcceptedFleet) (request : DnsRequest) :
    ∃ members, RowEnds clusters r (request.program a.fleet) v
      ⟨members, (requestChange a.fleet clusters r v.members request).ttl v.ttl⟩ := by
  cases request with
  | watch audit dryRun =>
      cases dryRun with
      | true => exact ⟨v.members, (rowEnds_watchOnce_dryRun a audit).map _⟩
      | false =>
          have hends : RowEnds clusters r _ v _ := rowEnds_watchOnce a audit
          rw [foldl_rowStep] at hends
          exact ⟨_, hends.map _⟩
  | eject nodeName record confirm audit =>
      obtain ⟨members, hends⟩ : ∃ members, RowEnds clusters r _ v ⟨members, _⟩ :=
        rowEnds_overrides a.fleet .eject nodeName record confirm audit
      exact ⟨members, hends.map _⟩
  | restore nodeName record confirm audit =>
      obtain ⟨members, hends⟩ : ∃ members, RowEnds clusters r _ v ⟨members, _⟩ :=
        rowEnds_overrides a.fleet .restore nodeName record confirm audit
      exact ⟨members, hends.map _⟩

theorem ttlOf_zoneAfter (a : AcceptedFleet) (step : List ClusterStatus × DnsRequest)
    (z : Route53Zone) (r : String) :
    ttlOf (zoneAfter a.fleet step z) r =
      (requestChange a.fleet step.1 r (Route53.members z r) step.2).ttl (ttlOf z r) := by
  obtain ⟨members, hends⟩ : ∃ members, RowEnds step.1 r _ (rowView r z) ⟨members, _⟩ :=
    rowEnds_request a step.2
  obtain ⟨_, z', hprogram, hrow⟩ := hends z rfl
  have hfinal : zoneAfter a.fleet step z = z' := hprogram.final
  rw [hfinal]
  exact congrArg RowView.ttl hrow

/-- The TTL of a pool's record set stays as long as no operation's last change to the set is
a removal, unless the TTL is 60, or an addition for a pool with another TTL. -/
theorem ttl_preserved_iff (a : AcceptedFleet) {pool : Pool} {z : Route53Zone}
    (hstart : ttlOf z pool.record = some pool.ttl)
    (steps : List (List ClusterStatus × DnsRequest)) :
    (∀ z' ∈ zonesAfter a.fleet steps z, ttlOf z' pool.record = some pool.ttl) ↔
      ChangesKeep a.fleet pool.record pool.ttl steps z := by
  induction steps generalizing z with
  | nil => simp [zonesAfter, ChangesKeep]
  | cons step steps ih =>
      have hstep : ttlOf (zoneAfter a.fleet step z) pool.record = some pool.ttl ↔
          (requestChange a.fleet step.1 pool.record (Route53.members z pool.record)
            step.2).Keeps pool.ttl := by
        rw [ttlOf_zoneAfter, hstart]
        exact LastChange.ttl_eq_iff
      rw [zonesAfter, List.forall_mem_cons, ChangesKeep]
      constructor
      · rintro ⟨hfirst, hrest⟩
        exact ⟨hstep.mp hfirst, (ih hfirst).mp hrest⟩
      · rintro ⟨hfirst, hrest⟩
        exact ⟨hstep.mpr hfirst, (ih (hstep.mpr hfirst)).mpr hrest⟩

end Runs

/-! ## A pool with a TTL of its own -/

section Example

attribute [local instance] listingOrder

def slowPool : Pool where
  record := "slow.example.com"
  cluster := "mainnet"
  members := ["a", "b"]
  ttl := 300

def slowFleet : AcceptedFleet where
  fleet :=
    { clusters := ⟨[("mainnet",
        { referenceRpc := "https://rpc"
          nodes :=
            [{ name := "a", role := .rpc, host := "10.0.1.1", rpcUrl := some "http://a" },
             { name := "b", role := .rpc, host := "10.0.1.2", rpcUrl := some "http://b" }] })],
        by decide⟩
      dns := some { provider := .route53, zone := "z", pools := [slowPool] } }
  accepted := by decide

def slowZone (values : List String) : Route53Zone :=
  Table.empty.put ⟨"slow.example.com.", .a, 300, values⟩

/-- An address that is put back keeps the TTL. -/
theorem ttl_preserved_iff_restore :
    ttlOf (zoneAfter slowFleet.fleet ([], .restore "b" none true false) (slowZone ["10.0.1.1"]))
      slowPool.record = some slowPool.ttl :=
  (ttl_preserved_iff (z := slowZone ["10.0.1.1"]) slowFleet (by decide +kernel)
    [([], .restore "b" none true false)]).mpr ⟨by decide +kernel, trivial⟩ _ List.mem_cons_self

/-- An eject writes 60. -/
theorem ttl_lost :
    ¬ ∀ (a : AcceptedFleet) (pool : Pool), pool ∈ a.fleet.pools → ∀ (z : Route53Zone)
      (steps : List (List ClusterStatus × DnsRequest)),
      ttlOf z pool.record = some pool.ttl →
      (∀ z' ∈ zonesAfter a.fleet steps z, Route53.members z' pool.record ≠ ∅) →
      ∀ z' ∈ zonesAfter a.fleet steps z, ttlOf z' pool.record = some pool.ttl := by
  intro h
  have hkept := h slowFleet slowPool (by decide) (slowZone ["10.0.1.1", "10.0.1.2"])
    [([], .eject "a" none true false)] (by decide +kernel) (by decide +kernel)
  revert hkept
  decide +kernel

end Example

end Solfleet
