import Solfleet.Failover.Foreign

/-! # One record along a pass

`Tracks` follows the A set of one record through a program while other clients
may change addresses in `hidden`, and the calls keep the rest of the set inside
`keep`. With nothing hidden and `keep` being nonempty it says when a pass never
empties a record, also where a call raises and the pass ends there.
-/

namespace Solfleet

open Interaction Program

/-! ## Tracking a record -/

section Tracking

variable (D : LawfulDriver) (faults : Prop) (probes : Set (List ClusterStatus)) (r : String)
  (hidden : Finset String) (keep : Finset String → Prop)

/-- The record as far as it is not hidden. -/
def LawfulDriver.visible (s : D.State) : Finset String := D.members s r \ hidden

/-- A program ended with `after` in the record, or a fault ended it. -/
def Ended {α : Type} (after : Finset String) (result : Except Exn α) (s : D.State) : Prop :=
  match result with
  | .ok _ => D.visible r hidden s = after \ hidden
  | .error _ => faults

/-- Started with `before` in the record, `p` makes only calls that leave the
visible record in `keep`, and unless a fault ended it leaves `after`. -/
def Tracks {α : Type} (p : DnsProgram α) (before after : Finset String) : Prop :=
  ∀ s, D.visible r hidden s = before \ hidden →
    Within (D.Answers faults probes)
      (fun a b => D.visible r hidden a = D.visible r hidden b)
      (fun _ t => keep (D.visible r hidden t))
      (Ended D faults r hidden after) p s

variable {D faults probes r hidden keep}
variable {α β : Type} {before mid after : Finset String}

theorem tracks_pure (value : α) : Tracks D faults probes r hidden keep (pure value) before before :=
  fun _ hs _ ht => ht.symm.trans hs

theorem Tracks.bind {p : DnsProgram α} {f : α → DnsProgram β}
    (hp : Tracks D faults probes r hidden keep p before mid)
    (hf : ∀ a, Tracks D faults probes r hidden keep (f a) mid after) :
    Tracks D faults probes r hidden keep (p >>= f) before after := by
  intro s hs
  refine Within.bind (fun _ t => D.visible r hidden t = mid \ hidden) ?_
    ((hp s hs).mono ?_) fun a t ht => hf a t ht
  · exact fun _ => rfl
  · intro result t h
    cases result <;> exact h

/-- One driver call, given what it does to the visible record. -/
theorem tracks_driverCall {c : DriverCall} (hkeep : keep (before \ hidden))
    (hkeep' : keep (after \ hidden))
    (hcall : ∀ s, D.visible r hidden s = before \ hidden →
      D.visible r hidden (D.perform s c).2 = after \ hidden) :
    Tracks D faults probes r hidden keep (driverCall c) before after := by
  intro s hs
  refine @Within.perform dnsSignature _ _ _ _ _ (.driver c)
    (fun t => D.visible r hidden t = before \ hidden) _ _ hs ?_ ?_
  · exact fun _ _ ha hab => hab.symm.trans ha
  intro t answer u ht hu
  cases hu with
  | driver _ c =>
      have hafter := hcall t ht
      exact ⟨hafter.symm ▸ hkeep', fun v hv => hv.symm.trans hafter⟩
  | refused _ op e h => exact ⟨ht.symm ▸ hkeep, fun _ _ => h⟩
  | lost _ c e h => exact ⟨(hcall t ht).symm ▸ hkeep', fun _ _ => h⟩

theorem tracks_other {op : DnsEffect} (hop : ∀ c, op ≠ .driver c) (hkeep : keep (before \ hidden)) :
    Tracks D faults probes r hidden keep (perform (S := dnsSignature) op) before before := by
  intro s hs
  refine Within.perform (fun t => D.visible r hidden t = before \ hidden) hs ?_ ?_
  · exact fun _ _ ha hab => hab.symm.trans ha
  intro t answer u ht hu
  cases hu with
  | driver _ c | lost _ c => exact absurd rfl (hop c)
  | probe | audit | sleep | onRound => exact ⟨ht.symm ▸ hkeep, fun v hv => hv.symm.trans ht⟩
  | refused _ op e h => exact ⟨ht.symm ▸ hkeep, fun _ _ => h⟩

/-- A read of the tracked record gives its visible part. -/
theorem tracks_listMembers {record : String} {f : List String → DnsProgram β}
    (hkeep : keep (before \ hidden))
    (hf : ∀ listed : List String,
      (record = r → listed.toFinset \ hidden = before \ hidden) →
        Tracks D faults probes r hidden keep (f listed) before after) :
    Tracks D faults probes r hidden keep (driverCall (.listMembers record) >>= f) before after := by
  intro s hs
  refine Within.bind (fun (listed : List String) t =>
    (record = r → listed.toFinset \ hidden = before \ hidden) ∧
      D.visible r hidden t = before \ hidden) ?_ ?_ fun listed t ht => hf listed ht.1 t ht.2
  · exact fun _ => rfl
  refine @Within.perform dnsSignature _ _ _ _ _ (.driver (.listMembers record))
    (fun t => D.visible r hidden t = before \ hidden) _ _ hs ?_ ?_
  · exact fun _ _ ha hab => hab.symm.trans ha
  intro t answer u ht hu
  cases hu with
  | driver _ c =>
      refine ⟨ht.symm ▸ hkeep, fun v hv => ⟨?_, hv.symm.trans ht⟩⟩
      rintro rfl
      exact ht
  | refused _ op e h => exact ⟨ht.symm ▸ hkeep, fun _ _ => h⟩
  | lost _ c e h => exact ⟨ht.symm ▸ hkeep, fun _ _ => h⟩

/-- What a probe finds is one of the admitted results. -/
theorem tracks_probeFleet {f : List ClusterStatus → DnsProgram β} (hkeep : keep (before \ hidden))
    (hf : ∀ clusters ∈ probes, Tracks D faults probes r hidden keep (f clusters) before after) :
    Tracks D faults probes r hidden keep (probeFleet >>= f) before after := by
  intro s hs
  refine Within.bind (fun (clusters : List ClusterStatus) t =>
    clusters ∈ probes ∧ D.visible r hidden t = before \ hidden) ?_ ?_
    fun clusters t ht => hf clusters ht.1 t ht.2
  · exact fun _ => rfl
  refine @Within.perform dnsSignature _ _ _ _ _ .probe
    (fun t => D.visible r hidden t = before \ hidden) _ _ hs ?_ ?_
  · exact fun _ _ ha hab => hab.symm.trans ha
  intro t answer u ht hu
  cases hu with
  | probe _ found => exact ⟨ht.symm ▸ hkeep, fun v hv => ⟨found, hv.symm.trans ht⟩⟩
  | refused _ op e h => exact ⟨ht.symm ▸ hkeep, fun _ _ => h⟩

theorem tracks_recordAudit {audit : Bool} {event : AuditEvent} (hkeep : keep (before \ hidden)) :
    Tracks D faults probes r hidden keep (recordAudit audit event) before before := by
  cases audit with
  | false => exact tracks_pure ()
  | true => exact tracks_other (fun _ h => by cases h) hkeep

theorem tracks_each {xs : List β} {body : β → DnsProgram α}
    (h : ∀ x ∈ xs, Tracks D faults probes r hidden keep (body x) before before) :
    Tracks D faults probes r hidden keep (each xs body) before before := by
  induction xs with
  | nil => exact tracks_pure []
  | cons x xs ih =>
      refine (h x (by simp)).bind fun _ => ?_
      exact (ih fun y hy => h y (by simp [hy])).bind fun _ => tracks_pure _

theorem Tracks.congr {p : DnsProgram α} {before' after' : Finset String}
    (hp : Tracks D faults probes r hidden keep p before after)
    (hbefore : before \ hidden = before' \ hidden) (hafter : after \ hidden = after' \ hidden) :
    Tracks D faults probes r hidden keep p before' after' := by
  intro s hs
  refine (hp s (hs.trans hbefore.symm)).mono fun result t h => ?_
  cases result with
  | ok _ => exact h.trans hafter
  | error _ => exact h

/-! ## The calls of a turn -/

theorem tracks_frame {c : DriverCall} (hkeep : keep (before \ hidden))
    (hc : ∀ ip, ¬ DnsEffect.Changes r ip (.driver c)) :
    Tracks D faults probes r hidden keep (driverCall c) before before := by
  refine tracks_driverCall hkeep hkeep fun s hs => hs ▸ ?_
  ext ip
  simp only [LawfulDriver.visible, Finset.mem_sdiff, D.members_perform,
    LawfulDriver.mem_effect_iff (hc ip)]

variable (mono : ∀ A B : Finset String, A ⊆ B → keep A → keep B)

include mono

theorem tracks_removals {ips : List String} (hkeep : keep ((before \ ips.toFinset) \ hidden)) :
    Tracks D faults probes r hidden keep (each ips fun ip => driverCall (.removeMember r ip))
      before (before \ ips.toFinset) := by
  induction ips generalizing before with
  | nil =>
      rw [List.toFinset_nil, Finset.sdiff_empty]
      exact tracks_pure []
  | cons ip ips ih =>
      have hsplit : before \ (ip :: ips).toFinset = before.erase ip \ ips.toFinset := by
        rw [List.toFinset_cons, Finset.sdiff_insert, Finset.erase_sdiff_comm]
      rw [hsplit] at hkeep ⊢
      have hmid : keep (before.erase ip \ hidden) :=
        mono _ _ (Finset.sdiff_subset_sdiff Finset.sdiff_subset le_rfl) hkeep
      have hfull : keep (before \ hidden) :=
        mono _ _ (Finset.sdiff_subset_sdiff (Finset.erase_subset _ _) le_rfl) hmid
      refine (tracks_driverCall hfull hmid fun s hs => ?_).bind fun _ =>
        (ih hkeep).bind fun _ => tracks_pure _
      simp only [LawfulDriver.visible] at hs ⊢
      rw [D.members_perform, LawfulDriver.effect, Function.update_self, Finset.erase_sdiff_comm,
        hs, Finset.erase_sdiff_comm]

theorem tracks_additions {ips : List String} {ttl : Int} (hkeep : keep (before \ hidden)) :
    Tracks D faults probes r hidden keep (each ips fun ip => driverCall (.addMember r ip ttl))
      before (before ∪ ips.toFinset) := by
  induction ips generalizing before with
  | nil =>
      rw [List.toFinset_nil, Finset.union_empty]
      exact tracks_pure []
  | cons ip ips ih =>
      have hsplit : before ∪ (ip :: ips).toFinset = insert ip before ∪ ips.toFinset := by
        rw [List.toFinset_cons, Finset.union_insert, Finset.insert_union]
      rw [hsplit]
      have hmid : keep (insert ip before \ hidden) :=
        mono _ _ (Finset.sdiff_subset_sdiff (Finset.subset_insert _ _) le_rfl) hkeep
      refine (tracks_driverCall hkeep hmid fun s hs => ?_).bind fun _ =>
        (ih hmid).bind fun _ => tracks_pure _
      simp only [LawfulDriver.visible] at hs ⊢
      rw [D.members_perform, LawfulDriver.effect, Function.update_self, Finset.insert_eq,
        Finset.union_sdiff_distrib, hs, ← Finset.union_sdiff_distrib, ← Finset.insert_eq]

theorem tracks_reconcilePool {audit : Bool} {pool : Pool} {toRemove toAdd : List String}
    (hr : pool.record = r) (hkeep : keep ((before \ toRemove.toFinset) \ hidden)) :
    Tracks D faults probes r hidden keep (reconcilePool audit pool toRemove toAdd)
      before ((before \ toRemove.toFinset) ∪ toAdd.toFinset) := by
  subst hr
  have hfull : keep (before \ hidden) :=
    mono _ _ (Finset.sdiff_subset_sdiff Finset.sdiff_subset le_rfl) hkeep
  refine (tracks_frame hfull fun _ => id).bind fun _ => ?_
  refine (tracks_removals mono hkeep).bind fun _ => ?_
  refine (tracks_additions mono hkeep).bind fun _ => tracks_recordAudit ?_
  exact mono _ _ (Finset.sdiff_subset_sdiff Finset.subset_union_left le_rfl) hkeep

omit mono in
theorem tracks_reconcilePool_of_ne {audit : Bool} {pool : Pool} {toRemove toAdd : List String}
    (hr : pool.record ≠ r) (hkeep : keep (before \ hidden)) :
    Tracks D faults probes r hidden keep (reconcilePool audit pool toRemove toAdd)
      before before := by
  refine (tracks_frame hkeep fun _ => id).bind fun _ => ?_
  have hremove : ∀ ip x, ¬ DnsEffect.Changes r x (.driver (.removeMember pool.record ip)) :=
    fun _ _ h => hr h.1
  have hadd : ∀ ip x, ¬ DnsEffect.Changes r x (.driver (.addMember pool.record ip pool.ttl)) :=
    fun _ _ h => hr h.1
  refine Tracks.bind (tracks_each fun ip _ => tracks_frame hkeep ?_) fun _ => ?_
  · exact hremove ip
  refine Tracks.bind (tracks_each fun ip _ => tracks_frame hkeep ?_) fun _ => ?_
  · exact hadd ip
  exact tracks_recordAudit hkeep

/-! ## A turn and a pass -/

section Pass

variable (a : AcceptedFleet) {clusters : List ClusterStatus} {audit : Bool}

/-- What a pool's turn makes of the record `r`. -/
def recordTurn (fleet : Fleet) (clusters : List ClusterStatus) (r : String)
    (current : Finset String) (pool : Pool) : Finset String :=
  if pool.record = r then
    Reconcile.target current (poolHosts fleet pool) (poolDesired fleet clusters pool)
  else current

/-- Taking the record through the turns, whenever a turn of its own goes ahead, what
is left after the removals satisfies `keep`. -/
def RemovalsKeep (keep : Finset String → Prop) (fleet : Fleet) (clusters : List ClusterStatus)
    (r : String) : List Pool → Finset String → Prop
  | [], _ => True
  | pool :: pools, current =>
      (pool.record = r → poolDesired fleet clusters pool ≠ ∅ →
        keep (Reconcile.survivors current (poolHosts fleet pool)
          (poolDesired fleet clusters pool))) ∧
      RemovalsKeep keep fleet clusters r pools (recordTurn fleet clusters r current pool)

omit mono in
/-- A turn on another record. -/
theorem tracks_applyTurn_of_ne {pool : Pool} {hosts desired current : Finset String}
    (hr : pool.record ≠ r) (hsub : desired ⊆ hosts) (hkeep : keep (before \ hidden)) :
    Tracks D faults probes r hidden keep (applyTurn audit false pool hosts desired current)
      before before := by
  rw [applyTurn_eq hsub]
  split
  · exact tracks_recordAudit hkeep
  split
  · exact tracks_pure ()
  · exact tracks_reconcilePool_of_ne hr hkeep

/-- A turn on the record, from any reading that agrees with it outside `hidden`. -/
theorem tracks_applyTurn {pool : Pool} {hosts desired current : Finset String}
    (hr : pool.record = r) (hsub : desired ⊆ hosts) (hkeep : keep (before \ hidden))
    (hread : current \ hidden = before \ hidden)
    (hturn : desired ≠ ∅ → keep (Reconcile.survivors before hosts desired \ hidden)) :
    Tracks D faults probes r hidden keep (applyTurn audit false pool hosts desired current)
      before (Reconcile.target before hosts desired) := by
  have hcurrent : Tracks D faults probes r hidden keep
      (applyTurn audit false pool hosts desired current) current
      (Reconcile.target current hosts desired) := by
    rw [← hread] at hkeep
    rw [applyTurn_eq hsub]
    by_cases hne : desired = ∅
    · rw [if_pos hne, hne, Reconcile.target_empty]
      exact tracks_recordAudit hkeep
    rw [if_neg hne]
    split
    · rename_i hidle
      rw [hidle.resolve_right Bool.false_ne_true]
      exact tracks_pure ()
    · have hleft : keep ((current \ (sorted (Reconcile.toRemove current hosts
          desired)).toFinset) \ hidden) := by
        rw [toFinset_sorted, Reconcile.sdiff_toRemove, Reconcile.survivors_sdiff_congr hread]
        exact hturn hne
      have hdone : Tracks D faults probes r hidden keep
          (reconcilePool audit pool _ (sorted (Reconcile.toAdd current desired))) current _ :=
        tracks_reconcilePool mono hr hleft
      rwa [toFinset_sorted, toFinset_sorted, Reconcile.sdiff_toRemove_union_toAdd hsub,
        ← Reconcile.target_of_ne hne] at hdone
  exact hcurrent.congr hread (Reconcile.target_sdiff_congr hread)

omit mono in
theorem removalsKeep_of_forall (h : ∀ left, keep left) (fleet : Fleet) (pools : List Pool)
    (current : Finset String) : RemovalsKeep keep fleet clusters r pools current := by
  induction pools generalizing current with
  | nil => trivial
  | cons pool pools ih => exact ⟨fun _ _ => h _, ih _⟩

theorem tracks_watchPool {pool : Pool} (hp : pool ∈ a.fleet.pools) (hkeep : keep (before \ hidden))
    (hturn : pool.record = r → poolDesired a.fleet clusters pool ≠ ∅ →
      keep (Reconcile.survivors before (poolHosts a.fleet pool)
        (poolDesired a.fleet clusters pool) \ hidden)) :
    Tracks D faults probes r hidden keep
      (watchPool (nodeIps a.fleet) (statusByName clusters) audit false pool)
      before (recordTurn a.fleet clusters r before pool) := by
  rw [a.watchPool_eq clusters audit false hp]
  refine tracks_listMembers hkeep fun listed hlisted => ?_
  have hsub := poolDesired_subset a.fleet clusters pool
  unfold recordTurn
  by_cases hr : pool.record = r
  · rw [if_pos hr]
    exact (tracks_applyTurn mono hr hsub hkeep (hlisted hr) (hturn hr)).bind fun _ =>
      tracks_pure _
  · rw [if_neg hr]
    exact (tracks_applyTurn_of_ne hr hsub hkeep).bind fun _ => tracks_pure _

/-- After a turn the record is kept as well. -/
theorem keep_recordTurn {pool : Pool} (hkeep : keep (before \ hidden))
    (hturn : pool.record = r → poolDesired a.fleet clusters pool ≠ ∅ →
      keep (Reconcile.survivors before (poolHosts a.fleet pool)
        (poolDesired a.fleet clusters pool) \ hidden)) :
    keep (recordTurn a.fleet clusters r before pool \ hidden) := by
  unfold recordTurn
  split
  · rename_i hr
    by_cases hne : poolDesired a.fleet clusters pool = ∅
    · rwa [hne, Reconcile.target_empty]
    · refine mono _ _ (Finset.sdiff_subset_sdiff ?_ le_rfl) (hturn hr hne)
      exact Reconcile.survivors_subset_target
  · exact hkeep

theorem tracks_each_watchPool {pools : List Pool} (hpools : ∀ pool ∈ pools, pool ∈ a.fleet.pools)
    (hkeep : keep (before \ hidden))
    (hpass : RemovalsKeep (fun left => keep (left \ hidden)) a.fleet clusters r pools before) :
    Tracks D faults probes r hidden keep
      (each pools (watchPool (nodeIps a.fleet) (statusByName clusters) audit false))
      before (pools.foldl (recordTurn a.fleet clusters r) before) := by
  induction pools generalizing before with
  | nil => exact tracks_pure []
  | cons pool pools ih =>
      obtain ⟨hturn, hrest⟩ := hpass
      refine (tracks_watchPool mono a (hpools pool (by simp)) hkeep hturn).bind fun _ => ?_
      refine (ih (fun q hq => hpools q (by simp [hq]))
        (keep_recordTurn mono a hkeep hturn) hrest).bind fun _ => tracks_pure _

theorem tracks_watchOnce (hkeep : keep (before \ hidden))
    (hpass : RemovalsKeep (fun left => keep (left \ hidden)) a.fleet clusters r
      a.fleet.pools before) :
    Tracks D faults {clusters} r hidden keep (watchOnce a.fleet audit false)
      before (a.fleet.pools.foldl (recordTurn a.fleet clusters r) before) := by
  unfold watchOnce
  by_cases hpools : a.fleet.pools = []
  · rw [if_pos hpools, hpools]
    exact tracks_pure _
  rw [if_neg hpools]
  refine tracks_probeFleet hkeep fun found hfound => ?_
  rw [Set.mem_singleton_iff.mp hfound]
  exact (tracks_each_watchPool mono a (fun _ h => h) hkeep hpass).bind fun _ => tracks_pure _

end Pass

end Tracking

/-! ## Reaching the state behind a turn -/

section Reaching

variable {D : LawfulDriver} {clusters : List ClusterStatus} {α β : Type}

theorem Leaves.completes (faults : Prop) {p : DnsProgram α} {s : D.State} {value : α} {w : DnsView}
    (h : Leaves D clusters p s value w) :
    ∃ t, Reaches (D.Answers faults {clusters}) (p, s) (.done (.ok value), t) ∧ D.view t = w := by
  have hagree : ∀ op u, D.Answers faults {clusters} u op (D.handler clusters op u).1
      (D.handler clusters op u).2 := D.handler_answers (Set.mem_singleton clusters)
  have hexec := reaches_exec hagree p s
  rw [h.result] at hexec
  exact ⟨_, hexec, h.view⟩

/-- A completed part of a program is passed on the way to what follows. -/
theorem Leaves.reaches {faults : Prop} {p : DnsProgram α} {f : α → DnsProgram β} {s : D.State}
    {value : α} {w : DnsView} (h : Leaves D clusters p s value w)
    {goal : DnsProgram β × D.State → Prop}
    (hrest : ∀ t, D.view t = w →
      ∃ c, Reaches (D.Answers faults {clusters}) (f value, t) c ∧ goal c) :
    ∃ c, Reaches (D.Answers faults {clusters}) (p >>= f, s) c ∧ goal c := by
  obtain ⟨t, hreach, hview⟩ := h.completes faults
  obtain ⟨c, hc, hgoal⟩ := hrest t hview
  exact ⟨c, (hreach.bind f).trans hc, hgoal⟩

theorem turn_members (fleet : Fleet) (v : DnsView) (pool : Pool) (r : String) :
    (v.turn fleet clusters pool).members r =
      recordTurn fleet clusters r (v.members r) pool := by
  unfold recordTurn
  by_cases hr : pool.record = r
  · subst hr
    rw [if_pos rfl, DnsView.turn_members_self]
    rfl
  · rw [if_neg hr, DnsView.turn_members_of_ne (Ne.symm hr)]

theorem foldl_turn_members (fleet : Fleet) (v : DnsView) (pools : List Pool) (r : String) :
    (pools.foldl (DnsView.turn fleet clusters) v).members r =
      pools.foldl (recordTurn fleet clusters r) (v.members r) := by
  induction pools generalizing v with
  | nil => rfl
  | cons pool pools ih => rw [List.foldl_cons, List.foldl_cons, ih, turn_members]

/-- A turn that removes every address of its record is seen with the record empty. -/
theorem reaches_emptied {faults : Prop} (a : AcceptedFleet) (audit : Bool) {pool : Pool}
    {s : D.State} (hp : pool ∈ a.fleet.pools) (hne : (D.members s pool.record).Nonempty)
    (hdesired : poolDesired a.fleet clusters pool ≠ ∅)
    (hempty : Reconcile.survivors (D.members s pool.record) (poolHosts a.fleet pool)
      (poolDesired a.fleet clusters pool) = ∅) :
    ∃ c, Reaches (D.Answers faults {clusters})
      (watchPool (nodeIps a.fleet) (statusByName clusters) audit false pool, s) c ∧
        D.members c.2 pool.record = ∅ := by
  have hsub := poolDesired_subset a.fleet clusters pool
  have hbusy : Reconcile.target (D.members s pool.record) (poolHosts a.fleet pool)
      (poolDesired a.fleet clusters pool) ≠ D.members s pool.record := by
    rw [ne_eq, Reconcile.target_eq_self_iff hdesired hsub]
    rintro ⟨hremove, -⟩
    rw [← Reconcile.sdiff_toRemove, hremove, Finset.sdiff_empty] at hempty
    exact hne.ne_empty hempty
  rw [a.watchPool_eq clusters audit false hp]
  refine (leaves_driverCall (.listMembers pool.record)).reaches fun t ht => ?_
  have hlisted : (D.perform s (.listMembers pool.record)).1.toFinset =
      D.members s pool.record := rfl
  rw [applyTurn_eq hsub, if_neg hdesired, hlisted, if_neg (not_or.mpr ⟨hbusy, Bool.false_ne_true⟩)]
  simp only [reconcilePool, bind_assoc]
  refine (leaves_driverCall (.ensureMarker pool.record)).reaches fun u hu => ?_
  refine (leaves_removals pool.record _ hu).reaches fun x hx => ⟨_, .refl _, ?_⟩
  have hx' := congrFun (congrArg DnsView.members hx) pool.record
  have ht' := congrFun (congrArg DnsView.members ht) pool.record
  simp only [DnsDriver.perform, D.view_members, D.members_ensure, Function.update_self,
    toFinset_sorted] at hx' ht'
  rw [hx', ht', Reconcile.sdiff_toRemove, hempty]

theorem recordTurn_nonempty {fleet : Fleet} {r : String} {current : Finset String} (pool : Pool)
    (hne : current.Nonempty) : (recordTurn fleet clusters r current pool).Nonempty := by
  unfold recordTurn
  split
  · exact Reconcile.target_nonempty hne
  · exact hne

/-- The turns reach the first point where the removals leave nothing. -/
theorem turns_reach_emptied {faults : Prop} (a : AcceptedFleet) (audit : Bool) {r : String}
    {pools : List Pool} (hpools : ∀ pool ∈ pools, pool ∈ a.fleet.pools) {s : D.State}
    (hne : (D.members s r).Nonempty)
    (hnot : ¬ RemovalsKeep Finset.Nonempty a.fleet clusters r pools (D.members s r)) :
    ∃ c, Reaches (D.Answers faults {clusters})
      (each pools (watchPool (nodeIps a.fleet) (statusByName clusters) audit false), s) c ∧
        D.members c.2 r = ∅ := by
  induction pools generalizing s with
  | nil => exact absurd trivial hnot
  | cons pool pools ih =>
      have hp := hpools pool (by simp)
      by_cases hturn : pool.record = r → poolDesired a.fleet clusters pool ≠ ∅ →
          (Reconcile.survivors (D.members s r) (poolHosts a.fleet pool)
            (poolDesired a.fleet clusters pool)).Nonempty
      · refine (leaves_watchPool a audit hp rfl).reaches fun t ht => ?_
        have hmembers : D.members t r = recordTurn a.fleet clusters r (D.members s r) pool := by
          rw [← D.view_members, ht, turn_members, D.view_members]
        have hrest : ¬ RemovalsKeep Finset.Nonempty a.fleet clusters r pools (D.members t r) :=
          fun h => hnot ⟨hturn, hmembers ▸ h⟩
        obtain ⟨c, hc, hgone⟩ := ih (fun q hq => hpools q (by simp [hq]))
          (hmembers ▸ recordTurn_nonempty pool hne) hrest
        exact ⟨_, hc.bind _, hgone⟩
      · simp only [not_forall, Finset.not_nonempty_iff_eq_empty] at hturn
        obtain ⟨rfl, hdesired, hempty⟩ := hturn
        obtain ⟨c, hc, hgone⟩ := reaches_emptied a audit hp hne hdesired hempty
        exact ⟨_, hc.bind _, hgone⟩

end Reaching

/-! ## When a pass never empties a record -/

/-- After every call of the pass, and wherever a call that raises ends it, the
record has an address. -/
def KeepsServing (D : DnsDriver) (a : AcceptedFleet) (clusters : List ClusterStatus)
    (audit dryRun : Bool) (r : String) (s : D.State) : Prop :=
  ∀ c, Reaches (D.Answers True {clusters}) (watchOnce a.fleet audit dryRun, s) c →
    (D.members c.2 r).Nonempty

section KeepsServing

variable {D : LawfulDriver} {a : AcceptedFleet} {clusters : List ClusterStatus} {audit : Bool}
  {r : String} {s : D.State}

theorem removalsKeep_of_keepsServing (hne : (D.members s r).Nonempty)
    (h : KeepsServing D a clusters audit false r s) :
    RemovalsKeep Finset.Nonempty a.fleet clusters r a.fleet.pools (D.members s r) := by
  by_contra hnot
  have hpools : a.fleet.pools ≠ [] := by
    rintro hnil
    exact hnot (hnil ▸ trivial)
  obtain ⟨c, hc, hgone⟩ : ∃ c, Reaches (D.Answers True {clusters})
      (watchOnce a.fleet audit false, s) c ∧ D.members c.2 r = ∅ := by
    rw [watchOnce, if_neg hpools]
    have hprobe : Leaves D clusters probeFleet s clusters (D.view s) := ⟨rfl, rfl⟩
    refine hprobe.reaches fun t ht => ?_
    have hmembers : D.members t = D.members s := congrArg DnsView.members ht
    rw [← hmembers] at hne hnot
    obtain ⟨c, hc, hgone⟩ := turns_reach_emptied a audit (fun _ h => h) hne hnot
    exact ⟨_, hc.bind _, hgone⟩
  have hlast := h c hc
  rw [hgone] at hlast
  exact Finset.not_nonempty_empty hlast

theorem keepsServing_of_removalsKeep (hne : (D.members s r).Nonempty)
    (h : RemovalsKeep Finset.Nonempty a.fleet clusters r a.fleet.pools (D.members s r)) :
    KeepsServing D a clusters audit false r s := by
  intro c hc
  have htracks : Tracks D True {clusters} r ∅ Finset.Nonempty (watchOnce a.fleet audit false)
      (D.members s r) _ :=
    tracks_watchOnce (fun _ _ => Finset.Nonempty.mono) a (by rwa [Finset.sdiff_empty])
      (by simpa only [Finset.sdiff_empty] using h)
  have hguarantee := ((htracks s rfl).reaches hc fun _ => rfl).2
  rcases Relation.ReflTransGen.cases_tail hguarantee with heq | ⟨_, -, hlast⟩
  · exact heq ▸ hne
  · rwa [LawfulDriver.visible, Finset.sdiff_empty] at hlast

/-- A dry run changes no record at all. -/
theorem keepsServing_dryRun (hne : (D.members s r).Nonempty) :
    KeepsServing D a clusters audit true r s := by
  intro c hc
  have hcalls : AllCalls (S := dnsSignature) (fun op => ∀ ip, ¬ DnsEffect.Changes r ip op)
      (watchOnce a.fleet audit true) :=
    allCalls_watchOnce a (fun _ => id) (fun _ _ => id) (fun _ _ _ => id)
      (fun h => absurd h (by decide)) (fun h => absurd h (by decide))
  have hsame : D.members c.2 r = D.members s r :=
    hcalls.reaches (R := fun b t => D.members t r = D.members b r) (fun _ => rfl)
      (fun _ _ _ hab hbc => hbc.trans hab)
      (fun _ _ _ _ hop hstep => Finset.ext fun ip => D.mem_iff_of_answers (hop ip) hstep) hc
  rwa [hsame]

theorem keepsServing_iff {dryRun : Bool} (hne : (D.members s r).Nonempty) :
    KeepsServing D a clusters audit dryRun r s ↔
      dryRun = true ∨
        RemovalsKeep Finset.Nonempty a.fleet clusters r a.fleet.pools (D.members s r) := by
  cases dryRun with
  | true => simp [keepsServing_dryRun hne]
  | false =>
      refine ⟨fun h => .inr (removalsKeep_of_keepsServing hne h), fun h => ?_⟩
      exact keepsServing_of_removalsKeep hne (h.resolve_left Bool.false_ne_true)

end KeepsServing

/-- A pass keeps a record served exactly when no executing turn on it begins by
removing every address the record then has. -/
theorem watchOnce_keepsServing_iff (D : LawfulDriver) (a : AcceptedFleet)
    (clusters : List ClusterStatus) (audit dryRun : Bool) (r : String) (s : D.State)
    (hne : (D.members s r).Nonempty) :
    KeepsServing D a clusters audit dryRun r s ↔
      dryRun = true ∨
        RemovalsKeep Finset.Nonempty a.fleet clusters r a.fleet.pools (D.members s r) :=
  keepsServing_iff hne

theorem watchOnce_keepsServing_pair :
    KeepsServing inMemoryDnsDriver pairFleet (probeWith ["b"]) false false "rpc.example.com"
        (pairState {"10.0.0.1", "10.0.0.2"}) ↔
      false = true ∨ RemovalsKeep Finset.Nonempty pairFleet.fleet (probeWith ["b"])
        "rpc.example.com" pairFleet.fleet.pools
        (inMemoryDnsDriver.members (pairState {"10.0.0.1", "10.0.0.2"}) "rpc.example.com") :=
  watchOnce_keepsServing_iff inMemoryDnsDriver pairFleet (probeWith ["b"]) false false
    "rpc.example.com" _ (by decide)

/-- The record holds `a`, which fails, and not yet `b`, which is healthy: the pass
removes `a` before it adds `b`. -/
theorem watchOnce_empties_pair :
    ¬ ∀ (D : LawfulDriver) (a : AcceptedFleet) (clusters : List ClusterStatus)
      (audit dryRun : Bool), ∀ r ∈ a.fleet.pools.map (·.record), ∀ s : D.State,
        (D.members s r).Nonempty → KeepsServing D a clusters audit dryRun r s := by
  intro h
  have hkeeps := removalsKeep_of_keepsServing (by decide) (h inMemoryDnsDriver pairFleet
    (probeWith ["b"]) false false "rpc.example.com" (by decide) (pairState {"10.0.0.1"})
    (by decide))
  have hleft : (Reconcile.survivors
      (inMemoryDnsDriver.members (pairState {"10.0.0.1"}) "rpc.example.com")
      (poolHosts pairFleet.fleet pairPool)
      (poolDesired pairFleet.fleet (probeWith ["b"]) pairPool)).Nonempty :=
    hkeeps.1 rfl (by decide)
  exact absurd hleft (by decide)

end Solfleet
