import Solfleet.Failover.Foreign
import Solfleet.Failover.Isolation
import Solfleet.Library.Expansion

/-! # Convergence of concurrent watchers

Several processes may run the failover loop at once, each reading a record and changing it in
separate driver calls. As long as their probes find the same, every single call moves its record
towards the same goal, and no call takes back what another did: one watcher that gets through is
enough, whatever becomes of the others.
-/

namespace Solfleet

open Interaction Program

/-! ## Moves of all records -/

/-- The record of every pool has moved some way towards the pool's goal. -/
def Towards (fleet : Fleet) (clusters : List ClusterStatus) (a b : String → Finset String) : Prop :=
  ∀ pool ∈ fleet.pools, Reconcile.Moves (poolHosts fleet pool) (poolDesired fleet clusters pool)
    (a pool.record) (b pool.record)

def PoolSettled (fleet : Fleet) (clusters : List ClusterStatus) (a : String → Finset String)
    (pool : Pool) : Prop :=
  Reconcile.Settled (poolHosts fleet pool) (poolDesired fleet clusters pool) (a pool.record)

section Towards

variable {fleet : Fleet} {clusters : List ClusterStatus} {a b c : String → Finset String}
  {pool : Pool} {ip : String}

theorem Towards.refl (a : String → Finset String) : Towards fleet clusters a a :=
  fun _ _ => Reconcile.Moves.refl

theorem Towards.trans (hab : Towards fleet clusters a b) (hbc : Towards fleet clusters b c) :
    Towards fleet clusters a c :=
  fun pool hp => (hab pool hp).trans (hbc pool hp)

theorem PoolSettled.towards (h : PoolSettled fleet clusters a pool) (hp : pool ∈ fleet.pools)
    (hab : Towards fleet clusters a b) : PoolSettled fleet clusters b pool :=
  h.moves (hab pool hp)

/-- A change of one record is a move of all of them when it is one of that record. -/
theorem towards_update (distinct : fleet.DistinctRecords) (hp : pool ∈ fleet.pools)
    {x : Finset String}
    (hmove : Reconcile.Moves (poolHosts fleet pool) (poolDesired fleet clusters pool)
      (a pool.record) x) :
    Towards fleet clusters a (Function.update a pool.record x) := by
  intro q hq
  by_cases hqp : q.record = pool.record
  · have heq : q = pool := List.inj_on_of_nodup_map distinct hq hp hqp
    subst heq
    rw [Function.update_self]
    exact hmove
  · rw [Function.update_of_ne hqp]
    exact Reconcile.Moves.refl

end Towards

/-! ## Carrying out the effects -/

/-- A way to carry out the effects of the loop: `members` is what a state says of the records.
From a sound state, whoever carries out an effect the loop may want steers the state towards the
goals, under interference that does so as well; and steering keeps it sound. -/
structure Conducts {T : Signature} {σ : Type} (sem : Semantics T Exn σ) (sound : σ → Prop)
    (steers : σ → σ → Prop) (members : σ → String → Finset String) (fleet : Fleet)
    (clusters : List ClusterStatus) (carry : (op : DnsEffect) → Program T Exn op.Answer) :
    Prop where
  refl : ∀ s, steers s s
  trans : ∀ s t u, steers s t → steers t u → steers s u
  lasts : ∀ s t, steers s t → sound s → sound t
  towards : ∀ s t, steers s t → Towards fleet clusters (members s) (members t)
  probe : ∀ s, sound s →
    Within sem steers steers (IfOk fun found _ => found = clusters) (carry .probe) s
  idle : ∀ op, (∀ c, op ≠ .driver c) → ∀ s, sound s →
    Within sem steers steers (IfOk fun _ _ => True) (carry op) s
  list : ∀ pool ∈ fleet.pools, ∀ s, sound s → Within sem steers steers
    (IfOk fun listed t => Reconcile.Moves (poolHosts fleet pool) (poolDesired fleet clusters pool)
      (List.toFinset listed) (members t pool.record))
    (carry (.driver (.listMembers pool.record))) s
  mark : ∀ pool ∈ fleet.pools, ∀ s, sound s → Within sem steers steers (IfOk fun _ _ => True)
    (carry (.driver (.ensureMarker pool.record))) s
  remove : ∀ pool ∈ fleet.pools, poolDesired fleet clusters pool ≠ ∅ →
    ∀ ip ∈ poolHosts fleet pool, ip ∉ poolDesired fleet clusters pool → ∀ s, sound s →
      Within sem steers steers (IfOk fun _ t => ip ∉ members t pool.record)
        (carry (.driver (.removeMember pool.record ip))) s
  add : ∀ pool ∈ fleet.pools, ∀ ip ∈ poolDesired fleet clusters pool, ∀ s, sound s →
    Within sem steers steers (IfOk fun _ t => ip ∈ members t pool.record)
      (carry (.driver (.addMember pool.record ip pool.ttl))) s

section Atomic

variable {D : LawfulDriver} {fleet : Fleet} {clusters : List ClusterStatus}

/-- A call that is answered at once moves the records as its effect does, and what it achieves
lasts. -/
theorem within_driverCall {c : DriverCall} {Q : c.Answer → (String → Finset String) → Prop}
    (hmove : ∀ a, Towards fleet clusters a (LawfulDriver.effect c a))
    (hdone : ∀ s : D.State, Q (D.perform s c).1 (LawfulDriver.effect c (D.members s)))
    (hstable : ∀ r a b, Towards fleet clusters a b → Q r a → Q r b) (s : D.State) :
    Within (D.Answers True {clusters})
      (fun s t => Towards fleet clusters (D.members s) (D.members t))
      (fun s t => Towards fleet clusters (D.members s) (D.members t))
      (IfOk fun r t => Q r (D.members t)) (driverCall c) s := by
  intro t _ answer u hu
  have hmove' := hmove (D.members t)
  rw [← D.members_perform] at hmove'
  cases hu with
  | driver =>
      refine ⟨hmove', fun v hv => hstable _ _ _ hv ?_⟩
      rw [D.members_perform]
      exact hdone t
  | refused => exact ⟨Towards.refl _, fun _ _ => trivial⟩
  | lost => exact ⟨hmove', fun _ _ => trivial⟩

/-- An effect that leaves the provider alone. -/
theorem within_idle {op : DnsEffect} (hop : ∀ c, op ≠ .driver c) (s : D.State) :
    Within (D.Answers True {clusters})
      (fun s t => Towards fleet clusters (D.members s) (D.members t))
      (fun s t => Towards fleet clusters (D.members s) (D.members t))
      (IfOk fun _ _ => True) (perform (S := dnsSignature) op) s := by
  refine Within.perform (fun _ => True) trivial (fun _ _ _ _ => trivial) fun t answer u _ hu => ?_
  have hsame : u = t := by
    rcases hu.state_cases with h | ⟨c, h, -⟩
    · exact h
    · exact absurd h (hop c)
  rw [hsame]
  refine ⟨Towards.refl _, fun v _ => ?_⟩
  cases answer with
  | ok a => trivial
  | error e => trivial

/-- A lawful driver whose calls are single steps carries out the loop. -/
theorem LawfulDriver.conducts (D : LawfulDriver) (distinct : fleet.DistinctRecords)
    (clusters : List ClusterStatus) :
    Conducts (D.Answers True {clusters}) (fun _ => True)
      (fun s t => Towards fleet clusters (D.members s) (D.members t)) D.members fleet clusters
      fun op => perform (S := dnsSignature) op where
  refl s := Towards.refl _
  trans _ _ _ := Towards.trans
  lasts _ _ _ _ := trivial
  towards _ _ h := h
  probe s _ := by
    intro t _ answer u hu
    cases hu with
    | probe _ found => exact ⟨Towards.refl _, fun v _ => found⟩
    | refused _ _ e => exact ⟨Towards.refl _, fun v _ => trivial⟩
  idle op hop s _ := within_idle hop s
  list pool hp s _ := by
    -- what was read is where the record set out from
    refine within_driverCall (c := .listMembers pool.record)
      (Q := fun listed a => Reconcile.Moves (poolHosts fleet pool)
        (poolDesired fleet clusters pool) (List.toFinset listed) (a pool.record))
      Towards.refl (fun s => ?_) (fun _ _ _ hab h => h.trans (hab pool hp)) s
    exact Reconcile.Moves.refl
  mark pool _ s _ :=
    within_driverCall (c := .ensureMarker pool.record) (Q := fun _ _ => True) Towards.refl
      (fun _ => trivial) (fun _ _ _ _ _ => trivial) s
  remove pool hp hne ip hm hd s _ := by
    refine within_driverCall (c := .removeMember pool.record ip)
      (Q := fun _ a => ip ∉ a pool.record)
      (fun a => towards_update distinct hp (Reconcile.moves_erase hne hm hd)) (fun s => ?_)
      (fun _ _ _ hab ha hb => ha ((hab pool hp).unwanted ip hm hd hb)) s
    rw [LawfulDriver.effect, Function.update_self]
    exact Finset.notMem_erase ip _
  add pool hp ip hd s _ := by
    refine within_driverCall (c := .addMember pool.record ip pool.ttl)
      (Q := fun _ a => ip ∈ a pool.record)
      (fun a => towards_update distinct hp
        (Reconcile.moves_insert hd (poolDesired_subset fleet clusters pool hd))) (fun s => ?_)
      (fun _ _ _ hab ha => (hab pool hp).kept ip hd ha) s
    rw [LawfulDriver.effect, Function.update_self]
    exact Finset.mem_insert_self ip _

end Atomic

/-! ## One watcher among others -/

section Guides

variable {T : Signature} {σ : Type} {sem : Semantics T Exn σ} {sound : σ → Prop}
  {steers : σ → σ → Prop} {members : σ → String → Finset String} {fleet : Fleet}
  {clusters : List ClusterStatus} {carry : (op : DnsEffect) → Program T Exn op.Answer} {s : σ}
  {α β : Type}

/-- From a sound state the watcher of `p`, whose surroundings also only steer records towards
their goals, does so itself, and what it returns satisfies `post`. -/
def Guides (sem : Semantics T Exn σ) (sound : σ → Prop) (steers : σ → σ → Prop)
    (carry : (op : DnsEffect) → Program T Exn op.Answer) (post : α → σ → Prop)
    (p : DnsProgram α) (s : σ) : Prop :=
  sound s → Within sem steers steers (IfOk fun a t => post a t ∧ sound t) (p.expand carry) s

theorem Guides.mono {post post' : α → σ → Prop} {p : DnsProgram α}
    (h : Guides sem sound steers carry post p s) (hpost : ∀ a t, post a t → post' a t) :
    Guides sem sound steers carry post' p s := by
  intro hs
  refine (h hs).mono fun r t hr => ?_
  cases r with
  | ok a => exact ⟨hpost a t hr.1, hr.2⟩
  | error e => trivial

variable (h : Conducts sem sound steers members fleet clusters carry)

include h

theorem Guides.bind {mid : α → σ → Prop} {post : β → σ → Prop} {p : DnsProgram α}
    {f : α → DnsProgram β} (hp : Guides sem sound steers carry mid p s)
    (hf : ∀ a t, mid a t → Guides sem sound steers carry post (f a) t) :
    Guides sem sound steers carry post (p >>= f) s := by
  intro hs
  rw [expand_bind]
  exact Within.bind_ok h.refl (hp hs) fun a t ht => hf a t ht.1 ht.2

theorem guides_pure {post : α → σ → Prop} {a : α} (hpost : ∀ t, steers s t → post a t) :
    Guides sem sound steers carry post (pure a) s :=
  fun hs t ht => ⟨hpost t ht, h.lasts s t ht hs⟩

omit h in
theorem Guides.keep {Q : σ → Prop} {post : α → σ → Prop} {p : DnsProgram α}
    (hp : Guides sem sound steers carry post p s) (hstable : ∀ a b, steers a b → Q a → Q b)
    (hq : Q s) : Guides sem sound steers carry (fun a t => post a t ∧ Q t) p s := by
  intro hs
  refine (Within.keep_ok (hp hs) hstable hstable hq).mono fun r t hr => ?_
  cases r with
  | ok a => exact ⟨⟨hr.1.1, hr.2⟩, hr.1.2⟩
  | error e => trivial

theorem guides_perform {op : DnsEffect} {post : op.Answer → σ → Prop}
    (hop : sound s → Within sem steers steers (IfOk post) (carry op) s) :
    Guides sem sound steers carry post (perform (S := dnsSignature) op) s := by
  intro hs
  rw [expand_perform]
  exact Within.keep_ok (hop hs) h.lasts h.lasts hs

theorem guides_driverCall {c : DriverCall} {post : c.Answer → σ → Prop}
    (hop : sound s → Within sem steers steers (IfOk post) (carry (.driver c)) s) :
    Guides sem sound steers carry post (driverCall c) s := by
  intro hs
  rw [driverCall, expand_perform]
  exact Within.keep_ok (hop hs) h.lasts h.lasts hs

theorem guides_recordAudit (audit : Bool) (event : AuditEvent) :
    Guides sem sound steers carry (fun _ _ => True) (recordAudit audit event) s := by
  cases audit with
  | false => exact guides_pure h fun _ _ => trivial
  | true => exact guides_perform h (h.idle (.audit event) (fun c hc => by cases hc) s)

theorem guides_each {Q : β → σ → Prop} {xs : List β} {body : β → DnsProgram α}
    (hstable : ∀ x ∈ xs, ∀ a b, steers a b → Q x a → Q x b)
    (hbody : ∀ x ∈ xs, ∀ t, Guides sem sound steers carry (fun _ u => Q x u) (body x) t) :
    Guides sem sound steers carry (fun _ t => ∀ x ∈ xs, Q x t) (each xs body) s := by
  intro hs
  have hin : ∀ x a b, steers a b → (x ∈ xs → Q x a) → (x ∈ xs → Q x b) :=
    fun x a b hab hq hx => hstable x hx a b hab (hq hx)
  have hloop : Within sem steers steers (IfOk fun _ t => ∀ x ∈ xs, x ∈ xs → Q x t)
      (each xs fun x => (body x).expand carry) s := by
    refine Within.each_ok h.refl h.lasts h.lasts hin hin (fun x hx t ht => ?_) hs
    refine (hbody x hx t ht).mono fun r u hr => ?_
    cases r with
    | ok a => exact fun _ => hr.1
    | error e => trivial
  rw [expand_each]
  refine (hloop.keep_ok h.lasts h.lasts hs).mono fun r t hr => ?_
  cases r with
  | ok as => exact ⟨fun x hx => hr.1 x hx hx, hr.2⟩
  | error e => trivial

end Guides

/-! ## Turns and passes -/

section Pass

variable {T : Signature} {σ : Type} {sem : Semantics T Exn σ} {sound : σ → Prop}
  {steers : σ → σ → Prop} {members : σ → String → Finset String} {a : AcceptedFleet}
  {clusters : List ClusterStatus} {carry : (op : DnsEffect) → Program T Exn op.Answer} {s : σ}
  {pool : Pool} {current : Finset String} {ips : List String}

/-- Unwanted addresses that were removed are gone for good. -/
theorem guides_removals (h : Conducts sem sound steers members a.fleet clusters carry)
    (hp : pool ∈ a.fleet.pools) (hne : poolDesired a.fleet clusters pool ≠ ∅)
    (hips : ∀ ip ∈ ips, ip ∈ poolHosts a.fleet pool ∧ ip ∉ poolDesired a.fleet clusters pool) :
    Guides sem sound steers carry (fun _ t => ∀ ip ∈ ips, ip ∉ members t pool.record)
      (each ips fun ip => driverCall (.removeMember pool.record ip)) s := by
  refine guides_each h (fun ip hip b c hbc hb hc => ?_) fun ip hip t => ?_
  · have hown := hips ip hip
    exact hb ((h.towards b c hbc pool hp).unwanted ip hown.1 hown.2 hc)
  · have hown := hips ip hip
    exact guides_perform h (h.remove pool hp hne ip hown.1 hown.2 t)

/-- Desired addresses that were added are there to stay. -/
theorem guides_additions (h : Conducts sem sound steers members a.fleet clusters carry)
    (hp : pool ∈ a.fleet.pools) (hips : ∀ ip ∈ ips, ip ∈ poolDesired a.fleet clusters pool) :
    Guides sem sound steers carry (fun _ t => ∀ ip ∈ ips, ip ∈ members t pool.record)
      (each ips fun ip => driverCall (.addMember pool.record ip pool.ttl)) s := by
  refine guides_each h (fun ip hip b c hbc hb => ?_) fun ip hip t => ?_
  · exact (h.towards b c hbc pool hp).kept ip (hips ip hip) hb
  · exact guides_perform h (h.add pool hp ip (hips ip hip) t)

/-- `current` is what the watcher read, and the record has only moved on since. -/
theorem guides_reconcilePool (h : Conducts sem sound steers members a.fleet clusters carry)
    (audit : Bool) (hp : pool ∈ a.fleet.pools) (hne : poolDesired a.fleet clusters pool ≠ ∅)
    (hmoves : Reconcile.Moves (poolHosts a.fleet pool) (poolDesired a.fleet clusters pool) current
      (members s pool.record)) :
    Guides sem sound steers carry (fun _ t => PoolSettled a.fleet clusters (members t) pool)
      (reconcilePool audit pool
        (sorted (Reconcile.toRemove current (poolHosts a.fleet pool)
          (poolDesired a.fleet clusters pool)))
        (sorted (Reconcile.toAdd current (poolDesired a.fleet clusters pool)))) s := by
  let removed := Reconcile.toRemove current (poolHosts a.fleet pool)
    (poolDesired a.fleet clusters pool)
  let added := Reconcile.toAdd current (poolDesired a.fleet clusters pool)
  have hremoved : ∀ ip ∈ sorted removed,
      ip ∈ poolHosts a.fleet pool ∧ ip ∉ poolDesired a.fleet clusters pool := by
    intro ip hip
    have hmem := Finset.mem_sdiff.mp (mem_sorted.mp hip)
    exact ⟨(Finset.mem_inter.mp hmem.1).2, hmem.2⟩
  have hadded : ∀ ip ∈ sorted added, ip ∈ poolDesired a.fleet clusters pool := fun ip hip =>
    (Finset.mem_sdiff.mp (mem_sorted.mp hip)).1
  have hstart : ∀ b c, steers b c →
      Reconcile.Moves (poolHosts a.fleet pool) (poolDesired a.fleet clusters pool) current
        (members b pool.record) →
      Reconcile.Moves (poolHosts a.fleet pool) (poolDesired a.fleet clusters pool) current
        (members c pool.record) := fun b c hbc hb => hb.trans (h.towards b c hbc pool hp)
  have hgone : ∀ b c, steers b c → (∀ ip ∈ sorted removed, ip ∉ members b pool.record) →
      ∀ ip ∈ sorted removed, ip ∉ members c pool.record := by
    intro b c hbc hb ip hip hc
    have hown := hremoved ip hip
    exact hb ip hip ((h.towards b c hbc pool hp).unwanted ip hown.1 hown.2 hc)
  have hmark : Guides sem sound steers carry (fun _ _ => True)
      (driverCall (.ensureMarker pool.record)) s := guides_driverCall h (h.mark pool hp s)
  refine (hmark.keep hstart hmoves).bind h fun _ t ht => ?_
  refine ((guides_removals h hp hne hremoved).keep hstart ht.2).bind h fun _ u hu => ?_
  have hadds := (guides_additions (s := u) h hp hadded).keep hstart hu.2
  refine (hadds.keep hgone hu.1).bind h fun _ v hv => ?_
  have hdone : PoolSettled a.fleet clusters (members v) pool :=
    hv.1.2.settled (fun ip hip => hv.2 ip (mem_sorted.mpr hip))
      fun ip hip => hv.1.1 ip (mem_sorted.mpr hip)
  have haudit : Guides sem sound steers carry (fun _ _ => True) (recordAudit audit
      ⟨"dns_watch", pool.cluster, pool.record, .execute, true⟩) v := guides_recordAudit h _ _
  have hkept := haudit.keep (fun b c hbc hb => PoolSettled.towards hb hp (h.towards b c hbc)) hdone
  exact hkept.mono fun _ _ hr => hr.2

theorem guides_applyTurn (h : Conducts sem sound steers members a.fleet clusters carry)
    (audit dryRun : Bool) (hp : pool ∈ a.fleet.pools)
    (hmoves : Reconcile.Moves (poolHosts a.fleet pool) (poolDesired a.fleet clusters pool) current
      (members s pool.record)) :
    Guides sem sound steers carry
      (fun _ t => dryRun = false → PoolSettled a.fleet clusters (members t) pool)
      (applyTurn audit dryRun pool (poolHosts a.fleet pool) (poolDesired a.fleet clusters pool)
        current) s := by
  rw [applyTurn_eq (poolDesired_subset a.fleet clusters pool)]
  split
  case isTrue hempty =>
    exact (guides_recordAudit h _ _).mono fun _ _ _ _ => .inl hempty
  case isFalse hne =>
    split
    case isTrue hidle =>
      refine guides_pure h fun t ht hlive => ?_
      have hsame := hidle.resolve_right (by simp [hlive])
      have hsettled : Reconcile.Settled (poolHosts a.fleet pool)
          (poolDesired a.fleet clusters pool) current :=
        (Reconcile.target_eq_self_iff_agree (poolDesired_subset a.fleet clusters pool)).mp hsame
      exact hsettled.moves (hmoves.trans (h.towards s t ht pool hp))
    case isFalse =>
      exact (guides_reconcilePool h audit hp hne hmoves).mono fun _ _ hr _ => hr

theorem guides_watchPool (h : Conducts sem sound steers members a.fleet clusters carry)
    (audit dryRun : Bool) (hp : pool ∈ a.fleet.pools) :
    Guides sem sound steers carry
      (fun _ t => dryRun = false → PoolSettled a.fleet clusters (members t) pool)
      (watchPool (nodeIps a.fleet) (statusByName clusters) audit dryRun pool) s := by
  rw [a.watchPool_eq clusters audit dryRun hp]
  refine (guides_driverCall h (h.list pool hp s)).bind h fun listed t ht => ?_
  refine (guides_applyTurn h audit dryRun hp ht).bind h fun _ u hu => ?_
  exact guides_pure h fun v hv hlive => (hu hlive).towards hp (h.towards u v hv)

/-- A pass that gets through has settled every pool, each since its own turn. -/
theorem guides_watchOnce (h : Conducts sem sound steers members a.fleet clusters carry)
    (audit dryRun : Bool) :
    Guides sem sound steers carry (fun _ t => dryRun = false →
        ∀ pool ∈ a.fleet.pools, PoolSettled a.fleet clusters (members t) pool)
      (watchOnce a.fleet audit dryRun) s := by
  unfold watchOnce
  split
  case isTrue hpools =>
    refine guides_pure h fun t _ _ pool hp => ?_
    rw [hpools] at hp
    cases hp
  case isFalse =>
    have hprobe : Guides sem sound steers carry (fun found _ => found = clusters) probeFleet s := by
      intro hs
      rw [probeFleet, expand_perform]
      exact Within.keep_ok (h.probe s hs) h.lasts h.lasts hs
    refine hprobe.bind h fun found t hfound => ?_
    subst hfound
    have hturns := guides_each (s := t)
      (Q := fun pool u => dryRun = false → PoolSettled a.fleet found (members u) pool) h
      (fun pool hp b c hbc hb hlive => (hb hlive).towards hp (h.towards b c hbc))
      fun pool hp u => guides_watchPool h audit dryRun hp
    refine hturns.bind h fun _ u hu => ?_
    exact guides_pure h fun v hv hlive pool hp => (hu pool hp hlive).towards hp (h.towards u v hv)

/-- The run lemma: one completed round is enough. -/
theorem guides_watchLoop (h : Conducts sem sound steers members a.fleet clusters carry)
    (interval : Int) (audit dryRun notify : Bool) (n : Nat) :
    Guides sem sound steers carry (fun _ t => 0 < n → dryRun = false →
        ∀ pool ∈ a.fleet.pools, PoolSettled a.fleet clusters (members t) pool)
      (watchLoop a.fleet interval audit dryRun notify n) s := by
  induction n generalizing s with
  | zero => exact guides_pure h fun _ _ hpos => absurd hpos (Nat.lt_irrefl 0)
  | succ n ih =>
      have hstable : ∀ b c, steers b c →
          (dryRun = false → ∀ pool ∈ a.fleet.pools,
            PoolSettled a.fleet clusters (members b) pool) →
          dryRun = false → ∀ pool ∈ a.fleet.pools, PoolSettled a.fleet clusters (members c) pool :=
        fun b c hbc hb hlive pool hp => (hb hlive pool hp).towards hp (h.towards b c hbc)
      rw [watchLoop_succ]
      refine (guides_watchOnce h audit dryRun).bind h fun report t ht => ?_
      have hnotify : Guides sem sound steers carry (fun _ _ => True)
          (if notify then perform (S := dnsSignature) (.onRound report) else pure ()) t := by
        split
        · exact guides_perform h (h.idle (.onRound report) (fun c hc => by cases hc) t)
        · exact guides_pure h fun _ _ => trivial
      refine (hnotify.keep hstable ht).bind h fun _ u hu => ?_
      split
      · exact guides_pure h fun v hv _ => hstable u v hv hu.2
      · have hsleep : Guides sem sound steers carry (fun _ _ => True)
            (perform (S := dnsSignature) (.sleep interval)) u :=
          guides_perform h (h.idle (.sleep interval) (fun c hc => by cases hc) u)
        refine (hsleep.keep hstable hu.2).bind h fun _ v hv => ?_
        exact ((ih (s := v)).keep hstable hv.2).mono fun _ _ hr _ => hr.2

end Pass

/-! ## Convergence -/

/-- One `solfleet watch` process. -/
structure Watcher where
  interval : Int
  audit : Bool
  dryRun : Bool
  notify : Bool
  rounds : Nat

def Watcher.program (fleet : Fleet) (w : Watcher) : DnsProgram Unit :=
  watchLoop fleet w.interval w.audit w.dryRun w.notify w.rounds

/-- Watchers each of which carries out its effects in its own way, but all by the same rules: the
records only move towards their goals, and a watcher that is through finds them there. -/
theorem expanded_watchers_run {T : Signature} {σ ι : Type} [DecidableEq ι]
    {sem : Semantics T Exn σ} {sound : σ → Prop} {steers : σ → σ → Prop}
    {members : σ → String → Finset String} {a : AcceptedFleet} {clusters : List ClusterStatus}
    {carry : ι → (op : DnsEffect) → Program T Exn op.Answer}
    (h : ∀ i, Conducts sem sound steers members a.fleet clusters (carry i))
    {watchers : ι → Watcher} {s : σ} (hs : sound s) {c : Config T Exn Unit σ ι}
    (run : Interleaves sem ⟨fun i => ((watchers i).program a.fleet).expand (carry i), s⟩ c)
    (i : ι) (done : c.clients i = .done (.ok ())) (rounds : 0 < (watchers i).rounds)
    (live : (watchers i).dryRun = false) :
    ∀ pool ∈ a.fleet.pools, members c.state pool.record =
      Reconcile.target (members s pool.record) (poolHosts a.fleet pool)
        (poolDesired a.fleet clusters pool) := by
  have hclients := fun i => guides_watchLoop (h i) (watchers i).interval (watchers i).audit
    (watchers i).dryRun (watchers i).notify (watchers i).rounds hs
  have hall := parallel hclients run (fun _ => (h i).refl) (fun _ => (h i).trans)
    fun _ _ _ _ _ hguar => hguar
  have hmoved : steers s c.state := by
    have hrefl : Std.Refl steers := ⟨(h i).refl⟩
    have htrans : IsTrans σ steers := ⟨(h i).trans⟩
    rw [← Relation.reflTransGen_eq_self (r := steers)]
    exact Relation.ReflTransGen.mono (fun _ _ ⟨_, hstep⟩ => hstep) _ _ hall.2
  intro pool hp
  have hi := hall.1 i
  rw [done] at hi
  have hsettled := (hi _ ((h i).refl _)).1 rounds live pool hp
  exact ((h i).towards s c.state hmoved pool hp).eq_target hsettled
    (poolDesired_subset a.fleet clusters pool)

section Convergence

variable {ι : Type} [DecidableEq ι]

/-- Any number of watchers whose probes find the same, in any interleaving and with any of their
calls failing: from the moment one of them has got through a live round, every pool's record is
the one a lone pass would have made of it. -/
theorem watchers_converge (D : LawfulDriver) (a : AcceptedFleet)
    (distinct : a.fleet.DistinctRecords) (clusters : List ClusterStatus) (watchers : ι → Watcher)
    (s : D.State) (c : Config dnsSignature Exn Unit D.State ι)
    (run : Interleaves (D.Answers True {clusters}) ⟨fun i => (watchers i).program a.fleet, s⟩ c)
    (i : ι) (done : c.clients i = .done (.ok ())) (rounds : 0 < (watchers i).rounds)
    (live : (watchers i).dryRun = false) :
    ∀ pool ∈ a.fleet.pools, D.members c.state pool.record =
      Reconcile.target (D.members s pool.record) (poolHosts a.fleet pool)
        (poolDesired a.fleet clusters pool) := by
  have hself : (fun i => (watchers i).program a.fleet) =
      fun i => ((watchers i).program a.fleet).expand fun op => perform (S := dnsSignature) op :=
    funext fun i => (expand_self _).symm
  rw [hself] at run
  exact expanded_watchers_run (fun _ => D.conducts distinct clusters) trivial run i done rounds
    live

/-- Two watchers, one of which has not begun while the other made its only round. -/
def pairWatchers (_ : Bool) : Watcher := ⟨30, true, false, false, 1⟩

theorem reaches_pairWatcher (s : InMemoryDns) :
    Reaches (inMemoryDnsDriver.Answers True {probeWith ["b"]})
      ((pairWatchers true).program pairFleet.fleet, s)
      (.done (exec (inMemoryDnsDriver.handler (probeWith ["b"]))
          ((pairWatchers true).program pairFleet.fleet) s).result,
        (exec (inMemoryDnsDriver.handler (probeWith ["b"]))
          ((pairWatchers true).program pairFleet.fleet) s).final) :=
  reaches_exec (inMemoryDnsDriver.handler_answers (Set.mem_singleton _)) _ s

theorem watchers_converge_pair :
    inMemoryDnsDriver.members (exec (inMemoryDnsDriver.handler (probeWith ["b"]))
        ((pairWatchers true).program pairFleet.fleet) (pairState {"10.0.0.1", "9.9.9.9"})).final
        pairPool.record =
      Reconcile.target {"10.0.0.1", "9.9.9.9"} (poolHosts pairFleet.fleet pairPool)
        (poolDesired pairFleet.fleet (probeWith ["b"]) pairPool) := by
  have hrun := Interleaves.client true (fun i => (pairWatchers i).program pairFleet.fleet)
    (reaches_pairWatcher (pairState {"10.0.0.1", "9.9.9.9"}))
  have hdone : (exec (inMemoryDnsDriver.handler (probeWith ["b"]))
      ((pairWatchers true).program pairFleet.fleet)
        (pairState {"10.0.0.1", "9.9.9.9"})).result = .ok () := by decide
  rw [hdone] at hrun
  have hall := watchers_converge inMemoryDnsDriver pairFleet (by decide) (probeWith ["b"])
    pairWatchers _ _ hrun true rfl (by decide) rfl pairPool (by decide)
  have hstart : inMemoryDnsDriver.members (pairState {"10.0.0.1", "9.9.9.9"}) pairPool.record =
      {"10.0.0.1", "9.9.9.9"} := by decide
  rwa [hstart] at hall

end Convergence

/-! ## Stabilisation -/

section Stabilisation

variable {D : LawfulDriver} {ι κ : Type} [DecidableEq ι] [DecidableEq κ]

/-- Whatever any clients did, the addresses of a record that its pool does not own are still the
same. -/
theorem foreign_part_of_history (a : AcceptedFleet) (distinct : a.fleet.DistinctRecords)
    {requests : κ → List DnsRequest} {probes : Set (List ClusterStatus)} {s : D.State}
    {c : Config dnsSignature Exn (List (Except Exn Unit)) D.State κ}
    (history : Interleaves (D.Answers True probes)
      ⟨fun k => dnsClient a.fleet (requests k), s⟩ c) {pool : Pool} (hp : pool ∈ a.fleet.pools) :
    D.members c.state pool.record \ memberHosts a.fleet pool =
      D.members s pool.record \ memberHosts a.fleet pool := by
  have hclient : ∀ k, AllCalls (S := dnsSignature) (DnsEffect.InPools a.fleet)
      (dnsClient a.fleet (requests k)) := fun k =>
    AllCalls.each fun request _ => (request.program_inPools a).attempt
  refine AllCalls.interleaves (P := DnsEffect.InPools a.fleet)
    (R := fun b t => D.members t pool.record \ memberHosts a.fleet pool =
      D.members b pool.record \ memberHosts a.fleet pool)
    (fun _ => rfl) (fun _ _ _ hab hbc => hbc.trans hab) (fun b op answer t hop hstep => ?_)
    hclient history
  ext ip
  rw [Finset.mem_sdiff, Finset.mem_sdiff]
  refine and_congr_left fun hforeign => D.mem_iff_of_answers (fun hchange => ?_) hstep
  rcases hop pool.record ip hchange with ⟨q, hq, hrecord, hip⟩
  have heq : q = pool := List.inj_on_of_nodup_map distinct hq hp hrecord
  exact hforeign (heq ▸ hip)

/-- Whatever watchers with any probes and overrides of any nodes did before, in any interleaving
and with any failures: watchers whose probes now agree make of every record that was left what a
lone pass would have made of it, and the addresses its pool does not own are those of the start. -/
theorem watchers_restore (D : LawfulDriver) (a : AcceptedFleet) (unique : a.fleet.UniqueNames)
    (distinct : a.fleet.DistinctRecords) (requests : κ → List DnsRequest)
    (probes : Set (List ClusterStatus)) (s : D.State)
    (c : Config dnsSignature Exn (List (Except Exn Unit)) D.State κ)
    (history : Interleaves (D.Answers True probes)
      ⟨fun k => dnsClient a.fleet (requests k), s⟩ c)
    (clusters : List ClusterStatus) (watchers : ι → Watcher)
    (d : Config dnsSignature Exn Unit D.State ι)
    (run : Interleaves (D.Answers True {clusters})
      ⟨fun i => (watchers i).program a.fleet, c.state⟩ d)
    (i : ι) (done : d.clients i = .done (.ok ())) (rounds : 0 < (watchers i).rounds)
    (live : (watchers i).dryRun = false) :
    ∀ pool ∈ a.fleet.pools,
      D.members d.state pool.record =
          Reconcile.target (D.members c.state pool.record) (memberHosts a.fleet pool)
            (keptHosts a.fleet clusters pool) ∧
        D.members d.state pool.record \ memberHosts a.fleet pool =
          D.members s pool.record \ memberHosts a.fleet pool := by
  intro pool hp
  have hself : (fun i => (watchers i).program a.fleet) =
      fun i => ((watchers i).program a.fleet).expand fun op => perform (S := dnsSignature) op :=
    funext fun i => (expand_self _).symm
  rw [hself] at run
  have htarget := expanded_watchers_run (fun _ => D.conducts distinct clusters) trivial run i done
    rounds live pool hp
  have howned : keptHosts a.fleet clusters pool ⊆ memberHosts a.fleet pool := by
    rw [← poolHosts_eq unique, ← poolDesired_eq unique]
    exact poolDesired_subset a.fleet clusters pool
  rw [poolHosts_eq unique, poolDesired_eq unique] at htarget
  refine ⟨htarget, ?_⟩
  rw [htarget, Reconcile.target_sdiff_managed howned, foreign_part_of_history a distinct history hp]

/-- Node `b` was ejected by hand; the watcher that finds it healthy and `a` failing swaps the
two. -/
theorem watchers_restore_pair :
    let left := (exec (inMemoryDnsDriver.handler []) (dnsClient pairFleet.fleet
      (pairRequests false)) (pairState {"10.0.0.1", "10.0.0.2", "9.9.9.9"})).final
    let reached := (exec (inMemoryDnsDriver.handler (probeWith ["b"]))
      ((pairWatchers true).program pairFleet.fleet) left).final
    inMemoryDnsDriver.members left pairPool.record = {"10.0.0.1", "9.9.9.9"} ∧
      inMemoryDnsDriver.members reached pairPool.record = {"10.0.0.2", "9.9.9.9"} := by
  intro left reached
  have hagree : ∀ op s, inMemoryDnsDriver.Answers True Set.univ s op
      (inMemoryDnsDriver.handler [] op s).1 (inMemoryDnsDriver.handler [] op s).2 :=
    inMemoryDnsDriver.handler_answers (Set.mem_univ _)
  have hhistory := Interleaves.client false (fun i => dnsClient pairFleet.fleet (pairRequests i))
    (reaches_exec hagree (dnsClient pairFleet.fleet (pairRequests false))
      (pairState {"10.0.0.1", "10.0.0.2", "9.9.9.9"}))
  have hrun := Interleaves.client true (fun i => (pairWatchers i).program pairFleet.fleet)
    (reaches_pairWatcher left)
  have hdone : (exec (inMemoryDnsDriver.handler (probeWith ["b"]))
      ((pairWatchers true).program pairFleet.fleet) left).result = .ok () := by decide
  rw [hdone] at hrun
  have hall := (watchers_restore inMemoryDnsDriver pairFleet (by decide) (by decide) pairRequests
    Set.univ _ _ hhistory (probeWith ["b"]) pairWatchers _ hrun true rfl
    (by decide) rfl pairPool (by decide)).1
  have hleft : inMemoryDnsDriver.members left pairPool.record = {"10.0.0.1", "9.9.9.9"} := by
    decide
  have htarget : Reconcile.target {"10.0.0.1", "9.9.9.9"} (memberHosts pairFleet.fleet pairPool)
      (keptHosts pairFleet.fleet (probeWith ["b"]) pairPool) = {"10.0.0.2", "9.9.9.9"} := by decide
  exact ⟨hleft, hall.trans ((congrArg (Reconcile.target · _ _) hleft).trans htarget)⟩

end Stabilisation

end Solfleet
