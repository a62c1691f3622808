import Solfleet.Dns.Requests
import Solfleet.Failover.Convergence

/-! # Watchers at Cloudflare

Convergence does not need driver calls to be single steps. Over Cloudflare each of them is several
requests, between which other watchers come and go; since every record created or deleted on the
way is one the goals ask for or rule out, the watchers converge all the same.
-/

namespace Solfleet

open Interaction Program

section Goals

variable {fleet : Fleet} {clusters : List ClusterStatus} {pool : Pool} {ip : String}

/-- The goal of every pool of the record has the address. -/
def GoalAdds (fleet : Fleet) (clusters : List ClusterStatus) (record ip : String) : Prop :=
  ∀ pool ∈ fleet.pools, pool.record = record → ip ∈ poolDesired fleet clusters pool

/-- Every pool of the record has a goal, owns the address and does not want it. -/
def GoalRemoves (fleet : Fleet) (clusters : List ClusterStatus) (record ip : String) : Prop :=
  ∀ pool ∈ fleet.pools, pool.record = record →
    poolDesired fleet clusters pool ≠ ∅ ∧ ip ∈ poolHosts fleet pool ∧
      ip ∉ poolDesired fleet clusters pool

theorem mem_zone_members {z : CloudflareZone} {record : String} :
    ip ∈ cloudflareDriver.members z record ↔ ip ∈ z.listMembers record := List.mem_toFinset

/-- Records that come and go within the goals move the set of a pool towards its goal. -/
theorem moves_of_drifts {z z' : CloudflareZone}
    (h : z.Drifts (GoalAdds fleet clusters) (GoalRemoves fleet clusters) z')
    (hp : pool ∈ fleet.pools) :
    Reconcile.Moves (poolHosts fleet pool) (poolDesired fleet clusters pool)
      (cloudflareDriver.members z pool.record) (cloudflareDriver.members z' pool.record) where
  foreign x hx := by
    rw [mem_zone_members, mem_zone_members]
    constructor
    · exact h.was_listed fun hadds => hx (poolDesired_subset fleet clusters pool (hadds pool hp rfl))
    · exact h.listed fun hremoves => hx (hremoves pool hp rfl).2.1
  kept x hd hx := by
    rw [mem_zone_members] at hx ⊢
    exact h.listed (fun hremoves => (hremoves pool hp rfl).2.2 hd) hx
  unwanted x _ hd hx := by
    rw [mem_zone_members] at hx ⊢
    exact h.was_listed (fun hadds => hd (hadds pool hp rfl)) hx
  idle hempty := by
    ext x
    rw [mem_zone_members, mem_zone_members]
    constructor
    · refine h.was_listed fun hadds => ?_
      have hd := hadds pool hp rfl
      rw [hempty] at hd
      exact Finset.notMem_empty x hd
    · exact h.listed fun hremoves => (hremoves pool hp rfl).1 hempty

theorem goalAdds_of_mem (distinct : fleet.DistinctRecords) (hp : pool ∈ fleet.pools)
    (hd : ip ∈ poolDesired fleet clusters pool) : GoalAdds fleet clusters pool.record ip := by
  intro q hq hrecord
  rwa [List.inj_on_of_nodup_map distinct hq hp hrecord]

theorem goalRemoves_of_mem (distinct : fleet.DistinctRecords) (hp : pool ∈ fleet.pools)
    (hne : poolDesired fleet clusters pool ≠ ∅) (hm : ip ∈ poolHosts fleet pool)
    (hd : ip ∉ poolDesired fleet clusters pool) :
    GoalRemoves fleet clusters pool.record ip := by
  intro q hq hrecord
  rw [List.inj_on_of_nodup_map distinct hq hp hrecord]
  exact ⟨hne, hm, hd⟩

end Goals

section Conducting

variable {κ : Type} [DecidableEq κ] {fleet : Fleet} {clusters : List ClusterStatus} {id : String}

theorem keeps_idle {d : CloudflareDriver κ} {op : DnsEffect} (hop : ∀ c, op ≠ .driver c)
    {adds removes adds' removes' : String → String → Prop} (s : CloudflareAccount κ) :
    CloudflareDriver.Keeps clusters d id adds removes adds' removes' (fun _ _ => True)
      (d.carry op) s := by
  cases op with
  | driver c => exact absurd rfl (hop c)
  | probe | audit | sleep | onRound =>
      intro t _ answer u hu
      cases hu with
      | answered => exact ⟨.refl t, fun _ _ => trivial⟩
      | refused => exact ⟨.refl t, fun _ _ => trivial⟩

theorem CloudflareDriver.conducts (d : CloudflareDriver κ) (distinct : fleet.DistinctRecords)
    (clusters : List ClusterStatus) (id : String) :
    Conducts (CloudflareAnswers clusters) (fun s => s.Sound d.zone id)
      (Serves d.zone id (GoalAdds fleet clusters) (GoalRemoves fleet clusters))
      (fun s => s.members id) fleet clusters d.carry where
  refl := Serves.refl
  trans _ _ _ := Serves.trans
  lasts _ _ h := h.sound
  towards _ _ h pool hp := moves_of_drifts h.drifts hp
  probe s _ := by
    intro t _ answer u hu
    cases hu with
    | answered => exact ⟨.refl t, fun _ _ => rfl⟩
    | refused => exact ⟨.refl t, fun _ _ => trivial⟩
  idle op hop s _ := keeps_idle hop s
  list pool hp s hs := by
    refine (keeps_listMembers hs pool.record).mono fun r t hr => ?_
    cases r with
    | error e => trivial
    | ok listed =>
        obtain ⟨-, z, rfl, hz⟩ := hr
        rw [Past, jointly_self, jointly_self] at hz
        exact moves_of_drifts hz hp
  mark pool _ s hs := keeps_ensureMarker hs pool.record
  remove pool hp hne ip hm hd s hs := by
    have hadds : ¬ Jointly (GoalAdds fleet clusters) (GoalAdds fleet clusters) pool.record ip := by
      rw [jointly_self]
      exact fun hadds => hd (hadds pool hp rfl)
    refine (keeps_removeMember hs (goalRemoves_of_mem distinct hp hne hm hd) hadds).mono
      fun r t hr => ?_
    cases r with
    | error e => trivial
    | ok _ => exact fun hmem => hr (mem_members.mp hmem)
  add pool hp ip hd s hs := by
    refine (keeps_addMember hs pool.ttl (goalAdds_of_mem distinct hp hd)).mono fun r t hr => ?_
    cases r with
    | error e => trivial
    | ok _ =>
        obtain ⟨z, hz, hpast⟩ := hr
        rw [Past, jointly_self, jointly_self] at hpast
        exact mem_members.mpr (hpast.listed (fun hremoves => (hremoves pool hp rfl).2.2 hd) hz)

/-- Any number of watchers of one Cloudflare zone, each with a driver of its own, whose probes
find the same, with single requests interleaved in any order and any of them failing: from the
moment one watcher has got through a live round, every pool's record is the one a lone pass would
have made of it. -/
theorem cloudflare_watchers_converge {ι : Type} [DecidableEq ι] (a : AcceptedFleet)
    (distinct : a.fleet.DistinctRecords) (clusters : List ClusterStatus) (zone id : String)
    (drivers : ι → CloudflareDriver κ) (here : ∀ i, (drivers i).zone = zone)
    (watchers : ι → Watcher) (s : CloudflareAccount κ) (sound : s.Sound zone id)
    (c : Config (cloudflareSignature κ) Exn Unit (CloudflareAccount κ) ι)
    (run : Interleaves (CloudflareAnswers clusters)
      ⟨fun i => ((watchers i).program a.fleet).expand (drivers i).carry, s⟩ c)
    (i : ι) (done : c.clients i = .done (.ok ())) (rounds : 0 < (watchers i).rounds)
    (live : (watchers i).dryRun = false) :
    ∀ pool ∈ a.fleet.pools, c.state.members id pool.record =
      Reconcile.target (s.members id pool.record) (poolHosts a.fleet pool)
        (poolDesired a.fleet clusters pool) := by
  have hconducts : ∀ j, Conducts (CloudflareAnswers clusters) (fun t => t.Sound zone id)
      (Serves zone id (GoalAdds a.fleet clusters) (GoalRemoves a.fleet clusters))
      (fun t => t.members id) a.fleet clusters (drivers j).carry := by
    intro j
    rw [← here j]
    exact (drivers j).conducts distinct clusters id
  exact expanded_watchers_run hconducts sound run i done rounds live

end Conducting

/-! ## Two watchers in step -/

section Pair

/-- Address `10.0.0.1` of the pair is listed, next to a foreign one. -/
def pairAccount : CloudflareAccount Bool where
  zones := [("z", "z1")]
  records _ := (emptyZone.post .a pairPool.record "10.0.0.1" 60).post .a pairPool.record "9.9.9.9" 60
  zoneIds _ := none

def pairDriver (self : Bool) : CloudflareDriver Bool := ⟨"z", self⟩

def pairOrder : List Bool := (List.replicate 18 [true, false]).flatten

def pairRun : Scheduled (cloudflareSignature Bool) Exn Unit (CloudflareAccount Bool) Bool :=
  schedule (cloudflareApi (probeWith ["b"])) pairOrder
    (fun i => ((pairWatchers i).program pairFleet.fleet).expand (pairDriver i).carry) pairAccount

theorem cloudflare_watchers_converge_pair :
    pairRun.state.members "z1" pairPool.record =
      Reconcile.target (pairAccount.members "z1" pairPool.record)
        (poolHosts pairFleet.fleet pairPool)
        (poolDesired pairFleet.fleet (probeWith ["b"]) pairPool) := by
  have hrun := schedule_interleaves (cloudflareApi_answers (probeWith ["b"])) pairOrder
    (fun i => ((pairWatchers i).program pairFleet.fleet).expand (pairDriver i).carry) pairAccount
  have hsound : pairAccount.Sound "z" "z1" := ⟨by decide, fun _ _ h => by cases h⟩
  have hdone : (pairRun.programs true).result? = some (.ok ()) := by decide +kernel
  exact cloudflare_watchers_converge pairFleet (by decide) (probeWith ["b"]) "z" "z1" pairDriver
    (fun _ => rfl) pairWatchers pairAccount hsound _ hrun true (result?_eq_some_iff.mp hdone)
    (by decide) rfl pairPool (by decide)

end Pair

end Solfleet
