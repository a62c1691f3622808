import Mathlib.Data.List.DropRight
import Solfleet.Dns.Route53

/-! # The three drivers agree

What a record holds is an `Assignment`, and an update changes it by one address or one
marker. Each driver shows an assignment through its own way of storing it, and goes on
showing it after every update; so drivers that agree on a start agree ever after.
-/

namespace Solfleet

open Interaction Program

/-! ## Assignments -/

/-- The A set of every record, and which records carry a marker. -/
structure Assignment where
  members : String → Finset String
  marked : String → Bool

inductive RecordUpdate where
  | addMember (record ip : String) (ttl : Int)
  | removeMember (record ip : String)
  | ensureMarker (record : String)
  deriving DecidableEq

def RecordUpdate.record : RecordUpdate → String
  | .addMember record .. => record
  | .removeMember record _ => record
  | .ensureMarker record => record

def Assignment.apply (a : Assignment) : RecordUpdate → Assignment
  | .addMember record ip _ =>
      { a with members := Function.update a.members record (insert ip (a.members record)) }
  | .removeMember record ip =>
      { a with members := Function.update a.members record ((a.members record).erase ip) }
  | .ensureMarker record => { a with marked := Function.update a.marked record true }

def Assignment.applyAll (a : Assignment) (updates : List RecordUpdate) : Assignment :=
  updates.foldl Assignment.apply a

namespace DnsDriver

def apply (D : DnsDriver) (s : D.State) : RecordUpdate → D.State
  | .addMember record ip ttl => D.addMember s record ip ttl
  | .removeMember record ip => D.removeMember s record ip
  | .ensureMarker record => D.ensureMarker s record

def applyAll (D : DnsDriver) (s : D.State) (updates : List RecordUpdate) : D.State :=
  updates.foldl D.apply s

end DnsDriver

/-- A name as the providers are given it: no trailing dot. -/
def BareName (name : String) : Prop := Text.endsWith '.' name = false

instance (name : String) : Decidable (BareName name) := inferInstanceAs (Decidable (_ = _))

/-- The driver lists exactly the addresses of every record, in order, and reports its
marker. -/
def DnsDriver.Shows (D : DnsDriver) (s : D.State) (a : Assignment) : Prop :=
  ∀ record, BareName record →
    D.listMembers s record = sorted (a.members record) ∧ D.hasMarker s record = a.marked record

/-- One update moves what the driver shows as it moves the assignment. -/
def DnsDriver.Follows (D : DnsDriver) : Prop :=
  ∀ s a u, BareName u.record → D.Shows s a → D.Shows (D.apply s u) (a.apply u)

theorem DnsDriver.Follows.applyAll {D : DnsDriver} (h : D.Follows) {updates : List RecordUpdate}
    (hbare : ∀ u ∈ updates, BareName u.record) {s : D.State} {a : Assignment}
    (hs : D.Shows s a) : D.Shows (D.applyAll s updates) (a.applyAll updates) := by
  induction updates generalizing s a with
  | nil => exact hs
  | cons u updates ih =>
      have hrest := List.forall_mem_cons.mp hbare
      exact ih hrest.2 (h s a u hrest.1 hs)

/-! ## In memory and Cloudflare -/

theorem eq_sorted_of_pairwise {l : List String} (hl : l.Pairwise (· ≤ ·)) (hn : l.Nodup) :
    l = sorted l.toFinset := by
  have hperm : l.Perm (sorted l.toFinset) := by
    rw [List.perm_ext_iff_of_nodup hn (sorted_nodup _)]
    simp
  exact hperm.eq_of_pairwise (fun _ _ _ _ => le_antisymm) hl (pairwise_sorted _)

/-- A lawful driver follows if its lists are in order and get no address twice. -/
theorem LawfulDriver.follows (D : LawfulDriver)
    (hordered : ∀ s record, (D.listMembers s record).Pairwise (· ≤ ·))
    (hnodup : ∀ s u record, (D.listMembers s record).Nodup →
      (D.listMembers (D.apply s u) record).Nodup) : D.Follows := by
  intro s a u _ hs record hrecord
  have hmembers : ∀ r, BareName r → D.members s r = a.members r := by
    intro r hr
    rw [DnsDriver.members, (hs r hr).1, toFinset_sorted]
  have hlist : D.listMembers (D.apply s u) record = sorted (D.members (D.apply s u) record) := by
    refine eq_sorted_of_pairwise (hordered _ _) (hnodup s u record ?_)
    rw [(hs record hrecord).1]
    exact sorted_nodup _
  have hown := hmembers record hrecord
  have hmarker := (hs record hrecord).2
  rw [hlist]
  cases u with
  | addMember r ip ttl =>
      simp only [DnsDriver.apply, D.members_add, D.marker_add, Assignment.apply]
      refine ⟨congrArg sorted ?_, hmarker⟩
      by_cases hr : record = r
      · subst hr
        rw [Function.update_self, Function.update_self, hown]
      · rw [Function.update_of_ne hr, Function.update_of_ne hr, hown]
  | removeMember r ip =>
      simp only [DnsDriver.apply, D.members_remove, D.marker_remove, Assignment.apply]
      refine ⟨congrArg sorted ?_, hmarker⟩
      by_cases hr : record = r
      · subst hr
        rw [Function.update_self, Function.update_self, hown]
      · rw [Function.update_of_ne hr, Function.update_of_ne hr, hown]
  | ensureMarker r =>
      simp only [DnsDriver.apply, D.members_ensure, D.marker_ensure, Assignment.apply]
      refine ⟨congrArg sorted hown, ?_⟩
      by_cases hr : record = r
      · subst hr
        rw [Function.update_self, Function.update_self]
      · rw [Function.update_of_ne hr, Function.update_of_ne hr, hmarker]

theorem inMemory_follows : inMemoryDnsDriver.toDnsDriver.Follows :=
  LawfulDriver.follows _ (fun s record => pairwise_sorted (s.a record))
    fun s u record _ => sorted_nodup (((inMemoryDnsDriver.apply s u) : InMemoryDns).a record)

namespace CloudflareZone

theorem listMembers_nodup_iff {z : CloudflareZone} {record : String} :
    (z.listMembers record).Nodup ↔ ((z.query .a record).map (·.content)).Nodup :=
  (List.perm_insertionSort _ _).nodup_iff

theorem query_post (z : CloudflareZone) (rtype : RecordType) (name content : String) (ttl : Int)
    (rtype' : RecordType) (name' : String) :
    (z.post rtype name content ttl).query rtype' name' = z.query rtype' name' ++
      if rtype = rtype' ∧ name = name' then [⟨z.nextId, rtype, name, content, ttl⟩] else [] := by
  simp only [query, post, List.filter_append]
  congr 1
  by_cases h : rtype = rtype' ∧ name = name'
  · rw [if_pos h, List.filter_cons_of_pos (by simpa using h), List.filter_nil]
  · rw [if_neg h, List.filter_cons_of_neg (by simpa using h), List.filter_nil]

theorem foldl_delete_sublist {ip : String} (found : List ZoneRecord) (z : CloudflareZone) :
    (found.foldl (fun z r => if r.content = ip then z.delete r.id else z) z).records.Sublist
      z.records := by
  induction found generalizing z with
  | nil => exact List.Sublist.refl _
  | cons r found ih =>
      rw [List.foldl_cons]
      by_cases hr : r.content = ip
      · rw [if_pos hr]
        exact (ih _).trans List.filter_sublist
      · rw [if_neg hr]
        exact ih _

theorem nodup_apply (z : CloudflareZone) (u : RecordUpdate) (record : String)
    (h : (z.listMembers record).Nodup) :
    (CloudflareZone.listMembers (cloudflareDriver.apply z u) record).Nodup := by
  cases u with
  | addMember r ip ttl =>
      show ((z.addMember r ip ttl).listMembers record).Nodup
      by_cases hip : ip ∈ z.listMembers r
      · rw [addMember, if_pos hip]
        exact h
      · rw [addMember, if_neg hip, listMembers_nodup_iff, query_post]
        by_cases hr : r = record
        · subst hr
          rw [if_pos ⟨rfl, rfl⟩, List.map_append]
          refine (listMembers_nodup_iff.mp h).append (List.nodup_singleton _) ?_
          rw [List.map_singleton, List.disjoint_singleton]
          intro hmem
          exact hip ((List.mem_insertionSort _).mpr hmem)
        · rw [if_neg (fun hand => hr hand.2), List.append_nil]
          exact listMembers_nodup_iff.mp h
  | removeMember r ip =>
      refine listMembers_nodup_iff.mpr ((listMembers_nodup_iff.mp h).sublist ?_)
      exact ((foldl_delete_sublist _ z).filter _).map _
  | ensureMarker r =>
      show ((z.ensureMarker r).listMembers record).Nodup
      cases hmarked : z.hasMarker r with
      | true =>
          rw [ensureMarker, if_pos hmarked]
          exact h
      | false =>
          have hne : ¬ (RecordType.txt = .a ∧ markerName r = record) := nofun
          rw [ensureMarker, if_neg (by rw [hmarked]; decide), listMembers_nodup_iff, query_post,
            if_neg hne, List.append_nil]
          exact listMembers_nodup_iff.mp h

end CloudflareZone

theorem cloudflare_follows : cloudflareDriver.toDnsDriver.Follows :=
  LawfulDriver.follows _ (fun _ _ => List.pairwise_insertionSort _ _) CloudflareZone.nodup_apply

/-! ## Route53 -/

namespace Route53

theorem rstrip_of_bare {name : String} (h : BareName name) : Text.rstrip '.' name = name := by
  have hlast : ∀ hne : name.toList ≠ [], ¬ (name.toList.getLast hne == '.') = true := by
    intro hne hdot
    have heq : name.toList.getLast? = some '.' := by
      rw [List.getLast?_eq_some_getLast hne, eq_of_beq hdot]
    have hends : Text.endsWith '.' name = true := by
      rw [Text.endsWith, heq]
      exact beq_self_eq_true _
    rw [h] at hends
    exact nomatch hends
  rw [Text.rstrip, List.rdropWhile_eq_self_iff.mpr hlast, String.ofList_toList]

theorem fqdn_injective {a b : String} (ha : BareName a) (hb : BareName b)
    (h : fqdn a = fqdn b) : a = b := by
  rw [fqdn, fqdn, rstrip_of_bare ha, rstrip_of_bare hb] at h
  exact (String.append_left_inj _).mp h

/-- A marker name ends as its record does, unless that is empty. -/
theorem markerName_bare {record : String} (h : BareName record) (hne : record ≠ "") :
    BareName (markerName record) := by
  have hlist : record.toList ≠ [] := fun hnil => hne (String.toList_eq_nil_iff.mp hnil)
  rw [BareName, Text.endsWith, markerName, String.toList_append,
    List.getLast?_append_of_ne_nil _ hlist]
  exact h

theorem fqdn_markerName_injective {a b : String} (ha : BareName a) (hb : BareName b)
    (h : fqdn (markerName a) = fqdn (markerName b)) : a = b := by
  -- the marker of the empty name is the only one that loses its dot
  have hshort : ∀ r, BareName r → r ≠ "" → fqdn (markerName "") ≠ fqdn (markerName r) := by
    intro r hr hne heq
    have hempty : Text.rstrip '.' (markerName "") = "_solfleet" := by decide
    rw [fqdn, fqdn, rstrip_of_bare (markerName_bare hr hne), hempty] at heq
    have hlength := congrArg String.length ((String.append_left_inj _).mp heq)
    rw [markerName, String.length_append] at hlength
    have hprefix : "_solfleet".length < "_solfleet.".length := by decide
    omega
  by_cases ha' : a = ""
  · by_cases hb' : b = ""
    · rw [ha', hb']
    · exact absurd (ha' ▸ h) (hshort b hb hb')
  · by_cases hb' : b = ""
    · exact absurd (hb' ▸ h).symm (hshort a ha ha')
    · have heq := fqdn_injective (markerName_bare ha ha') (markerName_bare hb hb') h
      exact (String.append_right_inj _).mp heq

theorem memberKey_ne_markerKey (r r' : String) : memberKey r ≠ markerKey r' := by
  intro h
  have htype : RecordType.a = .txt := congrArg RecordKey.rtype h
  exact nomatch htype

section

variable [LinearOrder RecordKey] {z z' : Route53Zone}

theorem listed_of_keeps {key : RecordKey} (h : Keeps key z z') {record : String}
    (hne : memberKey record ≠ key) : listed z' record = listed z record := by
  rw [listed, listed, h _ hne]

theorem marked_of_keeps {key : RecordKey} (h : Keeps key z z') {record : String}
    (hne : markerKey record ≠ key) : marked z' record = marked z record := by
  rw [marked, marked, h _ hne]

theorem driver_listMembers (z : Route53Zone) (record : String) :
    route53Driver.listMembers z record = listed z record := by
  show ((exec route53 (listMembers record) z).result.toOption.getD []) = _
  rw [(listMembers_ends z record).result]
  rfl

theorem driver_hasMarker (z : Route53Zone) (record : String) :
    route53Driver.hasMarker z record = marked z record := by
  show ((exec route53 (hasMarker record) z).result.toOption.getD false) = _
  rw [(hasMarker_ends z record).result]
  rfl

/-- A change to the set of one record is seen under that record only. -/
theorem shows_of_members {a : Assignment} (h : route53Driver.Shows z a) {record : String}
    (hrecord : BareName record) {ips : Finset String} (hkeeps : Keeps (memberKey record) z z')
    (hlists : Lists z' record ips) :
    route53Driver.Shows z' { a with members := Function.update a.members record ips } := by
  intro r hr
  obtain ⟨hlist, hmarker⟩ := h r hr
  rw [driver_listMembers] at hlist ⊢
  rw [driver_hasMarker] at hmarker ⊢
  constructor
  · show listed z' r = sorted (Function.update a.members record ips r)
    by_cases heq : r = record
    · subst heq
      rw [Function.update_self]
      exact hlists
    · have hne : memberKey r ≠ memberKey record := fun hkey =>
        heq (fqdn_injective hr hrecord (congrArg RecordKey.name hkey))
      rw [Function.update_of_ne heq, listed_of_keeps hkeeps hne]
      exact hlist
  · show marked z' r = a.marked r
    rw [marked_of_keeps hkeeps (memberKey_ne_markerKey record r).symm]
    exact hmarker

theorem shows_of_marker {a : Assignment} (h : route53Driver.Shows z a) {record : String}
    (hrecord : BareName record) (hkeeps : Keeps (markerKey record) z z')
    (hmarked : marked z' record = true) :
    route53Driver.Shows z' { a with marked := Function.update a.marked record true } := by
  intro r hr
  obtain ⟨hlist, hmarker⟩ := h r hr
  rw [driver_listMembers] at hlist ⊢
  rw [driver_hasMarker] at hmarker ⊢
  constructor
  · show listed z' r = sorted (a.members r)
    rw [listed_of_keeps hkeeps (memberKey_ne_markerKey r record)]
    exact hlist
  · show marked z' r = Function.update a.marked record true r
    by_cases heq : r = record
    · subst heq
      rw [Function.update_self]
      exact hmarked
    · have hne : markerKey r ≠ markerKey record := fun hkey =>
        heq (fqdn_markerName_injective hr hrecord (congrArg RecordKey.name hkey))
      rw [Function.update_of_ne heq, marked_of_keeps hkeeps hne]
      exact hmarker

end

end Route53

open Route53 in
theorem route53_follows [LinearOrder RecordKey] : route53Driver.Follows := by
  intro z a u hbare h
  cases u with
  | addMember record ip ttl =>
      have hlists : Lists z record (a.members record) :=
        (driver_listMembers z record).symm.trans (h record hbare).1
      obtain ⟨z', hends, hkeeps, -, hlists'⟩ := addMember_ends z record ip ttl
      have hfinal : route53Driver.apply z (.addMember record ip ttl) = z' := hends.final
      rw [hfinal]
      exact shows_of_members h hbare hkeeps (hlists' _ hlists)
  | removeMember record ip =>
      have hlists : Lists z record (a.members record) :=
        (driver_listMembers z record).symm.trans (h record hbare).1
      obtain ⟨z', hends, hkeeps, -, hlists'⟩ := removeMember_ends z record ip
      have hfinal : route53Driver.apply z (.removeMember record ip) = z' := hends.final
      rw [hfinal]
      exact shows_of_members h hbare hkeeps (hlists' _ hlists)
  | ensureMarker record =>
      obtain ⟨z', hends, hkeeps, hmarked⟩ := ensureMarker_ends z record
      have hfinal : route53Driver.apply z (.ensureMarker record) = z' := hends.final
      rw [hfinal]
      exact shows_of_marker h hbare hkeeps hmarked

/-! ## Agreement -/

/-- Without concurrency no method of the Route53 driver fails. -/
theorem route53_returns [LinearOrder RecordKey] (z : Route53Zone) (record ip : String) (ttl : Int) :
    (exec route53 (Route53.addMember record ip ttl) z).result = .ok () ∧
      (exec route53 (Route53.removeMember record ip) z).result = .ok () ∧
      (exec route53 (Route53.ensureMarker record) z).result = .ok () := by
  obtain ⟨_, hadd, -⟩ := Route53.addMember_ends z record ip ttl
  obtain ⟨_, hremove, -⟩ := Route53.removeMember_ends z record ip
  obtain ⟨_, hensure, -⟩ := Route53.ensureMarker_ends z record
  exact ⟨hadd.result, hremove.result, hensure.result⟩

/-- From one assignment on, whatever the updates, the three drivers report the same. -/
theorem drivers_agree [LinearOrder RecordKey] {a : Assignment} {m : InMemoryDns}
    {c : CloudflareZone} {z : Route53Zone} (hm : inMemoryDnsDriver.Shows m a)
    (hc : cloudflareDriver.Shows c a) (hz : route53Driver.Shows z a)
    {updates : List RecordUpdate} (hbare : ∀ u ∈ updates, BareName u.record) {record : String}
    (hrecord : BareName record) :
    inMemoryDnsDriver.listMembers (inMemoryDnsDriver.applyAll m updates) record =
        cloudflareDriver.listMembers (cloudflareDriver.applyAll c updates) record ∧
      cloudflareDriver.listMembers (cloudflareDriver.applyAll c updates) record =
        route53Driver.listMembers (route53Driver.applyAll z updates) record ∧
      inMemoryDnsDriver.hasMarker (inMemoryDnsDriver.applyAll m updates) record =
        cloudflareDriver.hasMarker (cloudflareDriver.applyAll c updates) record ∧
      cloudflareDriver.hasMarker (cloudflareDriver.applyAll c updates) record =
        route53Driver.hasMarker (route53Driver.applyAll z updates) record := by
  obtain ⟨hlist, hmarker⟩ := inMemory_follows.applyAll hbare hm record hrecord
  obtain ⟨hlist', hmarker'⟩ := cloudflare_follows.applyAll hbare hc record hrecord
  obtain ⟨hlist'', hmarker''⟩ := route53_follows.applyAll hbare hz record hrecord
  exact ⟨hlist.trans hlist'.symm, hlist'.trans hlist''.symm, hmarker.trans hmarker'.symm,
    hmarker'.trans hmarker''.symm⟩

def emptyZone : CloudflareZone := ⟨[], 0, nofun, List.nodup_nil⟩

attribute [local instance] listingOrder in
theorem drivers_agree_from_empty :
    let updates : List RecordUpdate :=
      [.ensureMarker "rpc.example.com", .addMember "rpc.example.com" "1.1.1.1" 60,
        .removeMember "rpc.example.com" "1.1.1.1"]
    cloudflareDriver.listMembers (cloudflareDriver.applyAll emptyZone updates) "rpc.example.com" =
      route53Driver.listMembers (route53Driver.applyAll Table.empty updates) "rpc.example.com" :=
  (drivers_agree (a := ⟨fun _ => ∅, fun _ => false⟩) (m := {}) (c := emptyZone) (z := Table.empty)
    (fun _ _ => ⟨rfl, rfl⟩) (fun _ _ => ⟨rfl, rfl⟩) (fun _ _ => ⟨rfl, rfl⟩) (by decide)
    (by decide)).2.1

end Solfleet
