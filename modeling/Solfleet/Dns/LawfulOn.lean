import Solfleet.Dns.Agreement

/-! # Drivers that are lawful on some names

Route53 takes a name with a trailing dot and the name without it for one record, so its
driver is lawful on bare names only. Such a driver is extended to one that is lawful on all
names by keeping the other names beside its state.
-/

namespace Solfleet

namespace Assignment

variable {a b : Assignment} {u : RecordUpdate} {r : String}

/-- What both say of one record. -/
def AgreeAt (r : String) (a b : Assignment) : Prop :=
  a.members r = b.members r ∧ a.marked r = b.marked r

theorem AgreeAt.symm (h : AgreeAt r a b) : AgreeAt r b a := ⟨h.1.symm, h.2.symm⟩

theorem AgreeAt.trans {c : Assignment} (h : AgreeAt r a b) (h' : AgreeAt r b c) : AgreeAt r a c :=
  ⟨h.1.trans h'.1, h.2.trans h'.2⟩

theorem AgreeAt.apply (h : AgreeAt r a b) (u : RecordUpdate) :
    AgreeAt r (a.apply u) (b.apply u) := by
  rcases h with ⟨hmembers, hmarked⟩
  cases u with
  | addMember record ip ttl =>
      by_cases hr : r = record
      · subst hr
        simp [AgreeAt, Assignment.apply, hmembers, hmarked]
      · simp [AgreeAt, Assignment.apply, hr, hmembers, hmarked]
  | removeMember record ip =>
      by_cases hr : r = record
      · subst hr
        simp [AgreeAt, Assignment.apply, hmembers, hmarked]
      · simp [AgreeAt, Assignment.apply, hr, hmembers, hmarked]
  | ensureMarker record =>
      by_cases hr : r = record
      · subst hr
        simp [AgreeAt, Assignment.apply, hmembers]
      · simp [AgreeAt, Assignment.apply, hr, hmembers, hmarked]

/-- An update is about its own record. -/
theorem agreeAt_apply_of_ne (h : r ≠ u.record) : AgreeAt r (a.apply u) a := by
  cases u with
  | addMember | removeMember | ensureMarker =>
      exact ⟨by simp_all [Assignment.apply, RecordUpdate.record],
        by simp_all [Assignment.apply, RecordUpdate.record]⟩

theorem ext_of_agreeAt (h : ∀ r, AgreeAt r a b) : a = b := by
  cases a
  cases b
  exact congrArg₂ Assignment.mk (funext fun r => (h r).1) (funext fun r => (h r).2)

end Assignment

namespace DnsDriver

/-- What the driver says of all records. -/
def shown (D : DnsDriver) (s : D.State) : Assignment := ⟨D.members s, D.hasMarker s⟩

/-- On these names an update does what it should, and every other name stands for one of
them. -/
structure LawfulOn (D : DnsDriver) (names : String → Prop) : Prop where
  follows : ∀ s u, names u.record → ∀ r, names r →
    Assignment.AgreeAt r (D.shown (D.apply s u)) ((D.shown s).apply u)
  named : ∀ r, ∃ r', names r' ∧
    ∀ s, D.members s r = D.members s r' ∧ D.hasMarker s r = D.hasMarker s r'

/-! ## The other names beside the driver -/

section Beside

variable (D : DnsDriver) (names : String → Prop) [DecidablePred names]

def applyBeside (t : D.State × Assignment) (u : RecordUpdate) : D.State × Assignment :=
  if names u.record then (D.apply t.1 u, t.2) else (t.1, t.2.apply u)

/-- The driver on these names, and an assignment for all others. -/
def beside : DnsDriver where
  State := D.State × Assignment
  listMembers t record :=
    if names record then D.listMembers t.1 record else sorted (t.2.members record)
  addMember t record ip ttl := applyBeside D names t (.addMember record ip ttl)
  removeMember t record ip := applyBeside D names t (.removeMember record ip)
  hasMarker t record := if names record then D.hasMarker t.1 record else t.2.marked record
  ensureMarker t record := applyBeside D names t (.ensureMarker record)

/-- A state of the driver, with what it says of the other names beside it. -/
def aside (s : D.State) : (D.beside names).State := (s, D.shown s)

variable {D names} {t : (D.beside names).State} {r : String}

theorem beside_members :
    (D.beside names).members t r = if names r then D.members t.1 r else t.2.members r := by
  show (if names r then D.listMembers t.1 r else sorted (t.2.members r)).toFinset = _
  split
  · rfl
  · exact toFinset_sorted _

theorem beside_on (h : names r) : Assignment.AgreeAt r ((D.beside names).shown t) (D.shown t.1) :=
  ⟨beside_members.trans (if_pos h), if_pos h⟩

theorem beside_off (h : ¬ names r) : Assignment.AgreeAt r ((D.beside names).shown t) t.2 :=
  ⟨beside_members.trans (if_neg h), if_neg h⟩

theorem shown_aside (s : D.State) : (D.beside names).shown (D.aside names s) = D.shown s :=
  Assignment.ext_of_agreeAt fun r => by
    by_cases h : names r
    · exact beside_on h
    · exact beside_off h

end Beside

variable {D : DnsDriver} {names : String → Prop} [DecidablePred names]

theorem LawfulOn.shown_apply (h : D.LawfulOn names) (t : D.State × Assignment)
    (u : RecordUpdate) :
    (D.beside names).shown (D.applyBeside names t u) = ((D.beside names).shown t).apply u := by
  refine Assignment.ext_of_agreeAt fun r => ?_
  by_cases hu : names u.record
  · rw [applyBeside, if_pos hu]
    by_cases hr : names r
    · exact (beside_on hr).trans ((h.follows t.1 u hu r hr).trans ((beside_on hr).symm.apply u))
    · have hne : r ≠ u.record := fun heq => hr (heq ▸ hu)
      have hbefore : Assignment.AgreeAt r t.2 ((D.beside names).shown t) := (beside_off hr).symm
      exact (beside_off hr).trans (hbefore.trans (Assignment.agreeAt_apply_of_ne hne).symm)
  · rw [applyBeside, if_neg hu]
    by_cases hr : names r
    · have hne : r ≠ u.record := fun heq => hu (heq ▸ hr)
      have hbefore : Assignment.AgreeAt r (D.shown t.1) ((D.beside names).shown t) :=
        (beside_on hr).symm
      exact (beside_on hr).trans (hbefore.trans (Assignment.agreeAt_apply_of_ne hne).symm)
    · exact (beside_off hr).trans ((beside_off hr).symm.apply u)

/-- With the other names beside it the driver is lawful. -/
def LawfulOn.extend (h : D.LawfulOn names) : LawfulDriver where
  toDnsDriver := D.beside names
  members_add t record ip ttl :=
    congrArg Assignment.members (h.shown_apply t (.addMember record ip ttl))
  members_remove t record ip :=
    congrArg Assignment.members (h.shown_apply t (.removeMember record ip))
  members_ensure t record :=
    congrArg Assignment.members (h.shown_apply t (.ensureMarker record))
  marker_add t record ip ttl :=
    congrArg Assignment.marked (h.shown_apply t (.addMember record ip ttl))
  marker_remove t record ip :=
    congrArg Assignment.marked (h.shown_apply t (.removeMember record ip))
  marker_ensure t record :=
    congrArg Assignment.marked (h.shown_apply t (.ensureMarker record))

end DnsDriver

/-! ## Route53 -/

namespace Route53

theorem bareName_rstrip (name : String) : BareName (Text.rstrip '.' name) :=
  Text.endsWith_rstrip '.' name

theorem fqdn_rstrip (name : String) : fqdn (Text.rstrip '.' name) = fqdn name := by
  rw [fqdn, fqdn, rstrip_of_bare (bareName_rstrip name)]

theorem fqdn_markerName_rstrip (name : String) :
    fqdn (markerName (Text.rstrip '.' name)) = fqdn (markerName name) := by
  rw [fqdn, fqdn, markerName, markerName, Text.rstrip_append_rstrip]

section

variable [LinearOrder RecordKey]

theorem driver_members (z : Route53Zone) (record : String) :
    route53Driver.members z record = members z record := by
  show (route53Driver.listMembers z record).toFinset = members z record
  rw [driver_listMembers, toFinset_listed]

theorem members_of_keeps {key : RecordKey} {z z' : Route53Zone} (h : Keeps key z z')
    {record : String} (hne : memberKey record ≠ key) : members z' record = members z record := by
  rw [members, members, h _ hne]

/-- A driver that leaves all but one record's set, and has this set for it. -/
theorem agreeAt_of_members {z z' : Route53Zone} {record r : String} {ips : Finset String}
    (hrecord : BareName record) (hr : BareName r) (hkeeps : Keeps (memberKey record) z z')
    (hips : members z' record = ips) :
    Assignment.AgreeAt r (route53Driver.shown z')
      ⟨Function.update (route53Driver.members z) record ips, route53Driver.hasMarker z⟩ := by
  constructor
  · show route53Driver.members z' r = Function.update (route53Driver.members z) record ips r
    rw [driver_members]
    by_cases heq : r = record
    · rw [heq, hips, Function.update_self]
    · have hne : memberKey r ≠ memberKey record := fun hkey =>
        heq (fqdn_injective hr hrecord (congrArg RecordKey.name hkey))
      rw [Function.update_of_ne heq, driver_members, members_of_keeps hkeeps hne]
  · show route53Driver.hasMarker z' r = route53Driver.hasMarker z r
    rw [driver_hasMarker, driver_hasMarker,
      marked_of_keeps hkeeps (memberKey_ne_markerKey record r).symm]

theorem agreeAt_apply (z : Route53Zone) {u : RecordUpdate} {r : String} (hu : BareName u.record)
    (hr : BareName r) :
    Assignment.AgreeAt r (route53Driver.shown (route53Driver.apply z u))
      ((route53Driver.shown z).apply u) := by
  cases u with
  | addMember record ip ttl =>
      obtain ⟨z', hends, hkeeps, hmembers, -⟩ := addMember_ends z record ip ttl
      have hfinal : route53Driver.apply z (.addMember record ip ttl) = z' := hends.final
      rw [← driver_members z] at hmembers
      rw [hfinal]
      exact agreeAt_of_members hu hr hkeeps hmembers
  | removeMember record ip =>
      obtain ⟨z', hends, hkeeps, hmembers, -⟩ := removeMember_ends z record ip
      have hfinal : route53Driver.apply z (.removeMember record ip) = z' := hends.final
      rw [← driver_members z] at hmembers
      rw [hfinal]
      exact agreeAt_of_members hu hr hkeeps hmembers
  | ensureMarker record =>
      obtain ⟨z', hends, hkeeps, hmarked⟩ := ensureMarker_ends z record
      have hfinal : route53Driver.apply z (.ensureMarker record) = z' := hends.final
      rw [hfinal]
      constructor
      · show route53Driver.members z' r = route53Driver.members z r
        rw [driver_members, driver_members,
          members_of_keeps hkeeps (memberKey_ne_markerKey r record)]
      · show route53Driver.hasMarker z' r =
          Function.update (route53Driver.hasMarker z) record true r
        rw [driver_hasMarker]
        by_cases heq : r = record
        · rw [heq, hmarked, Function.update_self]
        · have hne : markerKey r ≠ markerKey record := fun hkey =>
            heq (fqdn_markerName_injective hr hu (congrArg RecordKey.name hkey))
          rw [Function.update_of_ne heq, driver_hasMarker, marked_of_keeps hkeeps hne]

/-- A trailing dot makes no difference. -/
theorem driver_rstrip (z : Route53Zone) (record : String) :
    route53Driver.members z record = route53Driver.members z (Text.rstrip '.' record) ∧
      route53Driver.hasMarker z record = route53Driver.hasMarker z (Text.rstrip '.' record) := by
  constructor
  · rw [driver_members, driver_members, members, members, memberKey, memberKey, fqdn_rstrip]
  · rw [driver_hasMarker, driver_hasMarker, marked, marked, markerKey, markerKey,
      fqdn_markerName_rstrip]

end

end Route53

/-- The Route53 driver is lawful on bare names, and takes any other name for a bare one. -/
theorem route53_lawfulOn [LinearOrder RecordKey] : route53Driver.LawfulOn BareName where
  follows z _ hu _ hr := Route53.agreeAt_apply z hu hr
  named r := ⟨Text.rstrip '.' r, Route53.bareName_rstrip r, fun z => Route53.driver_rstrip z r⟩

end Solfleet
