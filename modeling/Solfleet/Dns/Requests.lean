import Solfleet.Dns.CloudflareApi
import Solfleet.Dns.LostUpdate
import Solfleet.Dns.Agreement

/-! # Cloudflare requests of several processes

An A record at Cloudflare is one address, and a request creates or deletes one record. So what
the requests of different processes do to one record of the zone stays apart by address, however
they interleave, where the whole sets of Route53 overwrite one another.
-/

namespace Solfleet

open Interaction Program

/-! ## The world -/

/-- What the one does, and what the other does. -/
def Jointly (p q : String → String → Prop) (record ip : String) : Prop :=
  p record ip ∨ q record ip

theorem Jointly.left {p q : String → String → Prop} : p ≤ Jointly p q := fun _ _ => .inl

theorem Jointly.right {p q : String → String → Prop} : q ≤ Jointly p q := fun _ _ => .inr

theorem jointly_self (p : String → String → Prop) : Jointly p p = p :=
  funext fun _ => funext fun _ => propext (or_self_iff)

/-- A driver's own field is always there; anything else may fail. -/
def CloudflareCall.MayFail {κ : Type} : CloudflareCall κ → Prop
  | .zoneId _ | .setZoneId .. => False
  | _ => True

/-- Any request may fail, before it reached the provider or after. -/
inductive CloudflareAnswers {κ : Type} [DecidableEq κ] (clusters : List ClusterStatus) :
    Semantics (cloudflareSignature κ) Exn (CloudflareAccount κ)
  | answered (s : CloudflareAccount κ) (call : CloudflareCall κ) :
      CloudflareAnswers clusters s call (cloudflareApi clusters call s).1
        (cloudflareApi clusters call s).2
  | refused (s : CloudflareAccount κ) (call : CloudflareCall κ) (e : Exn) (h : call.MayFail) :
      CloudflareAnswers clusters s call (.error e) s
  | lost (s : CloudflareAccount κ) (r : CloudflareRequest) (e : Exn) :
      CloudflareAnswers clusters s (.request r) (.error e) (cloudflareApi clusters (.request r) s).2

/-! ## How a zone may change -/

/-- From `z` to `z'` A records appeared only where `adds` lets them and disappeared only where
`removes` does, and no identifier was given twice. -/
structure CloudflareZone.Drifts (adds removes : String → String → Prop) (z z' : CloudflareZone) :
    Prop where
  nextId : z.nextId ≤ z'.nextId
  unused : ∀ rec ∈ z'.records, rec ∈ z.records ∨ z.nextId ≤ rec.id
  kept : ∀ rec ∈ z.records, rec.rtype = .a → rec ∈ z'.records ∨ removes rec.name rec.content
  old : ∀ rec ∈ z'.records, rec.rtype = .a → rec ∈ z.records ∨ adds rec.name rec.content

namespace CloudflareZone

variable {adds removes adds' removes' : String → String → Prop} {z z' z'' : CloudflareZone}
  {rec : ZoneRecord} {record ip : String}

theorem Drifts.refl (z : CloudflareZone) : Drifts adds removes z z :=
  ⟨Nat.le_refl _, fun _ h => .inl h, fun _ h _ => .inl h, fun _ h _ => .inl h⟩

theorem Drifts.trans (h : Drifts adds removes z z') (h' : Drifts adds removes z' z'') :
    Drifts adds removes z z'' where
  nextId := h.nextId.trans h'.nextId
  unused rec hrec := by
    rcases h'.unused rec hrec with hmid | hnew
    · exact h.unused rec hmid
    · exact .inr (h.nextId.trans hnew)
  kept rec hrec ha := by
    rcases h.kept rec hrec ha with hmid | hgone
    · exact h'.kept rec hmid ha
    · exact .inr hgone
  old rec hrec ha := by
    rcases h'.old rec hrec ha with hmid | hadded
    · exact h.old rec hmid ha
    · exact .inr hadded

theorem Drifts.mono (h : Drifts adds removes z z') (hadds : adds ≤ adds')
    (hremoves : removes ≤ removes') : Drifts adds' removes' z z' where
  nextId := h.nextId
  unused := h.unused
  kept rec hrec ha := (h.kept rec hrec ha).imp_right (hremoves _ _)
  old rec hrec ha := (h.old rec hrec ha).imp_right (hadds _ _)

theorem drifts_post {rtype : RecordType} {name content : String} {ttl : Int}
    (h : rtype = .a → adds name content) :
    Drifts adds removes z (z.post rtype name content ttl) where
  nextId := Nat.le_succ _
  unused rec hrec := by
    rcases List.mem_append.mp hrec with hold | hnew
    · exact .inl hold
    · rw [List.mem_singleton.mp hnew]
      exact .inr (Nat.le_refl _)
  kept rec hrec _ := .inl (List.mem_append_left _ hrec)
  old rec hrec ha := by
    rcases List.mem_append.mp hrec with hold | hnew
    · exact .inl hold
    · rw [List.mem_singleton.mp hnew] at ha ⊢
      exact .inr (h ha)

/-- An identifier that was seen is still that of the same record, if of any. -/
theorem Drifts.eq_of_id (h : Drifts adds removes z z') (hrec : rec ∈ z.records) {r : ZoneRecord}
    (hr : r ∈ z'.records) (hid : r.id = rec.id) : r = rec := by
  rcases h.unused r hr with hold | hnew
  · exact List.inj_on_of_nodup_map z.distinct hold hrec hid
  · have hlt := z.fresh rec hrec
    omega

/-- A record that was found is deleted later on. -/
theorem Drifts.delete (h : Drifts adds' removes' z z') (hrec : rec ∈ z.records)
    (hremove : removes rec.name rec.content) : Drifts adds removes z' (z'.delete rec.id) where
  nextId := Nat.le_refl _
  unused r hr := .inl (List.mem_of_mem_filter hr)
  kept r hr _ := by
    by_cases hid : r.id = rec.id
    · rw [h.eq_of_id hrec hr hid]
      exact .inr hremove
    · exact .inl (List.mem_filter.mpr ⟨hr, decide_eq_true hid⟩)
  old r hr _ := .inl (List.mem_of_mem_filter hr)

theorem Drifts.listed (h : Drifts adds removes z z') (hremoves : ¬ removes record ip)
    (hip : ip ∈ z.listMembers record) : ip ∈ z'.listMembers record := by
  obtain ⟨rec, hrec, ha, rfl, rfl⟩ := mem_listMembers.mp hip
  exact mem_listMembers.mpr ⟨rec, (h.kept rec hrec ha).resolve_right hremoves, ha, rfl, rfl⟩

theorem Drifts.was_listed (h : Drifts adds removes z z') (hadds : ¬ adds record ip)
    (hip : ip ∈ z'.listMembers record) : ip ∈ z.listMembers record := by
  obtain ⟨rec, hrec, ha, rfl, rfl⟩ := mem_listMembers.mp hip
  exact mem_listMembers.mpr ⟨rec, (h.old rec hrec ha).resolve_right hadds, ha, rfl, rfl⟩

/-- A record that is gone does not come back. -/
theorem Drifts.gone (h : Drifts adds removes z z') (hrec : rec ∉ z.records)
    (hid : rec.id < z.nextId) : rec ∉ z'.records ∧ rec.id < z'.nextId := by
  refine ⟨fun hrec' => ?_, Nat.lt_of_lt_of_le hid h.nextId⟩
  rcases h.unused rec hrec' with hold | hnew
  · exact hrec hold
  · omega

end CloudflareZone

/-! ## How an account may change -/

/-- The account has the zone, and no driver keeps another identifier for it. -/
structure CloudflareAccount.Sound {κ : Type} (s : CloudflareAccount κ) (zone id : String) :
    Prop where
  found : (s.zonesNamed zone).head? = some id
  kept : ∀ k x, s.zoneIds k = some x → x = id

/-- A change of the account that leaves it sound, as a drift of the one zone. -/
structure Serves {κ : Type} (zone id : String) (adds removes : String → String → Prop)
    (s t : CloudflareAccount κ) : Prop where
  sound : s.Sound zone id → t.Sound zone id
  drifts : (s.records id).Drifts adds removes (t.records id)

section Serves

variable {κ : Type} {zone id : String} {adds removes adds' removes' : String → String → Prop}
  {s t u : CloudflareAccount κ}

theorem Serves.refl (s : CloudflareAccount κ) : Serves zone id adds removes s s :=
  ⟨fun h => h, .refl _⟩

theorem Serves.trans (h : Serves zone id adds removes s t) (h' : Serves zone id adds removes t u) :
    Serves zone id adds removes s u :=
  ⟨fun hs => h'.sound (h.sound hs), h.drifts.trans h'.drifts⟩

theorem Serves.mono (h : Serves zone id adds removes s t) (hadds : adds ≤ adds')
    (hremoves : removes ≤ removes') : Serves zone id adds' removes' s t :=
  ⟨h.sound, h.drifts.mono hadds hremoves⟩

theorem serves_setRecords {z : CloudflareZone} (h : (s.records id).Drifts adds removes z) :
    Serves zone id adds removes s (s.setRecords id z) where
  sound hs := ⟨hs.found, hs.kept⟩
  drifts := by
    rw [CloudflareAccount.setRecords_self]
    exact h

end Serves

/-! ## One driver among others -/

namespace CloudflareDriver

section Requests

variable {κ : Type} [DecidableEq κ] {clusters : List ClusterStatus} {d : CloudflareDriver κ}
  {id : String} {adds removes adds' removes' : String → String → Prop} {s : CloudflareAccount κ}
  {α : Type}

/-- While the others change the zone within `adds` and `removes`, the driver changes it within
`adds'` and `removes'`, and what it returns satisfies `post`. -/
abbrev Keeps (clusters : List ClusterStatus) (d : CloudflareDriver κ) (id : String)
    (adds removes adds' removes' : String → String → Prop)
    (post : α → CloudflareAccount κ → Prop) (p : CloudflareProgram κ α)
    (s : CloudflareAccount κ) : Prop :=
  Within (CloudflareAnswers clusters) (Serves d.zone id adds removes)
    (Serves d.zone id adds' removes') (IfOk post) p s

/-- One request of the driver, which from a sound state is a change it may make. -/
theorem keeps_request {r : CloudflareRequest} {post : r.Answer → CloudflareAccount κ → Prop}
    (hs : s.Sound d.zone id) {P : CloudflareAccount κ → Prop} (hP : P s)
    (hstable : ∀ t u, Serves d.zone id adds removes t u → P t → P u)
    (hstep : ∀ t, P t →
      Serves d.zone id adds' removes' t (cloudflareApi clusters (.request r) t).2)
    (hpost : ∀ t u a, t.Sound d.zone id → P t →
      (cloudflareApi clusters (.request r) t).1 = .ok a →
      Serves d.zone id adds removes (cloudflareApi clusters (.request r) t).2 u → post a u) :
    Keeps clusters d id adds removes adds' removes' post (request r) s := by
  intro t ht answer u hu
  have hPt := hstable s t ht hP
  have hst := ht.sound hs
  cases hu with
  | answered =>
      refine ⟨hstep t hPt, fun v hv => ?_⟩
      cases hanswer : (cloudflareApi clusters (.request r) t).1 with
      | ok a => exact hpost t v a hst hPt hanswer hv
      | error e => trivial
  | refused => exact ⟨Serves.refl t, fun _ _ => trivial⟩
  | lost => exact ⟨hstep t hPt, fun _ _ => trivial⟩

omit [DecidableEq κ] in
theorem sound_stable (t u : CloudflareAccount κ) (h : Serves d.zone id adds removes t u)
    (ht : t.Sound d.zone id) : u.Sound d.zone id := h.sound ht

/-- The identifier that was looked up is kept. -/
theorem keeps_firstZone {result : List String} (hs : s.Sound d.zone id)
    (hresult : result.head? = some id) :
    Keeps clusters d id adds removes adds' removes' (fun x t => x = id ∧ t.Sound d.zone id)
      (d.firstZone result) s := by
  cases result with
  | nil => cases hresult
  | cons x rest =>
      have hx : x = id := Option.some_inj.mp hresult
      subst hx
      intro t ht answer u hu
      have hst := ht.sound hs
      cases hu with
      | answered =>
          have hset : Serves d.zone x adds' removes' t
              (cloudflareApi clusters (.setZoneId d.self x) t).2 := by
            refine ⟨fun h => ⟨h.found, fun k y hy => ?_⟩, .refl _⟩
            by_cases hk : k = d.self
            · subst hk
              have hsome := (Function.update_self ..).symm.trans hy
              exact (Option.some_inj.mp hsome).symm
            · exact h.kept k y ((Function.update_of_ne hk ..).symm.trans hy)
          exact ⟨hset, fun v hv => ⟨rfl, hv.sound (hset.sound hst)⟩⟩
      | refused _ _ _ h => exact h.elim

theorem keeps_zid (hs : s.Sound d.zone id) :
    Keeps clusters d id adds removes adds' removes' (fun x t => x = id ∧ t.Sound d.zone id)
      d.zid s := by
  have hfield : Keeps clusters d id adds removes adds' removes'
      (fun kept t => t.Sound d.zone id ∧ ∀ x, kept = some x → x = id)
      (perform (S := cloudflareSignature κ) (.zoneId d.self)) s := by
    intro t ht answer u hu
    have hst := ht.sound hs
    cases hu with
    | answered => exact ⟨.refl t, fun v hv => ⟨hv.sound hst, fun x => hst.kept d.self x⟩⟩
    | refused _ _ _ h => exact h.elim
  refine hfield.bind_ok Serves.refl fun kept t ht => ?_
  cases kept with
  | some x => exact fun u hu => ⟨ht.2 x rfl, hu.sound ht.1⟩
  | none =>
      have hlookup : Keeps clusters d id adds removes adds' removes'
          (fun result u => u.Sound d.zone id ∧ List.head? result = some id)
          (request (.getZones d.zone)) t := by
        refine keeps_request ht.1 ht.1 sound_stable (fun u _ => .refl u) fun u v a hu _ ha hv => ?_
        have hzones : u.zonesNamed d.zone = a := Except.ok.inj ha
        exact ⟨hv.sound hu, hzones ▸ hu.found⟩
      exact hlookup.bind_ok Serves.refl fun result u hu => keeps_firstZone hu.1 hu.2

/-! ### The methods -/

/-- The zone as it once was, and all that has been done to it since. -/
abbrev Past (id : String) (adds removes adds' removes' : String → String → Prop)
    (z : CloudflareZone) (t : CloudflareAccount κ) : Prop :=
  z.Drifts (Jointly adds adds') (Jointly removes removes') (t.records id)

omit [DecidableEq κ] in
theorem past_of_others {z : CloudflareZone} (t u : CloudflareAccount κ)
    (h : Serves d.zone id adds removes t u) (hz : Past id adds removes adds' removes' z t) :
    Past id adds removes adds' removes' z u :=
  hz.trans (h.drifts.mono Jointly.left Jointly.left)

omit [DecidableEq κ] in
theorem past_of_own {z : CloudflareZone} (t u : CloudflareAccount κ)
    (h : Serves d.zone id adds' removes' t u) (hz : Past id adds removes adds' removes' z t) :
    Past id adds removes adds' removes' z u :=
  hz.trans (h.drifts.mono Jointly.right Jointly.right)

omit [DecidableEq κ] in
theorem past_now {t u : CloudflareAccount κ} (h : Serves d.zone id adds removes t u) :
    Past id adds removes adds' removes' (t.records id) u :=
  past_of_others t u h (.refl _)

theorem keeps_records (hs : s.Sound d.zone id) (rtype : RecordType) (name : String) :
    Keeps clusters d id adds removes adds' removes'
      (fun found t => t.Sound d.zone id ∧ ∃ z : CloudflareZone, found = z.query rtype name ∧
        Past id adds removes adds' removes' z t) (d.records rtype name) s := by
  refine (keeps_zid hs).bind_ok Serves.refl fun x t ht => ?_
  obtain ⟨rfl, hst⟩ := ht
  refine keeps_request hst hst sound_stable (fun u _ => .refl u) fun u v a hu _ ha hv => ?_
  have hfound : (u.records x).query rtype name = a := Except.ok.inj ha
  exact ⟨hv.sound hu, u.records x, hfound.symm, past_now hv⟩

theorem keeps_listMembers (hs : s.Sound d.zone id) (record : String) :
    Keeps clusters d id adds removes adds' removes'
      (fun listed t => t.Sound d.zone id ∧ ∃ z : CloudflareZone, listed = z.listMembers record ∧
        Past id adds removes adds' removes' z t) (d.listMembers record) s := by
  refine (keeps_records hs .a record).bind_ok Serves.refl fun found t ht u hu => ?_
  obtain ⟨hst, z, rfl, hz⟩ := ht
  exact ⟨hu.sound hst, z, rfl, past_of_others t u hu hz⟩

theorem keeps_post (hs : s.Sound d.zone id) {rtype : RecordType} {name content : String} {ttl : Int}
    (h : rtype = .a → adds' name content) :
    Keeps clusters d id adds removes adds' removes'
      (fun _ t => ∃ z : CloudflareZone,
        Past id adds removes adds' removes' (z.post rtype name content ttl) t)
      (d.post rtype name content ttl) s := by
  refine (keeps_zid hs).bind_ok Serves.refl fun x t ht => ?_
  obtain ⟨rfl, hst⟩ := ht
  refine keeps_request hst hst sound_stable (fun u _ => ?_) fun u v a _ _ _ hv => ?_
  · exact serves_setRecords (CloudflareZone.drifts_post h)
  · have hnow : Past x adds removes adds' removes' _ v := past_now hv
    refine ⟨u.records x, ?_⟩
    rwa [show (cloudflareApi clusters _ u).2 = u.setRecords x _ from rfl,
      CloudflareAccount.setRecords_self] at hnow

theorem keeps_addMember (hs : s.Sound d.zone id) {record ip : String} (ttl : Int)
    (h : adds' record ip) :
    Keeps clusters d id adds removes adds' removes'
      (fun _ t => ∃ z : CloudflareZone, ip ∈ z.listMembers record ∧
        Past id adds removes adds' removes' z t) (d.addMember record ip ttl) s := by
  refine (keeps_listMembers hs record).bind_ok Serves.refl fun listed t ht => ?_
  obtain ⟨hst, z, rfl, hz⟩ := ht
  split
  case isTrue hin => exact fun u hu => ⟨z, hin, past_of_others t u hu hz⟩
  case isFalse =>
    refine (keeps_post hst fun _ => h).mono fun r u hr => ?_
    cases r with
    | error e => trivial
    | ok _ =>
        obtain ⟨z', hz'⟩ := hr
        refine ⟨_, CloudflareZone.mem_listMembers.mpr ?_, hz'⟩
        exact ⟨_, List.mem_append_right _ (List.mem_singleton_self _), rfl, rfl, rfl⟩

/-- The record is not there, and its identifier is a used one. -/
def Gone (id : String) (rec : ZoneRecord) (t : CloudflareAccount κ) : Prop :=
  rec ∉ (t.records id).records ∧ rec.id < (t.records id).nextId

omit [DecidableEq κ] in
theorem Gone.serves {rec : ZoneRecord} {t u : CloudflareAccount κ} (h : Gone id rec t)
    (hu : Serves d.zone id adds removes t u) : Gone id rec u := hu.drifts.gone h.1 h.2

/-- A record that was found is gone afterwards, and for good. -/
theorem keeps_deleteRecord (hs : s.Sound d.zone id) {z : CloudflareZone} {rec : ZoneRecord}
    (hz : Past id adds removes adds' removes' z s) (hrec : rec ∈ z.records)
    (hremove : removes' rec.name rec.content) :
    Keeps clusters d id adds removes adds' removes'
      (fun _ t => Gone id rec t) (d.deleteRecord rec) s := by
  have hzid : Keeps clusters d id adds removes adds' removes' _ d.zid s := keeps_zid hs
  refine (hzid.keep_ok past_of_others past_of_own hz).bind_ok Serves.refl fun x t ht => ?_
  obtain ⟨⟨rfl, hst⟩, hzt⟩ := ht
  refine keeps_request hst hzt past_of_others (fun u hu => ?_) fun u v a _ hu ha hv => ?_
  · rw [cloudflareApi]
    split
    · exact serves_setRecords (hu.delete hrec hremove)
    · exact .refl u
  · rw [cloudflareApi] at ha hv
    split at ha
    case isFalse => cases ha
    case isTrue hin =>
      rw [if_pos hin] at hv
      have hdrifts := hv.drifts
      rw [CloudflareAccount.setRecords_self] at hdrifts
      refine hdrifts.gone (fun hmem => ?_) (Nat.lt_of_lt_of_le (z.fresh rec hrec) hu.nextId)
      exact of_decide_eq_true (List.mem_filter.mp hmem).2 rfl

/-- Where nobody adds the address, no record of it is left. -/
theorem keeps_removeMember (hs : s.Sound d.zone id) {record ip : String}
    (hremove : removes' record ip) (hadds : ¬ Jointly adds adds' record ip) :
    Keeps clusters d id adds removes adds' removes'
      (fun _ t => ip ∉ (t.records id).listMembers record) (d.removeMember record ip) s := by
  refine (keeps_records hs .a record).bind_ok Serves.refl fun found t ht => ?_
  obtain ⟨hst, z, rfl, hz⟩ := ht
  have hloop : Keeps clusters d id adds removes adds' removes'
      (fun _ u => ∀ rec ∈ z.query .a record, rec.content = ip → Gone id rec u)
      (each (z.query .a record) fun rec =>
        if rec.content = ip then d.deleteRecord rec else pure ()) t := by
    refine Within.each_ok
      (I := fun u => u.Sound d.zone id ∧ Past id adds removes adds' removes' z u)
      (Q := fun (rec : ZoneRecord) u => rec.content = ip → Gone id rec u) Serves.refl
      (fun u v huv hu => ⟨huv.sound hu.1, past_of_others u v huv hu.2⟩)
      (fun u v huv hu => ⟨huv.sound hu.1, past_of_own u v huv hu.2⟩)
      (fun rec u v huv hu hip => (hu hip).serves huv)
      (fun rec u v huv hu hip => (hu hip).serves huv) (fun rec hrec u hu => ?_) ⟨hst, hz⟩
    obtain ⟨hin, hkey⟩ := List.mem_filter.mp hrec
    have hname := (of_decide_eq_true hkey).2
    split
    case isTrue hip =>
      have hown : removes' rec.name rec.content := by
        rw [hname, hip]
        exact hremove
      refine (keeps_deleteRecord hu.1 hu.2 hin hown).mono fun r v hr => ?_
      cases r with
      | ok _ => exact fun _ => hr
      | error e => trivial
    case isFalse hip => exact fun v _ hip' => absurd hip' hip
  refine (hloop.keep_ok past_of_others past_of_own hz).bind_ok Serves.refl
    fun _ u hu v hv hlisted => ?_
  obtain ⟨rec, hrec, ha, hname, hip⟩ := CloudflareZone.mem_listMembers.mp hlisted
  have hpast := past_of_others u v hv hu.2
  have hfound : rec ∈ z.query .a record := by
    refine List.mem_filter.mpr ⟨(hpast.old rec hrec ha).resolve_right ?_, ?_⟩
    · rw [hname, hip]
      exact hadds
    · exact decide_eq_true ⟨ha, hname⟩
  exact ((hu.1 rec hfound hip).serves hv).1 hrec

theorem keeps_ensureMarker (hs : s.Sound d.zone id) (record : String) :
    Keeps clusters d id adds removes adds' removes' (fun _ _ => True)
      (d.ensureMarker record) s := by
  have hmarked : Keeps clusters d id adds removes adds' removes'
      (fun _ t => t.Sound d.zone id) (d.hasMarker record) s :=
    (keeps_records hs .txt (markerName record)).bind_ok Serves.refl
      fun found t ht u hu => hu.sound ht.1
  refine hmarked.bind_ok Serves.refl fun marked t ht => ?_
  split
  · exact fun _ _ => trivial
  · refine (keeps_post ht fun h => by cases h).mono fun r u _ => ?_
    cases r with
    | ok _ => trivial
    | error e => trivial

end Requests

/-- An update of one record by way of this driver. -/
def change {κ : Type} (d : CloudflareDriver κ) (record : String) :
    MemberChange → CloudflareProgram κ Unit
  | .add ip ttl => d.addMember record ip ttl
  | .remove ip => d.removeMember record ip

end CloudflareDriver

/-! ## No lost update -/

namespace MemberChange

/-- The update may create records of the address. -/
def Adds (c : MemberChange) (record r ip : String) : Prop :=
  (r, ip) = (record, c.ip) ∧ ∃ ttl, c = .add c.ip ttl

/-- The update may delete records of the address. -/
def Removes (c : MemberChange) (record r ip : String) : Prop :=
  (r, ip) = (record, c.ip) ∧ c = .remove c.ip

/-- The address of another update. -/
def Other (c : MemberChange) (record r ip : String) : Prop := (r, ip) ≠ (record, c.ip)

end MemberChange

section LostUpdate

variable {κ ι : Type} [DecidableEq κ] [DecidableEq ι] {clusters : List ClusterStatus}
  {s : CloudflareAccount κ} {id : String}

/-- The A set of a record in the zone `id`. -/
def CloudflareAccount.members {κ : Type} (s : CloudflareAccount κ) (id record : String) :
    Finset String :=
  cloudflareDriver.members (s.records id) record

omit [DecidableEq κ] in
theorem mem_members {record ip : String} :
    ip ∈ s.members id record ↔ ip ∈ (s.records id).listMembers record := List.mem_toFinset

/-- Where only others change anything else, the update is made when it returns. -/
theorem keeps_change (d : CloudflareDriver κ) (hs : s.Sound d.zone id) (record : String)
    (c : MemberChange) :
    CloudflareDriver.Keeps clusters d id (c.Other record) (c.Other record) (c.Adds record)
      (c.Removes record) (fun _ t => c.Made (t.members id record)) (d.change record c) s := by
  cases c with
  | add ip ttl =>
      refine (CloudflareDriver.keeps_addMember hs ttl ⟨rfl, ttl, rfl⟩).mono fun r t hr => ?_
      cases r with
      | error e => trivial
      | ok _ =>
          obtain ⟨z, hz, hpast⟩ := hr
          refine mem_members.mpr (hpast.listed ?_ hz)
          rintro (hother | hremoves)
          · exact hother rfl
          · exact absurd hremoves.2 fun h => by cases h
  | remove ip =>
      have hadds : ¬ Jointly ((MemberChange.remove ip).Other record)
          ((MemberChange.remove ip).Adds record) record ip := by
        rintro (hother | hadds)
        · exact hother rfl
        · obtain ⟨-, ttl, h⟩ := hadds
          cases h
      have hremoves : (MemberChange.remove ip).Removes record record ip := ⟨rfl, rfl⟩
      refine (CloudflareDriver.keeps_removeMember hs hremoves hadds).mono fun r t hr => ?_
      cases r with
      | error e => trivial
      | ok _ => exact fun hmem => hr (mem_members.mp hmem)

/-- Processes that update the records of a zone, each its own address of a record, by interleaved
requests any of which may fail: every update that returns is made, none that was made before is
undone, and every other address is as it was. -/
theorem cloudflare_no_lost_update (clusters : List ClusterStatus) (zone id : String)
    (drivers : ι → CloudflareDriver κ) (here : ∀ i, (drivers i).zone = zone) (record : ι → String)
    (change : ι → MemberChange)
    (distinct : Function.Injective fun i => (record i, (change i).ip)) (s : CloudflareAccount κ)
    (sound : s.Sound zone id)
    (c : Config (cloudflareSignature κ) Exn Unit (CloudflareAccount κ) ι)
    (run : Interleaves (CloudflareAnswers clusters)
      ⟨fun i => (drivers i).change (record i) (change i), s⟩ c) :
    (∀ i, c.clients i = .done (.ok ()) → (change i).Made (c.state.members id (record i))) ∧
      (∀ i, (change i).Made (s.members id (record i)) →
        (change i).Made (c.state.members id (record i))) ∧
      ∀ r ip, (∀ i, (r, ip) ≠ (record i, (change i).ip)) →
        (ip ∈ c.state.members id r ↔ ip ∈ s.members id r) := by
  have hclients : ∀ i, Within (CloudflareAnswers clusters)
      (Serves zone id ((change i).Other (record i)) ((change i).Other (record i)))
      (Serves zone id ((change i).Adds (record i)) ((change i).Removes (record i)))
      (IfOk fun _ t => (change i).Made (t.members id (record i)))
      ((drivers i).change (record i) (change i)) s := by
    intro i
    rw [← here i] at sound ⊢
    exact keeps_change (drivers i) sound (record i) (change i)
  have hall := parallel hclients run (fun _ => Serves.refl) (fun _ _ _ _ => Serves.trans)
    fun i j hij a b h => by
      have hkeys : ∀ r ip, (r, ip) = (record j, (change j).ip) →
          (change i).Other (record i) r ip := by
        intro r ip hkey heq
        exact hij (distinct (heq.symm.trans hkey))
      exact h.mono (fun r ip hr => hkeys r ip hr.1) fun r ip hr => hkeys r ip hr.1
  let adds : String → String → Prop := fun r ip => ∃ i, (change i).Adds (record i) r ip
  let removes : String → String → Prop := fun r ip => ∃ i, (change i).Removes (record i) r ip
  have hdrifts : (s.records id).Drifts adds removes (c.state.records id) := by
    have hsteps := hall.2
    generalize c.state = t at hsteps
    induction hsteps with
    | refl => exact .refl _
    | tail _ hstep ih =>
        obtain ⟨i, hi⟩ := hstep
        exact ih.trans (hi.drifts.mono (fun _ _ h => ⟨i, h⟩) fun _ _ h => ⟨i, h⟩)
  refine ⟨fun i hdone => ?_, fun i hmade => ?_, fun r ip hforeign => ?_⟩
  · have hi := hall.1 i
    rw [hdone] at hi
    exact hi _ (Serves.refl _)
  · cases hc : change i with
    | add ip ttl =>
        rw [hc] at hmade
        refine mem_members.mpr (hdrifts.listed ?_ (mem_members.mp hmade))
        rintro ⟨j, hkey, hremove⟩
        have hij : i = j :=
          distinct ((congrArg (fun x => (record i, MemberChange.ip x)) hc).trans hkey)
        rw [← hij, hc] at hremove
        cases hremove
    | remove ip =>
        rw [hc] at hmade
        refine fun hmem => hmade (mem_members.mpr (hdrifts.was_listed ?_ (mem_members.mp hmem)))
        rintro ⟨j, hkey, ttl, hadd⟩
        have hij : i = j :=
          distinct ((congrArg (fun x => (record i, MemberChange.ip x)) hc).trans hkey)
        rw [← hij, hc] at hadd
        cases hadd
  · rw [mem_members, mem_members]
    constructor
    · exact hdrifts.was_listed fun ⟨i, hi⟩ => hforeign i hi.1
    · exact hdrifts.listed fun ⟨i, hi⟩ => hforeign i hi.1

end LostUpdate

/-! ## The same duel at Cloudflare -/

section Duel

theorem cloudflareApi_answers {κ : Type} [DecidableEq κ] (clusters : List ClusterStatus)
    (call : CloudflareCall κ) (s : CloudflareAccount κ) :
    CloudflareAnswers clusters s call (cloudflareApi clusters call s).1
      (cloudflareApi clusters call s).2 := .answered s call

def duelAccount : CloudflareAccount Bool where
  zones := [("example.com", "z1")]
  records _ := emptyZone.post .a duelRecord "10.0.0.1" 60
  zoneIds _ := none

def duelDriver (self : Bool) : CloudflareDriver Bool := ⟨"example.com", self⟩

/-- Both look their zone up and list, then both write. -/
def duelRequests : Scheduled (cloudflareSignature Bool) Exn Unit (CloudflareAccount Bool) Bool :=
  schedule (cloudflareApi [])
    [true, false, true, false, true, false, true, false, true, true, false, false]
    (fun i => (duelDriver i).change duelRecord (duel i)) duelAccount

theorem cloudflare_no_lost_update_duel :
    "10.0.0.2" ∈ duelRequests.state.members "z1" duelRecord ∧
      "10.0.0.3" ∈ duelRequests.state.members "z1" duelRecord := by
  have hrun := schedule_interleaves (cloudflareApi_answers [])
    [true, false, true, false, true, false, true, false, true, true, false, false]
    (fun i => (duelDriver i).change duelRecord (duel i)) duelAccount
  have hsound : duelAccount.Sound "example.com" "z1" := ⟨by decide, fun _ _ h => by cases h⟩
  have hdistinct : Function.Injective fun i => (duelRecord, (duel i).ip) := by
    unfold Function.Injective
    decide
  have hall := cloudflare_no_lost_update [] "example.com" "z1" duelDriver (fun _ => rfl)
    (fun _ => duelRecord) duel hdistinct duelAccount hsound _ hrun
  have hdone : ∀ i, (duelRequests.programs i).result? = some (.ok ()) := by decide +kernel
  exact ⟨hall.1 true (result?_eq_some_iff.mp (hdone true)),
    hall.1 false (result?_eq_some_iff.mp (hdone false))⟩

end Duel

end Solfleet
