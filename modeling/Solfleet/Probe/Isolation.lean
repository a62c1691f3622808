import Mathlib.Data.List.Forall2
import Solfleet.Probe.Rpc

/-! # What takes a probe down

Each probe catches transport, status and JSON-RPC errors. Any other exception leaves the
gathered probe of the whole fleet with no status at all. `Tame` names the answers that
raise none, for each call that is reached; between two tame worlds that differ at one
endpoint, only the nodes that use it differ.
-/

namespace Solfleet

namespace Probe

/-! ## Answers by their shape -/

/-- The endpoint was not reached, or answered with an HTTP error status. -/
def Response.Failed : Response → Prop
  | .transportError _ => True
  | .statusError _ => True
  | _ => False

/-- An HTTP failure, or an object whose error, if it has one, is an object. -/
def Response.WellFormed : Response → Prop
  | .transportError _ => True
  | .statusError _ => True
  | .body (.obj members) =>
      match Json.find? members "error" with
      | none => True
      | some (.obj _) => True
      | some _ => False
  | _ => False

/-- The result of an object without an error. -/
def Response.result? : Response → Option Json
  | .body (.obj members) =>
      match Json.find? members "error" with
      | none => some ((Json.find? members "result").getD .null)
      | some _ => none
  | _ => none

def IsObject : Json → Prop
  | .obj _ => True
  | _ => False

/-- Python subtracts one from the other, or one of them is `None`. -/
def Comparable (referenceSlot slot : Json) : Prop :=
  referenceSlot = .null ∨ slot = .null ∨
    ∃ x y, referenceSlot.number? = some x ∧ slot.number? = some y ∧ (x.sub? y).isSome = true

/-- A number, and no integer so large that its quotient is no double. -/
def TameStake (stake : Json) : Prop :=
  ∃ n, stake.number? = some n ∧ (n.div? lamportsPerSol).isSome = true

/-- `value[1]` is there. -/
def HasSecond : Json → Prop
  | .arr items => 2 ≤ items.length
  | .str s => 2 ≤ s.toList.length
  | _ => False

/-- Nothing, or a list whose last entry has a second item. -/
def TameCredits : Json → Prop
  | .arr items => ∀ last, items.getLast? = some last → HasSecond last
  | value => value.truthy = false

def TameAccount : Json → Prop
  | .obj members =>
      (∃ key, Json.find? members "nodePubkey" = some key ∧ key.hashable = true) ∧
        TameStake ((Json.find? members "activatedStake").getD (.int 0)) ∧
        TameCredits ((Json.find? members "epochCredits").getD .null)
  | _ => False

def TameGroup (group : Json) : Prop :=
  ∃ items, group.items? = some items ∧ ∀ acct ∈ items, TameAccount acct

def TameVoteAccounts : Json → Prop
  | .obj members =>
      TameGroup ((Json.find? members "current").getD (.arr [])) ∧
        TameGroup ((Json.find? members "delinquent").getD (.arr []))
  | _ => False

/-- The answers of a reference, as far as it is asked. -/
def TameReference (ask : Method → Response) (cluster : Cluster) : Prop :=
  (ask .getSlot).WellFormed ∧ ∀ slot, (ask .getSlot).result? = some slot →
    (ask .getVersion).WellFormed ∧ ∀ version, (ask .getVersion).result? = some version →
      IsObject version ∧ ((cluster.nodes.any fun n => Text.truthy n.identity) = true →
        (ask .getVoteAccounts).WellFormed ∧
          ∀ accounts, (ask .getVoteAccounts).result? = some accounts → TameVoteAccounts accounts)

/-- The answers of a node, as far as it is asked. -/
def TameNode (ask : Method → Response) (node : Node) (referenceSlot : Json) : Prop :=
  Text.truthy node.rpcUrl = true →
    (ask .getHealth).WellFormed ∧ (¬ (ask .getHealth).Failed →
      (ask .getVersion).WellFormed ∧ ∀ version, (ask .getVersion).result? = some version →
        IsObject version ∧ (ask .getSlot).WellFormed ∧
          ∀ slot, (ask .getSlot).result? = some slot → Comparable referenceSlot slot)

def World.referenceSlot (w : World) (clusterName : String) (cluster : Cluster) : Json :=
  (w.asReference clusterName cluster .getSlot).result?.getD .null

def Tame (w : World) (fleet : Fleet) : Prop :=
  ∀ entry ∈ fleet.clusters.entries, TameReference (w.asReference entry.1 entry.2) entry.2 ∧
    ∀ node ∈ entry.2.nodes,
      TameNode (w.asNode entry.1 node) node (w.referenceSlot entry.1 entry.2)

/-! ## What is caught -/

/-- The step raises at most what a probe catches. -/
def Calm {α : Type} (step : Except Raised α) : Prop := ∀ e, step ≠ .error (.other e)

section Calm

variable {α β : Type} {step : Except Raised α} {caught : Caught → β} {next : α → Except Exn β}

@[simp] theorem calm_ok (a : α) : Calm (.ok a : Except Raised α) := nofun

@[simp] theorem calm_caught (e : Caught) : Calm (.error (.caught e) : Except Raised α) := nofun

@[simp] theorem not_calm_other (e : Exn) : ¬ Calm (.error (.other e) : Except Raised α) :=
  fun h => h e rfl

theorem calm_bind_iff {f : α → Except Raised β} :
    Calm (step >>= f) ↔ Calm step ∧ ∀ a, step = .ok a → Calm (f a) := by
  cases step with
  | ok a =>
      refine ⟨fun h => ⟨calm_ok a, fun a' ha => Except.ok.inj ha ▸ h⟩, fun h => h.2 a rfl⟩
  | error e =>
      cases e with
      | caught e => exact ⟨fun _ => ⟨calm_caught e, nofun⟩, fun _ => calm_caught e⟩
      | other e => exact ⟨fun h => (not_calm_other e h).elim, fun h => (not_calm_other e h.1).elim⟩

theorem guarded_eq_ok_iff {b : β} :
    guarded step caught next = .ok b ↔
      (∃ a, step = .ok a ∧ next a = .ok b) ∨ ∃ e, step = .error (.caught e) ∧ caught e = b := by
  unfold guarded
  cases step with
  | ok a => simp
  | error e => cases e <;> simp

theorem guarded_returns_iff :
    (∃ b, guarded step caught next = .ok b) ↔
      Calm step ∧ ∀ a, step = .ok a → ∃ b, next a = .ok b := by
  unfold guarded
  cases step with
  | ok a => simp
  | error e => cases e <;> simp

end Calm

theorem calm_rpcCall_iff (method : Method) {response : Response} :
    Calm (rpcCall method response) ↔ response.WellFormed := by
  cases response with
  | transportError message => exact ⟨fun _ => trivial, fun _ => calm_caught _⟩
  | statusError message => exact ⟨fun _ => trivial, fun _ => calm_caught _⟩
  | notJson message => exact ⟨fun h => (not_calm_other _ h).elim, False.elim⟩
  | body value =>
      cases value with
      | obj members =>
          simp only [rpcCall, Response.WellFormed]
          cases Json.find? members "error" with
          | none => simp
          | some error => cases error <;> simp
      | _ => exact ⟨fun h => (not_calm_other _ h).elim, False.elim⟩

theorem rpcCall_eq_ok_iff {method : Method} {response : Response} {value : Json} :
    rpcCall method response = .ok value ↔ response.result? = some value := by
  cases response with
  | body body =>
      cases body with
      | obj members =>
          simp only [rpcCall, Response.result?]
          cases Json.find? members "error" with
          | none => simp
          | some error => cases error <;> simp
      | _ => simp [rpcCall, Response.result?]
  | _ => simp [rpcCall, Response.result?]

theorem calm_health_iff {response : Response} :
    Calm (health response) ↔ response.WellFormed := by
  rw [← calm_rpcCall_iff .getHealth]
  unfold health
  cases rpcCall .getHealth response with
  | ok value => simp
  | error e =>
      cases e with
      | caught e => cases e <;> simp
      | other e => simp

/-- A node that was reached is asked on, whether it reports itself healthy or not. -/
theorem health_returns_iff {response : Response} (h : response.WellFormed) :
    (∃ healthy, health response = .ok healthy) ↔ ¬ response.Failed := by
  cases response with
  | transportError message => simp [health, rpcCall, Response.Failed]
  | statusError message => simp [health, rpcCall, Response.Failed]
  | notJson message => exact h.elim
  | body value =>
      cases value with
      | obj members =>
          simp only [Response.WellFormed] at h
          simp only [health, rpcCall, Response.Failed]
          cases hfind : Json.find? members "error" with
          | none => simp
          | some error =>
              rw [hfind] at h
              cases error with
              | obj error => simp
              | _ => exact h.elim
      | _ => exact h.elim

theorem calm_reading_iff {α : Type} {step : Except Exn α} :
    Calm (reading step) ↔ ∃ a, step = .ok a := by
  cases step <;> simp [reading]

theorem reading_eq_ok_iff {α : Type} {step : Except Exn α} {a : α} :
    reading step = .ok a ↔ step = .ok a := by
  cases step <;> simp [reading]

/-! ## What can be read -/

theorem except_bind_eq_ok_iff {ε α β : Type} {step : Except ε α} {f : α → Except ε β} {b : β} :
    (step >>= f) = .ok b ↔ ∃ a, step = .ok a ∧ f a = .ok b := by
  cases step with
  | ok a => simp [bind, Except.bind]
  | error e => simp [bind, Except.bind]

theorem except_ok_bind {α β : Type} (a : α) (f : α → Except Exn β) :
    (Except.ok a >>= f) = f a := rfl

/-- A sequence returns if its first half does and what follows always does. -/
theorem except_bind_returns_iff {α β : Type} {step : Except Exn α} {f : α → Except Exn β}
    {P : Prop} (hf : ∀ a, (∃ b, f a = .ok b) ↔ P) :
    (∃ b, (step >>= f) = .ok b) ↔ (∃ a, step = .ok a) ∧ P := by
  simp only [except_bind_eq_ok_iff]
  constructor
  · rintro ⟨b, a, ha, hb⟩
    exact ⟨⟨a, ha⟩, (hf a).mp ⟨b, hb⟩⟩
  · rintro ⟨⟨a, ha⟩, hp⟩
    obtain ⟨b, hb⟩ := (hf a).mpr hp
    exact ⟨b, a, ha, hb⟩

theorem getOr_obj (key : String) (default : Json) (members : List (String × Json)) :
    getOr key default (.obj members) = .ok ((Json.find? members key).getD default) := rfl

theorem getOr_returns_iff {key : String} {default value : Json} :
    (∃ found, getOr key default value = .ok found) ↔ IsObject value := by
  cases value <;> simp [getOr, IsObject]

theorem stakeSol_returns_iff {stake : Json} :
    (∃ sol, stakeSol stake = .ok sol) ↔ TameStake stake := by
  unfold stakeSol TameStake
  cases stake.number? with
  | none => simp
  | some n => cases hdiv : n.div? lamportsPerSol <;> simp [hdiv]

theorem item?_one_isSome {α : Type} {xs : List α} :
    (Json.item? xs 1).isSome = true ↔ 2 ≤ xs.length := by
  simp [Json.item?, Nat.succ_le_iff]

theorem item?_last {α : Type} (xs : List α) : Json.item? xs (-1) = xs.getLast? := by
  cases xs with
  | nil => simp [Json.item?]
  | cons x xs =>
      simp only [Json.item?, List.getLast?_eq_getElem?, List.length_cons]
      rw [if_neg (by decide), if_pos (by omega)]
      simp

theorem subscript_one_returns_iff {value : Json} :
    (∃ item, subscript 1 value = .ok item) ↔ HasSecond value := by
  cases value with
  | arr items =>
      simp only [subscript, HasSecond, ← item?_one_isSome]
      cases Json.item? items 1 <;> simp
  | str s =>
      simp only [subscript, HasSecond, ← item?_one_isSome]
      cases Json.item? s.toList 1 <;> simp
  | _ => simp [subscript, HasSecond]

theorem lastCredits_returns_iff {epochCredits : Json} :
    (∃ credits, lastCredits epochCredits = .ok credits) ↔ TameCredits epochCredits := by
  unfold lastCredits
  by_cases htruthy : epochCredits.truthy = true
  · have hlast : (∃ credits, (subscript (-1) epochCredits >>= subscript 1) = .ok credits) ↔
        ∃ last, subscript (-1) epochCredits = .ok last ∧ HasSecond last := by
      simp only [except_bind_eq_ok_iff, ← subscript_one_returns_iff]
      tauto
    rw [if_pos htruthy, hlast]
    cases epochCredits with
    | arr items =>
        cases hitems : items.getLast? with
        | none => simp_all [Json.truthy]
        | some last => simp [subscript, item?_last, TameCredits, hitems]
    | str s =>
        -- the last character of a text is a text of one character
        cases hs : s.toList.getLast? with
        | none => simp_all [Json.truthy]
        | some c => simp [subscript, item?_last, hs, HasSecond, TameCredits, htruthy]
    | _ => simp [subscript, TameCredits, htruthy]
  · rw [if_neg htruthy]
    refine ⟨fun _ => ?_, fun _ => ⟨_, rfl⟩⟩
    cases epochCredits with
    | arr items =>
        obtain rfl : items = [] := by simpa [Json.truthy] using htruthy
        exact nofun
    | _ => simpa [TameCredits] using htruthy

theorem storeVote_returns_iff {votes : Dict String Vote} {vote : Vote}
    {members : List (String × Json)} :
    (∃ stored, storeVote votes vote (.obj members) = .ok stored) ↔
      ∃ key, Json.find? members "nodePubkey" = some key ∧ key.hashable = true := by
  simp only [storeVote]
  cases Json.find? members "nodePubkey" with
  | none => simp
  | some key => cases key <;> simp [Json.hashable]

theorem readAccount_returns_iff {delinquent : Bool} {votes : Dict String Vote} {acct : Json} :
    (∃ stored, readAccount delinquent votes acct = .ok stored) ↔ TameAccount acct := by
  unfold readAccount
  cases acct with
  | obj members =>
      simp only [getOr_obj, except_ok_bind]
      rw [except_bind_returns_iff fun sol => except_bind_returns_iff fun credits =>
        storeVote_returns_iff]
      rw [stakeSol_returns_iff, lastCredits_returns_iff, TameAccount]
      tauto
  | _ => simp [getOr, TameAccount, bind, Except.bind]

theorem readAccounts_returns_iff {delinquent : Bool} {accts : List Json}
    {votes : Dict String Vote} :
    (∃ stored, readAccounts delinquent votes accts = .ok stored) ↔
      ∀ acct ∈ accts, TameAccount acct := by
  induction accts generalizing votes with
  | nil => simp [readAccounts]
  | cons acct accts ih =>
      rw [readAccounts, except_bind_returns_iff fun _ => ih, readAccount_returns_iff,
        List.forall_mem_cons]

theorem readGroup_returns_iff {delinquent : Bool} {votes : Dict String Vote} {group : Json} :
    (∃ stored, readGroup delinquent votes group = .ok stored) ↔ TameGroup group := by
  unfold readGroup TameGroup
  cases group.items? with
  | none => simp
  | some items => simpa using readAccounts_returns_iff

theorem readVoteAccounts_returns_iff {accounts : Json} :
    (∃ votes, readVoteAccounts accounts = .ok votes) ↔ TameVoteAccounts accounts := by
  unfold readVoteAccounts
  cases accounts with
  | obj members =>
      simp only [getOr_obj, except_ok_bind]
      rw [except_bind_returns_iff fun _ => readGroup_returns_iff, readGroup_returns_iff]
      rfl
  | _ => simp [getOr, TameVoteAccounts, bind, Except.bind]

theorem slotLag_of_ne {referenceSlot slot : Json} (hr : referenceSlot ≠ .null)
    (hs : slot ≠ .null) :
    (∃ lag, slotLag referenceSlot slot = .ok lag) ↔
      ∃ x y, referenceSlot.number? = some x ∧ slot.number? = some y ∧
        (x.sub? y).isSome = true := by
  unfold slotLag
  split
  · exact (hr rfl).elim
  · exact (hs rfl).elim
  · cases referenceSlot.number? with
    | none => simp
    | some x =>
        cases slot.number? with
        | none => simp
        | some y => cases hsub : x.sub? y <;> simp [hsub]

theorem slotLag_returns_iff {referenceSlot slot : Json} :
    (∃ lag, slotLag referenceSlot slot = .ok lag) ↔ Comparable referenceSlot slot := by
  unfold Comparable
  by_cases hr : referenceSlot = .null
  · simp [slotLag, hr]
  by_cases hs : slot = .null
  · cases referenceSlot <;> simp_all [slotLag]
  · simp only [hr, hs, false_or, slotLag_of_ne hr hs]

theorem solanaCore_calm_iff {response : Response} :
    Calm (solanaCore response) ↔
      response.WellFormed ∧ ∀ version, response.result? = some version → IsObject version := by
  simp only [solanaCore, calm_bind_iff, calm_rpcCall_iff, rpcCall_eq_ok_iff, calm_reading_iff,
    getOr_returns_iff]

theorem voteAccounts_calm_iff {response : Response} :
    Calm (voteAccounts response) ↔
      response.WellFormed ∧
        ∀ accounts, response.result? = some accounts → TameVoteAccounts accounts := by
  simp only [voteAccounts, calm_bind_iff, calm_rpcCall_iff, rpcCall_eq_ok_iff, calm_reading_iff,
    readVoteAccounts_returns_iff]

theorem solanaCore_returns_iff {response : Response} :
    (∃ core, solanaCore response = .ok core) ↔
      ∃ version, response.result? = some version ∧ IsObject version := by
  simp only [solanaCore, except_bind_eq_ok_iff, rpcCall_eq_ok_iff, reading_eq_ok_iff]
  constructor
  · rintro ⟨core, version, hv, hcore⟩
    exact ⟨version, hv, getOr_returns_iff.mp ⟨core, hcore⟩⟩
  · rintro ⟨version, hv, hobject⟩
    obtain ⟨core, hcore⟩ := getOr_returns_iff.mpr hobject
    exact ⟨core, version, hv, hcore⟩

/-- A probe goes on with `Q` behind the version. -/
theorem solanaCore_then_iff {response : Response} {Q : Prop} :
    (Calm (solanaCore response) ∧ ∀ core, solanaCore response = .ok core → Q) ↔
      response.WellFormed ∧
        ∀ version, response.result? = some version → IsObject version ∧ Q := by
  constructor
  · rintro ⟨hcalm, hq⟩
    obtain ⟨hwf, hobject⟩ := solanaCore_calm_iff.mp hcalm
    refine ⟨hwf, fun version hv => ⟨hobject version hv, ?_⟩⟩
    obtain ⟨core, hcore⟩ := solanaCore_returns_iff.mpr ⟨version, hv, hobject version hv⟩
    exact hq core hcore
  · rintro ⟨hwf, h⟩
    refine ⟨solanaCore_calm_iff.mpr ⟨hwf, fun version hv => (h version hv).1⟩, fun core hcore => ?_⟩
    obtain ⟨version, hv, _⟩ := solanaCore_returns_iff.mp ⟨core, hcore⟩
    exact (h version hv).2

/-! ## Which probes return -/

theorem probeReference_returns_iff {ask : Method → Response} {cluster : Cluster} :
    (∃ found, probeReference ask cluster = .ok found) ↔ TameReference ask cluster := by
  have hvotes : ∀ slot version : Json,
      (∃ found, (if (cluster.nodes.any fun n => Text.truthy n.identity) = true then
        guarded (voteAccounts (ask .getVoteAccounts))
          (fun e => ({ slot, version, error := some e } : Reference)) fun votes =>
            .ok { slot, version, votes := some votes }
        else .ok { slot, version }) = .ok found) ↔
      ((cluster.nodes.any fun n => Text.truthy n.identity) = true →
        (ask .getVoteAccounts).WellFormed ∧
          ∀ accounts, (ask .getVoteAccounts).result? = some accounts →
            TameVoteAccounts accounts) := by
    intro slot version
    by_cases hid : (cluster.nodes.any fun n => Text.truthy n.identity) = true
    · rw [if_pos hid, guarded_returns_iff, voteAccounts_calm_iff]
      simp [hid]
    · rw [if_neg hid]
      simp [hid]
  unfold probeReference TameReference
  rw [guarded_returns_iff, calm_rpcCall_iff]
  simp only [guarded_returns_iff, hvotes, rpcCall_eq_ok_iff, solanaCore_then_iff]

theorem probeNode_returns_iff {ask : Method → Response} {clusterName : String} {node : Node}
    {referenceSlot : Json} {votes : Option (Dict String Vote)} :
    (∃ status, probeNode ask clusterName node referenceSlot votes = .ok status) ↔
      TameNode ask node referenceSlot := by
  unfold probeNode TameNode
  by_cases hurl : Text.truthy node.rpcUrl = true
  · simp only [hurl, Bool.true_eq_false, if_false, true_implies, guarded_returns_iff,
      calm_health_iff, calm_rpcCall_iff, calm_reading_iff, slotLag_returns_iff, rpcCall_eq_ok_iff,
      Except.ok.injEq, exists_eq', implies_true, and_true, solanaCore_then_iff]
    refine and_congr_right fun hwf => ?_
    rw [← health_returns_iff hwf, exists_imp]
  · simp [hurl]

theorem probeReference_slot {ask : Method → Response} {cluster : Cluster} {found : Reference}
    (h : probeReference ask cluster = .ok found) :
    found.slot = (ask .getSlot).result?.getD .null := by
  unfold probeReference at h
  obtain ⟨slot, hslot, h⟩ | ⟨e, hslot, rfl⟩ := guarded_eq_ok_iff.mp h
  · rw [rpcCall_eq_ok_iff.mp hslot, Option.getD_some]
    obtain ⟨version, _, h⟩ | ⟨e, _, rfl⟩ := guarded_eq_ok_iff.mp h
    · by_cases hid : (cluster.nodes.any fun n => Text.truthy n.identity) = true
      · rw [if_pos hid] at h
        obtain ⟨votes, _, h⟩ | ⟨e, _, rfl⟩ := guarded_eq_ok_iff.mp h
        · cases h
          rfl
        · rfl
      · rw [if_neg hid] at h
        cases h
        rfl
    · rfl
  · cases hresult : (ask .getSlot).result? with
    | none => rfl
    | some value =>
        rw [rpcCall_eq_ok_iff.mpr hresult] at hslot
        cases hslot

/-- The probe of a node with no URL asks nothing. -/
theorem probeNode_congr {ask ask' : Method → Response} (clusterName : String) {node : Node}
    (referenceSlot : Json) (votes : Option (Dict String Vote))
    (h : Text.truthy node.rpcUrl = true → ask = ask') :
    probeNode ask clusterName node referenceSlot votes =
      probeNode ask' clusterName node referenceSlot votes := by
  by_cases hurl : Text.truthy node.rpcUrl = true
  · rw [h hurl]
  · simp [probeNode, hurl]

/-- How far a probe of a node came, and what it filled in by then. -/
theorem probeNode_cases {ask : Method → Response} {clusterName : String} {node : Node}
    {referenceSlot : Json} {votes : Option (Dict String Vote)} {status : Status}
    (h : probeNode ask clusterName node referenceSlot votes = .ok status) :
    let start := startStatus clusterName node votes
    (Text.truthy node.rpcUrl = false ∧ status = { start with error := some .noRpcUrl }) ∨
      Text.truthy node.rpcUrl = true ∧
        ((∃ e, status = { start with error := some (.unreachable e) }) ∨
          (∃ healthy version slot e, status =
            { start with
              healthy := some healthy, reachable := true, version, slot
              error := some (.failed e) }) ∨
          ∃ healthy version slot lag, slotLag referenceSlot slot = .ok lag ∧ status =
            { start with
              healthy := some healthy, reachable := true, version, slot, slotLag := lag }) := by
  unfold probeNode at h
  by_cases hurl : Text.truthy node.rpcUrl = false
  · rw [if_pos hurl] at h
    cases h
    exact .inl ⟨hurl, rfl⟩
  rw [if_neg hurl] at h
  refine .inr ⟨Bool.eq_true_of_not_eq_false hurl, ?_⟩
  obtain ⟨healthy, _, h⟩ | ⟨e, _, rfl⟩ := guarded_eq_ok_iff.mp h
  · obtain ⟨version, _, h⟩ | ⟨e, _, rfl⟩ := guarded_eq_ok_iff.mp h
    · obtain ⟨slot, _, h⟩ | ⟨e, _, rfl⟩ := guarded_eq_ok_iff.mp h
      · obtain ⟨lag, hlag, h⟩ | ⟨e, _, rfl⟩ := guarded_eq_ok_iff.mp h
        · cases h
          exact .inr (.inr ⟨healthy, version, slot, lag, reading_eq_ok_iff.mp hlag, rfl⟩)
        · exact .inr (.inl ⟨healthy, version, slot, e, rfl⟩)
      · exact .inr (.inl ⟨healthy, version, _, e, rfl⟩)
    · exact .inr (.inl ⟨healthy, _, _, e, rfl⟩)
  · exact .inl ⟨e, rfl⟩

/-- The status is about the node that was probed. -/
theorem probeNode_about {ask : Method → Response} {clusterName : String} {node : Node}
    {referenceSlot : Json} {votes : Option (Dict String Vote)} {status : Status}
    (h : probeNode ask clusterName node referenceSlot votes = .ok status) :
    status.name = node.name ∧ status.cluster = clusterName ∧ status.role = node.role := by
  have hstart : (startStatus clusterName node votes).name = node.name ∧
      (startStatus clusterName node votes).cluster = clusterName ∧
      (startStatus clusterName node votes).role = node.role := by
    unfold startStatus
    cases voteOf node votes <;> exact ⟨rfl, rfl, rfl⟩
  rcases probeNode_cases h with ⟨-, rfl⟩ | ⟨-, ⟨e, rfl⟩ | ⟨healthy, version, slot, e, rfl⟩ |
    ⟨healthy, version, slot, lag, -, rfl⟩⟩
  all_goals exact hstart

theorem gather_eq_ok_iff {α : Type} {results : List (Except Exn α)} {values : List α} :
    gather results = .ok values ↔ results = values.map .ok := by
  induction results generalizing values with
  | nil => cases values <;> simp [gather]
  | cons result results ih =>
      cases result with
      | error e => cases values <;> simp [gather]
      | ok a =>
          cases hrest : gather results with
          | error e =>
              have hne : ∀ values : List α, results ≠ values.map .ok := by
                intro values hv
                cases hrest.symm.trans (ih.mpr hv)
              cases values <;> simp [gather, hrest, hne]
          | ok as =>
              cases values with
              | nil => simp [gather, hrest]
              | cons v vs => simp [gather, hrest, ← ih]

theorem gather_map_returns_iff {α β : Type} {xs : List α} {f : α → Except Exn β} :
    (∃ values, gather (xs.map f) = .ok values) ↔ ∀ x ∈ xs, ∃ value, f x = .ok value := by
  simp only [gather_eq_ok_iff]
  induction xs with
  | nil => exact ⟨fun _ => nofun, fun _ => ⟨[], rfl⟩⟩
  | cons x xs ih =>
      rw [List.forall_mem_cons, ← ih]
      constructor
      · rintro ⟨values, h⟩
        cases values with
        | nil => cases h
        | cons v vs =>
            obtain ⟨hx, hxs⟩ := List.cons.inj h
            exact ⟨⟨v, hx⟩, vs, hxs⟩
      · rintro ⟨⟨v, hx⟩, vs, hxs⟩
        exact ⟨v :: vs, by simp [hx, hxs]⟩

theorem gather_map_forall₂ {α β : Type} {xs : List α} {f : α → Except Exn β} {values : List β}
    (h : gather (xs.map f) = .ok values) :
    List.Forall₂ (fun x value => f x = .ok value) xs values := by
  have heq : List.Forall₂ (· = ·) (xs.map f) (values.map .ok) := by
    rw [gather_eq_ok_iff.mp h]
    exact List.forall₂_same.mpr fun _ _ => rfl
  rwa [List.forall₂_map_left_iff, List.forall₂_map_right_iff] at heq

/-- The value gathered at a position is that of the call at it. -/
theorem gather_map_getElem? {α β : Type} {xs : List α} {f : α → Except Exn β} {values : List β}
    (h : gather (xs.map f) = .ok values) {i : Nat} {x : α} (hx : xs[i]? = some x) :
    ∃ value, values[i]? = some value ∧ f x = .ok value := by
  have hmap := gather_eq_ok_iff.mp h
  have hi : (xs.map f)[i]? = some (f x) := by
    simp [hx]
  rw [hmap, List.getElem?_map] at hi
  obtain ⟨value, hvalue, heq⟩ := Option.map_eq_some_iff.mp hi
  exact ⟨value, hvalue, heq.symm⟩

/-! ## The probe of the fleet -/

/-- One status per configured node, in the order of the configuration. -/
def Complete (fleet : Fleet) (found : List FoundCluster) : Prop :=
  List.Forall₂ (fun entry (c : FoundCluster) =>
    c.name = entry.1 ∧
      List.Forall₂ (fun node (status : Status) =>
        status.name = node.name ∧ status.cluster = entry.1 ∧ status.role = node.role)
        entry.2.nodes c.nodes)
    fleet.clusters.entries found

/-- The node is probed through the endpoint, itself or by its cluster's reference. -/
def Uses (cluster : Cluster) (node : Node) (url : String) : Prop :=
  node.rpcUrl = some url ∨ cluster.referenceRpc = url

/-- The status of node `j` of cluster `i`. -/
def statusAt (found : List FoundCluster) (i j : Nat) : Option Status :=
  found[i]?.bind (·.nodes[j]?)

/-- Both probes return all statuses, and a node that does not use the endpoint has the same
status in both. -/
def Isolated (fleet : Fleet) (url : String) (w w' : World) : Prop :=
  ∃ found found', probeFleet w fleet = .ok found ∧ probeFleet w' fleet = .ok found' ∧
    Complete fleet found ∧ Complete fleet found' ∧
    ∀ (i j : Nat) (clusterName : String) (cluster : Cluster) (node : Node),
      fleet.clusters.entries[i]? = some (clusterName, cluster) → cluster.nodes[j]? = some node →
        ¬ Uses cluster node url → statusAt found i j = statusAt found' i j

section Fleet

variable {w w' : World} {fleet : Fleet}

theorem probeCluster_eq_ok_iff {name : String} {cluster : Cluster} {c : FoundCluster} :
    probeCluster w name cluster = .ok c ↔
      ∃ found nodes, probeReference (w.asReference name cluster) cluster = .ok found ∧
        gather (cluster.nodes.map fun node =>
          probeNode (w.asNode name node) name node found.slot found.votes) = .ok nodes ∧
        c = ⟨name, cluster.referenceRpc, found.slot, found.version, found.error, nodes⟩ := by
  simp only [probeCluster, except_bind_eq_ok_iff]
  constructor
  · rintro ⟨found, hfound, nodes, hnodes, h⟩
    exact ⟨found, nodes, hfound, hnodes, (Except.ok.inj h).symm⟩
  · rintro ⟨found, nodes, hfound, hnodes, rfl⟩
    exact ⟨found, hfound, nodes, hnodes, rfl⟩

theorem probeCluster_returns_iff {name : String} {cluster : Cluster} :
    (∃ c, probeCluster w name cluster = .ok c) ↔
      TameReference (w.asReference name cluster) cluster ∧
        ∀ node ∈ cluster.nodes,
          TameNode (w.asNode name node) node (w.referenceSlot name cluster) := by
  rw [← probeReference_returns_iff]
  constructor
  · rintro ⟨c, hc⟩
    obtain ⟨found, nodes, hfound, hnodes, rfl⟩ := probeCluster_eq_ok_iff.mp hc
    refine ⟨⟨found, hfound⟩, fun node hn => ?_⟩
    rw [World.referenceSlot, ← probeReference_slot hfound]
    exact probeNode_returns_iff.mp (gather_map_returns_iff.mp ⟨nodes, hnodes⟩ node hn)
  · rintro ⟨⟨found, hfound⟩, htame⟩
    rw [World.referenceSlot, ← probeReference_slot hfound] at htame
    have hnode : ∀ node ∈ cluster.nodes, ∃ status,
        probeNode (w.asNode name node) name node found.slot found.votes = .ok status :=
      fun node hn => probeNode_returns_iff.mpr (htame node hn)
    obtain ⟨nodes, hnodes⟩ := gather_map_returns_iff.mpr hnode
    exact ⟨_, probeCluster_eq_ok_iff.mpr ⟨found, nodes, hfound, hnodes, rfl⟩⟩

/-- The probe returns exactly in the tame worlds. -/
theorem probeFleet_returns_iff : (∃ found, probeFleet w fleet = .ok found) ↔ Tame w fleet := by
  simp only [probeFleet, gather_map_returns_iff, probeCluster_returns_iff]
  rfl

theorem complete_of_probeFleet {found : List FoundCluster}
    (h : probeFleet w fleet = .ok found) : Complete fleet found := by
  refine (gather_map_forall₂ h).imp fun entry c hc => ?_
  obtain ⟨ref, nodes, _, hnodes, rfl⟩ := probeCluster_eq_ok_iff.mp hc
  exact ⟨rfl, (gather_map_forall₂ hnodes).imp fun node status hs => probeNode_about hs⟩

theorem statusAt_of_probeFleet {found : List FoundCluster} (h : probeFleet w fleet = .ok found)
    {i j : Nat} {name : String} {cluster : Cluster} {node : Node}
    (hi : fleet.clusters.entries[i]? = some (name, cluster)) (hj : cluster.nodes[j]? = some node) :
    ∃ ref status, statusAt found i j = some status ∧
      probeReference (w.asReference name cluster) cluster = .ok ref ∧
      probeNode (w.asNode name node) name node ref.slot ref.votes = .ok status := by
  obtain ⟨c, hc, hprobe⟩ := gather_map_getElem? h hi
  obtain ⟨ref, nodes, href, hnodes, rfl⟩ := probeCluster_eq_ok_iff.mp hprobe
  obtain ⟨status, hstatus, hnode⟩ := gather_map_getElem? hnodes hj
  exact ⟨ref, status, by simp [statusAt, hc, hstatus], href, hnode⟩

theorem statusAt_congr {url : String} (h : ∀ other, other ≠ url → w other = w' other)
    {found found' : List FoundCluster} (hw : probeFleet w fleet = .ok found)
    (hw' : probeFleet w' fleet = .ok found') {i j : Nat} {name : String} {cluster : Cluster}
    {node : Node} (hi : fleet.clusters.entries[i]? = some (name, cluster))
    (hj : cluster.nodes[j]? = some node) (hunused : ¬ Uses cluster node url) :
    statusAt found i j = statusAt found' i j := by
  obtain ⟨hnode, href⟩ := not_or.mp hunused
  obtain ⟨ref, status, hs, href₁, hn₁⟩ := statusAt_of_probeFleet hw hi hj
  obtain ⟨ref', status', hs', href₂, hn₂⟩ := statusAt_of_probeFleet hw' hi hj
  have hask : w.asReference name cluster = w'.asReference name cluster := by
    simp only [World.asReference, h _ href]
  obtain rfl : ref = ref' := Except.ok.inj ((href₁.symm.trans (hask ▸ rfl)).trans href₂)
  have hnodeAsk : Text.truthy node.rpcUrl = true → w.asNode name node = w'.asNode name node := by
    intro hurl
    cases hrpc : node.rpcUrl with
    | none => simp [hrpc, Text.truthy] at hurl
    | some own =>
        have hne : own ≠ url := fun he => hnode (he ▸ hrpc)
        simp only [World.asNode, hrpc, Option.getD_some, h own hne]
  have hcongr := probeNode_congr name ref.slot ref.votes hnodeAsk
  rw [hs, hs', ← Except.ok.inj ((hn₁.symm.trans hcongr).trans hn₂)]

end Fleet

/-! ## Two nodes and a reference -/

def probedFleet : AcceptedFleet where
  fleet :=
    { clusters := ⟨[("testnet",
        { referenceRpc := "http://reference"
          nodes :=
            [{ name := "a", role := .rpc, host := "10.0.0.1", rpcUrl := some "http://a" },
             { name := "b", role := .rpc, host := "10.0.0.2", rpcUrl := some "http://b" }] })],
        by decide⟩ }
  accepted := by decide

def answerWith (value : Json) : Response :=
  .body (.obj [("jsonrpc", .str "2.0"), ("id", .int 1), ("result", value)])

/-- Every endpoint is healthy at slot 1000. -/
def healthyEndpoint : Method → Response
  | .getHealth => answerWith (.str "ok")
  | .getVersion => answerWith (.obj [("solana-core", .str "3.0.10")])
  | .getSlot => answerWith (.int 1000)
  | .getVoteAccounts => answerWith (.obj [])

/-- Node `a` answers its version call as given, all else is healthy. -/
def versionWorld (version : Response) : World
  | "http://a", _, .getVersion => version
  | _, _, method => healthyEndpoint method

theorem versionWorld_elsewhere (version version' : Response) :
    ∀ other, other ≠ "http://a" → versionWorld version other = versionWorld version' other := by
  intro other hother
  funext asker method
  unfold versionWorld
  split <;> simp_all

/-- Two worlds that differ at one endpoint: both probes return every status and keep those
of the nodes that do not use it exactly when both worlds are tame. -/
theorem probeFleet_isolated_iff (a : AcceptedFleet) (url : String) (w w' : World)
    (h : ∀ other, other ≠ url → w other = w' other) :
    Isolated a.fleet url w w' ↔ Tame w a.fleet ∧ Tame w' a.fleet := by
  simp only [← probeFleet_returns_iff]
  constructor
  · rintro ⟨found, found', hw, hw', -⟩
    exact ⟨⟨found, hw⟩, found', hw'⟩
  · rintro ⟨⟨found, hw⟩, found', hw'⟩
    exact ⟨found, found', hw, hw', complete_of_probeFleet hw, complete_of_probeFleet hw',
      fun i j name cluster node hi hj hunused => statusAt_congr h hw hw' hi hj hunused⟩

theorem probeFleet_isolated_iff_down :
    Isolated probedFleet.fleet "http://a" (versionWorld (answerWith (.obj [])))
        (versionWorld (.transportError "connection refused")) ↔
      Tame (versionWorld (answerWith (.obj []))) probedFleet.fleet ∧
        Tame (versionWorld (.transportError "connection refused")) probedFleet.fleet :=
  probeFleet_isolated_iff probedFleet "http://a" _ _ (versionWorld_elsewhere _ _)

/-- Node `a` answers its version call with `null`, and the probe of node `b` is lost too. -/
theorem null_version_takes_all_down :
    ¬ ∀ (a : AcceptedFleet) (url : String) (w w' : World),
      (∀ other, other ≠ url → w other = w' other) → Isolated a.fleet url w w' := by
  intro h
  obtain ⟨_, _, _, hw', -⟩ := h probedFleet "http://a" (versionWorld (answerWith (.obj [])))
    (versionWorld (answerWith .null)) (versionWorld_elsewhere _ _)
  have hraised : (probeFleet (versionWorld (answerWith .null)) probedFleet.fleet).isOk = false := by
    decide +kernel
  rw [hw'] at hraised
  cases hraised

example :
    (probeFleet (versionWorld (.transportError "connection refused")) probedFleet.fleet).isOk =
      true := by
  decide +kernel

end Probe

end Solfleet
