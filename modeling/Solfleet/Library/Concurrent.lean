import Mathlib.Logic.Function.Basic
import Mathlib.Logic.Relation
import Solfleet.Library.Program

/-! # Interleaved programs over a shared state

Clients are programs; one step answers the pending call of one client, chosen
freely, against the shared state. `Within` is the rely-guarantee reading of one
client: whatever the other clients do between its calls, as long as it is allowed
by `rely`, every call it makes stays inside `guarantee` and its result satisfies
the postcondition. `parallel` discharges the interference once for all clients.
-/

namespace Interaction

namespace Program

variable {S : Signature} {ε α β σ ι : Type}

/-- The answers and successor states a call may have. -/
abbrev Semantics (S : Signature) (ε σ : Type) :=
  σ → (op : S.Op) → Except ε (S.Answer op) → σ → Prop

/-! ## One client -/

inductive Advance (sem : Semantics S ε σ) : Program S ε α × σ → Program S ε α × σ → Prop
  | call {op : S.Op} {next : Except ε (S.Answer op) → Program S ε α} {s s' : σ}
      {answer : Except ε (S.Answer op)} (h : sem s op answer s') :
      Advance sem (.call op next, s) (next answer, s')

/-- Any number of calls, so every point at which a program can be stopped. -/
def Reaches (sem : Semantics S ε σ) : Program S ε α × σ → Program S ε α × σ → Prop :=
  Relation.ReflTransGen (Advance sem)

theorem Reaches.refl {sem : Semantics S ε σ} (c : Program S ε α × σ) : Reaches sem c c :=
  Relation.ReflTransGen.refl

theorem Reaches.trans {sem : Semantics S ε σ} {a b c : Program S ε α × σ}
    (h₁ : Reaches sem a b) (h₂ : Reaches sem b c) : Reaches sem a c :=
  Relation.ReflTransGen.trans h₁ h₂

theorem Reaches.call {sem : Semantics S ε σ} {op : S.Op}
    {next : Except ε (S.Answer op) → Program S ε α} {s s' : σ}
    {answer : Except ε (S.Answer op)} (h : sem s op answer s') :
    Reaches sem (.call op next, s) (next answer, s') :=
  Relation.ReflTransGen.single (.call h)

theorem Advance.bind {sem : Semantics S ε σ} {c d : Program S ε α × σ}
    (h : Advance sem c d) (f : α → Program S ε β) :
    Advance sem (c.1 >>= f, c.2) (d.1 >>= f, d.2) := by
  cases h with
  | call h => exact .call h

theorem Reaches.bind {sem : Semantics S ε σ} {c d : Program S ε α × σ}
    (h : Reaches sem c d) (f : α → Program S ε β) :
    Reaches sem (c.1 >>= f, c.2) (d.1 >>= f, d.2) := by
  induction h with
  | refl => exact .refl _
  | tail _ step ih => exact Relation.ReflTransGen.tail ih (step.bind f)

theorem reaches_exec {sem : Semantics S ε σ} {handle : Handler S ε σ}
    (agree : ∀ op s, sem s op (handle op s).1 (handle op s).2) (p : Program S ε α) (s : σ) :
    Reaches sem (p, s) (.done (exec handle p s).result, (exec handle p s).final) := by
  induction p generalizing s with
  | done r => exact .refl _
  | call op next ih => exact (Reaches.call (agree op s)).trans (ih _ _)

/-! ## A part of the state -/

/-- Calls in `C` do to the part `view` shows exactly what they do under `part`. -/
structure Mirrors {τ : Type} (C : S.Op → Prop) (view : τ → σ) (whole : Semantics S ε τ)
    (part : Semantics S ε σ) : Prop where
  shows : ∀ {t op answer t'}, C op → whole t op answer t' → part (view t) op answer (view t')
  lifts : ∀ {t op answer s'}, C op → part (view t) op answer s' →
    ∃ t', whole t op answer t' ∧ view t' = s'

section Mirrors

variable {τ : Type} {C : S.Op → Prop} {view : τ → σ} {whole : Semantics S ε τ}
  {part : Semantics S ε σ}

theorem Mirrors.advance (h : Mirrors C view whole part) {c d : Program S ε α × τ}
    (hc : c.1.AllCalls C) (step : Advance whole c d) :
    Advance part (c.1, view c.2) (d.1, view d.2) ∧ d.1.AllCalls C := by
  cases step with
  | call hsem => exact ⟨.call (h.shows hc.1 hsem), hc.2 _⟩

theorem Mirrors.advance_lift (h : Mirrors C view whole part) {p : Program S ε α} {t : τ}
    {d : Program S ε α × σ} (hp : p.AllCalls C) (step : Advance part (p, view t) d) :
    ∃ t', Advance whole (p, t) (d.1, t') ∧ view t' = d.2 ∧ d.1.AllCalls C := by
  cases step with
  | call hsem =>
      obtain ⟨t', hwhole, hview⟩ := h.lifts hp.1 hsem
      exact ⟨t', .call hwhole, hview, hp.2 _⟩

theorem Mirrors.reaches (h : Mirrors C view whole part) {c d : Program S ε α × τ}
    (hc : c.1.AllCalls C) (hr : Reaches whole c d) :
    Reaches part (c.1, view c.2) (d.1, view d.2) ∧ d.1.AllCalls C := by
  induction hr with
  | refl => exact ⟨.refl _, hc⟩
  | tail _ step ih =>
      obtain ⟨hpath, hcalls⟩ := ih
      obtain ⟨hstep, hnext⟩ := h.advance hcalls step
      exact ⟨Relation.ReflTransGen.tail hpath hstep, hnext⟩

/-- A path of the part is what some path of the whole shows. -/
theorem Mirrors.reaches_lift (h : Mirrors C view whole part) {p : Program S ε α} {t : τ}
    {d : Program S ε α × σ} (hp : p.AllCalls C) (hr : Reaches part (p, view t) d) :
    ∃ t', Reaches whole (p, t) (d.1, t') ∧ view t' = d.2 ∧ d.1.AllCalls C := by
  induction hr with
  | refl => exact ⟨t, .refl _, rfl, hp⟩
  | @tail b c _ step ih =>
      obtain ⟨t', hpath, hview, hcalls⟩ := ih
      have hstep : Advance part (b.1, view t') c := by rwa [hview]
      obtain ⟨u, hadv, hshown, hnext⟩ := h.advance_lift hcalls hstep
      exact ⟨u, Relation.ReflTransGen.tail hpath hadv, hshown, hnext⟩

end Mirrors

/-! ## Many clients -/

structure Config (S : Signature) (ε α σ ι : Type) where
  clients : ι → Program S ε α
  state : σ

inductive Step [DecidableEq ι] (sem : Semantics S ε σ) :
    Config S ε α σ ι → Config S ε α σ ι → Prop
  | client (i : ι) {clients : ι → Program S ε α} {s s' : σ} {p : Program S ε α}
      (h : Advance sem (clients i, s) (p, s')) :
      Step sem ⟨clients, s⟩ ⟨Function.update clients i p, s'⟩

def Interleaves [DecidableEq ι] (sem : Semantics S ε σ) :
    Config S ε α σ ι → Config S ε α σ ι → Prop :=
  Relation.ReflTransGen (Step sem)

def Config.Completed (c : Config S ε α σ ι) : Prop :=
  ∀ i, ∃ result, c.clients i = .done result

theorem Interleaves.trans [DecidableEq ι] {sem : Semantics S ε σ} {a b c : Config S ε α σ ι}
    (h₁ : Interleaves sem a b) (h₂ : Interleaves sem b c) : Interleaves sem a c :=
  Relation.ReflTransGen.trans h₁ h₂

/-- A schedule may let one client run alone for a while. -/
theorem Interleaves.client [DecidableEq ι] {sem : Semantics S ε σ} (i : ι)
    (clients : ι → Program S ε α) {s s' : σ} {p : Program S ε α}
    (h : Reaches sem (clients i, s) (p, s')) :
    Interleaves sem ⟨clients, s⟩ ⟨Function.update clients i p, s'⟩ := by
  suffices key : ∀ d, Reaches sem (clients i, s) d →
      Interleaves sem ⟨clients, s⟩ ⟨Function.update clients i d.1, d.2⟩ from key _ h
  intro d hd
  induction hd with
  | refl =>
      rw [Function.update_eq_self]
      exact Relation.ReflTransGen.refl
  | @tail b c _ step ih =>
      refine Relation.ReflTransGen.tail ih ?_
      have hadv : Advance sem (Function.update clients i b.1 i, b.2) (c.1, c.2) := by
        simpa using step
      have next := Step.client i hadv
      simpa using next

/-! ## Two clients -/

/-- The client `true` runs `p`, the client `false` runs `q`. -/
def pair (p q : Program S ε α) : Bool → Program S ε α
  | true => p
  | false => q

theorem Interleaves.left {sem : Semantics S ε σ} {p p' : Program S ε α} {s s' : σ}
    (h : Reaches sem (p, s) (p', s')) (q : Program S ε α) :
    Interleaves sem ⟨pair p q, s⟩ ⟨pair p' q, s'⟩ := by
  have hrun := Interleaves.client true (pair p q) h
  have heq : Function.update (pair p q) true p' = pair p' q := by
    funext i
    cases i <;> rfl
  rwa [heq] at hrun

theorem Interleaves.right {sem : Semantics S ε σ} {q q' : Program S ε α} {s s' : σ}
    (h : Reaches sem (q, s) (q', s')) (p : Program S ε α) :
    Interleaves sem ⟨pair p q, s⟩ ⟨pair p q', s'⟩ := by
  have hrun := Interleaves.client false (pair p q) h
  have heq : Function.update (pair p q) false q' = pair p q' := by
    funext i
    cases i <;> rfl
  rwa [heq] at hrun

theorem completed_pair (x y : Except ε α) (s : σ) :
    (⟨pair (.done x) (.done y), s⟩ : Config S ε α σ Bool).Completed := by
  intro i
  cases i with
  | true => exact ⟨x, rfl⟩
  | false => exact ⟨y, rfl⟩

/-! ## Rely and guarantee -/

/-- Under interference inside `rely`, every call of the program stays inside
`guarantee` and its end satisfies `post`. -/
def Within (sem : Semantics S ε σ) (rely guarantee : σ → σ → Prop)
    (post : Except ε α → σ → Prop) : Program S ε α → σ → Prop
  | .done r, s => ∀ s', rely s s' → post r s'
  | .call op next, s => ∀ s', rely s s' → ∀ answer s'', sem s' op answer s'' →
      guarantee s' s'' ∧ Within sem rely guarantee post (next answer) s''

variable {sem : Semantics S ε σ} {rely guarantee : σ → σ → Prop}

theorem Within.interfere {post : Except ε α → σ → Prop}
    (trans : ∀ a b c, rely a b → rely b c → rely a c) {p : Program S ε α} {s s' : σ}
    (h : Within sem rely guarantee post p s) (hs : rely s s') :
    Within sem rely guarantee post p s' := by
  cases p with
  | done r => exact fun t ht => h t (trans _ _ _ hs ht)
  | call op next => exact fun t ht => h t (trans _ _ _ hs ht)

theorem Within.mono {post post' : Except ε α → σ → Prop} {p : Program S ε α} {s : σ}
    (h : Within sem rely guarantee post p s) (hpost : ∀ r s, post r s → post' r s) :
    Within sem rely guarantee post' p s := by
  induction p generalizing s with
  | done r => exact fun t ht => hpost _ _ (h t ht)
  | call op next ih =>
      intro t ht answer u hu
      obtain ⟨hg, hrest⟩ := h t ht answer u hu
      exact ⟨hg, ih answer hrest⟩

theorem Within.weaken {rely' guarantee' : σ → σ → Prop} {post : Except ε α → σ → Prop}
    {p : Program S ε α} {s : σ} (h : Within sem rely guarantee post p s)
    (hrely : ∀ a b, rely' a b → rely a b) (hguarantee : ∀ a b, guarantee a b → guarantee' a b) :
    Within sem rely' guarantee' post p s := by
  induction p generalizing s with
  | done r => exact fun t ht => h t (hrely _ _ ht)
  | call op next ih =>
      intro t ht answer u hu
      obtain ⟨hg, hrest⟩ := h t (hrely _ _ ht) answer u hu
      exact ⟨hguarantee _ _ hg, ih answer hrest⟩

/-- The sequencing rule: the end of the first program is where the second
starts, and an exception of the first is the end of the whole. -/
theorem Within.bind (mid : α → σ → Prop) {post : Except ε β → σ → Prop}
    (refl : ∀ s, rely s s) {p : Program S ε α} {f : α → Program S ε β} {s : σ}
    (hp : Within sem rely guarantee
      (fun r t => match r with
        | .ok a => mid a t
        | .error e => post (.error e) t) p s)
    (hf : ∀ a t, mid a t → Within sem rely guarantee post (f a) t) :
    Within sem rely guarantee post (p >>= f) s := by
  induction p generalizing s with
  | done r =>
      cases r with
      | ok a => exact hf a s (hp s (refl s))
      | error e => exact hp
  | call op next ih =>
      intro t ht answer u hu
      obtain ⟨hg, hrest⟩ := hp t ht answer u hu
      exact ⟨hg, ih answer hrest⟩

theorem Within.perform {op : S.Op} (pre : σ → Prop) {post : Except ε (S.Answer op) → σ → Prop}
    {s : σ}
    (hs : pre s) (stable : ∀ a b, pre a → rely a b → pre b)
    (hcall : ∀ t answer u, pre t → sem t op answer u →
      guarantee t u ∧ ∀ v, rely u v → post answer v) :
    Within sem rely guarantee post (perform op) s := by
  intro t ht answer u hu
  obtain ⟨hg, hpost⟩ := hcall t answer u (stable _ _ hs ht) hu
  exact ⟨hg, hpost⟩

theorem Within.each {inv : σ → Prop} {xs : List β} {body : β → Program S ε α}
    (refl : ∀ s, rely s s) (stable : ∀ a b, inv a → rely a b → inv b)
    (hbody : ∀ x ∈ xs, ∀ s, inv s → Within sem rely guarantee (fun _ t => inv t) (body x) s)
    {s : σ} (hs : inv s) :
    Within sem rely guarantee (fun _ t => inv t) (Program.each xs body) s := by
  induction xs generalizing s with
  | nil => exact fun t ht => stable _ _ hs ht
  | cons x xs ih =>
      refine Within.bind (fun _ t => inv t) refl ?_ ?_
      · refine (hbody x (by simp) s hs).mono ?_
        intro r t ht
        cases r <;> exact ht
      · intro _ t ht
        refine Within.bind (fun _ t => inv t) refl ?_ ?_
        · refine (ih (fun y hy => hbody y (by simp [hy])) ht).mono ?_
          intro r u hu
          cases r <;> exact hu
        · exact fun _ u hu v hv => stable _ _ hu hv

theorem AllCalls.within {I : σ → Prop} {p : Program S ε α} {P : S.Op → Prop}
    (hp : p.AllCalls P) (stable : ∀ a b, I a → rely a b → I b)
    (hcall : ∀ s op answer s', I s → P op → sem s op answer s' → guarantee s s' ∧ I s')
    {s : σ} (hs : I s) :
    Within sem rely guarantee (fun _ t => I t) p s := by
  induction p generalizing s with
  | done r => exact fun t ht => stable _ _ hs ht
  | call op next ih =>
      intro t ht answer u hu
      obtain ⟨hg, hinv⟩ := hcall t op answer u (stable _ _ hs ht) hp.1 hu
      exact ⟨hg, ih answer (hp.2 answer) hinv⟩

theorem Within.reaches {post : Except ε α → σ → Prop} {p : Program S ε α} {s : σ}
    {d : Program S ε α × σ} (h : Within sem rely guarantee post p s)
    (hr : Reaches sem (p, s) d) (refl : ∀ s, rely s s) :
    Within sem rely guarantee post d.1 d.2 ∧ Relation.ReflTransGen guarantee s d.2 := by
  induction hr with
  | refl => exact ⟨h, Relation.ReflTransGen.refl⟩
  | tail _ step ih =>
      obtain ⟨hd, hg⟩ := ih
      cases step with
      | call hsem =>
          obtain ⟨hstep, hnext⟩ := hd _ (refl _) _ _ hsem
          exact ⟨hnext, hg.tail hstep⟩

theorem Within.advance {post : Except ε α → σ → Prop} {p : Program S ε α} {s : σ}
    {c d : Program S ε α × σ} (h : Within sem rely guarantee post p s)
    (hr : Reaches sem (p, s) c) (hstep : Advance sem c d) (refl : ∀ s, rely s s) :
    guarantee c.2 d.2 := by
  have hc := (h.reaches hr refl).1
  cases hstep with
  | call hsem => exact (hc _ (refl _) _ _ hsem).1

theorem AllCalls.reaches {P : S.Op → Prop} {R : σ → σ → Prop} (refl : ∀ s, R s s)
    (trans : ∀ a b c, R a b → R b c → R a c)
    (hcall : ∀ s op answer s', P op → sem s op answer s' → R s s')
    {p : Program S ε α} {s : σ} {d : Program S ε α × σ} (hp : p.AllCalls P)
    (hr : Reaches sem (p, s) d) : R s d.2 := by
  have hwithin : Within sem (fun _ _ => True) R (fun _ _ => True) p s :=
    hp.within (fun _ _ _ _ => trivial)
      (fun s op answer s' _ hop hsem => ⟨hcall s op answer s' hop hsem, trivial⟩) trivial
  have hsteps := (hwithin.reaches hr fun _ => trivial).2
  have : Std.Refl R := ⟨refl⟩
  have : IsTrans σ R := ⟨trans⟩
  rwa [Relation.reflTransGen_eq_self] at hsteps

/-! ## Rules for what a client returns -/

/-- A claim about a returned value; an exception ends the client and promises nothing. -/
def IfOk (post : α → σ → Prop) : Except ε α → σ → Prop
  | .ok a, s => post a s
  | .error _, _ => True

theorem Within.bind_ok {mid : α → σ → Prop} {post : β → σ → Prop} (refl : ∀ s, rely s s)
    {p : Program S ε α} {f : α → Program S ε β} {s : σ}
    (hp : Within sem rely guarantee (IfOk mid) p s)
    (hf : ∀ a t, mid a t → Within sem rely guarantee (IfOk post) (f a) t) :
    Within sem rely guarantee (IfOk post) (p >>= f) s := by
  refine Within.bind mid refl (hp.mono fun r t hr => ?_) hf
  cases r with
  | ok a => exact hr
  | error e => trivial

theorem Within.keep {Q : σ → Prop} {post : Except ε α → σ → Prop} {p : Program S ε α} {s : σ}
    (h : Within sem rely guarantee post p s) (hrely : ∀ a b, rely a b → Q a → Q b)
    (hguarantee : ∀ a b, guarantee a b → Q a → Q b) (hs : Q s) :
    Within sem rely guarantee (fun r t => post r t ∧ Q t) p s := by
  induction p generalizing s with
  | done r => exact fun t ht => ⟨h t ht, hrely _ _ ht hs⟩
  | call op next ih =>
      intro t ht answer u hu
      have hstep := h t ht answer u hu
      have hq : Q u := hguarantee _ _ hstep.1 (hrely _ _ ht hs)
      exact ⟨hstep.1, ih answer hstep.2 hq⟩

theorem Within.keep_ok {Q : σ → Prop} {post : α → σ → Prop} {p : Program S ε α} {s : σ}
    (h : Within sem rely guarantee (IfOk post) p s) (hrely : ∀ a b, rely a b → Q a → Q b)
    (hguarantee : ∀ a b, guarantee a b → Q a → Q b) (hs : Q s) :
    Within sem rely guarantee (IfOk fun a t => post a t ∧ Q t) p s := by
  refine (h.keep hrely hguarantee hs).mono fun r t hr => ?_
  cases r with
  | ok a => exact hr
  | error e => trivial

/-- From states of an invariant that lasts, each round of a loop achieves something that nothing
undoes: the loop achieves all of it. -/
theorem Within.each_ok {I : σ → Prop} {Q : β → σ → Prop} {xs : List β}
    {body : β → Program S ε α} (refl : ∀ s, rely s s)
    (hinv : ∀ a b, rely a b → I a → I b) (hinv' : ∀ a b, guarantee a b → I a → I b)
    (hrely : ∀ x a b, rely a b → Q x a → Q x b)
    (hguarantee : ∀ x a b, guarantee a b → Q x a → Q x b)
    (hbody : ∀ x ∈ xs, ∀ s, I s →
      Within sem rely guarantee (IfOk fun _ t => Q x t) (body x) s) {s : σ} (hs : I s) :
    Within sem rely guarantee (IfOk fun _ t => ∀ x ∈ xs, Q x t) (Program.each xs body) s := by
  induction xs generalizing s with
  | nil => exact fun t _ x hx => absurd hx List.not_mem_nil
  | cons x xs ih =>
      have hfirst := (hbody x List.mem_cons_self s hs).keep_ok hinv hinv' hs
      refine hfirst.bind_ok refl fun _ t hx => ?_
      have hrest := ih (fun y hy => hbody y (List.mem_cons_of_mem x hy)) hx.2
      have hboth := hrest.keep_ok (hrely x) (hguarantee x) hx.1
      refine hboth.bind_ok refl fun _ u hu v hv y hy => ?_
      rcases List.mem_cons.mp hy with rfl | hy
      · exact hrely y u v hv hu.2
      · exact hrely y u v hv (hu.1 y hy)

section Parallel

variable [DecidableEq ι] {relies guarantees : ι → σ → σ → Prop}
  {posts : ι → Except ε α → σ → Prop}

/-- If every client relies only on what the others guarantee, every claim holds
in every interleaving. -/
theorem parallel {c d : Config S ε α σ ι}
    (h : ∀ i, Within sem (relies i) (guarantees i) (posts i) (c.clients i) c.state)
    (run : Interleaves sem c d) (refl : ∀ i s, relies i s s)
    (trans : ∀ i a b c, relies i a b → relies i b c → relies i a c)
    (compatible : ∀ i j, i ≠ j → ∀ a b, guarantees j a b → relies i a b) :
    (∀ i, Within sem (relies i) (guarantees i) (posts i) (d.clients i) d.state) ∧
      Relation.ReflTransGen (fun a b => ∃ i, guarantees i a b) c.state d.state := by
  induction run with
  | refl => exact ⟨h, Relation.ReflTransGen.refl⟩
  | tail _ step ih =>
      obtain ⟨hd, hg⟩ := ih
      cases step with
      | @client i clients s s' p hadv =>
          have hi := hd i
          generalize hprog : clients i = q at hadv
          cases hadv with
          | @call op next _ _ answer hsem =>
              simp only [hprog] at hi
              obtain ⟨hstep, hnext⟩ := hi s (refl i s) _ _ hsem
              refine ⟨fun j => ?_, hg.tail ⟨i, hstep⟩⟩
              by_cases hj : j = i
              · subst hj
                simpa using hnext
              · simpa [hj] using (hd j).interfere (trans j) (compatible j i hj _ _ hstep)

theorem parallel_completed {c d : Config S ε α σ ι}
    (h : ∀ i, Within sem (relies i) (guarantees i) (posts i) (c.clients i) c.state)
    (run : Interleaves sem c d) (done : d.Completed) (refl : ∀ i s, relies i s s)
    (trans : ∀ i a b c, relies i a b → relies i b c → relies i a c)
    (compatible : ∀ i j, i ≠ j → ∀ a b, guarantees j a b → relies i a b) (i : ι) :
    ∃ result, posts i result d.state := by
  obtain ⟨result, hresult⟩ := done i
  have hi := (parallel h run refl trans compatible).1 i
  rw [hresult] at hi
  exact ⟨result, hi _ (refl i _)⟩

theorem AllCalls.interleaves {P : S.Op → Prop} {R : σ → σ → Prop} (refl : ∀ s, R s s)
    (trans : ∀ a b c, R a b → R b c → R a c)
    (hcall : ∀ s op answer s', P op → sem s op answer s' → R s s')
    {c d : Config S ε α σ ι} (hp : ∀ i, (c.clients i).AllCalls P)
    (run : Interleaves sem c d) : R c.state d.state := by
  have hclient : ∀ i, Within sem (fun _ _ => True) R (fun _ _ => True) (c.clients i) c.state :=
    fun i => (hp i).within (fun _ _ _ _ => trivial)
      (fun s op answer s' _ hop hsem => ⟨hcall s op answer s' hop hsem, trivial⟩) trivial
  have hsteps := (parallel hclient run (fun _ _ => trivial) (fun _ _ _ _ _ _ => trivial)
    (fun _ _ _ _ _ _ => trivial)).2
  have : Std.Refl R := ⟨refl⟩
  have : IsTrans σ R := ⟨trans⟩
  rw [← Relation.reflTransGen_eq_self (r := R)]
  exact Relation.ReflTransGen.mono (fun _ _ ⟨_, hstep⟩ => hstep) _ _ hsteps

end Parallel

end Program

end Interaction
