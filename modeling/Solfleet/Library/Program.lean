import Mathlib.Data.List.Forall2
import Mathlib.Logic.Relation

/-! # Effectful programs and their runs

A program is a tree of calls: each node names an operation and continues with
the answer, which may also be an exception. Nothing here
interprets the operations. `exec` runs a program against a stateful handler,
`Oracle` is the handler that may answer from the whole history, and `Runs`
collects the traces a program has under any answers at all. Every statement is
about the actual trace of calls, so equal repeated calls remain distinct events.
-/

namespace Interaction

/-- The operations a program may call, with the type each one is answered in. -/
structure Signature where
  Op : Type
  Answer : Op → Type

/-- Programs over a signature. An answer reaches the program as an `Except`, so
handling an exception is an ordinary case split in the continuation. -/
inductive Program (S : Signature) (ε α : Type) where
  | done (result : Except ε α)
  | call (op : S.Op) (next : Except ε (S.Answer op) → Program S ε α)

/-- One call together with the answer it received. -/
structure Event (S : Signature) (ε : Type) where
  op : S.Op
  answer : Except ε (S.Answer op)

/-- The call was answered with an exception. -/
def Event.Raised {S : Signature} {ε : Type} (event : Event S ε) : Prop :=
  ∃ e, event.answer = .error e

namespace Program

variable {S : Signature} {ε α β γ σ : Type}

/-! ## The monad -/

/-- Sequencing; an exception of the first program ends the whole. -/
def bind : Program S ε α → (α → Program S ε β) → Program S ε β
  | .done (.ok a), f => f a
  | .done (.error e), _ => .done (.error e)
  | .call op next, f => .call op fun answer => (next answer).bind f

instance : Monad (Program S ε) where
  pure a := .done (.ok a)
  bind := bind

/-- Call one operation and return its answer. -/
def perform (op : S.Op) : Program S ε (S.Answer op) := .call op .done

def raise (e : ε) : Program S ε α := .done (.error e)

/-- A computation without calls. -/
def ofExcept (r : Except ε α) : Program S ε α := .done r

@[simp] theorem done_ok_bind (a : α) (f : α → Program S ε β) :
    (Program.done (.ok a) : Program S ε α) >>= f = f a := rfl

@[simp] theorem done_error_bind (e : ε) (f : α → Program S ε β) :
    (Program.done (.error e) : Program S ε α) >>= f = .done (.error e) := rfl

@[simp] theorem call_bind (op : S.Op) (next : Except ε (S.Answer op) → Program S ε α)
    (f : α → Program S ε β) :
    Program.call op next >>= f = .call op fun answer => next answer >>= f := rfl

theorem bind_pure_id (p : Program S ε α) : p >>= pure = p := by
  induction p with
  | done r => cases r <;> rfl
  | call op next ih => simp only [call_bind, ih]

theorem bind_assoc' (p : Program S ε α) (f : α → Program S ε β) (g : β → Program S ε γ) :
    p >>= f >>= g = p >>= fun a => f a >>= g := by
  induction p with
  | done r => cases r <;> rfl
  | call op next ih => simp only [call_bind, ih]

instance : LawfulMonad (Program S ε) :=
  LawfulMonad.mk' (Program S ε) bind_pure_id (fun _ _ => rfl) bind_assoc'

theorem map_eq_bind (f : α → β) (p : Program S ε α) :
    f <$> p = p >>= fun a => pure (f a) :=
  (bind_pure_comp f p).symm

/-! ## Execution against a handler -/

/-- What answers a call and how the state moves. -/
abbrev Handler (S : Signature) (ε σ : Type) :=
  (op : S.Op) → σ → Except ε (S.Answer op) × σ

/-- The complete outcome of an execution. -/
structure Execution (S : Signature) (ε σ α : Type) where
  final : σ
  trace : List (Event S ε)
  result : Except ε α

def exec (handle : Handler S ε σ) : Program S ε α → σ → Execution S ε σ α
  | .done r, s => ⟨s, [], r⟩
  | .call op next, s =>
      let answered := handle op s
      let rest := exec handle (next answered.1) answered.2
      ⟨rest.final, ⟨op, answered.1⟩ :: rest.trace, rest.result⟩

/-- Continue a completed execution, or stop where it raised. -/
def Execution.andThen (first : Execution S ε σ α)
    (second : α → σ → Execution S ε σ β) : Execution S ε σ β :=
  match first.result with
  | .ok a =>
      let rest := second a first.final
      ⟨rest.final, first.trace ++ rest.trace, rest.result⟩
  | .error e => ⟨first.final, first.trace, .error e⟩

@[simp] theorem exec_done (handle : Handler S ε σ) (r : Except ε α) (s : σ) :
    exec handle (.done r) s = ⟨s, [], r⟩ := rfl

@[simp] theorem exec_pure (handle : Handler S ε σ) (a : α) (s : σ) :
    exec handle (pure a) s = ⟨s, [], .ok a⟩ := rfl

@[simp] theorem exec_perform (handle : Handler S ε σ) (op : S.Op) (s : σ) :
    exec handle (perform op) s =
      ⟨(handle op s).2, [⟨op, (handle op s).1⟩], (handle op s).1⟩ := rfl

theorem exec_bind (handle : Handler S ε σ) (p : Program S ε α) (f : α → Program S ε β)
    (s : σ) :
    exec handle (p >>= f) s = (exec handle p s).andThen fun a => exec handle (f a) := by
  induction p generalizing s with
  | done r => cases r <;> rfl
  | call op next ih =>
      simp only [call_bind, exec, ih, Execution.andThen]
      cases (exec handle (next (handle op s).1) (handle op s).2).result <;> rfl

/-- The two halves of a completed first program. -/
theorem exec_bind_ok {handle : Handler S ε σ} {p : Program S ε α} {f : α → Program S ε β}
    {s : σ} {a : α} (h : (exec handle p s).result = .ok a) :
    exec handle (p >>= f) s =
      let first := exec handle p s
      let rest := exec handle (f a) first.final
      ⟨rest.final, first.trace ++ rest.trace, rest.result⟩ := by
  rw [exec_bind, Execution.andThen, h]

theorem exec_bind_error {handle : Handler S ε σ} {p : Program S ε α}
    {f : α → Program S ε β} {s : σ} {e : ε} (h : (exec handle p s).result = .error e) :
    exec handle (p >>= f) s = ⟨(exec handle p s).final, (exec handle p s).trace, .error e⟩ := by
  rw [exec_bind, Execution.andThen, h]

/-- A sequence that returns went through both halves. -/
theorem exec_bind_result {handle : Handler S ε σ} {p : Program S ε α} {f : α → Program S ε β}
    {s : σ} {b : β} (h : (exec handle (p >>= f) s).result = .ok b) :
    ∃ a, (exec handle p s).result = .ok a ∧
      (exec handle (f a) (exec handle p s).final).result = .ok b ∧
      (exec handle (p >>= f) s).final = (exec handle (f a) (exec handle p s).final).final := by
  cases hp : (exec handle p s).result with
  | error e =>
      rw [exec_bind_error hp] at h
      cases h
  | ok a =>
      rw [exec_bind_ok hp] at h ⊢
      exact ⟨a, rfl, h, rfl⟩

/-- The program returns `a` and leaves `s'`. -/
def Ends (handle : Handler S ε σ) (p : Program S ε α) (s : σ) (a : α) (s' : σ) : Prop :=
  ∃ trace, exec handle p s = ⟨s', trace, .ok a⟩

theorem ends_pure {handle : Handler S ε σ} {a : α} {s : σ} : Ends handle (pure a) s a s := ⟨[], rfl⟩

theorem ends_perform {handle : Handler S ε σ} {op : S.Op} {s s' : σ} {a : S.Answer op}
    (h : handle op s = (.ok a, s')) : Ends handle (perform op) s a s' := by
  refine ⟨[⟨op, .ok a⟩], ?_⟩
  rw [exec_perform, h]

theorem Ends.bind {handle : Handler S ε σ} {p : Program S ε α} {f : α → Program S ε β}
    {s s₁ s₂ : σ} {a : α} {b : β} (hp : Ends handle p s a s₁) (hf : Ends handle (f a) s₁ b s₂) :
    Ends handle (p >>= f) s b s₂ := by
  obtain ⟨first, hfirst⟩ := hp
  obtain ⟨rest, hrest⟩ := hf
  have hresult : (exec handle p s).result = .ok a := by rw [hfirst]
  refine ⟨first ++ rest, ?_⟩
  rw [exec_bind_ok hresult, hfirst]
  simp only [hrest]

theorem Ends.result {handle : Handler S ε σ} {p : Program S ε α} {s s' : σ} {a : α}
    (h : Ends handle p s a s') : (exec handle p s).result = .ok a := by
  obtain ⟨trace, htrace⟩ := h
  rw [htrace]

theorem Ends.final {handle : Handler S ε σ} {p : Program S ε α} {s s' : σ} {a : α}
    (h : Ends handle p s a s') : (exec handle p s).final = s' := by
  obtain ⟨trace, htrace⟩ := h
  rw [htrace]

theorem ends_of_exec {handle : Handler S ε σ} {p : Program S ε α} {s s' : σ} {a : α}
    (hresult : (exec handle p s).result = .ok a) (hfinal : (exec handle p s).final = s') :
    Ends handle p s a s' := by
  subst hfinal
  refine ⟨(exec handle p s).trace, ?_⟩
  rw [← hresult]

/-- The program raises and leaves `s'`. -/
def Stops (handle : Handler S ε σ) (p : Program S ε α) (s s' : σ) : Prop :=
  ∃ trace e, exec handle p s = ⟨s', trace, .error e⟩

theorem stops_perform {handle : Handler S ε σ} {op : S.Op} {s s' : σ} {e : ε}
    (h : handle op s = (.error e, s')) : Stops handle (perform op) s s' := by
  refine ⟨[⟨op, .error e⟩], e, ?_⟩
  rw [exec_perform, h]

theorem Stops.bind {handle : Handler S ε σ} {p : Program S ε α} {s s' : σ}
    (hp : Stops handle p s s') (f : α → Program S ε β) : Stops handle (p >>= f) s s' := by
  obtain ⟨trace, e, h⟩ := hp
  have hresult : (exec handle p s).result = .error e := by rw [h]
  refine ⟨trace, e, ?_⟩
  rw [exec_bind_error hresult, h]

theorem Ends.stops {handle : Handler S ε σ} {p : Program S ε α} {f : α → Program S ε β}
    {s s₁ s₂ : σ} {a : α} (hp : Ends handle p s a s₁) (hf : Stops handle (f a) s₁ s₂) :
    Stops handle (p >>= f) s s₂ := by
  obtain ⟨first, hfirst⟩ := hp
  obtain ⟨rest, e, hrest⟩ := hf
  have hresult : (exec handle p s).result = .ok a := by rw [hfirst]
  refine ⟨first ++ rest, e, ?_⟩
  rw [exec_bind_ok hresult, hfirst]
  simp only [hrest]

theorem Stops.final {handle : Handler S ε σ} {p : Program S ε α} {s s' : σ}
    (h : Stops handle p s s') : (exec handle p s).final = s' := by
  obtain ⟨trace, e, htrace⟩ := h
  rw [htrace]

/-! ## Oracles -/

/-- An environment that answers from everything it has been asked so far. -/
abbrev Oracle (S : Signature) (ε : Type) :=
  List (Event S ε) → (op : S.Op) → Except ε (S.Answer op)

def Oracle.handler (w : Oracle S ε) : Handler S ε (List (Event S ε)) :=
  fun op history => (w history op, history ++ [⟨op, w history op⟩])

/-- A run from an empty history. -/
def run (w : Oracle S ε) (p : Program S ε α) : Execution S ε (List (Event S ε)) α :=
  exec w.handler p []

/-! ## Traces under arbitrary answers -/

/-- `Runs p trace result`: some sequence of answers drives `p` through exactly
`trace` to `result`. -/
inductive Runs : Program S ε α → List (Event S ε) → Except ε α → Prop
  | done (r : Except ε α) : Runs (.done r) [] r
  | call {op : S.Op} {next : Except ε (S.Answer op) → Program S ε α}
      (answer : Except ε (S.Answer op)) {trace : List (Event S ε)} {result : Except ε α}
      (rest : Runs (next answer) trace result) :
      Runs (.call op next) (⟨op, answer⟩ :: trace) result

theorem exec_runs (handle : Handler S ε σ) (p : Program S ε α) (s : σ) :
    Runs p (exec handle p s).trace (exec handle p s).result := by
  induction p generalizing s with
  | done r => exact .done r
  | call op next ih => exact .call _ (ih _ _)

/-- Each answer of an execution is the handler's, in some state. -/
theorem answer_of_mem_exec {handle : Handler S ε σ} {p : Program S ε α} {s : σ}
    {event : Event S ε} (h : event ∈ (exec handle p s).trace) :
    ∃ s', event.answer = (handle event.op s').1 := by
  induction p generalizing s with
  | done r => cases h
  | call op next ih =>
      obtain rfl | h := List.mem_cons.mp h
      · exact ⟨s, rfl⟩
      · exact ih _ h

theorem run_runs (w : Oracle S ε) (p : Program S ε α) :
    Runs p (run w p).trace (run w p).result :=
  exec_runs _ _ _

theorem runs_done_iff {r result : Except ε α} {trace : List (Event S ε)} :
    Runs (.done r : Program S ε α) trace result ↔ trace = [] ∧ result = r := by
  constructor
  · rintro ⟨⟩
    exact ⟨rfl, rfl⟩
  · rintro ⟨rfl, rfl⟩
    exact .done _

@[simp] theorem runs_pure_iff {a : α} {result : Except ε α} {trace : List (Event S ε)} :
    Runs (pure a : Program S ε α) trace result ↔ trace = [] ∧ result = .ok a :=
  runs_done_iff

@[simp] theorem runs_raise_iff {e : ε} {result : Except ε α} {trace : List (Event S ε)} :
    Runs (raise e : Program S ε α) trace result ↔ trace = [] ∧ result = .error e :=
  runs_done_iff

@[simp] theorem runs_ofExcept_iff {r result : Except ε α} {trace : List (Event S ε)} :
    Runs (ofExcept r : Program S ε α) trace result ↔ trace = [] ∧ result = r :=
  runs_done_iff

@[simp] theorem runs_perform_iff {op : S.Op} {result : Except ε (S.Answer op)}
    {trace : List (Event S ε)} :
    Runs (perform op) trace result ↔ trace = [⟨op, result⟩] := by
  constructor
  · rintro (_ | ⟨answer, ⟨⟩⟩)
    rfl
  · rintro rfl
    exact .call result (.done result)

/-- A run of a sequence is a completed first half and a second half, or a first
half that raised. -/
theorem runs_bind_iff {p : Program S ε α} {f : α → Program S ε β} {trace : List (Event S ε)}
    {result : Except ε β} :
    Runs (p >>= f) trace result ↔
      (∃ first rest a, Runs p first (.ok a) ∧ Runs (f a) rest result ∧ trace = first ++ rest) ∨
        ∃ e, Runs p trace (.error e) ∧ result = .error e := by
  constructor
  · intro h
    induction p generalizing trace with
    | done r =>
        cases r with
        | ok a => exact .inl ⟨[], trace, a, .done _, h, rfl⟩
        | error e =>
            obtain ⟨rfl, rfl⟩ := runs_done_iff.mp h
            exact .inr ⟨e, .done _, rfl⟩
    | call op next ih =>
        cases h with
        | call answer rest =>
            obtain ⟨first, tail, a, hp, hf, rfl⟩ | ⟨e, hp, rfl⟩ := ih answer rest
            · exact .inl ⟨_, tail, a, .call answer hp, hf, rfl⟩
            · exact .inr ⟨e, .call answer hp, rfl⟩
  · intro h
    induction p generalizing trace with
    | done r =>
        obtain ⟨first, tail, a, hp, hf, rfl⟩ | ⟨e, hp, rfl⟩ := h
        · obtain ⟨rfl, rfl⟩ := runs_done_iff.mp hp
          exact hf
        · obtain ⟨rfl, rfl⟩ := runs_done_iff.mp hp
          exact .done _
    | call op next ih =>
        obtain ⟨first, tail, a, hp, hf, rfl⟩ | ⟨e, hp, rfl⟩ := h
        · cases hp with
          | call answer hp => exact .call answer (ih answer (.inl ⟨_, tail, a, hp, hf, rfl⟩))
        · cases hp with
          | call answer hp => exact .call answer (ih answer (.inr ⟨e, hp, rfl⟩))

theorem runs_map_iff {p : Program S ε α} {f : α → β} {trace : List (Event S ε)}
    {result : Except ε β} :
    Runs (f <$> p) trace result ↔ ∃ r, Runs p trace r ∧ result = r.map f := by
  rw [map_eq_bind, runs_bind_iff]
  constructor
  · rintro (⟨first, rest, a, hp, hf, rfl⟩ | ⟨e, hp, rfl⟩)
    · obtain ⟨rfl, rfl⟩ := runs_pure_iff.mp hf
      exact ⟨.ok a, by simpa using hp, rfl⟩
    · exact ⟨.error e, hp, rfl⟩
  · rintro ⟨_ | a, hp, rfl⟩
    · exact .inr ⟨_, hp, rfl⟩
    · exact .inl ⟨trace, [], a, hp, runs_pure_iff.mpr ⟨rfl, rfl⟩, by simp⟩

theorem runs_bind_ok_iff {p : Program S ε α} {f : α → Program S ε β}
    {trace : List (Event S ε)} {b : β} :
    Runs (p >>= f) trace (.ok b) ↔
      ∃ first rest a, Runs p first (.ok a) ∧ Runs (f a) rest (.ok b) ∧ trace = first ++ rest := by
  rw [runs_bind_iff]
  simp

theorem runs_map_ok_iff {p : Program S ε α} {f : α → β} {trace : List (Event S ε)} {b : β} :
    Runs (f <$> p) trace (.ok b) ↔ ∃ a, Runs p trace (.ok a) ∧ b = f a := by
  rw [runs_map_iff]
  constructor
  · rintro ⟨_ | a, hp, hr⟩
    · cases hr
    · exact ⟨a, hp, Except.ok.inj hr⟩
  · rintro ⟨a, hp, rfl⟩
    exact ⟨.ok a, hp, rfl⟩

/-! ## What a program may return -/

/-- Every value the program returns satisfies `Q`, whatever the answers. -/
def Returns (Q : α → Prop) (p : Program S ε α) : Prop :=
  ∀ trace a, Runs p trace (.ok a) → Q a

@[simp] theorem returns_pure_iff {Q : α → Prop} {a : α} :
    Returns Q (pure a : Program S ε α) ↔ Q a := by
  simp [Returns]

theorem Returns.bind {M : α → Prop} {Q : β → Prop} {p : Program S ε α}
    {f : α → Program S ε β} (hp : Returns M p) (hf : ∀ a, M a → Returns Q (f a)) :
    Returns Q (p >>= f) := by
  intro trace b h
  obtain ⟨first, rest, a, ha, hb, _⟩ := runs_bind_ok_iff.mp h
  exact hf a (hp _ _ ha) _ _ hb

/-- The value of a last step counts, whatever came before it. -/
theorem Returns.after {Q : β → Prop} {p : Program S ε α} {f : α → Program S ε β}
    (hf : ∀ a, Returns Q (f a)) : Returns Q (p >>= f) :=
  Returns.bind (M := fun _ => True) (fun _ _ _ => trivial) fun a _ => hf a

theorem Returns.map {Q : β → Prop} {p : Program S ε α} {f : α → β}
    (h : Returns (fun a => Q (f a)) p) : Returns Q (f <$> p) := by
  intro trace b hb
  obtain ⟨a, ha, rfl⟩ := runs_map_ok_iff.mp hb
  exact h _ _ ha

/-! ## What a program may call -/

/-- Every call in the tree satisfies `P`, whatever the answers. -/
def AllCalls (P : S.Op → Prop) : Program S ε α → Prop
  | .done _ => True
  | .call op next => P op ∧ ∀ answer, (next answer).AllCalls P

@[simp] theorem allCalls_done (P : S.Op → Prop) (r : Except ε α) :
    (Program.done r : Program S ε α).AllCalls P := trivial

@[simp] theorem allCalls_pure (P : S.Op → Prop) (a : α) :
    (pure a : Program S ε α).AllCalls P := trivial

@[simp] theorem allCalls_perform {P : S.Op → Prop} {op : S.Op} :
    (perform op : Program S ε _).AllCalls P ↔ P op :=
  ⟨fun h => h.1, fun h => ⟨h, fun _ => trivial⟩⟩

theorem allCalls_of_forall {P : S.Op → Prop} (h : ∀ op, P op) (p : Program S ε α) :
    p.AllCalls P := by
  induction p with
  | done r => trivial
  | call op next ih => exact ⟨h op, ih⟩

theorem AllCalls.mono {P Q : S.Op → Prop} {p : Program S ε α} (hp : p.AllCalls P)
    (h : ∀ op, P op → Q op) : p.AllCalls Q := by
  induction p with
  | done r => trivial
  | call op next ih => exact ⟨h op hp.1, fun answer => ih answer (hp.2 answer)⟩

theorem AllCalls.bind {P : S.Op → Prop} {p : Program S ε α} {f : α → Program S ε β}
    (hp : p.AllCalls P) (hf : ∀ a, (f a).AllCalls P) : (p >>= f).AllCalls P := by
  induction p with
  | done r =>
      cases r with
      | ok a => exact hf a
      | error e => trivial
  | call op next ih => exact ⟨hp.1, fun answer => ih answer (hp.2 answer)⟩

theorem AllCalls.map {P : S.Op → Prop} {p : Program S ε α} (f : α → β)
    (hp : p.AllCalls P) : (f <$> p).AllCalls P := by
  rw [map_eq_bind]
  exact hp.bind fun _ => trivial

theorem Runs.allCalls {P : S.Op → Prop} {p : Program S ε α} {trace : List (Event S ε)}
    {result : Except ε α} (h : Runs p trace result) (hp : p.AllCalls P) :
    ∀ event ∈ trace, P event.op := by
  induction h with
  | done r => simp
  | call answer rest ih =>
      intro event hevent
      rcases List.mem_cons.mp hevent with rfl | hevent
      · exact hp.1
      · exact ih (hp.2 answer) event hevent

/-- What every call the program makes preserves holds in the end. -/
theorem AllCalls.exec_final {P : S.Op → Prop} {I : σ → Prop} {handle : Handler S ε σ}
    {p : Program S ε α} (hp : p.AllCalls P) (hstep : ∀ op s, P op → I s → I (handle op s).2)
    {s : σ} (hs : I s) : I (exec handle p s).final := by
  induction p generalizing s with
  | done r => exact hs
  | call op next ih => exact ih _ (hp.2 _) (hstep op s hp.1 hs)

/-- Handlers that agree on the calls a program makes execute it alike. -/
theorem AllCalls.exec_congr {P : S.Op → Prop} {handle handle' : Handler S ε σ}
    {p : Program S ε α} (hp : p.AllCalls P) (h : ∀ op s, P op → handle op s = handle' op s)
    (s : σ) : exec handle p s = exec handle' p s := by
  induction p generalizing s with
  | done r => rfl
  | call op next ih => simp only [exec, h op s hp.1, ih _ (hp.2 _)]

/-- Each answer of an execution is one the handler gave. -/
theorem exec_answered (handle : Handler S ε σ) (p : Program S ε α) (s : σ) :
    ∀ event ∈ (exec handle p s).trace, ∃ t, event.answer = (handle event.op t).1 := by
  induction p generalizing s with
  | done r => exact fun event h => absurd h List.not_mem_nil
  | call op next ih =>
      intro event hevent
      rcases List.mem_cons.mp hevent with rfl | hevent
      · exact ⟨s, rfl⟩
      · exact ih _ _ event hevent

/-- Some environment answers every call with an exception, so every program has a run. -/
theorem exists_runs [Inhabited ε] (p : Program S ε α) : ∃ trace result, Runs p trace result := by
  induction p with
  | done r => exact ⟨[], r, .done r⟩
  | call op next ih =>
      obtain ⟨trace, result, h⟩ := ih (.error default)
      exact ⟨_, result, .call _ h⟩

/-- The calls in the tree are those of its runs. -/
theorem allCalls_iff_runs [Inhabited ε] {P : S.Op → Prop} {p : Program S ε α} :
    p.AllCalls P ↔ ∀ trace result, Runs p trace result → ∀ event ∈ trace, P event.op := by
  constructor
  · exact fun hp _ _ h => h.allCalls hp
  · intro h
    induction p with
    | done r => trivial
    | call op next ih =>
        obtain ⟨trace, result, hr⟩ := exists_runs (next (.error default))
        refine ⟨h _ _ (.call _ hr) _ List.mem_cons_self, fun answer => ih answer ?_⟩
        intro trace result hr event he
        exact h _ _ (.call answer hr) event (by simp [he])

/-- A sequence calls what its first half calls and what follows a value the first
half can return. -/
theorem allCalls_bind_iff {P : S.Op → Prop} {p : Program S ε α} {f : α → Program S ε β} :
    (p >>= f).AllCalls P ↔
      p.AllCalls P ∧ ∀ trace a, Runs p trace (.ok a) → (f a).AllCalls P := by
  induction p with
  | done r =>
      cases r with
      | error e => simp [runs_done_iff]
      | ok a => simp [runs_done_iff]
  | call op next ih =>
      simp only [call_bind, AllCalls, ih]
      constructor
      · rintro ⟨hop, hnext⟩
        refine ⟨⟨hop, fun answer => (hnext answer).1⟩, fun trace a h => ?_⟩
        cases h with
        | call answer h => exact (hnext answer).2 _ _ h
      · rintro ⟨⟨hop, hnext⟩, hf⟩
        exact ⟨hop, fun answer => ⟨hnext answer, fun trace a h => hf _ a (.call answer h)⟩⟩

/-! ## What comes before a call -/

/-- Every call in the tree comes after a history that `E` accepts for it. -/
def Follows (E : List (Event S ε) → S.Op → Prop) : Program S ε α → Prop
  | .done _ => True
  | .call op next =>
      E [] op ∧ ∀ answer, (next answer).Follows fun history op' => E (⟨op, answer⟩ :: history) op'

theorem Runs.follows {E : List (Event S ε) → S.Op → Prop} {p : Program S ε α}
    {trace : List (Event S ε)} {result : Except ε α} (h : Runs p trace result)
    (hp : p.Follows E) {before after : List (Event S ε)} {event : Event S ε}
    (htrace : trace = before ++ event :: after) : E before event.op := by
  induction h generalizing E before with
  | done r => simp at htrace
  | call answer rest ih =>
      cases before with
      | nil =>
          obtain ⟨rfl, _⟩ := List.cons.inj htrace
          exact hp.1
      | cons first before =>
          obtain ⟨rfl, htail⟩ := List.cons.inj htrace
          exact ih (hp.2 answer) htail

theorem Follows.mono {E E' : List (Event S ε) → S.Op → Prop} {p : Program S ε α}
    (hp : p.Follows E) (h : ∀ history op, E history op → E' history op) : p.Follows E' := by
  induction p generalizing E E' with
  | done r => trivial
  | call op next ih =>
      exact ⟨h _ _ hp.1, fun answer => ih answer (hp.2 answer) fun history op' => h _ op'⟩

/-- Where all calls satisfy `P`, so does the history of each. -/
theorem AllCalls.follows {P : S.Op → Prop} {E : List (Event S ε) → S.Op → Prop}
    {p : Program S ε α} (hp : p.AllCalls P)
    (h : ∀ history op, (∀ event ∈ history, P event.op) → P op → E history op) : p.Follows E := by
  induction p generalizing E with
  | done r => trivial
  | call op next ih =>
      refine ⟨h [] op (by simp) hp.1, fun answer => ?_⟩
      refine ih answer (hp.2 answer) fun history op' hh => ?_
      exact h _ op' (List.forall_mem_cons.mpr ⟨hp.1, hh⟩)

/-- The second half of a sequence comes after the whole of the first. -/
theorem Follows.bind {E : List (Event S ε) → S.Op → Prop} {p : Program S ε α}
    {f : α → Program S ε β} (hp : p.Follows E)
    (hf : ∀ first a, Runs p first (.ok a) → (f a).Follows fun history => E (first ++ history)) :
    (p >>= f).Follows E := by
  induction p generalizing E with
  | done r =>
      cases r with
      | ok a => exact hf [] a (.done _)
      | error e => trivial
  | call op next ih =>
      refine ⟨hp.1, fun answer => ih answer (hp.2 answer) fun first a h => ?_⟩
      exact hf _ a (.call answer h)

/-! ## What holds along a trace -/

/-- `E` holds of every event and the events before it. -/
def Along (E : List (Event S ε) → Event S ε → Prop) (trace : List (Event S ε)) : Prop :=
  ∀ before event after, trace = before ++ event :: after → E before event

@[simp] theorem along_nil (E : List (Event S ε) → Event S ε → Prop) : Along E [] := by
  intro before event after h
  simp at h

theorem along_cons_iff {E : List (Event S ε) → Event S ε → Prop} {event : Event S ε}
    {trace : List (Event S ε)} :
    Along E (event :: trace) ↔ E [] event ∧ Along (fun before => E (event :: before)) trace := by
  constructor
  · intro h
    refine ⟨h [] event trace rfl, fun before e after htrace => ?_⟩
    exact h (event :: before) e after (by simp [htrace])
  · rintro ⟨hfirst, hrest⟩ before e after htrace
    cases before with
    | nil =>
        obtain ⟨rfl, _⟩ := List.cons.inj htrace
        exact hfirst
    | cons first before =>
        obtain ⟨rfl, htail⟩ := List.cons.inj htrace
        exact hrest before e after htail

theorem along_append_iff {E : List (Event S ε) → Event S ε → Prop} {xs ys : List (Event S ε)} :
    Along E (xs ++ ys) ↔ Along E xs ∧ Along (fun before => E (xs ++ before)) ys := by
  induction xs generalizing E with
  | nil => simp
  | cons x xs ih => simp only [List.cons_append, along_cons_iff, ih, and_assoc]

theorem along_of_forall {E : List (Event S ε) → Event S ε → Prop} {trace : List (Event S ε)}
    (h : ∀ event ∈ trace, ∀ before, E before event) : Along E trace := by
  rintro before event after rfl
  exact h event (by simp) before

/-- `E` holds of every event and the events after it. -/
def Ahead (E : Event S ε → List (Event S ε) → Prop) (trace : List (Event S ε)) : Prop :=
  ∀ before event after, trace = before ++ event :: after → E event after

@[simp] theorem ahead_nil (E : Event S ε → List (Event S ε) → Prop) : Ahead E [] := by
  intro before event after h
  simp at h

theorem ahead_cons_iff {E : Event S ε → List (Event S ε) → Prop} {event : Event S ε}
    {trace : List (Event S ε)} : Ahead E (event :: trace) ↔ E event trace ∧ Ahead E trace := by
  constructor
  · intro h
    exact ⟨h [] event trace rfl, fun before e after htrace => h (event :: before) e after
      (by simp [htrace])⟩
  · rintro ⟨hfirst, hrest⟩ before e after htrace
    cases before with
    | nil =>
        obtain ⟨rfl, rfl⟩ := List.cons.inj htrace
        exact hfirst
    | cons first before =>
        obtain ⟨rfl, htail⟩ := List.cons.inj htrace
        exact hrest before e after htail

theorem ahead_append_iff {E : Event S ε → List (Event S ε) → Prop} {xs ys : List (Event S ε)} :
    Ahead E (xs ++ ys) ↔ Ahead (fun event after => E event (after ++ ys)) xs ∧ Ahead E ys := by
  induction xs with
  | nil => simp
  | cons x xs ih => simp only [List.cons_append, ahead_cons_iff, ih, and_assoc]

theorem ahead_of_forall {E : Event S ε → List (Event S ε) → Prop} {trace : List (Event S ε)}
    (h : ∀ event ∈ trace, ∀ after, E event after) : Ahead E trace := by
  rintro before event after rfl
  exact h event (by simp) after

/-! ## Containing exceptions -/

/-- Run a program and return how it ended. -/
def attempt : Program S ε α → Program S ε (Except ε α)
  | .done r => .done (.ok r)
  | .call op next => .call op fun answer => (next answer).attempt

theorem AllCalls.attempt {P : S.Op → Prop} {p : Program S ε α} (hp : p.AllCalls P) :
    p.attempt.AllCalls P := by
  induction p with
  | done r => trivial
  | call op next ih => exact ⟨hp.1, fun answer => ih answer (hp.2 answer)⟩

/-! ## Repetition -/

/-- Run `body` on each element in turn and collect the results. -/
def each (xs : List α) (body : α → Program S ε β) : Program S ε (List β) :=
  match xs with
  | [] => pure []
  | x :: xs => do
      let b ← body x
      let bs ← each xs body
      pure (b :: bs)

@[simp] theorem each_nil (body : α → Program S ε β) :
    each ([] : List α) body = pure [] := rfl

theorem each_cons (x : α) (xs : List α) (body : α → Program S ε β) :
    each (x :: xs) body = body x >>= fun b => each xs body >>= fun bs => pure (b :: bs) := rfl

theorem each_append (xs ys : List α) (body : α → Program S ε β) :
    each (xs ++ ys) body =
      each xs body >>= fun bs => each ys body >>= fun cs => pure (bs ++ cs) := by
  induction xs with
  | nil => simp
  | cons x xs ih => simp [each_cons, ih, bind_assoc]

theorem Returns.each {Q : α → β → Prop} {xs : List α} {body : α → Program S ε β}
    (h : ∀ x ∈ xs, Returns (Q x) (body x)) :
    Returns (List.Forall₂ Q xs) (Program.each xs body) := by
  induction xs with
  | nil => exact returns_pure_iff.mpr .nil
  | cons x xs ih =>
      rw [each_cons]
      refine Returns.bind (h x (by simp)) fun b hb => ?_
      refine Returns.bind (ih fun y hy => h y (by simp [hy])) fun bs hbs => ?_
      exact returns_pure_iff.mpr (.cons hb hbs)

/-- The value of one of the bodies is among the results. -/
theorem Returns.each_mem {Q : β → Prop} {x : α} {xs : List α} {body : α → Program S ε β}
    (hx : x ∈ xs) (h : Returns Q (body x)) :
    Returns (fun bs => ∃ b ∈ bs, Q b) (Program.each xs body) := by
  induction xs with
  | nil => cases hx
  | cons y xs ih =>
      rw [each_cons]
      obtain rfl | hx := List.mem_cons.mp hx
      · refine Returns.bind h fun b hb => Returns.after fun bs => ?_
        exact returns_pure_iff.mpr ⟨b, List.mem_cons_self, hb⟩
      · refine Returns.after fun b => Returns.bind (ih hx) fun bs ⟨b', hb', hq⟩ => ?_
        exact returns_pure_iff.mpr ⟨b', List.mem_cons_of_mem _ hb', hq⟩

theorem runs_each_cons_ok_iff {x : α} {xs : List α} {body : α → Program S ε β}
    {trace : List (Event S ε)} {bs : List β} :
    Runs (Program.each (x :: xs) body) trace (.ok bs) ↔
      ∃ first rest b tail, Runs (body x) first (.ok b) ∧
        Runs (Program.each xs body) rest (.ok tail) ∧ trace = first ++ rest ∧ bs = b :: tail := by
  rw [each_cons, runs_bind_ok_iff]
  constructor
  · rintro ⟨first, rest, b, hb, h, rfl⟩
    obtain ⟨second, last, tail, ht, hp, rfl⟩ := runs_bind_ok_iff.mp h
    obtain ⟨rfl, hr⟩ := runs_pure_iff.mp hp
    exact ⟨first, second, b, tail, hb, ht, by simp, Except.ok.inj hr⟩
  · rintro ⟨first, rest, b, tail, hb, ht, rfl, rfl⟩
    refine ⟨first, rest, b, hb, ?_, rfl⟩
    exact runs_bind_ok_iff.mpr ⟨rest, [], tail, ht, runs_pure_iff.mpr ⟨rfl, rfl⟩, by simp⟩

theorem AllCalls.each {P : S.Op → Prop} {xs : List α} {body : α → Program S ε β}
    (h : ∀ x ∈ xs, (body x).AllCalls P) : (Program.each xs body).AllCalls P := by
  induction xs with
  | nil => trivial
  | cons x xs ih =>
      refine (h x (by simp)).bind fun b => ?_
      exact (ih fun y hy => h y (by simp [hy])).bind fun _ => trivial

/-! ## Where exceptions come from -/

/-- The program raises only where a call of it does, and does not handle that. -/
def Propagates : Program S ε α → Prop
  | .done r => ∃ a, r = .ok a
  | .call _ next =>
      (∀ e, next (.error e) = .done (.error e)) ∧ ∀ a, (next (.ok a)).Propagates

theorem propagates_pure (a : α) : (pure a : Program S ε α).Propagates := ⟨a, rfl⟩

theorem propagates_perform (op : S.Op) : (perform op : Program S ε _).Propagates :=
  ⟨fun _ => rfl, fun a => ⟨a, rfl⟩⟩

theorem Propagates.bind {p : Program S ε α} {f : α → Program S ε β} (hp : p.Propagates)
    (hf : ∀ a, (f a).Propagates) : (p >>= f).Propagates := by
  induction p with
  | done r =>
      obtain ⟨a, rfl⟩ := hp
      exact hf a
  | call op next ih =>
      exact ⟨fun e => congrArg (·.bind f) (hp.1 e), fun a => ih _ (hp.2 a)⟩

theorem Propagates.map {p : Program S ε α} (f : α → β) (hp : p.Propagates) :
    (f <$> p).Propagates := by
  rw [map_eq_bind]
  exact hp.bind fun _ => propagates_pure _

theorem Propagates.each {xs : List α} {body : α → Program S ε β}
    (h : ∀ x ∈ xs, (body x).Propagates) : (Program.each xs body).Propagates := by
  induction xs with
  | nil => exact propagates_pure []
  | cons x xs ih =>
      obtain ⟨hx, hxs⟩ := List.forall_mem_cons.mp h
      exact hx.bind fun _ => (ih hxs).bind fun _ => propagates_pure _

/-- A run that returns was answered throughout; one that raises ends at the call that did. -/
theorem Runs.propagates {p : Program S ε α} {trace : List (Event S ε)} {result : Except ε α}
    (h : Runs p trace result) (hp : p.Propagates) :
    match result with
    | .ok _ => ∀ event ∈ trace, ¬ event.Raised
    | .error _ => ∃ before last, trace = before ++ [last] ∧ last.Raised ∧
        ∀ event ∈ before, ¬ event.Raised := by
  induction h with
  | done r =>
      obtain ⟨a, rfl⟩ := hp
      simp
  | @call op next answer trace result rest ih =>
      cases answer with
      | error e =>
          rw [hp.1 e] at rest
          obtain ⟨rfl, rfl⟩ := runs_done_iff.mp rest
          exact ⟨[], _, rfl, ⟨e, rfl⟩, by simp⟩
      | ok a =>
          have hfirst : ¬ Event.Raised (⟨op, .ok a⟩ : Event S ε) := fun ⟨e, he⟩ => by cases he
          have hrest := ih (hp.2 a)
          cases result with
          | ok b => exact List.forall_mem_cons.mpr ⟨hfirst, hrest⟩
          | error e =>
              obtain ⟨before, last, rfl, hlast, hbefore⟩ := hrest
              exact ⟨_ :: before, last, rfl, hlast, List.forall_mem_cons.mpr ⟨hfirst, hbefore⟩⟩

/-! ## Stopped runs -/

/-- The answers so far determine where a program stands. -/
theorem Runs.resume {p : Program S ε α} {f : α → Program S ε β} {first rest : List (Event S ε)}
    {a : α} {result : Except ε β} (hp : Runs p first (.ok a))
    (h : Runs (p >>= f) (first ++ rest) result) : Runs (f a) rest result := by
  induction first generalizing p with
  | nil =>
      cases hp
      exact h
  | cons event first ih =>
      cases hp with
      | call answer hp =>
          cases h with
          | call _ h => exact ih hp h

/-! ## The last answer to a call -/

/-- The call was answered so, and was not made again. -/
def LastAnswer (trace : List (Event S ε)) (op : S.Op) (answer : S.Answer op) : Prop :=
  ∃ before after, trace = before ++ ⟨op, .ok answer⟩ :: after ∧ ∀ event ∈ after, event.op ≠ op

section LastAnswer

variable {xs ys : List (Event S ε)} {op : S.Op} {a b : S.Answer op}

theorem lastAnswer_singleton : LastAnswer [(⟨op, .ok a⟩ : Event S ε)] op a :=
  ⟨[], [], rfl, fun _ h => nomatch h⟩

theorem LastAnswer.mem (h : LastAnswer xs op a) : (⟨op, .ok a⟩ : Event S ε) ∈ xs := by
  obtain ⟨before, after, rfl, -⟩ := h
  exact List.mem_append_right _ List.mem_cons_self

theorem LastAnswer.prepend (h : LastAnswer ys op a) : LastAnswer (xs ++ ys) op a := by
  obtain ⟨before, after, rfl, hafter⟩ := h
  exact ⟨xs ++ before, after, (List.append_assoc ..).symm, hafter⟩

theorem LastAnswer.append (h : LastAnswer xs op a) (hys : ∀ event ∈ ys, event.op ≠ op) :
    LastAnswer (xs ++ ys) op a := by
  obtain ⟨before, after, rfl, hafter⟩ := h
  refine ⟨before, after ++ ys, by rw [List.append_assoc, List.cons_append], ?_⟩
  exact List.forall_mem_append.mpr ⟨hafter, hys⟩

theorem LastAnswer.unique (ha : LastAnswer xs op a) (hb : LastAnswer xs op b) : a = b := by
  obtain ⟨before, after, rfl, hafter⟩ := ha
  obtain ⟨before', after', heq, hafter'⟩ := hb
  rcases List.append_eq_append_iff.mp heq with ⟨mid, -, hmid⟩ | ⟨mid, -, hmid⟩
  · cases mid with
    | nil =>
        cases hmid
        rfl
    | cons event mid =>
        cases hmid
        exact absurd rfl (hafter _ (List.mem_append_right _ List.mem_cons_self))
  · cases mid with
    | nil =>
        cases hmid
        rfl
    | cons event mid =>
        cases hmid
        exact absurd rfl (hafter' _ (List.mem_append_right _ List.mem_cons_self))

end LastAnswer

/-! ## Stateless answers -/

/-- What a program ends with when each call is answered from the call alone. -/
def evaluate (answers : (op : S.Op) → Except ε (S.Answer op)) (p : Program S ε α) : Except ε α :=
  (exec (fun op _ => (answers op, ())) p ()).result

section Evaluate

variable (answers : (op : S.Op) → Except ε (S.Answer op))

@[simp] theorem evaluate_done (r : Except ε α) : evaluate answers (.done r) = r := rfl

@[simp] theorem evaluate_pure (a : α) : evaluate answers (pure a) = .ok a := rfl

@[simp] theorem evaluate_ofExcept (r : Except ε α) : evaluate answers (ofExcept r) = r := rfl

@[simp] theorem evaluate_perform (op : S.Op) : evaluate answers (perform op) = answers op := rfl

/-- A sequence that returns returned from both halves. -/
theorem evaluate_bind_ok_iff {p : Program S ε α} {f : α → Program S ε β} {b : β} :
    evaluate answers (p >>= f) = .ok b ↔
      ∃ a, evaluate answers p = .ok a ∧ evaluate answers (f a) = .ok b := by
  unfold evaluate
  rw [exec_bind, Execution.andThen]
  cases (exec (fun op _ => (answers op, ())) p ()).result with
  | ok a =>
      constructor
      · intro h
        exact ⟨a, rfl, h⟩
      · rintro ⟨_, ha, h⟩
        cases ha
        exact h
  | error e =>
      constructor
      · exact nofun
      · exact fun ⟨_, h, _⟩ => nomatch h

theorem evaluate_map_ok_iff {p : Program S ε α} {f : α → β} {b : β} :
    evaluate answers (f <$> p) = .ok b ↔ ∃ a, evaluate answers p = .ok a ∧ b = f a := by
  rw [map_eq_bind, evaluate_bind_ok_iff]
  refine exists_congr fun a => and_congr_right fun _ => ?_
  rw [evaluate_pure, Except.ok.injEq, eq_comm]

/-- Element by element, the results are those of the bodies. -/
theorem evaluate_each_ok_iff {xs : List α} {body : α → Program S ε β} {bs : List β} :
    evaluate answers (each xs body) = .ok bs ↔
      List.Forall₂ (fun x b => evaluate answers (body x) = .ok b) xs bs := by
  induction xs generalizing bs with
  | nil =>
      rw [each_nil, evaluate_pure, Except.ok.injEq, List.forall₂_nil_left_iff, eq_comm]
  | cons x xs ih =>
      rw [each_cons, evaluate_bind_ok_iff, List.forall₂_cons_left_iff]
      constructor
      · rintro ⟨b, hb, h⟩
        rcases (evaluate_bind_ok_iff answers).mp h with ⟨cs, hcs, hpure⟩
        exact ⟨b, cs, hb, ih.mp hcs, (Except.ok.inj hpure).symm⟩
      · rintro ⟨b, cs, hb, hcs, rfl⟩
        exact ⟨b, hb, (evaluate_bind_ok_iff answers).mpr ⟨cs, ih.mpr hcs, rfl⟩⟩

end Evaluate

end Program

end Interaction
