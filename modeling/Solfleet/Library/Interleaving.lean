import Mathlib.Logic.Function.Basic
import Solfleet.Library.Concurrent

/-! # Tagged interleavings

Processes run their programs on one shared state. An interleaving is the list of all their
calls in the order they were answered, each tagged with its process: the answers come from
the state, and the calls of one process are a run of its program. Any order a scheduler can
choose is one, and `schedule` is the scheduler.
-/

namespace Interaction

namespace Program

variable {S : Signature} {ε α σ ι : Type}

/-! ## Calls and answers -/

/-- The calls of one process. -/
def callsOf [DecidableEq ι] (i : ι) (calls : List (ι × Event S ε)) : List (Event S ε) :=
  calls.filterMap fun c => if c.1 = i then some c.2 else none

section CallsOf

variable [DecidableEq ι] {i : ι} {c : ι × Event S ε} {xs ys : List (ι × Event S ε)}

@[simp] theorem callsOf_nil : callsOf i ([] : List (ι × Event S ε)) = [] := rfl

theorem callsOf_cons_self (event : Event S ε) :
    callsOf i ((i, event) :: xs) = event :: callsOf i xs :=
  List.filterMap_cons_some (if_pos rfl)

theorem callsOf_cons_of_ne (h : c.1 ≠ i) : callsOf i (c :: xs) = callsOf i xs :=
  List.filterMap_cons_none (if_neg h)

theorem callsOf_append : callsOf i (xs ++ ys) = callsOf i xs ++ callsOf i ys :=
  List.filterMap_append

theorem mem_callsOf {event : Event S ε} : event ∈ callsOf i xs ↔ (i, event) ∈ xs := by
  unfold callsOf
  rw [List.mem_filterMap]
  constructor
  · rintro ⟨⟨j, e⟩, hc, he⟩
    by_cases hj : j = i
    · rw [if_pos hj, Option.some.injEq] at he
      rw [← hj, ← he]
      exact hc
    · rw [if_neg hj] at he
      exact nomatch he
  · intro h
    exact ⟨_, h, if_pos rfl⟩

end CallsOf

/-- Every call is answered from the state, which moves with it. -/
def Answered (handle : Handler S ε σ) : σ → List (ι × Event S ε) → σ → Prop
  | s, [], s' => s = s'
  | s, c :: calls, s' =>
      c.2.answer = (handle c.2.op s).1 ∧ Answered handle (handle c.2.op s).2 calls s'

theorem answered_append_iff {handle : Handler S ε σ} {s s' : σ} {xs ys : List (ι × Event S ε)} :
    Answered handle s (xs ++ ys) s' ↔
      ∃ mid, Answered handle s xs mid ∧ Answered handle mid ys s' := by
  induction xs generalizing s with
  | nil =>
      constructor
      · intro h
        exact ⟨s, rfl, h⟩
      · rintro ⟨_, rfl, h⟩
        exact h
  | cons c xs ih =>
      simp only [List.cons_append, Answered, ih, and_assoc, exists_and_left]

theorem Answered.invariant_at {handle : Handler S ε σ} {P : σ → Prop} {s s' : σ}
    {calls : List (ι × Event S ε)} (h : Answered handle s calls s')
    (hstep : ∀ before c after, calls = before ++ c :: after →
      ∀ t, Answered handle s before t → P t → P (handle c.2.op t).2) (hs : P s) : P s' := by
  induction calls generalizing s with
  | nil => exact h ▸ hs
  | cons c calls ih =>
      refine ih h.2 (fun before c' after heq t ht => ?_) (hstep [] c calls rfl s rfl hs)
      exact hstep (c :: before) c' after (congrArg (c :: ·) heq) t ⟨h.1, ht⟩

theorem Answered.invariant {handle : Handler S ε σ} {P : σ → Prop} {s s' : σ}
    {calls : List (ι × Event S ε)} (h : Answered handle s calls s')
    (hstep : ∀ c ∈ calls, ∀ t, P t → P (handle c.2.op t).2) (hs : P s) : P s' := by
  refine h.invariant_at (fun before c after heq t _ => hstep c ?_ t) hs
  rw [heq]
  exact List.mem_append_right _ List.mem_cons_self

theorem Answered.still {handle : Handler S ε σ} {s s' : σ} {calls : List (ι × Event S ε)}
    (h : Answered handle s calls s') (hstill : ∀ c ∈ calls, (handle c.2.op s).2 = s) : s' = s := by
  induction calls with
  | nil => exact h.symm
  | cons c calls ih =>
      have hrest := List.forall_mem_cons.mp hstill
      refine ih ?_ hrest.2
      rw [← hrest.1]
      exact hrest.1.symm ▸ h.2

/-! ## Interleavings -/

structure Interleaving [DecidableEq ι] (handle : Handler S ε σ) (programs : ι → Program S ε α)
    (s : σ) (calls : List (ι × Event S ε)) (s' : σ) (results : ι → Except ε α) : Prop where
  runs : ∀ i, Runs (programs i) (callsOf i calls) (results i)
  answered : Answered handle s calls s'

theorem Answered.exec [DecidableEq ι] {handle : Handler S ε σ} {i : ι} {p : Program S ε α}
    {s s' : σ}
    {calls : List (ι × Event S ε)} {result : Except ε α} (h : Answered handle s calls s')
    (hp : Runs p (callsOf i calls) result)
    (hstill : ∀ c ∈ calls, c.1 ≠ i → ∀ t, (handle c.2.op t).2 = t) :
    exec handle p s = ⟨s', callsOf i calls, result⟩ := by
  induction calls generalizing p s with
  | nil =>
      cases hp
      cases h
      rfl
  | cons c calls ih =>
      have hrest := List.forall_mem_cons.mp hstill
      obtain ⟨j, event⟩ := c
      by_cases hj : j = i
      · subst hj
        rw [callsOf_cons_self] at hp ⊢
        cases hp with
        | @call op next answer _ _ hp =>
            have hanswer : answer = (handle op s).1 := h.1
            subst hanswer
            have hsolo : Program.exec handle (next (handle op s).1) (handle op s).2 =
                ⟨s', callsOf j calls, result⟩ := ih h.2 hp hrest.2
            simp only [Program.exec, hsolo]
      · rw [callsOf_cons_of_ne hj] at hp ⊢
        have hstate : (handle event.op s).2 = s := hrest.1 hj s
        refine ih ?_ hp hrest.2
        exact hstate ▸ h.2

/-! ## The scheduler -/

/-- What a schedule leaves: the calls, the programs and the state. -/
structure Scheduled (S : Signature) (ε α σ ι : Type) where
  calls : List (ι × Event S ε)
  programs : ι → Program S ε α
  state : σ

/-- Let the processes of the list advance in its order, each by its pending call. -/
def schedule [DecidableEq ι] (handle : Handler S ε σ) :
    List ι → (ι → Program S ε α) → σ → Scheduled S ε α σ ι
  | [], programs, s => ⟨[], programs, s⟩
  | i :: order, programs, s =>
      match programs i with
      | .done _ => schedule handle order programs s
      | .call op next =>
          let answered := handle op s
          let rest := schedule handle order (Function.update programs i (next answered.1)) answered.2
          ⟨(i, ⟨op, answered.1⟩) :: rest.calls, rest.programs, rest.state⟩

theorem schedule_interleaving [DecidableEq ι] {handle : Handler S ε σ} {order : List ι}
    {programs : ι → Program S ε α} {s : σ} {results : ι → Except ε α}
    (h : ∀ i, (schedule handle order programs s).programs i = .done (results i)) :
    Interleaving handle programs s (schedule handle order programs s).calls
      (schedule handle order programs s).state results := by
  induction order generalizing programs s with
  | nil =>
      refine ⟨fun i => ?_, rfl⟩
      have hi : programs i = .done (results i) := h i
      rw [hi]
      exact .done _
  | cons j order ih =>
      cases hj : programs j with
      | done r =>
          rw [schedule, hj] at h ⊢
          exact ih h
      | call op next =>
          rw [schedule, hj] at h ⊢
          have hrest := ih h
          refine ⟨fun i => ?_, rfl, hrest.answered⟩
          have hruns := hrest.runs i
          by_cases hi : j = i
          · subst hi
            rw [Function.update_self] at hruns
            rw [hj, callsOf_cons_self]
            exact .call _ hruns
          · rw [Function.update_of_ne (Ne.symm hi)] at hruns
            rw [callsOf_cons_of_ne hi]
            exact hruns

theorem schedule_interleaves [DecidableEq ι] {sem : Semantics S ε σ} {handle : Handler S ε σ}
    (agree : ∀ op s, sem s op (handle op s).1 (handle op s).2) (order : List ι)
    (programs : ι → Program S ε α) (s : σ) :
    Interleaves sem ⟨programs, s⟩
      ⟨(schedule handle order programs s).programs, (schedule handle order programs s).state⟩ := by
  induction order generalizing programs s with
  | nil => exact Relation.ReflTransGen.refl
  | cons i order ih =>
      cases hi : programs i with
      | done r =>
          rw [schedule, hi]
          exact ih programs s
      | call op next =>
          rw [schedule, hi]
          refine Relation.ReflTransGen.head ?_ (ih _ _)
          refine Step.client i ?_
          rw [hi]
          exact .call (agree op s)

def result? : Program S ε α → Option (Except ε α)
  | .done r => some r
  | .call _ _ => none

theorem result?_eq_some_iff {p : Program S ε α} {r : Except ε α} :
    p.result? = some r ↔ p = .done r := by
  cases p with
  | done r' => simp [result?]
  | call op next => simp [result?]

/-- Every interleaving is what the scheduler does when it follows its order. -/
theorem Interleaving.scheduled [DecidableEq ι] {handle : Handler S ε σ}
    {programs : ι → Program S ε α} {s s' : σ} {calls : List (ι × Event S ε)}
    {results : ι → Except ε α} (h : Interleaving handle programs s calls s' results) :
    schedule handle (calls.map Prod.fst) programs s = ⟨calls, fun i => .done (results i), s'⟩ := by
  obtain ⟨hruns, hanswered⟩ := h
  induction calls generalizing programs s with
  | nil =>
      have hdone : programs = fun i => .done (results i) := by
        funext i
        have hi := hruns i
        cases hp : programs i with
        | done r =>
            rw [hp] at hi
            rw [(runs_done_iff.mp hi).2]
        | call op next =>
            rw [hp] at hi
            exact nomatch hi
      rw [hdone, hanswered]
      rfl
  | cons c calls ih =>
      obtain ⟨j, event⟩ := c
      have hj := hruns j
      rw [callsOf_cons_self] at hj
      cases hp : programs j with
      | done r =>
          rw [hp] at hj
          exact nomatch hj
      | call op next =>
          rw [hp] at hj
          cases hj with
          | call answer hnext =>
              have hanswer : answer = (handle op s).1 := hanswered.1
              subst hanswer
              have hrest : schedule handle (calls.map Prod.fst)
                  (Function.update programs j (next (handle op s).1)) (handle op s).2 =
                    ⟨calls, fun i => .done (results i), s'⟩ := by
                refine ih (fun i => ?_) hanswered.2
                by_cases hi : j = i
                · subst hi
                  rw [Function.update_self]
                  exact hnext
                · rw [Function.update_of_ne (Ne.symm hi), ← callsOf_cons_of_ne (c := (j, _)) hi]
                  exact hruns i
              simp only [List.map_cons, schedule, hp, hrest]

end Program

end Interaction
