import Mathlib.Data.Finset.Insert
import Solfleet.Library.Concurrent

/-! # Coroutines on one event loop

Tasks share one thread. The task that has the loop goes on call by call, whatever the answers,
and the loop passes on only where that task awaits a call or has ended. What a task has called
is recorded with what is left of it.
-/

namespace Interaction

namespace Program

variable {S : Signature} {ε α β ι : Type}

/-! ## Tasks -/

def recorded : Semantics S ε (List (Event S ε)) :=
  fun history op answer history' => history' = history ++ [⟨op, answer⟩]

/-- What is left of a program, and what it has called. -/
abbrev Task (S : Signature) (ε α : Type) := Program S ε α × List (Event S ε)

theorem Runs.reaches {p : Program S ε α} {trace : List (Event S ε)} {r : Except ε α}
    (h : Runs p trace r) (history : List (Event S ε)) :
    Reaches recorded (p, history) (.done r, history ++ trace) := by
  induction h generalizing history with
  | done r =>
      rw [List.append_nil]
      exact .refl _
  | @call op next answer trace r _ ih =>
      have hcall : Reaches recorded (.call op next, history)
          (next answer, history ++ [⟨op, answer⟩]) := .call rfl
      have hrest := ih (history ++ [⟨op, answer⟩])
      rw [List.append_assoc, List.singleton_append] at hrest
      exact hcall.trans hrest

theorem Runs.reaches_bind {p : Program S ε α} {f : α → Program S ε β}
    {first : List (Event S ε)} {a : α} (h : Runs p first (.ok a)) {history : List (Event S ε)}
    {t : Task S ε β} (hrest : Reaches recorded (f a, history ++ first) t) :
    Reaches recorded (p >>= f, history) t :=
  ((h.reaches history).bind f).trans hrest

theorem AllCalls.reaches_recorded {P : S.Op → Prop} {p : Program S ε α} {t : Task S ε α}
    (hp : p.AllCalls P) (h : Reaches recorded (p, []) t) : ∀ event ∈ t.2, P event.op := by
  have hkept := hp.reaches (R := fun history history' : List (Event S ε) =>
    (∀ event ∈ history, P event.op) → ∀ event ∈ history', P event.op) (fun _ h => h)
    (fun _ _ _ h₁ h₂ h => h₂ (h₁ h)) (fun history op answer history' hop heq hall => ?_) h
  · exact hkept nofun
  · rw [heq, List.forall_mem_append]
    exact ⟨hall, List.forall_mem_singleton.mpr hop⟩

/-- Where a task lets go of the loop. -/
def Suspended (awaits : S.Op → Prop) : Program S ε α → Prop
  | .done _ => True
  | .call op _ => awaits op

/-! ## The loop -/

structure EventLoop (S : Signature) (ε α ι : Type) where
  tasks : ι → Task S ε α
  holder : Option ι

namespace EventLoop

variable [DecidableEq ι] {awaits : S.Op → Prop} {programs : ι → Program S ε α}

inductive Step (awaits : S.Op → Prop) : EventLoop S ε α ι → EventLoop S ε α ι → Prop
  | turn (i : ι) {tasks : ι → Task S ε α} : Step awaits ⟨tasks, none⟩ ⟨tasks, some i⟩
  | go {i : ι} {tasks : ι → Task S ε α} {t : Task S ε α} (h : Advance recorded (tasks i) t) :
      Step awaits ⟨tasks, some i⟩ ⟨Function.update tasks i t, some i⟩
  | yield {i : ι} {tasks : ι → Task S ε α} (h : (tasks i).1.Suspended awaits) :
      Step awaits ⟨tasks, some i⟩ ⟨tasks, none⟩

def start (programs : ι → Program S ε α) : EventLoop S ε α ι := ⟨fun i => (programs i, []), none⟩

def Reachable (awaits : S.Op → Prop) (programs : ι → Program S ε α) :
    EventLoop S ε α ι → Prop :=
  Relation.ReflTransGen (Step awaits) (start programs)

/-- Each task is somewhere on the way through its own program. -/
theorem Reachable.task {s : EventLoop S ε α ι} (h : Reachable awaits programs s) (i : ι) :
    Reaches recorded (programs i, []) (s.tasks i) := by
  induction h with
  | refl => exact .refl _
  | tail _ step ih =>
      cases step with
      | turn j => exact ih
      | yield hs => exact ih
      | @go j tasks t hadvance =>
          have hi : Reaches recorded (programs i, []) (tasks i) := ih
          show Reaches recorded (programs i, []) (Function.update tasks j t i)
          by_cases hij : i = j
          · subst hij
            rw [Function.update_self]
            exact Relation.ReflTransGen.tail hi hadvance
          · rw [Function.update_of_ne hij]
            exact hi

theorem goes {i : ι} {tasks : ι → Task S ε α} {t : Task S ε α}
    (h : Reaches recorded (tasks i) t) :
    Relation.ReflTransGen (Step awaits) ⟨tasks, some i⟩ ⟨Function.update tasks i t, some i⟩ := by
  induction h with
  | refl => rw [Function.update_eq_self]
  | @tail b c _ step ih =>
      refine Relation.ReflTransGen.tail ih ?_
      have hadvance : Advance recorded (Function.update tasks i b i) c := by
        rw [Function.update_self]
        exact step
      have hgo : Step awaits ⟨Function.update tasks i b, some i⟩
          ⟨Function.update (Function.update tasks i b) i c, some i⟩ := .go hadvance
      rwa [Function.update_idem] at hgo

theorem round {i : ι} {tasks : ι → Task S ε α} {t : Task S ε α}
    (h : Reaches recorded (tasks i) t) (hs : t.1.Suspended awaits) :
    Relation.ReflTransGen (Step awaits) ⟨tasks, none⟩ ⟨Function.update tasks i t, none⟩ := by
  have hyield : Step awaits ⟨Function.update tasks i t, some i⟩
      ⟨Function.update tasks i t, none⟩ := by
    refine Step.yield ?_
    rw [Function.update_self]
    exact hs
  exact Relation.ReflTransGen.head (Step.turn i) ((goes h).tail hyield)

/-- Tasks that can each get to an await by themselves can all be there at once. -/
theorem reachable_all (I : Finset ι) (target : ι → Task S ε α)
    (h : ∀ i ∈ I, Reaches recorded (programs i, []) (target i) ∧ (target i).1.Suspended awaits) :
    Reachable awaits programs ⟨fun i => if i ∈ I then target i else (programs i, []), none⟩ := by
  induction I using Finset.induction_on with
  | empty => exact Relation.ReflTransGen.refl
  | insert i I hi ih =>
      have hI := ih fun j hj => h j (Finset.mem_insert_of_mem hj)
      rcases h i (Finset.mem_insert_self i I) with ⟨hreaches, hs⟩
      have htask : (if i ∈ I then target i else (programs i, [])) = (programs i, []) := if_neg hi
      have hround : Relation.ReflTransGen (Step awaits)
          ⟨fun j => if j ∈ I then target j else (programs j, []), none⟩
          ⟨Function.update (fun j => if j ∈ I then target j else (programs j, [])) i (target i),
            none⟩ := by
        refine round ?_ hs
        rw [htask]
        exact hreaches
      have htasks : Function.update (fun j => if j ∈ I then target j else (programs j, [])) i
          (target i) = fun j => if j ∈ insert i I then target j else (programs j, []) := by
        funext j
        by_cases hj : j = i
        · subst hj
          rw [Function.update_self, if_pos (Finset.mem_insert_self j I)]
        · rw [Function.update_of_ne hj]
          simp only [Finset.mem_insert, hj, false_or]
      rw [htasks] at hround
      exact hI.trans hround

end EventLoop

end Program

end Interaction
