import Solfleet.Library.Program

/-! # Assertions about executions

A triple speaks of every execution from a state that satisfies its precondition: where
it returns, the value and the final state satisfy the postcondition, and where it raises,
the final state satisfies the exceptional one. Programs are finite trees, so an
execution always ends and no separate termination argument is needed.
-/

namespace Interaction

namespace Program

variable {S : Signature} {ε σ α β : Type} {handle : Handler S ε σ}

def Execution.Meets (e : Execution S ε σ α) (Q : α → σ → Prop) (X : σ → Prop) : Prop :=
  match e.result with
  | .ok a => Q a e.final
  | .error _ => X e.final

def Triple (handle : Handler S ε σ) (P : σ → Prop) (p : Program S ε α) (Q : α → σ → Prop)
    (X : σ → Prop) : Prop :=
  ∀ s, P s → (exec handle p s).Meets Q X

section Rules

variable {P P' X X' : σ → Prop} {Q Q' : α → σ → Prop} {R : β → σ → Prop}

theorem Execution.Meets.mono {e : Execution S ε σ α} (h : e.Meets Q X)
    (hQ : ∀ a s, Q a s → Q' a s) (hX : ∀ s, X s → X' s) : e.Meets Q' X' := by
  unfold Execution.Meets at h ⊢
  split at h
  · exact hQ _ _ h
  · exact hX _ h

theorem Triple.weaken {p : Program S ε α} (h : Triple handle P p Q X) (hP : ∀ s, P' s → P s)
    (hQ : ∀ a s, Q a s → Q' a s) : Triple handle P' p Q' X :=
  fun s hs => (h s (hP s hs)).mono hQ fun _ hx => hx

theorem Triple.relax {p : Program S ε α} (h : Triple handle P p Q X) (hX : ∀ s, X s → X' s) :
    Triple handle P p Q X' :=
  fun s hs => (h s hs).mono (fun _ _ hq => hq) hX

theorem Triple.returned {p : Program S ε α} (h : Triple handle P p Q X) {s : σ} {a : α} (hs : P s)
    (ha : (exec handle p s).result = .ok a) : Q a (exec handle p s).final := by
  have hmeets := h s hs
  unfold Execution.Meets at hmeets
  rw [ha] at hmeets
  exact hmeets

/-- Facts that hold of no state in particular. -/
theorem Triple.of_imp {F : Prop} {p : Program S ε α} (h : F → Triple handle P p Q X) :
    Triple handle (fun s => F ∧ P s) p Q X :=
  fun s hs => h hs.1 s hs.2

theorem Triple.pure {a : α} (h : ∀ s, P s → Q a s) :
    Triple handle P (Pure.pure a : Program S ε α) Q X := h

theorem Triple.perform {op : S.Op} {Q : S.Answer op → σ → Prop}
    (hok : ∀ s a, P s → (handle op s).1 = .ok a → Q a (handle op s).2)
    (herror : ∀ s e, P s → (handle op s).1 = .error e → X (handle op s).2) :
    Triple handle P (Program.perform op) Q X := by
  intro s hs
  rw [exec_perform]
  unfold Execution.Meets
  dsimp only
  split
  case h_1 a h => exact hok s a hs h
  case h_2 e h => exact herror s e hs h

/-- A sequence: the first half ends where the second begins. -/
theorem Triple.bind {p : Program S ε α} {f : α → Program S ε β} (hp : Triple handle P p Q X)
    (hf : ∀ a, Triple handle (Q a) (f a) R X) : Triple handle P (p >>= f) R X := by
  intro s hs
  have hfirst := hp s hs
  unfold Execution.Meets at hfirst
  split at hfirst
  case h_1 a hresult =>
    have hsecond := hf a _ hfirst
    rw [exec_bind_ok hresult]
    exact hsecond
  case h_2 e hresult =>
    rw [exec_bind_error hresult]
    exact hfirst

theorem Triple.map {p : Program S ε α} {f : α → β}
    (h : Triple handle P p (fun a => R (f a)) X) : Triple handle P (f <$> p) R X := by
  rw [map_eq_bind]
  exact h.bind fun a => Triple.pure fun _ hq => hq

/-- What the calls of a program preserve it preserves. -/
theorem AllCalls.triple {C : S.Op → Prop} {I : σ → Prop} {p : Program S ε α} (hp : p.AllCalls C)
    (hstep : ∀ op s, C op → I s → I (handle op s).2) :
    Triple handle I p (fun _ => I) fun _ => True := by
  intro s hs
  have hfinal := hp.exec_final hstep hs
  unfold Execution.Meets
  split
  · exact hfinal
  · trivial

/-- The same, where the program returns and where it raises. -/
theorem AllCalls.keeps {C : S.Op → Prop} {I : σ → Prop} {p : Program S ε α} (hp : p.AllCalls C)
    (hstep : ∀ op s, C op → I s → I (handle op s).2) : Triple handle I p (fun _ => I) I := by
  intro s hs
  have hfinal := hp.exec_final hstep hs
  unfold Execution.Meets
  split
  · exact hfinal
  · exact hfinal

/-- What one body preserves the repetition preserves. -/
theorem Triple.each {xs : List α} {body : α → Program S ε β}
    (h : ∀ x ∈ xs, Triple handle P (body x) (fun _ => P) X) :
    Triple handle P (Program.each xs body) (fun _ => P) X := by
  induction xs with
  | nil => exact Triple.pure fun _ hs => hs
  | cons x xs ih =>
      obtain ⟨hx, hxs⟩ := List.forall_mem_cons.mp h
      rw [each_cons]
      exact hx.bind fun _ => (ih hxs).bind fun _ => Triple.pure fun _ hs => hs

/-- Each body answers for its own result. -/
theorem Triple.each_forall {V : α → β → Prop} {xs : List α} {body : α → Program S ε β}
    (h : ∀ x ∈ xs, Triple handle P (body x) (fun b s => V x b ∧ P s) X) :
    Triple handle P (Program.each xs body) (fun bs s => List.Forall₂ V xs bs ∧ P s) X := by
  induction xs with
  | nil => exact Triple.pure fun _ hs => ⟨.nil, hs⟩
  | cons x xs ih =>
      rcases List.forall_mem_cons.mp h with ⟨hx, hxs⟩
      rw [each_cons]
      refine hx.bind fun b => Triple.of_imp fun hb => (ih hxs).bind fun bs => ?_
      exact Triple.pure fun s hs => ⟨.cons hb hs.1, hs.2⟩

/-- A value that every run returns can be read off along with the state. -/
theorem Triple.returns {p : Program S ε α} {V : α → Prop} (h : Triple handle P p Q X)
    (hv : Returns V p) : Triple handle P p (fun a s => V a ∧ Q a s) X := by
  intro s hs
  have hmeets := h s hs
  have hruns := exec_runs handle p s
  unfold Execution.Meets at hmeets ⊢
  split at hmeets
  case h_1 a hresult =>
    rw [hresult] at hruns
    exact ⟨hv _ _ hruns, hmeets⟩
  case h_2 => exact hmeets

/-- What every call of the program keeps stands beside what the triple is about. -/
theorem Triple.frame {C : S.Op → Prop} {I : σ → Prop} {p : Program S ε α}
    (h : Triple handle P p Q X) (hp : p.AllCalls C)
    (hstep : ∀ op s, C op → I s → I (handle op s).2) :
    Triple handle (fun s => P s ∧ I s) p (fun a s => Q a s ∧ I s) fun s => X s ∧ I s := by
  intro s hs
  have hmeets := h s hs.1
  have hfinal := hp.exec_final hstep hs.2
  unfold Execution.Meets at hmeets ⊢
  split at hmeets
  case h_1 => exact ⟨hmeets, hfinal⟩
  case h_2 => exact ⟨hmeets, hfinal⟩

end Rules

/-! ## A part of the state -/

section Focus

variable {τ : Type} {C : S.Op → Prop} {view : τ → σ} {whole : Handler S ε τ}

/-- Calls in `C` do to the part `view` shows what `part` does to it. -/
def Focuses (C : S.Op → Prop) (view : τ → σ) (whole : Handler S ε τ) (part : Handler S ε σ) :
    Prop :=
  ∀ op t, C op → (whole op t).1 = (part op (view t)).1 ∧ view (whole op t).2 = (part op (view t)).2

theorem Focuses.exec (hfocus : Focuses C view whole handle) {p : Program S ε α}
    (hp : p.AllCalls C) (t : τ) :
    (exec whole p t).result = (exec handle p (view t)).result ∧
      view (exec whole p t).final = (exec handle p (view t)).final := by
  induction p generalizing t with
  | done r => exact ⟨rfl, rfl⟩
  | call op next ih =>
      rcases hfocus op t hp.1 with ⟨hanswer, hview⟩
      rcases ih (whole op t).1 (hp.2 _) (whole op t).2 with ⟨hresult, hfinal⟩
      rw [hanswer, hview] at hresult hfinal
      simp only [Program.exec, hanswer]
      exact ⟨hresult, hfinal⟩

/-- A triple about the part is one about the whole. -/
theorem Triple.focus {P X : σ → Prop} {Q : α → σ → Prop} {p : Program S ε α}
    (h : Triple handle P p Q X) (hfocus : Focuses C view whole handle) (hp : p.AllCalls C) :
    Triple whole (fun t => P (view t)) p (fun a t => Q a (view t)) fun t => X (view t) := by
  intro t ht
  rcases hfocus.exec hp t with ⟨hresult, hfinal⟩
  have hmeets := h (view t) ht
  unfold Execution.Meets at hmeets ⊢
  rw [hresult]
  dsimp only
  rw [hfinal]
  exact hmeets

end Focus

end Program

end Interaction
