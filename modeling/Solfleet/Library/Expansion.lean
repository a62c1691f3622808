import Solfleet.Library.Concurrent

/-! # Calls carried out by programs

One level of a system performs a call where the level below runs a program for it. `expand`
replaces the calls of a program by these. Without interference an expanded program does what the
program did, provided every call is carried out correctly.
-/

namespace Interaction

namespace Program

variable {S T : Signature} {ε α β σ τ : Type}

theorem attempt_bind_ofExcept (p : Program S ε α) : (p.attempt >>= ofExcept) = p := by
  induction p with
  | done r => rfl
  | call op next ih =>
      show Program.call op (fun answer => (next answer).attempt >>= ofExcept) = _
      exact congrArg _ (funext ih)

theorem exec_attempt (handle : Handler S ε σ) (p : Program S ε α) (s : σ) :
    exec handle p.attempt s =
      ⟨(exec handle p s).final, (exec handle p s).trace, .ok (exec handle p s).result⟩ := by
  induction p generalizing s with
  | done r => rfl
  | call op next ih => simp only [attempt, exec, ih]

/-- Every call is replaced by the program that carries it out, and the program goes on with the
answer or the exception that this ends with. -/
def expand (carry : (op : S.Op) → Program T ε (S.Answer op)) : Program S ε α → Program T ε α
  | .done r => .done r
  | .call op next => (carry op).attempt >>= fun answer => (next answer).expand carry

section Expand

variable {carry : (op : S.Op) → Program T ε (S.Answer op)}

@[simp] theorem expand_pure (a : α) : (pure a : Program S ε α).expand carry = pure a := rfl

@[simp] theorem expand_perform (op : S.Op) :
    (perform op : Program S ε (S.Answer op)).expand carry = carry op :=
  attempt_bind_ofExcept (carry op)

theorem expand_bind (p : Program S ε α) (f : α → Program S ε β) :
    (p >>= f).expand carry = p.expand carry >>= fun a => (f a).expand carry := by
  induction p with
  | done r => cases r <;> rfl
  | call op next ih =>
      show ((carry op).attempt >>= fun answer => (next answer >>= f).expand carry) = _
      simp only [ih]
      exact (bind_assoc _ _ _).symm

theorem expand_each (xs : List β) (body : β → Program S ε α) :
    (each xs body).expand carry = each xs fun x => (body x).expand carry := by
  induction xs with
  | nil => rfl
  | cons x xs ih => simp only [each_cons, expand_bind, ih, expand_pure]

/-- Calls that are carried out as themselves. -/
theorem expand_self (p : Program S ε α) : p.expand (fun op => perform op) = p := by
  induction p with
  | done r => rfl
  | call op next ih => exact congrArg _ (funext ih)

theorem exec_expand_call (handle : Handler T ε τ) (op : S.Op)
    (next : Except ε (S.Answer op) → Program S ε α) (t : τ) :
    exec handle ((Program.call op next).expand carry) t =
      let first := exec handle (carry op) t
      let rest := exec handle ((next first.result).expand carry) first.final
      ⟨rest.final, first.trace ++ rest.trace, rest.result⟩ := by
  rw [expand, exec_bind, exec_attempt]
  rfl

/-- The simulation rule. `I` holds at every call, and there the program that carries it out ends
as the call does, in a state that `abs` maps to the one the call leaves. -/
theorem exec_expand (handle : Handler S ε σ) (handle' : Handler T ε τ) (abs : τ → σ) (I : τ → Prop)
    (hcarry : ∀ op t, I t → (exec handle' (carry op) t).result = (handle op (abs t)).1 ∧
      abs (exec handle' (carry op) t).final = (handle op (abs t)).2 ∧
      I (exec handle' (carry op) t).final)
    (p : Program S ε α) {t : τ} (ht : I t) :
    (exec handle' (p.expand carry) t).result = (exec handle p (abs t)).result ∧
      abs (exec handle' (p.expand carry) t).final = (exec handle p (abs t)).final ∧
      I (exec handle' (p.expand carry) t).final := by
  induction p generalizing t with
  | done r => exact ⟨rfl, rfl, ht⟩
  | call op next ih =>
      obtain ⟨hresult, hfinal, hinv⟩ := hcarry op t ht
      have hrest := ih (handle op (abs t)).1 hinv
      rw [hfinal] at hrest
      rw [exec_expand_call]
      dsimp only
      rw [hresult]
      exact hrest

/-- What is counted along the trace of every program that carries out a call accounts for the
gain of a potential: so it does over a whole run. -/
theorem exec_expand_gain (handle : Handler T ε τ) (count : List (Event T ε) → Nat)
    (potential : τ → Nat) (happend : ∀ xs ys, count (xs ++ ys) = count xs + count ys)
    (hnil : count [] = 0) (I : τ → Prop)
    (hcarry : ∀ op t, I t → I (exec handle (carry op) t).final ∧
      count (exec handle (carry op) t).trace + potential t =
        potential (exec handle (carry op) t).final)
    (p : Program S ε α) {t : τ} (ht : I t) :
    count (exec handle (p.expand carry) t).trace + potential t =
      potential (exec handle (p.expand carry) t).final := by
  induction p generalizing t with
  | done r => exact (congrArg (· + potential t) hnil).trans (Nat.zero_add _)
  | call op next ih =>
      obtain ⟨hinv, hgain⟩ := hcarry op t ht
      have hrest := ih (exec handle (carry op) t).result hinv
      rw [exec_expand_call]
      show count ((exec handle (carry op) t).trace ++ _) + _ = _
      rw [happend, ← hrest, ← hgain]
      omega

end Expand

end Program

end Interaction
