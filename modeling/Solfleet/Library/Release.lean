import Mathlib.Logic.Basic

/-! # Dotted release numbers

The numbers a version starts with: digits and single dots, up to the first character that
continues neither. What is appended to a version changes its numbers only where the reader
was still inside them.
-/

namespace Release

def digit? (c : Char) : Option Nat :=
  if '0' ≤ c ∧ c ≤ '9' then some (c.toNat - 48) else none

/-- The numbers to come, from inside a component (its value so far) or in front of one. -/
def numbers : Option Nat → List Char → List Nat
  | pending, [] => pending.toList
  | pending, c :: cs =>
      match digit? c with
      | some d => numbers (some (10 * pending.getD 0 + d)) cs
      | none =>
          match pending with
          | none => []
          | some n => if c = '.' then n :: numbers none cs else [n]

/-- Where the reader is at the end of the text, unless it stopped before. -/
def resume : Option Nat → List Char → Option (Option Nat)
  | pending, [] => some pending
  | pending, c :: cs =>
      match digit? c with
      | some d => resume (some (10 * pending.getD 0 + d)) cs
      | none =>
          match pending with
          | none => none
          | some _ => if c = '.' then resume none cs else none

/-- The text leaves the numbers alone: it starts with no digit (nor, inside a component, with
a dot and a digit), except that zeros may follow a component that is zero. -/
def Keeps : Option Nat → List Char → Prop
  | _, [] => True
  | none, c :: _ => digit? c = none
  | some n, c :: cs =>
      match digit? c with
      | some d => n = 0 ∧ d = 0 ∧ Keeps (some n) cs
      | none => c = '.' → Keeps none cs

section Equations

variable {c : Char} {d n : Nat} {cs : List Char}

theorem numbers_digit {pending : Option Nat} (h : digit? c = some d) :
    numbers pending (c :: cs) = numbers (some (10 * pending.getD 0 + d)) cs := by
  rw [numbers.eq_def]
  simp only [h]

theorem numbers_none_other (h : digit? c = none) : numbers none (c :: cs) = [] := by
  rw [numbers.eq_def]
  simp only [h]

theorem numbers_some_other (h : digit? c = none) :
    numbers (some n) (c :: cs) = if c = '.' then n :: numbers none cs else [n] := by
  rw [numbers.eq_def]
  simp only [h]

theorem resume_digit {pending : Option Nat} (h : digit? c = some d) :
    resume pending (c :: cs) = resume (some (10 * pending.getD 0 + d)) cs := by
  rw [resume.eq_def]
  simp only [h]

theorem resume_none_other (h : digit? c = none) : resume none (c :: cs) = none := by
  rw [resume.eq_def]
  simp only [h]

theorem resume_some_other (h : digit? c = none) :
    resume (some n) (c :: cs) = if c = '.' then resume none cs else none := by
  rw [resume.eq_def]
  simp only [h]

end Equations

/-! ## Reading on -/

/-- A component only grows. -/
theorem numbers_some (n : Nat) (cs : List Char) :
    ∃ m rest, numbers (some n) cs = m :: rest ∧ n ≤ m := by
  induction cs generalizing n with
  | nil => exact ⟨n, [], rfl, Nat.le_refl n⟩
  | cons c cs ih =>
      cases hdigit : digit? c with
      | some d =>
          obtain ⟨m, rest, heq, hle⟩ := ih (10 * n + d)
          exact ⟨m, rest, (numbers_digit hdigit).trans heq, by omega⟩
      | none =>
          rw [numbers_some_other hdigit]
          by_cases hdot : c = '.'
          · exact ⟨n, numbers none cs, if_pos hdot, Nat.le_refl n⟩
          · exact ⟨n, [], if_neg hdot, Nat.le_refl n⟩

theorem numbers_none_eq_nil_iff (cs : List Char) : numbers none cs = [] ↔ Keeps none cs := by
  cases cs with
  | nil => exact iff_of_true rfl trivial
  | cons c cs =>
      rw [Keeps]
      cases hdigit : digit? c with
      | some d =>
          obtain ⟨m, rest, heq, -⟩ := numbers_some (10 * (none : Option Nat).getD 0 + d) cs
          rw [numbers_digit hdigit, heq]
          exact iff_of_false nofun nofun
      | none => exact iff_of_true (numbers_none_other hdigit) rfl

/-- No more numbers than the one at hand. -/
theorem numbers_eq_iff (pending : Option Nat) (cs : List Char) :
    numbers pending cs = pending.toList ↔ Keeps pending cs := by
  cases pending with
  | none => exact numbers_none_eq_nil_iff cs
  | some n =>
      induction cs with
      | nil => exact iff_of_true rfl trivial
      | cons c cs ih =>
          rw [Keeps]
          cases hdigit : digit? c with
          | some d =>
              rw [numbers_digit hdigit]
              change numbers (some (10 * n + d)) cs = [n] ↔ n = 0 ∧ d = 0 ∧ Keeps (some n) cs
              constructor
              · intro h
                obtain ⟨m, rest, heq, hle⟩ := numbers_some (10 * n + d) cs
                have hm : m = n := (List.cons.inj (heq.symm.trans h)).1
                have hn : n = 0 := by omega
                have hd : d = 0 := by omega
                subst hn hd
                exact ⟨rfl, rfl, ih.mp h⟩
              · rintro ⟨rfl, rfl, hkeeps⟩
                exact ih.mpr hkeeps
          | none =>
              rw [numbers_some_other hdigit]
              by_cases hdot : c = '.'
              · simp [hdot, numbers_none_eq_nil_iff]
              · simp [hdot]

/-- Appended text changes the numbers of a version unless the reader had stopped or the text
leaves them alone. -/
theorem numbers_append_eq_iff (pending : Option Nat) (cs ds : List Char) :
    numbers pending (cs ++ ds) = numbers pending cs ↔
      ∀ reader, resume pending cs = some reader → Keeps reader ds := by
  induction cs generalizing pending with
  | nil =>
      have hread : numbers pending ds = pending.toList ↔ Keeps pending ds := numbers_eq_iff ..
      have hnil : numbers pending [] = pending.toList := by cases pending <;> rfl
      have hresume : resume pending [] = some pending := by cases pending <;> rfl
      rw [List.nil_append, hnil, hread, hresume]
      constructor
      · intro h reader heq
        exact Option.some.inj heq ▸ h
      · intro h
        exact h pending rfl
  | cons c cs ih =>
      rw [List.cons_append]
      cases hdigit : digit? c with
      | some d =>
          rw [numbers_digit hdigit, numbers_digit hdigit, resume_digit hdigit]
          exact ih _
      | none =>
          cases pending with
          | none =>
              rw [numbers_none_other hdigit, numbers_none_other hdigit, resume_none_other hdigit]
              exact iff_of_true rfl nofun
          | some n =>
              rw [numbers_some_other hdigit, numbers_some_other hdigit, resume_some_other hdigit]
              by_cases hdot : c = '.'
              · rw [if_pos hdot, if_pos hdot, if_pos hdot, List.cons.injEq]
                exact (and_iff_right rfl).trans (ih none)
              · rw [if_neg hdot, if_neg hdot, if_neg hdot]
                exact iff_of_true rfl nofun

end Release
