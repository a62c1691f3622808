import Mathlib.Data.List.Basic

/-! # Lists of commands

How a POSIX shell runs a list: `&&` and `||` have one precedence and associate to the
left, `;` and a newline start what follows whatever came before, and the exit status is
that of the last command run. Commands are a parameter; a run threads the state through
the ones that are reached.
-/

namespace Script

/-- Commands joined by `&&` and `||`. -/
inductive AndOr (γ : Type) where
  | command (c : γ)
  | and (left : AndOr γ) (c : γ)
  | or (left : AndOr γ) (c : γ)

inductive Separator where
  | semicolon
  | newline

inductive CommandList (γ : Type) where
  | last (l : AndOr γ)
  | next (l : AndOr γ) (sep : Separator) (rest : CommandList γ)

variable {γ σ : Type}

/-! ## Text -/

def AndOr.text (write : γ → String) : AndOr γ → String
  | .command c => write c
  | .and left c => left.text write ++ " && " ++ write c
  | .or left c => left.text write ++ " || " ++ write c

def Separator.text : Separator → String
  | .semicolon => "; "
  | .newline => "\n"

def CommandList.text (write : γ → String) : CommandList γ → String
  | .last l => l.text write
  | .next l sep rest => l.text write ++ sep.text ++ rest.text write

/-! ## Runs -/

/-- What a command does: its exit status and the state it leaves. -/
abbrev Effect (γ σ : Type) := γ → σ → Int × σ

def AndOr.run (effect : Effect γ σ) : AndOr γ → σ → Int × σ
  | .command c, s => effect c s
  | .and left c, s =>
      let before := left.run effect s
      if before.1 = 0 then effect c before.2 else before
  | .or left c, s =>
      let before := left.run effect s
      if before.1 = 0 then before else effect c before.2

def CommandList.run (effect : Effect γ σ) : CommandList γ → σ → Int × σ
  | .last l, s => l.run effect s
  | .next l _ rest, s => rest.run effect (l.run effect s).2

section Runs

variable {effect : Effect γ σ}

@[simp] theorem AndOr.run_command (c : γ) (s : σ) : (AndOr.command c).run effect s = effect c s :=
  rfl

theorem AndOr.run_and_of_ok {l : AndOr γ} {c : γ} {s : σ} (h : (l.run effect s).1 = 0) :
    (l.and c).run effect s = effect c (l.run effect s).2 :=
  if_pos h

theorem AndOr.run_and_of_failed {l : AndOr γ} {c : γ} {s : σ} (h : (l.run effect s).1 ≠ 0) :
    (l.and c).run effect s = l.run effect s :=
  if_neg h

@[simp] theorem CommandList.run_last (l : AndOr γ) (s : σ) :
    (CommandList.last l).run effect s = l.run effect s := rfl

@[simp] theorem CommandList.run_next (l : AndOr γ) (sep : Separator) (rest : CommandList γ)
    (s : σ) :
    (CommandList.next l sep rest).run effect s = rest.run effect (l.run effect s).2 := rfl

/-- A step that leaves the state alone is seen in the status only. -/
theorem AndOr.run_and_state {l : AndOr γ} {c : γ} (h : ∀ s, (effect c s).2 = s) (s : σ) :
    ((l.and c).run effect s).2 = (l.run effect s).2 := by
  by_cases hl : (l.run effect s).1 = 0
  · rw [run_and_of_ok hl, h]
  · rw [run_and_of_failed hl]

theorem AndOr.run_or_state {l : AndOr γ} {c : γ} (h : ∀ s, (effect c s).2 = s) (s : σ) :
    ((l.or c).run effect s).2 = (l.run effect s).2 := by
  have hrun : (l.or c).run effect s =
      if (l.run effect s).1 = 0 then l.run effect s else effect c (l.run effect s).2 := rfl
  rw [hrun]
  split
  · rfl
  · exact h _

/-- A fallback that succeeds hides every failure before it. -/
theorem AndOr.run_or_status {l : AndOr γ} {c : γ} (h : ∀ s, (effect c s).1 = 0) (s : σ) :
    ((l.or c).run effect s).1 = 0 := by
  have hrun : (l.or c).run effect s =
      if (l.run effect s).1 = 0 then l.run effect s else effect c (l.run effect s).2 := rfl
  rw [hrun]
  split
  case isTrue hl => exact hl
  case isFalse => exact h _

end Runs

end Script
