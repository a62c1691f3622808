import Mathlib.Data.List.Forall2

/-! # Lists matched element by element

Two lists related position by position: the partner of an element, and where the pair
stands in both.
-/

section Matched

variable {α β : Type} {R : α → β → Prop} {xs : List α} {ys : List β}

theorem forall₂_exists_left (h : List.Forall₂ R xs ys) {y : β} (hy : y ∈ ys) :
    ∃ x ∈ xs, R x y := by
  induction h with
  | nil => cases hy
  | @cons x y' xs ys hxy _ ih =>
      obtain rfl | hy := List.mem_cons.mp hy
      · exact ⟨x, by simp, hxy⟩
      · obtain ⟨x', hx', hr⟩ := ih hy
        exact ⟨x', List.mem_cons_of_mem _ hx', hr⟩

/-- The partner of an element, at its own position. -/
theorem forall₂_exists_zip (h : List.Forall₂ R xs ys) {x : α} (hx : x ∈ xs) :
    ∃ y, (x, y) ∈ xs.zip ys ∧ R x y := by
  induction h with
  | nil => cases hx
  | @cons x' y xs ys hxy _ ih =>
      obtain rfl | hx := List.mem_cons.mp hx
      · exact ⟨y, by simp, hxy⟩
      · obtain ⟨y', hzip, hr⟩ := ih hx
        exact ⟨y', List.mem_cons_of_mem _ hzip, hr⟩

/-- Both lists split around a pair at one position. -/
theorem exists_split_of_mem_zip {x : α} {y : β} (h : (x, y) ∈ xs.zip ys) :
    ∃ before after ahead behind, xs = before ++ x :: after ∧ ys = ahead ++ y :: behind ∧
      ahead.length = before.length := by
  obtain ⟨left, right, hzip⟩ := List.append_of_mem h
  obtain ⟨before, rest, ahead, rest', hlen, rfl, rfl, -, hright⟩ := List.zip_eq_append_iff.mp hzip
  obtain ⟨after, behind, rfl, rfl, -⟩ := List.zip_eq_cons_iff.mp hright.symm
  exact ⟨before, after, ahead, behind, rfl, rfl, hlen.symm⟩

theorem forall₂_exists_right (h : List.Forall₂ R xs ys) {x : α} (hx : x ∈ xs) :
    ∃ y ∈ ys, R x y :=
  forall₂_exists_left (R := flip R) h.flip hx

theorem forall₂_right {Q : β → Prop} (h : List.Forall₂ (fun _ y => Q y) xs ys) : ∀ y ∈ ys, Q y := by
  intro y hy
  rcases forall₂_exists_left h hy with ⟨_, _, hq⟩
  exact hq

end Matched
