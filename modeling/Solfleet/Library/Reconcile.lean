import Mathlib.Data.Finset.SDiff
import Mathlib.Data.Finset.Union
import Mathlib.Tactic.Tauto

/-! # Reconciling a set towards a goal

The abstract purpose of a reconciler that manages some elements of a shared set:
`managed` are the elements it may add or remove, `desired` the ones it wants
present, everything else is foreign. An empty goal is not pursued.
-/

namespace Reconcile

variable {α : Type} [DecidableEq α]

def toRemove (current managed desired : Finset α) : Finset α := (current ∩ managed) \ desired

def toAdd (current desired : Finset α) : Finset α := desired \ current

/-- What is left when everything has been removed and nothing added yet. -/
def survivors (current managed desired : Finset α) : Finset α :=
  (current \ managed) ∪ (current ∩ desired)

/-- The set a completed reconciliation leaves behind. -/
def target (current managed desired : Finset α) : Finset α :=
  if desired = ∅ then current else (current \ managed) ∪ desired

variable {current managed desired : Finset α}

@[simp] theorem target_empty : target current managed ∅ = current := if_pos rfl

theorem target_of_ne (h : desired ≠ ∅) :
    target current managed desired = (current \ managed) ∪ desired := if_neg h

/-- Removing and adding what the differences say reaches the goal. -/
theorem sdiff_toRemove_union_toAdd (h : desired ⊆ managed) :
    (current \ toRemove current managed desired) ∪ toAdd current desired =
      (current \ managed) ∪ desired := by
  ext a
  have ha := @h a
  simp only [toRemove, toAdd, Finset.mem_union, Finset.mem_sdiff, Finset.mem_inter]
  tauto

theorem sdiff_toRemove :
    current \ toRemove current managed desired = survivors current managed desired := by
  ext a
  simp only [toRemove, survivors, Finset.mem_union, Finset.mem_sdiff, Finset.mem_inter]
  tauto

theorem target_sdiff_current (hne : desired ≠ ∅) :
    target current managed desired \ current = toAdd current desired := by
  ext a
  simp only [target_of_ne hne, toAdd, Finset.mem_union, Finset.mem_sdiff]
  tauto

theorem current_sdiff_target (hne : desired ≠ ∅) :
    current \ target current managed desired = toRemove current managed desired := by
  ext a
  simp only [target_of_ne hne, toRemove, Finset.mem_union, Finset.mem_sdiff, Finset.mem_inter]
  tauto

/-! ## Idempotence -/

theorem toRemove_target (h : desired ≠ ∅) :
    toRemove (target current managed desired) managed desired = ∅ := by
  ext a
  simp only [target_of_ne h, toRemove, Finset.mem_union, Finset.mem_sdiff, Finset.mem_inter,
    Finset.notMem_empty, iff_false]
  tauto

theorem toAdd_target (h : desired ≠ ∅) : toAdd (target current managed desired) desired = ∅ := by
  ext a
  simp only [target_of_ne h, toAdd, Finset.mem_union, Finset.mem_sdiff, Finset.notMem_empty,
    iff_false]
  tauto

theorem target_eq_self_iff (hne : desired ≠ ∅) (h : desired ⊆ managed) :
    target current managed desired = current ↔
      toRemove current managed desired = ∅ ∧ toAdd current desired = ∅ := by
  constructor
  · intro heq
    rw [← current_sdiff_target hne, ← @target_sdiff_current _ _ _ managed _ hne, heq]
    simp
  · rintro ⟨hr, ha⟩
    rw [target_of_ne hne, ← sdiff_toRemove_union_toAdd h, hr, ha]
    simp

/-- A set is settled where it agrees with the goal on everything managed. -/
theorem target_eq_self_iff_agree (h : desired ⊆ managed) :
    target current managed desired = current ↔
      desired = ∅ ∨ ∀ a ∈ managed, a ∈ current ↔ a ∈ desired := by
  by_cases hne : desired = ∅
  · simp [hne]
  · rw [target_eq_self_iff hne h, or_iff_right hne, toRemove, toAdd,
      Finset.sdiff_eq_empty_iff_subset, Finset.sdiff_eq_empty_iff_subset]
    constructor
    · rintro ⟨hremove, hadd⟩ a ha
      exact ⟨fun hcurrent => hremove (Finset.mem_inter.mpr ⟨hcurrent, ha⟩), fun hd => hadd hd⟩
    · intro hagree
      refine ⟨fun a ha => ?_, fun a ha => (hagree a (h ha)).mpr ha⟩
      obtain ⟨hcurrent, hmanaged⟩ := Finset.mem_inter.mp ha
      exact (hagree a hmanaged).mp hcurrent

/-- Of two reconciliations in a row the later goal counts, if it is one. -/
theorem target_target {later : Finset α} (h : desired ⊆ managed) :
    target (target current managed desired) managed later =
      target current managed (if later = ∅ then desired else later) := by
  by_cases hlater : later = ∅
  · rw [hlater, target_empty, if_pos rfl]
  · rw [if_neg hlater, target_of_ne hlater, target_of_ne hlater]
    by_cases hne : desired = ∅
    · rw [hne, target_empty]
    · rw [target_of_ne hne]
      ext a
      have ha := @h a
      simp only [Finset.mem_union, Finset.mem_sdiff]
      tauto

/-- After a reconciliation only another goal is a reason to act. -/
theorem target_target_eq_iff {later : Finset α} (hne : desired ≠ ∅) (h : desired ⊆ managed)
    (hlater : later ⊆ managed) :
    target (target current managed desired) managed later = target current managed desired ↔
      later = ∅ ∨ later = desired := by
  rw [target_eq_self_iff_agree hlater]
  refine or_congr_right ?_
  have hmem : ∀ a ∈ managed, a ∈ target current managed desired ↔ a ∈ desired := by
    intro a ha
    rw [target_of_ne hne, Finset.mem_union, Finset.mem_sdiff]
    tauto
  constructor
  · intro hagree
    ext a
    constructor
    · intro ha
      exact (hmem a (hlater ha)).mp ((hagree a (hlater ha)).mpr ha)
    · intro ha
      exact (hagree a (h ha)).mp ((hmem a (h ha)).mpr ha)
  · intro heq a ha
    rw [hmem a ha, heq]

/-! ## What a reconciliation never does -/

theorem target_nonempty (h : current.Nonempty) : (target current managed desired).Nonempty := by
  by_cases hne : desired = ∅
  · simpa [hne] using h
  · rw [target_of_ne hne]
    exact (Finset.nonempty_iff_ne_empty.mpr hne).mono Finset.subset_union_right

/-- What is not managed is left alone. -/
theorem target_sdiff_managed (h : desired ⊆ managed) :
    target current managed desired \ managed = current \ managed := by
  by_cases hne : desired = ∅
  · rw [hne, target_empty]
  · rw [target_of_ne hne, Finset.union_sdiff_distrib, Finset.sdiff_eq_empty_iff_subset.mpr h,
      Finset.union_empty, sdiff_idem]

theorem survivors_subset_target :
    survivors current managed desired ⊆ target current managed desired := by
  intro a ha
  simp only [survivors, Finset.mem_union, Finset.mem_sdiff, Finset.mem_inter] at ha
  by_cases hne : desired = ∅
  · rw [hne, target_empty]
    tauto
  · simp only [target_of_ne hne, Finset.mem_union, Finset.mem_sdiff]
    tauto

/-! ## Several reconcilers at once -/

/-- `b` is `a` moved some way towards the goal. Any number of such moves, by however many
reconcilers, is one again. -/
structure Moves (managed desired a b : Finset α) : Prop where
  foreign : ∀ x ∉ managed, x ∈ b ↔ x ∈ a
  kept : ∀ x ∈ desired, x ∈ a → x ∈ b
  unwanted : ∀ x ∈ managed, x ∉ desired → x ∈ b → x ∈ a
  idle : desired = ∅ → b = a

/-- There is no goal, or the set agrees with it on everything managed. -/
def Settled (managed desired current : Finset α) : Prop :=
  desired = ∅ ∨ ∀ a ∈ managed, a ∈ current ↔ a ∈ desired

section Moves

variable {a b c : Finset α} {x : α}

omit [DecidableEq α] in
theorem Moves.refl : Moves managed desired a a :=
  ⟨fun _ _ => Iff.rfl, fun _ _ h => h, fun _ _ _ h => h, fun _ => rfl⟩

omit [DecidableEq α] in
theorem Moves.trans (hab : Moves managed desired a b) (hbc : Moves managed desired b c) :
    Moves managed desired a c where
  foreign x hx := (hbc.foreign x hx).trans (hab.foreign x hx)
  kept x hx h := hbc.kept x hx (hab.kept x hx h)
  unwanted x hx hd h := hab.unwanted x hx hd (hbc.unwanted x hx hd h)
  idle h := (hbc.idle h).trans (hab.idle h)

theorem moves_erase (hne : desired ≠ ∅) (hm : x ∈ managed) (hd : x ∉ desired) :
    Moves managed desired a (a.erase x) where
  foreign y hy := by
    have hyx : y ≠ x := fun h => hy (h ▸ hm)
    simp [hyx]
  kept y hy h := Finset.mem_erase.mpr ⟨fun hyx => hd (hyx ▸ hy), h⟩
  unwanted _ _ _ h := Finset.mem_of_mem_erase h
  idle h := absurd h hne

theorem moves_insert (hd : x ∈ desired) (hm : x ∈ managed) :
    Moves managed desired a (insert x a) where
  foreign y hy := by
    have hyx : y ≠ x := fun h => hy (h ▸ hm)
    simp [hyx]
  kept _ _ h := Finset.mem_insert_of_mem h
  unwanted y _ hy h := (Finset.mem_insert.mp h).resolve_left fun hyx => hy (hyx ▸ hd)
  idle h := absurd h (Finset.ne_empty_of_mem hd)

/-- Once settled, a set stays so under every further move. -/
theorem Settled.moves (h : Settled managed desired a) (hab : Moves managed desired a b) :
    Settled managed desired b := by
  rcases h with hempty | hagree
  · exact .inl hempty
  · refine .inr fun x hx => ?_
    constructor
    · intro hxb
      by_contra hd
      exact hd ((hagree x hx).mp (hab.unwanted x hx hd hxb))
    · intro hd
      exact hab.kept x hd ((hagree x hx).mpr hd)

/-- The settled set that moves lead to is the target of the set they began with. -/
theorem Moves.eq_target (hab : Moves managed desired a b) (h : Settled managed desired b)
    (hsub : desired ⊆ managed) : b = target a managed desired := by
  by_cases hne : desired = ∅
  · rw [hne, target_empty]
    exact hab.idle hne
  · have hagree := h.resolve_left hne
    rw [target_of_ne hne]
    ext x
    rw [Finset.mem_union, Finset.mem_sdiff]
    by_cases hx : x ∈ managed
    · rw [hagree x hx]
      tauto
    · have hd : x ∉ desired := fun hd => hx (hsub hd)
      rw [hab.foreign x hx]
      tauto

/-- A reconciler that found `a` has done its part once everything it set out to remove is gone and
everything it set out to add is there. -/
theorem Moves.settled (hab : Moves managed desired a b)
    (hremoved : ∀ x ∈ toRemove a managed desired, x ∉ b) (hadded : ∀ x ∈ toAdd a desired, x ∈ b) :
    Settled managed desired b := by
  refine .inr fun x hx => ?_
  constructor
  · intro hxb
    by_contra hd
    have hxa := hab.unwanted x hx hd hxb
    refine hremoved x ?_ hxb
    exact Finset.mem_sdiff.mpr ⟨Finset.mem_inter.mpr ⟨hxa, hx⟩, hd⟩
  · intro hd
    by_cases hxa : x ∈ a
    · exact hab.kept x hd hxa
    · exact hadded x (Finset.mem_sdiff.mpr ⟨hd, hxa⟩)

end Moves

/-! ## Elements outside a set -/

section Outside

variable {current' hidden : Finset α} (h : current \ hidden = current' \ hidden)

include h

/-- Outside `hidden` the outcome depends on the elements outside `hidden` alone. -/
theorem target_sdiff_congr :
    target current managed desired \ hidden = target current' managed desired \ hidden := by
  by_cases hne : desired = ∅
  · simpa [hne] using h
  · rw [target_of_ne hne, target_of_ne hne]
    ext a
    have ha := Finset.ext_iff.mp h a
    simp only [Finset.mem_union, Finset.mem_sdiff] at ha ⊢
    tauto

theorem survivors_sdiff_congr :
    survivors current managed desired \ hidden = survivors current' managed desired \ hidden := by
  ext a
  have ha := Finset.ext_iff.mp h a
  simp only [survivors, Finset.mem_union, Finset.mem_sdiff, Finset.mem_inter] at ha ⊢
  tauto

end Outside

end Reconcile
