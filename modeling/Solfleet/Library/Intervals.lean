import Mathlib.Data.Int.Order.Basic
import Mathlib.Data.Set.Basic

/-! # Maximal free intervals

The half-open intervals of integers inside given bounds that hold no point of a set, and the
maximal ones among them. A maximal one is known by what stands at its two ends; a block of
points at the low end cuts off the interval before it and moves the lower bound past it.
-/

namespace Intervals

variable {lo hi a b : Int} {S : Set Int}

/-- `[a, b)` is an interval of `[lo, hi)` without a point of `S`. -/
structure Free (lo hi : Int) (S : Set Int) (a b : Int) : Prop where
  lower : lo ≤ a
  proper : a < b
  upper : b ≤ hi
  free : ∀ s ∈ S, ¬ (a ≤ s ∧ s < b)

def Maximal (lo hi : Int) (S : Set Int) (a b : Int) : Prop :=
  Free lo hi S a b ∧
    ∀ a' b', Free lo hi S a' b' → a' ≤ a → b ≤ b' → a' = a ∧ b' = b

theorem maximal_iff :
    Maximal lo hi S a b ↔ Free lo hi S a b ∧ (a = lo ∨ a - 1 ∈ S) ∧ (b = hi ∨ b ∈ S) := by
  constructor
  · rintro ⟨hfree, hmax⟩
    obtain ⟨hlower, hproper, hupper, hnone⟩ := hfree
    refine ⟨⟨hlower, hproper, hupper, hnone⟩, ?_, ?_⟩
    · by_contra hneither
      rw [not_or] at hneither
      have hwider : Free lo hi S (a - 1) b := by
        refine ⟨by omega, by omega, hupper, fun s hs hin => ?_⟩
        have hne : s ≠ a - 1 := fun heq => hneither.2 (heq ▸ hs)
        exact hnone s hs (by omega)
      have heq := (hmax (a - 1) b hwider (by omega) (le_refl b)).1
      omega
    · by_contra hneither
      rw [not_or] at hneither
      have hwider : Free lo hi S a (b + 1) := by
        refine ⟨hlower, by omega, by omega, fun s hs hin => ?_⟩
        have hne : s ≠ b := fun heq => hneither.2 (heq ▸ hs)
        exact hnone s hs (by omega)
      have heq := (hmax a (b + 1) hwider (le_refl a) (by omega)).2
      omega
  · rintro ⟨hfree, hleft, hright⟩
    have hproper := hfree.proper
    refine ⟨hfree, fun a' b' hfree' ha hb => ?_⟩
    obtain ⟨hlower', -, hupper', hnone'⟩ := hfree'
    constructor
    · rcases hleft with hleft | hleft
      · omega
      · have hout := hnone' (a - 1) hleft
        omega
    · rcases hright with hright | hright
      · omega
      · have hout := hnone' b hright
        omega

theorem maximal_empty : Maximal lo hi ∅ a b ↔ lo < hi ∧ a = lo ∧ b = hi := by
  rw [maximal_iff]
  constructor
  · rintro ⟨⟨-, hproper, -, -⟩, hleft, hright⟩
    rcases hleft with rfl | hleft
    · rcases hright with rfl | hright
      · exact ⟨hproper, rfl, rfl⟩
      · exact absurd hright (Set.notMem_empty b)
    · exact absurd hleft (Set.notMem_empty (a - 1))
  · rintro ⟨hlt, rfl, rfl⟩
    exact ⟨⟨le_refl a, hlt, le_refl b, fun s hs => absurd hs (Set.notMem_empty s)⟩, .inl rfl,
      .inl rfl⟩

/-- A block of points from `first` to `last`, all others after it. -/
theorem maximal_block {first last : Int} {T : Set Int} (hblock : first ≤ last)
    (hlo : lo < first) (hhi : last < hi)
    (hS : ∀ s, s ∈ S ↔ (first ≤ s ∧ s ≤ last) ∨ s ∈ T) (hT : ∀ s ∈ T, last + 1 < s) :
    Maximal lo hi S a b ↔ (a = lo ∧ b = first) ∨ Maximal (last + 1) hi T a b := by
  have hmem : ∀ s, first ≤ s → s ≤ last → s ∈ S := fun s h h' => (hS s).mpr (.inl ⟨h, h'⟩)
  have hafter : ∀ s ∈ T, s ∈ S := fun s hs => (hS s).mpr (.inr hs)
  have hwhere : ∀ s ∈ S, (first ≤ s ∧ s ≤ last) ∨ (s ∈ T ∧ last + 1 < s) := fun s hs =>
    ((hS s).mp hs).imp_right fun hs => ⟨hs, hT s hs⟩
  rw [maximal_iff, maximal_iff]
  constructor
  · rintro ⟨⟨hlower, hproper, hupper, hnone⟩, hleft, hright⟩
    rcases lt_or_ge a first with hbefore | hbehind
    · -- an interval that starts before the block ends at it
      have hend : b ≤ first := by
        by_contra hover
        exact hnone first (hmem first (le_refl first) hblock) (by omega)
      have hstart : a = lo := by
        rcases hleft with hleft | hleft
        · exact hleft
        · rcases hwhere _ hleft with hin | ⟨-, hin⟩
          · omega
          · omega
      have hstop : b = first := by
        rcases hright with hright | hright
        · omega
        · rcases hwhere _ hright with hin | ⟨-, hin⟩
          · omega
          · omega
      exact .inl ⟨hstart, hstop⟩
    · have hpast : last < a := by
        by_contra hover
        exact hnone a (hmem a hbehind (by omega)) (by omega)
      refine .inr ⟨⟨by omega, hproper, hupper, fun s hs => hnone s (hafter s hs)⟩, ?_, ?_⟩
      · rcases hleft with hleft | hleft
        · omega
        · rcases hwhere _ hleft with hin | ⟨hin, -⟩
          · exact .inl (by omega)
          · exact .inr hin
      · rcases hright with hright | hright
        · exact .inl hright
        · rcases hwhere _ hright with hin | ⟨hin, -⟩
          · omega
          · exact .inr hin
  · rintro (⟨rfl, rfl⟩ | ⟨⟨hlower, hproper, hupper, hnone⟩, hleft, hright⟩)
    · refine ⟨⟨le_refl a, hlo, by omega, fun s hs hin => ?_⟩, .inl rfl,
        .inr (hmem b (le_refl b) hblock)⟩
      rcases hwhere s hs with hs | ⟨-, hs⟩
      · omega
      · omega
    · refine ⟨⟨by omega, hproper, hupper, fun s hs hin => ?_⟩, .inr ?_, ?_⟩
      · rcases hwhere s hs with hs | ⟨hs, -⟩
        · omega
        · exact hnone s hs hin
      · rcases hleft with hleft | hleft
        · exact hmem (a - 1) (by omega) (by omega)
        · exact hafter _ hleft
      · rcases hright with hright | hright
        · exact .inl hright
        · exact .inr (hafter b hright)

end Intervals
