import Mathlib.Data.List.Nodup
import Mathlib.Order.Lattice
import Mathlib.Tactic.Tauto

/-! # Tables in key order

Rows with distinct keys, kept in the order of the keys. `seek` reads the first row at or
after a key, `put` replaces the row of a key and `drop` removes it. A row is found under
its key exactly where seeking that key stops at it.
-/

structure Table {κ α : Type} [LinearOrder κ] (key : α → κ) where
  rows : List α
  ordered : rows.Pairwise fun a b => key a < key b

namespace Table

variable {κ α : Type} [LinearOrder κ] {key : α → κ} {t : Table key} {a b : α} {k : κ}

def empty : Table key := ⟨[], List.Pairwise.nil⟩

def row? (t : Table key) (k : κ) : Option α := t.rows.find? fun a => decide (key a = k)

/-- The first row at or after a key. -/
def seek (t : Table key) (k : κ) : Option α := t.rows.find? fun a => decide (k ≤ key a)

def put (t : Table key) (a : α) : Table key where
  rows := t.rows.filter (fun b => decide (key b < key a)) ++
    a :: t.rows.filter fun b => decide (key a < key b)
  ordered := by
    rw [List.pairwise_append]
    refine ⟨t.ordered.filter _, List.pairwise_cons.mpr ⟨?_, t.ordered.filter _⟩, ?_⟩
    · intro b hb
      exact of_decide_eq_true (List.mem_filter.mp hb).2
    · intro b hb c hc
      have hbefore : key b < key a := of_decide_eq_true (List.mem_filter.mp hb).2
      rcases List.mem_cons.mp hc with rfl | hc
      · exact hbefore
      · exact hbefore.trans (of_decide_eq_true (List.mem_filter.mp hc).2)

def drop (t : Table key) (k : κ) : Table key :=
  ⟨t.rows.filter fun b => decide (key b ≠ k), t.ordered.filter _⟩

/-! ## Rows -/

/-- Keys are distinct, so a key belongs to one row. -/
theorem eq_of_key_eq (ha : a ∈ t.rows) (hb : b ∈ t.rows) (h : key a = key b) : a = b := by
  have hnodup : (t.rows.map key).Nodup := List.pairwise_map.mpr (t.ordered.imp fun h => h.ne)
  exact List.inj_on_of_nodup_map hnodup ha hb h

theorem row?_eq_some_iff : t.row? k = some a ↔ a ∈ t.rows ∧ key a = k := by
  unfold row?
  constructor
  · intro h
    have hkey := List.find?_some h
    exact ⟨List.mem_of_find?_eq_some h, of_decide_eq_true hkey⟩
  · rintro ⟨ha, hk⟩
    cases hrow : t.rows.find? fun a => decide (key a = k) with
    | none => exact absurd (decide_eq_true hk) (List.find?_eq_none.mp hrow a ha)
    | some b =>
        have hkey := List.find?_some hrow
        have hb : key b = k := of_decide_eq_true hkey
        rw [eq_of_key_eq (List.mem_of_find?_eq_some hrow) ha (hb.trans hk.symm)]

/-- Seeking a key and comparing the row it stops at finds the row of the key. -/
theorem seek_filter (t : Table key) (k : κ) :
    ((t.seek k).filter fun a => decide (key a = k)) = t.row? k := by
  obtain ⟨rows, ordered⟩ := t
  unfold seek row?
  induction rows with
  | nil => rfl
  | cons b rows ih =>
      have hrest := List.pairwise_cons.mp ordered
      rcases lt_trichotomy (key b) k with hlt | heq | hgt
      · rw [List.find?_cons_of_neg (by simpa using hlt),
          List.find?_cons_of_neg (by simpa using hlt.ne)]
        exact ih hrest.2
      · rw [List.find?_cons_of_pos (by simpa using heq.ge),
          List.find?_cons_of_pos (by simpa using heq),
          Option.filter_some, if_pos (by simpa using heq)]
      · rw [List.find?_cons_of_pos (by simpa using hgt.le),
          List.find?_cons_of_neg (by simpa using hgt.ne'),
          Option.filter_some, if_neg (by simpa using hgt.ne'), eq_comm, List.find?_eq_none]
        intro c hc
        simpa using (hgt.trans (hrest.1 c hc)).ne'

theorem mem_put : b ∈ (t.put a).rows ↔ b = a ∨ b ∈ t.rows ∧ key b ≠ key a := by
  simp only [put, List.mem_append, List.mem_cons, List.mem_filter, decide_eq_true_eq,
    ne_iff_lt_or_gt]
  tauto

theorem row?_put : (t.put a).row? k = if key a = k then some a else t.row? k := by
  have hrow : ∀ b, (t.put a).row? k = some b ↔
      (if key a = k then some a else t.row? k) = some b := by
    intro b
    rw [row?_eq_some_iff, mem_put]
    by_cases hk : key a = k
    · rw [if_pos hk, Option.some.injEq, ← hk]
      constructor
      · rintro ⟨rfl | ⟨-, hne⟩, hb⟩
        · rfl
        · exact absurd hb hne
      · rintro rfl
        exact ⟨.inl rfl, rfl⟩
    · rw [if_neg hk, row?_eq_some_iff]
      constructor
      · rintro ⟨rfl | ⟨hb, -⟩, hkey⟩
        · exact absurd hkey hk
        · exact ⟨hb, hkey⟩
      · rintro ⟨hb, hkey⟩
        exact ⟨.inr ⟨hb, fun h => hk (h.symm.trans hkey)⟩, hkey⟩
  exact Option.ext hrow

theorem row?_drop {k' : κ} : (t.drop k').row? k = if k' = k then none else t.row? k := by
  have hmem : ∀ b, b ∈ (t.drop k').rows ↔ b ∈ t.rows ∧ key b ≠ k' := by
    intro b
    simp [drop]
  by_cases hk : k' = k
  · rw [if_pos hk, Option.eq_none_iff_forall_not_mem]
    intro b hb
    have hrow := row?_eq_some_iff.mp hb
    exact ((hmem b).mp hrow.1).2 (hrow.2.trans hk.symm)
  · rw [if_neg hk]
    refine Option.ext fun b => ?_
    rw [row?_eq_some_iff, row?_eq_some_iff, hmem]
    constructor
    · rintro ⟨⟨hb, -⟩, hkey⟩
      exact ⟨hb, hkey⟩
    · rintro ⟨hb, hkey⟩
      exact ⟨⟨hb, fun h => hk (h.symm.trans hkey)⟩, hkey⟩

end Table
