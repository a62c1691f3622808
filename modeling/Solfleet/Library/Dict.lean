import Mathlib.Data.List.Nodup

/-! # Insertion-ordered dictionaries

A dictionary is its list of entries in insertion order; the field `nodup` makes
a repeated key impossible to build. Assigning to a present key keeps its
position, so a comprehension over pairs keeps the last value of each key.
-/

structure Dict (κ ν : Type) where
  entries : List (κ × ν)
  nodup : (entries.map Prod.fst).Nodup

namespace Dict

variable {κ ν : Type} [DecidableEq κ]

instance [DecidableEq ν] : DecidableEq (Dict κ ν) := fun a b =>
  decidable_of_iff (a.entries = b.entries) (by cases a; cases b; simp)

def empty : Dict κ ν := ⟨[], List.nodup_nil⟩

def keys (d : Dict κ ν) : List κ := d.entries.map Prod.fst

def values (d : Dict κ ν) : List ν := d.entries.map Prod.snd

def lookup (k : κ) : List (κ × ν) → Option ν
  | [] => none
  | (k', v) :: rest => if k = k' then some v else lookup k rest

def get? (d : Dict κ ν) (k : κ) : Option ν := lookup k d.entries

def contains (d : Dict κ ν) (k : κ) : Bool := (d.get? k).isSome

theorem lookup_eq_none_iff {k : κ} {l : List (κ × ν)} :
    lookup k l = none ↔ k ∉ l.map Prod.fst := by
  induction l with
  | nil => simp [lookup]
  | cons p rest ih =>
      obtain ⟨k', v⟩ := p
      by_cases hk : k = k'
      · simp [lookup, hk]
      · simp [lookup, hk, ih]

theorem mem_of_lookup {k : κ} {v : ν} {l : List (κ × ν)} (h : lookup k l = some v) :
    (k, v) ∈ l := by
  induction l with
  | nil => simp [lookup] at h
  | cons p rest ih =>
      obtain ⟨k', v'⟩ := p
      by_cases hk : k = k'
      · simp only [lookup, hk, if_true, Option.some.injEq] at h
        simp [hk, h]
      · simp only [lookup, hk, if_false] at h
        exact List.mem_cons_of_mem _ (ih h)

theorem lookup_of_mem {k : κ} {v : ν} {l : List (κ × ν)} (hn : (l.map Prod.fst).Nodup)
    (h : (k, v) ∈ l) : lookup k l = some v := by
  induction l with
  | nil => simp at h
  | cons p rest ih =>
      obtain ⟨k', v'⟩ := p
      simp only [List.map_cons, List.nodup_cons] at hn
      rcases List.mem_cons.mp h with heq | hmem
      · obtain ⟨rfl, rfl⟩ := Prod.mk.inj heq
        simp [lookup]
      · have hk : k ≠ k' := by
          rintro rfl
          exact hn.1 (List.mem_map_of_mem hmem)
        simp [lookup, hk, ih hn.2 hmem]

theorem get?_eq_some_iff {d : Dict κ ν} {k : κ} {v : ν} :
    d.get? k = some v ↔ (k, v) ∈ d.entries :=
  ⟨mem_of_lookup, lookup_of_mem d.nodup⟩

/-! ## Assignment -/

/-- Replace the value of `k` where it stands, or append the new entry. -/
def assign (k : κ) (v : ν) : List (κ × ν) → List (κ × ν)
  | [] => [(k, v)]
  | (k', v') :: rest => if k = k' then (k, v) :: rest else (k', v') :: assign k v rest

theorem mem_keys_assign {k k' : κ} {v : ν} {l : List (κ × ν)} :
    k' ∈ (assign k v l).map Prod.fst ↔ k' = k ∨ k' ∈ l.map Prod.fst := by
  induction l with
  | nil => simp [assign]
  | cons p rest ih =>
      obtain ⟨k'', v'⟩ := p
      by_cases hk : k = k''
      · simp [assign, hk]
      · simp only [assign, hk, if_false, List.map_cons, List.mem_cons, ih]
        tauto

theorem nodup_assign {k : κ} {v : ν} {l : List (κ × ν)} (h : (l.map Prod.fst).Nodup) :
    ((assign k v l).map Prod.fst).Nodup := by
  induction l with
  | nil => simp [assign]
  | cons p rest ih =>
      obtain ⟨k', v'⟩ := p
      simp only [List.map_cons, List.nodup_cons] at h
      by_cases hk : k = k'
      · simpa [assign, hk] using h
      · simp only [assign, hk, if_false, List.map_cons, List.nodup_cons, mem_keys_assign, not_or]
        exact ⟨⟨fun he => hk he.symm, h.1⟩, ih h.2⟩

theorem lookup_assign (k k' : κ) (v : ν) (l : List (κ × ν)) :
    lookup k' (assign k v l) = if k' = k then some v else lookup k' l := by
  induction l with
  | nil => simp [assign, lookup]
  | cons p rest ih =>
      obtain ⟨k'', v'⟩ := p
      by_cases hk : k = k''
      · subst hk
        by_cases hk' : k' = k
        · simp [assign, lookup, hk']
        · simp [assign, lookup, hk']
      · by_cases hk' : k' = k''
        · subst hk'
          simp [assign, lookup, hk, Ne.symm hk]
        · simp [assign, lookup, hk, hk', ih]

def insert (d : Dict κ ν) (k : κ) (v : ν) : Dict κ ν :=
  ⟨assign k v d.entries, nodup_assign d.nodup⟩

@[simp] theorem get?_insert (d : Dict κ ν) (k k' : κ) (v : ν) :
    (d.insert k v).get? k' = if k' = k then some v else d.get? k' :=
  lookup_assign k k' v d.entries

/-- A dictionary comprehension. -/
def ofPairs (pairs : List (κ × ν)) : Dict κ ν :=
  pairs.foldl (fun d p => d.insert p.1 p.2) empty

theorem lookup_append (k : κ) (l m : List (κ × ν)) :
    lookup k (l ++ m) = (lookup k l).or (lookup k m) := by
  induction l with
  | nil => simp [lookup]
  | cons p l ih =>
      obtain ⟨k', v'⟩ := p
      by_cases hk : k = k'
      · simp [lookup, hk]
      · simp [lookup, hk, ih]

theorem get?_foldl_insert (pairs : List (κ × ν)) (d : Dict κ ν) (k : κ) :
    (pairs.foldl (fun d p => d.insert p.1 p.2) d).get? k =
      ((lookup k pairs.reverse).or (d.get? k)) := by
  induction pairs generalizing d with
  | nil => simp [lookup]
  | cons p rest ih =>
      obtain ⟨k', v'⟩ := p
      simp only [List.foldl_cons, ih, List.reverse_cons, lookup_append, get?_insert, lookup]
      by_cases hk : k = k'
      · cases lookup k rest.reverse <;> simp [hk]
      · cases lookup k rest.reverse <;> simp [hk]

/-- The comprehension keeps the last value given for a key. -/
theorem get?_ofPairs (pairs : List (κ × ν)) (k : κ) :
    (ofPairs pairs).get? k = lookup k pairs.reverse := by
  have h := get?_foldl_insert pairs (empty : Dict κ ν) k
  cases hk : lookup k pairs.reverse with
  | none => simpa [ofPairs, hk, get?, empty, lookup] using h
  | some v => simpa [ofPairs, hk] using h

theorem get?_ofPairs_isSome {pairs : List (κ × ν)} {k : κ} :
    ((ofPairs pairs).get? k).isSome ↔ k ∈ pairs.map Prod.fst := by
  rw [get?_ofPairs, Option.isSome_iff_ne_none, ne_eq, lookup_eq_none_iff]
  simp

theorem mem_of_get?_ofPairs {pairs : List (κ × ν)} {k : κ} {v : ν}
    (h : (ofPairs pairs).get? k = some v) : (k, v) ∈ pairs := by
  rw [get?_ofPairs] at h
  exact List.mem_reverse.mp (mem_of_lookup h)

theorem get?_ofPairs_eq_none_iff {pairs : List (κ × ν)} {k : κ} :
    (ofPairs pairs).get? k = none ↔ k ∉ pairs.map Prod.fst := by
  rw [get?_ofPairs, lookup_eq_none_iff]
  simp

/-- The pairs given last are looked up first. -/
theorem get?_ofPairs_append (xs ys : List (κ × ν)) (k : κ) :
    (ofPairs (xs ++ ys)).get? k = ((ofPairs ys).get? k).or ((ofPairs xs).get? k) := by
  simp only [get?_ofPairs, List.reverse_append, lookup_append]

theorem get?_ofPairs_of_nodup {pairs : List (κ × ν)} {k : κ} {v : ν}
    (hn : (pairs.map Prod.fst).Nodup) (h : (k, v) ∈ pairs) : (ofPairs pairs).get? k = some v := by
  rw [get?_ofPairs]
  refine lookup_of_mem ?_ (List.mem_reverse.mpr h)
  rw [List.map_reverse]
  exact List.nodup_reverse.mpr hn

/-- Two tables with the same keys row by row lead to rows of one position. -/
theorem get?_ofPairs_forall₂ {ν' : Type} {R : ν → ν' → Prop} {xs : List (κ × ν)}
    {ys : List (κ × ν')} (h : List.Forall₂ (fun x y => x.1 = y.1 ∧ R x.2 y.2) xs ys) (k : κ) :
    Option.Rel R ((ofPairs xs).get? k) ((ofPairs ys).get? k) := by
  simp only [get?_ofPairs]
  have hreverse := List.rel_reverse h
  generalize xs.reverse = us at hreverse
  generalize ys.reverse = vs at hreverse
  induction hreverse with
  | nil => exact .none
  | @cons x y us vs hxy _ ih =>
      rcases x with ⟨k', v⟩
      rcases y with ⟨k'', v'⟩
      rcases hxy with ⟨hkey, hr⟩
      have hkey : k' = k'' := hkey
      subst hkey
      by_cases hk : k = k'
      · simp only [lookup, if_pos hk]
        exact .some hr
      · simp only [lookup, if_neg hk]
        exact ih

/-! ## Mapped values -/

section MapValues

variable {ν' : Type}

/-- `{k: f(v) for k, v in d.items()}` -/
def mapValues (f : ν → ν') (d : Dict κ ν) : Dict κ ν' :=
  ⟨d.entries.map fun p => (p.1, f p.2), by rw [List.map_map]; exact d.nodup⟩

theorem lookup_map (f : ν → ν') (k : κ) (l : List (κ × ν)) :
    lookup k (l.map fun p => (p.1, f p.2)) = (lookup k l).map f := by
  induction l with
  | nil => rfl
  | cons p rest ih =>
      obtain ⟨k', v⟩ := p
      by_cases hk : k = k'
      · simp [lookup, hk]
      · simp [lookup, hk, ih]

@[simp] theorem get?_mapValues (f : ν → ν') (d : Dict κ ν) (k : κ) :
    (d.mapValues f).get? k = (d.get? k).map f :=
  lookup_map f k d.entries

end MapValues

end Dict
