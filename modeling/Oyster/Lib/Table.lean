import Mathlib.Data.List.Nodup

namespace Oyster

structure Table {ρ κ : Type} (key : ρ → κ) where
  rows : List ρ
  nodup : (rows.map key).Nodup

namespace Table

variable {ρ κ : Type} {key : ρ → κ}

def empty : Table key := ⟨[], List.nodup_nil⟩

@[simp] theorem empty_rows : (empty : Table key).rows = [] := rfl

/-- The rows that `p` matches are changed by `f`, which keeps their key. -/
def update (t : Table key) (p : ρ → Bool) (f : ρ → ρ) (hf : ∀ r, key (f r) = key r) :
    Table key where
  rows := t.rows.map fun r => if p r then f r else r
  nodup := by
    have hkey : (key ∘ fun r => if p r then f r else r) = key := by
      funext r
      simp only [Function.comp_apply]
      split
      · exact hf r
      · rfl
    rw [List.map_map, hkey]
    exact t.nodup

/-- The number of rows that `p` matches. -/
def count (t : Table key) (p : ρ → Bool) : ℕ := t.rows.countP p

def delete (t : Table key) (p : ρ → Bool) : Table key where
  rows := t.rows.filter fun r => !p r
  nodup := (List.filter_sublist.map key).nodup t.nodup

section Find

variable [DecidableEq κ]

def find? (t : Table key) (k : κ) : Option ρ := t.rows.find? fun r => key r = k

/-- The table with one more row; fails on a key that exists. -/
def insert (t : Table key) (r : ρ) : Option (Table key) :=
  if h : key r ∈ t.rows.map key then none
  else some {
    rows := t.rows ++ [r]
    nodup := by
      rw [List.map_append]
      exact List.nodup_append.2 ⟨t.nodup, List.nodup_singleton _, fun a ha b hb hab => h (by
        rw [List.map_singleton, List.mem_singleton] at hb
        rwa [← hb, ← hab])⟩ }

variable {t t' : Table key} {k : κ} {r : ρ} {p : ρ → Bool} {f : ρ → ρ}
  {hf : ∀ r, key (f r) = key r}

theorem find?_eq_none : t.find? k = none ↔ k ∉ t.rows.map key := by
  simp [find?]

theorem find?_eq_some : t.find? k = some r ↔ r ∈ t.rows ∧ key r = k := by
  constructor
  · intro h
    exact ⟨List.mem_of_find?_eq_some h, by simpa using List.find?_some h⟩
  · rintro ⟨hr, rfl⟩
    cases h : t.find? (key r) with
    | none => exact absurd (List.mem_map_of_mem hr) (find?_eq_none.1 h)
    | some s =>
      -- only `r` has the key of `r`
      have hkey : key s = key r := by simpa using List.find?_some h
      rw [List.inj_on_of_nodup_map t.nodup (List.mem_of_find?_eq_some h) hr hkey]

theorem mem_keys : k ∈ t.rows.map key ↔ ∃ r, t.find? k = some r := by
  rw [← Option.ne_none_iff_exists', Ne, find?_eq_none, not_not]

@[simp] theorem find?_empty : (empty : Table key).find? k = none := rfl

theorem insert_eq_some :
    t.insert r = some t' ↔ t.find? (key r) = none ∧ t'.rows = t.rows ++ [r] := by
  rw [find?_eq_none]
  unfold insert
  split
  next h => simp [h]
  next h =>
    simp only [Option.some.injEq, h, not_false_eq_true, true_and]
    constructor
    · rintro rfl
      rfl
    · intro hrows
      cases t'
      simp_all

theorem find?_insert (h : t.insert r = some t') (k : κ) :
    t'.find? k = if key r = k then some r else t.find? k := by
  obtain ⟨hnone, hrows⟩ := insert_eq_some.1 h
  unfold find?
  rw [hrows, List.find?_append]
  split
  next hk =>
    subst hk
    have : t.rows.find? (fun r' => key r' = key r) = none := hnone
    simp [this]
  next hk => simp [hk]

@[simp] theorem find?_update (t : Table key) (p : ρ → Bool) (f : ρ → ρ)
    (hf : ∀ r, key (f r) = key r) (k : κ) :
    (t.update p f hf).find? k = (t.find? k).map fun r => if p r then f r else r := by
  have hkey : ((fun r => decide (key r = k)) ∘ fun r => if p r then f r else r) =
      fun r => decide (key r = k) := by
    funext r
    simp only [Function.comp_apply]
    split
    · rw [hf]
    · rfl
  unfold find? update
  rw [List.find?_map, hkey]

@[simp] theorem find?_delete_key (t : Table key) (k k' : κ) :
    (t.delete fun r => decide (key r = k)).find? k' = if k' = k then none else t.find? k' := by
  unfold find? delete
  rw [List.find?_filter]
  by_cases hk : k' = k
  · subst hk
    simp
  · rw [if_neg hk]
    congr 1
    funext r
    by_cases hr : key r = k'
    · simp [hr, hk]
    · simp [hr]

theorem count_eq_one (k : κ) (p : ρ → Bool) :
    (t.count fun r => decide (key r = k) && p r) = 1 ↔ ∃ r, t.find? k = some r ∧ p r = true := by
  have hle : (t.rows.filter fun r => decide (key r = k) && p r).length ≤ 1 := by
    have hnd : ((t.rows.filter fun r => decide (key r = k) && p r).map key).Nodup :=
      (List.filter_sublist.map key).nodup t.nodup
    match hl : t.rows.filter fun r => decide (key r = k) && p r with
    | [] => simp
    | [_] => simp
    | a :: b :: l =>
      have hall : ∀ r ∈ a :: b :: l, key r = k := by
        intro r hr
        rw [← hl, List.mem_filter] at hr
        simpa using (Bool.and_eq_true_iff.1 hr.2).1
      rw [hl] at hnd
      simp [hall a (by simp), hall b (by simp)] at hnd
  rw [count, List.countP_eq_length_filter]
  constructor
  · intro h
    obtain ⟨r, hr⟩ := List.length_eq_one_iff.1 h
    have hmem : r ∈ t.rows.filter fun r => decide (key r = k) && p r := by simp [hr]
    obtain ⟨hrow, hp⟩ := List.mem_filter.1 hmem
    obtain ⟨hk, hp⟩ := Bool.and_eq_true_iff.1 hp
    exact ⟨r, find?_eq_some.2 ⟨hrow, by simpa using hk⟩, hp⟩
  · rintro ⟨r, hr, hp⟩
    obtain ⟨hrow, hk⟩ := find?_eq_some.1 hr
    have hmem : r ∈ t.rows.filter fun r => decide (key r = k) && p r :=
      List.mem_filter.2 ⟨hrow, by simp [hk, hp]⟩
    have := List.length_pos_of_mem hmem
    omega

end Find

@[simp] theorem update_keys (t : Table key) (p : ρ → Bool) (f : ρ → ρ)
    (hf : ∀ r, key (f r) = key r) : (t.update p f hf).rows.map key = t.rows.map key := by
  rw [update, List.map_map]
  refine List.map_congr_left fun r _ => ?_
  simp only [Function.comp_apply]
  split
  · exact hf r
  · rfl

end Table

end Oyster
