-- SUMMARY: Tables with one row per key in insertion order, and dictionaries as tables of pairs.
import Mathlib

/-!
# Tables

A `Table key` holds rows in insertion order, at most one for each value of
`key`. Writing a row replaces the one with the same key in place, or appends,
as assignment to a dictionary does in Python. The key is computed from the row,
so a row can never be filed under a key that is not its own.

A `Dict` is the special case of pairs keyed by their first component.
-/

namespace Lib

@[ext] structure Table {ν κ : Type} (key : ν → κ) where
  rows : List ν
  nodup : (rows.map key).Nodup
  deriving Repr

namespace Table

variable {ν κ : Type} {key : ν → κ}

instance [DecidableEq ν] : DecidableEq (Table key) := fun a b =>
  decidable_of_iff (a.rows = b.rows) Table.ext_iff.symm

def empty : Table key := ⟨[], List.nodup_nil⟩

instance : EmptyCollection (Table key) := ⟨empty⟩

instance : Inhabited (Table key) := ⟨∅⟩

@[simp] theorem empty_rows : (∅ : Table key).rows = [] := rfl

/-- The rows that satisfy `p`. -/
def filter (t : Table key) (p : ν → Bool) : Table key where
  rows := t.rows.filter p
  nodup := t.nodup.sublist (List.filter_sublist.map key)

@[simp] theorem filter_rows (t : Table key) (p : ν → Bool) :
    (t.filter p).rows = t.rows.filter p := rfl

variable [DecidableEq κ]

/-- The row filed under `k`. -/
def get? (t : Table key) (k : κ) : Option ν := t.rows.find? (key · = k)

/-- Replace the rows that share `r`'s key by `r`. -/
private def replaceRow (key : ν → κ) (r : ν) (rows : List ν) : List ν :=
  rows.map fun r' => if key r' = key r then r else r'

private theorem map_key_replaceRow (r : ν) (rows : List ν) : (replaceRow key r rows).map key = rows.map key := by
  rw [replaceRow, List.map_map]
  apply List.map_congr_left
  intro r' _
  by_cases h : key r' = key r <;> simp [h]

/-- File `r` under its own key. -/
def insert (t : Table key) (r : ν) : Table key where
  rows := if key r ∈ t.rows.map key then replaceRow key r t.rows else t.rows ++ [r]
  nodup := by
    split
    · rw [map_key_replaceRow]
      exact t.nodup
    · rename_i h
      simpa [List.nodup_append, t.nodup] using h

/-- Drop the row filed under `k`, if there is one. -/
def erase (t : Table key) (k : κ) : Table key := t.filter (key · ≠ k)

/-- File every row of `rs`, in order. -/
def insertAll (t : Table key) (rs : List ν) : Table key := rs.foldl insert t

/-! ## Lookup -/

variable {t : Table key} {r : ν}

theorem get?_eq_some {k : κ} : t.get? k = some r ↔ r ∈ t.rows ∧ key r = k := by
  constructor
  · intro h
    exact ⟨List.mem_of_find?_eq_some h, by simpa using List.find?_some h⟩
  · rintro ⟨hr, rfl⟩
    cases hf : t.get? (key r) with
    | none => simpa using List.find?_eq_none.mp hf r hr
    | some r' =>
      have hk : key r' = key r := by simpa using List.find?_some hf
      rw [List.inj_on_of_nodup_map t.nodup (List.mem_of_find?_eq_some hf) hr hk]

theorem get?_eq_none {k : κ} : t.get? k = none ↔ ∀ r ∈ t.rows, key r ≠ k := by
  simp [get?]

theorem key_of_get? {k : κ} (h : t.get? k = some r) : key r = k :=
  (get?_eq_some.mp h).2

theorem mem_iff_get? : r ∈ t.rows ↔ t.get? (key r) = some r := by
  simp [get?_eq_some]

theorem eq_of_key {r r' : ν} (hr : r ∈ t.rows) (hr' : r' ∈ t.rows) (h : key r = key r') : r = r' := by
  rw [mem_iff_get?] at hr hr'
  rw [h, hr'] at hr
  exact (Option.some.inj hr).symm

@[simp] theorem get?_empty (k : κ) : (∅ : Table key).get? k = none := rfl

@[simp] theorem get?_filter (t : Table key) (p : ν → Bool) (k : κ) : (t.filter p).get? k = (t.get? k).filter p := by
  apply Option.ext
  intro r
  simp only [get?_eq_some, filter_rows, List.mem_filter, Option.filter_eq_some_iff]
  tauto

theorem find?_rows (t : Table key) {p : ν → Bool} {k : κ} (hp : ∀ r, p r = true → key r = k) :
    t.rows.find? p = (t.get? k).filter p := by
  apply Option.ext
  intro r
  rw [Option.filter_eq_some_iff, get?_eq_some]
  constructor
  · intro h
    have hr := List.find?_some h
    exact ⟨⟨List.mem_of_find?_eq_some h, hp r hr⟩, hr⟩
  · rintro ⟨⟨hmem, rfl⟩, hr⟩
    cases hf : t.rows.find? p with
    | none => exact absurd hr (List.find?_eq_none.mp hf r hmem)
    | some r' =>
      have hk := hp r' (List.find?_some hf)
      rw [List.inj_on_of_nodup_map t.nodup (List.mem_of_find?_eq_some hf) hmem hk]

theorem mem_insert {r r' : ν} : r' ∈ (t.insert r).rows ↔ r' = r ∨ (r' ∈ t.rows ∧ key r' ≠ key r) := by
  by_cases h : key r ∈ t.rows.map key
  · obtain ⟨r₀, hr₀, hk₀⟩ := List.mem_map.mp h
    simp only [insert, h, if_true, replaceRow, List.mem_map]
    constructor
    · rintro ⟨r₁, hr₁, rfl⟩
      by_cases hk : key r₁ = key r
      · simp [hk]
      · simp [hk, hr₁]
    · rintro (rfl | ⟨hr', hk⟩)
      · exact ⟨r₀, hr₀, by simp [hk₀]⟩
      · exact ⟨r', hr', by simp [hk]⟩
  · have hne : ∀ r₁ ∈ t.rows, key r₁ ≠ key r := fun r₁ hr₁ hk => h (hk ▸ List.mem_map_of_mem hr₁)
    simp only [insert, h, if_false, List.mem_append, List.mem_singleton]
    constructor
    · rintro (hr' | rfl)
      · exact .inr ⟨hr', hne _ hr'⟩
      · exact .inl rfl
    · rintro (rfl | ⟨hr', _⟩)
      · exact .inr rfl
      · exact .inl hr'

theorem rows_insert (t : Table key) (r : ν) : (t.insert r).rows =
      if key r ∈ t.rows.map key then t.rows.map fun r' => if key r' = key r then r else r' else t.rows ++ [r] := rfl

theorem get?_insert (t : Table key) (r : ν) (k : κ) :
    (t.insert r).get? k = if key r = k then some r else t.get? k := by
  apply Option.ext
  intro r'
  rw [get?_eq_some, mem_insert]
  by_cases hk : key r = k
  · subst hk
    constructor
    · rintro ⟨rfl | ⟨_, hne⟩, he⟩
      · simp
      · exact absurd he hne
    · intro h
      have : r = r' := by simpa using h
      exact ⟨.inl this.symm, by rw [this]⟩
  · simp only [hk, if_false, get?_eq_some]
    constructor
    · rintro ⟨rfl | ⟨hr', _⟩, he⟩
      · exact absurd he hk
      · exact ⟨hr', he⟩
    · rintro ⟨hr', he⟩
      exact ⟨.inr ⟨hr', fun h => hk (h ▸ he)⟩, he⟩

@[simp] theorem get?_insert_self (t : Table key) (r : ν) : (t.insert r).get? (key r) = some r := by
  simp [get?_insert]

theorem get?_insert_of_ne {k : κ} (h : key r ≠ k) : (t.insert r).get? k = t.get? k := by
  simp [get?_insert, h]

theorem insert_of_get? (h : t.get? (key r) = some r) : t.insert r = t := by
  obtain ⟨hr, -⟩ := get?_eq_some.mp h
  have hrows : (t.insert r).rows = t.rows := by
    simp only [insert, List.mem_map_of_mem hr, if_true, replaceRow]
    refine (List.map_congr_left fun r' hr' => ?_).trans (List.map_id _)
    split
    · rename_i hk
      exact List.inj_on_of_nodup_map t.nodup hr hr' hk.symm
    · rfl
  exact Table.ext hrows

theorem get?_erase (t : Table key) (k k' : κ) :
    (t.erase k).get? k' = if k' = k then none else t.get? k' := by
  rw [erase, get?_filter]
  cases h : t.get? k' with
  | none => simp
  | some r =>
    have hr := key_of_get? h
    by_cases hk : k' = k <;> simp [Option.filter, hr, hk]

variable {rs : List ν}

theorem get?_insertAll_of_forall_ne {k : κ} (h : ∀ r ∈ rs, key r ≠ k) : (t.insertAll rs).get? k = t.get? k := by
  induction rs generalizing t with
  | nil => rfl
  | cons r rs ih =>
    rw [insertAll, List.foldl_cons, ← insertAll, ih fun r' hr' => h r' (by simp [hr']),
      get?_insert_of_ne (h r (by simp))]

theorem get?_insertAll_of_mem (hr : r ∈ rs)
    (h : ∀ r' ∈ rs, key r' = key r → r' = r) : (t.insertAll rs).get? (key r) = some r := by
  induction rs generalizing t with
  | nil => cases hr
  | cons r₀ rs ih =>
    rw [insertAll, List.foldl_cons, ← insertAll]
    by_cases hmem : r ∈ rs
    · exact ih hmem fun r' hr' => h r' (by simp [hr'])
    · have hr₀ : r₀ = r := by
        rcases List.mem_cons.mp hr with rfl | hr'
        · rfl
        · exact absurd hr' hmem
      subst hr₀
      rw [get?_insertAll_of_forall_ne, get?_insert_self]
      intro r' hr' he
      exact hmem (h r' (by simp [hr']) he ▸ hr')

theorem mem_of_mem_insertAll : ∀ {t : Table key}, r ∈ (t.insertAll rs).rows → r ∈ t.rows ∨ r ∈ rs := by
  induction rs with
  | nil => exact fun h => .inl h
  | cons r₀ rs ih =>
    intro t h
    rcases ih h with hold | hnew
    · rcases mem_insert.mp hold with rfl | ⟨hold, -⟩
      · exact .inr (by simp)
      · exact .inl hold
    · exact .inr (by simp [hnew])

theorem isSome_get?_insertAll {k : κ} :
    ∀ {t : Table key}, ((t.get? k).isSome ∨ ∃ r ∈ rs, key r = k) → ((t.insertAll rs).get? k).isSome := by
  induction rs with
  | nil =>
    rintro t (h | ⟨r, hr, -⟩)
    · exact h
    · cases hr
  | cons r₀ rs ih =>
    intro t h
    apply ih
    by_cases hk : key r₀ = k
    · exact .inl (by simp [get?_insert, hk])
    · rw [get?_insert_of_ne hk]
      refine h.imp_right ?_
      rintro ⟨r, hr, hrk⟩
      rcases List.mem_cons.mp hr with rfl | hr
      · exact absurd hrk hk
      exact ⟨r, hr, hrk⟩

theorem rows_insertAll : ∀ {t : Table key}, ((t.rows ++ rs).map key).Nodup → (t.insertAll rs).rows = t.rows ++ rs := by
  induction rs with
  | nil => exact fun _ => (List.append_nil _).symm
  | cons r rs ih =>
    intro t h
    have hnew : key r ∉ t.rows.map key := by
      intro hmem
      rw [List.map_append, List.nodup_append] at h
      exact h.2.2 _ hmem _ (by simp) rfl
    have hrows : (t.insert r).rows = t.rows ++ [r] := by simp only [insert, hnew, if_false]
    have hsplit : (t.insert r).rows ++ rs = t.rows ++ r :: rs := by simp [hrows]
    exact (ih (hsplit ▸ h)).trans hsplit

theorem insertAll_self (t : Table key) : (∅ : Table key).insertAll t.rows = t :=
  Table.ext (rows_insertAll (by simpa using t.nodup))

end Table

/-! ## Dictionaries -/

/-- A dictionary: a table of key-value pairs. -/
abbrev Dict (κ ν : Type) := Table (Prod.fst : κ × ν → κ)

namespace Dict

variable {κ ν : Type} [DecidableEq κ]

def lookup (d : Dict κ ν) (k : κ) : Option ν := (d.get? k).map Prod.snd

/-- `d[k] = v`. -/
def set (d : Dict κ ν) (k : κ) (v : ν) : Dict κ ν := d.insert (k, v)

/-- `k in d`. -/
def contains (d : Dict κ ν) (k : κ) : Bool := (d.lookup k).isSome

/-- A dictionary comprehension: later pairs override earlier ones. -/
def ofList (l : List (κ × ν)) : Dict κ ν := (∅ : Dict κ ν).insertAll l

/-- The same keys, with `f` applied to each value. -/
def mapValues {μ : Type} (d : Dict κ ν) (f : ν → μ) : Dict κ μ where
  rows := d.rows.map fun p => (p.1, f p.2)
  nodup := by
    rw [List.map_map]
    exact d.nodup

/-- Group a list by `f`, keeping the order of the elements within a group. -/
def groupBy {α : Type} (f : α → κ) (l : List α) : Dict κ (List α) :=
  l.foldl (fun d a => d.set (f a) ((d.lookup (f a)).getD [] ++ [a])) ∅

variable {d : Dict κ ν} {k : κ} {v : ν}

theorem lookup_eq_some : d.lookup k = some v ↔ (k, v) ∈ d.rows := by
  simp only [lookup, Option.map_eq_some_iff, Table.get?_eq_some]
  constructor
  · rintro ⟨⟨k', v'⟩, ⟨hmem, rfl⟩, rfl⟩
    exact hmem
  · intro h
    exact ⟨(k, v), ⟨h, rfl⟩, rfl⟩

theorem lookup_eq_none : d.lookup k = none ↔ ∀ v, (k, v) ∉ d.rows := by
  simp only [lookup, Option.map_eq_none_iff, Table.get?_eq_none]
  constructor
  · intro h v hv
    exact h _ hv rfl
  · rintro h ⟨k', v⟩ hmem rfl
    exact h v hmem

@[simp] theorem lookup_empty (k : κ) : (∅ : Dict κ ν).lookup k = none := rfl

theorem lookup_set (d : Dict κ ν) (k k' : κ) (v : ν) :
    (d.set k v).lookup k' = if k = k' then some v else d.lookup k' := by
  by_cases h : k = k' <;> simp [lookup, set, Table.get?_insert, h]

@[simp] theorem lookup_set_self (d : Dict κ ν) (k : κ) (v : ν) : (d.set k v).lookup k = some v := by
  simp [lookup_set]

theorem lookup_set_of_ne {k k' : κ} (h : k ≠ k') : (d.set k v).lookup k' = d.lookup k' := by
  simp [lookup_set, h]

theorem lookup_erase (d : Dict κ ν) (k k' : κ) :
    Dict.lookup (d.erase k) k' = if k' = k then none else d.lookup k' := by
  by_cases h : k' = k <;> simp [lookup, Table.get?_erase, h]

theorem contains_set (d : Dict κ ν) (k k' : κ) (v : ν) : (d.set k v).contains k' = (decide (k = k') || d.contains k') := by
  by_cases h : k = k' <;> simp [contains, lookup_set, h]

theorem contains_erase (d : Dict κ ν) (k k' : κ) : Dict.contains (d.erase k) k' = (decide (k' ≠ k) && d.contains k') := by
  by_cases h : k' = k <;> simp [contains, lookup_erase, h]

theorem lookup_filter (d : Dict κ ν) (p : κ × ν → Bool) (k : κ) :
    Dict.lookup (d.filter p) k = (d.lookup k).filter fun v => p (k, v) := by
  apply Option.ext
  intro v
  simp [lookup_eq_some]

variable {μ : Type}

theorem lookup_mapValues (d : Dict κ ν) (f : ν → μ) (k : κ) : (d.mapValues f).lookup k = (d.lookup k).map f := by
  apply Option.ext
  intro w
  simp only [lookup_eq_some, mapValues, List.mem_map, Prod.mk.injEq, Option.map_eq_some_iff]
  constructor
  · rintro ⟨⟨k', v⟩, hmem, rfl, rfl⟩
    exact ⟨v, hmem, rfl⟩
  · rintro ⟨v, hmem, rfl⟩
    exact ⟨(k, v), hmem, rfl, rfl⟩

/-- The values mapped, each with its key. -/
def mapKeyed {μ : Type} (d : Dict κ ν) (f : κ → ν → μ) : Dict κ μ where
  rows := d.rows.map fun p => (p.1, f p.1 p.2)
  nodup := by
    have hkeys : (d.rows.map fun p => (p.1, f p.1 p.2)).map Prod.fst = d.rows.map Prod.fst := by simp
    rw [hkeys]
    exact d.nodup

theorem lookup_mapKeyed (d : Dict κ ν) (f : κ → ν → μ) (k : κ) : (d.mapKeyed f).lookup k = (d.lookup k).map (f k) := by
  apply Option.ext
  intro w
  simp only [lookup_eq_some, mapKeyed, List.mem_map, Prod.mk.injEq, Option.map_eq_some_iff]
  constructor
  · rintro ⟨⟨k', v⟩, hmem, rfl, rfl⟩
    exact ⟨v, hmem, rfl⟩
  · rintro ⟨v, hmem, rfl⟩
    exact ⟨(k, v), hmem, rfl, rfl⟩

variable {l : List (κ × ν)}

theorem lookup_insertAll_of_mem (hmem : (k, v) ∈ l) (h : ∀ w, (k, w) ∈ l → w = v) : Dict.lookup (d.insertAll l) k = some v := by
  have hget : (d.insertAll l).get? k = some (k, v) := by
    refine Table.get?_insertAll_of_mem hmem ?_
    intro p hp he
    obtain ⟨k', w⟩ := p
    have hk : k' = k := he
    subst hk
    rw [h w hp]
  rw [lookup, hget]
  rfl

theorem lookup_insertAll_of_notMem (h : ∀ w, (k, w) ∉ l) : Dict.lookup (d.insertAll l) k = d.lookup k := by
  rw [lookup, lookup, Table.get?_insertAll_of_forall_ne]
  intro p hp he
  obtain ⟨k', w⟩ := p
  have hk : k' = k := he
  subst hk
  exact h w hp

theorem lookup_ofList_append {xs ys : List (κ × ν)} :
    (ofList (xs ++ ys)).lookup k = Dict.lookup ((ofList xs).insertAll ys) k := by
  rw [ofList, Table.insertAll, List.foldl_append]
  rfl

theorem lookup_groupBy {α : Type} (f : α → κ) (l : List α) (k : κ) : (groupBy f l).lookup k =
      if l.filter (f · = k) = [] then none else some (l.filter (f · = k)) := by
  induction l using List.reverseRecOn with
  | nil => rfl
  | append_singleton l a ih =>
    rw [groupBy, List.foldl_append, List.foldl_cons, List.foldl_nil, ← groupBy, lookup_set,
      List.filter_append]
    by_cases h : f a = k
    · subst h
      rw [ih]
      by_cases hl : l.filter (f · = f a) = [] <;> simp [hl]
    · simp [h, ih]

theorem contains_ofList : (ofList l).contains k = true ↔ k ∈ l.map Prod.fst := by
  constructor
  · intro h
    obtain ⟨v, hv⟩ := Option.isSome_iff_exists.mp h
    rcases Table.mem_of_mem_insertAll (lookup_eq_some.mp hv) with hrow | hrow
    · cases hrow
    exact List.mem_map.mpr ⟨(k, v), hrow, rfl⟩
  · intro h
    obtain ⟨p, hp, rfl⟩ := List.mem_map.mp h
    rw [contains, lookup, Option.isSome_map]
    exact Table.isSome_get?_insertAll (.inr ⟨p, hp, rfl⟩)

theorem contains_iff_mem_keys : d.contains k = true ↔ k ∈ d.rows.map Prod.fst := by
  rw [contains, Option.isSome_iff_exists]
  simp only [lookup_eq_some, List.mem_map, Prod.exists, exists_and_right, exists_eq_right]

theorem contains_mapValues (d : Dict κ ν) (f : ν → μ) (k : κ) : (d.mapValues f).contains k = d.contains k := by
  rw [contains, lookup_mapValues, Option.isSome_map]
  rfl

theorem mem_map_fst_filter {p : κ × ν → Bool} :
    k ∈ (d.rows.filter p).map Prod.fst ↔ ∃ v, d.lookup k = some v ∧ p (k, v) = true := by
  simp only [List.mem_map, List.mem_filter, Prod.exists, exists_and_right, exists_eq_right, lookup_eq_some]

theorem perm_keys {d d' : Dict κ ν} (h : ∀ k, d.lookup k = d'.lookup k) : (d.rows.map Prod.fst).Perm (d'.rows.map Prod.fst) := by
  refine (List.perm_ext_iff_of_nodup d.nodup d'.nodup).mpr fun k => ?_
  rw [← contains_iff_mem_keys, ← contains_iff_mem_keys, contains, contains, h k]

theorem length_rows_congr {d d' : Dict κ ν} (h : ∀ k, d.lookup k = d'.lookup k) : d.rows.length = d'.rows.length := by
  have hlength := (perm_keys h).length_eq
  rwa [List.length_map, List.length_map] at hlength

end Dict

end Lib
