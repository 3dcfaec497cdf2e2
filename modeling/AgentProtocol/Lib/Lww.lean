-- SUMMARY: Last-writer-wins slots: offering versioned records to a slot keeps the latest one.
import Mathlib

/-!
# Last-writer-wins slots

A slot holds at most one record. A record offered to it is stored if its version
is strictly newer than that of the record already there, and dropped otherwise.
After any sequence of offers the slot holds a record of the greatest version
offered so far, whatever the order and however often each one was offered. Where
a version determines its record, two slots that were offered the same records
therefore end up equal.
-/

namespace Lib.Lww

variable {R V : Type} [LinearOrder V]

/-- `v` wins over the version in the slot, if there is one. -/
def newer (v : V) : Option V → Bool
  | none => true
  | some w => decide (w < v)

@[simp] theorem newer_none (v : V) : newer v none = true := rfl

@[simp] theorem newer_some {v w : V} : newer v (some w) = true ↔ w < v := by simp [newer]

theorem newer_eq_false {v : V} {w : Option V} : newer v w = false ↔ ∃ u, w = some u ∧ v ≤ u := by
  cases w with
  | none => simp
  | some u => simp [newer]

/-- Of two slots, the content that wins; the second one only if it is newer. -/
def latest : Option V → Option V → Option V
  | v, none => v
  | v, some w => if newer w v then some w else v

@[simp] theorem latest_none (v : Option V) : latest v none = v := rfl

@[simp] theorem none_latest (v : Option V) : latest none v = v := by cases v <;> simp [latest]

theorem latest_some_some (v w : V) : latest (some v) (some w) = some (max v w) := by
  by_cases h : v < w
  · simp [latest, h, max_eq_right h.le]
  · simp [latest, h, max_eq_left (not_lt.mp h)]

theorem latest_comm (v w : Option V) : latest v w = latest w v := by
  cases v <;> cases w <;> simp [latest_some_some, max_comm]

theorem le_latest_right {v : Option V} {w u : V} (h : latest v (some w) = some u) : w ≤ u := by
  cases v with
  | none =>
    rw [none_latest] at h
    exact (Option.some.inj h).le
  | some v =>
    rw [latest_some_some] at h
    exact (le_max_right v w).trans (Option.some.inj h).le

theorem latest_of_newer {v : V} {w : Option V} (h : newer v w = true) : latest (some v) w = some v := by
  rw [latest_comm]
  simp [latest, h]

theorem latest_eq_left_iff {v w : Option V} : latest v w = v ↔ ∀ w', w = some w' → newer w' v = false := by
  cases w with
  | none => simp
  | some w =>
    cases v with
    | none => simp
    | some v => simp [latest_some_some, newer]

theorem latest_eq_left_iff_of_le {v w : Option V} (h : ∀ v' w', v = some v' → w = some w' → w' ≤ v') :
    latest v w = v ↔ (w ≠ none → v ≠ none) := by
  cases w with
  | none => simp
  | some w =>
    cases v with
    | none => simp
    | some v => simp [latest_some_some, h v w rfl rfl]

variable (ver : R → V)

/-- Offer `r` to a slot. -/
def offer (slot : Option R) (r : R) : Option R :=
  if newer (ver r) (slot.map ver) then some r else slot

/-- Offer each record in turn. -/
def offerAll (slot : Option R) (rs : List R) : Option R := rs.foldl (offer ver) slot

theorem offer_eq_or (slot : Option R) (r : R) : offer ver slot r = some r ∨ offer ver slot r = slot := by
  unfold offer
  split <;> simp

theorem offer_map (slot : Option R) (r : R) : (offer ver slot r).map ver = latest (slot.map ver) (some (ver r)) := by
  by_cases h : newer (ver r) (slot.map ver) = true <;> simp [offer, latest, h]

theorem le_offer (slot : Option R) (r : R) : ∃ m, offer ver slot r = some m ∧ ver r ≤ ver m := by
  unfold offer
  split
  · exact ⟨r, rfl, le_refl _⟩
  · rename_i h
    obtain ⟨u, hu, hle⟩ := newer_eq_false.mp (Bool.eq_false_iff.mpr h)
    obtain ⟨m, rfl, rfl⟩ := Option.map_eq_some_iff.mp hu
    exact ⟨m, rfl, hle⟩

variable {slot : Option R} {m : R}

theorem offer_mono (h : slot = some m) (r : R) : ∃ m', offer ver slot r = some m' ∧ ver m ≤ ver m' := by
  subst h
  unfold offer
  split
  · rename_i hlt
    exact ⟨r, rfl, (newer_some.mp hlt).le⟩
  · exact ⟨m, rfl, le_refl _⟩

theorem offerAll_mono (h : slot = some m) (rs : List R) : ∃ m', offerAll ver slot rs = some m' ∧ ver m ≤ ver m' := by
  induction rs generalizing slot m with
  | nil => exact ⟨m, h, le_refl _⟩
  | cons r rs ih =>
    obtain ⟨m₁, hm₁, hle₁⟩ := offer_mono ver h r
    obtain ⟨m₂, hm₂, hle₂⟩ := ih hm₁
    exact ⟨m₂, hm₂, hle₁.trans hle₂⟩

variable {rs : List R}

theorem le_offerAll (slot : Option R) {r : R} (hr : r ∈ rs) : ∃ m, offerAll ver slot rs = some m ∧ ver r ≤ ver m := by
  induction rs generalizing slot with
  | nil => cases hr
  | cons r₀ rs ih =>
    rcases List.mem_cons.mp hr with rfl | hr
    · obtain ⟨m, hm, hle⟩ := le_offer ver slot r
      obtain ⟨m', hm', hle'⟩ := offerAll_mono ver hm rs
      exact ⟨m', hm', hle.trans hle'⟩
    · exact ih _ hr

theorem offerAll_mem (h : offerAll ver slot rs = some m) : slot = some m ∨ m ∈ rs := by
  induction rs generalizing slot with
  | nil => exact .inl h
  | cons r rs ih =>
    rcases ih h with hm | hm
    · rcases offer_eq_or ver slot r with he | he
      · rw [he] at hm
        exact .inr (by simp [Option.some.inj hm])
      · exact .inl (he ▸ hm)
    · exact .inr (by simp [hm])

/-- A slot that starts with a record of `S` and is offered all of `S` and nothing
else ends with a record of the greatest version in `S`. -/
theorem offerAll_isGreatest {S : Set R}
    (hslot : ∀ m, slot = some m → m ∈ S) (hsub : ∀ r ∈ rs, r ∈ S) (hall : ∀ r ∈ S, r ∈ rs) (hne : S.Nonempty) :
    ∃ m ∈ S, offerAll ver slot rs = some m ∧ ∀ r ∈ S, ver r ≤ ver m := by
  obtain ⟨r, hr⟩ := hne
  obtain ⟨m, hm, -⟩ := le_offerAll ver slot (hall r hr)
  have hmS : m ∈ S := by
    rcases offerAll_mem ver hm with h | h
    · exact hslot m h
    · exact hsub m h
  refine ⟨m, hmS, hm, fun r' hr' => ?_⟩
  obtain ⟨m', hm', hle⟩ := le_offerAll ver slot (hall r' hr')
  rw [hm] at hm'
  cases hm'
  exact hle

theorem offerAll_tie {slot m : R} (h : offerAll ver (some slot) rs = some m) : m = slot ∨ ver slot < ver m := by
  induction rs generalizing slot with
  | nil => exact .inl (Option.some.inj h).symm
  | cons r rs ih =>
    have hrest : offerAll ver (offer ver (some slot) r) rs = some m := h
    unfold offer at hrest
    split at hrest
    · rename_i hnewer
      have hlt : ver slot < ver r := newer_some.mp hnewer
      rcases ih hrest with rfl | hlater
      · exact .inr hlt
      · exact .inr (hlt.trans hlater)
    · exact ih hrest

theorem offerAll_eq_none : offerAll ver slot rs = none ↔ slot = none ∧ rs = [] := by
  constructor
  · intro h
    cases rs with
    | nil => exact ⟨h, rfl⟩
    | cons r rs =>
      obtain ⟨m, hm, -⟩ := le_offerAll ver slot (List.mem_cons_self : r ∈ r :: rs)
      exact nomatch h.symm.trans hm
  · rintro ⟨rfl, rfl⟩
    rfl

theorem offerAll_le {rs rs' : List R} {m m' : R} (hsub : ∀ r ∈ rs, r ∈ rs')
    (hm : offerAll ver slot rs = some m) (hm' : offerAll ver slot rs' = some m') : ver m ≤ ver m' := by
  rcases offerAll_mem ver hm with hslot | hmem
  · obtain ⟨m'', hm'', hle⟩ := offerAll_mono ver hslot rs'
    exact Option.some.inj (hm'.symm.trans hm'') ▸ hle
  · obtain ⟨m'', hm'', hle⟩ := le_offerAll ver slot (hsub m hmem)
    exact Option.some.inj (hm'.symm.trans hm'') ▸ hle

theorem offerAll_congr {rs rs' : List R} (hsame : ∀ r, r ∈ rs ↔ r ∈ rs')
    (hver : ∀ r ∈ rs, ∀ r' ∈ rs, ver r = ver r' → r = r') : offerAll ver slot rs = offerAll ver slot rs' := by
  cases hm : offerAll ver slot rs with
  | none =>
    obtain ⟨rfl, rfl⟩ := (offerAll_eq_none ver).mp hm
    have hnil : rs' = [] := List.eq_nil_iff_forall_not_mem.mpr fun r hr => nomatch (hsame r).mpr hr
    rw [hnil]
    rfl
  | some m =>
    cases hm' : offerAll ver slot rs' with
    | none =>
      obtain ⟨rfl, rfl⟩ := (offerAll_eq_none ver).mp hm'
      have hnil : rs = [] := List.eq_nil_iff_forall_not_mem.mpr fun r hr => nomatch (hsame r).mp hr
      rw [hnil] at hm
      cases hm
    | some m' =>
      have hle := offerAll_le ver (fun r hr => (hsame r).mp hr) hm hm'
      have hge := offerAll_le ver (fun r hr => (hsame r).mpr hr) hm' hm
      have heq : ver m = ver m' := le_antisymm hle hge
      -- either one of them is what the slot held, which ties keep, or both were offered
      rcases offerAll_mem ver hm with hslot | hmem
      · rw [hslot] at hm'
        rcases offerAll_tie ver hm' with rfl | hlt
        · rfl
        · exact absurd heq hlt.ne
      · rcases offerAll_mem ver hm' with hslot | hmem'
        · rw [hslot] at hm
          rcases offerAll_tie ver hm with rfl | hlt
          · rfl
          · exact absurd heq hlt.ne'
        · rw [hver m hmem m' ((hsame m').mpr hmem') heq]

end Lib.Lww
