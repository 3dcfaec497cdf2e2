-- SUMMARY: Lists whose entries have keys, merged by combining entries with the same key.
import Mathlib

/-!
# Keyed merging

An entry is put into the last one with its key, or at the end if there is none, or if it has no key. Lists are merged by
putting the entries of one into the other, which is associative if combining is.
-/

namespace Lib.Keyed

variable {α κ : Type} [DecidableEq κ] (key : α → Option κ) (combine : α → α → α)

def put : List α → α → List α
  | [], x => [x]
  | e :: l, x => if key x ≠ none ∧ key e = key x ∧ key x ∉ l.map key then combine e x :: l else e :: put l x

def merge (l l' : List α) : List α := l'.foldl (put key combine) l

/-- Combining keeps the key, and is associative, for entries with one key. -/
structure Lawful : Prop where
  key_combine : ∀ {e x}, key e = key x → key (combine e x) = key e
  assoc : ∀ {a b c}, key a = key b → key b = key c → combine (combine a b) c = combine a (combine b c)

variable {key combine} {l l' l'' : List α} {e x y : α}

theorem mem_keys_put (h : Lawful key combine) {k : Option κ} : k ∈ (put key combine l x).map key ↔ k ∈ l.map key ∨ k = key x := by
  induction l with
  | nil => simp [put]
  | cons e l ih =>
    rw [put]
    split
    · rename_i hput
      simp only [List.map_cons, List.mem_cons, h.key_combine hput.2.1]
      constructor
      · exact .inl
      · rintro (hk | rfl)
        · exact hk
        · exact .inl hput.2.1.symm
    · simp only [List.map_cons, List.mem_cons, ih, or_assoc]

theorem put_combine (h : Lawful key combine) (hx : key x ≠ none) (hex : key e = key x) :
    put key combine l (combine e x) = put key combine (put key combine l e) x := by
  have hkey : key (combine e x) = key x := (h.key_combine hex).trans hex
  induction l with
  | nil => simp [put, hx, hex]
  | cons a l ih =>
    rw [put, put, hkey, hex]
    by_cases hlast : key a = key x ∧ key x ∉ l.map key
    · rw [if_pos ⟨hx, hlast⟩, if_pos ⟨hx, hlast⟩, put, if_pos, h.assoc (hlast.1.trans hex.symm) hex]
      exact ⟨hx, (h.key_combine (hlast.1.trans hex.symm)).trans hlast.1, hlast.2⟩
    · rw [if_neg fun hput => hlast hput.2, if_neg fun hput => hlast hput.2, put, if_neg, ih]
      rintro ⟨-, -, hnot⟩
      exact hnot ((mem_keys_put h).mpr (.inr hex.symm))

theorem put_comm (h : Lawful key combine) (hx : key x ≠ none) (hmem : key x ∈ l.map key) (hne : key y ≠ key x) :
    put key combine (put key combine l x) y = put key combine (put key combine l y) x := by
  induction l with
  | nil => cases hmem
  | cons a l ih =>
    by_cases hlast : key x ∈ l.map key
    · have hstep : put key combine (a :: l) x = a :: put key combine l x := by
        rw [put, if_neg fun hput => hput.2.2 hlast]
      have hkeys : key y ∈ (put key combine l x).map key ↔ key y ∈ l.map key := by
        rw [mem_keys_put h]
        exact or_iff_left hne
      rw [hstep, put, put]
      by_cases hput : key y ≠ none ∧ key a = key y ∧ key y ∉ l.map key
      · rw [if_pos hput, if_pos ⟨hput.1, hput.2.1, hkeys.not.mpr hput.2.2⟩, put, if_neg fun h' => h'.2.2 hlast]
      · rw [if_neg hput, if_neg fun h' => hput ⟨h'.1, h'.2.1, hkeys.not.mp h'.2.2⟩, put, if_neg, ih hlast]
        exact fun h' => h'.2.2 ((mem_keys_put h).mpr (.inl hlast))
    · have ha : key a = key x := ((List.mem_cons.mp hmem).resolve_right hlast).symm
      have hcombine : key (combine a x) = key x := (h.key_combine ha).trans ha
      rw [put, if_pos ⟨hx, ha, hlast⟩, put, if_neg fun h' => hne (h'.2.1.symm.trans hcombine), put,
        if_neg fun h' => hne (h'.2.1.symm.trans ha), put, if_pos]
      refine ⟨hx, ha, fun h' => ?_⟩
      exact ((mem_keys_put h).mp h').elim hlast (hne ·.symm)

theorem foldl_put_comm (h : Lawful key combine) (hx : key x ≠ none) (hmem : key x ∈ l.map key) (hnot : key x ∉ l'.map key) :
    merge key combine (put key combine l x) l' = put key combine (merge key combine l l') x := by
  induction l' generalizing l with
  | nil => rfl
  | cons y l' ih =>
    rw [List.map_cons, List.mem_cons, not_or] at hnot
    rw [merge, List.foldl_cons, put_comm h hx hmem (Ne.symm hnot.1)]
    exact ih ((mem_keys_put h).mpr (.inl hmem)) hnot.2

theorem merge_put (h : Lawful key combine) :
    merge key combine l (put key combine l' x) = put key combine (merge key combine l l') x := by
  induction l' generalizing l with
  | nil => rfl
  | cons e l' ih =>
    rw [put]
    split
    · rename_i hput
      obtain ⟨hx, hex, hnot⟩ := hput
      rw [merge, List.foldl_cons, put_combine h hx hex]
      exact foldl_put_comm h hx ((mem_keys_put h).mpr (.inr hex.symm)) hnot
    · exact ih

theorem merge_assoc (h : Lawful key combine) :
    merge key combine (merge key combine l l') l'' = merge key combine l (merge key combine l' l'') := by
  induction l'' generalizing l' with
  | nil => rfl
  | cons x l'' ih =>
    have hput := @ih (put key combine l' x)
    rw [merge_put h] at hput
    exact hput

theorem flatMap_merge {β : Type} {g : α → List β} {k : Option κ} (hk : ∀ e, key e ≠ k → g e = [])
    (hg : ∀ e x, key e = key x → key x ≠ none → g (combine e x) = g e ++ g x) :
    (merge key combine l l').flatMap g = l.flatMap g ++ l'.flatMap g := by
  have hput : ∀ (l : List α) (x : α), (put key combine l x).flatMap g = l.flatMap g ++ g x := by
    intro l x
    induction l with
    | nil => simp [put]
    | cons e l ih =>
      rw [put]
      split
      · rename_i hput
        rw [List.flatMap_cons, List.flatMap_cons, hg e x hput.2.1 hput.1, List.append_assoc, List.append_assoc]
        congr 1
        by_cases hx : key x = k
        · have hnone : l.flatMap g = [] := by
            refine List.flatMap_eq_nil_iff.mpr fun e' he' => hk e' fun heq => hput.2.2 ?_
            rw [hx, ← heq]
            exact List.mem_map_of_mem he'
          rw [hnone, List.append_nil, List.nil_append]
        · rw [hk x hx, List.nil_append, List.append_nil]
      · rw [List.flatMap_cons, List.flatMap_cons, ih, List.append_assoc]
  induction l' generalizing l with
  | nil => simp [merge]
  | cons x l' ih =>
    rw [merge, List.foldl_cons, ← merge, ih, hput, List.flatMap_cons, List.append_assoc]

end Lib.Keyed
