-- SUMMARY: Objects as maps: members after an assignment, keys, and equality by members.
import AgentProtocol.Lib.Value

/-!
# Objects as maps

What an assignment does to the members and the keys of an object, and when objects are equal, for the
language's `==` and but for the order of keys.
-/

namespace Lib

namespace Fields

theorem mem_set : ∀ {f : Fields} {k : String} {v : Value} {q : String × Value}, q ∈ (f.set k v).toList → q = (k, v) ∨ q ∈ f.toList
  | nil, _, _, _, h => .inl (List.mem_singleton.mp h)
  | cons key value rest, k, v, q, h => by
    rw [set] at h
    split at h
    · rename_i hkey
      rcases List.mem_cons.mp h with rfl | h
      · exact .inl (by rw [hkey])
      · exact .inr (List.mem_cons_of_mem _ h)
    · rcases List.mem_cons.mp h with rfl | h
      · exact .inr (List.mem_cons_self ..)
      · exact (mem_set h).imp_right (List.mem_cons_of_mem _)

theorem mem_keys_iff {f : Fields} {k : String} : k ∈ f.keys ↔ (f.get? k).isSome = true := by
  constructor
  · intro h
    obtain ⟨q, hq, rfl⟩ := List.mem_map.mp h
    cases hget : f.get? q.1 with
    | some v => rfl
    | none =>
      rw [get?_eq_find?, Option.map_eq_none_iff] at hget
      simpa using List.find?_eq_none.mp hget q hq
  · intro h
    obtain ⟨v, hv⟩ := Option.isSome_iff_exists.mp h
    exact List.mem_map_of_mem (mem_of_get? hv)

theorem keys_set_of_mem : ∀ {f : Fields} {k : String} {v : Value}, k ∈ f.keys → (f.set k v).keys = f.keys
  | nil, _, _, h => nomatch h
  | cons key value rest, k, v, h => by
    rw [set]
    split
    · rfl
    · rename_i hkey
      have hrest : k ∈ rest.keys := (List.mem_cons.mp h).resolve_left (Ne.symm hkey)
      exact congrArg (key :: ·) (keys_set_of_mem hrest)

theorem keys_set_of_not_mem : ∀ {f : Fields} {k : String} {v : Value}, k ∉ f.keys → (f.set k v).keys = f.keys ++ [k]
  | nil, _, _, _ => rfl
  | cons key value rest, k, v, h => by
    have hne : key ≠ k := fun hkey => h (hkey ▸ List.mem_cons_self ..)
    have hrest : k ∉ rest.keys := fun hmem => h (List.mem_cons_of_mem _ hmem)
    rw [set, if_neg hne]
    exact congrArg (key :: ·) (keys_set_of_not_mem hrest)

theorem nodup_keys_set {f : Fields} {k : String} {v : Value} (h : f.keys.Nodup) : (f.set k v).keys.Nodup := by
  by_cases hmem : k ∈ f.keys
  · rwa [keys_set_of_mem hmem]
  · rw [keys_set_of_not_mem hmem]
    exact List.nodup_append.mpr ⟨h, List.nodup_singleton k, fun a ha b hb => by
      rw [List.mem_singleton.mp hb]
      exact fun heq => hmem (heq ▸ ha)⟩

end Fields

namespace Value

theorem sorted_obj_eq {f g : Fields} (hf : f.keys.Nodup) (hg : g.keys.Nodup)
    (h : ∀ k, (f.get? k).map sorted = (g.get? k).map sorted) : sorted (.obj f) = sorted (.obj g) := by
  have hf' : (sortedFields f).keys.Nodup := by rwa [keys_sortedFields]
  have hg' : (sortedFields g).keys.Nodup := by rwa [keys_sortedFields]
  have hget : ∀ k, (sortedFields f).get? k = (sortedFields g).get? k := by
    intro k
    rw [get?_sortedFields, get?_sortedFields, h k]
  apply congrArg Value.obj
  apply Fields.sort_eq_of_perm hf'
  refine (List.perm_ext_iff_of_nodup hf'.of_map hg'.of_map).mpr fun q => ⟨fun hq => ?_, fun hq => ?_⟩
  · exact Fields.mem_of_get? ((hget q.1).symm.trans (Fields.get?_of_mem hf' hq))
  · exact Fields.mem_of_get? ((hget q.1).trans (Fields.get?_of_mem hg' hq))

theorem isSome_of_eq {f g : Fields} (h : eq (.obj f) (.obj g) = true) (hf : f.keys.Nodup) (k : String) :
    (f.get? k).isSome = (g.get? k).isSome := by
  simp only [eq, Bool.and_eq_true, decide_eq_true_eq] at h
  have hmembers := eqFields_iff.mp h.2
  have hsub : f.keys ⊆ g.keys := by
    intro key hkey
    obtain ⟨q, hq, rfl⟩ := List.mem_map.mp hkey
    obtain ⟨w, hw, -⟩ := hmembers q hq
    exact Fields.mem_keys_iff.mpr (by rw [hw]; rfl)
  have hlength : g.keys.length ≤ f.keys.length := by simp [Fields.keys, h.1]
  have hperm : f.keys.Perm g.keys := (List.subperm_of_subset hf hsub).perm_of_length_le hlength
  rw [Bool.eq_iff_iff, ← Fields.mem_keys_iff, ← Fields.mem_keys_iff]
  exact hperm.mem_iff

theorem get?_of_eq {f g : Fields} {k : String} {v w : Value} (h : eq (.obj f) (.obj g) = true) (hv : f.get? k = some v)
    (hw : g.get? k = some w) : eq v w = true := by
  simp only [eq, Bool.and_eq_true, decide_eq_true_eq] at h
  obtain ⟨w', hw', heq⟩ := eqFields_iff.mp h.2 _ (Fields.mem_of_get? hv)
  obtain rfl := Option.some.inj (hw.symm.trans hw')
  exact heq

theorem eq_str {v : Value} {s : String} (h : eq v (.str s) = true) : v = .str s := by
  cases v <;> simp [eq, numEq, num?] at h ⊢
  exact h

end Value

end Lib
