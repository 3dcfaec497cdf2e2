-- SUMMARY: Injectivity of the encodings that hash inputs are built with: UTF-8, decimals, separator joins, fixed-width blocks.
import Mathlib

/-!
# Unambiguous encodings

A digest binds what it was computed from only if the bytes fed to the hash
function determine it. These lemmas say so for the usual ingredients: UTF-8, the
decimal form of an integer, fields joined by a separator that none of them
contains, and the concatenation of blocks of one width.
-/

namespace Lib

/-- The UTF-8 bytes of a string. -/
def utf8 (s : String) : List UInt8 := s.toUTF8.data.toList

theorem utf8_injective : Function.Injective utf8 := by
  intro s t h
  have hdata : s.toUTF8.data = t.toUTF8.data := Array.toList_inj.mp h
  exact String.toByteArray_inj.mp (ByteArray.ext hdata)

theorem notMem_toList_repr {c : Char} (hdigit : c.isDigit = false) (hminus : c ≠ '-') (n : ℤ) : c ∉ (Int.repr n).toList := by
  have hnat : ∀ m : ℕ, c ∉ (Nat.repr m).toList := by
    intro m hm
    rw [Nat.toList_repr] at hm
    simp [Nat.isDigit_of_mem_toDigits (by decide) (by decide) hm] at hdigit
  cases n with
  | ofNat m => exact hnat m
  | negSucc m =>
    simp only [Int.repr, String.toList_append, List.mem_append]
    rintro (h | h)
    · have : c = '-' := by simpa using h
      exact hminus this
    · exact hnat _ h

theorem intercalate_inj {c : Char} {xs ys : List String} (hxs : ∀ x ∈ xs, c ∉ x.toList)
    (hys : ∀ y ∈ ys, c ∉ y.toList) (hx : xs ≠ []) (hy : ys ≠ [])
    (h : (String.singleton c).intercalate xs = (String.singleton c).intercalate ys) : xs = ys := by
  have split : ∀ zs : List String, (∀ z ∈ zs, c ∉ z.toList) → zs ≠ [] →
      ((String.singleton c).intercalate zs).toList.splitOn c = zs.map String.toList := by
    intro zs hzs hne
    rw [String.toList_intercalate, String.toList_singleton]
    exact List.splitOn_intercalate c (by simpa using hzs) (by simpa using hne)
  have hmap : xs.map String.toList = ys.map String.toList := by
    rw [← split xs hxs hx, ← split ys hys hy, h]
  exact List.map_injective_iff.mpr (fun _ _ => String.toList_inj.mp) hmap

theorem flatten_inj_of_length {α : Type} {n : ℕ} (hn : 0 < n) :
    ∀ {xs ys : List (List α)}, (∀ x ∈ xs, x.length = n) → (∀ y ∈ ys, y.length = n) → xs.flatten = ys.flatten → xs = ys
  | [], [], _, _, _ => rfl
  | [], y :: ys, _, hy, h => by
      have hlen := congrArg List.length h
      have := hy y (by simp)
      simp only [List.flatten_nil, List.length_nil, List.flatten_cons, List.length_append] at hlen
      omega
  | x :: xs, [], hx, _, h => by
      have hlen := congrArg List.length h
      have := hx x (by simp)
      simp only [List.flatten_nil, List.length_nil, List.flatten_cons, List.length_append] at hlen
      omega
  | x :: xs, y :: ys, hx, hy, h => by
      have hlen : x.length = y.length := (hx x (by simp)).trans (hy y (by simp)).symm
      obtain ⟨rfl, hrest⟩ := List.append_inj h hlen
      rw [flatten_inj_of_length hn (fun x' hx' => hx x' (by simp [hx']))
        (fun y' hy' => hy y' (by simp [hy'])) hrest]

/-- Encoding the elements of two lists one by one loses nothing if no element of
the one is encoded like a different element of the other. -/
theorem map_inj_of_forall {α β : Type} {f : α → β} :
    ∀ {xs ys : List α}, (∀ x ∈ xs, ∀ y ∈ ys, f x = f y → x = y) → xs.map f = ys.map f → xs = ys
  | [], [], _, _ => rfl
  | [], _ :: _, _, h => by cases h
  | _ :: _, [], _, h => by cases h
  | x :: xs, y :: ys, hf, h => by
      obtain ⟨hhead, htail⟩ := List.cons.inj h
      rw [hf x (by simp) y (by simp) hhead,
        map_inj_of_forall (fun x' hx' y' hy' => hf x' (by simp [hx']) y' (by simp [hy'])) htail]

end Lib
