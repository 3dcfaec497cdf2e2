-- SUMMARY: JSON values of a language whose equality is numeric: that equality, the canonical text, and when the two agree.
import AgentProtocol.Lib.Encoding
import AgentProtocol.Lib.Json
import AgentProtocol.Lib.Text

/-!
# Values

Parsed JSON as a dynamic language holds it. Integers, floats and booleans are different types, but
the `==` of the language compares them by number, so `True == 1 == 1.0`. The canonical text of a
value (sorted keys, no blanks) tells them apart. `sameKinds` is what is missing from `==`.
-/

namespace Lib

/-- A floating point number: its exact value, or what is not one. -/
inductive FloatVal where
  | finite (value : ℚ)
  | negZero
  | infinite (negative : Bool)
  | nan
  deriving DecidableEq

mutual

inductive Value where
  | null
  | bool (value : Bool)
  | int (value : ℤ)
  | float (value : FloatVal)
  | str (value : String)
  | arr (items : Items)
  | obj (fields : Fields)
  deriving DecidableEq

inductive Items where
  | nil
  | cons (item : Value) (rest : Items)
  deriving DecidableEq

inductive Fields where
  | nil
  | cons (key : String) (value : Value) (rest : Fields)
  deriving DecidableEq

end

namespace Fields

def toList : Fields → List (String × Value)
  | nil => []
  | cons key value rest => (key, value) :: rest.toList

def ofList (l : List (String × Value)) : Fields := l.foldr (fun p => cons p.1 p.2) nil

def keys (f : Fields) : List String := f.toList.map Prod.fst

/-- `dict.get`. -/
def get? : Fields → String → Option Value
  | nil, _ => none
  | cons key value rest, k => if key = k then some value else rest.get? k

/-- `d[k] = v`, which keeps the place of a key that is there. -/
def set : Fields → String → Value → Fields
  | nil, k, v => cons k v nil
  | cons key value rest, k, v => if key = k then cons key v rest else cons key value (rest.set k v)

def sort (f : Fields) : Fields := ofList (f.toList.insertionSort fun p q => p.1 ≤ q.1)

@[simp] theorem toList_ofList (l : List (String × Value)) : (ofList l).toList = l := by
  induction l with
  | nil => rfl
  | cons p l ih => exact congrArg (p :: ·) ih

@[simp] theorem ofList_toList : ∀ f : Fields, ofList f.toList = f
  | nil => rfl
  | cons key value rest => congrArg (cons key value) (ofList_toList rest)

theorem toList_injective : Function.Injective toList := fun f g h => by
  rw [← ofList_toList f, h, ofList_toList]

theorem get?_eq_find? : ∀ (f : Fields) (k : String), f.get? k = (f.toList.find? (·.1 = k)).map Prod.snd
  | nil, _ => rfl
  | cons key value rest, k => by
    rw [get?, toList, List.find?_cons]
    by_cases hkey : key = k
    · simp [hkey]
    · simp only [hkey, if_false, decide_false]
      exact get?_eq_find? rest k

variable {f : Fields} {k : String} {v : Value}

theorem mem_of_get? (h : f.get? k = some v) : (k, v) ∈ f.toList := by
  rw [get?_eq_find?] at h
  obtain ⟨p, hp, rfl⟩ := Option.map_eq_some_iff.mp h
  have hkey : p.1 = k := by simpa using List.find?_some hp
  rw [← hkey]
  exact List.mem_of_find?_eq_some hp

theorem get?_of_mem (hf : f.keys.Nodup) (h : (k, v) ∈ f.toList) : f.get? k = some v := by
  cases hget : f.get? k with
  | none =>
    rw [get?_eq_find?, Option.map_eq_none_iff] at hget
    simpa using List.find?_eq_none.mp hget (k, v) h
  | some w => exact congrArg some (congrArg Prod.snd (List.inj_on_of_nodup_map hf (mem_of_get? hget) h rfl))

theorem get?_set : ∀ (f : Fields) (k k' : String) (v : Value), (f.set k v).get? k' = if k = k' then some v else f.get? k'
  | nil, _, _, _ => rfl
  | cons key value rest, k, k', v => by
    rw [set]
    split
    · rename_i hkey
      subst hkey
      rw [get?, get?]
      split <;> rfl
    · rename_i hkey
      rw [get?, get?, get?_set rest]
      split
      · rename_i hkey'
        subst hkey'
        rw [if_neg (Ne.symm hkey)]
      · rfl

theorem set_self : ∀ {f : Fields} {k : String} {v : Value}, f.get? k = some v → f.set k v = f
  | nil, _, _, h => nomatch h
  | cons key value rest, k, v, h => by
    rw [get?] at h
    rw [set]
    split
    · rename_i hkey
      rw [if_pos hkey] at h
      rw [Option.some.inj h]
    · rename_i hkey
      rw [if_neg hkey] at h
      rw [set_self h]

/-! ### Sorting -/

theorem toList_sort (f : Fields) : f.sort.toList = f.toList.insertionSort fun p q => p.1 ≤ q.1 := toList_ofList _

theorem sort_perm (f : Fields) : f.sort.toList.Perm f.toList := by
  rw [toList_sort]
  exact List.perm_insertionSort _ _

theorem sort_eq_of_perm {f g : Fields} (hf : f.keys.Nodup) (h : f.toList.Perm g.toList) : f.sort = g.sort := by
  apply toList_injective
  have hsorted : ∀ f : Fields, f.sort.toList.Pairwise fun p q => p.1 ≤ q.1 := by
    intro f
    rw [toList_sort]
    exact List.pairwise_insertionSort _ _
  refine List.Perm.eq_of_pairwise ?_ (hsorted f) (hsorted g) (((sort_perm f).trans h).trans (sort_perm g).symm)
  intro p q hp hq hpq hqp
  have hp' : p ∈ f.toList := (sort_perm f).mem_iff.mp hp
  have hq' : q ∈ f.toList := h.mem_iff.mpr ((sort_perm g).mem_iff.mp hq)
  exact List.inj_on_of_nodup_map hf hp' hq' (le_antisymm hpq hqp)

theorem keys_sort_perm (f : Fields) : f.sort.keys.Perm f.keys := (sort_perm f).map Prod.fst

theorem get?_sort (hf : f.keys.Nodup) (k : String) : f.sort.get? k = f.get? k := by
  cases hget : f.get? k with
  | some v => exact get?_of_mem ((keys_sort_perm f).nodup_iff.mpr hf) ((sort_perm f).mem_iff.mpr (mem_of_get? hget))
  | none =>
    cases hsort : f.sort.get? k with
    | none => rfl
    | some v => exact nomatch hget.symm.trans (get?_of_mem hf ((sort_perm f).mem_iff.mp (mem_of_get? hsort)))

end Fields

namespace Value

/-! ## The equality of the language -/

inductive Num where
  | rat (value : ℚ)
  | infinite (negative : Bool)
  deriving DecidableEq

/-- The number that a value is compared by. -/
def num? : Value → Option Num
  | .bool b => some (.rat (if b then 1 else 0))
  | .int n => some (.rat n)
  | .float (.finite q) => some (.rat q)
  | .float .negZero => some (.rat 0)
  | .float (.infinite negative) => some (.infinite negative)
  | _ => none

def numEq (a b : Value) : Bool :=
  match a.num?, b.num? with
  | some x, some y => x = y
  | _, _ => false

mutual

/-- `a == b`. -/
def eq : Value → Value → Bool
  | .null, .null => true
  | .str s, .str t => s = t
  | .arr items, .arr items' => eqItems items items'
  | .obj fields, .obj fields' => fields.toList.length = fields'.toList.length && eqFields fields fields'
  | a, b => numEq a b

def eqItems : Items → Items → Bool
  | .nil, .nil => true
  | .cons item rest, .cons item' rest' => eq item item' && eqItems rest rest'
  | _, _ => false

def eqFields : Fields → Fields → Bool
  | .nil, _ => true
  | .cons key value rest, fields' =>
    (match fields'.get? key with
      | none => false
      | some value' => eq value value') && eqFields rest fields'

end

/-! ## What `==` overlooks -/

mutual

/-- Where both have a number or a boolean it is of one type, and zeros have one sign. -/
def sameKinds : Value → Value → Bool
  | .bool _, .bool _ => true
  | .int _, .int _ => true
  | .float x, .float y => (x = .negZero) = (y = .negZero)
  | .null, .null => true
  | .str _, .str _ => true
  | .arr items, .arr items' => sameKindsItems items items'
  | .obj fields, .obj fields' => sameKindsFields fields fields'
  | _, _ => false

def sameKindsItems : Items → Items → Bool
  | .cons item rest, .cons item' rest' => sameKinds item item' && sameKindsItems rest rest'
  | _, _ => true

def sameKindsFields : Fields → Fields → Bool
  | .nil, _ => true
  | .cons key value rest, fields' =>
    (match fields'.get? key with
      | none => true
      | some value' => sameKinds value value') && sameKindsFields rest fields'

end

mutual

/-- Every object has its keys once, as parsed objects do. -/
def distinct : Value → Bool
  | .arr items => distinctItems items
  | .obj fields => fields.keys.Nodup && distinctFields fields
  | _ => true

def distinctItems : Items → Bool
  | .nil => true
  | .cons item rest => distinct item && distinctItems rest

def distinctFields : Fields → Bool
  | .nil => true
  | .cons _ value rest => distinct value && distinctFields rest

end

/-! ## Sorted values -/

mutual

/-- Every object with its keys in order. -/
def sorted : Value → Value
  | .arr items => .arr (sortedItems items)
  | .obj fields => .obj (sortedFields fields).sort
  | a => a

def sortedItems : Items → Items
  | .nil => .nil
  | .cons item rest => .cons (sorted item) (sortedItems rest)

def sortedFields : Fields → Fields
  | .nil => .nil
  | .cons key value rest => .cons key (sorted value) (sortedFields rest)

end

/-! ## The parts of an object -/

theorem toList_sortedFields : ∀ f : Fields, (sortedFields f).toList = f.toList.map fun p => (p.1, sorted p.2)
  | .nil => rfl
  | .cons key value rest => congrArg ((key, sorted value) :: ·) (toList_sortedFields rest)

theorem keys_sortedFields (f : Fields) : (sortedFields f).keys = f.keys := by
  rw [Fields.keys, toList_sortedFields, List.map_map]
  rfl

theorem eqFields_iff : ∀ {f g : Fields}, eqFields f g = true ↔ ∀ p ∈ f.toList, ∃ w, g.get? p.1 = some w ∧ eq p.2 w = true
  | .nil, g => by simp [eqFields, Fields.toList]
  | .cons key value rest, g => by
    rw [eqFields, Bool.and_eq_true, eqFields_iff, Fields.toList, List.forall_mem_cons]
    refine and_congr ?_ Iff.rfl
    cases g.get? key <;> simp

theorem distinctFields_iff : ∀ {f : Fields}, distinctFields f = true ↔ ∀ p ∈ f.toList, distinct p.2 = true
  | .nil => by simp [distinctFields, Fields.toList]
  | .cons key value rest => by
    rw [distinctFields, Bool.and_eq_true, distinctFields_iff, Fields.toList, List.forall_mem_cons]

theorem get?_sortedFields : ∀ (f : Fields) (k : String), (sortedFields f).get? k = (f.get? k).map sorted
  | .nil, _ => rfl
  | .cons key value rest, k => by
    rw [sortedFields, Fields.get?, Fields.get?]
    split
    · rfl
    · exact get?_sortedFields rest k

theorem sorted_get? {f g : Fields} (h : sorted (.obj f) = sorted (.obj g)) (hf : f.keys.Nodup) (hg : g.keys.Nodup) (k : String) :
    (f.get? k).map sorted = (g.get? k).map sorted := by
  have hsort : (sortedFields f).sort = (sortedFields g).sort := Value.obj.inj h
  have hget : ∀ f : Fields, f.keys.Nodup → (f.get? k).map sorted = (sortedFields f).sort.get? k := by
    intro f hf
    rw [Fields.get?_sort (by rwa [keys_sortedFields]), get?_sortedFields]
  rw [hget f hf, hget g hg, hsort]

/-! ## `==` and sorted values -/

theorem eq_of_numEq {a b : Value} (h : numEq a b = true) (hkinds : sameKinds a b = true) : a = b := by
  cases a <;> cases b <;> simp [numEq, num?, sameKinds] at h hkinds ⊢
  · rename_i x y
    cases x <;> cases y <;> simp_all
  · assumption
  · rename_i x y
    cases x <;> cases y <;> simp_all

mutual

theorem sorted_eq_of_eq : ∀ {a b : Value}, eq a b = true → sameKinds a b = true → distinct a = true → distinct b = true →
    sorted a = sorted b
  | .null, b, _, hkinds, _, _ => by cases b <;> simp [sameKinds] at hkinds ⊢
  | .bool _, b, h, hkinds, _, _ => congrArg sorted (eq_of_numEq (by cases b <;> simpa [eq] using h) hkinds)
  | .int _, b, h, hkinds, _, _ => congrArg sorted (eq_of_numEq (by cases b <;> simpa [eq] using h) hkinds)
  | .float _, b, h, hkinds, _, _ => congrArg sorted (eq_of_numEq (by cases b <;> simpa [eq] using h) hkinds)
  | .str s, b, h, hkinds, _, _ => by cases b <;> simp_all [sameKinds, eq]
  | .arr items, b, h, hkinds, ha, hb => by
    cases b with
    | arr items' => exact congrArg arr (sortedItems_eq_of_eq h hkinds ha hb)
    | _ => simp [sameKinds] at hkinds
  | .obj f, b, h, hkinds, ha, hb => by
    cases b with
    | obj g =>
      simp only [eq, sameKinds, distinct, Bool.and_eq_true, decide_eq_true_eq] at h hkinds ha hb
      have hmember := member_of_eqFields h.2 hkinds ha.2 (distinctFields_iff.mp hb.2)
      have hperm : (sortedFields f).toList.Perm (sortedFields g).toList := by
        rw [toList_sortedFields, toList_sortedFields]
        have hnodup : (f.toList.map fun p => (p.1, sorted p.2)).Nodup := by
          apply List.Nodup.of_map Prod.fst
          rw [List.map_map]
          exact ha.1
        refine (hnodup.subperm fun p hp => ?_).perm_of_length_le (by simp [h.1])
        obtain ⟨q, hq, rfl⟩ := List.mem_map.mp hp
        obtain ⟨w, hw, hsorted⟩ := hmember q hq
        exact List.mem_map.mpr ⟨(q.1, w), Fields.mem_of_get? hw, by rw [hsorted]⟩
      refine congrArg obj (Fields.sort_eq_of_perm ?_ hperm)
      rw [keys_sortedFields]
      exact ha.1
    | _ => simp [sameKinds] at hkinds

theorem sortedItems_eq_of_eq : ∀ {xs ys : Items}, eqItems xs ys = true → sameKindsItems xs ys = true →
    distinctItems xs = true → distinctItems ys = true → sortedItems xs = sortedItems ys
  | .nil, ys, h, _, _, _ => by cases ys <;> simp [eqItems] at h ⊢
  | .cons x xs, ys, h, hkinds, hx, hy => by
    cases ys with
    | nil => simp [eqItems] at h
    | cons y ys =>
      simp only [eqItems, sameKindsItems, distinctItems, Bool.and_eq_true] at h hkinds hx hy
      rw [sortedItems, sortedItems, sorted_eq_of_eq h.1 hkinds.1 hx.1 hy.1, sortedItems_eq_of_eq h.2 hkinds.2 hx.2 hy.2]

theorem member_of_eqFields : ∀ {f g : Fields}, eqFields f g = true → sameKindsFields f g = true → distinctFields f = true →
    (∀ q ∈ g.toList, distinct q.2 = true) → ∀ p ∈ f.toList, ∃ w, g.get? p.1 = some w ∧ sorted p.2 = sorted w
  | .nil, g, _, _, _, _ => by simp [Fields.toList]
  | .cons key value rest, g, h, hkinds, hf, hg => by
    simp only [eqFields, sameKindsFields, distinctFields, Bool.and_eq_true] at h hkinds hf
    intro p hp
    rcases List.mem_cons.mp hp with rfl | hp
    · cases hget : g.get? key with
      | none => simp [hget] at h
      | some w =>
        simp only [hget] at h hkinds
        exact ⟨w, rfl, sorted_eq_of_eq h.1 hkinds.1 hf.1 (hg _ (Fields.mem_of_get? hget))⟩
    · exact member_of_eqFields h.2 hkinds.2 hf.2 hg p hp

end

mutual

theorem sameKinds_of_sorted_eq : ∀ {a b : Value}, sorted a = sorted b → distinct b = true → sameKinds a b = true
  | .null, b, h, _ => by cases b <;> simp [sorted, sameKinds] at h ⊢
  | .bool _, b, h, _ => by cases b <;> simp [sorted, sameKinds] at h ⊢
  | .int _, b, h, _ => by cases b <;> simp [sorted, sameKinds] at h ⊢
  | .float _, b, h, _ => by cases b <;> simp [sorted, sameKinds] at h ⊢; rw [h]
  | .str _, b, h, _ => by cases b <;> simp [sorted, sameKinds] at h ⊢
  | .arr items, b, h, hb => by
    cases b with
    | arr items' => exact sameKindsItems_of_sorted_eq (Value.arr.inj h) hb
    | _ => simp [sorted] at h
  | .obj f, b, h, hb => by
    cases b with
    | obj g =>
      simp only [distinct, Bool.and_eq_true, decide_eq_true_eq] at hb
      have hperm : (sortedFields f).toList.Perm (sortedFields g).toList := by
        have hsort := congrArg Fields.toList (Value.obj.inj h)
        exact (Fields.sort_perm _).symm.trans (hsort ▸ Fields.sort_perm _)
      refine sameKindsFields_of_members (fun p hp w hw => ?_) (distinctFields_iff.mp hb.2)
      have hmem : (p.1, sorted p.2) ∈ (sortedFields g).toList := by
        apply hperm.mem_iff.mp
        rw [toList_sortedFields]
        exact List.mem_map_of_mem hp
      rw [toList_sortedFields] at hmem
      obtain ⟨q, hq, heq⟩ := List.mem_map.mp hmem
      obtain ⟨hkey, hsorted⟩ := Prod.mk.inj heq
      have hqw := Fields.get?_of_mem hb.1 hq
      rw [hkey, hw] at hqw
      rw [← hsorted, Option.some.inj hqw]
    | _ => simp [sorted] at h

theorem sameKindsItems_of_sorted_eq : ∀ {xs ys : Items}, sortedItems xs = sortedItems ys → distinctItems ys = true →
    sameKindsItems xs ys = true
  | .nil, ys, _, _ => by cases ys <;> simp [sameKindsItems]
  | .cons x xs, ys, h, hy => by
    cases ys with
    | nil => simp [sortedItems] at h
    | cons y ys =>
      simp only [distinctItems, Bool.and_eq_true] at hy
      obtain ⟨hhead, htail⟩ := Items.cons.inj h
      rw [sameKindsItems, sameKinds_of_sorted_eq hhead hy.1, sameKindsItems_of_sorted_eq htail hy.2]
      rfl

theorem sameKindsFields_of_members : ∀ {f g : Fields},
    (∀ p ∈ f.toList, ∀ w, g.get? p.1 = some w → sorted p.2 = sorted w) → (∀ q ∈ g.toList, distinct q.2 = true) →
      sameKindsFields f g = true
  | .nil, g, _, _ => rfl
  | .cons key value rest, g, h, hg => by
    have hrest : sameKindsFields rest g = true :=
      sameKindsFields_of_members (fun p hp => h p (List.mem_cons_of_mem _ hp)) hg
    rw [sameKindsFields, hrest, Bool.and_true]
    cases hget : g.get? key with
    | none => rfl
    | some w => exact sameKinds_of_sorted_eq (h (key, value) (by simp [Fields.toList]) w hget) (hg _ (Fields.mem_of_get? hget))

end

/-! ## The canonical text -/

def quoteChars (s : String) : List Char := '"' :: (s.toList.flatMap Json.escape ++ ['"'])

section Text

variable (repr : FloatVal → String)

mutual

/-- The text of a value, without blanks. -/
def chars : Value → List Char
  | .null => ['n', 'u', 'l', 'l']
  | .bool true => ['t', 'r', 'u', 'e']
  | .bool false => ['f', 'a', 'l', 's', 'e']
  | .int n => (Int.repr n).toList
  | .float x => (repr x).toList
  | .str s => quoteChars s
  | .arr .nil => ['[', ']']
  | .arr (.cons item rest) => '[' :: (chars item ++ moreItems rest)
  | .obj .nil => ['\x7b', '\x7d']
  | .obj (.cons key value rest) => '\x7b' :: (quoteChars key ++ ':' :: (chars value ++ moreFields rest))

def moreItems : Items → List Char
  | .nil => [']']
  | .cons item rest => ',' :: (chars item ++ moreItems rest)

def moreFields : Fields → List Char
  | .nil => ['\x7d']
  | .cons key value rest => ',' :: (quoteChars key ++ ':' :: (chars value ++ moreFields rest))

end

mutual

/-- No float is infinite or no number. -/
def finite : Value → Bool
  | .float (.infinite _) => false
  | .float .nan => false
  | .arr items => finiteItems items
  | .obj fields => finiteFields fields
  | _ => true

def finiteItems : Items → Bool
  | .nil => true
  | .cons item rest => finite item && finiteItems rest

def finiteFields : Fields → Bool
  | .nil => true
  | .cons _ value rest => finite value && finiteFields rest

end

theorem finiteFields_iff : ∀ {f : Fields}, finiteFields f = true ↔ ∀ p ∈ f.toList, finite p.2 = true
  | .nil => by simp [finiteFields, Fields.toList]
  | .cons key value rest => by
    rw [finiteFields, Bool.and_eq_true, finiteFields_iff, Fields.toList, List.forall_mem_cons]

mutual

theorem finite_sorted : ∀ a : Value, finite (sorted a) = finite a
  | .null | .bool _ | .int _ | .float _ | .str _ => rfl
  | .arr items => finiteItems_sorted items
  | .obj f => by
    have hsort : finiteFields (sortedFields f).sort = finiteFields (sortedFields f) := by
      rw [Bool.eq_iff_iff, finiteFields_iff, finiteFields_iff]
      exact ⟨fun h p hp => h p ((Fields.sort_perm _).mem_iff.mpr hp), fun h p hp => h p ((Fields.sort_perm _).mem_iff.mp hp)⟩
    exact hsort.trans (finiteFields_sorted f)

theorem finiteItems_sorted : ∀ xs : Items, finiteItems (sortedItems xs) = finiteItems xs
  | .nil => rfl
  | .cons item rest => by rw [sortedItems, finiteItems, finiteItems, finite_sorted item, finiteItems_sorted rest]

theorem finiteFields_sorted : ∀ f : Fields, finiteFields (sortedFields f) = finiteFields f
  | .nil => rfl
  | .cons key value rest => by rw [sortedFields, finiteFields, finiteFields, finite_sorted value, finiteFields_sorted rest]

end

/-- `canonical_json`, which fails on what JSON has no number for. -/
def canonicalJson (a : Value) : Option String :=
  if finite a then some (String.ofList (chars repr (sorted a))) else none

theorem canonicalJson_congr {a b : Value} (h : sorted a = sorted b) : canonicalJson repr a = canonicalJson repr b := by
  have hfinite : finite a = finite b := by rw [← finite_sorted a, h, finite_sorted]
  rw [canonicalJson, canonicalJson, hfinite, h]

/-- What is known of the text of a float: it tells floats apart and is no other JSON value. -/
structure FloatText : Prop where
  injective : Function.Injective repr
  ne_int : ∀ x n, repr x ≠ Int.repr n
  head : ∀ x, ∃ c l, (repr x).toList = c :: l ∧ c ∉ ['"', '[', '\x7b', 'n', 't', 'f']
  plain : ∀ x, ∀ c ∈ (repr x).toList, c ∉ [',', ']', '\x7d']

end Text

/-! ### Quoted strings -/

theorem hexDigit_inj : ∀ m < 16, ∀ n < 16, Json.hexDigit m = Json.hexDigit n → m = n := by decide

/-- The characters with a short escape, and the letters of the escapes. -/
def shortEscapes : List (Char × Char) :=
  [('"', '"'), ('\\', '\\'), ('\n', 'n'), ('\r', 'r'), ('\t', 't'), (Char.ofNat 8, 'b'), (Char.ofNat 12, 'f')]

theorem shortEscapes_inj : ∀ p ∈ shortEscapes, ∀ q ∈ shortEscapes, p.2 = q.2 → p.1 = q.1 := by decide

theorem shortEscapes_ne_u : ∀ p ∈ shortEscapes, p.2 ≠ 'u' := by decide

theorem escape_cases (c : Char) : (∃ e, (c, e) ∈ shortEscapes ∧ Json.escape c = ['\\', e]) ∨
      (c.toNat < 32 ∧ Json.escape c = ['\\', 'u', '0', '0', Json.hexDigit (c.toNat / 16), Json.hexDigit (c.toNat % 16)]) ∨
      (Json.escape c = [c] ∧ c ≠ '"' ∧ c ≠ '\\') := by
  unfold Json.escape
  split
  · exact .inl ⟨'"', by decide, rfl⟩
  · exact .inl ⟨'\\', by decide, rfl⟩
  · exact .inl ⟨'n', by decide, rfl⟩
  · exact .inl ⟨'r', by decide, rfl⟩
  · exact .inl ⟨'t', by decide, rfl⟩
  · rename_i hquote hslash _ _ _
    split
    · rename_i h8
      refine .inl ⟨'b', ?_, rfl⟩
      rw [← Char.ofNat_toNat c, h8]
      decide
    · split
      · rename_i h12
        refine .inl ⟨'f', ?_, rfl⟩
        rw [← Char.ofNat_toNat c, h12]
        decide
      · split
        · exact .inr (.inl ⟨‹_›, rfl⟩)
        · exact .inr (.inr ⟨rfl, hquote, hslash⟩)

theorem escape_append_inj {c d : Char} {r s : List Char} (h : Json.escape c ++ r = Json.escape d ++ s) : c = d ∧ r = s := by
  rcases escape_cases c with ⟨e, hc, hce⟩ | ⟨hc, hce⟩ | ⟨hce, -, hc⟩ <;>
    rcases escape_cases d with ⟨f, hd, hde⟩ | ⟨hd, hde⟩ | ⟨hde, -, hd⟩ <;>
    simp only [hce, hde, List.cons_append, List.nil_append, List.cons.injEq] at h
  · exact ⟨shortEscapes_inj _ hc _ hd h.2.1, h.2.2⟩
  · exact absurd h.2.1 (shortEscapes_ne_u _ hc)
  · exact absurd h.1.symm hd
  · exact absurd h.2.1.symm (shortEscapes_ne_u _ hd)
  · obtain ⟨-, -, -, -, hhigh, hlow, hrest⟩ := h
    have h1 := hexDigit_inj _ (by omega) _ (by omega) hhigh
    have h2 := hexDigit_inj _ (by omega) _ (by omega) hlow
    have hnat : c.toNat = d.toNat := by omega
    exact ⟨by rw [← Char.ofNat_toNat c, hnat, Char.ofNat_toNat], hrest⟩
  · exact absurd h.1.symm hd
  · exact absurd h.1 hc
  · exact absurd h.1 hc
  · exact h

theorem escape_ne_quote (c : Char) (r s : List Char) : Json.escape c ++ r ≠ '"' :: s := by
  rcases escape_cases c with ⟨e, -, hce⟩ | ⟨-, hce⟩ | ⟨hce, hc, -⟩
  · simp [hce]
  · simp [hce]
  · simp [hce, hc]

theorem quoteChars_append_inj {s t : String} {r r' : List Char} (h : quoteChars s ++ r = quoteChars t ++ r') :
    s = t ∧ r = r' := by
  have hchars : ∀ l l' : List Char, l.flatMap Json.escape ++ '"' :: r = l'.flatMap Json.escape ++ '"' :: r' → l = l' ∧ r = r' := by
    intro l
    induction l with
    | nil =>
      intro l' h
      cases l' with
      | nil => exact ⟨rfl, (List.cons.inj h).2⟩
      | cons d l' =>
        rw [List.flatMap_cons, List.append_assoc] at h
        exact absurd h.symm (escape_ne_quote d _ _)
    | cons c l ih =>
      intro l' h
      rw [List.flatMap_cons, List.append_assoc] at h
      cases l' with
      | nil => exact absurd h (escape_ne_quote c _ _)
      | cons d l' =>
        rw [List.flatMap_cons, List.append_assoc] at h
        obtain ⟨rfl, hrest⟩ := escape_append_inj h
        obtain ⟨rfl, hr⟩ := ih l' hrest
        exact ⟨rfl, hr⟩
  simp only [quoteChars, List.cons_append, List.append_assoc, List.nil_append, List.cons.injEq, true_and] at h
  obtain ⟨hlist, hr⟩ := hchars _ _ h
  exact ⟨String.toList_inj.mp hlist, hr⟩

/-! ### Values -/

/-- What follows a value: nothing, or a character that no number has. -/
def Delimited (r : List Char) : Prop := ∀ c l, r = c :: l → c ∈ [',', ']', '\x7d']

theorem append_inj_of_delimited {u v r s : List Char} (hu : ∀ c ∈ u, c ∉ [',', ']', '\x7d']) (hv : ∀ c ∈ v, c ∉ [',', ']', '\x7d'])
    (hr : Delimited r) (hs : Delimited s) (h : u ++ r = v ++ s) : u = v ∧ r = s := by
  induction u generalizing v with
  | nil =>
    cases v with
    | nil => exact ⟨rfl, h⟩
    | cons d v => exact absurd (hr d _ h) (hv d (by simp))
  | cons c u ih =>
    cases v with
    | nil => exact absurd (hs c _ h.symm) (hu c (by simp))
    | cons d v =>
      obtain ⟨rfl, htail⟩ := List.cons.inj h
      obtain ⟨rfl, hrest⟩ := ih (fun c hc => hu c (by simp [hc])) (fun c hc => hv c (by simp [hc])) htail
      exact ⟨rfl, hrest⟩

/-- Neither a string nor a container. -/
def atom : Value → Bool
  | .str _ => false
  | .arr _ => false
  | .obj _ => false
  | _ => true

section Inj

variable {repr : FloatVal → String}

theorem int_head (n : ℤ) : ∃ c l, (Int.repr n).toList = c :: l ∧ c ∉ ['"', '[', '\x7b', 'n', 't', 'f'] := by
  cases htext : (Int.repr n).toList with
  | nil =>
    have hempty : Int.repr n = "" := String.toList_inj.mp htext
    cases n with
    | ofNat m => exact absurd hempty Nat.repr_ne_empty
    | negSucc m => exact absurd (congrArg (·.toList.length) hempty) (by simp [Int.repr])
  | cons c l =>
    refine ⟨c, l, rfl, fun hc => ?_⟩
    have hmem : c ∈ (Int.repr n).toList := by simp [htext]
    have hdigit : c.isDigit = false ∧ c ≠ '-' := by fin_cases hc <;> exact ⟨rfl, by decide⟩
    exact notMem_toList_repr hdigit.1 hdigit.2 n hmem

theorem int_plain (n : ℤ) : ∀ c ∈ (Int.repr n).toList, c ∉ [',', ']', '\x7d'] := by
  intro c hmem hc
  have hdigit : c.isDigit = false ∧ c ≠ '-' := by fin_cases hc <;> exact ⟨rfl, by decide⟩
  exact notMem_toList_repr hdigit.1 hdigit.2 n hmem

theorem atom_plain (hrepr : FloatText repr) {a : Value} (ha : atom a = true) : ∀ c ∈ chars repr a, c ∉ [',', ']', '\x7d'] := by
  cases a with
  | null => simp [chars]
  | bool b => cases b <;> simp [chars]
  | int n => exact int_plain n
  | float x => exact hrepr.plain x
  | str | arr | obj => cases ha

theorem atom_head (hrepr : FloatText repr) {a : Value} (ha : atom a = true) : ∃ c l, chars repr a = c :: l ∧ c ∉ ['"', '[', '\x7b'] := by
  have hweak : ∀ c : Char, c ∉ ['"', '[', '\x7b', 'n', 't', 'f'] → c ∉ ['"', '[', '\x7b'] := by simp; tauto
  cases a with
  | null => exact ⟨_, _, rfl, by decide⟩
  | bool b => cases b <;> exact ⟨_, _, rfl, by decide⟩
  | int n =>
    obtain ⟨c, l, htext, hc⟩ := int_head n
    exact ⟨c, l, htext, hweak c hc⟩
  | float x =>
    obtain ⟨c, l, htext, hc⟩ := hrepr.head x
    exact ⟨c, l, htext, hweak c hc⟩
  | str | arr | obj => cases ha

theorem word_ne_number {u v : List Char} {c : Char} (hu : u.head? = some c) (hc : c ∈ ['n', 't', 'f'])
    (hv : ∃ c l, v = c :: l ∧ c ∉ ['"', '[', '\x7b', 'n', 't', 'f']) : u ≠ v := by
  rintro rfl
  obtain ⟨d, l, rfl, hd⟩ := hv
  obtain rfl := Option.some.inj hu
  exact hd (by simp only [List.mem_cons, List.not_mem_nil, or_false] at hc ⊢; tauto)

variable {a b : Value}

theorem atom_inj (hrepr : FloatText repr) (ha : atom a = true) (hb : atom b = true) (h : chars repr a = chars repr b) : a = b := by
  cases a with
  | str | arr | obj => cases ha
  | null =>
    cases b with
    | str | arr | obj => cases hb
    | null => rfl
    | bool b => cases b <;> simp [chars] at h
    | int n => exact absurd h (word_ne_number rfl (by decide) (int_head n))
    | float x => exact absurd h (word_ne_number rfl (by decide) (hrepr.head x))
  | bool p =>
    cases b with
    | str | arr | obj => cases hb
    | null => cases p <;> simp [chars] at h
    | bool q => cases p <;> cases q <;> simp [chars] at h ⊢
    | int n => cases p <;> exact absurd h (word_ne_number rfl (by decide) (int_head n))
    | float x => cases p <;> exact absurd h (word_ne_number rfl (by decide) (hrepr.head x))
  | int m =>
    cases b with
    | str | arr | obj => cases hb
    | null => exact absurd h.symm (word_ne_number rfl (by decide) (int_head m))
    | bool q => cases q <;> exact absurd h.symm (word_ne_number rfl (by decide) (int_head m))
    | int n => exact congrArg Value.int (Int.repr_injective (String.toList_inj.mp h))
    | float x => exact absurd (String.toList_inj.mp h.symm) (hrepr.ne_int x m)
  | float x =>
    cases b with
    | str | arr | obj => cases hb
    | null => exact absurd h.symm (word_ne_number rfl (by decide) (hrepr.head x))
    | bool q => cases q <;> exact absurd h.symm (word_ne_number rfl (by decide) (hrepr.head x))
    | int n => exact absurd (String.toList_inj.mp h) (hrepr.ne_int x n)
    | float y => exact congrArg Value.float (hrepr.injective (String.toList_inj.mp h))

theorem atom_append_inj (hrepr : FloatText repr) {r s : List Char} (ha : atom a = true) (hr : Delimited r) (hs : Delimited s)
    (h : chars repr a ++ r = chars repr b ++ s) : a = b ∧ r = s := by
  cases hb : atom b with
  | true =>
    obtain ⟨htext, hrest⟩ := append_inj_of_delimited (atom_plain hrepr ha) (atom_plain hrepr hb) hr hs h
    exact ⟨atom_inj hrepr ha hb htext, hrest⟩
  | false =>
    obtain ⟨c, l, htext, hc⟩ := atom_head hrepr ha
    rw [htext, List.cons_append] at h
    have hhead : ∀ (d : Char) (l' : List Char), chars repr b = d :: l' → d ∈ ['"', '[', '\x7b'] → False := by
      intro d l' hb' hd
      rw [hb', List.cons_append] at h
      exact hc ((List.cons.inj h).1 ▸ hd)
    cases b with
    | null | bool | int | float => cases hb
    | str t => exact (hhead _ _ rfl (by simp)).elim
    | arr items => cases items <;> exact (hhead _ _ rfl (by simp)).elim
    | obj fields => cases fields <;> exact (hhead _ _ rfl (by simp)).elim

theorem chars_append_ne_close (hrepr : FloatText repr) (a : Value) (r s : List Char) : chars repr a ++ r ≠ ']' :: s := by
  cases ha : atom a with
  | true =>
    obtain ⟨c, l, htext, -⟩ := atom_head hrepr ha
    have hplain := atom_plain hrepr ha c (by simp [htext])
    rw [htext]
    rintro ⟨⟩
    simp at hplain
  | false =>
    cases a with
    | null | bool | int | float => cases ha
    | str t => simp [chars, quoteChars]
    | arr items => cases items <;> simp [chars]
    | obj fields => cases fields <;> simp [chars]

theorem delimited_nil : Delimited [] := fun _ _ h => nomatch h

theorem delimited_cons {c : Char} {l : List Char} (h : c ∈ [',', ']', '\x7d']) : Delimited (c :: l) := by
  intro d l' hd
  exact (List.cons.inj hd).1 ▸ h

theorem delimited_moreItems (xs : Items) (r : List Char) : Delimited (moreItems repr xs ++ r) := by
  cases xs <;> exact delimited_cons (by simp)

theorem delimited_moreFields (f : Fields) (r : List Char) : Delimited (moreFields repr f ++ r) := by
  cases f <;> exact delimited_cons (by simp)

mutual

theorem chars_append_inj (hrepr : FloatText repr) : ∀ {a b : Value} {r s : List Char}, Delimited r → Delimited s →
    chars repr a ++ r = chars repr b ++ s → a = b ∧ r = s
  | .null, b, r, s, hr, hs, h => atom_append_inj hrepr rfl hr hs h
  | .bool _, b, r, s, hr, hs, h => atom_append_inj hrepr rfl hr hs h
  | .int _, b, r, s, hr, hs, h => atom_append_inj hrepr rfl hr hs h
  | .float _, b, r, s, hr, hs, h => atom_append_inj hrepr rfl hr hs h
  | .str t, b, r, s, hr, hs, h => by
    cases hb : atom b with
    | true =>
      obtain ⟨rfl, hrest⟩ := atom_append_inj hrepr hb hs hr h.symm
      cases hb
    | false =>
      cases b with
      | null | bool | int | float => cases hb
      | str t' =>
        obtain ⟨rfl, hrest⟩ := quoteChars_append_inj h
        exact ⟨rfl, hrest⟩
      | arr items => cases items <;> simp [chars, quoteChars] at h
      | obj fields => cases fields <;> simp [chars, quoteChars] at h
  | .arr xs, b, r, s, hr, hs, h => by
    cases hb : atom b with
    | true =>
      obtain ⟨rfl, hrest⟩ := atom_append_inj hrepr hb hs hr h.symm
      cases hb
    | false =>
      cases b with
      | null | bool | int | float => cases hb
      | str t => cases xs <;> simp [chars, quoteChars] at h
      | obj fields => cases xs <;> cases fields <;> simp [chars] at h
      | arr ys =>
        cases xs with
        | nil =>
          cases ys with
          | nil => exact ⟨rfl, by simpa [chars] using h⟩
          | cons y ys =>
            simp only [chars, List.cons_append, List.append_assoc, List.cons.injEq, true_and] at h
            exact absurd h.symm (chars_append_ne_close hrepr y _ _)
        | cons x xs =>
          cases ys with
          | nil =>
            simp only [chars, List.cons_append, List.append_assoc, List.cons.injEq, true_and] at h
            exact absurd h (chars_append_ne_close hrepr x _ _)
          | cons y ys =>
            simp only [chars, List.cons_append, List.append_assoc, List.cons.injEq, true_and] at h
            obtain ⟨rfl, htail⟩ := chars_append_inj hrepr (delimited_moreItems xs r) (delimited_moreItems ys s) h
            obtain ⟨rfl, hrest⟩ := moreItems_append_inj hrepr htail
            exact ⟨rfl, hrest⟩
  | .obj f, b, r, s, hr, hs, h => by
    cases hb : atom b with
    | true =>
      obtain ⟨rfl, hrest⟩ := atom_append_inj hrepr hb hs hr h.symm
      cases hb
    | false =>
      cases b with
      | null | bool | int | float => cases hb
      | str t => cases f <;> simp [chars, quoteChars] at h
      | arr items => cases f <;> cases items <;> simp [chars] at h
      | obj g =>
        cases f with
        | nil =>
          cases g with
          | nil => exact ⟨rfl, by simpa [chars] using h⟩
          | cons k w g => simp [chars, quoteChars] at h
        | cons key value f =>
          cases g with
          | nil => simp [chars, quoteChars] at h
          | cons k w g =>
            simp only [chars, List.cons_append, List.append_assoc, List.cons.injEq, true_and] at h
            obtain ⟨rfl, hvalue⟩ := quoteChars_append_inj h
            obtain ⟨rfl, htail⟩ := chars_append_inj hrepr (delimited_moreFields f r) (delimited_moreFields g s) (List.cons.inj hvalue).2
            obtain ⟨rfl, hrest⟩ := moreFields_append_inj hrepr htail
            exact ⟨rfl, hrest⟩

theorem moreItems_append_inj (hrepr : FloatText repr) : ∀ {xs ys : Items} {r s : List Char},
    moreItems repr xs ++ r = moreItems repr ys ++ s → xs = ys ∧ r = s
  | .nil, ys, r, s, h => by
    cases ys with
    | nil => exact ⟨rfl, (List.cons.inj h).2⟩
    | cons y ys => simp [moreItems] at h
  | .cons x xs, ys, r, s, h => by
    cases ys with
    | nil => simp [moreItems] at h
    | cons y ys =>
      simp only [moreItems, List.cons_append, List.append_assoc, List.cons.injEq, true_and] at h
      obtain ⟨rfl, htail⟩ := chars_append_inj hrepr (delimited_moreItems xs r) (delimited_moreItems ys s) h
      obtain ⟨rfl, hrest⟩ := moreItems_append_inj hrepr htail
      exact ⟨rfl, hrest⟩

theorem moreFields_append_inj (hrepr : FloatText repr) : ∀ {f g : Fields} {r s : List Char},
    moreFields repr f ++ r = moreFields repr g ++ s → f = g ∧ r = s
  | .nil, g, r, s, h => by
    cases g with
    | nil => exact ⟨rfl, (List.cons.inj h).2⟩
    | cons k w g => simp [moreFields] at h
  | .cons key value f, g, r, s, h => by
    cases g with
    | nil => simp [moreFields] at h
    | cons k w g =>
      simp only [moreFields, List.cons_append, List.append_assoc, List.cons.injEq, true_and] at h
      obtain ⟨rfl, hvalue⟩ := quoteChars_append_inj h
      obtain ⟨rfl, htail⟩ := chars_append_inj hrepr (delimited_moreFields f r) (delimited_moreFields g s) (List.cons.inj hvalue).2
      obtain ⟨rfl, hrest⟩ := moreFields_append_inj hrepr htail
      exact ⟨rfl, hrest⟩

end

theorem sorted_eq_of_canonicalJson (hrepr : FloatText repr) {text : String} (ha : canonicalJson repr a = some text)
    (hb : canonicalJson repr b = some text) : sorted a = sorted b := by
  unfold canonicalJson at ha hb
  split at ha
  · split at hb
    · have htext := String.ofList_inj.mp ((Option.some.inj ha).trans (Option.some.inj hb).symm)
      exact (chars_append_inj hrepr delimited_nil delimited_nil (congrArg (· ++ []) htext)).1
    · cases hb
  · cases ha

end Inj

/-! ### A text for floats -/

/-- Floats as fractions, which is one way to tell them apart. -/
def fractionText : FloatVal → String
  | .finite q => Int.repr q.num ++ "/" ++ Nat.repr q.den
  | .negZero => "-0.0"
  | .infinite negative => if negative then "-Infinity" else "Infinity"
  | .nan => "NaN"

theorem slash_mem_fractionText (q : ℚ) : '/' ∈ (fractionText (.finite q)).toList := by
  simp [fractionText]

theorem fractionText_finite_inj {q r : ℚ} (h : fractionText (.finite q) = fractionText (.finite r)) : q = r := by
  have hparts : ∀ q : ℚ, ∀ x ∈ [Int.repr q.num, Int.repr q.den], '/' ∉ x.toList := by
    intro q x hx
    simp only [List.mem_cons, List.not_mem_nil, or_false] at hx
    rcases hx with rfl | rfl <;> exact notMem_toList_repr (by decide) (by decide) _
  have hjoin : ∀ q : ℚ, fractionText (.finite q) = (String.singleton '/').intercalate [Int.repr q.num, Int.repr q.den] := by
    intro q
    rw [← String.toList_inj]
    simp [fractionText, Int.repr]
  rw [hjoin, hjoin] at h
  have hlist := intercalate_inj (hparts q) (hparts r) (by simp) (by simp) h
  simp only [List.cons.injEq, and_true] at hlist
  have hnum := Int.repr_injective hlist.1
  have hden := Int.repr_injective hlist.2
  exact Rat.ext hnum (by exact_mod_cast hden)

theorem floatText_fractionText : FloatText fractionText where
  injective x y h := by
    cases x with
    | finite q =>
      cases y with
      | finite r => exact congrArg FloatVal.finite (fractionText_finite_inj h)
      | negZero | nan => exact absurd (h ▸ slash_mem_fractionText q) (by decide)
      | infinite b => cases b <;> exact absurd (h ▸ slash_mem_fractionText q) (by decide)
    | negZero =>
      cases y with
      | finite r => exact absurd (h ▸ slash_mem_fractionText r) (by decide)
      | negZero => rfl
      | nan => exact absurd h (by decide)
      | infinite b => cases b <;> exact absurd h (by decide)
    | nan =>
      cases y with
      | finite r => exact absurd (h ▸ slash_mem_fractionText r) (by decide)
      | nan => rfl
      | negZero => exact absurd h (by decide)
      | infinite b => cases b <;> exact absurd h (by decide)
    | infinite b =>
      cases y with
      | finite r => cases b <;> exact absurd (h ▸ slash_mem_fractionText r) (by decide)
      | negZero | nan => cases b <;> exact absurd h (by decide)
      | infinite b' => cases b <;> cases b' <;> first | rfl | exact absurd h (by decide)
  ne_int x n h := by
    have hno : ∀ c ∈ ['/', '.', 'N', 'I'], c ∉ (fractionText x).toList := by
      intro c hc
      rw [h]
      fin_cases hc <;> exact notMem_toList_repr (by decide) (by decide) n
    cases x with
    | finite q => exact hno '/' (by simp) (slash_mem_fractionText q)
    | negZero => exact hno '.' (by simp) (by decide)
    | nan => exact hno 'N' (by simp) (by decide)
    | infinite b => cases b <;> exact hno 'I' (by simp) (by decide)
  head x := by
    cases x with
    | finite q =>
      obtain ⟨c, l, htext, hc⟩ := int_head q.num
      exact ⟨c, l ++ "/".toList ++ (Nat.repr q.den).toList, by simp [fractionText, htext], hc⟩
    | negZero | nan => exact ⟨_, _, rfl, by decide⟩
    | infinite b => cases b <;> exact ⟨_, _, rfl, by decide⟩
  plain x c hc := by
    have hwords : ∀ t ∈ ["-0.0", "-Infinity", "Infinity", "NaN"], ∀ c ∈ t.toList, c ∉ [',', ']', '\x7d'] := by
      simp
    cases x with
    | finite q =>
      simp only [fractionText, String.toList_append, List.mem_append] at hc
      rcases hc with (hc | hc) | hc
      · exact int_plain q.num c hc
      · have hslash : c = '/' := by simpa using hc
        rw [hslash]
        decide
      · exact int_plain q.den c hc
    | negZero | nan => exact hwords _ (by decide) c hc
    | infinite b => cases b <;> exact hwords _ (by decide) c hc

end Value

end Lib
