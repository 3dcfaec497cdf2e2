-- SUMMARY: Comparing, hashing and subscripting parsed JSON in Python: tuples compare by their first difference, and values of different kinds raise.
import AgentProtocol.Lib.Python

/-!
# Order of Python values

`a > b` is defined for two numbers, two strings and two lists, and raises a `TypeError` for everything else. Lists and
tuples compare by the first items that differ, and these need to be comparable only if there are any.
-/

namespace Lib

namespace Value

/-- `value[key]`; only objects have string keys. -/
def subscript (v : Value) (key : String) : Except PyError Value :=
  match v with
  | .obj fields =>
    match fields.get? key with
    | some item => .ok item
    | none => .error .keyError
  | _ => .error .typeError

/-- Whether the value can be a key of a dictionary. -/
def hashable : Value → Bool
  | .arr _ => false
  | .obj _ => false
  | _ => true

/-- `a > b` of two numbers. -/
def numGt : Num → Num → Bool
  | .rat x, .rat y => y < x
  | .rat _, .infinite negative => negative
  | .infinite negative, .rat _ => !negative
  | .infinite negative, .infinite negative' => !negative && negative'

mutual

/-- `a > b`; a comparison with NaN is false. -/
def gt : Value → Value → Except PyError Bool
  | .str s, .str t => .ok (t < s)
  | .arr items, .arr items' => gtItems items items'
  | a, b =>
    if a.isNumber && b.isNumber then
      match a.num?, b.num? with
      | some x, some y => .ok (numGt x y)
      | _, _ => .ok false
    else .error .typeError

def gtItems : Items → Items → Except PyError Bool
  | .nil, _ => .ok false
  | .cons _ _, .nil => .ok true
  | .cons item rest, .cons item' rest' => if eq item item' then gtItems rest rest' else gt item item'

end

/-- `a > b` of two tuples. -/
def tupleGt : List Value → List Value → Except PyError Bool
  | [], _ => .ok false
  | _ :: _, [] => .ok true
  | item :: rest, item' :: rest' => if eq item item' then tupleGt rest rest' else gt item item'

/-- `-f` -/
def negFloat : FloatVal → FloatVal
  | .finite q => if q = 0 then .negZero else .finite (-q)
  | .negZero => .finite 0
  | .infinite negative => .infinite !negative
  | .nan => .nan

/-- `a - b` -/
def sub (a b : Value) : Except PyError Value :=
  if a.isNumber && b.isNumber then
    match a.toInt?, b.toInt? with
    | some m, some n => .ok (.int (m - n))
    | _, _ => do return .float (addFloats (← a.toFloat) (negFloat (← b.toFloat)))
  else .error .typeError

/-- `int(value)` of a number. -/
def toInt : Value → Except PyError ℤ
  | .int n => .ok n
  | .bool b => .ok (if b then 1 else 0)
  | .float f => f.toInt
  | _ => .error .typeError

/-! ## Keys -/

variable {v : Value} {s : String}

theorem eq_str_iff : eq v (.str s) = true ↔ v = .str s := by
  cases v <;> simp [eq, numEq, num?]

theorem str_eq : eq (.str s) v = true ↔ v = .str s := by
  cases v <;> simp [eq, numEq, num?, eq_comm]

variable {a : Value}

theorem eq_of_isNumber (h : a.isNumber = true) (b : Value) : eq a b = numEq a b := by
  cases a with
  | bool | int | float => cases b <;> rfl
  | _ => cases h

theorem numEq_comm (a b : Value) : numEq a b = numEq b a := by
  unfold numEq
  cases a.num? with
  | none => cases b.num? <;> rfl
  | some x =>
    cases b.num? with
    | none => rfl
    | some y => exact decide_eq_decide.mpr eq_comm

theorem hashable_cases (h : a.hashable = true) : a = .null ∨ (∃ s, a = .str s) ∨ a.isNumber = true := by
  cases a with
  | null => exact .inl rfl
  | str s => exact .inr (.inl ⟨s, rfl⟩)
  | bool | int | float => exact .inr (.inr rfl)
  | arr | obj => cases h

theorem eq_of_isNumber_right {b : Value} (h : b.isNumber = true) (a : Value) : eq a b = numEq a b := by
  cases b with
  | bool | int | float => cases a <;> rfl
  | _ => cases h

theorem eq_comm_of_hashable (h : a.hashable = true) (b : Value) : eq a b = eq b a := by
  by_cases hb : b.isNumber = true
  · rw [eq_of_isNumber_right hb, eq_of_isNumber hb, numEq_comm]
  · rcases hashable_cases h with rfl | ⟨s, rfl⟩ | ha
    · cases b <;> first | rfl | exact absurd rfl hb
    · rw [Bool.eq_iff_iff, eq_str_iff, str_eq]
    · rw [eq_of_isNumber ha, eq_of_isNumber_right ha, numEq_comm]

theorem eq_congr_of_hashable {a b : Value} (h : a.hashable = true) (heq : eq a b = true) (v : Value) : eq a v = eq b v := by
  rcases hashable_cases h with rfl | ⟨s, rfl⟩ | hnumber
  · cases b <;> first | rfl | cases heq
  · rw [str_eq.mp heq]
  · rw [eq_of_isNumber hnumber] at heq
    have hb : b.isNumber = true := by
      unfold numEq at heq
      cases b <;> first | rfl | (cases hx : a.num? <;> rw [hx] at heq <;> cases heq)
    rw [eq_of_isNumber hnumber, eq_of_isNumber hb]
    have hnum : a.num? = b.num? := by
      unfold numEq at heq
      split at heq
      · rename_i x y hx hy
        rw [hx, hy, of_decide_eq_true heq]
      · cases heq
    rw [numEq, numEq, hnum]

/-! ## Comparing with an integer or a string -/

theorem eq_int {n : ℤ} : eq v (.int n) = true ↔ v.num? = some (.rat n) := by
  cases v with
  | float f => cases f <;> simp [eq, numEq, num?]
  | _ => simp [eq, numEq, num?]

theorem gt_str : gt v (.str s) = .ok false ↔ ∃ t, v = .str t ∧ t ≤ s := by
  cases v with
  | str t =>
    rw [gt, Except.ok.injEq, decide_eq_false_iff_not, not_lt]
    exact ⟨fun hle => ⟨t, rfl, hle⟩, fun ⟨u, hu, hle⟩ => Value.str.inj hu ▸ hle⟩
  | _ => simp [gt, isNumber]

theorem gt_int {n : ℤ} : gt v (.int n) = .ok false ↔ v.isNumber = true ∧ ∀ x, v.num? = some x → numGt x (.rat n) = false := by
  cases v with
  | float f => cases f <;> simp [gt, isNumber, num?]
  | _ => simp [gt, isNumber, num?]

variable {x : Num}

theorem gt_int_of_num? (h : v.num? = some x) (n : ℤ) : gt v (.int n) = .ok (numGt x (.rat n)) := by
  cases v with
  | float f =>
    cases f with
    | nan => cases h
    | finite | negZero | infinite =>
      obtain rfl := Option.some.inj h
      rfl
  | bool | int =>
    obtain rfl := Option.some.inj h
    rfl
  | null | str | arr | obj => cases h

theorem numGt_self (x : Num) : numGt x x = false := by
  cases x with
  | rat | infinite => simp [numGt]

theorem isNumber_of_num? (h : v.num? = some x) : v.isNumber = true := by
  cases v <;> first | rfl | cases h

variable {m n : ℤ}

theorem numGt_mono (h : numGt x (.rat m) = false) (hle : m ≤ n) : numGt x (.rat n) = false := by
  cases x with
  | rat q =>
    have hcast : (m : ℚ) ≤ n := by exact_mod_cast hle
    simp only [numGt, decide_eq_false_iff_not, not_lt] at h ⊢
    exact h.trans hcast
  | infinite negative => exact h

theorem gt_int_of_eq (h : eq v (.int m) = true) (hlt : m < n) : eq v (.int n) = false ∧ gt v (.int n) = .ok false := by
  rw [eq_int] at h
  have hcast : (m : ℚ) < n := by exact_mod_cast hlt
  refine ⟨Bool.eq_false_iff.mpr fun heq => ?_, gt_int.mpr ⟨isNumber_of_num? h, fun x hx => ?_⟩⟩
  · rw [eq_int, h] at heq
    have hsame : (m : ℚ) = n := Num.rat.inj (Option.some.inj heq)
    exact absurd hsame hcast.ne
  · rw [h] at hx
    obtain rfl := Option.some.inj hx
    simp only [numGt, decide_eq_false_iff_not, not_lt]
    exact hcast.le

theorem gt_int_of_lt (hne : eq v (.int m) = false) (h : gt v (.int m) = .ok false) (hle : m ≤ n) :
    eq v (.int n) = false ∧ gt v (.int n) = .ok false := by
  obtain ⟨hnumber, hnot⟩ := gt_int.mp h
  refine ⟨Bool.eq_false_iff.mpr fun heq => ?_, gt_int.mpr ⟨hnumber, fun x hx => numGt_mono (hnot x hx) hle⟩⟩
  rw [eq_int] at heq
  have hnot := hnot _ heq
  simp only [numGt, decide_eq_false_iff_not, not_lt] at hnot
  have heq' : n = m := le_antisymm (by exact_mod_cast hnot) hle
  rw [heq'] at heq
  exact nomatch (eq_int.mpr heq).symm.trans hne

theorem tupleGt_mono {xs : List Value} {s t : String} (h : tupleGt xs [.int m, .str s] = .ok false)
    (hlt : m < n ∨ m = n ∧ s < t) : tupleGt xs [.int n, .str t] = .ok false := by
  cases xs with
  | nil => rfl
  | cons x xs =>
    simp only [tupleGt] at h ⊢
    split at h
    · rename_i hx
      rcases hlt with hlt | ⟨rfl, hlt⟩
      · obtain ⟨hne, hgt⟩ := gt_int_of_eq hx hlt
        rw [hne, if_neg Bool.false_ne_true, hgt]
      · rw [if_pos hx]
        cases xs with
        | nil => rfl
        | cons y ys =>
          simp only [tupleGt] at h ⊢
          split at h
          · rename_i hy
            obtain rfl := eq_str_iff.mp hy
            have hne : eq (.str s) (.str t) = false := Bool.eq_false_iff.mpr fun heq =>
              hlt.ne (Value.str.inj (eq_str_iff.mp heq))
            rw [hne, if_neg Bool.false_ne_true]
            exact gt_str.mpr ⟨s, rfl, hlt.le⟩
          · obtain ⟨u, rfl, hle⟩ := gt_str.mp h
            have hne : eq (.str u) (.str t) = false := Bool.eq_false_iff.mpr fun heq =>
              (hle.trans_lt hlt).ne (Value.str.inj (eq_str_iff.mp heq))
            rw [hne, if_neg Bool.false_ne_true]
            exact gt_str.mpr ⟨u, rfl, hle.trans hlt.le⟩
    · rename_i hx
      have hx : eq x (.int m) = false := Bool.eq_false_iff.mpr hx
      have hle : m ≤ n := hlt.elim le_of_lt fun h => h.1.le
      obtain ⟨hne, hgt⟩ := gt_int_of_lt hx h hle
      rw [hne, if_neg Bool.false_ne_true, hgt]

theorem tupleGt_stamps (m n : ℤ) (s t : String) :
    tupleGt [.int m, .str s] [.int n, .str t] = .ok (decide (n < m ∨ m = n ∧ t < s)) := by
  simp only [tupleGt]
  by_cases hms : m = n
  · subst hms
    rw [if_pos (eq_int.mpr rfl)]
    by_cases hst : s = t
    · subst hst
      rw [if_pos (eq_str_iff.mpr rfl)]
      simp
    · rw [if_neg fun h => hst (Value.str.inj (eq_str_iff.mp h))]
      simp [gt]
  · have hne : ¬ eq (.int m) (.int n) = true := by
      rw [eq_int]
      simpa [num?] using hms
    rw [if_neg hne]
    simp [gt, isNumber, num?, numGt, hms]

/-! ## A chain of comparisons -/

variable {x y z : Value} {a b : Num}

theorem eq_num (hy : y.num? = some b) : eq x y = true ↔ x.num? = some b := by
  rw [eq_of_isNumber_right (isNumber_of_num? hy), numEq, hy]
  cases x.num? with
  | none => simp
  | some a => simp

theorem gt_num (hy : y.num? = some b) : gt x y = .ok true ↔ ∃ a, x.num? = some a ∧ numGt a b = true := by
  have hnumber := isNumber_of_num? hy
  have hgt : gt x y = if x.isNumber && y.isNumber then
      match x.num?, y.num? with
      | some a, some b => .ok (numGt a b)
      | _, _ => .ok false
    else .error .typeError := by
    cases y with
    | bool | int | float => cases x <;> rfl
    | null | str | arr | obj => cases hnumber
  rw [hgt, hnumber, hy, Bool.and_true]
  cases hx : x.num? with
  | none => split <;> simp
  | some a => simp [isNumber_of_num? hx]

theorem gt_str_true {s : String} : gt x (.str s) = .ok true ↔ ∃ u, x = .str u ∧ s < u := by
  cases x with
  | str u => simp [gt]
  | _ => simp [gt, isNumber]

theorem numGt_trans {c : Num} (h : numGt a b = true) (h' : numGt b c = true) : numGt a c = true := by
  cases a <;> cases b <;> cases c <;> simp_all [numGt]
  exact lt_trans h' h

/-- Strings and numbers other than NaN. -/
def Plain (z : Value) : Prop := (∃ t, z = .str t) ∨ ∃ b, z.num? = some b

theorem eq_trans_plain (hz : z.Plain) (h : eq x y = true) (h' : eq y z = true) : eq x z = true := by
  rcases hz with ⟨t, rfl⟩ | ⟨b, hb⟩
  · rw [eq_str_iff] at h' ⊢
    rw [h', eq_str_iff] at h
    exact h
  · have hy := (eq_num hb).mp h'
    exact (eq_num hb).mpr ((eq_num hy).mp h)

theorem gt_trans_plain (hz : z.Plain) (h : eq x y = true ∧ gt y z = .ok true ∨ gt x y = .ok true ∧ (eq y z = true ∨ gt y z = .ok true)) :
    eq x z = false ∧ gt x z = .ok true := by
  rcases hz with ⟨t, rfl⟩ | ⟨b, hb⟩
  · obtain ⟨u, rfl, hlt⟩ : ∃ u, x = .str u ∧ t < u := by
      rcases h with ⟨hxy, hyz⟩ | ⟨hxy, hyz⟩
      · obtain ⟨u, rfl, hlt⟩ := gt_str_true.mp hyz
        exact ⟨u, eq_str_iff.mp hxy, hlt⟩
      · rcases hyz with hyz | hyz
        · rw [eq_str_iff.mp hyz] at hxy
          exact gt_str_true.mp hxy
        · obtain ⟨s, rfl, hlt⟩ := gt_str_true.mp hyz
          obtain ⟨u, rfl, hlt'⟩ := gt_str_true.mp hxy
          exact ⟨u, rfl, hlt.trans hlt'⟩
    exact ⟨Bool.eq_false_iff.mpr fun heq => hlt.ne' (Value.str.inj (eq_str_iff.mp heq)), gt_str_true.mpr ⟨u, rfl, hlt⟩⟩
  · obtain ⟨a, ha, hgt⟩ : ∃ a, x.num? = some a ∧ numGt a b = true := by
      rcases h with ⟨hxy, hyz⟩ | ⟨hxy, hyz⟩
      · obtain ⟨a, ha, hgt⟩ := (gt_num hb).mp hyz
        exact ⟨a, (eq_num ha).mp hxy, hgt⟩
      · rcases hyz with hyz | hyz
        · exact (gt_num ((eq_num hb).mp hyz)).mp hxy
        · obtain ⟨c, hc, hgt⟩ := (gt_num hb).mp hyz
          obtain ⟨a, ha, hgt'⟩ := (gt_num hc).mp hxy
          exact ⟨a, ha, numGt_trans hgt' hgt⟩
    refine ⟨Bool.eq_false_iff.mpr fun heq => ?_, (gt_num hb).mpr ⟨a, ha, hgt⟩⟩
    obtain rfl := Option.some.inj (ha.symm.trans ((eq_num hb).mp heq))
    rw [numGt_self] at hgt
    cases hgt

theorem tupleGt_cons {xs ys : List Value} (h : tupleGt (x :: xs) (y :: ys) = .ok true) :
    eq x y = true ∧ tupleGt xs ys = .ok true ∨ eq x y = false ∧ gt x y = .ok true := by
  simp only [tupleGt] at h
  split at h
  · rename_i heq
    exact .inl ⟨heq, h⟩
  · rename_i hne
    exact .inr ⟨by simpa using hne, h⟩

theorem tupleGt_trans {zs : List Value} (hzs : ∀ z ∈ zs, z.Plain) :
    ∀ {xs ys : List Value}, tupleGt xs ys = .ok true → tupleGt ys zs = .ok true → tupleGt xs zs = .ok true := by
  induction zs with
  | nil =>
    intro xs ys h _
    cases xs with
    | nil => cases h
    | cons => rfl
  | cons z zs ih =>
    intro xs ys h h'
    obtain ⟨hz, hzs⟩ := List.forall_mem_cons.mp hzs
    cases ys with
    | nil => cases h'
    | cons y ys =>
      cases xs with
      | nil => cases h
      | cons x xs =>
        rw [tupleGt]
        rcases tupleGt_cons h with ⟨hxy, hrest⟩ | ⟨-, hxy⟩
        · rcases tupleGt_cons h' with ⟨hyz, hrest'⟩ | ⟨-, hyz⟩
          · rw [if_pos (eq_trans_plain hz hxy hyz)]
            exact ih hzs hrest hrest'
          · obtain ⟨hne, hgt⟩ := gt_trans_plain hz (.inl ⟨hxy, hyz⟩)
            rw [hne, if_neg Bool.false_ne_true, hgt]
        · have hyz : eq y z = true ∨ gt y z = .ok true := (tupleGt_cons h').imp And.left And.right
          obtain ⟨hne, hgt⟩ := gt_trans_plain hz (.inr ⟨hxy, hyz⟩)
          rw [hne, if_neg Bool.false_ne_true, hgt]

end Value

end Lib
