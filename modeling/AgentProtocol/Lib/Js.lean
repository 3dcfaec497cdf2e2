-- SUMMARY: Values of a prototype-based language: own properties, prototypes, assignment through the setter of `__proto__`, and what parsed documents are.
import AgentProtocol.Lib.Doc

/-!
# Objects with prototypes

Data of a language whose objects have own properties and a prototype. `__proto__` is an accessor of the standard
prototype: assigning to it sets the prototype of an object, unless a property of that name comes first. Parsing a
document defines own properties instead, also one named `__proto__`.

Own properties are listed in the order in which they were added.
-/

namespace Lib

mutual

inductive Js where
  | null
  | bool (value : Bool)
  /-- A number; none for one that is not finite. -/
  | num (value : Option ℚ)
  | str (text : Utf16)
  | arr (items : JsItems)
  | obj (proto : Proto) (props : Props)
  deriving DecidableEq

inductive Proto where
  /-- `Object.prototype`. -/
  | standard
  | null
  | of (value : Js)
  deriving DecidableEq

inductive JsItems where
  | nil
  | cons (item : Js) (rest : JsItems)

inductive Props where
  | nil
  | cons (key : Utf16) (value : Js) (rest : Props)

end

namespace JsItems

def toList : JsItems → List Js
  | nil => []
  | cons item rest => item :: rest.toList

end JsItems

/-! ## Own properties -/

namespace Props

def toList : Props → List (Σ _ : Utf16, Js)
  | nil => []
  | cons key value rest => ⟨key, value⟩ :: rest.toList

def ofList (l : List (Σ _ : Utf16, Js)) : Props := l.foldr (fun p => cons p.1 p.2) nil

def get? (props : Props) (key : Utf16) : Option Js := props.toList.dlookup key

/-- `Object.prototype.hasOwnProperty`. -/
def has (props : Props) (key : Utf16) : Bool := (props.get? key).isSome

def set (props : Props) (key : Utf16) (value : Js) : Props :=
  if props.has key then ofList (props.toList.map fun p => if p.1 = key then ⟨key, value⟩ else p)
  else ofList (props.toList ++ [⟨key, value⟩])

variable (l : List (Σ _ : Utf16, Js))

@[simp] theorem toList_ofList : (ofList l).toList = l := by
  induction l with
  | nil => rfl
  | cons p l ih => exact congrArg (p :: ·) ih

@[simp] theorem ofList_toList : ∀ props : Props, ofList props.toList = props
  | nil => rfl
  | cons key value rest => congrArg (cons key value) (ofList_toList rest)

@[simp] theorem get?_ofList (key : Utf16) : (ofList l).get? key = l.dlookup key := by
  rw [get?, toList_ofList]

theorem has_ofList (key : Utf16) : (ofList l).has key = true ↔ key ∈ l.keys := by
  rw [has, get?_ofList, List.dlookup_isSome]

end Props

/-! ## Values by key -/

section Values

variable {K A B : Type}

/-- The same keys with other values. -/
def mapValues (g : A → B) (l : List (Σ _ : K, A)) : List (Σ _ : K, B) := l.map fun p => ⟨p.1, g p.2⟩

variable {g : A → B} {l : List (Σ _ : K, A)}

@[simp] theorem keys_mapValues : (mapValues g l).keys = l.keys := by
  simp [List.keys, mapValues, Function.comp_def]

theorem mapValues_mapValues {C : Type} (g' : B → C) : mapValues g' (mapValues g l) = mapValues (fun a => g' (g a)) l := by
  simp [mapValues, Function.comp_def]

theorem mapValues_congr {g' : A → B} (h : ∀ p ∈ l, g p.2 = g' p.2) : mapValues g l = mapValues g' l :=
  List.map_congr_left fun p hp => by rw [h p hp]

theorem filter_mapValues (keep : K → Bool) : (mapValues g l).filter (fun p => keep p.1) = mapValues g (l.filter fun p => keep p.1) := by
  rw [mapValues, List.filter_map]
  rfl

theorem dlookup_cons_eq_ite [DecidableEq K] (k k' : K) (a : A) (l : List (Σ _ : K, A)) :
    List.dlookup k (⟨k', a⟩ :: l) = if k = k' then some a else l.dlookup k := by
  split
  · rename_i hk
    subst hk
    exact List.dlookup_cons_eq l k a
  · rename_i hk
    exact List.dlookup_cons_ne l (⟨k', a⟩ : Σ _ : K, A) hk

theorem dlookup_mapValues [DecidableEq K] (k : K) : (mapValues g l).dlookup k = (l.dlookup k).map g := by
  induction l with
  | nil => rfl
  | cons p l ih =>
    have hcons : mapValues g (p :: l) = ⟨p.1, g p.2⟩ :: mapValues g l := rfl
    rw [hcons, dlookup_cons_eq_ite, dlookup_cons_eq_ite, ih]
    split <;> rfl

theorem dlookup_filter [DecidableEq K] (keep : K → Bool) {k : K} (hk : keep k = true) :
    (l.filter fun p => keep p.1).dlookup k = l.dlookup k := by
  induction l with
  | nil => rfl
  | cons p l ih =>
    cases hkeep : keep p.1 with
    | true => rw [List.filter_cons_of_pos (by exact hkeep), dlookup_cons_eq_ite, dlookup_cons_eq_ite, ih]
    | false =>
      have hne : k ≠ p.1 := by
        rintro rfl
        exact Bool.noConfusion (hk.symm.trans hkeep)
      rw [List.filter_cons_of_neg (by simp [hkeep]), ih, dlookup_cons_eq_ite, if_neg hne]

end Values

/-! ## Prototypes -/

def protoKey : Utf16 := utf16 "__proto__"

def lengthKey : Utf16 := utf16 "length"

def indexKey (i : ℕ) : Utf16 := utf16 (Nat.repr i)

mutual

/-- Assigning to `__proto__` reaches the accessor of the standard prototype. -/
def Js.inheritsSetter : Js → Bool
  | .arr _ => true
  | .obj proto props => !props.has protoKey && proto.hasSetter
  | _ => false

def Proto.hasSetter : Proto → Bool
  | .standard => true
  | .null => false
  | .of value => value.inheritsSetter

end

/-- What the accessor takes for a prototype; primitive values are ignored. -/
def Js.asProto : Js → Option Proto
  | .null => some .null
  | .arr items => some (.of (.arr items))
  | .obj proto props => some (.of (.obj proto props))
  | _ => none

/-- `out[key] = value`. -/
def assign (out : Proto × Props) (key : Utf16) (value : Js) : Proto × Props :=
  if key = protoKey ∧ out.2.has key = false ∧ out.1.hasSetter = true then (value.asProto.getD out.1, out.2)
  else (out.1, out.2.set key value)

/-- Assignments to an empty object literal, one after the other. -/
def assignAll (l : List (Σ _ : Utf16, Js)) : Proto × Props := l.foldl (fun out p => assign out p.1 p.2) (.standard, .nil)

/-- The prototype that assignments leave. -/
def protoOf (l : List (Σ _ : Utf16, Js)) : Proto := ((l.dlookup protoKey).bind Js.asProto).getD .standard

variable {l : List (Σ _ : Utf16, Js)} {key : Utf16} {value : Js} {proto : Proto}

theorem keys_append (l l' : List (Σ _ : Utf16, Js)) : (l ++ l').keys = l.keys ++ l'.keys := List.map_append

variable {done : List (Σ _ : Utf16, Js)}

theorem assign_of_ne (hkey : key ≠ protoKey) (hnew : key ∉ done.keys) :
    assign (proto, .ofList done) key value = (proto, .ofList (done ++ [⟨key, value⟩])) := by
  have hhas : (Props.ofList done).has key = false := by
    rw [← Bool.not_eq_true, Props.has_ofList]
    exact hnew
  rw [assign, if_neg fun h => hkey h.1, Props.set, hhas, Props.toList_ofList]
  rfl

theorem assignFrom_eq (hproto : protoKey ∉ l.keys) (hnodup : (done ++ l).keys.Nodup) :
    l.foldl (fun out p => assign out p.1 p.2) (proto, .ofList done) = (proto, .ofList (done ++ l)) := by
  induction l generalizing done with
  | nil => simp
  | cons p l ih =>
    obtain ⟨k, v⟩ := p
    rw [List.keys_cons, List.mem_cons, not_or] at hproto
    have hsplit : done ++ ⟨k, v⟩ :: l = (done ++ [⟨k, v⟩]) ++ l := by simp
    have hnew : k ∉ done.keys := by
      rw [keys_append, List.keys_cons, List.nodup_append] at hnodup
      exact fun h => hnodup.2.2 _ h _ (by simp) rfl
    rw [hsplit] at hnodup ⊢
    rw [List.foldl_cons, assign_of_ne (Ne.symm hproto.1) hnew, ih hproto.2 hnodup]

theorem assignAllFrom_eq (hproto : protoKey ∉ done.keys) (hnodup : (done ++ l).keys.Nodup) :
    l.foldl (fun out p => assign out p.1 p.2) (.standard, .ofList done) =
      (protoOf l, .ofList (done ++ l.filter fun p => p.1 ≠ protoKey)) := by
  induction l generalizing done with
  | nil => simp [protoOf]
  | cons p l ih =>
    obtain ⟨k, v⟩ := p
    have happ := hnodup
    rw [keys_append, List.keys_cons, List.nodup_append, List.nodup_cons] at happ
    by_cases hk : protoKey = k
    · -- the setter runs once, and is not reached again
      subst hk
      have hhas : (Props.ofList done).has protoKey = false := by
        rw [← Bool.not_eq_true, Props.has_ofList]
        exact hproto
      have hrest : (done ++ l).keys.Nodup := by
        rw [keys_append, List.nodup_append]
        exact ⟨happ.1, happ.2.1.2, fun a ha b hb => happ.2.2 a ha b (by simp [hb])⟩
      have hkeep : l.filter (fun p => p.1 ≠ protoKey) = l := by
        refine List.filter_eq_self.mpr fun p hp => decide_eq_true ?_
        rintro hkey
        exact happ.2.1.1 (List.mem_map.mpr ⟨p, hp, hkey⟩)
      rw [List.foldl_cons, assign, if_pos ⟨rfl, hhas, rfl⟩, assignFrom_eq happ.2.1.1 hrest, protoOf, List.dlookup_cons_eq,
        List.filter_cons_of_neg (by simp), hkeep]
      rfl
    · have hnew : k ∉ done.keys := fun h => happ.2.2 _ h _ (by simp) rfl
      have hdone : protoKey ∉ (done ++ [⟨k, v⟩] : List (Σ _ : Utf16, Js)).keys := by
        rw [keys_append, List.mem_append, List.keys_cons]
        simpa [hproto] using hk
      have hsplit : done ++ ⟨k, v⟩ :: l = (done ++ [⟨k, v⟩]) ++ l := by simp
      rw [hsplit] at hnodup
      rw [List.foldl_cons, assign_of_ne (Ne.symm hk) hnew, ih hdone hnodup, List.filter_cons_of_pos (by simpa using Ne.symm hk), protoOf,
        protoOf, List.dlookup_cons_ne l ⟨k, v⟩ hk]
      simp

theorem assignAll_eq (hnodup : l.keys.Nodup) : assignAll l = (protoOf l, .ofList (l.filter fun p => p.1 ≠ protoKey)) := by
  have hproto : protoKey ∉ ([] : List (Σ _ : Utf16, Js)).keys := by simp [List.keys]
  exact assignAllFrom_eq hproto hnodup

theorem protoOf_of_notMem (h : protoKey ∉ l.keys) : protoOf l = .standard := by
  rw [protoOf, List.dlookup_eq_none.mpr h]
  rfl

/-! ## Reading -/

mutual

/-- `value.key`; no name that is read is one of the standard prototypes'. None is `undefined`. -/
def Js.get : Js → Utf16 → Option Js
  | .obj proto props, key =>
    match props.get? key with
    | some value => some value
    | none => proto.get key
  | .arr items, key => if key = lengthKey then some (.num (some items.toList.length)) else none
  | .str s, key => if key = lengthKey then some (.num (some s.length)) else none
  | _, _ => none

def Proto.get : Proto → Utf16 → Option Js
  | .of value, key => value.get key
  | _, _ => none

end

mutual

/-- `value[i]`. -/
def Js.at : Js → ℕ → Option Js
  | .obj proto props, i =>
    match props.get? (indexKey i) with
    | some value => some value
    | none => proto.at i
  | .arr items, i => items.toList[i]?
  | .str s, i => s[i]?.map fun c => .str [c]
  | _, _ => none

def Proto.at : Proto → ℕ → Option Js
  | .of value, i => value.at i
  | _, _ => none

end

/-- A property of what may be `undefined`. -/
def Js.field (value : Option Js) (key : Utf16) : Option Js := value.bind fun value => value.get key

inductive Access where
  | field (key : Utf16)
  | index (i : ℕ)

def Js.access (value : Js) : Access → Option Js
  | .field key => value.get key
  | .index i => value.at i

/-- What several accesses give, one after the other. -/
def Js.read : Js → List Access → Option Js
  | value, [] => some value
  | value, a :: path => (value.access a).bind fun value => value.read path

/-- Neither `undefined` nor one of the values that count as false. -/
def Js.truthy : Option Js → Bool
  | none => false
  | some .null => false
  | some (.bool b) => b
  | some (.num q) => q ≠ some 0
  | some (.str s) => s ≠ []
  | some _ => true

/-- `===` of values that are no objects; different objects are never the same. -/
def Js.same : Option Js → Option Js → Bool
  | some (.arr _), _ => false
  | some (.obj ..), _ => false
  | v, w => v = w

/-! ## Parsed documents -/

section Parsed

-- the number that a literal is read as
variable (double : ℚ → Option ℚ)

mutual

/-- `JSON.parse`: every member becomes an own property. -/
def Js.ofDoc : Doc → Js
  | .null => .null
  | .bool b => .bool b
  | .int n => .num (double n)
  | .dec q => .num (double q)
  | .str s => .str s
  | .arr items => .arr (JsItems.ofDocs items)
  | .obj f => .obj .standard (Props.ofMembers f)

def JsItems.ofDocs : Docs → JsItems
  | .nil => .nil
  | .cons item rest => .cons (Js.ofDoc item) (JsItems.ofDocs rest)

def Props.ofMembers : Members → Props
  | .nil => .nil
  | .cons key value rest => .cons key (Js.ofDoc value) (Props.ofMembers rest)

end

variable {double}

theorem Props.toList_ofMembers (f : Members) : (ofMembers double f).toList = mapValues (Js.ofDoc double) f.toList := by
  cases f with
  | nil => rfl
  | cons key value rest =>
    rw [ofMembers, toList, toList_ofMembers rest]
    rfl

end Parsed

end Lib
