-- SUMMARY: JSON documents with UTF-16 texts: objects as maps, sorted documents, and their canonical text.
import AgentProtocol.Lib.Utf16
import AgentProtocol.Lib.Value

/-!
# Documents

Parsed JSON as a language with 16-bit characters holds it. A number that is written with a fraction or an
exponent is kept apart from an integer. Keys are ordered by code units.
-/

namespace Lib

mutual

inductive Doc where
  | null
  | bool (value : Bool)
  | int (value : ℤ)
  /-- A number with a fraction or an exponent. -/
  | dec (value : ℚ)
  | str (text : Utf16)
  | arr (items : Docs)
  | obj (members : Members)

inductive Docs where
  | nil
  | cons (item : Doc) (rest : Docs)

inductive Members where
  | nil
  | cons (key : Utf16) (value : Doc) (rest : Members)

end

namespace Docs

def toList : Docs → List Doc
  | nil => []
  | cons item rest => item :: rest.toList

def ofList (l : List Doc) : Docs := l.foldr cons nil

end Docs

/-! ## Objects as maps -/

namespace Members

/-- The members as pairs of a key and what it has. -/
def toList : Members → List (Σ _ : Utf16, Doc)
  | nil => []
  | cons key value rest => ⟨key, value⟩ :: rest.toList

def ofList (l : List (Σ _ : Utf16, Doc)) : Members := l.foldr (fun p => cons p.1 p.2) nil

def keys (f : Members) : List Utf16 := f.toList.keys

def sort (f : Members) : Members := ofList (f.toList.insertionSort fun p q => p.1 ≤ q.1)

@[simp] theorem toList_ofList (l : List (Σ _ : Utf16, Doc)) : (ofList l).toList = l := by
  induction l with
  | nil => rfl
  | cons p l ih => exact congrArg (p :: ·) ih

theorem sort_perm (f : Members) : f.sort.toList.Perm f.toList := by
  rw [sort, toList_ofList]
  exact List.perm_insertionSort _ _

end Members

namespace Doc

/-- An object of some members. -/
def object (l : List (Σ _ : Utf16, Doc)) : Doc := .obj (.ofList l)

def list (l : List Doc) : Doc := .arr (.ofList l)

/-! ## Sorted documents -/

mutual

/-- Every object has its keys once. -/
def distinct : Doc → Bool
  | .arr items => distinctDocs items
  | .obj f => f.keys.Nodup && distinctMembers f
  | _ => true

def distinctDocs : Docs → Bool
  | .nil => true
  | .cons item rest => distinct item && distinctDocs rest

def distinctMembers : Members → Bool
  | .nil => true
  | .cons _ value rest => distinct value && distinctMembers rest

end

theorem distinctMembers_iff : ∀ {f : Members}, distinctMembers f = true ↔ ∀ p ∈ f.toList, distinct p.2 = true
  | .nil => by simp [distinctMembers, Members.toList]
  | .cons key value rest => by
    rw [distinctMembers, Bool.and_eq_true, distinctMembers_iff, Members.toList, List.forall_mem_cons]

/-! ## The canonical text -/

def hexUnit (n : ℕ) : CodeUnit := if n < 10 then Fin.ofNat _ (n + 48) else Fin.ofNat _ (n + 87)

/-- A code unit within a quoted text; only what JSON demands is escaped. -/
def escape (c : CodeUnit) : Utf16 :=
  if c = 34 then [92, 34]
  else if c = 92 then [92, 92]
  else if c = 8 then [92, 98]
  else if c = 12 then [92, 102]
  else if c = 10 then [92, 110]
  else if c = 13 then [92, 114]
  else if c = 9 then [92, 116]
  else if c.val < 32 then [92, 117, 48, 48, hexUnit (c.val / 16), hexUnit (c.val % 16)]
  else [c]

def quoteUnits (s : Utf16) : Utf16 := 34 :: (s.flatMap escape ++ [34])

mutual

/-- The text of a document, without blanks; a number that is no integer is a fraction. -/
def units : Doc → Utf16
  | .null => utf16 "null"
  | .bool true => utf16 "true"
  | .bool false => utf16 "false"
  | .int n => utf16 (Int.repr n)
  | .dec q => utf16 (Value.fractionText (.finite q))
  | .str s => quoteUnits s
  | .arr .nil => [91, 93]
  | .arr (.cons item rest) => 91 :: (units item ++ moreDocs rest)
  | .obj .nil => [123, 125]
  | .obj (.cons key value rest) => 123 :: (quoteUnits key ++ 58 :: (units value ++ moreMembers rest))

def moreDocs : Docs → Utf16
  | .nil => [93]
  | .cons item rest => 44 :: (units item ++ moreDocs rest)

def moreMembers : Members → Utf16
  | .nil => [125]
  | .cons key value rest => 44 :: (quoteUnits key ++ 58 :: (units value ++ moreMembers rest))

end

/-! ### The text determines the document -/

/-- A character for every code unit: surrogates and what is above them are moved. -/
def pack (c : CodeUnit) : Char := Char.ofNat (if c.val < 0xD800 then c.val else c.val + 0x2000)

theorem toNat_pack (c : CodeUnit) : (pack c).toNat = if c.val < 0xD800 then c.val else c.val + 0x2000 := by
  have hc := c.isLt
  have hvalid : (if c.val < 0xD800 then c.val else c.val + 0x2000).isValidChar := by
    split
    · exact .inl ‹_›
    · exact .inr ⟨by omega, by omega⟩
  rw [pack, Char.ofNat, dif_pos hvalid]
  rfl

theorem pack_injective : Function.Injective pack := by
  intro c d h
  have hnat := congrArg Char.toNat h
  rw [toNat_pack, toNat_pack] at hnat
  apply Fin.ext
  split at hnat <;> split at hnat <;> omega

theorem pack_of_lt {c : CodeUnit} (h : c.val < 0xD800) : pack c = Char.ofNat c.val := by
  rw [pack, if_pos h]

def packText (s : Utf16) : String := String.ofList (s.map pack)

theorem packText_injective : Function.Injective packText := by
  intro s t h
  exact pack_injective.list_map (String.ofList_inj.mp h)

mutual

def toValue : Doc → Value
  | .null => .null
  | .bool b => .bool b
  | .int n => .int n
  | .dec q => .float (.finite q)
  | .str s => .str (packText s)
  | .arr items => .arr (toItems items)
  | .obj f => .obj (toFields f)

def toItems : Docs → Items
  | .nil => .nil
  | .cons item rest => .cons (toValue item) (toItems rest)

def toFields : Members → Fields
  | .nil => .nil
  | .cons key value rest => .cons (packText key) (toValue value) (toFields rest)

end

mutual

theorem toValue_injective : ∀ {d e : Doc}, toValue d = toValue e → d = e
  | .null, e, h => by cases e <;> simp [toValue] at h ⊢
  | .bool _, e, h => by cases e <;> simp [toValue] at h ⊢; exact h
  | .int _, e, h => by cases e <;> simp [toValue] at h ⊢; exact h
  | .dec _, e, h => by cases e <;> simp [toValue] at h ⊢; exact h
  | .str _, e, h => by
    cases e <;> simp [toValue] at h ⊢
    exact packText_injective h
  | .arr _, e, h => by
    cases e <;> simp [toValue] at h ⊢
    exact toItems_injective h
  | .obj _, e, h => by
    cases e <;> simp [toValue] at h ⊢
    exact toFields_injective h

theorem toItems_injective : ∀ {xs ys : Docs}, toItems xs = toItems ys → xs = ys
  | .nil, ys, h => by cases ys <;> simp [toItems] at h ⊢
  | .cons x xs, ys, h => by
    cases ys with
    | nil => simp [toItems] at h
    | cons y ys =>
      obtain ⟨hhead, htail⟩ := Items.cons.inj h
      rw [toValue_injective hhead, toItems_injective htail]

theorem toFields_injective : ∀ {f g : Members}, toFields f = toFields g → f = g
  | .nil, g, h => by cases g <;> simp [toFields] at h ⊢
  | .cons key value f, g, h => by
    cases g with
    | nil => simp [toFields] at h
    | cons key' value' g =>
      obtain ⟨hkey, hvalue, htail⟩ := Fields.cons.inj h
      rw [packText_injective hkey, toValue_injective hvalue, toFields_injective htail]

end

theorem map_pack_utf16 {s : String} (h : ∀ c ∈ s.toList, c.toNat < 0xD800) : (utf16 s).map pack = s.toList := by
  unfold utf16
  revert h
  induction s.toList with
  | nil => exact fun _ => rfl
  | cons c l ih =>
    intro h
    obtain ⟨hc, hl⟩ := List.forall_mem_cons.mp h
    have hunits : unitsOf c.toNat = [Fin.ofNat _ c.toNat] := if_pos (by omega)
    have hval : (Fin.ofNat 0x10000 c.toNat).val = c.toNat := Nat.mod_eq_of_lt (by omega)
    rw [List.flatMap_cons, hunits, List.map_append, ih hl, List.map_cons, List.map_nil, pack_of_lt (by omega), hval, Char.ofNat_toNat]
    rfl

theorem repr_lt (n : ℤ) : ∀ c ∈ (Int.repr n).toList, c.toNat < 0xD800 := by
  intro c hc
  by_contra hge
  have hdigit : c.isDigit = false := by
    simp only [Char.isDigit, Bool.and_eq_false_iff, decide_eq_false_iff_not]
    refine .inr fun hle => hge ?_
    have hnat : c.toNat ≤ 57 := hle
    omega
  refine notMem_toList_repr hdigit ?_ n hc
  rintro rfl
  exact hge (by decide)

theorem fractionText_lt (q : ℚ) : ∀ c ∈ (Value.fractionText (.finite q)).toList, c.toNat < 0xD800 := by
  intro c hc
  simp only [Value.fractionText, String.toList_append, List.mem_append] at hc
  rcases hc with (hc | hc) | hc
  · exact repr_lt q.num c hc
  · have hslash : c = '/' := by simpa using hc
    rw [hslash]
    decide
  · exact repr_lt q.den c hc

theorem map_pack_escape (c : CodeUnit) : (escape c).map pack = Json.escape (pack c) := by
  by_cases hlow : c.val < 128
  · -- the escapes are ASCII, so that there are few to look at
    have hall : ∀ n < 128, (escape (Fin.ofNat _ n)).map pack = Json.escape (pack (Fin.ofNat _ n)) := by decide +kernel
    have hval : Fin.ofNat 0x10000 c.val = c := Fin.ext (Nat.mod_eq_of_lt c.isLt)
    rw [← hval]
    exact hall c.val hlow
  · have hne : ∀ d : CodeUnit, d.val < 128 → c ≠ d := by
      rintro d hd rfl
      exact hlow hd
    have hself : escape c = [c] := by
      unfold escape
      rw [if_neg (hne 34 (by decide)), if_neg (hne 92 (by decide)), if_neg (hne 8 (by decide)), if_neg (hne 12 (by decide)),
        if_neg (hne 10 (by decide)), if_neg (hne 13 (by decide)), if_neg (hne 9 (by decide)), if_neg (by omega)]
    have hnat : 128 ≤ (pack c).toNat := by
      rw [toNat_pack]
      split <;> omega
    have hjson : Json.escape (pack c) = [pack c] := by
      rcases Value.escape_cases (pack c) with ⟨e, he, -⟩ | ⟨hlt, -⟩ | ⟨h, -⟩
      · have hshort : ∀ p ∈ Value.shortEscapes, p.1.toNat < 128 := by decide
        exact absurd (hshort _ he) (not_lt.mpr hnat)
      · omega
      · exact h
    rw [hself, hjson]
    rfl

theorem map_pack_quoteUnits (s : Utf16) : (quoteUnits s).map pack = Value.quoteChars (packText s) := by
  have hchars : ∀ s : Utf16, (s.flatMap escape).map pack = (s.map pack).flatMap Json.escape := by
    intro s
    induction s with
    | nil => rfl
    | cons c s ih => rw [List.flatMap_cons, List.map_append, map_pack_escape, ih, List.map_cons, List.flatMap_cons]
  have hquote : pack 34 = '"' := by decide
  rw [quoteUnits, List.map_cons, List.map_append, hchars, hquote, List.map_cons, hquote, Value.quoteChars, packText, String.toList_ofList]
  rfl

mutual

theorem map_pack_units : ∀ d : Doc, (units d).map pack = Value.chars Value.fractionText (toValue d)
  | .null => by decide
  | .bool true => by decide
  | .bool false => by decide
  | .int n => map_pack_utf16 (repr_lt n)
  | .dec q => map_pack_utf16 (fractionText_lt q)
  | .str s => map_pack_quoteUnits s
  | .arr .nil => by decide
  | .arr (.cons item rest) => by
    rw [units, List.map_cons, List.map_append, map_pack_units item, map_pack_moreDocs rest]
    rfl
  | .obj .nil => by decide
  | .obj (.cons key value rest) => by
    rw [units, List.map_cons, List.map_append, List.map_cons, List.map_append, map_pack_quoteUnits, map_pack_units value, map_pack_moreMembers rest]
    rfl

theorem map_pack_moreDocs : ∀ xs : Docs, (moreDocs xs).map pack = Value.moreItems Value.fractionText (toItems xs)
  | .nil => by decide
  | .cons item rest => by
    rw [moreDocs, List.map_cons, List.map_append, map_pack_units item, map_pack_moreDocs rest]
    rfl

theorem map_pack_moreMembers : ∀ f : Members, (moreMembers f).map pack = Value.moreFields Value.fractionText (toFields f)
  | .nil => by decide
  | .cons key value rest => by
    rw [moreMembers, List.map_cons, List.map_append, List.map_cons, List.map_append, map_pack_quoteUnits, map_pack_units value,
      map_pack_moreMembers rest]
    rfl

end

theorem units_injective : Function.Injective units := by
  intro d e h
  apply toValue_injective
  have hchars := congrArg (·.map pack) h
  simp only [map_pack_units] at hchars
  exact (Value.chars_append_inj Value.floatText_fractionText Value.delimited_nil Value.delimited_nil (congrArg (· ++ []) hchars)).1

/-! ### Documents with well-formed texts -/

/-! ## Normal documents -/

section Normal

variable (num : ℚ → Option ℤ)

mutual

/-- A sorted document whose numbers are integers, if every number is read as one. -/
def normal : Doc → Option Doc
  | .int n => (num n).map .int
  | .dec q => (num q).map .int
  | .arr items => (normalDocs items).map .arr
  | .obj f => (normalMembers f).map fun f => .obj f.sort
  | d => some d

def normalDocs : Docs → Option Docs
  | .nil => some .nil
  | .cons item rest => (normal item).bind fun item => (normalDocs rest).map fun rest => .cons item rest

def normalMembers : Members → Option Members
  | .nil => some .nil
  | .cons key value rest => (normal value).bind fun value => (normalMembers rest).map fun rest => .cons key value rest

end

end Normal

end Doc

end Lib
