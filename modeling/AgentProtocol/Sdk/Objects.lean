-- SUMMARY: Signable bytes and deep copies of objects with prototypes, and what they are for a parsed document.
import AgentProtocol.Lib.Js
import AgentProtocol.Sdk.Canonical

/-!
# Signing and copying objects

The ArkTS SDK strips the outermost `sign` and copies an intent by assigning property after property. What is read of a
parsed intent is its document; what is read of the copy is a document without the members named `__proto__`.
-/

namespace AgentProtocol.Sdk.ArkTs

open Lib

namespace Objects

/-! ## The utilities -/

/-- The members of an object, by key. -/
def pairsText (pairs : List (Σ _ : Utf16, Utf16)) : Utf16 :=
  joined 123 125 ((pairs.insertionSort fun p q => p.1 ≤ q.1).map fun p => escapeJsonString p.1 ++ 58 :: p.2)

mutual

/-- `canonicalStringify`; an object has to be a plain one. -/
def canonicalStringify : Js → Option Utf16
  | .null => some (utf16 "null")
  | .bool b => some (utf16 (if b then "true" else "false"))
  | .num q => (q.bind Java.safeInteger).map fun n => utf16 (Int.repr n)
  | .str s => some (escapeJsonString s)
  | .arr items => (stringifyItems items).map (joined 91 93)
  | .obj proto props => if proto = .standard ∨ proto = .null then (stringifyProps props).map pairsText else none

def stringifyItems : JsItems → Option (List Utf16)
  | .nil => some []
  | .cons item rest => (canonicalStringify item).bind fun text => (stringifyItems rest).map (text :: ·)

def stringifyProps : Props → Option (List (Σ _ : Utf16, Utf16))
  | .nil => some []
  | .cons key value rest => (canonicalStringify value).bind fun text => (stringifyProps rest).map (⟨key, text⟩ :: ·)

end

/-- An object literal, after assignments. -/
def literal (out : Proto × Props) : Js := .obj out.1 out.2

def stripTopLevelSign : Js → Js
  | .obj proto props =>
    if props.has signKey then literal (assignAll (props.toList.filter fun p => p.1 ≠ signKey)) else .obj proto props
  | v => v

def toSignableBytes (v : Js) : Option (List ℕ) := (canonicalStringify (stripTopLevelSign v)).bind encodeUtf8

mutual

/-- `deepClone`; each value is copied before it is assigned. -/
def deepClone : Js → Js
  | .arr items => .arr (cloneItems items)
  | .obj _ props => literal (assignAll (cloneProps props).toList)
  | v => v

def cloneItems : JsItems → JsItems
  | .nil => .nil
  | .cons item rest => .cons (deepClone item) (cloneItems rest)

def cloneProps : Props → Props
  | .nil => .nil
  | .cons key value rest => .cons key (deepClone value) (cloneProps rest)

end

/-- `deepFreeze`: no value changes. -/
def deepFreeze (v : Js) : Js := v

end Objects

/-! ## Documents with `__proto__` -/

mutual

/-- A member named `__proto__` anywhere. -/
def hasProto : Doc → Bool
  | .arr items => hasProtoDocs items
  | .obj f => hasProtoMembers f
  | _ => false

def hasProtoDocs : Docs → Bool
  | .nil => false
  | .cons item rest => hasProto item || hasProtoDocs rest

def hasProtoMembers : Members → Bool
  | .nil => false
  | .cons key value rest => key = protoKey || hasProto value || hasProtoMembers rest

end

mutual

/-- Without the members named `__proto__`. -/
def dropProto : Doc → Doc
  | .arr items => .arr (dropProtoDocs items)
  | .obj f => .obj (dropProtoMembers f)
  | d => d

def dropProtoDocs : Docs → Docs
  | .nil => .nil
  | .cons item rest => .cons (dropProto item) (dropProtoDocs rest)

def dropProtoMembers : Members → Members
  | .nil => .nil
  | .cons key value rest => if key = protoKey then dropProtoMembers rest else .cons key (dropProto value) (dropProtoMembers rest)

end

theorem hasProtoMembers_iff (f : Members) : hasProtoMembers f = true ↔ ∃ p ∈ f.toList, p.1 = protoKey ∨ hasProto p.2 = true := by
  cases f with
  | nil => simp [hasProtoMembers, Members.toList]
  | cons key value rest =>
    rw [hasProtoMembers, Bool.or_eq_true, Bool.or_eq_true, hasProtoMembers_iff rest, Members.toList, List.exists_mem_cons_iff, decide_eq_true_eq]

theorem toList_dropProtoMembers (f : Members) :
    (dropProtoMembers f).toList = mapValues dropProto (f.toList.filter fun p => p.1 ≠ protoKey) := by
  cases f with
  | nil => rfl
  | cons key value rest =>
    rw [dropProtoMembers, Members.toList]
    split
    · rename_i hkey
      rw [toList_dropProtoMembers rest, List.filter_cons_of_neg (by simpa using hkey)]
    · rename_i hkey
      rw [Members.toList, toList_dropProtoMembers rest, List.filter_cons_of_pos (by simpa using hkey)]
      rfl

mutual

theorem hasProto_dropProto : ∀ d : Doc, hasProto (dropProto d) = false
  | .arr items => hasProtoDocs_dropProto items
  | .obj f => hasProtoMembers_dropProto f
  | .null => rfl
  | .bool _ => rfl
  | .int _ => rfl
  | .dec _ => rfl
  | .str _ => rfl

theorem hasProtoDocs_dropProto : ∀ items : Docs, hasProtoDocs (dropProtoDocs items) = false
  | .nil => rfl
  | .cons item rest => by
    rw [dropProtoDocs, hasProtoDocs, hasProto_dropProto item, hasProtoDocs_dropProto rest]
    rfl

theorem hasProtoMembers_dropProto : ∀ f : Members, hasProtoMembers (dropProtoMembers f) = false
  | .nil => rfl
  | .cons key value rest => by
    rw [dropProtoMembers]
    split
    · exact hasProtoMembers_dropProto rest
    · rename_i hkey
      rw [hasProtoMembers, hasProto_dropProto value, hasProtoMembers_dropProto rest, decide_eq_false hkey]
      rfl

end

section Normal

variable {num : ℚ → Option ℤ}

mutual

theorem hasProto_normal : ∀ {d n : Doc}, Doc.normal num d = some n → hasProto n = hasProto d
  | .null, n, h => by rw [← Option.some.inj h]
  | .bool _, n, h => by rw [← Option.some.inj h]
  | .str _, n, h => by rw [← Option.some.inj h]
  | .int _, n, h => by
    obtain ⟨k, -, rfl⟩ := Option.map_eq_some_iff.mp h
    rfl
  | .dec _, n, h => by
    obtain ⟨k, -, rfl⟩ := Option.map_eq_some_iff.mp h
    rfl
  | .arr items, n, h => by
    obtain ⟨items', hitems, rfl⟩ := Option.map_eq_some_iff.mp h
    exact hasProtoDocs_normal hitems
  | .obj f, n, h => by
    obtain ⟨f', hf, rfl⟩ := Option.map_eq_some_iff.mp h
    -- sorting keeps the members
    have hsort : hasProtoMembers f'.sort = hasProtoMembers f' := by
      rw [Bool.eq_iff_iff, hasProtoMembers_iff, hasProtoMembers_iff]
      simp only [(Members.sort_perm f').mem_iff]
    exact hsort.trans (hasProtoMembers_normal hf)

theorem hasProtoDocs_normal : ∀ {items items' : Docs}, Doc.normalDocs num items = some items' → hasProtoDocs items' = hasProtoDocs items
  | .nil, items', h => by rw [← Option.some.inj h]
  | .cons item rest, items', h => by
    obtain ⟨item', hitem, hmap⟩ := Option.bind_eq_some_iff.mp h
    obtain ⟨rest', hrest, rfl⟩ := Option.map_eq_some_iff.mp hmap
    rw [hasProtoDocs, hasProto_normal hitem, hasProtoDocs_normal hrest]
    rfl

theorem hasProtoMembers_normal : ∀ {f f' : Members}, Doc.normalMembers num f = some f' → hasProtoMembers f' = hasProtoMembers f
  | .nil, f', h => by rw [← Option.some.inj h]
  | .cons key value rest, f', h => by
    obtain ⟨value', hvalue, hmap⟩ := Option.bind_eq_some_iff.mp h
    obtain ⟨rest', hrest, rfl⟩ := Option.map_eq_some_iff.mp hmap
    rw [hasProtoMembers, hasProto_normal hvalue, hasProtoMembers_normal hrest]
    rfl

end

end Normal

theorem stringify_ne_dropProto {D : Doubles} {d e : Doc} {text : Utf16} (hd : canonicalStringify D d = some text)
    (he : canonicalStringify D (dropProto e) = some text) : hasProto d = false := by
  rw [canonicalStringify_eq] at hd he
  obtain ⟨n, hn, hnt⟩ := Option.map_eq_some_iff.mp hd
  obtain ⟨m, hm, hmt⟩ := Option.map_eq_some_iff.mp he
  obtain rfl : n = m := Doc.units_injective (hnt.trans hmt.symm)
  rw [← hasProto_normal hn, hasProto_normal hm, hasProto_dropProto]

namespace Objects

/-! ## The text of an object -/

/-- The texts of the values, if all of them have one. -/
def stringifyAll {A : Type} (text : A → Option Utf16) : List (Σ _ : Utf16, A) → Option (List (Σ _ : Utf16, Utf16))
  | [] => some []
  | p :: l => (text p.2).bind fun t => (stringifyAll text l).map (⟨p.1, t⟩ :: ·)

section StringifyAll

variable {A B : Type} {text text' : A → Option Utf16} {l : List (Σ _ : Utf16, A)}

theorem stringifyAll_mapValues (g : B → A) (l : List (Σ _ : Utf16, B)) :
    stringifyAll text (mapValues g l) = stringifyAll (fun b => text (g b)) l := by
  induction l with
  | nil => rfl
  | cons p l ih =>
    have hcons : mapValues g (p :: l) = ⟨p.1, g p.2⟩ :: mapValues g l := rfl
    rw [hcons, stringifyAll, stringifyAll, ih]

theorem stringifyAll_imp (h : ∀ p ∈ l, ∀ t, text p.2 = some t → text' p.2 = some t) {pairs : List (Σ _ : Utf16, Utf16)}
    (hl : stringifyAll text l = some pairs) : stringifyAll text' l = some pairs := by
  induction l generalizing pairs with
  | nil => exact hl
  | cons p l ih =>
    obtain ⟨t, ht, hmap⟩ := Option.bind_eq_some_iff.mp hl
    obtain ⟨rest, hrest, rfl⟩ := Option.map_eq_some_iff.mp hmap
    rw [stringifyAll, h p (by simp) t ht, ih (fun q hq => h q (by simp [hq])) hrest]
    rfl

end StringifyAll

theorem stringifyProps_eq : ∀ props : Props, stringifyProps props = stringifyAll canonicalStringify props.toList
  | .nil => rfl
  | .cons key value rest => by rw [stringifyProps, stringifyProps_eq rest, Props.toList, stringifyAll]

variable {D : Doubles}

theorem stringifyMembers_eq : ∀ f : Members, ArkTs.stringifyMembers D f = stringifyAll (ArkTs.canonicalStringify D) f.toList
  | .nil => rfl
  | .cons key value rest => by rw [ArkTs.stringifyMembers, stringifyMembers_eq rest, Members.toList, stringifyAll]

theorem canonicalStringify_obj (f : Members) :
    ArkTs.canonicalStringify D (.obj f) = (stringifyAll (ArkTs.canonicalStringify D) f.toList).map pairsText := by
  rw [ArkTs.canonicalStringify, stringifyMembers_eq]
  rfl

theorem canonicalStringify_literal (proto : Proto) (l : List (Σ _ : Utf16, Js)) :
    canonicalStringify (literal (proto, .ofList l)) =
      if proto = .standard ∨ proto = .null then (stringifyAll canonicalStringify l).map pairsText else none := by
  rw [literal, canonicalStringify, stringifyProps_eq, Props.toList_ofList]

mutual

theorem canonicalStringify_ofDoc : ∀ d : Doc, canonicalStringify (Js.ofDoc D.double d) = ArkTs.canonicalStringify D d
  | .null => rfl
  | .bool _ => rfl
  | .int _ => rfl
  | .dec _ => rfl
  | .str _ => rfl
  | .arr items => by rw [Js.ofDoc, canonicalStringify, stringifyItems_ofDocs items, ArkTs.canonicalStringify]
  | .obj f => by
    rw [Js.ofDoc, canonicalStringify, if_pos (.inl rfl), stringifyProps_ofMembers f, ArkTs.canonicalStringify]
    rfl

theorem stringifyItems_ofDocs : ∀ items : Docs, stringifyItems (JsItems.ofDocs D.double items) = ArkTs.stringifyDocs D items
  | .nil => rfl
  | .cons item rest => by
    rw [JsItems.ofDocs, stringifyItems, canonicalStringify_ofDoc item, stringifyItems_ofDocs rest, ArkTs.stringifyDocs]

theorem stringifyProps_ofMembers : ∀ f : Members, stringifyProps (Props.ofMembers D.double f) = ArkTs.stringifyMembers D f
  | .nil => rfl
  | .cons key value rest => by
    rw [Props.ofMembers, stringifyProps, canonicalStringify_ofDoc value, stringifyProps_ofMembers rest, ArkTs.stringifyMembers]

end

/-! ## The copy of a parsed document -/

theorem toList_cloneProps : ∀ props : Props, (cloneProps props).toList = mapValues deepClone props.toList
  | .nil => rfl
  | .cons key value rest => by
    rw [cloneProps, Props.toList, toList_cloneProps rest]
    rfl

/-- The values of a parsed object, copied. -/
def cloned (D : Doubles) (d : Doc) : Js := deepClone (Js.ofDoc D.double d)

theorem cloned_obj {f : Members} (hf : f.keys.Nodup) : cloned D (.obj f) =
    literal (protoOf (mapValues (cloned D) f.toList), .ofList (mapValues (cloned D) (f.toList.filter fun p => p.1 ≠ protoKey))) := by
  have hvalues : (cloneProps (Props.ofMembers D.double f)).toList = mapValues (cloned D) f.toList := by
    rw [toList_cloneProps, Props.toList_ofMembers, mapValues_mapValues]
    rfl
  have hnodup : (mapValues (cloned D) f.toList).keys.Nodup := by rwa [keys_mapValues]
  rw [cloned, Js.ofDoc, deepClone, hvalues, assignAll_eq hnodup, filter_mapValues fun k => k ≠ protoKey]

mutual

theorem cloned_of_not_hasProto : ∀ {d : Doc}, d.distinct = true → hasProto d = false → cloned D d = Js.ofDoc D.double d
  | .null, _, _ => rfl
  | .bool _, _, _ => rfl
  | .int _, _, _ => rfl
  | .dec _, _, _ => rfl
  | .str _, _, _ => rfl
  | .arr items, hd, hproto => congrArg Js.arr (cloneItems_of_not_hasProto hd hproto)
  | .obj f, hd, hproto => by
    rw [Doc.distinct, Bool.and_eq_true, decide_eq_true_eq] at hd
    have hvalues := clonedMembers_of_not_hasProto hd.2 hproto
    have hkeys : ∀ p ∈ f.toList, p.1 ≠ protoKey := fun p hp hkey =>
      Bool.noConfusion (hproto.symm.trans ((hasProtoMembers_iff f).mpr ⟨p, hp, .inl hkey⟩))
    have hkeep : f.toList.filter (fun p => p.1 ≠ protoKey) = f.toList :=
      List.filter_eq_self.mpr fun p hp => decide_eq_true (hkeys p hp)
    have hnot : protoKey ∉ (mapValues (cloned D) f.toList).keys := by
      rw [keys_mapValues]
      intro hmem
      obtain ⟨p, hp, hkey⟩ := List.mem_map.mp hmem
      exact hkeys p hp hkey
    rw [cloned_obj hd.1, hkeep, protoOf_of_notMem hnot, mapValues_congr hvalues, ← Props.toList_ofMembers, Props.ofList_toList]
    rfl

theorem cloneItems_of_not_hasProto : ∀ {items : Docs}, Doc.distinctDocs items = true → hasProtoDocs items = false →
    cloneItems (JsItems.ofDocs D.double items) = JsItems.ofDocs D.double items
  | .nil, _, _ => rfl
  | .cons item rest, hd, hproto => by
    rw [Doc.distinctDocs, Bool.and_eq_true] at hd
    rw [hasProtoDocs, Bool.or_eq_false_iff] at hproto
    have hitem : deepClone (Js.ofDoc D.double item) = Js.ofDoc D.double item := cloned_of_not_hasProto hd.1 hproto.1
    rw [JsItems.ofDocs, cloneItems, hitem, cloneItems_of_not_hasProto hd.2 hproto.2]

theorem clonedMembers_of_not_hasProto : ∀ {f : Members}, Doc.distinctMembers f = true → hasProtoMembers f = false →
    ∀ p ∈ f.toList, cloned D p.2 = Js.ofDoc D.double p.2
  | .nil, _, _ => by simp [Members.toList]
  | .cons key value rest, hd, hproto => by
    rw [Doc.distinctMembers, Bool.and_eq_true] at hd
    rw [hasProtoMembers, Bool.or_eq_false_iff, Bool.or_eq_false_iff] at hproto
    rw [Members.toList, List.forall_mem_cons]
    exact ⟨cloned_of_not_hasProto hd.1 hproto.1.2, clonedMembers_of_not_hasProto hd.2 hproto.2⟩

end

mutual

theorem canonicalStringify_cloned : ∀ {d : Doc} {text : Utf16}, d.distinct = true → canonicalStringify (cloned D d) = some text →
    ArkTs.canonicalStringify D (dropProto d) = some text
  | .null, _, _, h => h
  | .bool _, _, _, h => h
  | .int _, _, _, h => h
  | .dec _, _, _, h => h
  | .str _, _, _, h => h
  | .arr items, text, hd, h => by
    obtain ⟨parts, hparts, rfl⟩ := Option.map_eq_some_iff.mp h
    rw [dropProto, ArkTs.canonicalStringify, stringifyItems_cloned hd hparts]
    rfl
  | .obj f, text, hd, h => by
    rw [Doc.distinct, Bool.and_eq_true, decide_eq_true_eq] at hd
    rw [cloned_obj hd.1, canonicalStringify_literal, stringifyAll_mapValues] at h
    obtain ⟨-, h⟩ := Option.ite_none_right_eq_some.mp h
    obtain ⟨pairs, hpairs, rfl⟩ := Option.map_eq_some_iff.mp h
    have hall := stringifyMembers_cloned hd.2
    rw [dropProto, canonicalStringify_obj, toList_dropProtoMembers, stringifyAll_mapValues,
      stringifyAll_imp (fun p hp t ht => hall p (List.mem_of_mem_filter hp) t ht) hpairs]
    rfl

theorem stringifyItems_cloned : ∀ {items : Docs} {parts : List Utf16}, Doc.distinctDocs items = true →
    stringifyItems (cloneItems (JsItems.ofDocs D.double items)) = some parts → ArkTs.stringifyDocs D (dropProtoDocs items) = some parts
  | .nil, _, _, h => h
  | .cons item rest, parts, hd, h => by
    rw [Doc.distinctDocs, Bool.and_eq_true] at hd
    obtain ⟨text, htext, hmap⟩ := Option.bind_eq_some_iff.mp h
    obtain ⟨parts', hparts, rfl⟩ := Option.map_eq_some_iff.mp hmap
    rw [dropProtoDocs, ArkTs.stringifyDocs, canonicalStringify_cloned hd.1 htext, stringifyItems_cloned hd.2 hparts]
    rfl

theorem stringifyMembers_cloned : ∀ {f : Members}, Doc.distinctMembers f = true → ∀ p ∈ f.toList, ∀ t,
    canonicalStringify (cloned D p.2) = some t → ArkTs.canonicalStringify D (dropProto p.2) = some t
  | .nil, _ => by simp [Members.toList]
  | .cons key value rest, hd => by
    rw [Doc.distinctMembers, Bool.and_eq_true] at hd
    rw [Members.toList, List.forall_mem_cons]
    exact ⟨fun t ht => canonicalStringify_cloned hd.1 ht, stringifyMembers_cloned hd.2⟩

end

/-! ## The signable bytes of a copy -/

/-- A member named `__proto__` below the top of an intent, apart from its `sign`. -/
def nestedProto : Doc → Bool
  | .obj f => f.toList.any fun p => p.1 ≠ signKey && hasProto p.2
  | _ => false

theorem nestedProto_eq_false {f : Members} : nestedProto (.obj f) = false ↔ ∀ p ∈ f.toList, p.1 ≠ signKey → hasProto p.2 = false := by
  simp [nestedProto]

/-- The members that are signed, apart from `__proto__`. -/
def signedMembers (f : Members) : List (Σ _ : Utf16, Doc) := (f.toList.filter fun p => p.1 ≠ signKey).filter fun p => p.1 ≠ protoKey

theorem mem_signedMembers {f : Members} {p : Σ _ : Utf16, Doc} : p ∈ signedMembers f ↔ p ∈ f.toList ∧ p.1 ≠ signKey ∧ p.1 ≠ protoKey := by
  rw [signedMembers, List.mem_filter, List.mem_filter, and_assoc, decide_eq_true_eq, decide_eq_true_eq]

theorem signKey_ne : signKey ≠ protoKey := by decide

theorem nodup_filter {A : Type} {l : List (Σ _ : Utf16, A)} (h : l.keys.Nodup) (keep : (Σ _ : Utf16, A) → Bool) : (l.filter keep).keys.Nodup :=
  h.sublist (List.filter_sublist.map _)

/-- The prototype that an object gets from its members when it is rebuilt. -/
def protoOfMembers (D : Doubles) (f : Members) : Proto := protoOf (mapValues (Js.ofDoc D.double) f.toList)

section TopLevel

variable {f : Members} (hf : f.keys.Nodup) (hsign : signKey ∈ f.keys)
include hf hsign

theorem stripTopLevelSign_ofDoc : stripTopLevelSign (Js.ofDoc D.double (.obj f)) =
    literal (protoOfMembers D f, .ofList (mapValues (Js.ofDoc D.double) (signedMembers f))) := by
  have hhas : (Props.ofMembers D.double f).has signKey = true := by
    rw [← Props.ofList_toList (Props.ofMembers D.double f), Props.has_ofList, Props.toList_ofMembers, keys_mapValues]
    exact hsign
  have hproto : protoOf (mapValues (Js.ofDoc D.double) (f.toList.filter fun p => p.1 ≠ signKey)) = protoOfMembers D f := by
    rw [protoOfMembers, protoOf, protoOf, dlookup_mapValues, dlookup_mapValues,
      dlookup_filter (fun k => k ≠ signKey) (decide_eq_true signKey_ne.symm)]
  have hnodup : (mapValues (Js.ofDoc D.double) (f.toList.filter fun p => p.1 ≠ signKey)).keys.Nodup := by
    rw [keys_mapValues]
    exact nodup_filter hf _
  rw [Js.ofDoc, stripTopLevelSign, if_pos hhas, Props.toList_ofMembers, filter_mapValues fun k => k ≠ signKey, assignAll_eq hnodup, hproto,
    filter_mapValues fun k => k ≠ protoKey]
  rfl

theorem stripTopLevelSign_cloned : stripTopLevelSign (cloned D (.obj f)) =
    literal (.standard, .ofList (mapValues (cloned D) (signedMembers f))) := by
  set l := f.toList.filter fun p => p.1 ≠ protoKey with hl
  have hhas : (Props.ofList (mapValues (cloned D) l)).has signKey = true := by
    obtain ⟨p, hp, hkey⟩ := List.mem_map.mp hsign
    rw [Props.has_ofList, keys_mapValues]
    refine List.mem_map.mpr ⟨p, List.mem_filter.mpr ⟨hp, decide_eq_true ?_⟩, hkey⟩
    rw [hkey]
    exact signKey_ne
  have hnodup : (mapValues (cloned D) (l.filter fun p => p.1 ≠ signKey)).keys.Nodup := by
    rw [keys_mapValues]
    exact nodup_filter (nodup_filter hf _) _
  have hnot : protoKey ∉ (mapValues (cloned D) (l.filter fun p => p.1 ≠ signKey)).keys := by
    rw [keys_mapValues]
    intro hmem
    obtain ⟨p, hp, hkey⟩ := List.mem_map.mp hmem
    exact of_decide_eq_true (List.mem_filter.mp (List.mem_of_mem_filter hp)).2 hkey
  have hcomm : (l.filter fun p => p.1 ≠ signKey).filter (fun p => p.1 ≠ protoKey) = signedMembers f := by
    rw [hl, signedMembers, List.filter_filter, List.filter_filter, List.filter_filter]
    exact List.filter_congr fun p _ => by cases decide (p.1 ≠ protoKey) <;> simp
  rw [cloned_obj hf, ← hl, literal, stripTopLevelSign, if_pos hhas, Props.toList_ofList, filter_mapValues fun k => k ≠ signKey,
    assignAll_eq hnodup, protoOf_of_notMem hnot, filter_mapValues fun k => k ≠ protoKey, hcomm]

theorem toSignableBytes_ofDoc {bytes : List ℕ} (h : toSignableBytes (Js.ofDoc D.double (.obj f)) = some bytes) :
    (protoOfMembers D f = .standard ∨ protoOfMembers D f = .null) ∧
      ∃ text, ArkTs.canonicalStringify D (.obj (.ofList (signedMembers f))) = some text ∧ encodeUtf8 text = some bytes := by
  obtain ⟨text, htext, hbytes⟩ := Option.bind_eq_some_iff.mp h
  rw [stripTopLevelSign_ofDoc hf hsign, canonicalStringify_literal, stringifyAll_mapValues] at htext
  obtain ⟨hproto, htext⟩ := Option.ite_none_right_eq_some.mp htext
  refine ⟨hproto, text, ?_, hbytes⟩
  rw [canonicalStringify_obj, Members.toList_ofList, ← htext]
  simp only [canonicalStringify_ofDoc]

theorem toSignableBytes_cloned : toSignableBytes (cloned D (.obj f)) =
    ((stringifyAll (fun d => canonicalStringify (cloned D d)) (signedMembers f)).map pairsText).bind encodeUtf8 := by
  rw [toSignableBytes, stripTopLevelSign_cloned hf hsign, canonicalStringify_literal, stringifyAll_mapValues, if_pos (.inl rfl)]

end TopLevel

theorem hasProto_of_plain {f : Members} (hf : f.keys.Nodup) (hplain : protoOfMembers D f = .standard ∨ protoOfMembers D f = .null)
    {p : Σ _ : Utf16, Doc} (hp : p ∈ f.toList) (hkey : p.1 = protoKey) : hasProto p.2 = false := by
  have hlookup : (mapValues (Js.ofDoc D.double) f.toList).dlookup protoKey = some (Js.ofDoc D.double p.2) := by
    rw [dlookup_mapValues, List.mem_dlookup hf (b := p.2) (by rw [← hkey]; exact hp)]
    rfl
  rw [protoOfMembers, protoOf, hlookup] at hplain
  -- an object or a list would be the prototype
  cases hd : p.2 with
  | arr | obj => simp [hd, Js.ofDoc, Js.asProto] at hplain
  | _ => rfl

theorem toSignableBytes_cloned_iff {f : Members} (hd : (Doc.obj f).distinct = true) (hsign : signKey ∈ f.keys) {bytes : List ℕ}
    (h : toSignableBytes (Js.ofDoc D.double (.obj f)) = some bytes) :
    toSignableBytes (cloned D (.obj f)) = some bytes ↔ nestedProto (.obj f) = false := by
  rw [Doc.distinct, Bool.and_eq_true, decide_eq_true_eq] at hd
  obtain ⟨hplain, text, htext, hbytes⟩ := toSignableBytes_ofDoc hd.1 hsign h
  have hdistinct : ∀ p ∈ signedMembers f, p.2.distinct = true := fun p hp =>
    Doc.distinctMembers_iff.mp hd.2 p (mem_signedMembers.mp hp).1
  rw [toSignableBytes_cloned hd.1 hsign, nestedProto_eq_false]
  constructor
  · intro hcopy p hp hne
    by_cases hkey : p.1 = protoKey
    · exact hasProto_of_plain hd.1 hplain hp hkey
    obtain ⟨text', htext', hbytes'⟩ := Option.bind_eq_some_iff.mp hcopy
    rw [encodeUtf8_eq] at hbytes hbytes'
    obtain rfl : text' = text := Utf16.encode_inj hbytes' hbytes
    obtain ⟨pairs, hpairs, hpt⟩ := Option.map_eq_some_iff.mp htext'
    have hkeep : (signedMembers f).filter (fun p => p.1 ≠ protoKey) = signedMembers f :=
      List.filter_eq_self.mpr fun p hp => decide_eq_true (mem_signedMembers.mp hp).2.2
    have hdrop : ArkTs.canonicalStringify D (dropProto (.obj (.ofList (signedMembers f)))) = some text' := by
      rw [dropProto, canonicalStringify_obj, toList_dropProtoMembers, Members.toList_ofList, hkeep, stringifyAll_mapValues,
        stringifyAll_imp (fun p hp t ht => canonicalStringify_cloned (hdistinct p hp) ht) hpairs, Option.map_some, hpt]
    have hno := stringify_ne_dropProto htext hdrop
    by_contra hproto
    refine Bool.noConfusion (hno.symm.trans ((hasProtoMembers_iff _).mpr ⟨p, ?_, .inr (Bool.eq_true_of_not_eq_false hproto)⟩))
    rw [Members.toList_ofList]
    exact mem_signedMembers.mpr ⟨hp, hne, hkey⟩
  · intro hnested
    have hsame : stringifyAll (fun d => canonicalStringify (cloned D d)) (signedMembers f) =
        stringifyAll (ArkTs.canonicalStringify D) (signedMembers f) := by
      have hvalues : mapValues (cloned D) (signedMembers f) = mapValues (Js.ofDoc D.double) (signedMembers f) :=
        mapValues_congr fun p hp => cloned_of_not_hasProto (hdistinct p hp)
          (hnested p (mem_signedMembers.mp hp).1 (mem_signedMembers.mp hp).2.1)
      rw [← stringifyAll_mapValues (cloned D), hvalues, stringifyAll_mapValues]
      simp only [canonicalStringify_ofDoc]
    rw [hsame]
    rw [canonicalStringify_obj, Members.toList_ofList] at htext
    rw [htext, Option.bind_some, hbytes]

theorem protoOf_cloned {f : Members} (hplain : protoOfMembers D f = .standard ∨ protoOfMembers D f = .null) :
    protoOf (mapValues (cloned D) f.toList) = protoOfMembers D f := by
  rw [protoOfMembers, protoOf, dlookup_mapValues] at hplain ⊢
  rw [protoOf, dlookup_mapValues]
  cases hlookup : f.toList.dlookup protoKey with
  | none => rfl
  | some d =>
    rw [hlookup] at hplain
    cases d with
    | arr | obj => simp [Js.ofDoc, Js.asProto] at hplain
    | _ => rfl

theorem read_cloned {f : Members} (hd : (Doc.obj f).distinct = true) (hplain : protoOfMembers D f = .standard ∨ protoOfMembers D f = .null)
    (hnested : nestedProto (.obj f) = false) {key : Utf16} (hsign : key ≠ signKey) (hproto : key ≠ protoKey) (path : List Access) :
    (cloned D (.obj f)).read (.field key :: path) = (Js.ofDoc D.double (.obj f)).read (.field key :: path) := by
  rw [Doc.distinct, Bool.and_eq_true, decide_eq_true_eq] at hd
  have hinherited : (protoOfMembers D f).get key = none := by rcases hplain with h | h <;> rw [h] <;> rfl
  have hcopy : (Props.ofList (mapValues (cloned D) (f.toList.filter fun p => p.1 ≠ protoKey))).get? key =
      (f.toList.dlookup key).map (cloned D) := by
    rw [Props.get?_ofList, dlookup_mapValues, dlookup_filter (fun k => k ≠ protoKey) (decide_eq_true hproto)]
  have hparsed : (Props.ofMembers D.double f).get? key = (f.toList.dlookup key).map (Js.ofDoc D.double) := by
    rw [Props.get?, Props.toList_ofMembers, dlookup_mapValues]
  have hget : (cloned D (.obj f)).get key = (Js.ofDoc D.double (.obj f)).get key := by
    rw [cloned_obj hd.1, protoOf_cloned hplain, literal, Js.get, hcopy, Js.ofDoc, Js.get, hparsed, hinherited]
    cases hlookup : f.toList.dlookup key with
    | none => rfl
    | some d =>
      have hmem : (⟨key, d⟩ : Σ _ : Utf16, Doc) ∈ f.toList := List.of_mem_dlookup hlookup
      have hvalue : cloned D d = Js.ofDoc D.double d :=
        cloned_of_not_hasProto (Doc.distinctMembers_iff.mp hd.2 _ hmem) (nestedProto_eq_false.mp hnested _ hmem hsign)
      simp only [Option.map_some, hvalue]
  rw [Js.read, Js.read, Js.access, hget]
  rfl

end Objects

end AgentProtocol.Sdk.ArkTs
