-- SUMMARY: Mandates that the server created, and mandates that come back the same but for the user's signature.
import AgentProtocol.A4P.Verification

/-!
# Created mandates

A created mandate has the fields of its draft and the server's signature, and no other. What comes back
with the same signed text, and equals it when both are normalized, is the same but for the order of keys
and the user's signature.
-/

namespace AgentProtocol.A4P

open Lib

theorem finite_of_canonicalJson {p : Printer} {v : Value} {text : String} (h : canonicalJson p v = .ok text) : v.finite = true := by
  have htext := canonicalJson_eq_some h
  unfold Value.canonicalJson at htext
  split at htext
  · assumption
  · cases htext

theorem MandateKind.finite_core {p : Printer} {core : Fields} {text : String} (h : MandateKind.serverText p core = .ok text) :
    Value.finiteFields core = true :=
  Value.finiteFields_iff.mp (finite_of_canonicalJson h) ("mandate", .obj core) (by simp)

namespace MandateKind

/-- The keys of a mandate, other than its signatures. -/
def coreKeys (k : MandateKind) : List String :=
  ["type", k.identifierKey, "server", "subject", k.bodyKey, "validTime", "userAuthorization", "displayText"]

structure Created (c : Setup) (k : MandateKind) (id : String) (mandate : Fields) : Prop where
  type : mandate.get? "type" = some (.str k.typeText)
  normalized : k.normalize c.printer mandate = .ok mandate
  identifier : mandate.get? k.identifierKey = some (.str id)
  keys : mandate.keys = k.coreKeys ++ ["signatures"]
  signatures : ∃ text, serverText c.printer (k.core mandate) = .ok text ∧
    mandate.get? "signatures" = some (.obj (.ofList [("server", .obj (k.serverSignature c text)), ("user", .obj .nil)]))

variable {c : Setup} {k : MandateKind} {id : String} {draft mandate n : Fields}

theorem identifierKey_ne (k : MandateKind) : k.identifierKey ∉ ["type", k.bodyKey, "signatures", "userAuthorization"] := by
  cases k <;> decide

theorem normalizedKeys_subset (k : MandateKind) :
    ∀ key ∈ ["type", k.bodyKey, "signatures", "userAuthorization"], key ∈ k.coreKeys ++ ["signatures"] := by
  cases k <;> decide

theorem nodup_keys_created (k : MandateKind) : (k.coreKeys ++ ["signatures"]).Nodup := by cases k <;> decide

theorem keys_normalize {p : Printer} (h : k.normalize p mandate = .ok n)
    (hkeys : ∀ key ∈ ["type", k.bodyKey, "signatures", "userAuthorization"], key ∈ mandate.keys) : n.keys = mandate.keys := by
  have hset : ∀ {f : Fields} {key : String} {v : Value}, f.keys = mandate.keys → key ∈ mandate.keys → (f.set key v).keys = mandate.keys :=
    fun hf hmem => (Fields.keys_set_of_mem (hf ▸ hmem)).trans hf
  have htype := hkeys "type" (by simp)
  have hbody := hkeys k.bodyKey (by simp)
  have hsignatures := hkeys "signatures" (by simp)
  have hauthorization := hkeys "userAuthorization" (by simp)
  obtain ⟨body, server, user, rfl⟩ := eq_filled h
  cases k with
  | intent => exact hset (hset (hset (hset rfl htype) hbody) hsignatures) hauthorization
  | operation => exact hset (hset (hset (hset rfl hbody) hsignatures) hauthorization) htype

theorem core_set_signatures (v : Value) : k.core (n.set "signatures" v) = k.core n :=
  core_congr fun key hkey => by rw [Fields.get?_set, if_neg hkey.symm]

theorem coreOf_of_sign (h : k.sign c draft = .ok mandate) : CoreOf c.printer k draft mandate := by
  obtain ⟨n, text, user, hn, -, -, rfl⟩ := sign_eq_ok h
  have hto := normalize_eq_ok hn
  have hget : ∀ key ≠ "signatures", ∀ v, (n.set "signatures" v).get? key = n.get? key :=
    fun key hkey v => by rw [Fields.get?_set, if_neg hkey.symm]
  obtain ⟨v, hv, hbody⟩ := hto.body
  refine ⟨(hget _ (by decide) _).trans hto.type, ⟨v, hv, (hget _ (by cases k <;> decide) _).trans hbody⟩,
    (hget _ (by decide) _).trans hto.userAuthorization, fun key hkey => (hget key ?_ _).trans (hto.same key hkey)⟩
  rintro rfl
  simp at hkey

theorem created_of_sign (hkeys : draft.keys = k.coreKeys ++ ["signatures"]) (hid : draft.get? k.identifierKey = some (.str id))
    (huser : signature draft "user" = .ok .nil) (h : k.sign c draft = .ok mandate) : Created c k id mandate := by
  have hsigned := signed_of_sign h
  obtain ⟨n, text, user, hn, huser', htext, rfl⟩ := sign_eq_ok h
  obtain rfl : Fields.nil = user := Except.ok.inj (huser.symm.trans huser')
  have hnkeys : n.keys = k.coreKeys ++ ["signatures"] := by
    rw [keys_normalize hn, hkeys]
    rw [hkeys]
    exact k.normalizedKeys_subset
  refine ⟨hsigned.type, hsigned.normalized, ?_, ?_, text, ?_, ?_⟩
  · rw [Fields.get?_set, if_neg (by cases k <;> decide), (normalize_eq_ok hn).same _ k.identifierKey_ne, hid]
  · rw [Fields.keys_set_of_mem (by rw [hnkeys]; simp), hnkeys]
  · rw [core_set_signatures, htext]
  · rw [Fields.get?_set, if_pos rfl]

end MandateKind

/-- Rendering replaces no more than the display text, by a text. -/
structure Rendered (draft rendered : Fields) : Prop where
  keys : rendered.keys = draft.keys
  text : ∃ text, rendered.get? "displayText" = some (.str text)
  same : ∀ key ≠ "displayText", rendered.get? key = draft.get? key

theorem rendered_set {draft : Fields} {v : Value} (hv : draft.get? "displayText" = some v) (text : String) :
    Rendered draft (draft.set "displayText" (.str text)) where
  keys := Fields.keys_set_of_mem (Fields.mem_keys_iff.mpr (Option.isSome_iff_exists.mpr ⟨v, hv⟩))
  text := ⟨text, by rw [Fields.get?_set, if_pos rfl]⟩
  same key hkey := by rw [Fields.get?_set, if_neg hkey.symm]

theorem renderDisplayText_ok {c : Setup} {draft rendered : Fields} {text : String} (h : renderDisplayText c draft = .ok rendered)
    (htext : draft.get? "displayText" = some (.str text)) : Rendered draft rendered := by
  unfold renderDisplayText at h
  split at h
  · obtain rfl := Except.ok.inj h
    exact ⟨rfl, ⟨text, htext⟩, fun _ _ => rfl⟩
  · split at h
    · cases h
    · obtain rfl := Except.ok.inj h
      exact rendered_set htext _
    · cases h

theorem renderIntentDisplayText_ok {c : Setup} {draft rendered : Fields} {text : String} (h : renderIntentDisplayText c draft = .ok rendered)
    (htext : draft.get? "displayText" = some (.str text)) : Rendered draft rendered := by
  unfold renderIntentDisplayText at h
  split at h
  · obtain rfl := Except.ok.inj h
    exact ⟨rfl, ⟨text, htext⟩, fun _ _ => rfl⟩
  · split at h
    · cases h
    · obtain rfl := Except.ok.inj h
      exact rendered_set htext _
    · cases h

variable {c : Setup} {token : String} {now : ℚ} {mandate : Fields}

theorem createOperationMandate_ok {req : MandateRequest} (h : createOperationMandate c req token now = .ok mandate) :
    ∃ signatureMethod untilIso displayUntil rendered,
      renderDisplayText c (draftMandate c req signatureMethod ("op_" ++ token) untilIso displayUntil) = .ok rendered ∧
      Rendered (draftMandate c req signatureMethod ("op_" ++ token) untilIso displayUntil) rendered ∧ MandateKind.operation.sign c rendered = .ok mandate := by
  unfold createOperationMandate at h
  dsimp only at h
  split at h
  · cases h
  obtain ⟨displayUntil, -, h'⟩ := bind_eq_ok.mp h
  obtain ⟨rendered, hrendered, hsign⟩ := bind_eq_ok.mp h'
  exact ⟨_, _, displayUntil, rendered, hrendered, renderDisplayText_ok hrendered rfl, signServerMandate_eq c rendered ▸ hsign⟩

theorem createIntentMandate_ok {req : IntentMandateRequest} (h : createIntentMandate c req token now = .ok mandate) :
    ∃ actions maxExecutions signatureMethod startIso endIso displayText rendered, normalizeActionSpecs c.printer req.actions = .ok actions ∧
      Rendered (draftIntentMandate c req { actions, maxExecutions } signatureMethod ("mdt_" ++ token) startIso endIso displayText) rendered ∧
      MandateKind.intent.sign c rendered = .ok mandate := by
  unfold createIntentMandate at h
  dsimp only at h
  split at h
  · cases h
  obtain ⟨startIso, -, hrest⟩ := bind_eq_ok.mp h
  obtain ⟨endIso, -, hrest⟩ := bind_eq_ok.mp hrest
  obtain ⟨actions, hactions, hrest⟩ := bind_eq_ok.mp hrest
  obtain ⟨maxExecutions, -, hrest⟩ := bind_eq_ok.mp hrest
  obtain ⟨displayText, -, hrest⟩ := bind_eq_ok.mp hrest
  obtain ⟨rendered, hrendered, hsign⟩ := bind_eq_ok.mp hrest
  refine ⟨actions, maxExecutions, _, startIso, endIso, displayText, rendered, ?_, renderIntentDisplayText_ok hrendered rfl, hsign⟩
  cases h : normalizeActionSpecs c.printer req.actions with
  | error e => rw [h] at hactions; cases hactions
  | ok actions' => rw [h] at hactions; exact congrArg Except.ok (Except.ok.inj hactions)

theorem created_of_createOperation {req : MandateRequest} (h : createOperationMandate c req token now = .ok mandate) :
    MandateKind.operation.Created c ("op_" ++ token) mandate := by
  obtain ⟨_, _, _, rendered, -, ⟨hkeys, -, hsame⟩, hsign⟩ := createOperationMandate_ok h
  apply MandateKind.created_of_sign _ _ _ hsign
  · exact hkeys
  · exact hsame _ (by decide)
  · rw [MandateKind.signature, hsame _ (by decide)]
    rfl

theorem created_of_createIntent {req : IntentMandateRequest} (h : createIntentMandate c req token now = .ok mandate) :
    MandateKind.intent.Created c ("mdt_" ++ token) mandate := by
  obtain ⟨_, _, _, _, _, _, rendered, -, ⟨hkeys, -, hsame⟩, hsign⟩ := createIntentMandate_ok h
  apply MandateKind.created_of_sign _ _ _ hsign
  · exact hkeys
  · exact hsame _ (by decide)
  · rw [MandateKind.signature, hsame _ (by decide)]
    rfl

/-! ## What comes back -/

theorem nodup_dictOfItems : ∀ {items : Items} {d d' : Fields}, d.keys.Nodup → dictOfItems d items = .ok d' → d'.keys.Nodup
  | .nil, d, d', hd, h => Except.ok.inj h ▸ hd
  | .cons item rest, d, d', hd, h => by
    rw [dictOfItems] at h
    split at h
    · cases h
    exact nodup_dictOfItems (Fields.nodup_keys_set hd) h

variable {d : Fields}

theorem nodup_dictOf {v : Option Value} (hv : ∀ w, v = some w → w.distinct = true) (h : dictOf v = .ok d) : d.keys.Nodup := by
  unfold dictOf at h
  split at h
  · exact Except.ok.inj h ▸ List.nodup_nil
  · rename_i d' hd
    obtain rfl := Except.ok.inj h
    have hdistinct := hv _ (Option.filter_eq_some_iff.mp hd).1
    simp only [Value.distinct, Bool.and_eq_true, decide_eq_true_eq] at hdistinct
    exact hdistinct.1
  · exact nodup_dictOfItems (d := .nil) List.nodup_nil h
  · cases h
  · cases h

theorem distinct_get? {key : String} {v : Value} (hd : (Value.obj d).distinct = true) (h : d.get? key = some v) :
    v.distinct = true := by
  simp only [Value.distinct, Bool.and_eq_true] at hd
  exact Value.distinctFields_iff.mp hd.2 _ (Fields.mem_of_get? h)

theorem nodup_keys (hd : (Value.obj d).distinct = true) : d.keys.Nodup := by
  simp only [Value.distinct, Bool.and_eq_true, decide_eq_true_eq] at hd
  exact hd.1

namespace MandateKind

variable {c : Setup} {k : MandateKind} {id : String} {mandate m n : Fields}

theorem nodup_signature {who : String} {d : Fields} (hd : (Value.obj mandate).distinct = true) (h : signature mandate who = .ok d) :
    d.keys.Nodup := by
  apply nodup_dictOf _ h
  intro w hw
  cases hsignatures : mandate.get? "signatures" with
  | none => rw [hsignatures] at hw; cases hw
  | some v =>
    rw [hsignatures] at hw
    cases v with
    | obj signatures => exact distinct_get? (distinct_get? hd hsignatures) hw
    | null | bool | int | float | str | arr => cases hw

variable {p : Printer}

theorem nodup_normalize (hd : mandate.keys.Nodup) (h : k.normalize p mandate = .ok n) : n.keys.Nodup := by
  obtain ⟨body, server, user, rfl⟩ := eq_filled h
  cases k <;> exact Fields.nodup_keys_set (Fields.nodup_keys_set (Fields.nodup_keys_set (Fields.nodup_keys_set hd)))

theorem core_get? {key : String} {v : Value} (hkey : key ∈ k.coreKeys) (hv : n.get? key = some v) : (k.core n).get? key = some v := by
  simp only [coreKeys, List.mem_cons, List.not_mem_nil, or_false] at hkey
  cases k <;> simp only [identifierKey, bodyKey] at hkey <;> rcases hkey with rfl | rfl | rfl | rfl | rfl | rfl | rfl | rfl <;>
    simp [core, Fields.ofList, Fields.get?, hv, identifierKey, bodyKey]

theorem nodup_core (k : MandateKind) (n : Fields) : (k.core n).keys.Nodup := by
  cases k <;> simp [core, Fields.keys, identifierKey, bodyKey]

variable {text : String}

theorem sorted_core (hfloat : Value.FloatText p.float) {core core' : Fields}
    (h : serverText p core = .ok text) (h' : serverText p core' = .ok text) : Value.sorted (.obj core) = Value.sorted (.obj core') := by
  have hkeys : ∀ core : Fields, (Fields.ofList [("scope", .str "server"), ("mandate", .obj core)]).keys.Nodup := by
    intro core
    simp [Fields.keys]
  have hmandate := Value.sorted_get? (Value.sorted_eq_of_canonicalJson hfloat (canonicalJson_eq_some h) (canonicalJson_eq_some h'))
    (hkeys _) (hkeys _) "mandate"
  simpa [Fields.ofList, Fields.get?] using hmandate

theorem NormalizedTo.withoutUser_eq (h : NormalizedTo p k mandate n) {server : Fields} (hserver : signature mandate "server" = .ok server) :
    OperationAuthorizationService.withoutUser n = n.set "signatures" (.obj (.ofList [("server", .obj server), ("user", .obj .nil)])) := by
  obtain ⟨server', user, hserver', -, hsignatures⟩ := h.signatures
  obtain rfl := Except.ok.inj (hserver.symm.trans hserver')
  simp [OperationAuthorizationService.withoutUser, hsignatures, Fields.ofList, Fields.set]

theorem sorted_withoutUser (hfloat : Value.FloatText p.float) {server : Fields} {v : Value}
    (hn : n.keys.Nodup) (hm : m.keys = k.coreKeys ++ ["signatures"])
    (htext : serverText p (k.core n) = .ok text) (htext' : serverText p (k.core m) = .ok text)
    (heq : (Value.obj (n.set "signatures" v)).eq (.obj (m.set "signatures" (.obj (.ofList [("server", .obj server), ("user", .obj .nil)])))) = true)
    (hsignatures : Value.sorted v = Value.sorted (.obj (.ofList [("server", .obj server), ("user", .obj .nil)]))) :
    Value.sorted (.obj (n.set "signatures" v)) =
      Value.sorted (.obj (m.set "signatures" (.obj (.ofList [("server", .obj server), ("user", .obj .nil)])))) := by
  have hnodup : (n.set "signatures" v).keys.Nodup := Fields.nodup_keys_set hn
  have hkeys : (m.set "signatures" (.obj (.ofList [("server", .obj server), ("user", .obj .nil)]))).keys = k.coreKeys ++ ["signatures"] := by
    rw [Fields.keys_set_of_mem (by simp [hm]), hm]
  apply Value.sorted_obj_eq hnodup (hkeys ▸ k.nodup_keys_created)
  intro key
  by_cases hkey : key = "signatures"
  · subst hkey
    rw [Fields.get?_set, Fields.get?_set, if_pos rfl, if_pos rfl]
    exact congrArg some hsignatures
  · have hsame := Value.isSome_of_eq heq hnodup key
    rw [Fields.get?_set, Fields.get?_set, if_neg (Ne.symm hkey), if_neg (Ne.symm hkey)] at hsame ⊢
    cases hget : m.get? key with
    | none =>
      rw [hget] at hsame
      have hnone : n.get? key = none := by simpa using hsame
      rw [hnone]
    | some w =>
      rw [hget] at hsame
      obtain ⟨u, hu⟩ := Option.isSome_iff_exists.mp hsame
      have hcore : key ∈ k.coreKeys := by
        have hmem := Fields.mem_keys_iff.mpr (Option.isSome_iff_exists.mpr ⟨w, hget⟩)
        rw [hm] at hmem
        exact (List.mem_append.mp hmem).resolve_right (by simpa using hkey)
      have hboth := Value.sorted_get? (sorted_core hfloat htext htext') (nodup_core k n) (nodup_core k m) key
      rw [core_get? hcore hu, core_get? hcore hget] at hboth
      rw [hu]
      exact hboth

/-- What comes back as pending, with the signed text of a created mandate, is this mandate but for the
order of keys and the user's signature. -/
theorem Created.same_of_matches (hfloat : Value.FloatText c.printer.float) (hm : Created c k id m)
    (hdistinct : (Value.obj mandate).distinct = true) (hn : k.normalize c.printer mandate = .ok n)
    (hmatch : k.matchesPending c.printer mandate m = true) (htext : serverText c.printer (k.core n) = .ok text)
    (htext' : serverText c.printer (k.core m) = .ok text) :
    Value.sorted (.obj (OperationAuthorizationService.withoutUser n)) = Value.sorted (.obj (OperationAuthorizationService.withoutUser m)) := by
  have hto := normalize_eq_ok hn
  have htoM := normalize_eq_ok hm.normalized
  obtain ⟨server, user, hserver, -, hsignatures⟩ := hto.signatures
  obtain ⟨text₀, -, hsignaturesM⟩ := hm.signatures
  have hserverM : signature m "server" = .ok (k.serverSignature c text₀) := by
    simp [signature, hsignaturesM, Fields.ofList, Fields.get?]
  simp only [matchesPending, hn, hm.normalized] at hmatch
  rw [hto.withoutUser_eq hserver, htoM.withoutUser_eq hserverM] at hmatch ⊢
  have hnodup := nodup_normalize (nodup_keys hdistinct) hn
  apply sorted_withoutUser hfloat hnodup hm.keys htext htext' hmatch
  -- the server's signatures are texts
  have hsignaturesEq := Value.get?_of_eq (k := "signatures") hmatch (by rw [Fields.get?_set, if_pos rfl]) (by rw [Fields.get?_set, if_pos rfl])
  have hserverEq := Value.get?_of_eq (k := "server") hsignaturesEq rfl rfl
  have hsorted : Value.sorted (.obj server) = Value.sorted (.obj (k.serverSignature c text₀)) := by
    have hserverNodup := nodup_signature hdistinct hserver
    apply Value.sorted_obj_eq hserverNodup (by simp [serverSignature, Fields.keys])
    intro key
    have hsame := Value.isSome_of_eq hserverEq hserverNodup key
    cases hget : (k.serverSignature c text₀).get? key with
    | none =>
      rw [hget] at hsame
      have hnone : server.get? key = none := by simpa using hsame
      rw [hnone]
    | some w =>
      rw [hget] at hsame
      obtain ⟨u, hu⟩ := Option.isSome_iff_exists.mp hsame
      have htextual : ∃ t, w = .str t := by
        have hmem := Fields.mem_of_get? hget
        simp only [serverSignature, Fields.toList_ofList, List.mem_cons, Prod.mk.injEq, List.not_mem_nil, or_false] at hmem
        rcases hmem with ⟨-, rfl⟩ | ⟨-, rfl⟩ | ⟨-, rfl⟩ <;> exact ⟨_, rfl⟩
      obtain ⟨t, rfl⟩ := htextual
      rw [hu, Value.eq_str (Value.get?_of_eq hserverEq hu hget)]
  simp only [Value.sorted, Fields.ofList, List.foldr_cons, List.foldr_nil, Value.sortedFields] at hsorted ⊢
  rw [hsorted]

end MandateKind

end AgentProtocol.A4P
