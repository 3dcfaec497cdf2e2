-- SUMMARY: Authorizations are approved once, in time, for the mandate that was prepared and by a credential of its user.
import AgentProtocol.A4P.Created
import AgentProtocol.A4P.Credentials
import AgentProtocol.Lib.OneShot

/-!
# One-time authorizations

In a run of a service, the user's method may verify differently at every event, as credentials are
registered and count their signatures. An approval takes a pending authorization, whose mandate comes back
the same but for the order of keys and the user's signature, not after its end.
-/

namespace AgentProtocol.A4P

open Lib

def Setup.withMethod (c : Setup) (method : Option UserSignatureMethod) : Setup := { c with userSignatureMethod := method }

/-! ## The methods of the SDK -/

/-- `RegisteredEd25519Method` with its credentials at the moment. -/
def ed25519Method (cs : CredentialSetup) (store : CredentialStore) : UserSignatureMethod where
  signatureMethod := ed25519SignatureMethod
  methodPolicy := .nil
  signingOptions userId _ := ed25519SigningOptions store userId
  verify context signature := match ed25519Verify cs store context signature with
    | .ok () => (true, "")
    | .error reason => (false, reason)

/-- `WebAuthnSignatureMethod` with its credentials at the moment; the library makes the options. -/
def webauthnMethod (cs : CredentialSetup) (options : String → Fields → Except Raised Fields) (store : CredentialStore) : UserSignatureMethod where
  signatureMethod := webauthnSignatureMethod
  methodPolicy := .ofList [("userVerification", .str "required")]
  signingOptions := options
  verify context signature := match (webauthnVerify cs store context signature).1 with
    | .ok () => (true, "")
    | .error reason => (false, reason)

/-- A signature was made with a credential of the user, which the proof is checked against. -/
structure SignedByUser (method : UserSignatureMethod) (context : UserSignatureContext) (signature : Fields) (userId : String) : Prop where
  accepted : (method.verify context signature).1 = true
  user : context.expectedUserId = userId
  ed25519 : ∀ cs store, method = ed25519Method cs store → ∃ r ∈ store.rows, r.userId = userId ∧ r.signatureMethod = ed25519SignatureMethod ∧
    checkProof cs context signature r = .ok ()
  webauthn : ∀ cs options store, method = webauthnMethod cs options store → ∃ r ∈ store.rows, r.userId = userId ∧
    r.signatureMethod = webauthnSignatureMethod ∧ ∃ signCount, checkAssertion cs context signature r = .ok signCount

variable {context : UserSignatureContext} {signature : Fields}

theorem signedByUser {method : UserSignatureMethod} {userId : String}
    (haccepted : (method.verify context signature).1 = true) (huser : context.expectedUserId = userId) :
    SignedByUser method context signature userId := by
  refine ⟨haccepted, huser, ?_, ?_⟩
  · rintro cs store rfl
    cases hverify : ed25519Verify cs store context signature with
    | error reason => simp [ed25519Method, hverify] at haccepted
    | ok _ =>
      obtain ⟨r, hfind, hproof⟩ := bind_eq_ok.mp hverify
      obtain ⟨hget, hmethod, hr⟩ := findCredential_ok hfind
      exact ⟨r, (Table.get?_eq_some.mp hget).1, hr.trans huser, hmethod, hproof⟩
  · rintro cs options store rfl
    cases hverify : (webauthnVerify cs store context signature).1 with
    | error reason => simp [webauthnMethod, hverify] at haccepted
    | ok _ =>
      unfold webauthnVerify at hverify
      split at hverify
      · cases hverify
      rename_i r hfind
      split at hverify
      · cases hverify
      rename_i signCount hassertion
      obtain ⟨hget, hmethod, hr⟩ := findCredential_ok hfind
      exact ⟨r, (Table.get?_eq_some.mp hget).1, hr.trans huser, hmethod, signCount, hassertion⟩

theorem verifyUserSignature_eq_none {c : Setup}
    (h : verifyUserSignature c context signature = none) (hrequired : c.requireUserSignature = true) :
    ∃ method, c.userSignatureMethod = some method ∧ SignedByUser method context signature context.expectedUserId := by
  unfold verifyUserSignature at h
  rw [if_neg (by simp [hrequired])] at h
  split at h
  · cases h
  rename_i method hmethod
  dsimp only at h
  split at h
  · cases h
  split at h
  · cases h
  split at h
  · cases h
  split at h
  · rename_i hverify
    exact ⟨method, hmethod, signedByUser (by rw [hverify]) rfl⟩
  · cases h

/-- The user that a request names, as `complete` reads it. -/
def OperationAuthorizationService.requestUser (p : Printer) (payload : Fields) : String :=
  p.text (((payload.get? "userId").filter truthy).getD (.str ""))

/-! ## The mandates that were signed -/

namespace MandateKind

variable {c : Setup} {k : MandateKind} {signed : List Fields} {id : String} {m mandate n : Fields}

/-- The mandates that were signed were created, under different ids. -/
structure Apart (c : Setup) (k : MandateKind) (signed : List Fields) : Prop where
  created : ∀ m ∈ signed, ∃ id, Created c k id m
  apart : ∀ m ∈ signed, ∀ m' ∈ signed, c.printer.fieldText m k.identifierKey = c.printer.fieldText m' k.identifierKey → m = m'

def New (c : Setup) (k : MandateKind) (signed : List Fields) (id : String) : Prop :=
  ∀ m ∈ signed, c.printer.fieldText m k.identifierKey ≠ Text.strip id

theorem Created.fieldText (h : Created c k id m) : c.printer.fieldText m k.identifierKey = Text.strip id :=
  OperationAuthorizationService.fieldText_of_str h.identifier

theorem Apart.cons (h : Apart c k signed) (hm : Created c k id m) (hnew : New c k signed id) : Apart c k (m :: signed) := by
  have hother : ∀ m' ∈ signed, c.printer.fieldText m k.identifierKey ≠ c.printer.fieldText m' k.identifierKey := by
    intro m' hm' heq
    exact hnew m' hm' (heq.symm.trans hm.fieldText)
  refine ⟨fun m' hm' => ?_, fun m₁ hm₁ m₂ hm₂ heq => ?_⟩
  · rcases List.mem_cons.mp hm' with rfl | hm'
    · exact ⟨id, hm⟩
    · exact h.created m' hm'
  · rcases List.mem_cons.mp hm₁ with rfl | hold₁ <;> rcases List.mem_cons.mp hm₂ with rfl | hold₂
    · rfl
    · exact absurd heq (hother m₂ hold₂)
    · exact absurd heq.symm (hother m₁ hold₁)
    · exact h.apart m₁ hold₁ m₂ hold₂ heq

theorem Created.withMethod_iff {method : Option UserSignatureMethod} : Created (c.withMethod method) k id m ↔ Created c k id m :=
  ⟨fun h => ⟨h.type, h.normalized, h.identifier, h.keys, h.signatures⟩, fun h => ⟨h.type, h.normalized, h.identifier, h.keys, h.signatures⟩⟩

theorem Apart.withMethod (h : Apart c k signed) (method : Option UserSignatureMethod) : Apart (c.withMethod method) k signed :=
  ⟨fun m hm => (h.created m hm).imp fun _ hid => Created.withMethod_iff.mpr hid, h.apart⟩

/-- Nobody but the server can sign: what comes back with a good signature was signed. -/
def Unforged (c : Setup) (k : MandateKind) (signed : List Fields) (mandate : Fields) : Prop :=
  ∀ n signature text, k.normalize c.printer mandate = .ok n → A4P.serverSignature n = .ok signature →
    serverText c.printer (k.core n) = .ok text → c.key.verify text signature = true →
      ∃ m ∈ signed, serverText c.printer (k.core m) = .ok text

/-- What comes back equals what is pending, but for the order of keys and the user's signature. -/
def Same (c : Setup) (k : MandateKind) (mandate pending : Fields) : Prop :=
  ∃ n n', k.normalize c.printer mandate = .ok n ∧ k.normalize c.printer pending = .ok n' ∧
    Value.sorted (.obj (OperationAuthorizationService.withoutUser n)) = Value.sorted (.obj (OperationAuthorizationService.withoutUser n'))

theorem Apart.same (h : Apart c k signed) (hfloat : Value.FloatText c.printer.float) {userId : String} {now : ℚ}
    (hm : m ∈ signed) (hid : c.printer.fieldText mandate k.identifierKey = c.printer.fieldText m k.identifierKey)
    (hdistinct : (Value.obj mandate).distinct = true) (hverified : Verified c k mandate n userId now)
    (hmatch : k.matchesPending c.printer mandate m = true) (hunforged : Unforged c k signed mandate) : Same c k mandate m := by
  obtain ⟨signature, text, hsignature, htext, hverify⟩ := hverified.server
  obtain ⟨m', hm', htext'⟩ := hunforged n signature text hverified.normalize hsignature htext hverify
  obtain ⟨id', hcreated'⟩ := h.created m' hm'
  have hidentifier : c.printer.fieldText mandate k.identifierKey = Text.strip id' := by
    have hsorted := Value.sorted_get? (sorted_core hfloat htext htext') (nodup_core k n) (nodup_core k m') k.identifierKey
    have hcore : ∀ n : Fields, (k.core n).get? k.identifierKey = some ((n.get? k.identifierKey).getD (.str "")) := by
      intro n
      cases k <;> rfl
    rw [hcore, hcore, hcreated'.identifier, (normalize_eq_ok hverified.normalize).same _ k.identifierKey_ne] at hsorted
    have hvalue := OperationAuthorizationService.eq_str_of_sorted (Option.some.inj hsorted)
    cases hget : mandate.get? k.identifierKey with
    | some v =>
      rw [hget] at hvalue
      exact OperationAuthorizationService.fieldText_of_str (hget.trans (congrArg some hvalue))
    | none =>
      rw [hget] at hvalue
      obtain rfl := Value.str.inj hvalue
      simp [Printer.fieldText, hget, Printer.text]
  obtain rfl : m' = m := h.apart m' hm' m hm (by rw [hcreated'.fieldText, ← hidentifier, hid])
  exact ⟨n, m', hverified.normalize, hcreated'.normalized, hcreated'.same_of_matches hfloat hdistinct hverified.normalize hmatch htext htext'⟩

end MandateKind

/-! ## Pending authorizations -/

/-- What both services have: the mandates that were signed, and the request and the mandate of every
pending authorization. -/
structure Authorizations where
  signed : List Fields
  pending : String → Option (Fields × Fields)

namespace Authorizations

variable {c : Setup} {k : MandateKind} {v v' : Authorizations} {taken : Option String}

/-- Pending authorizations are for mandates that were signed, under their ids. -/
structure Sound (c : Setup) (k : MandateKind) (v : Authorizations) : Prop where
  apart : k.Apart c v.signed
  pending : ∀ id q, v.pending id = some q → q.2 ∈ v.signed ∧ c.printer.fieldText q.2 k.identifierKey = id

/-- A mandate that is created under a new id and signed. -/
def Signs (c : Setup) (k : MandateKind) (v v' : Authorizations) (mandate : Fields) : Prop :=
  ∃ id, k.Created c id mandate ∧ k.New c v.signed id ∧ v'.signed = mandate :: v.signed

/-- What a step may do: sign a mandate, make it pending, drop pending authorizations, and take one. -/
structure Change (c : Setup) (k : MandateKind) (v v' : Authorizations) (taken : Option String) : Prop where
  signed : v'.signed = v.signed ∨ ∃ mandate, Signs c k v v' mandate
  pending : ∀ id q, v'.pending id = some q →
    v.pending id = some q ∨ Signs c k v v' q.2 ∧ c.printer.fieldText q.2 k.identifierKey = id
  taken : ∀ id, taken = some id → (∃ q, v.pending id = some q) ∧ v'.pending id = none

theorem Sound.change (h : Sound c k v) (hchange : Change c k v v' taken) : Sound c k v' := by
  refine ⟨?_, fun id q hq => ?_⟩
  · rcases hchange.signed with hsame | ⟨mandate, id, hcreated, hnew, hsigned⟩
    · exact hsame ▸ h.apart
    · exact hsigned ▸ h.apart.cons hcreated hnew
  · rcases hchange.pending id q hq with hold | ⟨⟨id', -, -, hsigned⟩, hid⟩
    · obtain ⟨hmem, hid⟩ := h.pending id q hold
      refine ⟨?_, hid⟩
      rcases hchange.signed with hsame | ⟨mandate, -, -, -, hsigned⟩
      · exact hsame ▸ hmem
      · exact hsigned ▸ List.mem_cons_of_mem _ hmem
    · exact ⟨hsigned ▸ List.mem_cons_self .., hid⟩

theorem Change.mono (h : Change c k v v' taken) {m : Fields} (hm : m ∈ v.signed) : m ∈ v'.signed := by
  rcases h.signed with hsame | ⟨mandate, -, -, -, hsigned⟩
  · exact hsame ▸ hm
  · exact hsigned ▸ List.mem_cons_of_mem _ hm

theorem oneShot {σ ε : Type} {step : σ → ε → σ} {P : σ → ε → Prop} {taken : σ → ε → Option String} (view : σ → Authorizations)
    (h : ∀ s e, P s e → Change c k (view s) (view (step s e)) (taken s e)) :
    OneShot step P taken (fun s id => ∃ m ∈ (view s).signed, c.printer.fieldText m k.identifierKey = id)
      (fun s id => ∃ q, (view s).pending id = some q) where
  keeps he hoffered := by
    obtain ⟨m, hm, hid⟩ := hoffered
    exact ⟨m, (h _ _ he).mono hm, hid⟩
  opens he hpending := by
    obtain ⟨q, hq⟩ := hpending
    rcases (h _ _ he).pending _ q hq with hold | ⟨⟨id', hcreated, hnew, hsigned⟩, hid⟩
    · exact .inl ⟨q, hold⟩
    · refine .inr ⟨?_, q.2, hsigned ▸ List.mem_cons_self .., hid⟩
      rintro ⟨m, hm, hid'⟩
      exact hnew m hm (hid'.trans (hid.symm.trans hcreated.fieldText))
  takes he htaken := by
    obtain ⟨hpending, hnone⟩ := (h _ _ he).taken _ htaken
    refine ⟨hpending, ?_⟩
    rintro ⟨q, hq⟩
    exact nomatch hnone.symm.trans hq

theorem sound_empty : Sound c k ⟨[], fun _ => none⟩ :=
  ⟨⟨fun _ hm => (nomatch hm), fun _ hm => (nomatch hm)⟩, fun _ _ hq => (nomatch hq)⟩

theorem once_sound {σ ε : Type} {step : σ → ε → σ} {P : σ → ε → Prop} {taken : σ → ε → Option String} (view : σ → Authorizations) {s : σ}
    {events : List ε} (hP : Along step P s events) (hs : view s = ⟨[], fun _ => none⟩)
    (h : ∀ s e, P s e → Change c k (view s) (view (step s e)) (taken s e)) :
    (observed step taken s events).Nodup ∧ ∀ pre e post, events = pre ++ e :: post → Sound c k (view (run step s pre)) := by
  refine ⟨(oneShot view h).nodup hP fun id hid => ?_, ?_⟩
  · obtain ⟨q, hq⟩ := hid
    rw [hs] at hq
    cases hq
  · rintro pre e post rfl
    exact (along_append.mp hP).1.invariant (I := fun s => Sound c k (view s)) (hs ▸ sound_empty) fun s e hs he => hs.change (h s e he)

/-- What a service has that keeps its pending requests in a dict. -/
def ofDict {ρ : Type} (f : ρ → Fields × Fields) (signed : List Fields) (d : Dict String ρ) : Authorizations where
  signed
  pending id := (d.lookup id).map f

section Kept

variable {ρ : Type} {f : ρ → Fields × Fields} {signed signed' : List Fields} {old d : Dict String ρ} {id : String} {p : ρ}

theorem Change.kept (hd : ∀ id p, d.lookup id = some p → old.lookup id = some p)
    (hsigned : signed' = signed ∨ ∃ mandate, Signs c k (ofDict f signed old) (ofDict f signed' d) mandate) :
    Change c k (ofDict f signed old) (ofDict f signed' d) none := by
  refine { signed := hsigned, pending := fun id q hq => .inl ?_, taken := by rintro id ⟨⟩ }
  obtain ⟨p, hp, rfl⟩ := Option.map_eq_some_iff.mp hq
  exact Option.map_eq_some_iff.mpr ⟨p, hd id p hp, rfl⟩

theorem Change.set (hd : ∀ id p, d.lookup id = some p → old.lookup id = some p)
    (hsigns : Signs c k (ofDict f signed old) (ofDict f signed' (d.set id p)) (f p).2) (hid : c.printer.fieldText (f p).2 k.identifierKey = id) :
    Change c k (ofDict f signed old) (ofDict f signed' (d.set id p)) none := by
  refine { signed := .inr ⟨_, hsigns⟩, pending := fun id' q hq => ?_, taken := by rintro id ⟨⟩ }
  obtain ⟨p', hp', rfl⟩ := Option.map_eq_some_iff.mp hq
  rw [Dict.lookup_set] at hp'
  split at hp'
  · rename_i hsame
    obtain rfl := Option.some.inj hp'
    exact .inr ⟨hsigns, hid.trans hsame⟩
  · exact .inl (Option.map_eq_some_iff.mpr ⟨p', hd id' p' hp', rfl⟩)

theorem Change.erase (hd : ∀ id p, d.lookup id = some p → old.lookup id = some p) (hlookup : d.lookup id = some p) :
    Change c k (ofDict f signed old) (ofDict f signed (d.erase id)) (some id) := by
  refine { signed := .inl rfl, pending := fun id' q hq => .inl ?_, taken := fun id' hid => ?_ }
  · obtain ⟨p', hp', rfl⟩ := Option.map_eq_some_iff.mp hq
    rw [Dict.lookup_erase] at hp'
    split at hp'
    · cases hp'
    exact Option.map_eq_some_iff.mpr ⟨p', hd id' p' hp', rfl⟩
  · obtain rfl := Option.some.inj hid
    exact ⟨⟨_, Option.map_eq_some_iff.mpr ⟨p, hd id p hlookup, rfl⟩⟩, by simp [ofDict, Dict.lookup_erase]⟩

end Kept

end Authorizations

/-- An approved mandate is the pending one, it is not after its end, and it was signed by a credential of
the user of the request, where a signature is required. -/
structure Granted (c : Setup) (k : MandateKind) (mandate request pending : Fields) (now : ℚ) : Prop where
  same : k.Same c mandate pending
  inTime : ∃ n validTime last t, k.normalize c.printer mandate = .ok n ∧ n.get? "validTime" = some (.obj validTime) ∧
    validTime.get? k.endKey = some (.str last) ∧ strptime last = some t ∧ now ≤ (timegm t : ℚ)
  byUser : c.requireUserSignature = true → ∃ n method context, k.normalize c.printer mandate = .ok n ∧
    k.userSignatureContext c.printer n (OperationAuthorizationService.requestUser c.printer request) = .ok context ∧
    c.userSignatureMethod = some method ∧
    SignedByUser method context (signatureOf n "user") (OperationAuthorizationService.requestUser c.printer request)

theorem granted_of_verified {c : Setup} {k : MandateKind} {mandate n request pending : Fields} {now : ℚ}
    (hverified : k.Verified c mandate n (OperationAuthorizationService.requestUser c.printer request) now) (hsame : k.Same c mandate pending) :
    Granted c k mandate request pending now := by
  obtain ⟨validTime, last, t, hvalid, hlast, ht, hnow⟩ := hverified.time
  refine ⟨hsame, ⟨n, validTime, last, t, hverified.normalize, hvalid, hlast, ht, hnow⟩, fun hrequired => ?_⟩
  obtain ⟨context, hcontext, huser⟩ := hverified.user
  obtain ⟨method, hmethod, hsigned⟩ := verifyUserSignature_eq_none huser hrequired
  have hexpected := (MandateKind.userSignatureContext_ok (MandateKind.normalize_idem hverified.normalize) hcontext).1
  exact ⟨n, method, context, hverified.normalize, hcontext, hmethod, hexpected ▸ hsigned⟩

end AgentProtocol.A4P
