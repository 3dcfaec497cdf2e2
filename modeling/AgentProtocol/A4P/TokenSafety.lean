-- SUMMARY: What a positive answer to a token verification says, and for which requests it says all that is expected.
import AgentProtocol.A4P.IntentApprovals
import AgentProtocol.A4P.IntentService

/-!
# Safety of token verification

A token that is accepted has a core that was issued, is not expired, and has a scope that admits the call.
The identities that a request expects are compared as texts, an empty one is not compared at all, and
parameters that are no object count as none.
-/

namespace AgentProtocol.A4P

open Lib

def Setup.tokenKey (c : Setup) : TokenKey := { verify := c.key.verify }

/-- `verify_token`, which reads the clock once more for the usage. -/
def verifyToken (c : Setup) (usage : UsageTable) (req : Request) (now later : ℚ) (available : Bool) :
    Option TokenVerificationResponse × UsageTable :=
  match verifyIntentToken c.printer c.tokenKey req.token (req.expected c.printer) now with
  | some reason => (some (.reject reason (errorCode reason "TOKEN")), usage)
  | none =>
    let (consumed, usage) := consumeTokenUsage c.printer usage req.token later available
    (answerConsumed c.printer req consumed, usage)

/-- The answer is positive. -/
def Accepts (c : Setup) (usage : UsageTable) (req : Request) (now later : ℚ) (available : Bool) : Prop :=
  (verifyToken c usage req now later available).1.any (·.valid) = true

instance (c : Setup) (usage : UsageTable) (req : Request) (now later : ℚ) (available : Bool) : Decidable (Accepts c usage req now later available) :=
  inferInstanceAs (Decidable (_ = true))

/-! ## What is expected of a token -/

/-- The identities that a request may expect. -/
def identityKeys : List String := ["agentId", "userId", "agentKeyId"]

/-- The identity that a token carries. -/
def carried (p : Printer) (token : Fields) (key : String) : String :=
  let subject := (asDict (token.get? "subject")).getD .nil
  if key = "agentId" then p.fieldText subject "id"
  else if key = "userId" then p.fieldText ((asDict (token.get? "user")).getD .nil) "id"
  else agentKeyIdOf p subject

/-- The token carries the identities that are expected. -/
def Identities (p : Printer) (req : Request) : Prop :=
  ∀ key ∈ identityKeys, ∀ v, req.expectedFields.get? key = some v → v ≠ .null → v = .str (carried p req.token key)

/-- The parameters are absent, or an object that the scope admits for the action. -/
def Admitted (p : Printer) (req : Request) : Prop :=
  req.expectedFields.get? "params" = none ∨ ∃ params, req.expectedFields.get? "params" = some (.obj params) ∧
    paramsMatchIntentScope p ((asDict (req.token.get? "intent")).getD .nil) (req.expected p).action params = none

/-- The expected parameters are absent or an object. -/
def PlainParams (req : Request) : Prop :=
  req.expectedFields.get? "params" = none ∨ ∃ params, req.expectedFields.get? "params" = some (.obj params)

/-- The expected identities are texts, and empty only where the token carries none. -/
def PlainIdentities (p : Printer) (req : Request) : Prop :=
  ∀ key ∈ identityKeys, ∀ v, req.expectedFields.get? key = some v → v ≠ .null → ∃ text, v = .str text ∧ (text = "" → carried p req.token key = "")

/-! ## What the checks say -/

section Checks

variable {p : Printer} {key : TokenKey} {token : Fields} {expected : Expected} {now : ℚ}

structure TokenPasses (p : Printer) (key : TokenKey) (token : Fields) (expected : Expected) (now : ℚ) : Prop where
  signed : ∃ text, tokenText p token = .ok text ∧ key.verify text (p.fieldText token "signature") = true
  unexpired : ∃ expire, strptime (p.fieldText token "expireAt") = some expire ∧ now ≤ (timegm expire : ℚ)
  agent : expected.agentId.getD "" ≠ "" → carried p token "agentId" = expected.agentId.getD ""
  agentKey : expected.agentKeyId.getD "" ≠ "" → carried p token "agentKeyId" = expected.agentKeyId.getD ""
  user : expected.userId.getD "" ≠ "" → carried p token "userId" = expected.userId.getD ""
  scope : paramsMatchIntentScope p ((asDict (token.get? "intent")).getD .nil) expected.action expected.params = none

theorem orElse_eq_none {o : Option String} {o' : Unit → Option String} (h : o.orElse o' = none) : o = none ∧ o' () = none := by
  cases o with
  | none => exact ⟨rfl, h⟩
  | some reason => cases h

theorem tokenPasses (h : verifyIntentToken p key token expected now = none) : TokenPasses p key token expected now := by
  have hmatched : ∀ {wanted actual : String} {reason : String}, (if wanted ≠ "" ∧ actual ≠ wanted then some reason else none) = none →
      wanted ≠ "" → actual = wanted := by
    intro wanted actual reason hnone hwanted
    by_contra hne
    rw [if_pos ⟨hwanted, hne⟩] at hnone
    cases hnone
  unfold verifyIntentToken at h
  split at h
  · cases h
  dsimp only at h
  split at h
  · cases h
  split at h
  · cases h
  split at h
  · cases h
  split at h
  · cases h
  split at h
  · cases h
  rename_i text htext
  split at h
  · cases h
  rename_i hverify
  split at h
  · cases h
  split at h
  · cases h
  rename_i expire hexpire
  split at h
  · cases h
  rename_i hnow
  -- the three identities and the scope are what is left
  obtain ⟨hagent, h⟩ := orElse_eq_none h
  obtain ⟨hagentKey, h⟩ := orElse_eq_none h
  obtain ⟨huser, hscope⟩ := orElse_eq_none h
  exact ⟨⟨text, htext, by simpa using hverify⟩, ⟨expire, hexpire, not_lt.mp hnow⟩, hmatched hagent, hmatched hagentKey,
    hmatched huser, hscope⟩

end Checks

theorem tokenPasses_of_accepts {c : Setup} {usage : UsageTable} {req : Request} {now later : ℚ} {available : Bool}
    (h : Accepts c usage req now later available) : TokenPasses c.printer c.tokenKey req.token (req.expected c.printer) now := by
  unfold Accepts verifyToken at h
  split at h
  · cases h
  rename_i hnone
  exact tokenPasses hnone

/-! ## Identities and parameters -/

section Expected

variable {p : Printer} {key : TokenKey} {req : Request} {now : ℚ}

/-- The text that is compared with what the token carries. -/
def compared (e : Expected) (key : String) : Option String :=
  if key = "agentId" then e.agentId else if key = "userId" then e.userId else e.agentKeyId

theorem compared_expected {k : String} {v : Value} (hk : k ∈ identityKeys) (hv : req.expectedFields.get? k = some v) (hnull : v ≠ .null) :
    compared (req.expected p) k = some (p.text v) := by
  simp only [identityKeys, List.mem_cons, List.not_mem_nil, or_false] at hk
  rcases hk with rfl | rfl | rfl <;> simp [compared, Request.expected, hv, Option.filter, hnull]

variable (h : TokenPasses p key req.token (req.expected p) now)
include h

theorem TokenPasses.carries {k : String} (hk : k ∈ identityKeys) {text : String}
    (htext : compared (req.expected p) k = some text) (hne : text ≠ "") : carried p req.token k = text := by
  simp only [identityKeys, List.mem_cons, List.not_mem_nil, or_false] at hk
  rcases hk with rfl | rfl | rfl
  · have hexpected : (req.expected p).agentId = some text := htext
    have hcarried := h.agent
    rw [hexpected] at hcarried
    exact hcarried hne
  · have hexpected : (req.expected p).userId = some text := htext
    have hcarried := h.user
    rw [hexpected] at hcarried
    exact hcarried hne
  · have hexpected : (req.expected p).agentKeyId = some text := htext
    have hcarried := h.agentKey
    rw [hexpected] at hcarried
    exact hcarried hne

theorem TokenPasses.identities_iff : Identities p req ↔ PlainIdentities p req := by
  constructor
  · intro hidentities k hk v hv hnull
    have hcarried := hidentities k hk v hv hnull
    exact ⟨_, hcarried, id⟩
  · intro hplain k hk v hv hnull
    obtain ⟨text, rfl, hempty⟩ := hplain k hk v hv hnull
    apply congrArg Value.str
    by_cases htext : text = ""
    · rw [htext, hempty htext]
    · exact (h.carries hk (compared_expected hk hv hnull) htext).symm

theorem TokenPasses.admitted_iff : Admitted p req ↔ PlainParams req := by
  constructor
  · rintro (hnone | ⟨params, hparams, -⟩)
    · exact .inl hnone
    · exact .inr ⟨params, hparams⟩
  · rintro (hnone | ⟨params, hparams⟩)
    · exact .inl hnone
    · refine .inr ⟨params, hparams, ?_⟩
      have hscope := h.scope
      have hexpected : (req.expected p).params = params := by simp [Request.expected, hparams]
      rw [hexpected] at hscope
      exact hscope

omit h

end Expected

/-! ## Where tokens come from -/

theorem tokenText_ne_serverText {p : Printer} (hfloat : Value.FloatText p.float) {token core : Fields} {text : String}
    (h : tokenText p token = .ok text) : MandateKind.serverText p core ≠ .ok text := by
  intro hserver
  unfold tokenText at h
  obtain ⟨tokenCore, -, htext⟩ := bind_eq_ok.mp h
  split at htext
  · cases htext
  rename_i text' hcanonical
  obtain rfl := Except.ok.inj htext
  have hscope := Value.sorted_get? (Value.sorted_eq_of_canonicalJson hfloat (canonicalJson_eq_some hserver) hcanonical)
    (by simp [Fields.keys]) (by simp [Fields.keys]) "scope"
  simp [Fields.ofList, Fields.get?, Value.sorted] at hscope

theorem sorted_tokenCore {p : Printer} (hfloat : Value.FloatText p.float) {token token' : Fields} {text : String}
    (h : tokenText p token = .ok text) (h' : tokenText p token' = .ok text) :
    ∃ core core', intentTokenCorePayload p token = .ok core ∧ intentTokenCorePayload p token' = .ok core' ∧
      Value.sorted (.obj core) = Value.sorted (.obj core') := by
  unfold tokenText at h h'
  obtain ⟨core, hcore, htext⟩ := bind_eq_ok.mp h
  obtain ⟨core', hcore', htext'⟩ := bind_eq_ok.mp h'
  split at htext
  · cases htext
  rename_i text₁ hcanonical
  split at htext'
  · cases htext'
  rename_i text₂ hcanonical'
  obtain rfl := Except.ok.inj htext
  obtain rfl := Except.ok.inj htext'
  have htoken := Value.sorted_get? (Value.sorted_eq_of_canonicalJson hfloat hcanonical hcanonical')
    (by simp [Fields.keys]) (by simp [Fields.keys]) "token"
  exact ⟨core, core', hcore, hcore', by simpa [Fields.ofList, Fields.get?] using htoken⟩

namespace IntentAuthorizationService

variable {c : Setup}

/-- A token was issued by a completion of the run that was approved. -/
def WasIssued (c : Setup) (events : List (Option UserSignatureMethod × Event)) (token : Fields) : Prop :=
  ∃ pre post method req now later seed response, events = pre ++ (method, Event.complete req now later seed) :: post ∧
    ((run (stepWith c) {} pre).complete (c.withMethod method) req now later seed).1 = .ok response ∧ response.approved = true ∧
    response.intentToken = some token

theorem WasIssued.append {events : List (Option UserSignatureMethod × Event)} {token : Fields} (h : WasIssued c events token)
    (e : Option UserSignatureMethod × Event) : WasIssued c (events ++ [e]) token := by
  obtain ⟨pre, post, method, req, now, later, seed, response, rfl, hrest⟩ := h
  exact ⟨pre, post ++ [e], method, req, now, later, seed, response, by simp, hrest⟩

theorem issued_prepare (c : Setup) (s : IntentAuthorizationService) (req : Request) (token : String) (now : ℚ) :
    (s.prepare c req token now).2.issued = s.issued := by
  unfold prepare
  split
  · rfl
  · split
    · rfl
    · dsimp only
      split
      · rfl
      · split <;> rfl

theorem wasIssued_of_issued (events : List (Option UserSignatureMethod × Event)) :
    ∀ token ∈ (run (stepWith c) {} events).issued, WasIssued c events token := by
  refine run_induct
    (I := fun events (s : IntentAuthorizationService) => ∀ token ∈ s.issued, WasIssued c events token) ?_ ?_ events
  · intro token htoken
    cases htoken
  · rintro pre ⟨method, e⟩ ih token htoken
    cases e with
    | prepare req seed now =>
      have hsame : (stepWith c (run (stepWith c) {} pre) (method, .prepare req seed now)).issued = (run (stepWith c) {} pre).issued := by
        simp only [stepWith, step]
        exact issued_prepare (c.withMethod method) _ req seed now
      exact (ih token (hsame ▸ htoken)).append _
    | complete req now later seed =>
      rcases complete_cases (c.withMethod method) (run (stepWith c) {} pre) req now later seed with
        ⟨mandate, mandateId, p, n, issued, happroved⟩ | hrejected
      · simp only [stepWith, step, happroved.taken] at htoken
        rcases List.mem_cons.mp htoken with rfl | hold
        · exact ⟨pre, [], method, req, now, later, seed, _, rfl, happroved.result, rfl, rfl⟩
        · exact (ih token hold).append _
      · simp only [stepWith, step, hrejected.kept] at htoken
        exact (ih token htoken).append _

/-- Nobody but the server can sign: a token with a valid signature has the text of a mandate or of a token
that was signed. -/
def UnforgedToken (c : Setup) (s : IntentAuthorizationService) (token : Fields) : Prop :=
  ∀ text, tokenText c.printer token = .ok text → c.key.verify text (c.printer.fieldText token "signature") = true →
    (∃ mandate ∈ s.signed, MandateKind.serverText c.printer (MandateKind.intent.core mandate) = .ok text) ∨
      ∃ issued ∈ s.issued, tokenText c.printer issued = .ok text

/-- What a positive answer says after a run of intent authorizations. -/
structure FailsClosed (c : Setup) (events : List (Option UserSignatureMethod × Event)) (req : Request) (now : ℚ) : Prop where
  issued : ∃ token core core', WasIssued c events token ∧ intentTokenCorePayload c.printer req.token = .ok core ∧
    intentTokenCorePayload c.printer token = .ok core' ∧ Value.sorted (.obj core) = Value.sorted (.obj core')
  unexpired : ∃ expire, strptime (c.printer.fieldText req.token "expireAt") = some expire ∧ now ≤ (timegm expire : ℚ)
  admitted : Admitted c.printer req
  identities : Identities c.printer req

/-- After every run, a token that is accepted has the core of a token that an approved completion issued,
is not expired, has a scope that admits the expected call, and carries the expected identities, exactly if
the expected parameters and identities are plain. -/
theorem verifyToken_failsClosed_iff (c : Setup) (hfloat : Value.FloatText c.printer.float)
    (events : List (Option UserSignatureMethod × Event)) (usage : UsageTable) (req : Request) (now later : ℚ) (available : Bool)
    (hunforged : UnforgedToken c (run (stepWith c) {} events) req.token) (h : Accepts c usage req now later available) :
    FailsClosed c events req now ↔ PlainParams req ∧ PlainIdentities c.printer req := by
  have hpasses := tokenPasses_of_accepts h
  constructor
  · intro hclosed
    exact ⟨hpasses.admitted_iff.mp hclosed.admitted, hpasses.identities_iff.mp hclosed.identities⟩
  · rintro ⟨hparams, hidentities⟩
    refine ⟨?_, hpasses.unexpired, hpasses.admitted_iff.mpr hparams, hpasses.identities_iff.mpr hidentities⟩
    obtain ⟨text, htext, hverify⟩ := hpasses.signed
    rcases hunforged text htext hverify with ⟨mandate, -, hmandate⟩ | ⟨token, htoken, htext'⟩
    · exact absurd hmandate (tokenText_ne_serverText hfloat htext)
    obtain ⟨core, core', hcore, hcore', hsame⟩ := sorted_tokenCore hfloat htext htext'
    exact ⟨token, core, core', wasIssued_of_issued events token htoken, hcore, hcore', hsame⟩

/-! ### An accepted token -/

def tokenAct : Fields := (run (stepWith plainSetup) {} approvedAct).issued.head?.getD .nil

theorem tokenAct_spec : (Value.obj tokenAct).distinct = true ∧ tokenAct ∈ (run (stepWith plainSetup) {} approvedAct).issued ∧
    carried plainSetup.printer tokenAct "agentId" = "agent:agent" := by decide +kernel

/-- The token is presented for the action by some agent. -/
def verifyAct (agentId : String) : Request where
  fields := .ofList [("token", .obj tokenAct), ("expected", .obj (.ofList [("action", .str "act"), ("agentId", .str agentId)]))]
  distinct := by
    have htoken := tokenAct_spec.1
    simp only [Value.distinct, Bool.and_eq_true] at htoken
    simp [Fields.ofList, Fields.keys, Fields.toList, Value.distinct, Value.distinctFields, htoken.2]
    simpa [Fields.keys] using htoken.1

theorem accepts_verifyAct : Accepts plainSetup ∅ (verifyAct "agent:agent") 1 1 true ∧ Accepts plainSetup ∅ (verifyAct "") 1 1 true := by
  decide +kernel

theorem token_verifyAct (agentId : String) : (verifyAct agentId).token = tokenAct := by
  simp [Request.token, Request.payload, verifyAct, Fields.ofList, Fields.get?, asDict]

theorem unforged_act (agentId : String) : UnforgedToken plainSetup (run (stepWith plainSetup) {} approvedAct) (verifyAct agentId).token := by
  rw [token_verifyAct]
  exact fun _ htext _ => .inr ⟨tokenAct, tokenAct_spec.2.1, htext⟩

theorem expectedFields_verifyAct (agentId : String) :
    (verifyAct agentId).expectedFields = .ofList [("action", .str "act"), ("agentId", .str agentId)] := by
  simp [Request.expectedFields, Request.payload, verifyAct, Fields.ofList, Fields.get?, asDict]

/-- The agent that the token is for may use it. -/
theorem verifyToken_failsClosed_iff_sample : FailsClosed plainSetup approvedAct (verifyAct "agent:agent") 1 := by
  refine (verifyToken_failsClosed_iff plainSetup Value.floatText_fractionText approvedAct ∅ (verifyAct "agent:agent") 1 1 true (unforged_act _)
    accepts_verifyAct.1).mpr ⟨.inl ?_, ?_⟩
  · simp [expectedFields_verifyAct, Fields.ofList, Fields.get?]
  · intro key hkey v hv _
    simp only [identityKeys, List.mem_cons, List.not_mem_nil, or_false] at hkey
    rcases hkey with rfl | rfl | rfl <;> simp [expectedFields_verifyAct, Fields.ofList, Fields.get?] at hv
    exact ⟨_, hv.symm, fun h => by simp at h⟩

/-- Who expects an agent with an empty id gets the token of another agent accepted. -/
theorem verifyToken_not_failsClosed :
    ¬ ∀ (c : Setup), Value.FloatText c.printer.float → ∀ (events : List (Option UserSignatureMethod × Event)) (usage : UsageTable)
        (req : Request) (now later : ℚ) (available : Bool), UnforgedToken c (run (stepWith c) {} events) req.token →
          Accepts c usage req now later available → FailsClosed c events req now := by
  intro h
  have hidentities := (h plainSetup Value.floatText_fractionText approvedAct ∅ (verifyAct "") 1 1 true (unforged_act _) accepts_verifyAct.2).identities
  have hcarried := hidentities "agentId" (by simp [identityKeys]) (.str "")
    (by simp [expectedFields_verifyAct, Fields.ofList, Fields.get?]) (fun h => by cases h)
  rw [token_verifyAct, tokenAct_spec.2.2] at hcarried
  simp at hcarried

end IntentAuthorizationService

end AgentProtocol.A4P
