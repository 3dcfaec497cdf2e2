-- SUMMARY: Token verification against a shared usage store: at most as many executions as granted, if none is consumed after the expiry.
import AgentProtocol.A4P.IntentToken
import AgentProtocol.A4P.UsageStore
import AgentProtocol.Lib.Run

/-!
# Verification of intent tokens

A call first verifies the token, which reads the clock, and then consumes an execution in one
transaction on the usage store, which reads the clock again. Between the two, other calls of this or
of other processes may run, and the clock may advance.
-/

namespace AgentProtocol.A4P

open Lib

structure TokenVerificationResponse where
  valid : Bool
  reason : Option String := none
  code : Option String := none
  matchedScope : Option Fields := none

def TokenVerificationResponse.reject (reason code : String) : TokenVerificationResponse :=
  { valid := false, reason := some reason, code := some code }

namespace Request

variable (req : Request)

def token : Fields := (asDict (req.payload.get? "token")).getD .nil

def expectedFields : Fields := (asDict (req.payload.get? "expected")).getD .nil

/-- What the request expects the token to grant. -/
def expected (p : Printer) : Expected :=
  let d := req.expectedFields
  let optional (key : String) : Option String := ((d.get? key).filter (· ≠ .null)).map p.text
  { action := p.text (((d.get? "action").filter truthy).getD (.str "")), params := (asDict (d.get? "params")).getD .nil
    agentId := optional "agentId", userId := optional "userId", agentKeyId := optional "agentKeyId" }

end Request

/-! ## A call -/

/-- What `_consume_token_usage` gives: a reason, or the usage that is reported. -/
abbrev Consumed := String ⊕ Option (ℤ × ℤ)

def consumeTokenUsage (p : Printer) (usage : UsageTable) (token : Fields) (now : ℚ) (available : Bool) :
    Except ConsumeError Consumed × UsageTable :=
  let tokenId := p.fieldText token "tokenId"
  if tokenId = "" then (.ok (.inl "Token tokenId missing"), usage)
  else match normalizeIntentScope p (token.get? "intent") with
    | .error reason => (.ok (.inl reason), usage)
    | .ok intent => match intent.maxExecutions with
      | none => (.ok (.inr none), usage)
      | some maxExecutions => match strptime (p.fieldText token "expireAt") with
        | none => (.error (.store "Intent token expiration is invalid"), usage)
        | some expire =>
          match usage.consume { tokenId, maxExecutions, expireAtEpoch := timegm expire } now available with
          | (.error e, usage) => (.error e, usage)
          | (.ok (false, _), usage) => (.ok (.inl "Token execution usage exceeded"), usage)
          | (.ok (true, used), usage) => (.ok (.inr (some (used, maxExecutions))), usage)

/-- The scope in a positive answer. -/
def matchedScope (req : Request) (p : Printer) (usage : Option (ℤ × ℤ)) : Fields :=
  .ofList ([("action", (req.expectedFields.get? "action").getD .null), ("params", .obj (req.expected p).params)] ++
    (usage.map fun u => ("usage", Value.obj (.ofList [("executionsUsed", .int u.1), ("executionsLimit", .int u.2)]))).toList)

/-- The answer after an execution was consumed; other errors are raised. -/
def answerConsumed (p : Printer) (req : Request) : Except ConsumeError Consumed → Option TokenVerificationResponse
  | .error (.store _) => some (.reject "Intent token usage store unavailable" "TOKEN_USAGE_STORE_ERROR")
  | .error _ => none
  | .ok (.inl reason) => some (.reject reason "TOKEN_USAGE_EXCEEDED")
  | .ok (.inr usage) => some { valid := true, matchedScope := some (matchedScope req p usage) }

/-! ## Calls side by side -/

/-- The processes of a server that share a usage store. -/
structure TokenServers where
  now : ℚ
  usage : UsageTable := ∅
  /-- The calls whose token was verified. -/
  waiting : Dict ℕ Request := ∅
  answers : List (Request × TokenVerificationResponse) := []

namespace TokenServers

inductive Event where
  | tick (now : ℚ)
  /-- `verify_token` up to the stateless verification. -/
  | verify (call : ℕ) (req : Request)
  /-- The rest of the call; the database may be out of reach. -/
  | consume (call : ℕ) (available : Bool)

variable (p : Printer) (key : TokenKey)

def step (s : TokenServers) : Event → TokenServers
  | .tick now => if s.now ≤ now then { s with now } else s
  | .verify call req =>
    if (s.waiting.lookup call).isSome then s
    else match verifyIntentToken p key req.token (req.expected p) s.now with
      | some reason => { s with answers := (req, .reject reason (errorCode reason "TOKEN")) :: s.answers }
      | none => { s with waiting := s.waiting.set call req }
  | .consume call available => match s.waiting.lookup call with
    | none => s
    | some req =>
      let (consumed, usage) := consumeTokenUsage p s.usage req.token s.now available
      { s with
        usage
        waiting := s.waiting.erase call
        answers := ((answerConsumed p req consumed).map fun answer => (req, answer)).toList ++ s.answers }

/-! ## Executions -/

/-- What a token grants, if it has an execution policy. -/
def quotaOf (token : Fields) : Option Quota := do
  let intent ← (normalizeIntentScope p (token.get? "intent")).toOption
  let maxExecutions ← intent.maxExecutions
  let expire ← strptime (p.fieldText token "expireAt")
  let tokenId := p.fieldText token "tokenId"
  if tokenId = "" then none else some { tokenId, maxExecutions, expireAtEpoch := timegm expire }

def Executes (q : Quota) (answer : Request × TokenVerificationResponse) : Bool :=
  answer.2.valid && quotaOf p answer.1.token = some q

def executions (q : Quota) (s : TokenServers) : ℕ := s.answers.countP (Executes p q)

/-- No execution of the token is consumed in or after the second of its expiry. -/
def InTime (q : Quota) (s : TokenServers) : Event → Prop
  | .consume call _ => ∀ req ∈ s.waiting.lookup call, quotaOf p req.token = some q → ⌊s.now⌋ < q.expireAtEpoch
  | _ => True

instance (q : Quota) (s : TokenServers) : (e : Event) → Decidable (InTime p q s e)
  | .tick _ => inferInstanceAs (Decidable True)
  | .verify _ _ => inferInstanceAs (Decidable True)
  | .consume call _ =>
    inferInstanceAs (Decidable (∀ req ∈ s.waiting.lookup call, quotaOf p req.token = some q → ⌊s.now⌋ < q.expireAtEpoch))

/-! ## At most as many as granted -/

section Quota

variable {p : Printer} {key : TokenKey} {q : Quota}

theorem quotaOf_pos {token : Fields} (h : quotaOf p token = some q) : 0 < q.maxExecutions := by
  unfold quotaOf at h
  simp only [Option.bind_eq_bind, Option.bind_eq_some_iff] at h
  obtain ⟨intent, hintent, n, hn, expire, -, hq⟩ := h
  split at hq
  · cases hq
  obtain rfl := Option.some.inj hq
  cases hscope : normalizeIntentScope p (token.get? "intent") with
  | error e => simp [hscope, Except.toOption] at hintent
  | ok scope =>
    obtain rfl : scope = intent := by simpa [hscope, Except.toOption] using hintent
    exact normalizeIntentScope_pos hscope hn

theorem consumeTokenUsage_cases (usage : UsageTable) (req : Request) (now : ℚ) (available : Bool) :
    ((consumeTokenUsage p usage req.token now available).2 = usage ∧
        ∀ answer, answerConsumed p req (consumeTokenUsage p usage req.token now available).1 = some answer →
          answer.valid = true → quotaOf p req.token = none) ∨
      ∃ q, quotaOf p req.token = some q ∧ (consumeTokenUsage p usage req.token now available).2 = (usage.transaction q now).2 ∧
        ∀ answer, answerConsumed p req (consumeTokenUsage p usage req.token now available).1 = some answer →
          answer.valid = granted (usage.transaction q now).1 := by
  have hstrip : Text.strip (p.fieldText req.token "tokenId") = p.fieldText req.token "tokenId" := Text.strip_idem _
  by_cases hid : p.fieldText req.token "tokenId" = ""
  · refine .inl ⟨by simp [consumeTokenUsage, hid], fun answer hanswer hvalid => ?_⟩
    simp only [consumeTokenUsage, hid, if_true, answerConsumed] at hanswer
    obtain rfl := Option.some.inj hanswer
    cases hvalid
  · cases hscope : normalizeIntentScope p (req.token.get? "intent") with
    | error reason =>
      refine .inl ⟨by simp [consumeTokenUsage, hid, hscope], fun answer hanswer hvalid => ?_⟩
      simp only [consumeTokenUsage, hid, if_false, hscope, answerConsumed] at hanswer
      obtain rfl := Option.some.inj hanswer
      cases hvalid
    | ok scope =>
      cases hmax : scope.maxExecutions with
      | none =>
        refine .inl ⟨by simp [consumeTokenUsage, hid, hscope, hmax], fun answer _ _ => ?_⟩
        simp [quotaOf, hscope, hmax, Except.toOption]
      | some n =>
        cases hexpire : strptime (p.fieldText req.token "expireAt") with
        | none =>
          refine .inl ⟨by simp [consumeTokenUsage, hid, hscope, hmax, hexpire], fun answer _ _ => ?_⟩
          simp [quotaOf, hscope, hexpire, Except.toOption]
        | some expire =>
          have hquota : quotaOf p req.token =
              some { tokenId := p.fieldText req.token "tokenId", maxExecutions := n, expireAtEpoch := timegm expire } := by
            simp [quotaOf, hscope, hmax, hexpire, hid, Except.toOption]
          have hconsumed : consumeTokenUsage p usage req.token now available =
              match usage.consume { tokenId := p.fieldText req.token "tokenId", maxExecutions := n, expireAtEpoch := timegm expire } now available with
              | (.error e, usage) => (.error e, usage)
              | (.ok (false, _), usage) => (.ok (.inl "Token execution usage exceeded"), usage)
              | (.ok (true, used), usage) => (.ok (.inr (some (used, n))), usage) := by
            simp [consumeTokenUsage, hid, hscope, hmax, hexpire]
          set q : Quota := { tokenId := p.fieldText req.token "tokenId", maxExecutions := n, expireAtEpoch := timegm expire }
          rcases usage.consume_cases (q := q) hstrip now available with ⟨e, he⟩ | htransaction
          · rw [hconsumed, he]
            refine .inl ⟨rfl, fun answer hanswer hvalid => ?_⟩
            cases e with
            | store message =>
              obtain rfl := Option.some.inj hanswer
              cases hvalid
            | valueError | overflow => cases hanswer
          · refine .inr ⟨q, hquota, ?_⟩
            rw [hconsumed, htransaction]
            rcases usage.transaction q now with ⟨result, usage'⟩
            cases result with
            | error e =>
              refine ⟨rfl, fun answer hanswer => ?_⟩
              cases e with
              | store message =>
                obtain rfl := Option.some.inj hanswer
                rfl
              | valueError | overflow => cases hanswer
            | ok r =>
              obtain ⟨consumed, used⟩ := r
              cases consumed with
              | false | true =>
                refine ⟨rfl, fun answer hanswer => ?_⟩
                obtain rfl := Option.some.inj hanswer
                rfl

/-- No token is used more often than it grants; before its expiry, the store counts its uses. -/
structure Within (p : Printer) (q : Quota) (s : TokenServers) : Prop where
  bound : executions p q s ≤ q.maxExecutions
  counts : ⌊s.now⌋ < q.expireAtEpoch → s.usage.Counts q (executions p q s)

theorem executions_le {req : Request} (answers : List (Request × TokenVerificationResponse))
    (answer : Option TokenVerificationResponse) (counted : Prop) [Decidable counted]
    (hcounted : ∀ a, answer = some a → a.valid = true → quotaOf p req.token = some q → counted) :
    ((answer.map fun a => (req, a)).toList ++ answers).countP (Executes p q) ≤
      answers.countP (Executes p q) + if counted then 1 else 0 := by
  rw [List.countP_append]
  cases answer with
  | none => simp
  | some a =>
    by_cases hexecutes : Executes p q (req, a) = true
    · obtain ⟨hvalid, hquota⟩ := Bool.and_eq_true_iff.mp hexecutes
      rw [if_pos (hcounted a rfl hvalid (of_decide_eq_true hquota))]
      simp [hexecutes]
      omega
    · simp [hexecutes]

theorem Within.step {s : TokenServers} (h : Within p q s) (hpos : 0 < q.maxExecutions) {e : Event} (he : InTime p q s e) :
    Within p q (step p key s e) := by
  cases e with
  | tick now =>
    unfold TokenServers.step
    dsimp only
    split
    · rename_i hle
      exact ⟨h.bound, fun hnow => h.counts ((Int.floor_le_floor hle).trans_lt hnow)⟩
    · exact h
  | verify call req =>
    unfold TokenServers.step
    dsimp only
    split
    · exact h
    · split
      · rename_i reason _
        have hsame : executions p q { s with answers := (req, .reject reason (errorCode reason "TOKEN")) :: s.answers } = executions p q s := by
          simp [executions, Executes, TokenVerificationResponse.reject]
        exact ⟨hsame ▸ h.bound, hsame ▸ h.counts⟩
      · exact ⟨h.bound, h.counts⟩
  | consume call available =>
    unfold TokenServers.step
    dsimp only
    split
    · exact h
    · rename_i req hwaiting
      have hcases := consumeTokenUsage_cases (p := p) s.usage req s.now available
      generalize consumeTokenUsage p s.usage req.token s.now available = c at hcases ⊢
      obtain ⟨consumed, usage⟩ := c
      dsimp only at hcases ⊢
      rcases hcases with ⟨rfl, hanswer⟩ | ⟨q', hquota, rfl, hanswer⟩
      · -- nothing is consumed
        have hle := executions_le (q := q) s.answers (answerConsumed p req consumed) False fun a ha hvalid hquota => by
          cases (hanswer a ha hvalid).symm.trans hquota
        exact ⟨le_trans (by exact_mod_cast hle) h.bound, fun hnow => (h.counts hnow).mono hle⟩
      · have hle := executions_le (q := q) s.answers (answerConsumed p req consumed)
          (q' = q ∧ granted (s.usage.transaction q' s.now).1 = true)
          fun a ha hvalid hq => ⟨Option.some.inj (hquota.symm.trans hq), (hanswer a ha).symm.trans hvalid⟩
        by_cases hq : q' = q
        · have hnow : ⌊s.now⌋ < q.expireAtEpoch := he req hwaiting (hquota.trans (congrArg some hq))
          have hcounts := ((h.counts hnow).transaction hpos hnow).mono hle
          exact ⟨hcounts.le hpos, fun _ => hcounts⟩
        · have hle' := hle
          rw [if_neg fun h => hq h.1] at hle'
          refine ⟨le_trans (by exact_mod_cast hle') h.bound, fun hnow => ?_⟩
          exact ((h.counts hnow).transaction hpos hnow).mono hle

/-- In every run in which no execution of a token is consumed in or after the second of its expiry,
at most as many calls as the token grants are answered positively. -/
theorem executions_within_quota (p : Printer) (key : TokenKey) (token : Fields) (q : Quota) (hquota : quotaOf p token = some q)
    (now : ℚ) (events : List Event) (h : Along (TokenServers.step p key) (InTime p q) { now } events) :
    executions p q (run (TokenServers.step p key) { now } events) ≤ q.maxExecutions := by
  have hpos := quotaOf_pos hquota
  have hinit : Within p q { now } := by
    refine ⟨?_, fun _ => ⟨?_, fun _ => rfl⟩⟩
    · simp [executions, hpos.le]
    · rintro row ⟨⟩
  exact (h.invariant hinit fun s e hs he => hs.step hpos he).bound

end Quota

/-! ### Two calls for a token that grants one execution -/

def plainPrinter : Printer := { float := Value.fractionText, str := fun _ => "" }

def plainKey : TokenKey := { verify := fun _ signature => signature = "sig" }

/-- A token for one execution in the first ten seconds. -/
def onceToken : Fields :=
  .ofList [("type", .str "a4p/v1/intent-token"), ("tokenId", .str "token"), ("mandateId", .str "m"),
    ("intent", .obj (.ofList [
      ("actions", listValue [.obj (.ofList [("name", .str "act"), ("params", .str "*")])]),
      ("executionPolicy", .obj (.ofList [("maxExecutions", .int 1)]))])),
    ("expireAt", .str "1970-01-01T00:00:10Z"), ("alg", .str "EdDSA"), ("keyId", .str "server#intent-token-v1:m"),
    ("signature", .str "sig")]

def onceQuota : Quota := { tokenId := "token", maxExecutions := 1, expireAtEpoch := 10 }

def callOnce : Request where
  fields := .ofList [("token", .obj onceToken), ("expected", .obj (.ofList [("action", .str "act")]))]
  distinct := by decide +kernel

/-- Two calls are verified, and consume one after the other, with a pause between. -/
def twoCalls (pause : List Event) : List Event :=
  [.verify 0 callOnce, .verify 1 callOnce, .consume 0 true] ++ pause ++ [.consume 1 true]

/-- Without a pause, one of them gets through. -/
theorem executions_within_quota_sample :
    executions plainPrinter onceQuota (run (TokenServers.step plainPrinter plainKey) { now := 0 } (twoCalls [])) ≤
        onceQuota.maxExecutions ∧
      executions plainPrinter onceQuota (run (TokenServers.step plainPrinter plainKey) { now := 0 } (twoCalls [])) = 1 :=
  ⟨executions_within_quota plainPrinter plainKey onceToken onceQuota (by decide +kernel) 0 (twoCalls []) (by decide +kernel),
    by decide +kernel⟩

/-- If the token expires in the pause, both get through. -/
theorem executions_exceed_quota :
    ¬ ∀ (p : Printer) (key : TokenKey) (token : Fields) (q : Quota), quotaOf p token = some q → ∀ (now : ℚ) (events : List Event),
      executions p q (run (TokenServers.step p key) { now } events) ≤ q.maxExecutions := by
  intro h
  exact absurd (h plainPrinter plainKey onceToken onceQuota (by decide +kernel) 0 (twoCalls [.tick 10])) (by decide +kernel)

end TokenServers

end AgentProtocol.A4P
