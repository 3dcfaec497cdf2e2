-- SUMMARY: The checks at completion, for both kinds of mandates: what a mandate that passes is, and what passes.
import AgentProtocol.A4P.Challenge

/-!
# The checks at completion

Both checks go through the type, the server's signature, the user's signature and the validity; that of
an operation mandate compares the operation first, that of an intent mandate the server last.
-/

namespace AgentProtocol.A4P

open Lib

namespace MandateKind

def endKey : MandateKind → String
  | .intent => "end"
  | .operation => "until"

/-- What a mandate that passes the checks is. -/
structure Verified (c : Setup) (k : MandateKind) (mandate n : Fields) (expectedUserId : String) (now : ℚ) : Prop where
  type : mandate.get? "type" = some (.str k.typeText)
  normalize : k.normalize c.printer mandate = .ok n
  server : ∃ signature text, A4P.serverSignature n = .ok signature ∧ serverText c.printer (k.core n) = .ok text ∧
    c.key.verify text signature = true
  user : ∃ context, k.userSignatureContext c.printer n expectedUserId = .ok context ∧ verifyUserSignature c context (signatureOf n "user") = none
  time : ∃ validTime last t, n.get? "validTime" = some (.obj validTime) ∧ validTime.get? k.endKey = some (.str last) ∧
    strptime last = some t ∧ now ≤ (timegm t : ℚ)

variable {c : Setup} {mandate n : Fields} {now : ℚ}

theorem checkUntil_eq_none (h : checkUntil n now = .ok none) : ∃ validTime last t, n.get? "validTime" = some (.obj validTime) ∧
    validTime.get? "until" = some (.str last) ∧ strptime last = some t ∧ now ≤ (timegm t : ℚ) := by
  unfold checkUntil at h
  split at h
  · rename_i validTime hvalid
    split at h
    · cases h
    · rename_i last hlast
      have hlast' := (Option.filter_eq_some_iff.mp hlast).1
      split at h
      · cases h
      rename_i t ht
      split at h
      · cases h
      rename_i hnot
      cases hget : n.get? "validTime" with
      | none =>
        rw [hget] at hvalid
        obtain rfl := Value.obj.inj hvalid
        cases hlast'
      | some v =>
        rw [hget] at hvalid
        exact ⟨validTime, last, t, congrArg some hvalid, hlast', ht, not_lt.mp hnot⟩
    · cases h
  · cases h

theorem checkValidTime_eq_none (h : checkValidTime n now = .ok none) : ∃ validTime last t, n.get? "validTime" = some (.obj validTime) ∧
    validTime.get? "end" = some (.str last) ∧ strptime last = some t ∧ now ≤ (timegm t : ℚ) := by
  unfold checkValidTime at h
  split at h
  · rename_i validTime hvalid
    split at h
    · rename_i startValue endValue hstart hend
      have hend' := (Option.filter_eq_some_iff.mp hend).1
      obtain ⟨start, hstart', hrest⟩ := bind_eq_ok.mp h
      split at hrest
      · cases hrest
      obtain ⟨last, hlast, hrest'⟩ := bind_eq_ok.mp hrest
      split at hrest'
      · cases hrest'
      split at hrest'
      · cases hrest'
      split at hrest'
      · cases hrest'
      rename_i t _ hnot
      cases endValue with
      | str text =>
        cases hget : n.get? "validTime" with
        | none =>
          rw [hget] at hvalid
          obtain rfl := Value.obj.inj hvalid
          cases hend'
        | some v =>
          rw [hget] at hvalid
          exact ⟨validTime, text, t, congrArg some hvalid, hend', Except.ok.inj hlast, not_lt.mp hnot⟩
      | null | bool | int | float | arr | obj => cases hlast
    · cases h
  · cases h

theorem serverPayload_core (hn : MandateKind.operation.normalize c.printer mandate = .ok n) :
    serverPayload c.printer mandate = serverText c.printer (MandateKind.operation.core n) := by
  simp only [serverPayload, operationMandateCorePayload_eq, normalize_corePayload hn, bind, Except.bind]
  rfl

theorem verified_of_operation {expected : Operation} {expectedUserId : String}
    (h : verifyOperationMandateForCompletion c mandate expected expectedUserId now = .ok none) :
    ∃ n, Verified c .operation mandate n expectedUserId now := by
  obtain ⟨n, signature, text, context, htype, hnormalize, hsignature, htext, hverify, hcontext, huser, htime⟩ := verify_eq_none h
  rw [serverPayload_core (c := c) (normalize_idem hnormalize)] at htext
  exact ⟨n, htype, hnormalize, ⟨signature, text, hsignature, htext, hverify⟩, ⟨context, hcontext, huser⟩, checkUntil_eq_none htime⟩

theorem verified_of_intent {expectedServer expectedUserId : String}
    (h : verifyIntentMandate c mandate expectedServer expectedUserId now = .ok none) :
    ∃ n, Verified c .intent mandate n expectedUserId now := by
  obtain ⟨htype, h⟩ := passes h nofun
  obtain ⟨n, hnormalize, h⟩ := of_caught h fun _ => nofun
  have hcore : intentMandateCorePayload c.printer n = .ok (MandateKind.intent.core n) :=
    normalize_corePayload (k := .intent) (normalize_idem hnormalize)
  obtain ⟨-, h⟩ := passes h nofun
  obtain ⟨signature, hsignature, h⟩ := bind_eq_ok.mp h
  obtain ⟨-, h⟩ := passes h nofun
  obtain ⟨core, hcore', h⟩ := bind_eq_ok.mp h
  obtain rfl := Except.ok.inj (hcore.symm.trans hcore')
  obtain ⟨text, htext, h⟩ := bind_eq_ok.mp h
  obtain ⟨hverify, h⟩ := passes h nofun
  obtain ⟨context, hcontext, h⟩ := of_caught h fun _ => nofun
  dsimp only at h
  split at h
  · cases h
  rename_i huser
  obtain ⟨reason | _, htime, h⟩ := bind_eq_ok.mp h
  · exact ⟨n, not_not.mp htype, hnormalize, ⟨signature, text, hsignature, htext, by simpa using hverify⟩, ⟨context, hcontext, huser⟩,
      checkValidTime_eq_none htime⟩
  · cases h

end MandateKind

end AgentProtocol.A4P
