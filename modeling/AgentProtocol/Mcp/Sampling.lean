-- SUMMARY: The validation of sampling messages accepts exactly the concatenations of plain messages and pairs of tool uses and their results.
import Mathlib
import AgentProtocol.Lib.Except

namespace AgentProtocol.Mcp.Sampling

open Lib

inductive RoleType where
  | user
  | assistant
  deriving DecidableEq

/-- `SamplingMessageContentBlock`. -/
inductive ContentBlock where
  | toolUse (id : String)
  | toolResult (toolUseId : String)
  /-- Text, an image or audio. -/
  | other

structure SamplingMessage where
  role : RoleType
  content : ContentBlock ⊕ List ContentBlock

def SamplingMessage.contentAsList (m : SamplingMessage) : List ContentBlock := m.content.elim ([·]) id

def ContentBlock.toolUseId? : ContentBlock → Option String
  | .toolUse id => some id
  | _ => none

def ContentBlock.toolResultId? : ContentBlock → Option String
  | .toolResult id => some id
  | _ => none

/-- Whether a block has an id of a kind. -/
def contains (f : ContentBlock → Option String) (blocks : List ContentBlock) : Bool := blocks.any fun b => (f b).isSome

def collectIds (f : ContentBlock → Option String) (blocks : List ContentBlock) : Finset String := (blocks.filterMap f).toFinset

def containsToolUse : List ContentBlock → Bool := contains ContentBlock.toolUseId?

def containsToolResult : List ContentBlock → Bool := contains ContentBlock.toolResultId?

def collectToolUseIds : List ContentBlock → Finset String := collectIds ContentBlock.toolUseId?

def collectToolResultIds : List ContentBlock → Finset String := collectIds ContentBlock.toolResultId?

def ensure (p : Prop) [Decidable p] (what : String) : Except String Unit := if p then .ok () else .error what

def mixed : String := "Tool results mixed with other content"

def missing : String := "Tool result missing in request"

def ensureToolResultMessageOnlyHasToolResults (blocks : List ContentBlock) : Except String Unit :=
  ensure (blocks.all (·.toolResultId?.isSome) = true) mixed

/-- The checks of a message with a tool result, after the message `prev`. -/
def checkToolResult (prev : Option SamplingMessage) (m : SamplingMessage) : Except String Unit := do
  ensureToolResultMessageOnlyHasToolResults m.contentAsList
  ensure (m.role = .user) mixed
  let prev ← orFail missing prev
  ensure (collectToolUseIds prev.contentAsList ≠ ∅) missing
  ensure (collectToolUseIds prev.contentAsList = collectToolResultIds m.contentAsList) missing

/-- The checks of a message with a tool use, before the message `next`. -/
def checkToolUse (m : SamplingMessage) (next : Option SamplingMessage) : Except String Unit := do
  ensure (m.role = .assistant) missing
  let next ← orFail missing next
  ensure (containsToolResult next.contentAsList = true) missing
  ensureToolResultMessageOnlyHasToolResults next.contentAsList
  ensure (collectToolUseIds m.contentAsList = collectToolResultIds next.contentAsList) missing

/-- The loop, from the message after `prev` on. -/
def validateFrom : Option SamplingMessage → List SamplingMessage → Except String Unit
  | _, [] => .ok ()
  | prev, m :: messages => do
    (if containsToolResult m.contentAsList then checkToolResult prev m else .ok ())
    (if containsToolUse m.contentAsList then checkToolUse m messages.head? else .ok ())
    validateFrom (some m) messages

def validateToolUseResultMessages (messages : List SamplingMessage) : Except String Unit := validateFrom none messages

/-! ## The grammar -/

/-- A message of the assistant that uses tools, and one of the user with their results and nothing else. -/
structure Pair (use result : SamplingMessage) : Prop where
  assistant : use.role = .assistant
  uses : ∃ id, .toolUse id ∈ use.contentAsList
  alone : ∀ id, .toolResult id ∉ use.contentAsList
  user : result.role = .user
  results : ∀ b ∈ result.contentAsList, ∃ id, b = .toolResult id
  same : ∀ id, .toolUse id ∈ use.contentAsList ↔ .toolResult id ∈ result.contentAsList

/-- The concatenations of plain messages and pairs. -/
inductive Segmented : List SamplingMessage → Prop
  | nil : Segmented []
  | plain {m : SamplingMessage} {rest : List SamplingMessage} :
    (∀ id, .toolUse id ∉ m.contentAsList ∧ .toolResult id ∉ m.contentAsList) → Segmented rest → Segmented (m :: rest)
  | pair {use result : SamplingMessage} {rest : List SamplingMessage} : Pair use result → Segmented rest → Segmented (use :: result :: rest)

theorem Pair.no_uses {use result : SamplingMessage} (h : Pair use result) : ∀ p ∈ some result, ∀ id, .toolUse id ∉ p.contentAsList := by
  rintro _ ⟨⟩ id hid
  exact (h.results _ hid).elim nofun

section Blocks

variable {blocks blocks' : List ContentBlock} {id : String}

theorem toolUseId?_eq_some {b : ContentBlock} : b.toolUseId? = some id ↔ b = .toolUse id := by
  cases b <;> simp [ContentBlock.toolUseId?]

theorem toolResultId?_eq_some {b : ContentBlock} : b.toolResultId? = some id ↔ b = .toolResult id := by
  cases b <;> simp [ContentBlock.toolResultId?]

theorem mem_collectToolUseIds : id ∈ collectToolUseIds blocks ↔ .toolUse id ∈ blocks := by
  simp [collectToolUseIds, collectIds, toolUseId?_eq_some]

theorem mem_collectToolResultIds : id ∈ collectToolResultIds blocks ↔ .toolResult id ∈ blocks := by
  simp [collectToolResultIds, collectIds, toolResultId?_eq_some]

theorem contains_iff {f : ContentBlock → Option String} : contains f blocks = true ↔ ∃ id, id ∈ collectIds f blocks := by
  simp only [contains, collectIds, List.any_eq_true, Option.isSome_iff_exists, List.mem_toFinset, List.mem_filterMap]
  exact ⟨fun ⟨b, hb, id, h⟩ => ⟨id, b, hb, h⟩, fun ⟨id, b, hb, h⟩ => ⟨b, hb, id, h⟩⟩

theorem containsToolUse_iff : containsToolUse blocks = true ↔ ∃ id, .toolUse id ∈ blocks :=
  contains_iff.trans (exists_congr fun _ => mem_collectToolUseIds)

theorem containsToolResult_iff : containsToolResult blocks = true ↔ ∃ id, .toolResult id ∈ blocks :=
  contains_iff.trans (exists_congr fun _ => mem_collectToolResultIds)

theorem ids_eq_iff : collectToolUseIds blocks = collectToolResultIds blocks' ↔ ∀ id, .toolUse id ∈ blocks ↔ .toolResult id ∈ blocks' := by
  simp only [Finset.ext_iff, mem_collectToolUseIds, mem_collectToolResultIds]

theorem ensure_eq_ok {p : Prop} [Decidable p] {what : String} {u : Unit} : ensure p what = .ok u ↔ p := by
  unfold ensure
  split <;> simp_all

theorem ensureOnly_eq_ok {u : Unit} : ensureToolResultMessageOnlyHasToolResults blocks = .ok u ↔ ∀ b ∈ blocks, ∃ id, b = .toolResult id := by
  simp [ensureToolResultMessageOnlyHasToolResults, ensure_eq_ok, Option.isSome_iff_exists, toolResultId?_eq_some]

end Blocks

section Checks

variable {prev next : Option SamplingMessage} {m use result : SamplingMessage} {messages : List SamplingMessage}

theorem validateFrom_cons : validateFrom prev (m :: messages) = .ok () ↔
    (containsToolResult m.contentAsList = true → checkToolResult prev m = .ok ()) ∧
    (containsToolUse m.contentAsList = true → checkToolUse m messages.head? = .ok ()) ∧ validateFrom (some m) messages = .ok () := by
  have hcheck : ∀ {p : Bool} {check : Except String Unit}, (if p then check else .ok ()) = .ok () ↔ (p = true → check = .ok ()) := by
    intro p check
    cases p <;> simp
  simp only [validateFrom, bind_eq_ok, hcheck, exists_const]

theorem checkToolResult_ne_ok (hprev : ∀ p ∈ prev, ∀ id, .toolUse id ∉ p.contentAsList) : checkToolResult prev m ≠ .ok () := by
  intro h
  simp only [checkToolResult, bind_eq_ok, ensure_eq_ok, orFail_eq_ok] at h
  obtain ⟨-, -, -, -, p, hp, -, hne, -⟩ := h
  exact hne (Finset.eq_empty_of_forall_notMem fun id hid => hprev p hp id (mem_collectToolUseIds.mp hid))

theorem pair_iff (hresult : ∀ id, .toolResult id ∉ use.contentAsList) (huse : ∃ id, .toolUse id ∈ use.contentAsList) :
    checkToolUse use (some result) = .ok () ∧ (containsToolResult result.contentAsList = true → checkToolResult (some use) result = .ok ()) ↔
      Pair use result := by
  simp only [checkToolUse, checkToolResult, bind_eq_ok, ensure_eq_ok, ensureOnly_eq_ok, orFail_eq_ok, ids_eq_iff, containsToolResult_iff]
  constructor
  · rintro ⟨⟨-, hrole, _, ⟨⟩, -, hcontains, -, honly, hsame⟩, hafter⟩
    obtain ⟨-, -, -, hafter, -⟩ := hafter hcontains
    exact ⟨hrole, huse, hresult, hafter, honly, hsame⟩
  · intro h
    obtain ⟨id, hid⟩ := h.uses
    refine ⟨⟨(), h.assistant, result, rfl, (), ⟨id, (h.same id).mp hid⟩, (), h.results, h.same⟩, fun _ => ⟨(), h.results, (), h.user, use, rfl, (), ?_, h.same⟩⟩
    exact Finset.ne_empty_of_mem (mem_collectToolUseIds.mpr hid)

end Checks

theorem validateFrom_eq_ok : ∀ (prev : Option SamplingMessage) (messages : List SamplingMessage),
    (∀ p ∈ prev, ∀ id, .toolUse id ∉ p.contentAsList) → (validateFrom prev messages = .ok () ↔ Segmented messages)
  | _, [], _ => ⟨fun _ => .nil, fun _ => rfl⟩
  | prev, m :: messages, hprev => by
    rw [validateFrom_cons]
    by_cases hresult : ∃ id, .toolResult id ∈ m.contentAsList
    · -- its tool use is missing, and no segment begins with it
      obtain ⟨id, hid⟩ := hresult
      constructor
      · intro h
        exact absurd (h.1 (containsToolResult_iff.mpr ⟨id, hid⟩)) (checkToolResult_ne_ok hprev)
      · rintro (_ | ⟨hplain, -⟩ | ⟨hpair, -⟩)
        · exact absurd hid (hplain id).2
        · exact absurd hid (hpair.alone id)
    · have hnone : ∀ id, .toolResult id ∉ m.contentAsList := not_exists.mp hresult
      rw [containsToolResult_iff, containsToolUse_iff]
      by_cases huse : ∃ id, .toolUse id ∈ m.contentAsList
      · obtain ⟨id, hid⟩ := huse
        constructor
        · rintro ⟨-, hcheck, hrest⟩
          -- the message with the results follows
          match messages with
          | [] => exact absurd (hcheck ⟨id, hid⟩) (by simp [checkToolUse, bind_eq_ok])
          | result :: rest =>
            obtain ⟨hcheck', -, hrest⟩ := validateFrom_cons.mp hrest
            have h := (pair_iff hnone ⟨id, hid⟩).mp ⟨hcheck ⟨id, hid⟩, hcheck'⟩
            exact .pair h ((validateFrom_eq_ok _ _ h.no_uses).mp hrest)
        · rintro (_ | ⟨hplain, -⟩ | ⟨h, hrest⟩)
          · exact absurd hid (hplain id).1
          · obtain ⟨hcheck, hcheck'⟩ := (pair_iff hnone ⟨id, hid⟩).mpr h
            refine ⟨fun hid => absurd hid hresult, fun _ => hcheck, validateFrom_cons.mpr ⟨hcheck', fun huses => ?_, ?_⟩⟩
            · obtain ⟨id, hid⟩ := containsToolUse_iff.mp huses
              exact absurd hid (h.no_uses _ rfl id)
            · exact (validateFrom_eq_ok _ _ h.no_uses).mpr hrest
      · have hfree : ∀ id, .toolUse id ∉ m.contentAsList := not_exists.mp huse
        have ih := validateFrom_eq_ok (some m) messages (by rintro _ ⟨⟩; exact hfree)
        simp only [hresult, huse, false_implies, true_and, ih]
        constructor
        · intro h
          exact .plain (fun id => ⟨hfree id, hnone id⟩) h
        · rintro (_ | ⟨-, h⟩ | ⟨hpair, -⟩)
          · exact h
          · exact absurd hpair.uses huse

theorem validate_iff_segmented (messages : List SamplingMessage) :
    validateToolUseResultMessages messages = .ok () ↔ Segmented messages :=
  validateFrom_eq_ok none messages nofun

end AgentProtocol.Mcp.Sampling
