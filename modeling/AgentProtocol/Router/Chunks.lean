-- SUMMARY: Chunks of a stream are added associatively, and nothing of their tool calls is lost.
import AgentProtocol.Lib.Keyed
import AgentProtocol.Lib.Table
import AgentProtocol.Router.Messages

/-!
# Adding chunks

The typed `AssistantMessageChunk`, with values of any type `α` where the source has `Any`, and the dictionary of its
metadata as its pairs in their order.
-/

namespace AgentProtocol.Router.Typed

open Lib

structure ToolCall where
  id : String
  type : String := "function"
  name : String := ""
  arguments : String := ""
  index : Option ℤ := none
  deriving DecidableEq

structure AssistantMessageChunk (α : Type) where
  content : String := ""
  reasoningContent : Option String := none
  toolCalls : Option (List ToolCall) := none
  usageMetadata : Option UsageMetadata := none
  finishReason : Option String := none
  parserContent : Option α := none
  promptTokenIds : Option (List ℤ) := none
  completionTokenIds : Option (List ℤ) := none
  logprobs : Option α := none
  responseId : Option String := none
  responseModel : Option String := none
  providerMetadata : Dict String α := ∅
  providerContent : Option α := none

/-- `incoming`, unless it counts as not reported. -/
def newest {β : Type} (unset : β → Bool) (incoming existing : β) : β := if unset incoming then existing else incoming

/-! ## Tool calls -/

/-- What happens to the copy that `by_index` holds for the index of `tc`. -/
def ToolCall.extend (target tc : ToolCall) : ToolCall :=
  { target with
    id := newest (· = "") tc.id target.id
    name := newest (· = "") tc.name target.name
    arguments := target.arguments ++ tc.arguments }

/-- `_merge_tool_calls`; `by_index` holds the last call with an index. -/
def mergeToolCalls : Option (List ToolCall) → Option (List ToolCall) → Option (List ToolCall)
  | existing, none => existing
  | none, incoming => incoming
  | some existing, some incoming => some (Keyed.merge ToolCall.index ToolCall.extend existing incoming)

/-! ## Usage -/

def isZero : FloatVal → Bool
  | .finite q => q = 0
  | .negZero => true
  | _ => false

def isNone : Value → Bool
  | .null => true
  | _ => false

def mergeUsage (existing incoming : UsageMetadata) : UsageMetadata :=
  let inputTokens := newest (· = 0) incoming.inputTokens existing.inputTokens
  let outputTokens := newest (· = 0) incoming.outputTokens existing.outputTokens
  { modelName := newest isNone incoming.modelName existing.modelName
    inputTokens
    outputTokens
    totalTokens := if inputTokens ≠ 0 ∨ outputTokens ≠ 0 then inputTokens + outputTokens
      else newest (· = 0) incoming.totalTokens existing.totalTokens
    cacheTokens := newest (· = 0) incoming.cacheTokens existing.cacheTokens
    cacheReadTokens := newest (·.getD 0 = 0) incoming.cacheReadTokens existing.cacheReadTokens
    cacheMissTokens := newest (·.getD 0 = 0) incoming.cacheMissTokens existing.cacheMissTokens
    cacheWriteTokens := newest (·.getD 0 = 0) incoming.cacheWriteTokens existing.cacheWriteTokens
    cacheStatus := newest (·.isNone) incoming.cacheStatus existing.cacheStatus
    cacheSource := newest (·.isNone) incoming.cacheSource existing.cacheSource
    cacheAuthoritative := existing.cacheAuthoritative || incoming.cacheAuthoritative
    cacheCreationInputTokens := newest (·.getD 0 = 0) incoming.cacheCreationInputTokens existing.cacheCreationInputTokens
    reasoningTokens := newest (· = 0) incoming.reasoningTokens existing.reasoningTokens
    inputCost := newest isZero incoming.inputCost existing.inputCost
    outputCost := newest isZero incoming.outputCost existing.outputCost
    totalCost := newest isZero incoming.totalCost existing.totalCost }

def mergeUsageMetadata : Option UsageMetadata → Option UsageMetadata → Option UsageMetadata
  | none, incoming => incoming
  | existing, none => existing
  | some existing, some incoming => some (mergeUsage existing incoming).postInit

/-! ## Chunks -/

variable {α : Type}

/-- The reasoning of two chunks, if one has any. -/
def addReasoning (a b : Option String) : Option String :=
  if a.isSome || b.isSome then some (a.getD "" ++ b.getD "") else none

/-- `(a or []) + (b or []) or None` -/
def addTokenIds (a b : Option (List ℤ)) : Option (List ℤ) :=
  if a.getD [] ++ b.getD [] = [] then none else some (a.getD [] ++ b.getD [])

def AssistantMessageChunk.add (self other : AssistantMessageChunk α) : AssistantMessageChunk α where
  content := self.content ++ other.content
  reasoningContent := addReasoning self.reasoningContent other.reasoningContent
  toolCalls := mergeToolCalls self.toolCalls other.toolCalls
  usageMetadata := mergeUsageMetadata self.usageMetadata other.usageMetadata
  finishReason := newest (·.isNone) other.finishReason self.finishReason
  parserContent := newest (·.isNone) other.parserContent self.parserContent
  promptTokenIds := newest (·.getD [] = []) self.promptTokenIds other.promptTokenIds
  completionTokenIds := addTokenIds self.completionTokenIds other.completionTokenIds
  logprobs := newest (·.isNone) other.logprobs self.logprobs
  responseId := newest (·.getD "" = "") other.responseId self.responseId
  responseModel := newest (·.getD "" = "") other.responseModel self.responseModel
  providerMetadata := self.providerMetadata.insertAll other.providerMetadata.rows
  providerContent := newest (·.isNone) other.providerContent self.providerContent

/-! ## Associativity -/

theorem newest_assoc {β : Type} (unset : β → Bool) (a b c : β) :
    newest unset c (newest unset b a) = newest unset (newest unset c b) a := by
  unfold newest
  cases hc : unset c <;> simp [hc]

theorem newest_eq_zero {m n : ℤ} : newest (· = 0) m n = 0 ↔ m = 0 ∧ n = 0 := by
  by_cases hm : m = 0 <;> simp [newest, hm]

theorem lawful_extend : Keyed.Lawful ToolCall.index ToolCall.extend where
  key_combine _ := rfl
  assoc _ _ := by simp [ToolCall.extend, newest_assoc, String.append_assoc]

theorem mergeToolCalls_assoc (a b c : Option (List ToolCall)) :
    mergeToolCalls (mergeToolCalls a b) c = mergeToolCalls a (mergeToolCalls b c) := by
  cases a <;> cases b <;> cases c <;> simp [mergeToolCalls, Keyed.merge_assoc lawful_extend]

theorem mergeUsage_assoc (a b c : UsageMetadata) : mergeUsage (mergeUsage a b) c = mergeUsage a (mergeUsage b c) := by
  simp only [mergeUsage, newest_assoc, Bool.or_assoc, UsageMetadata.mk.injEq, true_and, and_true]
  split
  · rename_i hsum
    exact (if_pos hsum).symm
  · rename_i hzero
    simp only [ne_eq, newest_eq_zero, not_or, not_not] at hzero
    simp [newest_eq_zero, hzero, newest_assoc]

theorem postInit_mergeUsage (a b : UsageMetadata) : (mergeUsage a b).postInit = mergeUsage a b := by
  unfold UsageMetadata.postInit
  split
  · rename_i h
    simp only [mergeUsage] at h ⊢
    rw [if_pos h.2]
  · rfl

theorem mergeUsageMetadata_assoc (a b c : Option UsageMetadata) :
    mergeUsageMetadata (mergeUsageMetadata a b) c = mergeUsageMetadata a (mergeUsageMetadata b c) := by
  cases a <;> cases b <;> cases c <;> simp [mergeUsageMetadata, postInit_mergeUsage, mergeUsage_assoc]

theorem rows_set (d : Dict String α) (p : String × α) :
    (d.insert p).rows = Keyed.put (fun p => some p.1) (fun _ p => p) d.rows p := by
  rw [Table.rows_insert]
  have hnodup := d.nodup
  generalize d.rows = l at hnodup
  induction l with
  | nil => simp [Keyed.put]
  | cons q l ih =>
    rw [List.map_cons, List.nodup_cons] at hnodup
    rw [Keyed.put, ← ih hnodup.2]
    by_cases hq : q.1 = p.1
    · have hnot : p.1 ∉ l.map Prod.fst := hq ▸ hnodup.1
      have hsame : l.map (fun r => if r.1 = p.1 then p else r) = l := by
        refine (List.map_congr_left fun r hr => if_neg fun hr' => hnot ?_).trans (List.map_id _)
        exact hr' ▸ List.mem_map_of_mem hr
      rw [if_pos (by simp [hq]), if_pos ⟨by simp, by rw [hq], by simpa using hnot⟩, List.map_cons, if_pos hq, hsame]
    · have hmem : p.1 ∈ (q :: l).map Prod.fst ↔ p.1 ∈ l.map Prod.fst := by
        rw [List.map_cons, List.mem_cons]
        exact or_iff_right (Ne.symm hq)
      rw [if_neg fun h : _ ∧ _ ∧ _ => hq (Option.some.inj h.2.1)]
      by_cases hp : p.1 ∈ l.map Prod.fst
      · rw [if_pos (hmem.mpr hp), if_pos hp, List.map_cons, if_neg hq]
      · rw [if_neg (hmem.not.mpr hp), if_neg hp, List.cons_append]

theorem rows_insertAll (d : Dict String α) (rows : List (String × α)) :
    (d.insertAll rows).rows = Keyed.merge (fun p => some p.1) (fun _ p => p) d.rows rows := by
  induction rows generalizing d with
  | nil => rfl
  | cons p rows ih =>
    rw [Table.insertAll, List.foldl_cons, ← Table.insertAll, ih, rows_set]
    rfl

theorem lawful_replace : Keyed.Lawful (fun p : String × α => some p.1) fun _ p => p where
  key_combine h := h.symm
  assoc _ _ := rfl

theorem addReasoning_assoc (a b c : Option String) : addReasoning (addReasoning a b) c = addReasoning a (addReasoning b c) := by
  cases a <;> cases b <;> cases c <;> simp [addReasoning, String.append_assoc]

theorem getD_addTokenIds (a b : Option (List ℤ)) : (addTokenIds a b).getD [] = a.getD [] ++ b.getD [] := by
  unfold addTokenIds
  split
  · rename_i hnil
    exact hnil.symm
  · rfl

theorem addTokenIds_assoc (a b c : Option (List ℤ)) : addTokenIds (addTokenIds a b) c = addTokenIds a (addTokenIds b c) := by
  rw [addTokenIds, getD_addTokenIds, List.append_assoc, ← getD_addTokenIds b, ← addTokenIds]

/-- **Adding chunks is associative.** -/
theorem AssistantMessageChunk.chunks_add_assoc (a b c : AssistantMessageChunk α) : (a.add b).add c = a.add (b.add c) := by
  have hmetadata : ((a.providerMetadata.insertAll b.providerMetadata.rows).insertAll c.providerMetadata.rows) =
      a.providerMetadata.insertAll (b.providerMetadata.insertAll c.providerMetadata.rows).rows :=
    Table.ext (by simp only [rows_insertAll, Keyed.merge_assoc lawful_replace])
  simp only [add, newest_assoc, mergeToolCalls_assoc, mergeUsageMetadata_assoc, addReasoning_assoc, addTokenIds_assoc,
    String.append_assoc, hmetadata]

/-! ## Nothing is lost -/

/-- The fragments of arguments that the calls with an index carry. -/
def argumentsOf (i : Option ℤ) (calls : Option (List ToolCall)) : List Char :=
  (calls.getD []).flatMap fun tc => if tc.index = i then tc.arguments.toList else []

def sum (first : AssistantMessageChunk α) (rest : List (AssistantMessageChunk α)) : AssistantMessageChunk α :=
  rest.foldl AssistantMessageChunk.add first

theorem argumentsOf_merge (i : Option ℤ) (a b : Option (List ToolCall)) :
    argumentsOf i (mergeToolCalls a b) = argumentsOf i a ++ argumentsOf i b := by
  cases a with
  | none => cases b <;> rfl
  | some existing =>
    cases b with
    | none => simp [mergeToolCalls, argumentsOf]
    | some incoming =>
      refine Keyed.flatMap_merge (k := i) (fun tc htc => if_neg htc) fun target tc hsame _ => ?_
      by_cases hi : target.index = i
      · simp [ToolCall.extend, hi, ← hsame]
      · simp [ToolCall.extend, hi, ← hsame]

/-- **In a sum of chunks, the calls with an index carry all fragments of arguments that came with it, in order.** -/
theorem argumentsOf_sum (i : Option ℤ) (first : AssistantMessageChunk α) (rest : List (AssistantMessageChunk α)) :
    argumentsOf i (sum first rest).toolCalls = (first :: rest).flatMap fun chunk => argumentsOf i chunk.toolCalls := by
  induction rest generalizing first with
  | nil => simp [sum]
  | cons chunk rest ih =>
    rw [sum, List.foldl_cons, ← sum, ih, List.flatMap_cons, AssistantMessageChunk.add, argumentsOf_merge]
    simp

end AgentProtocol.Router.Typed
