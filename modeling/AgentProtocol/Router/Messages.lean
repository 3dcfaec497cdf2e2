-- SUMMARY: The typed messages of the router, how they are made of responses and stream chunks, and how chunks are added.
import AgentProtocol.Lib.Python

/-!
# Messages

A response or a chunk of a stream is an object in the format of OpenAI. `_response_to_message` and
`_chunk_to_assistant_message_chunk` read it without checking its types, so the fields of the typed messages hold parsed
JSON here, and the conversions raise what Python raises. Fields that nothing reads further are left out.
-/

namespace AgentProtocol.Router

open Lib

structure ToolCall where
  id : Value
  type : Value := .str "function"
  name : Value := .str ""
  arguments : Value := .str ""
  index : Value := .null

structure UsageMetadata where
  modelName : Value := .null
  inputTokens : ℤ := 0
  outputTokens : ℤ := 0
  totalTokens : ℤ := 0
  cacheTokens : ℤ := 0
  cacheReadTokens : Option ℤ := none
  cacheMissTokens : Option ℤ := none
  cacheWriteTokens : Option ℤ := none
  cacheStatus : Option String := none
  cacheSource : Option String := none
  cacheAuthoritative : Bool := false
  cacheCreationInputTokens : Option ℤ := none
  reasoningTokens : ℤ := 0
  inputCost : FloatVal := .finite 0
  outputCost : FloatVal := .finite 0
  totalCost : FloatVal := .finite 0

def UsageMetadata.postInit (usage : UsageMetadata) : UsageMetadata :=
  if usage.totalTokens = 0 ∧ (usage.inputTokens ≠ 0 ∨ usage.outputTokens ≠ 0) then
    { usage with totalTokens := usage.inputTokens + usage.outputTokens }
  else usage

structure AssistantMessage where
  content : Value
  toolCalls : Option (List ToolCall) := none
  usageMetadata : Option UsageMetadata := none
  finishReason : Value := .str "stop"
  reasoningContent : Value := .null

structure AssistantMessageChunk where
  content : Value := .str ""
  reasoningContent : Value := .null
  toolCalls : Option (List ToolCall) := none
  usageMetadata : Option UsageMetadata := none
  finishReason : Value := .null

/-! ## Usage -/

/-- `_optional_int`; a number is rounded to a float first, and the negative ones are zero. -/
def optionalInt (value : Value) : Except PyError (Option ℤ) :=
  match value with
  | .null => .ok none
  | .bool _ => .ok none
  | value =>
    match value.toFloat.bind FloatVal.toInt with
    | .ok n => .ok (some (max n 0))
    | .error .typeError => .ok none
    | .error .valueError => .ok none
    | .error e => .error e

def intValue (value : Value) : Except PyError ℤ := (optionalInt value).map (·.getD 0)

def floatValue (value : Value) : Except PyError FloatVal :=
  match value with
  | .null => .ok (.finite 0)
  | .bool _ => .ok (.finite 0)
  | value =>
    match value.toFloat with
    | .error .typeError => .ok (.finite 0)
    | .error .valueError => .ok (.finite 0)
    | result => result

def asText : Value → Option String
  | .str s => some s
  | _ => none

def usageToMetadata (usage modelName : Value) : Except PyError (Option UsageMetadata) := do
  if !usage.truthy then return none
  let promptTokensDetails := (← usage.get "prompt_tokens_details").orElse (.obj .nil)
  let completionTokensDetails := (← usage.get "completion_tokens_details").orElse (.obj .nil)
  let cacheStatus ← usage.get "cache_status"
  let cacheSource ← usage.get "cache_source"
  let cacheAuthoritative ← usage.get "cache_authoritative"
  let metadata : UsageMetadata := {
    modelName := modelName
    inputTokens := ← intValue (← usage.get "prompt_tokens")
    outputTokens := ← intValue (← usage.get "completion_tokens")
    totalTokens := ← intValue (← usage.get "total_tokens")
    cacheTokens := ← intValue ((← promptTokensDetails.get "cached_tokens").orElse (← usage.get "cache_tokens"))
    cacheReadTokens := ← optionalInt (← usage.get "cache_read_tokens")
    cacheMissTokens := ← optionalInt (← usage.get "cache_miss_tokens")
    cacheWriteTokens := ← optionalInt (← usage.get "cache_write_tokens")
    cacheStatus := asText cacheStatus
    cacheSource := asText cacheSource
    cacheAuthoritative := cacheAuthoritative = .bool true
    cacheCreationInputTokens := ← optionalInt ((← usage.get "cache_creation_input_tokens").orElse
      (← promptTokensDetails.get "cache_creation_input_tokens"))
    reasoningTokens := ← intValue ((← completionTokensDetails.get "reasoning_tokens").orElse
      (← usage.get "reasoning_tokens"))
    inputCost := ← floatValue (← usage.get "input_cost")
    outputCost := ← floatValue (← usage.get "output_cost")
    totalCost := ← floatValue (← usage.get "total_cost") }
  return some metadata.postInit

/-! ## Conversions -/

def toolCallOf (index : Value) (tc : Value) : Except PyError ToolCall := do
  let func ← tc.getD "function" (.obj .nil)
  return {
    id := ← tc.getD "id" (.str "")
    type := ← tc.getD "type" (.str "function")
    name := ← func.getD "name" (.str "")
    arguments := ← func.getD "arguments" (.str "")
    index := ← tc.getD "index" index }

/-- The entries of `tool_calls`, if there are any. In a response they are numbered unless they have an index. -/
def toolCallsOf (numbered : Bool) (raw : Value) : Except PyError (Option (List ToolCall)) := do
  if !raw.truthy then return none
  let entries ← raw.iterate
  let calls ← entries.zipIdx.mapM fun (tc, idx) => toolCallOf (if numbered then .int idx else .null) tc
  return some calls

def responseToMessage (raw : Value) : Except PyError AssistantMessage := do
  let choices ← raw.getD "choices" (.arr .nil)
  if !choices.truthy then return { content := .str "" }
  let choice ← choices.first
  let message ← choice.getD "message" (.obj .nil)
  let content := (← message.get "content").orElse (.str "")
  let finishReason := (← choice.get "finish_reason").orElse (.str "stop")
  let reasoningContent ← message.get "reasoning_content"
  let toolCalls ← toolCallsOf true (← message.get "tool_calls")
  let usageMetadata ← usageToMetadata (← raw.get "usage") (← raw.get "model")
  return {
    content := content
    toolCalls := toolCalls
    usageMetadata := usageMetadata
    finishReason := finishReason
    reasoningContent := reasoningContent }

def chunkToAssistantMessageChunk (chunk : Value) : Except PyError (Option AssistantMessageChunk) := do
  let choices ← chunk.get "choices"
  if !choices.truthy then
    let usageMetadata ← usageToMetadata (← chunk.get "usage") (← chunk.get "model")
    return usageMetadata.map fun usage => { usageMetadata := some usage }
  let choice ← choices.first
  let delta ← choice.getD "delta" (.obj .nil)
  let finishReason ← choice.get "finish_reason"
  let content := (← delta.get "content").orElse (.str "")
  let reasoningContent ← delta.get "reasoning_content"
  let rawToolCalls ← delta.get "tool_calls"
  let usageMetadata ← usageToMetadata (← chunk.get "usage") (← chunk.get "model")
  if !content.truthy && !finishReason.truthy && !rawToolCalls.truthy && !reasoningContent.truthy && usageMetadata.isNone then
    return none
  let toolCalls ← toolCallsOf false rawToolCalls
  return some {
    content := content
    reasoningContent := reasoningContent
    toolCalls := toolCalls
    finishReason := finishReason
    usageMetadata := usageMetadata }

end AgentProtocol.Router
