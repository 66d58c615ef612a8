import GenesisAgents.JsonLoads

/-! `runtime/anthropic_wire.py`: the history in the OpenAI shape, translated to the Messages API and
back. -/

namespace GenesisAgents

open Value JsonText

/-- `json.dumps(v, default=str)` -/
def dumpsDefault (v : Value) : String := (dumpsWith .standard (defaultStr v)).getD ""

/-- `isinstance(block, dict) and block.get("type") == type` -/
def isBlock (type : String) (block : Value) : Bool :=
  block.isDict && (block.get "type").pyEq (str type)

def hasRole (role : String) (msg : Value) : Bool := (msg.get "role").pyEq (str role)

def isSystem (msg : Value) : Bool := msg.isDict && hasRole "system" msg

def splitSystem (messages : List Value) : String × List Value :=
  let systemParts := (messages.filter isSystem).filterMap fun msg =>
    match msg.get "content" with
    | str content => if strip content = "" then none else some content
    | _ => none
  (String.intercalate "\n\n" systemParts, messages.filter fun msg => !isSystem msg)

section

variable (U : Unicode) (N : Numerals)

/-! `to_anthropic_messages` -/

def toolResultBlock (msg : Value) : Value :=
  dict [("type", str "tool_result"),
    ("tool_use_id", str (((msg.get "tool_call_id").orElse (str "unknown")).text U)),
    ("content", str (match msg.get "content" with
      | str content => content
      | content => dumpsDefault content))]

def textBlocks : Value → List Value
  | str text => if strip text = "" then [] else [dict [("type", str "text"), ("text", str text)]]
  | list blocks => blocks.filter isDict
  | _ => []

/-- The arguments of a call; what is no object counts as an empty one. -/
def parsedArguments : Value → Value
  | str rawArgs => (loads N (if rawArgs = "" then "\x7b\x7d" else rawArgs)).getD (dict [])
  | rawArgs => rawArgs

def toolUseBlock (tc : Value) : Value :=
  let fn := if (tc.get "function").isDict then tc.get "function" else tc
  let parsed := parsedArguments N (fn.getD "arguments" (dict []))
  dict [("type", str "tool_use"), ("id", str (((tc.get "id").orElse (str "unknown")).text U)),
    ("name", str (textOr U (fn.get "name"))),
    ("input", if parsed.isDict then parsed else dict [])]

/-- The blocks of an assistant turn; `none` when its `tool_calls` cannot be iterated. -/
def assistantBlocks (msg : Value) : Option (List Value) :=
  (listOr (msg.get "tool_calls")).map fun toolCalls =>
    textBlocks (msg.get "content") ++ (toolCalls.filter isDict).map (toolUseBlock U N)

structure Translation where
  out : List Value
  pending : List Value

namespace Translation

def flush (τ : Translation) : Translation :=
  if τ.pending.isEmpty then τ
  else ⟨τ.out ++ [dict [("role", str "user"), ("content", list τ.pending)]], []⟩

def push (τ : Translation) (msg : Value) : Translation := { τ with out := τ.out ++ [msg] }

def translate (τ : Translation) (msg : Value) : Option Translation :=
  if !msg.isDict then some τ
  else if hasRole "tool" msg then some { τ with pending := τ.pending ++ [toolResultBlock U msg] }
  else if hasRole "assistant" msg && (msg.get "tool_calls").truthy then
    (assistantBlocks U N msg).map fun blocks =>
      τ.flush.push (dict [("role", str "assistant"), ("content", list blocks)])
  -- no legal message of the Messages API
  else if hasRole "assistant" msg && !(msg.get "content").truthy then some τ.flush
  else some (τ.flush.push msg)

end Translation

def toAnthropicMessages (messages : List Value) : Option (List Value) :=
  (messages.foldlM (Translation.translate U N) ⟨[], []⟩).map fun τ => τ.flush.out

/-! `from_anthropic_response` -/

def toolCallOf (block : Value) : Value :=
  dict [("id", str (textOr U (block.get "id"))), ("type", str "function"),
    ("function", dict [("name", str (textOr U (block.get "name"))),
      ("arguments", str (dumpsDefault ((block.get "input").orElse (dict []))))])]

def contentOf (blocks : List Value) : Value :=
  let textParts := (blocks.filter (isBlock "text")).map fun block => textOr U (block.get "text")
  let content := String.intercalate "\n" (textParts.filter (· != ""))
  if content = "" then null else str content

def messageOf (blocks : List Value) : Value :=
  let toolCalls := (blocks.filter (isBlock "tool_use")).map (toolCallOf U)
  dict ([("role", str "assistant"), ("content", contentOf U blocks)] ++
    if toolCalls.isEmpty then [] else [("tool_calls", list toolCalls)])

/-- `int(usage.get(key, 0) or 0)` -/
def tokens (usage : Value) (key : String) : Option Int :=
  ((usage.getD key (int 0)).orElse (int 0)).toInt N.int

/-- `none` when it raises. -/
def fromAnthropicResponse (payload : Value) : Option Value :=
  let usage := (payload.get "usage").orElse (dict [])
  if !payload.isDict || !usage.isDict then none
  else match listOr (payload.get "content"), tokens N usage "input_tokens", tokens N usage "output_tokens" with
    | some blocks, some promptTokens, some completionTokens =>
      some (dict [("id", payload.get "id"), ("model", payload.get "model"),
        ("choices", list [dict [("index", int 0), ("message", messageOf U blocks),
          ("finish_reason",
            str (if (payload.get "stop_reason").pyEq (str "tool_use") then "tool_calls" else "stop"))]]),
        ("usage", dict [("prompt_tokens", int promptTokens),
          ("completion_tokens", int completionTokens),
          ("total_tokens", int (promptTokens + completionTokens))])])
    | _, _, _ => none

/-! A tool call goes to the loop and back to the model. -/

def contentBlocks : Value → List Value
  | list blocks => blocks
  | _ => []

def toolUses (content : Value) : List (Value × Value × Value) :=
  ((contentBlocks content).filter (isBlock "tool_use")).map fun block =>
    (block.get "id", block.get "name", block.get "input")

structure WellFormedUse (use : Value × Value × Value) : Prop where
  id : ∃ id, use.1 = str id ∧ id ≠ ""
  name : ∃ name, use.2.1 = str name
  input : use.2.2.isDict = true

theorem isBlock_dict (type : String) (rest : List (String × Value)) :
    isBlock type (dict (("type", str type) :: rest)) = true := by
  rw [isBlock, Bool.and_eq_true]
  exact ⟨rfl, (pyEq_str _ type).mpr rfl⟩

theorem orElse_dict (v : Value) (object : v.isDict = true) : v.orElse (dict []) = v := by
  cases v with
  | dict kvs => cases kvs <;> rfl
  | _ => contradiction

theorem orElse_str (id default : String) (filled : id ≠ "") : (str id).orElse (str default) = str id :=
  if_pos (by simpa [truthy] using filled)

theorem loads_dumpsDefault (v : Value) (loaded : Loaded N v) : loads N (dumpsDefault v) = some v := by
  obtain ⟨text, encoded, read⟩ := loads_dumps N v loaded
  rw [dumpsDefault, encoded, Option.getD_some, read]

theorem loads_empty : loads N "" = none := rfl

theorem parsedArguments_dumps (v : Value) (loaded : Loaded N v) :
    parsedArguments N (str (dumpsDefault v)) = v := by
  have read := loads_dumpsDefault N v loaded
  have written : dumpsDefault v ≠ "" := by
    intro empty
    rw [empty, loads_empty] at read
    contradiction
  rw [parsedArguments, if_neg written, read, Option.getD_some]

theorem toolUseBlock_toolCallOf (block : Value)
    (wellFormed : WellFormedUse (block.get "id", block.get "name", block.get "input"))
    (loaded : Loaded N (block.get "input")) :
    toolUseBlock U N (toolCallOf U block) = dict [("type", str "tool_use"), ("id", block.get "id"),
      ("name", block.get "name"), ("input", block.get "input")] := by
  obtain ⟨⟨id, named, filled⟩, ⟨name, called⟩, object⟩ := wellFormed
  dsimp only at named called object
  have input := parsedArguments_dumps N (block.get "input") loaded
  have calls : toolCallOf U block = dict [("id", str id), ("type", str "function"),
      ("function", dict [("name", str name),
        ("arguments", str (dumpsDefault (block.get "input")))])] := by
    rw [toolCallOf, named, called, textOr_str, textOr_str, orElse_dict _ object]
  rw [calls, named, called, toolUseBlock]
  change dict [_, ("id", str (((str id).orElse (str "unknown")).text U)),
    ("name", str (textOr U (str name))),
    ("input", if (parsedArguments N (str (dumpsDefault (block.get "input")))).isDict
      then parsedArguments N (str (dumpsDefault (block.get "input"))) else dict [])] = _
  rw [input, if_pos object, orElse_str id _ filled, textOr_str]
  rfl

def useBlock (block : Value) : Value :=
  dict [("type", str "tool_use"), ("id", block.get "id"), ("name", block.get "name"),
    ("input", block.get "input")]

theorem textBlocks_content (blocks : List Value) :
    (textBlocks (contentOf U blocks)).filter (isBlock "tool_use") = [] := by
  rw [contentOf]
  split
  · rfl
  · rw [textBlocks]
    split <;> rfl

theorem messageOf_toolCalls (blocks : List Value) (asks : blocks.filter (isBlock "tool_use") ≠ []) :
    (messageOf U blocks).get "tool_calls" =
      list ((blocks.filter (isBlock "tool_use")).map (toolCallOf U)) := by
  rw [messageOf, if_neg (by simpa using asks)]
  rfl

/-- The tool uses of a response are those of the assistant turn made of it. -/
theorem assistantBlocks_messageOf (blocks : List Value)
    (asks : blocks.filter (isBlock "tool_use") ≠ [])
    (wellFormed : ∀ use ∈ toolUses (list blocks), WellFormedUse use)
    (loaded : ∀ block ∈ blocks.filter (isBlock "tool_use"), Loaded N block) :
    ∃ translated, assistantBlocks U N (messageOf U blocks) = some translated ∧
      toolUses (list translated) = toolUses (list blocks) := by
  have calls := messageOf_toolCalls U blocks asks
  have text : (messageOf U blocks).get "content" = contentOf U blocks := rfl
  have each : ∀ block ∈ blocks.filter (isBlock "tool_use"),
      toolUseBlock U N (toolCallOf U block) = useBlock block := by
    intro block among
    apply toolUseBlock_toolCallOf
    · exact wellFormed _ (List.mem_map_of_mem among)
    · exact loaded_get N block "input" (loaded block among)
  have dicts : ((blocks.filter (isBlock "tool_use")).map (toolCallOf U)).filter isDict =
      (blocks.filter (isBlock "tool_use")).map (toolCallOf U) :=
    List.filter_eq_self.mpr fun call member => by
      obtain ⟨block, -, rfl⟩ := List.mem_map.mp member
      rfl
  have back : ((blocks.filter (isBlock "tool_use")).map (toolCallOf U)).map (toolUseBlock U N) =
      (blocks.filter (isBlock "tool_use")).map useBlock := by
    rw [List.map_map]
    exact List.map_congr_left each
  refine ⟨textBlocks (contentOf U blocks) ++ (blocks.filter (isBlock "tool_use")).map useBlock, ?_, ?_⟩
  · rw [assistantBlocks, calls, text, listOr_list, Option.map_some, dicts, back]
  · have kept : ((blocks.filter (isBlock "tool_use")).map useBlock).filter (isBlock "tool_use") =
        (blocks.filter (isBlock "tool_use")).map useBlock :=
      List.filter_eq_self.mpr fun use member => by
        obtain ⟨block, -, rfl⟩ := List.mem_map.mp member
        exact isBlock_dict "tool_use" _
    rw [toolUses, contentBlocks, List.filter_append, textBlocks_content, List.nil_append, kept,
      List.map_map]
    rfl

/-! An assistant turn and the tool messages after it become two messages. -/

theorem hasRole_iff (role : String) (msg : Value) : hasRole role msg = true ↔ msg.get "role" = str role :=
  pyEq_str _ role

namespace Translation

theorem translate_tools (τ : Translation) (tools : List Value)
    (answers : ∀ msg ∈ tools, msg.isDict = true ∧ hasRole "tool" msg = true) :
    tools.foldlM (translate U N) τ =
      some { τ with pending := τ.pending ++ tools.map (toolResultBlock U) } := by
  induction tools generalizing τ with
  | nil => rw [List.map_nil, List.append_nil]; rfl
  | cons msg rest later =>
    obtain ⟨object, role⟩ := answers msg List.mem_cons_self
    have first : translate U N τ msg =
        some { τ with pending := τ.pending ++ [toolResultBlock U msg] } := by
      simp [translate, object, role]
    rw [List.foldlM_cons, first, Option.bind_eq_bind, Option.bind_some,
      later _ fun msg member => answers msg (List.mem_cons_of_mem _ member)]
    simp

theorem flush_pending (out pending : List Value) (waiting : pending ≠ []) :
    (flush ⟨out, pending⟩).out = out ++ [dict [("role", str "user"), ("content", list pending)]] := by
  rw [flush, if_neg (by simpa using waiting)]

theorem translate_toolTurn (τ : Translation) (msg : Value) (tools blocks : List Value)
    (object : msg.isDict = true) (role : msg.get "role" = str "assistant")
    (asks : (msg.get "tool_calls").truthy = true)
    (translated : assistantBlocks U N msg = some blocks) (answered : tools ≠ [])
    (answers : ∀ msg ∈ tools, msg.isDict = true ∧ hasRole "tool" msg = true) :
    ∃ τ', (msg :: tools).foldlM (translate U N) τ = some τ' ∧ τ'.flush.out = τ.flush.out ++
      [dict [("role", str "assistant"), ("content", list blocks)],
        dict [("role", str "user"), ("content", list (tools.map (toolResultBlock U)))]] := by
  have assistant : hasRole "assistant" msg = true := (hasRole_iff _ msg).mpr role
  have notTool : hasRole "tool" msg = false := by
    rw [hasRole, role]
    decide
  have first : translate U N τ msg =
      some (τ.flush.push (dict [("role", str "assistant"), ("content", list blocks)])) := by
    simp [translate, object, notTool, assistant, asks, translated]
  have clear : τ.flush.pending = [] := by
    rw [flush]
    split
    · rename_i empty
      exact List.isEmpty_iff.mp empty
    · rfl
  refine ⟨_, by rw [List.foldlM_cons, first, Option.bind_eq_bind, Option.bind_some,
    translate_tools U N _ tools answers], ?_⟩
  rw [push, clear, List.nil_append, flush_pending _ _ (by simpa using answered), List.append_assoc]
  rfl

end Translation

end

end GenesisAgents
