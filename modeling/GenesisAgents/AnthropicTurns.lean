import GenesisAgents.AnthropicWire
import GenesisAgents.DispatchSteps

/-! The run loop on Anthropic replies: the history it calls the model with, turn after turn, and what
`to_anthropic_messages` makes of it. -/

namespace GenesisAgents

open Value

def maxOutputChars : Nat := 4 * 1024 * 1024

/-! What the loop reads of a reply in the OpenAI shape. -/

/-- `choices[0].get("message", {})` -/
def chosenMessage (response : Value) : Option Value :=
  (contentBlocks (response.get "choices")).head?.map fun choice => choice.getD "message" (dict [])

def readCall (N : Numerals) (tc : Value) : ToolCall :=
  { id := match tc.get? "id" with
      | some (str id) => some id
      | _ => none
    name := (tc.get "function").get? "name"
    arguments := match (tc.get "function").getD "arguments" (str "\x7b\x7d") with
      | str rawArgs => loads N rawArgs
      | _ => none }

def readMessage (N : Numerals) (msg : Value) : AssistantMessage :=
  { content := msg.get "content"
    toolCalls := (contentBlocks (msg.get "tool_calls")).map (readCall N) }

def readResponse (N : Numerals) (response : Value) : LlmResponse :=
  let usage := (response.get "usage").orElse (dict [])
  { swarmsync := if (response.get "swarmsync").isDict then some (response.get "swarmsync") else none
    totalTokens := if usage.isDict then tokens N usage "total_tokens" else none
    message := (chosenMessage response).map (readMessage N) }

/-! The history as the dicts it is made of. -/

def userPrompt (task : String) (safeParams : Value) : Option String :=
  if safeParams.truthy then (dumps safeParams).map fun params =>
    task ++ "\n\nAdditional params: " ++ params
  else some task

def roleMessage (role content : String) : Value :=
  dict [("role", str role), ("content", str content)]

def toolMessage (toolCallId content : String) : Value :=
  dict [("role", str "tool"), ("tool_call_id", str toolCallId), ("content", str content)]

def wireMessage (reply : Value) : Message → Option Value
  | .system content => some (roleMessage "system" content)
  | .user task params => (userPrompt task params).map (roleMessage "user")
  | .assistant _ => chosenMessage reply
  | .tool toolCallId result => (dumps result).map fun content =>
      toolMessage toolCallId (clip maxOutputChars content)

def Message.isAssistant : Message → Bool
  | .assistant _ => true
  | _ => false

/-- The messages after the first `k` replies, as dicts; one assistant message stands for each reply. -/
def wireHistory (replies : Nat → Value) : Nat → List Message → Option (List Value)
  | _, [] => some []
  | k, msg :: rest =>
    match wireMessage (replies (k + 1)) msg,
      wireHistory replies (if msg.isAssistant then k + 1 else k) rest with
    | some head, some tail => some (head :: tail)
    | _, _ => none

section

variable (S : Setting) (W : World)

/-- The state after `n` turns, when the loop has gone on after each of them. -/
def afterTurns : Nat → Option LoopState
  | 0 => some (initialState S)
  | n + 1 =>
    match afterTurns n with
    | none => none
    | some σ =>
      match turn S W σ with
      | (σ', none) => some σ'
      | (_, some _) => none

/-- After `n` turns the loop makes its next call of the model, with the history in `σ`. -/
structure Asks (n : Nat) (σ : LoopState) : Prop where
  prompted : (userPrompt S.task (deploymentSideEffectAuthorized S.unicode S.params).2).isSome = true
  reached : afterTurns S W n = some σ
  turnsLeft : n < maxTurns
  inTime : W.timedOut (n + 1) = false
  allowed : σ.llmCalls < maxLlmCalls

/-! What a turn adds after which the loop goes on. -/

def Answers (call : ToolCall) (msg : Message) : Prop :=
  ∃ result, msg = .tool call.tcId result ∧ result.jsonable = true

theorem conclude_answers (σ σ' : LoopState) (call : ToolCall) (branch : Branch) (attempt : Attempt)
    (goes : conclude S W σ call branch attempt = (σ', none)) :
    ∃ msg, σ'.messages = σ.messages ++ [msg] ∧ Answers call msg := by
  unfold conclude at goes
  generalize answer W σ call attempt = result at goes
  dsimp only at goes
  split at goes
  · split at goes
    · rename_i encodes
      rw [dumpable, Bool.and_eq_true] at encodes
      obtain ⟨rfl, -⟩ := Prod.mk.inj goes
      exact ⟨_, rfl, result, rfl, encodes.1⟩
    · cases goes
  · cases goes

theorem dispatch_answers (σ σ' : LoopState) (call : ToolCall)
    (goes : dispatch S W σ call = (σ', none)) :
    σ'.turn = σ.turn ∧ ∃ msg, σ'.messages = σ.messages ++ [msg] ∧ Answers call msg := by
  have turn := (dispatch_counters S W σ call).1
  rw [goes] at turn
  refine ⟨turn, ?_⟩
  rw [dispatch] at goes
  split at goes
  · rename_i attempt _
    split at goes
    · cases goes
    · exact conclude_answers S W σ σ' call _ attempt goes
  · cases goes

theorem dispatchAll_answers (calls : List ToolCall) : ∀ σ σ' : LoopState,
    dispatchAll S W σ calls = (σ', none) → σ'.turn = σ.turn ∧
      ∃ answers, σ'.messages = σ.messages ++ answers ∧ List.Forall₂ Answers calls answers := by
  induction calls with
  | nil =>
    intro σ σ' goes
    obtain ⟨rfl, -⟩ := Prod.mk.inj goes
    exact ⟨rfl, [], (List.append_nil _).symm, .nil⟩
  | cons call rest later =>
    intro σ σ' goes
    rw [dispatchAll] at goes
    rcases outcome : dispatch S W σ call with ⟨next, _ | error⟩
    · rw [outcome] at goes
      obtain ⟨sameTurn, msg, extended, answered⟩ := dispatch_answers S W σ next call outcome
      obtain ⟨laterTurn, answers, further, all⟩ := later next σ' goes
      refine ⟨laterTurn.trans sameTurn, msg :: answers, ?_, .cons answered all⟩
      rw [further, extended, List.append_assoc, List.singleton_append]
    · rw [outcome] at goes
      cases goes

structure TurnAdds (σ σ' : LoopState) (response : LlmResponse) (msg : AssistantMessage)
    (answers : List Message) : Prop where
  reply : W.llm (σ.turn + 1) = .responded response
  chosen : response.message = some msg
  asks : msg.toolCalls ≠ []
  turn : σ'.turn = σ.turn + 1
  messages : σ'.messages = σ.messages ++ .assistant msg :: answers
  answered : List.Forall₂ Answers msg.toolCalls answers

theorem turn_adds (σ σ' : LoopState) (goes : turn S W σ = (σ', none)) :
    ∃ response msg answers, TurnAdds W σ σ' response msg answers := by
  rw [turn] at goes
  dsimp only at goes
  split at goes
  · cases goes
  split at goes
  · cases goes
  split at goes
  · cases goes
  rename_i response reply
  split at goes
  · cases goes
  split at goes
  · cases goes
  rename_i msg chosen
  split at goes
  · cases goes
  rename_i asks
  split at goes
  · rename_i next ran
    obtain ⟨rfl, -⟩ := Prod.mk.inj goes
    obtain ⟨sameTurn, answers, extended, answered⟩ := dispatchAll_answers S W msg.toolCalls _ _ ran
    exact ⟨response, msg, answers, reply, chosen, fun none => asks (by rw [none]; rfl), sameTurn,
      by rw [extended, receive, List.append_assoc]; rfl, answered⟩
  · cases goes

/-! The history in dicts is that of the replies and the answers to their calls. -/

structure ToolTurn where
  assistant : Value
  tools : List Value

def ToolTurn.messages (toolTurn : ToolTurn) : List Value := toolTurn.assistant :: toolTurn.tools

def ToolMessageFor (call : ToolCall) (msg : Value) : Prop :=
  ∃ content, msg = toolMessage call.tcId content

variable (N : Numerals)

structure ToolTurnOf (reply : Value) (toolTurn : ToolTurn) : Prop where
  assistant : chosenMessage reply = some toolTurn.assistant
  asks : (readMessage N toolTurn.assistant).toolCalls ≠ []
  tools : List.Forall₂ ToolMessageFor (readMessage N toolTurn.assistant).toolCalls toolTurn.tools

variable (replies : Nat → Value)

theorem wireHistory_cons (k : Nat) (msg : Message) (rest : List Message) (head : Value)
    (tail : List Value) (encoded : wireMessage (replies (k + 1)) msg = some head)
    (others : wireHistory replies (if msg.isAssistant then k + 1 else k) rest = some tail) :
    wireHistory replies k (msg :: rest) = some (head :: tail) := by
  rw [wireHistory, encoded, others]

theorem wireHistory_append (xs ys : List Message) : ∀ (k : Nat) (front back : List Value),
    wireHistory replies k xs = some front →
    wireHistory replies (k + xs.countP Message.isAssistant) ys = some back →
    wireHistory replies k (xs ++ ys) = some (front ++ back) := by
  induction xs with
  | nil =>
    intro k front back first second
    obtain rfl := Option.some.inj first
    exact second
  | cons msg rest later =>
    intro k front back first second
    rw [wireHistory] at first
    split at first
    · rename_i head tail encoded others
      obtain rfl := Option.some.inj first
      have shifted : k + (msg :: rest).countP Message.isAssistant =
          (if msg.isAssistant then k + 1 else k) + rest.countP Message.isAssistant := by
        rw [List.countP_cons]
        split <;> omega
      rw [shifted] at second
      exact wireHistory_cons replies k msg _ head _ encoded (later _ tail back others second)
    · cases first

theorem wireHistory_answers (k : Nat) (calls : List ToolCall) (answers : List Message)
    (answered : List.Forall₂ Answers calls answers) :
    answers.countP Message.isAssistant = 0 ∧ ∃ tools,
      wireHistory replies k answers = some tools ∧ List.Forall₂ ToolMessageFor calls tools := by
  induction answered with
  | nil => exact ⟨rfl, [], rfl, .nil⟩
  | cons answer _ later =>
    obtain ⟨result, rfl, encodes⟩ := answer
    obtain ⟨silent, tools, encoded, all⟩ := later
    have written : (dumps result).isSome = true := by rw [dumps, dumpsWith_isSome, encodes]
    obtain ⟨text, dumped⟩ := Option.isSome_iff_exists.mp written
    refine ⟨silent, toolMessage _ (clip maxOutputChars text) :: tools, ?_, .cons ⟨_, rfl⟩ all⟩
    refine wireHistory_cons replies k (.tool _ result) _ _ tools ?_ encoded
    rw [wireMessage, dumped, Option.map_some]

def opening (prompt : String) : List Value :=
  [roleMessage "system" S.bundle.systemPrompt, roleMessage "user" prompt]

/-- The history after some turns: one assistant message for each reply so far, and what it opens with
and goes on with as dicts. -/
structure HistoryOf (prompt : String) (n : Nat) (σ : LoopState) (toolTurns : List ToolTurn) : Prop where
  turn : σ.turn = n
  counted : σ.messages.countP Message.isAssistant = n
  history : wireHistory replies 0 σ.messages =
    some (opening S prompt ++ toolTurns.flatMap ToolTurn.messages)
  toolTurns : List.Forall₂ (ToolTurnOf N) ((List.range n).map fun k => replies (k + 1)) toolTurns

theorem recorded_initial (prompt : String)
    (prompted : userPrompt S.task (deploymentSideEffectAuthorized S.unicode S.params).2 = some prompt) :
    HistoryOf S N replies prompt 0 (initialState S) [] := by
  refine ⟨rfl, rfl, ?_, .nil⟩
  simp only [initialState, wireHistory, wireMessage, prompted, Option.map_some]
  rfl

theorem recorded_turn (prompt : String) (n : Nat) (σ σ' : LoopState) (toolTurns : List ToolTurn)
    (earlier : HistoryOf S N replies prompt n σ toolTurns) (goes : turn S W σ = (σ', none))
    (replied : ∀ response, W.llm (n + 1) = .responded response →
      response = readResponse N (replies (n + 1))) :
    ∃ toolTurn, HistoryOf S N replies prompt (n + 1) σ' (toolTurns ++ [toolTurn]) := by
  obtain ⟨response, msg, answers, adds⟩ := turn_adds S W σ σ' goes
  obtain rfl := replied response (earlier.turn ▸ adds.reply)
  obtain ⟨dict, chosen, rfl⟩ := Option.map_eq_some_iff.mp adds.chosen
  obtain ⟨silent, tools, encoded, answered⟩ :=
    wireHistory_answers replies (n + 1) _ answers adds.answered
  have added : wireHistory replies (0 + σ.messages.countP Message.isAssistant)
      (.assistant (readMessage N dict) :: answers) = some (dict :: tools) := by
    rw [earlier.counted, Nat.zero_add]
    exact wireHistory_cons replies n _ answers dict tools chosen encoded
  refine ⟨⟨dict, tools⟩, ?_⟩
  constructor
  · rw [adds.turn, earlier.turn]
  · rw [adds.messages, List.countP_append, List.countP_cons_of_pos rfl, silent, earlier.counted]
  · rw [adds.messages, wireHistory_append replies _ _ 0 _ _ earlier.history added,
      List.flatMap_append, List.append_assoc, List.flatMap_singleton]
    rfl
  · rw [List.range_succ, List.map_append]
    exact List.rel_append earlier.toolTurns (.cons ⟨chosen, adds.asks, answered⟩ .nil)

theorem afterTurns_recorded (prompt : String)
    (prompted : userPrompt S.task (deploymentSideEffectAuthorized S.unicode S.params).2 = some prompt)
    (n : Nat) : ∀ σ, afterTurns S W n = some σ →
    (∀ k < n, ∀ response, W.llm (k + 1) = .responded response →
      response = readResponse N (replies (k + 1))) →
    ∃ toolTurns, HistoryOf S N replies prompt n σ toolTurns := by
  induction n with
  | zero =>
    intro σ reached _
    obtain rfl := Option.some.inj reached
    exact ⟨[], recorded_initial S N replies prompt prompted⟩
  | succ n earlier =>
    intro σ' reached replied
    rw [afterTurns] at reached
    split at reached
    · cases reached
    · rename_i σ before
      obtain ⟨toolTurns, recorded⟩ :=
        earlier σ before fun k below => replied k (Nat.lt_succ_of_lt below)
      split at reached
      · rename_i next goes
        obtain rfl := Option.some.inj reached
        obtain ⟨toolTurn, further⟩ := recorded_turn S W N replies prompt n σ next toolTurns recorded
          goes (replied n (Nat.lt_succ_self n))
        exact ⟨toolTurns ++ [toolTurn], further⟩
      · cases reached

/-! What becomes of the history on the wire. -/

structure WireTurn where
  assistant : Value
  user : Value

def WireTurn.messages (wireTurn : WireTurn) : List Value := [wireTurn.assistant, wireTurn.user]

/-- The tool uses of a response stand in an assistant message as received, and the user message
after it has a result for each of them, in their order, and nothing else. -/
structure Replays (payload : Value) (wireTurn : WireTurn) : Prop where
  assistant : wireTurn.assistant.get "role" = str "assistant"
  uses : toolUses (wireTurn.assistant.get "content") = toolUses (payload.get "content")
  user : wireTurn.user.get "role" = str "user"
  results : ∃ blocks, wireTurn.user.get "content" = list blocks ∧
    (∀ block ∈ blocks, isBlock "tool_result" block = true) ∧
    blocks.map (fun block => block.get "tool_use_id") =
      (toolUses (payload.get "content")).map Prod.fst

/-- A response of the Messages API and the reply that the loop gets of it in turn `k`. -/
structure Received (k : Nat) (payload reply : Value) : Prop where
  read : ∃ body, loads N body = some payload
  wellFormed : ∀ use ∈ toolUses (payload.get "content"), WellFormedUse use
  translated : fromAnthropicResponse S.unicode N payload = some reply
  replied : ∀ response, W.llm k = .responded response → response = readResponse N reply

theorem filter_texts {α : Type} (type : String) (xs : List α) (text : α → String) :
    (xs.map fun x => str (text x)).filter (isBlock type) = [] := by
  rw [List.filter_eq_nil_iff]
  intro block member
  obtain ⟨x, -, rfl⟩ := List.mem_map.mp member
  exact Bool.false_ne_true

theorem listOr_blocks (type : String) (content : Value) (blocks : List Value)
    (iterates : listOr content = some blocks) :
    blocks.filter (isBlock type) = (contentBlocks content).filter (isBlock type) := by
  unfold listOr at iterates
  rcases filled : content.truthy with _ | _
  · rw [filled] at iterates
    obtain rfl := Option.some.inj iterates
    cases content with
    | list xs =>
      cases xs with
      | nil => rfl
      | cons x xs => contradiction
    | _ => rfl
  · rw [if_pos filled] at iterates
    cases content with
    | list xs =>
      obtain rfl := Option.some.inj iterates
      rfl
    | dict kvs =>
      obtain rfl := Option.some.inj iterates
      exact filter_texts type kvs Prod.fst
    | str s =>
      obtain rfl := Option.some.inj iterates
      exact filter_texts type s.toList Char.toString
    | _ => cases iterates

theorem chosenMessage_translated (U : Unicode) (payload reply : Value)
    (translated : fromAnthropicResponse U N payload = some reply) :
    ∃ blocks, listOr (payload.get "content") = some blocks ∧
      chosenMessage reply = some (messageOf U blocks) := by
  rw [fromAnthropicResponse] at translated
  split at translated
  · cases translated
  split at translated
  · rename_i blocks _ _ iterates _ _
    obtain rfl := Option.some.inj translated
    exact ⟨blocks, iterates, rfl⟩
  · cases translated

theorem messageOf_calls (U : Unicode) (blocks : List Value) :
    (readMessage N (messageOf U blocks)).toolCalls =
      ((blocks.filter (isBlock "tool_use")).map (toolCallOf U)).map (readCall N) := by
  rw [readMessage, messageOf]
  rcases blocks.filter (isBlock "tool_use") with _ | ⟨block, rest⟩ <;> rfl

theorem readCall_toolCallOf (U : Unicode) (block : Value)
    (wellFormed : WellFormedUse (block.get "id", block.get "name", block.get "input")) :
    block.get "id" = str (readCall N (toolCallOf U block)).tcId ∧
      (readCall N (toolCallOf U block)).tcId ≠ "" := by
  obtain ⟨id, named, filled⟩ := wellFormed.id
  have same : (readCall N (toolCallOf U block)).tcId = id := by
    change textOr U (block.get "id") = id
    rw [show block.get "id" = str id from named, textOr_str]
  rw [same]
  exact ⟨named, filled⟩

theorem results_ids (U : Unicode) (calls : List ToolCall) (tools : List Value)
    (answered : List.Forall₂ ToolMessageFor calls tools) (filled : ∀ call ∈ calls, call.tcId ≠ "") :
    (tools.map (toolResultBlock U)).map (fun block => block.get "tool_use_id") =
      calls.map fun call => str call.tcId := by
  induction answered with
  | nil => rfl
  | @cons call msg calls tools answer _ later =>
    obtain ⟨content, rfl⟩ := answer
    have id : (toolResultBlock U (toolMessage call.tcId content)).get "tool_use_id" = str call.tcId := by
      change str (((str call.tcId).orElse (str "unknown")).text U) = str call.tcId
      rw [orElse_str _ _ (filled call List.mem_cons_self)]
      rfl
    rw [List.map_cons, List.map_cons, List.map_cons, id,
      later fun call member => filled call (List.mem_cons_of_mem _ member)]

theorem toolMessages_role (calls : List ToolCall) (tools : List Value)
    (answered : List.Forall₂ ToolMessageFor calls tools) :
    ∀ msg ∈ tools, msg.isDict = true ∧ hasRole "tool" msg = true := by
  induction answered with
  | nil => simp
  | cons answer _ later =>
    obtain ⟨content, rfl⟩ := answer
    rw [List.forall_mem_cons]
    exact ⟨⟨rfl, (hasRole_iff _ _).mpr rfl⟩, later⟩

theorem contentBlocks_loaded (content : Value) (loaded : Loaded N content) :
    ∀ block ∈ contentBlocks content, Loaded N block := by
  cases content with
  | list blocks => exact (loadedList_iff N blocks).mp loaded
  | _ => simp [contentBlocks]

theorem toolUses_iterated (content : Value) (blocks : List Value)
    (iterates : listOr content = some blocks) : toolUses (list blocks) = toolUses content := by
  rw [toolUses, contentBlocks, listOr_blocks "tool_use" content blocks iterates, toolUses]

/-- One turn of the history becomes one turn on the wire. -/
theorem toolTurn_translates (sound : N.Sound) (k : Nat) (payload reply : Value) (toolTurn : ToolTurn)
    (received : Received S W N k payload reply) (made : ToolTurnOf N reply toolTurn)
    (τ : Translation) :
    ∃ τ' wireTurn, toolTurn.messages.foldlM (Translation.translate S.unicode N) τ = some τ' ∧
      τ'.flush.out = τ.flush.out ++ wireTurn.messages ∧ Replays payload wireTurn := by
  obtain ⟨body, read⟩ := received.read
  obtain ⟨blocks, iterates, chosen⟩ :=
    chosenMessage_translated N S.unicode payload reply received.translated
  obtain ⟨assistant, tools⟩ := toolTurn
  obtain rfl := Option.some.inj (made.assistant.symm.trans chosen)
  have answered := made.tools
  have asked := made.asks
  have sameUses := toolUses_iterated (payload.get "content") blocks iterates
  have among := listOr_blocks "tool_use" (payload.get "content") blocks iterates
  have wellFormed : ∀ use ∈ toolUses (list blocks), WellFormedUse use := by
    rw [sameUses]
    exact received.wellFormed
  rw [messageOf_calls] at answered asked
  have asks : blocks.filter (isBlock "tool_use") ≠ [] := by
    intro none
    exact asked (by rw [none]; rfl)
  have loaded : ∀ block ∈ blocks.filter (isBlock "tool_use"), Loaded N block := by
    intro block member
    rw [among] at member
    exact contentBlocks_loaded N (payload.get "content")
      (loaded_get N payload "content" (loads_loaded N sound body payload read)) block
      (List.mem_of_mem_filter member)
  obtain ⟨translated, built, uses⟩ := assistantBlocks_messageOf S.unicode N blocks asks wellFormed loaded
  have ids : ∀ block ∈ blocks.filter (isBlock "tool_use"),
      block.get "id" = str (readCall N (toolCallOf S.unicode block)).tcId ∧
        (readCall N (toolCallOf S.unicode block)).tcId ≠ "" := by
    intro block member
    exact readCall_toolCallOf N S.unicode block (wellFormed _ (List.mem_map_of_mem member))
  have filled : ∀ call ∈ ((blocks.filter (isBlock "tool_use")).map (toolCallOf S.unicode)).map
      (readCall N), call.tcId ≠ "" := by
    intro call member
    rw [List.map_map] at member
    obtain ⟨block, among, rfl⟩ := List.mem_map.mp member
    exact (ids block among).2
  have roles := toolMessages_role _ tools answered
  have nonempty : tools ≠ [] := by
    rintro rfl
    exact asked (List.forall₂_nil_right_iff.mp answered)
  have calls : ((messageOf S.unicode blocks).get "tool_calls").truthy = true := by
    rw [messageOf_toolCalls S.unicode blocks asks]
    simpa [truthy] using asks
  obtain ⟨τ', ran, wrote⟩ := Translation.translate_toolTurn S.unicode N τ (messageOf S.unicode blocks) tools
    translated rfl rfl calls built nonempty roles
  refine ⟨τ', ⟨_, _⟩, ran, wrote, rfl, uses.trans sameUses, rfl, _, rfl, ?_, ?_⟩
  · intro block member
    obtain ⟨msg, -, rfl⟩ := List.mem_map.mp member
    exact isBlock_dict "tool_result" _
  · rw [← sameUses, toolUses, contentBlocks, results_ids S.unicode _ tools answered filled]
    simp only [List.map_map]
    exact List.map_congr_left fun block member => (ids block member).1.symm

theorem toolTurn_kept (k : Nat) (payload reply : Value) (toolTurn : ToolTurn)
    (received : Received S W N k payload reply) (made : ToolTurnOf N reply toolTurn) :
    toolTurn.messages.filter (fun msg => !isSystem msg) = toolTurn.messages := by
  obtain ⟨blocks, -, chosen⟩ :=
    chosenMessage_translated N S.unicode payload reply received.translated
  have own : toolTurn.assistant = messageOf S.unicode blocks :=
    Option.some.inj (made.assistant.symm.trans chosen)
  apply List.filter_eq_self.mpr
  intro msg member
  rw [ToolTurn.messages, List.mem_cons] at member
  rcases member with rfl | answer
  · rw [own]
    rfl
  · have role := (hasRole_iff _ _).mp (toolMessages_role _ _ made.tools msg answer).2
    rw [isSystem, hasRole, role]
    simp [pyEq, leafEq]

theorem toolTurns_kept (payloads : Nat → Value) (ks : List Nat) : ∀ toolTurns : List ToolTurn,
    (∀ k ∈ ks, Received S W N (k + 1) (payloads (k + 1)) (replies (k + 1))) →
    List.Forall₂ (ToolTurnOf N) (ks.map fun k => replies (k + 1)) toolTurns →
    (toolTurns.flatMap ToolTurn.messages).filter (fun msg => !isSystem msg) =
      toolTurns.flatMap ToolTurn.messages := by
  induction ks with
  | nil =>
    intro toolTurns _ made
    obtain rfl := List.forall₂_nil_left_iff.mp made
    rfl
  | cons k ks later =>
    intro toolTurns received made
    obtain ⟨toolTurn, rest, first, others, rfl⟩ := List.forall₂_cons_left_iff.mp made
    have own := toolTurn_kept S W N (k + 1) _ _ toolTurn (received k List.mem_cons_self) first
    have further := later rest (fun k member => received k (List.mem_cons_of_mem _ member)) others
    rw [List.flatMap_cons, List.filter_append, own, further]

theorem toolTurns_translate (sound : N.Sound) (payloads : Nat → Value) (ks : List Nat) :
    ∀ (toolTurns : List ToolTurn) (τ : Translation),
    (∀ k ∈ ks, Received S W N (k + 1) (payloads (k + 1)) (replies (k + 1))) →
    List.Forall₂ (ToolTurnOf N) (ks.map fun k => replies (k + 1)) toolTurns →
    ∃ τ' wireTurns,
      (toolTurns.flatMap ToolTurn.messages).foldlM (Translation.translate S.unicode N) τ = some τ' ∧
      τ'.flush.out = τ.flush.out ++ wireTurns.flatMap WireTurn.messages ∧
      List.Forall₂ Replays (ks.map fun k => payloads (k + 1)) wireTurns := by
  induction ks with
  | nil =>
    intro toolTurns τ _ made
    obtain rfl := List.forall₂_nil_left_iff.mp made
    exact ⟨τ, [], rfl, (List.append_nil _).symm, .nil⟩
  | cons k ks later =>
    intro toolTurns τ received made
    obtain ⟨toolTurn, rest, first, others, rfl⟩ := List.forall₂_cons_left_iff.mp made
    obtain ⟨middle, wireTurn, ran, wrote, replays⟩ :=
      toolTurn_translates S W N sound (k + 1) _ _ toolTurn (received k List.mem_cons_self) first τ
    obtain ⟨τ', wireTurns, ranRest, wroteRest, replaysRest⟩ :=
      later rest middle (fun k member => received k (List.mem_cons_of_mem _ member)) others
    refine ⟨τ', wireTurn :: wireTurns, ?_, ?_, .cons replays replaysRest⟩
    · rw [List.flatMap_cons, List.foldlM_append, ran, Option.bind_eq_bind, Option.bind_some, ranRest]
    · rw [wroteRest, wrote, List.flatMap_cons, List.append_assoc]

theorem wireTurns_roles (payloads : List Value) (wireTurns : List WireTurn)
    (replays : List.Forall₂ Replays payloads wireTurns) :
    ∀ msg ∈ wireTurns.flatMap WireTurn.messages, msg.get "role" ≠ str "tool" := by
  induction replays with
  | nil => simp
  | @cons payload wireTurn payloads wireTurns first _ later =>
    intro msg member
    rw [List.flatMap_cons, List.mem_append, WireTurn.messages, List.mem_pair] at member
    rcases member with (rfl | rfl) | among
    · rw [first.assistant]
      simp
    · rw [first.user]
      simp
    · exact later msg among

/-- Each response stands on the wire as one assistant message with the tool uses it came with and one
user message with their results; nothing else comes after the start, and no message is a tool's. -/
def ReplayedAfter (start payloads out : List Value) : Prop :=
  ∃ wireTurns, out = start ++ wireTurns.flatMap WireTurn.messages ∧
    List.Forall₂ Replays payloads wireTurns ∧ ∀ msg ∈ out, msg.get "role" ≠ str "tool"

theorem start_replayed (sound : N.Sound) (payloads : Nat → Value) (ks : List Nat)
    (toolTurns : List ToolTurn) (start : List Value)
    (received : ∀ k ∈ ks, Received S W N (k + 1) (payloads (k + 1)) (replies (k + 1)))
    (made : List.Forall₂ (ToolTurnOf N) (ks.map fun k => replies (k + 1)) toolTurns)
    (passes : start.foldlM (Translation.translate S.unicode N) ⟨[], []⟩ = some ⟨start, []⟩)
    (plain : ∀ msg ∈ start, msg.get "role" ≠ str "tool") :
    ∃ out, toAnthropicMessages S.unicode N (start ++ toolTurns.flatMap ToolTurn.messages) = some out ∧
      ReplayedAfter start (ks.map fun k => payloads (k + 1)) out := by
  obtain ⟨τ, wireTurns, ran, wrote, replays⟩ :=
    toolTurns_translate S W N replies sound payloads ks toolTurns ⟨start, []⟩ received made
  refine ⟨start ++ wireTurns.flatMap WireTurn.messages, ?_, wireTurns, rfl, replays, ?_⟩
  · rw [toAnthropicMessages, List.foldlM_append, passes, Option.bind_eq_bind, Option.bind_some, ran,
      Option.map_some, wrote]
    rfl
  · intro msg member
    rcases List.mem_append.mp member with opens | among
    · exact plain msg opens
    · exact wireTurns_roles _ wireTurns replays msg among

theorem splitSystem_conversation (messages : List Value) :
    (splitSystem messages).2 = messages.filter fun msg => !isSystem msg := rfl

theorem roleMessage_role (role content : String) : (roleMessage role content).get "role" = str role :=
  rfl

/-- In every history with which the loop calls the model, the responses so far are replayed. -/
theorem turns_replayed (sound : N.Sound) (payloads : Nat → Value) (n : Nat) (σ : LoopState)
    (received : ∀ k < n, Received S W N (k + 1) (payloads (k + 1)) (replies (k + 1)))
    (asks : Asks S W n σ) :
    ∃ history prompt, wireHistory replies 0 σ.messages = some history ∧
      userPrompt S.task (deploymentSideEffectAuthorized S.unicode S.params).2 = some prompt ∧
      (∃ out, toAnthropicMessages S.unicode N history = some out ∧
        ReplayedAfter (opening S prompt) ((List.range n).map fun k => payloads (k + 1)) out) ∧
      ∃ out, toAnthropicMessages S.unicode N (splitSystem history).2 = some out ∧
        ReplayedAfter [roleMessage "user" prompt] ((List.range n).map fun k => payloads (k + 1)) out := by
  obtain ⟨prompt, prompted⟩ := Option.isSome_iff_exists.mp asks.prompted
  obtain ⟨toolTurns, recorded⟩ := afterTurns_recorded S W N replies prompt prompted n σ asks.reached
    fun k below => (received k below).replied
  have among : ∀ k ∈ List.range n, Received S W N (k + 1) (payloads (k + 1)) (replies (k + 1)) :=
    fun k member => received k (List.mem_range.mp member)
  have replayed := start_replayed S W N replies sound payloads (List.range n) toolTurns
  refine ⟨_, prompt, recorded.history, prompted, ?_, ?_⟩
  · apply replayed (opening S prompt) among recorded.toolTurns rfl
    simp [opening, roleMessage_role]
  · have conversation : (splitSystem (opening S prompt ++ toolTurns.flatMap ToolTurn.messages)).2 =
        [roleMessage "user" prompt] ++ toolTurns.flatMap ToolTurn.messages := by
      rw [splitSystem_conversation, List.filter_append,
        toolTurns_kept S W N replies payloads _ toolTurns among recorded.toolTurns]
      rfl
    rw [conversation]
    apply replayed [roleMessage "user" prompt] among recorded.toolTurns rfl
    simp [roleMessage_role]

end

/-! A response with two calls, answered before the second call of the model. -/

def oneAndAHalf : PyFloat := ⟨"1.5", some (3 / 2), floatText_plain "1.5" rfl⟩

def readNumerals : Numerals :=
  { float := fun text => if text = "1.5" then oneAndAHalf else infinity, int := fun _ => none }

def twoCalls : Value :=
  dict [("id", str "msg_1"), ("stop_reason", str "tool_use"),
    ("content", list [dict [("type", str "text"), ("text", str "looking")],
      dict [("type", str "tool_use"), ("id", str "toolu_1"), ("name", str "send_email"),
        ("input", dict [("subject", str "overdue"), ("hours", float oneAndAHalf)])],
      dict [("type", str "tool_use"), ("id", str "toolu_2"), ("name", str "web_search"),
        ("input", dict [])]])]

def twoCallsReply : Value :=
  (fromAnthropicResponse mailSetting.unicode readNumerals twoCalls).getD null

def callingWorld : World :=
  { mailWorld with llm := fun _ => .responded (readResponse readNumerals twoCallsReply) }

theorem readNumerals_sound : readNumerals.Sound := by
  constructor
  intro w _
  change Genuine readNumerals (if w = "1.5" then oneAndAHalf else infinity)
  split
  · exact .inr ⟨by decide, rfl⟩
  · exact .inl (by simp)

theorem twoCalls_loaded : Loaded readNumerals twoCalls := by
  have genuine : Genuine readNumerals oneAndAHalf := .inr ⟨by decide, rfl⟩
  simp [Loaded, LoadedItems, LoadedList, twoCalls, genuine]

theorem twoCalls_received (k : Nat) :
    Received mailSetting callingWorld readNumerals k twoCalls twoCallsReply where
  read := by
    obtain ⟨body, -, read⟩ := loads_dumps readNumerals twoCalls twoCalls_loaded
    exact ⟨body, read⟩
  wellFormed := by
    have uses : toolUses (twoCalls.get "content") =
        [(str "toolu_1", str "send_email",
            dict [("subject", str "overdue"), ("hours", float oneAndAHalf)]),
          (str "toolu_2", str "web_search", dict [])] := rfl
    rw [uses, List.forall_mem_cons, List.forall_mem_singleton]
    exact ⟨⟨⟨_, rfl, by decide⟩, ⟨_, rfl⟩, rfl⟩, ⟨⟨_, rfl, by decide⟩, ⟨_, rfl⟩, rfl⟩⟩
  translated := by
    have translates : (fromAnthropicResponse mailSetting.unicode readNumerals twoCalls).isSome = true :=
      rfl
    obtain ⟨reply, translated⟩ := Option.isSome_iff_exists.mp translates
    rw [twoCallsReply, translated, Option.getD_some]
  replied := fun response same => (LlmReply.responded.inj same).symm

theorem twoCalls_replayed : ∃ σ, Asks mailSetting callingWorld 1 σ ∧
    ∃ history prompt, wireHistory (fun _ => twoCallsReply) 0 σ.messages = some history ∧
      userPrompt mailSetting.task
        (deploymentSideEffectAuthorized mailSetting.unicode mailSetting.params).2 = some prompt ∧
      (∃ out, toAnthropicMessages mailSetting.unicode readNumerals history = some out ∧
        ReplayedAfter (opening mailSetting prompt) [twoCalls] out) ∧
      ∃ out, toAnthropicMessages mailSetting.unicode readNumerals (splitSystem history).2 = some out ∧
        ReplayedAfter [roleMessage "user" prompt] [twoCalls] out := by
  have goesOn : (afterTurns mailSetting callingWorld 1).any
      (fun σ => decide (σ.llmCalls < maxLlmCalls)) = true := by decide +kernel
  obtain ⟨σ, reached, allowed⟩ := (Option.any_eq_true _ _).mp goesOn
  have asks : Asks mailSetting callingWorld 1 σ :=
    ⟨rfl, reached, by decide, rfl, of_decide_eq_true allowed⟩
  exact ⟨σ, asks, turns_replayed mailSetting callingWorld readNumerals (fun _ => twoCallsReply)
    readNumerals_sound (fun _ => twoCalls) 1 σ (fun k _ => twoCalls_received (k + 1)) asks⟩

end GenesisAgents
