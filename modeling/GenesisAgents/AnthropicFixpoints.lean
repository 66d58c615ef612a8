import GenesisAgents.AnthropicWire

/-! When `to_anthropic_messages` leaves its own translations alone. -/

namespace GenesisAgents

open Value

/-- An assistant turn that asks for tools, none of whose calls is an object and whose content has no
block either. -/
structure Blockless (msg : Value) : Prop where
  object : msg.isDict = true
  assistant : hasRole "assistant" msg = true
  asks : (msg.get "tool_calls").truthy = true
  wordless : textBlocks (msg.get "content") = []
  callless : ∃ toolCalls, listOr (msg.get "tool_calls") = some toolCalls ∧ ∀ call ∈ toolCalls, call.isDict = false

structure Uniterable (msg : Value) : Prop where
  object : msg.isDict = true
  assistant : hasRole "assistant" msg = true
  asks : listOr (msg.get "tool_calls") = none

/-- A message that the translation neither groups nor rewrites. -/
structure Settled (msg : Value) : Prop where
  object : msg.isDict = true
  answered : hasRole "tool" msg = false
  asked : (hasRole "assistant" msg && (msg.get "tool_calls").truthy) = false

def legal (msg : Value) : Bool := !(hasRole "assistant" msg && !(msg.get "content").truthy)

theorem assistant_ne_tool (msg : Value) (assistant : hasRole "assistant" msg = true) :
    hasRole "tool" msg = false := by
  rw [hasRole, (hasRole_iff "assistant" msg).mp assistant]
  decide

theorem listOr_truthy (v : Value) (stuck : listOr v = none) : v.truthy = true := by
  by_contra idle
  have none : listOr v = some [] := if_neg idle
  rw [none] at stuck
  cases stuck

def blockMessage (role : String) (blocks : List Value) : Value := dict [("role", str role), ("content", list blocks)]

theorem hasRole_blockMessage (role other : String) (blocks : List Value) :
    hasRole other (blockMessage role blocks) = (str role).pyEq (str other) := rfl

theorem blockMessage_settled (role : String) (blocks : List Value) (other : (str role).pyEq (str "tool") = false) :
    Settled (blockMessage role blocks) where
  object := rfl
  answered := other
  asked := Bool.and_false _

theorem blockMessage_user (blocks : List Value) :
    Settled (blockMessage "user" blocks) ∧ legal (blockMessage "user" blocks) = true := by
  apply And.intro (blockMessage_settled "user" blocks (by decide))
  have other : hasRole "assistant" (blockMessage "user" blocks) = false := by
    rw [hasRole_blockMessage]
    decide
  rw [legal, other, Bool.false_and, Bool.not_false]

theorem blockMessage_assistant (blocks : List Value) :
    Settled (blockMessage "assistant" blocks) ∧ (legal (blockMessage "assistant" blocks) = true ↔ blocks ≠ []) := by
  apply And.intro (blockMessage_settled "assistant" blocks (by decide))
  have own : hasRole "assistant" (blockMessage "assistant" blocks) = true := by
    rw [hasRole_blockMessage]
    decide
  rw [legal, own, Bool.true_and, Bool.not_not]
  cases blocks with
  | nil => exact iff_of_false (by decide) (fun filled => filled rfl)
  | cons block rest => exact iff_of_true rfl (List.cons_ne_nil block rest)

section

variable (U : Unicode) (N : Numerals)

theorem assistantBlocks_nil (msg : Value) (blocks : List Value) (built : assistantBlocks U N msg = some blocks)
    (object : msg.isDict = true) (assistant : hasRole "assistant" msg = true)
    (asks : (msg.get "tool_calls").truthy = true) : blocks = [] ↔ Blockless msg := by
  rw [assistantBlocks, Option.map_eq_some_iff] at built
  rcases built with ⟨toolCalls, iterated, rfl⟩
  rw [List.append_eq_nil_iff, List.map_eq_nil_iff, List.filter_eq_nil_iff]
  constructor
  · intro empty
    refine ⟨object, assistant, asks, empty.1, toolCalls, iterated, ?_⟩
    intro call member
    exact Bool.eq_false_iff.mpr (empty.2 call member)
  · intro blockless
    rcases blockless.callless with ⟨others, read, callless⟩
    rw [iterated] at read
    rw [Option.some.inj read]
    constructor
    · exact blockless.wordless
    · intro call member
      rw [callless call member]
      exact Bool.false_ne_true

theorem assistantBlocks_none (msg : Value) :
    assistantBlocks U N msg = none ↔ listOr (msg.get "tool_calls") = none := by
  rw [assistantBlocks, Option.map_eq_none_iff]

namespace Translation

inductive Step (τ : Translation) (msg : Value) : Translation → Prop where
  | ignored (shape : msg.isDict = false) : Step τ msg τ
  | answer (block : Value) (role : hasRole "tool" msg = true) : Step τ msg { τ with pending := τ.pending ++ [block] }
  | asked (blocks : List Value) (object : msg.isDict = true) (assistant : hasRole "assistant" msg = true)
      (asks : (msg.get "tool_calls").truthy = true) (built : assistantBlocks U N msg = some blocks) :
      Step τ msg (τ.flush.push (blockMessage "assistant" blocks))
  | dropped (settled : Settled msg) (illegal : legal msg = false) : Step τ msg τ.flush
  | passed (settled : Settled msg) (kept : legal msg = true) : Step τ msg (τ.flush.push msg)

theorem translate_step (τ τ' : Translation) (msg : Value) (translated : translate U N τ msg = some τ') :
    Step U N τ msg τ' := by
  rw [translate] at translated
  split at translated
  · rename_i shape
    rw [Bool.not_eq_true'] at shape
    rw [← Option.some.inj translated]
    exact .ignored shape
  · rename_i object
    rw [Bool.not_eq_true', Bool.not_eq_false] at object
    split at translated
    · rename_i role
      rw [← Option.some.inj translated]
      exact .answer _ role
    · rename_i role
      rw [Bool.not_eq_true] at role
      split at translated
      · rename_i asks
        rw [Bool.and_eq_true] at asks
        rw [Option.map_eq_some_iff] at translated
        rcases translated with ⟨blocks, built, rfl⟩
        exact .asked blocks object asks.1 asks.2 built
      · rename_i asks
        rw [Bool.not_eq_true] at asks
        have settled : Settled msg := ⟨object, role, asks⟩
        split at translated
        · rename_i illegal
          rw [← Option.some.inj translated]
          apply Step.dropped settled
          rw [legal, illegal, Bool.not_true]
        · rename_i kept
          rw [Bool.not_eq_true] at kept
          rw [← Option.some.inj translated]
          apply Step.passed settled
          rw [legal, kept, Bool.not_false]

theorem translate_none (τ : Translation) (msg : Value) : translate U N τ msg = none ↔ Uniterable msg := by
  constructor
  · intro raised
    rw [translate] at raised
    split at raised
    · cases raised
    · rename_i object
      rw [Bool.not_eq_true', Bool.not_eq_false] at object
      split at raised
      · cases raised
      · split at raised
        · rename_i asks
          rw [Bool.and_eq_true] at asks
          rw [Option.map_eq_none_iff, assistantBlocks_none] at raised
          exact ⟨object, asks.1, raised⟩
        · split at raised <;> cases raised
  · intro stuck
    have asks := listOr_truthy _ stuck.asks
    have none : assistantBlocks U N msg = none := (assistantBlocks_none U N msg).mpr stuck.asks
    simp [translate, stuck.object, assistant_ne_tool msg stuck.assistant, stuck.assistant, asks, none]

theorem translate_settled (out : List Value) (msg : Value) (settled : Settled msg) :
    translate U N ⟨out, []⟩ msg = some ⟨out ++ [msg].filter legal, []⟩ := by
  rw [translate, settled.object, settled.answered, settled.asked]
  cases kept : hasRole "assistant" msg && !(msg.get "content").truthy with
  | true => simp [legal, kept, flush]
  | false => simp [legal, kept, flush, push]

theorem forall_flush (P : Value → Prop) (user : ∀ blocks, P (blockMessage "user" blocks)) (τ : Translation) :
    (∀ msg ∈ τ.flush.out, P msg) ↔ ∀ msg ∈ τ.out, P msg := by
  rw [flush]
  split
  · exact Iff.rfl
  · constructor
    · intro all msg member
      exact all msg (List.mem_append_left _ member)
    · intro all msg member
      rcases List.mem_append.mp member with member | last
      · exact all msg member
      · rw [List.mem_singleton.mp last]
        exact user τ.pending

theorem forall_push (P : Value → Prop) (τ : Translation) (last : Value) :
    (∀ msg ∈ (τ.push last).out, P msg) ↔ (∀ msg ∈ τ.out, P msg) ∧ P last := by
  rw [push, List.forall_mem_append, List.forall_mem_singleton]

theorem step_settled (τ τ' : Translation) (msg : Value) (step : Step U N τ msg τ')
    (settled : ∀ kept ∈ τ.out, Settled kept) : ∀ kept ∈ τ'.out, Settled kept := by
  have flushed := (forall_flush Settled (fun blocks => (blockMessage_user blocks).1) τ).mpr settled
  cases step with
  | ignored | answer => exact settled
  | asked blocks => exact (forall_push Settled τ.flush _).mpr ⟨flushed, (blockMessage_assistant blocks).1⟩
  | dropped => exact flushed
  | passed own => exact (forall_push Settled τ.flush msg).mpr ⟨flushed, own⟩

/-- A step leaves an illegal message exactly when its own is a turn without a block. -/
theorem step_legal (τ τ' : Translation) (msg : Value) (step : Step U N τ msg τ') :
    (∀ kept ∈ τ'.out, legal kept = true) ↔ (∀ kept ∈ τ.out, legal kept = true) ∧ ¬ Blockless msg := by
  have flushed := forall_flush (fun kept => legal kept = true) (fun blocks => (blockMessage_user blocks).2) τ
  cases step with
  | ignored shape =>
    have speaks : ¬ Blockless msg := fun blockless => by
      rw [blockless.object] at shape
      cases shape
    rw [and_iff_left speaks]
  | answer block role =>
    have speaks : ¬ Blockless msg := fun blockless => by
      rw [assistant_ne_tool msg blockless.assistant] at role
      cases role
    rw [and_iff_left speaks]
  | asked blocks object assistant asks built =>
    rw [forall_push (fun kept => legal kept = true), flushed, (blockMessage_assistant blocks).2, ne_eq,
      assistantBlocks_nil U N msg blocks built object assistant asks]
  | dropped settled =>
    have speaks : ¬ Blockless msg := fun blockless => by
      have asked := settled.asked
      rw [blockless.assistant, blockless.asks] at asked
      cases asked
    rw [flushed, and_iff_left speaks]
  | passed settled kept =>
    have speaks : ¬ Blockless msg := fun blockless => by
      have asked := settled.asked
      rw [blockless.assistant, blockless.asks] at asked
      cases asked
    rw [forall_push (fun kept => legal kept = true), flushed, and_iff_left kept, and_iff_left speaks]

theorem run_settled (messages : List Value) (τ τ' : Translation)
    (run : messages.foldlM (translate U N) τ = some τ') (settled : ∀ kept ∈ τ.out, Settled kept) :
    ∀ kept ∈ τ'.out, Settled kept := by
  induction messages generalizing τ with
  | nil =>
    rw [← Option.some.inj run]
    exact settled
  | cons msg rest later =>
    rw [List.foldlM_cons, Option.bind_eq_bind, Option.bind_eq_some_iff] at run
    rcases run with ⟨next, first, run⟩
    exact later next run (step_settled U N τ next msg (translate_step U N τ next msg first) settled)

theorem run_legal (messages : List Value) (τ τ' : Translation)
    (run : messages.foldlM (translate U N) τ = some τ') :
    (∀ kept ∈ τ'.out, legal kept = true) ↔
      (∀ kept ∈ τ.out, legal kept = true) ∧ ∀ msg ∈ messages, ¬ Blockless msg := by
  induction messages generalizing τ with
  | nil =>
    rw [← Option.some.inj run]
    exact (and_iff_left (List.forall_mem_nil _)).symm
  | cons msg rest later =>
    rw [List.foldlM_cons, Option.bind_eq_bind, Option.bind_eq_some_iff] at run
    rcases run with ⟨next, first, run⟩
    rw [later next run, step_legal U N τ next msg (translate_step U N τ next msg first), and_assoc,
      List.forall_mem_cons]

theorem run_none (messages : List Value) (τ : Translation) :
    messages.foldlM (translate U N) τ = none ↔ ∃ msg ∈ messages, Uniterable msg := by
  induction messages generalizing τ with
  | nil => simp
  | cons msg rest later =>
    rw [List.foldlM_cons, Option.bind_eq_bind]
    cases first : translate U N τ msg with
    | none => simp [(translate_none U N τ msg).mp first]
    | some next =>
      have iterable : ¬ Uniterable msg := fun stuck => by
        rw [(translate_none U N τ msg).mpr stuck] at first
        cases first
      simp [later next, iterable]

theorem run_filter (messages : List Value) (out : List Value) (settled : ∀ msg ∈ messages, Settled msg) :
    messages.foldlM (translate U N) ⟨out, []⟩ = some ⟨out ++ messages.filter legal, []⟩ := by
  induction messages generalizing out with
  | nil => rw [List.filter_nil, List.append_nil]; rfl
  | cons msg rest later =>
    rw [List.foldlM_cons, translate_settled U N out msg (settled msg List.mem_cons_self), Option.bind_eq_bind,
      Option.bind_some, later _ fun msg member => settled msg (List.mem_cons_of_mem _ member), List.append_assoc,
      ← List.filter_append, List.singleton_append]

end Translation

/-- The translation of settled messages drops those that are not legal. -/
theorem toAnthropicMessages_settled (messages : List Value) (settled : ∀ msg ∈ messages, Settled msg) :
    toAnthropicMessages U N messages = some (messages.filter legal) := by
  rw [toAnthropicMessages, Translation.run_filter U N messages [] settled]
  rfl

theorem toAnthropicMessages_some (messages out : List Value)
    (translated : toAnthropicMessages U N messages = some out) :
    (∀ msg ∈ out, Settled msg) ∧
      ((∀ msg ∈ out, legal msg = true) ↔ ∀ msg ∈ messages, ¬ Blockless msg) := by
  rw [toAnthropicMessages, Option.map_eq_some_iff] at translated
  rcases translated with ⟨τ, run, rfl⟩
  constructor
  · rw [Translation.forall_flush Settled fun blocks => (blockMessage_user blocks).1]
    exact Translation.run_settled U N messages _ τ run (List.forall_mem_nil _)
  · rw [Translation.forall_flush (fun msg => legal msg = true) fun blocks => (blockMessage_user blocks).2,
      Translation.run_legal U N messages _ τ run]
    exact and_iff_right (List.forall_mem_nil _)

theorem toAnthropicMessages_none (messages : List Value) :
    toAnthropicMessages U N messages = none ↔ ∃ msg ∈ messages, Uniterable msg := by
  rw [toAnthropicMessages, Option.map_eq_none_iff, Translation.run_none]

/-- The translation is idempotent unless a turn is left without a block. -/
theorem toAnthropicMessages_idempotent_iff (messages : List Value) :
    (toAnthropicMessages U N messages).bind (toAnthropicMessages U N) = toAnthropicMessages U N messages ↔
      (∃ msg ∈ messages, Uniterable msg) ∨ ∀ msg ∈ messages, ¬ Blockless msg := by
  cases translated : toAnthropicMessages U N messages with
  | none =>
    apply iff_of_true rfl
    exact .inl ((toAnthropicMessages_none U N messages).mp translated)
  | some out =>
    have iterable : ¬ ∃ msg ∈ messages, Uniterable msg := fun stuck => by
      rw [(toAnthropicMessages_none U N messages).mpr stuck] at translated
      cases translated
    rcases toAnthropicMessages_some U N messages out translated with ⟨settled, kept⟩
    rw [Option.bind_some, toAnthropicMessages_settled U N out settled, or_iff_right iterable, ← kept,
      Option.some.injEq, List.filter_eq_self]

end

def malformedTurn : Value :=
  dict [("role", str "assistant"), ("content", null), ("tool_calls", list [str "web_search"])]

def bareSetting : Unicode := { lower := id, printable := fun _ => true }

def bareNumerals : Numerals := { float := fun _ => infinity, int := fun _ => none }

theorem malformed_not_idempotent :
    (toAnthropicMessages bareSetting bareNumerals [malformedTurn]).bind
        (toAnthropicMessages bareSetting bareNumerals) ≠
      toAnthropicMessages bareSetting bareNumerals [malformedTurn] := by
  have once : toAnthropicMessages bareSetting bareNumerals [malformedTurn] = some [blockMessage "assistant" []] := rfl
  have twice : toAnthropicMessages bareSetting bareNumerals [blockMessage "assistant" []] = some [] := rfl
  rw [once, Option.bind_some, twice]
  exact fun same => nomatch Option.some.inj same

end GenesisAgents
