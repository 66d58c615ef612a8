import GenesisAgents.JobEnding
import GenesisAgents.JsonLoads
import GenesisAgents.Library.JsonPrefix

/-! The summary that `process_job` stores of a delivered result: the JSON of the response and the
trace, cut at 4000 characters. -/

namespace GenesisAgents

open Value JsonText

theorem decodeUnit_append (s t r : List Char) (unit : Nat) (reads : decodeUnit s = some (unit, r)) :
    decodeUnit (s ++ t) = some (unit, r ++ t) := by
  unfold decodeUnit at reads
  split at reads
  · rename_i a b c d rest
    split at reads
    · rename_i digits
      obtain ⟨rfl, rfl⟩ := Prod.mk.inj (Option.some.inj reads)
      simp only [List.cons_append, decodeUnit, *]
    · contradiction
  · contradiction

theorem readUnicode_append (s t r : List Char) (c : Char) (reads : readUnicode s = some (c, r)) :
    readUnicode (s ++ t) = some (c, r ++ t) := by
  unfold readUnicode at reads ⊢
  rcases first : decodeUnit s with _ | ⟨unit, rest⟩
  · rw [first] at reads
    contradiction
  · rw [first] at reads
    rw [decodeUnit_append s t rest unit first]
    dsimp only at reads ⊢
    split at reads
    · rename_i high
      rw [if_pos high]
      split at reads
      · rename_i rest'
        rcases second : decodeUnit rest' with _ | ⟨low, rest''⟩
        · rw [second] at reads
          contradiction
        · rw [second] at reads
          simp only [List.cons_append, decodeUnit_append rest' t rest'' low second]
          dsimp only at reads
          split at reads
          · rename_i isLow
            obtain ⟨rfl, rfl⟩ := Prod.mk.inj (Option.some.inj reads)
            rw [if_pos isLow]
          · contradiction
      · contradiction
    · rename_i notHigh
      rw [if_neg notHigh]
      split at reads
      · contradiction
      · rename_i notLow
        obtain ⟨rfl, rfl⟩ := Prod.mk.inj (Option.some.inj reads)
        rw [if_neg notLow]

theorem strict_forward : Forward readStrict where
  nil := rfl
  append := by
    intro s c r t reads
    unfold readStrict at reads
    split at reads
    · contradiction
    · contradiction
    · rename_i d rest
      rw [List.cons_append, List.cons_append, readStrict]
      split at reads
      · rename_i unicode
        rw [if_pos unicode]
        exact readUnicode_append rest t r c reads
      · rename_i escape
        rw [if_neg escape]
        rcases Option.map_eq_some_iff.mp reads with ⟨e, found, same⟩
        obtain ⟨rfl, rfl⟩ := Prod.mk.inj same
        rw [found]
        rfl
    · rename_i d rest lone escaped
      have noSlash : d ≠ '\\' := by
        rintro rfl
        cases rest with
        | nil => exact lone rfl rfl
        | cons e rest => exact escaped e rest rfl rfl
      split at reads
      · contradiction
      · rename_i plain
        obtain ⟨rfl, rfl⟩ := Prod.mk.inj (Option.some.inj reads)
        rw [not_or] at plain
        exact readStrict_plain d (rest ++ t) plain.1 noSlash (by omega)

structure Readable (N : Numerals) (summary : String) : Prop where
  bounded : summary.length ≤ 4000
  parses : ∃ kvs, loads N summary = some (dict kvs) ∧ (kvs.lookup "response").isSome = true ∧
    (kvs.lookup "trace").isSome = true

variable (P : Processing) (result : AgentResult)

/-- `_response_text[:1800]` -/
def storedResponse : String := clip 1800 (text P.unicode (result.response.getD (str "")))

/-- `_trace` -/
def storedTrace : Value := result.trace.getD (dict [])

def payloadValue : Value :=
  dict [("response", str (storedResponse P result)), ("trace", storedTrace result)]

def jsonLength (v : Value) : Nat := ((dumps v).getD "").length

theorem resultPayload_eq (payload : String) (packed : P.resultPayload result = some payload) :
    dumpsWith .standard (payloadValue P result) = some payload := by
  rw [Processing.resultPayload] at packed
  split at packed
  · exact packed
  · contradiction

theorem payloadValue_text (trace : String) (encoded : dumps (storedTrace result) = some trace) :
    dumpsWith .standard (payloadValue P result) = some ("\x7b\"response\": " ++ dumpsStr .standard (storedResponse P result) ++
      ", \"trace\": " ++ trace ++ "\x7d") := by
  have names : dumpsStr .standard "response" = "\"response\"" ∧ dumpsStr .standard "trace" = "\"trace\"" := by
    decide
  rw [dumps] at encoded
  rw [payloadValue, dumpsWith, dumpsItems, dumpsItems, dumpsItems, dumpsWith, encoded]
  have opens : "\x7b\"response\": " = "\x7b" ++ "\"response\"" ++ ": " := rfl
  have joins : ", \"trace\": " = ", " ++ "\"trace\"" ++ ": " := rfl
  simp only [Option.map_some, String.intercalate_cons_cons, String.intercalate_singleton, names, opens,
    joins, String.append_assoc]
  rfl

theorem resultPayload_length (payload : String) (packed : P.resultPayload result = some payload) :
    payload.length = 25 + jsonLength (str (storedResponse P result)) + jsonLength (storedTrace result) := by
  have some' := resultPayload_isSome P result
  rw [packed, Option.isSome_some, eq_comm, Bool.and_eq_true, dumpable, Bool.and_eq_true] at some'
  have encodes : (dumps (storedTrace result)).isSome = true := by
    rw [dumps, dumpsWith_isSome]
    exact some'.2.1
  rcases Option.isSome_iff_exists.mp encodes with ⟨trace, encoded⟩
  have whole := payloadValue_text P result trace encoded
  rw [resultPayload_eq P result payload packed] at whole
  rw [Option.some.inj whole, jsonLength, jsonLength, encoded, dumps, dumpsWith]
  simp only [String.length_append, Option.getD_some]
  have fixed : "\x7b\"response\": ".length = 13 ∧ ", \"trace\": ".length = 11 ∧ "\x7d".length = 1 := by
    decide
  omega

/-- What is stored of a successful result: its payload, cut, if it can be packed. -/
theorem stored_summary (upload : Upload) (succeeds : result.ok = true) :
    (P.exitOf (.returned result) upload).1.update.resultSummary =
      if packable result then (P.resultPayload result).map (clip 4000) else none := by
  have packs := resultPayload_isSome P result
  rw [Processing.exitOf.eq_def]
  dsimp only
  rw [if_pos succeeds, Processing.deliveredExit.eq_def]
  dsimp only
  rcases shape : ((result.trace.getD .null).orElse (.dict [])).isDict with _ | _
  · simp [packable, shape, Processing.raisedExit, StatusUpdate.plain]
  · rcases payload : P.resultPayload result with _ | packed
    · rw [payload] at packs
      simp [packable, shape, ← packs, Processing.raisedExit, StatusUpdate.plain]
    · rw [payload] at packs
      simp [packable, shape, ← packs]

theorem clip_whole (n : Nat) (s : String) (short : s.length ≤ n) : clip n s = s := by
  rw [clip, List.take_of_length_le (by rwa [String.length_toList]), String.ofList_toList]

theorem payload_print (payload : String) (packed : P.resultPayload result = some payload) :
    payload.toList = print standardStyle (toJson (payloadValue P result)) :=
  dumps_eq_print .standard standardStyle standard_prints _ payload (resultPayload_eq P result payload packed)

theorem payload_loads (N : Numerals) (payload : String) (packed : P.resultPayload result = some payload)
    (loaded : Loaded N (storedTrace result)) : loads N payload = some (payloadValue P result) := by
  refine loads_print N standardStyle rfl standard_blank _ ?_ payload (payload_print P result payload packed)
  exact ⟨by simp, trivial, loaded, trivial⟩

/-- A payload that is cut is no JSON any more. -/
theorem cut_unreadable (N : Numerals) (payload : String) (packed : P.resultPayload result = some payload)
    (long : 4000 < payload.length) : loads N (clip 4000 payload) = none := by
  have printed := payload_print P result payload packed
  have solid := toJson_solid (payloadValue P result)
  rw [payloadValue, toJson] at printed solid
  have whole := (printed.symm.trans (List.take_append_drop 4000 payload.toList).symm)
  have cut : payload.toList.drop 4000 ≠ [] := by
    rw [ne_eq, List.drop_eq_nil_iff, String.length_toList]
    omega
  have unread := readText_cut standardStyle strict_forward standard_blank _ solid _ _ whole cut
  rw [loads, clip, String.toList_ofList]
  exact congrArg (·.bind (ofJson N)) unread

/-- A successful result is stored as something a poll client can read exactly when its trace can be
packed and the JSON of the clipped response and of the trace fits into 3975 characters. -/
theorem summary_readable_iff (N : Numerals) (upload : Upload) (succeeds : result.ok = true)
    (loaded : (storedTrace result).jsonable = true → Loaded N (storedTrace result)) :
    (∃ summary, (P.exitOf (.returned result) upload).1.update.resultSummary = some summary ∧
        Readable N summary) ↔
      packable result = true ∧
        jsonLength (str (storedResponse P result)) + jsonLength (storedTrace result) ≤ 3975 := by
  rw [stored_summary P result upload succeeds]
  rcases packs : packable result with _ | _
  · rw [if_neg Bool.false_ne_true]
    exact iff_of_false nofun nofun
  rw [if_pos rfl, and_iff_right rfl]
  have both := (Bool.and_eq_true_iff.mp packs).2
  have encodes : (storedTrace result).jsonable = true :=
    (Bool.and_eq_true_iff.mp (Bool.and_eq_true_iff.mp both).2).1
  have there : (P.resultPayload result).isSome = true := (resultPayload_isSome P result).trans both
  rcases Option.isSome_iff_exists.mp there with ⟨payload, packed⟩
  have measured := resultPayload_length P result payload packed
  rw [packed, Option.map_some]
  constructor
  · rintro ⟨summary, same, readable⟩
    by_contra long
    rcases readable.parses with ⟨kvs, parsed, -⟩
    rw [← Option.some.inj same, cut_unreadable P result N payload packed (by omega)] at parsed
    contradiction
  · intro fits
    rw [clip_whole 4000 payload (by omega)]
    refine ⟨payload, rfl, by omega, _, payload_loads P result N payload packed (loaded encodes), rfl, rfl⟩

theorem length_dumpsStr (s : String) : s.length ≤ (dumpsStr .standard s).length := by
  have chars : s.toList.length ≤ (s.toList.flatMap (escapeChar true)).length := by
    induction s.toList with
    | nil => exact Nat.le_refl 0
    | cons c rest later =>
      have one := List.length_pos_of_ne_nil (escape_ne_nil standardStyle c)
      rw [List.flatMap_cons, List.length_append, List.length_cons]
      change 0 < (escapeChar true c).length at one
      omega
  rw [dumpsStr, String.length_ofList, ← String.length_toList]
  simp only [JsonStyle.standard, List.length_append, List.length_cons]
  omega

def longTrace (n : Nat) : Value := dict [("error", str (String.ofList (List.replicate n 'x')))]

def longResult (n : Nat) : AgentResult :=
  { ok := true, response := some (.str "done"), trace := some (longTrace n), error := none, message := none }

theorem longTrace_length (n : Nat) : n ≤ jsonLength (longTrace n) := by
  have long := length_dumpsStr (String.ofList (List.replicate n 'x'))
  rw [String.length_ofList, List.length_replicate] at long
  rw [jsonLength, longTrace, dumps, dumpsWith, dumpsItems, dumpsItems, dumpsWith]
  simp only [Option.map_some, Option.getD_some, String.intercalate_singleton, String.length_append]
  omega

theorem longTrace_loaded (N : Numerals) (n : Nat) : Loaded N (longTrace n) :=
  ⟨List.nodup_singleton _, trivial, trivial⟩

theorem longResult_packable (n : Nat) : packable (longResult n) = true := by
  simp [packable, longResult, longTrace, orElse, truthy, isDict, dumpable, jsonable, jsonableItems, writable,
    writableItems]

theorem long_trace_unreadable :
    ¬∀ (P : Processing) (N : Numerals) (result : AgentResult) (upload : Upload), result.ok = true →
      Loaded N (storedTrace result) →
      ∃ summary, (P.exitOf (.returned result) upload).1.update.resultSummary = some summary ∧
        Readable N summary := by
  intro readable
  rcases readable (.escrowEnabled hookedJob) ⟨fun _ => nan, fun _ => none⟩ (longResult 4000) .noDirectory rfl
    (longTrace_loaded _ 4000) with ⟨summary, stored, ⟨-, kvs, parsed, -⟩⟩
  rw [stored_summary _ _ _ rfl] at stored
  rw [if_pos (longResult_packable 4000)] at stored
  rcases Option.map_eq_some_iff.mp stored with ⟨payload, packed, same⟩
  have measured := resultPayload_length _ _ payload packed
  have long : 4000 ≤ jsonLength (storedTrace (longResult 4000)) := longTrace_length 4000
  rw [← same, cut_unreadable _ _ _ payload packed (by omega)] at parsed
  contradiction

theorem short_result_readable :
    ∃ summary, ((Processing.escrowEnabled hookedJob).exitOf (.returned reportResult)
        .noDirectory).1.update.resultSummary = some summary ∧
      Readable ⟨fun _ => nan, fun _ => none⟩ summary :=
  (summary_readable_iff (.escrowEnabled hookedJob) reportResult ⟨fun _ => nan, fun _ => none⟩ .noDirectory rfl
    fun _ => ⟨List.nodup_nil, trivial⟩).mpr ⟨by decide, by decide⟩

end GenesisAgents
