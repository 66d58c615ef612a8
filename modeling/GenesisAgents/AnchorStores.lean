import GenesisAgents.AnchorRuns
import Mathlib.Algebra.Group.Int.Defs

/-! Are the two anchor stores interchangeable? The same anchors anchorsRecorded in the JSONL file and in the
table, read back with `get_anchor` and `list_anchors`. -/

namespace GenesisAgents

open Value

/-! `list_anchors` -/

/-- `l[start:]` -/
def pyTail {α : Type} (l : List α) (start : Int) : List α :=
  l.drop (if start < 0 then start + l.length else start).toNat

def AnchorLine.value? : AnchorLine → Option Value
  | .skipped => none
  | .record v => some v

/-- The query of `list_anchors`, newest rows first. `LIMIT` is a `bigint` and not negative, else the
query raises; so it does when the table cannot be read. -/
def queryLastRows (anchorRows : Option (List AnchorRow)) (limit : Int) : Option (List AnchorRow) :=
  if 0 ≤ limit ∧ limit < 2 ^ 63 then anchorRows.map fun rows => rows.reverse.take limit.toNat else none

/-- `list_anchors` -/
def Host.listAnchors (w : Host) (al : AnchorLogger) (limit : Int) :
    Except AnchorRefusal (List Value) :=
  if al.pg then
    match (queryLastRows w.anchorRows limit).map (List.mapM rowToAnchor) with
    | some (.ok anchors) => .ok anchors
    | _ => .ok []
  else
    match al.anchorStore.bind w.jsonl with
    | none => .ok []
    | some file =>
      match file.ending with
      | .osError => .ok []
      | .undecodable => .error .badRecord
      | .eof => .ok (pyTail (file.lines.filterMap AnchorLine.value?) (-limit)).reverse

/-! The stores after a sequence of calls. -/

def fileLogger (dbPath : Option String) (path : String) : AnchorLogger :=
  { pg := false, dbPath := dbPath, anchorStore := some path }

/-- `record_anchor` of each anchor, in a store that has none yet. -/
def anchorsRecorded (getenv : String → Option String) (postgresSelected : Bool) (al : AnchorLogger)
    (anchors : List Anchor) : Host :=
  Runs.run (fun w anchor => w.recordAnchor al anchor) (.fresh getenv postgresSelected fun _ => true) anchors

def Interchangeable (file table : Host) (fileLog tableLog : AnchorLogger) (date : String)
    (limit : Int) : Prop :=
  file.getAnchor fileLog date = table.getAnchor tableLog date ∧
    file.listAnchors fileLog limit = table.listAnchors tableLog limit

def firstStorable (anchors : List Anchor) (date : String) : Prop :=
  ∀ anchor, anchors.find? (fun anchor => anchor.date == date) = some anchor → anchor.storable = true

/-- A limit that means the same to a slice and to a query. -/
def LimitAgrees (anchors : List Anchor) (limit : Int) : Prop :=
  (0 < limit ∧ limit < 2 ^ 63 ∧
      ∀ anchor ∈ anchors.drop (anchors.length - limit.toNat), anchor.storable = true) ∨
    (limit ≤ 0 ∧ (anchors.length : Int) ≤ -limit) ∨ (2 ^ 63 ≤ limit ∧ anchors = [])

theorem anchorsRecorded_rows (getenv : String → Option String) (postgresSelected : Bool) (al : AnchorLogger)
    (pg : al.pg = true) (anchors : List Anchor) :
    (anchorsRecorded getenv postgresSelected al anchors).anchorRows =
      some ((anchors.filter Anchor.storable).map Anchor.row) := by
  refine Runs.run_history (fun (w : Host) anchor => w.recordAnchor al anchor)
    (fun past w => w.anchorRows = some ((past.filter Anchor.storable).map Anchor.row)) ?_ anchors [] _ rfl
  intro past w anchor held
  rw [Host.recordAnchor, if_pos pg, List.filter_append, List.map_append]
  by_cases storable : anchor.storable = true
  · rw [if_pos storable, List.filter_cons_of_pos storable, held]
    rfl
  · rw [if_neg storable, List.filter_cons_of_neg storable, held, List.filter_nil, List.map_nil,
      List.append_nil]

theorem anchorsRecorded_file (getenv : String → Option String) (postgresSelected : Bool)
    (dbPath : Option String) (path : String) (anchors : List Anchor) :
    ((anchorsRecorded getenv postgresSelected (fileLogger dbPath path) anchors).jsonl path).getD ⟨[], .eof⟩ =
      ⟨anchors.map fun anchor => .record anchor.value, .eof⟩ := by
  refine Runs.run_history (fun (w : Host) anchor => w.recordAnchor (fileLogger dbPath path) anchor)
    (fun past w => (w.jsonl path).getD ⟨[], .eof⟩ =
      ⟨past.map fun anchor => .record anchor.value, .eof⟩) ?_ anchors [] _ rfl
  intro past w anchor held
  simp [Host.recordAnchor, fileLogger, held, JsonlFile.add]

theorem anchorValue_injective : Function.Injective Anchor.value := by
  intro anchor other same
  rcases anchor with ⟨date, sessions, actions, leaves, root, computed⟩
  rcases other with ⟨date', sessions', actions', leaves', root', computed'⟩
  simp only [Anchor.value, dict.injEq, List.cons.injEq, Prod.mk.injEq, str.injEq, int.injEq,
    list.injEq, true_and, and_true, Int.natCast_inj] at same
  obtain ⟨rfl, rfl, rfl, leaf, rfl, rfl⟩ := same
  obtain rfl := List.map_injective_iff.mpr (fun _ _ => str.inj) leaf
  rfl

theorem findAnchor_records (date : String) (anchors : List Anchor) :
    findAnchor date .eof (anchors.map fun anchor => .record anchor.value) =
      .ok ((anchors.find? fun anchor => anchor.date == date).map Anchor.value) := by
  induction anchors with
  | nil => rfl
  | cons anchor rest later =>
    have dict : anchor.value.isDict = true := rfl
    have dated : (anchor.value.get "date").pyEq (str date) = true ↔ anchor.date = date := by
      rw [pyEq_str]
      exact str.injEq _ _ ▸ Iff.rfl
    rw [List.map_cons, findAnchor, dict]
    by_cases here : anchor.date = date
    · rw [if_neg (by decide), if_pos (dated.mpr here), List.find?_cons_of_pos (by simpa using here)]
      rfl
    · rw [if_neg (by decide), if_neg (fun same => here (dated.mp same)),
        List.find?_cons_of_neg (by simpa using here)]
      exact later

theorem mapM_rowToAnchor (anchors : List Anchor) :
    (anchors.map Anchor.row).mapM rowToAnchor = .ok (anchors.map Anchor.value) := by
  induction anchors with
  | nil => rfl
  | cons anchor rest later =>
    rw [List.map_cons, List.mapM_cons, rowToAnchor_written, later]
    rfl

/-- The lines of the anchors, or no file when there is none. -/
def HoldsLines (w : Host) (path : String) (anchors : List Anchor) : Prop :=
  (w.jsonl path).getD ⟨[], .eof⟩ = ⟨anchors.map fun anchor => .record anchor.value, .eof⟩

theorem getAnchor_lines (w : Host) (dbPath : Option String) (path : String) (anchors : List Anchor)
    (holds : HoldsLines w path anchors) (date : String) :
    w.getAnchor (fileLogger dbPath path) date =
      .ok ((anchors.find? fun anchor => anchor.date == date).map Anchor.value) := by
  rw [← findAnchor_records]
  rw [HoldsLines] at holds
  rcases file : w.jsonl path with _ | lines
  · rw [file, Option.getD_none, JsonlFile.mk.injEq] at holds
    simp [Host.getAnchor, fileLogger, file, ← holds.1, findAnchor]
  · rw [file, Option.getD_some] at holds
    simp [Host.getAnchor, fileLogger, file, holds]

theorem listAnchors_lines (w : Host) (dbPath : Option String) (path : String) (anchors : List Anchor)
    (holds : HoldsLines w path anchors) (limit : Int) :
    w.listAnchors (fileLogger dbPath path) limit =
      .ok ((pyTail anchors (-limit)).reverse.map Anchor.value) := by
  have records : (anchors.map fun anchor => AnchorLine.record anchor.value).filterMap AnchorLine.value? =
      anchors.map Anchor.value := by
    rw [List.filterMap_map, ← List.filterMap_eq_map]
    rfl
  have tail : pyTail (anchors.map Anchor.value) (-limit) = (pyTail anchors (-limit)).map Anchor.value := by
    rw [pyTail, pyTail, List.length_map, List.map_drop]
  rw [HoldsLines] at holds
  rcases file : w.jsonl path with _ | lines
  · rw [file, Option.getD_none, JsonlFile.mk.injEq] at holds
    obtain rfl := List.map_eq_nil_iff.mp holds.1.symm
    simp [Host.listAnchors, fileLogger, file, pyTail]
  · rw [file, Option.getD_some] at holds
    simp [Host.listAnchors, fileLogger, file, holds, records, tail]

section

variable (getenv : String → Option String) (postgresSelected : Bool) (anchors : List Anchor)

theorem getAnchor_table (al : AnchorLogger) (pg : al.pg = true) (date : String) :
    (anchorsRecorded getenv postgresSelected al anchors).getAnchor al date =
      .ok (((anchors.filter Anchor.storable).find? fun anchor => anchor.date == date).map
        Anchor.value) := by
  have sameDate : (fun row : AnchorRow => row.anchorDate == date) ∘ Anchor.row =
      fun anchor => anchor.date == date := rfl
  rw [Host.getAnchor, if_pos pg, anchorsRecorded_rows getenv postgresSelected al pg anchors, Option.bind_some,
    List.find?_map, sameDate]
  rcases found : (anchors.filter Anchor.storable).find? (fun anchor => anchor.date == date) with _ | anchor
  · rw [found]
    rfl
  · rw [found]
    exact congrArg (Except.map some) (rowToAnchor_written anchor)

theorem listAnchors_table (al : AnchorLogger) (pg : al.pg = true) (limit : Int) :
    (anchorsRecorded getenv postgresSelected al anchors).listAnchors al limit =
      .ok ((if 0 ≤ limit ∧ limit < 2 ^ 63 then
        (anchors.filter Anchor.storable).reverse.take limit.toNat else []).map Anchor.value) := by
  rw [Host.listAnchors, if_pos pg, anchorsRecorded_rows getenv postgresSelected al pg anchors, queryLastRows]
  by_cases bounded : 0 ≤ limit ∧ limit < 2 ^ 63
  · rw [if_pos bounded, if_pos bounded, Option.map_some, Option.map_some, ← List.map_reverse,
      ← List.map_take, mapM_rowToAnchor]
  · rw [if_neg bounded, if_neg bounded]
    rfl

end

section

variable {α : Type} (keep : α → Bool)

theorem find_filter_iff (p : α → Bool) (l : List α) :
    l.find? p = (l.filter keep).find? p ↔ ∀ a, l.find? p = some a → keep a = true := by
  constructor
  · intro same a found
    exact (List.mem_filter.mp (List.mem_of_find?_eq_some (same.symm.trans found))).2
  · intro first
    induction l with
    | nil => rfl
    | cons a rest later =>
      by_cases here : p a = true
      · have kept := first a (List.find?_cons_of_pos here)
        rw [List.filter_cons_of_pos kept, List.find?_cons_of_pos here, List.find?_cons_of_pos here]
      · rw [List.find?_cons_of_neg here] at first ⊢
        rw [later first]
        by_cases kept : keep a = true
        · rw [List.filter_cons_of_pos kept, List.find?_cons_of_neg here]
        · rw [List.filter_cons_of_neg kept]

theorem take_filter_iff (l : List α) : ∀ k : Nat,
    l.take k = (l.filter keep).take k ↔ ∀ a ∈ l.take k, keep a = true := by
  intro k
  constructor
  · intro same a member
    rw [same] at member
    exact (List.mem_filter.mp (List.mem_of_mem_take member)).2
  · induction l generalizing k with
    | nil => exact fun _ => rfl
    | cons a rest later =>
      intro kept
      cases k with
      | zero => rfl
      | succ k =>
        rw [List.take_succ_cons, List.forall_mem_cons] at kept
        rw [List.filter_cons_of_pos kept.1, List.take_succ_cons, List.take_succ_cons, later k kept.2]

end

theorem pyTail_positive {α : Type} (l : List α) (limit : Int) (positive : 0 < limit) :
    pyTail l (-limit) = l.drop (l.length - limit.toNat) := by
  have start : (-limit + l.length).toNat = l.length - limit.toNat := by omega
  rw [pyTail, if_pos (by omega), start]

theorem pyTail_nonpositive {α : Type} (l : List α) (limit : Int) (low : limit ≤ 0) :
    pyTail l (-limit) = l.drop (-limit).toNat := by
  rw [pyTail, if_neg (by omega)]

/-- A slice and a query with a limit give the same anchors in these cases only. -/
theorem last_anchors_iff (anchors : List Anchor) (limit : Int) :
    (pyTail anchors (-limit)).reverse =
        (if 0 ≤ limit ∧ limit < 2 ^ 63 then
          (anchors.filter Anchor.storable).reverse.take limit.toNat else []) ↔
      LimitAgrees anchors limit := by
  rcases lt_or_ge 0 limit with positive | low
  · rw [pyTail_positive anchors limit positive]
    rcases lt_or_ge limit (2 ^ 63) with small | large
    · rw [if_pos ⟨positive.le, small⟩, ← List.take_reverse, ← List.filter_reverse, take_filter_iff,
        List.take_reverse]
      simp only [List.mem_reverse]
      constructor
      · exact fun kept => .inl ⟨positive, small, kept⟩
      · rintro (⟨-, -, kept⟩ | ⟨low, -⟩ | ⟨large, -⟩)
        · exact kept
        · omega
        · omega
    · rw [if_neg (by omega), List.reverse_eq_nil_iff, List.drop_eq_nil_iff]
      constructor
      · intro whole
        exact .inr (.inr ⟨large, List.length_eq_zero_iff.mp (by omega)⟩)
      · rintro (⟨-, small, -⟩ | ⟨low, -⟩ | ⟨-, rfl⟩)
        · omega
        · omega
        · exact Nat.zero_le _
  · rw [pyTail_nonpositive anchors limit low]
    have nothing : (if 0 ≤ limit ∧ limit < 2 ^ 63 then
        (anchors.filter Anchor.storable).reverse.take limit.toNat else []) = [] := by
      split
      · have zero : limit.toNat = 0 := by omega
        rw [zero, List.take_zero]
      · rfl
    rw [nothing, List.reverse_eq_nil_iff, List.drop_eq_nil_iff]
    constructor
    · intro short
      exact .inr (.inl ⟨low, by omega⟩)
    · rintro (⟨positive, -⟩ | ⟨-, short⟩ | ⟨large, -⟩)
      · omega
      · omega
      · omega

/-- The stores answer a date and a limit alike exactly when the insert takes the first anchor of the
date, and the limit is one that a slice and a query understand in the same way. -/
theorem stores_interchangeable_iff (getenv : String → Option String) (postgresSelected : Bool)
    (dbPath tableDb tableStore : Option String) (path : String) (anchors : List Anchor) (date : String)
    (limit : Int) :
    Interchangeable (anchorsRecorded getenv postgresSelected (fileLogger dbPath path) anchors)
        (anchorsRecorded getenv postgresSelected ⟨true, tableDb, tableStore⟩ anchors)
        (fileLogger dbPath path) ⟨true, tableDb, tableStore⟩ date limit ↔
      firstStorable anchors date ∧ LimitAgrees anchors limit := by
  have lines : HoldsLines _ path anchors := anchorsRecorded_file getenv postgresSelected dbPath path anchors
  have values := List.map_injective_iff.mpr anchorValue_injective
  rw [Interchangeable, getAnchor_lines _ dbPath path anchors lines,
    listAnchors_lines _ dbPath path anchors lines,
    getAnchor_table getenv postgresSelected anchors ⟨true, tableDb, tableStore⟩ rfl,
    listAnchors_table getenv postgresSelected anchors ⟨true, tableDb, tableStore⟩ rfl,
    Except.ok.injEq, Except.ok.injEq, (Option.map_injective anchorValue_injective).eq_iff,
    find_filter_iff, values.eq_iff, last_anchors_iff]
  rfl

def newYearAnchor : Anchor :=
  anchorOf emptyDayAuditing "2026-01-01" (newYear.isoformat loggedCall.timestamp) []

/-- With one anchor anchorsRecorded, `list_anchors(0)` gives it from the file and nothing from the table. -/
theorem limit_zero_differs :
    (Host.fresh (fun _ => none) true fun _ => true).computeDailyAnchor emptyDayAuditing newYear tablesLogger
        (some "2026-01-01") loggedCall.timestamp = .ok newYearAnchor ∧
      ¬Interchangeable (anchorsRecorded (fun _ => none) true (fileLogger none "anchors.jsonl") [newYearAnchor])
        (anchorsRecorded (fun _ => none) true tablesLogger [newYearAnchor])
        (fileLogger none "anchors.jsonl") tablesLogger "2026-01-01" 0 := by
  refine ⟨rfl, fun alike => ?_⟩
  have listed := alike.2
  have lines := anchorsRecorded_file (fun _ => none) true none "anchors.jsonl" [newYearAnchor]
  rw [listAnchors_lines _ none "anchors.jsonl" [newYearAnchor] lines,
    listAnchors_table (fun _ => none) true [newYearAnchor] tablesLogger rfl] at listed
  simp [pyTail] at listed

end GenesisAgents
