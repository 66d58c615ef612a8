import Mathlib.Data.List.Basic
import Mathlib.Data.List.Induction
import Mathlib.Data.List.Nodup

/-! Rows gathered under their keys: a table with one entry for each key, in the order the keys come
first. An entry starts with the first row of its key and takes in the later ones; either step, and the
key itself, may fail. -/

namespace KeyedGroups

variable {α β κ : Type} [DecidableEq κ]

def firstKeys (keys : List κ) : List κ :=
  keys.foldl (fun seen k => if k ∈ seen then seen else seen ++ [k]) []

theorem firstKeys_concat (keys : List κ) (k : κ) :
    firstKeys (keys ++ [k]) =
      if k ∈ firstKeys keys then firstKeys keys else firstKeys keys ++ [k] := by
  rw [firstKeys, List.foldl_append]
  rfl

@[simp] theorem mem_firstKeys (keys : List κ) (k : κ) : k ∈ firstKeys keys ↔ k ∈ keys := by
  induction keys using List.reverseRecOn with
  | nil => rfl
  | append_singleton keys last earlier =>
    rw [firstKeys_concat, List.mem_append, ← earlier]
    split
    · rename_i seen
      constructor
      · exact Or.inl
      · rintro (old | new)
        · exact old
        · exact List.mem_singleton.mp new ▸ seen
    · rw [List.mem_append]

section

variable (key : α → Option κ) (first : α → β) (next : β → α → Option β)

def group (k : κ) (rows : List α) : List α := rows.filter fun row => key row = some k

def keys (rows : List α) : List κ := firstKeys (rows.filterMap key)

def enter (table : List (κ × β)) (row : α) : Option (List (κ × β)) :=
  match key row with
  | none => none
  | some k =>
    match table.lookup k with
    | none => some (table ++ [(k, first row)])
    | some old => (next old row).map fun new =>
        table.map fun entry => if entry.1 = k then (k, new) else entry

def collect (rows : List α) : Option (List (κ × β)) := rows.foldlM (enter key first next) []

def entry : List α → Option β
  | [] => none
  | row :: rest => rest.foldlM next (first row)

structure Collected (rows : List α) (table : List (κ × β)) : Prop where
  keyed : ∀ row ∈ rows, (key row).isSome = true
  keys : table.map Prod.fst = keys key rows
  entries : ∀ k b, (k, b) ∈ table → entry first next (group key k rows) = some b

theorem mem_keys (rows : List α) (k : κ) : k ∈ keys key rows ↔ ∃ row ∈ rows, key row = some k := by
  rw [keys, mem_firstKeys, List.mem_filterMap]

theorem mem_group (rows : List α) (row : α) (k : κ) :
    row ∈ group key k rows ↔ row ∈ rows ∧ key row = some k := by
  rw [group, List.mem_filter, decide_eq_true_eq]

theorem group_concat (rows : List α) (row : α) (k : κ) :
    group key k (rows ++ [row]) =
      group key k rows ++ if key row = some k then [row] else [] := by
  rw [group, List.filter_append, List.filter_singleton, group]
  by_cases same : key row = some k <;> simp [same]

theorem keys_concat (rows : List α) (row : α) (k : κ) (keyed : key row = some k) :
    keys key (rows ++ [row]) =
      if k ∈ keys key rows then keys key rows else keys key rows ++ [k] := by
  rw [keys, List.filterMap_append, List.filterMap_cons_some keyed, List.filterMap_nil,
    firstKeys_concat]
  rfl

theorem group_eq_nil (rows : List α) (k : κ) (absent : k ∉ keys key rows) : group key k rows = [] := by
  apply List.filter_eq_nil_iff.mpr
  intro row member same
  exact absent ((mem_keys key rows k).mpr ⟨row, member, of_decide_eq_true same⟩)

theorem entry_concat (rows : List α) (row : α) (some_row : rows ≠ []) :
    entry first next (rows ++ [row]) = (entry first next rows).bind fun b => next b row := by
  cases rows with
  | nil => contradiction
  | cons head rest =>
    rw [List.cons_append, entry, List.foldlM_append, entry]
    apply congrArg (Option.bind _)
    funext b
    exact bind_pure (next b row)

theorem group_ne_nil (rows : List α) (k : κ) (present : k ∈ keys key rows) : group key k rows ≠ [] := by
  obtain ⟨row, member, keyed⟩ := (mem_keys key rows k).mp present
  exact List.ne_nil_of_mem ((mem_group key rows row k).mpr ⟨member, keyed⟩)

theorem lookup_mem (table : List (κ × β)) (k : κ) (b : β) (found : table.lookup k = some b) :
    (k, b) ∈ table := by
  obtain ⟨before, after, rfl, -⟩ := List.lookup_eq_some_iff.mp found
  exact List.mem_append_right _ List.mem_cons_self

theorem lookup_none (table : List (κ × β)) (k : κ) (absent : table.lookup k = none) :
    k ∉ table.map Prod.fst := by
  rw [List.lookup_eq_none_iff] at absent
  intro member
  obtain ⟨pair, there, same⟩ := List.mem_map.mp member
  exact absurd same.symm (by simpa using absent pair there)

theorem collected_enter (rows : List α) (row : α) (table table' : List (κ × β))
    (collected : Collected key first next rows table)
    (entered : enter key first next table row = some table') :
    Collected key first next (rows ++ [row]) table' := by
  rw [enter] at entered
  split at entered
  · contradiction
  rename_i k keyed
  have every : ∀ other ∈ rows ++ [row], (key other).isSome = true := by
    intro other member
    rcases List.mem_append.mp member with old | new
    · exact collected.keyed other old
    · rw [List.mem_singleton.mp new, keyed, Option.isSome_some]
  have others (k' : κ) (different : k' ≠ k) : group key k' (rows ++ [row]) = group key k' rows := by
    have other : key row ≠ some k' := fun same => different (Option.some.inj (same.symm.trans keyed))
    rw [group_concat, if_neg other, List.append_nil]
  split at entered
  · rename_i absent
    have unseen : k ∉ keys key rows := collected.keys ▸ lookup_none table k absent
    obtain rfl := Option.some.inj entered
    refine ⟨every, ?_, ?_⟩
    · rw [keys_concat key rows row k keyed, if_neg unseen, List.map_append, collected.keys]
      rfl
    · intro k' b member
      rcases List.mem_append.mp member with old | new
      · have present : k' ∈ keys key rows := collected.keys ▸ List.mem_map_of_mem old
        rw [others k' fun same => unseen (same ▸ present)]
        exact collected.entries k' b old
      · obtain ⟨rfl, rfl⟩ := Prod.mk.inj (List.mem_singleton.mp new)
        rw [group_concat, if_pos keyed, group_eq_nil key rows _ unseen]
        rfl
  · rename_i old found
    obtain ⟨new, taken, rfl⟩ := Option.map_eq_some_iff.mp entered
    have here := lookup_mem table k old found
    have seen : k ∈ keys key rows := collected.keys ▸ List.mem_map_of_mem here
    refine ⟨every, ?_, ?_⟩
    · rw [keys_concat key rows row k keyed, if_pos seen, ← collected.keys, List.map_map]
      apply List.map_congr_left
      intro pair _
      rw [Function.comp]
      split
      · rename_i same
        exact same.symm
      · rfl
    · intro k' b member
      obtain ⟨pair, there, written⟩ := List.mem_map.mp member
      split at written
      · obtain ⟨rfl, rfl⟩ := Prod.mk.inj written
        rw [group_concat, if_pos keyed]
        rw [entry_concat first next _ row (group_ne_nil key rows _ seen),
          collected.entries _ old here]
        exact taken
      · rename_i different
        subst written
        rw [others k' different]
        exact collected.entries k' b there

theorem collect_concat (rows : List α) (row : α) :
    collect key first next (rows ++ [row]) =
      (collect key first next rows).bind fun table => enter key first next table row := by
  rw [collect, List.foldlM_append]
  exact congrArg _ (funext fun _ => bind_pure _)

theorem collected_of_collect (rows : List α) :
    ∀ table, collect key first next rows = some table → Collected key first next rows table := by
  induction rows using List.reverseRecOn with
  | nil =>
    intro table done
    obtain rfl : [] = table := Option.some.inj done
    exact ⟨List.forall_mem_nil _, rfl, fun _ _ member => by contradiction⟩
  | append_singleton rows row earlier =>
    intro table' done
    rw [collect_concat] at done
    obtain ⟨table, before, entered⟩ := Option.bind_eq_some_iff.mp done
    exact collected_enter key first next rows row table table' (earlier table before) entered

theorem collect_isSome (rows : List α) :
    (collect key first next rows).isSome = true ↔ (∀ row ∈ rows, (key row).isSome = true) ∧
      ∀ k ∈ keys key rows, (entry first next (group key k rows)).isSome = true := by
  constructor
  · intro done
    obtain ⟨table, whole⟩ := Option.isSome_iff_exists.mp done
    have collected := collected_of_collect key first next rows table whole
    refine ⟨collected.keyed, fun k present => ?_⟩
    rw [← collected.keys] at present
    obtain ⟨⟨_, b⟩, there, rfl⟩ := List.mem_map.mp present
    rw [collected.entries _ b there, Option.isSome_some]
  · induction rows using List.reverseRecOn with
    | nil => exact fun _ => rfl
    | append_singleton rows row earlier =>
      rintro ⟨keyed, entries⟩
      have before : ∀ k ∈ keys key rows,
          (entry first next (group key k rows)).isSome = true := by
        intro k present
        have later := entries k ((mem_keys key _ k).mpr <| by
          obtain ⟨other, member, same⟩ := (mem_keys key rows k).mp present
          exact ⟨other, List.mem_append_left _ member, same⟩)
        rw [group_concat] at later
        split at later
        · rw [entry_concat first next _ row (group_ne_nil key rows k present)] at later
          exact Option.isSome_of_isSome_bind later
        · rwa [List.append_nil] at later
      have done := earlier ⟨fun other member => keyed other (List.mem_append_left _ member), before⟩
      obtain ⟨table, whole⟩ := Option.isSome_iff_exists.mp done
      have collected := collected_of_collect key first next rows table whole
      obtain ⟨k, own⟩ := Option.isSome_iff_exists.mp
        (keyed row (List.mem_append_right _ (List.mem_singleton_self _)))
      rw [collect_concat, whole, Option.bind_some, enter, own]
      dsimp only
      split
      · rfl
      · rename_i old found
        have here := lookup_mem table k old found
        have seen : k ∈ keys key rows := collected.keys ▸ List.mem_map_of_mem here
        have taken := entries k ((mem_keys key _ k).mpr
          ⟨row, List.mem_append_right _ (List.mem_singleton_self _), own⟩)
        rw [group_concat, if_pos own, entry_concat first next _ row (group_ne_nil key rows k seen),
          collected.entries k old here, Option.bind_some] at taken
        rw [Option.isSome_map]
        exact taken

end

section

variable {σ : Type} (score : α → Option σ) (greater : σ → σ → Bool)

def beats (row kept : α) : Bool :=
  match score row, score kept with
  | some a, some b => greater a b
  | _, _ => false

/-- The row that a comparison from left to right keeps. -/
def champion : List α → Option α
  | [] => none
  | row :: rest =>
    some (rest.foldl (fun kept row => if beats score greater row kept then row else kept) row)

def better (kept row : α) : Option α :=
  match score row, score kept with
  | some a, some b => some (if greater a b then row else kept)
  | _, _ => none

/-- `max(rows, key=score)`, of some row -/
def maxBy (rows : List α) : Option α :=
  if rows.all fun row => (score row).isSome then champion score greater rows else none

theorem better_eq (kept row : α) (scored : (score row).isSome = true)
    (scored' : (score kept).isSome = true) :
    better score greater kept row = some (if beats score greater row kept then row else kept) := by
  obtain ⟨a, left⟩ := Option.isSome_iff_exists.mp scored
  obtain ⟨b, right⟩ := Option.isSome_iff_exists.mp scored'
  rw [better, beats, left, right]

theorem better_scored (kept row new : α) (done : better score greater kept row = some new) :
    (score row).isSome = true ∧ (score kept).isSome = true := by
  rw [better] at done
  split at done
  · rename_i left right
    rw [left, right]
    exact ⟨rfl, rfl⟩
  · contradiction

theorem fold_better (rest : List α) :
    ∀ kept, (score kept).isSome = true → (∀ row ∈ rest, (score row).isSome = true) →
      rest.foldlM (better score greater) kept =
        some (rest.foldl (fun kept row => if beats score greater row kept then row else kept) kept) := by
  induction rest with
  | nil => exact fun _ _ _ => rfl
  | cons row rest later =>
    intro kept scored scores
    have own := scores row List.mem_cons_self
    rw [List.foldlM_cons, better_eq score greater kept row own scored, List.foldl_cons]
    apply later
    · split
      · exact own
      · exact scored
    · exact fun other member => scores other (List.mem_cons_of_mem _ member)

theorem scores_of_fold (rest : List α) :
    ∀ kept, (rest.foldlM (better score greater) kept).isSome = true →
      ∀ row ∈ rest, (score row).isSome = true := by
  induction rest with
  | nil => exact fun _ _ => List.forall_mem_nil _
  | cons row rest later =>
    intro kept done
    rw [List.foldlM_cons] at done
    obtain ⟨whole, done⟩ := Option.isSome_iff_exists.mp done
    obtain ⟨new, taken, further⟩ := Option.bind_eq_some_iff.mp done
    refine List.forall_mem_cons.mpr ⟨(better_scored score greater kept row new taken).1, ?_⟩
    exact later new (Option.isSome_iff_exists.mpr ⟨whole, further⟩)

theorem entry_better_isSome (rows : List α) (some_row : rows ≠ []) :
    (entry id (better score greater) rows).isSome = true ↔
      (2 ≤ rows.length → ∀ row ∈ rows, (score row).isSome = true) := by
  rcases rows with _ | ⟨head, _ | ⟨second, rest⟩⟩
  · contradiction
  · exact iff_of_true rfl fun two => absurd two (by simp)
  · rw [entry]
    constructor
    · intro done _
      have others := scores_of_fold score greater _ _ done
      refine List.forall_mem_cons.mpr ⟨?_, others⟩
      obtain ⟨whole, done⟩ := Option.isSome_iff_exists.mp done
      rw [List.foldlM_cons] at done
      obtain ⟨new, taken, -⟩ := Option.bind_eq_some_iff.mp done
      exact (better_scored score greater head second new taken).2
    · intro scores
      obtain ⟨own, others⟩ := List.forall_mem_cons.mp (scores (by simp))
      rw [fold_better score greater (second :: rest) (id head) own others, Option.isSome_some]

theorem entry_better (rows : List α) (best : α) (done : entry id (better score greater) rows = some best) :
    champion score greater rows = some best := by
  rcases rows with _ | ⟨head, _ | ⟨second, rest⟩⟩
  · contradiction
  · exact done
  · have scored := (entry_better_isSome score greater _ (by simp)).mp
      (Option.isSome_iff_exists.mpr ⟨best, done⟩) (by simp)
    obtain ⟨own, others⟩ := List.forall_mem_cons.mp scored
    rw [entry, fold_better score greater (second :: rest) (id head) own others] at done
    exact done

theorem champion_isSome (rows : List α) (some_row : rows ≠ []) :
    (champion score greater rows).isSome = true := by
  cases rows with
  | nil => contradiction
  | cons head rest => rfl

theorem champion_mem (rows : List α) (best : α) (kept : champion score greater rows = some best) :
    best ∈ rows := by
  rcases rows with _ | ⟨head, rest⟩
  · contradiction
  · obtain rfl := Option.some.inj kept
    clear kept
    induction rest generalizing head with
    | nil => exact List.mem_singleton_self _
    | cons row rest later =>
      rw [List.foldl_cons]
      split
      · exact List.mem_cons_of_mem _ (later row)
      · rcases List.mem_cons.mp (later head) with same | member
        · rw [same]
          exact List.mem_cons_self
        · exact List.mem_cons_of_mem _ (List.mem_cons_of_mem _ member)

variable (key : α → Option κ)

def winners (rows : List α) : List α :=
  (keys key rows).filterMap fun k => champion score greater (group key k rows)

omit [DecidableEq κ] in
theorem snd_eq_filterMap (table : List (κ × α)) (value : κ → Option α)
    (entries : ∀ k b, (k, b) ∈ table → value k = some b) :
    table.map Prod.snd = (table.map Prod.fst).filterMap value := by
  induction table with
  | nil => rfl
  | cons pair rest later =>
    rw [List.map_cons, List.map_cons, List.filterMap_cons_some (entries pair.1 pair.2 List.mem_cons_self),
      later fun k b member => entries k b (List.mem_cons_of_mem _ member)]

theorem collect_better (rows : List α) (table : List (κ × α))
    (done : collect key id (better score greater) rows = some table) :
    table.map Prod.snd = winners score greater key rows := by
  have collected := collected_of_collect key id (better score greater) rows table done
  rw [winners, ← collected.keys]
  apply snd_eq_filterMap
  intro k b member
  exact entry_better score greater _ b (collected.entries k b member)

theorem collect_better_isSome (rows : List α) :
    (collect key id (better score greater) rows).isSome = true ↔
      (∀ row ∈ rows, (key row).isSome = true) ∧
        ∀ k ∈ keys key rows, 2 ≤ (group key k rows).length →
          ∀ row ∈ group key k rows, (score row).isSome = true := by
  rw [collect_isSome]
  apply and_congr_right
  intro _
  apply forall₂_congr
  intro k present
  exact entry_better_isSome score greater _ (group_ne_nil key rows k present)

end

theorem entry_append (rows : List α) (some_row : rows ≠ []) :
    entry (fun row => [row]) (fun old row => some (old ++ [row])) rows = some rows := by
  have folds (rest : List α) : ∀ old : List α,
      rest.foldlM (fun old row => some (old ++ [row])) old = some (old ++ rest) := by
    induction rest with
    | nil =>
      intro old
      rw [List.append_nil]
      rfl
    | cons row rest later =>
      intro old
      rw [List.foldlM_cons]
      exact (later (old ++ [row])).trans (by rw [List.append_assoc]; rfl)
  cases rows with
  | nil => contradiction
  | cons head rest => exact folds rest [head]

theorem collect_groups (key : α → Option κ) (rows : List α) :
    collect key (fun row => [row]) (fun old row => some (old ++ [row])) rows =
      if rows.all fun row => (key row).isSome then
        some ((keys key rows).map fun k => (k, group key k rows))
      else none := by
  split
  · rename_i keyed
    have entries : ∀ k ∈ keys key rows, entry (fun row => [row])
        (fun old row => some (old ++ [row])) (group key k rows) = some (group key k rows) :=
      fun k present => entry_append _ (group_ne_nil key rows k present)
    have done : (collect key (fun row => [row]) (fun old row => some (old ++ [row])) rows).isSome =
        true := by
      refine (collect_isSome key _ _ rows).mpr ⟨List.all_eq_true.mp keyed, fun k present => ?_⟩
      rw [entries k present, Option.isSome_some]
    obtain ⟨table, whole⟩ := Option.isSome_iff_exists.mp done
    have collected := collected_of_collect key _ _ rows table whole
    rw [whole, ← collected.keys, List.map_map]
    apply congrArg some
    calc table = table.map id := (List.map_id table).symm
      _ = _ := by
        apply List.map_congr_left
        intro pair member
        have present : pair.1 ∈ keys key rows := collected.keys ▸ List.mem_map_of_mem member
        have value := (entries pair.1 present).symm.trans (collected.entries pair.1 pair.2 member)
        exact Prod.ext rfl (Option.some.inj value).symm
  · rename_i unkeyed
    apply Option.eq_none_iff_forall_ne_some.mpr
    intro table done
    exact unkeyed (List.all_eq_true.mpr (collected_of_collect key _ _ rows table done).keyed)

section

variable (key : α → Option κ) (choose : List α → Option α)

def picked (rows : List α) : List α := (keys key rows).filterMap fun k => choose (group key k rows)

structure Chooses : Prop where
  mem : ∀ rows row, choose rows = some row → row ∈ rows
  total : ∀ rows, rows ≠ [] → (choose rows).isSome = true
  single : ∀ row, choose [row] = some row

omit [DecidableEq κ] in
theorem firstKeys_nodup [DecidableEq κ] (keys : List κ) : (firstKeys keys).Nodup := by
  induction keys using List.reverseRecOn with
  | nil => exact List.nodup_nil
  | append_singleton keys k earlier =>
    rw [firstKeys_concat]
    split
    · exact earlier
    · rename_i unseen
      rw [← List.concat_eq_append]
      exact earlier.concat unseen

theorem firstKeys_of_nodup (keys : List κ) (distinct : keys.Nodup) : firstKeys keys = keys := by
  induction keys using List.reverseRecOn with
  | nil => rfl
  | append_singleton keys k earlier =>
    rw [List.nodup_append'] at distinct
    have unseen : k ∉ keys := fun member => distinct.2.2 member (List.mem_singleton_self k)
    rw [firstKeys_concat, earlier distinct.1, if_neg unseen]

theorem group_of_distinct (rows : List α) (row : α) (k : κ) (distinct : (rows.map key).Nodup)
    (member : row ∈ rows) (own : key row = some k) : group key k rows = [row] := by
  induction rows with
  | nil => cases member
  | cons head rest later =>
    rw [List.map_cons, List.nodup_cons] at distinct
    rcases List.mem_cons.mp member with rfl | member
    · have others : group key k rest = [] := by
        apply List.filter_eq_nil_iff.mpr
        intro other inside same
        apply distinct.1
        rw [own, ← of_decide_eq_true same]
        exact List.mem_map_of_mem inside
      rw [group, List.filter_cons_of_pos (by simpa using own), ← group, others]
    · have different : key head ≠ some k := by
        intro same
        apply distinct.1
        rw [same, ← own]
        exact List.mem_map_of_mem member
      rw [group, List.filter_cons_of_neg (by simpa using different), ← group, later distinct.2 member]

variable {key choose} (chooses : Chooses choose)

include chooses

theorem mem_picked (rows : List α) (row : α) (member : row ∈ picked key choose rows) : row ∈ rows := by
  rcases List.mem_filterMap.mp member with ⟨k, _, chosen⟩
  exact ((mem_group key rows row k).mp (chooses.mem _ row chosen)).1

theorem picked_keys (rows : List α) : (picked key choose rows).map key = (keys key rows).map some := by
  have each (ks : List κ) (among : ∀ k ∈ ks, k ∈ keys key rows) :
      (ks.filterMap fun k => choose (group key k rows)).map key = ks.map some := by
    induction ks with
    | nil => rfl
    | cons k ks later =>
      rcases Option.isSome_iff_exists.mp (chooses.total _ (group_ne_nil key rows k (among k (by simp)))) with
        ⟨row, chosen⟩
      have own := ((mem_group key rows row k).mp (chooses.mem _ row chosen)).2
      have rest := later fun other member => among other (by simp [member])
      rw [List.filterMap_cons_some (f := fun k => choose (group key k rows)) chosen, List.map_cons,
        List.map_cons, own, rest]
  exact each (keys key rows) fun k member => member

theorem picked_distinct (rows : List α) : ((picked key choose rows).map key).Nodup := by
  rw [picked_keys chooses]
  exact (firstKeys_nodup _).map fun _ _ same => Option.some.inj same

/-- No key is lost. -/
theorem picked_covers (rows : List α) (row : α) (member : row ∈ rows) (keyed : (key row).isSome = true) :
    ∃ other ∈ picked key choose rows, key other = key row := by
  rcases Option.isSome_iff_exists.mp keyed with ⟨k, own⟩
  have present : some k ∈ (picked key choose rows).map key := by
    rw [picked_keys chooses]
    exact List.mem_map_of_mem ((mem_keys key rows k).mpr ⟨row, member, own⟩)
  rcases List.mem_map.mp present with ⟨other, inside, same⟩
  exact ⟨other, inside, same.trans own.symm⟩

/-- Rows with keys of their own are all picked, in their order. -/
theorem picked_of_distinct (rows : List α) (keyed : ∀ row ∈ rows, (key row).isSome = true)
    (distinct : (rows.map key).Nodup) : picked key choose rows = rows := by
  have own (row : α) (member : row ∈ rows) :
      ((key row).bind fun k => choose (group key k rows)) = some row := by
    rcases Option.isSome_iff_exists.mp (keyed row member) with ⟨k, same⟩
    rw [same, Option.bind_some, group_of_distinct key rows row k distinct member same]
    exact chooses.single row
  have keysDistinct : (rows.filterMap key).Nodup := by
    have mapped : (rows.filterMap key).map some = rows.map key := by
      rw [List.map_filterMap]
      apply List.filterMap_eq_map_iff_forall_eq_some.mpr
      intro row member
      rcases Option.isSome_iff_exists.mp (keyed row member) with ⟨k, same⟩
      rw [same]
      rfl
    exact List.Nodup.of_map some (mapped ▸ distinct)
  rw [picked, keys, firstKeys_of_nodup _ keysDistinct, List.filterMap_filterMap]
  calc rows.filterMap (fun row => (key row).bind fun k => choose (group key k rows)) = rows.map id :=
        List.filterMap_eq_map_iff_forall_eq_some.mpr own
    _ = rows := List.map_id rows

end

theorem mapM_isSome (f : α → Option β) (rows : List α) :
    (rows.mapM f).isSome = true ↔ ∀ row ∈ rows, (f row).isSome = true := by
  induction rows with
  | nil => simp
  | cons row rest later =>
    rw [List.mapM_cons, List.forall_mem_cons, ← later]
    rcases f row with _ | b
    · simp
    · rcases rest.mapM f with _ | bs <;> simp

theorem mapM_eq_filterMap (f value : α → Option β) (rows : List α)
    (agree : ∀ row ∈ rows, ∀ b, f row = some b → value row = some b) :
    ∀ bs, rows.mapM f = some bs → bs = rows.filterMap value := by
  induction rows with
  | nil =>
    rintro bs done
    exact (Option.some.inj done).symm
  | cons row rest later =>
    intro bs done
    rw [List.mapM_cons] at done
    obtain ⟨b, own, done⟩ := Option.bind_eq_some_iff.mp done
    obtain ⟨others, further, done⟩ := Option.bind_eq_some_iff.mp done
    obtain rfl := Option.some.inj done
    obtain ⟨first, remaining⟩ := List.forall_mem_cons.mp agree
    rw [List.filterMap_cons_some (first b own), later remaining others further]

end KeyedGroups
