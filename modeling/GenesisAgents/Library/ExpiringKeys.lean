import Mathlib.Order.Lattice
import Mathlib.Data.List.Nodup
import Mathlib.Data.List.Induction

/-! A store of keys that expire. One transaction sweeps the rows that have expired and inserts its
key; a key that is still there refuses the transaction and with it the sweep. -/

namespace ExpiringKeys

structure Consume (K T : Type) where
  key : K
  expires : T
  /-- The clock the sweep uses. -/
  sweep : T
  deriving DecidableEq

variable {K T : Type} [DecidableEq K]

def firstExpiry (log : List (Consume K T)) (key : K) : Option T :=
  (log.find? fun c => c.key = key).map Consume.expires

theorem firstExpiry_eq_none_iff (log : List (Consume K T)) (key : K) :
    firstExpiry log key = none ↔ key ∉ log.map Consume.key := by
  simp [firstExpiry]

theorem firstExpiry_append (past : List (Consume K T)) (c : Consume K T) (key : K) :
    firstExpiry (past ++ [c]) key =
      (firstExpiry past key).or (if c.key = key then some c.expires else none) := by
  unfold firstExpiry
  rw [List.find?_append, Option.map_or]
  by_cases same : c.key = key <;> simp [same]

variable [LinearOrder T]

abbrev Store (K T : Type) := List (K × T)

def sweep (clock : T) (store : Store K T) : Store K T := store.filter fun row => clock ≤ row.2

def consume (store : Store K T) (c : Consume K T) : Option (Store K T) :=
  let kept := sweep c.sweep store
  if c.key ∈ kept.map Prod.fst then none else some (kept ++ [(c.key, c.expires)])

def after (store : Store K T) (c : Consume K T) : Store K T := (consume store c).getD store

def run (store : Store K T) (log : List (Consume K T)) : Store K T := log.foldl after store

def accepted : Store K T → List (Consume K T) → List K
  | _, [] => []
  | store, c :: rest =>
    if (consume store c).isSome then c.key :: accepted (after store c) rest
    else accepted (after store c) rest

/-- No sweep removes a key too early: a transaction that presents a key again, or that presents its
own key first while another key is still to come again, sweeps no later than the first expiry of
that key. -/
def Timely (log : List (Consume K T)) : Prop :=
  ∀ past c future, log = past ++ c :: future → ∀ key expires, firstExpiry past key = some expires →
    (key = c.key ∨ firstExpiry past c.key = none ∧ key ∈ future.map Consume.key) →
    c.sweep ≤ expires

theorem consume_isSome_iff (store : Store K T) (c : Consume K T) :
    (consume store c).isSome = true ↔ ∀ expires, (c.key, expires) ∈ store → expires < c.sweep := by
  unfold consume sweep
  dsimp only
  split
  · rename_i present
    simp only [List.mem_map, List.mem_filter, decide_eq_true_eq] at present
    obtain ⟨⟨key, expires⟩, ⟨member, current⟩, rfl⟩ := present
    simpa using ⟨expires, member, current⟩
  · rename_i absent
    simp only [List.mem_map, List.mem_filter, decide_eq_true_eq, not_exists] at absent
    simp only [Option.isSome_some, true_iff]
    intro expires member
    by_contra late
    exact absent (c.key, expires) ⟨⟨member, not_lt.mp late⟩, rfl⟩

theorem mem_after (store : Store K T) (c : Consume K T) (row : K × T) :
    row ∈ after store c ↔
      if (consume store c).isSome then (row ∈ store ∧ c.sweep ≤ row.2) ∨ row = (c.key, c.expires)
      else row ∈ store := by
  unfold after consume sweep
  dsimp only
  split <;> simp

theorem accepted_append (store : Store K T) (first second : List (Consume K T)) :
    accepted store (first ++ second) =
      accepted store first ++ accepted (run store first) second := by
  induction first generalizing store with
  | nil => rfl
  | cons c rest later =>
    have tail := later (after store c)
    simp only [List.cons_append, accepted]
    split <;> simp [tail, run]

theorem run_append (store : Store K T) (first second : List (Consume K T)) :
    run store (first ++ second) = run (run store first) second := List.foldl_append

theorem mem_accepted_of_absent (log : List (Consume K T)) (key : K) :
    ∀ store : Store K T, (∀ expires, (key, expires) ∉ store) → key ∈ log.map Consume.key →
      key ∈ accepted store log := by
  induction log with
  | nil =>
    intro store _ comes
    simp at comes
  | cons c rest later =>
    intro store absent comes
    by_cases own : c.key = key
    · have free : (consume store c).isSome = true := by
        rw [consume_isSome_iff, own]
        exact fun expires member => absurd member (absent expires)
      simp [accepted, free, own]
    · have still : key ∈ accepted (after store c) rest := by
        refine later _ ?_ (by simpa [Ne.symm own] using comes)
        intro expires member
        rw [mem_after] at member
        have other : (key, expires) ≠ (c.key, c.expires) := fun same =>
          own (congrArg Prod.fst same).symm
        split at member
        · exact absent expires (member.resolve_right other).1
        · exact absent expires member
      rw [accepted]
      split
      · exact List.mem_cons_of_mem _ still
      · exact still

/-! A timely run accepts each key when it comes first and never again. -/

/-- What the store knows in the middle of a run: every key still to come is in it, and every key in
it has come. -/
structure Covers (past future : List (Consume K T)) (store : Store K T) : Prop where
  kept : ∀ key expires, firstExpiry past key = some expires → key ∈ future.map Consume.key →
    (key, expires) ∈ store
  known : ∀ row ∈ store, firstExpiry past row.1 ≠ none

theorem accepted_of_timely (log : List (Consume K T)) (timely : Timely log)
    (future : List (Consume K T)) :
    ∀ past (store : Store K T), log = past ++ future → Covers past future store →
      (accepted store future).Nodup ∧ ∀ key ∈ accepted store future, firstExpiry past key = none := by
  induction future with
  | nil =>
    intro past store _ _
    simp [accepted]
  | cons c rest later =>
    intro past store whole covers
    have punctual := timely past c rest whole
    have next := later (past ++ [c]) (after store c) (by simpa using whole)
    rcases come : firstExpiry past c.key with _ | expires
    · -- the first time: no row holds the key, and the rows still needed survive the sweep
      have free : (consume store c).isSome = true := by
        rw [consume_isSome_iff]
        exact fun expires member => absurd come (covers.known _ member)
      have covered : Covers (past ++ [c]) rest (after store c) := by
        constructor
        · intro key expires first again
          rw [mem_after, if_pos free]
          rw [firstExpiry_append] at first
          rcases old : firstExpiry past key with _ | before
          · rw [old, Option.none_or] at first
            split at first
            · rename_i same
              exact Or.inr (by rw [← same, Option.some.inj first])
            · contradiction
          · obtain rfl : before = expires := by simpa [old] using first
            exact Or.inl ⟨covers.kept key before old (List.mem_cons_of_mem _ again),
              punctual key before old (Or.inr ⟨come, again⟩)⟩
        · intro row member
          rw [mem_after, if_pos free] at member
          rw [firstExpiry_append]
          rcases member with ⟨old, _⟩ | rfl
          · simp [covers.known row old]
          · simp [come]
      obtain ⟨distinct, fresh⟩ := next covered
      have unseen : ∀ key ∈ accepted (after store c) rest,
          c.key ≠ key ∧ firstExpiry past key = none := by
        intro key member
        have none_ := fresh key member
        rw [firstExpiry_append, Option.or_eq_none_iff] at none_
        exact ⟨fun same => by simp [same] at none_, none_.1⟩
      rw [accepted, if_pos free]
      refine ⟨List.nodup_cons.mpr ⟨fun member => (unseen _ member).1 rfl, distinct⟩, ?_⟩
      intro key member
      rcases List.mem_cons.mp member with rfl | member
      · exact come
      · exact (unseen key member).2
    · -- again: the row of the first time is still there
      have refused : ¬(consume store c).isSome = true := by
        rw [consume_isSome_iff]
        intro expired
        have present := covers.kept c.key expires come (by simp)
        exact absurd (expired expires present) (not_lt.mpr (punctual _ _ come (Or.inl rfl)))
      have covered : Covers (past ++ [c]) rest (after store c) := by
        constructor
        · intro key first old again
          rw [mem_after, if_neg refused]
          rw [firstExpiry_append] at old
          refine covers.kept key first ?_ (List.mem_cons_of_mem _ again)
          by_cases same : c.key = key
          · subst same
            simpa [come] using old
          · simpa [same] using old
        · intro row member
          rw [mem_after, if_neg refused] at member
          rw [firstExpiry_append]
          simp [covers.known row member]
      obtain ⟨distinct, fresh⟩ := next covered
      rw [accepted, if_neg refused]
      refine ⟨distinct, fun key member => ?_⟩
      have none_ := fresh key member
      rw [firstExpiry_append, Option.or_eq_none_iff] at none_
      exact none_.1

/-! In a run that accepts no key twice, the store holds only first presentations. -/

theorem rows_of_accepted_once (log : List (Consume K T)) :
    (accepted ([] : Store K T) log).Nodup →
      (∀ row ∈ run ([] : Store K T) log, firstExpiry log row.1 = some row.2) ∧
        ∀ key ∈ log.map Consume.key, key ∈ accepted ([] : Store K T) log := by
  induction log using List.reverseRecOn with
  | nil => simp [run]
  | append_singleton past c earlier =>
    intro once
    rw [accepted_append] at once
    have distinct := (List.nodup_append.mp once)
    obtain ⟨rows, came⟩ := earlier distinct.1
    have last : run ([] : Store K T) (past ++ [c]) = after (run [] past) c := by
      rw [run_append]
      rfl
    have new : (consume (run [] past) c).isSome = true → firstExpiry past c.key = none := by
      intro free
      rw [firstExpiry_eq_none_iff]
      intro seen
      exact distinct.2.2 c.key (came c.key seen) c.key (by simp [accepted, free]) rfl
    constructor
    · intro row member
      rw [last, mem_after] at member
      rw [firstExpiry_append]
      split at member
      · rename_i free
        rcases member with ⟨old, _⟩ | rfl
        · simp [rows row old]
        · simp [new free]
      · simp [rows row member]
    · intro key seen
      rw [accepted_append]
      rw [List.map_append, List.mem_append] at seen
      rcases seen with old | own
      · exact List.mem_append_left _ (came key old)
      · obtain rfl : key = c.key := by simpa using own
        by_cases free : (consume (run [] past) c).isSome = true
        · exact List.mem_append_right _ (by simp [accepted, free])
        · rw [consume_isSome_iff] at free
          push Not at free
          obtain ⟨expires, member, _⟩ := free
          refine List.mem_append_left _ (came _ ?_)
          by_contra unseen
          rw [← firstExpiry_eq_none_iff] at unseen
          rw [rows _ member] at unseen
          contradiction

theorem timely_of_accepted_once (log : List (Consume K T))
    (once : (accepted ([] : Store K T) log).Nodup) : Timely log := by
  rintro past c future rfl key expires first again
  rw [accepted_append] at once
  obtain ⟨distinct, _, apart⟩ := List.nodup_append.mp once
  obtain ⟨rows, came⟩ := rows_of_accepted_once past distinct
  have seen : key ∈ accepted ([] : Store K T) past := by
    refine came key ?_
    by_contra unseen
    rw [← firstExpiry_eq_none_iff, first] at unseen
    contradiction
  by_contra late
  have expired : ∀ other, (key, other) ∈ run ([] : Store K T) past → other < c.sweep := by
    intro other member
    obtain rfl : expires = other := Option.some.inj (first.symm.trans (rows _ member))
    exact not_le.mp late
  refine apart key seen key ?_ rfl
  rcases again with rfl | ⟨new, comes⟩
  · have free := (consume_isSome_iff (run [] past) c).mpr expired
    simp [accepted, free]
  · have free : (consume (run [] past) c).isSome = true := by
      rw [consume_isSome_iff]
      intro other member
      have old := rows _ member
      rw [new] at old
      contradiction
    have own : key ≠ c.key := by
      rintro rfl
      rw [new] at first
      contradiction
    have gone : ∀ other, (key, other) ∉ after (run ([] : Store K T) past) c := by
      intro other member
      rw [mem_after, if_pos free] at member
      rcases member with ⟨old, current⟩ | same
      · exact absurd (expired other old) (not_lt.mpr current)
      · exact own (congrArg Prod.fst same)
    rw [accepted, if_pos free]
    exact List.mem_cons_of_mem _ (mem_accepted_of_absent future key _ gone comes)

theorem accepted_once_iff (log : List (Consume K T)) :
    (accepted ([] : Store K T) log).Nodup ↔ Timely log := by
  constructor
  · exact timely_of_accepted_once log
  · intro timely
    exact (accepted_of_timely log timely log [] [] rfl
      ⟨fun _ _ first => by simp [firstExpiry] at first, fun _ member => by simp at member⟩).1

/-! The books of a system of callers: its store and its accepted keys are those of its log. -/

structure Accounts (store : Store K T) (log : List (Consume K T)) (keys : List K) : Prop where
  store : store = run [] log
  keys : keys.Perm (accepted [] log)

namespace Accounts

variable {store store' : Store K T} {log : List (Consume K T)} {keys keys' : List K}
  {c : Consume K T}

theorem start : Accounts ([] : Store K T) [] [] := ⟨rfl, List.Perm.refl _⟩

theorem rearrange (holds : Accounts store log keys) (same : keys'.Perm keys) :
    Accounts store log keys' := ⟨holds.store, same.trans holds.keys⟩

theorem accepted_snoc (holds : Accounts store log keys) :
    accepted [] (log ++ [c]) =
      accepted [] log ++ if (consume store c).isSome then [c.key] else [] := by
  rw [accepted_append, ← holds.store]
  rfl

theorem commit (holds : Accounts store log keys) (consumed : consume store c = some store') :
    Accounts store' (log ++ [c]) (keys ++ [c.key]) := by
  constructor
  · rw [run_append, ← holds.store, run, List.foldl_cons, List.foldl_nil, after, consumed]
    rfl
  · rw [holds.accepted_snoc, consumed]
    exact holds.keys.append_right [c.key]

theorem refuse (holds : Accounts store log keys) (refused : consume store c = none) :
    Accounts store (log ++ [c]) keys := by
  constructor
  · rw [run_append, ← holds.store, run, List.foldl_cons, List.foldl_nil, after, refused]
    rfl
  · rw [holds.accepted_snoc, refused]
    simpa using holds.keys

/-- No key was accepted twice exactly when the log is timely. -/
theorem nodup_iff (holds : Accounts store log keys) : keys.Nodup ↔ Timely log := by
  rw [holds.keys.nodup_iff]
  exact accepted_once_iff log

end Accounts

end ExpiringKeys
