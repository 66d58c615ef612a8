import GenesisAgents.MigrationLedger

/-! What the drift check of the migration runner tells apart: two contents of a file, up to their line
endings. -/

namespace GenesisAgents

def hasCrlf : List UInt8 → Bool
  | 13 :: 10 :: _ => true
  | _ :: rest => hasCrlf rest
  | [] => false

def hasBareLf : List UInt8 → Bool
  | 13 :: 10 :: rest => hasBareLf rest
  | byte :: rest => byte == 10 || hasBareLf rest
  | [] => false

theorem toLf_cons (byte : UInt8) (rest : List UInt8) (single : byte = 13 → rest.head? ≠ some 10) :
    toLf (byte :: rest) = byte :: toLf rest := by
  rw [toLf]
  rintro tail rfl rfl
  exact single rfl rfl

theorem hasCrlf_cons (byte : UInt8) (rest : List UInt8) (single : byte = 13 → rest.head? ≠ some 10) :
    hasCrlf (byte :: rest) = hasCrlf rest := by
  rw [hasCrlf]
  rintro tail rfl rfl
  exact single rfl rfl

theorem hasBareLf_cons (byte : UInt8) (rest : List UInt8) (single : byte = 13 → rest.head? ≠ some 10) :
    hasBareLf (byte :: rest) = (byte == 10 || hasBareLf rest) := by
  rw [hasBareLf]
  rintro tail rfl rfl
  exact single rfl rfl

theorem not_crlf_head (byte : UInt8) (rest : List UInt8)
    (single : ∀ tail, byte = 13 → rest = 10 :: tail → False) : byte = 13 → rest.head? ≠ some 10 := by
  intro carriage starts
  rcases List.head?_eq_some_iff.mp starts with ⟨tail, feed⟩
  exact single tail carriage feed

theorem toLf_eq_self_iff (raw : List UInt8) : toLf raw = raw ↔ hasCrlf raw = false := by
  fun_induction toLf raw with
  | case1 rest later => simp [hasCrlf]
  | case2 byte rest single later =>
    rw [hasCrlf_cons _ _ (not_crlf_head _ _ single), List.cons.injEq, and_iff_right rfl, later]
  | case3 => exact iff_of_true rfl rfl

theorem toCrlf_head (raw : List UInt8) : (toCrlf raw).head? ≠ some 10 := by
  cases raw with
  | nil => simp [toCrlf]
  | cons byte rest =>
    by_cases feed : byte = 10
    · simp [toCrlf, feed]
    · simp [toCrlf, feed]

theorem toCrlf_cons (byte : UInt8) (rest : List UInt8) :
    toCrlf (byte :: rest) = (if byte = 10 then [13, 10] else [byte]) ++ toCrlf rest := by
  rw [toCrlf, List.flatMap_cons, toCrlf]

theorem toLf_toCrlf (raw : List UInt8) : toLf (toCrlf raw) = raw := by
  induction raw with
  | nil => rfl
  | cons byte rest later =>
    rw [toCrlf_cons]
    by_cases feed : byte = 10
    · rw [if_pos feed, feed, List.cons_append, List.singleton_append, toLf, later]
    · rw [if_neg feed, List.singleton_append, toLf_cons _ _ fun _ => toCrlf_head rest, later]

theorem toCrlf_toLf_eq_self_iff (raw : List UInt8) : toCrlf (toLf raw) = raw ↔ hasBareLf raw = false := by
  fun_induction toLf raw with
  | case1 rest later =>
    rw [toCrlf_cons, if_pos rfl, hasBareLf, List.cons_append, List.singleton_append, List.cons.injEq,
      and_iff_right rfl, List.cons.injEq, and_iff_right rfl, later]
  | case2 byte rest single later =>
    rw [hasBareLf_cons _ _ (not_crlf_head _ _ single), toCrlf_cons, Bool.or_eq_false_iff, beq_eq_false_iff_ne]
    by_cases feed : byte = 10
    · refine iff_of_false ?_ fun both => both.1 feed
      rw [if_pos feed, List.cons_append, List.cons.injEq, feed]
      rintro ⟨same, -⟩
      exact absurd same (by decide)
    · rw [if_neg feed, and_iff_right feed, List.singleton_append, List.cons.injEq, and_iff_right rfl, later]
  | case3 => exact iff_of_true rfl rfl

/-- The run goes on to the next check exactly when no recorded file has drifted. -/
theorem reconcile_mismatch_iff (migrations : List Migration) (applied : List LedgerRow) :
    (∃ drifted, reconcile migrations applied = .error (.checksumMismatch drifted)) ↔
      ∃ record ∈ applied, driftOf migrations record ≠ none := by
  have drifts : (applied.filterMap (driftOf migrations)).isEmpty = false ↔
      ∃ record ∈ applied, driftOf migrations record ≠ none := by
    rw [List.isEmpty_eq_false_iff, Ne, List.filterMap_eq_nil_iff]
    push Not
    exact Iff.rfl
  rw [← drifts]
  simp only [reconcile]
  split
  · rename_i drifted
    exact iff_of_true ⟨_, rfl⟩ (by simpa using drifted)
  · rename_i clear
    refine iff_of_false ?_ fun drifted => clear (by rw [drifted]; rfl)
    rintro ⟨drifted, refused⟩
    split at refused
    · cases refused
    split at refused
    · cases refused
    · split at refused <;> cases refused

section

variable (sha256 : List UInt8 → String)

theorem discover_find (directory : Directory) (name : String) (raw : List UInt8)
    (listed : (name, raw) ∈ directory.files) (sql : isSql name = true) :
    (discover sha256 directory).find? (fun m => m.filename == name) =
      some { filename := name, checksum := sha256 raw, raw := raw
             equivalents := equivalentChecksums sha256 raw } := by
  have listing := discover_listing sha256 directory
  have member : { filename := name, checksum := sha256 raw, raw := raw
                  equivalents := equivalentChecksums sha256 raw : Migration } ∈ discover sha256 directory := by
    refine List.mem_map.mpr ⟨(name, raw), ?_, rfl⟩
    rw [List.mem_insertionSort]
    exact List.mem_filter.mpr ⟨listed, sql⟩
  rcases found : (discover sha256 directory).find? (fun m => m.filename == name) with _ | m
  · exact absurd (List.find?_eq_none.mp found _ member) (by simp)
  · have here : m.filename = name := by simpa using List.find?_some found
    have once : ((discover sha256 directory).map Migration.filename).Nodup := listing.imp ne_of_lt
    exact found.trans (congrArg some (List.inj_on_of_nodup_map once (List.mem_of_find?_eq_some found) member here))

theorem driftOf_discover (directory : Directory) (name : String) (was now : List UInt8)
    (listed : (name, now) ∈ directory.files) (sql : isSql name = true) :
    driftOf (discover sha256 directory) { filename := name, checksum := sha256 was } = none ↔
      sha256 was ∈ equivalentChecksums sha256 now := by
  rw [driftOf, discover_find sha256 directory name now listed sql]
  by_cases same : sha256 was ∈ equivalentChecksums sha256 now <;> simp [same]

theorem mem_equivalentChecksums (was now : List UInt8)
    (collisionFree : ∀ raw ∈ [now, toLf now, toCrlf (toLf now)], sha256 was = sha256 raw → was = raw) :
    sha256 was ∈ equivalentChecksums sha256 now ↔ was = now ∨ was = toLf now ∨ was = toCrlf (toLf now) := by
  have member : equivalentChecksums sha256 now = [now, toLf now, toCrlf (toLf now)].map sha256 := rfl
  rw [member, List.mem_map]
  constructor
  · rintro ⟨raw, among, same⟩
    have equal := collisionFree raw among same.symm
    simpa [equal] using among
  · intro among
    exact ⟨was, by simpa using among, rfl⟩

/-- The recorded content is the present one or has one kind of line ending; and where it is the present one
with its line endings replaced, none is left over. -/
structure OneEnding (was now : List UInt8) : Prop where
  uniform : toLf was = toLf now → was = now ∨ hasCrlf was = false ∨ hasBareLf was = false
  replaced : was = toLf now → hasCrlf was = false

theorem drift_iff_content (directory : Directory) (name : String) (was now : List UInt8)
    (listed : (name, now) ∈ directory.files) (sql : isSql name = true)
    (collisionFree : ∀ raw ∈ [now, toLf now, toCrlf (toLf now)], sha256 was = sha256 raw → was = raw) :
    (driftOf (discover sha256 directory) { filename := name, checksum := sha256 was } = none ↔
      toLf was = toLf now) ↔ OneEnding was now := by
  rw [driftOf_discover sha256 directory name was now listed sql,
    mem_equivalentChecksums sha256 was now collisionFree]
  have written : was = toCrlf (toLf now) → toLf was = toLf now := by
    intro written
    rw [written, toLf_toCrlf]
  constructor
  · intro agree
    refine ⟨fun same => ?_, fun replaced => ?_⟩
    · rw [← toLf_eq_self_iff, ← toCrlf_toLf_eq_self_iff, same]
      exact (agree.mpr same).imp_right (Or.imp Eq.symm Eq.symm)
    · rw [← toLf_eq_self_iff, agree.mp (.inr (.inl replaced)), ← replaced]
  · rintro ⟨uniform, replaced⟩
    constructor
    · rintro (rfl | lf | crlf)
      · rfl
      · rw [(toLf_eq_self_iff was).mpr (replaced lf), lf]
      · exact written crlf
    · intro same
      refine (uniform same).imp_right (Or.imp (fun clear => ?_) (fun clear => ?_))
      · rw [← same, (toLf_eq_self_iff was).mpr clear]
      · rw [← same, (toCrlf_toLf_eq_self_iff was).mpr clear]

end

def emptyLinesSha : List UInt8 → String
  | [10] => "01ba4719c80b6fe911b091a7c05124b64eeece964e09c058ef8f9805daca546b"
  | [13, 10] => "7eb70257593da06f682a3ddda54a9d260d4fc514f645237f5ca74b08f8da61a6"
  | [10, 10] => "75a11da44c802486bc6f65640aa48a730f0f684c5c07a42ba3cd1735eb3fb070"
  | [13, 10, 10] => "2a5222a0dd2400f31aae17bc0ad61e08446faa9e86bc9862ba8b0740cfa05283"
  | [13, 10, 13, 10] => "dba5166ad9db9ba648c1032ebbd34dcd0d085b50023b839ef5c68ca1db93a563"
  | _ => ""

def oneFile (raw : List UInt8) : Directory where
  files := [("001_a.sql", raw)]
  named := List.nodup_singleton _

/-- A file that was applied on Linux is taken on Windows. -/
theorem windows_checkout_accepted :
    (driftOf (discover emptyLinesSha (oneFile [13, 10]))
      { filename := "001_a.sql", checksum := emptyLinesSha [10] } = none ↔ toLf [10] = toLf [13, 10]) :=
  (drift_iff_content emptyLinesSha (oneFile [13, 10]) "001_a.sql" [10] [13, 10] (by decide) (by decide)
    (by decide)).mpr ⟨by decide, by decide⟩

/-- A file with both endings, once all its line endings are line feeds. -/
theorem mixed_endings_refused :
    ¬(driftOf (discover emptyLinesSha (oneFile [10, 10]))
        { filename := "001_a.sql", checksum := emptyLinesSha [13, 10, 10] } = none ↔
      toLf [13, 10, 10] = toLf [10, 10]) := by
  rw [driftOf_discover emptyLinesSha _ "001_a.sql" [13, 10, 10] [10, 10] (by decide) (by decide)]
  decide

end GenesisAgents
