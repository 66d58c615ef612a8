import GenesisAgents.AuditRedaction
import Mathlib.Data.List.Forall2

/-! What `_sanitize` hides: values under sensitive keys, and the values of sensitive parameters in the URLs
that it recognises. -/

namespace GenesisAgents.AuditRedaction

open Value UrlGuards

def rawName (field : List Char) : List Char := field.takeWhile (· != '=')

section

variable (R : Redactor)

def fieldName (field : List Char) : String :=
  String.ofList (unquotePlus R ((rawName field).filter safeUrlChar))

/-- Two fields of a query that differ at most in the value, and then the name is sensitive. -/
def SameField (field field' : List Char) : Prop :=
  field = field' ∨ rawName field = rawName field' ∧ isSensitive R (fieldName R field) = true

/-- An `http` or `https` URL; the case of the letters of a scheme does not matter. -/
def httpUrl (s : List Char) : Bool := startsHttp (s.map Char.toLower)

/-- Two URLs that differ at most in the values of sensitive parameters. -/
def UrlVariant (s s' : List Char) : Prop :=
  ∃ base query query' fragment, httpUrl base = true ∧ '?' ∉ base ∧ '#' ∉ base ∧ '#' ∉ query ∧ '#' ∉ query' ∧
    (fragment = [] ∨ fragment.head? = some '#') ∧
    s = base ++ '?' :: (query ++ fragment) ∧ s' = base ++ '?' :: (query' ++ fragment) ∧
    List.Forall₂ (SameField R) (query.splitOn '&') (query'.splitOn '&')

def SameText (s s' : String) : Prop := s = s' ∨ UrlVariant R s.toList s'.toList

mutual
/-- Two values of one shape with the same keys, whose strings are related; what is stored under a sensitive
key may be anything. -/
def Related (strings : String → String → Prop) : Value → Value → Prop
  | str s, w => ∃ s', w = str s' ∧ strings s s'
  | list xs, w => ∃ ys, w = list ys ∧ RelatedList strings xs ys
  | dict kvs, w => ∃ kvs', w = dict kvs' ∧ RelatedItems strings kvs kvs'
  | v, w => w = v
def RelatedList (strings : String → String → Prop) : List Value → List Value → Prop
  | [], ys => ys = []
  | x :: xs, ys => ∃ y rest, ys = y :: rest ∧ Related strings x y ∧ RelatedList strings xs rest
def RelatedItems (strings : String → String → Prop) : List (String × Value) → List (String × Value) → Prop
  | [], kvs' => kvs' = []
  | (k, v) :: rest, kvs' => ∃ v' rest', kvs' = (k, v') :: rest' ∧
      (isSensitive R k = true ∨ Related strings v v') ∧ RelatedItems strings rest rest'
end

/-- Two values that differ only in values under sensitive keys and of sensitive parameters in URLs. -/
def SameButSecrets (v w : Value) : Prop := Related R (SameText R) v w

/-- Two runs end alike: what `_sanitize` returns, and the store after `AuditLog.log`. -/
def Hidden (v w : Value) : Prop :=
  sanitize R v = sanitize R w ∧ ∀ (db : AuditDb) (call : LogCall),
    log R db { call with inputs := v } = log R db { call with inputs := w } ∧
      log R db { call with outputs := v } = log R db { call with outputs := w }

/-- The text is the same, or is a URL as the code knows one, or the patterns mask where it differs. -/
def TextCovered (s s' : String) : Prop :=
  s = s' ∨ startsHttp s.toList = true ∨ maskCredentials R s.toList = maskCredentials R s'.toList

def Covered (v w : Value) : Prop := Related R (TextCovered R) v w

theorem takeWhile_stop (p : Char → Bool) (front back : List Char) (stop : Char) (stops : p stop = false) :
    (front ++ stop :: back).takeWhile p = front.takeWhile p := by
  induction front with
  | nil => rw [List.nil_append, List.takeWhile_cons_of_neg (by rw [stops]; decide), List.takeWhile_nil]
  | cons c front later =>
    rw [List.cons_append, List.takeWhile_cons, List.takeWhile_cons, later]

theorem dropWhile_stop (p : Char → Bool) (front back : List Char) (stop : Char) (stops : p stop = false) :
    (front ++ stop :: back).dropWhile p = front.dropWhile p ++ stop :: back := by
  induction front with
  | nil => rw [List.nil_append, List.dropWhile_cons_of_neg (by rw [stops]; decide)]; rfl
  | cons c front later =>
    rw [List.cons_append, List.dropWhile_cons, List.dropWhile_cons, later]
    split <;> rfl

theorem cut_stop (mark : Char) (front back : List Char) (free : mark ∉ front) :
    cut mark (front ++ mark :: back) = (front, back) := by
  have passes : ∀ c ∈ front, (fun c => c != mark) c = true := fun c member => by
    rw [bne_iff_ne]
    rintro rfl
    exact free member
  have stops : (fun c => c != mark) mark = false := bne_self_eq_false mark
  rw [cut, takeWhile_stop (· != mark) _ _ _ stops, dropWhile_stop (· != mark) _ _ _ stops,
    List.takeWhile_eq_self_iff.mpr passes,
    List.dropWhile_eq_nil_iff.mpr passes]
  rfl

theorem cut_end (mark : Char) (front : List Char) (free : mark ∉ front) : cut mark front = (front, []) := by
  have passes : ∀ c ∈ front, (fun c => c != mark) c = true := fun c member => by
    rw [bne_iff_ne]
    rintro rfl
    exact free member
  rw [cut, List.takeWhile_eq_self_iff.mpr passes, List.dropWhile_eq_nil_iff.mpr passes]
  rfl

def httpStarts : List (List Char) := ["http://".toList, "https://".toList]

theorem startsHttp_iff (s : List Char) : startsHttp s = true ↔ ∃ start ∈ httpStarts, start <+: s := by
  simp [startsHttp, httpStarts]

theorem splitScheme_http (start rest : List Char) (known : start ∈ httpStarts) :
    splitScheme (start ++ rest) = (start.takeWhile (· != ':'), '/' :: '/' :: rest) := by
  simp only [httpStarts, List.mem_cons, List.not_mem_nil, or_false] at known
  rcases known with rfl | rfl <;> rfl

theorem clean_http (start rest : List Char) (known : start ∈ httpStarts) :
    ((start ++ rest).dropWhile controlOrSpace).filter safeUrlChar = start ++ rest.filter safeUrlChar := by
  simp only [httpStarts, List.mem_cons, List.not_mem_nil, or_false] at known
  rcases known with rfl | rfl <;> rfl

theorem filter_free (mark : Char) (s : List Char) (free : mark ∉ s) : mark ∉ s.filter safeUrlChar :=
  fun member => free (List.mem_of_mem_filter member)

def netlocPart (b : List Char) : List Char := (b.filter safeUrlChar).takeWhile (!endsNetloc ·)

theorem urlsplit_query (start b query fragment : List Char) (known : start ∈ httpStarts)
    (bare : '?' ∉ b) (bare' : '#' ∉ b) (free : '#' ∉ query)
    (opens : fragment = [] ∨ fragment.head? = some '#') :
    urlsplit R (start ++ (b ++ '?' :: (query ++ fragment))) =
      if (netlocPart b).contains '[' != (netlocPart b).contains ']' || !R.netlocValid (netlocPart b) then none
      else some {
        scheme := start.takeWhile (· != ':')
        netloc := netlocPart b
        path := (b.filter safeUrlChar).dropWhile (!endsNetloc ·)
        query := query.filter safeUrlChar
        fragment := (fragment.filter safeUrlChar).drop 1 } := by
  have split : (b ++ '?' :: (query ++ fragment)).filter safeUrlChar =
      b.filter safeUrlChar ++ '?' :: (query.filter safeUrlChar ++ fragment.filter safeUrlChar) := by
    rw [List.filter_append, List.filter_cons_of_pos rfl, List.filter_append]
  have stops : (fun c => !endsNetloc c) '?' = false := rfl
  rw [urlsplit]
  simp only [clean_http start _ known, split, splitScheme_http start _ known, splitNetloc]
  rw [takeWhile_stop _ _ _ _ stops, dropWhile_stop _ _ _ _ stops]
  have bare : '?' ∉ (b.filter safeUrlChar).dropWhile (!endsNetloc ·) := fun member =>
    filter_free '?' b bare ((List.dropWhile_sublist _).subset member)
  have bare' : '#' ∉ (b.filter safeUrlChar).dropWhile (!endsNetloc ·) := fun member =>
    filter_free '#' b bare' ((List.dropWhile_sublist _).subset member)
  have ends : cut '#' ((b.filter safeUrlChar).dropWhile (!endsNetloc ·) ++
      '?' :: (query.filter safeUrlChar ++ fragment.filter safeUrlChar)) =
      ((b.filter safeUrlChar).dropWhile (!endsNetloc ·) ++ '?' :: query.filter safeUrlChar,
        (fragment.filter safeUrlChar).drop 1) := by
    have free : '#' ∉
        (b.filter safeUrlChar).dropWhile (!endsNetloc ·) ++ '?' :: query.filter safeUrlChar := by
      simp only [List.mem_append, List.mem_cons, not_or]
      exact ⟨bare', by decide, filter_free '#' query free⟩
    rcases opens with rfl | opens
    · rw [List.filter_nil, List.append_nil, cut_end _ _ free]
      rfl
    · obtain ⟨behind, rfl⟩ := List.head?_eq_some_iff.mp opens
      rw [List.filter_cons_of_pos rfl, ← List.cons_append, ← List.append_assoc, cut_stop _ _ _ free]
      rfl
  rw [ends]
  simp only [cut_stop _ _ _ bare]
  rfl

theorem splitOn_filter (mark : Char) (p : Char → Bool) (kept : p mark = true) (s : List Char) :
    (s.filter p).splitOn mark = (s.splitOn mark).map (List.filter p) := by
  induction s with
  | nil => rfl
  | cons c s rest =>
    obtain ⟨first, later, parts⟩ := List.exists_cons_of_ne_nil (List.splitOn_ne_nil mark s)
    rw [List.splitOn_cons_eq_if_modifyHead]
    split
    · next isMark =>
      rw [List.filter_cons_of_pos (eq_of_beq isMark ▸ kept), List.splitOn_cons_eq_if_modifyHead,
        if_pos isMark, rest]
      rfl
    · next other =>
      by_cases passes : p c = true
      · rw [List.filter_cons_of_pos passes, List.splitOn_cons_eq_if_modifyHead, if_neg other, rest, parts]
        simp only [List.map_cons, List.modifyHead_cons, List.filter_cons_of_pos passes]
      · rw [List.filter_cons_of_neg passes, rest, parts]
        simp only [List.map_cons, List.modifyHead_cons, List.filter_cons_of_neg passes]

theorem takeWhile_filter (p q : Char → Bool) (kept : ∀ c, q c = false → p c = true) (s : List Char) :
    (s.filter p).takeWhile q = (s.takeWhile q).filter p := by
  induction s with
  | nil => rfl
  | cons c s rest =>
    by_cases goesOn : q c = true
    · rw [List.takeWhile_cons_of_pos goesOn]
      by_cases passes : p c = true
      · rw [List.filter_cons_of_pos passes, List.filter_cons_of_pos passes, List.takeWhile_cons_of_pos goesOn,
          rest]
      · rw [List.filter_cons_of_neg passes, List.filter_cons_of_neg passes, rest]
    · have passes := kept c (Bool.eq_false_iff.mpr goesOn)
      rw [List.takeWhile_cons_of_neg goesOn, List.filter_cons_of_pos passes,
        List.takeWhile_cons_of_neg goesOn]
      rfl

theorem isSensitive_empty : isSensitive R "" = false := by
  rw [isSensitive, R.lower_empty]
  rfl

/-- A field that `parse_qsl` reads, with its clean value. -/
def cleanField (field : List Char) : Option (List Char × List Char) :=
  (queryField R field).map fun read =>
    (read.1, if isSensitive R (String.ofList read.1) then redacted else read.2)

theorem cleanQuery_eq (query : List Char) :
    cleanQuery R (query.filter safeUrlChar) =
      (query.splitOn '&').filterMap fun field => cleanField R (field.filter safeUrlChar) := by
  rw [cleanQuery, parseQsl, List.map_filterMap, splitOn_filter '&' safeUrlChar rfl, List.filterMap_map]
  rfl

theorem cleanField_sensitive (field : List Char) (sensitive : isSensitive R (fieldName R field) = true) :
    cleanField R (field.filter safeUrlChar) = some ((fieldName R field).toList, redacted) := by
  have name : (cut '=' (field.filter safeUrlChar)).1 = (rawName field).filter safeUrlChar :=
    takeWhile_filter safeUrlChar (· != '=') (fun c stops => by
      rw [bne_eq_false_iff_eq.mp stops]
      rfl) field
  have filled : field.filter safeUrlChar ≠ [] := fun empty => by
    have noName : fieldName R field = "" := by
      rw [fieldName, ← name, empty]
      rfl
    rw [noName, isSensitive_empty] at sensitive
    cases sensitive
  rw [cleanField, queryField, if_neg filled]
  simp only [Option.map_some, name]
  rw [fieldName, String.toList_ofList, if_pos]
  exact sensitive

theorem cleanField_same (field field' : List Char) (same : SameField R field field') :
    cleanField R (field.filter safeUrlChar) = cleanField R (field'.filter safeUrlChar) := by
  rcases same with rfl | ⟨name, sensitive⟩
  · rfl
  · have name : fieldName R field = fieldName R field' := by rw [fieldName, fieldName, name]
    rw [cleanField_sensitive R field sensitive, cleanField_sensitive R field' (name ▸ sensitive), name]

theorem cleanQuery_same (query query' : List Char)
    (same : List.Forall₂ (SameField R) (query.splitOn '&') (query'.splitOn '&')) :
    cleanQuery R (query.filter safeUrlChar) = cleanQuery R (query'.filter safeUrlChar) := by
  rw [cleanQuery_eq, cleanQuery_eq]
  generalize query.splitOn '&' = fields, query'.splitOn '&' = fields' at same
  induction same with
  | nil => rfl
  | cons field _ rest => rw [List.filterMap_cons, List.filterMap_cons, cleanField_same R _ _ field, rest]

theorem startsHttp_base (base rest : List Char) (bare : '?' ∉ base) :
    startsHttp (base ++ '?' :: rest) = true ↔ startsHttp base = true := by
  simp only [startsHttp_iff]
  constructor
  · rintro ⟨start, known, ⟨behind, splits⟩⟩
    refine ⟨start, known, ?_⟩
    have plain : '?' ∉ start := by
      simp only [httpStarts, List.mem_cons, List.not_mem_nil, or_false] at known
      rcases known with rfl | rfl <;> decide
    rcases List.append_eq_append_iff.mp splits with ⟨front, rfl, _⟩ | ⟨front, rfl, later⟩
    · exact List.prefix_append _ _
    · cases front with
      | nil => exact ⟨[], by simp⟩
      | cons c front =>
        rw [List.cons_append, List.cons.injEq] at later
        exact absurd (List.mem_append_right base (later.1 ▸ List.mem_cons_self)) plain
  · rintro ⟨start, known, starts⟩
    exact ⟨start, known, starts.trans (List.prefix_append _ _)⟩

theorem urlVariant_starts (s s' : List Char) (variant : UrlVariant R s s') :
    startsHttp s = startsHttp s' := by
  obtain ⟨base, query, query', fragment, _, bare, _, _, _, _, rfl, rfl, _⟩ := variant
  rw [Bool.eq_iff_iff, startsHttp_base _ _ bare, startsHttp_base _ _ bare]

theorem cleanUrl_variant (s s' : List Char) (variant : UrlVariant R s s') (known : startsHttp s = true) :
    cleanUrl R s = cleanUrl R s' := by
  obtain ⟨base, query, query', fragment, _, bare, bare', free, free', opens, rfl, rfl, same⟩ := variant
  obtain ⟨start, first, ⟨b, rfl⟩⟩ := (startsHttp_iff base).mp ((startsHttp_base _ _ bare).mp known)
  rw [List.mem_append, not_or] at bare bare'
  rw [cleanUrl, cleanUrl, List.append_assoc, List.append_assoc,
    urlsplit_query R start b query fragment first bare.2 bare'.2 free opens,
    urlsplit_query R start b query' fragment first bare.2 bare'.2 free' opens]
  split
  · rfl
  · simp only [Option.map_some, cleanQuery_same R query query' same]

theorem redactText_variant (s s' : List Char) (variant : UrlVariant R s s') (known : startsHttp s = true) :
    redactText R s = redactText R s' := by
  have known' : startsHttp s' = true := urlVariant_starts R s s' variant ▸ known
  rw [redactText, redactText, if_pos known, if_pos known', cleanUrl_variant R s s' variant known]

theorem redactText_unknown (s : List Char) (unknown : startsHttp s = false) :
    redactText R s = some (maskCredentials R s) := by
  rw [redactText, if_neg (Bool.eq_false_iff.mp unknown)]

theorem auditing_redactText (s : String) (text : List Char) (redacts : redactText R s.toList = some text) :
    (auditing R).redactText s = String.ofList text :=
  show String.ofList ((redactText R s.toList).getD s.toList) = String.ofList text by
    rw [redacts, Option.getD_some]

theorem refused_same (s s' : String) (same : SameText R s s') :
    (redactText R s.toList).isNone = (redactText R s'.toList).isNone := by
  rcases same with rfl | variant
  · rfl
  · have starts := urlVariant_starts R _ _ variant
    cases known : startsHttp s.toList with
    | true => rw [redactText_variant R _ _ variant known]
    | false =>
      rw [redactText_unknown R _ known, redactText_unknown R _ (starts ▸ known), Option.isNone_some,
        Option.isNone_some]

/-- Two texts that the log takes become the same if and only if they are covered. -/
theorem redactText_eq_iff (s s' : String) (same : SameText R s s')
    (taken : (redactText R s.toList).isNone = false) :
    (auditing R).redactText s = (auditing R).redactText s' ↔ TextCovered R s s' := by
  rcases same with rfl | variant
  · exact ⟨fun _ => Or.inl rfl, fun _ => rfl⟩
  · have starts := urlVariant_starts R _ _ variant
    cases known : startsHttp s.toList with
    | true =>
      obtain ⟨text, redacts⟩ := Option.isSome_iff_exists.mp (Option.isNone_eq_false_iff.mp taken)
      have redacts' := redactText_variant R _ _ variant known ▸ redacts
      rw [auditing_redactText R s text redacts, auditing_redactText R s' text redacts']
      exact ⟨fun _ => Or.inr (Or.inl known), fun _ => rfl⟩
    | false =>
      rw [auditing_redactText R s _ (redactText_unknown R _ known),
        auditing_redactText R s' _ (redactText_unknown R _ (starts ▸ known)), String.ofList_inj]
      constructor
      · exact fun masked => Or.inr (Or.inr masked)
      · rintro (rfl | known' | masked)
        · rfl
        · rw [known] at known'
          cases known'
        · exact masked

mutual
theorem refuses_same : ∀ v w : Value, SameButSecrets R v w → (auditing R).refuses v = (auditing R).refuses w
  | str s, w, same => by
    rw [SameButSecrets, Related] at same
    obtain ⟨s', rfl, same⟩ := same
    exact refused_same R s s' same
  | list xs, w, same => by
    rw [SameButSecrets, Related] at same
    obtain ⟨ys, rfl, same⟩ := same
    rw [Auditing.refuses, Auditing.refuses, refusesList_same xs ys same]
  | dict kvs, w, same => by
    rw [SameButSecrets, Related] at same
    obtain ⟨kvs', rfl, same⟩ := same
    rw [Auditing.refuses, Auditing.refuses, refusesItems_same kvs kvs' same]
  | null, w, same => by rw [show w = null from same]
  | Value.bool b, w, same => by rw [show w = Value.bool b from same]
  | int n, w, same => by rw [show w = int n from same]
  | float x, w, same => by rw [show w = float x from same]
  | object text, w, same => by rw [show w = object text from same]
theorem refusesList_same : ∀ xs ys : List Value, RelatedList R (SameText R) xs ys →
    (auditing R).refusesList xs = (auditing R).refusesList ys
  | [], ys, same => by rw [show ys = [] from same]
  | x :: xs, ys, same => by
    rw [RelatedList] at same
    obtain ⟨y, rest, rfl, first, later⟩ := same
    rw [Auditing.refusesList, Auditing.refusesList, refuses_same x y first, refusesList_same xs rest later]
theorem refusesItems_same : ∀ kvs kvs' : List (String × Value), RelatedItems R (SameText R) kvs kvs' →
    (auditing R).refusesItems kvs = (auditing R).refusesItems kvs'
  | [], kvs', same => by rw [show kvs' = [] from same]
  | (k, v) :: rest, kvs', same => by
    rw [RelatedItems] at same
    obtain ⟨v', rest', rfl, first, later⟩ := same
    rw [Auditing.refusesItems, Auditing.refusesItems, refusesItems_same rest rest' later]
    rcases first with sensitive | first
    · have sensitive : (auditing R).isSensitive k = true := sensitive
      rw [sensitive]
      rfl
    · rw [refuses_same v v' first]
end

theorem sanitize_plain (k : String) (v : Value) (plain : isSensitive R k = false) :
    (auditing R).sanitize k v = match v with
      | dict kvs => dict ((auditing R).sanitizeItems kvs)
      | list xs => list ((auditing R).sanitizeList k xs)
      | str s => str ((auditing R).redactText s)
      | v => v := by
  have plain : ¬(auditing R).isSensitive k = true := Bool.eq_false_iff.mp plain
  cases v <;> simp only [Auditing.sanitize, if_neg plain]

theorem sanitize_sensitive (k : String) (v : Value) (sensitive : isSensitive R k = true) :
    (auditing R).sanitize k v = str "[REDACTED]" := by
  have sensitive : (auditing R).isSensitive k = true := sensitive
  cases v <;> simp only [Auditing.sanitize, if_pos sensitive]

mutual
/-- Where the key is not sensitive, two values that differ in secrets are written alike if and only if they
are covered. -/
theorem sanitize_eq_iff : ∀ (v w : Value) (k : String), isSensitive R k = false → SameButSecrets R v w →
    (auditing R).refuses v = false → ((auditing R).sanitize k v = (auditing R).sanitize k w ↔ Covered R v w)
  | str s, w, k, plain, same, taken => by
    rw [SameButSecrets, Related] at same
    obtain ⟨s', rfl, same⟩ := same
    rw [sanitize_plain R k _ plain, sanitize_plain R k _ plain, str.injEq,
      redactText_eq_iff R s s' same taken, Covered, Related]
    simp only [str.injEq, exists_eq_left']
  | list xs, w, k, plain, same, taken => by
    rw [SameButSecrets, Related] at same
    obtain ⟨ys, rfl, same⟩ := same
    rw [sanitize_plain R k _ plain, sanitize_plain R k _ plain, list.injEq,
      sanitizeList_eq_iff xs ys k plain same taken, Covered, Related]
    simp only [list.injEq, exists_eq_left']
  | dict kvs, w, k, plain, same, taken => by
    rw [SameButSecrets, Related] at same
    obtain ⟨kvs', rfl, same⟩ := same
    rw [sanitize_plain R k _ plain, sanitize_plain R k _ plain, dict.injEq,
      sanitizeItems_eq_iff kvs kvs' same taken, Covered, Related]
    simp only [dict.injEq, exists_eq_left']
  | null, w, _, _, same, _ => by
    rw [show w = null from same]
    exact ⟨fun _ => rfl, fun _ => rfl⟩
  | Value.bool b, w, _, _, same, _ => by
    rw [show w = Value.bool b from same]
    exact ⟨fun _ => rfl, fun _ => rfl⟩
  | int n, w, _, _, same, _ => by
    rw [show w = int n from same]
    exact ⟨fun _ => rfl, fun _ => rfl⟩
  | float x, w, _, _, same, _ => by
    rw [show w = float x from same]
    exact ⟨fun _ => rfl, fun _ => rfl⟩
  | object text, w, _, _, same, _ => by
    rw [show w = object text from same]
    exact ⟨fun _ => rfl, fun _ => rfl⟩
theorem sanitizeList_eq_iff : ∀ (xs ys : List Value) (k : String), isSensitive R k = false →
    RelatedList R (SameText R) xs ys → (auditing R).refusesList xs = false →
    ((auditing R).sanitizeList k xs = (auditing R).sanitizeList k ys ↔ RelatedList R (TextCovered R) xs ys)
  | [], ys, _, _, same, _ => by
    rw [show ys = [] from same]
    exact ⟨fun _ => rfl, fun _ => rfl⟩
  | x :: xs, ys, k, plain, same, taken => by
    rw [RelatedList] at same
    obtain ⟨y, rest, rfl, first, later⟩ := same
    rw [Auditing.refusesList, Bool.or_eq_false_iff] at taken
    rw [Auditing.sanitizeList, Auditing.sanitizeList, List.cons.injEq,
      sanitize_eq_iff x y k plain first taken.1, sanitizeList_eq_iff xs rest k plain later taken.2,
      RelatedList]
    constructor
    · exact fun covered => ⟨y, rest, rfl, covered⟩
    · rintro ⟨y', rest', same, covered⟩
      rw [List.cons.injEq] at same
      rw [same.1, same.2]
      exact covered
theorem sanitizeItems_eq_iff : ∀ kvs kvs' : List (String × Value), RelatedItems R (SameText R) kvs kvs' →
    (auditing R).refusesItems kvs = false →
    ((auditing R).sanitizeItems kvs = (auditing R).sanitizeItems kvs' ↔
      RelatedItems R (TextCovered R) kvs kvs')
  | [], kvs', same, _ => by
    rw [show kvs' = [] from same]
    exact ⟨fun _ => rfl, fun _ => rfl⟩
  | (k, v) :: rest, kvs', same, taken => by
    rw [RelatedItems] at same
    obtain ⟨v', rest', rfl, first, later⟩ := same
    rw [Auditing.refusesItems, Bool.or_eq_false_iff] at taken
    have value : (auditing R).sanitize k v = (auditing R).sanitize k v' ↔
        isSensitive R k = true ∨ Covered R v v' := by
      cases sensitive : isSensitive R k with
      | true =>
        rw [sanitize_sensitive R k v sensitive, sanitize_sensitive R k v' sensitive]
        exact ⟨fun _ => Or.inl rfl, fun _ => rfl⟩
      | false =>
        have related : SameButSecrets R v v' := first.resolve_left (by rw [sensitive]; decide)
        have taken : (auditing R).refuses v = false := by
          have plain : (auditing R).isSensitive k = false := sensitive
          have := taken.1
          rwa [plain] at this
        rw [sanitize_eq_iff v v' k sensitive related taken]
        exact ⟨Or.inr, fun covered => covered.resolve_left (by decide)⟩
    rw [Auditing.sanitizeItems, Auditing.sanitizeItems, List.cons.injEq, Prod.mk.injEq, value,
      sanitizeItems_eq_iff rest rest' later taken.2, RelatedItems]
    constructor
    · exact fun covered => ⟨v', rest', rfl, covered.1.2, covered.2⟩
    · rintro ⟨w, rest'', same, covered, later⟩
      rw [List.cons.injEq, Prod.mk.injEq] at same
      rw [same.1.2, same.2]
      exact ⟨⟨rfl, covered⟩, later⟩
end

theorem related_isDict (strings : String → String → Prop) (v w : Value) (related : Related R strings v w) :
    v.isDict = w.isDict := by
  cases v with
  | str s =>
    obtain ⟨s', rfl, _⟩ := related
    rfl
  | list xs =>
    obtain ⟨ys, rfl, _⟩ := related
    rfl
  | dict kvs =>
    obtain ⟨kvs', rfl, _⟩ := related
    rfl
  | null => rw [show w = null from related]
  | bool b => rw [show w = Value.bool b from related]
  | int n => rw [show w = int n from related]
  | float x => rw [show w = float x from related]
  | object text => rw [show w = object text from related]

theorem log_same (v w : Value) (kind : v.isDict = w.isDict) (taken : refuses R v = refuses R w)
    (alike : refuses R v = false → (auditing R).sanitize "" v = (auditing R).sanitize "" w)
    (db : AuditDb) (call : LogCall) :
    log R db { call with inputs := v } = log R db { call with inputs := w } ∧
      log R db { call with outputs := v } = log R db { call with outputs := w } := by
  have taken : (auditing R).refuses v = (auditing R).refuses w := taken
  have inputs (open' : (v.isDict && (auditing R).refuses v) = false) :
      (auditing R).sanitizeInputs v = (auditing R).sanitizeInputs w := by
    rw [Auditing.sanitizeInputs, Auditing.sanitizeInputs, ← kind]
    cases isDict : v.isDict with
    | false => rfl
    | true =>
      rw [isDict, Bool.true_and] at open'
      exact alike open'
  constructor
  · have texts : AuditDb.rowTexts (auditing R) { call with inputs := v } =
        AuditDb.rowTexts (auditing R) { call with inputs := w } := by
      simp only [AuditDb.rowTexts, Auditing.refusesCall, ← kind, ← taken]
      split
      · rfl
      · next passes =>
        rw [Bool.not_eq_true, Bool.or_eq_false_iff, Bool.or_eq_false_iff] at passes
        rw [inputs passes.1.1]
    rw [log, log, AuditDb.log, AuditDb.log, texts]
    rfl
  · have texts : AuditDb.rowTexts (auditing R) { call with outputs := v } =
        AuditDb.rowTexts (auditing R) { call with outputs := w } := by
      simp only [AuditDb.rowTexts, Auditing.refusesCall, ← taken]
      split
      · rfl
      · next passes =>
        rw [Bool.not_eq_true, Bool.or_eq_false_iff, Bool.or_eq_false_iff] at passes
        rw [AuditDb.outputsJson, AuditDb.outputsJson, alike passes.1.2]
    rw [log, log, AuditDb.log, AuditDb.log, texts]
    rfl

/-- Two values that differ in secrets leave the same behind, unless one stands in a URL that the code does
not know as one and no pattern masks it. -/
theorem hidden_iff (v w : Value) (same : SameButSecrets R v w) :
    Hidden R v w ↔ Covered R v w ∨ refuses R v = true := by
  have kind := related_isDict R (SameText R) v w same
  have taken : refuses R v = refuses R w := refuses_same R v w same
  have alike : refuses R v = false → _ := sanitize_eq_iff R v w "" (isSensitive_empty R) same
  constructor
  · rintro ⟨equal, _⟩
    cases open' : refuses R v with
    | true => exact Or.inr rfl
    | false =>
      rw [sanitize, sanitize, ← taken, open', if_neg (by decide), if_neg (by decide), Option.some_inj]
        at equal
      exact Or.inl ((alike open').mp equal)
  · intro condition
    have alike : refuses R v = false → (auditing R).sanitize "" v = (auditing R).sanitize "" w := fun open' =>
      (alike open').mpr (condition.resolve_right (by rw [open']; decide))
    refine ⟨?_, log_same R v w kind taken alike⟩
    rw [sanitize, sanitize, ← taken]
    split
    · rfl
    · next open' => rw [alike (Bool.eq_false_iff.mpr open')]

end

def asciiRedactor : Redactor where
  sha256 text := text
  lower s := String.ofList (s.toList.map Char.toLower)
  lower_empty := rfl
  netlocValid _ := true
  decode bytes := bytes.map fun byte => Char.ofNat byte.toNat
  wordChar _ := false

def urlInputs (url : String) : Value := dict [("url", str url)]

theorem urlInputs_sanitize (url : String) (taken : (redactText asciiRedactor url.toList).isNone = false) :
    sanitize asciiRedactor (urlInputs url) = some (urlInputs ((auditing asciiRedactor).redactText url)) := by
  have plain : isSensitive asciiRedactor "url" = false := by decide
  have open' : refuses asciiRedactor (urlInputs url) = false := by
    have open' : (auditing asciiRedactor).refusesText url = false := taken
    rw [refuses, urlInputs, Auditing.refuses, Auditing.refusesItems, Auditing.refuses, open', Bool.and_false]
    rfl
  rw [sanitize, if_neg (Bool.eq_false_iff.mp open'), sanitize_plain _ _ _ (isSensitive_empty _)]
  simp only [urlInputs, Auditing.sanitizeItems, sanitize_plain asciiRedactor "url" _ plain]

theorem urlInputs_same (base query query' : List Char) (known : httpUrl base = true) (bare : '?' ∉ base)
    (bare' : '#' ∉ base) (free : '#' ∉ query) (free' : '#' ∉ query')
    (fields : List.Forall₂ (SameField asciiRedactor) (query.splitOn '&') (query'.splitOn '&')) :
    SameButSecrets asciiRedactor (urlInputs (String.ofList (base ++ '?' :: query)))
      (urlInputs (String.ofList (base ++ '?' :: query'))) := by
  have text : SameText asciiRedactor (String.ofList (base ++ '?' :: query))
      (String.ofList (base ++ '?' :: query')) := by
    refine Or.inr ⟨base, query, query', [], known, bare, bare', free, free', Or.inl rfl, ?_, ?_, fields⟩
    · rw [String.toList_ofList, List.append_nil]
    · rw [String.toList_ofList, List.append_nil]
  exact ⟨_, rfl, _, _, rfl, Or.inr ⟨_, rfl, text⟩, rfl⟩

theorem tokenFields_same : List.Forall₂ (SameField asciiRedactor) ("token=a".toList.splitOn '&')
    ("token=b".toList.splitOn '&') :=
  List.Forall₂.cons (Or.inr ⟨by decide, by decide⟩) List.Forall₂.nil

theorem token_hidden : Hidden asciiRedactor (urlInputs "http://h/?token=a") (urlInputs "http://h/?token=b") :=
  (hidden_iff asciiRedactor _ _ (urlInputs_same "http://h/".toList "token=a".toList "token=b".toList
    (by decide) (by decide) (by decide) (by decide) (by decide) tokenFields_same)).mpr
    (Or.inl ⟨_, rfl, _, _, rfl, Or.inr ⟨_, rfl, Or.inr (Or.inl (by decide))⟩, rfl⟩)

/-- In a URL with its scheme in capitals the token remains. -/
theorem capital_scheme_leaks :
    SameButSecrets asciiRedactor (urlInputs "HTTPS://h/?token=a") (urlInputs "HTTPS://h/?token=b") ∧
      ¬Hidden asciiRedactor (urlInputs "HTTPS://h/?token=a") (urlInputs "HTTPS://h/?token=b") := by
  have same :
      SameButSecrets asciiRedactor (urlInputs "HTTPS://h/?token=a") (urlInputs "HTTPS://h/?token=b") :=
    urlInputs_same "HTTPS://h/".toList "token=a".toList "token=b".toList
      (by decide) (by decide) (by decide) (by decide) (by decide) tokenFields_same
  refine ⟨same, fun hidden => ?_⟩
  have texts : (auditing asciiRedactor).redactText "HTTPS://h/?token=a" =
      (auditing asciiRedactor).redactText "HTTPS://h/?token=b" := by
    have equal := hidden.1
    rw [urlInputs_sanitize _ (by decide), urlInputs_sanitize _ (by decide)] at equal
    simpa only [urlInputs, Option.some_inj, dict.injEq, List.cons.injEq, Prod.mk.injEq, str.injEq, true_and,
      and_true] using equal
  exact absurd texts (by decide)

end GenesisAgents.AuditRedaction
