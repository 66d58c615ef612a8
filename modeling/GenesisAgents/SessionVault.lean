import GenesisAgents.PrincipalTokens
import GenesisAgents.Library.Runs

/-! The vault of buyer sessions: `conduit_sessions.py`. What `load_session` returns, whatever becomes of
the files in between. -/

namespace GenesisAgents.SessionVault

open Value JsonText

/-- `AESGCM`: key, nonce, text, associated data. -/
structure Cipher where
  encrypt : List UInt8 → List UInt8 → List UInt8 → List UInt8 → List UInt8
  /-- `none` when it raises -/
  decrypt : List UInt8 → List UInt8 → List UInt8 → List UInt8 → Option (List UInt8)

structure Cipher.Sound (C : Cipher) : Prop where
  opens : ∀ key nonce text data, C.decrypt key nonce (C.encrypt key nonce text data) data = some text
  /-- What was encrypted opens under its key and its associated data only. -/
  binds : ∀ key nonce text data key' data', (C.decrypt key' nonce (C.encrypt key nonce text data) data').isSome →
    key' = key ∧ data' = data

/-- `secrets.token_bytes(12)` -/
abbrev Nonce := { bytes : List UInt8 // bytes.length = 12 }

/-- Bytes that nobody has encrypted: they open under no key for no job. -/
def Garbage (C : Cipher) : Type :=
  { bytes : List UInt8 // ∀ key data, C.decrypt key (bytes.take 12) (bytes.drop 12) data = none }

section

variable (C : Cipher) (N : Numerals)

-- `base64.b64decode`, which may raise, and the file of a job below `LOCAL_DIR`
variable (b64decode : String → Option (List UInt8)) (place : String → String)

/-- `_get_key` -/
def getKey (keyB64 : String) : Option (List UInt8) :=
  if keyB64 = "" then none else (b64decode keyB64).filter fun key => key.length = 32

structure Upload where
  key : List UInt8
  jobId : String
  sessionData : Value
  text : String
  nonce : Nonce

def Upload.blob (u : Upload) : List UInt8 :=
  u.nonce.1 ++ C.encrypt u.key u.nonce.1 (utf8Of u.text) (utf8Of u.jobId)

structure Vault where
  keyB64 : String
  disk : String → Option (List UInt8)
  /-- What was encrypted so far. -/
  uploads : List Upload

def Vault.write (σ : Vault) (path : String) (bytes : Option (List UInt8)) : Vault :=
  { σ with disk := Function.update σ.disk path bytes }

/-- `store_session`; an exception leaves no file. -/
def storeSession (σ : Vault) (jobId : String) (sessionData : Value) (nonce : Nonce) : Vault :=
  match getKey b64decode σ.keyB64, dumpsWith .standard sessionData with
  | some key, some text =>
    let upload : Upload := ⟨key, jobId, sessionData, text, nonce⟩
    { σ.write (place jobId) (some (upload.blob C)) with uploads := σ.uploads ++ [upload] }
  | _, _ => σ

inductive LoadReply where
  | vaultNotConfigured
  | sessionNotFound
  | decryptFailed
  | ok (sessionData : Value)

/-- `load_session` -/
def loadSession (σ : Vault) (jobId : String) : LoadReply :=
  match getKey b64decode σ.keyB64 with
  | none => .vaultNotConfigured
  | some key =>
    match σ.disk (place jobId) with
    | none => .sessionNotFound
    | some blob =>
      let opened := C.decrypt key (blob.take 12) (blob.drop 12) (utf8Of jobId)
      match opened.bind fun text => (String.fromUTF8? ⟨text.toArray⟩).bind (loads N) with
      | some sessionData => .ok sessionData
      | none => .decryptFailed

/-- `delete_session`: the file is overwritten and unlinked, or only overwritten where that raises. -/
def deleteSession (σ : Vault) (jobId : String) (fails : Option (Garbage C)) : Vault :=
  if (σ.disk (place jobId)).isNone then σ
  else
    match fails with
    | none => σ.write (place jobId) none
    | some noise => σ.write (place jobId) (some noise.1)

inductive Event where
  /-- The process starts again, perhaps with another key. -/
  | restart (keyB64 : String)
  | store (jobId : String) (sessionData : Value) (nonce : Nonce)
  | delete (jobId : String) (fails : Option (Garbage C))
  /-- Somebody puts an old file anywhere. -/
  | replay (path : String) (i : Nat)
  /-- A write that broke off, or a damaged file. -/
  | damage (path : String) (bytes : Garbage C)
  | remove (path : String)

def step (σ : Vault) : Event C → Vault
  | .restart keyB64 => { σ with keyB64 := keyB64 }
  | .store jobId sessionData nonce => storeSession C b64decode place σ jobId sessionData nonce
  | .delete jobId fails => deleteSession C place σ jobId fails
  | .replay path i =>
    match σ.uploads[i]? with
    | some upload => σ.write path (some (upload.blob C))
    | none => σ
  | .damage path bytes => σ.write path (some bytes.1)
  | .remove path => σ.write path none

def start (keyB64 : String) : Vault := ⟨keyB64, fun _ => none, []⟩

/-! What the vault is for: a shelf of sessions, each of which is handed out to its own job. -/

inductive Content where
  | session (upload : Upload)
  | garbage (bytes : Garbage C)

def Content.bytes : Content C → List UInt8
  | session upload => upload.blob C
  | garbage noise => noise.1

structure Shelf where
  keyB64 : String
  files : String → Option (Content C)
  uploads : List Upload

def Shelf.put (τ : Shelf C) (path : String) (content : Option (Content C)) : Shelf C :=
  { τ with files := Function.update τ.files path content }

def Shelf.step (τ : Shelf C) : Event C → Shelf C
  | .restart keyB64 => { τ with keyB64 := keyB64 }
  | .store jobId sessionData nonce =>
    match getKey b64decode τ.keyB64, dumpsWith .standard sessionData with
    | some key, some text =>
      let upload : Upload := ⟨key, jobId, sessionData, text, nonce⟩
      { τ.put C (place jobId) (some (.session upload)) with uploads := τ.uploads ++ [upload] }
    | _, _ => τ
  | .delete jobId fails =>
    if (τ.files (place jobId)).isNone then τ
    else τ.put C (place jobId) (fails.map .garbage)
  | .replay path i =>
    match τ.uploads[i]? with
    | some upload => τ.put C path (some (.session upload))
    | none => τ
  | .damage path bytes => τ.put C path (some (.garbage bytes))
  | .remove path => τ.put C path none

def Shelf.start (keyB64 : String) : Shelf C := ⟨keyB64, fun _ => none, []⟩

/-- The job gets the session in its file, if it was stored for that very job under the present key. -/
def Shelf.load (τ : Shelf C) (jobId : String) : LoadReply :=
  match getKey b64decode τ.keyB64 with
  | none => .vaultNotConfigured
  | some key =>
    match τ.files (place jobId) with
    | none => .sessionNotFound
    | some (.garbage _) => .decryptFailed
    | some (.session upload) =>
      if upload.key = key ∧ upload.jobId = jobId then .ok upload.sessionData else .decryptFailed

variable {C}

/-- The files hold what is on the shelf, and every session reads back. -/
structure Refines (τ : Shelf C) (σ : Vault) : Prop where
  key : σ.keyB64 = τ.keyB64
  disk : ∀ path, σ.disk path = (τ.files path).map (Content.bytes C)
  uploads : σ.uploads = τ.uploads
  reads : ∀ upload ∈ τ.uploads, loads N upload.text = some upload.sessionData
  shelved : ∀ path upload, τ.files path = some (.session upload) → upload ∈ τ.uploads

theorem loads_standard (v : Value) (loaded : Loaded N v) (text : String)
    (encoded : dumpsWith .standard v = some text) : loads N text = some v :=
  loads_print N standardStyle rfl standard_blank v loaded text
    (dumps_eq_print _ _ standard_prints v text encoded)

theorem put_refines (τ : Shelf C) (σ : Vault) (path : String) (content : Option (Content C))
    (refines : Refines N τ σ)
    (known : ∀ upload, content = some (.session upload) → upload ∈ τ.uploads) :
    Refines N (τ.put C path content) (σ.write path (content.map (Content.bytes C))) := by
  refine ⟨refines.key, fun other => ?_, refines.uploads, refines.reads, fun other upload there => ?_⟩
  · dsimp only [Vault.write, Shelf.put]
    by_cases same : other = path
    · rw [same, Function.update_self, Function.update_self]
    · rw [Function.update_of_ne same, Function.update_of_ne same]
      exact refines.disk other
  · dsimp only [Shelf.put] at there
    by_cases same : other = path
    · rw [same, Function.update_self] at there
      exact known upload there
    · rw [Function.update_of_ne same] at there
      exact refines.shelved other upload there

def StoresLoaded : Event C → Prop
  | .store _ sessionData _ => Loaded N sessionData
  | _ => True

theorem store_refines (τ : Shelf C) (σ : Vault) (jobId : String) (sessionData : Value) (nonce : Nonce)
    (loaded : Loaded N sessionData) (refines : Refines N τ σ) :
    Refines N (τ.step C b64decode place (.store jobId sessionData nonce))
      (storeSession C b64decode place σ jobId sessionData nonce) := by
  rw [Shelf.step, storeSession, refines.key]
  split
  · next key text configured encoded =>
    let upload : Upload := ⟨key, jobId, sessionData, text, nonce⟩
    have grown : Refines N { τ with uploads := τ.uploads ++ [upload] }
        { σ with uploads := σ.uploads ++ [upload] } := by
      refine ⟨refines.key, refines.disk, congrArg (· ++ [upload]) refines.uploads, fun u member => ?_,
        fun path u there => List.mem_append_left _ (refines.shelved path u there)⟩
      rcases List.mem_append.mp member with member | single
      · exact refines.reads u member
      · rw [List.mem_singleton.mp single]
        exact loads_standard N sessionData loaded text encoded
    refine put_refines N _ _ (place jobId) (some (.session upload)) grown fun u same => ?_
    rw [← Content.session.inj (Option.some.inj same)]
    exact List.mem_append_right _ (List.mem_singleton_self _)
  · exact refines

theorem step_refines (τ : Shelf C) (σ : Vault) (event : Event C) (stores : StoresLoaded N event)
    (refines : Refines N τ σ) :
    Refines N (τ.step C b64decode place event) (step C b64decode place σ event) := by
  cases event with
  | restart keyB64 => exact ⟨rfl, refines.disk, refines.uploads, refines.reads, refines.shelved⟩
  | store jobId sessionData nonce =>
    exact store_refines N b64decode place τ σ jobId sessionData nonce stores refines
  | delete jobId fails =>
    rw [Shelf.step, step]
    unfold deleteSession
    rw [refines.disk, Option.isNone_map]
    split
    · exact refines
    · cases fails with
      | none => exact put_refines N τ σ _ none refines fun _ same => by contradiction
      | some noise => exact put_refines N τ σ _ (some (.garbage noise)) refines fun _ same => by cases same
  | replay path i =>
    rw [Shelf.step, step, refines.uploads]
    split
    · next upload there =>
      refine put_refines N τ σ path (some (.session upload)) refines fun u same => ?_
      rw [← Content.session.inj (Option.some.inj same)]
      exact List.mem_of_getElem? there
    · exact refines
  | damage path bytes => exact put_refines N τ σ path (some (.garbage bytes)) refines fun _ same => by cases same
  | remove path => exact put_refines N τ σ path none refines fun _ same => by contradiction

theorem utf8Of_injective (s t : String) (same : utf8Of s = utf8Of t) : s = t := by
  have read := utf8_read s
  rw [same, utf8_read t] at read
  exact (Option.some.inj read).symm

theorem blob_nonce (upload : Upload) : (upload.blob C).take 12 = upload.nonce.1 ∧
    (upload.blob C).drop 12 =
      C.encrypt upload.key upload.nonce.1 (utf8Of upload.text) (utf8Of upload.jobId) :=
  ⟨List.take_left' upload.nonce.2, List.drop_left' upload.nonce.2⟩

variable (sound : C.Sound)

include sound

/-- A file that holds the session of another job, or one of another key, is as good as damaged. -/
theorem load_refines (τ : Shelf C) (σ : Vault) (jobId : String) (refines : Refines N τ σ) :
    loadSession C N b64decode place σ jobId = τ.load C b64decode place jobId := by
  rw [loadSession, Shelf.load, refines.key]
  split
  · rfl
  · next key configured =>
    rw [refines.disk]
    rcases there : τ.files (place jobId) with _ | upload | noise
    · rfl
    · dsimp only [Option.map_some, Content.bytes]
      rw [(blob_nonce upload).1, (blob_nonce upload).2]
      split_ifs with own
      · obtain ⟨rfl, rfl⟩ := own
        rw [sound.opens, Option.bind_some, utf8_read, Option.bind_some,
          refines.reads upload (refines.shelved _ upload there)]
      · have shut : C.decrypt key upload.nonce.1
            (C.encrypt upload.key upload.nonce.1 (utf8Of upload.text) (utf8Of upload.jobId))
            (utf8Of jobId) = none := by
          by_contra opens
          obtain ⟨sameKey, sameJob⟩ := sound.binds _ _ _ _ _ _ (Option.isSome_iff_ne_none.mpr opens)
          exact own ⟨sameKey.symm, (utf8Of_injective _ _ sameJob).symm⟩
        rw [shut]
        rfl
    · dsimp only [Option.map_some, Content.bytes]
      rw [noise.2]
      rfl

omit sound in
theorem run_refines (keyB64 : String) (events : List (Event C))
    (stores : ∀ event ∈ events, StoresLoaded N event) :
    Refines N (Runs.run (Shelf.step C b64decode place) (Shelf.start C keyB64) events)
      (Runs.run (step C b64decode place) (start keyB64) events) := by
  have initial : Refines N (Shelf.start C keyB64) (start keyB64) :=
    ⟨rfl, fun _ => rfl, rfl, fun _ member => absurd member List.not_mem_nil, fun _ _ none_there => by
      contradiction⟩
  generalize Shelf.start C keyB64 = τ at initial ⊢
  generalize start keyB64 = σ at initial ⊢
  induction events generalizing τ σ with
  | nil => exact initial
  | cons event rest later =>
    have next := step_refines N b64decode place τ σ event (stores event List.mem_cons_self) initial
    exact later (fun e member => stores e (List.mem_cons_of_mem _ member)) _ _ next

/-- After every run of the vault, in which files are lost, damaged, copied and put back, a job loads
what the shelf has for it. -/
theorem vault_refines_shelf (keyB64 : String) (events : List (Event C))
    (stores : ∀ event ∈ events, StoresLoaded N event) (jobId : String) :
    loadSession C N b64decode place (Runs.run (step C b64decode place) (start keyB64) events) jobId =
      (Runs.run (Shelf.step C b64decode place) (Shelf.start C keyB64) events).load C b64decode place
        jobId :=
  load_refines N b64decode place sound _ _ jobId (run_refines N b64decode place keyB64 events stores)

/-- What a job loads was stored for that very job, under the key the vault has now. -/
theorem load_own (keyB64 : String) (events : List (Event C))
    (stores : ∀ event ∈ events, StoresLoaded N event) (jobId : String) (sessionData : Value)
    (loads : loadSession C N b64decode place (Runs.run (step C b64decode place) (start keyB64) events)
      jobId = .ok sessionData) :
    ∃ upload ∈ (Runs.run (step C b64decode place) (start keyB64) events).uploads,
      upload.jobId = jobId ∧ upload.sessionData = sessionData ∧
        getKey b64decode (Runs.run (step C b64decode place) (start keyB64) events).keyB64 =
          some upload.key := by
  have refines := run_refines N b64decode place keyB64 events stores
  rw [load_refines N b64decode place sound _ _ jobId refines, Shelf.load] at loads
  split at loads
  · cases loads
  · next key configured =>
    split at loads
    · cases loads
    · cases loads
    · next upload there =>
      split at loads
      · next own =>
        refine ⟨upload, ?_, own.2, LoadReply.ok.inj loads, ?_⟩
        · rw [refines.uploads]
          exact refines.shelved _ upload there
        · rw [refines.key, configured, own.1]
      · cases loads

end

/-! A cipher for runs on paper: the key and the associated data in front of the text. -/

def frame : List UInt8 → List UInt8
  | [] => [0]
  | b :: rest => 1 :: b :: frame rest

theorem frame_append (a : List UInt8) : ∀ b x y, frame a ++ x = frame b ++ y → a = b ∧ x = y := by
  induction a with
  | nil =>
    intro b x y same
    cases b with
    | nil => exact ⟨rfl, List.append_cancel_left same⟩
    | cons _ _ => exact absurd (List.cons.inj same).1 (by decide)
  | cons h t later =>
    intro b x y same
    cases b with
    | nil => exact absurd (List.cons.inj same).1 (by decide)
    | cons h' t' =>
      obtain ⟨heads, tails⟩ := List.cons.inj (List.cons.inj same).2
      obtain ⟨bodies, rest⟩ := later t' x y tails
      exact ⟨by rw [heads, bodies], rest⟩

def paperCipher : Cipher where
  encrypt key _ text data := frame key ++ (frame data ++ text)
  decrypt key _ ciphertext data :=
    let header := frame key ++ frame data
    if header.isPrefixOf ciphertext then some (ciphertext.drop header.length) else none

theorem paperCipher_sound : paperCipher.Sound where
  opens key nonce text data := by
    dsimp only [paperCipher]
    rw [← List.append_assoc, if_pos (List.isPrefixOf_iff_prefix.mpr (List.prefix_append _ _)),
      List.drop_left]
  binds key nonce text data key' data' opened := by
    dsimp only [paperCipher] at opened
    split at opened
    · next prefixed =>
      obtain ⟨rest, same⟩ := List.isPrefixOf_iff_prefix.mp prefixed
      rw [List.append_assoc] at same
      obtain ⟨keys, behind⟩ := frame_append _ _ _ _ same
      exact ⟨keys, (frame_append _ _ _ _ behind).1⟩
    · contradiction

def noNumerals : Numerals := { float := fun _ => infinity, int := fun _ => none }

def copiedSession : List (Event paperCipher) :=
  [.store "a" (dict []) ⟨List.replicate 12 0, rfl⟩, .replay "b" 0]

theorem copiedSession_loaded : ∀ event ∈ copiedSession, StoresLoaded noNumerals event := by
  simp [copiedSession, StoresLoaded, Loaded, LoadedItems]

/-- The file of one job, copied to another. -/
theorem vault_refines_shelf_copied :
    loadSession paperCipher noNumerals (fun s => some (utf8Of s)) id
      (Runs.run (step paperCipher (fun s => some (utf8Of s)) id)
        (start "0123456789abcdef0123456789abcdef") copiedSession) "b" = .decryptFailed :=
  (vault_refines_shelf noNumerals _ id paperCipher_sound _ _ copiedSession_loaded "b").trans rfl

theorem load_own_copied :
    ∃ upload ∈ (Runs.run (step paperCipher (fun s => some (utf8Of s)) id)
        (start "0123456789abcdef0123456789abcdef") copiedSession).uploads,
      upload.jobId = "a" ∧ upload.sessionData = dict [] ∧
        getKey (fun s => some (utf8Of s)) "0123456789abcdef0123456789abcdef" = some upload.key :=
  load_own noNumerals _ id paperCipher_sound _ _ copiedSession_loaded "a" (dict []) rfl

end GenesisAgents.SessionVault
