import GenesisAgents.GuardAgreement
import GenesisAgents.Library.Runs

/-! `conduit_browser.py`: the browser of a job, whose starts and stops may fail at any await. Which requests
leave it, and which Chromium processes it forgets. -/

namespace GenesisAgents.BrowserBridge

open UrlGuards IpLiterals

/-! `validate_public_url` -/

/-- `urlsplit(url).scheme` -/
def schemeOf (url : List Char) : List Char :=
  let stripped := (url.dropWhile controlOrSpace).filter fun c => !unsafeUrlChars.contains c
  let scheme := stripped.takeWhile (· != ':')
  if (stripped.drop scheme.length).head? == some ':' && scheme.head?.any Char.isAlpha &&
      scheme.all schemeChar then scheme.map Char.toLower
  else []

/-- `urlsplit(url).username`, where there is one that is not empty -/
def hasUsername (netloc : List Char) : Bool :=
  let userinfo := ((netloc.reverse.dropWhile (· != '@')).drop 1).reverse
  !(userinfo.takeWhile (· != ':')).isEmpty

/-- The text behind the host that `urlsplit(url).port` reads. -/
def portText (netloc : List Char) : List Char :=
  let hostinfo := (netloc.reverse.takeWhile (· != '@')).reverse
  let rest := if hostinfo.contains '[' then hostinfo.dropWhile (· != ']') else hostinfo
  (rest.dropWhile (· != ':')).drop 1

def portValid (port : List Char) : Bool :=
  match readDigits 10 port with
  | some ds => decide (ofDigits 10 ds ≤ 65535)
  | none => false

/-- `ip.is_global` of Python 3.12.0 -/
def isGlobal : Address → Bool
  | .v4 ip => !Network.contains 32 ⟨ipv4 100 64 0 0, 10⟩ ip && !isPrivateV4 ip
  | .v6 ip => !isPrivate (.v6 ip)

/-- The `ValueError`s of `validate_public_url`. -/
inductive Refusal where
  | unsafeUrl
  | resolutionFailed
  /-- One that `urllib`, the host codec or `ipaddress` raises. -/
  | library
  deriving DecidableEq

def Refusal.message : Refusal → Option String
  | unsafeUrl => some "unsafe_url"
  | resolutionFailed => some "url_resolution_failed"
  | library => none

/-- `parsed.hostname.rstrip(".").lower()` -/
def publicHost (R : Resolver) (hostname : String) : String :=
  R.unicode.lower (String.ofList (hostname.toList.reverse.dropWhile (· == '.')).reverse)

def localHost (host : String) : Bool :=
  host == "localhost" || ".localhost".toList.isSuffixOf host.toList

def allGlobal : List AddressInfo → Except Refusal Unit
  | [] => .ok ()
  | info :: rest =>
    match info.address with
    | none => .error .library
    | some address => if isGlobal address then allGlobal rest else .error .unsafeUrl

/-- `validate_public_url` -/
def validatePublicUrl (R : Resolver) (url : String) : Except Refusal Unit :=
  match hostname R url with
  | none => .error .library
  | some none => .error .unsafeUrl
  | some (some name) =>
    let netloc := netlocOf url.toList
    let scheme := String.ofList (schemeOf url.toList)
    if !(["http", "https"].contains scheme) || hasUsername netloc then .error .unsafeUrl
    else
      let host := publicHost R name
      if localHost host then .error .unsafeUrl
      else
        let port := portText netloc
        if !port.isEmpty && !portValid port then .error .library
        else
          match R.getaddrinfo host with
          | .gaierror => .error .resolutionFailed
          | .unencodable => .error .library
          | .found infos => allGlobal infos

/-- How an await ends: `except Exception` takes no cancellation. -/
inductive Ending where
  | returned
  | exception
  | cancelled
  deriving DecidableEq

/-- The statements of `start` that may raise, in their order; one that raises has had no effect. -/
inductive StartStep where
  | mkdir
  | driver
  | launch
  | newPage
  | route
  deriving DecidableEq

structure Page where
  /-- `_guard_route` is asked about its requests. -/
  guarded : Bool
  deriving DecidableEq

/-- A request that went out, and how names were resolved then. -/
structure Request where
  page : Nat
  url : String
  dns : Resolver
  /-- The driver has called the handler of the page for it, if there is one. -/
  asked : Bool

/-- The fields of a `ConduitBridge`, and what it has started. -/
structure Bridge where
  playwright : Option Nat
  browser : Option Nat
  page : Option Nat
  /-- The drivers, and whether `stop` was awaited on them. -/
  drivers : List Bool
  /-- The Chromium processes, and whether `close` was awaited on them. -/
  browsers : List Bool
  pages : List Page
  gotos : List (Resolver × String)
  sent : List Request

def fresh : Bridge := ⟨none, none, none, [], [], [], [], []⟩

def ask (field : Option Nat) (asked : List Bool) : List Bool :=
  match field with
  | some k => asked.set k true
  | none => asked

namespace Bridge

/-- `self._playwright = await async_playwright().start()` -/
def startDriver (σ : Bridge) : Bridge :=
  { σ with playwright := some σ.drivers.length, drivers := σ.drivers ++ [false] }

/-- `self._browser = await self._playwright.chromium.launch(...)` -/
def launch (σ : Bridge) : Bridge :=
  { σ with browser := some σ.browsers.length, browsers := σ.browsers ++ [false] }

/-- `self._page = await self._browser.new_page()`, and `route` on it if that returns. -/
def newPage (σ : Bridge) (routed : Bool) : Bridge :=
  { σ with page := some σ.pages.length, pages := σ.pages ++ [⟨routed⟩] }

/-- `start`; `false` when it raises. -/
def start (σ : Bridge) (fails : Option StartStep) : Bool × Bridge :=
  if σ.page.isSome then (true, σ)
  else
    match fails with
    | some .mkdir => (false, σ)
    | some .driver => (false, σ)
    | some .launch => (false, σ.startDriver)
    | some .newPage => (false, σ.startDriver.launch)
    | some .route => (false, (σ.startDriver.launch).newPage false)
    | none => (true, (σ.startDriver.launch).newPage true)

def askClose (σ : Bridge) : Bridge := { σ with browsers := ask σ.browser σ.browsers }

def askStop (σ : Bridge) : Bridge := { σ with drivers := ask σ.playwright σ.drivers }

/-- `close` -/
def close (σ : Bridge) (closing stopping : Ending) : Bridge :=
  if σ.browser.isSome ∧ closing = .cancelled then σ.askClose
  else if σ.playwright.isSome ∧ stopping = .cancelled then σ.askClose.askStop
  else { σ.askClose.askStop with browser := none, playwright := none, page := none }

end Bridge

inductive Action where
  | navigate
  | screenshot
  | extractMain
  | click
  | typeText
  | accessibilitySnapshot
  | webSearch
  | unsupported
  deriving DecidableEq

inductive Reply where
  | ok
  /-- The value of `error`, and that of `message` where the code has written it. -/
  | failed (error : String) (message : Option String)
  deriving DecidableEq

section

-- `urllib.parse.quote`
variable (quote : String → String)

def searchUrl (query : String) : String := "https://duckduckgo.com/?q=" ++ quote query

/-- `execute`: `text` is the argument that the action reads. -/
def execute (σ : Bridge) (action : Action) (text : String) (dns : Resolver) (raises : Option String) :
    Reply × Bridge :=
  let acted (σ : Bridge) : Reply × Bridge :=
    match raises with
    | some error => (.failed error none, σ)
    | none => (.ok, σ)
  if action = .unsupported then (.failed "unsupported_action" none, σ)
  else if σ.page.isNone then (.failed "bridge_not_started" none, σ)
  else
    match action with
    | .navigate =>
      match validatePublicUrl dns text with
      | .error refusal => (.failed "ValueError" refusal.message, σ)
      | .ok () => acted { σ with gotos := σ.gotos ++ [(dns, text)] }
    | .webSearch => acted { σ with gotos := σ.gotos ++ [(dns, searchUrl quote text)] }
    | _ => acted σ

/-- `conduit_call` with the bridge of the job; `raises` is the class of what its start or its page raises. -/
def conduitCall (σ : Bridge) (action : Action) (text : String) (dns : Resolver)
    (fails : Option StartStep) (raises : Option String) : Reply × Bridge :=
  if action = .unsupported then (.failed "unsupported_action" none, σ)
  else
    match σ.start fails with
    | (false, σ) => (.failed (raises.getD "Exception") none, σ)
    | (true, σ) => execute quote σ action text dns raises

/-- A request of a page, on which `_guard_route` decides where the driver asks it. The driver does so for none of
the further addresses of a redirect. -/
def request (σ : Bridge) (page : Nat) (url : String) (dns : Resolver) (asked : Bool) : Bridge :=
  match σ.pages[page]? with
  | none => σ
  | some p =>
    if p.guarded && asked && (validatePublicUrl dns url).toOption.isNone then σ
    else { σ with sent := σ.sent ++ [⟨page, url, dns, asked⟩] }

inductive Event where
  | call (action : Action) (text : String) (dns : Resolver) (fails : Option StartStep)
    (raises : Option String)
  | request (page : Nat) (url : String) (dns : Resolver) (asked : Bool)
  | stop (closing stopping : Ending)

def step (σ : Bridge) : Event → Bridge
  | .call action text dns fails raises => (conduitCall quote σ action text dns fails raises).2
  | .request page url dns asked => request σ page url dns asked
  | .stop closing stopping => σ.close closing stopping

end

theorem private_of_loopback (address : Address) (loopback : isLoopback address = true) :
    isPrivate address = true := by
  cases address with
  | v4 ip =>
    refine List.any_eq_true.mpr ⟨⟨ipv4 127 0 0 0, 8⟩, by decide, loopback⟩
  | v6 ip =>
    rw [eq_of_beq loopback]
    decide

theorem private_of_link_local (address : Address) (linkLocal : isLinkLocal address = true) :
    isPrivate address = true := by
  cases address with
  | v4 ip =>
    refine List.any_eq_true.mpr ⟨⟨ipv4 169 254 0 0, 16⟩, by decide, linkLocal⟩
  | v6 ip =>
    have unmapped : ip / 2 ^ 32 ≠ 0xffff := by
      intro mapped
      have leading : ip / 2 ^ 118 = 1018 := of_decide_eq_true linkLocal
      have split : ip / 2 ^ 118 = ip / 2 ^ 32 / 2 ^ 86 := by rw [Nat.div_div_eq_div_mul, ← pow_add]
      rw [split, mapped] at leading
      contradiction
    rw [isPrivate, if_neg unmapped]
    exact List.any_eq_true.mpr ⟨⟨ipv6Prefix [0xfe80], 10⟩, by decide, linkLocal⟩

theorem global_external (address : Address) (global : isGlobal address = true) :
    internal address = false := by
  have public_ : isPrivate address = false := by
    cases address with
    | v4 ip =>
      rw [isGlobal, Bool.and_eq_true, Bool.not_eq_true'] at global
      exact (Bool.not_eq_true' _).mp global.2
    | v6 ip => exact (Bool.not_eq_true' _).mp global
  have notLoopback : isLoopback address = false := by
    refine Bool.eq_false_iff.mpr fun loopback => ?_
    rw [private_of_loopback address loopback] at public_
    contradiction
  have notLocal : isLinkLocal address = false := by
    refine Bool.eq_false_iff.mpr fun linkLocal => ?_
    rw [private_of_link_local address linkLocal] at public_
    contradiction
  rw [internal, public_, notLoopback, notLocal]
  rfl

def Public (R : Resolver) (url : String) : Prop :=
  ∃ name infos, hostname R url = some (some name) ∧
    R.getaddrinfo (publicHost R name) = .found infos ∧ localHost (publicHost R name) = false ∧
    ∀ info ∈ infos, ∃ address, info.address = some address ∧ internal address = false

theorem allGlobal_ok (infos : List AddressInfo) (passed : allGlobal infos = .ok ()) :
    ∀ info ∈ infos, ∃ address, info.address = some address ∧ isGlobal address = true := by
  induction infos with
  | nil => exact fun _ member => absurd member List.not_mem_nil
  | cons info rest later =>
    rw [allGlobal] at passed
    split at passed
    · contradiction
    · next address is =>
      split at passed
      · next global => exact List.forall_mem_cons.mpr ⟨⟨address, is, global⟩, later passed⟩
      · contradiction

theorem validatePublicUrl_ok (R : Resolver) (url : String) (passed : validatePublicUrl R url = .ok ()) :
    Public R url := by
  rw [validatePublicUrl] at passed
  split at passed
  · cases passed
  · cases passed
  · next name named =>
    dsimp only at passed
    split at passed
    · cases passed
    split at passed
    · cases passed
    next remote =>
    split at passed
    · cases passed
    split at passed
    · cases passed
    · cases passed
    · next infos resolved =>
      refine ⟨name, infos, named, resolved, Bool.not_eq_true _ ▸ remote, fun info member => ?_⟩
      obtain ⟨address, is, global⟩ := allGlobal_ok infos passed info member
      exact ⟨address, is, global_external address global⟩

section

variable (quote : String → String)

/-- A call that opens a page and leaves it without its guard. -/
def leavesUnguarded (σ : Bridge) : Event → Bool
  | .call action _ _ fails _ => action != .unsupported && σ.page.isNone && fails == some .route
  | _ => false

theorem start_pages (σ : Bridge) (fails : Option StartStep) : (σ.start fails).2.pages = σ.pages ∨
    (σ.start fails).2.pages = σ.pages ++ [⟨fails != some .route⟩] ∧ σ.page = none := by
  unfold Bridge.start
  split
  · exact .inl rfl
  · next unopened =>
    have none_held := Option.not_isSome_iff_eq_none.mp unopened
    cases fails with
    | none => exact .inr ⟨rfl, none_held⟩
    | some failed =>
      cases failed with
      | mkdir | driver | launch | newPage => exact .inl rfl
      | route => exact .inr ⟨rfl, none_held⟩

theorem start_route (σ : Bridge) (unopened : σ.page = none) :
    (σ.start (some .route)).2.pages = σ.pages ++ [⟨false⟩] := by
  unfold Bridge.start
  rw [unopened]
  rfl

theorem start_sent (σ : Bridge) (fails : Option StartStep) :
    (σ.start fails).2.sent = σ.sent ∧ (σ.start fails).2.gotos = σ.gotos := by
  unfold Bridge.start
  split
  · exact ⟨rfl, rfl⟩
  · rcases fails with _ | _ | _ | _ | _ | _ <;> exact ⟨rfl, rfl⟩

theorem execute_gotos (σ : Bridge) (action : Action) (text : String) (dns : Resolver)
    (raises : Option String) : ∃ more, (execute quote σ action text dns raises).2 =
      { σ with gotos := σ.gotos ++ more } ∧
      ∀ goto ∈ more, Public goto.1 goto.2 ∨ ∃ query, goto.2 = searchUrl quote query := by
  have idle : σ = { σ with gotos := σ.gotos ++ [] } := by rw [List.append_nil]
  have nothing : ∀ goto ∈ ([] : List (Resolver × String)),
      Public goto.1 goto.2 ∨ ∃ query, goto.2 = searchUrl quote query :=
    fun _ member => absurd member List.not_mem_nil
  unfold execute
  dsimp only
  split
  · exact ⟨[], idle, nothing⟩
  split
  · exact ⟨[], idle, nothing⟩
  cases action with
  | navigate =>
    dsimp only
    split
    · exact ⟨[], idle, nothing⟩
    · next passed =>
      refine ⟨[(dns, text)], by cases raises <;> rfl, fun goto member => .inl ?_⟩
      rw [List.mem_singleton.mp member]
      exact validatePublicUrl_ok dns text passed
  | webSearch =>
    refine ⟨[(dns, searchUrl quote text)], by cases raises <;> rfl, fun goto member => .inr ?_⟩
    rw [List.mem_singleton.mp member]
    exact ⟨text, rfl⟩
  | _ => exact ⟨[], by cases raises <;> exact idle, nothing⟩

/-- What a call of the tool does beside its goto is what the start does. -/
theorem conduitCall_cases (σ : Bridge) (action : Action) (text : String) (dns : Resolver)
    (fails : Option StartStep) (raises : Option String) :
    ((conduitCall quote σ action text dns fails raises).2 = σ ∧ action = .unsupported) ∨
      action ≠ .unsupported ∧ ∃ more, (conduitCall quote σ action text dns fails raises).2 =
        { (σ.start fails).2 with gotos := (σ.start fails).2.gotos ++ more } ∧
        ∀ goto ∈ more, Public goto.1 goto.2 ∨ ∃ query, goto.2 = searchUrl quote query := by
  unfold conduitCall
  split
  · next unsupported => exact .inl ⟨rfl, unsupported⟩
  · next supported =>
    refine .inr ⟨supported, ?_⟩
    split
    · next failed =>
      rw [failed]
      exact ⟨[], by rw [List.append_nil], fun _ member => absurd member List.not_mem_nil⟩
    · next started =>
      rw [started]
      exact execute_gotos quote _ action text dns raises

theorem close_kept (σ : Bridge) (closing stopping : Ending) :
    (σ.close closing stopping).pages = σ.pages ∧ (σ.close closing stopping).sent = σ.sent ∧
      (σ.close closing stopping).gotos = σ.gotos := by
  unfold Bridge.close
  split
  · exact ⟨rfl, rfl, rfl⟩
  split <;> exact ⟨rfl, rfl, rfl⟩

structure Watched (σ : Bridge) : Prop where
  sent : ∀ r ∈ σ.sent, ∃ page, σ.pages[r.page]? = some page ∧
    (page.guarded = true → r.asked = true → Public r.dns r.url)
  gotos : ∀ goto ∈ σ.gotos, Public goto.1 goto.2 ∨ ∃ query, goto.2 = searchUrl quote query

theorem request_watched (σ : Bridge) (page : Nat) (url : String) (dns : Resolver) (asked : Bool)
    (watched : Watched quote σ) : Watched quote (request σ page url dns asked) := by
  unfold request
  split
  · exact watched
  · next p present =>
    split
    · exact watched
    · next let_through =>
      refine ⟨fun r member => ?_, watched.gotos⟩
      rcases List.mem_append.mp member with member | single
      · exact watched.sent r member
      · rw [List.mem_singleton.mp single]
        refine ⟨p, present, fun guarded isAsked => validatePublicUrl_ok dns url ?_⟩
        dsimp only at isAsked
        rw [guarded, isAsked, Bool.true_and, Bool.true_and, Bool.not_eq_true] at let_through
        cases verdict : validatePublicUrl dns url with
        | error _ => rw [verdict] at let_through; contradiction
        | ok _ => rfl

theorem step_watched (σ : Bridge) (event : Event) (watched : Watched quote σ) :
    Watched quote (step quote σ event) := by
  cases event with
  | request page url dns asked => exact request_watched quote σ page url dns asked watched
  | stop closing stopping =>
    obtain ⟨pages, sent, gotos⟩ := close_kept σ closing stopping
    refine ⟨fun r member => ?_, fun goto member => ?_⟩
    · rw [step, sent] at member
      rw [step, pages]
      exact watched.sent r member
    · rw [step, gotos] at member
      exact watched.gotos goto member
  | call action text dns fails raises =>
    rcases conduitCall_cases quote σ action text dns fails raises with ⟨same, -⟩ | ⟨-, more, same, new⟩
    · rw [step, same]
      exact watched
    · rw [step, same]
      obtain ⟨sent, gotos⟩ := start_sent σ fails
      refine ⟨fun r member => ?_, fun goto member => ?_⟩
      · dsimp only at member ⊢
        rw [sent] at member
        obtain ⟨page, there, guards⟩ := watched.sent r member
        refine ⟨page, ?_, guards⟩
        rcases start_pages σ fails with pages | ⟨pages, -⟩
        · rwa [pages]
        · rw [pages, List.getElem?_append_left (List.getElem?_eq_some_iff.mp there).1]
          exact there
      · rcases List.mem_append.mp member with member | member
        · rw [gotos] at member
          exact watched.gotos goto member
        · exact new goto member

def AllGuarded (σ : Bridge) : Prop := ∀ page ∈ σ.pages, page.guarded = true

theorem step_pages (σ : Bridge) (event : Event) :
    (step quote σ event).pages = σ.pages ∨
      ∃ page, (step quote σ event).pages = σ.pages ++ [page] := by
  cases event with
  | request page url dns asked =>
    refine .inl ?_
    rw [step]
    unfold request
    split
    · rfl
    · split <;> rfl
  | stop closing stopping => exact .inl (close_kept σ closing stopping).1
  | call action text dns fails raises =>
    rcases conduitCall_cases quote σ action text dns fails raises with ⟨same, -⟩ | ⟨-, more, same, -⟩
    · rw [step, same]
      exact .inl rfl
    · rw [step, same]
      rcases start_pages σ fails with pages | ⟨pages, -⟩
      · exact .inl pages
      · exact .inr ⟨_, pages⟩

theorem append_guarded (pages : List Page) (guarded : Bool)
    (before : ∀ page ∈ pages, page.guarded = true) :
    guarded = true ↔ ∀ page ∈ pages ++ [⟨guarded⟩], page.guarded = true := by
  constructor
  · intro routed page member
    rcases List.mem_append.mp member with member | single
    · exact before page member
    · rw [List.mem_singleton.mp single, routed]
  · exact fun every => every ⟨guarded⟩ (List.mem_append_right _ (List.mem_singleton_self _))

theorem start_guarded_iff (σ : Bridge) (fails : Option StartStep) (guarded : AllGuarded σ) :
    (σ.page.isNone && fails == some .route) = false ↔ AllGuarded (σ.start fails).2 := by
  unfold AllGuarded
  rcases start_pages σ fails with pages | ⟨pages, unopened⟩
  · rw [pages]
    refine iff_of_true (Bool.eq_false_iff.mpr fun opens => ?_) guarded
    -- A start that gets as far as its route has opened a page.
    obtain ⟨unopened, routing⟩ := Bool.and_eq_true_iff.mp opens
    rw [eq_of_beq routing, start_route σ (Option.isNone_iff_eq_none.mp unopened)] at pages
    exact List.cons_ne_nil _ _ (List.append_right_eq_self.mp pages)
  · rw [pages, ← append_guarded _ _ guarded, unopened, Option.isNone_none, Bool.true_and, bne,
      Bool.not_eq_true']

theorem step_guarded_iff (σ : Bridge) (event : Event) (guarded : AllGuarded σ) :
    (!leavesUnguarded σ event) = true ↔ AllGuarded (step quote σ event) := by
  cases event with
  | request page url dns asked =>
    refine iff_of_true rfl ?_
    have pages : (request σ page url dns asked).pages = σ.pages := by
      unfold request
      split
      · rfl
      · split <;> rfl
    rwa [AllGuarded, step, pages]
  | stop closing stopping =>
    refine iff_of_true rfl ?_
    rwa [AllGuarded, step, (close_kept σ closing stopping).1]
  | call action text dns fails raises =>
    rw [leavesUnguarded, Bool.not_eq_true', step]
    rcases conduitCall_cases quote σ action text dns fails raises with
      ⟨same, rfl⟩ | ⟨supported, more, same, -⟩
    · rw [same]
      exact iff_of_true rfl guarded
    · rw [same, bne_iff_ne.mpr supported, Bool.true_and]
      exact start_guarded_iff σ fails guarded

theorem step_pages_before (σ : Bridge) (event : Event) (guarded : AllGuarded (step quote σ event)) :
    AllGuarded σ := by
  rcases step_pages quote σ event with pages | ⟨page, pages⟩
  · rwa [AllGuarded, pages] at guarded
  · rw [AllGuarded, pages] at guarded
    exact fun other member => guarded other (List.mem_append_left _ member)

/-- A start that goes past the field of something that was not asked to end yet. -/
def forgets (σ : Bridge) : Event → Bool
  | .call action _ _ fails _ =>
    action != .unsupported && σ.page.isNone &&
      ((fails != some .mkdir && fails != some .driver &&
          σ.playwright.any fun d => σ.drivers[d]? == some false) ||
        (fails == none || fails == some .newPage || fails == some .route) &&
          σ.browser.any fun b => σ.browsers[b]? == some false)
  | _ => false

/-- What was started and not asked to end is in the field. -/
def Kept (field : Option Nat) (asked : List Bool) : Prop :=
  ∀ k, asked[k]? = some false → field = some k

theorem kept_started_iff (field : Option Nat) (asked : List Bool) (kept : Kept field asked) :
    (field.any fun k => asked[k]? == some false) = false ↔
      Kept (some asked.length) (asked ++ [false]) := by
  constructor
  · intro ended k unasked
    rw [List.getElem?_append] at unasked
    split at unasked
    · have held := kept k unasked
      rw [held, Option.any_some, unasked] at ended
      contradiction
    · next beyond =>
      have last := (List.getElem?_eq_some_iff.mp unasked).1
      rw [List.length_singleton] at last
      rw [show k = asked.length by omega]
  · intro only
    refine Bool.eq_false_iff.mpr fun pending => ?_
    obtain ⟨k, rfl⟩ : ∃ k, field = some k := by
      cases field with
      | none => contradiction
      | some k => exact ⟨k, rfl⟩
    have unasked : asked[k]? = some false := eq_of_beq pending
    have inside := (List.getElem?_eq_some_iff.mp unasked).1
    have last := only k (by rw [List.getElem?_append_left inside, unasked])
    rw [Option.some.inj last] at inside
    exact absurd inside (Nat.lt_irrefl _)

theorem kept_before_start (field : Option Nat) (asked : List Bool)
    (only : Kept (some asked.length) (asked ++ [false])) : Kept field asked := by
  intro k unasked
  have inside := (List.getElem?_eq_some_iff.mp unasked).1
  have last := only k (by rw [List.getElem?_append_left inside, unasked])
  rw [Option.some.inj last] at inside
  exact absurd inside (Nat.lt_irrefl _)

theorem ask_unasked (field : Option Nat) (asked : List Bool) (k : Nat) :
    (ask field asked)[k]? = some false ↔ asked[k]? = some false ∧ field ≠ some k := by
  cases field with
  | none => simp [ask]
  | some j =>
    rw [ask, List.getElem?_set]
    split
    · next same =>
      subst same
      split <;> simp
    · next other =>
      simp [other]

theorem kept_ask_iff (field after : Option Nat) (asked : List Bool) (kept : after = field ∨ after = none) :
    Kept after (ask field asked) ↔ Kept field asked := by
  constructor
  · intro left k unasked
    by_contra other
    have still := left k ((ask_unasked field asked k).mpr ⟨unasked, other⟩)
    rcases kept with rfl | rfl
    · exact other still
    · contradiction
  · intro only k unasked
    obtain ⟨unasked, other⟩ := (ask_unasked field asked k).mp unasked
    exact absurd (only k unasked) other

structure Remembered (σ : Bridge) : Prop where
  drivers : Kept σ.playwright σ.drivers
  browsers : Kept σ.browser σ.browsers

theorem start_remembered_iff (σ : Bridge) (fails : Option StartStep) (remembered : Remembered σ) :
    (σ.page.isNone &&
      ((fails != some .mkdir && fails != some .driver &&
          σ.playwright.any fun d => σ.drivers[d]? == some false) ||
        (fails == none || fails == some .newPage || fails == some .route) &&
          σ.browser.any fun b => σ.browsers[b]? == some false)) = false ↔
      Remembered (σ.start fails).2 := by
  have driver := kept_started_iff _ _ remembered.drivers
  have browser := kept_started_iff _ _ remembered.browsers
  unfold Bridge.start
  split
  · next opened =>
    rw [Option.isNone_eq_false_iff.mpr opened, Bool.false_and]
    exact iff_of_true rfl remembered
  · next unopened =>
    rw [Option.not_isSome_iff_eq_none.mp unopened, Option.isNone_none, Bool.true_and]
    have both : (σ.playwright.any fun d => σ.drivers[d]? == some false) = false ∧
        (σ.browser.any fun b => σ.browsers[b]? == some false) = false ↔
        Kept (some σ.drivers.length) (σ.drivers ++ [false]) ∧
          Kept (some σ.browsers.length) (σ.browsers ++ [false]) := and_congr driver browser
    rw [← Bool.or_eq_false_iff] at both
    rcases fails with _ | _ | _ | _ | _ | _
    · exact both.trans ⟨fun kept => ⟨kept.1, kept.2⟩, fun kept => ⟨kept.1, kept.2⟩⟩
    · exact iff_of_true rfl remembered
    · exact iff_of_true rfl remembered
    · refine (Iff.of_eq ?_).trans (driver.trans
        ⟨fun kept => ⟨kept, remembered.browsers⟩, fun kept => kept.drivers⟩)
      rw [show (some StartStep.launch == none || some StartStep.launch == some .newPage ||
        some StartStep.launch == some .route) = false from rfl, Bool.false_and, Bool.or_false]
      rfl
    · exact both.trans ⟨fun kept => ⟨kept.1, kept.2⟩, fun kept => ⟨kept.1, kept.2⟩⟩
    · exact both.trans ⟨fun kept => ⟨kept.1, kept.2⟩, fun kept => ⟨kept.1, kept.2⟩⟩

theorem start_remembered_before (σ : Bridge) (fails : Option StartStep)
    (remembered : Remembered (σ.start fails).2) : Remembered σ := by
  unfold Bridge.start at remembered
  split at remembered
  · exact remembered
  · rcases fails with _ | _ | _ | _ | _ | _
    · exact ⟨kept_before_start _ _ remembered.drivers, kept_before_start _ _ remembered.browsers⟩
    · exact remembered
    · exact remembered
    · exact ⟨kept_before_start _ _ remembered.drivers, remembered.browsers⟩
    · exact ⟨kept_before_start _ _ remembered.drivers, kept_before_start _ _ remembered.browsers⟩
    · exact ⟨kept_before_start _ _ remembered.drivers, kept_before_start _ _ remembered.browsers⟩

theorem close_remembered_iff (σ : Bridge) (closing stopping : Ending) :
    Remembered σ ↔ Remembered (σ.close closing stopping) := by
  have drivers := fun after => kept_ask_iff σ.playwright after σ.drivers
  have browsers := fun after => kept_ask_iff σ.browser after σ.browsers
  unfold Bridge.close
  split
  · exact ⟨fun r => ⟨r.drivers, (browsers _ (.inl rfl)).mpr r.browsers⟩,
      fun r => ⟨r.drivers, (browsers _ (.inl rfl)).mp r.browsers⟩⟩
  split
  · exact ⟨fun r => ⟨(drivers _ (.inl rfl)).mpr r.drivers, (browsers _ (.inl rfl)).mpr r.browsers⟩,
      fun r => ⟨(drivers _ (.inl rfl)).mp r.drivers, (browsers _ (.inl rfl)).mp r.browsers⟩⟩
  · exact ⟨fun r => ⟨(drivers _ (.inr rfl)).mpr r.drivers, (browsers _ (.inr rfl)).mpr r.browsers⟩,
      fun r => ⟨(drivers _ (.inr rfl)).mp r.drivers, (browsers _ (.inr rfl)).mp r.browsers⟩⟩

theorem request_fields (σ : Bridge) (page : Nat) (url : String) (dns : Resolver) (asked : Bool) :
    Remembered (request σ page url dns asked) ↔ Remembered σ := by
  have same : ∀ sent, Remembered { σ with sent := sent } ↔ Remembered σ :=
    fun _ => ⟨fun r => ⟨r.drivers, r.browsers⟩, fun r => ⟨r.drivers, r.browsers⟩⟩
  unfold request
  split
  · exact Iff.rfl
  · split
    · exact Iff.rfl
    · exact same _

theorem call_remembered (σ : Bridge) (action : Action) (text : String) (dns : Resolver)
    (fails : Option StartStep) (raises : Option String) (supported : action ≠ .unsupported) :
    Remembered (conduitCall quote σ action text dns fails raises).2 ↔ Remembered (σ.start fails).2 := by
  rcases conduitCall_cases quote σ action text dns fails raises with ⟨-, rfl⟩ | ⟨-, more, same, -⟩
  · contradiction
  · rw [same]
    exact ⟨fun r => ⟨r.drivers, r.browsers⟩, fun r => ⟨r.drivers, r.browsers⟩⟩

theorem step_remembered_iff (σ : Bridge) (event : Event) (remembered : Remembered σ) :
    (!forgets σ event) = true ↔ Remembered (step quote σ event) := by
  cases event with
  | request page url dns asked => exact iff_of_true rfl ((request_fields σ page url dns asked).mpr remembered)
  | stop closing stopping =>
    exact iff_of_true rfl ((close_remembered_iff σ closing stopping).mp remembered)
  | call action text dns fails raises =>
    rw [forgets, Bool.not_eq_true', step]
    by_cases supported : action = .unsupported
    · rw [supported]
      exact iff_of_true rfl remembered
    · rw [call_remembered quote σ action text dns fails raises supported, bne_iff_ne.mpr supported,
        Bool.true_and]
      exact start_remembered_iff σ fails remembered

theorem step_remembered_before (σ : Bridge) (event : Event)
    (remembered : Remembered (step quote σ event)) : Remembered σ := by
  cases event with
  | request page url dns asked => exact (request_fields σ page url dns asked).mp remembered
  | stop closing stopping => exact (close_remembered_iff σ closing stopping).mpr remembered
  | call action text dns fails raises =>
    by_cases supported : action = .unsupported
    · rwa [supported] at remembered
    · rw [step, call_remembered quote σ action text dns fails raises supported] at remembered
      exact start_remembered_before σ fails remembered

theorem closed_remembered_iff (σ : Bridge) (closing stopping : Ending) (closed : closing ≠ .cancelled)
    (stopped : stopping ≠ .cancelled) : Remembered (σ.close closing stopping) ↔
      (∀ asked ∈ (σ.close closing stopping).drivers, asked = true) ∧
        ∀ asked ∈ (σ.close closing stopping).browsers, asked = true := by
  have emptied : (σ.close closing stopping).playwright = none ∧
      (σ.close closing stopping).browser = none := by
    unfold Bridge.close
    rw [if_neg fun held => closed held.2, if_neg fun held => stopped held.2]
    exact ⟨rfl, rfl⟩
  have none_kept : ∀ asked : List Bool, Kept none asked ↔ ∀ a ∈ asked, a = true := by
    intro asked
    constructor
    · intro kept a member
      obtain ⟨k, there⟩ := List.mem_iff_getElem?.mp member
      rcases a with _ | _
      · cases kept k there
      · rfl
    · intro every k unasked
      cases every false (List.mem_of_getElem? unasked)
  constructor
  · rintro ⟨drivers, browsers⟩
    rw [emptied.1] at drivers
    rw [emptied.2] at browsers
    exact ⟨(none_kept _).mp drivers, (none_kept _).mp browsers⟩
  · rintro ⟨drivers, browsers⟩
    refine ⟨?_, ?_⟩
    · rw [emptied.1]
      exact (none_kept _).mpr drivers
    · rw [emptied.2]
      exact (none_kept _).mpr browsers

/-- After a `stop` that was not cancelled every driver and every Chromium of the job was asked to end,
exactly when no start was made behind one that had failed with its driver running. -/
theorem stop_reaches_all (events : List Event) (closing stopping : Ending)
    (closed : closing ≠ .cancelled) (stopped : stopping ≠ .cancelled) :
    let σ := Runs.run (step quote) fresh (events ++ [.stop closing stopping])
    ((∀ asked ∈ σ.drivers, asked = true) ∧ ∀ asked ∈ σ.browsers, asked = true) ↔
      Runs.Guarded (step quote) (fun σ event => !forgets σ event) fresh events = true := by
  dsimp only
  rw [Runs.run_append, Runs.run_cons, Runs.run_nil, step,
    ← closed_remembered_iff _ closing stopping closed stopped, ← close_remembered_iff]
  refine (Runs.guarded_iff (step quote) (fun _ => True) Remembered _ (fun _ _ _ => trivial)
    (fun σ event _ => step_remembered_iff quote σ event)
    (fun σ event _ => step_remembered_before quote σ event) events fresh trivial ⟨?_, ?_⟩).symm
  all_goals exact fun _ unasked => by contradiction

end

/-- A start that fails in `new_page`, and the next call: the stop reaches the second Chromium only. -/
theorem stop_reaches_all_retried :
    let failed : Event := .call .click "" numericResolver (some .newPage) (some "Error")
    let retried : Event := .call .click "" numericResolver none none
    let σ := Runs.run (step id) fresh ([failed, retried] ++ [.stop .returned .exception])
    σ.browsers = [false, true] ∧
      ¬((∀ asked ∈ σ.drivers, asked = true) ∧ ∀ asked ∈ σ.browsers, asked = true) :=
  ⟨rfl, mt (stop_reaches_all id _ .returned .exception (by decide) (by decide)).mp (by decide)⟩

end GenesisAgents.BrowserBridge
