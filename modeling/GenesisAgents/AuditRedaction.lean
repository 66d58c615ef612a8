import GenesisAgents.UrlGuards
import GenesisAgents.JsonLoads
import GenesisAgents.AuditLog

/-! `_sanitize` of `audit.py` down to the characters: the query of a URL is read and written again, and what
looks like a credential is masked. -/

namespace GenesisAgents.AuditRedaction

open Value UrlGuards

structure Redactor where
  sha256 : String → String
  lower : String → String
  lower_empty : lower "" = ""
  /-- The other checks of `urlsplit` on a network location; `false` when they raise. -/
  netlocValid : List Char → Bool
  /-- `bytes.decode("utf-8", "replace")` -/
  decode : List UInt8 → List Char
  /-- `\w` of a character outside ASCII -/
  wordChar : Char → Bool

/-! `urlsplit` and `urlunsplit` -/

structure SplitUrl where
  scheme : List Char
  netloc : List Char
  path : List Char
  query : List Char
  fragment : List Char

/-- What stands before and behind the first `mark`. -/
def cut (mark : Char) (s : List Char) : List Char × List Char :=
  (s.takeWhile (· != mark), (s.dropWhile (· != mark)).drop 1)

def splitScheme (url : List Char) : List Char × List Char :=
  let scheme := url.takeWhile (· != ':')
  match url.drop scheme.length with
  | ':' :: rest =>
    if scheme.head?.any Char.isAlpha && scheme.all schemeChar then (scheme.map Char.toLower, rest)
    else ([], url)
  | _ => ([], url)

def endsNetloc (c : Char) : Bool := ['/', '?', '#'].contains c

/-- `_splitnetloc` -/
def splitNetloc (url : List Char) : List Char × List Char :=
  match url with
  | '/' :: '/' :: rest => (rest.takeWhile (!endsNetloc ·), rest.dropWhile (!endsNetloc ·))
  | _ => ([], url)

def safeUrlChar (c : Char) : Bool := !unsafeUrlChars.contains c

section

variable (R : Redactor)

def urlsplit (url : List Char) : Option SplitUrl :=
  let url := (url.dropWhile controlOrSpace).filter safeUrlChar
  let (scheme, url) := splitScheme url
  let (netloc, url) := splitNetloc url
  if netloc.contains '[' != netloc.contains ']' || !R.netlocValid netloc then none
  else
    let (url, fragment) := cut '#' url
    let (path, query) := cut '?' url
    some { scheme := scheme, netloc := netloc, path := path, query := query, fragment := fragment }

/-- `urlunsplit`; the schemes that get here are of `uses_netloc`. -/
def urlunsplit (parts : SplitUrl) : List Char :=
  let url :=
    if parts.netloc ≠ [] ∨ (parts.scheme ≠ [] ∧ ['/', '/'].isPrefixOf parts.path = false) then
      let path :=
        if parts.path ≠ [] ∧ parts.path.head? ≠ some '/' then '/' :: parts.path else parts.path
      '/' :: '/' :: parts.netloc ++ path
    else parts.path
  let url := if parts.scheme ≠ [] then parts.scheme ++ ':' :: url else url
  let url := if parts.query ≠ [] then url ++ '?' :: parts.query else url
  if parts.fragment ≠ [] then url ++ '#' :: parts.fragment else url

/-! `parse_qsl` and `urlencode` -/

/-- `unquote_to_bytes` of a text in ASCII -/
def unquoteBytes : List Char → List UInt8
  | [] => []
  | '%' :: a :: b :: rest =>
    match hexDigit? a, hexDigit? b with
    | some high, some low => UInt8.ofNat (high * 16 + low) :: unquoteBytes rest
    | _, _ => UInt8.ofNat '%'.toNat :: unquoteBytes (a :: b :: rest)
  | c :: rest => UInt8.ofNat c.toNat :: unquoteBytes rest

def isAscii (c : Char) : Bool := c.toNat < 128

/-- `unquote`: the runs of ASCII characters, decoded. -/
def unquote (s : List Char) : List Char :=
  if '%' ∉ s then s
  else (s.splitBy fun c d => isAscii c == isAscii d).flatMap fun run =>
    if run.head?.any isAscii then R.decode (unquoteBytes run) else run

def unquotePlus (s : List Char) : List Char := unquote R (s.map fun c => if c = '+' then ' ' else c)

def queryField (field : List Char) : Option (List Char × List Char) :=
  if field = [] then none
  else
    let (name, value) := cut '=' field
    some (unquotePlus R name, unquotePlus R value)

/-- `parse_qsl(query, keep_blank_values=True)` -/
def parseQsl (query : List Char) : List (List Char × List Char) :=
  (query.splitOn '&').filterMap (queryField R)

def alwaysSafe (c : Char) : Bool := c.isAlphanum || ['_', '.', '-', '~'].contains c

def upperHex (n : Nat) : Char := "0123456789ABCDEF".toList.getD n '0'

/-- `quote_plus` -/
def quotePlus (s : List Char) : List Char :=
  s.flatMap fun c =>
    if c = ' ' then ['+']
    else if alwaysSafe c then [c]
    else (String.utf8EncodeChar c).flatMap fun byte =>
      ['%', upperHex (byte.toNat / 16), upperHex (byte.toNat % 16)]

def urlencode (fields : List (List Char × List Char)) : List Char :=
  ['&'].intercalate (fields.map fun field => quotePlus field.1 ++ '=' :: quotePlus field.2)

/-! `_sanitize` -/

/-- `any(s in key.lower() for s in _SENSITIVE_KEYS)` -/
def isSensitive (key : String) : Bool := sensitiveKeys.any fun s => isSubstring s (R.lower key)

def redacted : List Char := "[REDACTED]".toList

/-- `clean_query` -/
def cleanQuery (query : List Char) : List (List Char × List Char) :=
  (parseQsl R query).map fun field =>
    (field.1, if isSensitive R (String.ofList field.1) then redacted else field.2)

/-- The URL with its clean query; `none` when `urlsplit` raises. -/
def cleanUrl (url : List Char) : Option (List Char) :=
  (urlsplit R url).map fun parts => urlunsplit { parts with query := urlencode (cleanQuery R parts.query) }

/-- `re.sub`, where the pattern is given by what follows a match at the head, behind a character. -/
def substitute (matchAt : Option Char → List Char → Option (List Char)) (replacement : List Char) :
    Nat → Option Char → List Char → List Char
  | 0, _, s => s
  | _ + 1, _, [] => []
  | fuel + 1, previous, c :: s =>
    match matchAt previous (c :: s) with
    | some rest =>
      let matched := (c :: s).take ((c :: s).length - rest.length)
      replacement ++ substitute matchAt replacement fuel matched.getLast? rest
    | none => c :: substitute matchAt replacement fuel (some c) s

/-- The class of the pattern under `(?i)`, which takes `ı`, `İ`, `ſ` and the Kelvin sign for letters. -/
def bearerChar (c : Char) : Bool :=
  c.isAlphanum || ['.', '_', '~', '+', '/', '-', 'ı', 'İ', 'ſ'].contains c || c.toNat == 0x212A

/-- `(?i)bearer\s+` and eight or more characters of the class -/
def bearerAt (_ : Option Char) (s : List Char) : Option (List Char) :=
  let rest := s.drop 6
  let token := rest.dropWhile isSpace
  if (s.take 6).map Char.toLower = "bearer".toList ∧ rest.head?.any isSpace ∧
      8 ≤ (token.takeWhile bearerChar).length then
    some (token.dropWhile bearerChar)
  else none

def isWord (c : Char) : Bool := if isAscii c then c.isAlphanum || c = '_' else R.wordChar c

def keyChar (c : Char) : Bool := c.isAlphanum || c = '_' || c = '-'

/-- `\bsk-(?:ant-)?[A-Za-z0-9_-]{8,}`; what is optional is of the class that follows it. -/
def keyAt (previous : Option Char) (s : List Char) : Option (List Char) :=
  let token := s.drop 3
  if !previous.any (isWord R) ∧ s.take 3 = "sk-".toList ∧ 8 ≤ (token.takeWhile keyChar).length then
    some (token.dropWhile keyChar)
  else none

def maskCredentials (s : List Char) : List Char :=
  let lower := strip (R.lower (String.ofList s))
  if ["bearer ", "sk-", "sk-ant-"].any fun start => start.toList.isPrefixOf lower.toList then redacted
  else
    let s := substitute bearerAt "Bearer [REDACTED]".toList (s.length + 1) none s
    substitute (keyAt R) redacted (s.length + 1) none s

/-- `value.startswith(("http://", "https://"))` -/
def startsHttp (s : List Char) : Bool := ["http://", "https://"].any fun start => start.toList.isPrefixOf s

/-- The string case of `_sanitize`; `none` when `urlsplit` raises. -/
def redactText (s : List Char) : Option (List Char) :=
  if startsHttp s then (cleanUrl R s).map (maskCredentials R) else some (maskCredentials R s)

def auditing : Auditing where
  sha256 := R.sha256
  lower := R.lower
  redactText s := String.ofList ((redactText R s.toList).getD s.toList)
  refusesText s := (redactText R s.toList).isNone

/-- `_sanitize` raises: a URL of a sanitised place has no valid network location. -/
def refuses (v : Value) : Bool := (auditing R).refuses v

/-- `_sanitize(value)` -/
def sanitize (v : Value) : Option Value := if refuses R v then none else some ((auditing R).sanitize "" v)

/-- `AuditLog.log` -/
def log (db : AuditDb) (call : LogCall) : Option AuditDb := db.log (auditing R) call

end

end GenesisAgents.AuditRedaction
