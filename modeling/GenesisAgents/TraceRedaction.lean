import GenesisAgents.Value
import GenesisAgents.Library.Regexes
import Mathlib.Data.Finset.Insert

/-! `redact_text` of `eval/redaction.py`: the registered secrets first, then the patterns. -/

namespace GenesisAgents.TraceRedaction

open Value MarkedText Regexes Regexes.Regex Letters

/-- A literal that `register_literal_secret` takes. -/
structure Secret where
  text : List Char
  /-- `_MIN_LITERAL_SECRET_LEN` -/
  long : 8 ≤ text.length
  deriving DecidableEq

/-- `\w` and `\d` outside ASCII -/
structure Classes where
  word : Char → Bool
  digit : Char → Bool

def redacted : List Char := "[redacted]".toList

/-- The small letter that `(?i)` takes a character for; `ı`, `İ`, `ſ` and the Kelvin sign are letters too. -/
def fold (c : Char) : Char :=
  if c = 'ı' ∨ c = 'İ' then 'i' else if c = 'ſ' then 's' else if c.toNat = 0x212A then 'k' else c.toLower

def isAscii (c : Char) : Bool := c.toNat < 128

section

variable (C : Classes)

def isWord (c : Char) : Bool := if isAscii c then c.isAlphanum || c == '_' else C.word c

def isDigit (c : Char) : Bool := if isAscii c then c.isDigit else C.digit c

def one (p : Char → Bool) : Regex := run p 1 (some 1)

/-- A word, as `same` compares its characters. -/
def literal (same : Char → Char → Bool) : List Char → Regex
  | [] => empty
  | c :: s => seq (one (same c)) (literal same s)

def sequence : List Regex → Regex := List.foldr seq empty

def exactly (c d : Char) : Bool := d == c

def ignoringCase (c d : Char) : Bool := fold d == c

def anyOf (s : String) (c : Char) : Bool := s.toList.contains c

/-- `[A-Za-z0-9]` and further characters -/
def alnumOr (s : String) (c : Char) : Bool := c.isAlphanum || anyOf s c

def keyword : Regex :=
  alt (sequence [literal ignoringCase "api".toList, run (anyOf "_-") 0 (some 1),
    literal ignoringCase "key".toList])
    (alt (literal ignoringCase "token".toList)
      (alt (literal ignoringCase "secret".toList) (literal ignoringCase "password".toList)))

/-- `['\"\s:=]` -/
def sepChar (c : Char) : Bool := anyOf "'\":=" c || isSpace c

/-- `[^,'\"\s}]` -/
def valueChar (c : Char) : Bool := !(anyOf ",'\"\x7d" c || isSpace c)

def keyed : Regex := seq (group keyword) (seq (group (run sepChar 1 none)) (group (run valueChar 1 none)))

/-- `_SECRET_PATTERNS` -/
def secretPatterns : List Regex := [
  keyed,
  sequence [boundary, group (seq (literal exactly "sk-".toList) (run (alnumOr "_-") 12 none)), boundary],
  sequence [boundary, literal ignoringCase "bearer".toList, run isSpace 1 none,
    run (fun c => alnumOr "._-" (fold c)) 1 none],
  sequence [boundary, literal exactly "eyJ".toList, run (alnumOr "_-") 8 none, one (exactly '.'),
    run (alnumOr "_-") 1 none, one (exactly '.'), run (alnumOr "_-") 1 none, boundary],
  sequence [boundary, literal exactly "gh".toList, one (anyOf "pousr"), one (exactly '_'),
    run Char.isAlphanum 20 none, boundary],
  sequence [boundary, literal exactly "xox".toList, one (anyOf "baprs"), one (exactly '-'),
    run (alnumOr "-") 10 none, boundary],
  sequence [boundary, literal exactly "AKIA".toList, run (fun c => c.isDigit || c.isUpper) 16 (some 16),
    boundary],
  sequence [boundary, run (isDigit C) 8 (some 12), one (exactly ':'), run (alnumOr "_-") 30 none, boundary],
  sequence [boundary, group (sequence [one fun c => (fold c).isAlpha,
    run (fun c => alnumOr "+.-" (fold c)) 0 none, literal exactly "://".toList]),
    group (run (fun c => !(anyOf "/:@" c || isSpace c)) 1 none), one (exactly ':'),
    group (run (fun c => !(anyOf "/@" c || isSpace c)) 1 none), one (exactly '@')]]

variable {α : Type} [Letters α]

/-- The registered secrets, in the order in which the set yields them. -/
def replaceSecrets (snapshot : List Secret) (text : List α) : List α :=
  snapshot.foldl (fun text secret =>
    if secret.text <:+: text.map char then replace secret.text redacted text else text) text

/-- `redact_text` -/
def redactText (snapshot : List Secret) (text : List α) : List α :=
  (secretPatterns C).foldl (fun text pattern =>
    let kept := if 3 ≤ pattern.groups then 2 else 0
    sub (isWord C) pattern kept redacted none 0 text) (replaceSecrets snapshot text)

/-- `safe_content` of a text, where content may be traced. -/
def safeContent (snapshot : List Secret) (text : List α) (limit : Nat) : List α :=
  (redactText C snapshot text).take limit

end

end GenesisAgents.TraceRedaction
