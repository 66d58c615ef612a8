import GenesisAgents.Gateway
import GenesisAgents.Library.IpLiterals

/-! The two guards against requests to private hosts: `_assert_safe_url` of the verifier decides on the
addresses of the host, `_assert_not_ssrf` of the gateway on its text. -/

namespace GenesisAgents.UrlGuards

open IpLiterals

/-! `urlparse(url).hostname` -/

def controlOrSpace (c : Char) : Bool := c.toNat ≤ 32

def unsafeUrlChars : List Char := ['\t', '\r', '\n']

def schemeChar (c : Char) : Bool :=
  c.isAlphanum || ['+', '-', '.'].contains c

def afterScheme (url : List Char) : List Char :=
  let scheme := url.takeWhile (· != ':')
  match url.drop scheme.length with
  | ':' :: rest => if scheme.head?.any Char.isAlpha && scheme.all schemeChar then rest else url
  | _ => url

def netlocOf (url : List Char) : List Char :=
  let stripped := (url.dropWhile controlOrSpace).filter fun c => !unsafeUrlChars.contains c
  match afterScheme stripped with
  | '/' :: '/' :: rest => rest.takeWhile fun c => !(['/', '?', '#'].contains c)
  | _ => []

/-- `_hostinfo[0]`: behind the last `@`, between brackets or before a colon. -/
def hostInfo (netloc : List Char) : List Char :=
  let hostinfo := (netloc.reverse.takeWhile (· != '@')).reverse
  if hostinfo.contains '[' then
    ((hostinfo.dropWhile (· != '[')).drop 1).takeWhile (· != ']')
  else hostinfo.takeWhile (· != ':')

/-- The address `ipaddress.ip_address` makes of a text. -/
inductive Address where
  | v4 (ip : Nat)
  | v6 (ip : Nat)
  deriving DecidableEq

/-- `info[4][0]` of an answer, and its address, which may not be one. -/
structure AddressInfo where
  addrStr : String
  address : Option Address

/-- How `socket.getaddrinfo` ends. -/
inductive Resolution where
  | gaierror
  /-- A name the codec refuses: a `UnicodeError`. -/
  | unencodable
  | found (infos : List AddressInfo)

/-- A numeric host, in the notations `getaddrinfo` takes. -/
def numericHost (host : String) : Option Address :=
  match readIpv4 host.toList with
  | some ip => some (.v4 ip)
  | none => (readIpv6 host.toList).map .v6

/-- The codec of host names takes labels of at most 63 characters, of which only the last may be empty. -/
def encodable (host : String) : Bool :=
  let labels := host.toList.splitOn '.'
  labels.all (fun label => label.length < 64) && labels.dropLast.all fun label => !label.isEmpty

structure Resolver where
  unicode : Value.Unicode
  /-- The checks of `urlsplit` on a network location; `false` when they raise. -/
  netlocValid : List Char → Bool
  getaddrinfo : String → Resolution
  /-- `str.lower` of an ASCII text. -/
  lower_ascii : ∀ s : String, (∀ c ∈ s.toList, c.toNat < 128) →
    unicode.lower s = String.ofList (s.toList.map Char.toLower)
  /-- A numeric host resolves to its address. -/
  numeric : ∀ host address, numericHost host = some address → encodable host = true →
    ∃ info infos, getaddrinfo host = .found (info :: infos) ∧
      ∀ other ∈ info :: infos, other.address = some address
  refusesLabels : ∀ host address, numericHost host = some address → encodable host = false →
    getaddrinfo host = .unencodable

section

variable (R : Resolver)

/-- `none` when `urlparse` raises, `some none` for no host. -/
def hostname (url : String) : Option (Option String) :=
  let netloc := netlocOf url.toList
  if netloc.contains '[' != netloc.contains ']' then none
  else if !R.netlocValid netloc then none
  else
    let host := hostInfo netloc
    if host.isEmpty then some none
    else
      let name := host.takeWhile (· != '%')
      some (some (R.unicode.lower (String.ofList name) ++ String.ofList (host.drop name.length)))

end

/-! `ipaddress` of Python 3.12.0, the release of `runtime.txt` -/

def v4PrivateNetworks : List Network :=
  [⟨ipv4 0 0 0 0, 8⟩, ⟨ipv4 10 0 0 0, 8⟩, ⟨ipv4 127 0 0 0, 8⟩, ⟨ipv4 169 254 0 0, 16⟩,
   ⟨ipv4 172 16 0 0, 12⟩, ⟨ipv4 192 0 0 0, 29⟩, ⟨ipv4 192 0 0 170, 31⟩, ⟨ipv4 192 0 2 0, 24⟩,
   ⟨ipv4 192 168 0 0, 16⟩, ⟨ipv4 198 18 0 0, 15⟩, ⟨ipv4 198 51 100 0, 24⟩, ⟨ipv4 203 0 113 0, 24⟩,
   ⟨ipv4 240 0 0 0, 4⟩, ⟨ipv4 255 255 255 255, 32⟩]

def ipv6Prefix (groups : List Nat) : Nat := ipv6 (groups ++ List.replicate (8 - groups.length) 0)

def v6PrivateNetworks : List Network :=
  [⟨1, 128⟩, ⟨0, 128⟩, ⟨ipv6Prefix [0, 0, 0, 0, 0, 0xffff], 96⟩, ⟨ipv6Prefix [0x100], 64⟩,
   ⟨ipv6Prefix [0x2001], 23⟩, ⟨ipv6Prefix [0x2001, 2], 48⟩, ⟨ipv6Prefix [0x2001, 0xdb8], 32⟩,
   ⟨ipv6Prefix [0x2001, 0x10], 28⟩, ⟨ipv6Prefix [0xfc00], 7⟩, ⟨ipv6Prefix [0xfe80], 10⟩]

def isPrivateV4 (ip : Nat) : Bool := v4PrivateNetworks.any (·.contains 32 ip)

/-- `is_private`; a mapped address is what its IPv4 address is. -/
def isPrivate : Address → Bool
  | .v4 ip => isPrivateV4 ip
  | .v6 ip =>
    if ip / 2 ^ 32 = 0xffff then isPrivateV4 (ip % 2 ^ 32)
    else v6PrivateNetworks.any (·.contains 128 ip)

def isLoopback : Address → Bool
  | .v4 ip => Network.contains 32 ⟨ipv4 127 0 0 0, 8⟩ ip
  | .v6 ip => ip == 1

def isLinkLocal : Address → Bool
  | .v4 ip => Network.contains 32 ⟨ipv4 169 254 0 0, 16⟩ ip
  | .v6 ip => Network.contains 128 ⟨ipv6Prefix [0xfe80], 10⟩ ip

def internal (address : Address) : Bool := isPrivate address || isLoopback address || isLinkLocal address

section

variable (R : Resolver)

/-- What `_assert_safe_url` raises; all are `ValueError`s. -/
inductive UnsafeUrl where
  | invalidUrl
  | unencodable
  | unresolved (host : String)
  | blocked (url addrStr : String)

def UnsafeUrl.message : UnsafeUrl → Option String
  | unresolved host => some ("DNS resolution failed for host: " ++ Value.reprStr R.unicode host)
  | blocked url addrStr => some ("Blocked: " ++ Value.reprStr R.unicode url ++
      " resolved to private/loopback IP " ++ addrStr)
  | _ => none

/-- `_assert_safe_url` -/
def assertSafeUrl (url : String) : Except UnsafeUrl Unit :=
  match hostname R url with
  | none => .error .invalidUrl
  | some host =>
    let host := host.getD ""
    match R.getaddrinfo host with
    | .gaierror => .error (.unresolved host)
    | .unencodable => .error .unencodable
    | .found infos =>
      match infos.find? fun info => info.address.any internal with
      | some info => .error (.blocked url info.addrStr)
      | none => .ok ()

def gatewayHere (D : Deployment) : Deployment :=
  { D with urlHost := fun url => (hostname R url).map fun host => R.unicode.lower (host.getD "") }

/-- Both guards, on one URL: a private address that the verifier refuses is refused by the gateway. -/
def GuardsAgree (D : Deployment) (url : String) : Prop :=
  (∃ addrStr, assertSafeUrl R url = .error (.blocked url addrStr)) →
    ∃ detail, assertNotSsrf (gatewayHere R D) (.str url) = .error ⟨400, detail⟩

end

end GenesisAgents.UrlGuards
