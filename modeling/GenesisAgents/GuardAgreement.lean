import GenesisAgents.UrlGuards
import GenesisAgents.Library.SeparatedPaths

/-! When the gateway refuses the internal addresses that the verifier refuses: what the prefixes of the
gateway say about the text of a numeric host, and which addresses are written that way. -/

namespace GenesisAgents.UrlGuards

open IpLiterals

def privateStarts : List (List String) :=
  [["127"], ["0"], ["10"], ["192", "168"], ["172", "16"], ["172", "17"], ["172", "18"], ["172", "19"],
   ["172", "20"], ["172", "21"], ["172", "22"], ["172", "23"], ["172", "24"], ["172", "25"],
   ["172", "26"], ["172", "27"], ["172", "28"], ["172", "29"], ["172", "30"], ["172", "31"]]

def joined (labels : List String) : List Char := ['.'].intercalate (labels.map String.toList)

def dotted (labels : List String) : String := String.ofList (joined labels ++ ['.'])

def StartsPrivate (text : List Char) : Prop :=
  ∃ labels ∈ privateStarts, labels.map String.toList <+: text.splitOn '.'

theorem ssrfBlockedPrefixes_eq : ssrfBlockedPrefixes =
    "localhost" :: privateStarts.map dotted ++ ["::1", "fe80:"] := by decide

theorem rstripDots_joined : ∀ labels ∈ privateStarts,
    rstripDots (dotted labels) = String.ofList (joined labels) := by decide

theorem privateStarts_free : ∀ labels ∈ privateStarts,
    labels.map String.toList ≠ [] ∧ ∀ part ∈ labels.map String.toList, '.' ∉ part := by decide

def blockedBy (host blocked : String) : Bool :=
  host == rstripDots blocked || blocked.toList.isPrefixOf host.toList

theorem blockedBy_joined (host : String) (labels : List String) (listed : labels ∈ privateStarts) :
    blockedBy host (dotted labels) = true ↔ labels.map String.toList <+: host.toList.splitOn '.' := by
  rcases privateStarts_free labels listed with ⟨filled, free⟩
  have equal : host = String.ofList (joined labels) ↔ host.toList = joined labels := by
    rw [← String.toList_inj, String.toList_ofList]
  rw [← SeparatedPaths.joined_prefix_iff '.' _ host.toList filled free, blockedBy,
    rstripDots_joined labels listed, Bool.or_eq_true, beq_iff_eq, equal, List.isPrefixOf_iff_prefix,
    dotted, String.toList_ofList]
  rfl

theorem blockedBy_plain (host blocked : String) (plain : rstripDots blocked = blocked) :
    blockedBy host blocked = true ↔ blocked.toList <+: host.toList := by
  rw [blockedBy, plain, Bool.or_eq_true, beq_iff_eq, List.isPrefixOf_iff_prefix]
  refine or_iff_right_of_imp ?_
  rintro rfl
  exact List.prefix_rfl

theorem blocked_iff (host : String) : ssrfBlockedPrefixes.any (blockedBy host) = true ↔
    StartsPrivate host.toList ∨ "localhost".toList <+: host.toList ∨ "::1".toList <+: host.toList ∨
      "fe80:".toList <+: host.toList := by
  have starts : (privateStarts.map dotted).any (blockedBy host) = true ↔ StartsPrivate host.toList := by
    rw [List.any_map, List.any_eq_true, StartsPrivate]
    simp only [Function.comp_apply]
    constructor
    · rintro ⟨labels, listed, blocked⟩
      exact ⟨labels, listed, (blockedBy_joined host labels listed).mp blocked⟩
    · rintro ⟨labels, listed, starts⟩
      exact ⟨labels, listed, (blockedBy_joined host labels listed).mpr starts⟩
  have loopback := blockedBy_plain host "::1" (by decide)
  have linkLocal := blockedBy_plain host "fe80:" (by decide)
  rw [ssrfBlockedPrefixes_eq, List.any_append, List.any_cons, List.any_cons, List.any_cons, List.any_nil,
    Bool.or_eq_true, Bool.or_eq_true, Bool.or_eq_true, Bool.or_eq_true, starts, loopback, linkLocal,
    blockedBy_plain host "localhost" (by decide), or_iff_left Bool.false_ne_true, or_assoc,
    or_left_comm]

section

variable (R : Resolver) (D : Deployment)

theorem gateway_refuses_iff (url : String) (host : String) (parsed : hostname R url = some (some host)) :
    (∃ detail, assertNotSsrf (gatewayHere R D) (.str url) = .error ⟨400, detail⟩) ↔
      ssrfBlockedPrefixes.any (blockedBy (R.unicode.lower host)) = true := by
  have read : (gatewayHere R D).urlHost url = some (R.unicode.lower host) :=
    congrArg (Option.map fun host : Option String => R.unicode.lower (host.getD "")) parsed
  rw [assertNotSsrf, read]
  change (∃ detail, (if ssrfBlockedPrefixes.any (blockedBy (R.unicode.lower host)) = true then
    Except.error _ else Except.ok ()) = Except.error (Refusal.mk 400 detail)) ↔ _
  cases ssrfBlockedPrefixes.any (blockedBy (R.unicode.lower host)) with
  | true => exact iff_of_true ⟨_, rfl⟩ rfl
  | false => exact iff_of_false (by rintro ⟨detail, refused⟩; contradiction) Bool.false_ne_true

theorem verifier_refuses_iff (url host : String) (address : Address)
    (parsed : hostname R url = some (some host)) (literal : numericHost host = some address) :
    (∃ addrStr, assertSafeUrl R url = .error (.blocked url addrStr)) ↔
      encodable host = true ∧ internal address = true := by
  rw [assertSafeUrl, parsed]
  cases short : encodable host with
  | false =>
    simp only [Option.getD_some, R.refusesLabels host address literal short]
    refine iff_of_false ?_ (by simp)
    rintro ⟨addrStr, blocked⟩
    cases Except.error.inj blocked
  | true =>
    rcases R.numeric host address literal short with ⟨info, infos, found, same⟩
    simp only [Option.getD_some, found, true_and]
    cases refused : internal address with
    | false =>
      have safe : (info :: infos).find? (fun info => info.address.any internal) = none := by
        rw [List.find?_eq_none]
        intro other member
        rw [same other member, Option.any_some, refused]
        exact Bool.false_ne_true
      rw [safe]
      exact iff_of_false (by rintro ⟨addrStr, blocked⟩; contradiction) Bool.false_ne_true
    | true =>
      have first : (info :: infos).find? (fun info => info.address.any internal) = some info := by
        refine List.find?_cons_of_pos ?_
        rw [same info List.mem_cons_self, Option.any_some, refused]
      rw [first]
      exact iff_of_true ⟨info.addrStr, rfl⟩ rfl

theorem numericHost_cases (host : String) (address : Address) (literal : numericHost host = some address) :
    (∃ ip, address = .v4 ip ∧ readIpv4 host.toList = some ip) ∨
      ∃ ip, address = .v6 ip ∧ readIpv6 host.toList = some ip := by
  unfold numericHost at literal
  split at literal
  · rename_i ip read
    exact .inl ⟨ip, (Option.some.inj literal).symm, read⟩
  · rcases Option.map_eq_some_iff.mp literal with ⟨ip, read, same⟩
    exact .inr ⟨ip, same.symm, read⟩

def lowered (host : String) : List Char := host.toList.map Char.toLower

theorem lower_numericHost (host : String) (address : Address) (literal : numericHost host = some address) :
    (R.unicode.lower host).toList = lowered host := by
  have plain : ∀ c ∈ host.toList, addressChar c = true := by
    rcases numericHost_cases host address literal with ⟨ip, -, read⟩ | ⟨ip, -, read⟩
    · intro c member
      rcases readIpv4_all _ ip read c member with number | rfl
      · rw [addressChar, number, Bool.true_or, Bool.true_or]
      · decide
    · exact readIpv6_all _ ip read
  rw [R.lower_ascii host fun c member => addressChar_ascii c (plain c member), String.toList_ofList, lowered]

end

/-- No prefix with a colon fits an IPv4 host, nor does a name. -/
theorem v4_blocked_iff (host : String) (ip : Nat) (read : readIpv4 host.toList = some ip) :
    (StartsPrivate (lowered host) ∨ "localhost".toList <+: lowered host ∨ "::1".toList <+: lowered host ∨
      "fe80:".toList <+: lowered host) ↔ StartsPrivate (lowered host) := by
  have chars : ∀ c ∈ lowered host, c ∈ 'x' :: '.' :: digits := by
    intro c member
    rcases List.mem_map.mp member with ⟨d, inside, rfl⟩
    rcases readIpv4_all _ ip read d inside with number | rfl
    · rw [numberChar, Bool.or_eq_true, beq_iff_eq] at number
      rcases number with digit | x
      · exact List.mem_cons_of_mem _ (List.mem_cons_of_mem _ (toLower_mem_digits d digit))
      · rw [x]
        exact List.mem_cons_self
    · decide
  have foreign (text : String) (c : Char) (inside : c ∈ text.toList) (apart : c ∉ 'x' :: '.' :: digits) :
      ¬text.toList <+: lowered host := fun starts => apart (chars c (starts.subset inside))
  have name := foreign "localhost" 'l' (by decide) (by decide)
  have loopback := foreign "::1" ':' (by decide) (by decide)
  have linkLocal := foreign "fe80:" ':' (by decide) (by decide)
  tauto

theorem startsPrivate_digits : ∀ labels ∈ privateStarts, ∃ first rest, labels = first :: rest ∧
    ':' ∉ first.toList := by
  have every : ∀ labels ∈ privateStarts, ':' ∉ (labels.headD "").toList ∧ labels ≠ [] := by decide
  intro labels listed
  rcases every labels listed with ⟨free, filled⟩
  cases labels with
  | nil => contradiction
  | cons first rest => exact ⟨first, rest, rfl, free⟩

theorem v6_not_startsPrivate (host : String) (ip : Nat) (read : readIpv6 host.toList = some ip) :
    ¬StartsPrivate (lowered host) := by
  rintro ⟨labels, listed, ⟨others, parts⟩⟩
  rcases startsPrivate_digits labels listed with ⟨label, rest, rfl, free⟩
  rcases readIpv6_colon _ ip read with ⟨first, tail, text, digit⟩
  have split := splitOn_first '.' (lowered host) label.toList _ parts.symm
  have dotless : '.' ∉ first.map Char.toLower := by
    intro member
    rcases List.mem_map.mp member with ⟨c, inside, same⟩
    have listed := toLower_mem_digits c (digit c inside)
    rw [same] at listed
    exact absurd listed (by decide)
  rw [lowered, text, List.map_append, List.map_cons] at split
  have colon : Char.toLower ':' = ':' := rfl
  rw [colon, List.append_eq_append_iff] at split
  rcases split with ⟨more, longer, behind⟩ | ⟨more, longer, behind⟩
  · cases more with
    | nil => split at behind <;> simp at behind
    | cons c more =>
      rw [List.cons_append] at behind
      rw [← (List.cons.inj behind).1] at longer
      exact free (longer ▸ List.mem_append_right _ List.mem_cons_self)
  · cases more with
    | nil => split at behind <;> simp at behind
    | cons c more =>
      split at behind
      · contradiction
      · rw [List.cons_append] at behind
        rw [← (List.cons.inj behind).1] at longer
        exact dotless (longer ▸ List.mem_append_right _ List.mem_cons_self)

theorem v6PrivateNetworks_eq : v6PrivateNetworks =
    [⟨1, 128⟩, ⟨0, 128⟩, ⟨0xffff * 2 ^ 32, 96⟩, ⟨0x100 * 2 ^ 112, 64⟩, ⟨0x2001 * 2 ^ 112, 23⟩,
     ⟨0x20010002 * 2 ^ 96, 48⟩, ⟨0x20010db8 * 2 ^ 96, 32⟩, ⟨0x20010010 * 2 ^ 96, 28⟩,
     ⟨0xfc00 * 2 ^ 112, 7⟩, ⟨0xfe80 * 2 ^ 112, 10⟩] := by decide

theorem linkLocal_base : ipv6Prefix [0xfe80] = 0xfe80 * 2 ^ 112 := by decide

/-- The internal addresses whose first group is zero. -/
theorem internal_v6_low (ip : Nat) (low : ip < 2 ^ 112) (private_ : internal (.v6 ip) = true) :
    ip = 0 ∨ ip = 1 ∨ ip / 2 ^ 32 = 0xffff := by
  by_contra others
  push Not at others
  rcases others with ⟨zero, one, mapped⟩
  simp only [internal, isPrivate, if_neg mapped, isLoopback, isLinkLocal, v6PrivateNetworks_eq,
    linkLocal_base, Network.contains, List.any_cons, List.any_nil, Bool.or_eq_true, beq_iff_eq] at private_
  norm_num at private_
  omega

theorem internal_one (host : String) (ip : Nat) (read : readIpv6 host.toList = some ip)
    (private_ : internal (.v6 ip) = true) (starts : "::1".toList <+: lowered host) : host = "::1" := by
  rcases readIpv6_one _ ip read starts with ⟨k, v, r, short, rfl, small, positive, high, alone⟩
  have low : v * 65536 ^ k + r < 2 ^ 112 := by interval_cases k <;> omega
  rcases internal_v6_low _ low private_ with zero | one | mapped
  · interval_cases k <;> omega
  · have last : k = 0 ∧ v = 1 := by interval_cases k <;> omega
    exact String.toList_inj.mp (alone last.1 last.2)
  · interval_cases k <;> omega

/-- How an internal address is written where the gateway refuses it too. -/
def Covered (host : String) : Address → Prop
  | .v4 _ => StartsPrivate (lowered host)
  | .v6 ip => ip / 2 ^ 112 = 0xfe80 ∨ host = "::1"

theorem v6_blocked_iff (host : String) (ip : Nat) (read : readIpv6 host.toList = some ip)
    (private_ : internal (.v6 ip) = true) :
    (StartsPrivate (lowered host) ∨ "localhost".toList <+: lowered host ∨ "::1".toList <+: lowered host ∨
      "fe80:".toList <+: lowered host) ↔ Covered host (.v6 ip) := by
  have starts := v6_not_startsPrivate host ip read
  have name : ¬"localhost".toList <+: lowered host := by
    rcases readIpv6_colon _ ip read with ⟨first, tail, text, digit⟩
    rintro ⟨others, same⟩
    rw [lowered, text] at same
    cases first with
    | nil => exact absurd (List.cons.inj same).1 (by decide)
    | cons c first =>
      have listed := toLower_mem_digits c (digit c List.mem_cons_self)
      rw [← (List.cons.inj same).1] at listed
      exact absurd listed (by decide)
  rw [or_iff_right starts, or_iff_right name, Covered, lowered, readIpv6_fe80 _ ip read, or_comm]
  refine or_congr_right ⟨internal_one host ip read private_, ?_⟩
  rintro rfl
  decide

/-- At a numeric host the guards agree exactly when the name is not encodable, the address not internal or
its text covered. -/
theorem guards_agree_iff (R : Resolver) (D : Deployment) (url host : String) (address : Address)
    (parsed : hostname R url = some (some host)) (literal : numericHost host = some address) :
    GuardsAgree R D url ↔ (encodable host = true → internal address = true → Covered host address) := by
  rw [GuardsAgree, verifier_refuses_iff R url host address parsed literal,
    gateway_refuses_iff R D url host parsed, blocked_iff, lower_numericHost R host address literal, and_imp]
  refine imp_congr_right fun _ => imp_congr_right fun private_ => ?_
  rcases numericHost_cases host address literal with ⟨ip, rfl, read⟩ | ⟨ip, rfl, read⟩
  · exact v4_blocked_iff host ip read
  · exact v6_blocked_iff host ip read private_

def numericResolver : Resolver where
  unicode := { lower := fun s => String.ofList (s.toList.map Char.toLower), printable := fun _ => true }
  netlocValid _ := true
  getaddrinfo host :=
    if encodable host then
      (numericHost host).elim .gaierror fun address => .found [⟨host, some address⟩]
    else .unencodable
  lower_ascii _ _ := rfl
  refusesLabels _ _ _ long := by rw [if_neg (by rw [long]; exact Bool.false_ne_true)]
  numeric host address literal short := by
    rw [if_pos short, literal]
    refine ⟨⟨host, some address⟩, [], rfl, fun other member => ?_⟩
    rw [List.mem_singleton.mp member]

/-- A loopback address in the usual form passes neither guard. -/
theorem loopback_guards_agree :
    GuardsAgree numericResolver researchDeployment "http://127.0.0.1:8080/admin" :=
  (guards_agree_iff numericResolver researchDeployment "http://127.0.0.1:8080/admin" "127.0.0.1"
    (.v4 (ipv4 127 0 0 1)) (by decide) (by decide +kernel)).mpr
    fun _ _ => ⟨["127"], by decide, by decide⟩

/-- The metadata service of a cloud is link-local, and no prefix of the gateway is about it. -/
theorem link_local_guards_disagree :
    ¬∀ (R : Resolver) (D : Deployment) (url host : String) (address : Address),
    hostname R url = some (some host) → numericHost host = some address → GuardsAgree R D url := by
  intro agree
  have parsed : hostname numericResolver "http://169.254.169.254/latest/meta-data" =
    some (some "169.254.169.254") := by decide
  have literal : numericHost "169.254.169.254" = some (.v4 (ipv4 169 254 169 254)) := by decide
  have refused := (verifier_refuses_iff numericResolver _ _ _ parsed literal).mpr (by decide)
  have blocked := (gateway_refuses_iff numericResolver researchDeployment _ _ parsed).mp
    (agree numericResolver researchDeployment _ _ _ parsed literal refused)
  exact absurd blocked (by decide)

def quadText (bytes : List Nat) : List Char := joined (bytes.map Nat.repr)

theorem splitOn_quadText (bytes : List Nat) (filled : bytes ≠ []) :
    (quadText bytes).splitOn '.' = bytes.map fun n => n.repr.toList := by
  have free : ∀ part ∈ (bytes.map Nat.repr).map String.toList, '.' ∉ part := by
    intro part member
    rw [List.map_map, List.mem_map] at member
    rcases member with ⟨n, -, rfl⟩
    exact DecimalText.repr_free n '.' (by decide)
  rw [quadText, joined, List.splitOn_intercalate '.' free (by simpa using filled), List.map_map]
  rfl

theorem lowered_quadText (bytes : List Nat) (filled : bytes ≠ []) :
    lowered (String.ofList (quadText bytes)) = quadText bytes := by
  rw [lowered, String.toList_ofList]
  refine (List.map_congr_left fun c member => ?_).trans (List.map_id _)
  rcases mem_splitOn '.' _ c member with rfl | ⟨part, found, inside⟩
  · rfl
  · rw [splitOn_quadText bytes filled, List.mem_map] at found
    rcases found with ⟨n, listed, rfl⟩
    exact toLower_of_isDigit c (DecimalText.repr_digits n c inside)

def privateBytes : List (List Nat) :=
  [[127], [0], [10], [192, 168]] ++ (List.range' 16 16).map fun n => [172, n]

theorem privateStarts_eq : privateStarts = privateBytes.map fun bytes => bytes.map Nat.repr := by
  decide

theorem startsPrivate_quadText_iff (bytes : List Nat) (filled : bytes ≠ []) :
    StartsPrivate (quadText bytes) ↔ ∃ front ∈ privateBytes, front <+: bytes := by
  have injective : Function.Injective fun n : Nat => n.repr.toList :=
    fun m n same => DecimalText.repr_inj m n (String.toList_inj.mp same)
  have fits (front : List Nat) :
      (front.map Nat.repr).map String.toList <+: bytes.map (fun n => n.repr.toList) ↔ front <+: bytes := by
    rw [List.map_map]
    exact List.prefix_map_iff_of_injective injective
  rw [StartsPrivate, splitOn_quadText bytes filled, privateStarts_eq]
  simp only [List.mem_map, exists_exists_and_eq_and, fits]

theorem quad_startsPrivate_iff (a b c d : Nat) : StartsPrivate (quadText [a, b, c, d]) ↔
    a = 0 ∨ a = 10 ∨ a = 127 ∨ (a = 172 ∧ 16 ≤ b ∧ b ≤ 31) ∨ (a = 192 ∧ b = 168) := by
  have fronts : (∃ front ∈ privateBytes, front <+: [a, b, c, d]) ↔ 127 = a ∨ 0 = a ∨ 10 = a ∨
      192 = a ∧ 168 = b ∨ (16 ≤ b ∧ b < 32) ∧ 172 = a := by
    simp [privateBytes, or_and_right, exists_or, List.cons_prefix_cons]
  rw [startsPrivate_quadText_iff _ (List.cons_ne_nil _ _), fronts]
  omega

def Missed (a b c d : Nat) : Prop :=
  (a = 169 ∧ b = 254) ∨ (a = 192 ∧ b = 0 ∧ c = 0 ∧ (d < 8 ∨ d = 170 ∨ d = 171)) ∨
    (a = 192 ∧ b = 0 ∧ c = 2) ∨ (a = 198 ∧ (b = 18 ∨ b = 19)) ∨ (a = 198 ∧ b = 51 ∧ c = 100) ∨
      (a = 203 ∧ b = 0 ∧ c = 113) ∨ 240 ≤ a

theorem internal_quad_iff (a b c d : Nat) (small : ∀ n ∈ [a, b, c, d], n < 256) :
    internal (.v4 (ipv4 a b c d)) = true ↔ StartsPrivate (quadText [a, b, c, d]) ∨ Missed a b c d := by
  simp only [List.forall_mem_cons, List.not_mem_nil, false_imp_iff, implies_true, and_true] at small
  rcases small with ⟨smallA, smallB, smallC, smallD⟩
  have within (length p q r s : Nat) (constants : ∀ n ∈ [q, r, s], n < 256) :=
    contains_ipv4 length a b c d p q r s
      (by simpa using ⟨smallB, smallC, smallD, by simpa using constants⟩)
  have mid : b / 16 = 1 ↔ 16 ≤ b ∧ b ≤ 31 := by omega
  have low : d / 8 = 0 ↔ d < 8 := by omega
  have half : d / 2 = 85 ↔ d = 170 ∨ d = 171 := by omega
  have pair : b / 2 = 9 ↔ b = 18 ∨ b = 19 := by omega
  have high : a / 16 = 15 ↔ 240 ≤ a := by omega
  simp only [internal, isPrivate, isPrivateV4, isLoopback, isLinkLocal, v4PrivateNetworks, List.any_cons,
    List.any_nil, Bool.or_eq_true, quad_startsPrivate_iff, Missed]
  simp (disch := decide) only [within]
  norm_num only
  simp (disch := omega) only [mid, low, half, pair, high, Nat.div_eq_of_lt, Nat.div_one, and_true]
  clear within mid low half pair high
  constructor
  · rintro ((networks | rfl) | ⟨rfl, rfl⟩)
    · rcases networks with rfl | rfl | rfl | ⟨rfl, rfl⟩ | ⟨rfl, mid⟩ | ⟨rfl, rfl, rfl, low⟩ |
        ⟨rfl, rfl, rfl, half⟩ | ⟨rfl, rfl, rfl⟩ | ⟨rfl, rfl⟩ | ⟨rfl, pair⟩ | ⟨rfl, rfl, rfl⟩ |
        ⟨rfl, rfl, rfl⟩ | high | ⟨rfl, -⟩ | no
      all_goals simp_all
    · simp
    · simp
  · rintro ((rfl | rfl | rfl | ⟨rfl, mid⟩ | ⟨rfl, rfl⟩) | ⟨rfl, rfl⟩ | ⟨rfl, rfl, rfl, low | half⟩ |
      ⟨rfl, rfl, rfl⟩ | ⟨rfl, pair⟩ | ⟨rfl, rfl, rfl⟩ | ⟨rfl, rfl, rfl⟩ | high)
    all_goals simp_all

/-- A dotted quad is covered exactly outside the missed networks. -/
theorem covered_quad_iff (a b c d : Nat) (small : ∀ n ∈ [a, b, c, d], n < 256) :
    (internal (.v4 (ipv4 a b c d)) = true →
      Covered (String.ofList (quadText [a, b, c, d])) (.v4 (ipv4 a b c d))) ↔ ¬Missed a b c d := by
  have apart : Missed a b c d → ¬StartsPrivate (quadText [a, b, c, d]) := by
    rw [Missed, quad_startsPrivate_iff]
    omega
  rw [Covered, lowered_quadText _ (List.cons_ne_nil _ _), internal_quad_iff a b c d small]
  tauto

end GenesisAgents.UrlGuards
