import GenesisAgents.Library.DecimalText
import GenesisAgents.Library.Delimited
import Mathlib.Tactic.IntervalCases
import Mathlib.Tactic.Linarith
import Mathlib.Tactic.Ring

/-! Numeric host addresses: IPv4 in numbers-and-dots notation, IPv6 in hexadecimal groups with at most one
gap, and networks of addresses with a common prefix. -/

namespace IpLiterals

def digits : List Char := "0123456789abcdef".toList

def digitValue (c : Char) : Option Nat := digits.idxOf? c.toLower

def ofDigits (base : Nat) (ds : List Nat) : Nat := ds.foldl (fun n d => n * base + d) 0

def readDigits (base : Nat) : List Char → Option (List Nat)
  | [] => some []
  | c :: cs => do
    let d ← digitValue c
    if d < base then
      let ds ← readDigits base cs
      some (d :: ds)
    else none

def numeral (base : Nat) (cs : List Char) : Option Nat :=
  if cs.isEmpty then none else (readDigits base cs).map (ofDigits base)

/-! IPv4: one to four numbers, decimal, octal behind `0` or hexadecimal behind `0x`; the last one fills
the bytes that are left. -/

def number : List Char → Option Nat
  | '0' :: 'x' :: cs => numeral 16 cs
  | '0' :: 'X' :: cs => numeral 16 cs
  | ['0'] => some 0
  | '0' :: cs => numeral 8 cs
  | cs => numeral 10 cs

def numbers : List (List Char) → Option (List Nat)
  | [] => some []
  | part :: rest => do
    let n ← number part
    let ns ← numbers rest
    some (n :: ns)

def ipv4 (a b c d : Nat) : Nat := ((a * 256 + b) * 256 + c) * 256 + d

def readIpv4 (s : List Char) : Option Nat :=
  match numbers (s.splitOn '.') with
  | some [d] => if d < 2 ^ 32 then some d else none
  | some [a, d] => if a < 256 ∧ d < 2 ^ 24 then some (ipv4 a 0 0 d) else none
  | some [a, b, d] => if a < 256 ∧ b < 256 ∧ d < 2 ^ 16 then some (ipv4 a b 0 d) else none
  | some [a, b, c, d] =>
    if a < 256 ∧ b < 256 ∧ c < 256 ∧ d < 256 then some (ipv4 a b c d) else none
  | _ => none

def group (cs : List Char) : Option Nat := if cs.length ≤ 4 then numeral 16 cs else none

def octet (cs : List Char) : Option Nat :=
  if cs.length ≤ 3 ∧ (cs.head? = some '0' → cs.length = 1) then
    (numeral 10 cs).filter fun n => n < 256
  else none

def quad (cs : List Char) : Option (List Nat) :=
  match cs.splitOn '.' with
  | [a, b, c, d] => do
    let a ← octet a
    let b ← octet b
    let c ← octet c
    let d ← octet d
    some [a * 256 + b, c * 256 + d]
  | _ => none

def readGroups (quads : Bool) : List (List Char) → Option (List Nat)
  | [] => some []
  | [part] => if quads && part.contains '.' then quad part else (group part).map fun g => [g]
  | part :: rest => do
    let g ← group part
    let gs ← readGroups quads rest
    some (g :: gs)

def readSide (quads : Bool) (s : List Char) : Option (List Nat) :=
  if s.isEmpty then some [] else readGroups quads (s.splitOn ':')

/-- What stands before and after the first `::`. -/
def splitGap : List Char → Option (List Char × List Char)
  | [] => none
  | [_] => none
  | c :: d :: rest =>
    if c = ':' ∧ d = ':' then some ([], rest)
    else (splitGap (d :: rest)).map fun sides => (c :: sides.1, sides.2)

def ipv6 (groups : List Nat) : Nat := groups.foldl (fun n g => n * 65536 + g) 0

def readIpv6 (s : List Char) : Option Nat :=
  match splitGap s with
  | some (front, back) => do
    let f ← readSide false front
    let b ← readSide true back
    if f.length + b.length ≤ 7 then
      some (ipv6 (f ++ List.replicate (8 - (f.length + b.length)) 0 ++ b))
    else none
  | none => do
    let g ← readGroups true (s.splitOn ':')
    if g.length = 8 then some (ipv6 g) else none

/-- The addresses of `width` bits that share the first `length` bits with the base. -/
structure Network where
  base : Nat
  length : Nat
  deriving DecidableEq

def Network.contains (width : Nat) (net : Network) (ip : Nat) : Bool :=
  ip / 2 ^ (width - net.length) == net.base / 2 ^ (width - net.length)

theorem digitValue_eq_some (c : Char) (d : Nat) (value : digitValue c = some d) :
    digits[d]? = some c.toLower := by
  rcases List.idxOf?_eq_some_iff.mp value with ⟨bound, same, -⟩
  rw [List.getElem?_eq_getElem bound, same]

theorem readDigits_cons (base : Nat) (c : Char) (cs : List Char) (ds : List Nat)
    (read : readDigits base (c :: cs) = some ds) :
    ∃ d rest, digitValue c = some d ∧ d < base ∧ readDigits base cs = some rest ∧ ds = d :: rest := by
  simp only [readDigits, Option.bind_eq_bind, Option.bind_eq_some_iff] at read
  rcases read with ⟨d, value, rest⟩
  split at rest
  · rename_i small
    rcases Option.bind_eq_some_iff.mp rest with ⟨others, more, same⟩
    exact ⟨d, others, value, small, more, (Option.some.inj same).symm⟩
  · contradiction

theorem readDigits_length (base : Nat) (cs : List Char) : ∀ ds, readDigits base cs = some ds →
    ds.length = cs.length := by
  induction cs with
  | nil =>
    intro ds read
    rw [← Option.some.inj read]
    rfl
  | cons c cs later =>
    intro ds read
    rcases readDigits_cons base c cs ds read with ⟨d, rest, -, -, more, rfl⟩
    rw [List.length_cons, List.length_cons, later rest more]

theorem readDigits_all (base : Nat) (cs : List Char) : ∀ ds, readDigits base cs = some ds →
    ∀ c ∈ cs, (digitValue c).isSome = true := by
  induction cs with
  | nil => exact fun _ _ c member => absurd member List.not_mem_nil
  | cons c cs later =>
    intro ds read
    rcases readDigits_cons base c cs ds read with ⟨d, rest, value, -, more, rfl⟩
    rw [List.forall_mem_cons]
    exact ⟨by rw [value]; rfl, later rest more⟩

theorem foldl_digits (base : Nat) (ds : List Nat) : ∀ n,
    ds.foldl (fun n d => n * base + d) n = n * base ^ ds.length + ofDigits base ds := by
  induction ds with
  | nil => simp [ofDigits]
  | cons d ds later =>
    intro n
    rw [ofDigits, List.foldl_cons, List.foldl_cons, later, later (0 * base + d), List.length_cons, pow_succ]
    ring

theorem ofDigits_cons (base d : Nat) (ds : List Nat) :
    ofDigits base (d :: ds) = d * base ^ ds.length + ofDigits base ds := by
  rw [ofDigits, List.foldl_cons, foldl_digits]
  ring

theorem ofDigits_lt (base : Nat) (ds : List Nat) (small : ∀ d ∈ ds, d < base) :
    ofDigits base ds < base ^ ds.length := by
  induction ds with
  | nil => simp [ofDigits]
  | cons d ds later =>
    rw [List.forall_mem_cons] at small
    have room : (d + 1) * base ^ ds.length ≤ base * base ^ ds.length := Nat.mul_le_mul_right _ small.1
    have rest := later small.2
    rw [ofDigits_cons, List.length_cons, pow_succ, Nat.mul_comm _ base]
    linarith

theorem readDigits_small (base : Nat) (cs : List Char) : ∀ ds, readDigits base cs = some ds →
    ∀ d ∈ ds, d < base := by
  induction cs with
  | nil =>
    intro ds read
    rw [← Option.some.inj read]
    exact fun d member => absurd member List.not_mem_nil
  | cons c cs later =>
    intro ds read
    rcases readDigits_cons base c cs ds read with ⟨d, rest, -, small, more, rfl⟩
    rw [List.forall_mem_cons]
    exact ⟨small, later rest more⟩

theorem numeral_eq_some (base : Nat) (cs : List Char) (n : Nat) (read : numeral base cs = some n) :
    cs ≠ [] ∧ ∃ ds, readDigits base cs = some ds ∧ n = ofDigits base ds := by
  unfold numeral at read
  split at read
  · contradiction
  · rename_i filled
    rcases Option.map_eq_some_iff.mp read with ⟨ds, more, same⟩
    exact ⟨by simpa using filled, ds, more, same.symm⟩

theorem numeral_lt (base : Nat) (cs : List Char) (n : Nat) (read : numeral base cs = some n) :
    n < base ^ cs.length := by
  rcases numeral_eq_some base cs n read with ⟨-, ds, more, rfl⟩
  rw [← readDigits_length base cs ds more]
  exact ofDigits_lt base ds (readDigits_small base cs ds more)

theorem numeral_one (base : Nat) (cs : List Char) (n : Nat) (read : numeral base ('1' :: cs) = some n) :
    base ^ cs.length ≤ n ∧ n < 2 * base ^ cs.length := by
  rcases numeral_eq_some base _ n read with ⟨-, ds, more, rfl⟩
  rcases readDigits_cons base '1' cs ds more with ⟨d, rest, value, -, tail, rfl⟩
  obtain rfl : 1 = d := Option.some.inj value
  have bound := ofDigits_lt base rest (readDigits_small base cs rest tail)
  rw [ofDigits_cons, ← readDigits_length base cs rest tail]
  omega

theorem group_eq_some (cs : List Char) (g : Nat) (read : group cs = some g) :
    cs.length ≤ 4 ∧ numeral 16 cs = some g := by
  unfold group at read
  split at read
  · rename_i short
    exact ⟨short, read⟩
  · contradiction

theorem group_lt (cs : List Char) (g : Nat) (read : group cs = some g) : g < 65536 := by
  rcases group_eq_some cs g read with ⟨short, value⟩
  have bound := numeral_lt 16 cs g value
  have room : 16 ^ cs.length ≤ 16 ^ 4 := Nat.pow_le_pow_right (by decide) short
  omega

theorem group_all (cs : List Char) (g : Nat) (read : group cs = some g) :
    cs ≠ [] ∧ ∀ c ∈ cs, (digitValue c).isSome = true := by
  rcases numeral_eq_some 16 cs g (group_eq_some cs g read).2 with ⟨filled, ds, more, -⟩
  exact ⟨filled, readDigits_all 16 cs ds more⟩

theorem readDigits_congr (base : Nat) (cs : List Char) : ∀ cs', cs.map Char.toLower = cs'.map Char.toLower →
    readDigits base cs = readDigits base cs' := by
  induction cs with
  | nil =>
    intro cs' same
    rw [List.map_nil, eq_comm, List.map_eq_nil_iff] at same
    rw [same]
  | cons c cs later =>
    intro cs' same
    cases cs' with
    | nil => contradiction
    | cons c' cs' =>
      rw [List.map_cons, List.map_cons, List.cons.injEq] at same
      rw [readDigits, readDigits, digitValue, digitValue, same.1, later cs' same.2]

theorem group_congr (cs cs' : List Char) (same : cs.map Char.toLower = cs'.map Char.toLower) :
    group cs = group cs' := by
  have lengths : cs.length = cs'.length := by simpa using congrArg List.length same
  have empty : cs.isEmpty = cs'.isEmpty := by cases cs <;> cases cs' <;> simp at lengths ⊢
  rw [group, group, numeral, numeral, lengths, empty, readDigits_congr 16 cs cs' same]

theorem readDigits_lower (base : Nat) (cs : List Char) : ∀ ds, readDigits base cs = some ds →
    cs.map Char.toLower = ds.map fun d => (digits[d]?).getD ' ' := by
  induction cs with
  | nil =>
    intro ds read
    rw [← Option.some.inj read]
    rfl
  | cons c cs later =>
    intro ds read
    rcases readDigits_cons base c cs ds read with ⟨d, rest, value, -, more, rfl⟩
    rw [List.map_cons, List.map_cons, later rest more, digitValue_eq_some c d value]
    rfl

theorem digits_fe80 (ds : List Nat) (short : ds.length ≤ 4) (small : ∀ d ∈ ds, d < 16)
    (value : ofDigits 16 ds = 0xfe80) : ds = [15, 14, 8, 0] := by
  have bound := ofDigits_lt 16 ds small
  have full : 4 ≤ ds.length := by
    by_contra less
    have room : 16 ^ ds.length ≤ 16 ^ 3 := Nat.pow_le_pow_right (by decide) (by omega)
    omega
  match ds with
  | [a, b, c, d] =>
    simp only [List.forall_mem_cons, List.not_mem_nil, false_imp_iff, implies_true, and_true] at small
    simp only [ofDigits, List.foldl_cons, List.foldl_nil] at value
    simp only [List.cons.injEq, and_true]
    omega
  | [] | [_] | [_, _] | [_, _, _] => exact absurd full (by simp)
  | _ :: _ :: _ :: _ :: _ :: _ => exact absurd short (by simp)

theorem group_eq_iff (cs : List Char) (g : Nat) (read : group cs = some g) :
    g = 0xfe80 ↔ cs.map Char.toLower = "fe80".toList := by
  constructor
  · rintro rfl
    rcases group_eq_some cs _ read with ⟨short, value⟩
    rcases numeral_eq_some 16 cs _ value with ⟨-, ds, more, same⟩
    rw [readDigits_lower 16 cs ds more]
    rw [digits_fe80 ds (by rwa [readDigits_length 16 cs ds more]) (readDigits_small 16 cs ds more) same.symm]
    rfl
  · intro written
    rw [group_congr cs "fe80".toList written] at read
    exact (Option.some.inj read).symm

theorem octet_eq_some (cs : List Char) (n : Nat) (read : octet cs = some n) :
    n < 256 ∧ cs.length ≤ 3 ∧ numeral 10 cs = some n := by
  unfold octet at read
  split at read
  · rename_i short
    rcases Option.filter_eq_some_iff.mp read with ⟨value, small⟩
    exact ⟨of_decide_eq_true small, short.1, value⟩
  · contradiction

theorem quad_eq_some (cs : List Char) (gs : List Nat) (read : quad cs = some gs) :
    ∃ first rest a b c d, cs.splitOn '.' = first :: rest ∧ octet first = some a ∧
      a < 256 ∧ b < 256 ∧ c < 256 ∧ d < 256 ∧ gs = [a * 256 + b, c * 256 + d] := by
  unfold quad at read
  split at read
  · rename_i first second third last parts
    simp only [Option.bind_eq_bind, Option.bind_eq_some_iff, Option.some.injEq] at read
    rcases read with ⟨a, readA, b, readB, c, readC, d, readD, rfl⟩
    exact ⟨first, _, a, b, c, d, parts, readA, (octet_eq_some _ _ readA).1, (octet_eq_some _ _ readB).1,
      (octet_eq_some _ _ readC).1, (octet_eq_some _ _ readD).1, rfl⟩
  · contradiction

theorem readGroups_cons (quads : Bool) (part : List Char) (rest : List (List Char)) (gs : List Nat)
    (read : readGroups quads (part :: rest) = some gs) :
    (∃ g others, group part = some g ∧ readGroups quads rest = some others ∧ gs = g :: others) ∨
      (quads = true ∧ rest = [] ∧ quad part = some gs) := by
  cases rest with
  | nil =>
    rw [readGroups] at read
    split at read
    · rename_i dotted
      rw [Bool.and_eq_true] at dotted
      exact .inr ⟨dotted.1, rfl, read⟩
    · rcases Option.map_eq_some_iff.mp read with ⟨g, value, same⟩
      exact .inl ⟨g, [], value, rfl, same.symm⟩
  | cons next rest =>
    simp only [readGroups, Option.bind_eq_bind, Option.bind_eq_some_iff, Option.some.injEq] at read
    rcases read with ⟨g, value, others, more, same⟩
    exact .inl ⟨g, others, value, more, same.symm⟩

theorem readGroups_lt (quads : Bool) (parts : List (List Char)) : ∀ gs,
    readGroups quads parts = some gs → ∀ g ∈ gs, g < 65536 := by
  induction parts with
  | nil =>
    intro gs read
    rw [← Option.some.inj read]
    exact fun g member => absurd member List.not_mem_nil
  | cons part rest later =>
    intro gs read
    rcases readGroups_cons quads part rest gs read with ⟨g, others, value, more, rfl⟩ | ⟨-, -, dotted⟩
    · rw [List.forall_mem_cons]
      exact ⟨group_lt part g value, later others more⟩
    · rcases quad_eq_some part gs dotted with ⟨first, rest, a, b, c, d, -, -, smallA, smallB, smallC,
        smallD, rfl⟩
      simp only [List.forall_mem_cons, List.not_mem_nil, false_imp_iff, implies_true, and_true]
      omega

theorem ipv6_cons (g : Nat) (gs : List Nat) : ipv6 (g :: gs) = g * 65536 ^ gs.length + ipv6 gs :=
  ofDigits_cons 65536 g gs

theorem ipv6_lt (gs : List Nat) (small : ∀ g ∈ gs, g < 65536) : ipv6 gs < 65536 ^ gs.length :=
  ofDigits_lt 65536 gs small

theorem ipv6_zeros (n : Nat) (gs : List Nat) : ipv6 (List.replicate n 0 ++ gs) = ipv6 gs := by
  induction n with
  | zero => rfl
  | succ n later => rw [List.replicate_succ, List.cons_append, ipv6_cons, later, Nat.zero_mul, Nat.zero_add]

theorem ipv6_div (g : Nat) (gs : List Nat) (full : gs.length = 7) (small : ∀ g ∈ gs, g < 65536) :
    ipv6 (g :: gs) / 2 ^ 112 = g := by
  have rest := ipv6_lt gs small
  rw [full] at rest
  rw [ipv6_cons, full]
  omega

theorem splitGap_eq_some (s : List Char) : ∀ front back, splitGap s = some (front, back) →
    s = front ++ ':' :: ':' :: back := by
  induction s with
  | nil => exact fun _ _ split => by contradiction
  | cons c s later =>
    intro front back split
    cases s with
    | nil => contradiction
    | cons d rest =>
      rw [splitGap] at split
      split at split
      · rename_i colons
        obtain ⟨rfl, rfl⟩ := Prod.mk.inj (Option.some.inj split)
        rw [colons.1, colons.2]
        rfl
      · rcases Option.map_eq_some_iff.mp split with ⟨⟨f, b⟩, sides, same⟩
        obtain ⟨rfl, rfl⟩ := Prod.mk.inj same
        rw [later f b sides, List.cons_append]

theorem splitOn_first (d : Char) (s first : List Char) (rest : List (List Char))
    (parts : s.splitOn d = first :: rest) :
    s = first ++ (if rest = [] then [] else d :: [d].intercalate rest) := by
  have joined : [d].intercalate (s.splitOn d) = s := List.intercalate_splitOn d
  rw [parts] at joined
  cases rest with
  | nil =>
    rw [← joined, if_pos rfl, List.append_nil]
    simp
  | cons next rest =>
    rw [← joined, List.intercalate_cons_cons, if_neg (List.cons_ne_nil _ _), List.append_assoc]
    rfl

theorem readSide_parts (quads : Bool) (s : List Char) (gs : List Nat) (read : readSide quads s = some gs)
    (filled : s ≠ []) : ∃ first rest, s.splitOn ':' = first :: rest ∧
      s = first ++ (if rest = [] then [] else ':' :: [':'].intercalate rest) ∧
        readGroups quads (first :: rest) = some gs := by
  rw [readSide, if_neg (by simpa using filled)] at read
  cases parts : s.splitOn ':' with
  | nil => exact absurd parts (List.splitOn_ne_nil _ _)
  | cons first rest => exact ⟨first, rest, rfl, splitOn_first ':' s first rest parts, parts ▸ read⟩

theorem readSide_lt (quads : Bool) (s : List Char) (gs : List Nat) (read : readSide quads s = some gs) :
    ∀ g ∈ gs, g < 65536 := by
  unfold readSide at read
  split at read
  · rw [← Option.some.inj read]
    exact fun g member => absurd member List.not_mem_nil
  · exact readGroups_lt quads _ gs read

theorem readIpv6_leading (s : List Char) (ip : Nat) (read : readIpv6 s = some ip) :
    (∃ first rest g, s = first ++ ':' :: rest ∧ group first = some g ∧ ip / 2 ^ 112 = g) ∨
      ∃ back b, s = ':' :: ':' :: back ∧ readSide true back = some b ∧ b.length ≤ 7 ∧ ip = ipv6 b := by
  unfold readIpv6 at read
  split at read
  · rename_i front back gap
    have whole := splitGap_eq_some s front back gap
    simp only [Option.bind_eq_bind, Option.bind_eq_some_iff] at read
    rcases read with ⟨f, readFront, b, readBack, made⟩
    split at made
    · rename_i room
      have sum := (Option.some.inj made).symm
      cases front with
      | nil =>
        obtain rfl : [] = f := Option.some.inj readFront
        rw [List.nil_append, ipv6_zeros] at sum
        exact .inr ⟨back, b, whole, readBack, by simpa using room, sum⟩
      | cons c front =>
        rcases readSide_parts false _ f readFront (List.cons_ne_nil _ _) with ⟨first, rest, -, text, groups⟩
        rcases readGroups_cons false first rest f groups with ⟨g, others, value, more, rfl⟩ | ⟨no, -⟩
        · have colon : ∃ tail, (if rest = [] then [] else ':' :: [':'].intercalate rest) ++
              ':' :: ':' :: back = ':' :: tail := by
            split
            · exact ⟨_, rfl⟩
            · exact ⟨_, rfl⟩
          rcases colon with ⟨tail, colon⟩
          refine .inl ⟨first, tail, g, ?_, value, ?_⟩
          · rw [whole, text, List.append_assoc, colon]
          · rw [sum, List.cons_append, List.cons_append]
            refine ipv6_div g _ ?_ ?_
            · simp only [List.length_append, List.length_replicate, List.length_cons] at room ⊢
              omega
            · intro other member
              rcases List.mem_append.mp member with inFront | inBack
              · rcases List.mem_append.mp inFront with written | zero
                · exact readGroups_lt false rest others more other written
                · rw [List.eq_of_mem_replicate zero]
                  decide
              · exact readSide_lt true back b readBack other inBack
        · contradiction
    · contradiction
  · simp only [Option.bind_eq_bind, Option.bind_eq_some_iff] at read
    rcases read with ⟨gs, readAll, made⟩
    split at made
    · rename_i full
      have sum := (Option.some.inj made).symm
      cases parts : s.splitOn ':' with
      | nil => exact absurd parts (List.splitOn_ne_nil _ _)
      | cons first rest =>
        rw [parts] at readAll
        have text := splitOn_first ':' s first rest parts
        rcases readGroups_cons true first rest gs readAll with ⟨g, others, value, more, rfl⟩ |
          ⟨-, -, dotted⟩
        · have several : rest ≠ [] := by
            rintro rfl
            rw [← Option.some.inj more] at full
            exact absurd full (by simp)
          rw [if_neg several] at text
          refine .inl ⟨first, _, g, text, value, ?_⟩
          rw [sum]
          exact ipv6_div g others (by simpa using full) (readGroups_lt true rest others more)
        · rcases quad_eq_some first gs dotted with ⟨-, -, a, b, c, d, -, -, -, -, -, -, rfl⟩
          exact absurd full (by simp)
    · contradiction

theorem readGroups_nil (quads : Bool) (parts : List (List Char)) (read : readGroups quads parts = some []) :
    parts = [] := by
  cases parts with
  | nil => rfl
  | cons part rest =>
    rcases readGroups_cons quads part rest [] read with ⟨g, others, -, -, none_⟩ | ⟨-, -, dotted⟩
    · contradiction
    · rcases quad_eq_some part [] dotted with ⟨-, -, a, b, c, d, -, -, -, -, -, -, none_⟩
      contradiction

theorem readSide_one (cs : List Char) (b : List Nat) (read : readSide true ('1' :: cs) = some b) :
    ∃ v others, b = v :: others ∧ 1 ≤ v ∧ v < 65535 ∧ (v = 1 → others = [] → cs = []) := by
  rcases readSide_parts true _ b read (List.cons_ne_nil _ _) with ⟨first, rest, -, text, groups⟩
  have begins : ∃ p, first = '1' :: p := by
    cases first with
    | nil => split at text <;> simp at text
    | cons c p => exact ⟨p, by rw [(List.cons.inj text).1]⟩
  rcases begins with ⟨p, rfl⟩
  rcases readGroups_cons true _ rest b groups with ⟨g, others, value, more, rfl⟩ | ⟨-, rfl, dotted⟩
  · rcases group_eq_some _ g value with ⟨short, hex⟩
    rcases numeral_one 16 p g hex with ⟨low, high⟩
    have room : 16 ^ p.length ≤ 16 ^ 3 := Nat.pow_le_pow_right (by decide) (Nat.le_of_succ_le_succ short)
    have positive : 0 < 16 ^ p.length := Nat.pow_pos (by decide)
    refine ⟨g, others, rfl, by omega, by omega, ?_⟩
    rintro rfl rfl
    obtain rfl := readGroups_nil true rest more
    have bare : p = [] := by
      by_contra filled
      have longer : 16 ^ 1 ≤ 16 ^ p.length :=
        Nat.pow_le_pow_right (by decide) (List.length_pos_iff.mpr filled)
      omega
    simpa [bare] using text
  · rcases quad_eq_some _ b dotted with ⟨first, others, a, b, c, d, parts, readA, -, smallB, -, -, rfl⟩
    rcases octet_eq_some first a readA with ⟨-, short, decimal⟩
    have leads : ∃ q, first = '1' :: q := by
      have inner := splitOn_first '.' _ first others parts
      cases first with
      | nil => split at inner <;> simp at inner
      | cons c q => exact ⟨q, by rw [(List.cons.inj inner).1]⟩
    rcases leads with ⟨q, rfl⟩
    rcases numeral_one 10 q a decimal with ⟨low, high⟩
    have room : 10 ^ q.length ≤ 10 ^ 2 := Nat.pow_le_pow_right (by decide) (Nat.le_of_succ_le_succ short)
    have positive : 0 < 10 ^ q.length := Nat.pow_pos (by decide)
    exact ⟨a * 256 + b, [c * 256 + d], rfl, by omega, by omega, fun _ none_ => absurd none_ (by simp)⟩

theorem toLower_plain (c d : Char) (plain : d.isLower = false) (same : c.toLower = d) : c = d := by
  unfold Char.toLower at same
  split at same
  · rename_i upper
    exfalso
    subst same
    have small : (decide ((c.val + ('a'.val - 'A'.val)) ≥ 'a'.val) &&
      decide ((c.val + ('a'.val - 'A'.val)) ≤ 'z'.val)) = false := plain
    simp only [Bool.and_eq_false_iff, decide_eq_false_iff_not, UInt32.le_iff_toNat_le, ge_iff_le] at small
    have low : 65 ≤ c.val.toNat := upper.1
    have high : c.val.toNat ≤ 90 := upper.2
    have sum : (c.val + ('a'.val - 'A'.val)).toNat = c.val.toNat + 32 := by
      rw [UInt32.toNat_add]
      change (c.val.toNat + 32) % _ = _
      omega
    have bounds : 'a'.val.toNat = 97 ∧ 'z'.val.toNat = 122 := ⟨rfl, rfl⟩
    rw [sum] at small
    omega
  · exact same

theorem toLower_mem_digits (c : Char) (value : (digitValue c).isSome = true) : c.toLower ∈ digits := by
  rcases Option.isSome_iff_exists.mp value with ⟨d, read⟩
  exact List.mem_of_getElem? (digitValue_eq_some c d read)

theorem colon_free (cs : List Char) (read : ∀ c ∈ cs, (digitValue c).isSome = true) :
    ':' ∉ cs.map Char.toLower := by
  intro member
  rcases List.mem_map.mp member with ⟨c, inside, same⟩
  have digit := toLower_mem_digits c (read c inside)
  rw [same] at digit
  exact absurd digit (by decide)

/-- The first group of an IPv6 address can be read off its text. -/
theorem readIpv6_fe80 (s : List Char) (ip : Nat) (read : readIpv6 s = some ip) :
    "fe80:".toList <+: s.map Char.toLower ↔ ip / 2 ^ 112 = 0xfe80 := by
  rcases readIpv6_leading s ip read with ⟨first, rest, g, rfl, value, high⟩ | ⟨back, b, rfl, side, short, rfl⟩
  · rw [high, group_eq_iff first g value, List.map_append, List.map_cons]
    have free := colon_free first (group_all first g value).2
    have colon : Char.toLower ':' = ':' := rfl
    rw [colon]
    constructor
    · rintro ⟨others, same⟩
      have parts : "fe80".toList ++ ':' :: others = first.map Char.toLower ++ ':' :: rest.map Char.toLower :=
        same
      exact (Delimited.split_unique ':' _ _ _ _ (by decide) free parts).1.symm
    · intro written
      rw [written]
      exact ⟨rest.map Char.toLower, rfl⟩
  · have small := ipv6_lt b (readSide_lt true back b side)
    have room : 65536 ^ b.length ≤ 65536 ^ 7 := Nat.pow_le_pow_right (by decide) short
    refine iff_of_false ?_ (by omega)
    rintro ⟨others, same⟩
    exact absurd (List.cons.inj same).1 (by decide)

theorem readIpv6_one (s : List Char) (ip : Nat) (read : readIpv6 s = some ip)
    (starts : "::1".toList <+: s.map Char.toLower) : ∃ k v r, k ≤ 6 ∧ ip = v * 65536 ^ k + r ∧
      r < 65536 ^ k ∧ 1 ≤ v ∧ v < 65535 ∧ (k = 0 → v = 1 → s = "::1".toList) := by
  rcases starts with ⟨others, same⟩
  rcases readIpv6_leading s ip read with ⟨first, rest, g, rfl, value, -⟩ | ⟨back, b, rfl, side, short, rfl⟩
  · exfalso
    rcases group_all first g value with ⟨filled, read⟩
    cases first with
    | nil => contradiction
    | cons c first =>
      have colon : c.toLower = ':' := (List.cons.inj same).1.symm
      have digit := toLower_mem_digits c (read c List.mem_cons_self)
      rw [colon] at digit
      exact absurd digit (by decide)
  · have behind : '1' :: others = back.map Char.toLower := (List.cons.inj (List.cons.inj same).2).2
    cases back with
    | nil => contradiction
    | cons c cs =>
      obtain rfl := toLower_plain c '1' (by decide) (List.cons.inj behind).1.symm
      rcases readSide_one cs b side with ⟨v, gs, rfl, low, high, alone⟩
      refine ⟨gs.length, v, ipv6 gs, Nat.le_of_succ_le_succ short, ipv6_cons v gs, ?_, low, high, ?_⟩
      · have small := readSide_lt true _ _ side
        rw [List.forall_mem_cons] at small
        exact ipv6_lt gs small.2
      · intro none_ one
        rw [alone one (List.length_eq_zero_iff.mp none_)]
        rfl

theorem readIpv6_colon (s : List Char) (ip : Nat) (read : readIpv6 s = some ip) :
    ∃ first rest, s = first ++ ':' :: rest ∧ ∀ c ∈ first, (digitValue c).isSome = true := by
  rcases readIpv6_leading s ip read with ⟨first, rest, g, rfl, value, -⟩ | ⟨back, b, rfl, -⟩
  · exact ⟨first, rest, rfl, (group_all first g value).2⟩
  · exact ⟨[], ':' :: back, rfl, fun c member => absurd member List.not_mem_nil⟩

def numberChar (c : Char) : Bool := (digitValue c).isSome || c.toLower == 'x'

def addressChar (c : Char) : Bool := numberChar c || c == '.' || c == ':'

theorem toNat_le_toLower (c : Char) : c.toNat ≤ c.toLower.toNat := by
  by_cases upper : c.val ≥ 'A'.val ∧ c.val ≤ 'Z'.val
  · have low : c.toLower = ⟨c.val + ('a'.val - 'A'.val), _⟩ := dif_pos upper
    have high : c.val.toNat ≤ 90 := upper.2
    rw [low]
    change c.val.toNat ≤ (c.val + ('a'.val - 'A'.val)).toNat
    rw [UInt32.toNat_add]
    change _ ≤ (c.val.toNat + 32) % _
    omega
  · have same : c.toLower = c := dif_neg upper
    rw [same]

theorem addressChar_ascii (c : Char) (plain : addressChar c = true) : c.toNat < 128 := by
  have table : digits.all (fun d => decide (d.toNat < 128)) = true := by decide
  have small : ∀ d ∈ digits, d.toNat < 128 :=
    fun d member => of_decide_eq_true (List.all_eq_true.mp table d member)
  rw [addressChar, numberChar, Bool.or_eq_true, Bool.or_eq_true, Bool.or_eq_true, beq_iff_eq, beq_iff_eq,
    beq_iff_eq] at plain
  rcases plain with ((digit | x) | rfl) | rfl
  · exact (toNat_le_toLower c).trans_lt (small _ (toLower_mem_digits c digit))
  · exact (toNat_le_toLower c).trans_lt (by rw [x]; decide)
  · decide
  · decide

theorem mem_splitOn (d : Char) (s : List Char) (c : Char) (member : c ∈ s) :
    c = d ∨ ∃ part ∈ s.splitOn d, c ∈ part := by
  have joined : ∀ parts : List (List Char), c ∈ [d].intercalate parts → c = d ∨ ∃ part ∈ parts, c ∈ part := by
    intro parts
    induction parts with
    | nil => simp
    | cons part rest later =>
      intro inside
      cases rest with
      | nil => exact .inr ⟨part, List.mem_cons_self, by simpa using inside⟩
      | cons next rest =>
        rw [List.intercalate_cons_cons, List.append_assoc, List.mem_append, List.mem_append,
          List.mem_singleton] at inside
        rcases inside with here | same | there
        · exact .inr ⟨part, List.mem_cons_self, here⟩
        · exact .inl same
        · rcases later there with same | ⟨other, found, here⟩
          · exact .inl same
          · exact .inr ⟨other, List.mem_cons_of_mem part found, here⟩
  have whole : [d].intercalate (s.splitOn d) = s := List.intercalate_splitOn d
  rw [← whole] at member
  exact joined _ member

theorem numeral_all (base : Nat) (cs : List Char) (n : Nat) (read : numeral base cs = some n) :
    ∀ c ∈ cs, numberChar c = true := by
  rcases numeral_eq_some base cs n read with ⟨-, ds, more, -⟩
  intro c member
  rw [numberChar, readDigits_all base cs ds more c member, Bool.true_or]

theorem number_all (cs : List Char) (n : Nat) (read : number cs = some n) :
    ∀ c ∈ cs, numberChar c = true := by
  unfold number at read
  split at read
  · simpa using ⟨by decide, by decide, numeral_all 16 _ n read⟩
  · simpa using ⟨by decide, by decide, numeral_all 16 _ n read⟩
  · exact List.forall_mem_singleton.mpr (by decide)
  · simpa using ⟨by decide, numeral_all 8 _ n read⟩
  · exact numeral_all 10 _ n read

theorem numbers_all (parts : List (List Char)) : ∀ ns, numbers parts = some ns →
    ∀ part ∈ parts, ∀ c ∈ part, numberChar c = true := by
  induction parts with
  | nil => exact fun _ _ part member => absurd member List.not_mem_nil
  | cons part rest later =>
    intro ns read
    simp only [numbers, Option.bind_eq_bind, Option.bind_eq_some_iff] at read
    rcases read with ⟨n, first, others, more, -⟩
    rw [List.forall_mem_cons]
    exact ⟨number_all part n first, later others more⟩

theorem readIpv4_all (s : List Char) (ip : Nat) (read : readIpv4 s = some ip) :
    ∀ c ∈ s, numberChar c = true ∨ c = '.' := by
  have parts : ∃ ns, numbers (s.splitOn '.') = some ns := by
    unfold readIpv4 at read
    split at read <;> first | exact ⟨_, ‹_›⟩ | contradiction
  rcases parts with ⟨ns, parts⟩
  intro c member
  rcases mem_splitOn '.' s c member with dot | ⟨part, found, inside⟩
  · exact .inr dot
  · exact .inl (numbers_all _ ns parts part found c inside)

theorem quad_all (cs : List Char) (gs : List Nat) (read : quad cs = some gs) :
    ∀ c ∈ cs, numberChar c = true ∨ c = '.' := by
  unfold quad at read
  split at read
  · rename_i first second third last parts
    simp only [Option.bind_eq_bind, Option.bind_eq_some_iff] at read
    rcases read with ⟨a, readA, b, readB, c, readC, d, readD, -⟩
    intro char member
    rcases mem_splitOn '.' cs char member with dot | ⟨part, found, inside⟩
    · exact .inr dot
    · have decimal (part : List Char) (n : Nat) (octets : octet part = some n) (inside : char ∈ part) :=
        numeral_all 10 part n (octet_eq_some part n octets).2.2 char inside
      rw [parts] at found
      simp only [List.mem_cons, List.not_mem_nil, or_false] at found
      rcases found with rfl | rfl | rfl | rfl
      · exact .inl (decimal _ a readA inside)
      · exact .inl (decimal _ b readB inside)
      · exact .inl (decimal _ c readC inside)
      · exact .inl (decimal _ d readD inside)
  · contradiction

theorem readGroups_all (quads : Bool) (parts : List (List Char)) : ∀ gs,
    readGroups quads parts = some gs → ∀ part ∈ parts, ∀ c ∈ part, numberChar c = true ∨ c = '.' := by
  induction parts with
  | nil => exact fun _ _ part member => absurd member List.not_mem_nil
  | cons part rest later =>
    intro gs read
    rw [List.forall_mem_cons]
    rcases readGroups_cons quads part rest gs read with ⟨g, others, value, more, -⟩ | ⟨-, rfl, dotted⟩
    · exact ⟨fun c member => .inl (numeral_all 16 part g (group_eq_some part g value).2 c member),
        later others more⟩
    · exact ⟨quad_all part gs dotted, fun part member => absurd member List.not_mem_nil⟩

theorem splitOn_all (quads : Bool) (s : List Char) (gs : List Nat)
    (read : readGroups quads (s.splitOn ':') = some gs) : ∀ c ∈ s, addressChar c = true := by
  intro c member
  rcases mem_splitOn ':' s c member with rfl | ⟨part, found, inside⟩
  · decide
  · rcases readGroups_all quads _ gs read part found c inside with number | rfl
    · rw [addressChar, number, Bool.true_or, Bool.true_or]
    · decide

theorem readSide_all (quads : Bool) (s : List Char) (gs : List Nat) (read : readSide quads s = some gs) :
    ∀ c ∈ s, addressChar c = true := by
  unfold readSide at read
  split at read
  · rename_i empty
    rw [List.isEmpty_iff.mp empty]
    exact fun c member => absurd member List.not_mem_nil
  · exact splitOn_all quads s gs read

theorem readIpv6_all (s : List Char) (ip : Nat) (read : readIpv6 s = some ip) :
    ∀ c ∈ s, addressChar c = true := by
  unfold readIpv6 at read
  split at read
  · rename_i front back gap
    simp only [Option.bind_eq_bind, Option.bind_eq_some_iff] at read
    rcases read with ⟨f, readFront, b, readBack, -⟩
    rw [splitGap_eq_some s front back gap]
    simp only [List.forall_mem_append, List.forall_mem_cons]
    exact ⟨readSide_all false front f readFront, by decide, by decide, readSide_all true back b readBack⟩
  · simp only [Option.bind_eq_bind, Option.bind_eq_some_iff] at read
    rcases read with ⟨gs, readAll, -⟩
    exact splitOn_all true s gs readAll

theorem toLower_of_isDigit (c : Char) (digit : c.isDigit = true) : c.toLower = c := by
  refine dif_neg fun upper => ?_
  rw [Char.isDigit, Bool.and_eq_true, decide_eq_true_eq, decide_eq_true_eq] at digit
  have low : 65 ≤ c.val.toNat := upper.1
  have high : c.val.toNat ≤ 57 := digit.2
  omega

theorem byte_div_eq_iff (n a b p q : Nat) (smallB : b < 256) (smallQ : q < 256) :
    (a * 256 + b) / 2 ^ n = (p * 256 + q) / 2 ^ n ↔
      a / 2 ^ (n - 8) = p / 2 ^ (n - 8) ∧ b / 2 ^ n = q / 2 ^ n := by
  rcases lt_or_ge n 8 with less | more
  · interval_cases n <;> norm_num only <;> omega
  · rcases Nat.exists_eq_add_of_le more with ⟨k, rfl⟩
    have cut (x y : Nat) (small : y < 256) : (x * 256 + y) / 2 ^ (8 + k) = x / 2 ^ k := by
      rw [pow_add, ← Nat.div_div_eq_div_mul]
      congr 1
      omega
    have room : 2 ^ 8 ≤ 2 ^ (8 + k) := Nat.pow_le_pow_right (by decide) more
    have gone (y : Nat) (small : y < 256) : y / 2 ^ (8 + k) = 0 := Nat.div_eq_of_lt (small.trans_le room)
    rw [cut a b smallB, cut p q smallQ, gone b smallB, gone q smallQ, Nat.add_sub_cancel_left]
    exact (and_iff_left rfl).symm

theorem contains_ipv4 (length a b c d p q r s : Nat) (small : ∀ n ∈ [b, c, d, q, r, s], n < 256) :
    Network.contains 32 ⟨ipv4 p q r s, length⟩ (ipv4 a b c d) = true ↔
      a / 2 ^ (8 - length) = p / 2 ^ (8 - length) ∧ b / 2 ^ (16 - length) = q / 2 ^ (16 - length) ∧
        c / 2 ^ (24 - length) = r / 2 ^ (24 - length) ∧ d / 2 ^ (32 - length) = s / 2 ^ (32 - length) := by
  simp only [List.forall_mem_cons, List.not_mem_nil, false_imp_iff, implies_true, and_true] at small
  rcases small with ⟨smallB, smallC, smallD, smallQ, smallR, smallS⟩
  rw [Network.contains, beq_iff_eq, ipv4, ipv4, byte_div_eq_iff _ _ _ _ _ smallD smallS,
    byte_div_eq_iff _ _ _ _ _ smallC smallR, byte_div_eq_iff _ _ _ _ _ smallB smallQ]
  simp only [Nat.sub_right_comm _ length, Nat.reduceSub, and_assoc]

end IpLiterals
