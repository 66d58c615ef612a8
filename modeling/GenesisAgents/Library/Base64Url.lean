import Mathlib.Data.List.Basic

/-! Unpadded base64url: six bits a character. -/

namespace Base64Url

def alphabet : List Char :=
  "ABCDEFGHIJKLMNOPQRSTUVWXYZabcdefghijklmnopqrstuvwxyz0123456789-_".toList

def digit (n : Nat) : Char := alphabet.getD n '_'

def value (c : Char) : Nat := alphabet.idxOf c

theorem value_digit : ∀ n < 64, value (digit n) = n := by decide

theorem digit_mem : ∀ n < 64, digit n ∈ alphabet := by decide

def encode : List UInt8 → List Char
  | [] => []
  | [a] => [digit (a.toNat / 4), digit (a.toNat % 4 * 16)]
  | [a, b] =>
    [digit (a.toNat / 4), digit (a.toNat % 4 * 16 + b.toNat / 16), digit (b.toNat % 16 * 4)]
  | a :: b :: c :: rest =>
    digit (a.toNat / 4) :: digit (a.toNat % 4 * 16 + b.toNat / 16) ::
      digit (b.toNat % 16 * 4 + c.toNat / 64) :: digit (c.toNat % 64) :: encode rest

/-- The byte across two characters, `low` bits of it in the second one's place. -/
def byte (high low : Nat) : UInt8 := UInt8.ofNat (high + low)

def decode : List Char → List UInt8
  | p :: q :: r :: s :: rest =>
    byte (value p * 4) (value q / 16) :: byte (value q % 16 * 16) (value r / 4) ::
      byte (value r % 4 * 64) (value s) :: decode rest
  | [p, q, r] => [byte (value p * 4) (value q / 16), byte (value q % 16 * 16) (value r / 4)]
  | [p, q] => [byte (value p * 4) (value q / 16)]
  | _ => []

theorem byte_eq (a : UInt8) (high low : Nat) (same : high + low = a.toNat) : byte high low = a := by
  rw [byte, same, UInt8.ofNat_toNat]

theorem decode_encode : ∀ bytes, decode (encode bytes) = bytes
  | [] => rfl
  | [a] => by
    have small := a.toNat_lt
    simp (disch := omega) only [encode, decode, value_digit]
    rw [byte_eq a _ _ (by omega)]
  | [a, b] => by
    have small := a.toNat_lt
    have small' := b.toNat_lt
    simp (disch := omega) only [encode, decode, value_digit]
    rw [byte_eq a _ _ (by omega), byte_eq b _ _ (by omega)]
  | a :: b :: c :: rest => by
    have small := a.toNat_lt
    have small' := b.toNat_lt
    have small'' := c.toNat_lt
    simp (disch := omega) only [encode, decode, value_digit]
    rw [byte_eq a _ _ (by omega), byte_eq b _ _ (by omega), byte_eq c _ _ (by omega),
      decode_encode rest]

theorem encode_injective : Function.Injective encode :=
  Function.LeftInverse.injective decode_encode

theorem encode_alphabet : ∀ bytes, ∀ c ∈ encode bytes, c ∈ alphabet
  | [] => by simp [encode]
  | [a] => by
    have small := a.toNat_lt
    simp (disch := omega) [encode, digit_mem]
  | [a, b] => by
    have small := a.toNat_lt
    have small' := b.toNat_lt
    simp (disch := omega) [encode, digit_mem]
  | a :: b :: c :: rest => by
    have small := a.toNat_lt
    have small' := b.toNat_lt
    have small'' := c.toNat_lt
    have later := encode_alphabet rest
    simp (disch := omega) only [encode, List.forall_mem_cons, digit_mem, true_and]
    exact later

/-! A reader that skips what is in neither alphabet, and ends at the padding. -/

def sextet (c : Char) : Option Nat :=
  if c = '+' then some 62 else if c = '/' then some 63
  else if value c < 64 then some (value c) else none

/-- The bytes of a text: so many characters of the current four are read, `left` being the bits of them
that make no byte yet. -/
def scan (quad left pads : Nat) : List Char → Option (List UInt8)
  | [] => if quad = 0 then some [] else none
  | c :: rest =>
    if c = '=' then
      if 2 ≤ quad then
        if 4 ≤ quad + pads + 1 then some [] else scan quad left (pads + 1) rest
      else scan quad left pads rest
    else
      match sextet c with
      | none => scan quad left pads rest
      | some v =>
        match quad with
        | 0 => scan 1 v 0 rest
        | 1 => (scan 2 (v % 16) 0 rest).map (byte (left * 4) (v / 16) :: ·)
        | 2 => (scan 3 (v % 4) 0 rest).map (byte (left * 16) (v / 4) :: ·)
        | _ => (scan 0 0 0 rest).map (byte (left * 64) v :: ·)

def padding (text : List Char) : List Char := List.replicate ((4 - text.length % 4) % 4) '='

theorem digit_ne (n : Nat) (small : n < 64) (c : Char) (outside : c ∉ alphabet) : digit n ≠ c :=
  fun same => outside (same ▸ digit_mem n small)

theorem sextet_digit (n : Nat) (small : n < 64) : sextet (digit n) = some n := by
  have number := value_digit n small
  rw [sextet, if_neg (digit_ne n small '+' (by decide)), if_neg (digit_ne n small '/' (by decide)), number,
    if_pos small]

theorem scan_digit (quad left pads n : Nat) (small : n < 64) (rest : List Char) :
    scan quad left pads (digit n :: rest) =
      match quad with
      | 0 => scan 1 n 0 rest
      | 1 => (scan 2 (n % 16) 0 rest).map (byte (left * 4) (n / 16) :: ·)
      | 2 => (scan 3 (n % 4) 0 rest).map (byte (left * 16) (n / 4) :: ·)
      | _ => (scan 0 0 0 rest).map (byte (left * 64) n :: ·) := by
  rw [scan, if_neg (digit_ne n small '=' (by decide)), sextet_digit n small]

theorem padding_four (p q r s : Char) (rest : List Char) : padding (p :: q :: r :: s :: rest) = padding rest := by
  have same : (rest.length + 1 + 1 + 1 + 1) % 4 = rest.length % 4 := by omega
  simp only [padding, List.length_cons, same]

theorem scan_encode : ∀ bytes, scan 0 0 0 (encode bytes ++ padding (encode bytes)) = some bytes
  | [] => rfl
  | [a] => by
    have small := a.toNat_lt
    simp (disch := omega) only [encode, List.cons_append, List.nil_append, scan_digit]
    rw [byte_eq a _ _ (by omega)]
    rfl
  | [a, b] => by
    have small := a.toNat_lt
    have small' := b.toNat_lt
    simp (disch := omega) only [encode, List.cons_append, List.nil_append, scan_digit]
    rw [byte_eq a _ _ (by omega), byte_eq b _ _ (by omega)]
    rfl
  | a :: b :: c :: rest => by
    have small := a.toNat_lt
    have small' := b.toNat_lt
    have small'' := c.toNat_lt
    rw [encode, padding_four]
    simp (disch := omega) only [List.cons_append, scan_digit]
    rw [scan_encode rest, byte_eq a _ _ (by omega), byte_eq b _ _ (by omega), byte_eq c _ _ (by omega)]
    rfl

end Base64Url
