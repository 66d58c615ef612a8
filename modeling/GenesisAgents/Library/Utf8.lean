import Mathlib.Data.List.Forall2

/-! UTF-8, with a replacement for what is none: the longest front of a sequence that could still have become a
character is replaced as one. -/

namespace Utf8

def encode (c : Char) : List Nat :=
  let n := c.toNat
  if n < 0x80 then [n]
  else if n < 0x800 then [0xC0 + n / 64, 0x80 + n % 64]
  else if n < 0x10000 then [0xE0 + n / 4096, 0x80 + n / 64 % 64, 0x80 + n % 64]
  else [0xF0 + n / 262144, 0x80 + n / 4096 % 64, 0x80 + n / 64 % 64, 0x80 + n % 64]

/-- The ranges of the bytes that have to follow a first byte; none where it begins no sequence. -/
def ranges (b : Nat) : List (Nat × Nat) :=
  if b < 0xC2 then []
  else if b < 0xE0 then [(0x80, 0xBF)]
  else if b < 0xE1 then [(0xA0, 0xBF), (0x80, 0xBF)]
  else if b = 0xED then [(0x80, 0x9F), (0x80, 0xBF)]
  else if b < 0xF0 then [(0x80, 0xBF), (0x80, 0xBF)]
  else if b < 0xF1 then [(0x90, 0xBF), (0x80, 0xBF), (0x80, 0xBF)]
  else if b < 0xF4 then [(0x80, 0xBF), (0x80, 0xBF), (0x80, 0xBF)]
  else if b < 0xF5 then [(0x80, 0x8F), (0x80, 0xBF), (0x80, 0xBF)]
  else []

def fitting : List (Nat × Nat) → List Nat → List Nat
  | (low, high) :: later, b :: rest => if low ≤ b ∧ b ≤ high then b :: fitting later rest else []
  | _, _ => []

def value (b : Nat) (taken : List Nat) : Nat :=
  taken.foldl (fun n t => n * 64 + (t - 0x80))
    (if b < 0xE0 then b - 0xC0 else if b < 0xF0 then b - 0xE0 else b - 0xF0)

def replacement : Char := Char.ofNat 0xFFFD

def first (b : Nat) (rest : List Nat) : Char × List Nat :=
  if b < 0x80 then (Char.ofNat b, [])
  else
    let taken := fitting (ranges b) rest
    (if ranges b ≠ [] ∧ taken.length = (ranges b).length then Char.ofNat (value b taken) else replacement, taken)

/-- The characters, once that many bytes are skipped. -/
def decodeFrom : Nat → List Nat → List Char
  | _, [] => []
  | skip + 1, _ :: rest => decodeFrom skip rest
  | 0, b :: rest => (first b rest).1 :: decodeFrom (first b rest).2.length rest

def decode (bytes : List Nat) : List Char := decodeFrom 0 bytes

theorem decodeFrom_drop (bytes : List Nat) : ∀ skip, decodeFrom skip bytes = decode (bytes.drop skip) := by
  induction bytes with
  | nil =>
    intro skip
    rw [List.drop_nil]
    cases skip <;> rfl
  | cons b rest later =>
    intro skip
    cases skip with
    | zero => rfl
    | succ skip => exact later skip

theorem decode_cons (b : Nat) (rest : List Nat) :
    decode (b :: rest) = (first b rest).1 :: decode (rest.drop (first b rest).2.length) := by
  rw [← decodeFrom_drop]
  rfl

def Continues (b : Nat) : Prop := 0x80 ≤ b ∧ b ≤ 0xBF

theorem ranges_continue (b : Nat) : ∀ range ∈ ranges b, 0x80 ≤ range.1 ∧ range.2 ≤ 0xBF := by
  rw [ranges]
  repeat' split
  all_goals simp

theorem fitting_front (limits : List (Nat × Nat)) (rest : List Nat) : fitting limits rest <+: rest := by
  induction limits generalizing rest with
  | nil => exact List.nil_prefix
  | cons range later onward =>
    cases rest with
    | nil => exact List.nil_prefix
    | cons b rest =>
      rw [fitting]
      split
      · exact List.cons_prefix_cons.mpr ⟨rfl, onward rest⟩
      · exact List.nil_prefix

theorem fitting_continues (limits : List (Nat × Nat))
    (within : ∀ range ∈ limits, 0x80 ≤ range.1 ∧ range.2 ≤ 0xBF) (rest : List Nat) : ∀ b ∈ fitting limits rest, Continues b := by
  induction limits generalizing rest with
  | nil => exact nofun
  | cons range later onward =>
    cases rest with
    | nil => exact nofun
    | cons b rest =>
      rw [fitting]
      split
      · rename_i fits
        have bounds := within range List.mem_cons_self
        intro other member
        cases List.mem_cons.mp member with
        | inl same =>
          rw [same, Continues]
          omega
        | inr inside =>
          exact onward (fun range member => within range (List.mem_cons_of_mem _ member)) rest other inside
      · exact nofun

theorem decode_continues (b : Nat) (continues : Continues b) (rest : List Nat) :
    decode (b :: rest) = replacement :: decode rest := by
  have alone : ranges b = [] := by
    rw [Continues] at continues
    rw [ranges, if_pos (by omega)]
  have begins : first b rest = (replacement, []) := by
    rw [Continues] at continues
    rw [first, if_neg (by omega), alone]
    rfl
  rw [decode_cons, begins]
  rfl

theorem decode_append_continues (front rest : List Nat) (continue_all : ∀ b ∈ front, Continues b) :
    (decode (front ++ rest)).length = front.length + (decode rest).length := by
  induction front with
  | nil => simp
  | cons b front later =>
    have onward := later fun other member => continue_all other (List.mem_cons_of_mem _ member)
    rw [List.cons_append, decode_continues b (continue_all b List.mem_cons_self), List.length_cons, onward,
      List.length_cons]
    omega

theorem first_taken (b : Nat) (rest : List Nat) :
    (first b rest).2 <+: rest ∧ ∀ t ∈ (first b rest).2, Continues t := by
  rw [first]
  split
  · exact ⟨List.nil_prefix, nofun⟩
  · exact ⟨fitting_front _ _, fitting_continues _ (ranges_continue b) rest⟩

theorem decode_length (b : Nat) (rest : List Nat) : (decode (b :: rest)).length ≤ (decode rest).length + 1 := by
  obtain ⟨behind, split⟩ := (first_taken b rest).1
  have all := decode_append_continues (first b rest).2 behind (first_taken b rest).2
  have left : rest.drop (first b rest).2.length = behind :=
    (congrArg (List.drop (first b rest).2.length) split.symm).trans List.drop_left
  rw [decode_cons, left, List.length_cons]
  rw [split] at all
  omega

theorem fitting_all (limits : List (Nat × Nat)) (taken rest : List Nat)
    (fits : List.Forall₂ (fun range b => range.1 ≤ b ∧ b ≤ range.2) limits taken) :
    fitting limits (taken ++ rest) = taken := by
  induction fits with
  | nil =>
    rw [List.nil_append]
    cases rest <;> rfl
  | cons here _ later => rw [List.cons_append, fitting, if_pos here, later]

theorem decode_sequence (b : Nat) (taken rest : List Nat) (filled : taken ≠ []) (high : 0x80 ≤ b)
    (fits : List.Forall₂ (fun range t => range.1 ≤ t ∧ t ≤ range.2) (ranges b) taken) :
    decode (b :: (taken ++ rest)) = Char.ofNat (value b taken) :: decode rest := by
  have all := fitting_all (ranges b) taken rest fits
  have long : (ranges b).length = taken.length := fits.length_eq
  have some_range : ranges b ≠ [] := by
    intro none
    rw [none, List.length_nil] at long
    exact filled (List.length_eq_zero_iff.mp long.symm)
  have begins : first b (taken ++ rest) = (Char.ofNat (value b taken), taken) := by
    rw [first, if_neg (by omega), all]
    dsimp only
    rw [if_pos ⟨some_range, long.symm⟩]
  rw [decode_cons, begins]
  dsimp only
  rw [List.drop_left]

theorem decode_encode (c : Char) (rest : List Nat) : decode (encode c ++ rest) = c :: decode rest := by
  have valid : c.toNat < 0xD800 ∨ 0xDFFF < c.toNat ∧ c.toNat < 0x110000 := c.valid
  have back : Char.ofNat c.toNat = c := Char.ofNat_toNat c
  rw [encode]
  generalize c.toNat = n at valid back ⊢
  split
  · rename_i one
    have begins : first n rest = (c, []) := by rw [first, if_pos one, back]
    rw [List.singleton_append, decode_cons, begins]
    rfl
  · rename_i beyond
    split
    · rename_i two
      have limits : ranges (0xC0 + n / 64) = [(0x80, 0xBF)] := by
        rw [ranges, if_neg (by omega), if_pos (by omega)]
      have number : value (0xC0 + n / 64) [0x80 + n % 64] = n := by
        rw [value, if_pos (by omega), List.foldl_cons, List.foldl_nil]
        omega
      have read := decode_sequence (0xC0 + n / 64) [0x80 + n % 64] rest (by simp) (by omega)
        (by rw [limits]; simp; omega)
      rw [number, back] at read
      exact read
    · split
      · rename_i three
        have fits : List.Forall₂ (fun range t => range.1 ≤ t ∧ t ≤ range.2) (ranges (0xE0 + n / 4096))
            [0x80 + n / 64 % 64, 0x80 + n % 64] := by
          rw [ranges]
          repeat' split
          all_goals first
            | omega
            | simp
              omega
        have number : value (0xE0 + n / 4096) [0x80 + n / 64 % 64, 0x80 + n % 64] = n := by
          rw [value, if_neg (by omega), if_pos (by omega), List.foldl_cons, List.foldl_cons, List.foldl_nil]
          omega
        have read := decode_sequence (0xE0 + n / 4096) [0x80 + n / 64 % 64, 0x80 + n % 64] rest (by simp) (by omega)
          fits
        rw [number, back] at read
        exact read
      · rename_i four
        have fits : List.Forall₂ (fun range t => range.1 ≤ t ∧ t ≤ range.2) (ranges (0xF0 + n / 262144))
            [0x80 + n / 4096 % 64, 0x80 + n / 64 % 64, 0x80 + n % 64] := by
          rw [ranges]
          repeat' split
          all_goals first
            | omega
            | simp
              omega
        have number : value (0xF0 + n / 262144) [0x80 + n / 4096 % 64, 0x80 + n / 64 % 64, 0x80 + n % 64] = n := by
          rw [value, if_neg (by omega), if_neg (by omega), List.foldl_cons, List.foldl_cons, List.foldl_cons,
            List.foldl_nil]
          omega
        have read := decode_sequence (0xF0 + n / 262144) [0x80 + n / 4096 % 64, 0x80 + n / 64 % 64, 0x80 + n % 64]
          rest (by simp) (by omega) fits
        rw [number, back] at read
        exact read

end Utf8
