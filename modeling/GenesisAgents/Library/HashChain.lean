import Mathlib.Data.List.Basic

/-! Chains of stamped entries: every entry carries the stamp of the entry before it. -/

namespace HashChain

variable {E K : Type} (link stamp : E → K)

/-- The first entry is linked to `first`, every later one to the entry before it. -/
def Linked : K → List E → Prop
  | _, [] => True
  | first, e :: rest => link e = first ∧ Linked (stamp e) rest

def tip : K → List E → K
  | first, [] => first
  | _, e :: rest => tip (stamp e) rest

theorem tip_eq_getLast (first : K) (chain : List E) :
    tip stamp first chain = (chain.getLast?.map stamp).getD first := by
  induction chain generalizing first with
  | nil => rfl
  | cons e rest later =>
    rw [tip, later]
    cases rest with
    | nil => rfl
    | cons next rest => simp [List.getLast?_cons]

theorem linked_append (first : K) (front back : List E) :
    Linked link stamp first (front ++ back) ↔
      Linked link stamp first front ∧ Linked link stamp (tip stamp first front) back := by
  induction front generalizing first with
  | nil => simp [Linked, tip]
  | cons e rest later =>
    rw [List.cons_append, Linked, Linked, tip, later, and_assoc]

theorem linked_append_singleton (first : K) (chain : List E) (e : E)
    (linked : Linked link stamp first chain) (joins : link e = tip stamp first chain) :
    Linked link stamp first (chain ++ [e]) :=
  (linked_append link stamp first chain [e]).mpr ⟨linked, joins, trivial⟩

/-- Two chains of one length that end in the same stamp agree entry by entry, when a stamp determines
what its entry agrees on and the link of the entry. -/
theorem agree_of_tip (Agree : E → E → Prop) :
    ∀ (chain other : List E) (first first' : K),
      (∀ e ∈ chain, ∀ e' ∈ other, stamp e = stamp e' → Agree e e' ∧ link e = link e') →
      chain.length = other.length → Linked link stamp first chain → Linked link stamp first' other →
      tip stamp first chain = tip stamp first' other →
      List.Forall₂ Agree chain other ∧ first = first' := by
  intro chain
  induction chain with
  | nil =>
    intro other first first' determines lengths linked linked' ends
    obtain rfl := List.length_eq_zero_iff.mp lengths.symm
    exact ⟨.nil, ends⟩
  | cons e rest later =>
    intro other first first' determines lengths linked linked' ends
    cases other with
    | nil => contradiction
    | cons e' rest' =>
      have inner := later rest' (stamp e) (stamp e')
        (fun a member b member' => determines a (List.mem_cons_of_mem _ member) b
          (List.mem_cons_of_mem _ member'))
        (Nat.succ.inj lengths) linked.2 linked'.2 ends
      have heads := determines e List.mem_cons_self e' List.mem_cons_self inner.2
      exact ⟨.cons heads.1 inner.1, linked.1.symm.trans (heads.2.trans linked'.1)⟩

end HashChain
