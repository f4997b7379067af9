import Mathlib.Data.Fintype.EquivFin
import Mathlib.Data.Fintype.Card
import Mathlib.Logic.Relation

/-! Chains of parent links. Every node has at most one parent, so the chain from a node is
determined: it ends at a root, or it returns to some node. A chain that passes through a cycle
stays on it, and without cycles every node has a distance from the roots, which is less than the
number of nodes. -/
namespace AssetHierarchy

open Relation

variable {n : Nat} (parent : Fin n → Option (Fin n))

/-- One step up. -/
def Up (i p : Fin n) : Prop := parent i = some p

/-- Parent links lead from the node back to it. -/
def OnCycle (i : Fin n) : Prop := TransGen (Up parent) i i

/-- The second node is the first one, or above it. -/
def Within (i a : Fin n) : Prop := ReflTransGen (Up parent) i a

/-- The number of links from a node to its root. -/
inductive AtDepth : Fin n → Nat → Prop
  | root {i : Fin n} (h : parent i = none) : AtDepth i 0
  | child {i p : Fin n} {d : Nat} (h : parent i = some p) (hp : AtDepth p d) : AtDepth i (d + 1)

variable {parent}

/-! ### Cycles -/

/-- What lies above a node of a cycle leads back to it. -/
theorem OnCycle.within_back {i a : Fin n} (hi : OnCycle parent i) (ha : Within parent i a) :
    Within parent a i := by
  induction ha with
  | refl => exact .refl
  | tail _ hstep ih =>
    obtain rfl | ⟨c, hc, hback⟩ := ReflTransGen.cases_head ih
    · obtain ⟨c, hc, hback⟩ := TransGen.head'_iff.mp hi
      obtain rfl : c = _ := Option.some.inj (hc.symm.trans hstep)
      exact hback
    · obtain rfl : c = _ := Option.some.inj (hc.symm.trans hstep)
      exact hback

theorem OnCycle.of_within {i a : Fin n} (hi : OnCycle parent i) (ha : Within parent i a) :
    OnCycle parent a :=
  TransGen.trans_right (hi.within_back ha) (TransGen.trans_left hi ha)

theorem OnCycle.parent_ne_none {i : Fin n} (hi : OnCycle parent i) : parent i ≠ none := by
  obtain ⟨p, hp, _⟩ := TransGen.head'_iff.mp hi
  rw [hp]
  exact Option.some_ne_none p

/-- A set of nodes that no link leaves holds all that lies above its members. -/
theorem Within.mem_of_closed {S : Fin n → Prop} (hS : ∀ i p, S i → parent i = some p → S p)
    {i a : Fin n} (ha : Within parent i a) (hi : S i) : S a := by
  induction ha with
  | refl => exact hi
  | tail _ hstep ih => exact hS _ _ ih hstep

/-- A node outside of a set that no link leaves, but below a member of it, is on no cycle. -/
theorem not_onCycle_of_closed {S : Fin n → Prop} (hS : ∀ i p, S i → parent i = some p → S p)
    {i a : Fin n} (ha : Within parent i a) (hSa : S a) (hSi : ¬S i) : ¬OnCycle parent i :=
  fun hi => hSi ((hi.within_back ha).mem_of_closed hS hSa)

/-- Without cycles, going up ends. -/
theorem wellFounded_up (h : ∀ i, ¬OnCycle parent i) : WellFounded fun p i => Up parent i p := by
  have hwf : WellFounded fun a i => TransGen (Up parent) i a := by
    have : IsTrans (Fin n) fun a i => TransGen (Up parent) i a := ⟨fun _ _ _ h₁ h₂ => h₂.trans h₁⟩
    have : Std.Irrefl fun a i => TransGen (Up parent) i a := ⟨h⟩
    exact Finite.wellFounded_of_trans_of_irrefl _
  exact Subrelation.wf TransGen.single hwf

/-- There are no cycles exactly when every chain ends at a root. -/
theorem acyclic_iff_exists_root :
    (∀ i, ¬OnCycle parent i) ↔ ∀ i, ∃ r, Within parent i r ∧ parent r = none := by
  constructor
  · intro h i
    induction i using (wellFounded_up h).induction with
    | _ i ih =>
      cases hp : parent i with
      | none => exact ⟨i, .refl, hp⟩
      | some p =>
        obtain ⟨r, hr, hroot⟩ := ih p hp
        exact ⟨r, .head hp hr, hroot⟩
  · intro h i hi
    obtain ⟨r, hr, hroot⟩ := h i
    exact (hi.of_within hr).parent_ne_none hroot

/-! ### Depth -/

theorem exists_atDepth (h : ∀ i, ¬OnCycle parent i) (i : Fin n) : ∃ d, AtDepth parent i d := by
  induction i using (wellFounded_up h).induction with
  | _ i ih =>
    cases hp : parent i with
    | none => exact ⟨0, .root hp⟩
    | some p =>
      obtain ⟨d, hd⟩ := ih p hp
      exact ⟨d + 1, .child hp hd⟩

theorem atDepth_zero_iff {i : Fin n} : AtDepth parent i 0 ↔ parent i = none :=
  ⟨fun h => by cases h; assumption, .root⟩

theorem atDepth_succ_iff {i : Fin n} {d : Nat} :
    AtDepth parent i (d + 1) ↔ ∃ p, parent i = some p ∧ AtDepth parent p d := by
  constructor
  · rintro (_ | ⟨hp, hd⟩)
    exact ⟨_, hp, hd⟩
  · rintro ⟨p, hp, hd⟩
    exact .child hp hd

theorem AtDepth.of_parent {i p : Fin n} {d : Nat} (hd : AtDepth parent i d)
    (hp : parent i = some p) : ∃ e, d = e + 1 ∧ AtDepth parent p e := by
  cases hd with
  | root h => exact absurd (h.symm.trans hp) (by simp)
  | child h he =>
    obtain rfl := Option.some.inj (h.symm.trans hp)
    exact ⟨_, rfl, he⟩

theorem AtDepth.unique {i : Fin n} {d e : Nat} (hd : AtDepth parent i d)
    (he : AtDepth parent i e) : d = e := by
  induction hd generalizing e with
  | root h =>
    cases he with
    | root => rfl
    | child h' => exact absurd (h.symm.trans h') (by simp)
  | child h _ ih =>
    cases he with
    | root h' => exact absurd (h'.symm.trans h) (by simp)
    | child h' hp =>
      obtain rfl := Option.some.inj (h'.symm.trans h)
      rw [ih hp]

/-- The chain of a node has a member at every smaller depth. -/
theorem AtDepth.exists_of_le {i : Fin n} {d : Nat} (hd : AtDepth parent i d) {e : Nat}
    (he : e ≤ d) : ∃ a, AtDepth parent a e := by
  induction hd with
  | root h =>
    obtain rfl := Nat.le_zero.mp he
    exact ⟨_, .root h⟩
  | child h hp ih =>
    rcases Nat.lt_or_eq_of_le he with hlt | rfl
    · exact ih (Nat.le_of_lt_succ hlt)
    · exact ⟨_, .child h hp⟩

/-- No depth reaches the number of nodes, for there is a different node at each smaller one. -/
theorem AtDepth.lt {i : Fin n} {d : Nat} (hd : AtDepth parent i d) : d < n := by
  have hex : ∀ e : Fin (d + 1), ∃ a, AtDepth parent a e :=
    fun e => hd.exists_of_le (Nat.le_of_lt_succ e.isLt)
  choose f hf using hex
  have hinj : Function.Injective f := fun a b hab => Fin.ext ((hf a).unique (hab ▸ hf b))
  have hcard : d + 1 ≤ n := by simpa using Fintype.card_le_of_injective f hinj
  exact hcard

end AssetHierarchy
