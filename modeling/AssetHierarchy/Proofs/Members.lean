import AssetHierarchy.Json.Decode
import Mathlib.Data.List.Induction

/-! Objects as lists of members. A member that is left out when its value is absent, the members in
ascending order of their keys, and what is found under a key. -/
namespace AssetHierarchy.Json

variable {α : Type}

/-! ### Members that may be absent -/

theorem lookup_member?_self (key : String) (f : α → Json) (x : Option α) :
    (member? key f x).lookup key = x.map f := by
  cases x <;> simp [member?]

theorem lookup_member?_of_ne {k key : String} (h : k ≠ key) (f : α → Json) (x : Option α) :
    (member? key f x).lookup k = none := by
  cases x <;> simp [member?, h]

theorem insert_of_forall_lt {key : String} (value : α) {l : List (String × α)}
    (h : ∀ p ∈ l, p.1 < key) : insert key value l = l ++ [(key, value)] := by
  induction l with
  | nil => rfl
  | cons p rest ih =>
    have hp : p.1 < key := h p List.mem_cons_self
    have hnot : ¬key < p.1 := String.lt_asymm hp
    have hne : key ≠ p.1 := fun heq => String.lt_irrefl _ (heq ▸ hp)
    rw [insert, if_neg hnot, if_neg hne, ih fun q hq => h q (List.mem_cons_of_mem _ hq)]
    rfl

/-- A list whose keys ascend already is kept as it is. -/
theorem ordered_of_pairwise {l : List (String × α)} (h : l.Pairwise (·.1 < ·.1)) :
    ordered l = l := by
  induction l using List.reverseRecOn with
  | nil => rfl
  | append_singleton l p ih =>
    obtain ⟨hl, -, hp⟩ := List.pairwise_append.mp h
    have hbelow : ∀ q ∈ l, q.1 < p.1 := fun q hq => hp q hq p (List.mem_singleton_self p)
    have hstep : ordered (l ++ [p]) = insert p.1 p.2 (ordered l) := by
      rw [ordered, List.foldl_append]
      rfl
    rw [hstep, ih hl, insert_of_forall_lt p.2 hbelow]

theorem lookup_insert_of_ne {k key : String} (h : k ≠ key) (value : α)
    (members : List (String × α)) : (insert key value members).lookup k = members.lookup k := by
  have hne : (k == key) = false := beq_eq_false_iff_ne.mpr h
  induction members with
  | nil => simp [insert, List.lookup_cons, hne]
  | cons m rest ih =>
    obtain ⟨k', v⟩ := m
    unfold insert
    split
    · rw [List.lookup_cons, hne]
    · split
      · next hkey => rw [List.lookup_cons, List.lookup_cons, hne, ← hkey, hne]
      · rw [List.lookup_cons, List.lookup_cons, ih]

end AssetHierarchy.Json
