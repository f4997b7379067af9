import AssetHierarchy.Hierarchy.Plan
import Mathlib.Algebra.Order.Floor.Div
import Mathlib.Data.List.Induction
import Mathlib.Data.List.NodupEquivFin
import Mathlib.Data.List.Perm.Basic
import Mathlib.GroupTheory.GroupAction.Ring

/-! Lists by place, lists without repetitions and lists in pieces. The pieces of a list are the list
again when they are put together; none is empty, and none is longer than the given size. -/
namespace AssetHierarchy

variable {α : Type}

/-! ### Places -/

theorem getElem?_concat {l : List α} {a b : α} {k : Nat} (h : (l ++ [a])[k]? = some b) :
    l[k]? = some b ∨ k = l.length ∧ b = a := by
  rw [List.getElem?_append] at h
  split at h
  · exact .inl h
  · next hk =>
    obtain hk0 : k - l.length = 0 := by
      have hlt := (List.getElem?_eq_some_iff.mp h).1
      simpa using hlt
    rw [hk0] at h
    exact .inr ⟨by omega, by simpa using h.symm⟩

theorem pairwise_zipIdx (l : List α) : l.zipIdx.Pairwise fun a b => a.2 < b.2 := by
  have h : (l.zipIdx.map Prod.snd).Pairwise (· < ·) := by
    rw [List.zipIdx_map_snd]
    exact List.pairwise_lt_range'
  exact List.pairwise_map.mp h

/-- What becomes of the element at one place alone. -/
theorem flatMap_zipIdx_at {β : Type} (l : List α) (f : α → List β) (start d : Nat) :
    (l.zipIdx start).flatMap (fun x => if x.2 = start + d then f x.1 else []) =
      l[d]?.toList.flatMap f := by
  induction l generalizing start d with
  | nil => simp
  | cons a rest ih =>
    rw [List.zipIdx_cons, List.flatMap_cons]
    cases d with
    | zero =>
      have hlater : (rest.zipIdx (start + 1)).flatMap
          (fun x => if x.2 = start + 0 then f x.1 else []) = [] := by
        rw [List.flatMap_eq_nil_iff]
        intro x hx
        have hle : start + 1 ≤ x.2 := (List.mem_zipIdx hx).1
        rw [if_neg (by omega)]
      rw [hlater]
      simp
    | succ d =>
      have hstart : start + (d + 1) = start + 1 + d := by omega
      rw [hstart, ih (start + 1) d, if_neg (show ¬start = start + 1 + d by omega)]
      simp

theorem mem_dropLast_or_getLast? {l : List α} {a : α} (h : a ∈ l) :
    a ∈ l.dropLast ∨ l.getLast? = some a := by
  have hne : l ≠ [] := List.ne_nil_of_mem h
  rw [← List.dropLast_concat_getLast hne, List.mem_append, List.mem_singleton] at h
  refine h.imp id fun hlast => ?_
  rw [List.getLast?_eq_some_getLast hne, hlast]

theorem find?_reverse_concat (p : α → Bool) (l : List α) (a : α) :
    (l ++ [a]).reverse.find? p = if p a then some a else l.reverse.find? p := by
  rw [List.reverse_concat, List.find?_cons]
  cases p a <;> rfl

theorem length_filter_finRange (l : List α) (p : α → Bool) :
    ((List.finRange l.length).filter fun i => p (l.get i)).length = l.countP p := by
  conv_rhs => rw [← List.map_get_finRange l, List.countP_map]
  exact List.countP_eq_length_filter.symm

theorem exists_places_of_perm {l l' : List α} (h : l.Perm l') :
    ∃ is : List (Fin l.length), is.Perm (List.finRange l.length) ∧ l' = is.map l.get := by
  have hplaces : List.Forall₂ (fun a i => a = l.get i)
      ((List.finRange l.length).map l.get) (List.finRange l.length) :=
    List.forall₂_map_left_iff.mpr (List.forall₂_same.mpr fun _ _ => rfl)
  rw [List.map_get_finRange] at hplaces
  obtain ⟨is, his, hperm⟩ := List.perm_comp_forall₂ h.symm hplaces
  refine ⟨is, hperm, ?_⟩
  rw [← List.forall₂_map_right_iff, List.forall₂_eq_eq_eq] at his
  exact his

/-- Each place of a rearranged list has the place where its element stood before. -/
theorem exists_equiv_of_perm {l l' : List α} (h : l.Perm l') :
    ∃ e : Fin l'.length ≃ Fin l.length, ∀ i, l'.get i = l.get (e i) := by
  obtain ⟨is, hperm, rfl⟩ := exists_places_of_perm h
  have hmem : ∀ i, i ∈ is := fun i => hperm.mem_iff.mpr (List.mem_finRange i)
  have hnodup : is.Nodup := hperm.nodup_iff.mpr (List.nodup_finRange _)
  have hlength : (is.map l.get).length = is.length := List.length_map _
  exact ⟨(finCongr hlength).trans (hnodup.getEquivOfForallMemList is hmem), fun i => by simp⟩

/-! ### Repetitions -/

theorem eq_of_mem_of_length_le_one {l : List α} (h : l.length ≤ 1) {a b : α} (ha : a ∈ l)
    (hb : b ∈ l) : a = b := by
  obtain ⟨c, rfl⟩ : ∃ c, l = [c] :=
    List.length_eq_one_iff.mp (Nat.le_antisymm h (List.length_pos_of_mem ha))
  rw [List.mem_singleton.mp ha, List.mem_singleton.mp hb]

theorem eq_of_countP_le_one {l : List α} {p : α → Bool} (h : l.countP p ≤ 1) {i j : Fin l.length}
    (hi : p (l.get i) = true) (hj : p (l.get j) = true) : i = j := by
  rw [← length_filter_finRange] at h
  exact eq_of_mem_of_length_le_one h (List.mem_filter.mpr ⟨List.mem_finRange i, hi⟩)
    (List.mem_filter.mpr ⟨List.mem_finRange j, hj⟩)

theorem nodup_eraseDups [BEq α] [LawfulBEq α] (l : List α) : l.eraseDups.Nodup := by
  induction l using List.reverseRecOn with
  | nil => exact List.nodup_nil
  | append_singleton l a ih =>
    rw [List.eraseDups_append]
    by_cases ha : a ∈ l
    · simpa [List.removeAll, ha] using ih
    · have hnot : ∀ b ∈ l, b ≠ a := fun b hb hba => ha (hba ▸ hb)
      simpa [List.removeAll, ha, List.eraseDups_cons, List.nodup_append, ih] using hnot

/-- Collecting what has not been seen yet. -/
theorem foldl_distinct {β : Type} [BEq α] [LawfulBEq α] (f : β → Option α)
    {step : List α → β → List α} (hnone : ∀ seen i, f i = none → step seen i = seen)
    (hsome : ∀ seen i a, f i = some a →
      step seen i = if seen.contains a then seen else seen ++ [a]) (l : List β) :
    l.foldl step [] = (l.filterMap f).eraseDups := by
  induction l using List.reverseRecOn with
  | nil => rfl
  | append_singleton l i ih =>
    rw [List.foldl_append, List.foldl_cons, List.foldl_nil, ih, List.filterMap_append,
      List.eraseDups_append]
    cases hi : f i with
    | none => simp [hnone _ i hi, hi]
    | some a =>
      rw [hsome _ i a hi]
      by_cases ha : a ∈ l.filterMap f
      · simp [hi, ha, List.removeAll, List.mem_eraseDups]
      · simp [hi, ha, List.removeAll, List.mem_eraseDups, List.eraseDups_cons]

/-! ### Pairs -/

section

variable {κ β γ : Type} [DecidableEq κ]

theorem lookup_map_snd (f : κ → β → γ) (l : List (κ × β)) (k : κ) :
    (l.map fun p => (p.1, f p.1 p.2)).lookup k = (l.lookup k).map (f k) := by
  induction l with
  | nil => rfl
  | cons p rest ih =>
    rw [List.map_cons, List.lookup_cons, List.lookup_cons]
    cases hk : k == p.1 with
    | true =>
      rw [← eq_of_beq hk]
      rfl
    | false => exact ih

theorem lookup_singleton (k j : κ) (b : β) :
    [(j, b)].lookup k = if k = j then some b else none := by
  rw [List.lookup_cons]
  by_cases h : k = j
  · rw [if_pos h, beq_iff_eq.mpr h]
  · rw [if_neg h, beq_eq_false_iff_ne.mpr h]
    rfl

/-- Values that are given names are found in their places. -/
theorem lookup_zip {names : List κ} (hn : names.Nodup) (items : List β) {i : Nat} {k : κ}
    (hi : names[i]? = some k) : (names.zip items).lookup k = items[i]? := by
  induction names generalizing items i with
  | nil => exact nomatch hi
  | cons name rest ih =>
    obtain ⟨hname, hrest⟩ := List.nodup_cons.mp hn
    cases items with
    | nil => simp
    | cons item items =>
      cases i with
      | zero =>
        obtain rfl := Option.some.inj hi
        simp
      | succ i =>
        have hk : k ∈ rest := List.mem_of_getElem? hi
        have hne : (k == name) = false := beq_eq_false_iff_ne.mpr fun h => hname (h ▸ hk)
        rw [List.zip_cons_cons, List.lookup_cons, hne]
        exact ih hrest items hi

theorem isSome_lookup_iff (l : List (κ × β)) (k : κ) :
    (l.lookup k).isSome = true ↔ (l.map (·.1)).contains k = true := by
  simp [List.lookup_isSome_iff]

end

/-! ### Pieces -/

variable {size : Nat}

@[simp] theorem chunks_nil (h : 0 < size) : chunks size ([] : List α) = [] := by
  have hcount : (([] : List α).length + size - 1) / size = 0 := by
    rw [List.length_nil]
    exact Nat.div_eq_of_lt (by omega)
  rw [chunks, hcount, List.range_zero, List.map_nil]

theorem chunks_of_ne_nil (h : 0 < size) {l : List α} (hl : l ≠ []) :
    chunks size l = l.take size :: chunks size (l.drop size) := by
  have hlen : 0 < l.length := List.length_pos_iff.mpr hl
  have hcount : (l.length + size - 1) / size = ((l.drop size).length + size - 1) / size + 1 := by
    rw [List.length_drop]
    rcases Nat.lt_or_ge l.length size with hlt | hge
    · rw [Nat.sub_eq_zero_of_le (Nat.le_of_lt hlt),
        Nat.div_eq_of_lt (show 0 + size - 1 < size by omega),
        show l.length + size - 1 = l.length - 1 + size by omega, Nat.add_div_right _ h,
        Nat.div_eq_of_lt (by omega)]
    · rw [show l.length + size - 1 = l.length - size + size - 1 + size by omega,
        Nat.add_div_right _ h]
  rw [chunks, hcount, List.range_succ_eq_map, List.map_cons, List.map_map]
  simp [chunks, List.drop_drop, Function.comp_def, Nat.succ_mul, Nat.add_comm]

/-- What holds of the empty list, and of a list if it holds of what follows its first piece, holds
of every list. -/
theorem chunks_induction (h : 0 < size) {motive : List α → Prop} (nil : motive [])
    (piece : ∀ l, l ≠ [] → motive (l.drop size) → motive l) (l : List α) : motive l := by
  induction hn : l.length using Nat.strongRecOn generalizing l with
  | _ k ih =>
    by_cases hl : l = []
    · exact hl ▸ nil
    · have hlen : 0 < l.length := List.length_pos_iff.mpr hl
      exact piece l hl (ih _ (by rw [List.length_drop]; omega) _ rfl)

theorem flatten_chunks (h : 0 < size) (l : List α) : (chunks size l).flatten = l := by
  induction l using chunks_induction h with
  | nil => simp [h]
  | piece l hl ih => rw [chunks_of_ne_nil h hl, List.flatten_cons, ih, List.take_append_drop]

theorem ne_nil_of_mem_chunks (h : 0 < size) {l c : List α} (hc : c ∈ chunks size l) : c ≠ [] := by
  induction l using chunks_induction h with
  | nil => simp [h] at hc
  | piece l hl ih =>
    rw [chunks_of_ne_nil h hl, List.mem_cons] at hc
    rcases hc with rfl | hc
    · simp [hl]
      omega
    · exact ih hc

theorem length_le_of_mem_chunks (h : 0 < size) {l c : List α} (hc : c ∈ chunks size l) :
    c.length ≤ size := by
  induction l using chunks_induction h with
  | nil => simp [h] at hc
  | piece l hl ih =>
    rw [chunks_of_ne_nil h hl, List.mem_cons] at hc
    rcases hc with rfl | hc
    · exact List.length_take_le size l
    · exact ih hc

/-- Only the last piece can be short. -/
theorem length_eq_of_mem_dropLast_chunks (h : 0 < size) {l c : List α}
    (hc : c ∈ (chunks size l).dropLast) : c.length = size := by
  induction l using chunks_induction h with
  | nil => simp [h] at hc
  | piece l hl ih =>
    rw [chunks_of_ne_nil h hl] at hc
    by_cases hrest : l.drop size = []
    · simp [hrest, h] at hc
    · have hne : chunks size (l.drop size) ≠ [] := by
        rw [chunks_of_ne_nil h hrest]
        exact List.cons_ne_nil _ _
      rw [List.dropLast_cons_of_ne_nil hne, List.mem_cons] at hc
      rcases hc with rfl | hc
      · have hlong : size < l.length := by simpa using hrest
        rw [List.length_take, Nat.min_eq_left (Nat.le_of_lt hlong)]
      · exact ih hc

theorem chunks_map {β : Type} (f : α → β) (l : List α) :
    chunks size (l.map f) = (chunks size l).map (List.map f) := by
  simp [chunks, List.map_drop, List.map_take]

theorem mem_of_mem_chunks (h : 0 < size) {l c : List α} (hc : c ∈ chunks size l) {a : α}
    (ha : a ∈ c) : a ∈ l := by
  rw [← flatten_chunks h l]
  exact List.mem_flatten_of_mem hc ha

/-- A list in consecutive pieces of one size, of which only the last can be shorter. -/
structure CutInto (size : Nat) (l : List α) (pieces : List (List α)) : Prop where
  flatten_eq : pieces.flatten = l
  ne_nil : ∀ c ∈ pieces, c ≠ []
  length_le : ∀ c ∈ pieces, c.length ≤ size
  full : ∀ c ∈ pieces.dropLast, c.length = size
  length_eq : pieces.length = l.length ⌈/⌉ size

theorem cutInto_chunks (h : 0 < size) (l : List α) : CutInto size l (chunks size l) where
  flatten_eq := flatten_chunks h l
  ne_nil _ := ne_nil_of_mem_chunks h
  length_le _ := length_le_of_mem_chunks h
  full _ := length_eq_of_mem_dropLast_chunks h
  length_eq := by
    rw [chunks, List.length_map, List.length_range, Nat.ceilDiv_eq_add_pred_div]

end AssetHierarchy
