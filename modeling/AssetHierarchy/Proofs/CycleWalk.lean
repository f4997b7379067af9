import AssetHierarchy.Proofs.Ancestry
import AssetHierarchy.Proofs.Lists

/-! The search for cycles is exact: it flags a node if and only if parent links lead from the node
back to it. The state of a walk is pinned down by the colours. The nodes that are done are closed
under parents and carry their final flags, the nodes in progress are the path, and the path is one
chain of links, each node at the place that is noted for it. -/
namespace AssetHierarchy

open Relation

variable {n : Nat} {parent : Fin n → Option (Fin n)}

namespace Walk

/-! ### Invariants -/

/-- Every node that has been reached carries its final flag. -/
structure Explored (parent : Fin n → Option (Fin n)) (w : Walk n) : Prop where
  inProgress_iff : ∀ i, w.colour.get i = .inProgress ↔ i ∈ w.path.toList
  closed : ∀ i p, w.colour.get i ≠ .unvisited → parent i = some p → w.colour.get p ≠ .unvisited
  onCycle_iff : ∀ i, w.onCycle.get i = true ↔ w.colour.get i ≠ .unvisited ∧ OnCycle parent i

/-- A walk on its way up: the next node is the parent of the last one on the path. -/
structure Climbing (parent : Fin n → Option (Fin n)) (w : Walk n) (next : Option (Fin n)) :
    Prop where
  inProgress_iff : ∀ i, w.colour.get i = .inProgress ↔ i ∈ w.path.toList
  closed : ∀ i p, w.colour.get i = .done → parent i = some p → w.colour.get p = .done
  onCycle_iff : ∀ i, w.onCycle.get i = true ↔ w.colour.get i = .done ∧ OnCycle parent i
  position_eq : ∀ k i, w.path.toList[k]? = some i → w.position.get i = k
  link : ∀ k i, w.path.toList[k]? = some i → parent i = (w.path.toList ++ next.toList)[k + 1]?

theorem explored_start (parent : Fin n → Option (Fin n)) : Explored parent (start n) := by
  have hcolour : ∀ i, (start n).colour.get i = .unvisited := by simp [start, Vector.get]
  have hflag : ∀ i, (start n).onCycle.get i = false := by simp [start, Vector.get]
  constructor
  · intro i
    rw [hcolour]
    simp [start]
  · intro i p hi
    exact absurd (hcolour i) hi
  · intro i
    rw [hcolour, hflag]
    simp

theorem Explored.climbing {w : Walk n} (h : Explored parent w) (hpath : w.path = #[])
    (next : Option (Fin n)) : Climbing parent w next := by
  have hdone : ∀ i, w.colour.get i ≠ .unvisited ↔ w.colour.get i = .done := by
    intro i
    have hi := (h.inProgress_iff i).not
    cases hc : w.colour.get i <;> simp_all
  constructor
  · exact h.inProgress_iff
  · intro i p hi hp
    exact (hdone p).mp (h.closed i p ((hdone i).mpr hi) hp)
  · intro i
    rw [h.onCycle_iff, hdone]
  · simp [hpath]
  · simp [hpath]

/-! ### One step -/

variable {w : Walk n} {i : Fin n}

theorem Climbing.push (h : Climbing parent w (some i)) (hi : w.colour.get i = .unvisited) :
    Climbing parent (w.push i) (parent i) := by
  have hcolour : ∀ j, (w.push i).colour.get j = if i = j then .inProgress else w.colour.get j :=
    fun j => get_set _ _ _ _
  have hposition : ∀ j, (w.push i).position.get j =
      if i = j then w.path.size else w.position.get j :=
    fun j => get_set _ _ _ _
  have hpath : (w.push i).path.toList = w.path.toList ++ [i] := by simp [Walk.push]
  have hnot : i ∉ w.path.toList := by
    rw [← h.inProgress_iff, hi]
    decide
  constructor
  · intro j
    rw [hcolour, hpath, List.mem_append, List.mem_singleton, ← h.inProgress_iff]
    by_cases hj : i = j
    · simp [hj]
    · simp [hj, Ne.symm hj]
  · intro j p hj hp
    rw [hcolour] at hj ⊢
    split at hj
    · contradiction
    · have hdone := h.closed j p hj hp
      rw [if_neg (by rintro rfl; rw [hi] at hdone; contradiction)]
      exact hdone
  · intro j
    have hsame : (w.push i).onCycle = w.onCycle := rfl
    rw [hsame, hcolour, h.onCycle_iff]
    by_cases hj : i = j
    · subst hj
      simp [hi]
    · simp [hj]
  · intro k j hk
    rw [hpath] at hk
    rw [hposition]
    rcases getElem?_concat hk with hk | ⟨rfl, rfl⟩
    · rw [if_neg (by rintro rfl; exact hnot (List.mem_of_getElem? hk))]
      exact h.position_eq k j hk
    · simp
  · intro k j hk
    rw [hpath] at hk ⊢
    rcases getElem?_concat hk with hk | ⟨rfl, rfl⟩
    · have hlt : k < w.path.toList.length := (List.getElem?_eq_some_iff.mp hk).1
      rw [h.link k j hk]
      exact (List.getElem?_append_left (by simpa using hlt)).symm
    · cases hp : parent j <;> simp

/-! ### The end of a path -/

variable {next : Option (Fin n)}

/-- Going up the path, and from its end to the next node, follows links. -/
theorem Climbing.within (h : Climbing parent w next) {k m : Nat} {u v : Fin n}
    (hu : w.path.toList[k]? = some u) (hkm : k ≤ m)
    (hv : (w.path.toList ++ next.toList)[m]? = some v) : Within parent u v := by
  induction m, hkm using Nat.le_induction generalizing v with
  | base =>
    rw [List.getElem?_append_left (List.getElem?_eq_some_iff.mp hu).1, hu] at hv
    obtain rfl := Option.some.inj hv
    exact .refl
  | succ m hkm ih =>
    have hlt : m < w.path.toList.length := by
      have hm := (List.getElem?_eq_some_iff.mp hv).1
      have hnext : next.toList.length ≤ 1 := by cases next <;> simp
      rw [List.length_append] at hm
      omega
    have hx : w.path.toList[m]? = some w.path.toList[m] := List.getElem?_eq_getElem hlt
    refine .tail (ih (by rw [List.getElem?_append_left hlt, hx])) ?_
    exact (h.link m _ hx).trans hv

theorem Climbing.closed_of_next (h : Climbing parent w next)
    (hnext : ∀ p ∈ next, w.colour.get p ≠ .unvisited) (u p : Fin n)
    (hu : w.colour.get u ≠ .unvisited) (hp : parent u = some p) :
    w.colour.get p ≠ .unvisited := by
  cases hc : w.colour.get u with
  | unvisited => exact absurd hc hu
  | done =>
    rw [h.closed u p hc hp]
    decide
  | inProgress =>
    obtain ⟨k, hk⟩ := List.mem_iff_getElem?.mp ((h.inProgress_iff u).mp hc)
    have hmem := List.mem_of_getElem? ((h.link k u hk).symm.trans hp)
    rcases List.mem_append.mp hmem with hmem | hmem
    · rw [(h.inProgress_iff p).mpr hmem]
      decide
    · exact hnext p (by simpa using hmem)

/-- If the path ends without meeting itself, then no node of it is on a cycle. -/
theorem Climbing.explored (h : Climbing parent w next)
    (hnext : ∀ p ∈ next, w.colour.get p ≠ .unvisited)
    (hfree : ∀ u ∈ w.path.toList, ¬OnCycle parent u) : Explored parent w := by
  refine ⟨h.inProgress_iff, h.closed_of_next hnext, fun u => ?_⟩
  rw [h.onCycle_iff]
  have hu := h.inProgress_iff u
  cases hc : w.colour.get u with
  | unvisited => simp
  | done => simp
  | inProgress => simp [hfree u (hu.mp hc)]

theorem Climbing.explored_of_none (h : Climbing parent w none) : Explored parent w := by
  refine h.explored (by simp) fun u hu hcycle => ?_
  obtain ⟨k, hk⟩ := List.mem_iff_getElem?.mp hu
  -- the last node of the path lies above `u` and has no parent
  have hlt := (List.getElem?_eq_some_iff.mp hk).1
  have hlast : w.path.toList[w.path.toList.length - 1]? =
      some w.path.toList[w.path.toList.length - 1] := List.getElem?_eq_getElem (by omega)
  have hwithin := h.within hk (Nat.le_sub_one_of_lt hlt)
    ((List.getElem?_append_left (by omega)).trans hlast)
  refine (hcycle.of_within hwithin).parent_ne_none ?_
  rw [h.link _ _ hlast]
  exact List.getElem?_eq_none (by simp; omega)

theorem Climbing.explored_of_done (h : Climbing parent w (some i)) (hi : w.colour.get i = .done) :
    Explored parent w := by
  refine h.explored (by simp [hi]) fun u hu => ?_
  obtain ⟨k, hk⟩ := List.mem_iff_getElem?.mp hu
  have hwithin : Within parent u i :=
    h.within hk (List.getElem?_eq_some_iff.mp hk).1.le (by simp)
  refine not_onCycle_of_closed h.closed hwithin hi ?_
  rw [(h.inProgress_iff u).mpr hu]
  decide

/-- When the path meets itself, the nodes from the meeting point on are on a cycle. -/
theorem Climbing.onCycle_iff_le (h : Climbing parent w (some i)) {m k : Nat} {u : Fin n}
    (hm : w.path.toList[m]? = some i) (hk : w.path.toList[k]? = some u) :
    OnCycle parent u ↔ m ≤ k := by
  have hmlt := (List.getElem?_eq_some_iff.mp hm).1
  have hklt := (List.getElem?_eq_some_iff.mp hk).1
  constructor
  · intro hcycle
    by_contra hlt
    -- the nodes from the meeting point on are closed under parents
    let S : Fin n → Prop := fun v => ∃ l, m ≤ l ∧ w.path.toList[l]? = some v
    have hS : ∀ v p, S v → parent v = some p → S p := by
      rintro v p ⟨l, hml, hl⟩ hp
      rw [h.link l v hl, List.getElem?_append] at hp
      split at hp
      · exact ⟨l + 1, by omega, hp⟩
      · have hp' := List.mem_of_getElem? hp
        obtain rfl : p = i := by simpa using hp'
        exact ⟨m, le_rfl, hm⟩
    have hwithin : Within parent u i := h.within hk hklt.le (by simp)
    obtain ⟨l, hml, hl⟩ : S u := (hcycle.within_back hwithin).mem_of_closed hS ⟨m, le_rfl, hm⟩
    have hkl : k = l := (h.position_eq k u hk).symm.trans (h.position_eq l u hl)
    omega
  · intro hmk
    have hlast : w.path.toList[w.path.toList.length - 1]? =
        some w.path.toList[w.path.toList.length - 1] := List.getElem?_eq_getElem (by omega)
    have hup := h.within hk (Nat.le_sub_one_of_lt hklt)
      ((List.getElem?_append_left (by omega)).trans hlast)
    have hstep : Up parent w.path.toList[w.path.toList.length - 1] i := by
      rw [Up, h.link _ _ hlast, Nat.sub_add_cancel (by omega)]
      simp
    have hdown : Within parent i u :=
      h.within hm hmk ((List.getElem?_append_left hklt).trans hk)
    exact TransGen.trans_left (TransGen.trans_right hup (.single hstep)) hdown

theorem Climbing.explored_closeCycle (h : Climbing parent w (some i))
    (hi : w.colour.get i = .inProgress) : Explored parent (w.closeCycle i) := by
  obtain ⟨m, hm⟩ := List.mem_iff_getElem?.mp ((h.inProgress_iff i).mp hi)
  refine ⟨h.inProgress_iff, h.closed_of_next (by simp [hi]), fun u => ?_⟩
  have hflag : (w.closeCycle i).onCycle.get u = true ↔
      u ∈ w.path.toList.drop m ∨ w.onCycle.get u = true := by
    show (setAll _ _ _).get u = true ↔ _
    rw [h.position_eq m i hm]
    by_cases hu : u ∈ w.path.toList.drop m
    · simp [get_setAll_of_mem _ _ hu, hu]
    · simp [get_setAll_of_notMem _ _ hu, hu]
  have hdrop : u ∈ w.path.toList.drop m ↔ ∃ k, m ≤ k ∧ w.path.toList[k]? = some u := by
    rw [List.mem_iff_getElem?]
    simp only [List.getElem?_drop]
    exact ⟨fun ⟨k, hk⟩ => ⟨m + k, by omega, hk⟩,
      fun ⟨k, hmk, hk⟩ => ⟨k - m, by rwa [Nat.add_sub_cancel' hmk]⟩⟩
  have hcolour : (w.closeCycle i).colour = w.colour := rfl
  rw [hflag, hdrop, hcolour, h.onCycle_iff]
  by_cases hu : w.colour.get u = .inProgress
  · obtain ⟨k, hk⟩ := List.mem_iff_getElem?.mp ((h.inProgress_iff u).mp hu)
    have hunique : ∀ l, w.path.toList[l]? = some u → l = k :=
      fun l hl => (h.position_eq l u hl).symm.trans (h.position_eq k u hk)
    rw [h.onCycle_iff_le hm hk, hu]
    constructor
    · rintro (⟨l, hml, hl⟩ | ⟨hdone, _⟩)
      · exact ⟨by decide, hunique l hl ▸ hml⟩
      · contradiction
    · rintro ⟨_, hmk⟩
      exact .inl ⟨k, hmk, hk⟩
  · have hnot : ¬∃ k, m ≤ k ∧ w.path.toList[k]? = some u := by
      rintro ⟨k, _, hk⟩
      exact hu ((h.inProgress_iff u).mpr (List.mem_of_getElem? hk))
    cases hc : w.colour.get u <;> simp_all

/-! ### Runs -/

theorem follow_unvisited (hi : w.colour.get i = .unvisited) :
    follow parent w (some i) = follow parent (w.push i) (parent i) := by
  rw [follow]
  split <;> simp_all

theorem follow_inProgress (hi : w.colour.get i = .inProgress) :
    follow parent w (some i) = w.closeCycle i := by
  rw [follow]
  split <;> simp_all

theorem follow_done (hi : w.colour.get i = .done) : follow parent w (some i) = w := by
  rw [follow]
  split <;> simp_all

theorem explored_follow (h : Climbing parent w next) : Explored parent (follow parent w next) := by
  induction w, next using follow.induct parent with
  | case1 w =>
    rw [follow]
    exact h.explored_of_none
  | case2 w i hi ih =>
    rw [follow_unvisited hi]
    exact ih (h.push hi)
  | case3 w i hi =>
    rw [follow_inProgress hi]
    exact h.explored_closeCycle hi
  | case4 w i hi =>
    rw [follow_done hi]
    exact h.explored_of_done hi

theorem colour_push_ne_unvisited {j : Fin n} (hj : j = i ∨ w.colour.get j ≠ .unvisited) :
    (w.push i).colour.get j ≠ .unvisited := by
  show (w.colour.set i .inProgress i.isLt).get j ≠ .unvisited
  rw [get_set]
  split
  · decide
  · next hij => exact hj.resolve_left (Ne.symm hij)

/-- A node that has been reached stays reached, and the first node is reached. -/
theorem colour_follow_ne_unvisited {j : Fin n} (hj : next = some j ∨ w.colour.get j ≠ .unvisited) :
    (follow parent w next).colour.get j ≠ .unvisited := by
  induction w, next using follow.induct parent with
  | case1 w =>
    rw [follow]
    exact hj.resolve_left (by simp)
  | case2 w i hi ih =>
    rw [follow_unvisited hi]
    exact ih (.inr (colour_push_ne_unvisited (hj.imp_left fun h => (Option.some.inj h).symm)))
  | case3 w i hi =>
    rw [follow_inProgress hi]
    refine hj.elim (fun h => ?_) id
    rw [← Option.some.inj h]
    show w.colour.get i ≠ .unvisited
    simp [hi]
  | case4 w i hi =>
    rw [follow_done hi]
    refine hj.elim (fun h => ?_) id
    simp [← Option.some.inj h, hi]

theorem colour_settle (w : Walk n) (j : Fin n) :
    w.settle.colour.get j = if j ∈ w.path.toList then .done else w.colour.get j := by
  show (setAll w.colour w.path.toList .done).get j = _
  split
  · next h => exact get_setAll_of_mem _ _ h
  · next h => exact get_setAll_of_notMem _ _ h

theorem Explored.colour_settle_eq_unvisited_iff (h : Explored parent w) (j : Fin n) :
    w.settle.colour.get j = .unvisited ↔ w.colour.get j = .unvisited := by
  rw [colour_settle]
  split
  · next hj => simp [(h.inProgress_iff j).mpr hj]
  · rfl

theorem Explored.settle (h : Explored parent w) : Explored parent w.settle := by
  have hsame : w.settle.onCycle = w.onCycle := rfl
  have hpath : w.settle.path.toList = [] := rfl
  have hreached := fun j => not_congr (h.colour_settle_eq_unvisited_iff j)
  constructor
  · intro j
    have hj := h.inProgress_iff j
    rw [colour_settle, hpath]
    split <;> simp_all
  · intro j p hj hp
    exact (hreached p).mpr (h.closed j p ((hreached j).mp hj) hp)
  · intro j
    rw [hsame, h.onCycle_iff]
    exact and_congr_left fun _ => (hreached j).symm

/-- Between two walks the path is empty. -/
structure Idle (parent : Fin n → Option (Fin n)) (w : Walk n) : Prop extends Explored parent w where
  path_eq : w.path = #[]

theorem idle_visit (h : Idle parent w) (i : Fin n) : Idle parent (visit parent w i) := by
  unfold visit
  split
  · exact ⟨(explored_follow (h.toExplored.climbing h.path_eq _)).settle, rfl⟩
  · exact h

theorem colour_visit_ne_unvisited (h : Idle parent w) {j : Fin n}
    (hj : i = j ∨ w.colour.get j ≠ .unvisited) :
    (visit parent w i).colour.get j ≠ .unvisited := by
  unfold visit
  split
  · have hex := explored_follow (h.toExplored.climbing h.path_eq (some i))
    rw [ne_eq, hex.colour_settle_eq_unvisited_iff]
    exact colour_follow_ne_unvisited (hj.imp_left (congrArg some))
  · next hi => exact hj.elim (fun hij => hij ▸ hi) id

theorem foldl_visit (is : List (Fin n)) (h : Idle parent w) :
    Idle parent (is.foldl (visit parent) w) ∧
      ∀ j, j ∈ is ∨ w.colour.get j ≠ .unvisited →
        (is.foldl (visit parent) w).colour.get j ≠ .unvisited := by
  induction is generalizing w with
  | nil => exact ⟨h, fun j hj => hj.resolve_left (by simp)⟩
  | cons i rest ih =>
    obtain ⟨hidle, hreached⟩ := ih (idle_visit h i)
    refine ⟨hidle, fun j hj => hreached j ?_⟩
    rcases hj with hj | hj
    · rcases List.mem_cons.mp hj with rfl | hj
      · exact .inr (colour_visit_ne_unvisited h (.inl rfl))
      · exact .inl hj
    · exact .inr (colour_visit_ne_unvisited h (.inr hj))

theorem onCycle_all (parent : Fin n → Option (Fin n)) (i : Fin n) :
    (all parent).onCycle.get i = true ↔ OnCycle parent i := by
  obtain ⟨hidle, hreached⟩ :=
    foldl_visit (List.finRange n) ⟨explored_start parent, rfl⟩
  have hi : (all parent).colour.get i ≠ .unvisited := hreached i (.inl (List.mem_finRange i))
  exact (hidle.onCycle_iff i).trans (and_iff_right hi)

end Walk

namespace Graph

variable (g : Graph n)

theorem get_cycleFlags_iff (i : Fin n) : g.cycleFlags.get i = true ↔ OnCycle g.parent i :=
  Walk.onCycle_all g.parent i

theorem mem_cycleMembers {i : Fin n} : i ∈ g.cycleMembers ↔ OnCycle g.parent i := by
  simp [cycleMembers, positions, g.get_cycleFlags_iff]

theorem get_cycleFlags_eq_false_iff (i : Fin n) :
    g.cycleFlags.get i = false ↔ ¬OnCycle g.parent i := by
  rw [← get_cycleFlags_iff, Bool.not_eq_true]

theorem isEmpty_cycleMembers_iff : g.cycleMembers.isEmpty = true ↔ ∀ i, ¬OnCycle g.parent i := by
  simp only [List.isEmpty_iff, List.eq_nil_iff_forall_not_mem, g.mem_cycleMembers]

end Graph

/-- A flag says that parent links lead from the node back to it. A node whose links lead into a
cycle from outside has none, nor has a node below a root; there is no flag at all exactly when every
node is below a root. -/
theorem cycleFlags_mark_cycles (nodes : List Node) :
    let g := Graph.ofList nodes
    (∀ i, g.cycleFlags.get i = true ↔ TransGen (Up g.parent) i i) ∧
    (∀ i a, Within g.parent i a → OnCycle g.parent a → ¬Within g.parent a i →
      g.cycleFlags.get i = false) ∧
    (∀ i r, Within g.parent i r → g.parent r = none → g.cycleFlags.get i = false) ∧
    ((∀ i, g.cycleFlags.get i = false) ↔
      ∀ i, ∃ r, Within g.parent i r ∧ g.parent r = none) := by
  intro g
  refine ⟨g.get_cycleFlags_iff, ?_, ?_, ?_⟩
  · intro i a hup _ hnot
    exact (g.get_cycleFlags_eq_false_iff i).mpr fun hi => hnot (hi.within_back hup)
  · intro i r hup hroot
    exact (g.get_cycleFlags_eq_false_iff i).mpr fun hi => (hi.of_within hup).parent_ne_none hroot
  · simp only [g.get_cycleFlags_eq_false_iff]
    exact acyclic_iff_exists_root

end AssetHierarchy
