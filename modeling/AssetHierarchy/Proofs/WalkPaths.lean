import AssetHierarchy.Proofs.CycleWalk

/-! What a walk puts on its paths. While a path is there it is the chain of the nodes in progress,
each at the place noted for it and below its parent. All paths together hold each node that has
been reached, and hold it once. -/
namespace AssetHierarchy

variable {n : Nat}

namespace Walk

variable {parent : Fin n → Option (Fin n)} {w : Walk n} {i : Fin n} {next : Option (Fin n)}

/-- All nodes that were put on a path, in order. -/
def pushed (w : Walk n) : Array (Fin n) := w.settled ++ w.path

theorem pushed_start (n : Nat) : (start n).pushed = #[] := Array.append_empty

theorem pushed_push (w : Walk n) (i : Fin n) : (w.push i).pushed = w.pushed.push i :=
  Array.append_push

theorem pushed_settle (w : Walk n) : w.settle.pushed = w.pushed := Array.append_empty

/-! ### The path in progress -/

/-- The nodes in progress are the path, a chain of links with each node at its place. -/
structure Chained (parent : Fin n → Option (Fin n)) (w : Walk n) : Prop where
  inProgress_iff : ∀ i, w.colour.get i = .inProgress ↔ i ∈ w.path.toList
  position_eq : ∀ k i, w.path.toList[k]? = some i → w.position.get i = k
  linked : ∀ k i p, w.path.toList[k]? = some i → w.path.toList[k + 1]? = some p →
    parent i = some p

theorem Climbing.chained (h : Climbing parent w next) : Chained parent w where
  inProgress_iff := h.inProgress_iff
  position_eq := h.position_eq
  linked k i p hk hp := by
    rw [h.link k i hk, List.getElem?_append_left (List.getElem?_eq_some_iff.mp hp).1, hp]

theorem Idle.chained (h : Idle parent w) : Chained parent w :=
  (h.toExplored.climbing h.path_eq none).chained

theorem chained_follow (h : Climbing parent w next) : Chained parent (follow parent w next) := by
  induction w, next using follow.induct parent with
  | case1 w =>
    rw [follow]
    exact h.chained
  | case2 w i hi ih =>
    rw [follow_unvisited hi]
    exact ih (h.push hi)
  | case3 w i hi =>
    rw [follow_inProgress hi]
    exact ⟨h.inProgress_iff, h.position_eq, h.chained.linked⟩
  | case4 w i hi =>
    rw [follow_done hi]
    exact h.chained

/-- A path that meets itself does so at a place of its own. -/
theorem Climbing.position_lt (h : Climbing parent w (some i))
    (hi : w.colour.get i = .inProgress) : w.position.get i < w.path.size := by
  obtain ⟨k, hk⟩ := List.mem_iff_getElem?.mp ((h.inProgress_iff i).mp hi)
  rw [h.position_eq k i hk]
  exact (List.getElem?_eq_some_iff.mp hk).1

/-! ### All paths -/

/-- The paths together hold each node that has been reached, and hold it once. -/
structure Logged (w : Walk n) : Prop where
  nodup : w.pushed.toList.Nodup
  mem_iff : ∀ i, i ∈ w.pushed.toList ↔ w.colour.get i ≠ .unvisited

theorem logged_start (n : Nat) : Logged (start n) where
  nodup := List.nodup_nil
  mem_iff i := by simp [start, pushed, Vector.get]

theorem Logged.push (h : Logged w) (hi : w.colour.get i = .unvisited) : Logged (w.push i) := by
  have hnew : i ∉ w.pushed.toList := by simp [h.mem_iff, hi]
  constructor
  · rw [pushed_push, Array.toList_push]
    simpa using h.nodup.concat hnew
  · intro j
    have hcolour : (w.push i).colour.get j = if i = j then .inProgress else w.colour.get j :=
      get_set _ _ _ _
    rw [pushed_push, Array.toList_push, List.mem_append, List.mem_singleton, h.mem_iff, hcolour]
    by_cases hij : i = j
    · simp [hij]
    · simp [hij, Ne.symm hij]

theorem logged_follow (h : Logged w) : Logged (follow parent w next) := by
  induction w, next using follow.induct parent with
  | case1 w =>
    rw [follow]
    exact h
  | case2 w i hi ih =>
    rw [follow_unvisited hi]
    exact ih (h.push hi)
  | case3 w i hi =>
    rw [follow_inProgress hi]
    exact ⟨h.nodup, h.mem_iff⟩
  | case4 w i hi =>
    rw [follow_done hi]
    exact h

theorem Logged.settle (h : Logged w) (hw : Explored parent w) : Logged w.settle where
  nodup := by
    rw [pushed_settle]
    exact h.nodup
  mem_iff j := by
    rw [pushed_settle, h.mem_iff]
    exact (not_congr (hw.colour_settle_eq_unvisited_iff j)).symm

theorem Logged.size_le (h : Logged w) : w.pushed.size ≤ n := by
  simpa using h.nodup.length_le_card

/-! ### Start by start -/

/-- The walk after the first so many starts. -/
def upTo (parent : Fin n → Option (Fin n)) (m : Nat) : Walk n :=
  ((List.finRange n).take m).foldl (visit parent) (start n)

theorem upTo_succ (parent : Fin n → Option (Fin n)) {m : Nat} (hm : m < n) :
    upTo parent (m + 1) = visit parent (upTo parent m) ⟨m, hm⟩ := by
  unfold upTo
  rw [List.take_add_one, List.getElem?_eq_getElem (by simpa using hm), List.foldl_append]
  simp

theorem upTo_all (parent : Fin n → Option (Fin n)) : upTo parent n = all parent := by
  unfold upTo all
  rw [List.take_of_length_le (by simp)]

theorem idle_upTo (parent : Fin n → Option (Fin n)) (m : Nat) : Idle parent (upTo parent m) :=
  (foldl_visit _ ⟨explored_start parent, rfl⟩).1

theorem climbing_upTo (parent : Fin n → Option (Fin n)) (m : Nat) (next : Option (Fin n)) :
    Climbing parent (upTo parent m) next :=
  (idle_upTo parent m).toExplored.climbing (idle_upTo parent m).path_eq next

theorem logged_visit (h : Logged w) (hw : Idle parent w) (i : Fin n) :
    Logged (visit parent w i) := by
  unfold visit
  split
  · exact (logged_follow h).settle
      (explored_follow (hw.toExplored.climbing hw.path_eq (some i)))
  · exact h

theorem logged_upTo (parent : Fin n → Option (Fin n)) {m : Nat} (hm : m ≤ n) :
    Logged (upTo parent m) := by
  induction m with
  | zero => exact logged_start n
  | succ m ih =>
    rw [upTo_succ parent hm]
    exact logged_visit (ih (Nat.le_of_succ_le hm)) (idle_upTo parent m) _

/-- In the end each node has been put on a path once. -/
theorem pushed_all_perm (parent : Fin n → Option (Fin n)) :
    (all parent).pushed.toList.Perm (List.finRange n) := by
  have hlogged : Logged (all parent) := upTo_all parent ▸ logged_upTo parent le_rfl
  refine (List.perm_ext_iff_of_nodup hlogged.nodup (List.nodup_finRange n)).mpr fun i => ?_
  have hreached : (all parent).colour.get i ≠ .unvisited :=
    (foldl_visit (List.finRange n) ⟨explored_start parent, rfl⟩).2 i (.inl (List.mem_finRange i))
  exact iff_of_true ((hlogged.mem_iff i).mpr hreached) (List.mem_finRange i)

end Walk

end AssetHierarchy
