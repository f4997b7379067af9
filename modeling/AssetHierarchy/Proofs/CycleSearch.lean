import AssetHierarchy.Proofs.WalkPaths

/-! The search for cycles as a loop over arrays, one round at a time. Nodes are plain numbers here,
so a parent or a place on the path can lie outside of an array, and a step that meets such an index
fails. With parents that are nodes no step does: the search goes through the walks of
`Walk.all`, each loop ends, every node is put on a path once, and the number of steps is linear. -/
namespace AssetHierarchy

variable {n : Nat}

/-! ### Checked access -/

section

variable {α : Type}

/-- The array with one entry replaced, if there is such an entry. -/
def write? (v : Vector α n) (i : Nat) (a : α) : Option (Vector α n) :=
  if h : i < n then some (v.set i a h) else none

def writeAll? (v : Vector α n) (is : List Nat) (a : α) : Option (Vector α n) :=
  is.foldlM (fun v i => write? v i a) v

/-- The entries from a place to the end; the place may be the end itself. -/
def from? (path : Array Nat) (k : Nat) : Option (List Nat) :=
  if k ≤ path.size then some (path.toList.drop k) else none

theorem getElem?_val (v : Vector α n) (i : Fin n) : v[i.val]? = some (v.get i) :=
  Vector.getElem?_eq_getElem i.isLt

@[simp] theorem write?_val (v : Vector α n) (i : Fin n) (a : α) :
    write? v i a = some (v.set i a i.isLt) := dif_pos i.isLt

@[simp] theorem writeAll?_map_val (v : Vector α n) (is : List (Fin n)) (a : α) :
    writeAll? v (is.map Fin.val) a = some (setAll v is a) := by
  induction is generalizing v with
  | nil => rfl
  | cons i rest ih =>
    have hrest : writeAll? v ((i :: rest).map Fin.val) a =
        (write? v i a).bind fun v => writeAll? v (rest.map Fin.val) a := rfl
    rw [hrest, write?_val, Option.bind_some, ih]
    rfl

end

/-! ### The search -/

/-- Where the search stands. -/
inductive Stage where
  /-- About to look at the next start. -/
  | between
  /-- In the loop from a start, about to look at the next node, if there is one. -/
  | climbing (next : Option Nat)

structure CycleSearch (n : Nat) where
  colour : Vector Colour n
  onCycle : Vector Bool n
  position : Vector Nat n
  path : Array Nat
  /-- All that was ever put on the path, in order. -/
  pushed : Array Nat
  /-- The node from which the loop starts. -/
  start : Nat
  stage : Stage

namespace CycleSearch

def init (n : Nat) : CycleSearch n where
  colour := Vector.replicate n .unvisited
  onCycle := Vector.replicate n false
  position := Vector.replicate n 0
  path := #[]
  pushed := #[]
  start := 0
  stage := .between

variable (parents : Vector (Option Nat) n) (s : CycleSearch n)

/-- Enters the loop from the next start, or passes over it if it has been reached. -/
def begin? : Option (CycleSearch n) := do
  let colour ← s.colour[s.start]?
  return if colour = .unvisited then { s with stage := .climbing (some s.start) }
    else { s with start := s.start + 1 }

def push? (i : Nat) : Option (CycleSearch n) := do
  let colour ← write? s.colour i .inProgress
  let position ← write? s.position i s.path.size
  let next ← parents[i]?
  return { s with
    colour, position
    path := s.path.push i
    pushed := s.pushed.push i
    stage := .climbing next }

def closeCycle? (i : Nat) : Option (CycleSearch n) := do
  let k ← s.position[i]?
  let members ← from? s.path k
  let onCycle ← writeAll? s.onCycle members true
  return { s with onCycle, stage := .climbing none }

/-- Takes all nodes off the path for good. -/
def settle? : Option (CycleSearch n) := do
  let colour ← writeAll? s.colour s.path.toList .done
  return { s with colour, path := #[], start := s.start + 1, stage := .between }

/-- One step, or nothing if an index is out of range. A search that is over stays as it is. -/
def step? : Option (CycleSearch n) :=
  match s.stage with
  | .between => if s.start < n then s.begin? else some s
  | .climbing none => s.settle?
  | .climbing (some i) => do
    match ← s.colour[i]? with
    | .unvisited => s.push? parents i
    | .inProgress => s.closeCycle? i
    | .done => return { s with stage := .climbing none }

def run? : Nat → CycleSearch n → Option (CycleSearch n)
  | 0, s => some s
  | k + 1, s => (s.step? parents).bind (run? k)

variable {parents} {s}

theorem run?_add (j k : Nat) (s : CycleSearch n) :
    run? parents (j + k) s = (run? parents j s).bind (run? parents k) := by
  induction j generalizing s with
  | zero => simp [run?]
  | succ j ih => simp only [Nat.succ_add, run?, Option.bind_assoc, ih]

theorem run?_one (s : CycleSearch n) : run? parents 1 s = s.step? parents := by
  simp [run?]

theorem run?_trans {j k : Nat} {t u : CycleSearch n} (hj : run? parents j s = some t)
    (hk : run? parents k t = some u) : run? parents (j + k) s = some u := by
  rw [run?_add, hj, Option.bind_some, hk]

theorem run?_of_step {k : Nat} {t u : CycleSearch n} (h : s.step? parents = some t)
    (hk : run? parents k t = some u) : run? parents (k + 1) s = some u := by
  rw [run?, h, Option.bind_some, hk]

/-- A search that is over stays so. -/
theorem run?_of_over (hstage : s.stage = .between) (hstart : ¬s.start < n) (k : Nat) :
    run? parents k s = some s := by
  induction k with
  | zero => rfl
  | succ k ih =>
    refine run?_of_step ?_ ih
    rw [step?, hstage]
    exact if_neg hstart

/-- What holds before each step of a search. -/
structure Orderly (parents : Vector (Option Nat) n) (s : CycleSearch n) : Prop where
  /-- A node in progress stands on the path, at the place that is noted for it. -/
  path_position : ∀ v : Nat, s.colour[v]? = some .inProgress →
    ∃ k, s.position[v]? = some k ∧ s.path[k]? = some v
  /-- On the path each node is followed by its parent. -/
  linked : ∀ k u v, s.path[k]? = some u → s.path[k + 1]? = some v → parents[u]? = some (some v)
  /-- The path is the last part of all that was put on it. -/
  path_suffix : s.path.toList <:+ s.pushed.toList
  nodup : s.pushed.toList.Nodup
  /-- Between two loops the path is empty and no node is in progress. -/
  idle : s.stage = .between → s.path = #[] ∧ ∀ v : Nat, s.colour[v]? ≠ some .inProgress

end CycleSearch

/-! ### Steps -/

/-- The search at a point of a walk. -/
def Walk.search (w : Walk n) (start : Nat) (stage : Stage) : CycleSearch n where
  colour := w.colour
  onCycle := w.onCycle
  position := w.position
  path := w.path.map Fin.val
  pushed := w.pushed.map Fin.val
  start := start
  stage := stage

namespace CycleSearch

open Walk

variable {parents : Vector (Option Nat) n} {parent : Fin n → Option (Fin n)} {w : Walk n}
  {i : Fin n} {next : Option (Fin n)} {m : Nat}

theorem init_eq_search (n : Nat) : init n = (Walk.start n).search 0 .between := by
  simp only [search, pushed_start]
  simp [init, Walk.start]

theorem step?_enter (hm : m < n) (hc : w.colour.get ⟨m, hm⟩ = .unvisited) :
    (w.search m .between).step? parents = some (w.search m (.climbing (some m))) := by
  have hcolour : w.colour[m]? = some .unvisited := hc ▸ getElem?_val w.colour ⟨m, hm⟩
  simp only [step?, begin?, search, if_pos hm, hcolour]
  rfl

theorem step?_skip (hm : m < n) (hc : w.colour.get ⟨m, hm⟩ ≠ .unvisited) :
    (w.search m .between).step? parents = some (w.search (m + 1) .between) := by
  have hcolour : w.colour[m]? = some (w.colour.get ⟨m, hm⟩) := getElem?_val w.colour ⟨m, hm⟩
  simp only [step?, begin?, search, if_pos hm, hcolour, Option.bind_eq_bind, Option.bind_some,
    if_neg hc]
  rfl

theorem step?_push (hp : ∀ i, parents.get i = (parent i).map Fin.val)
    (hi : w.colour.get i = .unvisited) :
    (w.search m (.climbing (some i))).step? parents =
      some ((w.push i).search m (.climbing ((parent i).map Fin.val))) := by
  simp only [step?, push?, search, getElem?_val, hi, hp, write?_val, pushed_push, Array.map_push,
    Option.bind_eq_bind, Option.bind_some, Array.size_map]
  simp [Walk.push]

theorem step?_closeCycle (h : Climbing parent w (some i)) (hi : w.colour.get i = .inProgress) :
    (w.search m (.climbing (some i))).step? parents =
      some ((w.closeCycle i).search m (.climbing none)) := by
  have hfrom : from? (w.path.map Fin.val) (w.position.get i) =
      some ((w.path.toList.drop (w.position.get i)).map Fin.val) := by
    simp [from?, (h.position_lt hi).le]
  simp only [step?, closeCycle?, search, getElem?_val, hi, hfrom, writeAll?_map_val,
    Option.bind_eq_bind, Option.bind_some]
  rfl

theorem step?_done (hi : w.colour.get i = .done) :
    (w.search m (.climbing (some i))).step? parents = some (w.search m (.climbing none)) := by
  simp only [step?, search, getElem?_val, hi, Option.bind_eq_bind, Option.bind_some]
  rfl

theorem step?_settle :
    (w.search m (.climbing none)).step? parents = some (w.settle.search (m + 1) .between) := by
  simp only [step?, settle?, search, Array.toList_map, writeAll?_map_val, pushed_settle,
    Option.bind_eq_bind, Option.bind_some]
  simp [Walk.settle]

/-! ### Every step -/

/-- The search is at a point on the way of the walks: between two of them, on the way up in the next
one, or at its end. What is left of a walk leads to where the next start begins. -/
inductive Tracks (parent : Fin n → Option (Fin n)) : CycleSearch n → Prop
  | between {m : Nat} (hm : m ≤ n) : Tracks parent ((upTo parent m).search m .between)
  | climbing {m : Nat} {w : Walk n} {next : Option (Fin n)} (hm : m < n)
      (hw : Climbing parent w next) (hlog : Logged w)
      (hend : (follow parent w next).settle = upTo parent (m + 1)) :
      Tracks parent (w.search m (.climbing (next.map Fin.val)))
  | ended {m : Nat} {w : Walk n} (hm : m < n) (hw : Chained parent w) (hlog : Logged w)
      (hend : w.settle = upTo parent (m + 1)) : Tracks parent (w.search m (.climbing none))

theorem tracks_init (parent : Fin n → Option (Fin n)) : Tracks parent (init n) := by
  rw [init_eq_search]
  exact .between (Nat.zero_le n)

theorem settle_follow_upTo (hm : m < n) (hc : (upTo parent m).colour.get ⟨m, hm⟩ = .unvisited) :
    (follow parent (upTo parent m) (some ⟨m, hm⟩)).settle = upTo parent (m + 1) := by
  rw [upTo_succ parent hm, visit, if_pos hc]

/-- Where the loop ends, the walk is the one that `follow` comes to. -/
theorem Tracks.of_follow (hm : m < n) (hw : Climbing parent w next) (hlog : Logged w)
    (hend : (follow parent w next).settle = upTo parent (m + 1)) :
    Tracks parent ((follow parent w next).search m (.climbing none)) :=
  .ended hm (chained_follow hw) (logged_follow hlog) hend

/-- The end of a loop leads to the next start. -/
theorem Tracks.settle (hm : m < n) (hend : w.settle = upTo parent (m + 1)) :
    ∃ t, (w.search m (.climbing none)).step? parents = some t ∧ Tracks parent t := by
  refine ⟨_, step?_settle, ?_⟩
  rw [hend]
  exact .between hm

section

variable (hp : ∀ i, parents.get i = (parent i).map Fin.val)

include hp

theorem Tracks.step {s : CycleSearch n} (h : Tracks parent s) :
    ∃ t, s.step? parents = some t ∧ Tracks parent t := by
  cases h with
  | @between m hm =>
    by_cases hlt : m < n
    · by_cases hc : (upTo parent m).colour.get ⟨m, hlt⟩ = .unvisited
      · have henter := Tracks.climbing hlt (climbing_upTo parent m (some ⟨m, hlt⟩))
          (logged_upTo parent hm) (settle_follow_upTo hlt hc)
        exact ⟨_, step?_enter hlt hc, henter⟩
      · refine ⟨_, step?_skip hlt hc, ?_⟩
        have hsame : upTo parent (m + 1) = upTo parent m := by
          rw [upTo_succ parent hlt, visit, if_neg hc]
        rw [← hsame]
        exact .between hlt
    · exact ⟨_, if_neg hlt, .between hm⟩
  | @climbing m w next hm hw hlog hend =>
    match next with
    | none =>
      -- the path has come to a root
      rw [follow] at hend
      exact Tracks.settle hm hend
    | some i =>
      have hfollow := Tracks.of_follow hm hw hlog hend
      cases hi : w.colour.get i with
      | unvisited =>
        rw [follow_unvisited hi] at hend
        exact ⟨_, step?_push hp hi, .climbing hm (hw.push hi) (hlog.push hi) hend⟩
      | inProgress =>
        rw [follow_inProgress hi] at hfollow
        exact ⟨_, step?_closeCycle hw hi, hfollow⟩
      | done =>
        rw [follow_done hi] at hfollow
        exact ⟨_, step?_done hi, hfollow⟩
  | ended hm _ _ hend => exact Tracks.settle hm hend

/-- No index is ever out of range. -/
theorem exists_run?_tracks (k : Nat) :
    ∃ s, run? parents k (init n) = some s ∧ Tracks parent s := by
  induction k with
  | zero => exact ⟨_, rfl, tracks_init parent⟩
  | succ k ih =>
    obtain ⟨s, hs, htracks⟩ := ih
    obtain ⟨t, ht, htracks⟩ := htracks.step hp
    exact ⟨t, run?_trans hs ((run?_one s).trans ht), htracks⟩

theorem orderly_search {stage : Stage} (hw : Chained parent w) (hlog : Logged w)
    (hidle : stage = .between → w.path = #[]) : Orderly parents (w.search m stage) := by
  -- numbers are turned back into nodes: those of the colours and those of the path
  have hplace : ∀ {v : Nat}, w.colour[v]? = some .inProgress →
      ∃ i : Fin n, i.val = v ∧ i ∈ w.path.toList := by
    intro v hv
    obtain ⟨hlt, hcolour⟩ := Vector.getElem?_eq_some_iff.mp hv
    exact ⟨⟨v, hlt⟩, rfl, (hw.inProgress_iff _).mp hcolour⟩
  have hpath : ∀ {k v : Nat}, (w.search m stage).path[k]? = some v ↔
      ∃ i : Fin n, w.path.toList[k]? = some i ∧ i.val = v := by
    intro k v
    simp [search]
  constructor
  · intro v hv
    obtain ⟨i, rfl, hi⟩ := hplace hv
    obtain ⟨k, hk⟩ := List.mem_iff_getElem?.mp hi
    refine ⟨k, ?_, hpath.mpr ⟨i, hk, rfl⟩⟩
    exact (getElem?_val w.position i).trans (congrArg some (hw.position_eq k i hk))
  · intro k u v hu hv
    obtain ⟨i, hi, rfl⟩ := hpath.mp hu
    obtain ⟨p, hpk, rfl⟩ := hpath.mp hv
    rw [getElem?_val, hp, hw.linked k i p hi hpk]
    rfl
  · exact ⟨(w.settled.map Fin.val).toList, by simp [search, Walk.pushed]⟩
  · rw [search, Array.toList_map]
    exact hlog.nodup.map Fin.val_injective
  · intro hstage
    refine ⟨by simp [search, hidle hstage], fun v hv => ?_⟩
    obtain ⟨i, -, hi⟩ := hplace hv
    simp [hidle hstage] at hi

theorem Tracks.orderly {s : CycleSearch n} (h : Tracks parent s) : Orderly parents s := by
  cases h with
  | between hm =>
    exact orderly_search hp (idle_upTo parent _).chained (logged_upTo parent hm)
      fun _ => (idle_upTo parent _).path_eq
  | climbing _ hw hlog _ => exact orderly_search hp hw.chained hlog (by simp)
  | ended _ hw hlog _ => exact orderly_search hp hw hlog (by simp)

/-! ### The end of the loops -/

/-- From a node on, the loop takes a step for each node that it puts on the path, and at most one
more. -/
theorem exists_run?_follow (hw : Climbing parent w next) (m : Nat) :
    ∃ j, j + w.pushed.size ≤ (follow parent w next).pushed.size + 1 ∧
      run? parents j (w.search m (.climbing (next.map Fin.val))) =
        some ((follow parent w next).search m (.climbing none)) := by
  induction w, next using follow.induct parent with
  | case1 w =>
    rw [follow]
    exact ⟨0, by omega, rfl⟩
  | case2 w i hi ih =>
    obtain ⟨j, hj, hrun⟩ := ih (hw.push hi)
    rw [pushed_push, Array.size_push] at hj
    rw [follow_unvisited hi]
    exact ⟨j + 1, by omega, run?_of_step (step?_push hp hi) hrun⟩
  | case3 w i hi =>
    rw [follow_inProgress hi]
    exact ⟨1, (Nat.add_comm _ _).le, (run?_one _).trans (step?_closeCycle hw hi)⟩
  | case4 w i hi =>
    rw [follow_done hi]
    exact ⟨1, (Nat.add_comm _ _).le, (run?_one _).trans (step?_done hi)⟩

/-- The loop that a search is in ends. -/
theorem Tracks.exists_loop_end {s : CycleSearch n} (h : Tracks parent s) {current : Option Nat}
    (hs : s.stage = .climbing current) : ∃ j ≤ n - s.pushed.size + 1, ∃ t,
      run? parents j s = some t ∧ t.start = s.start ∧ t.stage = .climbing none := by
  cases h with
  | between => simp [search] at hs
  | @climbing m w next _ hw hlog _ =>
    obtain ⟨j, hj, hrun⟩ := exists_run?_follow hp hw m
    have hsize : (w.search m (.climbing (next.map Fin.val))).pushed.size = w.pushed.size :=
      Array.size_map
    have hend : Logged (follow parent w next) := logged_follow hlog
    have hle := hend.size_le
    exact ⟨j, by omega, _, hrun, rfl, rfl⟩
  | ended => exact ⟨0, Nat.zero_le _, _, rfl, rfl, rfl⟩

/-- A start takes a step for each node that is put on the path, and at most three more: into the
loop, its last round, and out of it. -/
theorem exists_run?_visit (hm : m < n) :
    ∃ j, j + (upTo parent m).pushed.size ≤ (upTo parent (m + 1)).pushed.size + 3 ∧
      run? parents j ((upTo parent m).search m .between) =
        some ((upTo parent (m + 1)).search (m + 1) .between) := by
  by_cases hc : (upTo parent m).colour.get ⟨m, hm⟩ = .unvisited
  · obtain ⟨j, hj, hrun⟩ := exists_run?_follow hp (climbing_upTo parent m (some ⟨m, hm⟩)) m
    have hloop := run?_of_step (step?_enter hm hc)
      (run?_trans hrun ((run?_one _).trans step?_settle))
    rw [← settle_follow_upTo hm hc]
    refine ⟨j + 1 + 1, ?_, hloop⟩
    rw [pushed_settle]
    omega
  · rw [upTo_succ parent hm, visit, if_neg hc]
    exact ⟨1, by omega, (run?_one _).trans (step?_skip hm hc)⟩

theorem exists_run?_upTo (hm : m ≤ n) :
    ∃ k ≤ 3 * m + (upTo parent m).pushed.size,
      run? parents k (init n) = some ((upTo parent m).search m .between) := by
  induction m with
  | zero => exact ⟨0, Nat.zero_le _, congrArg some (init_eq_search n)⟩
  | succ m ih =>
    obtain ⟨k, hk, hrun⟩ := ih (Nat.le_of_succ_le hm)
    obtain ⟨j, hj, hvisit⟩ := exists_run?_visit hp hm
    exact ⟨k + j, by omega, run?_trans hrun hvisit⟩

/-- Each start takes three steps apart from those that put a node on the path. -/
theorem run?_all {k : Nat} (hk : 4 * n ≤ k) :
    run? parents k (init n) = some ((all parent).search n .between) := by
  obtain ⟨j, hj, hrun⟩ := exists_run?_upTo hp le_rfl
  have hsize := (logged_upTo parent le_rfl).size_le
  rw [upTo_all] at hrun
  obtain ⟨l, rfl⟩ : ∃ l, k = j + l := Nat.exists_eq_add_of_le (by omega)
  exact run?_trans hrun (run?_of_over rfl (Nat.lt_irrefl n) l)

end

/-! ### The whole search -/

/-- The parents as nodes; a number that is no node counts as none. -/
def nodeParent (parents : Vector (Option Nat) n) (i : Fin n) : Option (Fin n) :=
  (parents.get i).bind fun p => if h : p < n then some ⟨p, h⟩ else none

theorem get_eq_map_nodeParent (h : ∀ p, some p ∈ parents → p < n) (i : Fin n) :
    parents.get i = (nodeParent parents i).map Fin.val := by
  unfold nodeParent
  cases hi : parents.get i with
  | none => rfl
  | some p =>
    have hlt : p < n := h p (hi ▸ Vector.getElem_mem i.isLt)
    simp [hlt]

end CycleSearch

open CycleSearch

/-- The flags of a graph are those that the search over its links leaves. -/
theorem Graph.cycleFlags_eq_run? (g : Graph n) :
    (run? (g.parents.map (Option.map Fin.val)) (4 * n) (init n)).map CycleSearch.onCycle =
      some g.cycleFlags := by
  have hp : ∀ i, (g.parents.map (Option.map Fin.val)).get i = (g.parent i).map Fin.val :=
    fun i => Vector.getElem_map _ i.isLt
  rw [run?_all hp le_rfl]
  rfl

/-- With parents that are nodes, no step of the search meets an index out of range, and before each
step the path is as it should be. Each loop ends, after a step for each node that has not been on
the path and at most one more. After its first `m` starts the search is where `m` walks lead, and
within four steps a node it is over, at the last walk, with each node put on the path once. -/
theorem cycleSearch_pushes_each_once (parents : Vector (Option Nat) n)
    (hp : ∀ p, some p ∈ parents → p < n) :
    (∀ k, ∃ s, run? parents k (init n) = some s ∧ s.Orderly parents) ∧
    (∀ k s current, run? parents k (init n) = some s → s.stage = .climbing current →
      ∃ j ≤ n - s.pushed.size + 1, ∃ t,
        run? parents j s = some t ∧ t.start = s.start ∧ t.stage = .climbing none) ∧
    (∀ m ≤ n, ∃ k, run? parents k (init n) =
      some ((Walk.upTo (nodeParent parents) m).search m .between)) ∧
    ∃ s, (∀ k ≥ 4 * n, run? parents k (init n) = some s) ∧ s.start = n ∧ s.stage = .between ∧
      s.pushed.toList.Perm (List.range n) ∧
      s = (Walk.all (nodeParent parents)).search n .between := by
  have hnode := get_eq_map_nodeParent hp
  refine ⟨fun k => ?_, fun k s current hs hstage => ?_, fun m hm => ?_,
    _, fun k hk => run?_all hnode hk, rfl, rfl, ?_, rfl⟩
  · obtain ⟨s, hs, htracks⟩ := exists_run?_tracks hnode k
    exact ⟨s, hs, htracks.orderly hnode⟩
  · obtain ⟨s', hs', htracks⟩ := exists_run?_tracks hnode k
    obtain rfl : s = s' := Option.some.inj (hs.symm.trans hs')
    exact htracks.exists_loop_end hnode hstage
  · obtain ⟨k, -, hrun⟩ := exists_run?_upTo hnode hm
    exact ⟨k, hrun⟩
  · have hperm := (Walk.pushed_all_perm (nodeParent parents)).map Fin.val
    simpa [Walk.search] using hperm

/-- A link into a cycle of two, a node that is its own parent, and a root. -/
def fiveLinks : Vector (Option Nat) 5 := #v[some 1, some 2, some 1, some 3, none]

theorem cycleSearch_pushes_each_once_five :
    (∀ p, some p ∈ fiveLinks → p < 5) ∧
    (∃ s, (∀ k ≥ 20, run? fiveLinks k (init 5) = some s) ∧ s.start = 5 ∧
      s.pushed.toList.Perm (List.range 5)) ∧
    (run? fiveLinks 20 (init 5)).map (fun s => (s.pushed, s.onCycle)) =
      some (#[0, 1, 2, 3, 4], #v[false, true, true, true, false]) := by
  have hp : ∀ p, some p ∈ fiveLinks → p < 5 := by
    intro p hmem
    simp [fiveLinks] at hmem
    omega
  obtain ⟨-, -, -, s, hrun, hstart, -, hperm, -⟩ := cycleSearch_pushes_each_once fiveLinks hp
  exact ⟨hp, ⟨s, hrun, hstart, hperm⟩, by decide +kernel⟩

end AssetHierarchy
