import AssetHierarchy.Number.Double

/-! JSON values. A number is a natural number below `2 ^ 64`, a negative integer from `-2 ^ 63`, or
a double; the three do not overlap. The members of an object are kept in ascending order of their
keys, which `insert` maintains. -/
namespace AssetHierarchy

namespace Json

/-- How many negative integers have a number of their own. -/
def negativeCount : Nat := 0x8000000000000000

theorem negativeCount_pos : 0 < negativeCount := by decide

inductive Number where
  | natural (n : UInt64)
  /-- The integer `-(k + 1)`. -/
  | negative (k : Fin negativeCount)
  | float (d : Double)
deriving DecidableEq

namespace Number

def toInt? : Number → Option Int
  | natural n => some n.toNat
  | negative k => some (-(k.val + 1 : Nat))
  | float _ => none

/-- The integer `-(k + 1)`, for `k` below `negativeCount`. -/
def ofNegative (k : Nat) : Number :=
  negative ⟨k % negativeCount, Nat.mod_lt k negativeCount_pos⟩

/-- The number of an integer from `-2 ^ 63` to `2 ^ 64 - 1`. -/
def ofInt (i : Int) : Number :=
  if i < 0 then ofNegative (-i - 1).toNat else natural (UInt64.ofNat i.toNat)

end Number

end Json

inductive Json where
  | null
  | bool (b : Bool)
  | number (n : Json.Number)
  | string (s : String)
  | array (items : List Json)
  | object (members : List (String × Json))
deriving Inhabited

namespace Json

def natural (n : UInt64) : Json := .number (.natural n)

def strings (ss : List String) : Json := .array (ss.map .string)

/-- Sets the value of a key, keeping the keys in ascending order. -/
def insert {α : Type} (key : String) (value : α) : List (String × α) → List (String × α)
  | [] => [(key, value)]
  | (k, v) :: rest =>
    if key < k then (key, value) :: (k, v) :: rest
    else if key = k then (key, value) :: rest
    else (k, v) :: insert key value rest

/-- The ascending list of pairs with the same last value for each key. -/
def ordered {α : Type} (pairs : List (String × α)) : List (String × α) :=
  pairs.foldl (fun acc p => insert p.1 p.2 acc) []

theorem mem_insert {α : Type} {key : String} {value : α} {l : List (String × α)} {p : String × α}
    (h : p ∈ insert key value l) : p = (key, value) ∨ p ∈ l := by
  induction l with
  | nil => exact .inl (by simpa [insert] using h)
  | cons q rest ih =>
    unfold insert at h
    split at h
    · simpa using h
    · split at h
      · rcases List.mem_cons.mp h with h | h
        · exact .inl h
        · exact .inr (List.mem_cons_of_mem _ h)
      · rcases List.mem_cons.mp h with h | h
        · exact .inr (by simp [h])
        · rcases ih h with h | h
          · exact .inl h
          · exact .inr (List.mem_cons_of_mem _ h)

theorem pairwise_insert {α : Type} (key : String) (value : α) {l : List (String × α)}
    (h : l.Pairwise (·.1 < ·.1)) : (insert key value l).Pairwise (·.1 < ·.1) := by
  induction l with
  | nil => simp [insert]
  | cons q rest ih =>
    obtain ⟨hq, hrest⟩ := List.pairwise_cons.mp h
    unfold insert
    split
    · next hlt =>
      refine List.pairwise_cons.mpr ⟨fun p hp => ?_, h⟩
      rcases List.mem_cons.mp hp with rfl | hp
      · exact hlt
      · exact String.lt_trans hlt (hq p hp)
    · split
      · next heq => subst heq; exact List.pairwise_cons.mpr ⟨hq, hrest⟩
      · next hlt hne =>
        refine List.pairwise_cons.mpr ⟨fun p hp => ?_, ih hrest⟩
        rcases mem_insert hp with rfl | hp
        · exact Std.lt_of_le_of_ne (String.not_lt.mp hlt) (Ne.symm hne)
        · exact hq p hp

theorem pairwise_ordered {α : Type} (pairs : List (String × α)) :
    (ordered pairs).Pairwise (·.1 < ·.1) := by
  have gen : ∀ (ps acc : List (String × α)), acc.Pairwise (·.1 < ·.1) →
      (ps.foldl (fun acc p => insert p.1 p.2 acc) acc).Pairwise (·.1 < ·.1) := by
    intro ps
    induction ps with
    | nil => exact fun _ h => h
    | cons p rest ih => exact fun acc h => ih _ (pairwise_insert p.1 p.2 h)
  exact gen pairs [] .nil

def ofPairs (pairs : List (String × Json)) : Json := .object (ordered pairs)

/-- The value of a key of an object; `none` for anything else. -/
def get? (key : String) : Json → Option Json
  | .object members => members.lookup key
  | _ => none

def isNull : Json → Bool
  | .null => true
  | _ => false

def asString? : Json → Option String
  | .string s => some s
  | _ => none

def asArray? : Json → Option (List Json)
  | .array items => some items
  | _ => none

end Json

end AssetHierarchy
