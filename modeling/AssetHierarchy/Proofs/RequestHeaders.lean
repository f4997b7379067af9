import AssetHierarchy.Proofs.Completion
import AssetHierarchy.Proofs.Retrying

/-! The headers of a request. A client has some that every request gets, and a request sets others
on top of them. A header that is set again is replaced, but only if its name is spelt the same way:
the case of a name counts here, although it does not on the way. So a message holds one value for
each spelling of a name, and only the last one that was set if the name has one spelling. -/
namespace AssetHierarchy

/-! ### Names -/

/-- Case does not count in the name of a header. -/
def isSameHeader (a b : String) : Bool := a.toList.map Char.toLower == b.toList.map Char.toLower

/-- The values that arrive under a name. -/
def Message.valuesOf (m : Message) (name : String) : List String :=
  (m.headers.filter fun h => isSameHeader h.1 name).map (·.2)

/-- The different spellings of a name among headers that are set. -/
def spellings (set : List (String × String)) (name : String) : List String :=
  (set.map (·.1)).eraseDups.filter (isSameHeader · name)

/-- The value that was set last under a name, however that was spelt. -/
def lastSet? (set : List (String × String)) (name : String) : Option String :=
  (set.reverse.find? fun h => isSameHeader h.1 name).map (·.2)

section

variable {κ β : Type} [DecidableEq κ]

/-- Of pairs with different keys those with some keys, looked up key by key. -/
theorem map_snd_filter_of_nodup {l : List (κ × β)} (h : (l.map (·.1)).Nodup) (p : κ → Bool) :
    (l.filter fun e => p e.1).map (·.2) =
      ((l.map (·.1)).filter p).filterMap fun k => l.lookup k := by
  induction l with
  | nil => rfl
  | cons e rest ih =>
    rw [List.map_cons, List.nodup_cons] at h
    have hrest : ((rest.map (·.1)).filter p).filterMap (fun k => (e :: rest).lookup k) =
        ((rest.map (·.1)).filter p).filterMap fun k => rest.lookup k := by
      refine List.filterMap_congr fun k hk => ?_
      have hne : k ≠ e.1 := fun hke => h.1 (hke ▸ List.mem_of_mem_filter hk)
      rw [List.lookup_cons, beq_eq_false_iff_ne.mpr hne]
    rw [List.map_cons, List.filter_cons, List.filter_cons]
    split
    · rw [List.filterMap_cons, hrest, List.lookup_cons_self, List.map_cons, ih h.2]
    · rw [hrest, ih h.2]

theorem lookup_eq_map_find? (l : List (κ × β)) (k : κ) :
    l.lookup k = (l.find? fun e => e.1 == k).map (·.2) := by
  induction l with
  | nil => rfl
  | cons e rest ih =>
    rw [List.lookup_cons, List.find?_cons, ih, BEq.comm]
    cases e.1 == k <;> rfl

end

/-! ### Setting headers -/

namespace Client

theorem names_setHeader (hs : List (String × String)) (key value : String) :
    (setHeader hs key value).map (·.1) =
      if (hs.map (·.1)).contains key then hs.map (·.1) else hs.map (·.1) ++ [key] := by
  unfold setHeader
  split
  · rw [List.map_map]
    refine List.map_congr_left fun h _ => ?_
    simp only [Function.comp_apply]
    split <;> rfl
  · rw [List.map_append, List.map_singleton]

theorem lookup_setHeader (hs : List (String × String)) (key value k : String) :
    (setHeader hs key value).lookup k = if k = key then some value else hs.lookup k := by
  unfold setHeader
  split
  · next hknown =>
    have hmap : (hs.map fun h => if h.1 = key then (h.1, value) else (h.1, h.2)) =
        hs.map fun h => (h.1, if h.1 = key then value else h.2) :=
      List.map_congr_left fun h _ => by split <;> rfl
    obtain ⟨v, hv⟩ := Option.isSome_iff_exists.mp ((isSome_lookup_iff hs key).mpr hknown)
    rw [hmap, lookup_map_snd fun j v => if j = key then value else v]
    by_cases hk : k = key
    · simp [hk, hv]
    · simp [hk]
  · next hknown =>
    have hnone := Option.not_isSome_iff_eq_none.mp ((isSome_lookup_iff hs key).not.mpr hknown)
    rw [List.lookup_append, lookup_singleton]
    by_cases hk : k = key
    · simp [hk, hnone]
    · simp [hk]

/-- The headers that are left when some are set one after the other. -/
def setHeaders (set : List (String × String)) : List (String × String) :=
  set.foldl (fun hs h => setHeader hs h.1 h.2) []

theorem names_setHeaders (set : List (String × String)) :
    (setHeaders set).map (·.1) = (set.map (·.1)).eraseDups := by
  have hnames : (setHeaders set).map (·.1) = set.foldl (fun names h =>
      if names.contains h.1 then names else names ++ [h.1]) [] :=
    (List.foldl_hom (List.map (·.1)) fun hs h => (names_setHeader hs h.1 h.2).symm).symm
  rw [hnames, foldl_distinct (fun h => some h.1) (fun _ _ h => nomatch h)
    (fun _ _ _ h => by rw [Option.some.inj h]), List.filterMap_eq_map']

theorem lookup_setHeaders (set : List (String × String)) (k : String) :
    (setHeaders set).lookup k = set.reverse.lookup k := by
  unfold setHeaders
  -- from the end, as the last header that is set replaces the ones before it
  induction set using List.reverseRecOn with
  | nil => rfl
  | append_singleton set h ih =>
    rw [List.foldl_concat, lookup_setHeader, ih, List.reverse_concat, List.lookup_cons]
    by_cases hk : k = h.1
    · simp [hk]
    · simp [hk, beq_eq_false_iff_ne.mpr hk]

/-- What every request sends, if it does not set it itself. -/
def standardHeaders (c : Config) : List (String × String) :=
  [("Accept", "application/json"), ("Authorization", c.token.authorization),
   ("x-cdp-app", c.clientName.text), ("x-cdp-sdk", clientVersion),
   ("Content-Type", "application/json")]

theorem headers_message (c : Config) (r : Request) :
    ((ofConfig c).message r).headers = setHeaders (standardHeaders c ++ r.headers) := by
  have hstandard : setHeader (ofConfig c).defaultHeaders "Content-Type" "application/json" =
      setHeaders (standardHeaders c) := by
    simp [setHeaders, setHeader, standardHeaders, ofConfig]
  rw [setHeaders, List.foldl_append]
  show r.headers.foldl _ (setHeader _ "Content-Type" "application/json") = _
  rw [hstandard]
  rfl

end Client

namespace Request

/-- Sets headers one after the other. -/
def withHeaders (r : Request) (hs : List (String × String)) : Request :=
  hs.foldl (fun r h => r.withHeader h.1 h.2) r

theorem headers_withHeaders (r : Request) (hs : List (String × String)) :
    (r.withHeaders hs).headers = r.headers ++ hs := by
  unfold withHeaders
  induction hs generalizing r with
  | nil => exact (List.append_nil _).symm
  | cons h hs ih =>
    rw [List.foldl_cons, ih]
    exact List.append_assoc r.headers [h] hs

end Request

/-! ### What arrives -/

theorem mem_spellings {set : List (String × String)} {name k : String} :
    k ∈ spellings set name ↔ (∃ h ∈ set, h.1 = k) ∧ isSameHeader k name = true := by
  simp [spellings, List.mem_eraseDups]

theorem Message.valuesOf_perm {m m' : Message} (h : m'.headers.Perm m.headers) (name : String) :
    (m'.valuesOf name).Perm (m.valuesOf name) :=
  (h.filter _).map _

/-- Of one value at most there is one order. -/
theorem eq_toList_iff_of_perm {α : Type} {l l' : List α} (h : l'.Perm l) (o : Option α) :
    l' = o.toList ↔ l = o.toList := by
  cases o with
  | none => rw [Option.toList_none, ← List.perm_nil, ← List.perm_nil, h.congr_left]
  | some x =>
    rw [Option.toList_some, ← List.perm_singleton, ← List.perm_singleton, h.congr_left]

/-- Under a name there is one value for each of its spellings. -/
theorem valuesOf_setHeaders {m : Message} {set : List (String × String)}
    (hm : m.headers = Client.setHeaders set) (name : String) :
    m.valuesOf name = (spellings set name).filterMap fun k => set.reverse.lookup k := by
  have hnodup : ((Client.setHeaders set).map (·.1)).Nodup := by
    rw [Client.names_setHeaders]
    exact nodup_eraseDups _
  rw [Message.valuesOf, hm, map_snd_filter_of_nodup hnodup (isSameHeader · name),
    Client.names_setHeaders]
  simp only [Client.lookup_setHeaders]
  rfl

theorem length_filterMap_spellings (set : List (String × String)) (name : String) :
    ((spellings set name).filterMap fun k => set.reverse.lookup k).length =
      (spellings set name).length := by
  rw [List.filterMap_length_eq_length]
  intro k hk
  obtain ⟨⟨h, hh, rfl⟩, -⟩ := mem_spellings.mp hk
  rw [List.lookup_isSome_iff]
  exact ⟨h, List.mem_reverse.mpr hh, beq_self_eq_true _⟩

theorem lastSet?_of_spelling {set : List (String × String)} {name k : String}
    (hk : ∀ h ∈ set, isSameHeader h.1 name = true ↔ h.1 = k) :
    lastSet? set name = set.reverse.lookup k := by
  rw [lastSet?, lookup_eq_map_find?]
  congr 1
  refine List.find?_congr fun h hh => ?_
  rw [Bool.eq_iff_iff, beq_iff_eq]
  exact hk h (List.mem_reverse.mp hh)

/-- The one spelling of a name is that of what was set last under it. -/
theorem filterMap_spellings_eq_iff (set : List (String × String)) (name : String) :
    ((spellings set name).filterMap fun k => set.reverse.lookup k) = (lastSet? set name).toList ↔
      (spellings set name).length ≤ 1 := by
  constructor
  · intro h
    rw [← length_filterMap_spellings, h]
    cases lastSet? set name <;> simp
  · intro h
    -- with one spelling, to have the name and to be spelt so are the same
    have hone : ∀ k ∈ spellings set name, ∀ e ∈ set, isSameHeader e.1 name = true ↔ e.1 = k := by
      intro k hk e he
      constructor
      · exact fun hsame => eq_of_mem_of_length_le_one h (mem_spellings.mpr ⟨⟨e, he, rfl⟩, hsame⟩) hk
      · rintro rfl
        exact (mem_spellings.mp hk).2
    cases hs : spellings set name with
    | nil =>
      have hnone : set.reverse.find? (fun e => isSameHeader e.1 name) = none := by
        rw [List.find?_eq_none]
        intro e he hsame
        have hmem := mem_spellings.mpr ⟨⟨e, List.mem_reverse.mp he, rfl⟩, hsame⟩
        rw [hs] at hmem
        contradiction
      rw [lastSet?, hnone]
      rfl
    | cons k rest =>
      have hk : k ∈ spellings set name := hs ▸ List.mem_cons_self
      obtain rfl : rest = [] := by
        rw [hs, List.length_cons] at h
        exact List.length_eq_zero_iff.mp (by omega)
      rw [lastSet?_of_spelling (hone k hk)]
      cases hvalue : set.reverse.lookup k <;> simp [hvalue]

namespace Client

variable {σ : Type}

/-- Every attempt of a request has, under each name, one value for each spelling in which the name
was set: the last one in that spelling. The last one of all is the only one exactly if the name has
no second spelling. Headers of different spellings may be sent in any order, and the same values
arrive then. -/
theorem headers_by_spelling (c : Config) (path : String) (body : Json)
    (calls : List (String × String)) (tries : Nat) (peer : Peer σ) (s : Session σ) :
    let r := ((Request.post path body).withHeaders calls).withTries tries
    let set := standardHeaders c ++ calls
    let m := (ofConfig c).message r
    (∃ answers : List Answer, ((ofConfig c).request peer r s).2.attempts.toList =
      s.attempts.toList ++ answers.map (⟨m, ·⟩)) ∧
    ∀ name,
      (m.valuesOf name = (spellings set name).filterMap fun k => set.reverse.lookup k) ∧
      (m.valuesOf name).length = (spellings set name).length ∧
      (m.valuesOf name = (lastSet? set name).toList ↔ (spellings set name).length ≤ 1) ∧
      ∀ m' : Message, m'.headers.Perm m.headers → (m'.valuesOf name).Perm (m.valuesOf name) ∧
        (m'.valuesOf name = (lastSet? set name).toList ↔ (spellings set name).length ≤ 1) := by
  intro r set m
  have hm : m.headers = setHeaders set := by
    rw [headers_message]
    exact congrArg _ (congrArg _ (Request.headers_withHeaders (.post path body) calls))
  constructor
  · obtain ⟨answers, -, hlog, -⟩ := (ofConfig c).exists_exchange_request peer r s
    exact ⟨answers, hlog⟩
  · intro name
    have hvalues := valuesOf_setHeaders hm name
    have hlength := length_filterMap_spellings set name
    have hlast := filterMap_spellings_eq_iff set name
    rw [← hvalues] at hlength hlast
    refine ⟨hvalues, hlength, hlast, fun m' hm' => ?_⟩
    have hperm := Message.valuesOf_perm hm' name
    exact ⟨hperm, (eq_toList_iff_of_perm hperm (lastSet? set name)).trans hlast⟩

/-- A token that is set under a name in lower case is sent beside the one that it should replace.
Which of the two comes first is left open on the way. -/
theorem two_tokens_sent :
    let calls := [("authorization", "Bearer other")]
    let r := (Request.post "assets" (.object [])).withHeaders calls
    let set := standardHeaders twoWorkers.config ++ calls
    let s : Session Nat := { peer := 0 }
    let run := twoWorkers.client.request (Peer.recorded fun _ => .reply 200 [] (some "")) r s
    lastSet? set "Authorization" = some "Bearer other" ∧
      run.2.attempts.toList.map (fun t =>
        (t.message.isWritable, t.message.valuesOf "Authorization")) =
          [(true, ["Bearer key", "Bearer other"])] := by
  decide +kernel

end Client

end AssetHierarchy
