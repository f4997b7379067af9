import AssetHierarchy.Asset
import AssetHierarchy.Proofs.Lists
import AssetHierarchy.Proofs.Members

/-! Nodes, assets and identifiers as JSON. What a record is written as is read back as the record
itself. Each decoder is described by the values that it reads: a field that is missing, one that is
`null` and one that holds a value, in an object whose other keys are free, or the same by position
in an array. -/
namespace AssetHierarchy

theorem bind_eq_ok_iff {ε α β : Type} {x : Except ε α} {f : α → Except ε β} {b : β} :
    x >>= f = .ok b ↔ ∃ a, x = .ok a ∧ f a = .ok b := by
  cases x with
  | error e => exact ⟨nofun, nofun⟩
  | ok a => exact ⟨fun h => ⟨a, rfl, h⟩, fun ⟨_, rfl, h⟩ => h⟩

theorem map_eq_ok_iff {ε α β : Type} {x : Except ε α} {f : α → β} {b : β} :
    x.map f = .ok b ↔ ∃ a, x = .ok a ∧ f a = b := by
  cases x with
  | error e => exact ⟨nofun, nofun⟩
  | ok a => simp [Except.map]

/-! ### Values -/

/-- A decoder reads the values that spell something and no others; `null` is none of them, and what
is encoded is one of them. -/
structure Codec {α : Type} (encode : α → Json) (decode : Decoder α) (spells : Json → α → Prop) :
    Prop where
  ok_iff : ∀ {v a}, decode v = .ok a ↔ spells v a
  not_null : ∀ {a}, ¬spells .null a
  spells_encode : ∀ a, spells (encode a) a

def Json.IsNatural (v : Json) (n : UInt64) : Prop := v = .natural n

def Json.IsString (v : Json) (s : String) : Prop := v = .string s

theorem codec_natural : Codec .natural Decoder.unsigned Json.IsNatural where
  ok_iff := by
    intro v n
    unfold Decoder.unsigned Json.IsNatural Json.natural
    split <;> simp_all
  not_null := nofun
  spells_encode _ := rfl

theorem codec_string : Codec .string Decoder.string Json.IsString where
  ok_iff := by
    intro v s
    unfold Decoder.string Json.IsString
    split <;> simp_all
  not_null := nofun
  spells_encode _ := rfl

theorem Codec.decode_encode {α : Type} {encode : α → Json} {decode : Decoder α}
    {spells : Json → α → Prop} (hc : Codec encode decode spells) (a : α) :
    decode (encode a) = .ok a :=
  hc.ok_iff.mpr (hc.spells_encode a)

/-! ### Metadata -/

theorem stringMembers_eq_ok_iff {ms : List (String × Json)} {pairs : List (String × String)} :
    Decoder.stringMembers ms = .ok pairs ↔ ms = pairs.map fun p => (p.1, .string p.2) := by
  induction ms generalizing pairs with
  | nil => cases pairs <;> simp [Decoder.stringMembers]
  | cons m rest ih =>
    obtain ⟨k, v⟩ := m
    simp only [Decoder.stringMembers, bind_eq_ok_iff, codec_string.ok_iff, ih]
    constructor
    · rintro ⟨s, rfl, ss, rfl, h⟩
      obtain rfl := Except.ok.inj h
      rfl
    · intro h
      cases pairs with
      | nil => exact nomatch h
      | cons p pairs =>
        obtain ⟨hm, rfl⟩ := List.cons_eq_cons.mp h
        obtain ⟨rfl, rfl⟩ := Prod.mk.inj hm
        exact ⟨p.2, rfl, pairs, rfl, rfl⟩

namespace Metadata

/-- An object of texts, the last of which counts where a key is repeated. -/
def SpeltBy (v : Json) (m : Metadata) : Prop :=
  ∃ pairs : List (String × String),
    v = .object (pairs.map fun p => (p.1, .string p.2)) ∧ m = ofList pairs

theorem ofList_entries (m : Metadata) : ofList m.entries = m := by
  unfold ofList
  congr 1
  exact Json.ordered_of_pairwise m.ascending

theorem codec : Codec toJson decode SpeltBy where
  ok_iff := by
    intro v m
    unfold decode SpeltBy
    split
    · simp only [map_eq_ok_iff, stringMembers_eq_ok_iff, Json.object.injEq, eq_comm (a := m)]
    · next hobject => exact ⟨nofun, fun ⟨_, hv, _⟩ => absurd hv (hobject _)⟩
  not_null := nofun
  spells_encode m := ⟨m.entries, rfl, (ofList_entries m).symm⟩

end Metadata

/-! ### Times -/

theorem Json.Number.toInt?_ofInt {i : Int} (h : -2 ^ 63 ≤ i) (h' : i < 2 ^ 64) :
    (ofInt i).toInt? = some i := by
  unfold ofInt
  split
  · next hneg =>
    have hk : (-i - 1).toNat % negativeCount = (-i - 1).toNat :=
      Nat.mod_eq_of_lt (by unfold negativeCount; omega)
    simp only [ofNegative, toInt?, hk]
    congr 1
    omega
  · next hpos =>
    have hn : i.toNat < UInt64.size := by
      rw [UInt64.size]
      omega
    simp only [toInt?, UInt64.toNat_ofNat_of_lt' hn]
    congr 1
    omega

/-- An integer has one number. -/
theorem Json.Number.eq_ofInt_of_toInt? {k : Number} {i : Int} (h : k.toInt? = some i) :
    k = ofInt i := by
  cases k with
  | natural n =>
    obtain rfl := Option.some.inj h
    rw [ofInt, if_neg (by omega), Int.toNat_natCast, UInt64.ofNat_toNat]
  | negative j =>
    obtain rfl := Option.some.inj h
    have hj : (- -((j.val + 1 : Nat) : Int) - 1).toNat = j.val := by omega
    have hmod : (- -((j.val + 1 : Nat) : Int) - 1).toNat % negativeCount = j.val := by
      rw [hj, Nat.mod_eq_of_lt j.isLt]
    rw [ofInt, if_pos (by omega), ofNegative]
    exact congrArg _ (Fin.ext hmod.symm)
  | float d => exact nomatch h

namespace Time

/-- A whole number of milliseconds. -/
def SpeltBy (v : Json) (t : Time) : Prop :=
  ∃ k : Json.Number, v = .number k ∧ k.toInt? = some t.milliseconds

theorem SpeltBy.eq_toJson {v : Json} {t : Time} (h : SpeltBy v t) : v = t.toJson := by
  obtain ⟨k, rfl, hk⟩ := h
  rw [Json.Number.eq_ofInt_of_toInt? hk, toJson]

theorem ofInt?_eq_some_iff {ms : Int} {t : Time} : ofInt? ms = some t ↔ ms = t.milliseconds := by
  unfold ofInt?
  split
  · constructor
    · rintro h
      obtain rfl := Option.some.inj h
      rfl
    · rintro rfl
      rfl
  · next hout =>
    refine ⟨nofun, fun h => absurd ?_ hout⟩
    rw [h]
    exact ⟨t.earliest_le, t.le_latest⟩

theorem codec : Codec toJson decode SpeltBy where
  ok_iff := by
    intro v t
    unfold decode SpeltBy
    cases v with
    | number k =>
      cases hk : k.toInt? with
      | none => simp [hk]
      | some ms =>
        have hms : (∃ j, Json.number k = .number j ∧ j.toInt? = some t.milliseconds) ↔
            ofInt? ms = some t := by
          simp [hk, ofInt?_eq_some_iff]
        rw [hms]
        cases ht : ofInt? ms <;> simp [hk, ht]
    | _ => simp
  not_null := nofun
  spells_encode t :=
    ⟨_, rfl, Json.Number.toInt?_ofInt (by have := t.earliest_le; omega)
      (by have := t.le_latest; omega)⟩

end Time

/-! ### Fields -/

/-- How an optional field may be spelt: not at all, as `null`, or as a value. -/
inductive FieldSpelt {α : Type} (spells : Json → α → Prop) : Option Json → Option α → Prop
  | missing : FieldSpelt spells none none
  | null : FieldSpelt spells (some .null) none
  | value {v : Json} {a : α} (h : spells v a) : FieldSpelt spells (some v) (some a)

section

variable {α : Type} {decode : Decoder α} {spells : Json → α → Prop} {encode : α → Json}
  {ms : List (String × Json)} {items : List Json} {name : String} {index : Nat}

/-- The element of an array form for an optional field. -/
def orNull (encode : α → Json) : Option α → Json
  | none => .null
  | some a => encode a

theorem FieldSpelt.orNull (hc : Codec encode decode spells) (x : Option α) :
    FieldSpelt spells (some (orNull encode x)) x := by
  cases x with
  | none => exact .null
  | some a => exact .value (hc.spells_encode a)

theorem FieldSpelt.map (hc : Codec encode decode spells) (x : Option α) :
    FieldSpelt spells (x.map encode) x := by
  cases x with
  | none => exact .missing
  | some a => exact .value (hc.spells_encode a)

namespace Codec

theorem optional_eq_ok_iff (hc : Codec encode decode spells) {v : Json} {x : Option α} :
    Decoder.optional decode v = .ok x ↔ FieldSpelt spells (some v) x := by
  unfold Decoder.optional
  split
  · constructor
    · rintro h
      obtain rfl := Except.ok.inj h
      exact .null
    · rintro (_ | _ | h)
      · rfl
      · exact absurd h hc.not_null
  · next hnull =>
    simp only [map_eq_ok_iff, hc.ok_iff]
    constructor
    · rintro ⟨a, h, rfl⟩
      exact .value h
    · rintro (_ | _ | h)
      · exact absurd rfl hnull
      · exact ⟨_, h, rfl⟩

/-- What is read of a place that may be empty. -/
theorem elim_optional_eq_ok_iff (hc : Codec encode decode spells) {v? : Option Json}
    {x : Option α} :
    v?.elim (.ok none) (Decoder.optional decode) = .ok x ↔ FieldSpelt spells v? x := by
  cases v? with
  | none =>
    constructor
    · rintro h
      obtain rfl := Except.ok.inj h
      exact .missing
    · rintro ⟨⟩
      rfl
  | some v => exact hc.optional_eq_ok_iff

theorem field_eq_ok_iff (hc : Codec encode decode spells) {x : Option α} :
    Decoder.field ms name decode = .ok x ↔ FieldSpelt spells (ms.lookup name) x := by
  rw [← hc.elim_optional_eq_ok_iff, Decoder.field]
  cases ms.lookup name <;> rfl

theorem present_eq_ok_some_iff (hc : Codec encode decode spells) {a : α} :
    Decoder.present ms name decode = .ok (some a) ↔ ∃ v, ms.lookup name = some v ∧ spells v a := by
  unfold Decoder.present
  split
  · next h => simp [h]
  · next v h => simp [h, map_eq_ok_iff, hc.ok_iff]

end Codec

theorem required_eq_ok_iff {x : Option α} {a : α} :
    Decoder.required name x = .ok a ↔ x = some a := by
  cases x <;> simp [Decoder.required]

theorem Node.element_eq_ok_iff (hc : Codec encode decode spells) {x : Option α} :
    element items index decode = .ok x ↔
      index < items.length ∧ FieldSpelt spells items[index]? x := by
  unfold element
  cases h : items[index]? with
  | none => simp [List.getElem?_eq_none_iff.mp h]
  | some v => simp [hc.optional_eq_ok_iff, (List.getElem?_eq_some_iff.mp h).1]

theorem Asset.element_eq_ok_iff (hc : Codec encode decode spells) {x : Option α} :
    element items index decode = .ok x ↔ FieldSpelt spells items[index]? x := by
  rw [← hc.elim_optional_eq_ok_iff, element]
  cases items[index]? <;> rfl

theorem Asset.requiredElement_eq_ok_iff (hc : Codec encode decode spells) {a : α} :
    requiredElement items index decode = .ok a ↔ ∃ v, items[index]? = some v ∧ spells v a := by
  unfold requiredElement
  split
  · next h => simp [h]
  · next v h => simp [h, hc.ok_iff]

end

/-! ### Records -/

/-- The members that a record is read from: those of an object, or the elements of an array under
the names of the fields in their places. -/
inductive MembersOf (names : List String) (least : Nat) : Json → List (String × Json) → Prop
  | object {ms : List (String × Json)} : MembersOf names least (.object ms) ms
  | array {items : List Json} (h : least ≤ items.length) (h' : items.length ≤ names.length) :
    MembersOf names least (.array items) (names.zip items)

section

variable {names : List String} {least : Nat} {P : List (String × Json) → Prop}

theorem exists_membersOf_object_iff {ms : List (String × Json)} :
    (∃ ms', MembersOf names least (.object ms) ms' ∧ P ms') ↔ P ms :=
  ⟨fun ⟨_, .object, h⟩ => h, fun h => ⟨ms, .object, h⟩⟩

theorem exists_membersOf_array_iff {items : List Json} :
    (∃ ms, MembersOf names least (.array items) ms ∧ P ms) ↔
      (least ≤ items.length ∧ items.length ≤ names.length) ∧ P (names.zip items) :=
  ⟨fun ⟨_, .array hleast hmost, h⟩ => ⟨⟨hleast, hmost⟩, h⟩,
    fun ⟨⟨hleast, hmost⟩, h⟩ => ⟨_, .array hleast hmost, h⟩⟩

theorem not_membersOf {v : Json} {ms : List (String × Json)}
    (hobject : ∀ ms, v = .object ms → False) (harray : ∀ items, v = .array items → False) :
    ¬MembersOf names least v ms := by
  rintro (_ | _)
  · exact hobject _ rfl
  · exact harray _ rfl

end

/-! ### Nodes -/

namespace Node

/-- How the members of a record say what the fields of a node are. Other keys are free. -/
@[mk_iff]
structure FieldsIn (ms : List (String × Json)) (n : Node) : Prop where
  id : FieldSpelt Json.IsNatural (ms.lookup "id") n.id
  externalId : FieldSpelt Json.IsString (ms.lookup "externalId") n.externalId
  name : FieldSpelt Json.IsString (ms.lookup "name") n.name
  parentExternalId : FieldSpelt Json.IsString (ms.lookup "parentExternalId") n.parentExternalId
  parentId : FieldSpelt Json.IsNatural (ms.lookup "parentId") n.parentId
  description : FieldSpelt Json.IsString (ms.lookup "description") n.description
  dataSetId : FieldSpelt Json.IsNatural (ms.lookup "dataSetId") n.dataSetId
  metadata : FieldSpelt Metadata.SpeltBy (ms.lookup "metadata") n.metadata
  source : FieldSpelt Json.IsString (ms.lookup "source") n.source

/-- The names of the fields in the order of the array form. -/
def fieldNames : List String :=
  ["id", "externalId", "name", "parentExternalId", "parentId", "description", "dataSetId",
    "metadata", "source"]

/-- The values of the fields in that order, with `null` for those that are absent. -/
def elements (n : Node) : List Json :=
  [orNull .natural n.id, orNull .string n.externalId, orNull .string n.name,
    orNull .string n.parentExternalId, orNull .natural n.parentId, orNull .string n.description,
    orNull .natural n.dataSetId, orNull Metadata.toJson n.metadata, orNull .string n.source]

theorem ofMembers_eq_ok_iff {ms : List (String × Json)} {n : Node} :
    ofMembers ms = .ok n ↔ n.FieldsIn ms := by
  simp only [ofMembers, bind_eq_ok_iff, codec_natural.field_eq_ok_iff,
    codec_string.field_eq_ok_iff, Metadata.codec.field_eq_ok_iff]
  -- the decoder takes the fields by their names, the structure in the order of the record
  constructor
  · rintro ⟨_, hdataSetId, _, hdescription, _, hexternalId, _, hid, _, hmetadata, _, hname, _,
      hparentExternalId, _, hparentId, _, hsource, h⟩
    obtain rfl := Except.ok.inj h
    constructor <;> assumption
  · rintro ⟨hid, hexternalId, hname, hparentExternalId, hparentId, hdescription, hdataSetId,
      hmetadata, hsource⟩
    exact ⟨_, hdataSetId, _, hdescription, _, hexternalId, _, hid, _, hmetadata, _, hname, _,
      hparentExternalId, _, hparentId, _, hsource, rfl⟩

theorem fieldsIn_zip_iff {items : List Json} {n : Node} :
    n.FieldsIn (fieldNames.zip items) ↔
      FieldSpelt Json.IsNatural items[0]? n.id ∧ FieldSpelt Json.IsString items[1]? n.externalId ∧
      FieldSpelt Json.IsString items[2]? n.name ∧
      FieldSpelt Json.IsString items[3]? n.parentExternalId ∧
      FieldSpelt Json.IsNatural items[4]? n.parentId ∧
      FieldSpelt Json.IsString items[5]? n.description ∧
      FieldSpelt Json.IsNatural items[6]? n.dataSetId ∧
      FieldSpelt Metadata.SpeltBy items[7]? n.metadata ∧
      FieldSpelt Json.IsString items[8]? n.source := by
  have hlookup : ∀ i k, fieldNames[i]? = some k → (fieldNames.zip items).lookup k = items[i]? :=
    fun _ _ h => lookup_zip (by decide) items h
  rw [fieldsIn_iff, hlookup 0 _ rfl, hlookup 1 _ rfl, hlookup 2 _ rfl, hlookup 3 _ rfl,
    hlookup 4 _ rfl, hlookup 5 _ rfl, hlookup 6 _ rfl, hlookup 7 _ rfl, hlookup 8 _ rfl]

theorem ofItems_eq_ok_iff {items : List Json} {n : Node} :
    ofItems items = .ok n ↔ items.length = 9 ∧ n.FieldsIn (fieldNames.zip items) := by
  simp only [ofItems, bind_eq_ok_iff, element_eq_ok_iff codec_natural,
    element_eq_ok_iff codec_string, element_eq_ok_iff Metadata.codec, fieldsIn_zip_iff]
  constructor
  · rintro ⟨_, ⟨-, hid⟩, _, ⟨-, hexternalId⟩, _, ⟨-, hname⟩, _, ⟨-, hparentExternalId⟩, _,
      ⟨-, hparentId⟩, _, ⟨-, hdescription⟩, _, ⟨-, hdataSetId⟩, _, ⟨-, hmetadata⟩, _,
      ⟨hlength, hsource⟩, h⟩
    split at h
    · exact nomatch h
    · next hnot =>
      obtain rfl := Except.ok.inj h
      exact ⟨by omega, hid, hexternalId, hname, hparentExternalId, hparentId, hdescription,
        hdataSetId, hmetadata, hsource⟩
  · rintro ⟨hlength, hid, hexternalId, hname, hparentExternalId, hparentId, hdescription,
      hdataSetId, hmetadata, hsource⟩
    have hlt : ∀ i < 9, i < items.length := fun i hi => hlength ▸ hi
    refine ⟨_, ⟨hlt 0 (by decide), hid⟩, _, ⟨hlt 1 (by decide), hexternalId⟩, _,
      ⟨hlt 2 (by decide), hname⟩, _, ⟨hlt 3 (by decide), hparentExternalId⟩, _,
      ⟨hlt 4 (by decide), hparentId⟩, _, ⟨hlt 5 (by decide), hdescription⟩, _,
      ⟨hlt 6 (by decide), hdataSetId⟩, _, ⟨hlt 7 (by decide), hmetadata⟩, _,
      ⟨hlt 8 (by decide), hsource⟩, ?_⟩
    rw [if_neg (by omega)]

theorem fieldsIn_members (n : Node) : n.FieldsIn n.members := by
  simp only [fieldsIn_iff, members, List.lookup_append, Json.lookup_member?_self,
    Json.lookup_member?_of_ne, ne_eq, String.reduceEq, not_false_eq_true, Option.none_or,
    Option.or_none]
  exact ⟨.map codec_natural _, .map codec_string _, .map codec_string _, .map codec_string _,
    .map codec_natural _, .map codec_string _, .map codec_natural _, .map Metadata.codec _,
    .map codec_string _⟩

theorem fieldsIn_elements (n : Node) : n.FieldsIn (fieldNames.zip n.elements) :=
  fieldsIn_zip_iff.mpr ⟨.orNull codec_natural _, .orNull codec_string _, .orNull codec_string _,
    .orNull codec_string _, .orNull codec_natural _, .orNull codec_string _,
    .orNull codec_natural _, .orNull Metadata.codec _, .orNull codec_string _⟩

/-- A node as an object or as an array of nine elements. -/
def SpeltBy (v : Json) (n : Node) : Prop :=
  ∃ ms, MembersOf fieldNames 9 v ms ∧ n.FieldsIn ms

theorem codec : Codec toJson decode SpeltBy where
  ok_iff := by
    intro v n
    unfold decode SpeltBy
    split
    · rw [ofMembers_eq_ok_iff, exists_membersOf_object_iff]
    · rw [ofItems_eq_ok_iff, exists_membersOf_array_iff]
      exact and_congr_left fun _ => Nat.le_antisymm_iff.trans and_comm
    · next hobject harray =>
      exact ⟨nofun, fun ⟨_, h, _⟩ => absurd h (not_membersOf hobject harray)⟩
  not_null := nofun
  spells_encode n := ⟨n.members, .object, n.fieldsIn_members⟩

theorem decode_elements (n : Node) : decode (.array n.elements) = .ok n :=
  codec.ok_iff.mpr ⟨_, .array (Nat.le_refl 9) (Nat.le_refl 9), n.fieldsIn_elements⟩

end Node

/-! ### Assets -/

namespace Asset

/-- How the members of a record say what the fields of an asset are. Other keys are free. -/
@[mk_iff]
structure FieldsIn (ms : List (String × Json)) (a : Asset) : Prop where
  id : ms.lookup "id" = some (.natural a.id)
  externalId : FieldSpelt Json.IsString (ms.lookup "externalId") a.externalId
  name : ms.lookup "name" = some (.string a.name)
  parentId : FieldSpelt Json.IsNatural (ms.lookup "parentId") a.parentId
  parentExternalId : FieldSpelt Json.IsString (ms.lookup "parentExternalId") a.parentExternalId
  rootId : FieldSpelt Json.IsNatural (ms.lookup "rootId") a.rootId
  description : FieldSpelt Json.IsString (ms.lookup "description") a.description
  dataSetId : FieldSpelt Json.IsNatural (ms.lookup "dataSetId") a.dataSetId
  metadata : FieldSpelt Metadata.SpeltBy (ms.lookup "metadata") a.metadata
  source : FieldSpelt Json.IsString (ms.lookup "source") a.source
  createdTime : FieldSpelt Time.SpeltBy (ms.lookup "createdTime") a.createdTime
  lastUpdatedTime : FieldSpelt Time.SpeltBy (ms.lookup "lastUpdatedTime") a.lastUpdatedTime

/-- The names of the fields in the order of the array form. -/
def fieldNames : List String :=
  ["id", "externalId", "name", "parentId", "parentExternalId", "rootId", "description",
    "dataSetId", "metadata", "source", "createdTime", "lastUpdatedTime"]

theorem ofMembers_eq_ok_iff {ms : List (String × Json)} {a : Asset} :
    ofMembers ms = .ok a ↔ a.FieldsIn ms := by
  simp only [ofMembers, bind_eq_ok_iff, codec_natural.field_eq_ok_iff,
    codec_string.field_eq_ok_iff, Metadata.codec.field_eq_ok_iff, Time.codec.field_eq_ok_iff,
    required_eq_ok_iff]
  constructor
  · rintro ⟨_, hcreatedTime, _, hdataSetId, _, hdescription, _, hexternalId, _, hid, _,
      hlastUpdatedTime, _, hmetadata, _, hname, _, hparentExternalId, _, hparentId, _, hrootId, _,
      hsource, _, rfl, _, rfl, h⟩
    -- only now is it known that the id and the name are there
    rw [codec_natural.present_eq_ok_some_iff] at hid
    rw [codec_string.present_eq_ok_some_iff] at hname
    obtain ⟨_, hid, rfl⟩ := hid
    obtain ⟨_, hname, rfl⟩ := hname
    obtain rfl := Except.ok.inj h
    constructor <;> assumption
  · rintro ⟨hid, hexternalId, hname, hparentId, hparentExternalId, hrootId, hdescription,
      hdataSetId, hmetadata, hsource, hcreatedTime, hlastUpdatedTime⟩
    exact ⟨_, hcreatedTime, _, hdataSetId, _, hdescription, _, hexternalId, _,
      codec_natural.present_eq_ok_some_iff.mpr ⟨_, hid, rfl⟩, _, hlastUpdatedTime, _, hmetadata, _,
      codec_string.present_eq_ok_some_iff.mpr ⟨_, hname, rfl⟩, _, hparentExternalId, _, hparentId,
      _, hrootId, _, hsource, _, rfl, _, rfl, rfl⟩

theorem fieldsIn_zip_iff {items : List Json} {a : Asset} :
    a.FieldsIn (fieldNames.zip items) ↔
      items[0]? = some (.natural a.id) ∧ FieldSpelt Json.IsString items[1]? a.externalId ∧
      items[2]? = some (.string a.name) ∧ FieldSpelt Json.IsNatural items[3]? a.parentId ∧
      FieldSpelt Json.IsString items[4]? a.parentExternalId ∧
      FieldSpelt Json.IsNatural items[5]? a.rootId ∧
      FieldSpelt Json.IsString items[6]? a.description ∧
      FieldSpelt Json.IsNatural items[7]? a.dataSetId ∧
      FieldSpelt Metadata.SpeltBy items[8]? a.metadata ∧
      FieldSpelt Json.IsString items[9]? a.source ∧
      FieldSpelt Time.SpeltBy items[10]? a.createdTime ∧
      FieldSpelt Time.SpeltBy items[11]? a.lastUpdatedTime := by
  have hlookup : ∀ i k, fieldNames[i]? = some k → (fieldNames.zip items).lookup k = items[i]? :=
    fun _ _ h => lookup_zip (by decide) items h
  rw [fieldsIn_iff, hlookup 0 _ rfl, hlookup 1 _ rfl, hlookup 2 _ rfl, hlookup 3 _ rfl,
    hlookup 4 _ rfl, hlookup 5 _ rfl, hlookup 6 _ rfl, hlookup 7 _ rfl, hlookup 8 _ rfl,
    hlookup 9 _ rfl, hlookup 10 _ rfl, hlookup 11 _ rfl]

theorem ofItems_eq_ok_iff {items : List Json} {a : Asset} :
    ofItems items = .ok a ↔
      (3 ≤ items.length ∧ items.length ≤ 12) ∧ a.FieldsIn (fieldNames.zip items) := by
  simp only [ofItems, bind_eq_ok_iff, requiredElement_eq_ok_iff codec_natural,
    requiredElement_eq_ok_iff codec_string, element_eq_ok_iff codec_natural,
    element_eq_ok_iff codec_string, element_eq_ok_iff Metadata.codec, element_eq_ok_iff Time.codec,
    fieldsIn_zip_iff]
  constructor
  · rintro ⟨_, ⟨_, hid, rfl⟩, _, hexternalId, _, ⟨_, hname, rfl⟩, _, hparentId, _,
      hparentExternalId, _, hrootId, _, hdescription, _, hdataSetId, _, hmetadata, _, hsource, _,
      hcreatedTime, _, hlastUpdatedTime, h⟩
    have hleast : 2 < items.length := (List.getElem?_eq_some_iff.mp hname).1
    split at h
    · exact nomatch h
    · next hnot =>
      obtain rfl := Except.ok.inj h
      exact ⟨⟨hleast, by omega⟩, hid, hexternalId, hname, hparentId, hparentExternalId, hrootId,
        hdescription, hdataSetId, hmetadata, hsource, hcreatedTime, hlastUpdatedTime⟩
  -- that three elements are there is said by the name again, so only the upper bound is used
  · rintro ⟨⟨-, hmost⟩, hid, hexternalId, hname, hparentId, hparentExternalId, hrootId,
      hdescription, hdataSetId, hmetadata, hsource, hcreatedTime, hlastUpdatedTime⟩
    refine ⟨_, ⟨_, hid, rfl⟩, _, hexternalId, _, ⟨_, hname, rfl⟩, _, hparentId, _,
      hparentExternalId, _, hrootId, _, hdescription, _, hdataSetId, _, hmetadata, _, hsource, _,
      hcreatedTime, _, hlastUpdatedTime, ?_⟩
    rw [if_neg (by omega)]

theorem fieldsIn_members (a : Asset) : a.FieldsIn a.members := by
  simp only [fieldsIn_iff, members, List.lookup_append, List.lookup_cons,
    Json.lookup_member?_self, Json.lookup_member?_of_ne, ne_eq, String.reduceEq, String.reduceBEq,
    not_false_eq_true, Option.none_or, Option.or_none, beq_self_eq_true]
  exact ⟨trivial, .map codec_string _, trivial, .map codec_natural _, .map codec_string _,
    .map codec_natural _, .map codec_string _, .map codec_natural _, .map Metadata.codec _,
    .map codec_string _, .map Time.codec _, .map Time.codec _⟩

/-- An asset as an object or as an array, which may end after the name. -/
def SpeltBy (v : Json) (a : Asset) : Prop :=
  ∃ ms, MembersOf fieldNames 3 v ms ∧ a.FieldsIn ms

theorem codec : Codec toJson decode SpeltBy where
  ok_iff := by
    intro v a
    unfold decode SpeltBy
    split
    · rw [ofMembers_eq_ok_iff, exists_membersOf_object_iff]
    · rw [ofItems_eq_ok_iff, exists_membersOf_array_iff]
      rfl
    · next hobject harray =>
      exact ⟨nofun, fun ⟨_, h, _⟩ => absurd h (not_membersOf hobject harray)⟩
  not_null := nofun
  spells_encode a := ⟨a.members, .object, a.fieldsIn_members⟩

end Asset

/-! ### Identifiers -/

theorem Identifier.codec : Codec toJson decode fun v x => v = x.toJson where
  ok_iff := by
    intro v x
    constructor
    · intro h
      unfold decode at h
      split at h
      · obtain ⟨n, hn, rfl⟩ := map_eq_ok_iff.mp h
        rw [codec_natural.ok_iff.mp hn, toJson]
      · obtain ⟨s, hs, rfl⟩ := map_eq_ok_iff.mp h
        rw [codec_string.ok_iff.mp hs, toJson]
      all_goals exact nomatch h
    · rintro rfl
      cases x <;> rfl
  not_null := by
    rintro (n | s) h
    · cases h
    · cases h
  spells_encode _ := rfl

/-! ### Round trips -/

/-- What is written is read back as it was, a node from its array as well. What is read has one of
the forms of its record, and it is read the same when it has been written. A time is a whole number
of milliseconds, any in the range is one, and it is written as it was read. -/
theorem read_back_as_written :
    (∀ n : Node, Node.decode n.toJson = .ok n ∧
      n.elements.length = 9 ∧ Node.decode (.array n.elements) = .ok n) ∧
    (∀ v (n : Node), (Node.decode v = .ok n ↔ n.SpeltBy v) ∧
      (Node.decode v = .ok n → Node.decode n.toJson = .ok n)) ∧
    (∀ a : Asset, Asset.decode a.toJson = .ok a) ∧
    (∀ v (a : Asset), (Asset.decode v = .ok a ↔ a.SpeltBy v) ∧
      (Asset.decode v = .ok a → Asset.decode a.toJson = .ok a)) ∧
    (∀ t : Time, Time.decode t.toJson = .ok t) ∧
    (∀ v (t : Time), (Time.decode v = .ok t ↔ t.SpeltBy v) ∧
      (Time.decode v = .ok t → t.toJson = v)) ∧
    (∀ ms : Int, (∃ t : Time, t.milliseconds = ms) ↔
      -8334601228800000 ≤ ms ∧ ms ≤ 8210266876799999) ∧
    (∀ x : Identifier, Identifier.decode x.toJson = .ok x) ∧
    ∀ v (x : Identifier), (Identifier.decode v = .ok x ↔ v = x.toJson) ∧
      (Identifier.decode v = .ok x → Identifier.decode x.toJson = .ok x) := by
  refine ⟨fun n => ⟨Node.codec.decode_encode n, rfl, n.decode_elements⟩,
    fun v n => ⟨Node.codec.ok_iff, fun _ => Node.codec.decode_encode n⟩,
    Asset.codec.decode_encode,
    fun v a => ⟨Asset.codec.ok_iff, fun _ => Asset.codec.decode_encode a⟩,
    Time.codec.decode_encode,
    fun v t => ⟨Time.codec.ok_iff, fun h => (Time.codec.ok_iff.mp h).eq_toJson.symm⟩,
    fun ms => ?_, Identifier.codec.decode_encode,
    fun v x => ⟨Identifier.codec.ok_iff, fun _ => Identifier.codec.decode_encode x⟩⟩
  constructor
  · rintro ⟨t, rfl⟩
    exact ⟨t.earliest_le, t.le_latest⟩
  · rintro ⟨hearliest, hlatest⟩
    exact ⟨⟨ms, hearliest, hlatest⟩, rfl⟩

example : Node.decode (.object [("colour", .string "red"), ("name", .string ""),
    ("parentId", .null)]) = .ok { name := some "" } := rfl

end AssetHierarchy
