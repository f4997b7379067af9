import AssetHierarchy.Proofs.Completion
import Mathlib.Data.List.TakeWhile

/-! The addresses of the requests of a client. The name of a project can be any text, yet it fills
one segment of the path: it is percent-encoded, and what was encoded can be read back. So the
version, the project and the path below them can be told from an address, up to slashes at the front
of the path. -/
namespace AssetHierarchy

/-! ### Percent-encoding -/

namespace Text.Percent

/-- The number of which the character is the digit. -/
def hexValue? (c : Char) : Option Nat :=
  (List.range 16).find? fun n => hexDigit n == c

/-- The bytes that were encoded. -/
def decodeBytes? : List Char → Option (List UInt8)
  | [] => some []
  | '%' :: hi :: lo :: rest =>
    (hexValue? hi).bind fun h => (hexValue? lo).bind fun l =>
      (decodeBytes? rest).map (UInt8.ofNat (16 * h + l) :: ·)
  | c :: rest => if c = '%' then none else (decodeBytes? rest).map (UInt8.ofNat c.toNat :: ·)

theorem hexValue?_hexDigit : ∀ n < 16, hexValue? (hexDigit n) = some n := by decide

theorem hexDigit_ne_slash : ∀ n < 16, hexDigit n ≠ '/' := by decide

theorem toNat_charOfByte (b : UInt8) : (Char.ofNat b.toNat).toNat = b.toNat := by
  have hb : b.toNat < 256 := b.toNat_lt
  unfold Char.ofNat
  rw [dif_pos (show b.toNat.isValidChar from .inl (by omega))]
  rfl

theorem charOfByte_ne {b : UInt8} {c : Char} (h : b.toNat ≠ c.toNat) : Char.ofNat b.toNat ≠ c := by
  rintro rfl
  exact h (toNat_charOfByte b).symm

theorem charOfByte_ne_of_isUnreserved {b : UInt8} (h : isUnreserved b = true) :
    Char.ofNat b.toNat ≠ '%' ∧ Char.ofNat b.toNat ≠ '/' := by
  constructor
  · refine charOfByte_ne fun hb => ?_
    obtain rfl : b = 0x25 := UInt8.toNat_inj.mp hb
    contradiction
  · refine charOfByte_ne fun hb => ?_
    obtain rfl : b = 0x2F := UInt8.toNat_inj.mp hb
    contradiction

theorem slash_notMem_encodeByte (b : UInt8) : '/' ∉ encodeByte b := by
  unfold encodeByte
  split
  · next h => simpa using (charOfByte_ne_of_isUnreserved h).2.symm
  · have hhi : b.toNat / 16 < 16 := by have := b.toNat_lt; omega
    have hlo : b.toNat % 16 < 16 := Nat.mod_lt _ (by decide)
    simpa [escapeByte] using ⟨(hexDigit_ne_slash _ hhi).symm, (hexDigit_ne_slash _ hlo).symm⟩

theorem decodeBytes?_encodeByte (b : UInt8) (rest : List Char) :
    decodeBytes? (encodeByte b ++ rest) = (decodeBytes? rest).map (b :: ·) := by
  unfold encodeByte
  split
  · next h =>
    have hc := (charOfByte_ne_of_isUnreserved h).1
    rw [List.singleton_append, decodeBytes?, if_neg hc, toNat_charOfByte, UInt8.ofNat_toNat]
    exact fun _ _ _ hpercent => absurd hpercent hc
  · have hhi : b.toNat / 16 < 16 := by have := b.toNat_lt; omega
    have hlo : b.toNat % 16 < 16 := Nat.mod_lt _ (by decide)
    show decodeBytes? ('%' :: hexDigit (b.toNat / 16) :: hexDigit (b.toNat % 16) :: rest) = _
    rw [decodeBytes?]
    simp only [hexValue?_hexDigit _ hhi, hexValue?_hexDigit _ hlo, Option.bind_some,
      Nat.div_add_mod, UInt8.ofNat_toNat]

theorem decodeBytes?_encode (s : String) :
    decodeBytes? (encode s).toList = some s.toUTF8.toList := by
  rw [encode, String.toList_ofList]
  -- a byte is told from what follows it, so the bytes can be read one after the other
  induction s.toUTF8.toList with
  | nil => rfl
  | cons b bs ih => rw [List.flatMap_cons, decodeBytes?_encodeByte, ih, Option.map_some]

theorem slash_notMem_encode (s : String) : '/' ∉ (encode s).toList := by
  rw [encode, String.toList_ofList, List.mem_flatMap]
  rintro ⟨b, -, hb⟩
  exact slash_notMem_encodeByte b hb

/-- The bytes in a row are those that the counting loop of `toList` collects. -/
theorem toList_loop (bs : ByteArray) (i : Nat) (r : List UInt8) :
    ByteArray.toList.loop bs i r = r.reverse ++ bs.data.toList.drop i := by
  induction i, r using ByteArray.toList.loop.induct bs with
  | case1 i r hi ih =>
    have hget : bs.get! i = bs.data.toList[i] := getElem!_pos bs.data i hi
    rw [ByteArray.toList.loop, if_pos hi, ih, hget, List.reverse_cons, List.append_assoc,
      List.drop_eq_getElem_cons (show i < bs.data.toList.length from hi)]
    rfl
  | case2 i r hi =>
    have hlength : bs.data.toList.length ≤ i := Nat.not_lt.mp hi
    rw [ByteArray.toList.loop, if_neg hi, List.drop_of_length_le hlength, List.append_nil]

theorem encode_injective {s t : String} (h : encode s = encode t) : s = t := by
  have hbytes : s.toUTF8.toList = t.toUTF8.toList := by
    rw [← Option.some_inj, ← decodeBytes?_encode, ← decodeBytes?_encode, h]
  unfold ByteArray.toList at hbytes
  rw [toList_loop, toList_loop] at hbytes
  exact String.toByteArray_inj.mp (ByteArray.ext (Array.toList_inj.mp hbytes))

theorem encode_ne_empty {s : String} (h : s ≠ "") : encode s ≠ "" := fun he =>
  h (encode_injective (he.trans (by decide +kernel : "" = encode "")))

end Text.Percent

/-! ### Paths -/

/-- The texts differ in the number of slashes at their front at most. -/
def SamePath (p q : String) : Prop :=
  ∃ (j k : Nat) (rest : List Char),
    p.toList = List.replicate j '/' ++ rest ∧ q.toList = List.replicate k '/' ++ rest

theorem exists_slashes (cs : List Char) :
    ∃ j, cs = List.replicate j '/' ++ cs.dropWhile (· == '/') := by
  have hslashes : cs.takeWhile (· == '/') = List.replicate (cs.takeWhile (· == '/')).length '/' :=
    List.eq_replicate_of_mem fun c hc =>
      beq_iff_eq.mp (List.all_eq_true.mp List.all_takeWhile c hc)
  exact ⟨_, by rw [← hslashes, List.takeWhile_append_dropWhile]⟩

theorem samePath_iff {p q : String} : SamePath p q ↔
    p.toList.dropWhile (· == '/') = q.toList.dropWhile (· == '/') := by
  constructor
  · rintro ⟨j, k, rest, hp, hq⟩
    have hslashes : ∀ n, ∀ c ∈ List.replicate n '/', (c == '/') = true := fun n c hc =>
      beq_iff_eq.mpr (List.eq_of_mem_replicate hc)
    rw [hp, hq, List.dropWhile_append_of_pos (hslashes j),
      List.dropWhile_append_of_pos (hslashes k)]
  · intro h
    obtain ⟨j, hp⟩ := exists_slashes p.toList
    obtain ⟨k, hq⟩ := exists_slashes q.toList
    exact ⟨j, k, _, h ▸ hp, hq⟩

theorem Request.verify_eq_ok_iff {r : Request} :
    r.verify = .ok r ↔ r.path.toList.dropWhile (· == '/') ≠ [] := by
  rw [verify, Ne, List.dropWhile_eq_nil_iff, ← List.all_eq_true]
  split
  · next h => exact iff_of_false nofun (not_not_intro h)
  · next h => exact iff_of_true rfl h

/-! ### Addresses -/

/-- What stands before the first separator, and what follows it. -/
theorem append_cons_inj_of_notMem_left {α : Type} {a b s t : List α} {x : α} (ha : x ∉ a)
    (hb : x ∉ b) : a ++ x :: s = b ++ x :: t ↔ a = b ∧ s = t := by
  constructor
  · intro h
    induction a generalizing b with
    | nil =>
      cases b with
      | nil => exact ⟨rfl, (List.cons.inj h).2⟩
      | cons y b => exact absurd ((List.cons.inj h).1 ▸ List.mem_cons_self) hb
    | cons y a ih =>
      cases b with
      | nil => exact absurd ((List.cons.inj h).1 ▸ List.mem_cons_self) ha
      | cons z b =>
        rw [List.cons_append, List.cons_append, List.cons.injEq] at h
        obtain ⟨rfl, hrest⟩ := h
        obtain ⟨rfl, rfl⟩ := ih (List.not_mem_of_not_mem_cons ha) (List.not_mem_of_not_mem_cons hb)
          hrest
        exact ⟨rfl, rfl⟩
  · rintro ⟨rfl, rfl⟩
    rfl

theorem ApiVersion.slash_notMem_text (v : ApiVersion) : '/' ∉ v.text.toList := by
  cases v <;> decide +kernel

theorem ProjectName.text_ne (p : ProjectName) : p.text ≠ "" := fun h => by
  have hblank := p.not_blank
  rw [h] at hblank
  contradiction

namespace Client

/-- The address is below that of the project: one segment for the project, and a path that is not
empty and does not start with a slash. -/
structure Below (c : Config) (url : String) (segment rest : String) : Prop where
  eq : url =
    c.baseUrl.text ++ "/api/" ++ c.apiVersion.text ++ "/projects/" ++ segment ++ "/" ++ rest
  segment_ne : segment ≠ ""
  segment_slash : '/' ∉ segment.toList
  rest_ne : rest ≠ ""
  rest_slash : rest.toList.head? ≠ some '/'

/-- The parts of an address, of which those before the path end at a slash. -/
theorem toList_urlFor (c : Config) (r : Request) : ((ofConfig c).urlFor r).toList =
    c.baseUrl.text.toList ++ ("/api/".toList ++ (c.apiVersion.text.toList ++ '/' ::
      ("projects/".toList ++ ((Text.Percent.encode c.project.text).toList ++ '/' ::
        r.path.toList.dropWhile (· == '/'))))) := by
  simp [urlFor, ofConfig]

theorem urlFor_eq_iff {c c' : Config} (hbase : c.baseUrl = c'.baseUrl) {r r' : Request} :
    (ofConfig c).urlFor r = (ofConfig c').urlFor r' ↔
      c.apiVersion = c'.apiVersion ∧ c.project = c'.project ∧ SamePath r.path r'.path := by
  have hproject : Text.Percent.encode c.project.text = Text.Percent.encode c'.project.text ↔
      c.project = c'.project := by
    rw [ProjectName.mk.injEq]
    exact ⟨Text.Percent.encode_injective, congrArg _⟩
  -- the version and the project each end at the next slash, as neither has one
  rw [← String.toList_inj, toList_urlFor, toList_urlFor, hbase, List.append_cancel_left_eq,
    List.append_cancel_left_eq,
    append_cons_inj_of_notMem_left c.apiVersion.slash_notMem_text c'.apiVersion.slash_notMem_text,
    List.append_cancel_left_eq,
    append_cons_inj_of_notMem_left (Text.Percent.slash_notMem_encode _)
      (Text.Percent.slash_notMem_encode _),
    String.toList_inj, String.toList_inj, hproject, ← samePath_iff]
  exact and_congr_left' ⟨ApiVersion.text_injective, congrArg _⟩

theorem below_urlFor (c : Config) {r : Request} (hr : r.verify = .ok r) :
    Below c ((ofConfig c).urlFor r) (Text.Percent.encode c.project.text)
      (String.ofList (r.path.toList.dropWhile (· == '/'))) where
  eq := by simp [urlFor, ofConfig, String.append_assoc]
  segment_ne := Text.Percent.encode_ne_empty c.project.text_ne
  segment_slash := Text.Percent.slash_notMem_encode _
  rest_ne h := Request.verify_eq_ok_iff.mp hr (by simpa using congrArg String.toList h)
  rest_slash h := by
    have hhead := List.head?_dropWhile_not (· == '/') r.path.toList
    rw [String.toList_ofList] at h
    rw [h] at hhead
    contradiction

/-- Requests of different projects or versions never go to one address, and neither do different
paths. Every address is that of the project, then the path without the slashes at its front. -/
theorem urls_tell_projects_apart (c c' : Config) (r r' : Request) (hbase : c.baseUrl = c'.baseUrl)
    (hr : r.verify = .ok r) (hr' : r'.verify = .ok r') :
    let url := ((ofConfig c).message r).url
    let url' := ((ofConfig c').message r').url
    (url = url' ↔
      c.apiVersion = c'.apiVersion ∧ c.project = c'.project ∧ SamePath r.path r'.path) ∧
    (∃ segment rest, Below c url segment rest) ∧ ∃ segment rest, Below c' url' segment rest :=
  ⟨urlFor_eq_iff hbase, ⟨_, _, below_urlFor c hr⟩, ⟨_, _, below_urlFor c' hr'⟩⟩

/-- The slash in a project name does not make its last part a part of the path. -/
theorem urls_tell_projects_apart_slash :
    let c : Config := { twoWorkers.config with project := ⟨"plant/east", by decide +kernel⟩ }
    let c' : Config := twoWorkers.config
    let r : Request := .post "assets" (.object [])
    let r' : Request := .post "east/assets" (.object [])
    c.baseUrl = c'.baseUrl ∧ r.verify = .ok r ∧ r'.verify = .ok r' ∧
      c.baseUrl.text ++ "/api/v1/projects/" ++ c.project.text ++ "/" ++ r.path =
        ((ofConfig c').message r').url ∧
      ((ofConfig c).message r).url ≠ ((ofConfig c').message r').url := by
  intro c c' r r'
  have hr : r.verify = .ok r := Request.verify_eq_ok_iff.mpr (by decide +kernel)
  have hr' : r'.verify = .ok r' := Request.verify_eq_ok_iff.mpr (by decide +kernel)
  obtain ⟨hiff, -, -⟩ := urls_tell_projects_apart c c' r r' rfl hr hr'
  exact ⟨rfl, hr, hr', by decide +kernel, fun h => absurd (hiff.mp h).2.1 (by decide +kernel)⟩

end Client

end AssetHierarchy
