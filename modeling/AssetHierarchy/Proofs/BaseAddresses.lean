import AssetHierarchy.Config.BaseUrl
import Mathlib.Data.List.Basic

/-! The texts that are taken for the address of a service. White space around an address and slashes
at its end are taken away, and what is kept is a scheme and a rest that is not empty. The rest can
start with a slash, although the host is what stands before the first one: then the address is taken
and has no host. -/
namespace AssetHierarchy

/-! ### Trimming -/

namespace Text

variable {p : Char → Bool} {cs ds : List Char}

/-- What is left is the text without a run of the class at its front, and no more of the class
stands there. -/
theorem dropWhile_eq_iff : cs.dropWhile p = ds ↔
    (∃ run, cs = run ++ ds ∧ ∀ c ∈ run, p c = true) ∧ ∀ c ∈ ds.head?, p c = false := by
  constructor
  · rintro rfl
    refine ⟨⟨cs.takeWhile p, List.takeWhile_append_dropWhile.symm, ?_⟩, fun c hc => ?_⟩
    · exact List.all_eq_true.mp List.all_takeWhile
    · have hnot := List.head?_dropWhile_not p cs
      rw [Option.mem_def.mp hc] at hnot
      simpa using hnot
  · rintro ⟨⟨run, rfl, hrun⟩, hhead⟩
    rw [List.dropWhile_append_of_pos hrun]
    cases ds with
    | nil => rfl
    | cons c ds => rw [List.dropWhile_cons_of_neg (by simp [hhead c rfl])]

theorem dropWhile_append_append {run ds cs : List Char} (hrun : ∀ c ∈ run, p c = true)
    (hne : ds ≠ []) (hds : ∀ c ∈ ds, p c = false) :
    (run ++ (ds ++ cs)).dropWhile p = ds ++ cs := by
  refine dropWhile_eq_iff.mpr ⟨⟨run, rfl, hrun⟩, fun c hc => ?_⟩
  rw [List.head?_append_of_ne_nil _ hne] at hc
  exact hds c (List.mem_of_mem_head? hc)

theorem dropEndWhile_eq_iff : dropEndWhile p cs = ds ↔
    (∃ run, cs = ds ++ run ∧ ∀ c ∈ run, p c = true) ∧ ∀ c ∈ ds.getLast?, p c = false := by
  rw [dropEndWhile, List.reverse_eq_iff, dropWhile_eq_iff, List.head?_reverse]
  refine and_congr_left' ⟨?_, ?_⟩
  · rintro ⟨run, hcs, hrun⟩
    exact ⟨run.reverse, by simpa using congrArg List.reverse hcs, by simpa using hrun⟩
  · rintro ⟨run, rfl, hrun⟩
    exact ⟨run.reverse, by simp, by simpa using hrun⟩

end Text

namespace BaseUrl

/-- Without white space in it, and with something else than a slash at its end, a text is the normal
form of exactly those that have white space around it and slashes after it. -/
theorem normalise_eq_iff {cs ds : List Char} (hne : ds ≠ [])
    (hblank : ∀ c ∈ ds, Text.isBlank c = false) (hlast : ds.getLast? ≠ some '/') :
    normalise cs = ds ↔ ∃ before slashes after, cs = before ++ ds ++ slashes ++ after ∧
      (∀ c ∈ before, Text.isBlank c = true) ∧ (∀ c ∈ slashes, c = '/') ∧
      ∀ c ∈ after, Text.isBlank c = true := by
  have hslash : ∀ c ∈ ds.getLast?, (c == '/') = false := fun c hc =>
    beq_eq_false_iff_ne.mpr fun h => hlast (h ▸ hc)
  unfold normalise Text.trim
  rw [Text.dropEndWhile_eq_iff, and_iff_left hslash]
  constructor
  · rintro ⟨slashes, htrim, hslashes⟩
    obtain ⟨⟨after, hdrop, hafter⟩, -⟩ := Text.dropEndWhile_eq_iff.mp htrim
    obtain ⟨⟨before, hcs, hbefore⟩, -⟩ := Text.dropWhile_eq_iff.mp hdrop
    refine ⟨before, slashes, after, ?_, hbefore, fun c hc => beq_iff_eq.mp (hslashes c hc), hafter⟩
    rw [hcs, List.append_assoc, List.append_assoc, List.append_assoc]
  · rintro ⟨before, slashes, after, rfl, hbefore, hslashes, hafter⟩
    -- no character of the address or of the slashes is white space, so trimming stops at them
    have hkept : ∀ c ∈ ds ++ slashes, Text.isBlank c = false := by
      intro c hc
      rcases List.mem_append.mp hc with hc | hc
      · exact hblank c hc
      · rw [hslashes c hc]
        rfl
    refine ⟨slashes, ?_, fun c hc => beq_iff_eq.mpr (hslashes c hc)⟩
    rw [List.append_assoc, List.append_assoc, Text.dropWhile_append_append hbefore hne hblank,
      Text.dropEndWhile_eq_iff]
    exact ⟨⟨after, by rw [List.append_assoc], hafter⟩,
      fun c hc => hkept c (List.mem_of_mem_getLast? hc)⟩

theorem afterScheme?_eq_some_iff {cs rest : List Char} : afterScheme? cs = some rest ↔
    cs = "http://".toList ++ rest ∨ cs = "https://".toList ++ rest := by
  constructor
  · intro h
    obtain ⟨scheme, hscheme, htake⟩ := List.exists_of_findSome?_eq_some h
    have hcs : cs = scheme ++ rest := by
      split at htake
      · next hprefix =>
        obtain ⟨tail, rfl⟩ := List.isPrefixOf_iff_prefix.mp hprefix
        rw [← Option.some.inj htake, List.drop_left]
      · contradiction
    obtain rfl | rfl : scheme = "https://".toList ∨ scheme = "http://".toList := by
      simpa [schemes] using hscheme
    · exact .inr hcs
    · exact .inl hcs
  · rintro (rfl | rfl)
    · rfl
    · rfl

theorem parse_eq_ok_iff {s : String} {u : BaseUrl} : parse s = .ok u ↔
    normalise s.toList = u.text.toList ∧ ∃ rest, afterScheme? u.text.toList = some rest ∧
      rest ≠ [] ∧ ∀ c ∈ rest, Text.isBlank c = false := by
  unfold parse
  dsimp only
  constructor
  · intro h
    split at h
    · next rest hrest =>
      split at h
      · contradiction
      · next hgood =>
        obtain rfl := Except.ok.inj h
        rw [String.toList_ofList]
        exact ⟨rfl, rest, hrest, by simpa using hgood⟩
    · contradiction
  · rintro ⟨hcs, rest, hrest, hne, hblank⟩
    rw [hcs, hrest]
    dsimp only
    rw [if_neg (by simpa using ⟨hne, hblank⟩), String.ofList_toList]

/-- What is refused is named by the refusal. -/
theorem parse_eq_error_iff {s : String} :
    parse s = .error (.invalidBaseUrl s) ↔ ∀ u, parse s ≠ .ok u := by
  constructor
  · intro h u hu
    rw [h] at hu
    contradiction
  · intro h
    cases hs : parse s with
    | ok u => exact absurd hs (h u)
    | error e =>
      unfold parse at hs
      dsimp only at hs
      split at hs
      · split at hs
        · exact hs.symm
        · contradiction
      · exact hs.symm

/-! ### What is accepted -/

/-- An address as it is kept: a scheme and a rest that is not empty, holds no white space and does
not end in a slash. -/
structure Kept (text scheme rest : String) : Prop where
  eq : text = scheme ++ rest
  scheme_eq : scheme = "http://" ∨ scheme = "https://"
  rest_ne : rest ≠ ""
  not_blank : ∀ c ∈ rest.toList, Text.isBlank c = false
  last_ne : rest.toList.getLast? ≠ some '/'

/-- The text has slashes at its end and white space around it. -/
def IsPadded (s text : String) : Prop :=
  ∃ before slashes after : String, s = before ++ text ++ slashes ++ after ∧
    (∀ c ∈ before.toList, Text.isBlank c = true) ∧ (∀ c ∈ slashes.toList, c = '/') ∧
    ∀ c ∈ after.toList, Text.isBlank c = true

structure Spells (s text : String) : Prop where
  kept : ∃ scheme rest, Kept text scheme rest
  padded : IsPadded s text

namespace Kept

variable {text scheme rest : String}

theorem toList_eq (h : Kept text scheme rest) : text.toList = scheme.toList ++ rest.toList := by
  rw [h.eq, String.toList_append]

theorem toList_rest_ne (h : Kept text scheme rest) : rest.toList ≠ [] := fun hnil =>
  h.rest_ne (String.toList_eq_nil_iff.mp hnil)

theorem afterScheme?_eq (h : Kept text scheme rest) :
    afterScheme? text.toList = some rest.toList := by
  rw [afterScheme?_eq_some_iff, h.toList_eq]
  rcases h.scheme_eq with rfl | rfl
  · exact .inl rfl
  · exact .inr rfl

theorem of_afterScheme? {cs : List Char} (hafter : afterScheme? text.toList = some cs)
    (hne : cs ≠ []) (hblank : ∀ c ∈ cs, Text.isBlank c = false)
    (hlast : text.toList.getLast? ≠ some '/') : ∃ scheme, Kept text scheme (String.ofList cs) := by
  have hkept : ∀ scheme : String, scheme = "http://" ∨ scheme = "https://" →
      text.toList = scheme.toList ++ cs → Kept text scheme (String.ofList cs) := by
    intro scheme hscheme htext
    rw [htext, List.getLast?_append_of_ne_nil _ hne] at hlast
    refine ⟨String.toList_inj.mp (by simpa using htext), hscheme, ?_, ?_, ?_⟩
    · simpa using hne
    · rwa [String.toList_ofList]
    · rwa [String.toList_ofList]
  rcases afterScheme?_eq_some_iff.mp hafter with h | h
  · exact ⟨_, hkept _ (.inl rfl) h⟩
  · exact ⟨_, hkept _ (.inr rfl) h⟩

theorem toList_text_ne (h : Kept text scheme rest) : text.toList ≠ [] := by
  rw [h.toList_eq]
  exact List.append_ne_nil_of_right_ne_nil _ h.toList_rest_ne

theorem text_not_blank (h : Kept text scheme rest) :
    ∀ c ∈ text.toList, Text.isBlank c = false := by
  have hscheme : scheme.toList.all (fun c => !Text.isBlank c) = true := by
    rcases h.scheme_eq with rfl | rfl
    · decide
    · decide
  rw [h.toList_eq, List.forall_mem_append]
  exact ⟨by simpa using hscheme, h.not_blank⟩

theorem isPadded_iff (h : Kept text scheme rest) {s : String} :
    IsPadded s text ↔ normalise s.toList = text.toList := by
  have hlast : text.toList.getLast? ≠ some '/' := by
    rw [h.toList_eq, List.getLast?_append_of_ne_nil _ h.toList_rest_ne]
    exact h.last_ne
  rw [normalise_eq_iff h.toList_text_ne h.text_not_blank hlast]
  constructor
  · rintro ⟨before, slashes, after, rfl, hbefore, hslashes, hafter⟩
    exact ⟨_, _, _, by simp only [String.toList_append], hbefore, hslashes, hafter⟩
  · rintro ⟨before, slashes, after, hs, hbefore, hslashes, hafter⟩
    refine ⟨.ofList before, .ofList slashes, .ofList after, String.toList_inj.mp ?_, ?_⟩
    · simpa using hs
    · simpa only [String.toList_ofList] using ⟨hbefore, hslashes, hafter⟩

end Kept

theorem parse_eq_ok_iff_spells {s : String} {u : BaseUrl} : parse s = .ok u ↔ Spells s u.text := by
  rw [parse_eq_ok_iff]
  constructor
  · rintro ⟨hnormal, rest, hafter, hne, hblank⟩
    have hlast : u.text.toList.getLast? ≠ some '/' := fun h => by
      rw [← hnormal] at h
      simpa using (Text.dropEndWhile_eq_iff.mp rfl).2 _ h
    obtain ⟨scheme, hkept⟩ := Kept.of_afterScheme? hafter hne hblank hlast
    exact ⟨⟨_, _, hkept⟩, hkept.isPadded_iff.mpr hnormal⟩
  · rintro ⟨⟨scheme, rest, hkept⟩, hpadded⟩
    exact ⟨hkept.isPadded_iff.mp hpadded, rest.toList, hkept.afterScheme?_eq, hkept.toList_rest_ne,
      hkept.not_blank⟩

/-- The texts that are accepted are those that spell an address, and the address is kept. No text
spells two, and every other text is named by its refusal. An address is kept as it is. -/
theorem parse_accepts_grammar (s : String) :
    (∀ text, parse s = .ok ⟨text⟩ ↔ Spells s text) ∧
    (parse s = .error (.invalidBaseUrl s) ↔ ∀ text, ¬Spells s text) ∧
    (∀ text text', Spells s text → Spells s text' → text = text') ∧
    ∀ u, parse s = .ok u → parse u.text = .ok u := by
  have hspells : ∀ text, parse s = .ok ⟨text⟩ ↔ Spells s text := fun text => parse_eq_ok_iff_spells
  refine ⟨hspells, ?_, fun text text' h h' => ?_, fun u hu => ?_⟩
  · rw [parse_eq_error_iff]
    exact ⟨fun h text hs => h ⟨text⟩ ((hspells text).mpr hs),
      fun h u hu => h u.text ((hspells u.text).mp hu)⟩
  · have hsame := ((hspells text).mpr h).symm.trans ((hspells text').mpr h')
    exact congrArg BaseUrl.text (Except.ok.inj hsame)
  · rw [parse_eq_ok_iff_spells] at hu ⊢
    exact ⟨hu.kept, "", "", "", by simp, by simp, by simp, by simp⟩

/-! ### Hosts -/

/-- The parts of an address: a scheme, a host and nothing or a path. -/
structure Parts (text scheme host path : String) : Prop where
  eq : text = scheme ++ host ++ path
  scheme_eq : scheme = "http://" ∨ scheme = "https://"
  host_slash : '/' ∉ host.toList
  host_blank : ∀ c ∈ host.toList, Text.isBlank c = false
  path_head : path = "" ∨ path.toList.head? = some '/'

namespace Kept

variable {u : BaseUrl} {scheme rest : String}

theorem toList_hostName (h : Kept u.text scheme rest) :
    u.hostName.toList = rest.toList.takeWhile (· != '/') := by
  unfold hostName
  dsimp only
  rw [h.afterScheme?_eq, Option.getD_some, String.toList_ofList]

theorem parts (h : Kept u.text scheme rest) :
    Parts u.text scheme u.hostName (.ofList (rest.toList.dropWhile (· != '/'))) where
  eq := by
    rw [← String.toList_inj, String.toList_append, String.toList_append, h.toList_hostName,
      String.toList_ofList, List.append_assoc, List.takeWhile_append_dropWhile, h.toList_eq]
  scheme_eq := h.scheme_eq
  host_slash hmem := by
    rw [h.toList_hostName] at hmem
    simpa using List.all_eq_true.mp List.all_takeWhile _ hmem
  host_blank c hc := by
    rw [h.toList_hostName] at hc
    exact h.not_blank c ((List.takeWhile_prefix _).subset hc)
  path_head := by
    rw [String.toList_ofList]
    cases hdrop : rest.toList.dropWhile (· != '/') with
    | nil => exact .inl rfl
    | cons c tail =>
      have hhead := List.head?_dropWhile_not (· != '/') rest.toList
      rw [hdrop] at hhead
      exact .inr (by simpa using hhead)

theorem hostName_eq_empty_iff (h : Kept u.text scheme rest) :
    u.hostName = "" ↔ rest.toList.head? = some '/' := by
  rw [← String.toList_eq_nil_iff, h.toList_hostName]
  obtain ⟨c, tail, hrest⟩ := List.exists_cons_of_ne_nil h.toList_rest_ne
  rw [hrest]
  by_cases hc : c = '/'
  · simp [hc]
  · simp [hc]

/-- Past the white space at its front, the text goes on as the address does. -/
theorem prefix_iff (h : Kept u.text scheme rest) {s : String} (hs : IsPadded s u.text) :
    (scheme ++ "/").toList <+: s.toList.dropWhile Text.isBlank ↔
      rest.toList.head? = some '/' := by
  obtain ⟨before, slashes, after, rfl, hbefore, -⟩ := hs
  rw [String.toList_append, String.toList_append, String.toList_append, String.toList_append,
    List.append_assoc, List.append_assoc,
    Text.dropWhile_append_append hbefore h.toList_text_ne h.text_not_blank, h.toList_eq,
    List.append_assoc, List.prefix_append_right_inj]
  obtain ⟨c, tail, hrest⟩ := List.exists_cons_of_ne_nil h.toList_rest_ne
  rw [hrest]
  simp [eq_comm]

end Kept

/-- The host of an address that was accepted stands between the scheme and a path. It is missing if
the text has a slash right after the scheme, and only then. -/
theorem host_of_parse (s : String) (u : BaseUrl) (h : parse s = .ok u) :
    ∃ scheme path, Parts u.text scheme u.hostName path ∧
      (u.hostName = "" ↔ (scheme ++ "/").toList <+: s.toList.dropWhile Text.isBlank) := by
  obtain ⟨⟨scheme, rest, hkept⟩, hpadded⟩ := parse_eq_ok_iff_spells.mp h
  refine ⟨scheme, _, hkept.parts, ?_⟩
  rw [hkept.hostName_eq_empty_iff, hkept.prefix_iff hpadded]

/-- What stands around an address does not show in its host, and a port does. -/
theorem host_of_parse_port :
    let s := "\t http://127.0.0.1:8080/cdf// "
    let u : BaseUrl := ⟨"http://127.0.0.1:8080/cdf"⟩
    parse s = .ok u ∧ (∃ scheme path, Parts u.text scheme u.hostName path) ∧ u.hostName ≠ "" := by
  intro s u
  have hs : parse s = .ok u := by decide +kernel
  obtain ⟨scheme, path, hparts, hiff⟩ := host_of_parse s u hs
  refine ⟨hs, ⟨scheme, path, hparts⟩, fun hempty => ?_⟩
  have hslash := hiff.mp hempty
  rcases hparts.scheme_eq with rfl | rfl
  · exact absurd hslash (by decide +kernel)
  · exact absurd hslash (by decide +kernel)

/-- Three slashes leave no host, and the address is accepted. -/
theorem host_missing_after_slashes :
    ∃ u, parse "https:///host" = .ok u ∧ u.hostName = "" :=
  ⟨⟨"https:///host"⟩, by decide +kernel⟩

end BaseUrl

end AssetHierarchy
