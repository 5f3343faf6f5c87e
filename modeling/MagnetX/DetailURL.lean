/-
# `MagnetX.DetailURL` — an id on its way into a URL

The path of `getDetails` holds the id, and the id is percent-encoded twice: by
`String.urlEncoding()` with the characters allowed in a query, when the target makes its
path, and by `appendingPathComponent` with the characters allowed in a path, when Moya
makes the URL of the target.  The server decodes once.

Characters that a query allows and a path does not (`?` and `;`) are left to the second
encoder, and come through.  What the first encoder touches is encoded again, percent
sign and all, and does not; a slash is touched by neither and splits the segment.  So an
id survives exactly when it is made of characters a query allows and has no slash
(`detail_url_iff`).  No two ids are ever confused: both encodings are injective.
-/
import MagnetX.Target
import Mathlib.Data.List.TakeWhile

namespace MagnetX

open Lib

/-- A URL up to its query or fragment. -/
def beforeQuery (url : String) : List Char := url.toList.takeWhile fun c => c ≠ '?' && c ≠ '#'

/-- The URL of a record has one path segment after `/subject/`, and decoding the segment
gives the bytes of the id. -/
def Survives (id : String) : Prop :=
  ∃ rest segment,
    beforeQuery (absoluteString (MoviesTarget.getDetails id)) =
      (baseURL ++ "/subject/").toList ++ rest ∧
    rest.splitOn '/' = [segment] ∧ Percent.decode segment = Percent.utf8 id.toList

/-! ## The URL -/

theorem absoluteString_getDetails (id : String) :
    absoluteString (MoviesTarget.getDetails id) =
      baseURL ++ "/subject/" ++ Percent.encode urlPathAllowed (urlEncoding id) := by
  have hpath : TargetType.path (MoviesTarget.getDetails id) =
      "/" ++ ("subject/" ++ urlEncoding id) := by
    show "/" ++ "subject/" ++ urlEncoding id = _
    exact String.append_assoc
  have hne : ("/" ++ ("subject/" ++ urlEncoding id)).isEmpty = false := by
    simp [String.isEmpty_eq_false_iff]
  rw [absoluteString, hpath, hne, if_neg Bool.false_ne_true, appendingPathComponent,
    dropLeadingSlash_slash, Percent.encode_append,
    Percent.encode_of_allowed (s := "subject/") (by decide), ← String.append_assoc]
  rfl

theorem cachedKey_getDetails (id : String) :
    cachedKey (MoviesTarget.getDetails id) =
      absoluteString (MoviesTarget.getDetails id) ++ "?" := by
  rw [cachedKey]
  exact String.append_empty

/-- The second encoder leaves no character that ends the path. -/
theorem beforeQuery_getDetails (id : String) :
    beforeQuery (absoluteString (MoviesTarget.getDetails id)) =
      (baseURL ++ "/subject/").toList ++
        (Percent.encode urlPathAllowed (urlEncoding id)).toList := by
  have hends : ∀ c, c ∉ Percent.escapeChars → urlPathAllowed c = false →
      c ∉ (Percent.encode urlPathAllowed (urlEncoding id)).toList := by
    intro c hc hallowed hmem
    rw [Percent.mem_encode_iff hc, hallowed] at hmem
    exact Bool.false_ne_true hmem.2
  have hbase : (baseURL ++ "/subject/").toList.all (fun c => c ≠ '?' && c ≠ '#') = true := by
    decide
  rw [beforeQuery, absoluteString_getDetails, String.toList_append, List.takeWhile_eq_self_iff]
  intro c hmem
  rcases List.mem_append.mp hmem with hmem | hmem
  · exact List.all_eq_true.mp hbase c hmem
  · rw [Bool.and_eq_true, decide_eq_true_eq, decide_eq_true_eq]
    constructor
    · rintro rfl
      exact hends '?' (by decide) (by decide) hmem
    · rintro rfl
      exact hends '#' (by decide) (by decide) hmem

/-- A path without a slash is one segment. -/
theorem splitOn_eq_singleton_iff {rest segment : List Char} :
    rest.splitOn '/' = [segment] ↔ segment = rest ∧ '/' ∉ rest := by
  constructor
  · intro h
    have hslash : '/' ∉ rest := by
      intro hmem
      obtain ⟨front, back, rfl⟩ := List.append_of_mem hmem
      rw [List.splitOn_append_cons_self] at h
      have hlength := congrArg List.length h
      have hfront := List.length_pos_of_ne_nil (List.splitOn_ne_nil '/' front)
      have hback := List.length_pos_of_ne_nil (List.splitOn_ne_nil '/' back)
      rw [List.length_append, List.length_singleton] at hlength
      omega
    rw [List.splitOn_eq_singleton hslash] at h
    exact ⟨(List.singleton_inj.mp h).symm, hslash⟩
  · rintro ⟨rfl, hslash⟩
    exact List.splitOn_eq_singleton hslash

/-! ## Ids -/

variable {id : String}

/-- Neither encoder touches a slash. -/
theorem slash_mem_iff (hblank : isBlank id = false) :
    '/' ∈ (Percent.encode urlPathAllowed (urlEncoding id)).toList ↔ '/' ∈ id.toList := by
  rw [urlEncoding, hblank, if_neg Bool.false_ne_true, Percent.mem_encode_iff (by decide),
    Percent.mem_encode_iff (by decide)]
  simp [urlPathAllowed, urlQueryAllowed]

/-- **When an id survives.** -/
theorem survives_iff (hblank : isBlank id = false) :
    Survives id ↔ ∀ c ∈ id.toList, urlQueryAllowed c = true ∧ c ≠ '/' := by
  have hdecode : Percent.decode (Percent.encode urlPathAllowed (urlEncoding id)).toList =
      Percent.utf8 id.toList ↔ id.toList.all urlQueryAllowed = true := by
    rw [Percent.decode_encode (by decide), ← Percent.encode_eq_self_iff, urlEncoding, hblank,
      if_neg Bool.false_ne_true]
    constructor
    · intro h
      exact String.toList_inj.mp (Percent.utf8_injective h)
    · intro h
      rw [h]
  have hsurvives : Survives id ↔ '/' ∉ id.toList ∧ id.toList.all urlQueryAllowed = true := by
    rw [← slash_mem_iff hblank, ← hdecode, Survives, beforeQuery_getDetails]
    constructor
    · rintro ⟨rest, segment, hrest, hsegment, h⟩
      obtain ⟨rfl, hslash⟩ := splitOn_eq_singleton_iff.mp hsegment
      rw [List.append_cancel_left hrest]
      exact ⟨hslash, h⟩
    · rintro ⟨hslash, h⟩
      exact ⟨_, _, rfl, splitOn_eq_singleton_iff.mpr ⟨rfl, hslash⟩, h⟩
  rw [hsurvives, List.all_eq_true]
  constructor
  · rintro ⟨hslash, hall⟩ c hc
    exact ⟨hall c hc, fun h => hslash (h ▸ hc)⟩
  · intro h
    exact ⟨fun hslash => (h _ hslash).2 rfl, fun c hc => (h c hc).1⟩

/-- Different ids have different URLs. -/
theorem absoluteString_getDetails_injective {id id' : String} (hblank : isBlank id = false)
    (hblank' : isBlank id' = false)
    (h : absoluteString (MoviesTarget.getDetails id) =
      absoluteString (MoviesTarget.getDetails id')) : id = id' := by
  rw [absoluteString_getDetails, absoluteString_getDetails, String.append_right_inj] at h
  have hpath := Percent.encode_injective (by decide) h
  rw [urlEncoding, hblank, if_neg Bool.false_ne_true, urlEncoding, hblank',
    if_neg Bool.false_ne_true] at hpath
  exact Percent.encode_injective (by decide) hpath

/-- **What the URLs of detail records do with ids.**  An id is one segment that decodes to
it exactly when a query allows all its characters and none is a slash; and whatever their
characters, two ids share neither a URL nor a cache key. -/
theorem detail_url_iff (id : String) (hblank : isBlank id = false) :
    (Survives id ↔ ∀ c ∈ id.toList, urlQueryAllowed c = true ∧ c ≠ '/') ∧
    ∀ id', isBlank id' = false → id ≠ id' →
      absoluteString (MoviesTarget.getDetails id) ≠ absoluteString (MoviesTarget.getDetails id') ∧
      cachedKey (MoviesTarget.getDetails id) ≠ cachedKey (MoviesTarget.getDetails id') := by
  refine ⟨survives_iff hblank, ?_⟩
  intro id' hblank' hne
  have hurl : absoluteString (MoviesTarget.getDetails id) ≠
      absoluteString (MoviesTarget.getDetails id') :=
    fun h => hne (absoluteString_getDetails_injective hblank hblank' h)
  refine ⟨hurl, ?_⟩
  rw [cachedKey_getDetails, cachedKey_getDetails]
  intro h
  exact hurl (String.append_left_inj _ |>.mp h)

theorem detail_url_iff_number :
    (Survives "26752088" ↔ ∀ c ∈ "26752088".toList, urlQueryAllowed c = true ∧ c ≠ '/') ∧
      absoluteString (MoviesTarget.getDetails "26752088") ≠
        absoluteString (MoviesTarget.getDetails "1291561") ∧
      cachedKey (MoviesTarget.getDetails "26752088") ≠
        cachedKey (MoviesTarget.getDetails "1291561") :=
  have h := detail_url_iff "26752088" (by decide)
  ⟨h.1, h.2 "1291561" (by decide) (by decide)⟩

/-- A blank inside an id is encoded twice, and a slash splits it. -/
theorem ids_that_do_not_survive : ¬ Survives "the matrix" ∧ ¬ Survives "tt/0133093" := by
  constructor
  · rw [survives_iff (by decide)]
    intro h
    exact absurd (h ' ' (by decide)).1 (by decide)
  · rw [survives_iff (by decide)]
    intro h
    exact (h '/' (by decide)).2 rfl

end MagnetX
