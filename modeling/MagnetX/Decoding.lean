/-
# `MagnetX.Decoding` — what decodes, and how much of it

The records decode leniently in their fields and strictly in their container, so a
record is made of any JSON object and of nothing else (`decoding_throws_iff`).

An array field is read element by element and all or nothing: one element that is no
object makes the whole array unreadable, and the override then takes the empty one.  A
list page is delivered in full or empty, never in part (`page_in_full_or_empty`).
-/
import MagnetX.Network

namespace MagnetX

open Lib.Json Lib.Rx CleanJSON

/-! ## Records -/

/-- A type that decodes wherever its container does, and throws what the container throws. -/
class Record (T : Type) [Decodable T] : Prop where
  decodes : ∀ {decoder : JSONDecoder} {j : JSONValue} {c : KeyedDecodingContainer},
    decoder.container j = .ok c → ∃ m : T, initFrom decoder j = .ok m
  throws : ∀ {decoder : JSONDecoder} {j : JSONValue} {e : DecodingError},
    decoder.container j = .error e → initFrom (T := T) decoder j = .error e

instance : Record PersonalAttrModel where
  decodes h := by simp [initFrom, h, bind, Except.bind, pure, Except.pure]
  throws h := by simp [initFrom, h, bind, Except.bind]

instance : Record HotMovieModel where
  decodes h := HotMovieModel.initFrom_eq h
  throws h := by simp [initFrom, h, bind, Except.bind]

instance : Record MovieDetailModel where
  decodes h := MovieDetailModel.initFrom_eq h
  throws h := by simp [initFrom, h, bind, Except.bind]

instance {T : Type} [Decodable T] [Fallback T] : Record (Network.Response T) where
  decodes h := ⟨_, Network.Response.initFrom_eq h⟩
  throws h := by simp [initFrom, h, bind, Except.bind]

section Records

variable {T : Type} [Decodable T] [Record T]

theorem Record.throws_iff (decoder : JSONDecoder) (j : JSONValue) :
    (∃ e, initFrom (T := T) decoder j = .error e) ↔ ¬ j.IsObject := by
  rw [← decoder.container_throws_iff]
  constructor
  · rintro ⟨e, he⟩
    cases hc : decoder.container j with
    | error e' => exact ⟨e', rfl⟩
    | ok c =>
        obtain ⟨m, hm⟩ := Record.decodes (T := T) hc
        rw [hm] at he
        cases he
  · rintro ⟨e, he⟩
    exact ⟨e, Record.throws he⟩

theorem Record.decodes_of_isObject (decoder : JSONDecoder) {j : JSONValue} (hj : j.IsObject) :
    ∃ m : T, initFrom decoder j = .ok m := by
  cases h : initFrom (T := T) decoder j with
  | ok m => exact ⟨m, rfl⟩
  | error e => exact absurd hj ((Record.throws_iff (T := T) decoder j).mp ⟨e, h⟩)

end Records

/-- **Decoding throws exactly on what is not an object**, whatever is in the object. -/
theorem decoding_throws_iff (decoder : JSONDecoder) (j : JSONValue) :
    ((∃ e, initFrom (T := HotMovieModel) decoder j = .error e) ↔ ¬ j.IsObject) ∧
    ((∃ e, initFrom (T := MovieDetailModel) decoder j = .error e) ↔ ¬ j.IsObject) ∧
    ((∃ e, initFrom (T := PersonalAttrModel) decoder j = .error e) ↔ ¬ j.IsObject) ∧
    ((∃ e, initFrom (T := Network.Response (List HotMovieModel)) decoder j = .error e) ↔
      ¬ j.IsObject) :=
  ⟨Record.throws_iff decoder j, Record.throws_iff decoder j, Record.throws_iff decoder j,
    Record.throws_iff decoder j⟩

example : initFrom (T := PersonalAttrModel) {} (.object [("name", .bool true),
    ("id", .int 7), ("avatars", .array [.null])]) =
    .ok ⟨"", "true", "7", ⟨"", "", ""⟩⟩ := by rfl

/-! ## Pages -/

/-- `items` are the elements of `a`, decoded, in their places. -/
def DecodedFrom {T : Type} [Decodable T] (a : List JSONValue) (items : List T) : Prop :=
  List.Forall₂ (fun j item => initFrom {} j = .ok item) a items

section Pages

variable {T : Type} [Decodable T] [Record T] {a : List JSONValue}

/-- An array of objects is read in full. -/
theorem decodedFrom_of_objects (h : ∀ j ∈ a, j.IsObject) :
    ∃ items : List T, initFrom {} (.array a) = .ok items ∧ DecodedFrom a items := by
  obtain ⟨items, hitems⟩ := mapM_ok_of_forall fun j hj =>
    Record.decodes_of_isObject (T := T) {} (h j hj)
  exact ⟨items, hitems, mapM_eq_ok_iff.mp hitems⟩

/-- An array with anything but objects in it is not read at all. -/
theorem initFrom_array_throws {j : JSONValue} (hmem : j ∈ a) (hj : ¬ j.IsObject) :
    ∃ e, initFrom (T := List T) {} (.array a) = .error e := by
  obtain ⟨e, he⟩ := (Record.throws_iff (T := T) {} j).mpr hj
  exact mapM_throws_of_mem hmem he

end Pages

/-- What the envelope makes of the array under `subjects`. -/
theorem envelope_subjects {fields : List (String × JSONValue)} {a : List JSONValue}
    (h : fields.lookup "subjects" = some (.array a)) :
    ((∀ j ∈ a, j.IsObject) → DecodedFrom a (envelope (List HotMovieModel) fields).subjects) ∧
      ((∃ j ∈ a, ¬ j.IsObject) → (envelope (List HotMovieModel) fields).subjects = []) := by
  simp only [envelope, h, Option.bind_some]
  constructor
  · intro hall
    obtain ⟨items, hitems, hdecoded⟩ := decodedFrom_of_objects (T := HotMovieModel) hall
    rw [hitems]
    exact hdecoded
  · rintro ⟨j, hmem, hj⟩
    obtain ⟨e, he⟩ := initFrom_array_throws (T := HotMovieModel) hmem hj
    rw [he]
    rfl

theorem eq_subjects_of_ok {T : Type} {resp : Network.Response T} {items : T}
    (h : subjectsOrStatus resp = .ok items) : items = resp.subjects := by
  rw [subjectsOrStatus] at h
  split at h
  · exact (Except.ok.inj h).symm
  · cases h

/-- **A page is delivered in full or empty.**  If any of the list paths delivers a page for
a body with a `subjects` array, it is the array decoded element by element, or the empty
list where some element is no object. -/
theorem page_in_full_or_empty {τ : Type} [TargetType τ] (target : τ) (storage : Storage)
    (statusCode : Int) {fields : List (String × JSONValue)} {a : List JSONValue}
    (h : fields.lookup "subjects" = some (.array a)) (items : List HotMovieModel)
    (hitems : Signal.next items ∈ (requestWithResult (List HotMovieModel) storage target).answer
        (.ok ⟨statusCode, .json (.object fields)⟩) ∨
      Signal.next items ∈
        (requestWithResultSingle (List HotMovieModel) target).asObservable.answer
          (.ok ⟨statusCode, .json (.object fields)⟩) ∨
      Signal.next items ∈ (mapResult (List HotMovieModel) none {} request).asObservable.answer
        (.ok ⟨statusCode, .json (.object fields)⟩)) :
    ((∀ j ∈ a, j.IsObject) → DecodedFrom a items) ∧
      ((∃ j ∈ a, ¬ j.IsObject) → items = []) := by
  have hok : subjectsOrStatus (envelope (List HotMovieModel) fields) = .ok items := by
    rw [requestWithResult_answer, requestWithResultSingle_answer, mapResult_answer,
      resultOf_object, mapResultOf_object] at hitems
    cases hresult : subjectsOrStatus (envelope (List HotMovieModel) fields) with
    | error e =>
        rw [hresult] at hitems
        simp [storedSignals, outcomeSignals] at hitems
    | ok items' =>
        rw [hresult] at hitems
        simp only [storedSignals, outcomeSignals, List.mem_cons, Signal.next.injEq, reduceCtorEq,
          List.not_mem_nil, or_false, false_or, or_self] at hitems
        rw [hitems]
  rw [eq_subjects_of_ok hok]
  exact envelope_subjects h

/-- A page of two elements, the first of them empty. -/
def sampleBody (second : JSONValue) : List (String × JSONValue) :=
  [("subjects", .array [.object [], second])]

theorem page_in_full_or_empty_two_movies :
    ∃ items : List HotMovieModel, DecodedFrom [.object [], .object []] items := by
  have hsome : ∃ items, resultOf (List HotMovieModel)
      (.ok ⟨200, .json (.object (sampleBody (.object [])))⟩) = .ok items := ⟨_, rfl⟩
  obtain ⟨items, hresult⟩ := hsome
  have hnext : Signal.next items ∈ (requestWithResult (List HotMovieModel) (fun _ => none)
      (MoviesTarget.getNowPlaying 0)).answer
        (.ok ⟨200, .json (.object (sampleBody (.object [])))⟩) := by
    rw [requestWithResult_answer, hresult]
    simp [storedSignals]
  have hpage := page_in_full_or_empty (MoviesTarget.getNowPlaying 0) (fun _ => none) 200 rfl items
    (.inl hnext)
  refine ⟨items, hpage.1 ?_⟩
  intro j hj
  exact ⟨[], by simpa using hj⟩

/-- One number among the movies, and the page delivered is empty. -/
theorem odd_element_empties_the_page :
    ¬ ∀ (target : MoviesTarget) (storage : Storage) (statusCode : Int)
        (fields : List (String × JSONValue)) (a : List JSONValue) (items : List HotMovieModel),
      fields.lookup "subjects" = some (.array a) →
      Signal.next items ∈ (requestWithResult (List HotMovieModel) storage target).answer
        (.ok ⟨statusCode, .json (.object fields)⟩) →
      DecodedFrom a items := by
  intro h
  have hresult : resultOf (List HotMovieModel) (.ok ⟨200, .json (.object (sampleBody (.int 7)))⟩) =
      .ok [] := rfl
  have hnext : Signal.next [] ∈ (requestWithResult (List HotMovieModel) (fun _ => none)
      (MoviesTarget.getNowPlaying 0)).answer
        (.ok ⟨200, .json (.object (sampleBody (.int 7)))⟩) := by
    rw [requestWithResult_answer, hresult]
    simp [storedSignals]
  have hlength := (h _ _ _ _ _ _ rfl hnext).length_eq
  exact absurd hlength (by decide)

end MagnetX
