/-
# `MagnetX.Network` — from a Moya response to a value, and into the cache

`Network/Network+Rx.swift`, `Moya/Response.swift`, `RxSwiftX/Observable+Network.swift`
and `RxSwiftX/Single+Network.swift`.

Two pipelines read a list page: `requestWithResult` (decode, test `success`, store,
preceded by the cached object) and `mapResult` (decode, test `success`).  A detail
record goes through `request`, which decodes and stores.

None of them looks at the HTTP status, and the decoding under them is the lenient one
of `MagnetX.CleanJSON`.  What an answer whose body is an object comes to is computed
once, in `map_object`; the account of the error answers is at the end.
-/
import MagnetX.Effect

namespace MagnetX

open Lib.Json Lib.Rx CleanJSON

/-! ## Moya -/

/-- A response body: what the JSON parser makes of the bytes. -/
inductive Data where
  | json (value : JSONValue)
  | malformed
deriving Repr

namespace Moya

structure Response where
  statusCode : Int
  data : Data
deriving Repr

end Moya

/-- The errors of Moya that the pipelines see.  `underlying` is a request that got no
response.  `undefinedKey` is no error of Moya's but the exception that `value(forKeyPath:)`
raises, which nobody catches; it stands here as the end of the pipeline. -/
inductive MoyaError where
  | jsonMapping (response : Moya.Response)
  | objectMapping (error : DecodingError) (response : Moya.Response)
  | underlying (description : String)
  | undefinedKey
deriving Repr

abbrev MoyaResult := Except MoyaError Moya.Response

/-- What `value(forKeyPath:)` comes to: `nil`, an object that can be written as JSON (alone or
in a dictionary), one that cannot, or an exception. -/
inductive KeyValue where
  | nil
  | json (value : JSONValue)
  | other
  | undefinedKey
deriving Repr

/-- A key path, as Foundation's `value(forKeyPath:)` follows it from a dictionary.  Where it
leads is Foundation's affair: besides the keys of dictionaries there are the operators, the
elements of arrays and every property of the object at hand. -/
abbrev KeyPath := List (String × JSONValue) → KeyValue

/-- `Response.map(_:atKeyPath:using:)`, with `failsOnEmptyData` as it is by default.  A
value that is no document of its own is decoded through a wrapper object. -/
def Moya.Response.map (T : Type) [Decodable T] (response : Moya.Response)
    (keyPath : Option KeyPath := none) (decoder : JSONDecoder := {}) : Except MoyaError T :=
  let decoded (r : Except DecodingError T) : Except MoyaError T :=
    r.mapError fun e => .objectMapping e response
  match keyPath, response.data with
  | none, .malformed =>
      .error (.objectMapping (.dataCorrupted [] "The given data was not valid JSON.") response)
  | none, .json j => decoded (initFrom decoder j)
  | some keyPath, .json (.object fields) =>
      match keyPath fields with
      | .nil => .error (.jsonMapping response)
      | .json (.object found) => decoded (initFrom decoder (.object found))
      | .json (.array elements) => decoded (initFrom decoder (.array elements))
      | .json value => decoded do
          let c ← decoder.container (.object [("value", value)])
          match c.fields.lookup "value" with
          | some v => initFrom decoder v
          | none => throw (.keyNotFound "value")
      | .other => .error (.jsonMapping response)
      | .undefinedKey => .error .undefinedKey
  | some _, _ => .error (.jsonMapping response)

/-! ## The envelope of a list page -/

namespace Network

/-- `Network.Error`. -/
inductive Error where
  | status (code : Int64) (message : String)
deriving DecidableEq, Repr

/-- `Network.Response`. -/
structure Response (T : Type) where
  status_code : Int64
  status_message : String
  subjects : T
deriving DecidableEq, Repr

instance {T : Type} [Decodable T] : Decodable (Response T) where
  initFrom decoder j := do
    let c ← decoder.container j
    return {
      status_code := ← decodeInt c "status_code"
      status_message := ← decodeString c "status_message"
      subjects := ← decode c "subjects" }

def Response.success {T : Type} (r : Response T) : Bool := r.status_code == 0

end Network

/-- What a pipeline fails with. -/
inductive PipelineError where
  | moya (error : MoyaError)
  | network (error : Network.Error)
deriving Repr

/-! ## The pipelines -/

section Pipelines

variable {ρ τ : Type} [TargetType τ] (T : Type) [Decodable T] [Cacheable T]

/-- `target.request()`: Moya's answer as it comes, whatever its status. -/
def request : Single MoyaResult Effect PipelineError Moya.Response where
  answer r := ([], r.mapError .moya)

/-- `Single.map(_:atKeyPath:using:)`. -/
def mapObject (keyPath : Option KeyPath := none) (decoder : JSONDecoder := {})
    (source : Single ρ Effect PipelineError Moya.Response) : Single ρ Effect PipelineError T :=
  source.map fun response => (response.map T keyPath decoder).mapError .moya

/-- The success test that both list pipelines make. -/
def subjectsOrStatus {T : Type} (response : Network.Response T) : Except PipelineError T :=
  if response.success then .ok response.subjects
  else .error (.network (.status response.status_code response.status_message))

/-- `mapResult`.  The key path and the decoder it is given are not used. -/
def mapResult (_keyPath : Option KeyPath := none) (_decoder : JSONDecoder := {})
    (source : Single ρ Effect PipelineError Moya.Response) : Single ρ Effect PipelineError T :=
  source.flatMap fun response =>
    match response.map (Network.Response T) with
    | .ok resp => ([], subjectsOrStatus resp)
    | .error _ => ([], .error (.moya (.jsonMapping response)))

variable {T} in
/-- `storeCachedObject(for:)`. -/
def storeCachedObject (target : τ) (source : Single ρ Effect PipelineError T) :
    Single ρ Effect PipelineError T :=
  source.flatMap fun object =>
    ([.setObject (cachedKey target) (Cacheable.wrap object)], .ok object)

/-- `requestWithResult` of a single. -/
def requestWithResultSingle (target : τ) (keyPath : Option KeyPath := none)
    (decoder : JSONDecoder := {}) : Single MoyaResult Effect PipelineError T :=
  storeCachedObject target
    ((mapObject (Network.Response T) keyPath decoder request).map subjectsOrStatus)

variable {T} in
/-- The cached object first, if the cache has one when the subscription starts. -/
def startWithCached (storage : Storage) (target : τ)
    (result : Observable MoyaResult Effect PipelineError T) :
    Observable MoyaResult Effect PipelineError T :=
  match storage.cachedObject T target with
  | some object => result.startWith object
  | none => result

/-- `requestWithResult` of an observable. -/
def requestWithResult (storage : Storage) (target : τ) (keyPath : Option KeyPath := none)
    (decoder : JSONDecoder := {}) : Observable MoyaResult Effect PipelineError T :=
  startWithCached storage target
    (storeCachedObject target
      ((mapObject (Network.Response T) keyPath decoder request).map subjectsOrStatus)).asObservable

/-- `request(_:atKeyPath:using:)` of an observable. -/
def requestObject (storage : Storage) (target : τ) (keyPath : Option KeyPath := none)
    (decoder : JSONDecoder := {}) : Observable MoyaResult Effect PipelineError T :=
  startWithCached storage target
    (storeCachedObject target (mapObject T keyPath decoder request)).asObservable

end Pipelines

/-! ## What an answer comes to

`resultOf` is the outcome `requestWithResult` gives an answer, `mapResultOf` the one
`mapResult` gives it, both at the default key path and decoder.  The pipelines are then
these outcomes with the store put in front of the element. -/

section Outcomes

variable {τ : Type} [TargetType τ] (T : Type) [Decodable T] [Cacheable T]

def resultOf (r : MoyaResult) : Except PipelineError T :=
  match r with
  | .error e => .error (.moya e)
  | .ok response =>
      match response.map (Network.Response T) with
      | .error e => .error (.moya e)
      | .ok resp => subjectsOrStatus resp

def mapResultOf (r : MoyaResult) : Except PipelineError T :=
  match r with
  | .error e => .error (.moya e)
  | .ok response =>
      match response.map (Network.Response T) with
      | .error _ => .error (.moya (.jsonMapping response))
      | .ok resp => subjectsOrStatus resp

/-- The outcome `requestObject` gives an answer. -/
def objectOf (r : MoyaResult) : Except PipelineError T :=
  match r with
  | .error e => .error (.moya e)
  | .ok response => (response.map T).mapError .moya

/-- An outcome as signals. -/
def outcomeSignals {T : Type} : Except PipelineError T → List (Signal Effect PipelineError T)
  | .ok object => [.next object, .completed]
  | .error e => [.error e]

variable {T} in
/-- An outcome as signals, with the store before the element. -/
def storedSignals (target : τ) : Except PipelineError T → List (Signal Effect PipelineError T)
  | .ok object =>
      [.effect (.setObject (cachedKey target) (Cacheable.wrap object)), .next object, .completed]
  | .error e => [.error e]

@[simp] theorem requestWithResultSingle_answer (target : τ) (r : MoyaResult) :
    (requestWithResultSingle T target).asObservable.answer r =
      storedSignals target (resultOf T r) := by
  cases r with
  | error e => rfl
  | ok response =>
      simp only [requestWithResultSingle, storeCachedObject, mapObject, request, Single.map,
        Single.flatMap, Single.asObservable, resultOf, Except.mapError]
      cases response.map (Network.Response T) with
      | error e => rfl
      | ok resp => cases hs : subjectsOrStatus resp <;> simp [hs, storedSignals]

/-- The cached object aside, the observable does with an answer what the single does. -/
@[simp] theorem requestWithResult_answer (storage : Storage) (target : τ) (r : MoyaResult) :
    (requestWithResult T storage target).answer r = storedSignals target (resultOf T r) := by
  rw [← requestWithResultSingle_answer]
  unfold requestWithResult startWithCached
  split <;> rfl

@[simp] theorem requestWithResult_subscribe (storage : Storage) (target : τ) :
    (requestWithResult T storage target).subscribe =
      ((storage.cachedObject T target).map .next).toList := by
  unfold requestWithResult startWithCached
  split <;> simp_all [Observable.startWith, Single.asObservable]

@[simp] theorem requestObject_answer (storage : Storage) (target : τ) (r : MoyaResult) :
    (requestObject T storage target).answer r = storedSignals target (objectOf T r) := by
  have hstart : (requestObject T storage target).answer r =
      (storeCachedObject target (mapObject T none {} request)).asObservable.answer r := by
    unfold requestObject startWithCached
    split <;> rfl
  rw [hstart]
  cases r with
  | error e => rfl
  | ok response =>
      simp only [storeCachedObject, mapObject, request, Single.map, Single.flatMap,
        Single.asObservable, objectOf, Except.mapError]
      cases response.map T with
      | error e => rfl
      | ok object => rfl

@[simp] theorem requestObject_subscribe (storage : Storage) (target : τ) :
    (requestObject T storage target).subscribe =
      ((storage.cachedObject T target).map .next).toList := by
  unfold requestObject startWithCached
  split <;> simp_all [Observable.startWith, Single.asObservable]

omit [Cacheable T] in
@[simp] theorem mapResult_answer (r : MoyaResult) :
    (mapResult T none {} request).asObservable.answer r =
      outcomeSignals (mapResultOf T r) := by
  cases r with
  | error e => rfl
  | ok response =>
      simp only [mapResult, request, Single.flatMap, Single.asObservable, mapResultOf,
        Except.mapError]
      cases response.map (Network.Response T) with
      | error e => rfl
      | ok resp => cases hs : subjectsOrStatus resp <;> simp [hs, outcomeSignals]

end Outcomes

/-! ## Bodies that are objects -/

section Objects

variable (T : Type) [Decodable T] [Fallback T]

/-- The envelope of a JSON object: an unreadable `status_code` is 0, an unreadable
`subjects` is the fallback of `T`. -/
def envelope (fields : List (String × JSONValue)) : Network.Response T where
  status_code := ((fields.lookup "status_code").bind integer).getD 0
  status_message := ((fields.lookup "status_message").bind text).getD ""
  subjects := ((fields.lookup "subjects").bind fun v => (initFrom {} v).toOption).getD
    Fallback.value

variable {T} in
/-- The envelope of any container. -/
theorem Network.Response.initFrom_eq {decoder : JSONDecoder} {j : JSONValue}
    {c : KeyedDecodingContainer} (h : decoder.container j = .ok c) :
    initFrom (T := Network.Response T) decoder j = .ok {
      status_code := ((c.fields.lookup "status_code").bind integer).getD 0
      status_message := ((c.fields.lookup "status_message").bind text).getD ""
      subjects := ((c.fields.lookup "subjects").bind fun v =>
        (initFrom c.decoder v).toOption).getD Fallback.value } := by
  simp [initFrom, h, bind, Except.bind, pure, Except.pure]

theorem map_object (statusCode : Int) (fields : List (String × JSONValue)) :
    (Moya.Response.mk statusCode (.json (.object fields))).map (Network.Response T) =
      .ok (envelope T fields) := by
  simp only [Moya.Response.map, Network.Response.initFrom_eq (JSONDecoder.container_object fields),
    envelope, Except.mapError]

theorem resultOf_object (statusCode : Int) (fields : List (String × JSONValue)) :
    resultOf T (.ok ⟨statusCode, .json (.object fields)⟩) =
      subjectsOrStatus (envelope T fields) := by
  simp only [resultOf, map_object]

theorem mapResultOf_object (statusCode : Int) (fields : List (String × JSONValue)) :
    mapResultOf T (.ok ⟨statusCode, .json (.object fields)⟩) =
      subjectsOrStatus (envelope T fields) := by
  simp only [mapResultOf, map_object]

/-- A detail record is made of any object at all. -/
theorem objectOf_detail_object (statusCode : Int) (fields : List (String × JSONValue)) :
    ∃ model, objectOf MovieDetailModel (.ok ⟨statusCode, .json (.object fields)⟩) = .ok model := by
  obtain ⟨model, hmodel⟩ :=
    MovieDetailModel.initFrom_eq (JSONDecoder.container_object fields)
  exact ⟨model, by simp [objectOf, Moya.Response.map, hmodel, Except.mapError]⟩

end Objects

/-! ## Error answers

An answer whose status is not a success, or whose body lacks the payload, should come
to nothing: no element, an error at the end, the cache entry as it was.  The pipelines
decide by the decoded `status_code` alone, and by nothing at all for a detail record. -/

section ErrorAnswers

variable {τ : Type} [TargetType τ]

def successfulStatus (statusCode : Int) : Prop := 200 ≤ statusCode ∧ statusCode ≤ 299

instance (statusCode : Int) : Decidable (successfulStatus statusCode) :=
  inferInstanceAs (Decidable (_ ∧ _))

/-- The answer to a list request is an error answer. -/
def ListErrorAnswer (statusCode : Int) (fields : List (String × JSONValue)) : Prop :=
  ¬ successfulStatus statusCode ∨ ∀ elements, fields.lookup "subjects" ≠ some (.array elements)

/-- The answer to a detail request is an error answer. -/
def DetailErrorAnswer (statusCode : Int) (fields : List (String × JSONValue)) : Prop :=
  ¬ successfulStatus statusCode ∨ fields.lookup "id" = none

/-- The signals pass nothing on, end in an error and leave the target's cache entry. -/
def Rejected {T : Type} (storage : Storage) (target : τ)
    (signals : List (Signal Effect PipelineError T)) : Prop :=
  (∀ a, .next a ∉ signals) ∧ (∃ e, signals.getLast? = some (.error e)) ∧
    storage.after signals (cachedKey target) = storage (cachedKey target)

theorem rejected_error {T : Type} (storage : Storage) (target : τ) (e : PipelineError) :
    Rejected (T := T) storage target [.error e] :=
  ⟨by simp, ⟨e, rfl⟩, rfl⟩

theorem not_rejected_of_next {T : Type} {storage : Storage} {target : τ} {a : T}
    {signals : List (Signal Effect PipelineError T)} (h : .next a ∈ signals) :
    ¬ Rejected storage target signals :=
  fun hr => hr.1 a h

/-- A list answer is rejected exactly when its success test fails. -/
theorem rejected_subjectsOrStatus_iff {T : Type} (storage : Storage) (target : τ)
    (resp : Network.Response T) (signals : Except PipelineError T →
      List (Signal Effect PipelineError T))
    (hok : ∀ a, .next a ∈ signals (.ok a)) (herror : ∀ e, signals (.error e) = [.error e]) :
    Rejected storage target (signals (subjectsOrStatus resp)) ↔ resp.status_code ≠ 0 := by
  unfold subjectsOrStatus Network.Response.success
  by_cases hcode : resp.status_code = 0
  · simp only [hcode, beq_self_eq_true, if_true, ne_eq, not_true_eq_false, iff_false]
    exact not_rejected_of_next (hok _)
  · simp only [beq_iff_eq, hcode, if_false, ne_eq, not_false_eq_true, iff_true, herror]
    exact rejected_error ..

/-- **When an error answer is rejected.**  For a list request, on any of the list paths,
exactly when the body carries a `status_code` that reads as a non-zero integer; for a
detail request never. -/
theorem error_answer_rejected_iff (target : τ) (storage : Storage) (statusCode : Int)
    (fields : List (String × JSONValue)) :
    ((ListErrorAnswer statusCode fields → Rejected storage target
        ((requestWithResult (List HotMovieModel) storage target).answer
          (.ok ⟨statusCode, .json (.object fields)⟩))) ↔
      (ListErrorAnswer statusCode fields →
        ((fields.lookup "status_code").bind integer).getD 0 ≠ 0)) ∧
    ((ListErrorAnswer statusCode fields → Rejected storage target
        ((requestWithResultSingle (List HotMovieModel) target).asObservable.answer
          (.ok ⟨statusCode, .json (.object fields)⟩))) ↔
      (ListErrorAnswer statusCode fields →
        ((fields.lookup "status_code").bind integer).getD 0 ≠ 0)) ∧
    ((ListErrorAnswer statusCode fields → Rejected storage target
        ((mapResult (List HotMovieModel) none {} request).asObservable.answer
          (.ok ⟨statusCode, .json (.object fields)⟩))) ↔
      (ListErrorAnswer statusCode fields →
        ((fields.lookup "status_code").bind integer).getD 0 ≠ 0)) ∧
    ((DetailErrorAnswer statusCode fields → Rejected storage target
        ((requestObject MovieDetailModel storage target).answer
          (.ok ⟨statusCode, .json (.object fields)⟩))) ↔
      ¬ DetailErrorAnswer statusCode fields) := by
  refine ⟨imp_congr_right fun _ => ?_, imp_congr_right fun _ => ?_,
    imp_congr_right fun _ => ?_, ?_⟩
  · rw [requestWithResult_answer, resultOf_object]
    exact rejected_subjectsOrStatus_iff storage target (envelope (List HotMovieModel) fields)
      (storedSignals target) (fun a => by simp [storedSignals]) (fun _ => rfl)
  · rw [requestWithResultSingle_answer, resultOf_object]
    exact rejected_subjectsOrStatus_iff storage target (envelope (List HotMovieModel) fields)
      (storedSignals target) (fun a => by simp [storedSignals]) (fun _ => rfl)
  · rw [mapResult_answer, mapResultOf_object]
    exact rejected_subjectsOrStatus_iff storage target (envelope (List HotMovieModel) fields)
      outcomeSignals (fun a => by simp [outcomeSignals]) (fun _ => rfl)
  · obtain ⟨model, hmodel⟩ := objectOf_detail_object statusCode fields
    rw [requestObject_answer, hmodel]
    have hnext : Signal.next model ∈ storedSignals target (.ok model) := by simp [storedSignals]
    exact imp_congr_right fun _ => iff_false_intro (not_rejected_of_next hnext)

/-- A server error with an empty object for a body: no `status_code`, so a success with
no movies. -/
theorem server_error_taken_for_empty_page :
    ¬ ∀ (target : MoviesTarget) (storage : Storage) (statusCode : Int)
        (fields : List (String × JSONValue)),
      (ListErrorAnswer statusCode fields → Rejected storage target
        ((requestWithResult (List HotMovieModel) storage target).answer
          (.ok ⟨statusCode, .json (.object fields)⟩))) ∧
      (ListErrorAnswer statusCode fields → Rejected storage target
        ((mapResult (List HotMovieModel) none {} request).asObservable.answer
          (.ok ⟨statusCode, .json (.object fields)⟩))) ∧
      (DetailErrorAnswer statusCode fields → Rejected storage target
        ((requestObject MovieDetailModel storage target).answer
          (.ok ⟨statusCode, .json (.object fields)⟩))) := by
  intro h
  have herror : ListErrorAnswer 500 [] := .inl (by decide)
  have hrejected := (h (.getNowPlaying 0) (fun _ => none) 500 []).1 herror
  rw [requestWithResult_answer, resultOf_object] at hrejected
  exact hrejected.1 [] (by simp [storedSignals, subjectsOrStatus, envelope,
    Network.Response.success, Fallback.value])

end ErrorAnswers

end MagnetX
