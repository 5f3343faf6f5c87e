/-
# `MagnetX.Request` — from a target to the request that is sent

`Network.provider` of RxSwiftX, set up by `NetworkService`: the endpoint of a target has the
target's URL and the task that `taskClosure` makes of its own, and `Endpoint.urlRequest()`
makes a request of it.  The provider hands the request on if that succeeds, and does nothing
at all if it throws: nobody is told, and whoever waits for the answer waits for ever.

It does not throw (`request_ok`): the URL of a target is made of characters a URL may have,
and has no query of its own, so its parameters become the query.  A server that reads the
query finds `count` and, for a list, `start` (`request_movies`), which is what the model of
the server in `Hot.Paging` takes from the task.

The cache key is computed from other things than the request, the target's own task and how a
dictionary prints.  Still two targets have one key exactly when they send the same request
(`cachedKey_eq_iff`), so what was stored for one is found for the other exactly then.
-/
import MagnetX.URLEncoding
import MagnetX.Effect
import MagnetX.Hot.Paging
import Mathlib

namespace MagnetX

open Lib

/-! ## URLs -/

/-- The characters a URL may have. -/
def isURLCharacter (c : Char) : Bool :=
  isAlphanumeric c || "-._~:/?#[]@!$&'()*+,;=%".toList.contains c

namespace URL

/-- `URL(string:)`: nothing for an empty text, or one with a character that a URL may not
have. -/
def ofString (string : String) : Option URL :=
  if string.isEmpty || !string.toList.all isURLCharacter then none
  else
    let front := string.toList.takeWhile fun c => c ≠ '?' && c ≠ '#'
    match string.toList.dropWhile fun c => c ≠ '?' && c ≠ '#' with
    | '?' :: cs =>
        let fragment := match cs.dropWhile (· ≠ '#') with
          | '#' :: fragment => some (String.ofList fragment)
          | _ => none
        some ⟨String.ofList front, some (String.ofList (cs.takeWhile (· ≠ '#'))), fragment⟩
    | '#' :: cs => some ⟨String.ofList front, none, some (String.ofList cs)⟩
    | _ => some ⟨String.ofList front, none, none⟩

end URL

/-! ## Endpoints -/

inductive MoyaRequestError where
  | requestMapping (url : String)
  | parameterEncoding (error : AFError)
deriving DecidableEq, Repr

structure Endpoint where
  url : String
  method : HTTPMethod
  task : Task
  httpHeaderFields : Option (List (String × String))

/-- A parameter of a task, for the encoder. -/
def AnyValue.parameterValue : AnyValue → ParameterValue
  | .string s => .other s
  | .int n => .number (toString n)
  | .other => .other AnyValue.other.description

def Parameters.dictionary (parameters : Parameters) : ParameterDictionary :=
  parameters.map fun p => (p.1, p.2.parameterValue)

namespace Endpoint

def replacing (endpoint : Endpoint) (task : Task) : Endpoint := { endpoint with task }

/-- `urlRequest()`.  `encodeOther` is what becomes of a task that is neither plain nor has
parameters to be encoded by `URLEncoding.default`. -/
def urlRequest (encodeOther : Task → URLRequest → Except MoyaRequestError URLRequest)
    (endpoint : Endpoint) : Except MoyaRequestError URLRequest :=
  match URL.ofString endpoint.url with
  | none => .error (.requestMapping endpoint.url)
  | some requestURL =>
      let request : URLRequest :=
        { url := some requestURL, httpMethod := some endpoint.method.rawValue,
          allHTTPHeaderFields := endpoint.httpHeaderFields.getD [] }
      match endpoint.task with
      | .requestPlain => .ok request
      | .requestParameters parameters .urlDefault =>
          (URLEncoding.default.encode request (some parameters.dictionary)).mapError
            .parameterEncoding
      | task => encodeOther task request

end Endpoint

/-! ## The provider -/

/-- `Network.default.timeoutInterval`, in seconds. -/
def NetworkService.timeoutInterval : Nat := 15

namespace MoyaProvider

variable {τ : Type} [TargetType τ]

/-- `defaultEndpointMapping(for:)`; the method and the header fields are the same for every
target of the app. -/
def defaultEndpointMapping (target : τ) : Endpoint where
  url := absoluteString target
  method := .get
  task := TargetType.task target
  httpHeaderFields := none

def endpointClosure (target : τ) : Endpoint :=
  (defaultEndpointMapping target).replacing (NetworkService.taskClosure target)

/-- `requestClosure`: what the callback is called with, if it is. -/
def requestClosure (encodeOther : Task → URLRequest → Except MoyaRequestError URLRequest)
    (endpoint : Endpoint) : Option (URLRequest × Nat) :=
  match endpoint.urlRequest encodeOther with
  | .ok request => some (request, NetworkService.timeoutInterval)
  | .error _ => none

/-- The request that is sent for a target, and its timeout. -/
def request (encodeOther : Task → URLRequest → Except MoyaRequestError URLRequest) (target : τ) :
    Option (URLRequest × Nat) :=
  requestClosure encodeOther (endpointClosure target)

end MoyaProvider

/-! ## The URL of a target -/

section Targets

variable {τ : Type} [TargetType τ]

/-- A character of a URL in front of its query. -/
def isFrontCharacter (c : Char) : Bool := isURLCharacter c && (c ≠ '?' && c ≠ '#')

theorem isFrontCharacter_of_pathAllowed {c : Char} (hc : urlPathAllowed c = true) :
    isFrontCharacter c = true := by
  rw [urlPathAllowed, Bool.or_eq_true] at hc
  rcases hc with hc | hc
  · rw [isFrontCharacter, isURLCharacter, hc, Bool.true_or, Bool.true_and, Bool.and_eq_true,
      decide_eq_true_eq, decide_eq_true_eq]
    constructor
    · rintro rfl
      exact absurd hc (by decide)
    · rintro rfl
      exact absurd hc (by decide)
  · have hlist : "-._~!$&'()*+,=:@/".toList.all isFrontCharacter = true := by decide
    exact List.all_eq_true.mp hlist c (List.contains_iff_mem.mp hc)

/-- What the URL of a target is made of. -/
theorem absoluteString_all (target : τ) :
    (absoluteString target).toList.all isFrontCharacter = true := by
  have hbase : baseURL.toList.all isFrontCharacter = true := by decide
  have hescape : Percent.escapeChars.all isFrontCharacter = true := by decide
  have hpath : ∀ s, (Percent.encode urlPathAllowed s).toList.all isFrontCharacter = true := by
    intro s
    rw [List.all_eq_true]
    intro c hc
    by_cases hesc : c ∈ Percent.escapeChars
    · exact List.all_eq_true.mp hescape c hesc
    · exact isFrontCharacter_of_pathAllowed ((Percent.mem_encode_iff hesc).mp hc).2
  rw [absoluteString]
  split
  · exact hbase
  · rw [appendingPathComponent, String.toList_append, String.toList_append, List.all_append,
      List.all_append, hbase, hpath]
    rfl

theorem absoluteString_ne_empty (target : τ) : (absoluteString target).isEmpty = false := by
  rw [String.isEmpty_eq_false_iff, absoluteString]
  have hbase : baseURL ≠ "" := by decide
  split
  · exact hbase
  · rw [appendingPathComponent]
    intro h
    have hlist := congrArg String.toList h
    rw [String.toList_append, String.toList_append, String.toList_empty, List.append_assoc] at hlist
    exact hbase (String.toList_inj.mp (List.append_eq_nil_iff.mp hlist).1)

/-- It is a URL, and all of it is in front of where a query goes. -/
theorem ofString_absoluteString (target : τ) :
    URL.ofString (absoluteString target) = some ⟨absoluteString target, none, none⟩ := by
  have hchars : ∀ c ∈ (absoluteString target).toList,
      isURLCharacter c = true ∧ (c ≠ '?' && c ≠ '#') = true := fun c hc =>
    (Bool.and_eq_true _ _).mp (List.all_eq_true.mp (absoluteString_all target) c hc)
  have hall : (absoluteString target).toList.all isURLCharacter = true :=
    List.all_eq_true.mpr fun c hc => (hchars c hc).1
  have htake := List.takeWhile_eq_self_iff.mpr fun c hc => (hchars c hc).2
  have hdrop := List.dropWhile_eq_nil_iff.mpr fun c hc => (hchars c hc).2
  rw [URL.ofString, absoluteString_ne_empty, hall, if_neg (by decide)]
  dsimp only
  rw [htake, hdrop, String.ofList_toList]

/-- **A target whose parameters go into the URL is asked for**: the request is made, whatever
its path and its parameters are, and its query has the parameters and nothing else. -/
theorem request_ok (encodeOther : Task → URLRequest → Except MoyaRequestError URLRequest)
    {target : τ} {parameters : Parameters}
    (htask : NetworkService.taskClosure target = .requestParameters parameters .urlDefault) :
    ∃ query, MoyaProvider.request encodeOther target =
        some (⟨some ⟨absoluteString target, query, none⟩, some "GET", [], none⟩,
          NetworkService.timeoutInterval) ∧
      URL.fields ⟨absoluteString target, query, none⟩ =
        some (URLEncoding.default.fields parameters.dictionary) := by
  have hinURL : URLEncoding.default.inURL
      ⟨some ⟨absoluteString target, none, none⟩, some "GET", [], none⟩ = true := rfl
  obtain ⟨query, hencode, hfields⟩ :=
    URLEncoding.encode_fields hinURL rfl parameters.dictionary
  refine ⟨query, ?_, hfields⟩
  have hendpoint : (MoyaProvider.endpointClosure target).urlRequest encodeOther =
      .ok ⟨some ⟨absoluteString target, query, none⟩, some "GET", [], none⟩ := by
    rw [Endpoint.urlRequest, MoyaProvider.endpointClosure, htask]
    dsimp only [Endpoint.replacing, MoyaProvider.defaultEndpointMapping]
    rw [ofString_absoluteString]
    exact congrArg (Except.mapError _) hencode
  rw [MoyaProvider.request, MoyaProvider.requestClosure, hendpoint]

end Targets

/-! ## The requests of the app -/

/-- The start index of a list. -/
def MoviesTarget.startIndex : MoviesTarget → Option Nat
  | .getPopular startIndex | .getNowPlaying startIndex
  | .getUpComing startIndex | .getTopRated startIndex => some startIndex
  | .getDetails _ => none

/-- The parameters of a request, as `taskClosure` leaves them. -/
def sentParameters (startIndex : Option Nat) : Parameters :=
  (startIndex.map fun n => ("start", AnyValue.int n)).toList ++
    [("count", .string (toString LIMIT_COUNT))]

theorem taskClosure_eq (target : MoviesTarget) :
    NetworkService.taskClosure target =
      .requestParameters (sentParameters target.startIndex) .urlDefault := by
  cases target <;> rfl

theorem fields_sentParameters (startIndex : Option Nat) :
    URLEncoding.default.fields (sentParameters startIndex).dictionary =
      ("count", toString LIMIT_COUNT) ::
        (startIndex.map fun n => ("start", toString n)).toList := by
  have hkeys : ∀ sorted : List String,
      sorted.Perm ((sentParameters startIndex).dictionary.map Prod.fst) →
      InOrder URLEncoding.keyOrder sorted →
      URLEncoding.sortedKeys (sentParameters startIndex).dictionary = sorted := fun _ =>
    stableSort.sort_eq URLEncoding.strictWeak_keyOrder URLEncoding.keyOrder_total
  rw [URLEncoding.fields, URLEncoding.dictionaryLeaves]
  cases startIndex with
  | none =>
      rw [hkeys ["count"] (.refl _) (List.pairwise_singleton _ _)]
      rfl
  | some n =>
      rw [hkeys ["count", "start"] (.swap ..) (by unfold InOrder; decide)]
      rfl

/-- **Every target of the app is asked for**, and a server that reads the query of the request
finds the number of movies and, for a list, the start index. -/
theorem request_movies (encodeOther : Task → URLRequest → Except MoyaRequestError URLRequest)
    (target : MoviesTarget) :
    ∃ query, MoyaProvider.request encodeOther target =
        some (⟨some ⟨absoluteString target, query, none⟩, some "GET", [], none⟩,
          NetworkService.timeoutInterval) ∧
      URL.fields ⟨absoluteString target, query, none⟩ =
        some (("count", toString LIMIT_COUNT) ::
          (target.startIndex.map fun n => ("start", toString n)).toList) := by
  obtain ⟨query, hrequest, hfields⟩ := request_ok encodeOther (taskClosure_eq target)
  exact ⟨query, hrequest, hfields.trans (congrArg some (fields_sentParameters _))⟩

/-! ## Keys and requests -/

theorem parameters_eq_iff {target target' : MoviesTarget} :
    target.task.parameters = target'.task.parameters ↔ target.startIndex = target'.startIndex := by
  have hparameters : ∀ target : MoviesTarget, target.task.parameters =
      (target.startIndex.map fun n => "[\"start\": " ++ Nat.repr n ++ "]").getD "" := by
    intro target
    cases target with
    | getPopular n | getNowPlaying n | getUpComing n | getTopRated n =>
        show "[" ++ ", ".intercalate ["\"" ++ "start" ++ "\": " ++ Nat.repr n] ++ "]" = _
        rw [String.intercalate_singleton]
        show "[" ++ ("\"start\": " ++ Nat.repr n) ++ "]" = _
        rw [← String.append_assoc]
        rfl
    | getDetails id => rfl
  rw [hparameters, hparameters]
  constructor
  · intro h
    cases hn : target.startIndex with
    | none =>
        cases hn' : target'.startIndex with
        | none => rfl
        | some n' =>
            rw [hn, hn'] at h
            have hlist := congrArg String.toList h
            simp at hlist
    | some n =>
        cases hn' : target'.startIndex with
        | none =>
            rw [hn, hn'] at h
            have hlist := congrArg String.toList h
            simp at hlist
        | some n' =>
            rw [hn, hn'] at h
            have hmiddle := (String.append_right_inj _).mp ((String.append_left_inj _).mp h)
            rw [Nat.repr_inj.mp hmiddle]
  · intro h
    rw [h]

/-- Two keys are the same if the URLs are and the start indices are. -/
theorem cachedKey_eq_iff_parts {target target' : MoviesTarget} :
    cachedKey target = cachedKey target' ↔
      absoluteString target = absoluteString target' ∧ target.startIndex = target'.startIndex := by
  have hmark : ∀ target : MoviesTarget, '?' ∉ (absoluteString target).toList := by
    intro target hmem
    exact absurd (List.all_eq_true.mp (absoluteString_all target) '?' hmem) (by decide)
  have hkey : ∀ target : MoviesTarget, (cachedKey target).toList =
      (absoluteString target).toList ++ '?' :: target.task.parameters.toList := by
    intro target
    rw [cachedKey, String.toList_append, String.toList_append, List.append_assoc]
    rfl
  rw [← String.toList_inj, hkey, hkey, ← parameters_eq_iff]
  constructor
  · intro h
    have hsplit := congrArg (List.splitOn '?') h
    rw [List.splitOn_append_cons_self_of_not_mem (hmark _),
      List.splitOn_append_cons_self_of_not_mem (hmark _)] at hsplit
    have hurl := (List.cons.inj hsplit).1
    rw [hurl, List.append_cancel_left_eq] at h
    exact ⟨String.toList_inj.mp hurl, String.toList_inj.mp (List.cons.inj h).2⟩
  · rintro ⟨hurl, hparameters⟩
    rw [hurl, hparameters]

/-- **One key, one request.** -/
theorem cachedKey_eq_iff (encodeOther : Task → URLRequest → Except MoyaRequestError URLRequest)
    {target target' : MoviesTarget} :
    cachedKey target = cachedKey target' ↔
      MoyaProvider.request encodeOther target = MoyaProvider.request encodeOther target' := by
  rw [cachedKey_eq_iff_parts]
  constructor
  · rintro ⟨hurl, hstart⟩
    have hendpoint : MoyaProvider.endpointClosure target =
        MoyaProvider.endpointClosure target' := by
      rw [MoyaProvider.endpointClosure, MoyaProvider.endpointClosure, taskClosure_eq,
        taskClosure_eq, hstart, Endpoint.replacing, Endpoint.replacing,
        MoyaProvider.defaultEndpointMapping, MoyaProvider.defaultEndpointMapping, hurl]
    rw [MoyaProvider.request, MoyaProvider.request, hendpoint]
  · intro h
    obtain ⟨query, hrequest, hfields⟩ := request_movies encodeOther target
    obtain ⟨query', hrequest', hfields'⟩ := request_movies encodeOther target'
    rw [hrequest, hrequest', Option.some.injEq, Prod.mk.injEq, URLRequest.mk.injEq,
      Option.some.injEq] at h
    have hurl := h.1.1
    rw [hurl, hfields', Option.some.injEq] at hfields
    refine ⟨(URL.mk.inj hurl).1, ?_⟩
    have htail := (List.cons.inj hfields).2
    cases hn : target.startIndex with
    | none =>
        cases hn' : target'.startIndex with
        | none => rfl
        | some n' =>
            rw [hn, hn'] at htail
            cases htail
    | some n =>
        cases hn' : target'.startIndex with
        | none =>
            rw [hn, hn'] at htail
            cases htail
        | some n' =>
            rw [hn, hn'] at htail
            have htext := (Prod.mk.inj (List.cons.inj htail).1).2
            rw [Nat.repr_inj.mp htext]

/-- **What is stored for a target is found for the targets that send its request**, and for
no other. -/
theorem stored_for_the_request
    (encodeOther : Task → URLRequest → Except MoyaRequestError URLRequest) (storage : Storage)
    {T : Type} [Cacheable T] (object : T) (target target' : MoviesTarget) :
    (storage.setObject (cachedKey target) (Cacheable.wrap object)).cachedObject T target' =
      if MoyaProvider.request encodeOther target' = MoyaProvider.request encodeOther target
      then some object else storage.cachedObject T target' := by
  split
  · rename_i h
    have hkey := (cachedKey_eq_iff encodeOther).mpr h
    rw [Storage.cachedObject, hkey]
    exact Storage.cachedObject_setObject storage target object
  · rename_i h
    have hkey : cachedKey target' ≠ cachedKey target := fun hkey =>
      h ((cachedKey_eq_iff encodeOther).mp hkey)
    rw [Storage.cachedObject, Storage.setObject, Function.update_of_ne hkey]
    rfl

/-! ## The server -/

/-- The page a server reads off the URL of a request. -/
def pageOf (url : URL) : Option (Nat × Nat) := do
  let fields ← url.fields
  let start ← (fields.lookup "start").bind String.toNat?
  let count ← (fields.lookup "count").bind String.toNat?
  return (start, count)

/-- What a server that holds `S` answers a request that was sent. -/
def serveRequest (S : List HotMovieModel) (request : URLRequest) : List HotMovieModel :=
  match request.url.bind pageOf with
  | some (start, count) => Paginator.page count S start
  | none => []

/-- **Serving the request that is sent** is serving the task it was made from, for every list
and every page of it. -/
theorem serveRequest_eq (encodeOther : Task → URLRequest → Except MoyaRequestError URLRequest)
    (S : List HotMovieModel) (type : HotType) (startIndex : Nat) :
    (MoyaProvider.request encodeOther (type.target startIndex)).map
        (fun sent => serveRequest S sent.1) =
      some (Transform.serve S (NetworkService.taskClosure (type.target startIndex))) := by
  obtain ⟨query, hrequest, hfields⟩ := request_movies encodeOther (type.target startIndex)
  have hstart : (type.target startIndex).startIndex = some startIndex := by
    cases type <;> rfl
  have hpage : pageOf ⟨absoluteString (type.target startIndex), query, none⟩ =
      some (startIndex, LIMIT_COUNT) := by
    rw [pageOf, hfields, hstart]
    show ((Nat.repr startIndex).toNat?.bind fun start =>
      (Nat.repr LIMIT_COUNT).toNat?.bind fun count => some (start, count)) = _
    rw [Nat.toNat?_repr, Nat.toNat?_repr]
    rfl
  rw [hrequest, Option.map_some, Transform.serve, Transform.pageRequested_taskClosure, serveRequest,
    Option.bind_some, hpage]

end MagnetX
