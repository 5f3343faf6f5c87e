/-
# `MagnetX.Paths` — the two paths of a list page

Page one of a list goes through `requestWithResult`, every later page through
`mapResult`.  Both decode the envelope and test `success`, and both take a key path and a
decoder.  `mapResult` uses neither: it decodes at no key path with a decoder of its own.

`verdict` is what a path makes of a decoded envelope.  For one response the paths agree
exactly when the object at the key path, under the names the decoder gives its keys, is read
like the body itself: when there is nothing to read in either, or the status is the same, and
so is the payload of a success or else the message (`ReadAlike`).  Without a key path that is
so for every response and payload exactly when the decoder is set up like a new one
(`paths_agree_iff`).

A key path need not part them: one that leads every object to itself, as `@self` does, is as
good as none (`agreeOn_of_self`).
-/
import MagnetX.Network

namespace MagnetX

open Lib.Json Lib.Rx CleanJSON

/-! ## Verdicts -/

/-- The value or the status error of a decoded envelope, `none` if nothing decoded. -/
def verdict {T : Type} :
    Except MoyaError (Network.Response T) → Option (Except Network.Error T)
  | .error _ => none
  | .ok resp =>
      some (if resp.success then .ok resp.subjects
        else .error (.status resp.status_code resp.status_message))

/-- The decoded envelope carries a status that is no success. -/
def DecodedStatus {T : Type} (decoded : Except MoyaError (Network.Response T)) (code : Int64)
    (message : String) : Prop :=
  ∃ resp, decoded = .ok resp ∧ resp.status_code ≠ 0 ∧ resp.status_code = code ∧
    resp.status_message = message

theorem decodedStatus_iff {T : Type} {decoded : Except MoyaError (Network.Response T)}
    {code : Int64} {message : String} :
    DecodedStatus decoded code message ↔ verdict decoded = some (.error (.status code message)) := by
  cases decoded with
  | error e =>
      refine iff_of_false ?_ nofun
      rintro ⟨resp, hresp, -⟩
      cases hresp
  | ok resp =>
      simp only [verdict, Network.Response.success, beq_iff_eq, Option.some.injEq]
      constructor
      · rintro ⟨resp', hresp, hcode, rfl, rfl⟩
        cases hresp
        rw [if_neg hcode]
      · intro h
        by_cases hcode : resp.status_code = 0
        · rw [if_pos hcode] at h
          cases h
        · rw [if_neg hcode] at h
          cases h
          exact ⟨resp, rfl, hcode, rfl, rfl⟩

/-- The outcome of a path, from a decoded envelope and the path's own decoding error. -/
def outcome {T : Type} (e : MoyaError) :
    Except MoyaError (Network.Response T) → Except PipelineError T
  | .error _ => .error (.moya e)
  | .ok resp => subjectsOrStatus resp

section Outcome

variable {T : Type} {e : MoyaError} {decoded : Except MoyaError (Network.Response T)}

theorem outcome_eq_ok_iff {a : T} :
    outcome e decoded = .ok a ↔ verdict decoded = some (.ok a) := by
  cases decoded with
  | error e' => exact iff_of_false nofun nofun
  | ok resp =>
      simp only [outcome, subjectsOrStatus, verdict, Option.some.injEq]
      cases resp.success with
      | true => simp
      | false => simp

theorem outcome_eq_status_iff {status : Network.Error} :
    outcome e decoded = .error (.network status) ↔ verdict decoded = some (.error status) := by
  cases decoded with
  | error e' => exact iff_of_false nofun nofun
  | ok resp =>
      simp only [outcome, subjectsOrStatus, verdict, Option.some.injEq]
      cases resp.success with
      | true => simp
      | false => simp

end Outcome

/-! ## The paths at any key path and decoder -/

section Paths

variable {τ : Type} [TargetType τ] (T : Type) [Decodable T] [Cacheable T]
  (keyPath : Option KeyPath) (decoder : JSONDecoder)

omit [Cacheable T] in
/-- `mapResult` decodes at no key path with the default decoder, whatever it is given. -/
theorem mapResult_answer_at (response : Moya.Response) :
    (mapResult T keyPath decoder request).asObservable.answer (.ok response) =
      outcomeSignals
        (outcome (.jsonMapping response) (response.map (Network.Response T))) := by
  have hdefault : (mapResult T keyPath decoder request).asObservable.answer (.ok response) =
      (mapResult T none {} request).asObservable.answer (.ok response) := rfl
  rw [hdefault, mapResult_answer, mapResultOf]
  cases response.map (Network.Response T) with
  | error e => rfl
  | ok resp => rfl

/-- The error `requestWithResult` ends in when nothing decodes. -/
def decodingError (response : Moya.Response) : MoyaError :=
  match response.map (Network.Response T) keyPath decoder with
  | .error e => e
  | .ok _ => .jsonMapping response

theorem requestWithResultSingle_answer_at (target : τ) (response : Moya.Response) :
    (requestWithResultSingle T target keyPath decoder).asObservable.answer (.ok response) =
      storedSignals target (outcome (decodingError T keyPath decoder response)
        (response.map (Network.Response T) keyPath decoder)) := by
  simp only [requestWithResultSingle, storeCachedObject, mapObject, request, Single.map,
    Single.flatMap, Single.asObservable, Except.mapError, decodingError]
  cases response.map (Network.Response T) keyPath decoder with
  | error e => rfl
  | ok resp =>
      cases hs : subjectsOrStatus resp with
      | error e => simp [outcome, hs, storedSignals]
      | ok a => simp [outcome, hs, storedSignals]

/-- The cached object aside, the observable does with an answer what the single does. -/
theorem requestWithResult_answer_at (storage : Storage) (target : τ) (r : MoyaResult) :
    (requestWithResult T storage target keyPath decoder).answer r =
      (requestWithResultSingle T target keyPath decoder).asObservable.answer r := by
  unfold requestWithResult startWithCached
  split <;> rfl

end Paths

/-! ## Agreement -/

/-- The two paths deliver the same values, and both fail with the status of the decoded
envelope exactly when it is no success. -/
structure PathsAgree {T : Type} (decoded : Except MoyaError (Network.Response T))
    (refresh more : List (Signal Effect PipelineError T)) : Prop where
  value : ∀ a, .next a ∈ more ↔ .next a ∈ refresh
  refreshStatus : ∀ code message,
    .error (.network (.status code message)) ∈ refresh ↔ DecodedStatus decoded code message
  moreStatus : ∀ code message,
    .error (.network (.status code message)) ∈ more ↔ DecodedStatus decoded code message

section Signals

variable {τ : Type} [TargetType τ] {T : Type} [Cacheable T] {target : τ} {a : T}
  {e : PipelineError} {o : Except PipelineError T}

theorem next_mem_storedSignals : .next a ∈ storedSignals target o ↔ o = .ok a := by
  cases o with
  | ok a' => simp [storedSignals, eq_comm]
  | error e' => simp [storedSignals]

theorem error_mem_storedSignals : .error e ∈ storedSignals target o ↔ o = .error e := by
  cases o with
  | ok a' => simp [storedSignals]
  | error e' => simp [storedSignals, eq_comm]

omit [Cacheable T] in
theorem next_mem_outcomeSignals : .next a ∈ outcomeSignals o ↔ o = .ok a := by
  cases o with
  | ok a' => simp [outcomeSignals, eq_comm]
  | error e' => simp [outcomeSignals]

omit [Cacheable T] in
theorem error_mem_outcomeSignals : .error e ∈ outcomeSignals o ↔ o = .error e := by
  cases o with
  | ok a' => simp [outcomeSignals]
  | error e' => simp [outcomeSignals, eq_comm]

/-- Agreement is equality of verdicts. -/
theorem pathsAgree_iff {decoded decoded' : Except MoyaError (Network.Response T)}
    {e e' : MoyaError} :
    PathsAgree decoded (storedSignals target (outcome e decoded))
        (outcomeSignals (outcome e' decoded')) ↔
      verdict decoded' = verdict decoded := by
  constructor
  · intro h
    cases hv : verdict decoded with
    | none =>
        cases hv' : verdict decoded' with
        | none => rfl
        | some v =>
            cases v with
            | ok a =>
                have hnext := (h.value a).mp (next_mem_outcomeSignals.mpr (outcome_eq_ok_iff.mpr hv'))
                have hok := outcome_eq_ok_iff.mp (next_mem_storedSignals.mp hnext)
                rw [hv] at hok
                cases hok
            | error status =>
                obtain ⟨code, message⟩ := status
                have hstatus := (h.moreStatus code message).mp
                  (error_mem_outcomeSignals.mpr (outcome_eq_status_iff.mpr hv'))
                rw [decodedStatus_iff, hv] at hstatus
                cases hstatus
    | some v =>
        cases v with
        | ok a =>
            have hnext := (h.value a).mpr (next_mem_storedSignals.mpr (outcome_eq_ok_iff.mpr hv))
            exact outcome_eq_ok_iff.mp (next_mem_outcomeSignals.mp hnext)
        | error status =>
            obtain ⟨code, message⟩ := status
            have hstatus := (h.moreStatus code message).mpr (decodedStatus_iff.mpr hv)
            exact outcome_eq_status_iff.mp (error_mem_outcomeSignals.mp hstatus)
  · intro h
    refine ⟨fun a => ?_, fun code message => ?_, fun code message => ?_⟩
    · rw [next_mem_outcomeSignals, next_mem_storedSignals, outcome_eq_ok_iff, outcome_eq_ok_iff, h]
    · rw [error_mem_storedSignals, outcome_eq_status_iff, decodedStatus_iff]
    · rw [error_mem_outcomeSignals, outcome_eq_status_iff, decodedStatus_iff, h]

end Signals

/-- The paths agree on a response, the single and the observable one against `mapResult`. -/
def AgreeOn {τ : Type} [TargetType τ] (T : Type) [Decodable T] [Cacheable T] (target : τ)
    (storage : Storage) (keyPath : Option KeyPath) (decoder : JSONDecoder)
    (response : Moya.Response) : Prop :=
  PathsAgree (response.map (Network.Response T) keyPath decoder)
      ((requestWithResultSingle T target keyPath decoder).asObservable.answer (.ok response))
      ((mapResult T keyPath decoder request).asObservable.answer (.ok response)) ∧
    PathsAgree (response.map (Network.Response T) keyPath decoder)
      ((requestWithResult T storage target keyPath decoder).answer (.ok response))
      ((mapResult T keyPath decoder request).asObservable.answer (.ok response))

theorem agreeOn_iff {τ : Type} [TargetType τ] (T : Type) [Decodable T] [Cacheable T] (target : τ)
    (storage : Storage) (keyPath : Option KeyPath) (decoder : JSONDecoder)
    (response : Moya.Response) :
    AgreeOn T target storage keyPath decoder response ↔
      verdict (response.map (Network.Response T)) =
        verdict (response.map (Network.Response T) keyPath decoder) := by
  rw [AgreeOn, requestWithResult_answer_at, mapResult_answer_at, requestWithResultSingle_answer_at,
    pathsAgree_iff, and_self]

/-! ## What an envelope is read from

The body, without a key path, and otherwise the object at it: three of its fields, under the
names that the decoder gives the keys. -/

/-- The fields of the object that an envelope is read from, if it is one. -/
def envelopeFields (keyPath : Option KeyPath) (decoder : JSONDecoder) :
    Data → Option (List (String × JSONValue))
  | .json (.object fields) =>
      match keyPath with
      | none => some (fields.map fun f => (decoder.convertKey f.1, f.2))
      | some keyPath =>
          match keyPath fields with
          | .json (.object found) => some (found.map fun f => (decoder.convertKey f.1, f.2))
          | _ => none
  | _ => none

/-- The `status_code`, 0 if it is not there or cannot be read. -/
def statusCode (fields : List (String × JSONValue)) : Int64 :=
  ((fields.lookup "status_code").bind integer).getD 0

def statusMessage (fields : List (String × JSONValue)) : String :=
  ((fields.lookup "status_message").bind text).getD ""

/-- The `subjects` as the payload type reads them, or what it makes of `{}` or `[]` instead. -/
def payload (T : Type) [Decodable T] (decoder : JSONDecoder) (fields : List (String × JSONValue)) :
    Option T :=
  ((fields.lookup "subjects").bind fun v => (initFrom decoder v).toOption) <|>
    ((initFrom {} (.object [])).toOption <|> (initFrom {} (.array [])).toOption)

/-- The body, and the object at the key path, are read alike: neither has a payload, both
are a success with the same payload, or both carry the same status. -/
inductive ReadAlike (T : Type) [Decodable T] (decoder : JSONDecoder) :
    Option (List (String × JSONValue)) → Option (List (String × JSONValue)) → Prop
  | unread {body found : Option (List (String × JSONValue))} :
      (∀ fields ∈ body, payload T {} fields = none) →
      (∀ fields ∈ found, payload T decoder fields = none) → ReadAlike T decoder body found
  | success {body found : List (String × JSONValue)} {a : T} :
      statusCode body = 0 → statusCode found = 0 → payload T {} body = some a →
      payload T decoder found = some a → ReadAlike T decoder (some body) (some found)
  | status {body found : List (String × JSONValue)} {a b : T} :
      statusCode body ≠ 0 → statusCode found = statusCode body →
      statusMessage found = statusMessage body → payload T {} body = some a →
      payload T decoder found = some b → ReadAlike T decoder (some body) (some found)

section Envelope

variable {T : Type} [Decodable T] {decoder : JSONDecoder}

theorem decode_subjects (c : KeyedDecodingContainer) :
    (decode (T := T) c "subjects").toOption = payload T c.decoder c.fields := by
  unfold decode decodeIfPresent KeyedDecodingContainer.contains KeyedDecodingContainer.superDecoder
    payload
  cases c.fields.lookup "subjects" with
  | none =>
      cases initFrom (T := T) {} (.object []) with
      | ok a => rfl
      | error e => cases initFrom (T := T) {} (.array []) <;> rfl
  | some v =>
      simp only [Option.isSome_some, if_true, Option.getD_some, Option.bind_some]
      cases initFrom (T := T) c.decoder v with
      | ok a => rfl
      | error e =>
          cases initFrom (T := T) {} (.object []) with
          | ok a => rfl
          | error e => cases initFrom (T := T) {} (.array []) <;> rfl

/-- The verdict of an envelope, from its fields. -/
def read (T : Type) [Decodable T] (decoder : JSONDecoder) (fields : List (String × JSONValue)) :
    Option (Except Network.Error T) :=
  (payload T decoder fields).map fun a =>
    if statusCode fields = 0 then .ok a
    else .error (.status (statusCode fields) (statusMessage fields))

theorem verdict_initFrom {j : JSONValue} {c : KeyedDecodingContainer}
    {e : DecodingError → MoyaError} (h : decoder.container j = .ok c) :
    verdict ((initFrom (T := Network.Response T) decoder j).mapError e) =
      read T c.decoder c.fields := by
  have hinit : initFrom (T := Network.Response T) decoder j =
      (decode (T := T) c "subjects").map fun a =>
        { status_code := statusCode c.fields, status_message := statusMessage c.fields,
          subjects := a } := by
    simp only [initFrom, h, decodeInt_eq, decodeString_eq, bind, Except.bind, pure, Except.pure]
    cases decode (T := T) c "subjects" <;> rfl
  rw [hinit, read, ← decode_subjects]
  cases decode (T := T) c "subjects" with
  | error e' => rfl
  | ok a =>
      simp [Except.map, Except.mapError, verdict, Network.Response.success, Except.toOption]

theorem verdict_initFrom_of_not_object {j : JSONValue} {e : DecodingError → MoyaError}
    (h : ¬ j.IsObject) :
    verdict ((initFrom (T := Network.Response T) decoder j).mapError e) = none := by
  obtain ⟨e', he⟩ := (decoder.container_throws_iff j).mpr h
  simp only [initFrom, he, bind, Except.bind, Except.mapError, verdict]

/-- A value that is no document of its own is no object either. -/
theorem verdict_wrapped {value : JSONValue} {e : DecodingError → MoyaError}
    (h : ¬ value.IsObject) :
    verdict ((do
      let c ← decoder.container (.object [("value", value)])
      match c.fields.lookup "value" with
      | some v => initFrom (T := Network.Response T) decoder v
      | none => throw (.keyNotFound "value") : Except DecodingError _).mapError e) = none := by
  have hlookup : [(decoder.convertKey "value", value)].lookup "value" =
      if decoder.convertKey "value" = "value" then some value else none := lookup_singleton ..
  simp only [JSONDecoder.container, List.map_cons, List.map_nil, bind, Except.bind, hlookup]
  by_cases hkey : decoder.convertKey "value" = "value"
  · rw [if_pos hkey]
    exact verdict_initFrom_of_not_object h
  · rw [if_neg hkey]
    rfl

/-- What a path makes of a response is what it reads in the fields of the envelope. -/
theorem verdict_map (keyPath : Option KeyPath) (response : Moya.Response) :
    verdict (response.map (Network.Response T) keyPath decoder) =
      (envelopeFields keyPath decoder response.data).bind (read T decoder) := by
  obtain ⟨statusCode, data⟩ := response
  cases data with
  | malformed => cases keyPath <;> rfl
  | json j =>
      by_cases hobject : j.IsObject
      · obtain ⟨fields, rfl⟩ := hobject
        cases keyPath with
        | none =>
            have hcontainer : decoder.container (.object fields) = .ok ⟨decoder, _⟩ := rfl
            exact verdict_initFrom hcontainer
        | some keyPath =>
            simp only [Moya.Response.map, envelopeFields]
            cases keyPath fields with
            | json value =>
                cases value with
                | object found =>
                    have hcontainer : decoder.container (.object found) = .ok ⟨decoder, _⟩ := rfl
                    exact verdict_initFrom hcontainer
                | array elements =>
                    refine verdict_initFrom_of_not_object ?_
                    rintro ⟨found, hfound⟩
                    cases hfound
                | null | bool _ | int _ | double _ | string _ =>
                    refine verdict_wrapped ?_
                    rintro ⟨found, hfound⟩
                    cases hfound
            | nil | other | undefinedKey => rfl
      · have hfields : envelopeFields keyPath decoder (.json j) = none := by
          cases j with
          | object fields => exact absurd ⟨fields, rfl⟩ hobject
          | null | bool _ | int _ | double _ | string _ | array _ => rfl
        rw [hfields]
        cases keyPath with
        | none => exact verdict_initFrom_of_not_object hobject
        | some keyPath =>
            cases j with
            | object fields => exact absurd ⟨fields, rfl⟩ hobject
            | null | bool _ | int _ | double _ | string _ | array _ => rfl

/-- Equal verdicts are what `ReadAlike` spells out. -/
theorem readAlike_iff {body found : Option (List (String × JSONValue))} :
    ReadAlike T decoder body found ↔ body.bind (read T {}) = found.bind (read T decoder) := by
  constructor
  · intro h
    cases h with
    | unread hbody hfound =>
        have hnone : ∀ {d : JSONDecoder} {o : Option (List (String × JSONValue))},
            (∀ fields ∈ o, payload T d fields = none) → o.bind (read T d) = none := by
          intro d o ho
          cases o with
          | none => rfl
          | some fields => rw [Option.bind_some, read, ho fields rfl, Option.map_none]
        rw [hnone hbody, hnone hfound]
    | success hbody hfound ha hb =>
        rw [Option.bind_some, Option.bind_some, read, read, ha, hb, hbody, hfound, Option.map_some,
          Option.map_some, if_pos rfl, if_pos rfl]
    | status hne hcode hmessage ha hb =>
        rw [Option.bind_some, Option.bind_some, read, read, ha, hb, hcode, hmessage,
          Option.map_some, Option.map_some, if_neg hne, if_neg hne]
  · intro h
    cases hbody : body.bind (read T {}) with
    | none =>
        rw [hbody] at h
        have hnone : ∀ {d : JSONDecoder} {o : Option (List (String × JSONValue))},
            o.bind (read T d) = none → ∀ fields ∈ o, payload T d fields = none := by
          rintro d o ho fields rfl
          exact Option.map_eq_none_iff.mp ho
        exact .unread (hnone hbody) (hnone h.symm)
    | some v =>
        rw [hbody] at h
        obtain ⟨body, rfl, hbody⟩ := Option.bind_eq_some_iff.mp hbody
        obtain ⟨found, rfl, hfound⟩ := Option.bind_eq_some_iff.mp h.symm
        obtain ⟨a, ha, hv⟩ := Option.map_eq_some_iff.mp hbody
        obtain ⟨b, hb, hv'⟩ := Option.map_eq_some_iff.mp hfound
        by_cases hcode : statusCode body = 0
        · rw [if_pos hcode] at hv
          subst hv
          by_cases hcode' : statusCode found = 0
          · rw [if_pos hcode'] at hv'
            cases hv'
            exact .success hcode hcode' ha hb
          · rw [if_neg hcode'] at hv'
            cases hv'
        · rw [if_neg hcode] at hv
          subst hv
          by_cases hcode' : statusCode found = 0
          · rw [if_pos hcode'] at hv'
            cases hv'
          · rw [if_neg hcode'] at hv'
            injection hv' with hv'
            injection hv' with hcode'' hmessage
            exact .status hcode hcode'' hmessage ha hb

end Envelope

/-! ## Where the paths part

At a key path, an empty object is a page to `mapResult` and nothing to
`requestWithResult`.  With another decoder, a payload that looks at one of its keys, or at
the decoder's settings, comes out differently. -/

/-- A payload that tells whether it has a key and its decoder no settings. -/
structure KeyProbe (key : String) where
  found : Bool
deriving DecidableEq

namespace KeyProbe

variable {key : String}

instance : Decodable (KeyProbe key) where
  initFrom decoder j := do
    let c ← decoder.container j
    return ⟨c.contains key && decoder.settings.isEmpty⟩

instance : Fallback (KeyProbe key) where
  value := ⟨false⟩
  decoded := .inl rfl

/-- Stored as a page, empty unless the key was found. -/
instance : Cacheable (KeyProbe key) where
  wrap probe := .movies (if probe.found then [Fallback.value] else [])
  unwrap
    | .movies items => some ⟨!items.isEmpty⟩
    | .detail _ => none
  unwrap_wrap probe := by
    obtain ⟨found⟩ := probe
    cases found <;> rfl

/-- A page whose payload has the key. -/
def response (key : String) : Moya.Response :=
  ⟨200, .json (.object [("subjects", .object [(key, .null)])])⟩

end KeyProbe

namespace KeyProbe

variable {key : String}

/-- A probe as a decoder reads it. -/
theorem initFrom_object (decoder : JSONDecoder) :
    initFrom decoder (.object [(key, .null)]) =
      .ok (⟨decide (decoder.convertKey key = key ∧ decoder.settings = [])⟩ : KeyProbe key) := by
  have hfound : ((KeyedDecodingContainer.mk decoder [(decoder.convertKey key, .null)]).contains key &&
      decoder.settings.isEmpty) =
        decide (decoder.convertKey key = key ∧ decoder.settings = []) := by
    rw [KeyedDecodingContainer.contains, lookup_singleton, Bool.decide_and]
    congr 1
    · split <;> simp [*]
    · cases decoder.settings <;> rfl
  rw [← hfound]
  rfl

/-- The payload is found exactly where the decoder leaves both keys alone and has no
settings. -/
theorem verdict_response (decoder : JSONDecoder) :
    verdict ((response key).map (Network.Response (KeyProbe key)) none decoder) =
      some (.ok ⟨decide (decoder.convertKey "subjects" = "subjects" ∧
        decoder.convertKey key = key ∧ decoder.settings = [])⟩) := by
  have hcontainer : decoder.container (.object [("subjects", .object [(key, .null)])]) =
      .ok ⟨decoder, [(decoder.convertKey "subjects", .object [(key, .null)])]⟩ := rfl
  simp only [response, Moya.Response.map, Network.Response.initFrom_eq hcontainer,
    lookup_singleton, Except.mapError, verdict, Network.Response.success]
  have hcode : ((if decoder.convertKey "subjects" = "status_code" then
      some (JSONValue.object [(key, .null)]) else none).bind integer).getD 0 = 0 := by
    split <;> rfl
  rw [hcode]
  by_cases hsubjects : decoder.convertKey "subjects" = "subjects"
  · simp [hsubjects, initFrom_object, Except.toOption]
  · simp [hsubjects, Fallback.value]

end KeyProbe

/-- Without a key path, the paths agree throughout exactly with a default decoder. -/
theorem agreeOn_forall_iff (decoder : JSONDecoder) :
    (∀ (T : Type) [Decodable T] [Cacheable T] (τ : Type) [TargetType τ] (target : τ)
        (storage : Storage) (response : Moya.Response),
      AgreeOn T target storage none decoder response) ↔ decoder.IsDefault := by
  constructor
  · intro h
    have hprobe : ∀ key, decoder.convertKey key = key ∧ decoder.settings = [] := by
      intro key
      have hagree := (agreeOn_iff ..).mp
        (h (KeyProbe key) MoviesTarget (.getNowPlaying 0) (fun _ => none) (KeyProbe.response key))
      rw [KeyProbe.verdict_response, KeyProbe.verdict_response] at hagree
      have hfound : decoder.convertKey "subjects" = "subjects" ∧ decoder.convertKey key = key ∧
          decoder.settings = [] := by simpa using hagree
      exact hfound.2
    exact ⟨fun key => (hprobe key).1, (hprobe "").2⟩
  · intro hdefault T _ _ τ _ target storage response
    rw [agreeOn_iff, hdefault.eq]

/-- A key path that leads the body to itself is as good as none. -/
theorem agreeOn_of_self {T : Type} [Decodable T] [Cacheable T] {τ : Type} [TargetType τ]
    (target : τ) (storage : Storage) {keyPath : KeyPath} (decoder : JSONDecoder)
    {response : Moya.Response}
    (hself : ∀ fields, response.data = .json (.object fields) →
      keyPath fields = .json (.object fields)) :
    AgreeOn T target storage (some keyPath) decoder response ↔
      AgreeOn T target storage none decoder response := by
  have hfields : envelopeFields (some keyPath) decoder response.data =
      envelopeFields none decoder response.data := by
    cases hdata : response.data with
    | malformed => rfl
    | json j =>
        cases j with
        | object fields => simp only [envelopeFields, hself fields hdata]
        | null | bool _ | int _ | double _ | string _ | array _ => rfl
  rw [agreeOn_iff, agreeOn_iff, verdict_map, verdict_map, verdict_map, hfields]

/-- The key path of a single key, without an operator: `object(forKey:)`. -/
def KeyPath.key (key : String) : KeyPath := fun fields =>
  match fields.lookup key with
  | some value => .json value
  | none => .nil

end MagnetX
