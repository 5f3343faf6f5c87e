/-
# `MagnetX.URLEncoding` — parameters on their way into a query

Alamofire's `URLEncoding`.  Parameters are a dictionary whose values may be dictionaries and
arrays again; `queryComponents` flattens them, `a[b]` for an entry and `a[]` for an element,
and escapes both parts of each component.  `encode` puts the components behind the query the
URL has, or into the body.

The query is read again as `Lib.Query` has it.  A request that carries its parameters in the
URL has the fields it had before, then one for each leaf of the parameters, and one that
carries them in its body has the leaves there (`encode_carries`): the sorting, the recursion and
the escaping lose and invent nothing.  Without a URL to carry them there is an error.
With brackets, and names that do not break them, the places of the leaves can be read off
as well (`readPlaces_query`).

Only the entries of the parameters themselves are sorted: the order in which they come does
not show (`query_perm`).  That of a dictionary among the parameters does, but only as an order of
the components (`queryComponents_perm`).
-/
import MagnetX.Target
import MagnetX.Lib.Query
import MagnetX.Lib.Sorting
import Mathlib.Data.String.Basic

namespace MagnetX

open Lib

/-! ## Requests -/

inductive HTTPMethod where
  | options
  | get
  | head
  | post
  | put
  | patch
  | delete
  | trace
  | connect
deriving DecidableEq, Repr

namespace HTTPMethod

def rawValue : HTTPMethod → String
  | .options => "OPTIONS"
  | .get => "GET"
  | .head => "HEAD"
  | .post => "POST"
  | .put => "PUT"
  | .patch => "PATCH"
  | .delete => "DELETE"
  | .trace => "TRACE"
  | .connect => "CONNECT"

def allCases : List HTTPMethod :=
  [.options, .get, .head, .post, .put, .patch, .delete, .trace, .connect]

/-- `HTTPMethod(rawValue:)`. -/
def ofRawValue (rawValue : String) : Option HTTPMethod :=
  allCases.find? fun method => method.rawValue == rawValue

end HTTPMethod

/-- A URL that `URLComponents` takes apart: what is before its query, the query and the
fragment, all percent-encoded. -/
structure URL where
  front : String
  percentEncodedQuery : Option String := none
  percentEncodedFragment : Option String := none
deriving DecidableEq, Repr

structure URLRequest where
  url : Option URL
  httpMethod : Option String := some "GET"
  allHTTPHeaderFields : List (String × String) := []
  httpBody : Option (List UInt8) := none
deriving DecidableEq, Repr

namespace URLRequest

/-- `value(forHTTPHeaderField:)`; the names of header fields have no case. -/
def value (request : URLRequest) (field : String) : Option String :=
  (request.allHTTPHeaderFields.find? fun header => header.1.toLower == field.toLower).map Prod.snd

/-- `setValue(_:forHTTPHeaderField:)`, for a field that has no value. -/
def setValue (request : URLRequest) (value field : String) : URLRequest :=
  { request with allHTTPHeaderFields := request.allHTTPHeaderFields ++ [(field, value)] }

end URLRequest

/-! ## Parameters -/

/-- A value of `[String: Any]`, as the casts of `queryComponents` tell values apart; a number
that is no `Bool`, and anything else, by how it prints. -/
inductive ParameterValue where
  | dictionary (entries : List (String × ParameterValue))
  | array (elements : List ParameterValue)
  | bool (value : Bool)
  | number (description : String)
  | other (description : String)

/-- A dictionary of parameters, in the order in which it hands out its entries. -/
abbrev ParameterDictionary := List (String × ParameterValue)

namespace URLEncoding

inductive Destination where
  | methodDependent
  | queryString
  | httpBody
deriving DecidableEq, Repr

inductive ArrayEncoding where
  | brackets
  | noBrackets
deriving DecidableEq, Repr

def ArrayEncoding.encode : ArrayEncoding → String → String
  | .brackets, key => key ++ "[]"
  | .noBrackets, key => key

inductive BoolEncoding where
  | numeric
  | literal
deriving DecidableEq, Repr

def BoolEncoding.encode : BoolEncoding → Bool → String
  | .numeric, value => if value then "1" else "0"
  | .literal, value => if value then "true" else "false"

end URLEncoding

open URLEncoding (Destination ArrayEncoding BoolEncoding) in
structure URLEncoding where
  destination : Destination := .methodDependent
  arrayEncoding : ArrayEncoding := .brackets
  boolEncoding : BoolEncoding := .numeric
deriving DecidableEq, Repr

/-- `URLEncoding.default`. -/
protected def URLEncoding.default : URLEncoding := {}

inductive AFError where
  | missingURL
deriving DecidableEq, Repr

namespace URLEncoding

def generalDelimitersToEncode : List Char := ":#[]@".toList

def subDelimitersToEncode : List Char := "!$&'()*+,;=".toList

/-- `urlQueryAllowed`, with the delimiters removed. -/
def allowedCharacterSet (c : Char) : Bool :=
  urlQueryAllowed c && !(generalDelimitersToEncode ++ subDelimitersToEncode).contains c

def escape (string : String) : String := Percent.encode allowedCharacterSet string

variable (encoding : URLEncoding)

mutual

/-- `queryComponents(fromKey:value:)`; the two loops in it are `entryComponents` and
`elementComponents`. -/
def queryComponents (key : String) : ParameterValue → List (String × String)
  | .dictionary entries => entryComponents key entries
  | .array elements => elementComponents key elements
  | .bool value => [(escape key, escape (encoding.boolEncoding.encode value))]
  | .number description => [(escape key, escape description)]
  | .other description => [(escape key, escape description)]

def entryComponents (key : String) : List (String × ParameterValue) → List (String × String)
  | [] => []
  | (nestedKey, value) :: entries =>
      queryComponents (key ++ "[" ++ nestedKey ++ "]") value ++ entryComponents key entries

def elementComponents (key : String) : List ParameterValue → List (String × String)
  | [] => []
  | value :: elements =>
      queryComponents (encoding.arrayEncoding.encode key) value ++ elementComponents key elements

end

/-- `<` on the keys. -/
def keyOrder (a b : String) : Bool := decide (a < b)

def sortedKeys (parameters : ParameterDictionary) : List String :=
  stableSort.sort keyOrder (parameters.map Prod.fst)

def query (parameters : ParameterDictionary) : String :=
  Query.join <| (sortedKeys parameters).flatMap fun key =>
    match parameters.lookup key with
    | some value => encoding.queryComponents key value
    | none => []

def encodesParametersInURL (method : HTTPMethod) : Bool :=
  match encoding.destination with
  | .queryString => true
  | .httpBody => false
  | .methodDependent =>
      match method with
      | .get | .head | .delete => true
      | _ => false

/-- The method says that the parameters go into the URL. -/
def inURL (urlRequest : URLRequest) : Bool :=
  (HTTPMethod.ofRawValue (urlRequest.httpMethod.getD "GET")).any encoding.encodesParametersInURL

def encode (urlRequest : URLRequest) (parameters : Option ParameterDictionary) :
    Except AFError URLRequest :=
  match parameters with
  | none => .ok urlRequest
  | some parameters =>
      if encoding.inURL urlRequest then
        match urlRequest.url with
        | none => .error .missingURL
        | some url =>
            if parameters.isEmpty then .ok urlRequest
            else
              let percentEncodedQuery :=
                (url.percentEncodedQuery.map (· ++ "&")).getD "" ++ encoding.query parameters
              .ok { urlRequest with
                url := some { url with percentEncodedQuery := some percentEncodedQuery } }
      else
        let urlRequest :=
          if urlRequest.value "Content-Type" = none then
            urlRequest.setValue "application/x-www-form-urlencoded; charset=utf-8" "Content-Type"
          else urlRequest
        .ok { urlRequest with httpBody := some (Percent.utf8 (encoding.query parameters).toList) }

/-! ## What a query says -/

section Leaves

variable {encoding : URLEncoding}

/-- What an element of an array adds to the name of the array. -/
def element (encoding : URLEncoding) : String := encoding.arrayEncoding.encode ""

theorem encode_key (key : String) :
    encoding.arrayEncoding.encode key = key ++ encoding.element := by
  rw [element]
  cases encoding.arrayEncoding with
  | brackets => exact congrArg (key ++ ·) String.empty_append.symm
  | noBrackets => exact String.append_empty.symm

mutual

/-- The leaves of a value, each with its place and its text. -/
def leaves (encoding : URLEncoding) (path : Query.Path) :
    ParameterValue → List (Query.Path × String)
  | .dictionary entries => entryLeaves encoding path entries
  | .array elements => elementLeaves encoding path elements
  | .bool value => [(path, encoding.boolEncoding.encode value)]
  | .number description => [(path, description)]
  | .other description => [(path, description)]

def entryLeaves (encoding : URLEncoding) (path : Query.Path) :
    List (String × ParameterValue) → List (Query.Path × String)
  | [] => []
  | (nestedKey, value) :: entries =>
      leaves encoding (path.snoc (.key nestedKey)) value ++ entryLeaves encoding path entries

def elementLeaves (encoding : URLEncoding) (path : Query.Path) :
    List ParameterValue → List (Query.Path × String)
  | [] => []
  | value :: elements =>
      leaves encoding (path.snoc .element) value ++ elementLeaves encoding path elements

end

/-- The leaves of a dictionary of parameters, under its keys in order. -/
def dictionaryLeaves (encoding : URLEncoding) (parameters : ParameterDictionary) :
    List (Query.Path × String) :=
  (sortedKeys parameters).flatMap fun key =>
    match parameters.lookup key with
    | some value => leaves encoding ⟨key, []⟩ value
    | none => []

/-- The name and the text of a leaf. -/
def field (encoding : URLEncoding) (leaf : Query.Path × String) : String × String :=
  (leaf.1.write encoding.element, leaf.2)

def fields (encoding : URLEncoding) (parameters : ParameterDictionary) : List (String × String) :=
  (encoding.dictionaryLeaves parameters).map encoding.field

@[simp] theorem fields_nil : encoding.fields [] = [] := by
  simp [fields, dictionaryLeaves, sortedKeys, stableSort]

/-- A leaf, as `queryComponents` writes it. -/
def component (encoding : URLEncoding) (leaf : Query.Path × String) : String × String :=
  (escape (leaf.1.write encoding.element), escape leaf.2)

/-- **The recursion of `queryComponents`** goes through the leaves. -/
theorem queryComponents_eq (path : Query.Path) (value : ParameterValue) :
    encoding.queryComponents (path.write encoding.element) value =
      (leaves encoding path value).map encoding.component := by
  induction path, value using leaves.induct
    (motive_2 := fun path elements =>
      encoding.elementComponents (path.write encoding.element) elements =
        (elementLeaves encoding path elements).map encoding.component)
    (motive_3 := fun path entries =>
      encoding.entryComponents (path.write encoding.element) entries =
        (entryLeaves encoding path entries).map encoding.component) with
  | case1 path entries ih => rw [queryComponents, leaves, ih]
  | case2 path elements ih => rw [queryComponents, leaves, ih]
  | case3 path value => rfl
  | case4 path description => rfl
  | case5 path description => rfl
  | case6 path => rfl
  | case7 path nestedKey value entries ih ihEntries =>
      have hkey : path.write encoding.element ++ "[" ++ nestedKey ++ "]" =
          (path.snoc (.key nestedKey)).write encoding.element := by
        rw [Query.Path.write_snoc, Query.Step.write, String.append_assoc, String.append_assoc,
          String.append_assoc]
      rw [entryComponents, entryLeaves, List.map_append, hkey, ih, ihEntries]
  | case8 path => rfl
  | case9 path value elements ih ihElements =>
      have hkey : encoding.arrayEncoding.encode (path.write encoding.element) =
          (path.snoc .element).write encoding.element := by
        rw [Query.Path.write_snoc, Query.Step.write, encode_key]
      rw [elementComponents, elementLeaves, List.map_append, hkey, ih, ihElements]

/-- From a key of the parameters. -/
theorem queryComponents_root (key : String) (value : ParameterValue) :
    encoding.queryComponents key value =
      (leaves encoding ⟨key, []⟩ value).map encoding.component := by
  have hroot : (Query.Path.mk key []).write encoding.element = key := String.append_empty
  conv_lhs => rw [← hroot]
  exact queryComponents_eq _ value

theorem query_eq (parameters : ParameterDictionary) :
    encoding.query parameters = Query.write allowedCharacterSet (encoding.fields parameters) := by
  rw [query, Query.write, fields, dictionaryLeaves, List.map_map, List.map_flatMap]
  congr 2
  funext key
  cases parameters.lookup key with
  | none => rfl
  | some value => exact queryComponents_root key value

/-- Reading the query of parameters gives their leaves. -/
theorem read_query (parameters : ParameterDictionary) :
    Query.read (encoding.query parameters) = some (encoding.fields parameters) := by
  rw [query_eq]
  exact Query.read_write (by decide) (by decide) (by decide) _

end Leaves

end URLEncoding

/-- The fields of the query of a URL. -/
def URL.fields (url : URL) : Option (List (String × String)) :=
  match url.percentEncodedQuery with
  | none => some []
  | some query => Query.read query

namespace URLEncoding

variable {encoding : URLEncoding}

/-- A request that carries its parameters in the URL has the fields it had, and then the
leaves of the parameters; the rest of the request is as it was. -/
theorem encode_fields {urlRequest : URLRequest} {url : URL}
    (hinURL : encoding.inURL urlRequest = true) (hurl : urlRequest.url = some url)
    (parameters : ParameterDictionary) :
    ∃ query, encoding.encode urlRequest (some parameters) =
        .ok { urlRequest with url := some { url with percentEncodedQuery := query } } ∧
      ({ url with percentEncodedQuery := query } : URL).fields =
        url.fields.map (· ++ encoding.fields parameters) := by
  rw [encode, if_pos hinURL, hurl]
  dsimp only
  cases parameters with
  | nil =>
      refine ⟨url.percentEncodedQuery, ?_, ?_⟩
      · rw [← hurl]
        rfl
      · simp only [fields_nil, List.append_nil, Option.map_id']
  | cons entry entries =>
      refine ⟨_, rfl, ?_⟩
      rw [URL.fields, URL.fields]
      dsimp only
      cases url.percentEncodedQuery with
      | none =>
          show Query.read ("" ++ _) = _
          rw [String.empty_append, read_query]
          rfl
      | some query =>
          show Query.read (query ++ "&" ++ _) = _
          rw [Query.read_append, read_query]
          dsimp only
          cases Query.read query with
          | none => rfl
          | some before => rfl

theorem value_setValue {urlRequest : URLRequest} {field : String}
    (hnone : urlRequest.value field = none) (value : String) :
    (urlRequest.setValue value field).value field = some value := by
  rw [URLRequest.value, Option.map_eq_none_iff] at hnone
  rw [URLRequest.value, URLRequest.setValue]
  dsimp only
  rw [List.find?_append, hnone, Option.none_or,
    show List.find? (fun header : String × String => header.1.toLower == field.toLower)
      [(field, value)] = some (field, value) from List.find?_cons_of_pos (beq_self_eq_true _)]
  rfl

/-- A request that carries its parameters in the body has their leaves there, and says what
the body is; its URL is as it was. -/
theorem encode_body {urlRequest : URLRequest} (hinURL : encoding.inURL urlRequest = false)
    (parameters : ParameterDictionary) :
    ∃ (request : URLRequest) (body : String),
      encoding.encode urlRequest (some parameters) = .ok request ∧
      request.url = urlRequest.url ∧ request.httpBody = some (Percent.utf8 body.toList) ∧
      Query.read body = some (encoding.fields parameters) ∧
      request.value "Content-Type" ≠ none := by
  rw [encode, if_neg (Bool.eq_false_iff.mp hinURL)]
  refine ⟨_, encoding.query parameters, rfl, ?_, rfl, read_query parameters, ?_⟩
  · dsimp only
    split
    · rfl
    · rfl
  · by_cases hnone : urlRequest.value "Content-Type" = none
    · rw [if_pos hnone]
      show (urlRequest.setValue _ "Content-Type").value "Content-Type" ≠ none
      rw [value_setValue hnone]
      exact Option.some_ne_none _
    · rw [if_neg hnone]
      exact hnone

/-! ## The order of the keys -/

theorem strictWeak_keyOrder : StrictWeak keyOrder :=
  .of_rank String.toList fun _ _ => decide_eq_true_iff

theorem keyOrder_total (a b : String) (hab : keyOrder a b = false) (hba : keyOrder b a = false) :
    a = b := by
  rw [keyOrder, decide_eq_false_iff_not] at hab hba
  exact String.toList_inj.mp (le_antisymm (not_lt.mp hba) (not_lt.mp hab))

/-- Looking a key up does not depend on the order, if the keys are different. -/
theorem lookup_perm {parameters parameters' : ParameterDictionary}
    (hperm : parameters.Perm parameters') (hkeys : (parameters.map Prod.fst).Nodup) (key : String) :
    parameters.lookup key = parameters'.lookup key := by
  induction hperm with
  | nil => rfl
  | cons entry _ ih =>
      rw [List.lookup_cons, List.lookup_cons, ih (List.nodup_cons.mp hkeys).2]
  | swap first second _ =>
      have hne : second.1 ≠ first.1 := by
        intro h
        exact (List.nodup_cons.mp hkeys).1 (h ▸ List.mem_cons_self ..)
      rw [List.lookup_cons, List.lookup_cons, List.lookup_cons, List.lookup_cons]
      by_cases hsecond : key = second.1
      · have hfirst : (key == first.1) = false := beq_eq_false_iff_ne.mpr (hsecond ▸ hne)
        rw [hfirst]
      · rw [beq_eq_false_iff_ne.mpr hsecond]
  | trans h₁ _ ih₁ ih₂ =>
      exact (ih₁ hkeys).trans (ih₂ ((h₁.map Prod.fst).nodup_iff.mp hkeys))

/-- A key finds the value it comes with, if the keys are different. -/
theorem lookup_of_mem {parameters : ParameterDictionary}
    (hkeys : (parameters.map Prod.fst).Nodup) {entry : String × ParameterValue}
    (hmem : entry ∈ parameters) : parameters.lookup entry.1 = some entry.2 := by
  obtain ⟨front, back, rfl⟩ := List.append_of_mem hmem
  rw [lookup_perm List.perm_middle hkeys]
  exact List.lookup_cons_self

/-- The leaves of entries, under their keys. -/
def rootLeaves (encoding : URLEncoding) (entries : ParameterDictionary) :
    List (Query.Path × String) :=
  entries.flatMap fun entry => leaves encoding ⟨entry.1, []⟩ entry.2

/-- **The leaves of a dictionary are those of its entries**, each entry once, the keys in
order. -/
theorem dictionaryLeaves_eq {parameters : ParameterDictionary}
    (hkeys : (parameters.map Prod.fst).Nodup) :
    ∃ entries : ParameterDictionary, entries.Perm parameters ∧
      (entries.map Prod.fst).Pairwise (· < ·) ∧
      encoding.dictionaryLeaves parameters = encoding.rootLeaves entries := by
  let entries := stableSort.sort (fun a b => keyOrder a.1 b.1) parameters
  have hperm : entries.Perm parameters := stableSort.perm _ _
  have hinOrder : InOrder keyOrder (entries.map Prod.fst) := by
    refine List.pairwise_map.mpr (stableSort.inOrder ?_ parameters)
    exact .of_rank (fun entry : String × ParameterValue => entry.1.toList)
      fun _ _ => decide_eq_true_iff
  have hnodup : (entries.map Prod.fst).Nodup := (hperm.map Prod.fst).nodup_iff.mpr hkeys
  have hsorted : sortedKeys parameters = entries.map Prod.fst :=
    stableSort.sort_eq strictWeak_keyOrder keyOrder_total (hperm.map Prod.fst) hinOrder
  refine ⟨entries, hperm, ?_, ?_⟩
  · refine (hinOrder.and hnodup).imp fun {a b} hab => ?_
    by_contra hlt
    exact hab.2 (keyOrder_total a b (decide_eq_false hlt) hab.1)
  · rw [dictionaryLeaves, hsorted, rootLeaves, List.flatMap_map]
    refine List.flatMap_congr fun entry hentry => ?_
    rw [lookup_of_mem hkeys (hperm.mem_iff.mp hentry)]

/-- **The order in which the parameters hand out their entries does not show in the query.** -/
theorem query_perm {parameters parameters' : ParameterDictionary}
    (hperm : parameters.Perm parameters') (hkeys : (parameters.map Prod.fst).Nodup) :
    encoding.query parameters = encoding.query parameters' := by
  have hsorted : sortedKeys parameters = sortedKeys parameters' := by
    rw [sortedKeys, sortedKeys]
    refine stableSort.sort_eq strictWeak_keyOrder keyOrder_total ?_
      (stableSort.inOrder strictWeak_keyOrder _)
    exact (stableSort.perm _ _).trans (hperm.map Prod.fst).symm
  rw [query, query, hsorted]
  congr 2
  funext key
  rw [lookup_perm hperm hkeys]

/-- One parameter is nested, one has delimiters in it. -/
def sampleParameters : ParameterDictionary :=
  [("x", .dictionary [("y", .array [.number "2", .bool true])]), ("k&", .other "v=w %")]

theorem query_perm_sample :
    URLEncoding.default.query sampleParameters =
      URLEncoding.default.query sampleParameters.reverse :=
  query_perm (List.reverse_perm _).symm (by decide)

/-- That of a dictionary among them does. -/
example :
    URLEncoding.default.query [("x", .dictionary [("a", .number "1"), ("b", .number "2")])] =
      "x%5Ba%5D=1&x%5Bb%5D=2" ∧
    URLEncoding.default.query [("x", .dictionary [("b", .number "2"), ("a", .number "1")])] =
      "x%5Bb%5D=2&x%5Ba%5D=1" := by decide +kernel

/-- The two values differ in the order in which some dictionaries in them hand out their
entries. -/
inductive Reordered : ParameterValue → ParameterValue → Prop
  | refl (value : ParameterValue) : Reordered value value
  | trans {value value' value'' : ParameterValue} :
      Reordered value value' → Reordered value' value'' → Reordered value value''
  | dictionary {entries entries' : List (String × ParameterValue)} :
      entries.Perm entries' → Reordered (.dictionary entries) (.dictionary entries')
  | entry {front back : List (String × ParameterValue)} {key : String}
      {value value' : ParameterValue} : Reordered value value' →
      Reordered (.dictionary (front ++ (key, value) :: back))
        (.dictionary (front ++ (key, value') :: back))
  | element {front back : List ParameterValue} {value value' : ParameterValue} :
      Reordered value value' →
      Reordered (.array (front ++ value :: back)) (.array (front ++ value' :: back))

theorem entryLeaves_eq (path : Query.Path) (entries : List (String × ParameterValue)) :
    entryLeaves encoding path entries =
      entries.flatMap fun entry => leaves encoding (path.snoc (.key entry.1)) entry.2 := by
  induction entries with
  | nil => rfl
  | cons entry entries ih => rw [entryLeaves, List.flatMap_cons, ih]

theorem elementLeaves_eq (path : Query.Path) (elements : List ParameterValue) :
    elementLeaves encoding path elements =
      elements.flatMap (leaves encoding (path.snoc .element)) := by
  induction elements with
  | nil => rfl
  | cons value elements ih => rw [elementLeaves, List.flatMap_cons, ih]

/-- Then they have the same leaves. -/
theorem Reordered.leaves_perm {value value' : ParameterValue} (h : Reordered value value') :
    ∀ path, (leaves encoding path value).Perm (leaves encoding path value') := by
  induction h with
  | refl value => exact fun path => .refl _
  | trans _ _ ih ih' => exact fun path => (ih path).trans (ih' path)
  | dictionary hperm =>
      intro path
      rw [leaves, leaves, entryLeaves_eq, entryLeaves_eq]
      exact hperm.flatMap_right _
  | entry _ ih =>
      intro path
      rw [leaves, leaves, entryLeaves_eq, entryLeaves_eq, List.flatMap_append, List.flatMap_append,
        List.flatMap_cons, List.flatMap_cons]
      exact ((ih _).append_right _).append_left _
  | element _ ih =>
      intro path
      rw [leaves, leaves, elementLeaves_eq, elementLeaves_eq, List.flatMap_append,
        List.flatMap_append, List.flatMap_cons, List.flatMap_cons]
      exact ((ih _).append_right _).append_left _

/-- **What shows of the order inside a parameter** is the order of its components, nothing
else. -/
theorem queryComponents_perm {value value' : ParameterValue} (h : Reordered value value')
    (key : String) :
    (encoding.queryComponents key value).Perm (encoding.queryComponents key value') := by
  rw [queryComponents_root, queryComponents_root]
  exact (h.leaves_perm _).map _

/-! ## What becomes of a request -/

def sampleURL : URL := ⟨"http://h/p", some "a=1", none⟩

/-- There is one order of the keys. -/
theorem eq_sampleParameters_reverse {entries : ParameterDictionary}
    (hperm : entries.Perm sampleParameters) (hsorted : (entries.map Prod.fst).Pairwise (· < ·)) :
    entries = sampleParameters.reverse :=
  List.Perm.eq_of_pairwise (fun _ _ _ _ hab hba => absurd hba (lt_asymm hab))
    (List.pairwise_map.mp hsorted) (List.pairwise_map.mp (by decide))
    (hperm.trans (List.reverse_perm _).symm)

/-- Reading a query as a tree: each name as a place. -/
def readPlaces (query : String) : Option (List (Query.Path × String)) :=
  (Query.read query).bind fun fields =>
    fields.mapM fun field => (Query.Path.read field.1).map fun path => (path, field.2)

/-- **With brackets, a query tells the leaves and their places**, if no name breaks its
bracket. -/
theorem readPlaces_query (hbrackets : encoding.arrayEncoding = .brackets)
    {parameters : ParameterDictionary}
    (hclean : ∀ leaf ∈ encoding.dictionaryLeaves parameters, leaf.1.Clean) :
    readPlaces (encoding.query parameters) = some (encoding.dictionaryLeaves parameters) := by
  have helement : encoding.element = "[]" := by
    rw [element, hbrackets]
    rfl
  have hread : ∀ placed : List (Query.Path × String), (∀ leaf ∈ placed, leaf.1.Clean) →
      (placed.map fun leaf => (leaf.1.write "[]", leaf.2)).mapM (fun field =>
        (Query.Path.read field.1).map fun path => (path, field.2)) = some placed := by
    intro placed
    induction placed with
    | nil => intro _; rfl
    | cons leaf placed ih =>
        intro hall
        rw [List.map_cons, List.mapM_cons,
          Query.Path.read_write (hall leaf (List.mem_cons_self ..)),
          ih fun l hl => hall l (List.mem_cons_of_mem _ hl)]
        rfl
  have hfield : encoding.field = fun leaf => (leaf.1.write "[]", leaf.2) := by
    funext leaf
    rw [field, helement]
  rw [readPlaces, read_query, fields, hfield]
  exact hread _ hclean

theorem dictionaryLeaves_single (key : String) (value : ParameterValue) :
    encoding.dictionaryLeaves [(key, value)] = leaves encoding ⟨key, []⟩ value := by
  simp [dictionaryLeaves, sortedKeys, stableSort]

theorem readPlaces_query_sample :
    readPlaces (URLEncoding.default.query
      [("x", .dictionary [("y z", .array [.number "2", .bool true]), ("[", .other "é&")])]) =
      some [(⟨"x", [.key "y z", .element]⟩, "2"), (⟨"x", [.key "y z", .element]⟩, "1"),
        (⟨"x", [.key "["]⟩, "é&")] := by
  have hleaves : URLEncoding.default.dictionaryLeaves
      [("x", .dictionary [("y z", .array [.number "2", .bool true]), ("[", .other "é&")])] =
      [(⟨"x", [.key "y z", .element]⟩, "2"), (⟨"x", [.key "y z", .element]⟩, "1"),
        (⟨"x", [.key "["]⟩, "é&")] := dictionaryLeaves_single _ _
  exact (readPlaces_query rfl (by rw [hleaves]; decide)).trans (congrArg some hleaves)

/-- A name that looks like a place is taken for one. -/
example : URLEncoding.default.query [("a[b]", .number "1")] =
    URLEncoding.default.query [("a", .dictionary [("b", .number "1")])] := by
  rw [query_eq, query_eq, fields, fields, dictionaryLeaves_single, dictionaryLeaves_single]
  rfl

end URLEncoding

end MagnetX
