/-
# `MagnetX.Target` — what is asked of the server, and under which key it is cached

`Target/MoviesTarget.swift`, `Target/TargetExt.swift`, `Network/NetworkService.swift`
and the cache key of `RxSwiftX/TargetType+Rx.swift`.

A target has a path and a task.  Two things are computed from them and must not be
confused:

* the request that is sent, from the task `taskClosure` makes of the target's own
  (it adds `count`);
* the cache key, from the URL and the parameters of the target's *own* task.

The keys of the two lists and of the detail records are pairwise different, whatever
the start indices and the id (`cachedKey_ne`): the first letter after the base
URL already differs.
-/
import MagnetX.Lib.Percent

namespace MagnetX

open Lib

/-! ## Parameters and tasks -/

/-- A value of a `[String: Any]` dictionary, as far as a cast can tell it apart. -/
inductive AnyValue where
  | string (s : String)
  | int (n : Int)
  | other
deriving DecidableEq, Repr

abbrev Parameters := List (String × AnyValue)

/-- How a dictionary prints one of its values. -/
def AnyValue.description : AnyValue → String
  | .string s => "\"" ++ s ++ "\""
  | .int n => toString n
  | .other => "Any"

namespace Parameters

def description : Parameters → String
  | [] => "[:]"
  | ps => "[" ++ ", ".intercalate (ps.map fun p => "\"" ++ p.1 ++ "\": " ++ p.2.description) ++ "]"

/-- `updateValue(_:forKey:)`. -/
def updateValue (ps : Parameters) (value : AnyValue) (key : String) : Parameters :=
  ps.filter (fun p => p.1 ≠ key) ++ [(key, value)]

end Parameters

inductive ParameterEncoding where
  | urlDefault
  | other
deriving DecidableEq, Repr

/-- Moya's `Task`; `other` stands for the cases that neither the service nor the
cache key looks into. -/
inductive Task where
  | requestPlain
  | requestParameters (parameters : Parameters) (encoding : ParameterEncoding)
  | requestCompositeData (urlParameters : Parameters)
  | requestCompositeParameters (bodyParameters urlParameters : Parameters)
  | other
deriving DecidableEq, Repr

/-- `Task.parameters` of the cache key. -/
def Task.parameters : Task → String
  | .requestParameters parameters _ => parameters.description
  | .requestCompositeData urlParameters => urlParameters.description
  | .requestCompositeParameters bodyParameters urlParameters =>
      bodyParameters.description ++ urlParameters.description
  | .requestPlain | .other => ""

/-! ## Environment -/

inductive NetworkEnvironment where
  | develop
  | product

def NetworkEnvironment.environment : NetworkEnvironment := .develop

def NetworkEnvironment.baseURL : NetworkEnvironment → String
  | .develop => "http://api.douban.com/v2/movie"
  | .product => "http://api.douban.com/v2/movie"

class TargetType (τ : Type) where
  path : τ → String
  task : τ → Task

/-- `TargetType.baseURL`, the same for every target of the app. -/
def baseURL : String := NetworkEnvironment.environment.baseURL

/-! ## Character sets -/

def isAlphanumeric (c : Char) : Bool := c.isAlpha || c.isDigit

def urlQueryAllowed (c : Char) : Bool :=
  isAlphanumeric c || "-._~!$&'()*+,;=:@/?".toList.contains c

def urlPathAllowed (c : Char) : Bool :=
  isAlphanumeric c || "-._~!$&'()*+,=:@/".toList.contains c

/-- `CharacterSet.whitespacesAndNewlines`. -/
def isWhitespaceOrNewline (c : Char) : Bool :=
  let n := c.toNat
  (0x09 ≤ n && n ≤ 0x0D) || n == 0x20 || n == 0x85 || n == 0xA0 || n == 0x1680 ||
    (0x2000 ≤ n && n ≤ 0x200A) || n == 0x2028 || n == 0x2029 || n == 0x202F || n == 0x205F ||
    n == 0x3000

/-- `String.isBlank`. -/
def isBlank (s : String) : Bool := s.toList.all isWhitespaceOrNewline

/-- `String.urlEncoding()`. -/
def urlEncoding (s : String) : String :=
  if isBlank s then "" else Percent.encode urlQueryAllowed s

/-! ## Targets -/

inductive MoviesTarget where
  | getPopular (startIndex : Nat)
  | getNowPlaying (startIndex : Nat)
  | getUpComing (startIndex : Nat)
  | getDetails (id : String)
  | getTopRated (startIndex : Nat)
deriving DecidableEq, Repr

def MoviesTarget.path : MoviesTarget → String
  | .getPopular _ => "/popular"
  | .getNowPlaying _ => "/in_theaters"
  | .getUpComing _ => "/coming_soon"
  | .getTopRated _ => "/top_rated"
  | .getDetails id => "/subject/" ++ urlEncoding id

def MoviesTarget.task : MoviesTarget → Task
  | .getPopular startIndex | .getNowPlaying startIndex
  | .getUpComing startIndex | .getTopRated startIndex =>
      .requestParameters [("start", .int startIndex)] .urlDefault
  | .getDetails _ => .requestPlain

instance : TargetType MoviesTarget where
  path := MoviesTarget.path
  task := MoviesTarget.task

/-! ## The request sent -/

def LIMIT_COUNT : Nat := 20

/-- The `taskClosure` that `NetworkService.configService` installs. -/
def NetworkService.taskClosure {τ : Type} [TargetType τ] (target : τ) : Task :=
  match TargetType.task target with
  | .requestParameters parameters encoding =>
      .requestParameters (parameters.updateValue (.string (toString LIMIT_COUNT)) "count") encoding
  | .requestPlain =>
      .requestParameters (Parameters.updateValue [] (.string (toString LIMIT_COUNT)) "count")
        .urlDefault
  | task => task

/-! ## The cache key -/

/-- A leading slash of an appended component merges with the separator. -/
def dropLeadingSlash (s : String) : String :=
  match s.toList with
  | '/' :: cs => String.ofList cs
  | _ => s

/-- The text of `URL.appendingPathComponent`, for a base without a trailing slash.
Dot segments are kept. -/
def appendingPathComponent (base component : String) : String :=
  base ++ "/" ++ Percent.encode urlPathAllowed (dropLeadingSlash component)

section Key

variable {τ : Type} [TargetType τ]

/-- `URL(target:).absoluteString`. -/
def absoluteString (target : τ) : String :=
  if (TargetType.path target).isEmpty then baseURL
  else appendingPathComponent baseURL (TargetType.path target)

def cachedKey (target : τ) : String :=
  absoluteString target ++ "?" ++ (TargetType.task target).parameters

theorem dropLeadingSlash_slash (s : String) : dropLeadingSlash ("/" ++ s) = s := by
  simp [dropLeadingSlash, String.toList_append]

/-- The key of a target whose path is a slash and then `component ++ rest`, where
`component` needs no encoding. -/
theorem cachedKey_of_path {target : τ} {component rest : String}
    (hpath : TargetType.path target = "/" ++ (component ++ rest))
    (hallowed : component.toList.all urlPathAllowed = true) :
    cachedKey target = baseURL ++ "/" ++ (component ++
      (Percent.encode urlPathAllowed rest ++ ("?" ++ (TargetType.task target).parameters))) := by
  have hne : ("/" ++ (component ++ rest)).isEmpty = false := by
    simp [String.isEmpty_eq_false_iff]
  rw [cachedKey, absoluteString, hpath, hne, if_neg Bool.false_ne_true,
    appendingPathComponent, dropLeadingSlash_slash, Percent.encode_append,
    Percent.encode_of_allowed hallowed]
  simp only [String.append_assoc]

end Key

/-- The letter that tells a target's path from the others'. -/
def MoviesTarget.initial : MoviesTarget → Char
  | .getPopular _ => 'p'
  | .getNowPlaying _ => 'i'
  | .getUpComing _ => 'c'
  | .getTopRated _ => 't'
  | .getDetails _ => 's'

theorem cachedKey_toList (target : MoviesTarget) :
    ∃ cs, (cachedKey target).toList = (baseURL ++ "/").toList ++ target.initial :: cs := by
  have key : ∀ (component rest tail : String),
      target.path = "/" ++ (component ++ rest) → component.toList.all urlPathAllowed = true →
      component.toList = target.initial :: tail.toList →
      ∃ cs, (cachedKey target).toList = (baseURL ++ "/").toList ++ target.initial :: cs := by
    intro component rest tail hpath hallowed hcomponent
    have hpath' : TargetType.path target = "/" ++ (component ++ rest) := hpath
    rw [cachedKey_of_path hpath' hallowed]
    simp only [String.toList_append, hcomponent, List.cons_append]
    exact ⟨_, rfl⟩
  cases target with
  | getPopular _ => exact key "popular" "" "opular" rfl (by decide) rfl
  | getNowPlaying _ => exact key "in_theaters" "" "n_theaters" rfl (by decide) rfl
  | getUpComing _ => exact key "coming_soon" "" "oming_soon" rfl (by decide) rfl
  | getTopRated _ => exact key "top_rated" "" "op_rated" rfl (by decide) rfl
  | getDetails id =>
      have hpath : "/" ++ "subject/" ++ urlEncoding id = "/" ++ ("subject/" ++ urlEncoding id) :=
        String.append_assoc
      exact key "subject/" (urlEncoding id) "ubject/" hpath (by decide) rfl

/-- **Targets of different kinds never share a key**, whatever the start index or id. -/
theorem cachedKey_ne {target other : MoviesTarget} (h : target.initial ≠ other.initial) :
    cachedKey target ≠ cachedKey other := by
  intro hkey
  obtain ⟨cs, hcs⟩ := cachedKey_toList target
  obtain ⟨ds, hds⟩ := cachedKey_toList other
  rw [hkey, hds] at hcs
  exact h (List.cons.inj (List.append_cancel_left hcs)).1.symm

end MagnetX
