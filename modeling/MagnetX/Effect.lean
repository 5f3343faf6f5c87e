/-
# `MagnetX.Effect` — the cache, the state relays, and `trackState`

The two kinds of object the pipelines write to while they run:

* `Network.storage`, the cache shared by every screen (`RxSwiftX`).  An object is
  read back under the key it was stored under, at the type it was stored as;
* the `PublishRelay<UIState>`s of a view model, which drive the refresh controls and
  the HUD (`Extension/Cocoa+Rx/UIState+Rx.swift`).

`Effect` is what an operator's closure may do to them.  `trackState` reports a
terminal state on every element and on an error, and none on completion.
-/
import MagnetX.Model
import MagnetX.Target
import MagnetX.Lib.Rx
import Mathlib.Logic.Function.Basic

namespace MagnetX

open Lib.Rx

/-! ## The cache -/

/-- What the app stores: pages of the lists and detail records. -/
inductive CachedObject where
  | movies (items : List HotMovieModel)
  | detail (model : MovieDetailModel)
deriving DecidableEq, Repr

/-- A type the cache stores; reading an object of another type finds nothing. -/
class Cacheable (T : Type) where
  wrap : T → CachedObject
  unwrap : CachedObject → Option T
  unwrap_wrap : ∀ x, unwrap (wrap x) = some x

instance : Cacheable (List HotMovieModel) where
  wrap := .movies
  unwrap
    | .movies items => some items
    | .detail _ => none
  unwrap_wrap _ := rfl

instance : Cacheable MovieDetailModel where
  wrap := .detail
  unwrap
    | .detail model => some model
    | .movies _ => none
  unwrap_wrap _ := rfl

abbrev Storage := String → Option CachedObject

namespace Storage

def setObject (storage : Storage) (key : String) (object : CachedObject) : Storage :=
  Function.update storage key (some object)

/-- `TargetType.cachedObject(_:)`. -/
def cachedObject {τ : Type} [TargetType τ] (T : Type) [Cacheable T] (storage : Storage)
    (target : τ) : Option T :=
  (storage (cachedKey target)).bind Cacheable.unwrap

variable {τ υ : Type} [TargetType τ] [TargetType υ] {T U : Type} [Cacheable T] [Cacheable U]

@[simp] theorem cachedObject_setObject (storage : Storage) (target : τ) (object : T) :
    (storage.setObject (cachedKey target) (Cacheable.wrap object)).cachedObject T target =
      some object := by
  simp [cachedObject, setObject, Cacheable.unwrap_wrap]

/-- Reading depends on nothing but the entry under the target's key. -/
theorem cachedObject_congr {storage storage' : Storage} {target : τ}
    (h : storage (cachedKey target) = storage' (cachedKey target)) :
    storage.cachedObject T target = storage'.cachedObject T target := by
  rw [cachedObject, cachedObject, h]

end Storage

/-! ## UI states -/

inductive UIState where
  | idle
  | loading
  | success (info : Option String)
  | failure (info : Option String)
deriving DecidableEq, Repr

/-- The relays of a `HotMovieViewModel`. -/
inductive Relay where
  | refreshState
  | moreState
deriving DecidableEq, Repr

inductive Effect where
  | accept (relay : Relay) (state : UIState)
  | setObject (key : String) (object : CachedObject)
deriving DecidableEq, Repr

/-- The cache after the stores among the signals. -/
def Storage.after {ε α : Type} (storage : Storage) : List (Signal Effect ε α) → Storage
  | [] => storage
  | .effect (.setObject key object) :: t => (storage.setObject key object).after t
  | _ :: t => storage.after t

/-- `trackState(_:loading:success:failure:)`. -/
def trackState {ρ ε α : Type} (relay : Relay) (loading : Bool := true)
    (success : Option String := none) (failure : ε → Option String := fun _ => none)
    (source : Observable ρ Effect ε α) : Observable ρ Effect ε α :=
  Observable.usingResource (if loading then [.accept relay .loading] else [])
    ((source.doOnNext fun _ => .accept relay (.success success)).catchError fun e =>
      [.effect (.accept relay (.failure (failure e))), .error e])

end MagnetX
