/-
# `MagnetX.MovieDetail.ViewModel` — the view model of a detail screen

`MovieDetail/ViewModel/MovieDetailMovieModel.swift`.  A screen gives `transform` one
target, `getDetails` of its movie's id.  The cached record is shown when the subscription
starts, the record of the answer when it comes; an error completes the stream without a
word.  The screen has two sections with the same record in each.
-/
import MagnetX.Network

namespace MagnetX

open Lib.Rx

structure MovieDetailListModel where
  items : List MovieDetailModel
deriving DecidableEq, Repr

structure MovieDetailViewModel where
  sections : List MovieDetailListModel := []
deriving DecidableEq, Repr

namespace MovieDetailViewModel

/-- The inner observable of `transform`. -/
def detailItems (storage : Storage) (target : MoviesTarget) :
    Observable MoyaResult Effect Empty MovieDetailModel :=
  (requestObject MovieDetailModel storage target).catchErrorJustComplete

/-- The last `map` of `transform`. -/
def showData (_vm : MovieDetailViewModel) (data : MovieDetailModel) : MovieDetailViewModel where
  sections := [⟨[data]⟩, ⟨[data]⟩]

/-- The signals of the inner observable, performed; no relay is among their effects. -/
def deliver : MovieDetailViewModel × Storage →
    List (Signal Effect Empty MovieDetailModel) →
      (MovieDetailViewModel × Storage) × List (List MovieDetailListModel) :=
  consume
    (fun (vm, storage) effect =>
      match effect with
      | .accept _ _ => ((vm, storage), [])
      | .setObject key object => ((vm, storage.setObject key object), []))
    (fun (vm, storage) data => ((showData vm data, storage), [(showData vm data).sections]))

end MovieDetailViewModel

/-- A detail screen: its view model and the request it waits for. -/
structure DetailTransform where
  id : String
  viewModel : MovieDetailViewModel := {}
  waiting : Bool := true
deriving DecidableEq, Repr

namespace DetailTransform

/-- The subscription to a new screen's observable. -/
def bindViewModel (id : String) (storage : Storage) :
    (DetailTransform × Storage) × List (List MovieDetailListModel) :=
  let ((vm, storage'), log) := MovieDetailViewModel.deliver ({}, storage)
    (MovieDetailViewModel.detailItems storage (.getDetails id)).subscribe
  (({ id := id, viewModel := vm }, storage'), log)

/-- The answer to a screen's request. -/
def answer (s : DetailTransform) (storage : Storage) (result : MoyaResult) :
    (DetailTransform × Storage) × List (List MovieDetailListModel) :=
  let ((vm, storage'), log) := MovieDetailViewModel.deliver (s.viewModel, storage)
    ((MovieDetailViewModel.detailItems storage (.getDetails s.id)).answer result)
  (({ s with viewModel := vm, waiting := false }, storage'), log)

/-- Opening a screen leaves the cache as it is. -/
theorem bindViewModel_storage (id : String) (storage : Storage) :
    (bindViewModel id storage).1.2 = storage := by
  simp only [bindViewModel, MovieDetailViewModel.detailItems, Observable.catchErrorJustComplete,
    Observable.catchError, Observable.substitute, requestObject_subscribe]
  cases storage.cachedObject MovieDetailModel (MoviesTarget.getDetails id) with
  | none => rfl
  | some model => rfl

/-- An answer writes no entry of the cache but the screen's own. -/
theorem answer_storage_of_ne (s : DetailTransform) (storage : Storage) (result : MoyaResult)
    {key : String} (hkey : key ≠ cachedKey (MoviesTarget.getDetails s.id)) :
    (s.answer storage result).1.2 key = storage key := by
  simp only [answer, MovieDetailViewModel.detailItems, Observable.catchErrorJustComplete,
    Observable.catchError, Observable.substitute, requestObject_answer]
  cases objectOf MovieDetailModel result with
  | error e => rfl
  | ok model =>
      show (storage.setObject (cachedKey (MoviesTarget.getDetails s.id)) _) key = storage key
      exact Function.update_of_ne hkey _ _

end DetailTransform

end MagnetX
