/-
# `MagnetX.Hot.ViewModel` — the view model of a hot list, as a machine

`Hot/ViewModel/HotViewModel.swift`.  `transform` merges two streams that share the
cursor `startIndex` and the list `sections`:

* `refresh` sets the cursor to 0 and `flatMap`s the trigger to `requestWithResult`; the
  inner observables are merged, so a new refresh cancels nothing;
* `more` adds 20 to the cursor and `flatMapLatest`s the trigger to `mapResult`; a new
  more cancels the one before.

Both inner observables are tracked by `trackState` and end in `catchErrorJustReturn([])`.
An element of `refresh` replaces the sections, one of `more` appends a section.

The machine takes a trigger, or the answer of a request in flight, one at a time: all of
it happens on the main thread.  Its log is what the observers of the two relays and of
`items` are told, and the tasks that go to the network.

`refreshCount` and the `refreshNo` of a request are not in the source: they number the
refresh triggers, so that statements about the order of answers can be made.
-/
import MagnetX.Lib.Machine
import MagnetX.Network

namespace MagnetX

open Lib Lib.Rx

/-! ## The view model -/

inductive HotType where
  | nowPlaying
  | upComing
deriving DecidableEq, Repr

/-- The target both streams make of the type and the cursor. -/
def HotType.target (type : HotType) (startIndex : Nat) : MoviesTarget :=
  if type = .nowPlaying then .getNowPlaying startIndex else .getUpComing startIndex

structure HotMovieListModel where
  items : List HotMovieModel
deriving DecidableEq, Repr

structure HotMovieViewModel where
  startIndex : Nat := 0
  sections : List HotMovieListModel := []
deriving DecidableEq, Repr

namespace HotMovieViewModel

/-! ## The closures of `transform` -/

/-- The first `map` of `refresh`. -/
def resetCursor (vm : HotMovieViewModel) : HotMovieViewModel := { vm with startIndex := 0 }

/-- The first `map` of `more`. -/
def advanceCursor (vm : HotMovieViewModel) : HotMovieViewModel :=
  { vm with startIndex := vm.startIndex + 20 }

/-- The inner observable of `refresh`. -/
def refreshItems (storage : Storage) (target : MoviesTarget) :
    Observable MoyaResult Effect Empty (List HotMovieModel) :=
  (trackState .refreshState false none (fun _ => none)
    (requestWithResult (List HotMovieModel) storage target)).catchErrorJustReturn []

/-- The inner observable of `more`. -/
def moreItems : Observable MoyaResult Effect Empty (List HotMovieModel) :=
  (trackState .moreState false none (fun _ => none)
    (mapResult (List HotMovieModel) none {} request).asObservable).catchErrorJustReturn []

/-- The last `map` of `refresh`. -/
def replaceSections (vm : HotMovieViewModel) (items : List HotMovieModel) : HotMovieViewModel :=
  { vm with sections := [⟨items⟩] }

/-- The last `map` of `more`. -/
def appendSection (vm : HotMovieViewModel) (items : List HotMovieModel) : HotMovieViewModel :=
  { vm with sections := vm.sections ++ [⟨items⟩] }

end HotMovieViewModel

/-! ## The machine -/

/-- An inner observable whose request is in flight. -/
structure Inner where
  refreshNo : Nat
  target : MoviesTarget
deriving DecidableEq, Repr

/-- The view model with its subscriptions. -/
structure Transform where
  viewModel : HotMovieViewModel := {}
  refreshCount : Nat := 0
  refreshes : List Inner := []
  more : Option Inner := none
deriving DecidableEq, Repr

namespace Transform

/-- The trigger that an emission goes back to. -/
inductive Source where
  | refresh (refreshNo : Nat)
  | more
deriving DecidableEq, Repr

inductive Emission where
  | items (source : Source) (sections : List HotMovieListModel)
  | state (source : Source) (relay : Relay) (state : UIState)
  | request (task : Task)
deriving DecidableEq, Repr

inductive Action where
  | refresh
  | more
  | answerRefresh (inner : Inner) (result : MoyaResult)
  | answerMore (inner : Inner) (result : MoyaResult)
deriving Repr

/-- The signals of an inner observable: an effect goes to its relay or to the cache, an
element through the last `map` and on to `items`. -/
def deliver (source : Source) (map : HotMovieViewModel → List HotMovieModel → HotMovieViewModel) :
    HotMovieViewModel × Storage → List (Signal Effect Empty (List HotMovieModel)) →
      (HotMovieViewModel × Storage) × List Emission :=
  consume
    (fun (vm, storage) effect =>
      match effect with
      | .accept relay state => ((vm, storage), [.state source relay state])
      | .setObject key object => ((vm, storage.setObject key object), []))
    (fun (vm, storage) items => ((map vm items, storage), [.items source (map vm items).sections]))

/-- A refresh trigger: what the cache holds is emitted before the request goes out. -/
def onRefresh (type : HotType) (s : Transform) (storage : Storage) :
    (Transform × Storage) × List Emission :=
  let vm := s.viewModel.resetCursor
  let target := type.target vm.startIndex
  let inner : Inner := ⟨s.refreshCount + 1, target⟩
  let ((vm', storage'), log) := deliver (.refresh inner.refreshNo)
    HotMovieViewModel.replaceSections (vm, storage)
    (HotMovieViewModel.refreshItems storage target).subscribe
  (({ viewModel := vm', refreshCount := s.refreshCount + 1,
      refreshes := s.refreshes ++ [inner], more := s.more }, storage'),
    log ++ [.request (NetworkService.taskClosure target)])

/-- A more trigger: `flatMapLatest` drops the request before it. -/
def onMore (type : HotType) (s : Transform) (storage : Storage) :
    (Transform × Storage) × List Emission :=
  let vm := s.viewModel.advanceCursor
  let target := type.target vm.startIndex
  let ((vm', storage'), log) := deliver .more HotMovieViewModel.appendSection (vm, storage)
    HotMovieViewModel.moreItems.subscribe
  (({ s with viewModel := vm', more := some ⟨s.refreshCount, target⟩ }, storage'),
    log ++ [.request (NetworkService.taskClosure target)])

/-- The answer of a refresh; its inner observable is over after it. -/
def onAnswerRefresh (s : Transform) (storage : Storage) (inner : Inner) (result : MoyaResult) :
    (Transform × Storage) × List Emission :=
  let ((vm', storage'), log) := deliver (.refresh inner.refreshNo)
    HotMovieViewModel.replaceSections (s.viewModel, storage)
    ((HotMovieViewModel.refreshItems storage inner.target).answer result)
  (({ s with viewModel := vm', refreshes := s.refreshes.erase inner }, storage'), log)

/-- The answer of the more in flight. -/
def onAnswerMore (s : Transform) (storage : Storage) (result : MoyaResult) :
    (Transform × Storage) × List Emission :=
  let ((vm', storage'), log) := deliver .more HotMovieViewModel.appendSection (s.viewModel, storage)
    (HotMovieViewModel.moreItems.answer result)
  (({ s with viewModel := vm', more := none }, storage'), log)

/-- `transform` for one type.  Only a request in flight can be answered. -/
def machine (type : HotType) : Machine (Transform × Storage) Action Emission where
  step
    | (s, storage), .refresh => some (onRefresh type s storage)
    | (s, storage), .more => some (onMore type s storage)
    | (s, storage), .answerRefresh inner result =>
        if inner ∈ s.refreshes then some (onAnswerRefresh s storage inner result) else none
    | (s, storage), .answerMore inner result =>
        if s.more = some inner then some (onAnswerMore s storage result) else none

/-- No request is in flight. -/
def Idle (s : Transform) : Prop := s.refreshes = [] ∧ s.more = none

instance (s : Transform) : Decidable s.Idle := inferInstanceAs (Decidable (_ ∧ _))

/-- The request of a refresh trigger is in flight. -/
def InFlight (refreshNo : Nat) (s : Transform) : Prop :=
  ∃ inner ∈ s.refreshes, inner.refreshNo = refreshNo

instance (refreshNo : Nat) (s : Transform) : Decidable (s.InFlight refreshNo) :=
  List.decidableBEx ..

/-! ## What a step comes to

The same machine with the pipelines computed: `Step` names every component of the state
after the step, and `step_eq_some_iff` says the machine takes exactly these steps.  The
proofs about runs go through `Step` and open neither `deliver` nor an observable. -/

/-- What is shown for an outcome. -/
def shown : Except PipelineError (List HotMovieModel) → List HotMovieModel
  | .ok items => items
  | .error _ => []

/-- What the relay of a stream is told of an outcome. -/
def stateOf : Except PipelineError (List HotMovieModel) → UIState
  | .ok _ => .success none
  | .error _ => .failure none

/-- The cache after the outcome of a refresh. -/
def stored (storage : Storage) (target : MoviesTarget) :
    Except PipelineError (List HotMovieModel) → Storage
  | .ok items => storage.setObject (cachedKey target) (Cacheable.wrap items)
  | .error _ => storage

/-- What a refresh trigger emits before its request goes out. -/
def cachedEmissions (refreshNo : Nat) : Option (List HotMovieModel) → List Emission
  | none => []
  | some items =>
      [.state (.refresh refreshNo) .refreshState (.success none),
        .items (.refresh refreshNo) [⟨items⟩]]

/-- The sections after a refresh trigger. -/
def cachedSections (sections : List HotMovieListModel) :
    Option (List HotMovieModel) → List HotMovieListModel
  | none => sections
  | some items => [⟨items⟩]

inductive Step (type : HotType) :
    Transform → Storage → Action → Transform → Storage → List Emission → Prop
  | refresh (s : Transform) (storage : Storage) :
      Step type s storage .refresh
        { viewModel := ⟨0, cachedSections s.viewModel.sections
            (storage.cachedObject (List HotMovieModel) (type.target 0))⟩
          refreshCount := s.refreshCount + 1
          refreshes := s.refreshes ++ [⟨s.refreshCount + 1, type.target 0⟩]
          more := s.more }
        storage
        (cachedEmissions (s.refreshCount + 1)
            (storage.cachedObject (List HotMovieModel) (type.target 0)) ++
          [.request (NetworkService.taskClosure (type.target 0))])
  | more (s : Transform) (storage : Storage) :
      Step type s storage .more
        { s with
          viewModel := ⟨s.viewModel.startIndex + 20, s.viewModel.sections⟩
          more := some ⟨s.refreshCount, type.target (s.viewModel.startIndex + 20)⟩ }
        storage
        [.request (NetworkService.taskClosure (type.target (s.viewModel.startIndex + 20)))]
  | answerRefresh (s : Transform) (storage : Storage) (inner : Inner) (result : MoyaResult)
      (hmem : inner ∈ s.refreshes) :
      Step type s storage (.answerRefresh inner result)
        { s with
          viewModel := ⟨s.viewModel.startIndex, [⟨shown (resultOf (List HotMovieModel) result)⟩]⟩
          refreshes := s.refreshes.erase inner }
        (stored storage inner.target (resultOf (List HotMovieModel) result))
        [.state (.refresh inner.refreshNo) .refreshState
            (stateOf (resultOf (List HotMovieModel) result)),
          .items (.refresh inner.refreshNo)
            [⟨shown (resultOf (List HotMovieModel) result)⟩]]
  | answerMore (s : Transform) (storage : Storage) (inner : Inner) (result : MoyaResult)
      (hmore : s.more = some inner) :
      Step type s storage (.answerMore inner result)
        { s with
          viewModel := ⟨s.viewModel.startIndex,
            s.viewModel.sections ++ [⟨shown (mapResultOf (List HotMovieModel) result)⟩]⟩
          more := none }
        storage
        [.state .more .moreState (stateOf (mapResultOf (List HotMovieModel) result)),
          .items .more (s.viewModel.sections ++
            [⟨shown (mapResultOf (List HotMovieModel) result)⟩])]

theorem refreshItems_subscribe (storage : Storage) (target : MoviesTarget) :
    (HotMovieViewModel.refreshItems storage target).subscribe =
      match storage.cachedObject (List HotMovieModel) target with
      | none => []
      | some items => [.effect (.accept .refreshState (.success none)), .next items] := by
  simp only [HotMovieViewModel.refreshItems, trackState, Observable.catchErrorJustReturn,
    Observable.catchError, Observable.substitute, Observable.usingResource,
    Observable.doOnNext, requestWithResult_subscribe]
  cases storage.cachedObject (List HotMovieModel) target with
  | none => rfl
  | some items => rfl

theorem refreshItems_answer (storage : Storage) (target : MoviesTarget) (result : MoyaResult) :
    (HotMovieViewModel.refreshItems storage target).answer result =
      match resultOf (List HotMovieModel) result with
      | .ok items =>
          [.effect (.setObject (cachedKey target) (Cacheable.wrap items)),
            .effect (.accept .refreshState (.success none)), .next items, .completed]
      | .error _ => [.effect (.accept .refreshState (.failure none)), .next [], .completed] := by
  simp only [HotMovieViewModel.refreshItems, trackState, Observable.catchErrorJustReturn,
    Observable.catchError, Observable.substitute, Observable.usingResource,
    Observable.doOnNext, requestWithResult_answer]
  cases resultOf (List HotMovieModel) result with
  | ok items => rfl
  | error e => rfl

theorem moreItems_answer (result : MoyaResult) :
    HotMovieViewModel.moreItems.answer result =
      [.effect (.accept .moreState (stateOf (mapResultOf (List HotMovieModel) result))),
        .next (shown (mapResultOf (List HotMovieModel) result)), .completed] := by
  simp only [HotMovieViewModel.moreItems, trackState, Observable.catchErrorJustReturn,
    Observable.catchError, Observable.substitute, Observable.usingResource,
    Observable.doOnNext, mapResult_answer]
  cases mapResultOf (List HotMovieModel) result with
  | ok items => rfl
  | error e => rfl

/-- The refresh transition, whether the cache has a page or not. -/
theorem step_onRefresh (type : HotType) (s : Transform) (storage : Storage) :
    Step type s storage .refresh (onRefresh type s storage).1.1 (onRefresh type s storage).1.2
      (onRefresh type s storage).2 := by
  have h : Step type s storage .refresh _ _ _ := Step.refresh s storage
  simp only [onRefresh, HotMovieViewModel.resetCursor, refreshItems_subscribe]
  cases hcached : storage.cachedObject (List HotMovieModel) (type.target 0) with
  | none =>
      rw [hcached] at h
      exact h
  | some items =>
      rw [hcached] at h
      exact h

/-- The transition of a refresh's answer, whatever its outcome. -/
theorem step_onAnswerRefresh (type : HotType) {s : Transform} (storage : Storage) {inner : Inner}
    (result : MoyaResult) (hmem : inner ∈ s.refreshes) :
    Step type s storage (.answerRefresh inner result) (onAnswerRefresh s storage inner result).1.1
      (onAnswerRefresh s storage inner result).1.2 (onAnswerRefresh s storage inner result).2 := by
  have h : Step type s storage (.answerRefresh inner result) _ _ _ :=
    Step.answerRefresh s storage inner result hmem
  simp only [onAnswerRefresh, refreshItems_answer]
  cases hresult : resultOf (List HotMovieModel) result with
  | ok items =>
      rw [hresult] at h
      exact h
  | error e =>
      rw [hresult] at h
      exact h

/-- **The machine takes exactly the steps of `Step`.** -/
theorem step_eq_some_iff {type : HotType} {s t : Transform} {storage storage' : Storage}
    {a : Action} {log : List Emission} :
    (machine type).step (s, storage) a = some ((t, storage'), log) ↔
      Step type s storage a t storage' log := by
  constructor
  · intro h
    cases a with
    | refresh =>
        have heq : onRefresh type s storage = ((t, storage'), log) := Option.some.inj h
        have hstep := step_onRefresh type s storage
        rw [heq] at hstep
        exact hstep
    | more =>
        have heq : onMore type s storage = ((t, storage'), log) := Option.some.inj h
        cases heq
        exact Step.more s storage
    | answerRefresh inner result =>
        simp only [machine, Option.ite_none_right_eq_some, Option.some.injEq] at h
        obtain ⟨hmem, heq⟩ := h
        have hstep := step_onAnswerRefresh type storage result hmem
        rw [heq] at hstep
        exact hstep
    | answerMore inner result =>
        simp only [machine, Option.ite_none_right_eq_some, Option.some.injEq] at h
        obtain ⟨hmore, heq⟩ := h
        rw [onAnswerMore, moreItems_answer] at heq
        cases heq
        exact Step.answerMore s storage inner result hmore
  · intro h
    cases h with
    | refresh =>
        show some (onRefresh type s storage) = _
        rw [onRefresh, HotMovieViewModel.resetCursor, refreshItems_subscribe]
        cases storage.cachedObject (List HotMovieModel) (type.target 0) with
        | none => rfl
        | some items => rfl
    | more => rfl
    | answerRefresh inner result hmem =>
        show (if inner ∈ s.refreshes then some (onAnswerRefresh s storage inner result) else none)
          = _
        rw [if_pos hmem, onAnswerRefresh, refreshItems_answer]
        cases resultOf (List HotMovieModel) result with
        | ok items => rfl
        | error e => rfl
    | answerMore inner result hmore =>
        show (if s.more = some inner then some (onAnswerMore s storage result) else none) = _
        rw [if_pos hmore, onAnswerMore, moreItems_answer]
        rfl

/-! ## Requests in flight

What the numbers and targets of the requests in flight look like in a reachable state. -/

structure Numbered (type : HotType) (s : Transform) : Prop where
  refresh_target : ∀ inner ∈ s.refreshes, inner.target = type.target 0
  refresh_pos : ∀ inner ∈ s.refreshes, 0 < inner.refreshNo
  refresh_le : ∀ inner ∈ s.refreshes, inner.refreshNo ≤ s.refreshCount
  refresh_nodup : s.refreshes.Nodup
  more_target : ∀ inner, s.more = some inner → ∃ startIndex, inner.target = type.target startIndex
  more_le : ∀ inner, s.more = some inner → inner.refreshNo ≤ s.refreshCount

theorem numbered_initial (type : HotType) : Numbered type {} where
  refresh_target := by simp
  refresh_pos := by simp
  refresh_le := by simp
  refresh_nodup := by simp
  more_target := by simp
  more_le := by simp

theorem Step.numbered {type : HotType} {s t : Transform} {storage storage' : Storage}
    {a : Action} {log : List Emission} (h : Step type s storage a t storage' log)
    (hs : Numbered type s) : Numbered type t := by
  cases h with
  | refresh =>
      refine ⟨?_, ?_, ?_, ?_, hs.more_target, fun inner h => Nat.le_succ_of_le (hs.more_le inner h)⟩
      · intro inner hinner
        rcases List.mem_append.mp hinner with hold | hnew
        · exact hs.refresh_target inner hold
        · rw [List.mem_singleton.mp hnew]
      · intro inner hinner
        rcases List.mem_append.mp hinner with hold | hnew
        · exact hs.refresh_pos inner hold
        · rw [List.mem_singleton.mp hnew]
          exact Nat.succ_pos _
      · intro inner hinner
        rcases List.mem_append.mp hinner with hold | hnew
        · exact Nat.le_succ_of_le (hs.refresh_le inner hold)
        · cases List.mem_singleton.mp hnew
          exact Nat.le_refl _
      · -- the new number is above every number in flight
        refine List.nodup_append.mpr ⟨hs.refresh_nodup, by simp, ?_⟩
        intro inner hold new hnew heq
        have hle := hs.refresh_le inner hold
        rw [heq, List.mem_singleton.mp hnew] at hle
        exact absurd hle (Nat.not_succ_le_self _)
  | more =>
      refine ⟨hs.refresh_target, hs.refresh_pos, hs.refresh_le, hs.refresh_nodup, ?_, ?_⟩
      · intro inner hinner
        cases hinner
        exact ⟨_, rfl⟩
      · intro inner hinner
        cases hinner
        exact Nat.le_refl _
  | answerRefresh inner result hmem =>
      exact ⟨fun i hi => hs.refresh_target i (List.mem_of_mem_erase hi),
        fun i hi => hs.refresh_pos i (List.mem_of_mem_erase hi),
        fun i hi => hs.refresh_le i (List.mem_of_mem_erase hi),
        hs.refresh_nodup.erase inner, hs.more_target, hs.more_le⟩
  | answerMore inner result hmore =>
      exact ⟨hs.refresh_target, hs.refresh_pos, hs.refresh_le, hs.refresh_nodup, by simp, by simp⟩

theorem numbered_of_run {type : HotType} {storage₀ storage : Storage} {as : List Action}
    {s : Transform} {log : List Emission}
    (hrun : (machine type).run ({}, storage₀) as = some ((s, storage), log)) :
    Numbered type s := by
  refine Machine.invariant (P := fun state _ => Numbered type state.1)
    (numbered_initial type) ?_ hrun
  intro s _ a t o hs hstep
  exact (step_eq_some_iff.mp hstep).numbered hs

/-- What the cache has for the list is never taken out of it. -/
theorem Step.storage_eq_of_uncached {type : HotType} {s t : Transform}
    {storage storage' : Storage} {a : Action} {log : List Emission}
    (h : Step type s storage a t storage' log) (hs : Numbered type s)
    (hnone : storage'.cachedObject (List HotMovieModel) (type.target 0) = none) :
    storage' = storage := by
  cases h with
  | refresh => rfl
  | more => rfl
  | answerRefresh inner result hmem =>
      cases hresult : resultOf (List HotMovieModel) result with
      | error e => rfl
      | ok items =>
          rw [hresult, hs.refresh_target inner hmem] at hnone
          have hsome : (storage.setObject (cachedKey (type.target 0))
              (Cacheable.wrap items)).cachedObject (List HotMovieModel) (type.target 0) =
              some items := Storage.cachedObject_setObject storage (type.target 0) items
          exact absurd (hsome.symm.trans hnone) (by simp)
  | answerMore inner result hmore => rfl

/-! ## Reading the log -/

def Emission.itemsShown : Emission → Option (List HotMovieListModel)
  | .items _ sections => some sections
  | .state _ _ _ | .request _ => none

def Emission.taskSent : Emission → Option Task
  | .request task => some task
  | .items _ _ | .state _ _ _ => none

/-- What the table shows: the last sections emitted, none at first. -/
def displayed (log : List Emission) : List HotMovieListModel :=
  ((log.filterMap Emission.itemsShown).getLast?).getD []

/-- The tasks sent, in order. -/
def requests (log : List Emission) : List Task := log.filterMap Emission.taskSent

theorem displayed_append (log new : List Emission) :
    displayed (log ++ new) =
      ((new.filterMap Emission.itemsShown).getLast?).getD (displayed log) := by
  simp only [displayed, List.filterMap_append, List.getLast?_append]
  cases (new.filterMap Emission.itemsShown).getLast? with
  | none => rfl
  | some sections => rfl

theorem requests_append (log new : List Emission) :
    requests (log ++ new) = requests log ++ requests new :=
  List.filterMap_append ..

/-- The table shows the sections of the view model. -/
theorem Step.displayed {type : HotType} {s t : Transform} {storage storage' : Storage}
    {a : Action} {new : List Emission} (h : Step type s storage a t storage' new)
    {log : List Emission} (hs : displayed log = s.viewModel.sections) :
    displayed (log ++ new) = t.viewModel.sections := by
  rw [displayed_append, hs]
  cases h with
  | refresh =>
      cases storage.cachedObject (List HotMovieModel) (type.target 0) with
      | none => rfl
      | some items => rfl
  | more => rfl
  | answerRefresh inner result hmem => rfl
  | answerMore inner result hmore => rfl

theorem displayed_of_run {type : HotType} {storage₀ storage : Storage} {as : List Action}
    {s : Transform} {log : List Emission}
    (hrun : (machine type).run ({}, storage₀) as = some ((s, storage), log)) :
    displayed log = s.viewModel.sections := by
  refine Machine.invariant (P := fun state log => displayed log = state.1.viewModel.sections)
    rfl ?_ hrun
  intro s log a t o hs hstep
  exact (step_eq_some_iff.mp hstep).displayed hs

/-! ## Sample answers -/

/-- A page with one movie for each id, everything else left out. -/
def samplePage (ids : List String) : MoyaResult :=
  .ok ⟨200, .json (.object [("subjects",
    .array (ids.map fun id => .object [("id", .string id)]))])⟩

/-- What is made of an element of `samplePage`. -/
def sampleMovie (id : String) : HotMovieModel :=
  ⟨"", "", "", "", "", "", id, ⟨"", "", "", ""⟩, [], [], [], ⟨"", "", ""⟩⟩

example : resultOf (List HotMovieModel) (samplePage ["1", "2"]) =
    .ok [sampleMovie "1", sampleMovie "2"] := by rfl

end Transform

end MagnetX
