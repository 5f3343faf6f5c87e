/-
# `MagnetX.HUD` — when a tracked subscription takes the spinner down

`trackState` with `loading: true` accepts `.loading` when the subscription starts, and
the HUD shows a spinner (`Extension/Cocoa+Rx/HUD+Rx.swift`).  A subscription ends in
one of three ways, after any number of elements: the source completes, it fails, or the
subscriber disposes.  The operator answers two of the events that can come before that,
an element and an error.  The token that `Observable.using` disposes however the
subscription ends would be the place for the rest, and its `dispose()` is empty.

So the spinner is taken down exactly when the source said something before it ended
(`trackState_settles_iff`).  A source that completes without an element, and a
subscription disposed of before the first one (what `flatMapLatest` does to a request
when the next trigger comes), leave it up.
-/
import MagnetX.Effect

namespace MagnetX

open Lib.Rx

/-! ## Subscriptions from beginning to end -/

/-- How a subscription ends. -/
inductive Ending (ε : Type) where
  | completed
  | error (e : ε)
  | disposed
deriving DecidableEq, Repr

/-- A source as one subscription sees it: its elements up to the end, and the end. -/
structure Lifetime (ε α : Type) where
  elements : List α
  ending : Ending ε
deriving DecidableEq, Repr

variable {ε α : Type}

/-- What the source itself says of its end: nothing when it was the subscriber's doing. -/
def Ending.signals {ω : Type} : Ending ε → List (Signal ω ε α)
  | .completed => [.completed]
  | .error e => [.error e]
  | .disposed => []

def Lifetime.asObservable (source : Lifetime ε α) : Observable Unit Effect ε α where
  subscribe := source.elements.map .next ++ source.ending.signals
  answer _ := []

/-- `UIStateToken.dispose()`. -/
def UIStateToken.dispose : List Effect := []

/-- All that happens between subscribing to the tracked source and the end.  `using`
disposes its token last, whatever the end was. -/
def Lifetime.tracked (relay : Relay) (success : Option String) (failure : ε → Option String)
    (source : Lifetime ε α) : List (Signal Effect ε α) :=
  (trackState relay true success failure source.asObservable).subscribe ++
    UIStateToken.dispose.map .effect

/-- The states a relay accepts, in order. -/
def accepted (relay : Relay) (signals : List (Signal Effect ε α)) : List UIState :=
  signals.filterMap fun
    | .effect (.accept relay' state) => if relay' = relay then some state else none
    | _ => none

/-! ## The HUD -/

def UIState.isSuccess : UIState → Bool
  | .success _ => true
  | _ => false

def UIState.isFailure : UIState → Bool
  | .failure _ => true
  | _ => false

/-- What the HUD shows. -/
inductive HUD where
  | hidden
  | spinner
  | message (info : String)
deriving DecidableEq, Repr

namespace HUD

/-- `HUD.rx.state`: the reaction to one state. -/
def state (hud : HUD) : UIState → HUD
  | .idle => hud
  | .loading => .spinner
  | .success (some info) => .message info
  | .success none => .hidden
  | .failure (some info) => .message info
  | .failure none => .hidden

theorem state_ne_spinner {state : UIState} (h : (state.isSuccess || state.isFailure) = true)
    (hud : HUD) : hud.state state ≠ .spinner := by
  cases state with
  | idle => cases h
  | loading => cases h
  | success info => cases info <;> exact HUD.noConfusion
  | failure info => cases info <;> exact HUD.noConfusion

end HUD

/-- The last state the relay accepted is a terminal one, and the HUD, whatever it
showed before, has left the spinner for it. -/
def Settles (relay : Relay) (hud : HUD) (signals : List (Signal Effect ε α)) : Prop :=
  ((accepted relay signals).getLast?.any fun state => state.isSuccess || state.isFailure) = true ∧
    (accepted relay signals).foldl HUD.state hud ≠ .spinner

instance (relay : Relay) (hud : HUD) (signals : List (Signal Effect ε α)) :
    Decidable (Settles relay hud signals) := inferInstanceAs (Decidable (_ ∧ _))

/-- A log that ends in a terminal state settles. -/
theorem settles_of_accepted {relay : Relay} {signals : List (Signal Effect ε α)}
    (front : List UIState) {last : UIState} (h : accepted relay signals = front ++ [last])
    (hlast : (last.isSuccess || last.isFailure) = true) (hud : HUD) :
    Settles relay hud signals := by
  constructor
  · rw [h, List.getLast?_concat]
    exact hlast
  · rw [h, List.foldl_append]
    exact HUD.state_ne_spinner hlast _

/-! ## What the relay accepts -/

/-- The states `trackState` reports for the end of its source. -/
def Ending.states (failure : ε → Option String) : Ending ε → List UIState
  | .completed => []
  | .error e => [.failure (failure e)]
  | .disposed => []

section Accepted

variable (relay : Relay) (success : Option String) (failure : ε → Option String)

/-- What becomes of one signal of the source. -/
def trackSignal : Signal Effect ε α → List (Signal Effect ε α)
  | .next a => [.effect (.accept relay (.success success)), .next a]
  | .error e => [.effect (.accept relay (.failure (failure e))), .error e]
  | .effect x => [.effect x]
  | .completed => [.completed]

theorem trackState_subscribe (source : Observable Unit Effect ε α) :
    (trackState relay true success failure source).subscribe =
      .effect (.accept relay .loading) ::
        source.subscribe.flatMap (trackSignal relay success failure) := by
  simp only [trackState, Observable.usingResource, Observable.doOnNext, Observable.catchError,
    Observable.substitute, List.flatMap_assoc, if_true, List.map_cons, List.map_nil,
    List.cons_append, List.nil_append]
  congr 1
  refine List.flatMap_congr fun signal _ => ?_
  cases signal <;> rfl

theorem accepted_append (front back : List (Signal Effect ε α)) :
    accepted relay (front ++ back) = accepted relay front ++ accepted relay back :=
  List.filterMap_append ..

/-- The elements of the source, one success each. -/
theorem accepted_elements (elements : List α) :
    accepted relay ((elements.map .next).flatMap (trackSignal relay success failure)) =
      elements.map fun _ => .success success := by
  induction elements with
  | nil => rfl
  | cons a elements ih =>
      rw [List.map_cons, List.flatMap_cons, accepted_append, ih, List.map_cons]
      simp [trackSignal, accepted]

/-- The end of the source. -/
theorem accepted_ending (ending : Ending ε) :
    accepted relay ((ending.signals (α := α)).flatMap (trackSignal relay success failure)) =
      ending.states failure := by
  cases ending <;> simp [Ending.signals, Ending.states, trackSignal, accepted]

/-- **The log of a tracked subscription.**  Loading, a success for each element, and a
failure if the source failed; completion and disposal add nothing. -/
theorem accepted_tracked (source : Lifetime ε α) :
    accepted relay (source.tracked relay success failure) =
      .loading :: source.elements.map (fun _ => .success success) ++
        source.ending.states failure := by
  have hloading : accepted relay [(.effect (.accept relay .loading) : Signal Effect ε α)] =
      [.loading] := by
    simp [accepted]
  have htoken : accepted relay (UIStateToken.dispose.map (Signal.effect (ε := ε) (α := α))) = [] :=
    rfl
  rw [Lifetime.tracked, trackState_subscribe, ← List.singleton_append, accepted_append,
    accepted_append, hloading, htoken, Lifetime.asObservable, List.flatMap_append,
    accepted_append, accepted_elements, accepted_ending, List.append_nil,
    ← List.append_assoc]
  rfl

end Accepted

/-! ## When the spinner goes -/

/-- **A tracked subscription settles exactly when its source said something.**  An
element or an error takes the UI out of loading; without either, neither completion nor
disposal does. -/
theorem trackState_settles_iff (relay : Relay) (success : Option String)
    (failure : ε → Option String) (hud : HUD) (source : Lifetime ε α) :
    Settles relay hud (source.tracked relay success failure) ↔
      source.elements ≠ [] ∨ ∃ e, source.ending = .error e := by
  have hlog := accepted_tracked relay success failure source
  obtain ⟨elements, ending⟩ := source
  constructor
  · intro h
    by_contra hsilent
    rw [not_or, not_not] at hsilent
    obtain ⟨hnone, hend⟩ := hsilent
    have hloading : accepted relay (Lifetime.tracked relay success failure ⟨elements, ending⟩) =
        [.loading] := by
      rw [hlog, hnone]
      cases ending with
      | completed => rfl
      | error e => exact absurd ⟨e, rfl⟩ hend
      | disposed => rfl
    rw [Settles, hloading] at h
    exact h.2 rfl
  · intro h
    rcases List.eq_nil_or_concat elements with rfl | ⟨init, last, rfl⟩
    · rcases h with hne | ⟨e, rfl⟩
      · exact absurd rfl hne
      · exact settles_of_accepted [.loading] hlog rfl hud
    · have hlast : accepted relay (Lifetime.tracked relay success failure
          ⟨init.concat last, ending⟩) =
          (.loading :: init.map fun _ => .success success) ++
            .success success :: ending.states failure := by
        rw [hlog, List.concat_eq_append]
        simp
      cases ending with
      | completed => exact settles_of_accepted _ hlast rfl hud
      | error e => exact settles_of_accepted _ hlog rfl hud
      | disposed => exact settles_of_accepted _ hlast rfl hud

/-- A source that completes empty, and one disposed of before its first element. -/
theorem silent_sources_keep_the_spinner :
    ¬ Settles .refreshState .hidden
        ((⟨[], .completed⟩ : Lifetime Unit Unit).tracked .refreshState none fun _ => none) ∧
      ¬ Settles .refreshState .hidden
        ((⟨[], .disposed⟩ : Lifetime Unit Unit).tracked .refreshState none fun _ => none) := by
  decide

end MagnetX
