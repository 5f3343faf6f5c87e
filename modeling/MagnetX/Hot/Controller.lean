/-
# `MagnetX.Hot.Controller` — the refresh controls of a hot list

`HotChildViewController.bindViewModel`: the header's and the footer's `refreshing` events
are the triggers of the view model; each state of `refreshState` ends the header's
refreshing and updates the HUD, each state of `moreState` the footer's.

Of a control it is assumed that it stays refreshing until `endRefreshing`, that it does
not trigger again meanwhile, and that its trigger is handled some time after it starts
refreshing.  The header starts refreshing in `addSubViews`, before anything is bound.

* No control is left refreshing (`controls_end`): one that is has a trigger to be handled
  or a request in flight.
* A refresh ends once and not before its request exactly when the cache has no page for
  it (`refresh_ends_once_iff`).
-/
import MagnetX.Hot.ViewModel

namespace MagnetX

open Lib

inductive ControlState where
  | idle
  | refreshing
deriving DecidableEq, Repr

/-- The two controls of the table. -/
inductive Control where
  | header
  | footer
deriving DecidableEq, Repr

/-- The controller, bound; `refreshTriggers` and `moreTriggers` are the triggers of the
controls that are still to be handled. -/
structure HotChildViewController where
  header : ControlState := .refreshing
  footer : ControlState := .idle
  refreshTriggers : Nat := 1
  moreTriggers : Nat := 0
  transform : Transform := {}
deriving DecidableEq, Repr

namespace HotChildViewController

open Transform (Source Emission Step sampleMovie)

/-! ## The machine -/

inductive Event where
  | reload (source : Source) (sections : List HotMovieListModel)
  | endRefreshing (control : Control) (source : Source)
  | hud (relay : Relay) (source : Source) (state : UIState)
  | request (task : Task)
deriving DecidableEq, Repr

inductive Action where
  | pullHeader
  | pullFooter
  | handleRefresh
  | handleMore
  | answerRefresh (inner : Inner) (result : MoyaResult)
  | answerMore (inner : Inner) (result : MoyaResult)

/-- The control that a relay ends. -/
def controlOf : Relay → Control
  | .refreshState => .header
  | .moreState => .footer

/-- What the bindings do with an emission. -/
def bind : Emission → List Event
  | .items source sections => [.reload source sections]
  | .state source relay state =>
      [.endRefreshing (controlOf relay) source, .hud relay source state]
  | .request task => [.request task]

/-- The controls after an emission. -/
def onEmission (c : HotChildViewController) : Emission → HotChildViewController
  | .state _ .refreshState _ => { c with header := .idle }
  | .state _ .moreState _ => { c with footer := .idle }
  | .items _ _ | .request _ => c

/-- An action of the view model, with the bindings applied to what it emits. -/
def forward (type : HotType) (c : HotChildViewController) (storage : Storage)
    (a : Transform.Action) : Option ((HotChildViewController × Storage) × List Event) :=
  ((Transform.machine type).step (c.transform, storage) a).map fun ((t, storage'), log) =>
    ((log.foldl onEmission { c with transform := t }, storage'), log.flatMap bind)

def machine (type : HotType) : Machine (HotChildViewController × Storage) Action Event where
  step
    | (c, storage), .pullHeader =>
        if c.header = .idle then
          some (({ c with header := .refreshing, refreshTriggers := c.refreshTriggers + 1 },
            storage), [])
        else none
    | (c, storage), .pullFooter =>
        if c.footer = .idle then
          some (({ c with footer := .refreshing, moreTriggers := c.moreTriggers + 1 },
            storage), [])
        else none
    | (c, storage), .handleRefresh =>
        if 0 < c.refreshTriggers then
          forward type { c with refreshTriggers := c.refreshTriggers - 1 } storage .refresh
        else none
    | (c, storage), .handleMore =>
        if 0 < c.moreTriggers then
          forward type { c with moreTriggers := c.moreTriggers - 1 } storage .more
        else none
    | (c, storage), .answerRefresh inner result =>
        forward type c storage (.answerRefresh inner result)
    | (c, storage), .answerMore inner result => forward type c storage (.answerMore inner result)

/-! ## What a step comes to -/

/-- The header after a refresh trigger. -/
def headerAfter (header : ControlState) : Option (List HotMovieModel) → ControlState
  | none => header
  | some _ => .idle

inductive Moves (type : HotType) (c : HotChildViewController) (storage : Storage) :
    Action → HotChildViewController → Storage → List Event → Prop
  | pullHeader (hidle : c.header = .idle) :
      Moves type c storage .pullHeader
        { c with header := .refreshing, refreshTriggers := c.refreshTriggers + 1 } storage []
  | pullFooter (hidle : c.footer = .idle) :
      Moves type c storage .pullFooter
        { c with footer := .refreshing, moreTriggers := c.moreTriggers + 1 } storage []
  | handleRefresh {t : Transform} {storage' : Storage} {log : List Emission}
      (hpos : 0 < c.refreshTriggers)
      (hstep : Step type c.transform storage .refresh t storage' log) :
      Moves type c storage .handleRefresh
        { c with
          header := headerAfter c.header
            (storage.cachedObject (List HotMovieModel) (type.target 0))
          refreshTriggers := c.refreshTriggers - 1
          transform := t }
        storage' (log.flatMap bind)
  | handleMore {t : Transform} {storage' : Storage} {log : List Emission}
      (hpos : 0 < c.moreTriggers)
      (hstep : Step type c.transform storage .more t storage' log) :
      Moves type c storage .handleMore
        { c with moreTriggers := c.moreTriggers - 1, transform := t } storage' (log.flatMap bind)
  | answerRefresh {t : Transform} {storage' : Storage} {log : List Emission} (inner : Inner)
      (result : MoyaResult)
      (hstep : Step type c.transform storage (.answerRefresh inner result) t storage' log) :
      Moves type c storage (.answerRefresh inner result)
        { c with header := .idle, transform := t } storage' (log.flatMap bind)
  | answerMore {t : Transform} {storage' : Storage} {log : List Emission} (inner : Inner)
      (result : MoyaResult)
      (hstep : Step type c.transform storage (.answerMore inner result) t storage' log) :
      Moves type c storage (.answerMore inner result)
        { c with footer := .idle, transform := t } storage' (log.flatMap bind)

theorem forward_eq_some_iff {type : HotType} {c d : HotChildViewController}
    {storage storage' : Storage} {a : Transform.Action} {events : List Event} :
    forward type c storage a = some ((d, storage'), events) ↔
      ∃ t log, Step type c.transform storage a t storage' log ∧
        d = log.foldl onEmission { c with transform := t } ∧ events = log.flatMap bind := by
  rw [forward, Option.map_eq_some_iff]
  constructor
  · rintro ⟨⟨⟨t, storage₁⟩, log⟩, hstep, heq⟩
    cases heq
    exact ⟨t, log, Transform.step_eq_some_iff.mp hstep, rfl, rfl⟩
  · rintro ⟨t, log, hstep, rfl, rfl⟩
    exact ⟨((t, storage'), log), Transform.step_eq_some_iff.mpr hstep, rfl⟩

/-- The machine makes exactly the moves of `Moves`. -/
theorem step_eq_some_iff {type : HotType} {c d : HotChildViewController}
    {storage storage' : Storage} {a : Action} {events : List Event} :
    (machine type).step (c, storage) a = some ((d, storage'), events) ↔
      Moves type c storage a d storage' events := by
  constructor
  · intro h
    cases a with
    | pullHeader =>
        simp only [machine, Option.ite_none_right_eq_some, Option.some.injEq] at h
        obtain ⟨hidle, heq⟩ := h
        cases heq
        exact .pullHeader hidle
    | pullFooter =>
        simp only [machine, Option.ite_none_right_eq_some, Option.some.injEq] at h
        obtain ⟨hidle, heq⟩ := h
        cases heq
        exact .pullFooter hidle
    | handleRefresh =>
        simp only [machine, Option.ite_none_right_eq_some, forward_eq_some_iff] at h
        obtain ⟨hpos, t, log, hstep, rfl, rfl⟩ := h
        have hmove := Moves.handleRefresh hpos hstep
        cases hstep
        cases hcached : storage.cachedObject (List HotMovieModel) (type.target 0) with
        | none =>
            rw [hcached] at hmove
            exact hmove
        | some items =>
            rw [hcached] at hmove
            exact hmove
    | handleMore =>
        simp only [machine, Option.ite_none_right_eq_some, forward_eq_some_iff] at h
        obtain ⟨hpos, t, log, hstep, rfl, rfl⟩ := h
        have hmove := Moves.handleMore hpos hstep
        cases hstep
        exact hmove
    | answerRefresh inner result =>
        obtain ⟨t, log, hstep, rfl, rfl⟩ := forward_eq_some_iff.mp h
        have hmove := Moves.answerRefresh inner result hstep
        cases hstep
        exact hmove
    | answerMore inner result =>
        obtain ⟨t, log, hstep, rfl, rfl⟩ := forward_eq_some_iff.mp h
        have hmove := Moves.answerMore inner result hstep
        cases hstep
        exact hmove
  · intro h
    cases h with
    | pullHeader hidle => exact if_pos hidle
    | pullFooter hidle => exact if_pos hidle
    | handleRefresh hpos hstep =>
        refine (if_pos hpos).trans (forward_eq_some_iff.mpr ⟨_, _, hstep, ?_, rfl⟩)
        cases hstep
        cases storage.cachedObject (List HotMovieModel) (type.target 0) with
        | none => rfl
        | some items => rfl
    | handleMore hpos hstep =>
        refine (if_pos hpos).trans (forward_eq_some_iff.mpr ⟨_, _, hstep, ?_, rfl⟩)
        cases hstep
        rfl
    | answerRefresh inner result hstep =>
        refine forward_eq_some_iff.mpr ⟨_, _, hstep, ?_, rfl⟩
        cases hstep
        rfl
    | answerMore inner result hstep =>
        refine forward_eq_some_iff.mpr ⟨_, _, hstep, ?_, rfl⟩
        cases hstep
        rfl

/-! ## The view model inside -/

/-- The action of the view model in one of the controller. -/
def Action.forwarded : Action → Option Transform.Action
  | .pullHeader | .pullFooter => none
  | .handleRefresh => some .refresh
  | .handleMore => some .more
  | .answerRefresh inner result => some (.answerRefresh inner result)
  | .answerMore inner result => some (.answerMore inner result)

/-- The emission an event comes from; the end of a control is told by the HUD's update. -/
def Event.emission : Event → Option Emission
  | .reload source sections => some (.items source sections)
  | .hud relay source state => some (.state source relay state)
  | .request task => some (.request task)
  | .endRefreshing _ _ => none

theorem filterMap_emission_bind (log : List Emission) :
    (log.flatMap bind).filterMap Event.emission = log := by
  induction log with
  | nil => rfl
  | cons e log ih =>
      rw [List.flatMap_cons, List.filterMap_append, ih]
      cases e with
      | items source sections => rfl
      | state source relay state => rfl
      | request task => rfl

/-- **The controller drives the view model's machine**: what its run does to the view model
is a run of that machine, emission by emission. -/
theorem transform_of_run {type : HotType} {storage₀ storage : Storage} {as : List Action}
    {c : HotChildViewController} {log : List Event}
    (hrun : (machine type).run ({}, storage₀) as = some ((c, storage), log)) :
    (Transform.machine type).run ({}, storage₀) (as.filterMap Action.forwarded) =
      some ((c.transform, storage), log.filterMap Event.emission) := by
  have own : ∀ (s : HotChildViewController × Storage) (t : Transform × Storage) (a : Action)
      (a' : Transform.Action) (s' : HotChildViewController × Storage) (o : List Event),
      (s.1.transform, s.2) = t → a.forwarded = some a' → (machine type).step s a = some (s', o) →
      ∃ t', (Transform.machine type).step t a' = some (t', o.filterMap Event.emission) ∧
        (s'.1.transform, s'.2) = t' := by
    rintro ⟨c, storage⟩ t a a' ⟨d, storage'⟩ o rfl ha hmove
    have key : ∀ {t : Transform} {log : List Emission},
        Step type c.transform storage a' t storage' log →
        ∃ t', (Transform.machine type).step (c.transform, storage) a' =
          some (t', (log.flatMap bind).filterMap Event.emission) ∧ (t, storage') = t' := by
      intro t log hstep
      rw [filterMap_emission_bind]
      exact ⟨_, Transform.step_eq_some_iff.mpr hstep, rfl⟩
    cases step_eq_some_iff.mp hmove with
    | pullHeader hidle => cases ha
    | pullFooter hidle => cases ha
    | handleRefresh hpos hstep => cases ha; exact key hstep
    | handleMore hpos hstep => cases ha; exact key hstep
    | answerRefresh inner result hstep => cases ha; exact key hstep
    | answerMore inner result hstep => cases ha; exact key hstep
  have other : ∀ (s : HotChildViewController × Storage) (t : Transform × Storage) (a : Action)
      (s' : HotChildViewController × Storage) (o : List Event),
      (s.1.transform, s.2) = t → a.forwarded = none → (machine type).step s a = some (s', o) →
      o.filterMap Event.emission = [] ∧ (s'.1.transform, s'.2) = t := by
    rintro ⟨c, storage⟩ t a ⟨d, storage'⟩ o rfl ha hmove
    cases step_eq_some_iff.mp hmove with
    | pullHeader hidle => exact ⟨rfl, rfl⟩
    | pullFooter hidle => exact ⟨rfl, rfl⟩
    | handleRefresh hpos hstep => cases ha
    | handleMore hpos hstep => cases ha
    | answerRefresh inner result hstep => cases ha
    | answerMore inner result hstep => cases ha
  obtain ⟨t, ht, rfl⟩ := Machine.project own other rfl hrun
  exact ht

/-! ## No control is left refreshing -/

/-- A control that is refreshing has a trigger to be handled or a request in flight. -/
structure Driven (c : HotChildViewController) : Prop where
  header : c.header = .refreshing → 0 < c.refreshTriggers ∨ c.transform.refreshes ≠ []
  footer : c.footer = .refreshing → 0 < c.moreTriggers ∨ c.transform.more ≠ none

theorem Moves.driven {type : HotType} {c d : HotChildViewController}
    {storage storage' : Storage} {a : Action} {events : List Event}
    (h : Moves type c storage a d storage' events) (hc : Driven c) : Driven d := by
  cases h with
  | pullHeader hidle => exact ⟨fun _ => .inl (Nat.succ_pos _), hc.footer⟩
  | pullFooter hidle => exact ⟨hc.header, fun _ => .inl (Nat.succ_pos _)⟩
  | handleRefresh hpos hstep =>
      cases hstep
      exact ⟨fun _ => .inr (by simp), hc.footer⟩
  | handleMore hpos hstep =>
      cases hstep
      exact ⟨hc.header, fun _ => .inr (by simp)⟩
  | answerRefresh inner result hstep =>
      -- whatever the outcome, it ends the header
      cases hstep
      exact ⟨fun hrefreshing => (by cases hrefreshing), hc.footer⟩
  | answerMore inner result hstep =>
      cases hstep
      exact ⟨hc.header, fun hrefreshing => (by cases hrefreshing)⟩

/-- **No control is ever left refreshing.** -/
theorem controls_end {type : HotType} {storage₀ storage : Storage} {as : List Action}
    {c : HotChildViewController} {log : List Event}
    (hrun : (machine type).run ({}, storage₀) as = some ((c, storage), log)) :
    (c.refreshTriggers = 0 → c.transform.refreshes = [] → c.header = .idle) ∧
      (c.moreTriggers = 0 → c.transform.more = none → c.footer = .idle) := by
  have hdriven : Driven c := by
    refine Machine.invariant (P := fun state _ => Driven state.1)
      ⟨fun _ => .inl (Nat.succ_pos 0), fun h => by cases h⟩ ?_ hrun
    intro s _ a t o hs hstep
    exact (step_eq_some_iff.mp hstep).driven hs
  constructor
  · intro htriggers hrefreshes
    cases hheader : c.header with
    | idle => rfl
    | refreshing =>
        rcases hdriven.header hheader with hpos | hne
        · omega
        · exact absurd hrefreshes hne
  · intro htriggers hmore
    cases hfooter : c.footer with
    | idle => rfl
    | refreshing =>
        rcases hdriven.footer hfooter with hpos | hne
        · omega
        · exact absurd hmore hne

theorem controls_end_after_failure :
    ∃ c storage log, (machine .nowPlaying).run ({}, fun _ => none)
        [.handleRefresh, .answerRefresh ⟨1, .getNowPlaying 0⟩ (.error (.underlying "offline"))] =
          some ((c, storage), log) ∧ c.header = .idle ∧ c.footer = .idle := by
  have hrun : (machine .nowPlaying).run ({}, fun _ => none)
      [.handleRefresh, .answerRefresh ⟨1, .getNowPlaying 0⟩ (.error (.underlying "offline"))] =
      some ((_, _), _) := rfl
  exact ⟨_, _, _, hrun, (controls_end hrun).1 rfl rfl, (controls_end hrun).2 rfl rfl⟩

/-! ## A refresh ends once -/

def Event.endsHeader (refreshNo : Nat) : Event → Bool
  | .endRefreshing .header (.refresh n) => n == refreshNo
  | _ => false

def Event.updatesHUD (refreshNo : Nat) : Event → Bool
  | .hud .refreshState (.refresh n) _ => n == refreshNo
  | _ => false

/-- How often the header is ended, and how often the HUD is updated, on account of a
refresh trigger. -/
def tally (refreshNo : Nat) (log : List Event) : Nat × Nat :=
  (log.countP (Event.endsHeader refreshNo), log.countP (Event.updatesHUD refreshNo))

theorem tally_append (refreshNo : Nat) (log log' : List Event) :
    tally refreshNo (log ++ log') = ((tally refreshNo log).1 + (tally refreshNo log').1,
      (tally refreshNo log).2 + (tally refreshNo log').2) := by
  simp only [tally, List.countP_append]

/-- What one move adds to the tally. -/
def ending (type : HotType) (refreshNo : Nat) (c : HotChildViewController) (storage : Storage) :
    Action → Nat
  | .handleRefresh =>
      if c.transform.refreshCount + 1 = refreshNo ∧
        (storage.cachedObject (List HotMovieModel) (type.target 0)).isSome then 1 else 0
  | .answerRefresh inner _ => if inner.refreshNo = refreshNo then 1 else 0
  | .pullHeader | .pullFooter | .handleMore | .answerMore _ _ => 0

theorem Moves.tally_eq {type : HotType} {c d : HotChildViewController} {storage storage' : Storage}
    {a : Action} {events : List Event} (h : Moves type c storage a d storage' events)
    (refreshNo : Nat) :
    tally refreshNo events =
      (ending type refreshNo c storage a, ending type refreshNo c storage a) := by
  cases h with
  | pullHeader hidle => rfl
  | pullFooter hidle => rfl
  | handleRefresh hpos hstep =>
      cases hstep
      simp only [ending]
      cases storage.cachedObject (List HotMovieModel) (type.target 0) with
      | none => simp [tally, Transform.cachedEmissions, bind,
          Event.endsHeader, Event.updatesHUD]
      | some items => simp [tally, Transform.cachedEmissions, bind,
          Event.endsHeader, Event.updatesHUD, controlOf, List.countP_cons]
  | handleMore hpos hstep =>
      cases hstep
      rfl
  | answerRefresh inner result hstep =>
      cases hstep
      simp [tally, ending, bind, Event.endsHeader, Event.updatesHUD,
        controlOf, List.countP_cons]
  | answerMore inner result hstep =>
      cases hstep
      rfl

/-- No event is on account of a refresh that is not triggered yet. -/
def TalliedTo (c : HotChildViewController) (log : List Event) : Prop :=
  ∀ refreshNo, c.transform.refreshCount < refreshNo → tally refreshNo log = (0, 0)

/-- While the cache has no page for the list, the header is refreshing exactly when there
is a trigger to handle or a request in flight, and there is at most one of them. -/
def Exclusive (type : HotType) (c : HotChildViewController) (storage : Storage) : Prop :=
  storage.cachedObject (List HotMovieModel) (type.target 0) = none →
    (c.header = .refreshing ∧ c.refreshTriggers + c.transform.refreshes.length = 1) ∨
      (c.header = .idle ∧ c.refreshTriggers = 0 ∧ c.transform.refreshes = [])

section Moving

variable {type : HotType} {c d : HotChildViewController} {storage storage' : Storage}
  {a : Action} {events log : List Event}

theorem Moves.talliedTo (h : Moves type c storage a d storage' events)
    (hnum : Transform.Numbered type c.transform) (hc : TalliedTo c log) :
    TalliedTo d (log ++ events) := by
  intro refreshNo hlt
  have hle : c.transform.refreshCount ≤ d.transform.refreshCount := by
    cases h with
    | pullHeader hidle => exact Nat.le_refl _
    | pullFooter hidle => exact Nat.le_refl _
    | handleRefresh hpos hstep => cases hstep; exact Nat.le_succ _
    | handleMore hpos hstep => cases hstep; exact Nat.le_refl _
    | answerRefresh inner result hstep => cases hstep; exact Nat.le_refl _
    | answerMore inner result hstep => cases hstep; exact Nat.le_refl _
  have hnone : ending type refreshNo c storage a = 0 := by
    cases h with
    | pullHeader hidle => rfl
    | pullFooter hidle => rfl
    | handleRefresh hpos hstep =>
        cases hstep
        exact if_neg fun hnew => absurd hnew.1 (Nat.ne_of_lt hlt)
    | handleMore hpos hstep => rfl
    | answerRefresh inner result hstep =>
        cases hstep with
        | answerRefresh _ _ hmem =>
            have hno : inner.refreshNo ≤ c.transform.refreshCount := hnum.refresh_le inner hmem
            have hlt' : c.transform.refreshCount < refreshNo := hlt
            exact if_neg (Nat.ne_of_lt (Nat.lt_of_le_of_lt hno hlt'))
    | answerMore inner result hstep => rfl
  rw [tally_append, hc refreshNo (Nat.lt_of_le_of_lt hle hlt), h.tally_eq, hnone]
  rfl

theorem Moves.exclusive (h : Moves type c storage a d storage' events)
    (hnum : Transform.Numbered type c.transform) (hc : Exclusive type c storage) :
    Exclusive type d storage' := by
  intro hnone
  cases h with
  | pullHeader hidle =>
      rcases hc hnone with ⟨hrefreshing, -⟩ | ⟨-, htriggers, hrefreshes⟩
      · rw [hidle] at hrefreshing
        cases hrefreshing
      · refine .inl ⟨rfl, ?_⟩
        show c.refreshTriggers + 1 + c.transform.refreshes.length = 1
        rw [htriggers, hrefreshes]
        rfl
  | pullFooter hidle => exact hc hnone
  | handleRefresh hpos hstep =>
      cases hstep
      rcases hc hnone with ⟨hrefreshing, hone⟩ | ⟨-, htriggers, -⟩
      · refine .inl ⟨?_, ?_⟩
        · show headerAfter c.header _ = _
          rw [hnone]
          exact hrefreshing
        · show c.refreshTriggers - 1 + (c.transform.refreshes ++ [_]).length = 1
          rw [List.length_append, List.length_singleton]
          omega
      · omega
  | handleMore hpos hstep =>
      cases hstep
      exact hc hnone
  | answerRefresh inner result hstep =>
      have hstorage := hstep.storage_eq_of_uncached hnum hnone
      rw [hstorage] at hnone
      cases hstep with
      | answerRefresh _ _ hmem =>
          have hpos : 0 < c.transform.refreshes.length := List.length_pos_of_mem hmem
          rcases hc hnone with ⟨-, hone⟩ | ⟨-, -, hrefreshes⟩
          · have hlength : (c.transform.refreshes.erase inner).length = 0 := by
              rw [List.length_erase_of_mem hmem]
              omega
            refine .inr ⟨rfl, ?_, List.eq_nil_of_length_eq_zero hlength⟩
            show c.refreshTriggers = 0
            omega
          · rw [hrefreshes] at hmem
            exact absurd hmem List.not_mem_nil
  | answerMore inner result hstep =>
      cases hstep
      exact hc hnone

/-- Where a refresh stands after its trigger, if the cache had no page for it: the header
waits for its request alone, or it is over and has ended the header once. -/
inductive Once (refreshNo : Nat) (c : HotChildViewController) (log : List Event) : Prop
  | waiting (target : MoviesTarget) (hrefreshes : c.transform.refreshes = [⟨refreshNo, target⟩])
      (hcount : c.transform.refreshCount = refreshNo) (htriggers : c.refreshTriggers = 0)
      (hheader : c.header = .refreshing)
      (htally : tally refreshNo log = (0, 0))
  | ended (hnot : ¬ c.transform.InFlight refreshNo)
      (hcount : refreshNo ≤ c.transform.refreshCount)
      (htally : tally refreshNo log = (1, 1))

theorem Moves.once {refreshNo : Nat} (h : Moves type c storage a d storage' events)
    (hc : Once refreshNo c log) : Once refreshNo d (log ++ events) := by
  have htally' : tally refreshNo (log ++ events) =
      ((tally refreshNo log).1 + ending type refreshNo c storage a,
        (tally refreshNo log).2 + ending type refreshNo c storage a) := by
    rw [tally_append, h.tally_eq]
  cases hc with
  | waiting target hrefreshes hcount htriggers hheader htally =>
      rw [htally] at htally'
      cases h with
      | pullHeader hidle =>
          rw [hheader] at hidle
          cases hidle
      | pullFooter hidle => exact .waiting target hrefreshes hcount htriggers hheader htally'
      | handleRefresh hpos hstep => omega
      | handleMore hpos hstep =>
          cases hstep
          exact .waiting target hrefreshes hcount htriggers hheader htally'
      | answerRefresh inner result hstep =>
          cases hstep with
          | answerRefresh _ _ hmem =>
              -- the one request in flight is the refresh's own
              rw [hrefreshes] at hmem
              have hinner := List.mem_singleton.mp hmem
              refine .ended ?_ (Nat.le_of_eq hcount.symm) ?_
              · rintro ⟨other, hother, -⟩
                have hempty : c.transform.refreshes.erase inner = [] := by
                  rw [hrefreshes, hinner, List.erase_cons_head]
                exact List.not_mem_nil (hempty ▸ hother)
              · rw [htally', hinner]
                simp [ending]
      | answerMore inner result hstep =>
          cases hstep
          exact .waiting target hrefreshes hcount htriggers hheader htally'
  | ended hnot hcount htally =>
      rw [htally] at htally'
      cases h with
      | pullHeader hidle => exact .ended hnot hcount htally'
      | pullFooter hidle => exact .ended hnot hcount htally'
      | handleRefresh hpos hstep =>
          cases hstep
          have hne : c.transform.refreshCount + 1 ≠ refreshNo := by omega
          refine .ended ?_ (Nat.le_succ_of_le hcount) ?_
          · rintro ⟨inner, hinner, hno⟩
            rcases List.mem_append.mp hinner with hold | hnew
            · exact hnot ⟨inner, hold, hno⟩
            · rw [List.mem_singleton.mp hnew] at hno
              exact hne hno
          · rw [htally']
            simp [ending, hne]
      | handleMore hpos hstep =>
          cases hstep
          exact .ended hnot hcount htally'
      | answerRefresh inner result hstep =>
          cases hstep with
          | answerRefresh _ _ hmem =>
              have hne : inner.refreshNo ≠ refreshNo := fun hno => hnot ⟨inner, hmem, hno⟩
              refine .ended ?_ hcount ?_
              · rintro ⟨other, hother, hno⟩
                exact hnot ⟨other, List.mem_of_mem_erase hother, hno⟩
              · rw [htally']
                simp [ending, hne]
      | answerMore inner result hstep =>
          cases hstep
          exact .ended hnot hcount htally'

/-- A trigger handled without a cached page: nothing else is in flight, and the header waits. -/
theorem Moves.once_of_uncached (h : Moves type c storage .handleRefresh d storage' events)
    (htallied : TalliedTo c log) (hc : Exclusive type c storage)
    (hnone : storage.cachedObject (List HotMovieModel) (type.target 0) = none) :
    Once (c.transform.refreshCount + 1) d (log ++ events) := by
  have htally : tally (c.transform.refreshCount + 1) (log ++ events) = (0, 0) := by
    have hending : ending type (c.transform.refreshCount + 1) c storage .handleRefresh = 0 := by
      simp [ending, hnone]
    rw [tally_append, htallied _ (Nat.lt_succ_self _), h.tally_eq, hending]
    rfl
  cases h with
  | handleRefresh hpos hstep =>
      cases hstep
      rcases hc hnone with ⟨hheader, hone⟩ | ⟨-, htriggers, -⟩
      · have hrefreshes : c.transform.refreshes = [] := List.eq_nil_of_length_eq_zero (by omega)
        refine .waiting (type.target 0) ?_ rfl ?_ ?_ htally
        · show c.transform.refreshes ++ [_] = _
          rw [hrefreshes, List.nil_append]
        · show c.refreshTriggers - 1 = 0
          omega
        · show headerAfter c.header _ = _
          rw [hnone]
          exact hheader
      · omega

/-- A trigger handled with a cached page: the header is ended with the request in flight. -/
theorem Moves.not_endsOnce_of_cached (h : Moves type c storage .handleRefresh d storage' events)
    (htallied : TalliedTo c log) {items : List HotMovieModel}
    (hcached : storage.cachedObject (List HotMovieModel) (type.target 0) = some items) :
    (tally (c.transform.refreshCount + 1) (log ++ events)).1 = 1 ∧
      d.transform.InFlight (c.transform.refreshCount + 1) := by
  constructor
  · have hending : ending type (c.transform.refreshCount + 1) c storage .handleRefresh = 1 := by
      simp [ending, hcached]
    rw [tally_append, htallied _ (Nat.lt_succ_self _), h.tally_eq, hending]
    rfl
  · cases h with
    | handleRefresh hpos hstep =>
        cases hstep
        exact ⟨⟨c.transform.refreshCount + 1, type.target 0⟩,
          List.mem_append_right _ (List.mem_singleton_self _), rfl⟩

end Moving

/-- A refresh ends the header and updates the HUD once, when its request is over, and the
header is refreshing until then. -/
structure EndsOnce (refreshNo : Nat) (c : HotChildViewController) (log : List Event) : Prop where
  tally : HotChildViewController.tally refreshNo log =
    if c.transform.InFlight refreshNo then (0, 0) else (1, 1)
  header : c.transform.InFlight refreshNo → c.header = .refreshing

theorem Once.endsOnce {refreshNo : Nat} {c : HotChildViewController} {log : List Event}
    (h : Once refreshNo c log) : EndsOnce refreshNo c log := by
  cases h with
  | waiting target hrefreshes hcount htriggers hheader htally =>
      have hin : c.transform.InFlight refreshNo :=
        ⟨⟨refreshNo, target⟩, by rw [hrefreshes]; exact List.mem_singleton_self _, rfl⟩
      exact ⟨by rw [if_pos hin]; exact htally, fun _ => hheader⟩
  | ended hnot hcount htally =>
      exact ⟨by rw [if_neg hnot]; exact htally, fun hin => absurd hin hnot⟩

/-- What is true of every reachable state before a trigger is handled. -/
theorem exclusive_of_run {type : HotType} {storage₀ storage : Storage} {as : List Action}
    {c : HotChildViewController} {log : List Event}
    (hrun : (machine type).run ({}, storage₀) as = some ((c, storage), log)) :
    TalliedTo c log ∧ Exclusive type c storage := by
  refine (Machine.run_induction (G := fun _ _ => True) (P := fun as state log =>
    Transform.Numbered type state.1.transform ∧ TalliedTo state.1 log ∧
      Exclusive type state.1 state.2)
    ⟨Transform.numbered_initial type, fun _ _ => rfl, fun _ => .inl ⟨rfl, rfl⟩⟩ ?_ hrun
    (Machine.guarded_true as _)).2
  rintro as s log a t o hprefix ⟨hnum, htallied, hexclusive⟩ - hstep
  have h := step_eq_some_iff.mp hstep
  have hnext := transform_of_run (Machine.run_snoc _ hprefix hstep)
  exact ⟨Transform.numbered_of_run hnext, h.talliedTo hnum htallied, h.exclusive hnum hexclusive⟩

/-- **A refresh ends once, when its request ends, exactly when the cache has no page for it
at its trigger.** -/
theorem refresh_ends_once_iff {type : HotType} {storage₀ storage : Storage} {as : List Action}
    {c : HotChildViewController} {log : List Event}
    (hrun : (machine type).run ({}, storage₀) as = some ((c, storage), log))
    (hpos : 0 < c.refreshTriggers) :
    (∀ rest d storage' log',
      (machine type).run (c, storage) (.handleRefresh :: rest) = some ((d, storage'), log') →
      EndsOnce (c.transform.refreshCount + 1) d (log ++ log')) ↔
    storage.cachedObject (List HotMovieModel) (type.target 0) = none := by
  obtain ⟨htallied, hexclusive⟩ := exclusive_of_run hrun
  constructor
  · intro h
    obtain ⟨d, storage', events, hmove⟩ : ∃ d storage' events,
        Moves type c storage .handleRefresh d storage' events :=
      ⟨_, _, _, .handleRefresh hpos (.refresh c.transform storage)⟩
    have hends := h [] d storage' events
      ((Machine.run_singleton ..).trans (step_eq_some_iff.mpr hmove))
    cases hcached : storage.cachedObject (List HotMovieModel) (type.target 0) with
    | none => rfl
    | some items =>
        obtain ⟨htally, hin⟩ := hmove.not_endsOnce_of_cached htallied hcached
        rw [hends.tally, if_pos hin] at htally
        exact absurd htally (by decide)
  · intro hnone rest d storage' log' hrest
    have honce : Once (c.transform.refreshCount + 1) d (log ++ log') := by
      refine Machine.run_induction_from (G := fun _ _ => True) (P := fun _ state events =>
        Once (c.transform.refreshCount + 1) state.1 (log ++ events)) ?_ ?_ hrest
        (Machine.guarded_true _ _)
      · intro d o _ hstep
        exact (step_eq_some_iff.mp hstep).once_of_uncached htallied hexclusive hnone
      · intro _ s events a t o hs _ hstep
        rw [← List.append_assoc]
        exact (step_eq_some_iff.mp hstep).once hs
    exact honce.endsOnce

theorem refresh_ends_once_iff_at_start :
    (∀ rest d storage' log',
      (machine .nowPlaying).run ({}, fun _ => none) (.handleRefresh :: rest) =
        some ((d, storage'), log') → EndsOnce 1 d ([] ++ log')) ↔
    Storage.cachedObject (List HotMovieModel) (fun _ => none) (HotType.nowPlaying.target 0) =
      none :=
  refresh_ends_once_iff (Machine.run_nil (machine .nowPlaying) ({}, fun _ => none)) (by decide)

/-- With a cached page, the first refresh ends the header while its request is in flight. -/
theorem cached_refresh_ends_early :
    ¬ ∀ (type : HotType) (storage₀ storage storage' : Storage) (as rest : List Action)
        (c d : HotChildViewController) (log log' : List Event),
      (machine type).run ({}, storage₀) as = some ((c, storage), log) → 0 < c.refreshTriggers →
      (machine type).run (c, storage) (.handleRefresh :: rest) = some ((d, storage'), log') →
      EndsOnce (c.transform.refreshCount + 1) d (log ++ log') := by
  intro h
  have hrun : (machine .nowPlaying).run ({}, fun _ => some (.movies [sampleMovie "1"])) [] =
      some (({}, _), []) := rfl
  have hrefresh : (machine .nowPlaying).run ({}, fun _ => some (.movies [sampleMovie "1"]))
      [.handleRefresh] =
      some (({ header := .idle, refreshTriggers := 0,
               transform := ⟨⟨0, [⟨[sampleMovie "1"]⟩]⟩, 1, [⟨1, .getNowPlaying 0⟩], none⟩ },
        _), _) := rfl
  have hends := h _ _ _ _ _ _ _ _ _ _ hrun (by decide) hrefresh
  exact absurd (hends.header (by decide)) (by decide)

end HotChildViewController

end MagnetX
