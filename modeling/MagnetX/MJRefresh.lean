/-
# `MagnetX.MJRefresh` — the refresh controls themselves

`MJRefreshComponent` and the two subclasses of it on a hot list, `MJRefreshHeader` and
`MJRefreshBackFooter`: the five states, the reactions to scrolling, dragging and drawing,
and what is put off.  `endRefreshing` sets the state in a block on the main queue; entering
the refreshing state starts an animation (the header in a block, the footer at once), and
the callback is run in a block of its own when the animation is over.

`Control.Held` is what a list relies on (`Hot.Controller`): a control that is idle may start
refreshing, which gives one trigger; it is refreshing until it is ended.  Both components
keep to it in every run (`refines_control`), a component that waits for its window included:
the control is started, triggered and finished where the component begins to refresh, makes
the callback and ends.  What a list does to its controls is matched in the same way
(`HotChildViewController.controls_held`).

A component also moves the content out of its way, and puts it back.  The footer puts it
back in every run (`footer_inset_restored`).  The header does in every run in which it does
not start refreshing while an `endRefreshing` of before is still on the queue, and its
animation finds it in a window (`header_inset_restored`); otherwise the inset may stay, as
the run after it shows.

Positions, sizes and the percentage that fades a component are left out.  The inset at its
edge a component changes alone in these runs: the system adjusts none
(`disablesAdjustScrollViewInsets`), and `LTAdvancedManager.scrollInsets`, which sets the
insets of a list when its page is made, is taken to have come before.
-/
import MagnetX.Hot.Controller
import Mathlib.Data.Rat.Floor
import Mathlib.Tactic.Linarith
import Mathlib.Tactic.Ring

namespace MagnetX

open Lib

/-! ## Controls -/

/-- A refresh control, for those who use it: its state, and its triggers to be handled. -/
structure Control.Held where
  state : ControlState := .idle
  triggers : Nat := 0
deriving DecidableEq, Repr

namespace Control.Held

inductive Action where
  | start
  | trigger
  | finish
deriving DecidableEq, Repr

def machine : Machine Control.Held Action Unit where
  step
    | c, .start =>
        if c.state = .idle then some (⟨.refreshing, c.triggers + 1⟩, []) else none
    | c, .trigger =>
        if 0 < c.triggers then some ({ c with triggers := c.triggers - 1 }, [()]) else none
    | c, .finish => some ({ c with state := .idle }, [])

/-- The action that leads from one state to the other. -/
def turn : ControlState → ControlState → List Action
  | .idle, .refreshing => [.start]
  | .refreshing, .idle => [.finish]
  | .idle, .idle | .refreshing, .refreshing => []

/-- What was done to a control that is seen in one state and then in the other, while so
many triggers of it were handled. -/
def between (handled : Nat) (before after : ControlState) : List Action :=
  List.replicate handled .trigger ++ turn before after

/-- Where the state leads, and the trigger that a start gives. -/
theorem run_turn (before after : ControlState) (triggers : Nat) :
    machine.run ⟨before, triggers⟩ (turn before after) =
      some (⟨after, triggers + if before = .idle ∧ after = .refreshing then 1 else 0⟩, []) := by
  cases before <;> cases after <;> rfl

theorem run_start (triggers : Nat) :
    machine.run ⟨.idle, triggers⟩ (between 0 .idle .refreshing) =
      some (⟨.refreshing, triggers + 1⟩, []) := rfl

theorem run_finish (before : ControlState) (triggers : Nat) :
    machine.run ⟨before, triggers⟩ (between 0 before .idle) = some (⟨.idle, triggers⟩, []) := by
  cases before <;> rfl

theorem run_same (held : Control.Held) :
    machine.run held (between 0 held.state held.state) = some (held, []) := by
  obtain ⟨state, triggers⟩ := held
  cases state <;> rfl

/-- A trigger is handled before the state changes. -/
theorem run_trigger {before after : ControlState} {triggers : Nat} {held : Control.Held}
    (hpos : 0 < triggers)
    (hrun : machine.run ⟨before, triggers - 1⟩ (between 0 before after) = some (held, [])) :
    machine.run ⟨before, triggers⟩ (between 1 before after) = some (held, [()]) :=
  machine.run_cons_eq_some.mpr ⟨⟨before, triggers - 1⟩, [()], [], if_pos hpos, hrun, rfl⟩

/-- A trigger for each start, and a start only after the last was finished. -/
theorem run_count {actions : List Action} {held : Control.Held} {triggers : List Unit}
    (hrun : machine.run {} actions = some (held, triggers)) :
    triggers.length + held.triggers = actions.count .start ∧
      actions.count .start ≤ actions.count .finish + 1 := by
  have hcount : triggers.length + held.triggers = actions.count .start ∧
      actions.count .start ≤ actions.count .finish + if held.state = .idle then 0 else 1 := by
    refine Machine.run_induction (G := fun _ _ => True)
      (P := fun actions (held : Control.Held) (triggers : List Unit) =>
        triggers.length + held.triggers = actions.count .start ∧
          actions.count .start ≤ actions.count .finish + if held.state = .idle then 0 else 1)
      (by exact ⟨rfl, Nat.le_refl 0⟩) ?_ hrun (Machine.guarded_true actions _)
    rintro actions held triggers action held' outputs - ⟨htriggers, hstarts⟩ - hstep
    cases action with
    | start =>
        obtain ⟨hidle, heq⟩ := Option.ite_none_right_eq_some.mp hstep
        cases heq
        rw [if_pos hidle] at hstarts
        simp
        omega
    | trigger =>
        obtain ⟨hpos, heq⟩ := Option.ite_none_right_eq_some.mp hstep
        cases heq
        simp
        omega
    | finish =>
        cases hstep
        split at hstarts <;> simp <;> omega
  refine ⟨hcount.1, hcount.2.trans ?_⟩
  split <;> omega

end Control.Held

/-! ## The controls of a hot list -/

namespace HotChildViewController

/-- A control of the list, with its triggers. -/
def held (c : HotChildViewController) : Control → Control.Held
  | .header => ⟨c.header, c.refreshTriggers⟩
  | .footer => ⟨c.footer, c.moreTriggers⟩

/-- The triggers of a control that an action handles. -/
def handled : Control → Action → Nat
  | .header, .handleRefresh => 1
  | .footer, .handleMore => 1
  | _, _ => 0

/-- What an action of the list is to one of its controls. -/
def controlView (control : Control) (s : HotChildViewController × Storage) (action : Action)
    (s' : HotChildViewController × Storage) (_ : List Event) : List Control.Held.Action :=
  Control.Held.between (handled control action) (s.1.held control).state (s'.1.held control).state

theorem step_held {type : HotType} {c d : HotChildViewController} {storage storage' : Storage}
    {action : Action} {events : List Event} (h : Moves type c storage action d storage' events)
    (control : Control) :
    ∃ triggers, Control.Held.machine.run (c.held control)
      (controlView control (c, storage) action (d, storage') events) =
        some (d.held control, triggers) := by
  cases h with
  | pullHeader hidle =>
      cases control with
      | header =>
          refine ⟨[], ?_⟩
          simp only [controlView, held, handled, hidle]
          exact Control.Held.run_start c.refreshTriggers
      | footer => exact ⟨[], Control.Held.run_same _⟩
  | pullFooter hidle =>
      cases control with
      | header => exact ⟨[], Control.Held.run_same _⟩
      | footer =>
          refine ⟨[], ?_⟩
          simp only [controlView, held, handled, hidle]
          exact Control.Held.run_start c.moreTriggers
  | handleRefresh hpos hstep =>
      cases control with
      | header =>
          cases hcached : storage.cachedObject (List HotMovieModel) (type.target 0) with
          | none =>
              exact ⟨[()], Control.Held.run_trigger hpos (Control.Held.run_same ⟨c.header, _⟩)⟩
          | some items =>
              -- the page in the cache ends the refresh at once
              exact ⟨[()], Control.Held.run_trigger hpos (Control.Held.run_finish _ _)⟩
      | footer => exact ⟨[], Control.Held.run_same _⟩
  | handleMore hpos hstep =>
      cases control with
      | header => exact ⟨[], Control.Held.run_same _⟩
      | footer => exact ⟨[()], Control.Held.run_trigger hpos (Control.Held.run_same ⟨c.footer, _⟩)⟩
  | answerRefresh inner result hstep =>
      cases control with
      | header => exact ⟨[], Control.Held.run_finish _ _⟩
      | footer => exact ⟨[], Control.Held.run_same _⟩
  | answerMore inner result hstep =>
      cases control with
      | header => exact ⟨[], Control.Held.run_same _⟩
      | footer => exact ⟨[], Control.Held.run_finish _ _⟩

/-- **What a hot list assumes of its controls**: in every run, each of them is a control that
was started where it was pulled, triggered where a trigger was handled, and finished where
the list ended it. -/
theorem controls_held {type : HotType} {storage storage' : Storage} {actions : List Action}
    {c : HotChildViewController} {events : List Event}
    (hrun : (machine type).run ({}, storage) actions = some ((c, storage'), events))
    (control : Control) :
    ∃ triggers, Control.Held.machine.run (held {} control)
      ((machine type).trace (controlView control) ({}, storage) actions) =
        some (c.held control, triggers) := by
  obtain ⟨held', triggers, hheld, rfl, -⟩ := Machine.simulate
    (N := Control.Held.machine) (V := controlView control)
    (R := fun (s : HotChildViewController × Storage) held' => held' = s.1.held control)
    (L := fun (_ : List Event) (_ : List Unit) => True) trivial (fun _ _ => trivial)
    (fun s held' action s' outputs hR hstep => by
      obtain ⟨triggers, hrun'⟩ := step_held (step_eq_some_iff.mp hstep) control
      exact ⟨_, triggers, hR ▸ hrun', rfl, trivial⟩)
    rfl hrun
  exact ⟨triggers, hheld⟩

end HotChildViewController

/-! ## Components -/

inductive MJRefreshState where
  | idle
  | pulling
  | refreshing
  | willRefresh
  | noMoreData
deriving DecidableEq, Repr

namespace MJRefresh

def MJRefreshHeaderHeight : ℚ := 54

def MJRefreshFooterHeight : ℚ := 44

structure UIScrollView where
  offsetY : ℚ
  insetT : ℚ
  insetB : ℚ
  height : ℚ
  contentH : ℚ
  isDragging : Bool
deriving DecidableEq, Repr

/-- A block on the main queue. -/
inductive Block where
  | setIdle
  | setNoMoreData
  | animate
  | refreshingCallback
deriving DecidableEq, Repr

/-- A component in its scroll view, with the fields of both subclasses, and the animations
that began a refresh and go on. -/
structure MJRefreshComponent where
  scrollView : UIScrollView
  originalInsetT : ℚ
  originalInsetB : ℚ
  state : MJRefreshState := .idle
  hasWindow : Bool := false
  insetTDelta : ℚ := 0
  lastBottomDelta : ℚ := 0
  main : List Block := []
  animations : Nat := 0
deriving DecidableEq, Repr

/-- A component that was just added. -/
def willMoveToSuperview (scrollView : UIScrollView) : MJRefreshComponent where
  scrollView
  originalInsetT := scrollView.insetT
  originalInsetB := scrollView.insetB

namespace MJRefreshComponent

variable (c : MJRefreshComponent)

def isRefreshing : Bool := c.state = .refreshing || c.state = .willRefresh

def setInsetT (insetT : ℚ) : MJRefreshComponent :=
  { c with scrollView := { c.scrollView with insetT } }

def setInsetB (insetB : ℚ) : MJRefreshComponent :=
  { c with scrollView := { c.scrollView with insetB } }

def setOffsetY (offsetY : ℚ) : MJRefreshComponent :=
  { c with scrollView := { c.scrollView with offsetY } }

/-- `_scrollViewOriginalInset = self.scrollView.mj_inset`. -/
def recordInset : MJRefreshComponent :=
  { c with originalInsetT := c.scrollView.insetT, originalInsetB := c.scrollView.insetB }

/-- `beginRefreshing`, with the `setState` of the subclass. -/
def beginRefreshing (setState : MJRefreshState → MJRefreshComponent → MJRefreshComponent) :
    MJRefreshComponent :=
  if c.hasWindow then setState .refreshing c
  else if c.state ≠ .refreshing then setState .willRefresh c
  else c

def drawRect (setState : MJRefreshState → MJRefreshComponent → MJRefreshComponent) :
    MJRefreshComponent :=
  if c.state = .willRefresh then setState .refreshing c else c

end MJRefreshComponent

/-! ## The header -/

namespace MJRefreshHeader

def setState (state : MJRefreshState) (c : MJRefreshComponent) : MJRefreshComponent :=
  if state = c.state then c
  else
    match state with
    | .idle =>
        if c.state ≠ .refreshing then { c with state }
        else { c with state }.setInsetT (c.scrollView.insetT + c.insetTDelta)
    | .refreshing => { c with state, main := c.main ++ [.animate] }
    | .pulling | .willRefresh | .noMoreData => { c with state }

/-- The inset while refreshing: as far down as the content is, within the header. -/
def refreshingInsetT (c : MJRefreshComponent) : ℚ :=
  min (max (-c.scrollView.offsetY) c.originalInsetT) (MJRefreshHeaderHeight + c.originalInsetT)

def scrollViewContentOffsetDidChange (c : MJRefreshComponent) : MJRefreshComponent :=
  if c.state = .refreshing then
    if !c.hasWindow then c
    else
      { c.setInsetT (refreshingInsetT c) with
        insetTDelta := c.originalInsetT - refreshingInsetT c }
  else
    let c := c.recordInset
    let offsetY := c.scrollView.offsetY
    let happenOffsetY := -c.originalInsetT
    if offsetY > happenOffsetY then c
    else
      let normal2pullingOffsetY := happenOffsetY - MJRefreshHeaderHeight
      if c.scrollView.isDragging then
        if c.state = .idle ∧ offsetY < normal2pullingOffsetY then setState .pulling c
        else if c.state = .pulling ∧ offsetY ≥ normal2pullingOffsetY then setState .idle c
        else c
      else if c.state = .pulling then c.beginRefreshing setState
      else c

/-- The block of `setState(.refreshing)`; setting the offset notifies the header. -/
def animate (c : MJRefreshComponent) : MJRefreshComponent :=
  let top := c.originalInsetT + MJRefreshHeaderHeight
  scrollViewContentOffsetDidChange ((c.setInsetT top).setOffsetY (-top))

end MJRefreshHeader

/-! ## The footer -/

namespace MJRefreshBackFooter

def heightForContentBreakView (c : MJRefreshComponent) : ℚ :=
  c.scrollView.contentH - (c.scrollView.height - c.originalInsetB - c.originalInsetT)

def happenOffsetY (c : MJRefreshComponent) : ℚ :=
  let deltaH := heightForContentBreakView c
  if deltaH > 0 then deltaH - c.originalInsetT else -c.originalInsetT

/-- The inset while refreshing. -/
def refreshingInsetB (c : MJRefreshComponent) : ℚ :=
  let bottom := MJRefreshFooterHeight + c.originalInsetB
  let deltaH := heightForContentBreakView c
  if deltaH < 0 then bottom - deltaH else bottom

def setState (state : MJRefreshState) (c : MJRefreshComponent) : MJRefreshComponent :=
  if state = c.state then c
  else
    match state with
    | .noMoreData | .idle =>
        if c.state = .refreshing then
          { c with state }.setInsetB (c.scrollView.insetB - c.lastBottomDelta)
        else { c with state }
    | .refreshing =>
        { (c.setInsetB (refreshingInsetB c)).setOffsetY (happenOffsetY c + MJRefreshFooterHeight)
            with
          state
          lastBottomDelta := refreshingInsetB c - c.scrollView.insetB
          animations := c.animations + 1 }
    | .pulling | .willRefresh => { c with state }

def scrollViewContentOffsetDidChange (c : MJRefreshComponent) : MJRefreshComponent :=
  if c.state = .refreshing then c
  else
    let c := c.recordInset
    let currentOffsetY := c.scrollView.offsetY
    if currentOffsetY ≤ happenOffsetY c then c
    else if c.state = .noMoreData then c
    else if c.scrollView.isDragging then
      let normal2pullingOffsetY := happenOffsetY c + MJRefreshFooterHeight
      if c.state = .idle ∧ currentOffsetY > normal2pullingOffsetY then setState .pulling c
      else if c.state = .pulling ∧ currentOffsetY ≤ normal2pullingOffsetY then setState .idle c
      else c
    else if c.state = .pulling then c.beginRefreshing setState
    else c

end MJRefreshBackFooter

/-! ## The machine -/

inductive Kind where
  | header
  | backFooter
deriving DecidableEq, Repr

def setState : Kind → MJRefreshState → MJRefreshComponent → MJRefreshComponent
  | .header => MJRefreshHeader.setState
  | .backFooter => MJRefreshBackFooter.setState

def scrollViewContentOffsetDidChange : Kind → MJRefreshComponent → MJRefreshComponent
  | .header => MJRefreshHeader.scrollViewContentOffsetDidChange
  | .backFooter => MJRefreshBackFooter.scrollViewContentOffsetDidChange

inductive Action where
  | scroll (offsetY : ℚ) (isDragging : Bool)
  | resize (contentH : ℚ)
  | otherInset (inset : ℚ)
  | moveToWindow (hasWindow : Bool)
  | drawRect
  | beginRefreshing
  | endRefreshing
  | endRefreshingWithNoMoreData
  | resetNoMoreData
  | mainBlock
  | animationCompleted
deriving DecidableEq, Repr

/-- The call of `refreshingBlock`. -/
inductive Output where
  | refreshing
deriving DecidableEq, Repr

/-- The inset at the other edge is the other component's. -/
def setOtherInset : Kind → ℚ → MJRefreshComponent → MJRefreshComponent
  | .header, insetB, c => c.setInsetB insetB
  | .backFooter, insetT, c => c.setInsetT insetT

def step (kind : Kind) (c : MJRefreshComponent) :
    Action → Option (MJRefreshComponent × List Output)
  | .scroll offsetY isDragging =>
      some (scrollViewContentOffsetDidChange kind
        { c with scrollView := { c.scrollView with offsetY, isDragging } }, [])
  | .resize contentH => some ({ c with scrollView := { c.scrollView with contentH } }, [])
  | .otherInset inset => some (setOtherInset kind inset c, [])
  | .moveToWindow hasWindow => some ({ c with hasWindow }, [])
  | .drawRect => some (c.drawRect (setState kind), [])
  | .beginRefreshing => some (c.beginRefreshing (setState kind), [])
  | .endRefreshing => some ({ c with main := c.main ++ [.setIdle] }, [])
  | .endRefreshingWithNoMoreData =>
      match kind with
      | .header => none
      | .backFooter => some ({ c with main := c.main ++ [.setNoMoreData] }, [])
  | .resetNoMoreData =>
      match kind with
      | .header => none
      | .backFooter => some ({ c with main := c.main ++ [.setIdle] }, [])
  | .mainBlock =>
      match c.main with
      | [] => none
      | .setIdle :: main => some (setState kind .idle { c with main }, [])
      | .setNoMoreData :: main => some (setState kind .noMoreData { c with main }, [])
      | .animate :: main =>
          some (MJRefreshHeader.animate { c with main, animations := c.animations + 1 }, [])
      | .refreshingCallback :: main => some ({ c with main }, [.refreshing])
  | .animationCompleted =>
      match c.animations with
      | 0 => none
      | n + 1 => some ({ c with animations := n, main := c.main ++ [.refreshingCallback] }, [])

def machine (kind : Kind) : Machine MJRefreshComponent Action Output where
  step := step kind

/-- A table with nothing in it. -/
def sampleScrollView : UIScrollView where
  offsetY := 0
  insetT := 0
  insetB := 0
  height := 500
  contentH := 0
  isDragging := false

/-! ## A component is a control -/

/-- A block on the way to a callback. -/
def Block.isOnTheWay : Block → Bool
  | .setIdle | .setNoMoreData => false
  | .animate | .refreshingCallback => true

/-- The callbacks that are on their way. -/
def MJRefreshComponent.pending (c : MJRefreshComponent) : Nat :=
  c.main.countP Block.isOnTheWay + c.animations

/-- The callbacks a component will make: those on their way, and the one that waits for the
window. -/
def MJRefreshComponent.owed (c : MJRefreshComponent) : Nat :=
  c.pending + if c.state = .willRefresh then 1 else 0

/-- The state of the control that a component is. -/
def MJRefreshComponent.controlState (c : MJRefreshComponent) : ControlState :=
  if c.isRefreshing then .refreshing else .idle

/-- The control a component is: what the component owes are triggers of the control. -/
structure Refines (c : MJRefreshComponent) (held : Control.Held) : Prop where
  state : held.state = c.controlState
  owed : c.owed ≤ held.triggers

/-- What a step of a component is to the control: a trigger for a callback, a start where the
component begins to refresh and a finish where it ends. -/
def controlView (c : MJRefreshComponent) (_ : Action) (c' : MJRefreshComponent)
    (outputs : List Output) : List Control.Held.Action :=
  Control.Held.between outputs.length c.controlState c'.controlState

/-- The component comes to owe a callback only where it begins to refresh. -/
def Follows (c c' : MJRefreshComponent) : Prop :=
  c'.owed ≤ c.owed + if c.controlState = .idle ∧ c'.controlState = .refreshing then 1 else 0

/-- Then the control can follow it. -/
theorem Follows.run {c c' : MJRefreshComponent} (h : Follows c c') {held : Control.Held}
    (hR : Refines c held) :
    ∃ held', Control.Held.machine.run held
      (Control.Held.between 0 c.controlState c'.controlState) = some (held', []) ∧
        Refines c' held' := by
  obtain ⟨state, triggers⟩ := held
  obtain ⟨rfl, howed⟩ := hR
  exact ⟨_, Control.Held.run_turn .., rfl, h.trans (Nat.add_le_add_right howed _)⟩

namespace Follows

variable {c c' c'' : MJRefreshComponent}

theorem of_eq (hstate : c'.state = c.state) (hpending : c'.pending = c.pending) : Follows c c' := by
  rw [Follows, MJRefreshComponent.owed, MJRefreshComponent.owed, hstate, hpending]
  exact Nat.le_add_right ..

/-- Only the state and the callbacks on their way matter of where a step begins. -/
theorem congr_left (h : Follows c' c'') (hstate : c'.state = c.state)
    (hpending : c'.pending = c.pending) : Follows c c'' := by
  rw [Follows, MJRefreshComponent.owed, MJRefreshComponent.owed, MJRefreshComponent.controlState,
    MJRefreshComponent.isRefreshing] at h ⊢
  rw [hstate, hpending] at h
  exact h

/-- Entering the refreshing state, or the wait for it. -/
theorem begin {state : MJRefreshState} (hstate : state = .refreshing ∨ state = .willRefresh)
    (hne : c.state ≠ state) (hne' : c.state ≠ .refreshing) (hstate' : c'.state = state)
    (hpending : c'.pending = c.pending + if state = .refreshing then 1 else 0) :
    Follows c c' := by
  have howed : c'.owed = c.pending + 1 := by
    rw [MJRefreshComponent.owed, hpending, hstate']
    rcases hstate with rfl | rfl <;> rfl
  rw [Follows, howed, MJRefreshComponent.owed]
  by_cases hwill : c.state = .willRefresh
  · -- the control was started when the wait began
    rw [if_pos hwill]
    exact Nat.le_add_right ..
  · have hidle : c.controlState = .idle := by
      rw [MJRefreshComponent.controlState, MJRefreshComponent.isRefreshing,
        decide_eq_false hne', decide_eq_false hwill]
      rfl
    have hrefreshing : c'.controlState = .refreshing := by
      rw [MJRefreshComponent.controlState, MJRefreshComponent.isRefreshing, hstate']
      rcases hstate with rfl | rfl <;> rfl
    rw [if_neg hwill, if_pos ⟨hidle, hrefreshing⟩]

/-- Being in another state. -/
theorem finish (hstate : c'.isRefreshing = false) (hpending : c'.pending = c.pending) :
    Follows c c' := by
  have hwill : c'.state ≠ .willRefresh := by
    intro hwill
    rw [MJRefreshComponent.isRefreshing, hwill] at hstate
    cases hstate
  rw [Follows, MJRefreshComponent.owed, MJRefreshComponent.owed, hpending, if_neg hwill]
  omega

end Follows

/-- What `setState` does to the state and to the callbacks on their way. -/
theorem setState_spec (kind : Kind) (state : MJRefreshState) (c : MJRefreshComponent) :
    (setState kind state c).state = state ∧
      (setState kind state c).pending =
        c.pending + if state = .refreshing ∧ c.state ≠ state then 1 else 0 := by
  by_cases hsame : state = c.state
  · have hc : setState kind state c = c := by cases kind <;> exact if_pos hsame
    rw [hc, if_neg fun h => h.2 hsame.symm]
    exact ⟨hsame.symm, rfl⟩
  · have hne : c.state ≠ state := fun h => hsame h.symm
    have hbegin : (state = .refreshing ∧ c.state ≠ state) ↔ state = .refreshing :=
      and_iff_left hne
    simp only [hbegin]
    cases kind with
    | header =>
        rw [setState, MJRefreshHeader.setState.eq_def, if_neg hsame]
        cases state with
        | idle =>
            dsimp only
            split <;> exact ⟨rfl, rfl⟩
        | refreshing =>
            refine ⟨rfl, ?_⟩
            simp only [MJRefreshComponent.pending, List.countP_append]
            exact Nat.add_right_comm _ 1 _
        | pulling => exact ⟨rfl, rfl⟩
        | willRefresh => exact ⟨rfl, rfl⟩
        | noMoreData => exact ⟨rfl, rfl⟩
    | backFooter =>
        rw [setState, MJRefreshBackFooter.setState.eq_def, if_neg hsame]
        cases state with
        | refreshing => exact ⟨rfl, rfl⟩
        | idle =>
            dsimp only
            split <;> exact ⟨rfl, rfl⟩
        | noMoreData =>
            dsimp only
            split <;> exact ⟨rfl, rfl⟩
        | pulling => exact ⟨rfl, rfl⟩
        | willRefresh => exact ⟨rfl, rfl⟩

theorem setState_follows (kind : Kind) {state : MJRefreshState} {c : MJRefreshComponent}
    (h : state = .willRefresh → c.state ≠ .refreshing) : Follows c (setState kind state c) := by
  obtain ⟨hstate, hpending⟩ := setState_spec kind state c
  by_cases hsame : c.state = state
  · rw [if_neg fun hc => hc.2 hsame] at hpending
    exact .of_eq (hstate.trans hsame.symm) hpending
  · by_cases hbegin : state = .refreshing ∨ state = .willRefresh
    · refine .begin hbegin hsame ?_ hstate ?_
      · rcases hbegin with rfl | rfl
        · exact hsame
        · exact h rfl
      · rw [hpending]
        congr 1
        exact if_congr (and_iff_left hsame) rfl rfl
    · rw [not_or] at hbegin
      rw [if_neg fun hc => hbegin.1 hc.1] at hpending
      refine .finish ?_ hpending
      rw [MJRefreshComponent.isRefreshing, hstate, decide_eq_false hbegin.1,
        decide_eq_false hbegin.2]
      rfl

theorem beginRefreshing_follows (kind : Kind) (c : MJRefreshComponent) :
    Follows c (c.beginRefreshing (setState kind)) := by
  rw [MJRefreshComponent.beginRefreshing]
  split
  · exact setState_follows kind fun h => MJRefreshState.noConfusion h
  · split
    · rename_i hne
      exact setState_follows kind fun _ => hne
    · exact .of_eq rfl rfl

theorem recordInset_follows (c : MJRefreshComponent) : Follows c c.recordInset := .of_eq rfl rfl

theorem scrollViewContentOffsetDidChange_follows (kind : Kind) (c : MJRefreshComponent) :
    Follows c (scrollViewContentOffsetDidChange kind c) := by
  have hpull : Follows c (setState kind .pulling c.recordInset) :=
    (setState_follows kind fun h => MJRefreshState.noConfusion h).congr_left rfl rfl
  have hidle : Follows c (setState kind .idle c.recordInset) :=
    (setState_follows kind fun h => MJRefreshState.noConfusion h).congr_left rfl rfl
  have hbegin : Follows c (c.recordInset.beginRefreshing (setState kind)) :=
    (beginRefreshing_follows kind c.recordInset).congr_left rfl rfl
  cases kind with
  | header =>
      rw [scrollViewContentOffsetDidChange, MJRefreshHeader.scrollViewContentOffsetDidChange]
      dsimp only
      split
      · split <;> exact .of_eq rfl rfl
      · split
        · exact recordInset_follows c
        · split
          · split
            · exact hpull
            · split
              · exact hidle
              · exact recordInset_follows c
          · split
            · exact hbegin
            · exact recordInset_follows c
  | backFooter =>
      rw [scrollViewContentOffsetDidChange, MJRefreshBackFooter.scrollViewContentOffsetDidChange]
      dsimp only
      split
      · exact .of_eq rfl rfl
      · split
        · exact recordInset_follows c
        · split
          · exact recordInset_follows c
          · split
            · split
              · exact hpull
              · split
                · exact hidle
                · exact recordInset_follows c
            · split
              · exact hbegin
              · exact recordInset_follows c

theorem pending_append (c : MJRefreshComponent) (block : Block) :
    ({ c with main := c.main ++ [block] } : MJRefreshComponent).pending =
      c.pending + if block.isOnTheWay then 1 else 0 := by
  simp only [MJRefreshComponent.pending, List.countP_append, List.countP_singleton]
  exact Nat.add_right_comm ..

theorem pending_of_main {c : MJRefreshComponent} {block : Block} {main : List Block}
    (h : c.main = block :: main) :
    c.pending = ({ c with main } : MJRefreshComponent).pending +
      if block.isOnTheWay then 1 else 0 := by
  simp only [MJRefreshComponent.pending, h, List.countP_cons]
  exact Nat.add_right_comm ..

/-- A step without a callback. -/
theorem step_follows {kind : Kind} {c c' : MJRefreshComponent} {action : Action}
    (h : step kind c action = some (c', [])) : Follows c c' := by
  cases action with
  | scroll offsetY isDragging =>
      cases h
      exact Follows.congr_left (scrollViewContentOffsetDidChange_follows kind _) rfl rfl
  | resize contentH =>
      cases h
      exact .of_eq rfl rfl
  | otherInset inset =>
      cases h
      cases kind <;> exact .of_eq rfl rfl
  | moveToWindow hasWindow =>
      cases h
      exact .of_eq rfl rfl
  | drawRect =>
      cases h
      rw [MJRefreshComponent.drawRect]
      split
      · exact setState_follows kind fun h => MJRefreshState.noConfusion h
      · exact .of_eq rfl rfl
  | beginRefreshing =>
      cases h
      exact beginRefreshing_follows kind c
  | endRefreshing =>
      cases h
      exact .of_eq rfl (pending_append c .setIdle)
  | endRefreshingWithNoMoreData =>
      cases kind with
      | header => cases h
      | backFooter =>
          cases h
          exact .of_eq rfl (pending_append c .setNoMoreData)
  | resetNoMoreData =>
      cases kind with
      | header => cases h
      | backFooter =>
          cases h
          exact .of_eq rfl (pending_append c .setIdle)
  | mainBlock =>
      rw [step] at h
      split at h
      · cases h
      · rename_i main hmain
        cases h
        exact (setState_follows kind fun h => MJRefreshState.noConfusion h).congr_left rfl
          (pending_of_main hmain).symm
      · rename_i main hmain
        cases h
        exact (setState_follows kind fun h => MJRefreshState.noConfusion h).congr_left rfl
          (pending_of_main hmain).symm
      · rename_i main hmain
        cases h
        refine Follows.congr_left (scrollViewContentOffsetDidChange_follows .header _) rfl ?_
        exact (pending_of_main hmain).symm
      · cases h
  | animationCompleted =>
      rw [step] at h
      split at h
      · cases h
      · rename_i n hn
        cases h
        refine .of_eq rfl ?_
        have hone : [Block.refreshingCallback].countP Block.isOnTheWay = 1 := rfl
        simp only [MJRefreshComponent.pending, hn, List.countP_append, hone]
        omega

/-- Only the block of the callback puts anything out. -/
theorem step_callback {kind : Kind} {c c' : MJRefreshComponent} {action : Action}
    {output : Output} {outputs : List Output}
    (h : step kind c action = some (c', output :: outputs)) :
    ∃ main, c.main = .refreshingCallback :: main ∧ c' = { c with main } ∧ outputs = [] := by
  cases action with
  | mainBlock =>
      rw [step] at h
      split at h
      · cases h
      · cases h
      · cases h
      · cases h
      · rename_i main hmain
        cases h
        exact ⟨main, hmain, rfl, rfl⟩
  | animationCompleted =>
      rw [step] at h
      split at h <;> cases h
  | endRefreshingWithNoMoreData => cases kind <;> cases h
  | resetNoMoreData => cases kind <;> cases h
  | scroll offsetY isDragging => cases h
  | resize contentH => cases h
  | otherInset inset => cases h
  | moveToWindow hasWindow => cases h
  | drawRect => cases h
  | beginRefreshing => cases h
  | endRefreshing => cases h

/-- A step of the component is what it is to the control. -/
theorem step_refines {kind : Kind} {c c' : MJRefreshComponent} {held : Control.Held}
    {action : Action} {outputs : List Output} (hR : Refines c held)
    (h : step kind c action = some (c', outputs)) :
    ∃ held' triggers,
      Control.Held.machine.run held (controlView c action c' outputs) = some (held', triggers) ∧
        Refines c' held' ∧ outputs.length = triggers.length := by
  cases outputs with
  | nil =>
      obtain ⟨held', hrun, hR'⟩ := (step_follows h).run hR
      exact ⟨held', [], hrun, hR', rfl⟩
  | cons output outputs =>
      obtain ⟨main, hmain, rfl, rfl⟩ := step_callback h
      have howed : c.owed = ({ c with main } : MJRefreshComponent).owed + 1 := by
        rw [MJRefreshComponent.owed, pending_of_main hmain]
        exact Nat.add_right_comm ..
      have hle : ({ c with main } : MJRefreshComponent).owed + 1 ≤ held.triggers := howed ▸ hR.owed
      have hpos : 0 < held.triggers := Nat.pos_of_ne_zero (by omega)
      refine ⟨⟨held.state, held.triggers - 1⟩, [()], ?_, ⟨hR.state, ?_⟩, rfl⟩
      · rw [controlView, ← show held.state = c.controlState from hR.state,
          ← show held.state = MJRefreshComponent.controlState { c with main } from hR.state]
        exact Control.Held.run_trigger hpos (Control.Held.run_same ⟨held.state, _⟩)
      · exact Nat.le_sub_of_add_le hle

/-- **A component is a control**, in every run: what the steps of the component are to the
control, one after the other, is a run of the control.  It is in the state of the component,
with as many triggers as callbacks were made.  So each callback was made for a beginning of
its own, and no beginning came before the one before was ended. -/
theorem refines_control {kind : Kind} {scrollView : UIScrollView} {actions : List Action}
    {c : MJRefreshComponent} {log : List Output}
    (hrun : (machine kind).run (willMoveToSuperview scrollView) actions = some (c, log)) :
    ∃ held triggers,
      Control.Held.machine.run {}
        ((machine kind).trace controlView (willMoveToSuperview scrollView) actions) =
          some (held, triggers) ∧
      held.state = c.controlState ∧ log.length = triggers.length ∧
      log.length + c.owed ≤
        ((machine kind).trace controlView (willMoveToSuperview scrollView) actions).count .start ∧
      ((machine kind).trace controlView (willMoveToSuperview scrollView) actions).count .start ≤
        ((machine kind).trace controlView (willMoveToSuperview scrollView) actions).count .finish
          + 1 := by
  obtain ⟨held, triggers, hheld, hR, hlength⟩ :=
    Machine.simulate (N := Control.Held.machine) (V := controlView) (R := Refines)
      (L := fun (log : List Output) (triggers : List Unit) => log.length = triggers.length) rfl
      (fun h h' => by rw [List.length_append, List.length_append, h, h'])
      (fun c held a c' outputs hR hstep => step_refines hR hstep)
      (⟨rfl, Nat.le_refl 0⟩ : Refines (willMoveToSuperview scrollView) {}) hrun
  obtain ⟨hcount, hstarts⟩ := Control.Held.run_count hheld
  have howed := hR.owed
  exact ⟨held, triggers, hheld, hR.state, hlength, by omega, hstarts⟩

/-- The header of the table after a refresh. -/
def sampleEnded : MJRefreshComponent where
  scrollView := { sampleScrollView with offsetY := -54 }
  originalInsetT := 0
  originalInsetB := 0
  hasWindow := true
  insetTDelta := -54

theorem run_sampleEnded :
    (machine .header).run (willMoveToSuperview sampleScrollView)
      [.beginRefreshing, .moveToWindow true, .drawRect, .mainBlock, .animationCompleted,
        .mainBlock, .endRefreshing, .mainBlock] = some (sampleEnded, [.refreshing]) := by
  decide +kernel

theorem trace_sampleEnded :
    (machine .header).trace controlView (willMoveToSuperview sampleScrollView)
      [.beginRefreshing, .moveToWindow true, .drawRect, .mainBlock, .animationCompleted,
        .mainBlock, .endRefreshing, .mainBlock] = [.start, .trigger, .finish] := by
  decide +kernel

theorem refines_control_once :
    ∃ held triggers,
      Control.Held.machine.run {} [.start, .trigger, .finish] = some (held, triggers) ∧
      held.state = sampleEnded.controlState ∧ [Output.refreshing].length = triggers.length ∧
      [Output.refreshing].length + sampleEnded.owed ≤
        [Control.Held.Action.start, .trigger, .finish].count .start ∧
      [Control.Held.Action.start, .trigger, .finish].count .start ≤
        [Control.Held.Action.start, .trigger, .finish].count .finish + 1 :=
  trace_sampleEnded ▸ refines_control run_sampleEnded

/-! ## The header's inset -/

/-- The header puts the inset back: outside a refresh it is where it was, and during one the
header knows by how much it moved it, once its animation has begun. -/
structure HeaderKeeps (base : ℚ) (c : MJRefreshComponent) : Prop where
  original : c.originalInsetT = base
  bounds : base ≤ c.scrollView.insetT ∧ c.scrollView.insetT ≤ base + MJRefreshHeaderHeight
  resting : c.state ≠ .refreshing → c.scrollView.insetT = base ∧ .animate ∉ c.main
  refreshing : c.state = .refreshing →
    (∃ front back, c.main = front ++ .animate :: back ∧ (∀ b ∈ front, b = .refreshingCallback) ∧
      .animate ∉ back) ∨
    (.animate ∉ c.main ∧ c.scrollView.insetT + c.insetTDelta = base)
  setNoMoreData : .setNoMoreData ∉ c.main

/-- The action makes the header start refreshing. -/
def Starts (c : MJRefreshComponent) (action : Action) : Prop :=
  c.state ≠ .refreshing ∧
    ((step .header c action).map fun r => r.1.state) = some .refreshing

/-- The animation of the header finds it in a window, and no `endRefreshing` is left from
before when the header starts refreshing. -/
def Undisturbed (c : MJRefreshComponent) (action : Action) : Prop :=
  (action = .mainBlock → c.main.head? = some .animate → c.hasWindow = true) ∧
    (Starts c action → .setIdle ∉ c.main)

instance (c : MJRefreshComponent) (action : Action) : Decidable (Starts c action) :=
  inferInstanceAs (Decidable (_ ∧ _))

instance (c : MJRefreshComponent) (action : Action) : Decidable (Undisturbed c action) :=
  inferInstanceAs (Decidable (_ ∧ _))

namespace HeaderKeeps

variable {base : ℚ} {c : MJRefreshComponent}

/-- A block put on the main queue, the animation's apart. -/
theorem append (h : HeaderKeeps base c) {block : Block} (hanimate : Block.animate ≠ block)
    (hno : Block.setNoMoreData ≠ block) (animations : Nat) :
    HeaderKeeps base { c with animations, main := c.main ++ [block] } := by
  have happend : ∀ {b : Block} {main : List Block}, b ≠ block → b ∉ main → b ∉ main ++ [block] := by
    intro b main hne hnot hmem
    rcases List.mem_append.mp hmem with hmem | hmem
    · exact hnot hmem
    · exact hne (List.mem_singleton.mp hmem)
  refine ⟨h.original, h.bounds, fun hne => ?_, fun hrefreshing => ?_, happend hno h.setNoMoreData⟩
  · exact ⟨(h.resting hne).1, happend hanimate (h.resting hne).2⟩
  · rcases h.refreshing hrefreshing with ⟨front, back, hsplit, hfront, hback⟩ | ⟨hnot, hsum⟩
    · refine .inl ⟨front, back ++ [block], ?_, hfront, happend hanimate hback⟩
      show c.main ++ [block] = _
      rw [hsplit, List.append_assoc, List.cons_append]
    · exact .inr ⟨happend hanimate hnot, hsum⟩

/-- Being set from one state to another, neither of them refreshing. -/
theorem setState_of_ne (h : HeaderKeeps base c) (hne : c.state ≠ .refreshing)
    {state : MJRefreshState} (hne' : state ≠ .refreshing) :
    HeaderKeeps base (setState .header state c) := by
  have hkeeps : HeaderKeeps base { c with state } :=
    ⟨h.original, h.bounds, fun _ => h.resting hne, fun hrefreshing => absurd hrefreshing hne',
      h.setNoMoreData⟩
  rw [setState, MJRefreshHeader.setState.eq_def]
  split
  · exact h
  · cases state with
    | idle => exact hkeeps
    | refreshing => exact absurd rfl hne'
    | pulling => exact hkeeps
    | willRefresh => exact hkeeps
    | noMoreData => exact hkeeps

/-- Starting to refresh. -/
theorem setState_refreshing (h : HeaderKeeps base c) (hne : c.state ≠ .refreshing)
    (hidle : .setIdle ∉ c.main) : HeaderKeeps base (setState .header .refreshing c) := by
  rw [setState, MJRefreshHeader.setState.eq_def, if_neg fun heq => hne heq.symm]
  obtain ⟨hinset, hanimate⟩ := h.resting hne
  refine ⟨h.original, h.bounds, fun hne => absurd rfl hne, fun _ => .inl ⟨c.main, [], rfl, ?_, ?_⟩,
    ?_⟩
  · intro b hb
    cases b with
    | setIdle => exact absurd hb hidle
    | setNoMoreData => exact absurd hb h.setNoMoreData
    | animate => exact absurd hb hanimate
    | refreshingCallback => rfl
  · exact List.not_mem_nil
  · intro hmem
    rcases List.mem_append.mp hmem with hmem | hmem
    · exact h.setNoMoreData hmem
    · cases List.mem_singleton.mp hmem

/-- Ending a refresh. -/
theorem setState_idle (h : HeaderKeeps base c) {main : List Block}
    (hmain : c.main = .setIdle :: main) :
    HeaderKeeps base (setState .header .idle { c with main }) := by
  have hno : .setNoMoreData ∉ main := fun hmem =>
    h.setNoMoreData (hmain ▸ List.mem_cons_of_mem _ hmem)
  have hanimate : .animate ∉ c.main → .animate ∉ main := fun hnot hmem =>
    hnot (hmain ▸ List.mem_cons_of_mem _ hmem)
  by_cases hrefreshing : c.state = .refreshing
  · rcases h.refreshing hrefreshing with ⟨front, back, hsplit, hfront, -⟩ | ⟨hnot, hsum⟩
    · -- an end of before would be ahead of the animation
      rw [hmain] at hsplit
      cases front with
      | nil => cases hsplit
      | cons b front =>
          cases hsplit
          cases hfront _ (List.mem_cons_self ..)
    · rw [setState, MJRefreshHeader.setState.eq_def,
        if_neg fun heq => MJRefreshState.noConfusion (heq.trans hrefreshing)]
      dsimp only
      rw [if_neg fun hne => hne hrefreshing]
      have hbase : c.scrollView.insetT + c.insetTDelta = base := hsum
      refine ⟨h.original, ?_, fun _ => ⟨hbase, hanimate hnot⟩, fun hstate => ?_, hno⟩
      · show base ≤ c.scrollView.insetT + c.insetTDelta ∧
          c.scrollView.insetT + c.insetTDelta ≤ base + MJRefreshHeaderHeight
        rw [hbase, MJRefreshHeaderHeight]
        constructor <;> linarith
      · cases hstate
  · have hkeeps : HeaderKeeps base { c with main } :=
      ⟨h.original, h.bounds,
        fun _ => ⟨(h.resting hrefreshing).1, hanimate (h.resting hrefreshing).2⟩,
        fun hstate => absurd hstate hrefreshing, hno⟩
    exact hkeeps.setState_of_ne hrefreshing fun hstate => by cases hstate

theorem recordInset (h : HeaderKeeps base c) (hne : c.state ≠ .refreshing) :
    HeaderKeeps base c.recordInset :=
  ⟨(h.resting hne).1, h.bounds, h.resting, h.refreshing, h.setNoMoreData⟩

theorem beginRefreshing (h : HeaderKeeps base c)
    (hidle : c.state ≠ .refreshing → (c.beginRefreshing (setState .header)).state = .refreshing →
      .setIdle ∉ c.main) :
    HeaderKeeps base (c.beginRefreshing (setState .header)) := by
  rw [MJRefreshComponent.beginRefreshing] at hidle ⊢
  by_cases hrefreshing : c.state = .refreshing
  · have hsame : setState .header .refreshing c = c := if_pos hrefreshing.symm
    rw [hsame]
    split
    · exact h
    · rw [if_neg fun hne => hne hrefreshing]
      exact h
  · split
    · rename_i hwindow
      rw [if_pos hwindow] at hidle
      exact h.setState_refreshing hrefreshing
        (hidle hrefreshing (setState_spec .header .refreshing c).1)
    · exact h.setState_of_ne hrefreshing fun hstate => by cases hstate

theorem refreshingInsetT_bounds (horiginal : c.originalInsetT = base) :
    base ≤ MJRefreshHeader.refreshingInsetT c ∧
      MJRefreshHeader.refreshingInsetT c ≤ base + MJRefreshHeaderHeight := by
  rw [MJRefreshHeader.refreshingInsetT, horiginal]
  refine ⟨le_min (le_max_right _ _) ?_, (min_le_right _ _).trans (add_comm _ _).le⟩
  rw [MJRefreshHeaderHeight]
  linarith

/-- Scrolling while refreshing, in a window: the inset follows the content, and the header
knows by how much. -/
theorem of_didChange (horiginal : c.originalInsetT = base) (hrefreshing : c.state = .refreshing)
    (hwindow : c.hasWindow = true) (hno : .setNoMoreData ∉ c.main)
    (hmain : (∃ front back, c.main = front ++ .animate :: back ∧
      (∀ b ∈ front, b = .refreshingCallback) ∧ .animate ∉ back) ∨ .animate ∉ c.main) :
    HeaderKeeps base (MJRefreshHeader.scrollViewContentOffsetDidChange c) := by
  rw [MJRefreshHeader.scrollViewContentOffsetDidChange, if_pos hrefreshing,
    if_neg (by simp [hwindow])]
  refine ⟨horiginal, refreshingInsetT_bounds horiginal, fun hne => absurd hrefreshing hne,
    fun _ => hmain.imp_right fun hnot => ⟨hnot, ?_⟩, hno⟩
  show MJRefreshHeader.refreshingInsetT c +
    (c.originalInsetT - MJRefreshHeader.refreshingInsetT c) = base
  rw [horiginal]
  ring

/-- Scrolling while refreshing. -/
theorem didChange_of_refreshing (h : HeaderKeeps base c) (hrefreshing : c.state = .refreshing) :
    HeaderKeeps base (MJRefreshHeader.scrollViewContentOffsetDidChange c) := by
  cases hwindow : c.hasWindow with
  | false =>
      rw [MJRefreshHeader.scrollViewContentOffsetDidChange, if_pos hrefreshing,
        if_pos (by simp [hwindow])]
      exact h
  | true =>
      exact of_didChange h.original hrefreshing hwindow h.setNoMoreData
        ((h.refreshing hrefreshing).imp_right And.left)

theorem didChange (h : HeaderKeeps base c)
    (hidle : c.state ≠ .refreshing →
      (MJRefreshHeader.scrollViewContentOffsetDidChange c).state = .refreshing →
      .setIdle ∉ c.main) :
    HeaderKeeps base (MJRefreshHeader.scrollViewContentOffsetDidChange c) := by
  by_cases hrefreshing : c.state = .refreshing
  · exact h.didChange_of_refreshing hrefreshing
  · have hrecord := h.recordInset hrefreshing
    have hpull := hrecord.setState_of_ne hrefreshing
      (fun hstate => MJRefreshState.noConfusion hstate : MJRefreshState.pulling ≠ .refreshing)
    have hback := hrecord.setState_of_ne hrefreshing
      (fun hstate => MJRefreshState.noConfusion hstate : MJRefreshState.idle ≠ .refreshing)
    rw [MJRefreshHeader.scrollViewContentOffsetDidChange, if_neg hrefreshing] at hidle ⊢
    dsimp only at hidle ⊢
    split
    · exact hrecord
    · rename_i hin
      rw [if_neg hin] at hidle
      split
      · split
        · exact hpull
        · split
          · exact hback
          · exact hrecord
      · rename_i hdragging
        rw [if_neg hdragging] at hidle
        split
        · rename_i hpulling
          rw [if_pos hpulling] at hidle
          exact hrecord.beginRefreshing hidle
        · exact hrecord

end HeaderKeeps

/-- Taking a callback from the queue. -/
theorem HeaderKeeps.callback {base : ℚ} {c : MJRefreshComponent} (h : HeaderKeeps base c)
    {main : List Block} (hmain : c.main = .refreshingCallback :: main) :
    HeaderKeeps base { c with main } := by
  have hmem : ∀ {block}, block ∉ c.main → block ∉ main := fun hnot hmem =>
    hnot (hmain ▸ List.mem_cons_of_mem _ hmem)
  refine ⟨h.original, h.bounds, fun hne => ⟨(h.resting hne).1, hmem (h.resting hne).2⟩,
    fun hrefreshing => ?_, hmem h.setNoMoreData⟩
  rcases h.refreshing hrefreshing with ⟨front, back, hsplit, hfront, hback⟩ | ⟨hnot, hsum⟩
  · rw [hmain] at hsplit
    cases front with
    | nil => cases hsplit
    | cons b front =>
        cases hsplit
        exact .inl ⟨front, back, rfl, fun b hb => hfront b (List.mem_cons_of_mem _ hb), hback⟩
  · exact .inr ⟨hmem hnot, hsum⟩

/-- The animation: the header knows by how much it has moved the inset. -/
theorem HeaderKeeps.animate {base : ℚ} {c : MJRefreshComponent} (h : HeaderKeeps base c)
    {main : List Block} (hmain : c.main = .animate :: main) (hwindow : c.hasWindow = true)
    (animations : Nat) :
    HeaderKeeps base (MJRefreshHeader.animate { c with main, animations }) := by
  have hrefreshing : c.state = .refreshing := by
    by_contra hne
    exact (h.resting hne).2 (hmain ▸ List.mem_cons_self ..)
  have hnot : .animate ∉ main := by
    rcases h.refreshing hrefreshing with ⟨front, back, hsplit, hfront, hback⟩ | ⟨hnot, -⟩
    · rw [hmain] at hsplit
      cases front with
      | nil =>
          cases hsplit
          exact hback
      | cons b front =>
          cases hsplit
          cases hfront _ (List.mem_cons_self ..)
    · exact absurd (hmain ▸ List.mem_cons_self ..) hnot
  have hno : .setNoMoreData ∉ main := fun hmem =>
    h.setNoMoreData (hmain ▸ List.mem_cons_of_mem _ hmem)
  exact HeaderKeeps.of_didChange (c := (MJRefreshComponent.setInsetT { c with main, animations }
    (c.originalInsetT + MJRefreshHeaderHeight)).setOffsetY
      (-(c.originalInsetT + MJRefreshHeaderHeight))) h.original hrefreshing hwindow hno (.inr hnot)

/-- What a step keeps. -/
theorem headerKeeps_step {base : ℚ} {c c' : MJRefreshComponent} {action : Action}
    {outputs : List Output} (h : HeaderKeeps base c) (hguard : Undisturbed c action)
    (hstep : step .header c action = some (c', outputs)) : HeaderKeeps base c' := by
  have hbegin : c.state ≠ .refreshing → c'.state = .refreshing → .setIdle ∉ c.main :=
    fun hne hstate => hguard.2 ⟨hne, by rw [hstep, Option.map_some, hstate]⟩
  cases action with
  | scroll offsetY isDragging =>
      cases hstep
      exact HeaderKeeps.didChange ⟨h.original, h.bounds, h.resting, h.refreshing, h.setNoMoreData⟩
        hbegin
  | resize contentH =>
      cases hstep
      exact ⟨h.original, h.bounds, h.resting, h.refreshing, h.setNoMoreData⟩
  | otherInset inset =>
      cases hstep
      exact ⟨h.original, h.bounds, h.resting, h.refreshing, h.setNoMoreData⟩
  | moveToWindow hasWindow =>
      cases hstep
      exact ⟨h.original, h.bounds, h.resting, h.refreshing, h.setNoMoreData⟩
  | drawRect =>
      cases hstep
      rw [MJRefreshComponent.drawRect] at hbegin ⊢
      split
      · rename_i hwill
        have hne : c.state ≠ .refreshing := by
          rw [hwill]
          exact fun hstate => by cases hstate
        rw [if_pos hwill] at hbegin
        exact h.setState_refreshing hne (hbegin hne (setState_spec .header .refreshing c).1)
      · exact h
  | beginRefreshing =>
      cases hstep
      exact h.beginRefreshing hbegin
  | endRefreshing =>
      cases hstep
      exact h.append Block.noConfusion Block.noConfusion c.animations
  | endRefreshingWithNoMoreData => cases hstep
  | resetNoMoreData => cases hstep
  | mainBlock =>
      rw [step] at hstep
      split at hstep
      · cases hstep
      · rename_i main hmain
        cases hstep
        exact h.setState_idle hmain
      · rename_i main hmain
        exact absurd (hmain ▸ List.mem_cons_self ..) h.setNoMoreData
      · rename_i main hmain
        cases hstep
        exact h.animate hmain (hguard.1 rfl (by rw [hmain, List.head?_cons])) _
      · rename_i main hmain
        cases hstep
        exact h.callback hmain
  | animationCompleted =>
      rw [step] at hstep
      split at hstep
      · cases hstep
      · cases hstep
        exact h.append Block.noConfusion Block.noConfusion _

/-- **The header puts the inset back.**  Whenever it is not refreshing the inset at the top is
what it was at first, and while it is refreshing the inset is no larger than by the header. -/
theorem header_inset_restored {scrollView : UIScrollView} {actions : List Action}
    {c : MJRefreshComponent} {log : List Output}
    (hrun : (machine .header).run (willMoveToSuperview scrollView) actions = some (c, log))
    (hguard : (machine .header).Guarded Undisturbed (willMoveToSuperview scrollView) actions) :
    (c.state ≠ .refreshing → c.scrollView.insetT = scrollView.insetT) ∧
      scrollView.insetT ≤ c.scrollView.insetT ∧
      c.scrollView.insetT ≤ scrollView.insetT + MJRefreshHeaderHeight := by
  have hinit : HeaderKeeps scrollView.insetT (willMoveToSuperview scrollView) := by
    refine ⟨rfl, ⟨le_refl _, ?_⟩, fun _ => ⟨rfl, List.not_mem_nil⟩, fun hstate => ?_,
      List.not_mem_nil⟩
    · show scrollView.insetT ≤ scrollView.insetT + MJRefreshHeaderHeight
      rw [MJRefreshHeaderHeight]
      linarith
    · cases hstate
  have hkeeps : HeaderKeeps scrollView.insetT c :=
    Machine.run_induction (P := fun _ c _ => HeaderKeeps scrollView.insetT c) hinit
      (fun _ _ _ _ _ _ _ h hguard hstep => headerKeeps_step h hguard hstep) hrun hguard
  exact ⟨fun hne => (hkeeps.resting hne).1, hkeeps.bounds⟩

theorem header_inset_restored_once :
    sampleEnded.scrollView.insetT = sampleScrollView.insetT ∧
      sampleScrollView.insetT ≤ sampleEnded.scrollView.insetT ∧
      sampleEnded.scrollView.insetT ≤ sampleScrollView.insetT + MJRefreshHeaderHeight := by
  obtain ⟨hrestored, hbounds⟩ := header_inset_restored run_sampleEnded (by decide +kernel)
  exact ⟨hrestored (by decide), hbounds⟩

/-- An `endRefreshing` of before ends the refresh ahead of its animation, and the inset
stays. -/
example :
    ((machine .header).run (willMoveToSuperview sampleScrollView)
      [.moveToWindow true, .endRefreshing, .beginRefreshing, .mainBlock, .mainBlock,
        .animationCompleted, .mainBlock]).map (fun r => (r.1.state, r.1.scrollView.insetT)) =
      some (.idle, 54) := by decide +kernel

/-! ## The footer's inset -/

/-- The footer puts the inset back. -/
structure FooterKeeps (base : ℚ) (c : MJRefreshComponent) : Prop where
  original : c.originalInsetB = base
  resting : c.state ≠ .refreshing → c.scrollView.insetB = base
  refreshing : c.state = .refreshing →
    c.scrollView.insetB = base + c.lastBottomDelta ∧
      base + MJRefreshFooterHeight ≤ c.scrollView.insetB
  animate : .animate ∉ c.main

namespace FooterKeeps

variable {base : ℚ} {c : MJRefreshComponent}

theorem setState (h : FooterKeeps base c) {state : MJRefreshState}
    (hrefreshing : c.state = .refreshing → state = .idle ∨ state = .noMoreData ∨ state = .refreshing) :
    FooterKeeps base (setState .backFooter state c) := by
  have hrest : c.state ≠ .refreshing → state ≠ .refreshing → FooterKeeps base { c with state } :=
    fun hne hne' =>
      ⟨h.original, fun _ => h.resting hne, fun hstate => absurd hstate hne', h.animate⟩
  have hend : c.state = .refreshing → state ≠ .refreshing → FooterKeeps base
      ({ c with state }.setInsetB (c.scrollView.insetB - c.lastBottomDelta)) := by
    intro hstate hne
    refine ⟨h.original, fun _ => ?_, fun hstate => absurd hstate hne, h.animate⟩
    show c.scrollView.insetB - c.lastBottomDelta = base
    rw [(h.refreshing hstate).1]
    ring
  rw [MJRefresh.setState, MJRefreshBackFooter.setState.eq_def]
  split
  · exact h
  · rename_i hsame
    cases state with
    | idle =>
        dsimp only
        split
        · rename_i hstate
          exact hend hstate fun hne => by cases hne
        · rename_i hne
          exact hrest hne fun hne => by cases hne
    | noMoreData =>
        dsimp only
        split
        · rename_i hstate
          exact hend hstate fun hne => by cases hne
        · rename_i hne
          exact hrest hne fun hne => by cases hne
    | refreshing =>
        have hne : c.state ≠ .refreshing := fun hstate => hsame hstate.symm
        have hinset := h.resting hne
        refine ⟨h.original, fun hne => absurd rfl hne, fun _ => ⟨?_, ?_⟩, h.animate⟩
        · show MJRefreshBackFooter.refreshingInsetB c =
            base + (MJRefreshBackFooter.refreshingInsetB c - c.scrollView.insetB)
          rw [hinset]
          ring
        · show base + MJRefreshFooterHeight ≤ MJRefreshBackFooter.refreshingInsetB c
          rw [MJRefreshBackFooter.refreshingInsetB, h.original]
          split <;> linarith
    | pulling =>
        refine hrest (fun hstate => ?_) fun hne => by cases hne
        rcases hrefreshing hstate with hidle | hno | hre <;> cases ‹_›
    | willRefresh =>
        refine hrest (fun hstate => ?_) fun hne => by cases hne
        rcases hrefreshing hstate with hidle | hno | hre <;> cases ‹_›

theorem beginRefreshing (h : FooterKeeps base c) :
    FooterKeeps base (c.beginRefreshing (MJRefresh.setState .backFooter)) := by
  rw [MJRefreshComponent.beginRefreshing]
  split
  · exact h.setState fun _ => .inr (.inr rfl)
  · split
    · rename_i hne
      exact h.setState fun hstate => absurd hstate hne
    · exact h

theorem didChange (h : FooterKeeps base c) :
    FooterKeeps base (MJRefreshBackFooter.scrollViewContentOffsetDidChange c) := by
  rw [MJRefreshBackFooter.scrollViewContentOffsetDidChange]
  by_cases hrefreshing : c.state = .refreshing
  · rw [if_pos hrefreshing]
    exact h
  · rw [if_neg hrefreshing]
    have hrecord : FooterKeeps base c.recordInset :=
      ⟨h.resting hrefreshing, h.resting, h.refreshing, h.animate⟩
    have hset : ∀ state, FooterKeeps base (MJRefresh.setState .backFooter state c.recordInset) :=
      fun state => hrecord.setState fun hstate => absurd hstate hrefreshing
    dsimp only
    split
    · exact hrecord
    · split
      · exact hrecord
      · split
        · split
          · exact hset .pulling
          · split
            · exact hset .idle
            · exact hrecord
        · split
          · exact hrecord.beginRefreshing
          · exact hrecord

end FooterKeeps

theorem footerKeeps_step {base : ℚ} {c c' : MJRefreshComponent} {action : Action}
    {outputs : List Output} (h : FooterKeeps base c)
    (hstep : step .backFooter c action = some (c', outputs)) : FooterKeeps base c' := by
  have hmain : ∀ block, block ≠ .animate →
      FooterKeeps base { c with main := c.main ++ [block] } := by
    intro block hne
    refine ⟨h.original, h.resting, h.refreshing, fun hmem => ?_⟩
    rcases List.mem_append.mp hmem with hmem | hmem
    · exact h.animate hmem
    · exact hne (List.mem_singleton.mp hmem).symm
  have htail : ∀ {block main}, c.main = block :: main → FooterKeeps base { c with main } :=
    fun hmain => ⟨h.original, h.resting, h.refreshing, fun hmem =>
      h.animate (hmain ▸ List.mem_cons_of_mem _ hmem)⟩
  cases action with
  | scroll offsetY isDragging =>
      cases hstep
      exact FooterKeeps.didChange ⟨h.original, h.resting, h.refreshing, h.animate⟩
  | resize contentH =>
      cases hstep
      exact ⟨h.original, h.resting, h.refreshing, h.animate⟩
  | otherInset inset =>
      cases hstep
      exact ⟨h.original, h.resting, h.refreshing, h.animate⟩
  | moveToWindow hasWindow =>
      cases hstep
      exact ⟨h.original, h.resting, h.refreshing, h.animate⟩
  | drawRect =>
      cases hstep
      rw [MJRefreshComponent.drawRect]
      split
      · exact h.setState fun _ => .inr (.inr rfl)
      · exact h
  | beginRefreshing =>
      cases hstep
      exact h.beginRefreshing
  | endRefreshing =>
      cases hstep
      exact hmain _ fun heq => by cases heq
  | endRefreshingWithNoMoreData =>
      cases hstep
      exact hmain _ fun heq => by cases heq
  | resetNoMoreData =>
      cases hstep
      exact hmain _ fun heq => by cases heq
  | mainBlock =>
      rw [step] at hstep
      split at hstep
      · cases hstep
      · rename_i main heq
        cases hstep
        exact (htail heq).setState fun _ => .inl rfl
      · rename_i main heq
        cases hstep
        exact (htail heq).setState fun _ => .inr (.inl rfl)
      · rename_i main heq
        exact absurd (heq ▸ List.mem_cons_self ..) h.animate
      · rename_i main heq
        cases hstep
        exact htail heq
  | animationCompleted =>
      rw [step] at hstep
      split at hstep
      · cases hstep
      · cases hstep
        have hkeeps := hmain .refreshingCallback fun heq => by cases heq
        exact ⟨hkeeps.original, hkeeps.resting, hkeeps.refreshing, hkeeps.animate⟩

/-- **The footer puts the inset back**, in every run; while it is refreshing it has made room
for itself at least. -/
theorem footer_inset_restored {scrollView : UIScrollView} {actions : List Action}
    {c : MJRefreshComponent} {log : List Output}
    (hrun : (machine .backFooter).run (willMoveToSuperview scrollView) actions = some (c, log)) :
    (c.state ≠ .refreshing → c.scrollView.insetB = scrollView.insetB) ∧
      (c.state = .refreshing →
        scrollView.insetB + MJRefreshFooterHeight ≤ c.scrollView.insetB) := by
  have hinit : FooterKeeps scrollView.insetB (willMoveToSuperview scrollView) :=
    ⟨rfl, fun _ => rfl, fun hstate => (by cases hstate), List.not_mem_nil⟩
  have hkeeps : FooterKeeps scrollView.insetB c :=
    Machine.invariant (P := fun c _ => FooterKeeps scrollView.insetB c) hinit
      (fun _ _ _ _ _ h hstep => footerKeeps_step h hstep) hrun
  exact ⟨hkeeps.resting, fun hstate => (hkeeps.refreshing hstate).2⟩

/-- The footer of the table, after a refresh. -/
def sampleRefreshed : MJRefreshComponent where
  scrollView := { sampleScrollView with offsetY := 44 }
  originalInsetT := 0
  originalInsetB := 0
  hasWindow := true
  lastBottomDelta := 544

theorem footer_inset_restored_once :
    sampleRefreshed.scrollView.insetB = sampleScrollView.insetB ∧
      ∃ c, (machine .backFooter).run (willMoveToSuperview sampleScrollView)
          [.moveToWindow true, .beginRefreshing] = some (c, []) ∧
        sampleScrollView.insetB + MJRefreshFooterHeight ≤ c.scrollView.insetB := by
  have hrun : (machine .backFooter).run (willMoveToSuperview sampleScrollView)
      [.moveToWindow true, .beginRefreshing, .animationCompleted, .mainBlock, .endRefreshing,
        .mainBlock] = some (sampleRefreshed, [.refreshing]) := by decide +kernel
  have hbegun : ∃ c, (machine .backFooter).run (willMoveToSuperview sampleScrollView)
      [.moveToWindow true, .beginRefreshing] = some (c, []) ∧ c.state = .refreshing :=
    ⟨_, rfl, rfl⟩
  obtain ⟨c, hc, hrefreshing⟩ := hbegun
  exact ⟨(footer_inset_restored hrun).1 (by decide), c, hc,
    (footer_inset_restored hc).2 hrefreshing⟩

end MJRefresh

end MagnetX
