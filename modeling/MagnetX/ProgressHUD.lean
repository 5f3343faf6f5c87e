/-
# `MagnetX.ProgressHUD` — the HUD between its queues

`KRProgressHUD`, the view behind `HUD.rx.state`.  `show` and `dismiss` may be called at any
time and from any thread; what they do is put on the main queue.  The block of `show` lays
the HUD out and puts the fade-in on the queue with a deadline, the block of `dismiss` starts
a fade-out, and the HUD is hidden when a fade-out ends.  A fade-in that is not of a loading
HUD hands a work item to the global queue, which calls `dismiss` when its time has come.

`Machine.step` is one of these, and a run is any order of them: fade-ins, work items and
fade-outs may come at any time after they were started, the blocks of the main queue in
their order.  A work item has two statements, on another thread than the rest, and anything
may happen between them (`handlerEnds` is the second).

What is left alone comes to rest, and at rest a HUD with a message is not on the screen
(`message_is_dismissed`), unless a work item's second statement came after the fade-out that
its first had asked for, when it cancels another's (the example after
`message_is_dismissed_saved`).  States far enough apart for the HUD to come to rest between
them are shown one by one, as `HUD.state` has it (`spaced_eq`); states that are not may be
lost, and a spinner may stay when the state that should take it down comes at once.
-/
import MagnetX.HUD
import MagnetX.Lib.Machine
import Mathlib.Algebra.GroupWithZero.Nat

namespace MagnetX

open Lib

namespace KRProgressHUD

inductive IconType where
  | success
  | info
  | warning
  | error
deriving DecidableEq, Repr

/-- The arguments of `show`. -/
structure Request where
  message : Option String := none
  iconType : Option IconType := none
  isOnlyText : Bool := false
  isLoading : Bool := false
deriving DecidableEq, Repr

/-- What the views of the HUD are set to. -/
structure Layout where
  text : Option String := none
  iconViewIsHidden : Bool := false
  messageLabelIsHidden : Bool := false
  drawnIcon : Option IconType := none
  isAnimating : Bool := false
deriving DecidableEq, Repr

/-- A block on the main queue. -/
inductive Block where
  | show (request : Request)
  | dismiss
deriving DecidableEq, Repr

end KRProgressHUD

open KRProgressHUD in
/-- The shared HUD, and what is under way. -/
structure KRProgressHUD where
  layout : Layout := {}
  isVisible : Bool := false
  main : List Block := []
  /-- The fade-ins with a deadline, and whether each is of a loading HUD. -/
  fadeIns : List Bool := []
  fadeOuts : Nat := 0
  dismissHandler : Option Nat := none
  /-- The items on the global queue, and whether each is cancelled. -/
  workItems : List (Nat × Bool) := []
  /-- The items between their two statements. -/
  finishing : Nat := 0
  nextItem : Nat := 0
deriving DecidableEq, Repr

namespace KRProgressHUD

variable (hud : KRProgressHUD)

def resetLayouts (layout : Layout) : Layout :=
  { layout with
    iconViewIsHidden := false
    isAnimating := false
    drawnIcon := none
    messageLabelIsHidden := false }

def updateLayouts (layout : Layout) (request : Request) : Layout :=
  let layout := { resetLayouts layout with text := request.message }
  if request.isOnlyText then { layout with iconViewIsHidden := true }
  else
    let layout :=
      if request.message = none then { layout with messageLabelIsHidden := true } else layout
    match request.iconType with
    | none => { layout with isAnimating := true }
    | some iconType => { layout with drawnIcon := some iconType }

/-- It answers whether the handler is cancelled now, or there was none: always yes, and the
deadline of a fade-in is never put off. -/
def cancelCurrentDismissHandler : KRProgressHUD :=
  match hud.dismissHandler with
  | none => hud
  | some handler =>
      { hud with
        dismissHandler := none
        workItems := hud.workItems.map fun (id, isCancelled) =>
          (id, isCancelled || id == handler) }

def registerDismissHandler : KRProgressHUD :=
  { hud with
    dismissHandler := some hud.nextItem
    workItems := hud.workItems ++ [(hud.nextItem, false)]
    nextItem := hud.nextItem + 1 }

inductive Action where
  | call (block : Block)
  | mainBlock
  | fadeIn (i : Nat)
  | fadeOutCompleted
  | workItem (i : Nat)
  | handlerEnds
deriving DecidableEq, Repr

/-- Not a call. -/
def Action.isInternal : Action → Bool
  | .call _ => false
  | _ => true

/-- What can be seen: a HUD that is faded in, and its going. -/
inductive Output where
  | fadedIn (layout : Layout) (isLoading : Bool)
  | hidden
deriving DecidableEq, Repr

def step : Action → Option (KRProgressHUD × List Output)
  | .call block => some ({ hud with main := hud.main ++ [block] }, [])
  | .mainBlock =>
      match hud.main with
      | [] => none
      | .show request :: main =>
          let hud := { hud with main, layout := updateLayouts hud.layout request }
          let hud := hud.cancelCurrentDismissHandler
          some ({ hud with fadeIns := hud.fadeIns ++ [request.isLoading] }, [])
      | .dismiss :: main => some ({ hud with main, fadeOuts := hud.fadeOuts + 1 }, [])
  | .fadeIn i =>
      match hud.fadeIns[i]? with
      | none => none
      | some isLoading =>
          let hud := { hud with fadeIns := hud.fadeIns.eraseIdx i, isVisible := true }
          some (if isLoading then hud else hud.registerDismissHandler,
            [.fadedIn hud.layout isLoading])
  | .fadeOutCompleted =>
      match hud.fadeOuts with
      | 0 => none
      | n + 1 =>
          some ({ hud with
            fadeOuts := n
            isVisible := false
            layout := { hud.layout with isAnimating := false } }, [.hidden])
  | .workItem i =>
      match hud.workItems[i]? with
      | none => none
      | some (_, true) => some ({ hud with workItems := hud.workItems.eraseIdx i }, [])
      | some (_, false) =>
          some ({ hud with
            workItems := hud.workItems.eraseIdx i
            main := hud.main ++ [.dismiss]
            finishing := hud.finishing + 1 }, [])
  | .handlerEnds =>
      match hud.finishing with
      | 0 => none
      | n + 1 => some ({ hud.cancelCurrentDismissHandler with finishing := n }, [])

def machine : Machine KRProgressHUD Action Output where
  step := step

/-! ## What a step does -/

/-- The items once the current handler is cancelled. -/
def cancelledItems : List (Nat × Bool) :=
  match hud.dismissHandler with
  | none => hud.workItems
  | some handler => hud.workItems.map fun (id, isCancelled) => (id, isCancelled || id == handler)

theorem cancelCurrentDismissHandler_eq :
    hud.cancelCurrentDismissHandler =
      { hud with dismissHandler := none, workItems := hud.cancelledItems } := by
  rw [cancelCurrentDismissHandler, cancelledItems]
  cases h : hud.dismissHandler with
  | none => simp [← h]
  | some handler => rfl

theorem length_cancelledItems : hud.cancelledItems.length = hud.workItems.length := by
  rw [cancelledItems]
  cases hud.dismissHandler with
  | none => rfl
  | some handler => exact List.length_map _

/-- The steps, case by case. -/
inductive Step : Action → KRProgressHUD → List Output → Prop where
  | call (block : Block) : Step (.call block) { hud with main := hud.main ++ [block] } []
  | show {request : Request} {main : List Block} (h : hud.main = .show request :: main) :
      Step .mainBlock
        { hud with
          main
          layout := updateLayouts hud.layout request
          dismissHandler := none
          workItems := hud.cancelledItems
          fadeIns := hud.fadeIns ++ [request.isLoading] } []
  | dismiss {main : List Block} (h : hud.main = .dismiss :: main) :
      Step .mainBlock { hud with main, fadeOuts := hud.fadeOuts + 1 } []
  | fadeInLoading {i : Nat} (h : hud.fadeIns[i]? = some true) :
      Step (.fadeIn i) { hud with fadeIns := hud.fadeIns.eraseIdx i, isVisible := true }
        [.fadedIn hud.layout true]
  | fadeInMessage {i : Nat} (h : hud.fadeIns[i]? = some false) :
      Step (.fadeIn i)
        { hud with
          fadeIns := hud.fadeIns.eraseIdx i
          isVisible := true
          dismissHandler := some hud.nextItem
          workItems := hud.workItems ++ [(hud.nextItem, false)]
          nextItem := hud.nextItem + 1 } [.fadedIn hud.layout false]
  | fadeOutCompleted {n : Nat} (h : hud.fadeOuts = n + 1) :
      Step .fadeOutCompleted
        { hud with
          fadeOuts := n
          isVisible := false
          layout := { hud.layout with isAnimating := false } } [.hidden]
  | cancelledItem {i id : Nat} (h : hud.workItems[i]? = some (id, true)) :
      Step (.workItem i) { hud with workItems := hud.workItems.eraseIdx i } []
  | workItem {i id : Nat} (h : hud.workItems[i]? = some (id, false)) :
      Step (.workItem i)
        { hud with
          workItems := hud.workItems.eraseIdx i
          main := hud.main ++ [.dismiss]
          finishing := hud.finishing + 1 } []
  | handlerEnds {n : Nat} (h : hud.finishing = n + 1) :
      Step .handlerEnds
        { hud with dismissHandler := none, workItems := hud.cancelledItems, finishing := n } []

variable {hud} {hud' : KRProgressHUD} {action : Action} {outputs : List Output}

theorem Step.of_step (h : machine.step hud action = some (hud', outputs)) :
    hud.Step action hud' outputs := by
  change hud.step action = some (hud', outputs) at h
  cases action with
  | call block =>
      cases h
      exact .call block
  | mainBlock =>
      rw [step] at h
      split at h
      · cases h
      · rename_i hmain
        dsimp only at h
        rw [cancelCurrentDismissHandler_eq] at h
        cases h
        exact .show hmain
      · rename_i hmain
        cases h
        exact .dismiss hmain
  | fadeIn i =>
      rw [step] at h
      split at h
      · cases h
      · rename_i isLoading hi
        cases isLoading with
        | true =>
            cases h
            exact .fadeInLoading hi
        | false =>
            cases h
            exact .fadeInMessage hi
  | fadeOutCompleted =>
      rw [step] at h
      split at h
      · cases h
      · rename_i n hn
        cases h
        exact .fadeOutCompleted hn
  | workItem i =>
      rw [step] at h
      split at h
      · cases h
      · rename_i hi
        cases h
        exact .cancelledItem hi
      · rename_i hi
        cases h
        exact .workItem hi
  | handlerEnds =>
      rw [step] at h
      split at h
      · cases h
      · rename_i n hn
        rw [cancelCurrentDismissHandler_eq] at h
        cases h
        exact .handlerEnds hn

/-! ## Coming to rest -/

variable (hud) in
/-- Nothing is under way. -/
structure Resting : Prop where
  main : hud.main = []
  fadeIns : hud.fadeIns = []
  fadeOuts : hud.fadeOuts = 0
  workItems : hud.workItems = []
  finishing : hud.finishing = 0

/-- The steps a block can still lead to. -/
def Block.weight : Block → Nat
  | .show _ => 6
  | .dismiss => 2

variable (hud) in
/-- The steps that can still come without a call. -/
def weight : Nat :=
  (hud.main.map Block.weight).sum + 5 * hud.fadeIns.length + 4 * hud.workItems.length +
    hud.fadeOuts + hud.finishing

theorem length_eraseIdx_of_getElem? {α : Type} {elements : List α} {i : Nat} {a : α}
    (h : elements[i]? = some a) : (elements.eraseIdx i).length + 1 = elements.length := by
  obtain ⟨hi, -⟩ := List.getElem?_eq_some_iff.mp h
  rw [List.length_eraseIdx_of_lt hi]
  omega

theorem weight_lt_of_step (hinternal : action.isInternal = true)
    (h : hud.Step action hud' outputs) : hud'.weight < hud.weight := by
  cases h with
  | call block => cases hinternal
  | «show» hmain =>
      simp only [weight, hmain, length_cancelledItems, List.map_cons, List.sum_cons, Block.weight,
        List.length_append, List.length_singleton]
      omega
  | dismiss hmain =>
      simp only [weight, hmain, List.map_cons, List.sum_cons, Block.weight]
      omega
  | fadeInLoading hi =>
      have hlength := length_eraseIdx_of_getElem? hi
      simp only [weight]
      omega
  | fadeInMessage hi =>
      have hlength := length_eraseIdx_of_getElem? hi
      simp only [weight, List.length_append, List.length_singleton]
      omega
  | fadeOutCompleted hn =>
      simp only [weight, hn]
      omega
  | cancelledItem hi =>
      have hlength := length_eraseIdx_of_getElem? hi
      simp only [weight]
      omega
  | workItem hi =>
      have hlength := length_eraseIdx_of_getElem? hi
      simp only [weight, List.map_append, List.sum_append, List.map_singleton,
        List.sum_singleton, Block.weight]
      omega
  | handlerEnds hn =>
      simp only [weight, hn, length_cancelledItems]
      omega

/-- Whatever is under way, a step is possible. -/
theorem exists_step_of_not_resting (h : ¬ hud.Resting) :
    ∃ action hud' outputs, action.isInternal = true ∧
      machine.step hud action = some (hud', outputs) := by
  by_contra hnone
  have hstuck : ∀ action, action.isInternal = true → machine.step hud action = none := by
    intro action hinternal
    rw [Option.eq_none_iff_forall_ne_some]
    rintro ⟨hud', outputs⟩ hstep
    exact hnone ⟨action, hud', outputs, hinternal, hstep⟩
  refine h ⟨?_, ?_, ?_, ?_, ?_⟩
  · have hmain := hstuck .mainBlock rfl
    change hud.step .mainBlock = none at hmain
    rw [step] at hmain
    split at hmain <;> first | assumption | cases hmain
  · have hfade := hstuck (.fadeIn 0) rfl
    change hud.step (.fadeIn 0) = none at hfade
    rw [step] at hfade
    split at hfade
    · rename_i hzero
      rwa [← List.head?_eq_getElem?, List.head?_eq_none_iff] at hzero
    · cases hfade
  · have hfade := hstuck .fadeOutCompleted rfl
    change hud.step .fadeOutCompleted = none at hfade
    rw [step] at hfade
    split at hfade <;> first | assumption | cases hfade
  · have hitem := hstuck (.workItem 0) rfl
    change hud.step (.workItem 0) = none at hitem
    rw [step] at hitem
    split at hitem
    · rename_i hzero
      rwa [← List.head?_eq_getElem?, List.head?_eq_none_iff] at hzero
    · cases hitem
    · cases hitem
  · have hend := hstuck .handlerEnds rfl
    change hud.step .handlerEnds = none at hend
    rw [step] at hend
    split at hend <;> first | assumption | cases hend

/-! ## Messages go -/

/-- Whether the HUD that was faded in last is a loading one. -/
def lastIsLoading (log : List Output) : Option Bool :=
  (log.filterMap fun
    | .fadedIn _ isLoading => some isLoading
    | .hidden => none).getLast?

theorem lastIsLoading_fadedIn (log : List Output) (layout : Layout) (isLoading : Bool) :
    lastIsLoading (log ++ [.fadedIn layout isLoading]) = some isLoading := by
  rw [lastIsLoading, List.filterMap_append]
  exact List.getLast?_concat

variable (hud) in
/-- Something is under way that hides the HUD or fades it in anew. -/
def Outstanding : Prop :=
  (∃ handler, hud.dismissHandler = some handler ∧ (handler, false) ∈ hud.workItems) ∨
    .dismiss ∈ hud.main ∨ 0 < hud.fadeOuts ∨ hud.fadeIns ≠ []

variable (hud) in
/-- The second statement of a work item comes before the fade-out that the first one asked for
is over. -/
def Prompt : Action → Prop
  | .handlerEnds => .dismiss ∈ hud.main ∨ 0 < hud.fadeOuts
  | _ => True

instance : ∀ action, Decidable (hud.Prompt action)
  | .handlerEnds => inferInstanceAs (Decidable (_ ∨ _))
  | .call _ | .mainBlock | .fadeIn _ | .fadeOutCompleted | .workItem _ => .isTrue trivial

theorem Resting.not_outstanding (h : hud.Resting) : ¬ hud.Outstanding := by
  rintro (⟨handler, -, hitem⟩ | hmain | hfade | hfade)
  · rw [h.workItems] at hitem
    exact List.not_mem_nil hitem
  · rw [h.main] at hmain
    exact List.not_mem_nil hmain
  · rw [h.fadeOuts] at hfade
    exact Nat.lt_irrefl 0 hfade
  · exact hfade h.fadeIns

/-- Taking a cancelled item from the queue leaves the others. -/
theorem mem_eraseIdx_of_ne {α : Type} {elements : List α} {i : Nat} {a b : α}
    (hi : elements[i]? = some b) (ha : a ∈ elements) (hne : a ≠ b) : a ∈ elements.eraseIdx i := by
  rw [List.mem_eraseIdx_iff_getElem?]
  obtain ⟨j, hj⟩ := List.mem_iff_getElem?.mp ha
  refine ⟨j, fun heq => hne ?_, hj⟩
  rw [heq, hi] at hj
  exact (Option.some.inj hj).symm

/-- What a step leaves of the promise that a HUD on the screen, if not a loading one, will
go. -/
theorem outstanding_step {log : List Output} (hprompt : hud.Prompt action)
    (h : hud.isVisible = true → lastIsLoading log = some true ∨ hud.Outstanding)
    (hstep : hud.Step action hud' outputs) :
    hud'.isVisible = true → lastIsLoading (log ++ outputs) = some true ∨ hud'.Outstanding := by
  intro hvisible
  cases hstep with
  | call block =>
      rw [List.append_nil]
      refine (h hvisible).imp_right ?_
      rintro (hhandler | hmain | hfade | hfade)
      · exact .inl hhandler
      · exact .inr (.inl (List.mem_append_left _ hmain))
      · exact .inr (.inr (.inl hfade))
      · exact .inr (.inr (.inr hfade))
  | «show» hmain => exact .inr (.inr (.inr (.inr (by simp))))
  | dismiss hmain => exact .inr (.inr (.inr (.inl (Nat.succ_pos _))))
  | fadeInLoading hi => exact .inl (lastIsLoading_fadedIn ..)
  | fadeInMessage hi =>
      exact .inr (.inl ⟨hud.nextItem, rfl, List.mem_append_right _ (List.mem_singleton_self _)⟩)
  | fadeOutCompleted hn => cases hvisible
  | cancelledItem hi =>
      rw [List.append_nil]
      refine (h hvisible).imp_right ?_
      rintro (⟨handler, hhandler, hitem⟩ | hrest)
      · refine .inl ⟨handler, hhandler, mem_eraseIdx_of_ne hi hitem fun heq => ?_⟩
        cases heq
      · exact .inr hrest
  | workItem hi => exact .inr (.inr (.inl (List.mem_append_right _ (List.mem_singleton_self _))))
  | handlerEnds hn =>
      rcases hprompt with hmain | hfade
      · exact .inr (.inr (.inl hmain))
      · exact .inr (.inr (.inr (.inl hfade)))

/-- In every run, a HUD on the screen is a loading one or will go. -/
theorem outstanding_run {actions : List Action} {log : List Output}
    (hrun : machine.run {} actions = some (hud, log)) (hprompt : machine.Guarded Prompt {} actions) :
    hud.isVisible = true → lastIsLoading log = some true ∨ hud.Outstanding :=
  Machine.run_induction
    (P := fun _ hud log => hud.isVisible = true → lastIsLoading log = some true ∨ hud.Outstanding)
    (fun h => absurd h Bool.false_ne_true)
    (fun _ _ _ _ _ _ _ h hprompt hstep => outstanding_step hprompt h (.of_step hstep)) hrun hprompt

theorem step_decreases (hud : KRProgressHUD) (action : Action) (hud' : KRProgressHUD)
    (outputs : List Output) (hinternal : action.isInternal = true)
    (hstep : machine.step hud action = some (hud', outputs)) : hud'.weight < hud.weight :=
  weight_lt_of_step hinternal (.of_step hstep)

theorem exists_rest (hud : KRProgressHUD) : ∃ rest hud' log,
    machine.run hud rest = some (hud', log) ∧
      (∀ action ∈ rest, action.isInternal = true) ∧ hud'.Resting :=
  Machine.exists_run_of_decreasing step_decreases (fun _ h => exists_step_of_not_resting h) hud

/-- **A message does not stay.**  After any run, what is left without further calls comes to
rest after no more steps than `weight`; and in whatever order they come, at rest the HUD is
hidden, or it is a loading one that was faded in last. -/
theorem message_is_dismissed {actions : List Action} {log : List Output}
    (hrun : machine.run {} actions = some (hud, log)) :
    (∃ rest hud' log', machine.run hud rest = some (hud', log') ∧
      (∀ action ∈ rest, action.isInternal = true) ∧ hud'.Resting) ∧
    ∀ rest hud' log', machine.run hud rest = some (hud', log') →
      (∀ action ∈ rest, action.isInternal = true) →
      rest.length ≤ hud.weight ∧
      (machine.Guarded Prompt {} (actions ++ rest) → hud'.Resting → hud'.isVisible = true →
        lastIsLoading (log ++ log') = some true) := by
  refine ⟨exists_rest hud, fun rest hud' log' hrest hinternal => ⟨?_, ?_⟩⟩
  · have hle := Machine.length_add_le_of_decreasing step_decreases hrest hinternal
    omega
  · intro hprompt hresting hvisible
    have hall := machine.run_append_eq_some.mpr ⟨hud, log, log', hrun, hrest, rfl⟩
    exact (outstanding_run hall hprompt hvisible).resolve_right hresting.not_outstanding

theorem message_is_dismissed_saved : ∃ hud log hud' log',
    machine.run {} [.call (.show { message := some "Saved" }), .mainBlock, .fadeIn 0] =
      some (hud, log) ∧
    (∃ rest hud' log', machine.run hud rest = some (hud', log') ∧
      (∀ action ∈ rest, action.isInternal = true) ∧ hud'.Resting) ∧
    machine.run hud [.workItem 0, .handlerEnds, .mainBlock, .fadeOutCompleted] =
      some (hud', log') ∧
    4 ≤ hud.weight ∧ hud'.isVisible = false := by
  have hsome : ∃ hud log hud' log',
      machine.run {} [.call (.show { message := some "Saved" }), .mainBlock, .fadeIn 0] =
        some (hud, log) ∧
      machine.run hud [.workItem 0, .handlerEnds, .mainBlock, .fadeOutCompleted] =
        some (hud', log') ∧ hud'.Resting ∧ lastIsLoading (log ++ log') = some false :=
    ⟨_, _, _, _, rfl, rfl, ⟨rfl, rfl, rfl, rfl, rfl⟩, rfl⟩
  obtain ⟨hud, log, hud', log', hrun, hrest, hresting, hlast⟩ := hsome
  obtain ⟨hends, hall⟩ := message_is_dismissed hrun
  obtain ⟨hle, hvisible⟩ := hall _ hud' log' hrest (by decide)
  refine ⟨hud, log, hud', log', hrun, hends, hrest, hle, ?_⟩
  rw [← Bool.not_eq_true]
  intro h
  have hloading := hvisible (by decide) hresting h
  rw [hlast] at hloading
  exact absurd hloading (by decide)

/-- A second statement that comes late: the HUD is at rest with the second message. -/
example : ∃ hud log, machine.run {}
    [.call (.show { message := some "Saved" }), .mainBlock, .fadeIn 0, .workItem 0, .mainBlock,
      .fadeOutCompleted, .call (.show { message := some "Sent" }), .mainBlock, .fadeIn 0,
      .handlerEnds, .workItem 0] = some (hud, log) ∧
    hud.Resting ∧ hud.isVisible = true ∧ lastIsLoading log = some false :=
  ⟨_, _, rfl, ⟨rfl, rfl, rfl, rfl, rfl⟩, rfl, rfl⟩

/-! ## The HUD of the app -/

def showMessage (message : String) : Block := .show { message := some message, isOnlyText := true }

end KRProgressHUD

namespace HUD

open KRProgressHUD

def «show» : Block := .show { isLoading := true }

def showInfo (info : String) : Block := showMessage info

/-- `HUD.rx.state`: the call it makes of a state. -/
def call : UIState → Option Block
  | .idle => none
  | .loading => some HUD.show
  | .success (some info) => some (showInfo info)
  | .success none => some .dismiss
  | .failure (some info) => some (showInfo info)
  | .failure none => some .dismiss

end HUD

namespace KRProgressHUD

variable {hud hud' : KRProgressHUD} {action : Action} {outputs log : List Output}

/-! ## One state at a time -/

/-- What is seen of a state that the HUD is left alone with. -/
def shown : UIState → List Output
  | .idle => []
  | .loading => [.fadedIn (updateLayouts {} { isLoading := true }) true]
  | .success (some info) | .failure (some info) =>
      [.fadedIn (updateLayouts {} { message := some info, isOnlyText := true }) false, .hidden]
  | .success none | .failure none => [.hidden]

/-- The HUD is left alone with each state until it is at rest. -/
inductive Spaced : List UIState → KRProgressHUD → List Output → Prop where
  | start : Spaced [] {} []
  | next {states : List UIState} {state : UIState} {actions : List Action}
      {hud hud' : KRProgressHUD} {log log' : List Output} (h : Spaced states hud log)
      (hrun : machine.run hud ((HUD.call state).toList.map .call ++ actions) = some (hud', log'))
      (hinternal : ∀ action ∈ actions, action.isInternal = true) (hresting : hud'.Resting) :
      Spaced (states ++ [state]) hud' (log ++ log')

variable (hud) in
/-- Every way to rest has this log, and leaves the HUD on the screen or not. -/
def Settles (log : List Output) (isVisible : Bool) : Prop :=
  ∀ actions hud' log', machine.run hud actions = some (hud', log') →
    (∀ action ∈ actions, action.isInternal = true) → hud'.Resting →
    log' = log ∧ hud'.isVisible = isVisible

/-- All that is under way. -/
structure UnderWay (hud : KRProgressHUD) (main : List Block) (fadeIns : List Bool)
    (fadeOuts : Nat) (workItems : List (Nat × Bool)) (finishing : Nat) : Prop where
  main : hud.main = main
  fadeIns : hud.fadeIns = fadeIns
  fadeOuts : hud.fadeOuts = fadeOuts
  workItems : hud.workItems = workItems
  finishing : hud.finishing = finishing

theorem Resting.underWay (h : hud.Resting) : hud.UnderWay [] [] 0 [] 0 :=
  ⟨h.main, h.fadeIns, h.fadeOuts, h.workItems, h.finishing⟩

/-- To settle is to settle after each step. -/
theorem Settles.of_step {isVisible : Bool} (hne : ¬ hud.Resting)
    (h : ∀ action hud' outputs, action.isInternal = true → hud.Step action hud' outputs →
      ∃ log', log = outputs ++ log' ∧ hud'.Settles log' isVisible) :
    hud.Settles log isVisible := by
  intro actions hud' log' hrun hinternal hresting
  cases actions with
  | nil =>
      simp only [Machine.run_nil, Option.some.injEq, Prod.mk.injEq] at hrun
      obtain ⟨rfl, -⟩ := hrun
      exact absurd hresting hne
  | cons action actions =>
      obtain ⟨next, outputs, rest, hstep, hrest, rfl⟩ := machine.run_cons_eq_some.mp hrun
      obtain ⟨log', rfl, hsettles⟩ :=
        h action next outputs (hinternal action (List.mem_cons_self ..)) (.of_step hstep)
      obtain ⟨rfl, hvisible⟩ := hsettles actions hud' rest hrest
        (fun a ha => hinternal a (List.mem_cons_of_mem action ha)) hresting
      exact ⟨rfl, hvisible⟩

theorem cancelledItems_of_nil (h : hud.workItems = []) : hud.cancelledItems = [] := by
  rw [← List.length_eq_zero_iff, length_cancelledItems, h]
  rfl

/-- Nothing under way but second statements. -/
theorem settles_finishing : ∀ (n : Nat) {hud : KRProgressHUD}, hud.UnderWay [] [] 0 [] n →
    hud.Settles [] hud.isVisible := by
  intro n
  induction n with
  | zero =>
      intro hud h actions hud' log' hrun hinternal _
      cases actions with
      | nil =>
          simp only [Machine.run_nil, Option.some.injEq, Prod.mk.injEq] at hrun
          obtain ⟨rfl, rfl⟩ := hrun
          exact ⟨rfl, rfl⟩
      | cons action actions =>
          obtain ⟨next, outputs, rest, hstep, -⟩ := machine.run_cons_eq_some.mp hrun
          have hi := hinternal action (List.mem_cons_self ..)
          cases Step.of_step hstep with
          | call block => cases hi
          | _ =>
              rename_i hx
              simp [h.main, h.fadeIns, h.fadeOuts, h.workItems, h.finishing] at hx
  | succ n ih =>
      intro hud h
      refine .of_step (fun hresting => ?_) fun action hud' outputs hi hstep => ?_
      · have hzero := hresting.finishing
        rw [h.finishing] at hzero
        cases hzero
      · cases hstep with
        | call block => cases hi
        | handlerEnds hn =>
            rw [h.finishing] at hn
            cases hn
            exact ⟨[], rfl, ih ⟨h.main, h.fadeIns, h.fadeOuts, cancelledItems_of_nil h.workItems,
              rfl⟩⟩
        | _ =>
            rename_i hx
            simp [h.main, h.fadeIns, h.fadeOuts, h.workItems] at hx

/-- A fade-out under way. -/
theorem settles_fadeOut (n : Nat) : ∀ {hud : KRProgressHUD}, hud.UnderWay [] [] 1 [] n →
    hud.Settles [.hidden] false := by
  induction n using Nat.strongRecOn with
  | ind n ih =>
      intro hud h
      refine .of_step (fun hresting => ?_) fun action hud' outputs hi hstep => ?_
      · exact absurd (h.fadeOuts.symm.trans hresting.fadeOuts) Nat.one_ne_zero
      · cases hstep with
        | call block => cases hi
        | fadeOutCompleted hn =>
            rw [h.fadeOuts] at hn
            cases hn
            exact ⟨[], rfl, settles_finishing n ⟨h.main, h.fadeIns, rfl, h.workItems, h.finishing⟩⟩
        | handlerEnds hn =>
            rw [h.finishing] at hn
            subst hn
            exact ⟨[.hidden], rfl, ih _ (Nat.lt_succ_self _) ⟨h.main, h.fadeIns, h.fadeOuts,
              cancelledItems_of_nil h.workItems, rfl⟩⟩
        | _ =>
            rename_i hx
            simp [h.main, h.fadeIns, h.workItems] at hx

/-- The block of `dismiss` on the main queue. -/
theorem settles_dismiss (n : Nat) : ∀ {hud : KRProgressHUD}, hud.UnderWay [.dismiss] [] 0 [] n →
    hud.Settles [.hidden] false := by
  induction n using Nat.strongRecOn with
  | ind n ih =>
      intro hud h
      refine .of_step (fun hresting => ?_) fun action hud' outputs hi hstep => ?_
      · exact absurd (h.main.symm.trans hresting.main) (List.cons_ne_nil _ _)
      · cases hstep with
        | call block => cases hi
        | dismiss hmain =>
            rw [h.main] at hmain
            cases hmain
            refine ⟨[.hidden], rfl, settles_fadeOut n ⟨rfl, h.fadeIns, ?_, h.workItems,
              h.finishing⟩⟩
            exact congrArg (· + 1) h.fadeOuts
        | handlerEnds hn =>
            rw [h.finishing] at hn
            subst hn
            exact ⟨[.hidden], rfl, ih _ (Nat.lt_succ_self _) ⟨h.main, h.fadeIns, h.fadeOuts,
              cancelledItems_of_nil h.workItems, rfl⟩⟩
        | _ =>
            rename_i hx
            simp [h.main, h.fadeIns, h.fadeOuts, h.workItems] at hx

/-- A dismiss handler on the global queue. -/
theorem settles_workItem (id : Nat) (h : hud.UnderWay [] [] 0 [(id, false)] 0) :
    hud.Settles [.hidden] false := by
  refine .of_step (fun hresting => ?_) fun action hud' outputs hi hstep => ?_
  · exact absurd (h.workItems.symm.trans hresting.workItems) (List.cons_ne_nil _ _)
  · cases hstep with
    | call block => cases hi
    | workItem hitem =>
        rename_i i _
        rw [h.workItems] at hitem
        cases i with
        | zero =>
            refine ⟨[.hidden], rfl, settles_dismiss 1 ⟨?_, h.fadeIns, h.fadeOuts, ?_, ?_⟩⟩
            · exact congrArg (· ++ [Block.dismiss]) h.main
            · exact congrArg (List.eraseIdx · 0) h.workItems
            · exact congrArg (· + 1) h.finishing
        | succ i => cases hitem
    | cancelledItem hitem =>
        rename_i i _
        rw [h.workItems] at hitem
        cases i <;> cases hitem
    | _ =>
        rename_i hx
        simp [h.main, h.fadeIns, h.fadeOuts, h.finishing] at hx

/-- What is seen of a fade-in. -/
theorem settles_fadeIn {isLoading : Bool} (h : hud.UnderWay [] [isLoading] 0 [] 0) :
    hud.Settles (.fadedIn hud.layout isLoading :: if isLoading then [] else [.hidden])
      isLoading := by
  refine .of_step (fun hresting => ?_) fun action hud' outputs hi hstep => ?_
  · exact absurd (h.fadeIns.symm.trans hresting.fadeIns) (List.cons_ne_nil _ _)
  · have herase : hud.fadeIns.eraseIdx 0 = [] := congrArg (List.eraseIdx · 0) h.fadeIns
    cases hstep with
    | call block => cases hi
    | fadeInLoading hfade =>
        rename_i i
        rw [h.fadeIns] at hfade
        cases i with
        | zero =>
            cases hfade
            exact ⟨[], rfl, settles_finishing 0 ⟨h.main, herase, h.fadeOuts, h.workItems,
              h.finishing⟩⟩
        | succ i => cases hfade
    | fadeInMessage hfade =>
        rename_i i
        rw [h.fadeIns] at hfade
        cases i with
        | zero =>
            cases hfade
            refine ⟨[.hidden], rfl, settles_workItem hud.nextItem ⟨h.main, herase,
              h.fadeOuts, ?_, h.finishing⟩⟩
            exact congrArg (· ++ [(hud.nextItem, false)]) h.workItems
        | succ i => cases hfade
    | _ =>
        rename_i hx
        simp [h.main, h.fadeOuts, h.workItems, h.finishing] at hx

/-- The block of `show` on the main queue. -/
theorem settles_show {request : Request} (h : hud.UnderWay [.show request] [] 0 [] 0) :
    hud.Settles (.fadedIn (updateLayouts {} request) request.isLoading ::
      if request.isLoading then [] else [.hidden]) request.isLoading := by
  refine .of_step (fun hresting => ?_) fun action hud' outputs hi hstep => ?_
  · exact absurd (h.main.symm.trans hresting.main) (List.cons_ne_nil _ _)
  · cases hstep with
    | call block => cases hi
    | «show» hmain =>
        rw [h.main] at hmain
        cases hmain
        refine ⟨_, rfl, settles_fadeIn ⟨rfl, ?_, h.fadeOuts, cancelledItems_of_nil h.workItems,
          h.finishing⟩⟩
        exact congrArg (· ++ [request.isLoading]) h.fadeIns
    | _ =>
        rename_i hx
        simp [h.main, h.fadeIns, h.fadeOuts, h.workItems, h.finishing] at hx

/-- A state, from rest. -/
theorem settles_call (h : hud.Resting) {state : UIState} {block : Block}
    (hcall : HUD.call state = some block) :
    ({ hud with main := hud.main ++ [block] } : KRProgressHUD).Settles (shown state)
      (HUD.state .hidden state == .spinner) := by
  have hblock : ({ hud with main := hud.main ++ [block] } : KRProgressHUD).UnderWay
      [block] [] 0 [] 0 :=
    ⟨congrArg (· ++ [block]) h.main, h.fadeIns, h.fadeOuts, h.workItems, h.finishing⟩
  cases state with
  | idle => cases hcall
  | loading =>
      cases hcall
      exact settles_show hblock
  | success info =>
      cases info with
      | none =>
          cases hcall
          exact settles_dismiss 0 hblock
      | some info =>
          cases hcall
          exact settles_show hblock
  | failure info =>
      cases info with
      | none =>
          cases hcall
          exact settles_dismiss 0 hblock
      | some info =>
          cases hcall
          exact settles_show hblock

/-- A run that begins with the call made of a state. -/
theorem run_call {state : UIState} {actions : List Action}
    (hrun : machine.run hud ((HUD.call state).toList.map .call ++ actions) = some (hud', log)) :
    machine.run { hud with main := hud.main ++ (HUD.call state).toList } actions =
      some (hud', log) := by
  cases hcall : HUD.call state with
  | none =>
      rw [hcall] at hrun
      rw [Option.toList_none, List.append_nil]
      exact hrun
  | some block =>
      rw [hcall] at hrun
      obtain ⟨next, outputs, rest, hstep, hrest, rfl⟩ := machine.run_cons_eq_some.mp hrun
      cases hstep
      exact hrest

/-- What a state, left alone with, adds. -/
theorem settles_state (h : hud.Resting) (state : UIState) :
    ({ hud with main := hud.main ++ (HUD.call state).toList } : KRProgressHUD).Settles
      (shown state) (if state = .idle then hud.isVisible else HUD.state .hidden state == .spinner) := by
  cases state with
  | idle =>
      rw [if_pos rfl]
      have hmain : ({ hud with main := hud.main ++ [] } : KRProgressHUD) = hud := by
        rw [List.append_nil]
      rw [show (HUD.call .idle).toList = [] from rfl, hmain]
      exact settles_finishing 0 h.underWay
  | loading => exact settles_call h rfl
  | success info => cases info <;> exact settles_call h rfl
  | failure info => cases info <;> exact settles_call h rfl

theorem Spaced.resting {states : List UIState} (h : Spaced states hud log) : hud.Resting := by
  cases h with
  | start => exact ⟨rfl, rfl, rfl, rfl, rfl⟩
  | next _ _ _ hresting => exact hresting

theorem Spaced.log_eq {states : List UIState} (h : Spaced states hud log) :
    log = states.flatMap shown ∧
      (hud.isVisible = true ↔ states.foldl HUD.state .hidden = .spinner) := by
  induction h with
  | start => exact ⟨rfl, by decide⟩
  | @next states state actions hud hud' log log' h hrun hinternal hresting ih =>
      obtain ⟨rfl, hvisible⟩ := ih
      obtain ⟨rfl, hvisible'⟩ :=
        settles_state h.resting state actions hud' log' (run_call hrun) hinternal hresting
      refine ⟨by rw [List.flatMap_append, List.flatMap_singleton], ?_⟩
      rw [hvisible', List.foldl_append, List.foldl_cons, List.foldl_nil]
      cases state with
      | idle => exact hvisible
      | loading => exact iff_of_true rfl rfl
      | success info => cases info <;> exact iff_of_false Bool.false_ne_true HUD.noConfusion
      | failure info => cases info <;> exact iff_of_false Bool.false_ne_true HUD.noConfusion

theorem exists_spaced (states : List UIState) : ∃ hud log, Spaced states hud log := by
  induction states using List.reverseRecOn with
  | nil => exact ⟨{}, [], .start⟩
  | append_singleton states state ih =>
      obtain ⟨hud, log, h⟩ := ih
      obtain ⟨actions, hud', log', hrun, hinternal, hresting⟩ :=
        exists_rest { hud with main := hud.main ++ (HUD.call state).toList }
      refine ⟨hud', log ++ log', .next h ?_ hinternal hresting⟩
      cases hcall : HUD.call state with
      | none =>
          rw [hcall, Option.toList_none, List.append_nil] at hrun
          exact hrun
      | some block =>
          rw [hcall] at hrun
          exact machine.run_cons_eq_some.mpr ⟨_, [], log', rfl, hrun, rfl⟩

/-- **States that the HUD is left alone with are shown one by one**, each message once and
until it is gone, and a spinner is on the screen exactly when `HUD.state` says so.  The HUD
comes to rest after any of them. -/
theorem spaced_eq :
    (∀ states, ∃ hud log, Spaced states hud log) ∧
    ∀ states hud log, Spaced states hud log →
      log = states.flatMap shown ∧
      (hud.isVisible = true ↔ states.foldl HUD.state .hidden = .spinner) :=
  ⟨exists_spaced, fun _ _ _ h => h.log_eq⟩

/-- A spinner that is to be taken down at once may stay: its fade-in comes when the fade-out is
over. -/
example : ∃ hud log, machine.run {}
    [.call HUD.show, .call .dismiss, .mainBlock, .mainBlock, .fadeOutCompleted, .fadeIn 0] =
      some (hud, log) ∧ hud.Resting ∧ hud.isVisible = true :=
  ⟨_, _, rfl, ⟨rfl, rfl, rfl, rfl, rfl⟩, rfl⟩

end KRProgressHUD

end MagnetX
