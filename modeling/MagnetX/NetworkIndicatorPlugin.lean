/-
# `MagnetX.NetworkIndicatorPlugin` — the activity indicator over a run of the app

RxSwiftX's `Network/NetworkIndicatorPlugin.swift`, a plugin of the provider that all
screens share.  The provider calls `willSend` when a request goes out and `didReceive`
when its completion comes (Moya's `sendAlamofireRequest`).  The plugin counts, and on a
change of the count puts a block on the main queue that shows the indicator when the count
is positive; a change to more than 1 puts none.

A request whose subscription is disposed is cancelled, and a cancelled request still has
its completion, later.  So the machine here carries, beside the screens and the plugin, how
many cancelled requests have not had theirs: `flatMapLatest` cancels the request of the
more before, and a detail screen that closes the one it waits for.

In every run the count is the number of requests that have gone out and not come back
(`counts_requests`), and once the main queue is empty the indicator is on exactly when
there is one (`indicator_shows_activity`).
-/
import MagnetX.SharedCache

namespace MagnetX

open Lib

/-! ## The plugin -/

/-- The plugin's counter, the blocks it has on the main queue, and the status bar's flag. -/
structure NetworkIndicatorPlugin where
  numberOfRequests : Int := 0
  mainQueue : Nat := 0
  isNetworkActivityIndicatorVisible : Bool := false
deriving DecidableEq, Repr

namespace NetworkIndicatorPlugin

/-- An assignment to `numberOfRequests`, with its `didSet`. -/
def setNumberOfRequests (p : NetworkIndicatorPlugin) (n : Int) : NetworkIndicatorPlugin :=
  if n > 1 then { p with numberOfRequests := n }
  else { p with numberOfRequests := n, mainQueue := p.mainQueue + 1 }

def willSend (p : NetworkIndicatorPlugin) : NetworkIndicatorPlugin :=
  p.setNumberOfRequests (p.numberOfRequests + 1)

def didReceive (p : NetworkIndicatorPlugin) : NetworkIndicatorPlugin :=
  p.setNumberOfRequests (p.numberOfRequests - 1)

/-- The main queue runs one of the blocks: it reads the counter as it is then. -/
def runBlock (p : NetworkIndicatorPlugin) : NetworkIndicatorPlugin :=
  { p with
    mainQueue := p.mainQueue - 1
    isNetworkActivityIndicatorVisible := decide (p.numberOfRequests > 0) }

/-- With no block on the main queue the indicator agrees with the counter. -/
def Settles (p : NetworkIndicatorPlugin) : Prop :=
  p.mainQueue = 0 → p.isNetworkActivityIndicatorVisible = decide (p.numberOfRequests > 0)

@[simp] theorem setNumberOfRequests_numberOfRequests (p : NetworkIndicatorPlugin) (n : Int) :
    (p.setNumberOfRequests n).numberOfRequests = n := by
  rw [setNumberOfRequests]
  split <;> rfl

/-- A change by at most 1 that puts no block leaves the counter positive on both sides. -/
theorem Settles.setNumberOfRequests {p : NetworkIndicatorPlugin} (h : p.Settles) {n : Int}
    (hn : n ≤ p.numberOfRequests + 1) (hn' : p.numberOfRequests - 1 ≤ n) :
    (p.setNumberOfRequests n).Settles := by
  intro hqueue
  rw [NetworkIndicatorPlugin.setNumberOfRequests] at hqueue ⊢
  split at hqueue
  next hmany =>
      rw [if_pos hmany]
      have hbefore : p.numberOfRequests > 0 := by omega
      have hafter : n > 0 := by omega
      show p.isNetworkActivityIndicatorVisible = decide (n > 0)
      rw [h hqueue, decide_eq_true hbefore, decide_eq_true hafter]
  next => cases hqueue

theorem Settles.willSend {p : NetworkIndicatorPlugin} (h : p.Settles) : p.willSend.Settles :=
  h.setNumberOfRequests (by omega) (by omega)

theorem Settles.didReceive {p : NetworkIndicatorPlugin} (h : p.Settles) : p.didReceive.Settles :=
  h.setNumberOfRequests (by omega) (by omega)

theorem settles_runBlock (p : NetworkIndicatorPlugin) : p.runBlock.Settles := fun _ => rfl

end NetworkIndicatorPlugin

/-! ## The requests of the screens -/

/-- The requests of a list in flight. -/
def Transform.outstanding (s : Transform) : Nat := s.refreshes.length + s.more.toList.length

/-- The requests of the screens in flight. -/
def Screens.outstanding (s : Screens) : Nat :=
  s.nowPlaying.outstanding + s.upComing.outstanding + s.details.countP (·.waiting)

/-- What a list's action does to its requests: it sends one, after `flatMapLatest` has
dropped the more before, or it ends one. -/
theorem Transform.Step.outstanding {type : HotType} {s t : Transform} {storage storage' : Storage}
    {a : Transform.Action} {log : List Transform.Emission}
    (h : Transform.Step type s storage a t storage' log) :
    match a with
    | .refresh => t.outstanding = s.outstanding + 1
    | .more => t.outstanding + s.more.toList.length = s.outstanding + 1
    | .answerRefresh _ _ | .answerMore _ _ => t.outstanding + 1 = s.outstanding := by
  cases h with
  | refresh =>
      simp only [Transform.outstanding, List.length_append, List.length_cons, List.length_nil]
      omega
  | more =>
      simp only [Transform.outstanding, Option.toList_some, List.length_cons, List.length_nil]
      omega
  | answerRefresh inner result hmem =>
      have hlength := List.length_erase_of_mem hmem
      have hpos := List.length_pos_of_mem hmem
      simp only [Transform.outstanding]
      omega
  | answerMore inner result hmore =>
      simp only [Transform.outstanding, hmore, Option.toList_some, Option.toList_none,
        List.length_cons, List.length_nil]

namespace Screens

theorem outstanding_setList (s : Screens) (t : Transform) (type : HotType) :
    (s.setList t type).outstanding + (s.list type).outstanding = s.outstanding + t.outstanding := by
  cases type with
  | nowPlaying =>
      simp only [outstanding, setList, list]
      omega
  | upComing =>
      simp only [outstanding, setList, list]
      omega

/-- The request that an action cancels when it is taken. -/
def cancels (s : Screens) : Action → Nat
  | .hot type .more => (s.list type).more.toList.length
  | _ => 0

/-- The details screens after one of them is answered, or given up, wait for one less. -/
theorem countP_waiting_set {details : List DetailTransform} {index : Nat}
    {detail : DetailTransform} (hdetail : details[index]? = some detail)
    (hwaiting : detail.waiting = true) (detail' : DetailTransform)
    (hover : detail'.waiting = false) :
    (details.set index detail').countP (·.waiting) + 1 = details.countP (·.waiting) := by
  obtain ⟨hlt, rfl⟩ := List.getElem?_eq_some_iff.mp hdetail
  have hpos : 0 < details.countP (·.waiting) :=
    List.countP_pos_iff.mpr ⟨details[index], List.getElem_mem hlt, hwaiting⟩
  rw [List.countP_set hlt, hwaiting, hover]
  simp only [if_true, Bool.false_eq_true, if_false]
  omega

end Screens

namespace NetworkIndicatorPlugin

/-- What the provider tells the plugin of a step of the screens: each of their triggers
sends one request, each answer is the completion of one. -/
def tell (p : NetworkIndicatorPlugin) : Screens.Action → NetworkIndicatorPlugin
  | .hot _ .refresh | .hot _ .more | .openDetail _ => p.willSend
  | .hot _ (.answerRefresh _ _) | .hot _ (.answerMore _ _) | .answerDetail _ _ => p.didReceive

/-- A step of the screens either sends a request or ends one, and the plugin is told which. -/
theorem tell_cases {s s' : Screens} {a : Screens.Action} {out : List Screens.Output}
    (h : Screens.machine.step s a = some (s', out)) (p : NetworkIndicatorPlugin) :
    (p.tell a = p.willSend ∧ s'.outstanding + s.cancels a = s.outstanding + 1) ∨
      (p.tell a = p.didReceive ∧ s.cancels a = 0 ∧ s'.outstanding + 1 = s.outstanding) := by
  cases a with
  | hot type action =>
      obtain ⟨t, storage, log, hstep, hs', -⟩ := Screens.step_hot_eq_some h
      have hlist := hstep.outstanding
      have hscreens : s'.outstanding + (s.list type).outstanding =
          s.outstanding + t.outstanding := by
        rw [hs']
        exact s.outstanding_setList t type
      cases action with
      | refresh =>
          refine .inl ⟨rfl, ?_⟩
          simp only [Screens.cancels] at hlist ⊢
          omega
      | more =>
          refine .inl ⟨rfl, ?_⟩
          simp only [Screens.cancels] at hlist ⊢
          omega
      | answerRefresh inner result =>
          refine .inr ⟨rfl, rfl, ?_⟩
          simp only at hlist
          omega
      | answerMore inner result =>
          refine .inr ⟨rfl, rfl, ?_⟩
          simp only at hlist
          omega
  | openDetail id =>
      cases h
      refine .inl ⟨rfl, ?_⟩
      have hcount : (s.details ++ [(DetailTransform.bindViewModel id s.storage).1.1]).countP
          (·.waiting) = s.details.countP (·.waiting) + 1 := by
        rw [List.countP_append]
        rfl
      show s.nowPlaying.outstanding + s.upComing.outstanding +
        (s.details ++ [(DetailTransform.bindViewModel id s.storage).1.1]).countP (·.waiting) = _
      rw [hcount]
      rfl
  | answerDetail index result =>
      simp only [Screens.machine] at h
      cases hdetail : s.details[index]? with
      | none =>
          rw [hdetail] at h
          cases h
      | some detail =>
          simp only [hdetail, Option.ite_none_right_eq_some, Option.some.injEq] at h
          obtain ⟨hwaiting, heq⟩ := h
          cases heq
          refine .inr ⟨rfl, rfl, ?_⟩
          have hcount := Screens.countP_waiting_set hdetail hwaiting
            (detail.answer s.storage result).1.1 rfl
          show s.nowPlaying.outstanding + s.upComing.outstanding +
            (s.details.set index (detail.answer s.storage result).1.1).countP (·.waiting) + 1 = _
          rw [Screens.outstanding]
          omega

end NetworkIndicatorPlugin

/-! ## The app with its indicator -/

/-- The screens, the cancelled requests whose completion is still to come, and the plugin. -/
structure Indicated where
  screens : Screens
  cancelled : Nat := 0
  plugin : NetworkIndicatorPlugin := {}

namespace Indicated

open NetworkIndicatorPlugin

inductive Action where
  | screens (action : Screens.Action)
  | closeDetail (index : Nat)
  | cancelledCompletion
  | mainBlock

/-- A detail screen is left: the bag of its controller disposes the subscription, which
cancels a request still in flight. -/
def closeDetail (s : Indicated) (index : Nat) (detail : DetailTransform) : Indicated :=
  if detail.waiting then
    { s with
      screens := { s.screens with
        details := s.screens.details.set index { detail with waiting := false } }
      cancelled := s.cancelled + 1 }
  else s

def machine : Machine Indicated Action Screens.Output where
  step s
    | .screens action =>
        (Screens.machine.step s.screens action).map fun (screens, out) =>
          ({ screens
             cancelled := s.cancelled + s.screens.cancels action
             plugin := s.plugin.tell action }, out)
    | .closeDetail index =>
        (s.screens.details[index]?).map fun detail => (s.closeDetail index detail, [])
    | .cancelledCompletion =>
        if 0 < s.cancelled then
          some ({ s with cancelled := s.cancelled - 1, plugin := s.plugin.didReceive }, [])
        else none
    | .mainBlock =>
        if 0 < s.plugin.mainQueue then some ({ s with plugin := s.plugin.runBlock }, [])
        else none

/-- The requests that have gone out and whose completion has not come. -/
def inFlight (s : Indicated) : Nat := s.screens.outstanding + s.cancelled

/-- The plugin has counted every request, and is right about it once the queue is empty. -/
structure Counted (s : Indicated) : Prop where
  count : s.plugin.numberOfRequests = s.inFlight
  settles : s.plugin.Settles

theorem closeDetail_inFlight {s : Indicated} {index : Nat} {detail : DetailTransform}
    (hdetail : s.screens.details[index]? = some detail) :
    (s.closeDetail index detail).inFlight = s.inFlight := by
  rw [closeDetail]
  split
  next hwaiting =>
      have hcount :=
        Screens.countP_waiting_set hdetail hwaiting { detail with waiting := false } rfl
      simp only [inFlight, Screens.outstanding]
      omega
  next => rfl

@[simp] theorem closeDetail_plugin (s : Indicated) (index : Nat) (detail : DetailTransform) :
    (s.closeDetail index detail).plugin = s.plugin := by
  rw [closeDetail]
  split <;> rfl

/-- Every step keeps the count. -/
theorem Counted.step {s t : Indicated} {a : Action} {out : List Screens.Output} (hs : Counted s)
    (h : machine.step s a = some (t, out)) : Counted t := by
  have hcount := hs.count
  cases a with
  | screens action =>
      obtain ⟨⟨screens, out'⟩, hstep, heq⟩ := Option.map_eq_some_iff.mp h
      cases heq
      rcases tell_cases hstep s.plugin with ⟨htell, hreq⟩ | ⟨htell, hkeep, hreq⟩
      · refine ⟨?_, by rw [htell]; exact hs.settles.willSend⟩
        simp only [htell, NetworkIndicatorPlugin.willSend, setNumberOfRequests_numberOfRequests,
          inFlight] at hcount ⊢
        omega
      · refine ⟨?_, by rw [htell]; exact hs.settles.didReceive⟩
        simp only [htell, NetworkIndicatorPlugin.didReceive, setNumberOfRequests_numberOfRequests,
          inFlight] at hcount ⊢
        omega
  | closeDetail index =>
      obtain ⟨detail, hdetail, heq⟩ := Option.map_eq_some_iff.mp h
      cases heq
      refine ⟨?_, ?_⟩
      · rw [closeDetail_plugin, closeDetail_inFlight hdetail]
        exact hcount
      · rw [closeDetail_plugin]
        exact hs.settles
  | cancelledCompletion =>
      simp only [machine, Option.ite_none_right_eq_some, Option.some.injEq] at h
      obtain ⟨hpos, heq⟩ := h
      cases heq
      refine ⟨?_, hs.settles.didReceive⟩
      simp only [NetworkIndicatorPlugin.didReceive, setNumberOfRequests_numberOfRequests,
        inFlight] at hcount ⊢
      omega
  | mainBlock =>
      simp only [machine, Option.ite_none_right_eq_some, Option.some.injEq] at h
      obtain ⟨-, heq⟩ := h
      cases heq
      exact ⟨hcount, settles_runBlock s.plugin⟩

theorem counted_run {storage : Storage} {as : List Action} {s : Indicated}
    {log : List Screens.Output}
    (hrun : machine.run { screens := { storage } } as = some (s, log)) : Counted s :=
  Machine.invariant (P := fun s _ => Counted s) ⟨rfl, fun _ => rfl⟩
    (fun _ _ _ _ _ hs hstep => hs.step hstep) hrun

/-- The blocks that wait on the main queue run, and change nothing but the indicator. -/
theorem run_mainBlocks : ∀ (n : Nat) (s : Indicated), s.plugin.mainQueue = n →
    ∃ t, machine.run s (List.replicate n .mainBlock) = some (t, []) ∧ t.screens = s.screens ∧
      t.cancelled = s.cancelled ∧ t.plugin.mainQueue = 0 := by
  intro n
  induction n with
  | zero =>
      intro s hqueue
      exact ⟨s, rfl, rfl, rfl, hqueue⟩
  | succ n ih =>
      intro s hqueue
      have hstep : machine.step s .mainBlock = some ({ s with plugin := s.plugin.runBlock }, []) :=
        if_pos (by omega)
      have hless : s.plugin.runBlock.mainQueue = n := by
        show s.plugin.mainQueue - 1 = n
        omega
      obtain ⟨t, hrun, hscreens, hcancelled, hempty⟩ :=
        ih { s with plugin := s.plugin.runBlock } hless
      refine ⟨t, ?_, hscreens, hcancelled, hempty⟩
      rw [List.replicate_succ]
      exact machine.run_cons_eq_some.mpr ⟨_, [], [], hstep, hrun, rfl⟩

/-- **The plugin counts the requests in flight**, in every run; so it never counts below 0. -/
theorem counts_requests {storage : Storage} {as : List Action} {s : Indicated}
    {log : List Screens.Output}
    (hrun : machine.run { screens := { storage } } as = some (s, log)) :
    s.plugin.numberOfRequests = s.inFlight ∧ 0 ≤ s.plugin.numberOfRequests := by
  have hcount := (counted_run hrun).count
  exact ⟨hcount, by omega⟩

/-- **The indicator shows whether a request is in flight**, in every run, once the main
queue has run the blocks that wait on it. -/
theorem indicator_shows_activity {storage : Storage} {as : List Action} {s : Indicated}
    {log : List Screens.Output}
    (hrun : machine.run { screens := { storage } } as = some (s, log)) :
    ∃ t, machine.run s (List.replicate s.plugin.mainQueue .mainBlock) = some (t, []) ∧
      t.screens = s.screens ∧ t.plugin.mainQueue = 0 ∧
      (t.plugin.isNetworkActivityIndicatorVisible = true ↔ 0 < s.inFlight) := by
  obtain ⟨t, hblocks, hscreens, hcancelled, hempty⟩ := run_mainBlocks _ s rfl
  have hcounted : Counted t :=
    counted_run (machine.run_append_eq_some.mpr ⟨s, log, [], hrun, hblocks, rfl⟩)
  have hsame : t.inFlight = s.inFlight := by rw [inFlight, inFlight, hscreens, hcancelled]
  refine ⟨t, hblocks, hscreens, hempty, ?_⟩
  rw [hcounted.settles hempty, decide_eq_true_iff, hcounted.count, hsame]
  omega

/-- Two mores, the second answered, the completion of the first still to come. -/
def sampleCancelled : List Action :=
  [.screens (.hot .nowPlaying .more), .mainBlock, .screens (.hot .nowPlaying .more),
    .screens (.hot .nowPlaying
      (.answerMore ⟨0, .getNowPlaying 40⟩ (Transform.samplePage ["1"])))]

theorem run_sampleCancelled : ∃ s log,
    machine.run { screens := { storage := fun _ => none } } sampleCancelled = some (s, log) ∧
      s.inFlight = 1 ∧ s.plugin.mainQueue = 1 :=
  ⟨_, _, rfl, rfl, rfl⟩

theorem counts_requests_sampleCancelled : ∃ s log,
    machine.run { screens := { storage := fun _ => none } } sampleCancelled = some (s, log) ∧
      s.plugin.numberOfRequests = s.inFlight ∧ 0 ≤ s.plugin.numberOfRequests := by
  obtain ⟨s, log, hrun, -, -⟩ := run_sampleCancelled
  exact ⟨s, log, hrun, counts_requests hrun⟩

/-- The indicator stays on for the cancelled request. -/
theorem indicator_shows_activity_sampleCancelled : ∃ s log t,
    machine.run { screens := { storage := fun _ => none } } sampleCancelled = some (s, log) ∧
      machine.run s [.mainBlock] = some (t, []) ∧
      t.plugin.isNetworkActivityIndicatorVisible = true := by
  obtain ⟨s, log, hrun, hone, hqueue⟩ := run_sampleCancelled
  obtain ⟨t, hblocks, -, -, hvisible⟩ := indicator_shows_activity hrun
  rw [hqueue] at hblocks
  exact ⟨s, log, t, hrun, hblocks, hvisible.mpr (by omega)⟩

end Indicated

end MagnetX
