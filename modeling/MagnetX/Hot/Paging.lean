/-
# `MagnetX.Hot.Paging` — when the sections are the pages

The cursor moves when a request goes out and the sections change when an answer comes
in, so the two agree only if the answers come in a certain order.  `InOrder` is that
order, one condition on each step:

* a more does not drop a more of the same refresh;
* no older refresh is answered after the latest;
* a more of the latest refresh is answered after it, and a more left over from before
  it is answered before it.

Under `InOrder`, `Contiguous` is an invariant, and with no request in flight it says
that the sections are the pages from 0 to the cursor (`sections_contiguous`).

If no trigger comes while a request is in flight the order is kept (`inOrder_of_sequential`),
and with a server that holds one list the view model is a plain paginator
(`sequential_refines_paginator`), after every answer (`displayed_after_answer`).
-/
import MagnetX.Hot.ViewModel
import MagnetX.Lib.Paginator

namespace MagnetX

open Lib Lib.Json

namespace Transform

/-! ## The order of answers -/

/-- The request of the latest refresh trigger is in flight. -/
def LatestInFlight (s : Transform) : Prop := s.InFlight s.refreshCount

instance (s : Transform) : Decidable s.LatestInFlight :=
  inferInstanceAs (Decidable (s.InFlight s.refreshCount))

/-- The order in which the sections stay together. -/
def InOrder (s : Transform) : Action → Prop
  | .refresh => True
  | .more => ∀ inner ∈ s.more, inner.refreshNo ≠ s.refreshCount
  | .answerRefresh _ _ => s.LatestInFlight
  | .answerMore inner _ => inner.refreshNo = s.refreshCount ↔ ¬ s.LatestInFlight

instance (s : Transform) : ∀ a, Decidable (InOrder s a)
  | .refresh => inferInstanceAs (Decidable True)
  | .more => inferInstanceAs (Decidable (∀ inner ∈ s.more, inner.refreshNo ≠ s.refreshCount))
  | .answerRefresh _ _ => inferInstanceAs (Decidable s.LatestInFlight)
  | .answerMore inner _ =>
      inferInstanceAs (Decidable (inner.refreshNo = s.refreshCount ↔ ¬ s.LatestInFlight))

/-- The request succeeds with the page that `page` has for it. -/
def Action.AnsweredWith (page : Inner → List HotMovieModel) : Action → Prop
  | .refresh | .more => True
  | .answerRefresh inner result => resultOf (List HotMovieModel) result = .ok (page inner)
  | .answerMore inner result => mapResultOf (List HotMovieModel) result = .ok (page inner)

section Contiguity

variable (type : HotType) (page : Inner → List HotMovieModel)

/-- The section of the `i`-th page after refresh `refreshNo`. -/
def sectionAt (refreshNo i : Nat) : HotMovieListModel := ⟨page ⟨refreshNo, type.target (20 * i)⟩⟩

/-- The sections of the first `k` pages. -/
def firstSections (refreshNo k : Nat) : List HotMovieListModel :=
  (List.range k).map (sectionAt type page refreshNo)

theorem firstSections_succ (refreshNo k : Nat) :
    firstSections type page refreshNo (k + 1) =
      firstSections type page refreshNo k ++ [sectionAt type page refreshNo k] := by
  simp only [firstSections, List.range_succ, List.map_append, List.map_cons, List.map_nil]

/-- `k` pages after the first are in the sections, once the latest refresh is answered;
the cursor is at the last of them, or at the one being asked for. -/
structure ContiguousAt (k : Nat) (s : Transform) : Prop where
  sections : ¬ s.LatestInFlight →
    s.viewModel.sections = firstSections type page s.refreshCount (k + 1)
  waiting : s.LatestInFlight → k = 0
  cursor : (s.viewModel.startIndex = 20 * k ∧
      ∀ inner, s.more = some inner → inner.refreshNo ≠ s.refreshCount) ∨
    (s.viewModel.startIndex = 20 * (k + 1) ∧
      s.more = some ⟨s.refreshCount, type.target (20 * (k + 1))⟩)

def Contiguous (s : Transform) : Prop := ∃ k, ContiguousAt type page k s

variable {type page} {s t : Transform} {storage storage' : Storage} {log : List Emission}

/-- Whatever came before, a refresh trigger starts over. -/
theorem contiguous_of_refresh (h : Step type s storage .refresh t storage' log)
    (hs : Numbered type s) : Contiguous type page t := by
  cases h
  refine ⟨0, ?_, fun _ => rfl, .inl ⟨rfl, ?_⟩⟩
  · intro hlatest
    refine absurd ?_ hlatest
    exact ⟨_, List.mem_append_right _ (List.mem_singleton_self _), rfl⟩
  · intro inner hinner heq
    have hle : inner.refreshNo ≤ s.refreshCount := hs.more_le inner hinner
    have heq' : inner.refreshNo = s.refreshCount + 1 := heq
    omega

/-- Answering the latest refresh takes its request, and nothing of the same number is left. -/
theorem not_latestInFlight_erase (hs : Numbered type s) {inner : Inner}
    (hmem : inner ∈ s.refreshes) (hno : inner.refreshNo = s.refreshCount) :
    ∀ other ∈ s.refreshes.erase inner, other.refreshNo ≠ s.refreshCount := by
  intro other hother hother'
  obtain ⟨hne, hother⟩ := (hs.refresh_nodup.mem_erase_iff).mp hother
  apply hne
  have htarget : other.target = inner.target := by
    rw [hs.refresh_target other hother, hs.refresh_target inner hmem]
  cases other
  cases inner
  simp_all

theorem Step.contiguous {a : Action} (h : Step type s storage a t storage' log)
    (hnum : Numbered type s) (hs : Contiguous type page s) (horder : InOrder s a)
    (hanswer : a.AnsweredWith page) : Contiguous type page t := by
  obtain ⟨k, hk⟩ := hs
  cases h with
  | refresh => exact contiguous_of_refresh (Step.refresh s storage) hnum
  | more =>
      -- the guard says no more of this refresh is in flight: the cursor is at page `k`
      rcases hk.cursor with ⟨hcursor, -⟩ | ⟨-, hmore⟩
      · refine ⟨k, hk.sections, hk.waiting, .inr ⟨?_, ?_⟩⟩
        · show s.viewModel.startIndex + 20 = 20 * (k + 1)
          omega
        · show some (⟨s.refreshCount, type.target (s.viewModel.startIndex + 20)⟩ : Inner) = _
          rw [hcursor, Nat.mul_succ]
      · exact absurd rfl (horder _ hmore)
  | answerRefresh inner result hmem =>
      have hzero : k = 0 := hk.waiting horder
      by_cases hno : inner.refreshNo = s.refreshCount
      · refine ⟨k, ?_, ?_, hk.cursor⟩
        · intro _
          have hpage : resultOf (List HotMovieModel) result = .ok (page inner) := hanswer
          have hinner : inner = ⟨s.refreshCount, type.target (20 * 0)⟩ := by
            rw [← hno, ← hnum.refresh_target inner hmem]
          show [HotMovieListModel.mk (shown (resultOf (List HotMovieModel) result))] = _
          rw [hpage, hzero, hinner]
          rfl
        · rintro ⟨other, hother, hother'⟩
          exact absurd hother' (not_latestInFlight_erase hnum hmem hno other hother)
      · -- an older refresh: the latest is still in flight and will replace what this one shows
        obtain ⟨latest, hlatest, hlatest'⟩ := horder
        have hne : latest ≠ inner := fun heq => hno (heq ▸ hlatest')
        have hstill : latest ∈ s.refreshes.erase inner := (List.mem_erase_of_ne hne).mpr hlatest
        exact ⟨k, fun hnot => absurd ⟨latest, hstill, hlatest'⟩ hnot, fun _ => hzero, hk.cursor⟩
  | answerMore inner result hmore =>
      rcases hk.cursor with ⟨hcursor, hold⟩ | ⟨hcursor, hnew⟩
      · -- a more from before the latest refresh, which is in flight
        have hlatest : s.LatestInFlight := by
          by_contra hnot
          exact hold inner hmore (horder.mpr hnot)
        refine ⟨k, fun hnot => absurd hlatest hnot, hk.waiting, .inl ⟨hcursor, ?_⟩⟩
        intro other hother
        cases hother
      · have hinner : inner = ⟨s.refreshCount, type.target (20 * (k + 1))⟩ :=
          Option.some.inj (hmore.symm.trans hnew)
        have hnot : ¬ s.LatestInFlight := horder.mp (by rw [hinner])
        have hpage : mapResultOf (List HotMovieModel) result = .ok (page inner) := hanswer
        refine ⟨k + 1, ?_, fun hlatest => absurd hlatest hnot, .inl ⟨hcursor, ?_⟩⟩
        · intro _
          show s.viewModel.sections ++
            [HotMovieListModel.mk (shown (mapResultOf (List HotMovieModel) result))] = _
          rw [hpage, hk.sections hnot, firstSections_succ type page s.refreshCount (k + 1), hinner]
          rfl
        · intro other hother
          cases hother

/-- With no request in flight, a contiguous state shows the pages from 0 to the cursor. -/
theorem Contiguous.of_idle (hs : Contiguous type page s) (hidle : s.Idle) :
    ∃ k, s.viewModel.startIndex = 20 * k ∧
      s.viewModel.sections = firstSections type page s.refreshCount (k + 1) := by
  obtain ⟨k, hk⟩ := hs
  have hnot : ¬ s.LatestInFlight := by
    rintro ⟨inner, hinner, -⟩
    rw [hidle.1] at hinner
    exact List.not_mem_nil hinner
  rcases hk.cursor with ⟨hcursor, -⟩ | ⟨-, hmore⟩
  · exact ⟨k, hcursor, hk.sections hnot⟩
  · rw [hidle.2] at hmore
    cases hmore

end Contiguity

/-- A run in order from a refresh trigger on leaves the pages contiguous. -/
theorem contiguous_of_run {type : HotType} {page : Inner → List HotMovieModel}
    {m s : Transform} {storage storage' : Storage} {as : List Action} {log : List Emission}
    (hm : Numbered type m)
    (hrun : (machine type).run (m, storage) (.refresh :: as) = some ((s, storage'), log))
    (hanswer : ∀ a ∈ as, a.AnsweredWith page)
    (horder : (machine type).Guarded (fun state a => InOrder state.1 a) (m, storage)
      (.refresh :: as)) :
    Contiguous type page s := by
  have hguard := horder.and
    (Machine.guarded_of_forall (m, storage) (List.forall_mem_cons.mpr ⟨trivial, hanswer⟩))
  refine (Machine.run_induction_from (P := fun _ state _ => Numbered type state.1 ∧
    Contiguous type page state.1) ?_ ?_ hrun hguard).2
  · intro t o _ hstep
    have h := step_eq_some_iff.mp hstep
    exact ⟨h.numbered hm, contiguous_of_refresh h hm⟩
  · intro as state _ a t o hstate ha hstep
    have h := step_eq_some_iff.mp hstep
    exact ⟨h.numbered hstate.1, h.contiguous hstate.1 hstate.2 ha.1 ha.2⟩

/-- **Pages stay contiguous in an ordered run.**  After any prefix, if the answers keep
the order from a refresh trigger on, then whenever no request is in flight the sections
are the pages from 0 to the cursor, as the requests since the last refresh trigger were
answered. -/
theorem sections_contiguous {type : HotType} {page : Inner → List HotMovieModel}
    {m s : Transform} {storage₀ storage storage' : Storage} {before as : List Action}
    {log log' : List Emission}
    (hbefore : (machine type).run ({}, storage₀) before = some ((m, storage), log))
    (hrun : (machine type).run (m, storage) (.refresh :: as) = some ((s, storage'), log'))
    (hanswer : ∀ a ∈ as, a.AnsweredWith page)
    (horder : (machine type).Guarded (fun state a => InOrder state.1 a) (m, storage)
      (.refresh :: as))
    (hidle : s.Idle) :
    ∃ k, s.viewModel.startIndex = 20 * k ∧
      s.viewModel.sections = firstSections type page s.refreshCount (k + 1) :=
  (contiguous_of_run (numbered_of_run hbefore) hrun hanswer horder).of_idle hidle

/-- Two pages for `nowPlaying`. -/
def samplePages (inner : Inner) : List HotMovieModel :=
  [sampleMovie (if inner.target = .getNowPlaying 0 then "1" else "2")]

theorem sections_contiguous_two_pages :
    ∃ k, 20 = 20 * k ∧
      [HotMovieListModel.mk [sampleMovie "1"], ⟨[sampleMovie "2"]⟩] =
        firstSections .nowPlaying samplePages 1 (k + 1) := by
  have hbefore : (machine .nowPlaying).run ({}, fun _ => none) [] =
      some (({}, fun _ => none), []) := rfl
  have hrun : (machine .nowPlaying).run ({}, fun _ => none)
      [.refresh, .answerRefresh ⟨1, .getNowPlaying 0⟩ (samplePage ["1"]), .more,
        .answerMore ⟨1, .getNowPlaying 20⟩ (samplePage ["2"])] =
      some (({ viewModel := ⟨20, [⟨[sampleMovie "1"]⟩, ⟨[sampleMovie "2"]⟩]⟩
               refreshCount := 1 }, _), _) := rfl
  have hanswer : ∀ a ∈ [Action.answerRefresh ⟨1, .getNowPlaying 0⟩ (samplePage ["1"]), .more,
      .answerMore ⟨1, .getNowPlaying 20⟩ (samplePage ["2"])], a.AnsweredWith samplePages := by
    simp only [List.forall_mem_cons]
    exact ⟨rfl, trivial, rfl, by simp⟩
  exact sections_contiguous hbefore hrun hanswer (by decide) (by decide)

/-- A more answered while the refresh is in flight: the refresh throws its page away, with
the cursor past it. -/
theorem more_answered_inside_refresh :
    ¬ ∀ (type : HotType) (page : Inner → List HotMovieModel) (storage₀ storage : Storage)
        (as : List Action) (s : Transform) (log : List Emission),
      (machine type).run ({}, storage₀) (.refresh :: as) = some ((s, storage), log) →
      (∀ a ∈ as, a.AnsweredWith page) → s.Idle →
      ∃ k, s.viewModel.startIndex = 20 * k ∧
        s.viewModel.sections = firstSections type page s.refreshCount (k + 1) := by
  intro h
  have hrun : (machine .nowPlaying).run ({}, fun _ => none)
      [.refresh, .more, .answerMore ⟨1, .getNowPlaying 20⟩ (samplePage ["2"]),
        .answerRefresh ⟨1, .getNowPlaying 0⟩ (samplePage ["1"])] =
      some (({ viewModel := ⟨20, [⟨[sampleMovie "1"]⟩]⟩, refreshCount := 1 }, _), _) := rfl
  have hanswer : ∀ a ∈ [Action.more, .answerMore ⟨1, .getNowPlaying 20⟩ (samplePage ["2"]),
      .answerRefresh ⟨1, .getNowPlaying 0⟩ (samplePage ["1"])], a.AnsweredWith samplePages := by
    simp only [List.forall_mem_cons]
    exact ⟨trivial, rfl, rfl, by simp⟩
  obtain ⟨k, hcursor, hsections⟩ := h _ _ _ _ _ _ _ hrun hanswer (by decide)
  have hk : k = 1 := by
    have : 20 = 20 * k := hcursor
    omega
  rw [hk] at hsections
  exact absurd (congrArg List.length hsections) (by decide)

/-! ## One request at a time -/

/-- A trigger comes only when no request is in flight. -/
def Sequential (s : Transform) : Action → Prop
  | .refresh | .more => s.Idle
  | .answerRefresh _ _ | .answerMore _ _ => True

instance (s : Transform) : ∀ a, Decidable (Sequential s a)
  | .refresh | .more => inferInstanceAs (Decidable s.Idle)
  | .answerRefresh _ _ | .answerMore _ _ => inferInstanceAs (Decidable True)

/-- At most one request is in flight, and it belongs to the latest refresh. -/
inductive OneRequest (s : Transform) : Prop
  | idle (hidle : s.Idle)
  | refresh (inner : Inner) (hrefreshes : s.refreshes = [inner])
      (hno : inner.refreshNo = s.refreshCount) (hmore : s.more = none)
  | more (inner : Inner) (hrefreshes : s.refreshes = []) (hno : inner.refreshNo = s.refreshCount)
      (hmore : s.more = some inner)

/-- A trigger, as an operation of a paginator. -/
def Action.op : Action → Option Paginator.Op
  | .refresh => some .refresh
  | .more => some .more
  | .answerRefresh _ _ | .answerMore _ _ => none

/-- With at most one request in flight, its answer comes in order and leaves none. -/
theorem Step.idle_of_answer {type : HotType} {s t : Transform} {storage storage' : Storage}
    {a : Action} {log : List Emission} (h : Step type s storage a t storage' log)
    (ha : a.op = none) (hs : OneRequest s) : InOrder s a ∧ t.Idle := by
  cases h with
  | refresh => cases ha
  | more => cases ha
  | answerRefresh inner result hmem =>
      cases hs with
      | idle hidle =>
          rw [hidle.1] at hmem
          exact absurd hmem List.not_mem_nil
      | refresh inner' hrefreshes hno hmore =>
          have heq : inner = inner' := by
            rw [hrefreshes] at hmem
            exact List.mem_singleton.mp hmem
          refine ⟨⟨inner, hmem, heq ▸ hno⟩, ?_, hmore⟩
          show s.refreshes.erase inner = []
          rw [hrefreshes, heq, List.erase_cons_head]
      | more inner' hrefreshes hno hmore =>
          rw [hrefreshes] at hmem
          exact absurd hmem List.not_mem_nil
  | answerMore inner result hmore =>
      cases hs with
      | idle hidle =>
          rw [hidle.2] at hmore
          cases hmore
      | refresh inner' hrefreshes hno hmore' =>
          rw [hmore'] at hmore
          cases hmore
      | more inner' hrefreshes hno hmore' =>
          have heq : inner = inner' := Option.some.inj (hmore.symm.trans hmore')
          have hnot : ¬ s.LatestInFlight := by
            rintro ⟨other, hother, -⟩
            rw [hrefreshes] at hother
            exact List.not_mem_nil hother
          exact ⟨iff_of_true (heq ▸ hno) hnot, hrefreshes, rfl⟩

theorem Step.oneRequest {type : HotType} {s t : Transform} {storage storage' : Storage}
    {a : Action} {log : List Emission} (h : Step type s storage a t storage' log)
    (hseq : Sequential s a) (hs : OneRequest s) : InOrder s a ∧ OneRequest t := by
  cases a with
  | refresh =>
      cases h
      refine ⟨trivial, .refresh ⟨s.refreshCount + 1, type.target 0⟩ ?_ rfl hseq.2⟩
      show s.refreshes ++ [_] = _
      rw [hseq.1, List.nil_append]
  | more =>
      cases h
      refine ⟨fun inner hinner => ?_, .more _ hseq.1 rfl rfl⟩
      rw [hseq.2] at hinner
      cases hinner
  | answerRefresh inner result =>
      obtain ⟨horder, hidle⟩ := h.idle_of_answer rfl hs
      exact ⟨horder, .idle hidle⟩
  | answerMore inner result =>
      obtain ⟨horder, hidle⟩ := h.idle_of_answer rfl hs
      exact ⟨horder, .idle hidle⟩

/-- A run with one request at a time keeps the order. -/
theorem inOrder_of_sequential {type : HotType} {storage₀ storage : Storage} {as : List Action}
    {s : Transform} {log : List Emission}
    (hrun : (machine type).run ({}, storage₀) as = some ((s, storage), log))
    (hseq : (machine type).Guarded (fun state a => Sequential state.1 a) ({}, storage₀) as) :
    (machine type).Guarded (fun state a => InOrder state.1 a) ({}, storage₀) as ∧
      OneRequest s := by
  refine Machine.Guarded.of_invariant (I := fun state => OneRequest state.1)
    (.idle ⟨rfl, rfl⟩) ?_ hrun hseq
  intro s a t o hs ha hstep
  exact (step_eq_some_iff.mp hstep).oneRequest ha hs

/-- With one request at a time, nothing is in flight after an answer. -/
theorem idle_of_sequential {type : HotType} {storage₀ storage : Storage} {as : List Action}
    {a : Action} {s : Transform} {log : List Emission}
    (hrun : (machine type).run ({}, storage₀) (as ++ [a]) = some ((s, storage), log))
    (hseq : (machine type).Guarded (fun state a => Sequential state.1 a) ({}, storage₀)
      (as ++ [a]))
    (ha : a.op = none) : s.Idle := by
  obtain ⟨⟨m, storage'⟩, front, new, hfront, hstep, -⟩ := (machine type).run_snoc_eq_some.mp hrun
  have hone := (inOrder_of_sequential hfront hseq.of_append).2
  exact ((step_eq_some_iff.mp hstep).idle_of_answer ha hone).2

/-! ## The cursor counts the triggers -/

theorem Step.startIndex {type : HotType} {s t : Transform} {storage storage' : Storage}
    {a : Action} {log : List Emission} (h : Step type s storage a t storage' log)
    {as : List Action} (hs : s.viewModel.startIndex = 20 * Paginator.run (as.filterMap Action.op)) :
    t.viewModel.startIndex = 20 * Paginator.run ((as ++ [a]).filterMap Action.op) := by
  rw [List.filterMap_append]
  cases h with
  | refresh =>
      show 0 = 20 * Paginator.run (as.filterMap Action.op ++ [.refresh])
      rw [Paginator.run_snoc, Paginator.step, Nat.mul_zero]
  | more =>
      show s.viewModel.startIndex + 20 = 20 * Paginator.run (as.filterMap Action.op ++ [.more])
      rw [Paginator.run_snoc, Paginator.step, hs, Nat.mul_succ]
  | answerRefresh inner result hmem =>
      show s.viewModel.startIndex = 20 * Paginator.run (as.filterMap Action.op ++ [])
      rw [List.append_nil, hs]
  | answerMore inner result hmore =>
      show s.viewModel.startIndex = 20 * Paginator.run (as.filterMap Action.op ++ [])
      rw [List.append_nil, hs]

theorem startIndex_of_run {type : HotType} {storage₀ storage : Storage} {as : List Action}
    {s : Transform} {log : List Emission}
    (hrun : (machine type).run ({}, storage₀) as = some ((s, storage), log)) :
    s.viewModel.startIndex = 20 * Paginator.run (as.filterMap Action.op) := by
  refine Machine.run_induction (G := fun _ _ => True)
    (P := fun as state _ =>
      state.1.viewModel.startIndex = 20 * Paginator.run (as.filterMap Action.op))
    rfl ?_ hrun (Machine.guarded_true as _)
  intro as s _ a t o _ hs _ hstep
  exact (step_eq_some_iff.mp hstep).startIndex hs

/-! ## A server that holds one list -/

/-- A parameter as a number; in the query string both kinds are decimal text. -/
def natOf : AnyValue → Option Nat
  | .int n => n.toNat?
  | .string s => digits s.toList
  | .other => none

/-- The `start` and the `count` of a request. -/
def pageRequested : Task → Option (Nat × Nat)
  | .requestParameters parameters _ => do
      let start ← (parameters.lookup "start").bind natOf
      let count ← (parameters.lookup "count").bind natOf
      return (start, count)
  | _ => none

/-- What a server that holds `S` answers a request with. -/
def serve (S : List HotMovieModel) (task : Task) : List HotMovieModel :=
  match pageRequested task with
  | some (start, count) => Paginator.page count S start
  | none => []

/-- `taskClosure` leaves the start index as it is and asks for `LIMIT_COUNT` movies. -/
theorem pageRequested_taskClosure (type : HotType) (startIndex : Nat) :
    pageRequested (NetworkService.taskClosure (type.target startIndex)) =
      some (startIndex, LIMIT_COUNT) := by
  cases type with
  | nowPlaying => rfl
  | upComing => rfl

theorem firstSections_serve (type : HotType) (S : List HotMovieModel) (refreshNo k : Nat) :
    (firstSections type (fun inner => serve S (NetworkService.taskClosure inner.target))
      refreshNo (k + 1)).map HotMovieListModel.items = Paginator.view LIMIT_COUNT S k := by
  simp only [firstSections, Paginator.view, List.map_map]
  refine List.map_congr_left fun i _ => ?_
  show serve S (NetworkService.taskClosure (type.target (20 * i))) = _
  rw [serve, pageRequested_taskClosure]
  rfl

/-- The last task sent is the one for the cursor. -/
theorem Step.requests {type : HotType} {s t : Transform} {storage storage' : Storage}
    {a : Action} {new : List Emission} (h : Step type s storage a t storage' new)
    {log : List Emission} (hs : (requests log).getLast? =
      some (NetworkService.taskClosure (type.target s.viewModel.startIndex))) :
    (requests (log ++ new)).getLast? =
      some (NetworkService.taskClosure (type.target t.viewModel.startIndex)) := by
  rw [requests_append, List.getLast?_append]
  cases h with
  | refresh =>
      rw [requests_append, List.getLast?_append]
      rfl
  | more => rfl
  | answerRefresh inner result hmem => exact hs
  | answerMore inner result hmore => exact hs

theorem last_request {type : HotType} {storage₀ storage : Storage} {as : List Action}
    {s : Transform} {log : List Emission}
    (hrun : (machine type).run ({}, storage₀) (.refresh :: as) = some ((s, storage), log)) :
    (requests log).getLast? =
      some (NetworkService.taskClosure (type.target s.viewModel.startIndex)) := by
  refine Machine.run_induction_from (G := fun _ _ => True) (P := fun _ state log =>
    (requests log).getLast? =
      some (NetworkService.taskClosure (type.target state.1.viewModel.startIndex)))
    ?_ ?_ hrun (Machine.guarded_true _ _)
  · rintro ⟨t, storage'⟩ o - hstep
    cases step_eq_some_iff.mp hstep
    rw [requests_append, List.getLast?_append]
    rfl
  · intro _ state log a t new hs _ hstep
    exact (step_eq_some_iff.mp hstep).requests hs

/-- Between requests the table shows the pages of the paginator. -/
theorem displayed_of_idle {type : HotType} {S : List HotMovieModel}
    {storage₀ storage : Storage} {as : List Action} {s : Transform} {log : List Emission}
    (hrun : (machine type).run ({}, storage₀) (.refresh :: as) = some ((s, storage), log))
    (hseq : (machine type).Guarded (fun state a => Sequential state.1 a) ({}, storage₀)
      (.refresh :: as))
    (hserve : ∀ a ∈ as, a.AnsweredWith
      fun inner => serve S (NetworkService.taskClosure inner.target))
    (hidle : s.Idle) :
    (displayed log).map HotMovieListModel.items = Paginator.view LIMIT_COUNT S
      (Paginator.run ((.refresh :: as).filterMap Action.op)) := by
  have hcontiguous := contiguous_of_run (numbered_initial type) hrun hserve
    (inOrder_of_sequential hrun hseq).1
  obtain ⟨k, hcursor, hsections⟩ := hcontiguous.of_idle hidle
  have hk : k = Paginator.run ((.refresh :: as).filterMap Action.op) := by
    have hstart := startIndex_of_run hrun
    omega
  rw [displayed_of_run hrun, hsections, firstSections_serve, hk]

/-- So it does after every answer. -/
theorem displayed_after_answer {type : HotType} {S : List HotMovieModel}
    {storage₀ storage : Storage} {as : List Action} {a : Action} {s : Transform}
    {log : List Emission}
    (hrun : (machine type).run ({}, storage₀) (.refresh :: as ++ [a]) = some ((s, storage), log))
    (hseq : (machine type).Guarded (fun state a => Sequential state.1 a) ({}, storage₀)
      (.refresh :: as ++ [a]))
    (hserve : ∀ a' ∈ as ++ [a], a'.AnsweredWith
      fun inner => serve S (NetworkService.taskClosure inner.target))
    (ha : a.op = none) :
    (displayed log).map HotMovieListModel.items = Paginator.view LIMIT_COUNT S
      (Paginator.run ((.refresh :: as ++ [a]).filterMap Action.op)) :=
  displayed_of_idle hrun hseq hserve (idle_of_sequential hrun hseq ha)

/-- **One request at a time, the view model is a paginator.**  Every request asks for
`LIMIT_COUNT` movies at the cursor, and between requests the table shows the pages the
paginator shows after the same triggers, whatever the cache held at the start. -/
theorem sequential_refines_paginator {type : HotType} {S : List HotMovieModel}
    {storage₀ storage : Storage} {as : List Action} {s : Transform} {log : List Emission}
    (hrun : (machine type).run ({}, storage₀) (.refresh :: as) = some ((s, storage), log))
    (hseq : (machine type).Guarded (fun state a => Sequential state.1 a) ({}, storage₀)
      (.refresh :: as))
    (hserve : ∀ a ∈ as, a.AnsweredWith
      fun inner => serve S (NetworkService.taskClosure inner.target)) :
    (∃ task, (requests log).getLast? = some task ∧
      pageRequested task = some (s.viewModel.startIndex, LIMIT_COUNT)) ∧
    (s.Idle → ∃ k, k = Paginator.run ((.refresh :: as).filterMap Action.op) ∧
      (displayed log).map HotMovieListModel.items = Paginator.view LIMIT_COUNT S k ∧
      ((displayed log).map HotMovieListModel.items).flatten = S.take (20 * (k + 1))) := by
  constructor
  · exact ⟨_, last_request hrun, pageRequested_taskClosure type _⟩
  · intro hidle
    have hview := displayed_of_idle hrun hseq hserve hidle
    refine ⟨_, rfl, hview, ?_⟩
    rw [hview, Paginator.flatten_view]
    rfl

/-- A server with twenty-three movies. -/
def sampleServer : List HotMovieModel := (List.range 23).map fun i => sampleMovie (toString i)

/-- What follows the refresh trigger when `sampleServer` answers. -/
def sampleSession : List Action :=
  [.answerRefresh ⟨1, .getNowPlaying 0⟩ (samplePage ((List.range 20).map toString)), .more,
    .answerMore ⟨1, .getNowPlaying 20⟩ (samplePage ["20", "21", "22"])]

theorem sequential_refines_paginator_sampleSession :
    ∃ s storage log,
      (machine .nowPlaying).run ({}, fun _ => some (.movies [sampleMovie "stale"]))
        (.refresh :: sampleSession) = some ((s, storage), log) ∧
      (∃ task, (requests log).getLast? = some task ∧
        pageRequested task = some (s.viewModel.startIndex, LIMIT_COUNT)) ∧
      ∃ k, k = Paginator.run ((.refresh :: sampleSession).filterMap Action.op) ∧
        (displayed log).map HotMovieListModel.items = Paginator.view LIMIT_COUNT sampleServer k ∧
        ((displayed log).map HotMovieListModel.items).flatten =
          sampleServer.take (20 * (k + 1)) := by
  have hsome : ∃ s storage log,
      (machine .nowPlaying).run ({}, fun _ => some (.movies [sampleMovie "stale"]))
        (.refresh :: sampleSession) = some ((s, storage), log) ∧ s.Idle :=
    ⟨_, _, _, rfl, rfl, rfl⟩
  obtain ⟨s, storage, log, hrun, hidle⟩ := hsome
  have hserve : ∀ a ∈ sampleSession, a.AnsweredWith
      fun inner => serve sampleServer (NetworkService.taskClosure inner.target) := by
    simp only [sampleSession, List.forall_mem_cons]
    exact ⟨rfl, trivial, rfl, by simp⟩
  obtain ⟨hrequest, hpages⟩ := sequential_refines_paginator hrun (by decide) hserve
  exact ⟨s, storage, log, hrun, hrequest, hpages hidle⟩

end Transform

end MagnetX
