/-
# `MagnetX.Hot.Failures` — what a failed request leaves behind

`catchErrorJustReturn([])` makes an empty page of an error, and the last `map` of either
stream does with it what it does with any page.

* A failed refresh shows one empty section, whatever was shown before
  (`failed_refresh_keeps_display_iff`).
* A failed more appends an empty section, and the cursor, moved when the request went
  out, stays where it is: the next more asks for the page after the one that failed
  (`failed_more`).  In runs with one request at a time a page is then skipped exactly
  when a more follows a failure (`skips_iff_more_after_failure`).
-/
import MagnetX.Hot.Paging

namespace MagnetX

open Lib

theorem HotType.target_inj (type : HotType) {m n : Nat} :
    type.target m = type.target n ↔ m = n := by
  cases type with
  | nowPlaying => simp [HotType.target]
  | upComing => simp [HotType.target]

namespace Transform

/-- The action is an answer that comes to an error. -/
def Action.Fails : Action → Prop
  | .refresh | .more => False
  | .answerRefresh _ result => ∃ e, resultOf (List HotMovieModel) result = .error e
  | .answerMore _ result => ∃ e, mapResultOf (List HotMovieModel) result = .error e

/-! ## A failed refresh -/

/-- **A failed refresh keeps what is shown only if that is one empty section.** -/
theorem failed_refresh_keeps_display_iff {type : HotType} {storage₀ storage storage' : Storage}
    {as : List Action} {s t : Transform} {log new : List Emission} {inner : Inner}
    {result : MoyaResult}
    (hrun : (machine type).run ({}, storage₀) as = some ((s, storage), log))
    (hstep : (machine type).step (s, storage) (.answerRefresh inner result) =
      some ((t, storage'), new))
    (hfail : (Action.answerRefresh inner result).Fails) :
    displayed (log ++ new) = displayed log ↔ displayed log = [⟨[]⟩] := by
  obtain ⟨e, he⟩ := hfail
  have h := step_eq_some_iff.mp hstep
  have hafter : displayed (log ++ new) = [⟨[]⟩] := by
    rw [h.displayed (displayed_of_run hrun)]
    cases h
    show [HotMovieListModel.mk (shown (resultOf (List HotMovieModel) result))] = _
    rw [he]
    rfl
  rw [hafter]
  exact eq_comm

/-- A request that got no response. -/
def sampleFailure : MoyaResult :=
  .error (.underlying "The Internet connection appears to be offline.")

theorem failed_refresh_twice :
    ∃ s storage log t storage' new,
      (machine .nowPlaying).run ({}, fun _ => none)
        [.refresh, .answerRefresh ⟨1, .getNowPlaying 0⟩ sampleFailure, .refresh] =
          some ((s, storage), log) ∧
      (machine .nowPlaying).step (s, storage)
        (.answerRefresh ⟨2, .getNowPlaying 0⟩ sampleFailure) = some ((t, storage'), new) ∧
      (displayed (log ++ new) = displayed log ↔ displayed log = [⟨[]⟩]) := by
  have hrun : (machine .nowPlaying).run ({}, fun _ => none)
      [.refresh, .answerRefresh ⟨1, .getNowPlaying 0⟩ sampleFailure, .refresh] =
      some ((_, _), _) := rfl
  have hfail : (Action.answerRefresh ⟨2, .getNowPlaying 0⟩ sampleFailure).Fails := ⟨_, rfl⟩
  exact ⟨_, _, _, _, _, _, hrun, rfl, failed_refresh_keeps_display_iff hrun rfl hfail⟩

/-- The page the cache had for this same refresh gives way to an empty one. -/
theorem failed_refresh_empties_the_list :
    ¬ ∀ (type : HotType) (storage₀ storage storage' : Storage) (as : List Action)
        (s t : Transform) (log new : List Emission) (inner : Inner) (result : MoyaResult),
      (machine type).run ({}, storage₀) as = some ((s, storage), log) →
      (machine type).step (s, storage) (.answerRefresh inner result) =
        some ((t, storage'), new) →
      (Action.answerRefresh inner result).Fails →
      displayed (log ++ new) = displayed log := by
  intro h
  have hrun : (machine .nowPlaying).run ({}, fun _ => some (.movies [sampleMovie "1"]))
      [.refresh] = some ((_, _), _) := rfl
  have hstep : (machine .nowPlaying).step
      (⟨⟨0, [⟨[sampleMovie "1"]⟩]⟩, 1, [⟨1, .getNowPlaying 0⟩], none⟩,
        fun _ => some (.movies [sampleMovie "1"]))
      (.answerRefresh ⟨1, .getNowPlaying 0⟩ sampleFailure) = some ((_, _), _) := rfl
  exact absurd (h _ _ _ _ _ _ _ _ _ _ _ hrun hstep ⟨_, rfl⟩) (by decide)

/-! ## A failed more -/

/-- **A failed more is never undone.**  The cursor stays advanced and an empty section is
appended. -/
theorem failed_more {type : HotType} {s t : Transform} {storage storage' : Storage}
    {inner : Inner} {result : MoyaResult} {log : List Emission}
    (hrun : (machine type).run (s, storage) [.more, .answerMore inner result] =
      some ((t, storage'), log))
    (hfail : (Action.answerMore inner result).Fails) :
    t.viewModel = ⟨s.viewModel.startIndex + 20, s.viewModel.sections ++ [⟨[]⟩]⟩ ∧
      requests log = [NetworkService.taskClosure (type.target (s.viewModel.startIndex + 20))] := by
  obtain ⟨e, he⟩ := hfail
  obtain ⟨⟨m, storage₁⟩, o, rest, hmore, hanswer, rfl⟩ := (machine type).run_cons_eq_some.mp hrun
  rw [Machine.run_singleton] at hanswer
  cases step_eq_some_iff.mp hmore
  cases step_eq_some_iff.mp hanswer
  refine ⟨?_, rfl⟩
  show HotMovieViewModel.mk _ (_ ++
    [HotMovieListModel.mk (shown (mapResultOf (List HotMovieModel) result))]) = _
  rw [he]
  rfl

/-! ## Pages skipped -/

/-- The pages loaded since the last refresh trigger, after one more action. -/
def Action.load (pages : List MoviesTarget) : Action → List MoviesTarget
  | .refresh => []
  | .more => pages
  | .answerRefresh inner result =>
      match resultOf (List HotMovieModel) result with
      | .ok _ => inner.target :: pages
      | .error _ => pages
  | .answerMore inner result =>
      match mapResultOf (List HotMovieModel) result with
      | .ok _ => inner.target :: pages
      | .error _ => pages

/-- The pages loaded since the last refresh trigger. -/
def loaded (as : List Action) : List MoviesTarget := as.foldl Action.load []

@[simp] theorem loaded_snoc (as : List Action) (a : Action) :
    loaded (as ++ [a]) = a.load (loaded as) := by
  simp [loaded]

/-- Every page before the cursor is loaded. -/
def NoPageSkipped (type : HotType) (as : List Action) (s : Transform) : Prop :=
  ∀ i, 20 * i < s.viewModel.startIndex → type.target (20 * i) ∈ loaded as

/-- A more is triggered right after a failure. -/
def MoreAfterFailure (as : List Action) : Prop :=
  ∃ before after a, as = before ++ a :: .more :: after ∧ a.Fails

/-- What is known of the pages loaded, with one request at a time and the cursor at page `k`. -/
structure Tracked (type : HotType) (as : List Action) (s : Transform) (k : Nat) : Prop where
  cursor : s.viewModel.startIndex = 20 * k
  bounded : ∀ target ∈ loaded as, ∃ j ≤ k, target = type.target (20 * j)
  fresh : ¬ s.Idle → type.target (20 * k) ∉ loaded as
  refresh_target : ∀ inner ∈ s.refreshes, inner.target = type.target (20 * k)
  more_target : ∀ inner ∈ s.more, inner.target = type.target (20 * k)

/-- An answer loads the page at the cursor or, if it fails, no page. -/
theorem Tracked.load_of_answer {type : HotType} {as : List Action} {s t : Transform} {k : Nat}
    {storage storage' : Storage} {a : Action} {log : List Emission}
    (hs : Tracked type as s k) (h : Step type s storage a t storage' log) (ha : a.op = none) :
    t.viewModel.startIndex = s.viewModel.startIndex ∧
      (a.load (loaded as) = type.target (20 * k) :: loaded as ∧ ¬ a.Fails ∨
        a.load (loaded as) = loaded as ∧ a.Fails) := by
  cases h with
  | refresh => cases ha
  | more => cases ha
  | answerRefresh inner result hmem =>
      refine ⟨rfl, ?_⟩
      simp only [Action.load, Action.Fails]
      cases resultOf (List HotMovieModel) result with
      | ok items => exact .inl ⟨by rw [hs.refresh_target inner hmem], by simp⟩
      | error e => exact .inr ⟨rfl, e, rfl⟩
  | answerMore inner result hmore =>
      refine ⟨rfl, ?_⟩
      simp only [Action.load, Action.Fails]
      cases mapResultOf (List HotMovieModel) result with
      | ok items => exact .inl ⟨by rw [hs.more_target inner hmore], by simp⟩
      | error e => exact .inr ⟨rfl, e, rfl⟩

/-- What a run without a more after a failure has loaded: every page before the cursor,
and the page at the cursor too unless its request just failed. -/
def Complete (type : HotType) (as : List Action) (s : Transform) : Prop :=
  ¬ MoreAfterFailure as → NoPageSkipped type as s ∧
    (s.Idle → type.target s.viewModel.startIndex ∈ loaded as ∨ ∃ a ∈ as.getLast?, a.Fails)

theorem MoreAfterFailure.append {as : List Action} (h : MoreAfterFailure as) (bs : List Action) :
    MoreAfterFailure (as ++ bs) := by
  obtain ⟨before, after, a, rfl, ha⟩ := h
  exact ⟨before, after ++ bs, a, by simp, ha⟩

section Steps

variable {type : HotType} {as : List Action} {s t : Transform} {k : Nat}
  {storage storage' : Storage} {a : Action} {log : List Emission}

theorem Tracked.step (hs : Tracked type as s k) (hone : OneRequest s)
    (h : Step type s storage a t storage' log) (hseq : Sequential s a) :
    ∃ k', Tracked type (as ++ [a]) t k' := by
  cases hop : a.op with
  | none =>
      -- an answer: the cursor stays, and no request is left
      obtain ⟨-, hidle⟩ := h.idle_of_answer hop hone
      obtain ⟨hcursor, hload⟩ := hs.load_of_answer h hop
      refine ⟨k, hcursor.trans hs.cursor, ?_, fun hnot => absurd hidle hnot, ?_, ?_⟩
      · intro target htarget
        rw [loaded_snoc] at htarget
        rcases hload with ⟨hok, -⟩ | ⟨hfail, -⟩
        · rw [hok] at htarget
          rcases List.mem_cons.mp htarget with rfl | hold
          · exact ⟨k, Nat.le_refl k, rfl⟩
          · exact hs.bounded target hold
        · rw [hfail] at htarget
          exact hs.bounded target htarget
      · rw [hidle.1]
        simp
      · rw [hidle.2]
        simp
  | some op =>
      cases h with
      | refresh =>
          refine ⟨0, rfl, ?_, ?_, ?_, ?_⟩
          · simp [Action.load]
          · simp [Action.load]
          · show ∀ inner ∈ s.refreshes ++ [_], inner.target = type.target 0
            rw [hseq.1]
            simp
          · show ∀ inner ∈ s.more, _
            rw [hseq.2]
            simp
      | more =>
          have hnext : s.viewModel.startIndex + 20 = 20 * (k + 1) := by
            rw [hs.cursor, Nat.mul_succ]
          refine ⟨k + 1, hnext, ?_, ?_, ?_, ?_⟩
          · intro target htarget
            rw [loaded_snoc] at htarget
            obtain ⟨j, hj, hj'⟩ := hs.bounded target htarget
            exact ⟨j, Nat.le_succ_of_le hj, hj'⟩
          · intro _ hmem
            rw [loaded_snoc] at hmem
            obtain ⟨j, hj, hj'⟩ := hs.bounded _ hmem
            have : 20 * (k + 1) = 20 * j := type.target_inj.mp hj'
            omega
          · show ∀ inner ∈ s.refreshes, _
            rw [hseq.1]
            simp
          · intro inner hinner
            cases hinner
            rw [hnext]
      | answerRefresh inner result hmem => cases hop
      | answerMore inner result hmore => cases hop

theorem Complete.step (hs : Complete type as s) (htracked : Tracked type as s k)
    (h : Step type s storage a t storage' log) (hseq : Sequential s a) :
    Complete type (as ++ [a]) t := by
  intro hno
  obtain ⟨hskip, hlast⟩ := hs fun hmore => hno (hmore.append [a])
  cases hop : a.op with
  | none =>
      obtain ⟨hcursor, hload⟩ := htracked.load_of_answer h hop
      rw [NoPageSkipped, hcursor, loaded_snoc]
      rcases hload with ⟨hok, -⟩ | ⟨hkeep, hfail⟩
      · rw [hok]
        refine ⟨fun i hi => List.mem_cons_of_mem _ (hskip i hi), fun _ => .inl ?_⟩
        rw [htracked.cursor]
        exact List.mem_cons_self
      · rw [hkeep]
        exact ⟨hskip, fun _ => .inr ⟨a, by simp, hfail⟩⟩
  | some op =>
      cases h with
      | refresh =>
          refine ⟨fun i hi => absurd hi (Nat.not_lt_zero _), fun hidle => ?_⟩
          exact absurd hidle.1 (by simp)
      | more =>
          refine ⟨fun i hi => ?_, fun hidle => absurd hidle.2 (by simp)⟩
          have hat : type.target s.viewModel.startIndex ∈ loaded as := by
            rcases hlast hseq with hloaded | ⟨b, hb, hfail⟩
            · exact hloaded
            · -- a failure just before this more
              obtain ⟨before, hbefore⟩ := List.getLast?_eq_some_iff.mp hb
              exact absurd ⟨before, [], b, by simp [hbefore], hfail⟩ hno
          rw [loaded_snoc]
          have hi' : 20 * i < s.viewModel.startIndex + 20 := hi
          rcases Nat.lt_or_ge (20 * i) s.viewModel.startIndex with hlt | hge
          · exact hskip i hlt
          · have heq : 20 * i = s.viewModel.startIndex := by
              rw [htracked.cursor] at hi' hge ⊢
              omega
            rw [heq]
            exact hat
      | answerRefresh inner result hmem => cases hop
      | answerMore inner result hmore => cases hop

end Steps

/-- Both hold of a run from its first refresh trigger on. -/
theorem tracked_of_run {type : HotType} {storage₀ storage : Storage} {as : List Action}
    {s : Transform} {log : List Emission}
    (hrun : (machine type).run ({}, storage₀) (.refresh :: as) = some ((s, storage), log))
    (hseq : (machine type).Guarded (fun state a => Sequential state.1 a) ({}, storage₀)
      (.refresh :: as)) :
    (∃ k, Tracked type (.refresh :: as) s k) ∧ Complete type (.refresh :: as) s ∧
      OneRequest s := by
  refine Machine.run_induction_from (P := fun as state _ =>
    (∃ k, Tracked type as state.1 k) ∧ Complete type as state.1 ∧ OneRequest state.1)
    ?_ ?_ hrun hseq
  · rintro ⟨t, storage'⟩ o hfirst hstep
    have h := step_eq_some_iff.mp hstep
    have hone : OneRequest {} := .idle ⟨rfl, rfl⟩
    have htracked : Tracked type [] {} 0 :=
      ⟨rfl, by simp [loaded], by simp [loaded], by simp, by simp⟩
    refine ⟨htracked.step hone h hfirst, ?_, (h.oneRequest hfirst hone).2⟩
    intro _
    cases h
    refine ⟨fun i hi => absurd hi (Nat.not_lt_zero _), fun hidle => ?_⟩
    exact absurd hidle.1 (by simp)
  · rintro as s _ a t o ⟨⟨k, hk⟩, hs, hone⟩ ha hstep
    have h := step_eq_some_iff.mp hstep
    exact ⟨hk.step hone h ha, hs.step hk h ha, (h.oneRequest ha hone).2⟩

/-- After a failure, a more skips the page that failed. -/
theorem skipped_of_more {type : HotType} {as : List Action} {m s t : Transform} {k : Nat}
    {storage storage₁ storage₂ : Storage} {a : Action} {log log' : List Emission}
    (htracked : Tracked type as m k) (hanswer : Step type m storage a s storage₁ log)
    (hfail : a.Fails) (hmore : Step type s storage₁ .more t storage₂ log') :
    ¬ NoPageSkipped type (as ++ [a] ++ [.more]) t := by
  intro hno
  have hop : a.op = none := by
    cases a with
    | refresh => exact hfail.elim
    | more => exact hfail.elim
    | answerRefresh inner result => rfl
    | answerMore inner result => rfl
  have hbusy : ¬ m.Idle := by
    intro hidle
    cases hanswer with
    | refresh => cases hop
    | more => cases hop
    | answerRefresh inner result hmem =>
        rw [hidle.1] at hmem
        exact absurd hmem List.not_mem_nil
    | answerMore inner result hmem =>
        rw [hidle.2] at hmem
        cases hmem
  obtain ⟨hcursor, hload⟩ := htracked.load_of_answer hanswer hop
  have hkeep : a.load (loaded as) = loaded as := by
    rcases hload with ⟨-, hnot⟩ | ⟨hkeep, -⟩
    · exact absurd hfail hnot
    · exact hkeep
  have hlt : 20 * k < t.viewModel.startIndex := by
    cases hmore
    show 20 * k < s.viewModel.startIndex + 20
    rw [hcursor, htracked.cursor]
    omega
  have hmem := hno k hlt
  rw [loaded_snoc, loaded_snoc] at hmem
  have hmem' : type.target (20 * k) ∈ a.load (loaded as) := hmem
  rw [hkeep] at hmem'
  exact htracked.fresh hbusy hmem'

/-- **Pages are skipped exactly by a more after a failure**, in runs with one request at a
time. -/
theorem skips_iff_more_after_failure {type : HotType} {storage₀ storage : Storage}
    {as : List Action} {s : Transform} {log : List Emission}
    (hrun : (machine type).run ({}, storage₀) (.refresh :: as) = some ((s, storage), log))
    (hseq : (machine type).Guarded (fun state a => Sequential state.1 a) ({}, storage₀)
      (.refresh :: as)) :
    (∀ before after t storage' log', .refresh :: as = before ++ after →
      (machine type).run ({}, storage₀) before = some ((t, storage'), log') →
      NoPageSkipped type before t) ↔ ¬ MoreAfterFailure (.refresh :: as) := by
  constructor
  · rintro hno ⟨before, after, a, hsplit, hfail⟩
    cases before with
    | nil =>
        cases hsplit
        exact hfail
    | cons first before =>
        rw [List.cons_append, List.cons.injEq] at hsplit
        obtain ⟨rfl, rfl⟩ := hsplit
        have hlist : Action.refresh :: (before ++ a :: .more :: after) =
            (.refresh :: before) ++ ([a] ++ ([.more] ++ after)) := by simp
        rw [hlist] at hrun hseq
        obtain ⟨⟨m, storage₁⟩, _, _, hbefore, hrest, -⟩ := (machine type).run_append_eq_some.mp hrun
        obtain ⟨⟨u, storage₂⟩, _, _, hanswer, hrest, -⟩ :=
          (machine type).run_append_eq_some.mp hrest
        obtain ⟨⟨t, storage₃⟩, _, _, hmore, -, -⟩ := (machine type).run_append_eq_some.mp hrest
        rw [Machine.run_singleton] at hanswer hmore
        obtain ⟨⟨k, htracked⟩, -⟩ := tracked_of_run hbefore hseq.of_append
        refine skipped_of_more htracked (step_eq_some_iff.mp hanswer) hfail
          (step_eq_some_iff.mp hmore) (hno _ after t storage₃ _ ?_
            ((machine type).run_snoc ((machine type).run_snoc hbefore hanswer) hmore))
        simp
  · intro hno before after t storage' log' hsplit hbefore
    cases before with
    | nil =>
        cases hbefore
        exact fun i hi => absurd hi (Nat.not_lt_zero _)
    | cons first before =>
        rw [List.cons_append, List.cons.injEq] at hsplit
        obtain ⟨rfl, rfl⟩ := hsplit
        rw [← List.cons_append] at hseq hno
        obtain ⟨-, hcomplete, -⟩ := tracked_of_run hbefore hseq.of_append
        exact (hcomplete fun hmore => hno (hmore.append after)).1

/-- **What a failed more does to paging.**  It never restores the state of before its
trigger, and the next more never asks for the page that failed; in runs with one request at
a time a page is skipped exactly when a more follows a failure. -/
theorem paging_under_failure (type : HotType) (storage₀ : Storage) :
    (∀ as s storage log inner result t storage' log',
      (machine type).run ({}, storage₀) as = some ((s, storage), log) → s.Idle →
      (Action.answerMore inner result).Fails →
      (machine type).run (s, storage) [.more, .answerMore inner result] =
        some ((t, storage'), log') →
      t.viewModel.startIndex ≠ s.viewModel.startIndex ∧
        t.viewModel.sections ≠ s.viewModel.sections ∧
        ∀ u storage'' log'', (machine type).step (t, storage') .more =
          some ((u, storage''), log'') → requests log'' ≠ requests log') ∧
    (∀ as s storage log,
      (machine type).run ({}, storage₀) (.refresh :: as) = some ((s, storage), log) →
      (machine type).Guarded (fun state a => Sequential state.1 a) ({}, storage₀)
        (.refresh :: as) →
      ((∀ before after t storage' log', .refresh :: as = before ++ after →
          (machine type).run ({}, storage₀) before = some ((t, storage'), log') →
          NoPageSkipped type before t) ↔
        ¬ MoreAfterFailure (.refresh :: as))) := by
  constructor
  · intro as s storage log inner result t storage' log' _ _ hfail hrun
    obtain ⟨hview, hrequest⟩ := failed_more hrun hfail
    rw [hview, hrequest]
    refine ⟨by simp, by simp, ?_⟩
    intro u storage'' log'' hstep heq
    cases step_eq_some_iff.mp hstep
    have htask := congrArg (fun tasks => (List.head? tasks).bind pageRequested) heq
    simp only [requests, List.filterMap_cons, Emission.taskSent, List.head?_cons,
      Option.bind_some, pageRequested_taskClosure, Option.some.injEq, Prod.mk.injEq, hview] at htask
    omega
  · intro as s storage log hrun hseq
    exact skips_iff_more_after_failure hrun hseq

/-- One page, a more that fails, and the more after it. -/
def sampleOffline : List Action :=
  [.refresh, .answerRefresh ⟨1, .getNowPlaying 0⟩ (samplePage ["1"]), .more,
    .answerMore ⟨1, .getNowPlaying 20⟩ sampleFailure, .more]

theorem paging_under_failure_offline :
    (∃ s storage log t storage' log',
      (machine .nowPlaying).run ({}, fun _ => none)
        [.refresh, .answerRefresh ⟨1, .getNowPlaying 0⟩ (samplePage ["1"])] =
          some ((s, storage), log) ∧
      (machine .nowPlaying).run (s, storage)
        [.more, .answerMore ⟨1, .getNowPlaying 20⟩ sampleFailure] = some ((t, storage'), log') ∧
      t.viewModel.startIndex ≠ s.viewModel.startIndex ∧
      t.viewModel.sections ≠ s.viewModel.sections) ∧
    ¬ ∀ before after t storage' log', sampleOffline = before ++ after →
      (machine .nowPlaying).run ({}, fun _ => none) before = some ((t, storage'), log') →
      NoPageSkipped .nowPlaying before t := by
  have hfail : (Action.answerMore ⟨1, .getNowPlaying 20⟩ sampleFailure).Fails := ⟨_, rfl⟩
  constructor
  · have hsome : ∃ storage log, (machine .nowPlaying).run ({}, fun _ => none)
        [.refresh, .answerRefresh ⟨1, .getNowPlaying 0⟩ (samplePage ["1"])] =
        some ((⟨⟨0, [⟨[sampleMovie "1"]⟩]⟩, 1, [], none⟩, storage), log) := ⟨_, _, rfl⟩
    obtain ⟨storage, log, hrun⟩ := hsome
    have h := (paging_under_failure .nowPlaying fun _ => none).1 _ _ storage log
      ⟨1, .getNowPlaying 20⟩ sampleFailure _ _ _ hrun (by decide) hfail rfl
    exact ⟨_, storage, log, _, _, _, hrun, rfl, h.1, h.2.1⟩
  · have hrun : (machine .nowPlaying).run ({}, fun _ => none) sampleOffline =
        some ((_, _), _) := rfl
    have h := (paging_under_failure .nowPlaying fun _ => none).2 sampleOffline.tail _ _ _ hrun
      (by decide)
    exact fun hnone => h.mp hnone ⟨sampleOffline.take 3, [], _, rfl, hfail⟩

/-- Offline, after one page: an empty section more, and the cursor at 20. -/
theorem failed_more_changes_the_state :
    ¬ ∀ (type : HotType) (storage₀ storage storage' : Storage) (as : List Action)
        (s t : Transform) (log log' : List Emission) (inner : Inner) (result : MoyaResult),
      (machine type).run ({}, storage₀) as = some ((s, storage), log) → s.Idle →
      (Action.answerMore inner result).Fails →
      (machine type).run (s, storage) [.more, .answerMore inner result] =
        some ((t, storage'), log') →
      t.viewModel.startIndex = s.viewModel.startIndex ∧
        t.viewModel.sections = s.viewModel.sections := by
  intro h
  have hsome : ∃ storage log, (machine .nowPlaying).run ({}, fun _ => none)
      [.refresh, .answerRefresh ⟨1, .getNowPlaying 0⟩ (samplePage ["1"])] =
      some ((⟨⟨0, [⟨[sampleMovie "1"]⟩]⟩, 1, [], none⟩, storage), log) := ⟨_, _, rfl⟩
  obtain ⟨storage, log, hrun⟩ := hsome
  have hfailed : (machine .nowPlaying).run (⟨⟨0, [⟨[sampleMovie "1"]⟩]⟩, 1, [], none⟩, storage)
      [.more, .answerMore ⟨1, .getNowPlaying 20⟩ sampleFailure] = some ((_, _), _) := rfl
  have hfail : (Action.answerMore ⟨1, .getNowPlaying 20⟩ sampleFailure).Fails := ⟨_, rfl⟩
  have hcursor : 20 = 0 := (h _ _ _ _ _ _ _ _ _ _ _ hrun (by decide) hfail hfailed).1
  exact absurd hcursor (by decide)

end Transform

end MagnetX
