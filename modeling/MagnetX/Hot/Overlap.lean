/-
# `MagnetX.Hot.Overlap` — refreshes that overlap

`refresh` merges its inner observables, so every refresh in flight is answered, and an
answer replaces the sections and the cached page whichever trigger it goes back to.  What
stays is the page of the answer that came last (`Lasting`), not that of the trigger that
came last: `shows_latest_iff` says when the two are the same page.
-/
import MagnetX.Hot.ViewModel

namespace MagnetX

open Lib

namespace Transform

/-! ## The refresh answered last -/

/-- A refresh is answered with the page that `page` has for its trigger. -/
def Action.RefreshedWith (page : Nat → List HotMovieModel) : Action → Prop
  | .answerRefresh inner result =>
      resultOf (List HotMovieModel) result = .ok (page inner.refreshNo)
  | .refresh | .more | .answerMore _ _ => True

def Action.refreshAnswered : Action → Option Nat
  | .answerRefresh inner _ => some inner.refreshNo
  | .refresh | .more | .answerMore _ _ => none

/-- The trigger of the refresh that was answered last. -/
def lastAnswered (as : List Action) : Option Nat := (as.filterMap Action.refreshAnswered).getLast?

theorem lastAnswered_snoc (as : List Action) (a : Action) :
    lastAnswered (as ++ [a]) = (a.refreshAnswered <|> lastAnswered as) := by
  simp only [lastAnswered, List.filterMap_append, List.getLast?_append]
  cases h : a.refreshAnswered with
  | none => simp [h]
  | some refreshNo => simp [h]

/-- The page of the refresh answered last is shown first and cached; before any answer,
every refresh triggered is in flight. -/
structure Lasting (type : HotType) (page : Nat → List HotMovieModel) (last : Option Nat)
    (s : Transform) (storage : Storage) : Prop where
  shown : ∀ n ∈ last, s.viewModel.sections.head? = some ⟨page n⟩
  cached : ∀ n ∈ last,
    storage.cachedObject (List HotMovieModel) (type.target 0) = some (page n)
  waiting : last = none → s.refreshes.length = s.refreshCount

theorem Step.lasting {type : HotType} {page : Nat → List HotMovieModel} {last : Option Nat}
    {s t : Transform} {storage storage' : Storage} {a : Action} {log : List Emission}
    (h : Step type s storage a t storage' log) (hnum : Numbered type s)
    (hs : Lasting type page last s storage) (hanswer : a.RefreshedWith page) :
    Lasting type page (a.refreshAnswered <|> last) t storage' := by
  cases h with
  | refresh =>
      -- the cached page shown at once is that of the refresh answered last
      refine ⟨?_, hs.cached, ?_⟩
      · intro n hn
        show (cachedSections _ (storage.cachedObject _ _)).head? = _
        rw [hs.cached n hn]
        rfl
      · intro hnone
        show (s.refreshes ++ [_]).length = s.refreshCount + 1
        rw [List.length_append, hs.waiting hnone]
        rfl
  | more => exact ⟨hs.shown, hs.cached, hs.waiting⟩
  | answerRefresh inner result hmem =>
      have hpage : resultOf (List HotMovieModel) result = .ok (page inner.refreshNo) := hanswer
      refine ⟨?_, ?_, fun hnone => by cases hnone⟩
      · intro n hn
        cases hn
        show some (HotMovieListModel.mk (Transform.shown (resultOf _ result))) = _
        rw [hpage]
        rfl
      · intro n hn
        cases hn
        rw [hpage, hnum.refresh_target inner hmem]
        exact Storage.cachedObject_setObject storage (type.target 0) _
  | answerMore inner result hmore =>
      refine ⟨?_, hs.cached, hs.waiting⟩
      intro n hn
      show (s.viewModel.sections ++ [_]).head? = _
      rw [List.head?_append, hs.shown n hn]
      rfl

theorem lasting_of_run {type : HotType} {page : Nat → List HotMovieModel}
    {storage₀ storage : Storage} {as : List Action} {s : Transform} {log : List Emission}
    (hrun : (machine type).run ({}, storage₀) as = some ((s, storage), log))
    (hanswer : ∀ a ∈ as, a.RefreshedWith page) :
    Lasting type page (lastAnswered as) s storage := by
  refine (Machine.run_induction (P := fun as state _ => Numbered type state.1 ∧
    Lasting type page (lastAnswered as) state.1 state.2)
    ⟨numbered_initial type, ⟨by simp [lastAnswered], by simp [lastAnswered], fun _ => rfl⟩⟩ ?_
    hrun (Machine.guarded_of_forall _ hanswer)).2
  intro as s _ a t o _ hs ha hstep
  have h := step_eq_some_iff.mp hstep
  rw [lastAnswered_snoc]
  exact ⟨h.numbered hs.1, h.lasting hs.1 hs.2 ha⟩

/-- **The latest refresh is shown and cached exactly when the answer that came last has its
page.** -/
theorem shows_latest_iff {type : HotType} {page : Nat → List HotMovieModel}
    {storage₀ storage : Storage} {as : List Action} {s : Transform} {log : List Emission}
    (hrun : (machine type).run ({}, storage₀) as = some ((s, storage), log))
    (hanswer : ∀ a ∈ as, a.RefreshedWith page) (hpos : 0 < s.refreshCount) (hidle : s.Idle) :
    ((displayed log).head? = some ⟨page s.refreshCount⟩ ∧
        storage.cachedObject (List HotMovieModel) (type.target 0) = some (page s.refreshCount)) ↔
      (lastAnswered as).map page = some (page s.refreshCount) := by
  have hlasting := lasting_of_run hrun hanswer
  cases hlast : lastAnswered as with
  | none =>
      have hlength := hlasting.waiting hlast
      rw [hidle.1] at hlength
      exact absurd hlength.symm (Nat.ne_of_gt hpos)
  | some n =>
      rw [displayed_of_run hrun, hlasting.shown n hlast, hlasting.cached n hlast]
      simp

/-- The pages of two refreshes. -/
def sampleRefreshes (n : Nat) : List HotMovieModel := [sampleMovie (if n = 1 then "old" else "new")]

theorem shows_latest_iff_in_turn :
    ∃ s storage log,
      (machine .nowPlaying).run ({}, fun _ => none)
        [.refresh, .refresh, .answerRefresh ⟨1, .getNowPlaying 0⟩ (samplePage ["old"]),
          .answerRefresh ⟨2, .getNowPlaying 0⟩ (samplePage ["new"])] = some ((s, storage), log) ∧
      (((displayed log).head? = some ⟨sampleRefreshes 2⟩ ∧
          storage.cachedObject (List HotMovieModel) (HotType.nowPlaying.target 0) =
            some (sampleRefreshes 2)) ↔
        some (sampleRefreshes 2) = some (sampleRefreshes 2)) := by
  have hanswer : ∀ a ∈ [Action.refresh, .refresh,
      .answerRefresh ⟨1, .getNowPlaying 0⟩ (samplePage ["old"]),
      .answerRefresh ⟨2, .getNowPlaying 0⟩ (samplePage ["new"])],
      a.RefreshedWith sampleRefreshes := by
    simp only [List.forall_mem_cons]
    exact ⟨trivial, trivial, rfl, rfl, by simp⟩
  have hsome : ∃ storage log, (machine .nowPlaying).run ({}, fun _ => none)
      [.refresh, .refresh, .answerRefresh ⟨1, .getNowPlaying 0⟩ (samplePage ["old"]),
        .answerRefresh ⟨2, .getNowPlaying 0⟩ (samplePage ["new"])] =
      some ((⟨⟨0, [⟨[sampleMovie "new"]⟩]⟩, 2, [], none⟩, storage), log) := ⟨_, _, rfl⟩
  obtain ⟨storage, log, hrun⟩ := hsome
  exact ⟨_, storage, log, hrun, shows_latest_iff hrun hanswer (by decide) (by decide)⟩

/-- Two refreshes, answered in the other order: the older page is what stays. -/
theorem older_refresh_overwrites_newer :
    ¬ ∀ (type : HotType) (page : Nat → List HotMovieModel) (storage₀ storage : Storage)
        (as : List Action) (s : Transform) (log : List Emission),
      (machine type).run ({}, storage₀) as = some ((s, storage), log) →
      (∀ a ∈ as, a.RefreshedWith page) → 0 < s.refreshCount → s.Idle →
      (displayed log).head? = some ⟨page s.refreshCount⟩ ∧
        storage.cachedObject (List HotMovieModel) (type.target 0) =
          some (page s.refreshCount) := by
  intro h
  have hanswer : ∀ a ∈ [Action.refresh, .refresh,
      .answerRefresh ⟨2, .getNowPlaying 0⟩ (samplePage ["new"]),
      .answerRefresh ⟨1, .getNowPlaying 0⟩ (samplePage ["old"])],
      a.RefreshedWith sampleRefreshes := by
    simp only [List.forall_mem_cons]
    exact ⟨trivial, trivial, rfl, rfl, by simp⟩
  have hrun : (machine .nowPlaying).run ({}, fun _ => none)
      [.refresh, .refresh, .answerRefresh ⟨2, .getNowPlaying 0⟩ (samplePage ["new"]),
        .answerRefresh ⟨1, .getNowPlaying 0⟩ (samplePage ["old"])] =
      some ((⟨⟨0, [⟨[sampleMovie "old"]⟩]⟩, 2, [], none⟩, _), _) := rfl
  have hshown := (h _ sampleRefreshes _ _ _ _ _ hrun hanswer (by decide) (by decide)).1
  exact absurd hshown (by decide)

end Transform

end MagnetX
