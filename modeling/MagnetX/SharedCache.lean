/-
# `MagnetX.SharedCache` — two lists and any number of detail screens on one cache

Every screen reads and writes the same `Network.storage`.  The machine here interleaves
them all: the triggers and answers of the two lists, and detail screens opened and
answered in any order.

A list reads one entry of the cache, that of its target at start index 0, and every write
of the others goes to an entry of another key (`cachedKey_ne`).  So what is seen of a
list is a run of the list alone (`list_runs_alone`): from the same initial cache, with its
own triggers and answers in their order, emission by emission.
-/
import MagnetX.Hot.ViewModel
import MagnetX.MovieDetail.ViewModel

namespace MagnetX

open Lib

/-! ## One entry of the cache -/

namespace Transform

/-- The cache entry that a list reads and writes. -/
def ownKey (type : HotType) : String := cachedKey (type.target 0)

variable {type : HotType} {s t : Transform} {storage storage' other : Storage} {a : Action}
  {log : List Emission}

theorem stored_agree (target : MoviesTarget) (outcome : Except PipelineError (List HotMovieModel))
    {key : String} (h : storage key = other key) :
    stored storage target outcome key = stored other target outcome key := by
  cases outcome with
  | error e => exact h
  | ok items =>
      simp only [stored, Storage.setObject, Function.update_apply]
      split
      · rfl
      · exact h

/-- A step depends on the cache, and changes it, through the list's own entry alone. -/
theorem Step.of_agree (h : Step type s storage a t storage' log)
    (hagree : storage (ownKey type) = other (ownKey type)) :
    ∃ other', Step type s other a t other' log ∧ storage' (ownKey type) = other' (ownKey type) := by
  cases h with
  | refresh =>
      have hcached : storage.cachedObject (List HotMovieModel) (type.target 0) =
          other.cachedObject (List HotMovieModel) (type.target 0) :=
        Storage.cachedObject_congr hagree
      rw [hcached]
      exact ⟨other, .refresh s other, hagree⟩
  | more => exact ⟨other, .more s other, hagree⟩
  | answerRefresh inner result hmem =>
      exact ⟨_, .answerRefresh s other inner result hmem, stored_agree _ _ hagree⟩
  | answerMore inner result hmore => exact ⟨other, .answerMore s other inner result hmore, hagree⟩

/-- The key of one list is not the key the other list writes to. -/
theorem ownKey_ne {type type' : HotType} (hne : type ≠ type') : ownKey type ≠ ownKey type' := by
  apply cachedKey_ne
  cases type <;> cases type' <;> first | exact absurd rfl hne | decide

/-- A list's step leaves the other list's entry alone. -/
theorem Step.storage_of_ne {type' : HotType} (h : Step type' s storage a t storage' log)
    (hs : Numbered type' s) (hne : type ≠ type') :
    storage' (ownKey type) = storage (ownKey type) := by
  cases h with
  | refresh => rfl
  | more => rfl
  | answerRefresh inner result hmem =>
      rw [hs.refresh_target inner hmem]
      cases resultOf (List HotMovieModel) result with
      | error e => rfl
      | ok items => exact Function.update_of_ne (ownKey_ne hne) _ _
  | answerMore inner result hmore => rfl

end Transform

/-! ## The screens together -/

/-- The two hot lists, the detail screens opened so far, and the cache. -/
structure Screens where
  nowPlaying : Transform := {}
  upComing : Transform := {}
  details : List DetailTransform := []
  storage : Storage

namespace Screens

inductive Action where
  | hot (type : HotType) (action : Transform.Action)
  | openDetail (id : String)
  | answerDetail (index : Nat) (result : MoyaResult)

inductive Output where
  | hot (type : HotType) (emission : Transform.Emission)
  | detail (index : Nat) (sections : List MovieDetailListModel)
deriving DecidableEq, Repr

def list (s : Screens) : HotType → Transform
  | .nowPlaying => s.nowPlaying
  | .upComing => s.upComing

def setList (s : Screens) (t : Transform) : HotType → Screens
  | .nowPlaying => { s with nowPlaying := t }
  | .upComing => { s with upComing := t }

def machine : Machine Screens Action Output where
  step s
    | .hot type action =>
        ((Transform.machine type).step (s.list type, s.storage) action).map
          fun ((t, storage), log) => ({ s.setList t type with storage }, log.map (.hot type))
    | .openDetail id =>
        let ((detail, storage), log) := DetailTransform.bindViewModel id s.storage
        some ({ s with details := s.details ++ [detail], storage },
          log.map (.detail s.details.length))
    | .answerDetail index result =>
        match s.details[index]? with
        | some detail =>
            if detail.waiting then
              let ((detail', storage), log) := detail.answer s.storage result
              some ({ s with details := s.details.set index detail', storage },
                log.map (.detail index))
            else none
        | none => none

@[simp] theorem list_setList (s : Screens) (t : Transform) (type : HotType) :
    (s.setList t type).list type = t := by
  cases type <;> rfl

theorem list_setList_of_ne (s : Screens) (t : Transform) {type type' : HotType}
    (hne : type ≠ type') : (s.setList t type').list type = s.list type := by
  cases type <;> cases type' <;> first | exact absurd rfl hne | rfl

/-! ## What is seen of one list -/

/-- The list's own action in an action of the screens. -/
def Action.own (type : HotType) : Action → Option Transform.Action
  | .hot type' action => if type' = type then some action else none
  | .openDetail _ | .answerDetail _ _ => none

/-- The list's own emission in an output of the screens. -/
def Output.own (type : HotType) : Output → Option Transform.Emission
  | .hot type' emission => if type' = type then some emission else none
  | .detail _ _ => none

theorem own_map_hot (type : HotType) (log : List Transform.Emission) :
    (log.map (Output.hot type)).filterMap (Output.own type) = log := by
  simp [List.filterMap_map, Function.comp_def, Output.own]

theorem own_map_hot_of_ne {type type' : HotType} (hne : type' ≠ type)
    (log : List Transform.Emission) :
    (log.map (Output.hot type')).filterMap (Output.own type) = [] := by
  simp [List.filterMap_map, Function.comp_def, Output.own, hne]

theorem own_map_detail (type : HotType) (index : Nat) (log : List (List MovieDetailListModel)) :
    (log.map (Output.detail index)).filterMap (Output.own type) = [] := by
  simp [List.filterMap_map, Function.comp_def, Output.own]

/-- The list alone has the same view model and the same entry of the cache. -/
structure Alone (type : HotType) (s : Screens) (solo : Transform × Storage) : Prop where
  list : s.list type = solo.1
  entry : s.storage (Transform.ownKey type) = solo.2 (Transform.ownKey type)
  numbered : ∀ type', Transform.Numbered type' (s.list type')

/-- A step of the machine for one list, with its parts named. -/
theorem step_hot_eq_some {s s' : Screens} {type : HotType} {action : Transform.Action}
    {out : List Output} (h : machine.step s (.hot type action) = some (s', out)) :
    ∃ t storage log, Transform.Step type (s.list type) s.storage action t storage log ∧
      s' = { s.setList t type with storage } ∧ out = log.map (.hot type) := by
  obtain ⟨⟨⟨t, storage⟩, log⟩, hstep, heq⟩ := Option.map_eq_some_iff.mp h
  cases heq
  exact ⟨t, storage, log, Transform.step_eq_some_iff.mp hstep, rfl, rfl⟩

theorem numbered_setList {s : Screens} {type : HotType} {action : Transform.Action}
    {t : Transform} {storage : Storage} {log : List Transform.Emission}
    (hs : ∀ type', Transform.Numbered type' (s.list type'))
    (h : Transform.Step type (s.list type) s.storage action t storage log) (type' : HotType) :
    Transform.Numbered type' ((s.setList t type).list type') := by
  by_cases heq : type' = type
  · rw [heq, list_setList]
    exact h.numbered (hs type)
  · rw [list_setList_of_ne s t heq]
    exact hs type'

/-- The list's own steps are steps of the list alone. -/
theorem Alone.own {type : HotType} {s s' : Screens} {solo : Transform × Storage} {a : Action}
    {a' : Transform.Action} {out : List Output} (hs : Alone type s solo)
    (ha : a.own type = some a') (hstep : machine.step s a = some (s', out)) :
    ∃ solo', (Transform.machine type).step solo a' =
      some (solo', out.filterMap (Output.own type)) ∧ Alone type s' solo' := by
  cases a with
  | hot type' action =>
      simp only [Action.own, Option.ite_none_right_eq_some, Option.some.injEq] at ha
      obtain ⟨rfl, rfl⟩ := ha
      obtain ⟨t, storage, log, h, rfl, rfl⟩ := step_hot_eq_some hstep
      obtain ⟨other, h', hagree⟩ := h.of_agree hs.entry
      refine ⟨(t, other), ?_, ?_⟩
      · rw [own_map_hot]
        rw [hs.list] at h'
        exact Transform.step_eq_some_iff.mpr h'
      · exact ⟨list_setList s t type', hagree, numbered_setList hs.numbered h⟩
  | openDetail id => cases ha
  | answerDetail index result => cases ha

/-- No other step is seen by the list. -/
theorem Alone.other {type : HotType} {s s' : Screens} {solo : Transform × Storage} {a : Action}
    {out : List Output} (hs : Alone type s solo) (ha : a.own type = none)
    (hstep : machine.step s a = some (s', out)) :
    out.filterMap (Output.own type) = [] ∧ Alone type s' solo := by
  cases a with
  | hot type' action =>
      have hne : type' ≠ type := by
        intro heq
        rw [Action.own, if_pos heq] at ha
        cases ha
      obtain ⟨t, storage, log, h, rfl, rfl⟩ := step_hot_eq_some hstep
      refine ⟨own_map_hot_of_ne hne log, ?_, ?_, numbered_setList hs.numbered h⟩
      · exact (list_setList_of_ne s t (Ne.symm hne)).trans hs.list
      · exact (h.storage_of_ne (hs.numbered type') (Ne.symm hne)).trans hs.entry
  | openDetail id =>
      cases hstep
      refine ⟨own_map_detail type _ _, hs.list, ?_, hs.numbered⟩
      show (DetailTransform.bindViewModel id s.storage).1.2 _ = _
      rw [DetailTransform.bindViewModel_storage]
      exact hs.entry
  | answerDetail index result =>
      simp only [machine] at hstep
      cases hdetail : s.details[index]? with
      | none =>
          rw [hdetail] at hstep
          cases hstep
      | some detail =>
          simp only [hdetail, Option.ite_none_right_eq_some, Option.some.injEq] at hstep
          obtain ⟨-, heq⟩ := hstep
          cases heq
          refine ⟨own_map_detail type _ _, hs.list, ?_, hs.numbered⟩
          show (detail.answer s.storage result).1.2 _ = _
          rw [detail.answer_storage_of_ne s.storage result]
          · exact hs.entry
          · apply cachedKey_ne
            cases type with
            | nowPlaying =>
                show 'i' ≠ 's'
                decide
            | upComing =>
                show 'c' ≠ 's'
                decide

/-- **A list runs as if it were alone.**  What is seen of it in a run of all the screens is
its run alone, from the same cache and with its own triggers and answers. -/
theorem list_runs_alone {storage₀ : Storage} {as : List Action} {s : Screens}
    {out : List Output} (hrun : machine.run { storage := storage₀ } as = some (s, out))
    (type : HotType) :
    ∃ storage, (Transform.machine type).run ({}, storage₀) (as.filterMap (Action.own type)) =
      some ((s.list type, storage), out.filterMap (Output.own type)) := by
  have hlist : ∀ type', Screens.list { storage := storage₀ } type' = {} := by
    intro type'
    cases type' with
    | nowPlaying => rfl
    | upComing => rfl
  have hstart : Alone type { storage := storage₀ } ({}, storage₀) :=
    ⟨hlist type, rfl, fun type' => by rw [hlist type']; exact Transform.numbered_initial type'⟩
  obtain ⟨⟨t, storage⟩, hsolo, hs⟩ := Machine.project
    (fun _ _ _ _ _ _ hs ha hstep => Alone.own hs ha hstep)
    (fun _ _ _ _ _ hs ha hstep => Alone.other hs ha hstep) hstart hrun
  refine ⟨storage, ?_⟩
  rw [hsolo, hs.list]

/-- Both lists refreshed, a detail screen opened and answered in between. -/
def sampleScreens : List Action :=
  [.hot .nowPlaying .refresh, .hot .upComing .refresh, .openDetail "26752088",
    .hot .upComing (.answerRefresh ⟨1, .getUpComing 0⟩ (Transform.samplePage ["2"])),
    .answerDetail 0 (.ok ⟨200, .json (.object [("id", .string "26752088")])⟩),
    .hot .nowPlaying (.answerRefresh ⟨1, .getNowPlaying 0⟩ (Transform.samplePage ["1"])),
    .hot .nowPlaying .refresh]

theorem list_runs_alone_sampleScreens :
    ∃ s out, machine.run { storage := fun _ => none } sampleScreens = some (s, out) ∧
      ∃ storage, (Transform.machine .nowPlaying).run ({}, fun _ => none)
        (sampleScreens.filterMap (Action.own .nowPlaying)) =
          some ((s.nowPlaying, storage), out.filterMap (Output.own .nowPlaying)) := by
  have hsome : ∃ s out, machine.run { storage := fun _ => none } sampleScreens = some (s, out) :=
    ⟨_, _, rfl⟩
  obtain ⟨s, out, hrun⟩ := hsome
  exact ⟨s, out, hrun, list_runs_alone hrun .nowPlaying⟩

end Screens

end MagnetX
