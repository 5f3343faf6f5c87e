/-
# `MagnetX.Kingfisher.Callbacks` — every callback is called once

What a run of the downloader asks for, by URL, and what it calls.  The callbacks asked for
are, up to order, the ones that have been called, the ones that wait for a running download,
and the ones on the cancel queue (`callbacks_once`).  Without cancellations nothing comes to
the cancel queue, and the callbacks of a URL are called in the order they were asked for
(`callbacks_in_order`).

The cancel queue can hang: when a cancelled task succeeds all the same, its load is taken
out without a signal to the semaphore that the queue waits for (`cancelQueue_stuck`).
-/
import MagnetX.Kingfisher.FetchLoads

namespace MagnetX.Kingfisher

open Lib Lib.SingleFlight

variable {URL κ Image : Type}

namespace ImageDownloader

variable [DecidableEq URL] {s t : ImageDownloader URL κ} {url : URL}

/-! ## The cancel queue -/

@[simp] theorem cleanFetchLoad_cancelQueue (s : ImageDownloader URL κ) (url : URL) :
    (s.cleanFetchLoad url).cancelQueue = s.cancelQueue := by
  rw [cleanFetchLoad]
  split <;> rfl

@[simp] theorem modifyLoad_cancelQueue (s : ImageDownloader URL κ) (ref : Nat)
    (f : FetchLoad κ → FetchLoad κ) : (s.modifyLoad ref f).cancelQueue = s.cancelQueue := rfl

@[simp] theorem setTask_cancelQueue (s : ImageDownloader URL κ) (id : Nat) (task : DataTask URL) :
    (s.setTask id task).cancelQueue = s.cancelQueue := rfl

@[simp] theorem cancelDataTask_cancelQueue (s : ImageDownloader URL κ) (id : Nat) :
    (s.cancelDataTask id).cancelQueue = s.cancelQueue := by
  rw [cancelDataTask]
  split
  · split <;> rfl
  · rfl

@[simp] theorem cancelTaskImpl_cancelQueue (s : ImageDownloader URL κ) (id ref : Nat)
    (ignoreTaskCount : Bool) :
    (s.cancelTaskImpl id ref ignoreTaskCount).cancelQueue = s.cancelQueue := by
  rw [cancelTaskImpl]
  split
  · rw [cancelDataTask_cancelQueue, modifyLoad_cancelQueue]
  · rfl

@[simp] theorem startTask_cancelQueue (s : ImageDownloader URL κ) (url : URL) (ref : Nat) :
    (s.startTask url ref).cancelQueue = s.cancelQueue := by
  rw [startTask]
  split <;> rfl

theorem prepareFetchLoad_cancelQueue (s : ImageDownloader URL κ) (url : URL) (callback : κ) :
    (s.prepareFetchLoad url callback : _ × Log URL κ Image).1.cancelQueue = s.cancelQueue := by
  rw [prepareFetchLoad, loadFor]
  cases s.fetchLoad url with
  | none => simp
  | some ref => simp

theorem prepareFetchLoad_log (s : ImageDownloader URL κ) (url : URL) (callback : κ) :
    (s.prepareFetchLoad url callback : _ × Log URL κ Image).2 = [.joined url callback] := rfl

theorem cancelAll_cancelQueue (s : ImageDownloader URL κ) :
    s.cancelAll.cancelQueue = s.cancelQueue :=
  cancelAll_induction (P := fun t => t.cancelQueue = s.cancelQueue) rfl fun t id ref h =>
    (t.cancelTaskImpl_cancelQueue id ref true).trans h

/-- An action of the session or of the process queue. -/
def Action.OfSession : Action URL κ → Prop
  | .downloadImage _ _ | .runCancelQueue | .cancel _ | .cancelAll => False
  | .didReceiveResponse _ _ | .didReceiveData _ _ | .didComplete _ _ | .beginProcess _
  | .finishProcess _ => True

/-- A step that lets nobody join: the cancel queue stays, and so do the counts of the loads
that can still be joined. -/
structure Keeps (s : ImageDownloader URL κ) (r : ImageDownloader URL κ × Log URL κ Image) :
    Prop where
  cancelQueue : r.1.cancelQueue = s.cancelQueue
  joined : ∀ url, joined url r.2 = []
  count : ∀ {url : URL} {ref : Nat}, r.1.fetchLoad url = some ref → s.fetchLoad url = some ref ∧
    (r.1.loads ref).downloadTaskCount = (s.loads ref).downloadTaskCount

theorem keeps_setTask (s : ImageDownloader URL κ) (id : Nat) (task : DataTask URL) :
    Keeps s (s.setTask id task, ([] : Log URL κ Image)) :=
  ⟨rfl, fun _ => rfl, fun h => ⟨h, rfl⟩⟩

theorem cleanFetchLoad_fetchLoad_eq_some {url url' : URL} {ref : Nat}
    (h : (s.cleanFetchLoad url).fetchLoad url' = some ref) : s.fetchLoad url' = some ref := by
  rw [cleanFetchLoad] at h
  split at h
  · by_cases hurl : url' = url
    · rw [hurl] at h
      have hnone := (AList.lookup_erase url s.fetchLoads).symm.trans h
      cases hnone
    · exact (AList.lookup_erase_ne hurl).symm.trans h
  · exact h

theorem keeps_callCompletionHandlerFailure (s : ImageDownloader URL κ) (error : DownloadError)
    (url : URL) : Keeps s (s.callCompletionHandlerFailure error url : _ × Log URL κ Image) := by
  rw [callCompletionHandlerFailure]
  split
  · refine ⟨by simp, fun url' => joined_map_answered .., ?_⟩
    intro url' ref' h
    refine ⟨cleanFetchLoad_fetchLoad_eq_some h, ?_⟩
    dsimp only
    rw [modifyLoad_field _ _ (f := fun load : FetchLoad κ =>
      { load with cancelSemaphore := load.cancelSemaphore.map (· + 1) })
      FetchLoad.downloadTaskCount fun _ => rfl, cleanFetchLoad_loads]
  · exact ⟨rfl, fun _ => rfl, fun h => ⟨h, rfl⟩⟩

theorem Keeps.of_setTask {id : Nat} {task : DataTask URL}
    {r : ImageDownloader URL κ × Log URL κ Image} (h : Keeps (s.setTask id task) r) : Keeps s r :=
  ⟨h.cancelQueue, h.joined, h.count⟩

theorem step_keeps {process : List UInt8 → Option Image} {a : Action URL κ}
    (ha : a.OfSession) {r : ImageDownloader URL κ × Log URL κ Image}
    (h : (machine process).step s a = some r) : Keeps s r := by
  cases a with
  | downloadImage url callback => exact ha.elim
  | runCancelQueue => exact ha.elim
  | cancel id => exact ha.elim
  | cancelAll => exact ha.elim
  | didReceiveResponse id statusCode =>
      obtain ⟨task, -, -, rfl⟩ := onTask_ite_eq_some h
      rw [didReceiveResponse]
      split
      · split
        · exact keeps_setTask s id _
        · exact (keeps_callCompletionHandlerFailure _ _ task.url).of_setTask
      · refine ⟨cancelDataTask_cancelQueue _ id, fun _ => rfl, ?_⟩
        rw [cancelDataTask]
        split
        · split <;> exact fun h => ⟨h, rfl⟩
        · exact fun h => ⟨h, rfl⟩
  | didReceiveData id data =>
      obtain ⟨task, -, -, rfl⟩ := onTask_ite_eq_some h
      rw [didReceiveData]
      split
      · refine ⟨rfl, fun _ => rfl, fun {_ ref} h => ⟨h, ?_⟩⟩
        exact modifyLoad_field (s.setTask id { task with received := task.received ++ data }) _
          (f := fun load : FetchLoad κ => { load with responseData := load.responseData ++ data })
          FetchLoad.downloadTaskCount (fun _ => rfl) ref
      · exact keeps_setTask s id _
  | didComplete id failed =>
      obtain ⟨task, -, -, rfl⟩ := onTask_ite_eq_some h
      rw [didComplete]
      split
      · exact (keeps_callCompletionHandlerFailure _ _ task.url).of_setTask
      · split <;> exact keeps_setTask s id _
  | beginProcess id =>
      obtain ⟨task, -, -, rfl⟩ := onTask_ite_eq_some h
      rw [beginProcess]
      split <;> exact keeps_setTask s id _
  | finishProcess id =>
      obtain ⟨task, ref, -, -, rfl⟩ := finishProcess_cases h
      refine ⟨by rw [finishProcess]; simp, fun _ => joined_map_answered .., fun h => ?_⟩
      refine ⟨cleanFetchLoad_fetchLoad_eq_some (s := s.setTask id _) h, ?_⟩
      rw [finishProcess]
      dsimp only
      rw [cleanFetchLoad_loads]
      rfl

/-- The callback of a URL that an action asks for. -/
def Action.asker (url : URL) : Action URL κ → Option κ
  | .downloadImage url' callback => if url' = url then some callback else none
  | _ => none

/-- The callbacks asked for of a URL, in order. -/
def asked (url : URL) (as : List (Action URL κ)) : List κ := as.filterMap (Action.asker url)

/-- The callbacks of a URL on the cancel queue. -/
def queued (s : ImageDownloader URL κ) (url : URL) : List κ :=
  s.cancelQueue.filterMap fun waiting => if waiting.url = url then some waiting.callback else none

/-- What is asked for joins the waiters or goes to the cancel queue, and the cancel queue's
head joins the waiters. -/
theorem step_queued {process : List UInt8 → Option Image} {a : Action URL κ}
    {r : ImageDownloader URL κ × Log URL κ Image} (h : (machine process).step s a = some r)
    (url : URL) :
    ((a.asker url).toList ++ s.queued url).Perm (joined url r.2 ++ r.1.queued url) := by
  have hquiet : ∀ {r : ImageDownloader URL κ × Log URL κ Image},
      r.1.cancelQueue = s.cancelQueue → joined url r.2 = [] →
        (s.queued url).Perm (joined url r.2 ++ r.1.queued url) := by
    intro r hqueue hjoined
    rw [hjoined, queued, queued, hqueue]
    exact .refl _
  cases a with
  | downloadImage url' callback =>
      cases h
      have hprepare : ((Action.downloadImage url' callback).asker url).toList ++ s.queued url =
          joined url (s.prepareFetchLoad url' callback : _ × Log URL κ Image).2 ++
            (s.prepareFetchLoad url' callback : _ × Log URL κ Image).1.queued url := by
        rw [prepareFetchLoad_log, joined_joined, queued, queued, prepareFetchLoad_cancelQueue,
          Action.asker]
        split <;> rfl
      rcases s.setup_cases Image url' callback with ⟨ref, t, heq, -, -, hqueue⟩ | heq
      · have hqueued : t.queued url =
            s.queued url ++ ((Action.downloadImage url' callback).asker url).toList := by
          rw [queued, hqueue, List.filterMap_append, queued, Action.asker]
          by_cases hurl : url' = url
          · simp [hurl]
          · simp [hurl]
        rw [heq]
        dsimp only
        rw [hqueued]
        exact List.perm_append_comm
      · rw [heq]
        exact .of_eq hprepare
  | runCancelQueue =>
      obtain ⟨waiting, rest, t, hqueue, -, -, -, hrest, rfl⟩ := runCancelQueue_cases h
      rw [prepareFetchLoad_log, joined_joined, queued, queued, prepareFetchLoad_cancelQueue,
        hqueue, hrest, List.filterMap_cons]
      refine .of_eq ?_
      by_cases hurl : waiting.url = url
      · simp [hurl, Action.asker]
      · simp [hurl, Action.asker]
  | cancel id =>
      obtain ⟨task, -, heq⟩ := onTask_eq_some h
      cases heq
      refine hquiet ?_ rfl
      rw [cancel]
      split
      · rw [cancelTaskImpl_cancelQueue]
      · rfl
  | cancelAll =>
      cases h
      exact hquiet s.cancelAll_cancelQueue rfl
  | didReceiveResponse _ _ | didReceiveData _ _ | didComplete _ _ | beginProcess _
  | finishProcess _ =>
      have hkeeps := step_keeps (by trivial) h
      exact hquiet hkeeps.cancelQueue (hkeeps.joined url)

/-! ## Every callback once -/

/-- Images as they are sent. -/
def sampleProcess : List UInt8 → Option (List UInt8) := some

/-- Three callbacks of a URL, the last of them asked for while its image is processed. -/
def sampleDownloads : List (Action String Nat) :=
  [.downloadImage "poster" 1, .didReceiveResponse 0 200, .downloadImage "poster" 2,
    .didReceiveData 0 [137], .didReceiveData 0 [80], .didComplete 0 false, .beginProcess 0,
    .downloadImage "poster" 3, .finishProcess 0]

/-- A download is cancelled, asked for again, and succeeds after all. -/
def sampleCancelled : List (Action String Nat) :=
  [.downloadImage "poster" 1, .cancel 0, .downloadImage "poster" 2, .didReceiveData 0 [137],
    .didComplete 0 false, .beginProcess 0, .finishProcess 0]

/-- What has been asked for has joined the waiters, or is on the cancel queue. -/
theorem asked_perm {process : List UInt8 → Option Image} {as : List (Action URL κ)}
    {log : Log URL κ Image} (hrun : (machine process).run {} as = some (s, log)) (url : URL) :
    (asked url as).Perm (joined url log ++ s.queued url) := by
  refine Machine.run_induction (G := fun _ _ => True)
    (P := fun as s log => (asked url as).Perm (joined url log ++ s.queued url)) (.refl _) ?_ hrun
    (Machine.guarded_true as _)
  intro as s log a t o _ ih _ hstep
  have hstep' := step_queued hstep url
  have hasked : asked url (as ++ [a]) = asked url as ++ (a.asker url).toList := by
    rw [asked, List.filterMap_append, asked]
    cases h : a.asker url with
    | none => simp [h]
    | some callback => simp [h]
  calc asked url (as ++ [a])
      = asked url as ++ (a.asker url).toList := hasked
    _ |>.Perm (joined url log ++ s.queued url ++ (a.asker url).toList) := ih.append_right _
    _ |>.Perm (joined url log ++ ((a.asker url).toList ++ s.queued url)) := by
        rw [List.append_assoc]
        exact List.perm_append_comm.append_left _
    _ |>.Perm (joined url log ++ (joined url o ++ t.queued url)) := hstep'.append_left _
    _ = joined url (log ++ o) ++ t.queued url := by rw [joined_append, List.append_assoc]

/-- Who waits, waits for a task that is not over. -/
theorem Linked.waiting_of_over (hs : Linked s)
    (hover : ∀ task ∈ s.tasks, task.url = url → task.state = .finished) : s.waiting url = [] := by
  cases hload : s.fetchLoad url with
  | none => exact waiting_of_none hload
  | some ref =>
      obtain ⟨id, task, -, htask, hurl, hstate, -⟩ := hs.running hload
      exact absurd (hover task (List.mem_of_getElem? htask) hurl) hstate

/-- **Every callback is called once**: those asked for have been called, each as often as
asked for, except the ones that wait for the URL's download and the ones on the cancel queue.
When the downloads of the URL are over, none waits for them. -/
theorem callbacks_once {process : List UInt8 → Option Image} {as : List (Action URL κ)}
    {log : Log URL κ Image} (hrun : (machine process).run {} as = some (s, log))
    (hguard : (machine process).Guarded AskedWhenOver {} as) (url : URL) :
    (asked url as).Perm (answered url log ++ s.waiting url ++ s.queued url) ∧
      ((∀ task ∈ s.tasks, task.url = url → task.state = .finished) → s.waiting url = []) := by
  obtain ⟨hs, as', has'⟩ := follows_run hrun hguard
  refine ⟨?_, hs.waiting_of_over⟩
  rw [← SingleFlight.joined_eq has' url]
  exact asked_perm hrun url

/-- The first callback has been called, the second is on the cancel queue. -/
theorem callbacks_once_sampleCancelled : ∃ s log,
    (machine sampleProcess).run {} sampleCancelled = some (s, log) ∧
      [1, 2].Perm ([1] ++ s.waiting "poster" ++ s.queued "poster") := by
  have hguard : (machine sampleProcess).Guarded AskedWhenOver {} sampleCancelled := by decide
  have hrun : ∃ s log, (machine sampleProcess).run {} sampleCancelled = some (s, log) ∧
      answered "poster" log = [1] := ⟨_, _, rfl, rfl⟩
  obtain ⟨s, log, hrun, hanswered⟩ := hrun
  have honce := (callbacks_once hrun hguard "poster").1
  rw [hanswered] at honce
  exact ⟨s, log, hrun, honce⟩

/-- After an invalid status code the condition on the run is needed: asked for again while the
rejected task runs on, the second callback is called for the end of either task. -/
example : ∃ s log,
    (machine sampleProcess).run {}
      [.downloadImage "poster" 1, .didReceiveResponse 0 404, .downloadImage "poster" 2,
        .didComplete 0 false, .beginProcess 0, .didComplete 1 false, .beginProcess 1,
        .finishProcess 0, .finishProcess 1] = some (s, log) ∧
      answered "poster" log = [1, 2, 2] :=
  ⟨_, _, rfl, rfl⟩

/-! ## Without cancellations -/

def Action.Cancels : Action URL κ → Prop
  | .cancel _ | .cancelAll => True
  | _ => False

/-- Nothing has been cancelled: every load has a caller, and the cancel queue is empty. -/
structure Uncancelled (s : ImageDownloader URL κ) : Prop where
  cancelQueue : s.cancelQueue = []
  count : ∀ {url : URL} {ref : Nat}, s.fetchLoad url = some ref →
    0 < (s.loads ref).downloadTaskCount

theorem Uncancelled.prepareFetchLoad (hu : Uncancelled s) (hs : Linked s) (callback : κ) :
    Uncancelled (s.prepareFetchLoad url callback : _ × Log URL κ Image).1 := by
  refine ⟨(s.prepareFetchLoad_cancelQueue url callback).trans hu.cancelQueue, ?_⟩
  intro url' ref' hload'
  cases hload : s.fetchLoad url with
  | none =>
      rw [prepareFetchLoad_of_none hload] at hload' ⊢
      dsimp only at hload' ⊢
      rw [withLoad_fetchLoad] at hload'
      split at hload'
      · cases hload'
        rw [withLoad_load_self]
        exact Int.zero_lt_one
      · rw [withLoad_load_of_lt _ _ (hs.fresh hload')]
        exact hu.count hload'
  | some ref =>
      obtain ⟨id, -, hid, -⟩ := hs.running hload
      rw [prepareFetchLoad_of_some hload hid] at hload' ⊢
      dsimp only at hload' ⊢
      have hcount : 0 < (s.loads ref').downloadTaskCount := hu.count hload'
      by_cases h : ref' = ref
      · rw [h] at hcount ⊢
        rw [modifyLoad_load_self]
        show 0 < (s.loads ref).downloadTaskCount + 1
        omega
      · rw [modifyLoad_load_of_ne s h]
        exact hcount

theorem Uncancelled.setup (hu : Uncancelled s) (url : URL) (callback : κ) :
    (s.setup url callback : _ × Log URL κ Image) = s.prepareFetchLoad url callback := by
  rw [ImageDownloader.setup]
  split
  · rename_i ref hload
    rw [if_neg (Int.ne_of_gt (hu.count hload))]
  · rfl

/-- Without cancellations a request joins the waiters at once. -/
theorem Uncancelled.step (hu : Uncancelled s) (hs : Linked s)
    {process : List UInt8 → Option Image} {a : Action URL κ} (ha : ¬ a.Cancels)
    {r : ImageDownloader URL κ × Log URL κ Image} (h : (machine process).step s a = some r) :
    Uncancelled r.1 ∧ ∀ url, (a.asker url).toList = joined url r.2 := by
  cases a with
  | downloadImage url callback =>
      cases h
      rw [hu.setup]
      refine ⟨hu.prepareFetchLoad hs callback, ?_⟩
      intro url'
      rw [prepareFetchLoad_log, joined_joined, Action.asker]
      split <;> rfl
  | runCancelQueue =>
      obtain ⟨waiting, rest, -, hqueue, -⟩ := runCancelQueue_cases h
      rw [hu.cancelQueue] at hqueue
      cases hqueue
  | cancel id => exact absurd trivial ha
  | cancelAll => exact absurd trivial ha
  | didReceiveResponse _ _ | didReceiveData _ _ | didComplete _ _ | beginProcess _
  | finishProcess _ =>
      have hkeeps := step_keeps (by trivial) h
      refine ⟨⟨hkeeps.cancelQueue.trans hu.cancelQueue, ?_⟩, fun url => (hkeeps.joined url).symm⟩
      intro url ref hload
      obtain ⟨hload', hcount⟩ := hkeeps.count hload
      rw [hcount]
      exact hu.count hload'

/-- **Without cancellations the callbacks of a URL are called in order**, the ones asked for
first first, and all of them when its downloads are over. -/
theorem callbacks_in_order {process : List UInt8 → Option Image} {as : List (Action URL κ)}
    {log : Log URL κ Image} (hrun : (machine process).run {} as = some (s, log))
    (hguard : (machine process).Guarded AskedWhenOver {} as) (hcancels : ∀ a ∈ as, ¬ a.Cancels)
    (url : URL) :
    asked url as = answered url log ++ s.waiting url ∧
      ((∀ task ∈ s.tasks, task.url = url → task.state = .finished) →
        asked url as = answered url log) := by
  have hjoined : Uncancelled s ∧ Linked s ∧ asked url as = joined url log := by
    refine Machine.run_induction
      (P := fun as s log => Uncancelled s ∧ Linked s ∧ asked url as = joined url log) ?_ ?_ hrun
      (hguard.and (Machine.guarded_of_forall _ hcancels))
    · exact ⟨⟨rfl, fun h => nomatch h⟩, linked_initial, rfl⟩
    · rintro as s log a t o - ⟨hu, hs, hasked⟩ ⟨hask, ha⟩ hstep
      obtain ⟨hu', hjoined⟩ := hu.step hs ha hstep
      refine ⟨hu', (hs.follows hask hstep).linked, ?_⟩
      rw [joined_append, ← hjoined, ← hasked, asked, List.filterMap_append, asked]
      cases h : a.asker url with
      | none => simp [h]
      | some callback => simp [h]
  obtain ⟨-, hs, hasked⟩ := hjoined
  obtain ⟨-, as', has'⟩ := follows_run hrun hguard
  have heq := hasked.trans (SingleFlight.joined_eq has' url)
  refine ⟨heq, fun hover => ?_⟩
  rw [heq, hs.waiting_of_over hover, List.append_nil]

theorem callbacks_in_order_sampleDownloads : ∃ s log,
    (machine sampleProcess).run {} sampleDownloads = some (s, log) ∧
      [1, 2, 3] = answered "poster" log := by
  have hguard : (machine sampleProcess).Guarded AskedWhenOver {} sampleDownloads := by decide
  have hrun : ∃ s log, (machine sampleProcess).run {} sampleDownloads = some (s, log) ∧
      ∀ task ∈ s.tasks, task.url = "poster" → task.state = .finished := ⟨_, _, rfl, by decide⟩
  have hcancels : ∀ a ∈ sampleDownloads, ¬ a.Cancels := by
    simp [sampleDownloads, Action.Cancels]
  obtain ⟨s, log, hrun, hover⟩ := hrun
  exact ⟨s, log, hrun, (callbacks_in_order hrun hguard hcancels "poster").2 hover⟩

/-! ## What the images are made of -/

/-- The tasks that are over stay as they are. -/
def KeepsOver (s t : ImageDownloader URL κ) : Prop :=
  ∀ task ∈ s.tasks, task.state = .finished → task ∈ t.tasks

theorem KeepsOver.of_eq (h : t.tasks = s.tasks) : KeepsOver s t := fun _ htask _ => h ▸ htask

theorem KeepsOver.trans {u : ImageDownloader URL κ} (h : KeepsOver s t) (h' : KeepsOver t u) :
    KeepsOver s u :=
  fun task htask hover => h' task (h task htask hover) hover

theorem keepsOver_setTask {id : Nat} {task : DataTask URL} (htask : s.tasks[id]? = some task)
    (hstate : task.state ≠ .finished) (task' : DataTask URL) :
    KeepsOver s (s.setTask id task') := by
  intro other hmem hover
  obtain ⟨i, hi⟩ := List.getElem?_of_mem hmem
  have hne : i ≠ id := by
    rintro rfl
    rw [htask] at hi
    cases hi
    exact hstate hover
  refine List.mem_of_getElem? (i := i) ?_
  rw [setTask_tasks htask, if_neg hne]
  exact hi

theorem keepsOver_cancelDataTask (s : ImageDownloader URL κ) (id : Nat) :
    KeepsOver s (s.cancelDataTask id) := by
  rw [cancelDataTask]
  split
  · rename_i task htask
    split
    · rename_i hrunning
      exact keepsOver_setTask htask (TaskState.InSession.ne_over (.inl hrunning)) _
    · exact .of_eq rfl
  · exact .of_eq rfl

theorem keepsOver_cancelTaskImpl (s : ImageDownloader URL κ) (id ref : Nat)
    (ignoreTaskCount : Bool) : KeepsOver s (s.cancelTaskImpl id ref ignoreTaskCount) := by
  rw [cancelTaskImpl]
  split
  · refine KeepsOver.trans ?_ (keepsOver_cancelDataTask _ id)
    exact .of_eq rfl
  · exact .of_eq rfl

theorem startTask_tasks (s : ImageDownloader URL κ) (url : URL) (ref : Nat) :
    ∃ new, (s.startTask url ref).tasks = s.tasks ++ new := by
  rw [startTask]
  split
  · exact ⟨[], (List.append_nil _).symm⟩
  · exact ⟨[{ url }], rfl⟩

theorem keepsOver_prepareFetchLoad (s : ImageDownloader URL κ) (url : URL) (callback : κ) :
    KeepsOver s (s.prepareFetchLoad url callback : _ × Log URL κ Image).1 := by
  have htasks : ∃ new, (s.prepareFetchLoad url callback : _ × Log URL κ Image).1.tasks =
      s.tasks ++ new := by
    rw [prepareFetchLoad, loadFor]
    cases s.fetchLoad url with
    | none => exact startTask_tasks _ url _
    | some ref => exact startTask_tasks _ url _
  obtain ⟨new, htasks⟩ := htasks
  intro task hmem _
  rw [htasks]
  exact List.mem_append_left _ hmem

theorem callCompletionHandlerFailure_tasks (s : ImageDownloader URL κ) (error : DownloadError)
    (url : URL) :
    (s.callCompletionHandlerFailure error url : _ × Log URL κ Image).1.tasks = s.tasks := by
  rw [callCompletionHandlerFailure]
  split
  · exact cleanFetchLoad_tasks s url
  · rfl

theorem step_keepsOver {process : List UInt8 → Option Image} {a : Action URL κ}
    {r : ImageDownloader URL κ × Log URL κ Image} (h : (machine process).step s a = some r) :
    KeepsOver s r.1 := by
  cases a with
  | downloadImage url callback =>
      cases h
      rcases s.setup_cases Image url callback with ⟨-, t, heq, -, htasks, -⟩ | heq
      · rw [heq]
        exact .of_eq htasks
      · rw [heq]
        exact keepsOver_prepareFetchLoad s url callback
  | runCancelQueue =>
      obtain ⟨waiting, rest, t, -, -, -, htasks, -, rfl⟩ := runCancelQueue_cases h
      exact KeepsOver.trans (.of_eq htasks) (keepsOver_prepareFetchLoad t _ _)
  | cancel id =>
      obtain ⟨task, -, heq⟩ := onTask_eq_some h
      cases heq
      rw [cancel]
      split
      · exact keepsOver_cancelTaskImpl s id _ false
      · exact .of_eq rfl
  | cancelAll =>
      cases h
      exact cancelAll_induction (P := KeepsOver s) (.of_eq rfl) fun t id ref h =>
        h.trans (keepsOver_cancelTaskImpl t id ref true)
  | didReceiveResponse id statusCode =>
      obtain ⟨task, htask, hstate, rfl⟩ := onTask_ite_eq_some h
      have hset :=
        keepsOver_setTask htask hstate.ne_over { task with statusCode := some statusCode }
      rw [didReceiveResponse]
      split
      · split
        · exact hset
        · exact hset.trans (.of_eq (callCompletionHandlerFailure_tasks _ _ _))
      · exact hset.trans (keepsOver_cancelDataTask _ id)
  | didReceiveData id data =>
      obtain ⟨task, htask, hstate, rfl⟩ := onTask_ite_eq_some h
      have hset := keepsOver_setTask htask hstate.ne_over
        { task with received := task.received ++ data }
      rw [didReceiveData]
      split <;> exact hset
  | didComplete id failed =>
      obtain ⟨task, htask, hstate, rfl⟩ := onTask_ite_eq_some h
      rw [didComplete]
      split
      · exact (keepsOver_setTask htask hstate.ne_over _).trans
          (.of_eq (callCompletionHandlerFailure_tasks _ _ _))
      · split <;> exact keepsOver_setTask htask hstate.ne_over _
  | beginProcess id =>
      obtain ⟨task, htask, hstate, rfl⟩ := onTask_ite_eq_some h
      rw [beginProcess]
      split <;> exact keepsOver_setTask htask (by simp [hstate]) _
  | finishProcess id =>
      obtain ⟨task, ref, htask, hstate, rfl⟩ := finishProcess_cases h
      exact (keepsOver_setTask htask (by simp [hstate]) _).trans
        (.of_eq (cleanFetchLoad_tasks _ _))

/-- The image of an answer in the log was made of what a task of the URL has received. -/
def FromDownloads (process : List UInt8 → Option Image) (s : ImageDownloader URL κ)
    (log : Log URL κ Image) : Prop :=
  ∀ url callback image data, .answered url callback (.ok (image, data)) ∈ log →
    process data = some image ∧
      ∃ task ∈ s.tasks, task.url = url ∧ task.state = .finished ∧ task.received = data

theorem fromDownloads_nil (process : List UInt8 → Option Image) (s : ImageDownloader URL κ) :
    FromDownloads process s [] :=
  fun _ _ _ _ hmem => nomatch hmem

theorem fromDownloads_prepareFetchLoad (process : List UInt8 → Option Image)
    (s t : ImageDownloader URL κ) (url : URL) (callback : κ) :
    FromDownloads process t (s.prepareFetchLoad url callback).2 := by
  intro url' callback' image data hmem
  rw [prepareFetchLoad_log, List.mem_singleton] at hmem
  cases hmem

theorem fromDownloads_callCompletionHandlerFailure (process : List UInt8 → Option Image)
    (s t : ImageDownloader URL κ) (error : DownloadError) (url : URL) :
    FromDownloads process t (s.callCompletionHandlerFailure error url).2 := by
  rw [callCompletionHandlerFailure]
  split
  · intro url' callback' image data hmem
    obtain ⟨callback, -, heq⟩ := List.mem_map.mp hmem
    cases heq
  · exact fromDownloads_nil process t

theorem processed_eq_ok {process : List UInt8 → Option Image} {statusCode : Option Nat}
    {received data : List UInt8} {image : Image}
    (h : processed process statusCode received = .ok (image, data)) :
    process data = some image ∧ received = data := by
  rw [processed] at h
  split at h
  · rename_i image' hprocess
    cases h
    exact ⟨hprocess, rfl⟩
  · split at h <;> cases h

theorem Linked.fromDownloads_finishProcess (hs : Linked s) {id ref : Nat} {task : DataTask URL}
    (htask : s.tasks[id]? = some task) (hstate : task.state = .processing ref)
    (process : List UInt8 → Option Image) :
    FromDownloads process (s.finishProcess process id task ref).1
      (s.finishProcess process id task ref).2 := by
  obtain ⟨id', task', -, htask', hurl', hstate', hdata⟩ := hs.running (hs.processing htask hstate)
  -- the load looked up by the task is its own
  have hid : id' = id := hs.single htask' htask hurl' hstate' (by rw [hstate]; exact nofun)
  rw [hid, htask, Option.some.injEq] at htask'
  rw [← htask'] at hdata
  intro url callback image data hmem
  rw [finishProcess] at hmem ⊢
  obtain ⟨callback', -, heq⟩ := List.mem_map.mp hmem
  rw [Output.answered.injEq] at heq
  obtain ⟨rfl, -, hprocessed⟩ := heq
  obtain ⟨hprocess, hreceived⟩ := processed_eq_ok hprocessed
  refine ⟨hprocess, { task with state := .finished }, ?_, rfl, rfl, ?_⟩
  · rw [cleanFetchLoad_tasks]
    refine List.mem_of_getElem? (i := id) ?_
    rw [setTask_tasks htask, if_pos rfl]
  · rw [← hreceived, cleanFetchLoad_loads]
    exact hdata.symm

theorem Linked.fromDownloads_step (hs : Linked s) {process : List UInt8 → Option Image}
    {a : Action URL κ} {r : ImageDownloader URL κ × Log URL κ Image}
    (h : (machine process).step s a = some r) : FromDownloads process r.1 r.2 := by
  cases a with
  | downloadImage url callback =>
      cases h
      rcases s.setup_cases Image url callback with ⟨-, t, heq, -⟩ | heq
      · rw [heq]
        exact fromDownloads_nil process t
      · rw [heq]
        exact fromDownloads_prepareFetchLoad process s _ url callback
  | runCancelQueue =>
      obtain ⟨waiting, rest, t, -, -, -, -, -, rfl⟩ := runCancelQueue_cases h
      exact fromDownloads_prepareFetchLoad process t _ _ _
  | cancel id =>
      obtain ⟨task, -, heq⟩ := onTask_eq_some h
      cases heq
      exact fromDownloads_nil process _
  | cancelAll =>
      cases h
      exact fromDownloads_nil process _
  | didReceiveResponse id statusCode =>
      obtain ⟨task, -, -, rfl⟩ := onTask_ite_eq_some h
      rw [didReceiveResponse]
      split
      · split
        · exact fromDownloads_nil process _
        · exact fromDownloads_callCompletionHandlerFailure process _ _ _ task.url
      · exact fromDownloads_nil process _
  | didReceiveData id data =>
      obtain ⟨task, -, -, rfl⟩ := onTask_ite_eq_some h
      exact fromDownloads_nil process _
  | didComplete id failed =>
      obtain ⟨task, -, -, rfl⟩ := onTask_ite_eq_some h
      rw [didComplete]
      split
      · exact fromDownloads_callCompletionHandlerFailure process _ _ _ task.url
      · split <;> exact fromDownloads_nil process _
  | beginProcess id =>
      obtain ⟨task, -, -, rfl⟩ := onTask_ite_eq_some h
      exact fromDownloads_nil process _
  | finishProcess id =>
      obtain ⟨task, ref, htask, hstate, rfl⟩ := finishProcess_cases h
      exact hs.fromDownloads_finishProcess htask hstate process

/-- **One download for all who ask for a URL**: two of its data tasks that are not over are
one; and an image that a callback is given was made of all that one of them has received. -/
theorem downloads_shared {process : List UInt8 → Option Image} {as : List (Action URL κ)}
    {log : Log URL κ Image} (hrun : (machine process).run {} as = some (s, log))
    (hguard : (machine process).Guarded AskedWhenOver {} as) :
    (∀ (id id' : Nat) (task task' : DataTask URL), s.tasks[id]? = some task →
        s.tasks[id']? = some task' → task.url = task'.url → task.state ≠ .finished →
          task'.state ≠ .finished → id = id') ∧
      ∀ url callback image data, .answered url callback (.ok (image, data)) ∈ log →
        process data = some image ∧
          ∃ task ∈ s.tasks, task.url = url ∧ task.state = .finished ∧ task.received = data := by
  have hinv : Linked s ∧ FromDownloads process s log := by
    refine Machine.run_induction (P := fun _ s log => Linked s ∧ FromDownloads process s log)
      ⟨linked_initial, fromDownloads_nil process _⟩ ?_ hrun hguard
    rintro as s log a t o - ⟨hs, hfrom⟩ hask hstep
    refine ⟨(hs.follows hask hstep).linked, ?_⟩
    intro url callback image data hmem
    rcases List.mem_append.mp hmem with hmem | hmem
    · obtain ⟨hprocess, task, htask, hurl, hover, hdata⟩ := hfrom url callback image data hmem
      exact ⟨hprocess, task, step_keepsOver hstep task htask hover, hurl, hover, hdata⟩
    · exact hs.fromDownloads_step hstep url callback image data hmem
  obtain ⟨hs, hfrom⟩ := hinv
  exact ⟨fun _ _ _ _ => hs.single, hfrom⟩

theorem downloads_shared_sampleDownloads : ∃ s log,
    (machine sampleProcess).run {} sampleDownloads = some (s, log) ∧
      ∃ task ∈ s.tasks,
        task.url = "poster" ∧ task.state = .finished ∧ task.received = [137, 80] := by
  have hguard : (machine sampleProcess).Guarded AskedWhenOver {} sampleDownloads := by decide
  have hrun : ∃ s log, (machine sampleProcess).run {} sampleDownloads = some (s, log) ∧
      .answered "poster" 3 (.ok ([137, 80], [137, 80])) ∈ log := ⟨_, _, rfl, by decide⟩
  obtain ⟨s, log, hrun, hmem⟩ := hrun
  exact ⟨s, log, hrun, ((downloads_shared hrun hguard).2 _ _ _ _ hmem).2⟩

/-! ## The cancel queue hangs -/

/-- The head of the cancel queue waits for the semaphore of a load that has been taken out of
`fetchLoads` without a signal. -/
structure Stuck (s : ImageDownloader URL κ) (waiting : Waiting URL κ) : Prop where
  head : s.cancelQueue.head? = some waiting
  semaphore : (s.loads waiting.load).cancelSemaphore = some 0
  gone : ∀ url, s.fetchLoad url ≠ some waiting.load
  old : waiting.load < s.loadCount

/-- A step that neither signals the load's semaphore nor makes it a load to join. -/
structure Spares (ref : Nat) (s t : ImageDownloader URL κ) : Prop where
  semaphore : (t.loads ref).cancelSemaphore = (s.loads ref).cancelSemaphore
  gone : (∀ url, s.fetchLoad url ≠ some ref) → ∀ url, t.fetchLoad url ≠ some ref
  loadCount : s.loadCount ≤ t.loadCount

theorem Spares.refl (ref : Nat) (s : ImageDownloader URL κ) : Spares ref s s :=
  ⟨rfl, id, Nat.le_refl _⟩

theorem Spares.trans {ref : Nat} {u : ImageDownloader URL κ} (h : Spares ref s t)
    (h' : Spares ref t u) : Spares ref s u :=
  ⟨h'.semaphore.trans h.semaphore, fun hgone => h'.gone (h.gone hgone),
    Nat.le_trans h.loadCount h'.loadCount⟩

theorem spares_modifyLoad (s : ImageDownloader URL κ) (ref ref' : Nat)
    (f : FetchLoad κ → FetchLoad κ)
    (hkeeps : ref = ref' → (f (s.loads ref)).cancelSemaphore = (s.loads ref).cancelSemaphore) :
    Spares ref s (s.modifyLoad ref' f) := by
  refine ⟨?_, id, Nat.le_refl _⟩
  by_cases h : ref = ref'
  · rw [← h, modifyLoad_load_self, hkeeps h]
  · rw [modifyLoad_load_of_ne s h]

theorem spares_setTask (s : ImageDownloader URL κ) (ref id : Nat) (task : DataTask URL) :
    Spares ref s (s.setTask id task) :=
  ⟨rfl, fun h => h, Nat.le_refl _⟩

theorem spares_cancelDataTask (s : ImageDownloader URL κ) (ref id : Nat) :
    Spares ref s (s.cancelDataTask id) := by
  rw [cancelDataTask]
  split
  · split
    · exact spares_setTask s ref id _
    · exact .refl ref s
  · exact .refl ref s

theorem spares_cancelTaskImpl (s : ImageDownloader URL κ) (ref id ref' : Nat)
    (ignoreTaskCount : Bool) : Spares ref s (s.cancelTaskImpl id ref' ignoreTaskCount) := by
  rw [cancelTaskImpl]
  have hcount := spares_modifyLoad s ref ref'
    (fun load => { load with downloadTaskCount := load.downloadTaskCount - 1 }) fun _ => rfl
  split
  · exact hcount.trans (spares_cancelDataTask _ ref id)
  · exact hcount

theorem spares_startTask (s : ImageDownloader URL κ) (ref : Nat) (url : URL) (ref' : Nat) :
    Spares ref s (s.startTask url ref') := by
  rw [startTask]
  split
  · exact .refl ref s
  · have htask := spares_modifyLoad s ref ref'
      (fun load => { load with downloadTask := some s.tasks.length }) fun _ => rfl
    exact ⟨htask.semaphore, htask.gone, htask.loadCount⟩

theorem spares_loadFor (s : ImageDownloader URL κ) {ref : Nat} (hold : ref < s.loadCount)
    (url : URL) : Spares ref s (s.loadFor url).1 := by
  rw [loadFor]
  split
  · exact .refl ref s
  · refine ⟨?_, ?_, Nat.le_succ _⟩
    · exact congrArg FetchLoad.cancelSemaphore (Function.update_of_ne (Nat.ne_of_lt hold) ..)
    · intro hgone url'
      by_cases h : url' = url
      · rw [h]
        intro hload
        have hself := (AList.lookup_insert s.fetchLoads).symm.trans hload
        exact Nat.ne_of_lt hold (Option.some.inj hself).symm
      · intro hload
        exact hgone url' ((AList.lookup_insert_ne h).symm.trans hload)

theorem spares_prepareFetchLoad (s : ImageDownloader URL κ) {ref : Nat} (hold : ref < s.loadCount)
    (url : URL) (callback : κ) :
    Spares ref s (s.prepareFetchLoad url callback : _ × Log URL κ Image).1 := by
  have hload := s.spares_loadFor hold url
  rw [prepareFetchLoad]
  generalize s.loadFor url = r at hload ⊢
  obtain ⟨s', ref'⟩ := r
  dsimp only
  have hjoin := spares_modifyLoad s' ref ref'
    (fun load => { load with contents := load.contents ++ [callback] }) fun _ => rfl
  refine (hload.trans (hjoin.trans (spares_startTask _ ref url ref'))).trans ?_
  exact spares_modifyLoad _ ref ref' _ fun _ => rfl

theorem spares_cleanFetchLoad (s : ImageDownloader URL κ) (ref : Nat) (url : URL) :
    Spares ref s (s.cleanFetchLoad url) where
  semaphore := by rw [cleanFetchLoad_loads]
  gone hgone url' hload := hgone url' (cleanFetchLoad_fetchLoad_eq_some hload)
  loadCount := by rw [cleanFetchLoad_loadCount]

theorem spares_callCompletionHandlerFailure (s : ImageDownloader URL κ) {ref : Nat}
    (hgone : ∀ url, s.fetchLoad url ≠ some ref) (error : DownloadError) (url : URL) :
    Spares ref s (s.callCompletionHandlerFailure error url : _ × Log URL κ Image).1 := by
  rw [callCompletionHandlerFailure]
  split
  · rename_i ref' _ hload
    refine (spares_cleanFetchLoad s ref url).trans ?_
    dsimp only
    apply spares_modifyLoad
    rintro rfl
    exact absurd hload (hgone url)
  · exact .refl ref s

/-- The session and the process queue leave a load alone that is not one of a URL any more. -/
theorem step_spares {process : List UInt8 → Option Image} {a : Action URL κ} {ref : Nat}
    (ha : a.OfSession) (hgone : ∀ url, s.fetchLoad url ≠ some ref)
    {r : ImageDownloader URL κ × Log URL κ Image}
    (h : (machine process).step s a = some r) : Spares ref s r.1 := by
  cases a with
  | downloadImage url callback => exact ha.elim
  | runCancelQueue => exact ha.elim
  | cancel id => exact ha.elim
  | cancelAll => exact ha.elim
  | didReceiveResponse id statusCode =>
      obtain ⟨task, -, -, rfl⟩ := onTask_ite_eq_some h
      have hset := spares_setTask s ref id { task with statusCode := some statusCode }
      rw [didReceiveResponse]
      split
      · split
        · exact hset
        · exact hset.trans (spares_callCompletionHandlerFailure _ (hset.gone hgone) _ _)
      · exact hset.trans (spares_cancelDataTask _ _ id)
  | didReceiveData id data =>
      obtain ⟨task, -, -, rfl⟩ := onTask_ite_eq_some h
      have hset := spares_setTask s ref id { task with received := task.received ++ data }
      rw [didReceiveData]
      split
      · refine hset.trans ?_
        dsimp only
        apply spares_modifyLoad
        exact fun _ => rfl
      · exact hset
  | didComplete id failed =>
      obtain ⟨task, -, -, rfl⟩ := onTask_ite_eq_some h
      rw [didComplete]
      split
      · have hset := spares_setTask s ref id { task with state := .finished }
        exact hset.trans (spares_callCompletionHandlerFailure _ (hset.gone hgone) _ _)
      · split <;> exact spares_setTask s _ id _
  | beginProcess id =>
      obtain ⟨task, -, -, rfl⟩ := onTask_ite_eq_some h
      rw [beginProcess]
      split <;> exact spares_setTask s _ id _
  | finishProcess id =>
      obtain ⟨task, ref, -, -, rfl⟩ := finishProcess_cases h
      exact (spares_setTask s _ id _).trans (spares_cleanFetchLoad _ _ task.url)

/-- A stuck cancel queue stays stuck, and what is on it stays there. -/
theorem Stuck.step {waiting : Waiting URL κ} (hs : Stuck s waiting)
    {process : List UInt8 → Option Image} {a : Action URL κ}
    {r : ImageDownloader URL κ × Log URL κ Image} (h : (machine process).step s a = some r) :
    Stuck r.1 waiting ∧ s.cancelQueue <+: r.1.cancelQueue := by
  have hkeep : ∀ {t : ImageDownloader URL κ}, Spares waiting.load s t →
      s.cancelQueue <+: t.cancelQueue → Stuck t waiting ∧ s.cancelQueue <+: t.cancelQueue := by
    intro t hspares hprefix
    obtain ⟨rest, hrest⟩ := hprefix
    refine ⟨⟨?_, hspares.semaphore.trans hs.semaphore, hspares.gone hs.gone,
      Nat.lt_of_lt_of_le hs.old hspares.loadCount⟩, rest, hrest⟩
    rw [← hrest, List.head?_append, hs.head]
    rfl
  by_cases hsession : a.OfSession
  · exact hkeep (step_spares hsession hs.gone h)
      ((step_keeps hsession h).cancelQueue ▸ List.prefix_refl _)
  cases a with
  | downloadImage url callback =>
      cases h
      have hprepare : Stuck (s.prepareFetchLoad url callback : _ × Log URL κ Image).1 waiting ∧
          s.cancelQueue <+: (s.prepareFetchLoad url callback : _ × Log URL κ Image).1.cancelQueue :=
        hkeep (s.spares_prepareFetchLoad hs.old url callback)
          ((s.prepareFetchLoad_cancelQueue url callback) ▸ List.prefix_refl _)
      cases hload : s.fetchLoad url with
      | none =>
          rw [setup, hload]
          exact hprepare
      | some ref =>
          rw [setup, hload]
          dsimp only
          split
          · have hsemaphore := spares_modifyLoad s waiting.load ref
              (fun load => { load with cancelSemaphore := some (load.cancelSemaphore.getD 0) })
              fun heq => absurd (heq ▸ hload) (hs.gone url)
            refine hkeep ?_ (List.prefix_append _ _)
            exact ⟨hsemaphore.semaphore, hsemaphore.gone, hsemaphore.loadCount⟩
          · exact hprepare
  | runCancelQueue =>
      obtain ⟨head, rest, -, hqueue, hpass, -⟩ := runCancelQueue_cases h
      have hhead := hs.head
      rw [hqueue, List.head?_cons, Option.some.injEq] at hhead
      rw [hhead] at hpass
      exact absurd hs.semaphore hpass
  | cancel id =>
      obtain ⟨task, -, heq⟩ := onTask_eq_some h
      cases heq
      apply hkeep
      · rw [cancel]
        split
        · exact spares_cancelTaskImpl s _ id _ false
        · exact .refl _ s
      · rw [cancel]
        split
        · exact (s.cancelTaskImpl_cancelQueue id _ false) ▸ List.prefix_refl _
        · exact List.prefix_refl _
  | cancelAll =>
      cases h
      apply hkeep
      · exact cancelAll_induction (P := Spares waiting.load s) (.refl _ s) fun t id ref h =>
          h.trans (spares_cancelTaskImpl t _ id ref true)
      · exact s.cancelAll_cancelQueue ▸ List.prefix_refl _
  | _ => exact absurd trivial hsession

/-- **The cancel queue hangs for good** once it waits for a load that went without a signal:
whatever happens after, no callback on it joins any download. -/
theorem cancelQueue_stuck {waiting : Waiting URL κ} (hs : Stuck s waiting)
    {process : List UInt8 → Option Image} {as : List (Action URL κ)} {log : Log URL κ Image}
    (hrun : (machine process).run s as = some (t, log)) :
    Stuck t waiting ∧ s.cancelQueue <+: t.cancelQueue := by
  refine Machine.invariant
    (P := fun t _ => Stuck t waiting ∧ s.cancelQueue <+: t.cancelQueue)
    ⟨hs, List.prefix_refl _⟩ ?_ hrun
  rintro t _ a u o ⟨ht, hprefix⟩ hstep
  obtain ⟨hu, hprefix'⟩ := ht.step hstep
  exact ⟨hu, hprefix.trans hprefix'⟩

/-- The download that was cancelled and succeeded has left the second callback behind. -/
theorem cancelQueue_stuck_sampleCancelled : ∃ s log,
    (machine sampleProcess).run {} sampleCancelled = some (s, log) ∧
      ∀ as t log', (machine sampleProcess).run s as = some (t, log') →
        [⟨0, "poster", 2⟩] <+: t.cancelQueue := by
  have hrun : ∃ s log, (machine sampleProcess).run {} sampleCancelled = some (s, log) ∧
      s.cancelQueue = [⟨0, "poster", 2⟩] ∧ (s.loads 0).cancelSemaphore = some 0 ∧
        s.fetchLoads.entries = [] ∧ s.loadCount = 1 :=
    ⟨_, _, rfl, rfl, rfl, rfl, rfl⟩
  obtain ⟨s, log, hrun, hqueue, hsemaphore, hloads, hcount⟩ := hrun
  have hstuck : Stuck s ⟨0, "poster", 2⟩ := by
    refine ⟨by rw [hqueue]; rfl, hsemaphore, fun url => ?_, by rw [hcount]; exact Nat.one_pos⟩
    rw [fetchLoad, AList.lookup, hloads]
    exact nofun
  refine ⟨s, log, hrun, fun as t log' hrun' => ?_⟩
  rw [← hqueue]
  exact (cancelQueue_stuck hstuck hrun').2

end ImageDownloader

end MagnetX.Kingfisher
