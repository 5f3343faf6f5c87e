/-
# `MagnetX.Kingfisher.FetchLoads` — the downloader as a table of waiters

The downloader is compared with the table of waiters of `MagnetX.Lib.SingleFlight`: of a
URL those wait who are in the contents of its fetch load.  A step of the downloader either
lets one join, or settles one URL, or is not seen in the table (`Linked.follows`).

What carries it is `Linked`: a load that can be joined belongs to the one data task of its
URL that is not over.  It is kept as long as a URL without a load is asked for only when its
former data task is over.  One case breaks that: after an invalid status code the load is
taken out at once, while the task runs on, and its end would settle the load of whoever
asks in between.  So a run has to meet `AskedWhenOver`.
-/
import MagnetX.Kingfisher.ImageDownloader

namespace MagnetX.Kingfisher

open Lib Lib.SingleFlight

variable {URL κ Image : Type}

/-- The same task, as far as loads depend on it. -/
structure SameTask (task task' : DataTask URL) : Prop where
  url : task'.url = task.url
  received : task'.received = task.received
  finished : task'.state = .finished ↔ task.state = .finished
  processing : ∀ {ref}, task'.state = .processing ref → task.state = .processing ref

theorem SameTask.rfl {task : DataTask URL} : SameTask task task :=
  ⟨Eq.refl _, Eq.refl _, Iff.rfl, id⟩

theorem SameTask.trans {a b c : DataTask URL} (h : SameTask a b) (h' : SameTask b c) :
    SameTask a c :=
  ⟨h'.url.trans h.url, h'.received.trans h.received, h'.finished.trans h.finished,
    fun hc => h.processing (h'.processing hc)⟩

theorem TaskState.InSession.ne_over {state : TaskState} (h : state.InSession) :
    state ≠ .finished := by
  rcases h with rfl | rfl <;> exact nofun

theorem TaskState.InSession.ne_processing {state : TaskState} (h : state.InSession) (ref : Nat) :
    state ≠ .processing ref := by
  rcases h with rfl | rfl <;> exact nofun

namespace ImageDownloader

variable [DecidableEq URL] {s t : ImageDownloader URL κ} {url : URL}

/-! ## The invariant -/

/-- The callbacks that wait for the load of a URL. -/
def waiting (s : ImageDownloader URL κ) (url : URL) : List κ :=
  match s.fetchLoad url with
  | some ref => (s.loads ref).contents
  | none => []

theorem waiting_of_none (hload : s.fetchLoad url = none) : s.waiting url = [] := by
  rw [waiting, hload]

theorem waiting_of_some {ref : Nat} (hload : s.fetchLoad url = some ref) :
    s.waiting url = (s.loads ref).contents := by
  rw [waiting, hload]

/-- With a load that can be joined, and only then, the session holds the downloader. -/
def Held (s : ImageDownloader URL κ) : Prop := s.downloadHolder = !s.fetchLoads.entries.isEmpty

/-- What ties loads and data tasks together.  Of each URL one task at most is not over; a
load that can be joined belongs to such a task, and has the data received by it; and no two
URLs have one load. -/
structure Linked (s : ImageDownloader URL κ) : Prop where
  held : Held s
  fresh : ∀ {url : URL} {ref : Nat}, s.fetchLoad url = some ref → ref < s.loadCount
  injective : ∀ {url url' : URL} {ref : Nat}, s.fetchLoad url = some ref →
    s.fetchLoad url' = some ref → url = url'
  single : ∀ {id id' : Nat} {task task' : DataTask URL}, s.tasks[id]? = some task →
    s.tasks[id']? = some task' → task.url = task'.url → task.state ≠ .finished →
      task'.state ≠ .finished → id = id'
  running : ∀ {url : URL} {ref : Nat}, s.fetchLoad url = some ref → ∃ id task,
    (s.loads ref).downloadTask = some id ∧ s.tasks[id]? = some task ∧ task.url = url ∧
      task.state ≠ .finished ∧ (s.loads ref).responseData = task.received
  processing : ∀ {id : Nat} {task : DataTask URL} {ref : Nat}, s.tasks[id]? = some task →
    task.state = .processing ref → s.fetchLoad task.url = some ref

theorem linked_initial : Linked ({} : ImageDownloader URL κ) where
  held := rfl
  fresh h := nomatch h
  injective h := nomatch h
  single h := nomatch h
  running h := nomatch h
  processing h := nomatch h

/-- With a load there is a downloader that holds it. -/
theorem Held.of_fetchLoad (hs : Held s) {ref : Nat} (hload : s.fetchLoad url = some ref) :
    s.downloadHolder = true := by
  rw [hs, Bool.not_eq_true', List.isEmpty_eq_false_iff]
  intro hempty
  have hmem : url ∈ s.fetchLoads := AList.lookup_isSome.mp (Option.isSome_of_eq_some hload)
  rw [AList.mem_keys, AList.keys, List.keys, hempty] at hmem
  cases hmem

theorem Held.fetchLoad_eq_none (hs : Held s) (hfalse : s.downloadHolder = false) (url : URL) :
    s.fetchLoad url = none := by
  by_contra hload
  obtain ⟨ref, hload⟩ := Option.ne_none_iff_exists'.mp hload
  rw [hs.of_fetchLoad hload] at hfalse
  cases hfalse

theorem Held.setTask (hs : Held s) (id : Nat) (task : DataTask URL) : Held (s.setTask id task) :=
  hs

/-! ## Steps that are not seen -/

/-- The same loads, of the same tasks. -/
structure SameLinks (s t : ImageDownloader URL κ) : Prop where
  fetchLoads : t.fetchLoads = s.fetchLoads
  downloadHolder : t.downloadHolder = s.downloadHolder
  loadCount : t.loadCount = s.loadCount
  downloadTask : ∀ ref, (t.loads ref).downloadTask = (s.loads ref).downloadTask
  responseData : ∀ ref, (t.loads ref).responseData = (s.loads ref).responseData
  tasks : ∀ id : Nat, Option.Rel SameTask s.tasks[id]? t.tasks[id]?

theorem SameLinks.fetchLoad (h : SameLinks s t) (url : URL) : t.fetchLoad url = s.fetchLoad url :=
  congrArg (AList.lookup url) h.fetchLoads

theorem SameLinks.task (h : SameLinks s t) {id : Nat} {task' : DataTask URL}
    (htask : t.tasks[id]? = some task') :
    ∃ task, s.tasks[id]? = some task ∧ SameTask task task' := by
  have hrel := h.tasks id
  rw [htask] at hrel
  generalize s.tasks[id]? = a at hrel ⊢
  cases hrel with
  | some hab => exact ⟨_, rfl, hab⟩

theorem SameLinks.task' (h : SameLinks s t) {id : Nat} {task : DataTask URL}
    (htask : s.tasks[id]? = some task) :
    ∃ task', t.tasks[id]? = some task' ∧ SameTask task task' := by
  have hrel := h.tasks id
  rw [htask] at hrel
  generalize t.tasks[id]? = b at hrel ⊢
  cases hrel with
  | some hab => exact ⟨_, rfl, hab⟩

/-- The links are as good as they were. -/
theorem SameLinks.linked (h : SameLinks s t) (hs : Linked s) : Linked t where
  held := by
    rw [Held, h.downloadHolder, h.fetchLoads]
    exact hs.held
  fresh hload := by
    rw [h.loadCount]
    exact hs.fresh (h.fetchLoad _ ▸ hload)
  injective hload hload' := hs.injective (h.fetchLoad _ ▸ hload) (h.fetchLoad _ ▸ hload')
  single htask htask' hurl hstate hstate' := by
    obtain ⟨a, ha, hsame⟩ := h.task htask
    obtain ⟨b, hb, hsame'⟩ := h.task htask'
    exact hs.single ha hb (hsame.url.symm.trans (hurl.trans hsame'.url))
      (fun hover => hstate (hsame.finished.mpr hover))
      (fun hover => hstate' (hsame'.finished.mpr hover))
  running hload := by
    obtain ⟨id, task, hid, htask, hurl, hstate, hdata⟩ := hs.running (h.fetchLoad _ ▸ hload)
    obtain ⟨task', htask', hsame⟩ := h.task' htask
    exact ⟨id, task', (h.downloadTask _).trans hid, htask', hsame.url.trans hurl,
      fun hover => hstate (hsame.finished.mp hover),
      (h.responseData _).trans (hdata.trans hsame.received.symm)⟩
  processing htask hstate := by
    obtain ⟨a, ha, hsame⟩ := h.task htask
    rw [h.fetchLoad, hsame.url]
    exact hs.processing ha (hsame.processing hstate)

/-- The same loads with the same contents. -/
structure Quiet (s t : ImageDownloader URL κ) : Prop extends SameLinks s t where
  contents : ∀ ref, (t.loads ref).contents = (s.loads ref).contents

theorem sameTasks (s : ImageDownloader URL κ) (id : Nat) :
    Option.Rel SameTask s.tasks[id]? s.tasks[id]? := by
  cases s.tasks[id]? with
  | none => exact .none
  | some task => exact .some .rfl

theorem Quiet.refl (s : ImageDownloader URL κ) : Quiet s s where
  fetchLoads := rfl
  downloadHolder := rfl
  loadCount := rfl
  contents _ := rfl
  downloadTask _ := rfl
  responseData _ := rfl
  tasks := s.sameTasks

theorem Quiet.trans {u : ImageDownloader URL κ} (h : Quiet s t) (h' : Quiet t u) : Quiet s u where
  fetchLoads := h'.fetchLoads.trans h.fetchLoads
  downloadHolder := h'.downloadHolder.trans h.downloadHolder
  loadCount := h'.loadCount.trans h.loadCount
  contents ref := (h'.contents ref).trans (h.contents ref)
  downloadTask ref := (h'.downloadTask ref).trans (h.downloadTask ref)
  responseData ref := (h'.responseData ref).trans (h.responseData ref)
  tasks id := by
    have htasks := h.tasks id
    have htasks' := h'.tasks id
    generalize s.tasks[id]? = a, t.tasks[id]? = b, u.tasks[id]? = c at htasks htasks' ⊢
    cases htasks with
    | none =>
        cases htasks'
        exact .none
    | some hab =>
        cases htasks' with
        | some hbc => exact .some (hab.trans hbc)

theorem Quiet.waiting (h : Quiet s t) : t.waiting = s.waiting := by
  funext url
  rw [ImageDownloader.waiting, ImageDownloader.waiting, h.fetchLoad url]
  cases s.fetchLoad url with
  | none => rfl
  | some ref => exact h.contents ref

theorem quiet_cancelQueue (s : ImageDownloader URL κ) (cancelQueue : List (Waiting URL κ)) :
    Quiet s { s with cancelQueue } where
  fetchLoads := rfl
  downloadHolder := rfl
  loadCount := rfl
  contents _ := rfl
  downloadTask _ := rfl
  responseData _ := rfl
  tasks := s.sameTasks

@[simp] theorem modifyLoad_load_self (s : ImageDownloader URL κ) (ref : Nat)
    (f : FetchLoad κ → FetchLoad κ) : (s.modifyLoad ref f).loads ref = f (s.loads ref) :=
  Function.update_self ..

theorem modifyLoad_load_of_ne (s : ImageDownloader URL κ) {ref ref' : Nat} (h : ref' ≠ ref)
    (f : FetchLoad κ → FetchLoad κ) : (s.modifyLoad ref f).loads ref' = s.loads ref' :=
  Function.update_of_ne h ..

theorem modifyLoad_eq_self (s : ImageDownloader URL κ) {ref : Nat}
    {f : FetchLoad κ → FetchLoad κ} (h : f (s.loads ref) = s.loads ref) :
    s.modifyLoad ref f = s := by
  rw [modifyLoad, h, Function.update_eq_self]

/-- What a change keeps of one load, it keeps of all. -/
theorem modifyLoad_field {α : Type} (s : ImageDownloader URL κ) (ref : Nat)
    {f : FetchLoad κ → FetchLoad κ} (field : FetchLoad κ → α)
    (hfield : ∀ load, field (f load) = field load) (ref' : Nat) :
    field ((s.modifyLoad ref f).loads ref') = field (s.loads ref') := by
  by_cases h : ref' = ref
  · rw [h, modifyLoad_load_self, hfield]
  · rw [modifyLoad_load_of_ne s h]

/-- A change of a load that keeps its contents, its task and its data. -/
theorem quiet_modifyLoad (s : ImageDownloader URL κ) (ref : Nat) {f : FetchLoad κ → FetchLoad κ}
    (hcontents : ∀ load, (f load).contents = load.contents)
    (htask : ∀ load, (f load).downloadTask = load.downloadTask)
    (hdata : ∀ load, (f load).responseData = load.responseData) :
    Quiet s (s.modifyLoad ref f) where
  fetchLoads := rfl
  downloadHolder := rfl
  loadCount := rfl
  contents := s.modifyLoad_field ref FetchLoad.contents hcontents
  downloadTask := s.modifyLoad_field ref FetchLoad.downloadTask htask
  responseData := s.modifyLoad_field ref FetchLoad.responseData hdata
  tasks := s.sameTasks

theorem setTask_tasks {id : Nat} {task : DataTask URL} (htask : s.tasks[id]? = some task)
    (task' : DataTask URL) (id' : Nat) :
    (s.setTask id task').tasks[id']? = if id' = id then some task' else s.tasks[id']? := by
  obtain ⟨hlt, -⟩ := List.getElem?_eq_some_iff.mp htask
  show (s.tasks.set id task')[id']? = _
  by_cases h : id' = id
  · rw [if_pos h, h, List.getElem?_set_self hlt]
  · rw [if_neg h, List.getElem?_set_ne (Ne.symm h)]

/-- A change of a task that loads do not depend on. -/
theorem quiet_setTask {id : Nat} {task task' : DataTask URL} (htask : s.tasks[id]? = some task)
    (hsame : SameTask task task') : Quiet s (s.setTask id task') := by
  refine ⟨⟨rfl, rfl, rfl, fun _ => rfl, fun _ => rfl, ?_⟩, fun _ => rfl⟩
  intro id'
  rw [setTask_tasks htask]
  split
  · rename_i h
    rw [h, htask]
    exact .some hsame
  · exact s.sameTasks id'

theorem quiet_cancelDataTask (s : ImageDownloader URL κ) (id : Nat) :
    Quiet s (s.cancelDataTask id) := by
  rw [cancelDataTask]
  cases htask : s.tasks[id]? with
  | none => exact .refl s
  | some task =>
      dsimp only
      split
      · rename_i hrunning
        refine quiet_setTask htask ⟨rfl, rfl, ?_, ?_⟩
        · simp [hrunning]
        · simp
      · exact .refl s

theorem quiet_cancelTaskImpl (s : ImageDownloader URL κ) (id ref : Nat) (ignoreTaskCount : Bool) :
    Quiet s (s.cancelTaskImpl id ref ignoreTaskCount) := by
  have hcount : Quiet s (s.modifyLoad ref fun load =>
      { load with downloadTaskCount := load.downloadTaskCount - 1 }) :=
    quiet_modifyLoad s ref (fun _ => rfl) (fun _ => rfl) (fun _ => rfl)
  rw [cancelTaskImpl]
  split
  · exact hcount.trans (quiet_cancelDataTask _ id)
  · exact hcount

theorem quiet_cancel (s : ImageDownloader URL κ) (id : Nat) (task : DataTask URL) :
    Quiet s (s.cancel id task) := by
  rw [cancel]
  cases s.fetchLoad task.url with
  | none => exact .refl s
  | some ref => exact quiet_cancelTaskImpl s id ref false

/-- What cancelling one load keeps, cancelling all of them keeps. -/
theorem cancelAll_induction {P : ImageDownloader URL κ → Prop} (init : P s)
    (step : ∀ s id ref, P s → P (s.cancelTaskImpl id ref true)) : P s.cancelAll := by
  rw [cancelAll]
  generalize s.fetchLoads.entries = entries
  induction entries generalizing s with
  | nil => exact init
  | cons entry entries ih =>
      rw [List.foldl_cons]
      apply ih
      split
      · exact step s _ entry.2 init
      · exact init

theorem quiet_cancelAll (s : ImageDownloader URL κ) : Quiet s s.cancelAll :=
  cancelAll_induction (.refl s) fun t id ref h => h.trans (quiet_cancelTaskImpl t id ref true)

/-! ## Taking a load out -/

theorem Held.cleanFetchLoad_fetchLoad (hs : Held s) (url url' : URL) :
    (s.cleanFetchLoad url).fetchLoad url' = if url' = url then none else s.fetchLoad url' := by
  rw [cleanFetchLoad]
  cases hholder : s.downloadHolder with
  | false =>
      rw [if_neg (by simp), hs.fetchLoad_eq_none hholder url', ite_self]
  | true =>
      rw [if_pos rfl]
      by_cases h : url' = url
      · rw [if_pos h, h]
        exact AList.lookup_erase url s.fetchLoads
      · rw [if_neg h]
        exact AList.lookup_erase_ne h

theorem Held.cleanFetchLoad (hs : Held s) (url : URL) : Held (s.cleanFetchLoad url) := by
  rw [ImageDownloader.cleanFetchLoad]
  split
  · rfl
  · exact hs

@[simp] theorem cleanFetchLoad_loads (s : ImageDownloader URL κ) (url : URL) :
    (s.cleanFetchLoad url).loads = s.loads := by
  rw [cleanFetchLoad]
  split <;> rfl

@[simp] theorem cleanFetchLoad_loadCount (s : ImageDownloader URL κ) (url : URL) :
    (s.cleanFetchLoad url).loadCount = s.loadCount := by
  rw [cleanFetchLoad]
  split <;> rfl

@[simp] theorem cleanFetchLoad_tasks (s : ImageDownloader URL κ) (url : URL) :
    (s.cleanFetchLoad url).tasks = s.tasks := by
  rw [cleanFetchLoad]
  split <;> rfl

/-- A task that is not over may change; of its URL it stays the one that is not. -/
theorem Linked.single_setTask (hs : Linked s) {id : Nat} {task task' : DataTask URL}
    (htask : s.tasks[id]? = some task) (hurl : task'.url = task.url)
    (hstate : task.state ≠ .finished) {i j : Nat} {a b : DataTask URL}
    (ha : (s.setTask id task').tasks[i]? = some a) (hb : (s.setTask id task').tasks[j]? = some b)
    (hab : a.url = b.url) (hstateA : a.state ≠ .finished) (hstateB : b.state ≠ .finished) :
    i = j := by
  -- the changed task counts as the task it was
  have hbefore : ∀ {i : Nat} {a : DataTask URL}, (s.setTask id task').tasks[i]? = some a →
      a.state ≠ .finished →
        ∃ a', s.tasks[i]? = some a' ∧ a'.url = a.url ∧ a'.state ≠ .finished := by
    intro i a ha hstateA
    rw [setTask_tasks htask] at ha
    by_cases h : i = id
    · rw [if_pos h] at ha
      cases ha
      exact ⟨task, h ▸ htask, hurl.symm, hstate⟩
    · rw [if_neg h] at ha
      exact ⟨a, ha, rfl, hstateA⟩
  obtain ⟨a', ha', hurlA, hstateA'⟩ := hbefore ha hstateA
  obtain ⟨b', hb', hurlB, hstateB'⟩ := hbefore hb hstateB
  exact hs.single ha' hb' (hurlA.trans (hab.trans hurlB.symm)) hstateA' hstateB'

/-- The load of a URL is taken out while something happens to the task it belongs to. -/
theorem Linked.settle (hs : Linked s) {id : Nat} {task : DataTask URL}
    (htask : s.tasks[id]? = some task) (task' : DataTask URL) (hurl : task'.url = task.url)
    (hstate : task.state ≠ .finished)
    (hnot : ∀ ref, task'.state ≠ .processing ref) :
    Linked ((s.setTask id task').cleanFetchLoad task.url) where
  held := (hs.held.setTask id task').cleanFetchLoad task.url
  fresh {url ref} hload := by
    rw [(hs.held.setTask id task').cleanFetchLoad_fetchLoad, Option.ite_none_left_eq_some] at hload
    rw [cleanFetchLoad_loadCount]
    exact hs.fresh hload.2
  injective {url url' ref} hload hload' := by
    rw [(hs.held.setTask id task').cleanFetchLoad_fetchLoad, Option.ite_none_left_eq_some]
      at hload hload'
    exact hs.injective hload.2 hload'.2
  single {i j a b} ha hb := by
    rw [cleanFetchLoad_tasks] at ha hb
    exact hs.single_setTask htask hurl hstate ha hb
  running {url ref} hload := by
    rw [(hs.held.setTask id task').cleanFetchLoad_fetchLoad, Option.ite_none_left_eq_some] at hload
    obtain ⟨i, a, hi, ha, hurlA, hstateA, hdata⟩ := hs.running hload.2
    have hne : i ≠ id := by
      rintro rfl
      rw [ha] at htask
      cases htask
      exact hload.1 hurlA.symm
    refine ⟨i, a, ?_, ?_, hurlA, hstateA, ?_⟩
    · rw [cleanFetchLoad_loads]
      exact hi
    · rw [cleanFetchLoad_tasks, setTask_tasks htask, if_neg hne]
      exact ha
    · rw [cleanFetchLoad_loads]
      exact hdata
  processing {i a ref} ha hstateA := by
    rw [cleanFetchLoad_tasks, setTask_tasks htask] at ha
    by_cases h : i = id
    · rw [if_pos h] at ha
      cases ha
      exact absurd hstateA (hnot ref)
    · rw [if_neg h] at ha
      have hne : a.url ≠ task.url := by
        intro hsame
        exact h (hs.single ha htask hsame (by rw [hstateA]; exact nofun) hstate)
      rw [(hs.held.setTask id task').cleanFetchLoad_fetchLoad, if_neg hne]
      exact hs.processing ha hstateA

theorem Held.waiting_cleanFetchLoad (hs : Held s) (url : URL) :
    (s.cleanFetchLoad url).waiting = Function.update s.waiting url [] := by
  funext url'
  rw [waiting, hs.cleanFetchLoad_fetchLoad, cleanFetchLoad_loads]
  by_cases h : url' = url
  · rw [if_pos h, h, Function.update_self]
  · rw [if_neg h, Function.update_of_ne h]
    rfl

theorem Held.cleanFetchLoad_of_none (hs : Held s) (hload : s.fetchLoad url = none) :
    s.cleanFetchLoad url = s := by
  rw [ImageDownloader.cleanFetchLoad]
  split
  · have herase : s.fetchLoads.erase url = s.fetchLoads :=
      AList.ext (List.kerase_of_notMem_keys (AList.lookup_eq_none.mp hload))
    rw [herase]
    dsimp only
    rw [← hs]
  · rfl

/-- A failure takes the load of the URL out and calls those who wait for it. -/
theorem Held.callCompletionHandlerFailure (hs : Held s) (error : DownloadError) (url : URL) :
    Quiet (s.cleanFetchLoad url)
        (s.callCompletionHandlerFailure error url : _ × Log URL κ Image).1 ∧
      (s.callCompletionHandlerFailure error url).2 =
        (s.waiting url).map fun callback =>
          (.answered url callback (.error error) : Output URL κ (Answer Image)) := by
  rw [ImageDownloader.callCompletionHandlerFailure, waiting]
  cases hholder : s.downloadHolder with
  | false =>
      rw [hs.fetchLoad_eq_none hholder url, ImageDownloader.cleanFetchLoad,
        if_neg (by simp [hholder])]
      exact ⟨.refl s, rfl⟩
  | true =>
      cases hload : s.fetchLoad url with
      | none =>
          rw [hs.cleanFetchLoad_of_none hload]
          exact ⟨.refl s, rfl⟩
      | some ref =>
          have hquiet := quiet_modifyLoad (s.cleanFetchLoad url) ref
            (f := fun load => { load with cancelSemaphore := load.cancelSemaphore.map (· + 1) })
            (fun _ => rfl) (fun _ => rfl) (fun _ => rfl)
          refine ⟨hquiet, ?_⟩
          dsimp only [callbacks]
          rw [hquiet.contents ref, cleanFetchLoad_loads]

/-! ## Joining -/

/-- A URL without a load has no data task that is not over. -/
def Calm (s : ImageDownloader URL κ) (url : URL) : Prop :=
  s.fetchLoad url = none → ∀ task ∈ s.tasks, task.url = url → task.state = .finished

instance (s : ImageDownloader URL κ) (url : URL) : Decidable (s.Calm url) :=
  inferInstanceAs (Decidable (_ → _))

theorem Quiet.calm (h : Quiet s t) (hs : s.Calm url) : t.Calm url := by
  intro hload task' htask' hurl
  obtain ⟨id, hid⟩ := List.getElem?_of_mem htask'
  obtain ⟨task, htask, hsame⟩ := h.task hid
  rw [h.fetchLoad] at hload
  exact hsame.finished.mpr (hs hload task (List.mem_of_getElem? htask) (hsame.url.symm.trans hurl))

/-- A new load for a URL, with the data task it starts. -/
def withLoad (s : ImageDownloader URL κ) (url : URL) (load : FetchLoad κ) :
    ImageDownloader URL κ :=
  { s with
    fetchLoads := s.fetchLoads.insert url s.loadCount
    loads := Function.update s.loads s.loadCount load
    loadCount := s.loadCount + 1
    tasks := s.tasks ++ [{ url }]
    downloadHolder := true }

theorem withLoad_fetchLoad (url url' : URL) (load : FetchLoad κ) :
    (s.withLoad url load).fetchLoad url' =
      if url' = url then some s.loadCount else s.fetchLoad url' := by
  by_cases h : url' = url
  · rw [if_pos h, h]
    exact AList.lookup_insert s.fetchLoads
  · rw [if_neg h]
    exact AList.lookup_insert_ne h

theorem withLoad_load_self (url : URL) (load : FetchLoad κ) :
    (s.withLoad url load).loads s.loadCount = load :=
  Function.update_self ..

theorem withLoad_load_of_lt (url : URL) (load : FetchLoad κ) {ref : Nat} (h : ref < s.loadCount) :
    (s.withLoad url load).loads ref = s.loads ref :=
  Function.update_of_ne (Nat.ne_of_lt h) ..

theorem withLoad_task {load : FetchLoad κ} {id : Nat} {task : DataTask URL}
    (h : (s.withLoad url load).tasks[id]? = some task) :
    s.tasks[id]? = some task ∨ id = s.tasks.length ∧ task = { url } := by
  change (s.tasks ++ [({ url } : DataTask URL)])[id]? = some task at h
  rcases Nat.lt_or_ge id s.tasks.length with hlt | hge
  · rw [List.getElem?_append_left hlt] at h
    exact .inl h
  · rw [List.getElem?_append_right hge] at h
    obtain ⟨hlt, rfl⟩ := List.getElem?_eq_some_iff.mp h
    simp only [List.length_singleton] at hlt
    exact .inr ⟨by omega, by simp⟩

theorem withLoad_task_of_task (url : URL) (load : FetchLoad κ) {id : Nat} {task : DataTask URL}
    (h : s.tasks[id]? = some task) : (s.withLoad url load).tasks[id]? = some task :=
  (List.getElem?_append_left (List.getElem?_eq_some_iff.mp h).1).trans h

/-- The first callback of a URL makes its load and starts its task. -/
theorem prepareFetchLoad_of_none (hload : s.fetchLoad url = none) (callback : κ) :
    (s.prepareFetchLoad url callback : _ × Log URL κ Image) =
      (s.withLoad url
        { contents := [callback], downloadTaskCount := 1, downloadTask := some s.tasks.length },
      [.joined url callback]) := by
  simp [prepareFetchLoad, loadFor, hload, startTask, modifyLoad, withLoad]

/-- The next ones join it. -/
theorem prepareFetchLoad_of_some {ref id : Nat} (hload : s.fetchLoad url = some ref)
    (htask : (s.loads ref).downloadTask = some id) (callback : κ) :
    (s.prepareFetchLoad url callback : _ × Log URL κ Image) =
      (s.modifyLoad ref fun load =>
        { load with
          contents := load.contents ++ [callback]
          downloadTaskCount := load.downloadTaskCount + 1 }, [.joined url callback]) := by
  simp [prepareFetchLoad, loadFor, hload, startTask, modifyLoad, htask]

/-- A new load is linked to the task it starts. -/
theorem Linked.withLoad (hs : Linked s) (hcalm : s.Calm url) (hload : s.fetchLoad url = none)
    {load : FetchLoad κ} (htask : load.downloadTask = some s.tasks.length)
    (hdata : load.responseData = []) : Linked (s.withLoad url load) := by
  have hover : ∀ {id : Nat} {task : DataTask URL}, s.tasks[id]? = some task → task.url = url →
      task.state ≠ .finished → False := fun h hurl hstate =>
    hstate (hcalm hload _ (List.mem_of_getElem? h) hurl)
  have hfetch : ∀ {url' : URL} {ref : Nat}, (s.withLoad url load).fetchLoad url' = some ref →
      url' = url ∧ ref = s.loadCount ∨ s.fetchLoad url' = some ref := by
    intro url' ref h
    rw [withLoad_fetchLoad] at h
    split at h
    · rename_i hurl
      exact .inl ⟨hurl, (Option.some.inj h).symm⟩
    · exact .inr h
  refine ⟨?_, ?_, ?_, ?_, ?_, ?_⟩
  · rw [Held, ImageDownloader.withLoad,
      AList.entries_insert_of_notMem (AList.lookup_eq_none.mp hload)]
    rfl
  · intro url' ref h
    rcases hfetch h with ⟨-, rfl⟩ | h
    · exact Nat.lt_succ_self _
    · exact Nat.lt_succ_of_lt (hs.fresh h)
  · intro url' url'' ref h h'
    rcases hfetch h with ⟨rfl, rfl⟩ | hold
    · rcases hfetch h' with ⟨rfl, -⟩ | hold'
      · rfl
      · exact absurd (hs.fresh hold') (Nat.lt_irrefl _)
    · rcases hfetch h' with ⟨rfl, rfl⟩ | hold'
      · exact absurd (hs.fresh hold) (Nat.lt_irrefl _)
      · exact hs.injective hold hold'
  · intro i j a b ha hb hab hstateA hstateB
    rcases withLoad_task ha with ha | ⟨rfl, rfl⟩
    · rcases withLoad_task hb with hb | ⟨rfl, rfl⟩
      · exact hs.single ha hb hab hstateA hstateB
      · exact (hover ha hab hstateA).elim
    · rcases withLoad_task hb with hb | ⟨rfl, -⟩
      · exact (hover hb hab.symm hstateB).elim
      · rfl
  · intro url' ref h
    rcases hfetch h with ⟨rfl, rfl⟩ | h
    · rw [withLoad_load_self]
      refine ⟨s.tasks.length, { url := url' }, htask, ?_, rfl, nofun, hdata⟩
      show (s.tasks ++ [({ url := url' } : DataTask URL)])[s.tasks.length]? = _
      rw [List.getElem?_append_right (Nat.le_refl _), Nat.sub_self]
      rfl
    · obtain ⟨i, a, hi, ha, hurl, hstate, hreceived⟩ := hs.running h
      rw [withLoad_load_of_lt _ _ (hs.fresh h)]
      exact ⟨i, a, hi, withLoad_task_of_task _ _ ha, hurl, hstate, hreceived⟩
  · intro i a ref ha hstate
    rcases withLoad_task ha with ha | ⟨-, rfl⟩
    · have hbefore := hs.processing ha hstate
      have hne : a.url ≠ url := by
        intro h
        rw [h, hload] at hbefore
        cases hbefore
      rw [withLoad_fetchLoad, if_neg hne]
      exact hbefore
    · cases hstate

/-- A load that can be joined is changed: those who wait for its URL are its contents now. -/
theorem Linked.waiting_modifyLoad (hs : Linked s) {ref : Nat} (hload : s.fetchLoad url = some ref)
    (f : FetchLoad κ → FetchLoad κ) :
    (s.modifyLoad ref f).waiting = Function.update s.waiting url (f (s.loads ref)).contents := by
  funext url'
  have hsame : (s.modifyLoad ref f).fetchLoad url' = s.fetchLoad url' := rfl
  by_cases h : url' = url
  · rw [h] at hsame ⊢
    rw [waiting_of_some (hsame.trans hload), Function.update_self, modifyLoad_load_self]
  · rw [Function.update_of_ne h]
    cases hload' : s.fetchLoad url' with
    | none => rw [waiting_of_none hload', waiting_of_none (hsame.trans hload')]
    | some ref' =>
        have hne : ref' ≠ ref := fun heq => h (hs.injective hload' (heq ▸ hload))
        rw [waiting_of_some hload', waiting_of_some (hsame.trans hload'),
          modifyLoad_load_of_ne s hne]

/-- A callback joins those who wait for its URL. -/
theorem Linked.prepareFetchLoad (hs : Linked s) (hcalm : s.Calm url) (callback : κ) :
    ∃ t, (s.prepareFetchLoad url callback : _ × Log URL κ Image) = (t, [.joined url callback]) ∧
      Linked t ∧ t.waiting = Function.update s.waiting url (s.waiting url ++ [callback]) := by
  cases hload : s.fetchLoad url with
  | none =>
      refine ⟨_, prepareFetchLoad_of_none hload callback, hs.withLoad hcalm hload rfl rfl, ?_⟩
      funext url'
      by_cases h : url' = url
      · have hself := withLoad_fetchLoad (s := s) url url'
          { contents := [callback], downloadTaskCount := 1, downloadTask := some s.tasks.length }
        rw [if_pos h] at hself
        rw [waiting_of_some hself, withLoad_load_self, h, Function.update_self,
          waiting_of_none hload]
        rfl
      · have hother := withLoad_fetchLoad (s := s) url url'
          { contents := [callback], downloadTaskCount := 1, downloadTask := some s.tasks.length }
        rw [if_neg h] at hother
        rw [Function.update_of_ne h]
        cases hload' : s.fetchLoad url' with
        | none => rw [waiting_of_none hload', waiting_of_none (hother.trans hload')]
        | some ref =>
            rw [waiting_of_some hload', waiting_of_some (hother.trans hload'),
              withLoad_load_of_lt _ _ (hs.fresh hload')]
  | some ref =>
      obtain ⟨id, -, hid, -⟩ := hs.running hload
      refine ⟨_, prepareFetchLoad_of_some hload hid callback, ?_, ?_⟩
      · refine SameLinks.linked (s := s) ⟨rfl, rfl, rfl, ?_, ?_, s.sameTasks⟩ hs
        · exact s.modifyLoad_field ref FetchLoad.downloadTask fun _ => rfl
        · exact s.modifyLoad_field ref FetchLoad.responseData fun _ => rfl
      · rw [hs.waiting_modifyLoad hload, waiting_of_some hload]

/-! ## Receiving and processing -/

/-- The task of a load that can be joined changes; what it receives, the load receives. -/
theorem Linked.setTask_load (hs : Linked s) {id ref : Nat} {task : DataTask URL}
    (data : List UInt8) (htask : s.tasks[id]? = some task)
    (hload : s.fetchLoad task.url = some ref) (hstate : task.state ≠ .finished)
    (task' : DataTask URL) (hurl : task'.url = task.url) (hstate' : task'.state ≠ .finished)
    (hprocessing : ∀ r, task'.state = .processing r → r = ref)
    (hreceived : task'.received = task.received ++ data) :
    Linked ((s.setTask id task').modifyLoad ref fun load =>
      { load with responseData := load.responseData ++ data }) where
  held := hs.held
  fresh := hs.fresh
  injective := hs.injective
  single := hs.single_setTask htask hurl hstate
  running {url ref'} hload' := by
    obtain ⟨i, a, hi, ha, hurlA, hstateA, hdata⟩ := hs.running hload'
    have hkeep : (((s.setTask id task').modifyLoad ref fun load =>
        { load with responseData := load.responseData ++ data }).loads ref').downloadTask =
          (s.loads ref').downloadTask :=
      modifyLoad_field (s.setTask id task') ref
        (f := fun load : FetchLoad κ => { load with responseData := load.responseData ++ data })
        FetchLoad.downloadTask (fun _ => rfl) ref'
    by_cases hsame : url = task.url
    · have hid : i = id := hs.single ha htask (hurlA.trans hsame) hstateA hstate
      rw [hid, htask, Option.some.injEq] at ha
      have href : ref' = ref := Option.some.inj (hload'.symm.trans (hsame ▸ hload))
      refine ⟨id, task', ?_, ?_, hurl.trans hsame.symm, hstate', ?_⟩
      · rw [hkeep, ← hid]
        exact hi
      · show (s.setTask id task').tasks[id]? = some task'
        rw [setTask_tasks htask, if_pos rfl]
      · rw [href] at hdata ⊢
        rw [hreceived, ha, ← hdata]
        rw [modifyLoad_load_self]
        rfl
    · have hne : i ≠ id := by
        rintro rfl
        rw [ha] at htask
        cases htask
        exact hsame hurlA.symm
      have href : ref' ≠ ref := fun heq => hsame (hs.injective hload' (heq ▸ hload))
      refine ⟨i, a, ?_, ?_, hurlA, hstateA, ?_⟩
      · rw [hkeep]
        exact hi
      · show (s.setTask id task').tasks[i]? = some a
        rw [setTask_tasks htask, if_neg hne]
        exact ha
      · rw [← hdata, modifyLoad_load_of_ne _ href]
        rfl
  processing {i a ref'} ha hstateA := by
    change (s.setTask id task').tasks[i]? = some a at ha
    rw [setTask_tasks htask] at ha
    split at ha
    · cases ha
      rw [hprocessing ref' hstateA, hurl]
      exact hload
    · exact hs.processing ha hstateA

/-- The task of a URL without a load changes. -/
theorem Linked.setTask_none (hs : Linked s) {id : Nat} {task : DataTask URL}
    (htask : s.tasks[id]? = some task) (hload : s.fetchLoad task.url = none)
    (hstate : task.state ≠ .finished) (task' : DataTask URL) (hurl : task'.url = task.url)
    (hnot : ∀ ref, task'.state ≠ .processing ref) : Linked (s.setTask id task') := by
  have hsettle := hs.settle htask task' hurl hstate hnot
  rw [(hs.held.setTask id task').cleanFetchLoad_of_none hload] at hsettle
  exact hsettle

theorem Linked.didReceiveData (hs : Linked s) {id : Nat} {task : DataTask URL}
    (htask : s.tasks[id]? = some task) (hstate : task.state.InSession) (data : List UInt8) :
    Linked (s.didReceiveData id task data) ∧
      (s.didReceiveData id task data).waiting = s.waiting := by
  have hload : (s.setTask id { task with received := task.received ++ data }).fetchLoad task.url =
      s.fetchLoad task.url := rfl
  rw [ImageDownloader.didReceiveData, hload]
  cases hfetch : s.fetchLoad task.url with
  | none =>
      have hlinked := hs.setTask_none htask hfetch hstate.ne_over
        { task with received := task.received ++ data } rfl hstate.ne_processing
      exact ⟨by split <;> first | exact hlinked | contradiction,
        by split <;> first | rfl | contradiction⟩
  | some ref =>
      have hholder : (s.setTask id { task with received := task.received ++ data }).downloadHolder =
          true := hs.held.of_fetchLoad hfetch
      rw [hholder]
      refine ⟨hs.setTask_load data htask hfetch hstate.ne_over _ rfl hstate.ne_over
        (fun r h => absurd h (hstate.ne_processing r)) rfl, ?_⟩
      have hkeep := hs.waiting_modifyLoad hfetch fun load =>
        { load with responseData := load.responseData ++ data }
      rw [← waiting_of_some hfetch, Function.update_eq_self] at hkeep
      exact hkeep

/-! ## What a step comes to -/

/-- The table of waiters does what the downloader does: the same is put out, and the waiters
are the ones of the downloader again. -/
structure Follows (s : ImageDownloader URL κ) (r : ImageDownloader URL κ × Log URL κ Image) :
    Prop where
  linked : Linked r.1
  run : ∃ as, SingleFlight.machine.run s.waiting as = some (r.1.waiting, r.2)

theorem Linked.follows_quiet (hs : Linked s) (h : Quiet s t) :
    Follows s (t, ([] : Log URL κ Image)) where
  linked := h.linked hs
  run := ⟨[], by rw [h.waiting]; rfl⟩

theorem Linked.follows_settle {answer : Answer Image} (ht : Linked t)
    (hwaiting : t.waiting = Function.update s.waiting url []) :
    Follows s (t, (s.waiting url).map fun callback => .answered url callback answer) where
  linked := ht
  run := ⟨[.settle url answer], by rw [Machine.run_singleton, hwaiting]; rfl⟩

theorem Follows.of_waiting {s' : ImageDownloader URL κ}
    {r : ImageDownloader URL κ × Log URL κ Image} (h : Follows s' r)
    (hwaiting : s'.waiting = s.waiting) : Follows s r where
  linked := h.linked
  run := hwaiting ▸ h.run

theorem Linked.follows_prepareFetchLoad (hs : Linked s) (hcalm : s.Calm url) (callback : κ) :
    Follows s (s.prepareFetchLoad url callback : _ × Log URL κ Image) := by
  obtain ⟨t, heq, ht, hwaiting⟩ := hs.prepareFetchLoad hcalm callback
  rw [heq]
  exact ⟨ht, [.join url callback], by rw [Machine.run_singleton, hwaiting]; rfl⟩

/-- `setup` puts the request on the cancel queue, with a semaphore, or prepares the load. -/
theorem setup_cases (Image : Type) (s : ImageDownloader URL κ) (url : URL) (callback : κ) :
    (∃ ref t, (s.setup url callback : _ × Log URL κ Image) = (t, []) ∧ Quiet s t ∧
        t.tasks = s.tasks ∧ t.cancelQueue = s.cancelQueue ++ [⟨ref, url, callback⟩]) ∨
      (s.setup url callback : _ × Log URL κ Image) = s.prepareFetchLoad url callback := by
  rw [setup]
  cases hload : s.fetchLoad url with
  | none => exact .inr rfl
  | some ref =>
      dsimp only
      split
      · refine .inl ⟨ref, _, rfl, Quiet.trans ?_ (quiet_cancelQueue _ _), rfl, rfl⟩
        exact quiet_modifyLoad s ref (fun _ => rfl) (fun _ => rfl) (fun _ => rfl)
      · exact .inr rfl

/-- The head of the cancel queue prepares its load, when it is let pass. -/
theorem runCancelQueue_cases {r : ImageDownloader URL κ × Log URL κ Image}
    (h : s.runCancelQueue = some r) : ∃ waiting rest t, s.cancelQueue = waiting :: rest ∧
      (s.loads waiting.load).cancelSemaphore ≠ some 0 ∧ Quiet s t ∧ t.tasks = s.tasks ∧
      t.cancelQueue = rest ∧ r = t.prepareFetchLoad waiting.url waiting.callback := by
  rw [runCancelQueue] at h
  cases hqueue : s.cancelQueue with
  | nil =>
      rw [hqueue] at h
      cases h
  | cons waiting rest =>
      simp only [hqueue, Option.ite_none_left_eq_some, Option.some.injEq] at h
      obtain ⟨hpass, rfl⟩ := h
      refine ⟨waiting, rest, { s.modifyLoad waiting.load fun load =>
        { load with cancelSemaphore := none } with cancelQueue := rest }, rfl, hpass,
        Quiet.trans ?_ (quiet_cancelQueue _ rest), rfl, rfl, rfl⟩
      exact quiet_modifyLoad s waiting.load (fun _ => rfl) (fun _ => rfl) (fun _ => rfl)

theorem Linked.follows_setup (hs : Linked s) (hcalm : s.Calm url) (callback : κ) :
    Follows s (s.setup url callback : _ × Log URL κ Image) := by
  rcases s.setup_cases Image url callback with ⟨-, t, heq, hquiet, -⟩ | heq
  · rw [heq]
    exact hs.follows_quiet hquiet
  · rw [heq]
    exact hs.follows_prepareFetchLoad hcalm callback

theorem Linked.follows_runCancelQueue (hs : Linked s)
    (hcalm : ∀ waiting ∈ s.cancelQueue.head?, s.Calm waiting.url)
    {r : ImageDownloader URL κ × Log URL κ Image} (h : s.runCancelQueue = some r) :
    Follows s r := by
  obtain ⟨waiting, rest, t, hqueue, -, hquiet, -, -, rfl⟩ := runCancelQueue_cases h
  have hcalm' := hquiet.calm (hcalm waiting (by rw [hqueue]; rfl))
  exact ((hquiet.linked hs).follows_prepareFetchLoad hcalm' waiting.callback).of_waiting
    hquiet.waiting

/-- The task of a URL fails, or is rejected. -/
theorem Linked.follows_failure (hs : Linked s) {id : Nat} {task : DataTask URL}
    (htask : s.tasks[id]? = some task) (task' : DataTask URL) (hurl : task'.url = task.url)
    (hstate : task.state ≠ .finished)
    (hnot : ∀ ref, task'.state ≠ .processing ref) (error : DownloadError) :
    Follows s
      ((s.setTask id task').callCompletionHandlerFailure error task.url : _ × Log URL κ Image) := by
  obtain ⟨hquiet, hlog⟩ := (hs.held.setTask id task').callCompletionHandlerFailure
    error task.url
  rw [← Prod.eta (ImageDownloader.callCompletionHandlerFailure _ _ _), hlog]
  refine (hquiet.linked (hs.settle htask task' hurl hstate hnot)).follows_settle ?_
  rw [hquiet.waiting, (hs.held.setTask id task').waiting_cleanFetchLoad]
  rfl

theorem Linked.follows_didReceiveResponse (hs : Linked s) {id : Nat} {task : DataTask URL}
    (htask : s.tasks[id]? = some task) (hstate : task.state.InSession) (statusCode : Nat) :
    Follows s (s.didReceiveResponse id task statusCode : _ × Log URL κ Image) := by
  have hquiet : Quiet s (s.setTask id { task with statusCode := some statusCode }) :=
    quiet_setTask htask ⟨rfl, rfl, .rfl, fun h => h⟩
  rw [didReceiveResponse]
  split
  · split
    · exact hs.follows_quiet hquiet
    · exact hs.follows_failure htask { task with statusCode := some statusCode } rfl
        hstate.ne_over hstate.ne_processing _
  · exact hs.follows_quiet (hquiet.trans (quiet_cancelDataTask _ id))

theorem Linked.follows_didComplete (hs : Linked s) {id : Nat} {task : DataTask URL}
    (htask : s.tasks[id]? = some task) (hstate : task.state.InSession) (failed : Bool) :
    Follows s (s.didComplete id task failed : _ × Log URL κ Image) := by
  rw [didComplete]
  split
  · exact hs.follows_failure htask { task with state := .finished } rfl hstate.ne_over
      (fun _ => nofun) _
  · split
    · refine hs.follows_quiet (quiet_setTask htask ⟨rfl, rfl, ?_, nofun⟩)
      exact ⟨nofun, fun h => absurd h hstate.ne_over⟩
    · rename_i hholder
      have hnone := hs.held.fetchLoad_eq_none (Bool.not_eq_true _ ▸ hholder) task.url
      exact ⟨hs.setTask_none htask hnone hstate.ne_over _ rfl fun _ => nofun, [], rfl⟩

theorem Linked.follows_beginProcess (hs : Linked s) {id : Nat} {task : DataTask URL}
    (htask : s.tasks[id]? = some task) (hstate : task.state = .queued) :
    Follows s (s.beginProcess id task, ([] : Log URL κ Image)) := by
  have hnotOver : task.state ≠ .finished := by
    rw [hstate]
    exact nofun
  rw [beginProcess]
  cases hload : s.fetchLoad task.url with
  | none => exact ⟨hs.setTask_none htask hload hnotOver _ rfl fun _ => nofun, [], rfl⟩
  | some ref =>
      have hlinked := hs.setTask_load [] htask hload hnotOver { task with state := .processing ref }
        rfl nofun (fun r h => (TaskState.processing.inj h).symm) (List.append_nil _).symm
      rw [modifyLoad_eq_self _ (by rw [List.append_nil])] at hlinked
      exact ⟨hlinked, [], rfl⟩

theorem Linked.follows_finishProcess (hs : Linked s) {id ref : Nat} {task : DataTask URL}
    (htask : s.tasks[id]? = some task) (hstate : task.state = .processing ref)
    (process : List UInt8 → Option Image) :
    Follows s (s.finishProcess process id task ref) := by
  have hload := hs.processing htask hstate
  have hlinked := hs.settle htask { task with state := .finished } rfl
    (by rw [hstate]; exact nofun) fun _ => nofun
  rw [finishProcess]
  dsimp only [callbacks]
  rw [cleanFetchLoad_loads]
  have hcontents : ((s.setTask id { task with state := .finished }).loads ref).contents =
      s.waiting task.url := (waiting_of_some hload).symm
  rw [hcontents]
  refine hlinked.follows_settle ?_
  rw [(hs.held.setTask id _).waiting_cleanFetchLoad]
  rfl

/-! ## Steps and runs -/

/-- The condition on a run: a URL without a load is asked for when its data task is over. -/
def AskedWhenOver (s : ImageDownloader URL κ) : Action URL κ → Prop
  | .downloadImage url _ => s.Calm url
  | .runCancelQueue => ∀ waiting ∈ s.cancelQueue.head?, s.Calm waiting.url
  | _ => True

instance (s : ImageDownloader URL κ) : ∀ a, Decidable (s.AskedWhenOver a)
  | .downloadImage url _ => inferInstanceAs (Decidable (s.Calm url))
  | .runCancelQueue => inferInstanceAs (Decidable (∀ waiting ∈ s.cancelQueue.head?, _))
  | .cancel _ | .cancelAll | .didReceiveResponse _ _ | .didReceiveData _ _ | .didComplete _ _
  | .beginProcess _ | .finishProcess _ => .isTrue trivial

/-- A step about a data task, with the task. -/
theorem onTask_eq_some {σ : Type} {id : Nat} {f : DataTask URL → Option σ} {r : σ}
    (h : s.onTask id f = some r) : ∃ task, s.tasks[id]? = some task ∧ f task = some r :=
  Option.bind_eq_some_iff.mp h

theorem onTask_ite_eq_some {σ : Type} {id : Nat} {p : DataTask URL → Prop} [DecidablePred p]
    {f : DataTask URL → σ} {r : σ}
    (h : (s.onTask id fun task => if p task then some (f task) else none) = some r) :
    ∃ task, s.tasks[id]? = some task ∧ p task ∧ f task = r := by
  obtain ⟨task, htask, heq⟩ := onTask_eq_some h
  obtain ⟨hp, heq⟩ := Option.ite_none_right_eq_some.mp heq
  exact ⟨task, htask, hp, Option.some.inj heq⟩

theorem finishProcess_cases {process : List UInt8 → Option Image} {id : Nat}
    {r : ImageDownloader URL κ × Log URL κ Image}
    (h : (machine process).step s (.finishProcess id) = some r) :
    ∃ task ref, s.tasks[id]? = some task ∧ task.state = .processing ref ∧
      s.finishProcess process id task ref = r := by
  obtain ⟨task, htask, heq⟩ := onTask_eq_some h
  split at heq
  · rename_i ref hstate
    exact ⟨task, ref, htask, hstate, Option.some.inj heq⟩
  · cases heq

/-- **Every step is one of the table of waiters**, or is not seen in it. -/
theorem Linked.follows (hs : Linked s) {process : List UInt8 → Option Image} {a : Action URL κ}
    (hguard : s.AskedWhenOver a) {r : ImageDownloader URL κ × Log URL κ Image}
    (h : (machine process).step s a = some r) : Follows s r := by
  cases a with
  | downloadImage url callback =>
      cases h
      exact hs.follows_setup hguard callback
  | runCancelQueue => exact hs.follows_runCancelQueue hguard h
  | cancel id =>
      obtain ⟨task, -, heq⟩ := onTask_eq_some h
      cases heq
      exact hs.follows_quiet (quiet_cancel s id task)
  | cancelAll =>
      cases h
      exact hs.follows_quiet (quiet_cancelAll s)
  | didReceiveResponse id statusCode =>
      obtain ⟨task, htask, hstate, rfl⟩ := onTask_ite_eq_some h
      exact hs.follows_didReceiveResponse htask hstate statusCode
  | didReceiveData id data =>
      obtain ⟨task, htask, hstate, rfl⟩ := onTask_ite_eq_some h
      obtain ⟨hlinked, hwaiting⟩ := hs.didReceiveData htask hstate data
      exact ⟨hlinked, [], by rw [hwaiting]; rfl⟩
  | didComplete id failed =>
      obtain ⟨task, htask, hstate, rfl⟩ := onTask_ite_eq_some h
      exact hs.follows_didComplete htask hstate failed
  | beginProcess id =>
      obtain ⟨task, htask, hstate, rfl⟩ := onTask_ite_eq_some h
      exact hs.follows_beginProcess htask hstate
  | finishProcess id =>
      obtain ⟨task, ref, htask, hstate, rfl⟩ := finishProcess_cases h
      exact hs.follows_finishProcess htask hstate process

/-- The downloader is linked, and its log is one of the table of waiters. -/
theorem follows_run {process : List UInt8 → Option Image} {as : List (Action URL κ)}
    {log : Log URL κ Image} (hrun : (machine process).run {} as = some (s, log))
    (hguard : (machine process).Guarded AskedWhenOver {} as) :
    Linked s ∧ ∃ as', SingleFlight.machine.run (fun _ => []) as' = some (s.waiting, log) := by
  refine Machine.run_induction
    (P := fun _ s log => Linked s ∧ ∃ as', SingleFlight.machine.run (fun _ => []) as' =
      some (s.waiting, log)) ⟨linked_initial, [], rfl⟩ ?_ hrun hguard
  rintro as s log a t o - ⟨hs, as', has'⟩ hask hstep
  obtain ⟨ht, bs, hbs⟩ := hs.follows hask hstep
  exact ⟨ht, as' ++ bs,
    SingleFlight.machine.run_append_eq_some.mpr ⟨s.waiting, log, o, has', hbs, rfl⟩⟩

/-! ## Runs without rejected responses

Only a rejected response takes out the load of a task that is not over.  Without one every
URL is calm at any time, and the condition on the run holds by itself. -/

/-- The session reports no status code that is not valid. -/
def Action.Valid : Action URL κ → Prop
  | .didReceiveResponse _ statusCode => isValidStatusCode statusCode = true
  | _ => True

def AllCalm (s : ImageDownloader URL κ) : Prop := ∀ url, s.Calm url

theorem allCalm_initial : AllCalm ({} : ImageDownloader URL κ) :=
  fun _ _ _ htask => nomatch htask

/-- A task that is not over has a load, so that it may change. -/
theorem AllCalm.setTask (hs : AllCalm s) {id : Nat} {task : DataTask URL}
    (htask : s.tasks[id]? = some task) (hstate : task.state ≠ .finished) (task' : DataTask URL)
    (hurl : task'.url = task.url) : AllCalm (s.setTask id task') := by
  intro url hload a ha haurl
  obtain ⟨i, hi⟩ := List.getElem?_of_mem ha
  rw [setTask_tasks htask] at hi
  split at hi
  · cases hi
    rw [← haurl, hurl] at hload
    exact absurd (hs task.url hload task (List.mem_of_getElem? htask) rfl) hstate
  · exact hs url hload a (List.mem_of_getElem? hi) haurl

theorem AllCalm.settle (hc : AllCalm s) (hs : Linked s) {id : Nat} {task : DataTask URL}
    (htask : s.tasks[id]? = some task) (hstate : task.state ≠ .finished) :
    AllCalm ((s.setTask id { task with state := .finished }).cleanFetchLoad task.url) := by
  intro url hload a ha haurl
  rw [cleanFetchLoad_tasks] at ha
  obtain ⟨i, hi⟩ := List.getElem?_of_mem ha
  rw [setTask_tasks htask] at hi
  split at hi
  · cases hi
    rfl
  · rename_i hne
    by_cases hsame : url = task.url
    · by_contra hnot
      exact hne (hs.single hi htask (haurl.trans hsame) hnot hstate)
    · rw [(hs.held.setTask id _).cleanFetchLoad_fetchLoad, if_neg hsame] at hload
      exact hc url hload a (List.mem_of_getElem? hi) haurl

theorem AllCalm.failure (hc : AllCalm s) (hs : Linked s) {id : Nat} {task : DataTask URL}
    (htask : s.tasks[id]? = some task) (hstate : task.state ≠ .finished) (error : DownloadError) :
    AllCalm ((s.setTask id { task with state := .finished }).callCompletionHandlerFailure error
      task.url : _ × Log URL κ Image).1 := fun url =>
  ((hs.held.setTask id _).callCompletionHandlerFailure error task.url).1.calm
    (hc.settle hs htask hstate url)

theorem AllCalm.prepareFetchLoad (hc : AllCalm s) (hs : Linked s) (url : URL) (callback : κ) :
    AllCalm (s.prepareFetchLoad url callback : _ × Log URL κ Image).1 := by
  intro url' hload'
  cases hload : s.fetchLoad url with
  | none =>
      rw [prepareFetchLoad_of_none hload] at hload' ⊢
      dsimp only at hload' ⊢
      rw [withLoad_fetchLoad] at hload'
      split at hload'
      · cases hload'
      · rename_i hne
        intro a ha haurl
        obtain ⟨i, hi⟩ := List.getElem?_of_mem ha
        rcases withLoad_task hi with hi | ⟨-, rfl⟩
        · exact hc url' hload' a (List.mem_of_getElem? hi) haurl
        · exact absurd haurl.symm hne
  | some ref =>
      obtain ⟨id, -, hid, -⟩ := hs.running hload
      rw [prepareFetchLoad_of_some hload hid] at hload' ⊢
      exact hc url' hload'

theorem AllCalm.step (hc : AllCalm s) (hs : Linked s) {process : List UInt8 → Option Image}
    {a : Action URL κ} (hvalid : a.Valid) {r : ImageDownloader URL κ × Log URL κ Image}
    (h : (machine process).step s a = some r) : AllCalm r.1 := by
  cases a with
  | downloadImage url callback =>
      cases h
      rcases s.setup_cases Image url callback with ⟨-, t, heq, hquiet, -⟩ | heq
      · rw [heq]
        exact fun url' => hquiet.calm (hc url')
      · rw [heq]
        exact hc.prepareFetchLoad hs url callback
  | runCancelQueue =>
      obtain ⟨waiting, rest, t, -, -, hquiet, -, -, rfl⟩ := runCancelQueue_cases h
      have hc' : AllCalm t := fun url => hquiet.calm (hc url)
      exact hc'.prepareFetchLoad (hquiet.linked hs) waiting.url waiting.callback
  | cancel id =>
      obtain ⟨task, -, heq⟩ := onTask_eq_some h
      cases heq
      exact fun url => (quiet_cancel s id task).calm (hc url)
  | cancelAll =>
      cases h
      exact fun url => (quiet_cancelAll s).calm (hc url)
  | didReceiveResponse id statusCode =>
      obtain ⟨task, htask, hstate, rfl⟩ := onTask_ite_eq_some h
      have hset := hc.setTask htask hstate.ne_over { task with statusCode := some statusCode } rfl
      rw [didReceiveResponse, if_pos (show isValidStatusCode statusCode = true from hvalid)]
      split
      · exact hset
      · exact fun url => (quiet_cancelDataTask _ id).calm (hset url)
  | didReceiveData id data =>
      obtain ⟨task, htask, hstate, rfl⟩ := onTask_ite_eq_some h
      have hset := hc.setTask htask hstate.ne_over
        { task with received := task.received ++ data } rfl
      rw [didReceiveData]
      split <;> exact hset
  | didComplete id failed =>
      obtain ⟨task, htask, hstate, rfl⟩ := onTask_ite_eq_some h
      rw [didComplete]
      split
      · exact hc.failure hs htask hstate.ne_over _
      · split <;> exact hc.setTask htask hstate.ne_over _ rfl
  | beginProcess id =>
      obtain ⟨task, htask, hstate, rfl⟩ := onTask_ite_eq_some h
      rw [beginProcess]
      split <;> exact hc.setTask htask (by rw [hstate]; exact nofun) _ rfl
  | finishProcess id =>
      obtain ⟨task, ref, htask, hstate, rfl⟩ := finishProcess_cases h
      exact hc.settle hs htask (by rw [hstate]; exact nofun)

theorem AllCalm.askedWhenOver (hc : AllCalm s) (a : Action URL κ) : s.AskedWhenOver a := by
  cases a with
  | downloadImage url callback => exact hc url
  | runCancelQueue => exact fun waiting _ => hc waiting.url
  | _ => trivial

/-- A run without rejected responses asks for a URL without a load when its task is over. -/
theorem askedWhenOver_of_valid {process : List UInt8 → Option Image} {as : List (Action URL κ)}
    {log : Log URL κ Image} (hrun : (machine process).run {} as = some (s, log))
    (hvalid : ∀ a ∈ as, a.Valid) : (machine process).Guarded AskedWhenOver {} as := by
  refine (Machine.Guarded.of_invariant (H := AskedWhenOver)
    (I := fun s : ImageDownloader URL κ => Linked s ∧ AllCalm s) ⟨linked_initial, ?_⟩ ?_ hrun
    (Machine.guarded_of_forall _ hvalid)).1
  · exact allCalm_initial
  · rintro s a t o ⟨hs, hc⟩ ha hstep
    have hask := hc.askedWhenOver a
    exact ⟨hask, (hs.follows hask hstep).linked, hc.step hs ha hstep⟩

end ImageDownloader

end MagnetX.Kingfisher
