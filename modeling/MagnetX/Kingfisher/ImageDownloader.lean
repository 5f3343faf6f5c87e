/-
# `MagnetX.Kingfisher.ImageDownloader` — one download for all who ask for a URL

The vendored Kingfisher's `ImageDownloader.swift`, with the delegate of its URL session.
The callbacks of a URL are kept in a fetch load; the first of them starts a data task, the
others join (`setup`).  When the task fails, or its data has been processed, the load is
taken out of `fetchLoads` and its callbacks are called.

Three threads take part.  The callers and the session's delegate are on the main queue.
A finished task is processed on a concurrent queue: there it first looks its load up and
then takes it out, and anything may happen in between.  A URL whose load has been cancelled,
but is still there, is asked for again on the serial `cancelQueue`, which waits for the
semaphore that the failure of the task signals.

Taking the load out, processing its data and calling its callbacks are one step.  Once it is
out, no caller and no call of the delegate reaches the load any more: they go through
`fetchLoads`, to which no load comes back.  So nothing the rest of the block reads changes
until it is over, and what others do meanwhile might as well come after it.  Each call on the
main queue, and each block of `cancelQueue`, is one step too.

The machine below interleaves all of it.  What is not the program's: `received` of a data
task, what the session has delivered of it, and the bytes, status codes and errors of the
session, which are the machine's inputs.
-/
import MagnetX.Lib.SingleFlight
import Mathlib

namespace MagnetX.Kingfisher

open Lib Lib.SingleFlight

/-! ## The downloader -/

/-- The errors that callbacks are given. -/
inductive DownloadError where
  | session
  | invalidStatusCode (statusCode : Nat)
  | notModified
  | badData
deriving DecidableEq, Repr

/-- A callback's arguments: an image with the data it was made from, or an error. -/
abbrev Answer (Image : Type) := Except DownloadError (Image × List UInt8)

/-- `ImageFetchLoad`, with the callbacks of its contents. -/
structure FetchLoad (κ : Type) where
  contents : List κ := []
  responseData : List UInt8 := []
  downloadTaskCount : Int := 0
  downloadTask : Option Nat := none
  cancelSemaphore : Option Nat := none
deriving DecidableEq, Repr

/-- Where a data task is: with the session, cancelled but with no completion yet, completed
and waiting to be processed, being processed with the load it has looked up, or over. -/
inductive TaskState where
  | running
  | cancelled
  | queued
  | processing (load : Nat)
  | finished
deriving DecidableEq, Repr

/-- The session calls its delegate about the task; of a cancelled one too, until the
cancellation has come through. -/
def TaskState.InSession (state : TaskState) : Prop := state = .running ∨ state = .cancelled

instance (state : TaskState) : Decidable state.InSession := inferInstanceAs (Decidable (_ ∨ _))

/-- A data task, in the session and after it. -/
structure DataTask (URL : Type) where
  url : URL
  state : TaskState := .running
  statusCode : Option Nat := none
  received : List UInt8 := []
deriving DecidableEq, Repr

/-- A block of `cancelQueue`: what it waits for, and the arguments of `setup`. -/
structure Waiting (URL κ : Type) where
  load : Nat
  url : URL
  callback : κ
deriving DecidableEq, Repr

/-- The downloader, its session and its queues.  The loads are objects, referred to by
number; `fetchLoads` has the ones that callers can still join. -/
structure ImageDownloader (URL κ : Type) [DecidableEq URL] where
  fetchLoads : AList (fun _ : URL => Nat) := ∅
  loads : Nat → FetchLoad κ := fun _ => {}
  loadCount : Nat := 0
  tasks : List (DataTask URL) := []
  downloadHolder : Bool := false
  cancelQueue : List (Waiting URL κ) := []

/-- The default of the delegate. -/
def isValidStatusCode (code : Nat) : Bool := 200 ≤ code && code < 400

namespace ImageDownloader

variable {URL κ Image : Type} [DecidableEq URL]

abbrev Log (URL κ Image : Type) := List (Output URL κ (Answer Image))

/-- `fetchLoad(for:)`. -/
def fetchLoad (s : ImageDownloader URL κ) (url : URL) : Option Nat := s.fetchLoads.lookup url

/-- A change of a load object. -/
def modifyLoad (s : ImageDownloader URL κ) (ref : Nat) (f : FetchLoad κ → FetchLoad κ) :
    ImageDownloader URL κ :=
  { s with loads := Function.update s.loads ref (f (s.loads ref)) }

/-- A change of a data task. -/
def setTask (s : ImageDownloader URL κ) (id : Nat) (task : DataTask URL) : ImageDownloader URL κ :=
  { s with tasks := s.tasks.set id task }

/-! ## Asking -/

/-- The data task of a load, started when it has none. -/
def startTask (s : ImageDownloader URL κ) (url : URL) (ref : Nat) : ImageDownloader URL κ :=
  match (s.loads ref).downloadTask with
  | some _ => s
  | none =>
      { s.modifyLoad ref fun load => { load with downloadTask := some s.tasks.length } with
        tasks := s.tasks ++ [{ url }]
        downloadHolder := true }

/-- The load of a URL, made when there is none. -/
def loadFor (s : ImageDownloader URL κ) (url : URL) : ImageDownloader URL κ × Nat :=
  match s.fetchLoad url with
  | some ref => (s, ref)
  | none =>
      ({ s with
          fetchLoads := s.fetchLoads.insert url s.loadCount
          loads := Function.update s.loads s.loadCount {}
          loadCount := s.loadCount + 1 }, s.loadCount)

/-- `prepareFetchLoad` of `setup`, with the `started` of `downloadImage`. -/
def prepareFetchLoad (s : ImageDownloader URL κ) (url : URL) (callback : κ) :
    ImageDownloader URL κ × Log URL κ Image :=
  let (s, ref) := s.loadFor url
  let s := s.modifyLoad ref fun load => { load with contents := load.contents ++ [callback] }
  let s := s.startTask url ref
  (s.modifyLoad ref fun load => { load with downloadTaskCount := load.downloadTaskCount + 1 },
    [.joined url callback])

/-- `setup`: a load without callers is one that was cancelled. -/
def setup (s : ImageDownloader URL κ) (url : URL) (callback : κ) :
    ImageDownloader URL κ × Log URL κ Image :=
  match s.fetchLoad url with
  | some ref =>
      if (s.loads ref).downloadTaskCount = 0 then
        ({ s.modifyLoad ref fun load =>
              { load with cancelSemaphore := some (load.cancelSemaphore.getD 0) } with
            cancelQueue := s.cancelQueue ++ [⟨ref, url, callback⟩] }, [])
      else s.prepareFetchLoad url callback
  | none => s.prepareFetchLoad url callback

/-- The block at the head of `cancelQueue`, when its semaphore lets it pass.  It drops the
semaphore, so nobody sees what is left of its value. -/
def runCancelQueue (s : ImageDownloader URL κ) :
    Option (ImageDownloader URL κ × Log URL κ Image) :=
  match s.cancelQueue with
  | [] => none
  | waiting :: rest =>
      if (s.loads waiting.load).cancelSemaphore = some 0 then none
      else
        let s := { s.modifyLoad waiting.load fun load => { load with cancelSemaphore := none } with
          cancelQueue := rest }
        some (s.prepareFetchLoad waiting.url waiting.callback)

/-! ## Cancelling -/

/-- `URLSessionDataTask.cancel()`. -/
def cancelDataTask (s : ImageDownloader URL κ) (id : Nat) : ImageDownloader URL κ :=
  match s.tasks[id]? with
  | some task => if task.state = .running then s.setTask id { task with state := .cancelled } else s
  | none => s

/-- `cancelTaskImpl`, with the load it finds or is given. -/
def cancelTaskImpl (s : ImageDownloader URL κ) (id : Nat) (ref : Nat) (ignoreTaskCount : Bool) :
    ImageDownloader URL κ :=
  let s := s.modifyLoad ref fun load =>
    { load with downloadTaskCount := load.downloadTaskCount - 1 }
  if ignoreTaskCount || (s.loads ref).downloadTaskCount = 0 then s.cancelDataTask id else s

/-- `cancel(_:)` of a task that was given out. -/
def cancel (s : ImageDownloader URL κ) (id : Nat) (task : DataTask URL) : ImageDownloader URL κ :=
  match s.fetchLoad task.url with
  | some ref => s.cancelTaskImpl id ref false
  | none => s

/-- `cancelAll()`. -/
def cancelAll (s : ImageDownloader URL κ) : ImageDownloader URL κ :=
  s.fetchLoads.entries.foldl
    (fun s entry =>
      match (s.loads entry.2).downloadTask with
      | some id => s.cancelTaskImpl id entry.2 true
      | none => s) s

/-! ## The delegate of the session -/

/-- `cleanFetchLoad(for:)`. -/
def cleanFetchLoad (s : ImageDownloader URL κ) (url : URL) : ImageDownloader URL κ :=
  if s.downloadHolder then
    let fetchLoads := s.fetchLoads.erase url
    { s with fetchLoads, downloadHolder := !fetchLoads.entries.isEmpty }
  else s

/-- The callbacks of a load, called with one answer. -/
def callbacks (s : ImageDownloader URL κ) (ref : Nat) (url : URL) (answer : Answer Image) :
    Log URL κ Image :=
  (s.loads ref).contents.map fun callback => .answered url callback answer

/-- `callCompletionHandlerFailure(error:url:)`.  The semaphore is signalled until nobody
waits for it: afterwards it lets one pass. -/
def callCompletionHandlerFailure (s : ImageDownloader URL κ) (error : DownloadError) (url : URL) :
    ImageDownloader URL κ × Log URL κ Image :=
  match s.downloadHolder, s.fetchLoad url with
  | true, some ref =>
      let s := (s.cleanFetchLoad url).modifyLoad ref fun load =>
        { load with cancelSemaphore := load.cancelSemaphore.map (· + 1) }
      (s, s.callbacks ref url (.error error))
  | _, _ => (s, [])

/-- `urlSession(_:dataTask:didReceive:completionHandler:)`. -/
def didReceiveResponse (s : ImageDownloader URL κ) (id : Nat) (task : DataTask URL)
    (statusCode : Nat) : ImageDownloader URL κ × Log URL κ Image :=
  let s := s.setTask id { task with statusCode := some statusCode }
  if s.downloadHolder then
    if isValidStatusCode statusCode then (s, [])
    else s.callCompletionHandlerFailure (.invalidStatusCode statusCode) task.url
  else (s.cancelDataTask id, [])

/-- `urlSession(_:dataTask:didReceive:)`. -/
def didReceiveData (s : ImageDownloader URL κ) (id : Nat) (task : DataTask URL)
    (data : List UInt8) : ImageDownloader URL κ :=
  let s := s.setTask id { task with received := task.received ++ data }
  match s.downloadHolder, s.fetchLoad task.url with
  | true, some ref =>
      s.modifyLoad ref fun load => { load with responseData := load.responseData ++ data }
  | _, _ => s

/-- `urlSession(_:task:didCompleteWithError:)`; without an error, `processImage` puts a block
on the process queue. -/
def didComplete (s : ImageDownloader URL κ) (id : Nat) (task : DataTask URL) (failed : Bool) :
    ImageDownloader URL κ × Log URL κ Image :=
  if failed then
    (s.setTask id { task with state := .finished }).callCompletionHandlerFailure .session task.url
  else if s.downloadHolder then (s.setTask id { task with state := .queued }, [])
  else (s.setTask id { task with state := .finished }, [])

/-! ## Processing -/

/-- The block of `processImage` begins: it looks up the load. -/
def beginProcess (s : ImageDownloader URL κ) (id : Nat) (task : DataTask URL) :
    ImageDownloader URL κ :=
  match s.fetchLoad task.url with
  | some ref => s.setTask id { task with state := .processing ref }
  | none => s.setTask id { task with state := .finished }

/-- What the callbacks are told of the data: the default delegate and processor. -/
def processed (process : List UInt8 → Option Image) (statusCode : Option Nat)
    (data : List UInt8) : Answer Image :=
  match process data with
  | some image => .ok (image, data)
  | none => if statusCode = some 304 then .error .notModified else .error .badData

/-- The rest of the block. -/
def finishProcess (process : List UInt8 → Option Image) (s : ImageDownloader URL κ) (id : Nat)
    (task : DataTask URL) (ref : Nat) : ImageDownloader URL κ × Log URL κ Image :=
  let s := (s.setTask id { task with state := .finished }).cleanFetchLoad task.url
  (s, s.callbacks ref task.url (processed process task.statusCode (s.loads ref).responseData))

/-! ## The machine -/

inductive Action (URL κ : Type) where
  | downloadImage (url : URL) (callback : κ)
  | runCancelQueue
  | cancel (id : Nat)
  | cancelAll
  | didReceiveResponse (id : Nat) (statusCode : Nat)
  | didReceiveData (id : Nat) (data : List UInt8)
  | didComplete (id : Nat) (failed : Bool)
  | beginProcess (id : Nat)
  | finishProcess (id : Nat)

/-- A task that has been started is acted on when it is in a state for it. -/
def onTask {σ : Type} (s : ImageDownloader URL κ) (id : Nat) (f : DataTask URL → Option σ) :
    Option σ :=
  s.tasks[id]?.bind f

def machine (process : List UInt8 → Option Image) :
    Machine (ImageDownloader URL κ) (Action URL κ) (Output URL κ (Answer Image)) where
  step s
    | .downloadImage url callback => some (s.setup url callback)
    | .runCancelQueue => s.runCancelQueue
    | .cancel id => s.onTask id fun task => some (s.cancel id task, [])
    | .cancelAll => some (s.cancelAll, [])
    | .didReceiveResponse id statusCode => s.onTask id fun task =>
        if task.state.InSession then some (s.didReceiveResponse id task statusCode) else none
    | .didReceiveData id data => s.onTask id fun task =>
        if task.state.InSession then some (s.didReceiveData id task data, []) else none
    | .didComplete id failed => s.onTask id fun task =>
        if task.state.InSession then some (s.didComplete id task failed) else none
    | .beginProcess id => s.onTask id fun task =>
        if task.state = .queued then some (s.beginProcess id task, []) else none
    | .finishProcess id => s.onTask id fun task =>
        match task.state with
        | .processing ref => some (s.finishProcess process id task ref)
        | _ => none

end ImageDownloader

end MagnetX.Kingfisher
