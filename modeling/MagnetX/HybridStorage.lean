/-
# `MagnetX.HybridStorage` — the cache behind `Network.storage`

The storage the app is given by `Cache` has two layers.  Memory holds the objects
themselves and may lose any of them at any time; disk holds their JSON, each in a
`TypeWrapper`.  An object is stored in both, and read from memory first; one read from
disk goes back into memory.  The file of a key is named by its MD5; different keys are taken
to have different file names, so that here the disk, like memory, is read by key.

`Holds` says that a key is good for an object: its JSON is on disk, and memory has it or
nothing.  Every operation but a store under the key keeps it, so what is read later is what
was stored (`cached_page_is_fetched_page`), and the two layers together are the plain
`Storage` of the other modules (`hybrid_refines_storage`).
-/
import MagnetX.Effect
import MagnetX.Encoding
import MagnetX.Lib.Machine

namespace MagnetX

open Lib Lib.Json

/-! ## The data on disk -/

/-- `Cache.TypeWrapper`.  It belongs to another module, so its own field is decoded
strictly. -/
structure TypeWrapper (T : Type) where
  object : T

section TypeWrapper

variable {T : Type}

instance [Decodable T] : Decodable (TypeWrapper T) where
  initFrom decoder j := do
    let c ← decoder.container j
    match c.fields.lookup "object" with
    | some v => return ⟨← initFrom c.decoder v⟩
    | none => throw (.keyNotFound "object")

instance [EncodeTo T] : EncodeTo (TypeWrapper T) where
  encodeTo wrapper := .object [("object", encodeTo wrapper.object)]

/-- A wrapper around anything is read as what it is around. -/
theorem TypeWrapper.initFrom_object [Decodable T] (v : JSONValue) :
    initFrom (T := TypeWrapper T) {} (.object [("object", v)]) =
      (initFrom (T := T) {} v).map TypeWrapper.mk := by
  have hread : initFrom (T := TypeWrapper T) {} (.object [("object", v)]) =
      (initFrom (T := T) {} v).bind fun object => .ok ⟨object⟩ := rfl
  rw [hread]
  cases initFrom (T := T) {} v with
  | error e => rfl
  | ok object => rfl

end TypeWrapper

/-- The JSON of a stored object. -/
def CachedObject.data : CachedObject → JSONValue
  | .movies items => encodeTo (TypeWrapper.mk items)
  | .detail model => encodeTo (TypeWrapper.mk model)

/-- A type whose objects are read from disk as they are from memory. -/
class Storable (T : Type) [Decodable T] [EncodeTo T] [Cacheable T] : Prop where
  data_wrap : ∀ x : T, (Cacheable.wrap x).data = encodeTo (TypeWrapper.mk x)
  wrap_of_unwrap : ∀ {object : CachedObject} {x : T},
    Cacheable.unwrap object = some x → object = Cacheable.wrap x
  read_data : ∀ object : CachedObject,
    (initFrom (T := TypeWrapper T) {} object.data).toOption.map TypeWrapper.object =
      Cacheable.unwrap object

instance : Storable (List HotMovieModel) where
  data_wrap _ := rfl
  wrap_of_unwrap {object x} h := by
    cases object with
    | movies items =>
        cases h
        rfl
    | detail model => cases h
  read_data object := by
    cases object with
    | movies items =>
        show (initFrom (T := TypeWrapper (List HotMovieModel)) {}
          (.object [("object", encodeTo items)])).toOption.map _ = some items
        rw [TypeWrapper.initFrom_object, RoundTrips.decoded]
        rfl
    | detail model =>
        show (initFrom (T := TypeWrapper (List HotMovieModel)) {}
          (.object [("object", encodeTo model)])).toOption.map _ = none
        rw [TypeWrapper.initFrom_object]
        rfl

instance : Storable MovieDetailModel where
  data_wrap _ := rfl
  wrap_of_unwrap {object x} h := by
    cases object with
    | movies items => cases h
    | detail model =>
        cases h
        rfl
  read_data object := by
    cases object with
    | movies items =>
        show (initFrom (T := TypeWrapper MovieDetailModel) {}
          (.object [("object", encodeTo items)])).toOption.map _ = none
        rw [TypeWrapper.initFrom_object]
        rfl
    | detail model =>
        show (initFrom (T := TypeWrapper MovieDetailModel) {}
          (.object [("object", encodeTo model)])).toOption.map _ = some model
        rw [TypeWrapper.initFrom_object, RoundTrips.decoded]
        rfl

/-! ## Two layers -/

structure HybridStorage where
  memory : String → Option CachedObject
  disk : String → Option JSONValue

namespace HybridStorage

section Operations

variable {T : Type} [Decodable T] [EncodeTo T] [Cacheable T]

/-- `setObject(_:forKey:expiry:)`. -/
def setObject (s : HybridStorage) (key : String) (object : T) : HybridStorage where
  memory := Function.update s.memory key (some (Cacheable.wrap object))
  disk := Function.update s.disk key (some (encodeTo (TypeWrapper.mk object)))

variable (T) in
/-- `DiskStorage.entry(ofType:forKey:)`. -/
def diskEntry (s : HybridStorage) (key : String) : Option T :=
  (s.disk key).bind fun data =>
    (initFrom (T := TypeWrapper T) {} data).toOption.map TypeWrapper.object

variable (T) in
/-- `entry(ofType:forKey:)`: memory, or else disk and back into memory. -/
def entry (s : HybridStorage) (key : String) : Option T × HybridStorage :=
  match (s.memory key).bind Cacheable.unwrap with
  | some object => (some object, s)
  | none =>
      match s.diskEntry T key with
      | some object =>
          (some object,
            { s with memory := Function.update s.memory key (some (Cacheable.wrap object)) })
      | none => (none, s)

/-- `NSCache` drops an object, as it may under memory pressure and does when the app ends. -/
def dropFromMemory (s : HybridStorage) (key : String) : HybridStorage :=
  { s with memory := Function.update s.memory key none }

end Operations

/-- The key is good for `object`: its JSON is on disk, and memory has it or nothing. -/
structure Holds (s : HybridStorage) (key : String) (object : Option CachedObject) : Prop where
  disk : s.disk key = object.map CachedObject.data
  memory : ∀ o, s.memory key = some o → object = some o

section Holds

variable {T : Type} [Decodable T] [EncodeTo T] [Cacheable T] [Storable T] {s : HybridStorage}
  {key key' : String} {object : Option CachedObject}

theorem holds_setObject (s : HybridStorage) (key : String) (x : T) :
    Holds (s.setObject key x) key (some (Cacheable.wrap x)) where
  disk := by simp [setObject, Storable.data_wrap]
  memory o ho := by simpa [setObject] using ho

omit [Decodable T] [Storable T] in
/-- A store under another key leaves the key alone. -/
theorem Holds.setObject_of_ne (h : Holds s key object) (x : T) (hne : key ≠ key') :
    Holds (s.setObject key' x) key object := by
  have hdisk : (s.setObject key' x).disk key = s.disk key := Function.update_of_ne hne _ _
  have hmemory : (s.setObject key' x).memory key = s.memory key := Function.update_of_ne hne _ _
  refine ⟨hdisk.trans h.disk, fun o ho => ?_⟩
  rw [hmemory] at ho
  exact h.memory o ho

theorem Holds.dropFromMemory (h : Holds s key object) (key' : String) :
    Holds (s.dropFromMemory key') key object := by
  refine ⟨h.disk, fun o ho => ?_⟩
  by_cases hkey : key = key'
  · subst hkey
    have hnone : (s.dropFromMemory key).memory key = none := Function.update_self ..
    rw [hnone] at ho
    cases ho
  · have hmemory : (s.dropFromMemory key').memory key = s.memory key :=
      Function.update_of_ne hkey _ _
    rw [hmemory] at ho
    exact h.memory o ho

/-- What is read from disk is the object the key holds. -/
theorem Holds.diskEntry_eq (h : Holds s key object) :
    s.diskEntry T key = object.bind (Cacheable.unwrap (T := T)) := by
  rw [diskEntry, h.disk]
  cases object with
  | none => rfl
  | some o => exact Storable.read_data o

/-- What is read is the object the key holds, from whichever layer it comes. -/
theorem Holds.entry_eq (h : Holds s key object) :
    (s.entry T key).1 = object.bind (Cacheable.unwrap (T := T)) := by
  rw [entry]
  cases hmemory : (s.memory key).bind (Cacheable.unwrap (T := T)) with
  | some x =>
      obtain ⟨o, ho, hx⟩ := Option.bind_eq_some_iff.mp hmemory
      rw [h.memory o ho]
      exact hx.symm
  | none =>
      rw [← h.diskEntry_eq]
      cases s.diskEntry T key with
      | none => rfl
      | some x => rfl

/-- Reading any key changes none. -/
theorem Holds.entry (h : Holds s key object) (key' : String) :
    Holds (s.entry T key').2 key object := by
  rw [HybridStorage.entry]
  cases (s.memory key').bind (Cacheable.unwrap (T := T)) with
  | some x => exact h
  | none =>
      cases hdisk : s.diskEntry T key' with
      | none => exact h
      | some x =>
          refine ⟨h.disk, fun o ho => ?_⟩
          by_cases hkey : key = key'
          · -- the object put back into memory is the one on disk
            subst hkey
            rw [h.diskEntry_eq] at hdisk
            obtain ⟨o', ho', hx⟩ := Option.bind_eq_some_iff.mp hdisk
            have heq : some (Cacheable.wrap x) = some o := by simpa using ho
            rw [ho', Storable.wrap_of_unwrap hx, heq]
          · have ho' : s.memory key = some o := by simpa [hkey] using ho
            exact h.memory o ho'

end Holds

/-! ## Runs -/

/-- What is done to a storage. -/
inductive Operation where
  | setMovies (key : String) (items : List HotMovieModel)
  | setDetail (key : String) (model : MovieDetailModel)
  | moviesEntry (key : String)
  | detailEntry (key : String)
  | dropFromMemory (key : String)

/-- What is read, and under which key. -/
inductive Reading where
  | movies (key : String) (items : Option (List HotMovieModel))
  | detail (key : String) (model : Option MovieDetailModel)

/-- The operation stores an object under the key. -/
def Operation.StoresUnder (key : String) : Operation → Prop
  | .setMovies key' _ | .setDetail key' _ => key' = key
  | .moviesEntry _ | .detailEntry _ | .dropFromMemory _ => False

def machine : Machine HybridStorage Operation Reading where
  step
    | s, .setMovies key items => some (s.setObject key items, [])
    | s, .setDetail key model => some (s.setObject key model, [])
    | s, .moviesEntry key =>
        some ((s.entry (List HotMovieModel) key).2,
          [.movies key (s.entry (List HotMovieModel) key).1])
    | s, .detailEntry key =>
        some ((s.entry MovieDetailModel key).2,
          [.detail key (s.entry MovieDetailModel key).1])
    | s, .dropFromMemory key => some (s.dropFromMemory key, [])

/-- The plain storage under the same operations; it has no memory to drop from. -/
def storageMachine : Machine Storage Operation Reading where
  step
    | storage, .setMovies key items =>
        some (storage.setObject key (Cacheable.wrap items), [])
    | storage, .setDetail key model =>
        some (storage.setObject key (Cacheable.wrap model), [])
    | storage, .moviesEntry key =>
        some (storage, [.movies key ((storage key).bind Cacheable.unwrap)])
    | storage, .detailEntry key =>
        some (storage, [.detail key ((storage key).bind Cacheable.unwrap)])
    | storage, .dropFromMemory _ => some (storage, [])

/-- One operation keeps what a key holds, unless it stores under the key. -/
theorem Holds.step {s t : HybridStorage} {key : String} {object : Option CachedObject}
    {a : Operation} {out : List Reading} (h : Holds s key object) (ha : ¬ a.StoresUnder key)
    (hstep : machine.step s a = some (t, out)) : Holds t key object := by
  cases a with
  | setMovies key' items =>
      cases hstep
      exact h.setObject_of_ne items fun heq => ha heq.symm
  | setDetail key' model =>
      cases hstep
      exact h.setObject_of_ne model fun heq => ha heq.symm
  | moviesEntry key' =>
      cases hstep
      exact h.entry key'
  | detailEntry key' =>
      cases hstep
      exact h.entry key'
  | dropFromMemory key' =>
      cases hstep
      exact h.dropFromMemory key'

theorem Holds.run {s t : HybridStorage} {key : String} {object : Option CachedObject}
    {as : List Operation} {log : List Reading} (h : Holds s key object)
    (has : ∀ a ∈ as, ¬ a.StoresUnder key) (hrun : machine.run s as = some (t, log)) :
    Holds t key object := by
  refine Machine.run_induction (P := fun _ s _ => Holds s key object) h ?_ hrun
    (Machine.guarded_of_forall s has)
  intro _ s _ a t o _ hs ha hstep
  exact hs.step ha hstep

/-- The two layers together are `storage`. -/
def Refines (s : HybridStorage) (storage : Storage) : Prop := ∀ key, Holds s key (storage key)

/-- A store under one key, seen from all of them. -/
theorem Refines.setObject {T : Type} [Decodable T] [EncodeTo T] [Cacheable T] [Storable T]
    {s : HybridStorage} {storage : Storage} (h : Refines s storage) (key : String) (x : T) :
    Refines (s.setObject key x) (storage.setObject key (Cacheable.wrap x)) := by
  intro key'
  by_cases hkey : key' = key
  · subst hkey
    rw [Storage.setObject, Function.update_self]
    exact holds_setObject s key' x
  · rw [Storage.setObject, Function.update_of_ne hkey]
    exact (h key').setObject_of_ne x hkey

/-- **The two layers are the plain storage**: whatever is stored, read and dropped, the same
is read. -/
theorem hybrid_refines_storage {s t : HybridStorage} {storage : Storage} {as : List Operation}
    {log : List Reading} (h : Refines s storage) (hrun : machine.run s as = some (t, log)) :
    ∃ storage', storageMachine.run storage as = some (storage', log) ∧ Refines t storage' := by
  have own : ∀ (s : HybridStorage) (storage : Storage) (a a' : Operation) (t : HybridStorage)
      (out : List Reading), Refines s storage → some a = some a' →
      machine.step s a = some (t, out) →
      ∃ storage', storageMachine.step storage a' = some (storage', out.filterMap some) ∧
        Refines t storage' := by
    rintro s storage a a' t out hs ha hstep
    cases ha
    rw [List.filterMap_some]
    cases a with
    | setMovies key items =>
        cases hstep
        exact ⟨_, rfl, hs.setObject key items⟩
    | setDetail key model =>
        cases hstep
        exact ⟨_, rfl, hs.setObject key model⟩
    | moviesEntry key =>
        cases hstep
        rw [(hs key).entry_eq]
        exact ⟨_, rfl, fun key' => (hs key').entry key⟩
    | detailEntry key =>
        cases hstep
        rw [(hs key).entry_eq]
        exact ⟨_, rfl, fun key' => (hs key').entry key⟩
    | dropFromMemory key =>
        cases hstep
        exact ⟨_, rfl, fun key' => (hs key').dropFromMemory key⟩
  obtain ⟨storage', hrun', ht⟩ := Machine.project own (fun _ _ _ _ _ _ h => by cases h) h hrun
  rw [List.filterMap_some, List.filterMap_some] at hrun'
  exact ⟨storage', hrun', ht⟩

/-- `cachedObject(_:)` of a target: what a refresh shows before its answer. -/
def cachedObject {τ : Type} [TargetType τ] (T : Type) [Decodable T] [EncodeTo T] [Cacheable T]
    (s : HybridStorage) (target : τ) : Option T :=
  (s.entry T (cachedKey target)).1

theorem cachedObject_of_holds {τ : Type} [TargetType τ] {T : Type} [Decodable T] [EncodeTo T]
    [Cacheable T] [Storable T] {s : HybridStorage} {target : τ} {x : T}
    (h : Holds s (cachedKey target) (some (Cacheable.wrap x))) :
    s.cachedObject T target = some x := by
  rw [cachedObject, h.entry_eq, Option.bind_some, Cacheable.unwrap_wrap]

/-- **The cached page is the page that was fetched.**  A page or a detail record is read back
from its JSON as it was; what was decoded once is decoded the same from what is written of
it; and after an object was stored for a target, whatever else is stored, read or dropped, it
is what the cache has for the target. -/
theorem cached_page_is_fetched_page :
    ((∀ items : List HotMovieModel, initFrom {} (encodeTo items) = .ok items) ∧
      ∀ model : MovieDetailModel, initFrom {} (encodeTo model) = .ok model) ∧
    (∀ j, (initFrom (T := HotMovieModel) {} j).bind
          (fun m => initFrom (T := HotMovieModel) {} (encodeTo m)) = initFrom {} j ∧
        (initFrom (T := List HotMovieModel) {} j).bind
          (fun m => initFrom (T := List HotMovieModel) {} (encodeTo m)) = initFrom {} j ∧
        (initFrom (T := MovieDetailModel) {} j).bind
          (fun m => initFrom (T := MovieDetailModel) {} (encodeTo m)) = initFrom {} j) ∧
    (∀ (s t : HybridStorage) (target : MoviesTarget) (as : List Operation) (log : List Reading),
      (∀ a ∈ as, ¬ a.StoresUnder (cachedKey target)) →
      (∀ items : List HotMovieModel,
        machine.run (s.setObject (cachedKey target) items) as = some (t, log) →
        t.cachedObject (List HotMovieModel) target = some items) ∧
      ∀ model : MovieDetailModel,
        machine.run (s.setObject (cachedKey target) model) as = some (t, log) →
        t.cachedObject MovieDetailModel target = some model) := by
  refine ⟨⟨RoundTrips.decoded, RoundTrips.decoded⟩, fun j => ?_, ?_⟩
  · exact ⟨decode_encode_decode j, decode_encode_decode j, decode_encode_decode j⟩
  · intro s t target as log has
    refine ⟨fun items hrun => ?_, fun model hrun => ?_⟩
    · exact cachedObject_of_holds ((holds_setObject s _ items).run has hrun)
    · exact cachedObject_of_holds ((holds_setObject s _ model).run has hrun)

end HybridStorage

end MagnetX
