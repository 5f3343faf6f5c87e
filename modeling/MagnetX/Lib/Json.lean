/-
# `MagnetX.Lib.Json` — JSON values and Foundation's strict decoding

A parsed JSON document, and the part of `JSONDecoder` that reads it: a keyed
container over the fields of an object, `superDecoder(forKey:)`, and the decoding
of the primitive types and of arrays, all of which throw on the least surprise.
Leniency is added elsewhere, on top of this.

Numbers come in two kinds because the decoder tells them apart: those that are
exactly an `Int` (64 bits), and the others, which matter only through the text
`String(_:)` prints for the `Double`.

Encoding is the strict inverse, and `RoundTrips` says that it is one.

`Decodable.initFrom` is Swift's `init(from:)`.  The decoder travels along because
its key strategy applies to every object below; the names a container is asked
for are the type's own.
-/
import Mathlib.Data.List.Forall2

namespace MagnetX.Lib.Json

/-- A parsed JSON document. -/
inductive JSONValue where
  | null
  | bool (b : Bool)
  | int (n : Int64)
  | double (description : String)
  | string (s : String)
  | array (elements : List JSONValue)
  | object (fields : List (String × JSONValue))
deriving Repr

def JSONValue.IsObject (j : JSONValue) : Prop := ∃ fields, j = .object fields

instance : ∀ j : JSONValue, Decidable j.IsObject
  | .object fields => .isTrue ⟨fields, rfl⟩
  | .null => .isFalse nofun
  | .bool _ => .isFalse nofun
  | .int _ => .isFalse nofun
  | .double _ => .isFalse nofun
  | .string _ => .isFalse nofun
  | .array _ => .isFalse nofun

inductive DecodingError where
  | typeMismatch
  | valueNotFound
  | keyNotFound (key : String)
  | dataCorrupted (codingPath : List String) (debugDescription : String)
deriving DecidableEq, Repr

/-- `JSONDecoder`: the key strategy renames the fields of every object.  The other settings
(the date, data and float strategies and `userInfo`) reach nothing but the `init(from:)` of
a type that asks for them. -/
structure JSONDecoder where
  convertKey : String → String := id
  settings : List (String × String) := []

/-- A `Double`, as the text `String(_:)` prints for it. -/
structure Double where
  description : String
deriving DecidableEq, Repr

/-- The decoder is set up like a new one. -/
def JSONDecoder.IsDefault (decoder : JSONDecoder) : Prop :=
  (∀ key, decoder.convertKey key = key) ∧ decoder.settings = []

theorem JSONDecoder.IsDefault.eq {decoder : JSONDecoder} (h : decoder.IsDefault) :
    decoder = {} := by
  obtain ⟨convertKey, settings⟩ := decoder
  obtain ⟨hkey, hsettings⟩ := h
  have hid : convertKey = id := funext hkey
  subst hid
  subst hsettings
  rfl

class Decodable (T : Type) where
  initFrom : JSONDecoder → JSONValue → Except DecodingError T

export Decodable (initFrom)

/-! ## Single values -/

instance : Decodable Bool where
  initFrom _
    | .bool b => .ok b
    | .null => .error .valueNotFound
    | _ => .error .typeMismatch

instance : Decodable String where
  initFrom _
    | .string s => .ok s
    | .null => .error .valueNotFound
    | _ => .error .typeMismatch

/-- A number that is not exactly an `Int` is not read as one; a boolean is not a number. -/
instance : Decodable Int64 where
  initFrom _
    | .int n => .ok n
    | .double _ => .error (.dataCorrupted [] "Parsed JSON number does not fit in Int.")
    | .null => .error .valueNotFound
    | _ => .error .typeMismatch

instance : Decodable Double where
  initFrom _
    | .int n => .ok ⟨toString n ++ ".0"⟩
    | .double d => .ok ⟨d⟩
    | .null => .error .valueNotFound
    | _ => .error .typeMismatch

/-- An array is read element by element, and the first bad element throws. -/
instance {T : Type} [Decodable T] : Decodable (List T) where
  initFrom d
    | .array xs => xs.mapM (initFrom d)
    | .null => .error .valueNotFound
    | _ => .error .typeMismatch

section Arrays

variable {α β ε : Type} {f : α → Except ε β}

/-- A list is mapped when every element is, in its place. -/
theorem mapM_eq_ok_iff {xs : List α} {ys : List β} :
    xs.mapM f = .ok ys ↔ List.Forall₂ (fun x y => f x = .ok y) xs ys := by
  induction xs generalizing ys with
  | nil =>
      rw [List.mapM_nil, List.forall₂_nil_left_iff]
      exact ⟨fun h => (Except.ok.inj h).symm, fun h => congrArg _ h.symm⟩
  | cons x xs ih =>
      rw [List.mapM_cons, List.forall₂_cons_left_iff]
      cases hx : f x with
      | error e =>
          constructor
          · intro h
            cases h
          · rintro ⟨y, ys', hy, -, -⟩
            cases hy
      | ok y =>
          cases hxs : xs.mapM f with
          | error e =>
              constructor
              · intro h
                simp only [bind, Except.bind] at h
                cases h
              · rintro ⟨y', ys', -, hys, -⟩
                have hok := ih.mpr hys
                rw [hxs] at hok
                cases hok
          | ok zs =>
              simp only [bind, Except.bind, pure, Except.pure, Except.ok.injEq]
              constructor
              · rintro rfl
                exact ⟨y, zs, rfl, ih.mp hxs, rfl⟩
              · rintro ⟨y', ys', rfl, hys, rfl⟩
                have hok := ih.mpr hys
                rw [hxs] at hok
                rw [Except.ok.inj hok]

theorem mapM_ok_of_forall {xs : List α} (h : ∀ x ∈ xs, ∃ y, f x = .ok y) :
    ∃ ys, xs.mapM f = .ok ys := by
  induction xs with
  | nil => exact ⟨[], rfl⟩
  | cons x xs ih =>
      obtain ⟨y, hy⟩ := h x (List.mem_cons_self ..)
      obtain ⟨ys, hys⟩ := ih fun x' hx' => h x' (List.mem_cons_of_mem _ hx')
      exact ⟨y :: ys, by simp only [List.mapM_cons, hy, hys, bind, Except.bind, pure, Except.pure]⟩

/-- One element that throws is enough for the list to throw. -/
theorem mapM_throws_of_mem {xs : List α} {x : α} {e : ε} (hmem : x ∈ xs) (hx : f x = .error e) :
    ∃ e', xs.mapM f = .error e' := by
  induction xs with
  | nil => exact absurd hmem List.not_mem_nil
  | cons z zs ih =>
      rw [List.mapM_cons]
      cases hz : f z with
      | error e' => exact ⟨e', rfl⟩
      | ok y =>
          rcases List.mem_cons.mp hmem with rfl | htail
          · rw [hx] at hz
            cases hz
          · obtain ⟨e', he'⟩ := ih htail
            exact ⟨e', by simp only [he', bind, Except.bind]⟩

end Arrays

/-! ## Keyed containers -/

structure KeyedDecodingContainer where
  decoder : JSONDecoder
  fields : List (String × JSONValue)

/-- `decoder.container(keyedBy:)`. -/
def JSONDecoder.container (d : JSONDecoder) :
    JSONValue → Except DecodingError KeyedDecodingContainer
  | .object fields => .ok ⟨d, fields.map fun f => (d.convertKey f.1, f.2)⟩
  | .null => .error .valueNotFound
  | _ => .error .typeMismatch

namespace KeyedDecodingContainer

def contains (c : KeyedDecodingContainer) (key : String) : Bool :=
  (c.fields.lookup key).isSome

/-- The value under `key`, with `null` standing for a missing one. -/
def superDecoder (c : KeyedDecodingContainer) (key : String) : JSONValue :=
  (c.fields.lookup key).getD .null

end KeyedDecodingContainer

/-- A container is refused exactly for what is not an object. -/
theorem JSONDecoder.container_throws_iff (d : JSONDecoder) (j : JSONValue) :
    (∃ e, d.container j = .error e) ↔ ¬ j.IsObject := by
  cases j with
  | object fields =>
      refine iff_of_false ?_ fun hnot => hnot ⟨fields, rfl⟩
      rintro ⟨e, he⟩
      cases he
  | null => exact iff_of_true ⟨_, rfl⟩ nofun
  | bool b => exact iff_of_true ⟨_, rfl⟩ nofun
  | int n => exact iff_of_true ⟨_, rfl⟩ nofun
  | double d => exact iff_of_true ⟨_, rfl⟩ nofun
  | string s => exact iff_of_true ⟨_, rfl⟩ nofun
  | array elements => exact iff_of_true ⟨_, rfl⟩ nofun

@[simp] theorem JSONDecoder.container_object (fields : List (String × JSONValue)) :
    JSONDecoder.container {} (.object fields) = .ok ⟨{}, fields⟩ := by
  simp [JSONDecoder.container]

theorem lookup_singleton {α : Type} (key k : String) (v : α) :
    [(k, v)].lookup key = if k = key then some v else none := by
  rw [List.lookup_cons, List.lookup_nil]
  by_cases h : k = key
  · rw [if_pos h, beq_iff_eq.mpr h.symm]
  · rw [if_neg h, beq_eq_false_iff_ne.mpr (Ne.symm h)]

/-! ## Encoding

The other direction is strict: a value is written as what it is. -/

/-- Swift's `encode(to:)`. -/
class EncodeTo (T : Type) where
  encodeTo : T → JSONValue

export EncodeTo (encodeTo)

instance : EncodeTo String where
  encodeTo := .string

instance {T : Type} [EncodeTo T] : EncodeTo (List T) where
  encodeTo xs := .array (xs.map encodeTo)

/-- What is written is read back, by a decoder as it is by default. -/
class RoundTrips (T : Type) [Decodable T] [EncodeTo T] : Prop where
  decoded : ∀ x : T, initFrom {} (encodeTo x) = .ok x

instance : RoundTrips String where
  decoded _ := rfl

section RoundTrips

variable {T : Type} [Decodable T] [EncodeTo T] [RoundTrips T]

instance : RoundTrips (List T) where
  decoded xs := by
    refine mapM_eq_ok_iff.mpr (List.forall₂_map_left_iff.mpr (List.forall₂_same.mpr ?_))
    intro x _
    exact RoundTrips.decoded x

@[simp] theorem toOption_decoded (x : T) :
    (initFrom (T := T) {} (encodeTo x)).toOption = some x := by
  rw [RoundTrips.decoded]
  rfl

end RoundTrips

/-! ## Integers in text -/

/-- The value of a string of decimal digits. -/
def digits (cs : List Char) : Option Nat :=
  cs.foldl (fun acc c => acc.bind fun n =>
    if c.isDigit then some (10 * n + (c.toNat - '0'.toNat)) else none) (some 0)

/-- `Int(text)`: an optional sign and at least one digit, within 64 bits. -/
def intOfText (text : String) : Option Int64 :=
  let magnitude (cs : List Char) : Option Nat := if cs.isEmpty then none else digits cs
  let value : Option Int :=
    match text.toList with
    | '-' :: cs => (magnitude cs).map fun n => -(n : Int)
    | '+' :: cs => (magnitude cs).map fun n => (n : Int)
    | cs => (magnitude cs).map fun n => (n : Int)
  value.bind fun n =>
    if Int64.minValue.toInt ≤ n ∧ n ≤ Int64.maxValue.toInt then some (Int64.ofInt n) else none

example : intOfText "-17" = some (-17) ∧ intOfText "9223372036854775808" = none ∧
    intOfText "+" = none ∧ intOfText "1 " = none := by decide

end MagnetX.Lib.Json
