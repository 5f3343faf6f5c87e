/-
# `MagnetX.CleanJSON` — the lenient container overrides

`Vendor/CleanJSON/CleanJSON.swift` replaces the decoding methods of every keyed
container of the app.  A missing, `null` or ill-typed field is no longer an error:

* a `String` field also takes an integer, a number or a boolean, as text, and is
  `""` otherwise;
* an `Int` field also takes text that spells an integer, and is `0` otherwise;
* a field of any other type takes what decoding `{}` gives, or else `[]`.

Only the last can still throw, for a type that neither `{}` nor `[]` decodes to.
`Fallback T` records that `T` is not such a type, together with the value it falls
back to; under it the override is a total function (`decode_eq`).

The overrides for `Bool`, `Double`, `Float` and `UInt` have no caller among the
app's models.
-/
import MagnetX.Lib.Json

namespace MagnetX

open Lib.Json

namespace CleanJSON

variable {T : Type} [Decodable T]

/-! ## The overrides -/

/-- `decodeIfPresent(_: String.Type, forKey:)`. -/
def decodeIfPresentString (c : KeyedDecodingContainer) (key : String) :
    Except DecodingError (Option String) :=
  if c.contains key then
    let container := c.superDecoder key
    match initFrom (T := String) c.decoder container with
    | .ok value => .ok (some value)
    | .error _ =>
        match initFrom (T := Int64) c.decoder container with
        | .ok intValue => .ok (some (toString intValue))
        | .error _ =>
            match initFrom (T := Double) c.decoder container with
            | .ok doubleValue => .ok (some doubleValue.description)
            | .error _ =>
                match initFrom (T := Bool) c.decoder container with
                | .ok boolValue => .ok (some (toString boolValue))
                | .error _ => .ok none
  else .ok none

/-- `decode(_: String.Type, forKey:)`. -/
def decodeString (c : KeyedDecodingContainer) (key : String) : Except DecodingError String :=
  (decodeIfPresentString c key).map (·.getD "")

/-- `decodeIfPresent(_: Int.Type, forKey:)`. -/
def decodeIfPresentInt (c : KeyedDecodingContainer) (key : String) :
    Except DecodingError (Option Int64) :=
  if c.contains key then
    let container := c.superDecoder key
    match initFrom (T := Int64) c.decoder container with
    | .ok value => .ok (some value)
    | .error _ =>
        match initFrom (T := String) c.decoder container with
        | .ok stringValue => .ok (intOfText stringValue)
        | .error _ => .ok none
  else .ok none

/-- `decode(_: Int.Type, forKey:)`. -/
def decodeInt (c : KeyedDecodingContainer) (key : String) : Except DecodingError Int64 :=
  (decodeIfPresentInt c key).map (·.getD 0)

/-- `decodeIfPresent<T>(_: T.Type, forKey:)`. -/
def decodeIfPresent (T : Type) [Decodable T] (c : KeyedDecodingContainer) (key : String) :
    Except DecodingError (Option T) :=
  if c.contains key then .ok (initFrom c.decoder (c.superDecoder key)).toOption else .ok none

/-- `decode<T>(_: T.Type, forKey:)`.  The two attempts use a decoder of their own. -/
def decode (c : KeyedDecodingContainer) (key : String) : Except DecodingError T := do
  match ← decodeIfPresent T c key with
  | some value => return value
  | none =>
      match initFrom (T := T) {} (.object []) with
      | .ok objectValue => return objectValue
      | .error _ =>
          match initFrom (T := T) {} (.array []) with
          | .ok arrayValue => return arrayValue
          | .error _ => throw (.dataCorrupted [key] s!"Key: <{key}> cannot be decoded")

/-! ## What they compute

`text` and `integer` are the readings of one JSON value that the `String` and `Int`
overrides accept. -/

def text : JSONValue → Option String
  | .string s => some s
  | .int n => some (toString n)
  | .double d => some d
  | .bool b => some (toString b)
  | .null | .array _ | .object _ => none

def integer : JSONValue → Option Int64
  | .int n => some n
  | .string s => intOfText s
  | .double _ | .bool _ | .null | .array _ | .object _ => none

@[simp] theorem decodeString_eq (c : KeyedDecodingContainer) (key : String) :
    decodeString c key = .ok (((c.fields.lookup key).bind text).getD "") := by
  unfold decodeString decodeIfPresentString KeyedDecodingContainer.contains
    KeyedDecodingContainer.superDecoder
  cases c.fields.lookup key with
  | none => rfl
  | some v => cases v <;> rfl

@[simp] theorem decodeInt_eq (c : KeyedDecodingContainer) (key : String) :
    decodeInt c key = .ok (((c.fields.lookup key).bind integer).getD 0) := by
  unfold decodeInt decodeIfPresentInt KeyedDecodingContainer.contains
    KeyedDecodingContainer.superDecoder
  cases c.fields.lookup key with
  | none => rfl
  | some v => cases v <;> rfl

/-- `T` has a value that `{}`, or failing that `[]`, decodes to. -/
class Fallback (T : Type) [Decodable T] where
  value : T
  decoded : initFrom (T := T) {} (.object []) = .ok value ∨
    (∃ e, initFrom (T := T) {} (.object []) = .error e) ∧
      initFrom (T := T) {} (.array []) = .ok value

instance : Fallback (List T) where
  value := []
  decoded := .inr ⟨⟨.typeMismatch, rfl⟩, rfl⟩

/-- With a fallback, the generic override never throws: an unreadable field is the
fallback, whatever is under the key. -/
@[simp] theorem decode_eq [Fallback T] (c : KeyedDecodingContainer) (key : String) :
    decode (T := T) c key =
      .ok (((c.fields.lookup key).bind fun v => (initFrom c.decoder v).toOption).getD
        (Fallback.value (T := T))) := by
  have hnone : decodeIfPresent T c key = .ok none →
      decode (T := T) c key = .ok (Fallback.value (T := T)) := by
    intro h
    simp only [decode, h, bind, Except.bind]
    rcases Fallback.decoded (T := T) with hobj | ⟨⟨e, hobj⟩, harr⟩
    · rw [hobj]; rfl
    · rw [hobj, harr]; rfl
  cases hkey : c.fields.lookup key with
  | none =>
      exact hnone (by simp [decodeIfPresent, KeyedDecodingContainer.contains, hkey])
  | some v =>
      have hpresent : decodeIfPresent T c key = .ok (initFrom c.decoder v).toOption := by
        simp [decodeIfPresent, KeyedDecodingContainer.contains,
          KeyedDecodingContainer.superDecoder, hkey]
      cases hv : (initFrom (T := T) c.decoder v).toOption with
      | none =>
          rw [hv] at hpresent
          simpa [hv] using hnone hpresent
      | some value =>
          rw [hv] at hpresent
          simp [decode, hpresent, hv, bind, Except.bind, pure, Except.pure]

end CleanJSON

end MagnetX
