/-
# `MagnetX.Lib.Percent` — percent-encoding

A character in the allowed set is kept; any other is written as its UTF-8 bytes,
each `%XX`.  The encoding works character by character, so it is a homomorphism
for append, and it is the identity on the text it does not have to touch, and on no
other (`encode_eq_self_iff`).

Decoding reads bytes.  As long as the percent sign itself is encoded, decoding once
undoes encoding once (`decode_encode`), so encoding is injective; text that was encoded
twice decodes to the text encoded once.
-/
import Mathlib.Data.List.Basic

namespace MagnetX.Lib.Percent

/-- An upper-case hexadecimal digit. -/
def hexDigit (n : Nat) : Char := "0123456789ABCDEF".toList.getD n '0'

def escapeByte (b : UInt8) : List Char := ['%', hexDigit (b.toNat / 16), hexDigit (b.toNat % 16)]

def encodeChar (allowed : Char → Bool) (c : Char) : List Char :=
  if allowed c then [c] else (String.utf8EncodeChar c).flatMap escapeByte

/-- `addingPercentEncoding(withAllowedCharacters:)`. -/
def encode (allowed : Char → Bool) (s : String) : String :=
  String.ofList (s.toList.flatMap (encodeChar allowed))

variable {allowed : Char → Bool}

@[simp] theorem encode_append (s t : String) :
    encode allowed (s ++ t) = encode allowed s ++ encode allowed t := by
  simp [encode, String.toList_append]

/-- Text made of allowed characters is left alone. -/
theorem encode_of_allowed {s : String} (h : s.toList.all allowed = true) :
    encode allowed s = s := by
  have hchar : ∀ cs : List Char, cs.all allowed = true → cs.flatMap (encodeChar allowed) = cs := by
    intro cs
    induction cs with
    | nil => intro _; rfl
    | cons c cs ih =>
        intro hcs
        simp only [List.all_cons, Bool.and_eq_true] at hcs
        simp [encodeChar, hcs.1, ih hcs.2]
  simp [encode, hchar _ h]

/-! ## What an encoded text is made of -/

/-- The characters escapes are written with. -/
def escapeChars : List Char := "%0123456789ABCDEF".toList

theorem mem_escapeByte {b : UInt8} {c : Char} (h : c ∈ escapeByte b) : c ∈ escapeChars := by
  have hdigit : ∀ n < 16, hexDigit n ∈ escapeChars := by decide
  have hb : b.toNat < 256 := b.toNat_lt
  rcases List.mem_cons.mp h with rfl | h
  · decide
  · rcases List.mem_cons.mp h with rfl | h
    · exact hdigit _ (by omega)
    · rw [List.mem_singleton.mp h]
      exact hdigit _ (by omega)

/-- A character no escape is written with is in the encoded text if it was in the text and
is allowed. -/
theorem mem_encode_iff {s : String} {c : Char} (hc : c ∉ escapeChars) :
    c ∈ (encode allowed s).toList ↔ c ∈ s.toList ∧ allowed c = true := by
  rw [encode, String.toList_ofList, List.mem_flatMap]
  constructor
  · rintro ⟨d, hd, hmem⟩
    unfold encodeChar at hmem
    split at hmem
    · rename_i hallowed
      rw [List.mem_singleton.mp hmem]
      exact ⟨hd, hallowed⟩
    · obtain ⟨b, -, hb⟩ := List.mem_flatMap.mp hmem
      exact absurd (mem_escapeByte hb) hc
  · rintro ⟨hmem, hallowed⟩
    refine ⟨c, hmem, ?_⟩
    rw [encodeChar, if_pos hallowed]
    exact List.mem_singleton_self c

theorem length_encodeChar (allowed : Char → Bool) (c : Char) :
    1 ≤ (encodeChar allowed c).length ∧
      ((encodeChar allowed c).length = 1 → allowed c = true) := by
  unfold encodeChar
  split
  · rename_i h
    exact ⟨Nat.le_refl 1, fun _ => h⟩
  · have hpos : 0 < (String.utf8EncodeChar c).length := by
      rw [String.length_utf8EncodeChar]
      exact c.utf8Size_pos
    have hlength : ∀ bytes : List UInt8, (bytes.flatMap escapeByte).length = 3 * bytes.length := by
      intro bytes
      induction bytes with
      | nil => rfl
      | cons b bytes ih =>
          rw [List.flatMap_cons, List.length_append, ih, List.length_cons]
          show 3 + _ = _
          omega
    rw [hlength]
    exact ⟨by omega, fun h => by omega⟩

/-- Encoding leaves nothing alone but text made of allowed characters. -/
theorem encode_eq_self_iff {s : String} :
    encode allowed s = s ↔ s.toList.all allowed = true := by
  refine ⟨?_, encode_of_allowed⟩
  have hlength : ∀ cs : List Char, cs.length ≤ (cs.flatMap (encodeChar allowed)).length ∧
      ((cs.flatMap (encodeChar allowed)).length = cs.length → cs.all allowed = true) := by
    intro cs
    induction cs with
    | nil => exact ⟨Nat.le_refl 0, fun _ => rfl⟩
    | cons c cs ih =>
        obtain ⟨hone, hallowed⟩ := length_encodeChar allowed c
        rw [List.flatMap_cons, List.length_append, List.length_cons, List.all_cons,
          Bool.and_eq_true]
        exact ⟨by omega, fun h => ⟨hallowed (by omega), ih.2 (by omega)⟩⟩
  intro h
  refine (hlength s.toList).2 ?_
  have htoList := congrArg String.toList h
  rw [encode, String.toList_ofList] at htoList
  rw [htoList]

/-! ## Decoding -/

/-- The UTF-8 bytes of a text. -/
def utf8 (cs : List Char) : List UInt8 := cs.flatMap String.utf8EncodeChar

theorem utf8_injective {cs ds : List Char} (h : utf8 cs = utf8 ds) : cs = ds := by
  have hencode : cs.utf8Encode = ds.utf8Encode := congrArg List.toByteArray h
  have hdecode := congrArg ByteArray.utf8Decode? hencode
  rw [List.utf8Decode?_utf8Encode, List.utf8Decode?_utf8Encode] at hdecode
  exact congrArg Array.toList (Option.some.inj hdecode)

/-- The value of a hexadecimal digit, of either case. -/
def hexValue (c : Char) : Option Nat :=
  if '0' ≤ c ∧ c ≤ '9' then some (c.toNat - '0'.toNat)
  else if 'A' ≤ c ∧ c ≤ 'F' then some (c.toNat - 'A'.toNat + 10)
  else if 'a' ≤ c ∧ c ≤ 'f' then some (c.toNat - 'a'.toNat + 10)
  else none

/-- Percent-decoding; a percent sign that starts no escape is taken as it is. -/
def decode : List Char → List UInt8
  | [] => []
  | '%' :: a :: b :: cs =>
      match hexValue a, hexValue b with
      | some x, some y => UInt8.ofNat (16 * x + y) :: decode cs
      | _, _ => String.utf8EncodeChar '%' ++ decode (a :: b :: cs)
  | c :: cs => String.utf8EncodeChar c ++ decode cs

theorem decode_cons {c : Char} (hc : c ≠ '%') (cs : List Char) :
    decode (c :: cs) = String.utf8EncodeChar c ++ decode cs := by
  rw [decode]
  rintro a b cs' rfl
  exact absurd rfl hc

theorem decode_escapeByte (b : UInt8) (cs : List Char) :
    decode (escapeByte b ++ cs) = b :: decode cs := by
  have hvalue : ∀ n < 16, hexValue (hexDigit n) = some n := by decide
  have hb : b.toNat < 256 := b.toNat_lt
  show decode ('%' :: hexDigit (b.toNat / 16) :: hexDigit (b.toNat % 16) :: cs) = _
  rw [decode, hvalue _ (by omega), hvalue _ (by omega)]
  show UInt8.ofNat (16 * (b.toNat / 16) + b.toNat % 16) :: decode cs = _
  rw [Nat.div_add_mod, UInt8.ofNat_toNat]

theorem decode_escapes (bytes : List UInt8) (cs : List Char) :
    decode (bytes.flatMap escapeByte ++ cs) = bytes ++ decode cs := by
  induction bytes with
  | nil => rfl
  | cons b bytes ih =>
      rw [List.flatMap_cons, List.append_assoc, decode_escapeByte, ih, List.cons_append]

/-- **Decoding undoes encoding**, if the percent sign is encoded. -/
theorem decode_encode (hpercent : allowed '%' = false) (s : String) :
    decode (encode allowed s).toList = utf8 s.toList := by
  rw [encode, String.toList_ofList]
  induction s.toList with
  | nil => rfl
  | cons c cs ih =>
      rw [List.flatMap_cons, utf8, List.flatMap_cons, ← utf8, ← ih, encodeChar]
      split
      · rename_i hallowed
        have hc : c ≠ '%' := by
          rintro rfl
          rw [hpercent] at hallowed
          cases hallowed
        exact decode_cons hc _
      · exact decode_escapes _ _

theorem encode_injective (hpercent : allowed '%' = false) {s t : String}
    (h : encode allowed s = encode allowed t) : s = t := by
  have hdecode := congrArg (fun u => decode u.toList) h
  rw [decode_encode hpercent, decode_encode hpercent] at hdecode
  exact String.toList_inj.mp (utf8_injective hdecode)

end MagnetX.Lib.Percent
