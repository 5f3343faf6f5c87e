/-
# `MagnetX.Lib.AttributedString` — text with attributes, counted in UTF-16 units

A text has three lengths: its scalars, its UTF-16 units, its grapheme clusters.  An
attributed string keeps a dictionary for each UTF-16 unit, and a range of it is a range
of units; what a reader takes for one character is a cluster.

How a text falls into clusters is left open (`GraphemeBreaking`): the clusters are not
empty, and put together they are the text.  That is all it takes to say where a count of
clusters, used as a count of units, ends up:

* never past the end (`count_le_utf16Length`), so a range of that length from the start
  is never out of bounds;
* at the end only if no cluster has two units (`utf16Length_le_count_iff`), and this is
  when attributes added over that range reach every unit (`every_of_addAttributes`).
-/
import Mathlib.Data.List.Basic
import Mathlib.Logic.Function.Basic

namespace MagnetX.Lib

/-! ## UTF-16 -/

/-- The number of UTF-16 units of a scalar. -/
def utf16Size (c : Char) : Nat := if c.toNat < 0x10000 then 1 else 2

def utf16Length : List Char → Nat
  | [] => 0
  | c :: cs => utf16Size c + utf16Length cs

theorem utf16Size_pos (c : Char) : 0 < utf16Size c := by
  unfold utf16Size
  split
  · exact Nat.one_pos
  · exact Nat.two_pos

@[simp] theorem utf16Length_append (s t : List Char) :
    utf16Length (s ++ t) = utf16Length s + utf16Length t := by
  induction s with
  | nil => exact (Nat.zero_add _).symm
  | cons c s ih => rw [List.cons_append, utf16Length, ih, utf16Length, Nat.add_assoc]

theorem utf16Length_pos {s : List Char} (h : s ≠ []) : 0 < utf16Length s := by
  cases s with
  | nil => exact absurd rfl h
  | cons c s => exact Nat.add_pos_left (utf16Size_pos c) _

/-- Texts that are not empty, put together, have at least a unit each. -/
theorem length_le_utf16Length_flatten {texts : List (List Char)} (h : ∀ text ∈ texts, text ≠ []) :
    texts.length ≤ utf16Length texts.flatten := by
  induction texts with
  | nil => exact Nat.le_refl 0
  | cons text texts ih =>
      obtain ⟨htext, hrest⟩ := List.forall_mem_cons.mp h
      have hpos := utf16Length_pos htext
      have hlow := ih hrest
      rw [List.flatten_cons, utf16Length_append, List.length_cons]
      omega

/-- They have no more than one each only where each is one unit. -/
theorem utf16Length_flatten_le_iff {texts : List (List Char)} (h : ∀ text ∈ texts, text ≠ []) :
    utf16Length texts.flatten ≤ texts.length ↔ ∀ text ∈ texts, utf16Length text = 1 := by
  induction texts with
  | nil => exact iff_of_true (Nat.le_refl 0) fun _ h => absurd h List.not_mem_nil
  | cons text texts ih =>
      obtain ⟨htext, hrest⟩ := List.forall_mem_cons.mp h
      have hpos := utf16Length_pos htext
      have hlow := length_le_utf16Length_flatten hrest
      rw [List.forall_mem_cons, ← ih hrest, List.flatten_cons, utf16Length_append,
        List.length_cons]
      constructor
      · intro hsum
        exact ⟨by omega, by omega⟩
      · rintro ⟨hone, hsum⟩
        omega

/-! ## Grapheme clusters -/

/-- A way to break texts into grapheme clusters. -/
structure GraphemeBreaking where
  clusters : List Char → List (List Char)
  flatten_clusters : ∀ s, (clusters s).flatten = s
  ne_nil : ∀ s, ∀ cluster ∈ clusters s, cluster ≠ []

namespace GraphemeBreaking

/-- Every scalar a cluster of its own. -/
def scalars : GraphemeBreaking where
  clusters s := s.map fun c => [c]
  flatten_clusters s := by
    induction s with
    | nil => rfl
    | cons c s ih => simpa using ih
  ne_nil s cluster h := by
    obtain ⟨c, -, rfl⟩ := List.mem_map.mp h
    exact List.cons_ne_nil c []

variable (G : GraphemeBreaking)

/-- `String.count`. -/
def count (s : String) : Nat := (G.clusters s.toList).length

theorem count_le_utf16Length (s : String) : G.count s ≤ utf16Length s.toList := by
  have h := length_le_utf16Length_flatten (G.ne_nil s.toList)
  rwa [G.flatten_clusters] at h

/-- The clusters reach to the last unit only where each of them is one unit. -/
theorem utf16Length_le_count_iff (s : String) :
    utf16Length s.toList ≤ G.count s ↔
      ∀ cluster ∈ G.clusters s.toList, utf16Length cluster = 1 := by
  have h := utf16Length_flatten_le_iff (G.ne_nil s.toList)
  rwa [G.flatten_clusters] at h

end GraphemeBreaking

/-! ## Ranges -/

structure NSRange where
  location : Nat
  length : Nat
deriving DecidableEq, Repr

namespace NSRange

def upperBound (r : NSRange) : Nat := r.location + r.length

instance : Membership Nat NSRange where
  mem r i := r.location ≤ i ∧ i < r.upperBound

instance (i : Nat) (r : NSRange) : Decidable (i ∈ r) :=
  inferInstanceAs (Decidable (r.location ≤ i ∧ i < r.upperBound))

end NSRange

def NSMakeRange (location length : Nat) : NSRange := ⟨location, length⟩

@[simp] theorem upperBound_NSMakeRange_zero (n : Nat) : (NSMakeRange 0 n).upperBound = n :=
  Nat.zero_add n

@[simp] theorem mem_NSMakeRange_zero {n i : Nat} : i ∈ NSMakeRange 0 n ↔ i < n := by
  show 0 ≤ i ∧ i < 0 + n ↔ i < n
  omega

/-- `NSRangeException`: the range and the length it exceeds. -/
structure NSRangeException where
  range : NSRange
  length : Nat
deriving DecidableEq, Repr

/-! ## Attributed strings -/

/-- The attributes of one unit. -/
abbrev Attributes (κ υ : Type) := κ → Option υ

structure AttributedString (κ υ : Type) where
  string : String
  attributes : List (Attributes κ υ)
  length_attributes : attributes.length = utf16Length string.toList

namespace AttributedString

variable {κ υ : Type}

/-- `NSMutableAttributedString.init(string:)`. -/
def ofString (s : String) : AttributedString κ υ where
  string := s
  attributes := List.replicate (utf16Length s.toList) fun _ => none
  length_attributes := List.length_replicate

/-- The length, in UTF-16 units. -/
def length (t : AttributedString κ υ) : Nat := utf16Length t.string.toList

def append (t u : AttributedString κ υ) : AttributedString κ υ where
  string := t.string ++ u.string
  attributes := t.attributes ++ u.attributes
  length_attributes := by
    rw [List.length_append, t.length_attributes, u.length_attributes, String.toList_append,
      utf16Length_append]

/-- The value of an attribute at a unit. -/
def attributeAt (t : AttributedString κ υ) (i : Nat) (name : κ) : Option υ :=
  t.attributes[i]?.bind fun a => a name

/-- Every unit has the value for the attribute. -/
def Every (name : κ) (value : υ) (t : AttributedString κ υ) : Prop :=
  ∀ i < t.length, t.attributeAt i name = some value

/-- Change the attributes of the units of a range, which has to lie within the string. -/
def modify (f : Attributes κ υ → Attributes κ υ) (r : NSRange) (t : AttributedString κ υ) :
    Except NSRangeException (AttributedString κ υ) :=
  if r.upperBound ≤ t.length then
    .ok {
      string := t.string
      attributes := t.attributes.mapIdx fun i a => if i ∈ r then f a else a
      length_attributes := by rw [List.length_mapIdx, t.length_attributes] }
  else .error ⟨r, t.length⟩

/-- A string that has just been made has no attributes. -/
@[simp] theorem attributeAt_ofString (s : String) (i : Nat) (name : κ) :
    (ofString s : AttributedString κ υ).attributeAt i name = none := by
  simp only [attributeAt, ofString, List.getElem?_replicate]
  split <;> rfl

/-- **What `modify` does**: within bounds, `f` on the range and nothing elsewhere. -/
theorem modify_of_le {f : Attributes κ υ → Attributes κ υ} {r : NSRange}
    {t : AttributedString κ υ} (h : r.upperBound ≤ t.length) :
    ∃ u, t.modify f r = .ok u ∧ u.string = t.string ∧
      ∀ i, u.attributes[i]? = t.attributes[i]?.map fun a => if i ∈ r then f a else a := by
  refine ⟨_, if_pos h, rfl, ?_⟩
  intro i
  exact List.getElem?_mapIdx

/-- An attribute that `f` leaves alone. -/
theorem attributeAt_of_modify {f : Attributes κ υ → Attributes κ υ} {r : NSRange}
    {t u : AttributedString κ υ} {other : κ}
    (hunits : ∀ i, u.attributes[i]? = t.attributes[i]?.map fun a => if i ∈ r then f a else a)
    (hf : ∀ a, f a other = a other) (i : Nat) : u.attributeAt i other = t.attributeAt i other := by
  rw [attributeAt, attributeAt, hunits]
  cases t.attributes[i]? with
  | none => rfl
  | some a =>
      by_cases hmem : i ∈ r
      · simp [hmem, hf]
      · simp [hmem]

/-- Whether an attribute is everywhere depends on that attribute alone. -/
theorem every_congr {t u : AttributedString κ υ} {name : κ} {value : υ}
    (hstring : u.string = t.string) (h : ∀ i, u.attributeAt i name = t.attributeAt i name) :
    u.Every name value ↔ t.Every name value := by
  simp only [Every, length, hstring, h]

section AddAttribute

variable [DecidableEq κ] {t : AttributedString κ υ}

/-- `addAttribute(_:value:range:)`. -/
def addAttribute (name : κ) (value : υ) (r : NSRange) (t : AttributedString κ υ) :
    Except NSRangeException (AttributedString κ υ) :=
  t.modify (fun a => Function.update a name (some value)) r

/-- One attribute after the other, over the same range. -/
def addAttributes : List (κ × υ) → NSRange → AttributedString κ υ →
    Except NSRangeException (AttributedString κ υ)
  | [], _, t => .ok t
  | (name, value) :: attributes, r, t => do
      let u ← t.addAttribute name value r
      addAttributes attributes r u

/-- An attribute no unit had, added over the first `n` units: it reaches them all only if
`n` is the length. -/
theorem every_of_addAttribute {name : κ} {v : υ} {n : Nat} (hn : n ≤ t.length)
    (hfresh : ∀ i, t.attributeAt i name = none) :
    ∃ u, t.addAttribute name v (NSMakeRange 0 n) = .ok u ∧ u.string = t.string ∧
      (u.Every name v ↔ t.length ≤ n) ∧
      ∀ i other, other ≠ name → u.attributeAt i other = t.attributeAt i other := by
  obtain ⟨u, hu, hstring, hunits⟩ := modify_of_le (r := NSMakeRange 0 n) (t := t)
    (f := fun a => Function.update a name (some v)) (by rwa [upperBound_NSMakeRange_zero])
  have hlength : u.length = t.length := by rw [length, hstring, length]
  refine ⟨u, hu, hstring, ⟨?_, ?_⟩, ?_⟩
  · intro hevery
    by_contra hlt
    have hat := hevery n (by rw [hlength]; exact Nat.lt_of_not_le hlt)
    have hout : u.attributeAt n name = t.attributeAt n name := by
      simp [attributeAt, hunits]
    rw [hout, hfresh n] at hat
    cases hat
  · intro hall i hi
    rw [hlength] at hi
    have hmem : i ∈ NSMakeRange 0 n := by simpa using Nat.lt_of_lt_of_le hi hall
    have hi' : i < t.attributes.length := by rwa [t.length_attributes]
    simp [attributeAt, hunits, hmem, List.getElem?_eq_getElem hi']
  · intro i other hother
    exact attributeAt_of_modify hunits (fun a => Function.update_of_ne hother _ _) i

/-- **Attributes added over the first `n` units.**  They never raise for `n` within the
string, and each of them reaches every unit exactly when `n` is the length. -/
theorem every_of_addAttributes {n : Nat} : ∀ {attributes : List (κ × υ)}
    {t : AttributedString κ υ}, n ≤ t.length → (attributes.map Prod.fst).Nodup →
      (∀ name ∈ attributes.map Prod.fst, ∀ i, t.attributeAt i name = none) →
      ∃ u, t.addAttributes attributes (NSMakeRange 0 n) = .ok u ∧ u.string = t.string ∧
        (∀ p ∈ attributes, u.Every p.1 p.2 ↔ t.length ≤ n) ∧
        ∀ i other, other ∉ attributes.map Prod.fst → u.attributeAt i other = t.attributeAt i other
  | [], t, _, _, _ => ⟨t, rfl, rfl, fun _ h => absurd h List.not_mem_nil, fun _ _ _ => rfl⟩
  | (name, value) :: attributes, t, hn, hnodup, hfresh => by
      rw [List.map_cons, List.nodup_cons] at hnodup
      rw [List.map_cons, List.forall_mem_cons] at hfresh
      obtain ⟨u, hu, hustring, huevery, huother⟩ :=
        every_of_addAttribute (v := value) hn hfresh.1
      have hulength : u.length = t.length := by rw [length, hustring, length]
      have hne : ∀ other ∈ attributes.map Prod.fst, other ≠ name := by
        rintro other hother rfl
        exact hnodup.1 hother
      have hufresh : ∀ other ∈ attributes.map Prod.fst, ∀ i, u.attributeAt i other = none := by
        intro other hother i
        rw [huother i other (hne other hother)]
        exact hfresh.2 other hother i
      obtain ⟨v, hv, hvstring, hvevery, hvother⟩ :=
        every_of_addAttributes (hulength.symm ▸ hn) hnodup.2 hufresh
      refine ⟨v, ?_, hvstring.trans hustring, ?_, ?_⟩
      · rw [addAttributes, hu]
        exact hv
      · rw [List.forall_mem_cons]
        constructor
        · rw [every_congr hvstring fun i => hvother i name hnodup.1]
          exact huevery
        · intro p hp
          rw [hvevery p hp, hulength]
      · intro i other hother
        rw [List.map_cons, List.mem_cons, not_or] at hother
        rw [hvother i other hother.2, huother i other hother.1]

end AddAttribute

end AttributedString

end MagnetX.Lib
