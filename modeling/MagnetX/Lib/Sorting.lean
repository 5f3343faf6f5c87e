/-
# `MagnetX.Lib.Sorting` — sorting by a comparator

A sort that is handed a comparator promises two things: it returns the same elements, and
it returns them in order whenever the comparator is a strict weak order.  Which of two
equivalent elements comes first is not promised.  `Sorting` is such a sort; `stableSort` is one.

A comparator that compares ranks in a linear order is a strict weak order (`of_rank`), and
the last element of a sorted list is a maximal one (`not_lt_getLast`).  Where no two
elements are equivalent, the list in order is the only one (`sort_eq`).
-/
import Mathlib.Order.Lattice
import Mathlib.Data.List.Sort

namespace MagnetX.Lib

universe u v

variable {α : Type u} {β : Type v}

/-- What a comparator has to be. -/
structure StrictWeak (lt : α → α → Bool) : Prop where
  irrefl : ∀ a, lt a a = false
  trans : ∀ a b c, lt a b = true → lt b c = true → lt a c = true
  incomparable_trans : ∀ a b c, lt a b = false → lt b c = false → lt a c = false

/-- Comparing ranks. -/
theorem StrictWeak.of_rank [LinearOrder β] (rank : α → β) {lt : α → α → Bool}
    (h : ∀ a b, lt a b = true ↔ rank a < rank b) : StrictWeak lt where
  irrefl a := by
    rw [Bool.eq_false_iff, ne_eq, h]
    exact lt_irrefl _
  trans a b c := by
    rw [h, h, h]
    exact lt_trans
  incomparable_trans a b c := by
    rw [Bool.eq_false_iff, ne_eq, h, Bool.eq_false_iff, ne_eq, h, Bool.eq_false_iff, ne_eq, h,
      not_lt, not_lt, not_lt]
    exact fun hba hcb => le_trans hcb hba

/-- In order: no element is less than an earlier one. -/
def InOrder (lt : α → α → Bool) (elements : List α) : Prop :=
  elements.Pairwise fun a b => lt b a = false

/-- A sort. -/
structure Sorting (α : Type u) where
  sort : (α → α → Bool) → List α → List α
  perm : ∀ lt elements, (sort lt elements).Perm elements
  inOrder : ∀ {lt}, StrictWeak lt → ∀ elements, InOrder lt (sort lt elements)

/-- Of two elements, one is not after the other. -/
theorem StrictWeak.total {lt : α → α → Bool} (h : StrictWeak lt) (a b : α) :
    lt b a = false ∨ lt a b = false := by
  cases hba : lt b a with
  | false => exact .inl rfl
  | true =>
      cases hab : lt a b with
      | false => exact .inr rfl
      | true =>
          have haa := h.trans a b a hab hba
          rw [h.irrefl a] at haa
          cases haa

/-- Insertion sort, which keeps equivalent elements as they were. -/
def stableSort : Sorting α where
  sort lt elements := elements.insertionSort fun a b => lt b a = false
  perm _ _ := List.perm_insertionSort ..
  inOrder := by
    intro lt h elements
    have : Std.Total fun a b => lt b a = false := ⟨h.total⟩
    have : IsTrans α fun a b => lt b a = false :=
      ⟨fun a b c hba hcb => h.incomparable_trans c b a hcb hba⟩
    exact List.pairwise_insertionSort _ elements

/-- The last element is a maximal one. -/
theorem InOrder.not_lt_getLast {lt : α → α → Bool} (hlt : StrictWeak lt) {elements : List α}
    (h : InOrder lt elements) {last : α} (hlast : elements.getLast? = some last) :
    ∀ a ∈ elements, lt last a = false := by
  obtain ⟨initial, rfl⟩ := List.getLast?_eq_some_iff.mp hlast
  intro a ha
  rcases List.mem_append.mp ha with ha | ha
  · exact (List.pairwise_append.mp h).2.2 a ha last (List.mem_singleton_self last)
  · rw [List.mem_singleton.mp ha]
    exact hlt.irrefl last

/-- Where no two elements are equivalent, there is one list in order. -/
theorem Sorting.sort_eq (sorting : Sorting α) {lt : α → α → Bool} (hlt : StrictWeak lt)
    (htotal : ∀ a b, lt a b = false → lt b a = false → a = b) {elements sorted : List α}
    (hperm : sorted.Perm elements) (hsorted : InOrder lt sorted) :
    sorting.sort lt elements = sorted := by
  refine List.Perm.eq_of_pairwise ?_ (sorting.inOrder hlt elements) hsorted
    ((sorting.perm lt elements).trans hperm.symm)
  intro a b _ _ hba hab
  exact htotal a b hab hba

end MagnetX.Lib
