/-
# `MagnetX.Lib.Paginator` — a list shown page by page

A paginator over a fixed list shows its first pages, all of the same length but the
last: it starts over with one page, or takes one page more.  Its whole state is the
number of times it has taken more since it last started over.

What there is to know about it is in `flatten_view`: the pages shown, put together,
are a prefix of the list.
-/
import Mathlib.Data.List.Basic

namespace MagnetX.Lib.Paginator

universe u

variable {α : Type u} (count : Nat) (S : List α)

/-- The elements from `start` on, at most `count` of them. -/
def page (start : Nat) : List α := (S.drop start).take count

/-- What is shown after taking more `k` times. -/
def view (k : Nat) : List (List α) := (List.range (k + 1)).map fun i => page count S (count * i)

inductive Op where
  | refresh
  | more
deriving DecidableEq, Repr

def step : Nat → Op → Nat
  | _, .refresh => 0
  | k, .more => k + 1

/-- The state after a list of operations. -/
def run (ops : List Op) : Nat := ops.foldl step 0

@[simp] theorem run_snoc (ops : List Op) (op : Op) : run (ops ++ [op]) = step (run ops) op := by
  simp [run]

theorem take_append_page (start : Nat) :
    S.take start ++ page count S start = S.take (start + count) := by
  rw [page, List.take_add]

/-- The pages shown are the list, up to the end of the last of them. -/
theorem flatten_view (k : Nat) : (view count S k).flatten = S.take (count * (k + 1)) := by
  induction k with
  | zero => simp [view, page]
  | succ k ih =>
      have hlast : view count S (k + 1) = view count S k ++ [page count S (count * (k + 1))] := by
        simp only [view, List.range_succ, List.map_append, List.map_cons, List.map_nil]
      calc (view count S (k + 1)).flatten
          = (view count S k).flatten ++ page count S (count * (k + 1)) := by
            rw [hlast, List.flatten_append, List.flatten_singleton]
        _ = S.take (count * (k + 1)) ++ page count S (count * (k + 1)) := by rw [ih]
        _ = S.take (count * (k + 1 + 1)) := take_append_page count S (count * (k + 1))

end MagnetX.Lib.Paginator
