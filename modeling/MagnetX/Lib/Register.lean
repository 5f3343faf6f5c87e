/-
# `MagnetX.Lib.Register` — registers that only some inputs write

A handler that is given one input after the other and writes a part of its state only for
some of them leaves in that part what the latest of these inputs wrote.  What an input
writes is a function of the input alone, `write`; it is `none` for an input that leaves
the register as it is.

A register depends on the last input alone when that input writes it, or when nothing
written before shows (`latest_snoc_eq_iff`).
-/
import Mathlib.Data.List.Induction

namespace MagnetX.Lib

variable {α β : Type} {write : α → Option β} {init : β}

/-- What a register holds after some inputs. -/
def latest (write : α → Option β) (init : β) (inputs : List α) : β :=
  inputs.foldl (fun held x => (write x).getD held) init

@[simp] theorem latest_nil : latest write init [] = init := rfl

@[simp] theorem latest_snoc (inputs : List α) (x : α) :
    latest write init (inputs ++ [x]) = (write x).getD (latest write init inputs) := by
  rw [latest, List.foldl_append]
  rfl

@[simp] theorem latest_singleton (x : α) : latest write init [x] = (write x).getD init := rfl

/-- The register is what the last input alone would have made of it. -/
theorem latest_snoc_eq_iff (inputs : List α) (x : α) :
    latest write init (inputs ++ [x]) = latest write init [x] ↔
      write x ≠ none ∨ latest write init inputs = init := by
  rw [latest_snoc, latest_singleton]
  cases write x with
  | none => simp
  | some v => simp

/-- The latest of the inputs that write decides whether the register is back where it
began. -/
theorem latest_eq_init_iff (inputs : List α) :
    latest write init inputs = init ↔
      ∀ x ∈ (inputs.filter fun x => (write x).isSome).getLast?, write x = some init := by
  induction inputs using List.reverseRecOn with
  | nil => simp
  | append_singleton inputs x ih =>
      rw [latest_snoc, List.filter_append]
      cases hx : write x with
      | none => simpa [hx] using ih
      | some v => simp [hx]

/-- Where no input writes the initial value, it is held only if none has written. -/
theorem latest_eq_init_iff_of_ne (hne : ∀ x, write x ≠ some init) (inputs : List α) :
    latest write init inputs = init ↔ ∀ x ∈ inputs, write x = none := by
  rw [latest_eq_init_iff]
  constructor
  · intro h x hx
    by_contra hwrites
    have hmem : x ∈ inputs.filter fun x => (write x).isSome :=
      List.mem_filter.mpr ⟨hx, Option.isSome_iff_ne_none.mpr hwrites⟩
    have hlast := List.getLast?_eq_some_getLast (List.ne_nil_of_mem hmem)
    exact hne _ (h _ hlast)
  · intro h x hx
    have hmem := List.mem_filter.mp (List.mem_of_getLast? hx)
    rw [h x hmem.1] at hmem
    cases hmem.2

end MagnetX.Lib
