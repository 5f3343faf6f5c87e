/-
# `MagnetX.Lib.SingleFlight` — waiters that share what they wait for

A table from keys to those who wait for the key's result.  Who asks for a key joins its
waiters; a result of the key settles it: everyone who waits is answered, in the order of
joining, and nobody waits any more.

The log says who joined and who was answered with what.  Of each key, those who joined
are those who were answered, in the same order, followed by those who still wait
(`joined_eq`), and that is so after every run.  Whatever shares one flight between several
waiters can be compared with this machine, and inherits it.
-/
import MagnetX.Lib.Machine
import Mathlib.Logic.Function.Basic

namespace MagnetX.Lib

namespace SingleFlight

variable {K W R : Type} [DecidableEq K]

inductive Action (K W R : Type) where
  | join (key : K) (waiter : W)
  | settle (key : K) (result : R)

inductive Output (K W R : Type) where
  | joined (key : K) (waiter : W)
  | answered (key : K) (waiter : W) (result : R)
deriving DecidableEq, Repr

/-- The waiters of every key. -/
def machine : Machine (K → List W) (Action K W R) (Output K W R) where
  step waiting
    | .join key waiter =>
        some (Function.update waiting key (waiting key ++ [waiter]), [.joined key waiter])
    | .settle key result =>
        some (Function.update waiting key [],
          (waiting key).map fun waiter => .answered key waiter result)

/-- The waiter of a key who joins in an output. -/
def Output.joiner (key : K) : Output K W R → Option W
  | .joined key' waiter => if key' = key then some waiter else none
  | .answered _ _ _ => none

/-- The waiter of a key who is answered in an output. -/
def Output.answeree (key : K) : Output K W R → Option W
  | .joined _ _ => none
  | .answered key' waiter _ => if key' = key then some waiter else none

/-- Those who joined a key, in order. -/
def joined (key : K) (log : List (Output K W R)) : List W := log.filterMap (Output.joiner key)

/-- Those of a key who were answered, in order. -/
def answered (key : K) (log : List (Output K W R)) : List W := log.filterMap (Output.answeree key)

section Log

variable (key : K) (log log' : List (Output K W R))

@[simp] theorem joined_nil : joined key ([] : List (Output K W R)) = [] := rfl

@[simp] theorem answered_nil : answered key ([] : List (Output K W R)) = [] := rfl

@[simp] theorem joined_append : joined key (log ++ log') = joined key log ++ joined key log' :=
  List.filterMap_append

@[simp] theorem answered_append :
    answered key (log ++ log') = answered key log ++ answered key log' :=
  List.filterMap_append

@[simp] theorem joined_joined (key' : K) (waiter : W) :
    joined key [(.joined key' waiter : Output K W R)] = if key' = key then [waiter] else [] := by
  by_cases h : key' = key
  · simp [joined, Output.joiner, h]
  · simp [joined, Output.joiner, h]

@[simp] theorem answered_joined (key' : K) (waiter : W) :
    answered key [(.joined key' waiter : Output K W R)] = [] := rfl

@[simp] theorem joined_map_answered (key' : K) (waiters : List W) (result : R) :
    joined key (waiters.map fun waiter => Output.answered key' waiter result) = [] := by
  simp [joined, List.filterMap_map, Function.comp_def, Output.joiner]

@[simp] theorem answered_map_answered (key' : K) (waiters : List W) (result : R) :
    answered key (waiters.map fun waiter => Output.answered key' waiter result) =
      if key' = key then waiters else [] := by
  by_cases h : key' = key
  · simp [answered, List.filterMap_map, Function.comp_def, Output.answeree, h]
  · simp [answered, List.filterMap_map, Function.comp_def, Output.answeree, h]

end Log

/-- From any table on: of a key, those who waited and those who joined are those who were
answered and then those who wait. -/
theorem waiting_append_joined {as : List (Action K W R)} {before waiting : K → List W}
    {log : List (Output K W R)} (hrun : machine.run before as = some (waiting, log)) (key : K) :
    before key ++ joined key log = answered key log ++ waiting key := by
  refine Machine.invariant (M := machine)
    (P := fun waiting log => ∀ key, before key ++ joined key log = answered key log ++ waiting key)
    (fun key => List.append_nil _) ?_ hrun key
  intro waiting log a waiting' o ih hstep key
  cases a with
  | join key' waiter =>
      cases hstep
      rw [joined_append, answered_append, ← List.append_assoc, ih key, joined_joined,
        answered_joined]
      by_cases h : key' = key
      · rw [if_pos h, h, Function.update_self, List.append_nil, List.append_assoc]
      · rw [if_neg h, Function.update_of_ne (Ne.symm h)]
        simp
  | settle key' result =>
      cases hstep
      rw [joined_append, answered_append, ← List.append_assoc, ih key, joined_map_answered,
        answered_map_answered]
      by_cases h : key' = key
      · rw [if_pos h, h, Function.update_self]
      · rw [if_neg h, Function.update_of_ne (Ne.symm h)]
        simp

/-- **Nobody is answered twice and nobody is lost**: after every run, those who joined a key
are those who were answered and then those who wait. -/
theorem joined_eq {as : List (Action K W R)} {waiting : K → List W} {log : List (Output K W R)}
    (hrun : machine.run (fun _ => []) as = some (waiting, log)) (key : K) :
    joined key log = answered key log ++ waiting key :=
  waiting_append_joined hrun key

end SingleFlight

end MagnetX.Lib
