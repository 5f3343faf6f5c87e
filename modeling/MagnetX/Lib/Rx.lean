/-
# `MagnetX.Lib.Rx` — subscriptions that wait for one answer

What an observable does to its observer is a list of signals: elements, at most
one terminal signal, and in between the side effects that the closures given to
the operators perform (an assignment, a call on some other object).  Effects are
kept in the same list because their order relative to the elements is the thing
programs get wrong.

The observables here depend on the outside once: they may say something at
subscription, then they wait for one answer (of a server, of a timer), and the
answer decides the rest.  `Single` is the case that says nothing before the
answer and exactly one thing after it.

Operators that look at one signal at a time are `substitute`; `startWith` and
`usingResource` act at subscription.  `consume` is the observer at the end.
-/
import Mathlib.Data.List.Basic

namespace MagnetX.Lib.Rx

/-- One thing an observable does to its observer, or an effect on the way. -/
inductive Signal (ω ε α : Type) where
  | effect (x : ω)
  | next (a : α)
  | error (e : ε)
  | completed
deriving DecidableEq, Repr

variable {ρ σ ω ε ε' α β : Type}

/-! ## Singles -/

/-- A source of one element or one error: effects performed, then the outcome. -/
structure Single (ρ ω ε α : Type) where
  answer : ρ → List ω × Except ε α

namespace Single

/-- Continue with what `f` makes of the element. -/
def flatMap (f : α → List ω × Except ε β) (s : Single ρ ω ε α) : Single ρ ω ε β where
  answer r :=
    match s.answer r with
    | (fx, .ok a) => (fx ++ (f a).1, (f a).2)
    | (fx, .error e) => (fx, .error e)

/-- `flatMap` with a closure that may throw and has no effect. -/
def map (f : α → Except ε β) (s : Single ρ ω ε α) : Single ρ ω ε β :=
  s.flatMap fun a => ([], f a)

end Single

/-! ## Observables -/

structure Observable (ρ ω ε α : Type) where
  subscribe : List (Signal ω ε α)
  answer : ρ → List (Signal ω ε α)

/-- A single, seen as an observable: the element is followed by completion. -/
def Single.asObservable (s : Single ρ ω ε α) : Observable ρ ω ε α where
  subscribe := []
  answer r :=
    (s.answer r).1.map .effect ++
      match (s.answer r).2 with
      | .ok a => [.next a, .completed]
      | .error e => [.error e]

namespace Observable

/-- Replace each signal by the signals `f` gives for it. -/
def substitute (f : Signal ω ε α → List (Signal ω ε' β)) (o : Observable ρ ω ε α) :
    Observable ρ ω ε' β where
  subscribe := o.subscribe.flatMap f
  answer r := (o.answer r).flatMap f

/-- Emit an element before anything else. -/
def startWith (a : α) (o : Observable ρ ω ε α) : Observable ρ ω ε α where
  subscribe := .next a :: o.subscribe
  answer := o.answer

/-- Perform an effect before each element is passed on. -/
def doOnNext (f : α → ω) : Observable ρ ω ε α → Observable ρ ω ε α :=
  substitute fun
    | .next a => [.effect (f a), .next a]
    | s => [s]

/-- Put the signals of another source, with errors of its own, in place of an error. -/
def catchError (f : ε → List (Signal ω ε' α)) : Observable ρ ω ε α → Observable ρ ω ε' α :=
  substitute fun
    | .effect x => [.effect x]
    | .next a => [.next a]
    | .completed => [.completed]
    | .error e => f e

/-- An error becomes one last element.  What is left has no errors, hence `Empty`. -/
def catchErrorJustReturn (a : α) : Observable ρ ω ε α → Observable ρ ω Empty α :=
  catchError fun _ => [.next a, .completed]

/-- An error becomes completion. -/
def catchErrorJustComplete : Observable ρ ω ε α → Observable ρ ω Empty α :=
  catchError fun _ => [.completed]

/-- Acquire a resource, with its effects, when the subscription starts. -/
def usingResource (acquire : List ω) (o : Observable ρ ω ε α) : Observable ρ ω ε α where
  subscribe := acquire.map .effect ++ o.subscribe
  answer := o.answer

end Observable

/-! ## Observers -/

/-- What the signals of an observable that cannot fail do to the state of its observer,
and what the observer passes on meanwhile. -/
def consume (onEffect : σ → ω → σ × List β) (onNext : σ → α → σ × List β) :
    σ → List (Signal ω Empty α) → σ × List β
  | s, [] => (s, [])
  | s, .effect x :: signals =>
      let (s', out) := onEffect s x
      let (t, rest) := consume onEffect onNext s' signals
      (t, out ++ rest)
  | s, .next a :: signals =>
      let (s', out) := onNext s a
      let (t, rest) := consume onEffect onNext s' signals
      (t, out ++ rest)
  | s, .completed :: signals => consume onEffect onNext s signals

end MagnetX.Lib.Rx
