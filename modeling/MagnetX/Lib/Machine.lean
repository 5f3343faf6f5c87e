/-
# `MagnetX.Lib.Machine` — deterministic machines that emit a log

A machine takes an action in a state and answers with the next state and the
outputs the action produced, in order; an action that is not possible in a state
has no answer.  A *run* feeds a finite list of actions and concatenates the
outputs.

The module knows nothing of any program.  It supplies the arguments every state machine
needs once:

* `run_induction` — a property of (actions so far, state, log so far) that holds
  at the start and that one step preserves holds at the end of every run.  The
  step may assume a guard, a condition on the state before the action, which the
  run then has to meet at every step (`Guarded`); `run_induction_from` starts after
  the first action;
* `project` — if each action of a machine is either an action of a smaller one or
  is not seen by it, a run projects to a run of the smaller machine, log included;
* `simulate` — if each step of a machine is matched by the steps of another that it is said
  to amount to, a run is matched by what it amounts to, step after step (`trace`);
* `Guarded.of_invariant` — a guard that follows from another guard and an invariant is
  met along with it;
* `exists_run_of_decreasing` — actions that make a measure smaller, and are possible until
  the machine is at rest, bring it to rest; `length_add_le_of_decreasing` says how soon.
-/
import Mathlib.Data.List.Induction

namespace MagnetX.Lib

universe u v w u' v' w'

/-- A deterministic machine: `step s a` is `none` when `a` is not possible in `s`. -/
structure Machine (σ : Type u) (α : Type v) (β : Type w) where
  step : σ → α → Option (σ × List β)

namespace Machine

variable {σ : Type u} {α : Type v} {β : Type w} (M : Machine σ α β)

/-- Feed a list of actions, collecting the log. -/
def run : σ → List α → Option (σ × List β)
  | s, [] => some (s, [])
  | s, a :: as =>
      match M.step s a with
      | none => none
      | some (t, o) => (run t as).map fun r => (r.1, o ++ r.2)

@[simp] theorem run_nil (s : σ) : M.run s [] = some (s, []) := rfl

theorem run_cons_eq_some {s t : σ} {a : α} {as : List α} {log : List β} :
    M.run s (a :: as) = some (t, log) ↔
      ∃ s' o rest, M.step s a = some (s', o) ∧ M.run s' as = some (t, rest) ∧
        log = o ++ rest := by
  simp only [run]
  cases hstep : M.step s a with
  | none => simp
  | some p =>
      obtain ⟨s', o⟩ := p
      simp only [Option.map_eq_some_iff, Prod.mk.injEq, Prod.exists, Option.some.injEq]
      constructor
      · rintro ⟨t', rest, hrun, rfl, rfl⟩
        exact ⟨s', o, rest, ⟨rfl, rfl⟩, hrun, rfl⟩
      · rintro ⟨_, _, rest, ⟨rfl, rfl⟩, hrun, rfl⟩
        exact ⟨t, rest, hrun, rfl, rfl⟩

@[simp] theorem run_singleton (s : σ) (a : α) : M.run s [a] = M.step s a := by
  simp only [run]
  cases M.step s a with
  | none => rfl
  | some p => simp

theorem run_append_eq_some {s t : σ} {as bs : List α} {log : List β} :
    M.run s (as ++ bs) = some (t, log) ↔
      ∃ m front back, M.run s as = some (m, front) ∧ M.run m bs = some (t, back) ∧
        log = front ++ back := by
  induction as generalizing s log with
  | nil => simp
  | cons a as ih =>
      rw [List.cons_append, run_cons_eq_some]
      constructor
      · rintro ⟨s', o, rest, hstep, hrun, rfl⟩
        obtain ⟨m, front, back, h₁, h₂, rfl⟩ := ih.mp hrun
        exact ⟨m, o ++ front, back, M.run_cons_eq_some.mpr ⟨s', o, front, hstep, h₁, rfl⟩,
          h₂, (List.append_assoc ..).symm⟩
      · rintro ⟨m, front, back, h₁, h₂, rfl⟩
        obtain ⟨s', o, rest, hstep, hrun, rfl⟩ := M.run_cons_eq_some.mp h₁
        exact ⟨s', o, rest ++ back, hstep, ih.mpr ⟨m, rest, back, hrun, h₂, rfl⟩,
          List.append_assoc ..⟩

theorem run_snoc_eq_some {s t : σ} {as : List α} {a : α} {log : List β} :
    M.run s (as ++ [a]) = some (t, log) ↔
      ∃ m front o, M.run s as = some (m, front) ∧ M.step m a = some (t, o) ∧
        log = front ++ o := by
  rw [run_append_eq_some]
  simp only [run_singleton]

/-- A run followed by a step. -/
theorem run_snoc {s m t : σ} {as : List α} {a : α} {front o : List β}
    (hrun : M.run s as = some (m, front)) (hstep : M.step m a = some (t, o)) :
    M.run s (as ++ [a]) = some (t, front ++ o) :=
  M.run_snoc_eq_some.mpr ⟨m, front, o, hrun, hstep, rfl⟩

/-! ## Guards -/

/-- Every action of the run is taken in a state where `G` allows it. -/
def Guarded (G : σ → α → Prop) : σ → List α → Prop
  | _, [] => True
  | s, a :: as => G s a ∧ ∀ t o, M.step s a = some (t, o) → Guarded G t as

instance Guarded.decidable {G : σ → α → Prop} [∀ s a, Decidable (G s a)] :
    ∀ (s : σ) (as : List α), Decidable (M.Guarded G s as)
  | _, [] => .isTrue trivial
  | s, a :: as =>
      match hstep : M.step s a with
      | none => decidable_of_iff (G s a) ⟨fun h => ⟨h, by simp [hstep]⟩, fun h => h.1⟩
      | some (t, o) =>
          have : Decidable (M.Guarded G t as) := Guarded.decidable t as
          decidable_of_iff (G s a ∧ M.Guarded G t as)
            ⟨fun h => ⟨h.1, by rintro t' o' h'; rw [hstep] at h'; cases h'; exact h.2⟩,
              fun h => ⟨h.1, h.2 t o hstep⟩⟩

variable {M}

theorem Guarded.and {G H : σ → α → Prop} :
    ∀ {as : List α} {s : σ}, M.Guarded G s as → M.Guarded H s as →
      M.Guarded (fun s a => G s a ∧ H s a) s as
  | [], _, _, _ => trivial
  | _ :: _, _, hG, hH =>
      ⟨⟨hG.1, hH.1⟩, fun t o hstep => (hG.2 t o hstep).and (hH.2 t o hstep)⟩

theorem guarded_true : ∀ (as : List α) (s : σ), M.Guarded (fun _ _ => True) s as
  | [], _ => trivial
  | _ :: as, _ => ⟨trivial, fun t _ _ => guarded_true as t⟩

theorem guarded_snoc {G : σ → α → Prop} {as : List α} {a : α} {s t : σ} {log : List β}
    (hrun : M.run s as = some (t, log)) :
    M.Guarded G s (as ++ [a]) ↔ M.Guarded G s as ∧ G t a := by
  induction as generalizing s log with
  | nil =>
      simp only [run_nil, Option.some.injEq, Prod.mk.injEq] at hrun
      obtain ⟨rfl, -⟩ := hrun
      simp [Guarded]
  | cons b as ih =>
      obtain ⟨s', o, rest, hstep, hrest, -⟩ := M.run_cons_eq_some.mp hrun
      simp only [List.cons_append, Guarded, and_assoc]
      refine and_congr_right fun _ => ?_
      constructor
      · intro h
        have hs := (ih hrest).mp (h s' o hstep)
        refine ⟨fun t' o' h' => ?_, hs.2⟩
        rw [hstep] at h'
        cases h'
        exact hs.1
      · rintro ⟨h, ha⟩ t' o' h'
        rw [hstep] at h'
        cases h'
        exact (ih hrest).mpr ⟨h s' o hstep, ha⟩

theorem Guarded.of_append {G : σ → α → Prop} {as bs : List α} {s : σ}
    (h : M.Guarded G s (as ++ bs)) : M.Guarded G s as := by
  induction as generalizing s with
  | nil => trivial
  | cons a as ih => exact ⟨h.1, fun t o hstep => ih (h.2 t o hstep)⟩

/-- A run is guarded when every action in it was allowed in the state it was taken in. -/
theorem guarded_iff_forall_prefix {G : σ → α → Prop} {s₀ : σ} {as : List α} :
    M.Guarded G s₀ as ↔
      ∀ front a, front ++ [a] <+: as → ∀ s log, M.run s₀ front = some (s, log) → G s a := by
  constructor
  · rintro h front a ⟨rest, rfl⟩ s log hrun
    exact ((guarded_snoc hrun).mp h.of_append).2
  · intro h
    induction as generalizing s₀ with
    | nil => trivial
    | cons a as ih =>
        refine ⟨h [] a ⟨as, rfl⟩ s₀ [] rfl, ?_⟩
        intro t o hstep
        refine ih ?_
        rintro front b ⟨rest, rfl⟩ s log hrun
        exact h (a :: front) b ⟨rest, by simp⟩ s (o ++ log)
          (M.run_cons_eq_some.mpr ⟨t, o, log, hstep, hrun, rfl⟩)

/-- **Run induction.**  What holds at the start and is preserved by every step
the guard allows holds at the end of every guarded run. -/
theorem run_induction {G : σ → α → Prop} {s₀ : σ} {P : List α → σ → List β → Prop}
    (init : P [] s₀ [])
    (step : ∀ as s log a t o, M.run s₀ as = some (s, log) → P as s log → G s a →
      M.step s a = some (t, o) → P (as ++ [a]) t (log ++ o))
    {as : List α} {s : σ} {log : List β} (hrun : M.run s₀ as = some (s, log))
    (hG : M.Guarded G s₀ as) : P as s log := by
  induction as using List.reverseRecOn generalizing s log with
  | nil =>
      simp only [run_nil, Option.some.injEq, Prod.mk.injEq] at hrun
      obtain ⟨rfl, rfl⟩ := hrun
      exact init
  | append_singleton as a ih =>
      obtain ⟨m, front, o, hfront, hstep, rfl⟩ := M.run_snoc_eq_some.mp hrun
      obtain ⟨hG', ha⟩ := (guarded_snoc hfront).mp hG
      exact step as m front a s o hfront (ih hfront hG') ha hstep

/-- Run induction from a given first action on. -/
theorem run_induction_from {G : σ → α → Prop} {s₀ : σ} {a : α} {P : List α → σ → List β → Prop}
    (first : ∀ t o, G s₀ a → M.step s₀ a = some (t, o) → P [a] t o)
    (step : ∀ as s log b t o, P (a :: as) s log → G s b → M.step s b = some (t, o) →
      P (a :: as ++ [b]) t (log ++ o))
    {as : List α} {s : σ} {log : List β} (hrun : M.run s₀ (a :: as) = some (s, log))
    (hG : M.Guarded G s₀ (a :: as)) : P (a :: as) s log := by
  induction as using List.reverseRecOn generalizing s log with
  | nil =>
      rw [run_singleton] at hrun
      exact first s log hG.1 hrun
  | append_singleton as b ih =>
      rw [← List.cons_append] at hrun hG ⊢
      obtain ⟨m, front, o, hfront, hstep, rfl⟩ := M.run_snoc_eq_some.mp hrun
      obtain ⟨hG', hb⟩ := (guarded_snoc hfront).mp hG
      exact step as m front b s o (ih hfront hG') hb hstep

/-- A guard on the actions alone. -/
theorem guarded_of_forall {G : α → Prop} :
    ∀ {as : List α} (s : σ), (∀ a ∈ as, G a) → M.Guarded (fun _ a => G a) s as
  | [], _, _ => trivial
  | a :: _, _, h =>
      ⟨h a (List.mem_cons_self ..), fun t _ _ =>
        guarded_of_forall t fun b hb => h b (List.mem_cons_of_mem a hb)⟩

/-- A guard that the invariant and another guard imply is met along with it. -/
theorem Guarded.of_invariant {G H : σ → α → Prop} {I : σ → Prop} {s₀ : σ} (init : I s₀)
    (step : ∀ s a t o, I s → G s a → M.step s a = some (t, o) → H s a ∧ I t)
    {as : List α} {s : σ} {log : List β} (hrun : M.run s₀ as = some (s, log))
    (hG : M.Guarded G s₀ as) : M.Guarded H s₀ as ∧ I s := by
  refine run_induction (P := fun as s _ => M.Guarded H s₀ as ∧ I s) ⟨trivial, init⟩ ?_ hrun hG
  intro as s _ a t o hrun hP hGa hstep
  obtain ⟨hH, hI⟩ := step s a t o hP.2 hGa hstep
  exact ⟨(guarded_snoc hrun).mpr ⟨hP.1, hH⟩, hI⟩

/-- The unguarded case: an invariant of the state and the log. -/
theorem invariant {s₀ : σ} {P : σ → List β → Prop} (init : P s₀ [])
    (step : ∀ s log a t o, P s log → M.step s a = some (t, o) → P t (log ++ o))
    {as : List α} {s : σ} {log : List β} (hrun : M.run s₀ as = some (s, log)) : P s log :=
  run_induction (G := fun _ _ => True) (P := fun _ s log => P s log) init
    (fun _ s log a t o _ hP _ hstep => step s log a t o hP hstep) hrun (guarded_true as s₀)

/-! ## Measures -/

/-- A run of actions each of which makes a measure smaller is no longer than the measure. -/
theorem length_add_le_of_decreasing {I : α → Prop} {weight : σ → Nat}
    (step : ∀ s a t o, I a → M.step s a = some (t, o) → weight t < weight s) :
    ∀ {as : List α} {s t : σ} {log : List β}, M.run s as = some (t, log) → (∀ a ∈ as, I a) →
      as.length + weight t ≤ weight s := by
  intro as
  induction as with
  | nil =>
      intro s t log hrun _
      simp only [run_nil, Option.some.injEq, Prod.mk.injEq] at hrun
      obtain ⟨rfl, -⟩ := hrun
      exact Nat.le_of_eq (Nat.zero_add _)
  | cons a as ih =>
      intro s t log hrun hI
      obtain ⟨m, o, rest, hstep, hrest, -⟩ := M.run_cons_eq_some.mp hrun
      have hlt := step s a m o (hI a (List.mem_cons_self ..)) hstep
      have hle := ih hrest fun b hb => hI b (List.mem_cons_of_mem a hb)
      rw [List.length_cons]
      omega

/-- Where such actions are possible until nothing is left to do, they come to an end. -/
theorem exists_run_of_decreasing {I : α → Prop} {weight : σ → Nat} {Resting : σ → Prop}
    (step : ∀ s a t o, I a → M.step s a = some (t, o) → weight t < weight s)
    (progress : ∀ s, ¬ Resting s → ∃ a t o, I a ∧ M.step s a = some (t, o)) :
    ∀ s : σ, ∃ as t log, M.run s as = some (t, log) ∧ (∀ a ∈ as, I a) ∧ Resting t := by
  intro s
  induction hweight : weight s using Nat.strongRecOn generalizing s with
  | _ n ih =>
      by_cases hrest : Resting s
      · exact ⟨[], s, [], rfl, fun a ha => absurd ha List.not_mem_nil, hrest⟩
      · obtain ⟨a, t, o, hI, hstep⟩ := progress s hrest
        have hlt : weight t < n := hweight ▸ step s a t o hI hstep
        obtain ⟨as, t', log, hrun, hall, hrest'⟩ := ih (weight t) hlt t rfl
        refine ⟨a :: as, t', o ++ log, M.run_cons_eq_some.mpr ⟨t, o, log, hstep, hrun, rfl⟩, ?_,
          hrest'⟩
        intro b hb
        rcases List.mem_cons.mp hb with rfl | hb
        · exact hI
        · exact hall b hb

/-! ## Projection

`N` is a component of `M`, seen through `pa` on actions and `pb` on outputs.  The
relation `R` says what the component's own state has to do with the whole. -/

theorem project {τ : Type u'} {α' : Type v'} {β' : Type w'} {N : Machine τ α' β'}
    {pa : α → Option α'} {pb : β → Option β'} {R : σ → τ → Prop}
    (own : ∀ s t a a' s' o, R s t → pa a = some a' → M.step s a = some (s', o) →
      ∃ t', N.step t a' = some (t', o.filterMap pb) ∧ R s' t')
    (other : ∀ s t a s' o, R s t → pa a = none → M.step s a = some (s', o) →
      o.filterMap pb = [] ∧ R s' t) :
    ∀ {as : List α} {s s' : σ} {t : τ} {log : List β}, R s t → M.run s as = some (s', log) →
      ∃ t', N.run t (as.filterMap pa) = some (t', log.filterMap pb) ∧ R s' t'
  | [], s, s', t, log, hR, hrun => by
      simp only [run_nil, Option.some.injEq, Prod.mk.injEq] at hrun
      obtain ⟨rfl, rfl⟩ := hrun
      exact ⟨t, rfl, hR⟩
  | a :: as, s, s', t, log, hR, hrun => by
      obtain ⟨m, o, rest, hstep, hrest, rfl⟩ := M.run_cons_eq_some.mp hrun
      cases ha : pa a with
      | none =>
          obtain ⟨ho, hR'⟩ := other s t a m o hR ha hstep
          obtain ⟨t', ht', hRt⟩ := project own other hR' hrest
          refine ⟨t', ?_, hRt⟩
          rw [List.filterMap_cons_none ha, List.filterMap_append, ho, List.nil_append]
          exact ht'
      | some a' =>
          obtain ⟨m', hm', hR'⟩ := own s t a a' m o hR ha hstep
          obtain ⟨t', ht', hRt⟩ := project own other hR' hrest
          refine ⟨t', ?_, hRt⟩
          rw [List.filterMap_cons_some ha, List.filterMap_append]
          exact N.run_cons_eq_some.mpr ⟨m', _, _, hm', ht', rfl⟩

/-! ## Simulation

Each step of `M` is matched by the steps of `N` that `V` says it amounts to; `L` relates
what they put out. -/

variable (M) in
/-- The actions that a run amounts to, where `V` says to which ones each step does. -/
def trace {α' : Type v'} (V : σ → α → σ → List β → List α') : σ → List α → List α'
  | _, [] => []
  | s, a :: as =>
      match M.step s a with
      | none => []
      | some (t, o) => V s a t o ++ trace V t as

theorem trace_cons {α' : Type v'} {V : σ → α → σ → List β → List α'} {s t : σ} {a : α}
    {o : List β} (hstep : M.step s a = some (t, o)) (as : List α) :
    M.trace V s (a :: as) = V s a t o ++ M.trace V t as := by
  rw [trace, hstep]

theorem simulate {τ : Type u'} {α' : Type v'} {β' : Type w'} {N : Machine τ α' β'}
    {V : σ → α → σ → List β → List α'} {R : σ → τ → Prop} {L : List β → List β' → Prop}
    (nil : L [] [])
    (append : ∀ {o o' rest rest'}, L o o' → L rest rest' → L (o ++ rest) (o' ++ rest'))
    (step : ∀ s t a s' o, R s t → M.step s a = some (s', o) →
      ∃ t' o', N.run t (V s a s' o) = some (t', o') ∧ R s' t' ∧ L o o') :
    ∀ {as : List α} {s s' : σ} {t : τ} {log : List β}, R s t → M.run s as = some (s', log) →
      ∃ t' log', N.run t (M.trace V s as) = some (t', log') ∧ R s' t' ∧ L log log' := by
  intro as
  induction as with
  | nil =>
      intro s s' t log hR hrun
      simp only [run_nil, Option.some.injEq, Prod.mk.injEq] at hrun
      obtain ⟨rfl, rfl⟩ := hrun
      exact ⟨t, [], rfl, hR, nil⟩
  | cons a as ih =>
      intro s s' t log hR hrun
      obtain ⟨m, o, rest, hstep, hrest, rfl⟩ := M.run_cons_eq_some.mp hrun
      obtain ⟨t₁, o', hrun₁, hR₁, ho⟩ := step s t a m o hR hstep
      obtain ⟨t₂, rest', hrun₂, hR₂, hlog⟩ := ih hR₁ hrest
      refine ⟨t₂, o' ++ rest', ?_, hR₂, append ho hlog⟩
      rw [trace_cons hstep]
      exact N.run_append_eq_some.mpr ⟨t₁, o', rest', hrun₁, hrun₂, rfl⟩

end Machine

end MagnetX.Lib
