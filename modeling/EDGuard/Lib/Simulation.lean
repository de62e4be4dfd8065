import EDGuard.Lib.Trace

/-!
# Simulations and projections of runs

Of each step an observer sees at most one action of another system.

* `Simulates` — from related states, a step is matched by the step that is observed.
* `Simulates.run` — **a run is matched by the run that is observed**.
* `Projects` — a simulation that is a map `view` of the states.
* `observe_eq_filterMap` — an observer who looks at the actions only.
* `run_total` — a system whose steps are a function.
-/

set_option autoImplicit false

namespace Trace

variable {σ α τ β : Type*} {step : σ → α → Option σ} {step' : τ → β → Option τ}
  {I : σ → Prop} {view : σ → τ} {obs : σ → α → Option β}

/-- Related states stay related: a step from the one is matched by the step observed from the
other. -/
def Simulates (step : σ → α → Option σ) (step' : τ → β → Option τ) (R : σ → τ → Prop)
    (obs : σ → α → Option β) : Prop :=
  ∀ s a t r, R s r → step s a = some t → ∃ r', run step' r (obs s a).toList = some r' ∧ R t r'

theorem Simulates.run {R : σ → τ → Prop} (h : Simulates step step' R obs) {as : List α} :
    ∀ {s t : σ} {r : τ}, R s r → run step s as = some t →
      ∃ r', Trace.run step' r (observe step obs s as) = some r' ∧ R t r' := by
  induction as with
  | nil =>
    intro s t r hr hrun
    obtain rfl : s = t := Option.some.inj hrun
    exact ⟨r, rfl, hr⟩
  | cons a as ih =>
    intro s t r hr hrun
    obtain ⟨u, hu, hrest⟩ := run_cons_eq_some.mp hrun
    obtain ⟨r₁, hr₁, hrel⟩ := h s a u r hr hu
    obtain ⟨r₂, hr₂, hend⟩ := ih hrel hrest
    refine ⟨r₂, ?_, hend⟩
    rw [observe_cons hu, run_append_of_eq hr₁]
    exact hr₂

/-- In the states of an invariant, the step in view is the one that is observed. -/
structure Projects (step : σ → α → Option σ) (I : σ → Prop) (step' : τ → β → Option τ)
    (view : σ → τ) (obs : σ → α → Option β) : Prop where
  inv : ∀ s a t, I s → step s a = some t → I t
  step : ∀ s a t, I s → step s a = some t → run step' (view s) (obs s a).toList = some (view t)

namespace Projects

variable (h : Projects step I step' view obs)
include h

theorem simulates : Simulates step step' (fun s r => I s ∧ view s = r) obs := by
  rintro s a t r ⟨hs, rfl⟩ ht
  exact ⟨view t, h.step s a t hs ht, h.inv s a t hs ht, rfl⟩

theorem run {as : List α} {s t : σ} (hs : I s) (hrun : Trace.run step s as = some t) :
    Trace.run step' (view s) (observe step obs s as) = some (view t) := by
  obtain ⟨_, hr, _, rfl⟩ := h.simulates.run ⟨hs, rfl⟩ hrun
  exact hr

/-- What the steps in view keep that meet a step condition. -/
theorem invariant_of {J : τ → Prop} {G' : τ → β → Prop}
    (hJ : ∀ s b t, J s → G' s b → step' s b = some t → J t) {s t : σ} {a : α} (hs : I s)
    (hj : J (view s)) (hG : ∀ b ∈ obs s a, G' (view s) b) (hst : step s a = some t) :
    J (view t) := by
  have hrun := h.step s a t hs hst
  cases hb : obs s a with
  | none =>
    rw [hb] at hrun
    exact Option.some.inj hrun ▸ hj
  | some b =>
    rw [hb] at hrun
    exact hJ (view s) b (view t) hj (hG b hb) ((run_singleton _ _).symm.trans hrun)

/-- What the steps in view keep. -/
theorem invariant {J : τ → Prop} (hJ : ∀ s b t, J s → step' s b = some t → J t) {s t : σ} {a : α}
    (hs : I s) (hj : J (view s)) (hst : step s a = some t) : J (view t) :=
  h.invariant_of (fun s b t hj (_ : True) ht => hJ s b t hj ht) hs hj (fun _ _ => trivial) hst

end Projects

theorem observe_eq_filterMap {f : α → Option β} {as : List α} : ∀ {s t : σ},
    run step s as = some t → observe step (fun _ a => f a) s as = as.filterMap f := by
  induction as with
  | nil =>
    intro s t _
    rfl
  | cons a as ih =>
    intro s t hrun
    obtain ⟨u, hu, hrest⟩ := run_cons_eq_some.mp hrun
    rw [observe_cons hu, ih hrest, List.filterMap_cons]
    cases f a <;> rfl

/-- A system whose steps are a function goes where the fold goes. -/
theorem run_total (f : τ → β → τ) (bs : List β) :
    ∀ r : τ, Trace.run (fun r b => some (f r b)) r bs = some (bs.foldl f r) := by
  induction bs with
  | nil => exact fun _ => rfl
  | cons b bs ih => exact fun r => ih (f r b)

end Trace
