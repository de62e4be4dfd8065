import Mathlib.Data.Option.Basic
import Mathlib.Data.List.Basic

/-!
# Runs of a labelled transition system

A system is a partial step function `step : σ → α → Option σ` over a state type `σ` and an
action type `α`; every choice of the environment is part of the action, so a schedule is a
list of actions and runs can be evaluated.

* `run` — the state after a list of actions, `none` when one of them is not enabled.
* `Meets step G` — every step of the run starts in a state that meets the step condition `G`.
* `run_invariant` / `run_invariant_of_meets` — what one step preserves, a run preserves;
  `meets_of_invariant` — an invariant that implies a step condition.
* `observe` — what an observer of the steps sees of a run, in order.
* `meets_iff_forall` — a step condition that is exact step by step is exact for runs.
* `run_rel` — the same for a reflexive and transitive relation between the states of a run.
* `Reaches step P` — there is a run by actions in `P`: reflexive, transitive, contains the steps,
  with an invariant rule of its own.
* `AlwaysReaches step P Q` — no run by actions in `P` loses the way to `Q`.
-/

set_option autoImplicit false

namespace Trace

variable {σ α : Type*}

/-- The state after the actions `as`, `none` when one of them is not enabled. -/
def run (step : σ → α → Option σ) : σ → List α → Option σ
  | s, [] => some s
  | s, a :: as => (step s a).bind fun t => run step t as

/-- Every step of the run of `as` from `s` starts in a state that meets `G`. -/
def Meets (step : σ → α → Option σ) (G : σ → α → Prop) : σ → List α → Prop
  | _, [] => True
  | s, a :: as => G s a ∧ ∀ t, step s a = some t → Meets step G t as

instance Meets.decide (step : σ → α → Option σ) (G : σ → α → Prop) [∀ s a, Decidable (G s a)] :
    ∀ (s : σ) (as : List α), Decidable (Meets step G s as)
  | _, [] => isTrue trivial
  | s, a :: as =>
    match h : step s a with
    | none => decidable_of_iff (G s a) (by simp [Meets, h])
    | some t =>
      have := Meets.decide step G t as
      decidable_of_iff (G s a ∧ Meets step G t as) (by simp [Meets, h])

/-- What is observed in the run of `as` from `s`, in order. -/
def observe {β : Type*} (step : σ → α → Option σ) (obs : σ → α → Option β) : σ → List α → List β
  | _, [] => []
  | s, a :: as => (obs s a).toList ++
      match step s a with
      | none => []
      | some t => observe step obs t as

variable {step : σ → α → Option σ} {G : σ → α → Prop}

theorem observe_cons {β : Type*} {obs : σ → α → Option β} {s t : σ} {a : α} (h : step s a = some t)
    (as : List α) :
    observe step obs s (a :: as) = (obs s a).toList ++ observe step obs t as := by
  rw [observe, h]

@[simp] theorem run_nil (s : σ) : run step s [] = some s := rfl

theorem run_cons (s : σ) (a : α) (as : List α) :
    run step s (a :: as) = (step s a).bind fun t => run step t as := rfl

theorem run_cons_eq_some {s u : σ} {a : α} {as : List α} :
    run step s (a :: as) = some u ↔ ∃ t, step s a = some t ∧ run step t as = some u := by
  rw [run_cons, Option.bind_eq_some_iff]

theorem run_singleton (s : σ) (a : α) : run step s [a] = step s a := by
  rw [run_cons]
  cases step s a <;> rfl

theorem run_append (s : σ) (as bs : List α) :
    run step s (as ++ bs) = (run step s as).bind fun t => run step t bs := by
  induction as generalizing s with
  | nil => rfl
  | cons a as ih =>
    rw [List.cons_append, run_cons, run_cons, Option.bind_assoc]
    cases step s a with
    | none => rfl
    | some t => exact ih t

theorem run_append_of_eq {s t : σ} {as : List α} (h : run step s as = some t) (bs : List α) :
    run step s (as ++ bs) = run step t bs := by
  rw [run_append, h, Option.bind_some]

theorem run_append_eq_some {s u : σ} {as bs : List α} :
    run step s (as ++ bs) = some u ↔ ∃ t, run step s as = some t ∧ run step t bs = some u := by
  rw [run_append, Option.bind_eq_some_iff]

theorem meets_append {s : σ} {as bs : List α} :
    Meets step G s (as ++ bs) ↔
      Meets step G s as ∧ ∀ t, run step s as = some t → Meets step G t bs := by
  induction as generalizing s with
  | nil => simp [Meets]
  | cons a as ih =>
    simp only [List.cons_append, Meets, ih, run_cons_eq_some, and_assoc]
    constructor
    · rintro ⟨h, hs⟩
      exact ⟨h, fun t ht => (hs t ht).1, fun u ⟨t, ht, hu⟩ => (hs t ht).2 u hu⟩
    · rintro ⟨h, h1, h2⟩
      exact ⟨h, fun t ht => ⟨h1 t ht, fun u hu => h2 u ⟨t, ht, hu⟩⟩⟩

theorem Meets.mono {G' : σ → α → Prop} (hG : ∀ s a, G s a → G' s a) :
    ∀ {s : σ} {as : List α}, Meets step G s as → Meets step G' s as
  | _, [], _ => trivial
  | _, _ :: _, h => ⟨hG _ _ h.1, fun t ht => (h.2 t ht).mono hG⟩

/-- **Invariant rule with a step condition.** -/
theorem run_invariant_of_meets {I : σ → Prop}
    (hstep : ∀ s a t, I s → G s a → step s a = some t → I t) :
    ∀ {s t : σ} {as : List α}, I s → Meets step G s as → run step s as = some t → I t
  | s, t, [], hs, _, h => by
    simp only [run_nil, Option.some.injEq] at h
    exact h ▸ hs
  | s, t, a :: as, hs, hm, h => by
    obtain ⟨u, hu, hrun⟩ := run_cons_eq_some.mp h
    exact run_invariant_of_meets hstep (hstep s a u hs hm.1 hu) (hm.2 u hu) hrun

/-- **Invariant rule.** -/
theorem run_invariant {I : σ → Prop} (hstep : ∀ s a t, I s → step s a = some t → I t) :
    ∀ {s t : σ} {as : List α}, I s → run step s as = some t → I t
  | s, t, [], hs, h => by
    simp only [run_nil, Option.some.injEq] at h
    exact h ▸ hs
  | s, t, a :: as, hs, h => by
    obtain ⟨u, hu, hrun⟩ := run_cons_eq_some.mp h
    exact run_invariant hstep (hstep s a u hs hu) hrun

/-- **An invariant that implies a step condition**, for the runs by actions in `P`. -/
theorem meets_of_invariant {I : σ → Prop} {P : α → Prop}
    (hI : ∀ s a t, I s → P a → step s a = some t → I t) (hG : ∀ s a, I s → P a → G s a) :
    ∀ {s : σ} {as : List α}, I s → (∀ a ∈ as, P a) → Meets step G s as
  | _, [], _, _ => trivial
  | s, a :: as, hs, hP => by
    have ha : P a := hP a List.mem_cons_self
    refine ⟨hG s a hs ha, fun t ht => ?_⟩
    exact meets_of_invariant hI hG (hI s a t hs ha ht) fun b hb => hP b (List.mem_cons_of_mem a hb)

/-- **A step condition that decides a state property.** Where a step from a state in `P` meets `G`
exactly if it ends in `P`, a run meets `G` exactly if all its states are in `P`; the invariant that
this rests on need be kept from the states in `P` only. -/
theorem meets_iff_forall_within {I P : σ → Prop}
    (hinv : ∀ s a t, I s → P s → step s a = some t → I t)
    (hstep : ∀ s a t, I s → P s → step s a = some t → (G s a ↔ P t)) {as : List α} :
    ∀ {s t : σ}, I s → P s → run step s as = some t →
      (Meets step G s as ↔ ∀ bs cs u, as = bs ++ cs → run step s bs = some u → P u) := by
  induction as with
  | nil =>
    intro s t _ hp _
    refine iff_of_true trivial fun bs cs u hsplit hu => ?_
    obtain ⟨rfl, -⟩ := List.append_eq_nil_iff.mp hsplit.symm
    cases hu
    exact hp
  | cons a as ih =>
    intro s t hi hp h
    obtain ⟨v, hv, hrun⟩ := run_cons_eq_some.mp h
    have hmeets : Meets step G s (a :: as) ↔ G s a ∧ Meets step G v as := by
      simp [Meets, hv]
    rw [hmeets]
    constructor
    · rintro ⟨hg, hrest⟩ bs cs u hsplit hu
      have hpv := (hstep s a v hi hp hv).mp hg
      cases bs with
      | nil =>
        cases hu
        exact hp
      | cons b bs =>
        obtain ⟨rfl, rfl⟩ := List.cons_eq_cons.mp hsplit
        rw [run_cons, hv, Option.bind_some] at hu
        exact (ih (hinv s a v hi hp hv) hpv hrun).mp hrest bs cs u rfl hu
    · intro hall
      have hpv : P v := hall [a] as v rfl (by rw [run_singleton, hv])
      refine ⟨(hstep s a v hi hp hv).mpr hpv, (ih (hinv s a v hi hp hv) hpv hrun).mpr ?_⟩
      rintro bs cs u rfl hu
      exact hall (a :: bs) cs u rfl (by rw [run_cons, hv, Option.bind_some, hu])

/-- The same with an invariant of all runs. -/
theorem meets_iff_forall {I P : σ → Prop} (hinv : ∀ s a t, I s → step s a = some t → I t)
    (hstep : ∀ s a t, I s → P s → step s a = some t → (G s a ↔ P t)) {as : List α} {s t : σ}
    (hi : I s) (hp : P s) (h : run step s as = some t) :
    Meets step G s as ↔ ∀ bs cs u, as = bs ++ cs → run step s bs = some u → P u :=
  meets_iff_forall_within (fun s a t hs _ ht => hinv s a t hs ht) hstep hi hp h

/-- A reflexive and transitive relation that holds across every step (from a state in the
invariant `I`) holds between the ends of a run. -/
theorem run_rel {I : σ → Prop} {R : σ → σ → Prop} (hrefl : ∀ s, R s s)
    (htrans : ∀ s t u, R s t → R t u → R s u)
    (hinv : ∀ s a t, I s → step s a = some t → I t)
    (hstep : ∀ s a t, I s → step s a = some t → R s t) :
    ∀ {s t : σ} {as : List α}, I s → run step s as = some t → R s t
  | s, t, [], _, h => by
    simp only [run_nil, Option.some.injEq] at h
    exact h ▸ hrefl s
  | s, t, a :: as, hs, h => by
    obtain ⟨u, hu, hrun⟩ := run_cons_eq_some.mp h
    exact htrans s u t (hstep s a u hs hu)
      (run_rel hrefl htrans hinv hstep (hinv s a u hs hu) hrun)

/-- Some run by actions in `P` leads from `s` to `t`. -/
def Reaches (step : σ → α → Option σ) (P : α → Prop) (s t : σ) : Prop :=
  ∃ as, (∀ a ∈ as, P a) ∧ run step s as = some t

variable {P : α → Prop}

theorem Reaches.refl (s : σ) : Reaches step P s s := ⟨[], by simp, rfl⟩

theorem Reaches.single {s t : σ} {a : α} (ha : P a) (h : step s a = some t) :
    Reaches step P s t :=
  ⟨[a], by simpa using ha, (run_singleton s a).trans h⟩

theorem Reaches.trans {s t u : σ} (h : Reaches step P s t) (h' : Reaches step P t u) :
    Reaches step P s u := by
  obtain ⟨as, has, hrun⟩ := h
  obtain ⟨bs, hbs, hrun'⟩ := h'
  refine ⟨as ++ bs, fun a ha => ?_, ?_⟩
  · rcases List.mem_append.mp ha with ha | ha
    · exact has a ha
    · exact hbs a ha
  · rw [run_append_of_eq hrun]
    exact hrun'

theorem Reaches.mono {Q : α → Prop} (hPQ : ∀ a, P a → Q a) {s t : σ} (h : Reaches step P s t) :
    Reaches step Q s t := by
  obtain ⟨as, has, hrun⟩ := h
  exact ⟨as, fun a ha => hPQ a (has a ha), hrun⟩

/-- **Invariant rule for the runs by actions in `P`.** -/
theorem Reaches.invariant {I : σ → Prop} (hI : ∀ s a t, I s → P a → step s a = some t → I t)
    {s t : σ} (hs : I s) (h : Reaches step P s t) : I t := by
  obtain ⟨as, has, hrun⟩ := h
  induction as generalizing s with
  | nil =>
    simp only [run_nil, Option.some.injEq] at hrun
    exact hrun ▸ hs
  | cons a as ih =>
    obtain ⟨u, hu, hrest⟩ := run_cons_eq_some.mp hrun
    exact ih (hI s a u hs (has a List.mem_cons_self) hu)
      (fun b hb => has b (List.mem_cons_of_mem a hb)) hrest

/-- Whatever run by actions in `P` was made from `s`, another one leads on to a state in `Q`. -/
def AlwaysReaches (step : σ → α → Option σ) (P : α → Prop) (Q : σ → Prop) (s : σ) : Prop :=
  ∀ t, Reaches step P s t → ∃ u, Reaches step P t u ∧ Q u

/-- **Progress rule.** Where an invariant holds that always leaves a way to `Q`. -/
theorem AlwaysReaches.of_invariant {I Q : σ → Prop}
    (hI : ∀ s a t, I s → P a → step s a = some t → I t)
    (hprogress : ∀ s, I s → ∃ t, Reaches step P s t ∧ Q t) {s : σ} (hs : I s) :
    AlwaysReaches step P Q s :=
  fun t ht => hprogress t (ht.invariant hI hs)

/-- An invariant that excludes `Q`. -/
theorem AlwaysReaches.not_of_invariant {I Q : σ → Prop}
    (hI : ∀ s a t, I s → P a → step s a = some t → I t) (hno : ∀ s, I s → ¬ Q s) {s : σ}
    (hs : I s) : ¬ AlwaysReaches step P Q s := by
  intro h
  obtain ⟨t, ht, hq⟩ := h s (.refl s)
  exact hno t (ht.invariant hI hs) hq

end Trace
