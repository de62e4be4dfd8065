import EDGuard.Lib.Trace
import Mathlib.Algebra.BigOperators.Intervals

/-!
# Systems that settle

A potential is a number that every step takes at least one from, once what the environment put in
with the action is added.

* `total` — the weight of a table; `sum_map_set`, for a list.
* `Potential` — an invariant, a step condition and a potential that go together.
* `Potential.length_le` — **a run is no longer than its potential** and what was put in.
* `Settles` — no run goes on for more than `n` steps, and where one cannot go on, `Q` holds.
* `Potential.settles` — a system with a potential settles; `Settles.exists_end`: there is such an
  end.
* `tally_balance` — what each step balances is balanced over a run.
-/

set_option autoImplicit false

/-- Changing one element of a list changes its total by that element. -/
theorem sum_map_set {α : Type} (f : α → Nat) {l : List α} : ∀ {k : Nat} {a : α} (b : α),
    l[k]? = some a → ((l.set k b).map f).sum + f a = (l.map f).sum + f b := by
  induction l with
  | nil =>
    intro k a b h
    cases h
  | cons x l ih =>
    intro k a b h
    cases k with
    | zero =>
      obtain rfl : x = a := Option.some.inj h
      simp only [List.set_cons_zero, List.map_cons, List.sum_cons]
      omega
    | succ k =>
      have hrest := ih b (h : l[k]? = some a)
      simp only [List.set_cons_succ, List.map_cons, List.sum_cons]
      omega

/-- The weight of the first `N` entries of a table. -/
def total {β : Type} (N : Nat) (w : β → Nat) (f : Nat → β) : Nat := ∑ i ∈ Finset.range N, w (f i)

section

variable {β : Type} {N : Nat} {w : β → Nat} {f : Nat → β}

theorem total_const (b : β) : total N w (fun _ => b) = N * w b := by
  rw [total, Finset.sum_const_nat fun _ _ => rfl, Finset.card_range]

/-- Changing one entry of a table changes its weight by that entry. -/
theorem total_update {i : Nat} (hi : i < N) (b : β) :
    total N w (Function.update f i b) + w (f i) = total N w f + w b := by
  have hmem : i ∈ Finset.range N := Finset.mem_range.mpr hi
  have hrest : ∑ j ∈ (Finset.range N).erase i, w (Function.update f i b j) =
      ∑ j ∈ (Finset.range N).erase i, w (f j) := by
    refine Finset.sum_congr rfl fun j hj => ?_
    rw [Function.update_of_ne (Finset.ne_of_mem_erase hj)]
  unfold total
  rw [← Finset.add_sum_erase _ _ hmem, hrest, Function.update_self,
    ← Finset.add_sum_erase _ (fun j => w (f j)) hmem]
  omega

theorem total_update_le (i : Nat) (b : β) :
    total N w (Function.update f i b) ≤ total N w f + w b := by
  by_cases hi : i < N
  · have hsum := total_update (w := w) (f := f) hi b
    omega
  · have hsame : total N w (Function.update f i b) = total N w f := by
      refine Finset.sum_congr rfl fun j hj => ?_
      rw [Function.update_of_ne]
      rintro rfl
      exact hi (Finset.mem_range.mp hj)
    rw [hsame]
    exact Nat.le_add_right _ _

end

namespace Trace

variable {σ α : Type*} {step : σ → α → Option σ} {I : σ → Prop} {G : σ → α → Prop}

theorem meets_of_forall (hG : ∀ s a, G s a) : ∀ {s : σ} {as : List α}, Meets step G s as
  | _, [] => trivial
  | _, a :: _ => ⟨hG _ a, fun _ _ => meets_of_forall hG⟩

theorem forall_of_meets {P : α → Prop} : ∀ {s t : σ} {as : List α},
    Meets step (fun _ a => P a) s as → run step s as = some t → ∀ a ∈ as, P a
  | _, _, [], _, _, _, ha => nomatch ha
  | s, t, b :: as, hm, h, a, ha => by
    obtain ⟨u, hu, hrest⟩ := run_cons_eq_some.mp h
    rcases List.mem_cons.mp ha with rfl | ha
    · exact hm.1
    · exact forall_of_meets (hm.2 u hu) hrest a ha

/-- In the states of `I`, the steps that meet `G` stay there and use up the potential `φ`, to which
an action adds its `gain`. -/
structure Potential (step : σ → α → Option σ) (I : σ → Prop) (G : σ → α → Prop) (φ : σ → Nat)
    (gain : α → Nat) : Prop where
  inv : ∀ s a t, I s → G s a → step s a = some t → I t
  uses : ∀ s a t, I s → G s a → step s a = some t → φ t + 1 ≤ φ s + gain a

namespace Potential

variable {φ : σ → Nat} {gain : α → Nat}

theorem length_le (h : Potential step I G φ gain) {as : List α} : ∀ {s t : σ}, I s →
    Meets step G s as → run step s as = some t →
      as.length + φ t ≤ φ s + (as.map gain).sum := by
  induction as with
  | nil =>
    intro s t _ _ hrun
    obtain rfl : s = t := Option.some.inj hrun
    simp
  | cons a as ih =>
    intro s t hs hm hrun
    obtain ⟨u, hu, hrest⟩ := run_cons_eq_some.mp hrun
    have hstep := h.uses s a u hs hm.1 hu
    have htail := ih (h.inv s a u hs hm.1 hu) (hm.2 u hu) hrest
    rw [List.length_cons, List.map_cons, List.sum_cons]
    omega

end Potential

/-- No step that meets `G` is enabled. -/
def Stuck (step : σ → α → Option σ) (G : σ → α → Prop) (s : σ) : Prop :=
  ∀ a, G s a → step s a = none

/-- Every run from `s` whose steps meet `G` has at most `n` of them, and where it cannot go on, `Q`
holds. -/
def Settles (step : σ → α → Option σ) (G : σ → α → Prop) (Q : σ → Prop) (n : Nat) (s : σ) : Prop :=
  ∀ as t, Meets step G s as → run step s as = some t →
    as.length ≤ n ∧ (Stuck step G t → Q t)

/-- **A potential that nothing is added to is used up.** -/
theorem Potential.settles {φ : σ → Nat} {gain : α → Nat} {Q : σ → Prop}
    (h : Potential step I G φ gain) (hgain : ∀ s a, G s a → gain a = 0)
    (hQ : ∀ s, I s → Stuck step G s → Q s) {s : σ} (hs : I s) : Settles step G Q (φ s) s := by
  intro as t hm hrun
  have hsum : ∀ {as : List α} {s t : σ}, Meets step G s as → run step s as = some t →
      (as.map gain).sum = 0 := by
    intro as
    induction as with
    | nil =>
      intro s t _ _
      rfl
    | cons a as ih =>
      intro s t hm hrun
      obtain ⟨u, hu, hrest⟩ := run_cons_eq_some.mp hrun
      rw [List.map_cons, List.sum_cons, hgain s a hm.1, ih (hm.2 u hu) hrest]
  have hlen := h.length_le hs hm hrun
  rw [hsum hm hrun] at hlen
  exact ⟨by omega, hQ t (run_invariant_of_meets h.inv hs hm hrun)⟩

namespace Settles

variable {Q : σ → Prop} {n : Nat}

theorem step_of {s t : σ} {a : α} (h : Settles step G Q (n + 1) s) (ha : G s a)
    (hst : step s a = some t) : Settles step G Q n t := by
  intro as u hm hrun
  have hcons : Meets step G s (a :: as) := ⟨ha, fun v hv => by
    obtain rfl : t = v := Option.some.inj (hst.symm.trans hv)
    exact hm⟩
  obtain ⟨hlen, hq⟩ := h (a :: as) u hcons (run_cons_eq_some.mpr ⟨t, hst, hrun⟩)
  rw [List.length_cons] at hlen
  exact ⟨by omega, hq⟩

/-- **The end is reached**, whatever steps are taken on the way. -/
theorem exists_end : ∀ {n : Nat} {s : σ}, Settles step G Q n s → ∃ as t, Meets step G s as ∧
    run step s as = some t ∧ Stuck step G t ∧ Q t := by
  intro n
  induction n with
  | zero =>
    intro s h
    have hstuck : Stuck step G s := by
      intro a ha
      cases hst : step s a with
      | none => rfl
      | some t =>
        obtain ⟨hlen, _⟩ := h [a] t ⟨ha, fun _ _ => trivial⟩ ((run_singleton s a).trans hst)
        simp at hlen
    exact ⟨[], s, trivial, rfl, hstuck, (h [] s trivial rfl).2 hstuck⟩
  | succ n ih =>
    intro s h
    by_cases hstuck : Stuck step G s
    · exact ⟨[], s, trivial, rfl, hstuck, (h [] s trivial rfl).2 hstuck⟩
    · obtain ⟨a, hstuck⟩ := not_forall.mp hstuck
      obtain ⟨ha, hst⟩ := Classical.not_imp.mp hstuck
      obtain ⟨t, ht⟩ := Option.ne_none_iff_exists'.mp hst
      obtain ⟨as, u, hm, hrun, hend⟩ := ih (h.step_of ha ht)
      refine ⟨a :: as, u, ⟨ha, fun v hv => ?_⟩, run_cons_eq_some.mpr ⟨t, ht, hrun⟩, hend⟩
      obtain rfl : t = v := Option.some.inj (ht.symm.trans hv)
      exact hm

end Settles

/-! ## Ledgers -/

/-- What the steps of a run are charged, together. -/
def tally (step : σ → α → Option σ) (charge : σ → α → Nat) : σ → List α → Nat
  | _, [] => 0
  | s, a :: as => charge s a +
      match step s a with
      | none => 0
      | some t => tally step charge t as

theorem tally_cons {charge : σ → α → Nat} {s t : σ} {a : α} (h : step s a = some t)
    (as : List α) : tally step charge s (a :: as) = charge s a + tally step charge t as := by
  rw [tally, h]

/-- **A ledger is balanced over a run** that is balanced at each step. -/
theorem tally_balance {φ ψ : σ → Nat} {paid due : σ → α → Nat}
    (h : ∀ s a t, step s a = some t → φ t + ψ s + paid s a = φ s + ψ t + due s a)
    {as : List α} : ∀ {s t : σ}, run step s as = some t →
      φ t + ψ s + tally step paid s as = φ s + ψ t + tally step due s as := by
  induction as with
  | nil =>
    intro s t hrun
    obtain rfl : s = t := Option.some.inj hrun
    rfl
  | cons a as ih =>
    intro s t hrun
    obtain ⟨u, hu, hrest⟩ := run_cons_eq_some.mp hrun
    have hstep := h s a u hu
    have htail := ih hrest
    rw [tally_cons hu, tally_cons hu]
    omega

end Trace
