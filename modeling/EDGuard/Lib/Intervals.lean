import Mathlib.Algebra.BigOperators.Intervals
import Mathlib.Algebra.Order.BigOperators.Group.Finset

/-!
# Logs of intervals

* `Apart` — a log of intervals that do not overlap.
* `Apart.sum_le` — **together they are no longer than the time that has passed**.
* `sum_eq_sum_lanes`, `sum_le_of_lanes` — a log that is divided into lanes.
-/

set_option autoImplicit false

namespace Intervals

variable {α κ : Type*} {start stop : α → Nat} {now : Nat} {xs : List α}

/-- A log of intervals, newest first: each has ended by now, and begins after those below it have
ended. -/
structure Apart (start stop : α → Nat) (now : Nat) (xs : List α) : Prop where
  ended : ∀ x ∈ xs, start x ≤ stop x ∧ stop x ≤ now
  pairwise : xs.Pairwise fun x y => stop y ≤ start x

namespace Apart

theorem nil : Apart start stop now [] where
  ended := fun _ hx => nomatch hx
  pairwise := .nil

/-- Time passes. -/
theorem mono {later : Nat} (h : Apart start stop now xs) (hle : now ≤ later) :
    Apart start stop later xs where
  ended := fun x hx => ⟨(h.ended x hx).1, (h.ended x hx).2.trans hle⟩
  pairwise := h.pairwise

/-- An interval that has begun after the others ends now. -/
theorem cons {x : α} (h : Apart start stop (start x) xs) (hx : start x ≤ stop x)
    (hnow : stop x ≤ now) : Apart start stop now (x :: xs) where
  ended := by
    intro y hy
    rcases List.mem_cons.mp hy with rfl | hy
    · exact ⟨hx, hnow⟩
    · exact ⟨(h.ended y hy).1, (h.ended y hy).2.trans (hx.trans hnow)⟩
  pairwise := List.pairwise_cons.mpr ⟨fun y hy => (h.ended y hy).2, h.pairwise⟩

/-- **Intervals that do not overlap** are together no longer than the time that has passed. -/
theorem sum_le : ∀ {xs : List α} {now : Nat}, Apart start stop now xs →
    (xs.map fun x => stop x - start x).sum ≤ now := by
  intro xs
  induction xs with
  | nil =>
    intro now _
    exact Nat.zero_le now
  | cons x xs ih =>
    intro now h
    obtain ⟨hbefore, hrest⟩ := List.pairwise_cons.mp h.pairwise
    obtain ⟨hx, hnow⟩ := h.ended x List.mem_cons_self
    have hsum : (xs.map fun y => stop y - start y).sum ≤ start x :=
      ih ⟨fun y hy => ⟨(h.ended y (List.mem_cons_of_mem x hy)).1, hbefore y hy⟩, hrest⟩
    simp only [List.map_cons, List.sum_cons]
    omega

end Apart

/-! ## Lanes -/

section

variable [DecidableEq κ] {key : α → κ} {len : α → Nat} {K : Finset κ}

theorem sum_eq_sum_lanes : ∀ {xs : List α}, (∀ x ∈ xs, key x ∈ K) →
    (xs.map len).sum = ∑ k ∈ K, ((xs.filter fun x => key x = k).map len).sum := by
  intro xs
  induction xs with
  | nil =>
    intro _
    simp
  | cons x xs ih =>
    intro hkey
    have hsplit : ∀ k, (((x :: xs).filter fun x => key x = k).map len).sum =
        (if key x = k then len x else 0) + ((xs.filter fun x => key x = k).map len).sum := by
      intro k
      by_cases hk : key x = k <;> simp [hk]
    have hx : key x ∈ K := hkey x List.mem_cons_self
    simp only [hsplit, Finset.sum_add_distrib, Finset.sum_ite_eq, hx, ↓reduceIte, List.map_cons,
      List.sum_cons]
    rw [ih fun y hy => hkey y (List.mem_cons_of_mem x hy)]

/-- Lanes that are no longer than `n` each. -/
theorem sum_le_of_lanes {n : Nat} (hkey : ∀ x ∈ xs, key x ∈ K)
    (hlane : ∀ k, ((xs.filter fun x => key x = k).map len).sum ≤ n) :
    (xs.map len).sum ≤ K.card * n := by
  rw [sum_eq_sum_lanes hkey, ← Nat.nsmul_eq_mul]
  exact Finset.sum_le_card_nsmul K _ n fun k _ => hlane k

end

end Intervals
