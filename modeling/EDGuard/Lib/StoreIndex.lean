import Mathlib.Logic.Function.Basic
import Mathlib.Data.Option.Basic

/-!
# A store and an index over it

A store `K → Option V` and an index `J → Option W` that is kept beside it: the index should have
an entry under `key v` for every stored value `v` and no other, and every entry should carry
(`val`) a value that is stored.  Different stored values may share a key, so neither overwriting
nor removing a value keeps the agreement in general.

* `EntryOk` — one entry of the index is right; `Agrees` — all are.
* `entryOk_insert_iff`, `agrees_remove_iff` — exactly when storing and removing keep the agreement.
-/

set_option autoImplicit false

namespace StoreIndex

variable {K V J W : Type*} (key : V → J) (val : V → W → Prop)

/-- The entry of the index under `j` is right. -/
def EntryOk (store : K → Option V) (j : J) : Option W → Prop
  | none => ∀ k v, store k = some v → key v ≠ j
  | some w => ∃ k v, store k = some v ∧ key v = j ∧ val v w

/-- Every entry of the index is right. -/
def Agrees (store : K → Option V) (index : J → Option W) : Prop :=
  ∀ j, EntryOk key val store j (index j)

variable {key val} {store : K → Option V}

theorem EntryOk.isSome_iff {j : J} {o : Option W} (h : EntryOk key val store j o) :
    o.isSome ↔ ∃ k v, store k = some v ∧ key v = j := by
  cases o with
  | none =>
    constructor
    · intro hs
      cases hs
    · rintro ⟨k, v, hk, hv⟩
      exact absurd hv (h k v hk)
  | some w =>
    obtain ⟨k, v, hk, hv, _⟩ := h
    exact ⟨fun _ => ⟨k, v, hk, hv⟩, fun _ => rfl⟩

theorem agrees_iff {index : J → Option W} : Agrees key val store index ↔
    (∀ j, (index j).isSome ↔ ∃ k v, store k = some v ∧ key v = j) ∧
      ∀ j w, index j = some w → ∃ k v, store k = some v ∧ key v = j ∧ val v w := by
  constructor
  · intro h
    refine ⟨fun j => (h j).isSome_iff, fun j w hw => ?_⟩
    have hj := h j
    rw [hw] at hj
    exact hj
  · rintro ⟨hkeys, hvals⟩ j
    cases hw : index j with
    | none =>
      intro k v hk hv
      have hsome := (hkeys j).mpr ⟨k, v, hk, hv⟩
      rw [hw] at hsome
      cases hsome
    | some w => exact hvals j w hw

variable [DecidableEq K]

/-- **Storing `v` under `k` keeps the entry under another key** if and only if the entry does not
hang on the value that was overwritten. -/
theorem entryOk_insert_iff {k : K} {v : V} {j : J} {o : Option W}
    (h : EntryOk key val store j o) (hj : key v ≠ j) :
    EntryOk key val (Function.update store k (some v)) j o ↔
      ∀ v₀ w, store k = some v₀ → key v₀ = j → o = some w →
        ∃ k' v', k' ≠ k ∧ store k' = some v' ∧ key v' = j ∧ val v' w := by
  constructor
  · rintro hnew v₀ w _ _ rfl
    obtain ⟨k', v', hk', hv', hw⟩ := hnew
    have hne : k' ≠ k := by
      rintro rfl
      rw [Function.update_self] at hk'
      cases hk'
      exact hj hv'
    rw [Function.update_of_ne hne] at hk'
    exact ⟨k', v', hne, hk', hv', hw⟩
  · intro hover
    cases o with
    | none =>
      intro k' v' hk' hv'
      rcases eq_or_ne k' k with rfl | hne
      · rw [Function.update_self] at hk'
        cases hk'
        exact hj hv'
      · rw [Function.update_of_ne hne] at hk'
        exact h k' v' hk' hv'
    | some w =>
      have hother : ∃ k' v', k' ≠ k ∧ store k' = some v' ∧ key v' = j ∧ val v' w := by
        obtain ⟨k', v', hk', hv', hw⟩ := h
        rcases eq_or_ne k' k with rfl | hne
        · exact hover v' w hk' hv' rfl
        · exact ⟨k', v', hne, hk', hv', hw⟩
      obtain ⟨k', v', hne, hk', hv', hw⟩ := hother
      exact ⟨k', v', by rw [Function.update_of_ne hne]; exact hk', hv', hw⟩

/-- Removing a value keeps the entries under the other keys. -/
theorem entryOk_remove {k : K} {v : V} {j : J} {o : Option W} (hk : store k = some v)
    (h : EntryOk key val store j o) (hj : key v ≠ j) :
    EntryOk key val (Function.update store k none) j o := by
  cases o with
  | none =>
    intro k' v' hk'
    rcases eq_or_ne k' k with rfl | hne
    · rw [Function.update_self] at hk'
      cases hk'
    · rw [Function.update_of_ne hne] at hk'
      exact h k' v' hk'
  | some w =>
    obtain ⟨k', v', hk', hv', hw⟩ := h
    have hne : k' ≠ k := by
      rintro rfl
      rw [hk] at hk'
      cases hk'
      exact hj hv'
    exact ⟨k', v', by rw [Function.update_of_ne hne]; exact hk', hv', hw⟩

/-- **Removing a value and its key keeps the agreement** if and only if no other stored value has
the key. -/
theorem agrees_remove_iff [DecidableEq J] {index index' : J → Option W} {k : K} {v : V}
    (h : Agrees key val store index) (hk : store k = some v)
    (hindex : ∀ j, index' j = if j = key v then none else index j) :
    Agrees key val (Function.update store k none) index' ↔
      ∀ k' v', k' ≠ k → store k' = some v' → key v' ≠ key v := by
  constructor
  · intro hnew k' v' hne hk'
    have hnone := hnew (key v)
    rw [hindex, if_pos rfl] at hnone
    exact hnone k' v' (by rw [Function.update_of_ne hne]; exact hk')
  · intro halone j
    rw [hindex]
    rcases eq_or_ne j (key v) with rfl | hj
    · rw [if_pos rfl]
      intro k' v' hk'
      rcases eq_or_ne k' k with rfl | hne
      · rw [Function.update_self] at hk'
        cases hk'
      · rw [Function.update_of_ne hne] at hk'
        exact halone k' v' hne hk'
    · rw [if_neg hj]
      exact entryOk_remove hk (h j) (Ne.symm hj)

end StoreIndex
