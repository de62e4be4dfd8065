import Mathlib.Data.List.GetD
import Mathlib.Data.Set.Function
import EDGuard.Lib.Memory

/-!
# Texts in fields of a fixed width

* `pad` — the field that holds a text: zeros behind it, or its beginning when it is too long.
* `LongestNulFree`, `longestNulFree_cstr` — **what is read back from a field** is the longest
  beginning without a NUL.
* `Blanked`, `blanked_pad_cstr` — **what is left of a field** that is read and written again.
* `LongestNulFree.eq_self_iff`, `Blanked.eq_self_iff` — which texts and which fields survive this.
* `pad_injOn` — texts that fit, and have no NUL inside, are told apart.
-/

set_option autoImplicit false

namespace FixedText

variable {n : Nat} {s t : List UInt8} {a b : Vector UInt8 n}

def pad (n : Nat) (s : List UInt8) : Vector UInt8 n := Vector.ofFn fun i => s.getD i 0

/-- `t` is the longest beginning of `s` without a NUL. -/
structure LongestNulFree (s t : List UInt8) : Prop where
  start : t <+: s
  noNul : 0 ∉ t
  longest : ∀ u, u <+: s → 0 ∉ u → u <+: t

/-- `b` is `a` with zeros behind the first NUL. -/
structure Blanked (a b : Vector UInt8 n) : Prop where
  kept : ∀ j, (∀ i < j, a.get i ≠ 0) → b.get j = a.get j
  blank : ∀ i j, i < j → a.get i = 0 → b.get j = 0

def ZeroPadded (a : Vector UInt8 n) : Prop := ∀ i j, i < j → a.get i = 0 → a.get j = 0

theorem get_pad (n : Nat) (s : List UInt8) (j : Fin n) : (pad n s).get j = s.getD j 0 :=
  Vector.getElem_ofFn j.isLt

theorem toList_pad (n : Nat) (s : List UInt8) :
    (pad n s).toList = s.take n ++ List.replicate (n - s.length) 0 := by
  refine List.ext_getElem (by simp; omega) fun j h1 h2 => ?_
  have hj : j < n := by simpa using h1
  have hget : (pad n s).toList[j] = s.getD j 0 := by simp [pad]
  rw [hget, List.getElem_append]
  by_cases hlt : j < s.length
  · rw [dif_pos (by simp; omega), List.getElem_take, List.getD_eq_getElem _ _ hlt]
  · rw [dif_neg (by simp; omega), List.getElem_replicate, List.getD_eq_default _ _ (by omega)]

/-! ## From a text to a field and back -/

theorem cstr_pad (n : Nat) (s : List UInt8) : cstr (pad n s).toList = cstr (s.take n) := by
  rw [toList_pad]
  cases hk : n - s.length with
  | zero => simp
  | succ k =>
    rw [List.replicate_succ]
    exact cstr_append_zero _ _

theorem longestNulFree_cstr (s : List UInt8) : LongestNulFree s (cstr s) := by
  refine ⟨List.takeWhile_prefix _, ?_, ?_⟩
  · intro h0
    have hne := List.mem_takeWhile_imp h0
    simp at hne
  · rintro u ⟨v, rfl⟩ hu
    have hall : ∀ b ∈ u, decide (b ≠ 0) = true := by
      intro b hb
      apply decide_eq_true
      rintro rfl
      exact hu hb
    unfold cstr
    rw [List.takeWhile_append_of_pos hall]
    exact List.prefix_append u _

/-- **A text survives** exactly if it fits and has no NUL inside. -/
theorem LongestNulFree.eq_self_iff (h : LongestNulFree (s.take n) t) :
    t = s ↔ s.length ≤ n ∧ 0 ∉ s := by
  constructor
  · rintro rfl
    have hlen := h.start.length_le
    rw [List.length_take] at hlen
    exact ⟨by omega, h.noNul⟩
  · rintro ⟨hlen, h0⟩
    rw [List.take_of_length_le hlen] at h
    exact h.start.sublist.antisymm (h.longest s List.prefix_rfl h0).sublist

theorem pad_injOn (n : Nat) : Set.InjOn (pad n) {s | s.length ≤ n ∧ 0 ∉ s} := by
  have hback : ∀ s : List UInt8, s.length ≤ n ∧ 0 ∉ s → cstr (pad n s).toList = s := by
    intro s hs
    rw [cstr_pad]
    exact (longestNulFree_cstr (s.take n)).eq_self_iff.mpr hs
  intro s hs t ht heq
  rw [← hback s hs, ← hback t ht, heq]

/-! ## From a field to a text and back -/

theorem getD_cstr (s : List UInt8) (j : Nat) :
    ((∀ i < j, s.getD i 0 ≠ 0) → (cstr s).getD j 0 = s.getD j 0) ∧
      ∀ i < j, s.getD i 0 = 0 → (cstr s).getD j 0 = 0 := by
  induction s generalizing j with
  | nil => simp [cstr]
  | cons b s ih =>
    by_cases hb : b = 0
    · subst hb
      have hnil : cstr (0 :: s) = [] := by simp [cstr]
      rw [hnil]
      refine ⟨fun hall => ?_, fun _ _ _ => rfl⟩
      cases j with
      | zero => rfl
      | succ k => exact absurd rfl (hall 0 (Nat.succ_pos k))
    · have hcons : cstr (b :: s) = b :: cstr s := by simp [cstr, hb]
      rw [hcons]
      cases j with
      | zero => exact ⟨fun _ => rfl, fun i hi => absurd hi (Nat.not_lt_zero i)⟩
      | succ k =>
        obtain ⟨hkept, hblank⟩ := ih k
        constructor
        · intro hall
          exact hkept fun i hi => hall (i + 1) (Nat.succ_lt_succ hi)
        · intro i hi h0
          cases i with
          | zero => exact absurd h0 hb
          | succ i => exact hblank i (Nat.lt_of_succ_lt_succ hi) h0

theorem blanked_pad_cstr (a : Vector UInt8 n) : Blanked a (pad n (cstr a.toList)) := by
  have hget : ∀ j : Fin n, a.get j = a.toList.getD j 0 := by
    intro j
    rw [List.getD_eq_getElem _ _ (by simp), Vector.getElem_toList]
    rfl
  refine ⟨fun j hall => ?_, fun i j hij h0 => ?_⟩
  · rw [get_pad, hget j]
    apply (getD_cstr a.toList j).1
    intro i hi
    have hne := hall ⟨i, hi.trans j.isLt⟩ hi
    rwa [hget] at hne
  · rw [hget] at h0
    rw [get_pad]
    exact (getD_cstr a.toList j).2 i hij h0

/-- **A field survives** exactly if there are only zeros behind the first NUL. -/
theorem Blanked.eq_self_iff (h : Blanked a b) : b = a ↔ ZeroPadded a := by
  constructor
  · rintro rfl
    exact h.blank
  · intro hpad
    refine Vector.ext fun j hj => ?_
    by_cases hnul : ∃ i < (⟨j, hj⟩ : Fin n), a.get i = 0
    · obtain ⟨i, hi, h0⟩ := hnul
      exact (h.blank i ⟨j, hj⟩ hi h0).trans (hpad i ⟨j, hj⟩ hi h0).symm
    · exact h.kept ⟨j, hj⟩ fun i hi h0 => hnul ⟨i, hi, h0⟩

end FixedText
