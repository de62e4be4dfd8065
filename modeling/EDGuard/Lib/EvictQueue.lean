import Mathlib.Data.List.Basic

/-!
# A bounded queue that evicts its oldest element

`EvictQueue α cap` holds at most `cap` elements, oldest first.  `push` on a full queue drops
the oldest element; `pop` takes the oldest element and fails on the empty queue.

* `push_of_lt` — below the capacity nothing is lost.
* `append_push_sublist` — what was taken out followed by what is left is always a subsequence
  of everything that was pushed, overflow or not.
-/

set_option autoImplicit false

/-- A queue with at most `cap` elements, oldest first. -/
structure EvictQueue (α : Type) (cap : Nat) where
  items : List α
  length_le : items.length ≤ cap

namespace EvictQueue

variable {α : Type} {cap : Nat}

def empty : EvictQueue α cap := ⟨[], Nat.zero_le cap⟩

/-- Append; a full queue first drops its oldest element. -/
def push (q : EvictQueue α cap) (x : α) : EvictQueue α cap :=
  if h : q.items.length < cap then
    ⟨q.items ++ [x], by
      rw [List.length_append, List.length_singleton]
      exact h⟩
  else
    ⟨(q.items ++ [x]).tail, by
      rw [List.length_tail, List.length_append, List.length_singleton, Nat.add_sub_cancel]
      exact q.length_le⟩

/-- The oldest element and the rest, `none` on the empty queue. -/
def pop (q : EvictQueue α cap) : Option (α × EvictQueue α cap) :=
  match h : q.items with
  | [] => none
  | x :: xs => some (x, ⟨xs, by
      have := q.length_le
      simp only [h, List.length_cons] at this
      omega⟩)

@[simp] theorem items_empty : (empty : EvictQueue α cap).items = [] := rfl

theorem push_of_lt {q : EvictQueue α cap} (h : q.items.length < cap) (x : α) :
    (q.push x).items = q.items ++ [x] := by
  simp [push, h]

theorem push_of_not_lt {q : EvictQueue α cap} (h : ¬ q.items.length < cap) (x : α) :
    (q.push x).items = (q.items ++ [x]).tail := by
  simp [push, h]

theorem length_push_le (q : EvictQueue α cap) (x : α) :
    (q.push x).items.length ≤ q.items.length + 1 := by
  unfold push
  split <;> simp

/-- A push adds one element, or drops one for it. -/
theorem length_push (q : EvictQueue α cap) (x : α) :
    (q.push x).items.length + (if q.items.length < cap then 0 else 1) = q.items.length + 1 := by
  split
  · rename_i hlt
    rw [push_of_lt hlt, List.length_append, List.length_singleton]
  · rename_i hfull
    rw [push_of_not_lt hfull, List.length_tail, List.length_append, List.length_singleton,
      Nat.add_sub_cancel]

theorem push_sublist (q : EvictQueue α cap) (x : α) :
    (q.push x).items.Sublist (q.items ++ [x]) := by
  by_cases h : q.items.length < cap
  · rw [push_of_lt h]
  · rw [push_of_not_lt h]
    exact List.tail_sublist _

theorem append_push_sublist {q : EvictQueue α cap} {out log : List α}
    (h : (out ++ q.items).Sublist log) (x : α) :
    (out ++ (q.push x).items).Sublist (log ++ [x]) := by
  have hpush : (out ++ (q.push x).items).Sublist (out ++ (q.items ++ [x])) :=
    (q.push_sublist x).append_left out
  refine hpush.trans ?_
  rw [← List.append_assoc]
  exact h.append_right [x]

theorem pop_eq_some {q q' : EvictQueue α cap} {x : α} (h : q.pop = some (x, q')) :
    q.items = x :: q'.items := by
  unfold pop at h
  split at h
  · cases h
  · rename_i y ys hy
    cases h
    exact hy

theorem pop_eq_none_iff {q : EvictQueue α cap} : q.pop = none ↔ q.items = [] := by
  unfold pop
  split <;> simp_all

end EvictQueue
