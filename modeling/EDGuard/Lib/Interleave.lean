import Mathlib.Data.List.Basic

/-!
# Interleavings of independent sequences

A list of tagged events `κ × ε` is an interleaving of one sequence per tag.  The events are folded
into a state; when the part of the state that belongs to a tag is read and written by the events
of that tag only, it does not depend on the interleaving.

* `SamePerKey` — two interleavings of the same sequences.
* `part_foldl` — a part sees only the events of its own tag; `part_confluent` — so two interleavings
  give the same part.

A part is given by a relation `Rel` between states with the same part, which need not be reflexive:
it may demand an invariant of both states.
-/

set_option autoImplicit false

namespace Interleave

variable {σ κ ε : Type*} [DecidableEq κ]

/-- The events of one tag, in order. -/
def only (k : κ) (es : List (κ × ε)) : List (κ × ε) := es.filter fun e => e.1 = k

/-- Both lists have the same events of every tag in the same order. -/
def SamePerKey (es es' : List (κ × ε)) : Prop := ∀ k, only k es = only k es'

theorem SamePerKey.mem_iff {es es' : List (κ × ε)} (h : SamePerKey es es') (e : κ × ε) :
    e ∈ es ↔ e ∈ es' := by
  have hmem : ∀ l : List (κ × ε), e ∈ l ↔ e ∈ only e.1 l := by
    intro l
    simp [only]
  rw [hmem es, hmem es', h e.1]

variable {step : σ → ε → σ} {k : κ} {Rel : σ → σ → Prop}

/-- **A part sees only the events of its own tag.** -/
theorem part_foldl {es : List (κ × ε)}
    (hframe : ∀ s t, ∀ e ∈ es, Rel s t → e.1 ≠ k → Rel (step s e.2) t)
    (hlocal : ∀ s t, ∀ e ∈ es, Rel s t → e.1 = k → Rel (step s e.2) (step t e.2)) :
    ∀ {s t : σ}, Rel s t → Rel (es.foldl (fun s e => step s e.2) s)
      ((only k es).foldl (fun s e => step s e.2) t) := by
  induction es with
  | nil => exact fun h => h
  | cons e es ih =>
    intro s t h
    have ih' := @ih (fun s t e he => hframe s t e (List.mem_cons_of_mem _ he))
      (fun s t e he => hlocal s t e (List.mem_cons_of_mem _ he))
    unfold only at ih' ⊢
    rw [List.filter_cons, List.foldl_cons]
    by_cases hk : e.1 = k
    · rw [if_pos (by simpa using hk), List.foldl_cons]
      exact ih' (hlocal s t e List.mem_cons_self h hk)
    · rw [if_neg (by simpa using hk)]
      exact ih' (hframe s t e List.mem_cons_self h hk)

/-- **Two interleavings of the same sequences give the same part.** -/
theorem part_confluent {es es' : List (κ × ε)} (hsame : SamePerKey es es')
    (hsymm : ∀ s t, Rel s t → Rel t s) (htrans : ∀ s t u, Rel s t → Rel t u → Rel s u)
    (hframe : ∀ s t, ∀ e ∈ es, Rel s t → e.1 ≠ k → Rel (step s e.2) t)
    (hlocal : ∀ s t, ∀ e ∈ es, Rel s t → e.1 = k → Rel (step s e.2) (step t e.2))
    {s t : σ} (h : Rel s t) :
    Rel (es.foldl (fun s e => step s e.2) s) (es'.foldl (fun s e => step s e.2) t) := by
  have hs := htrans s t s h (hsymm s t h)
  have hleft := part_foldl hframe hlocal hs
  have hright : Rel (es'.foldl (fun s e => step s e.2) t)
      ((only k es').foldl (fun s e => step s e.2) s) :=
    part_foldl (fun s t e he => hframe s t e ((hsame.mem_iff e).mpr he))
      (fun s t e he => hlocal s t e ((hsame.mem_iff e).mpr he)) (hsymm s t h)
  rw [← hsame k] at hright
  exact htrans _ _ _ hleft (hsymm _ _ hright)

end Interleave
