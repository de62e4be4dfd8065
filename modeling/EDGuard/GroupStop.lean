import EDGuard.GroupStart
import Mathlib.Data.List.Nodup

/-!
# A stopped group

* `Waits` — `r.wg` counts the launched runnables that have not come to their `wg.Done`, and the one
  the reconciler is about to launch.
* `Quiet` — the group is stopped and its `wg` is zero: it stays so, nothing is launched any more,
  and everything that was launched is done.
-/

set_option autoImplicit false

namespace EDGuard

/-- The reconciler has done its `wg.Add` and not started the goroutine. -/
def ReconcilePc.launching : ReconcilePc → Bool
  | .launch _ => true
  | _ => false

namespace Group

/-! ## What `r.wg` counts -/

/-- How many launched runnables have not come to their `wg.Done`. -/
def liveRuns (s : Group) : Nat := s.launched.countP fun i => decide (s.runs i ≠ .done)

/-- What the counter of `r.wg` stands for. -/
def Waits (s : Group) : Prop := s.wg = s.liveRuns + if s.reconcile.launching then 1 else 0

theorem nodup_launched {s : Group} (hs : s.Accounts) : s.launched.Nodup := by
  apply List.nodup_iff_count_le_one.mpr
  intro i
  have hcount := hs.count i
  have hle : (if s.adds i = .returned then 1 else 0) ≤ 1 := by
    split <;> omega
  omega

/-- A counted property of one element of a duplicate-free list changes. -/
theorem countP_update {β : Type} (p : β → Bool) (f : Nat → β) (i : Nat) (b : β) {l : List Nat}
    (hn : l.Nodup) (hi : i ∈ l) :
    (l.countP fun j => p (Function.update f i b j)) + (if p (f i) then 1 else 0) =
      (l.countP fun j => p (f j)) + if p b then 1 else 0 := by
  induction l with
  | nil => cases hi
  | cons k l ih =>
    obtain ⟨hk, hl⟩ := List.nodup_cons.mp hn
    simp only [List.countP_cons]
    rcases eq_or_ne i k with rfl | hik
    · have hsame : (l.countP fun j => p (Function.update f i b j)) = l.countP fun j => p (f j) := by
        apply List.countP_congr
        intro j hj
        have hji : j ≠ i := by
          rintro rfl
          exact hk hj
        rw [Function.update_of_ne hji]
      rw [hsame, Function.update_self]
      omega
    · have hmem : i ∈ l := (List.mem_cons.mp hi).resolve_left hik
      have hrec := ih hl hmem
      rw [Function.update_of_ne (Ne.symm hik)]
      omega

/-- The goroutine of a launched runnable goes on. -/
theorem liveRuns_update {s t : Group} {i : Nat} {pc : RunPc} (ha : s.Accounts) (hl : s.Launches)
    (hold : s.runs i ≠ .idle) (hr : t.runs = Function.update s.runs i pc)
    (hlaunched : t.launched = s.launched) :
    t.liveRuns + (if s.runs i ≠ .done then 1 else 0) =
      s.liveRuns + if pc ≠ .done then 1 else 0 := by
  unfold liveRuns
  rw [hr, hlaunched]
  simpa using countP_update (fun pc => decide (pc ≠ .done)) s.runs i pc (nodup_launched ha)
    ((hl.runs i).mpr hold)

/-- The goroutine of a runnable starts. -/
theorem liveRuns_launch {s t : Group} {i : Nat} (hnot : i ∉ s.launched)
    (hr : t.runs = Function.update s.runs i .running) (hl : t.launched = s.launched ++ [i]) :
    t.liveRuns = s.liveRuns + 1 := by
  unfold liveRuns
  rw [hl, hr, List.countP_append, List.countP_singleton, Function.update_self]
  have hsame : (s.launched.countP fun j => decide (Function.update s.runs i .running j ≠ .done)) =
      s.launched.countP fun j => decide (s.runs j ≠ .done) := by
    apply List.countP_congr
    intro j hj
    have hji : j ≠ i := by
      rintro rfl
      exact hnot hj
    rw [Function.update_of_ne hji]
  rw [hsame]
  rfl

theorem waits_step {s t : Group} {a : Action} (ha : s.Accounts) (hl : s.Launches) (hs : s.Waits)
    (h : Step s a t) : t.Waits := by
  unfold Waits at hs ⊢
  have hkeep : ∀ {r : ReconcilePc}, s.reconcile = r → r.launching = false →
      s.wg = s.liveRuns + 0 := by
    intro r hr hno
    rw [hs, hr, hno]
    rfl
  cases h with
  | bodySpawn hb => exact hkeep (ha.off (Or.inr hb)) rfl
  | recvAdd hrec _ _ => exact hkeep hrec rfl
  | recvQueue hrec _ _ => exact hkeep hrec rfl
  | exit hrec _ => exact hkeep hrec rfl
  | rlock hrec _ => exact hkeep hrec rfl
  | drop hrec _ => exact hkeep hrec rfl
  | recvReport hrec => exact hkeep hrec rfl
  | wgAdd hrec _ => exact congrArg (· + 1) (hkeep hrec rfl)
  | @launch i hrec =>
    have hnot := (ha.not_launched (i := i) (by rw [hrec]; rfl)).1
    rw [liveRuns_launch hnot rfl rfl]
    show s.wg = _
    rw [hs, hrec]
    rfl
  | @runReturn i err hpc =>
    have hlive := liveRuns_update (t := { s with
      runs := Function.update s.runs i (if err then .sendErr else .finishing) }) ha hl
      (by rw [hpc]; simp) rfl rfl
    rw [hpc] at hlive
    have hpos : (if err then RunPc.sendErr else .finishing) ≠ .done := by
      split <;> simp
    simp only [ne_eq, reduceCtorEq, not_false_eq_true, ↓reduceIte, if_pos hpos] at hlive
    rw [hs]
    exact congrArg (· + _) (Nat.add_right_cancel hlive).symm
  | @recvRunErr i hpc =>
    have hlive := liveRuns_update (t := { s with
      runs := Function.update s.runs i .finishing }) ha hl (by rw [hpc]; simp) rfl rfl
    rw [hpc] at hlive
    rw [hs]
    exact congrArg (· + _) (Nat.add_right_cancel hlive).symm
  | @wgDone i hpc =>
    have hlive := liveRuns_update (t := { s with
      runs := Function.update s.runs i .done
      wg := s.wg - 1 }) ha hl (by rw [hpc]; simp) rfl rfl
    rw [hpc] at hlive
    simp only [ne_eq, reduceCtorEq, not_false_eq_true, not_true_eq_false, ↓reduceIte,
      Nat.add_zero] at hlive
    show s.wg - 1 = _ + if s.reconcile.launching then 1 else 0
    omega
  | _ => exact hs

theorem waits_run {as : List Action} {s : Group}
    (h : Trace.run step newRunnableGroup as = some s) : s.Waits := by
  refine (Trace.run_invariant (I := fun s => s.Phase ∧ s.Waits) ?_
    ⟨phase_run (Trace.run_nil newRunnableGroup), rfl⟩ h).2
  exact fun u a v hu hv => ⟨phase_step hu.1 (step_iff.mp hv).2,
    waits_step hu.1.accounts hu.1.launches hu.2 (step_iff.mp hv).2⟩

/-! ## A group that is stopped and has nothing left to wait for -/

structure Quiet (s : Group) : Prop where
  stopped : s.stopped = true
  wg : s.wg = 0

theorem quiet_step {s t : Group} {a : Action} (hs : s.Quiet) (h : Step s a t) : t.Quiet := by
  refine ⟨stopped_mono h hs.stopped, ?_⟩
  cases h with
  | wgAdd _ hst =>
    rw [hs.stopped] at hst
    cases hst
  | wgDone _ =>
    show s.wg - 1 = 0
    rw [hs.wg]
  | _ => exact hs.wg

/-- Everything that was launched is done, and the reconciler launches nothing. -/
theorem Quiet.launched {s : Group} (hs : s.Quiet) (hw : s.Waits) :
    (∀ i ∈ s.launched, s.runs i = .done) ∧ s.reconcile.launching = false := by
  unfold Waits at hw
  rw [hs.wg] at hw
  refine ⟨fun i hi => ?_, ?_⟩
  · have hzero : s.liveRuns = 0 := by omega
    by_contra hne
    have hpos : 0 < s.liveRuns := List.countP_pos_iff.mpr ⟨i, hi, by simpa using hne⟩
    omega
  · cases hrec : s.reconcile.launching with
    | false => rfl
    | true =>
      rw [hrec] at hw
      simp at hw

/-- A quiet group launches nothing. -/
theorem Quiet.launched_step {s t : Group} {a : Action} (hs : s.Quiet) (hw : s.Waits)
    (h : Step s a t) : t.launched = s.launched := by
  cases h with
  | launch hrec =>
    have hno := (hs.launched hw).2
    rw [hrec] at hno
    cases hno
  | _ => rfl

end Group

end EDGuard
