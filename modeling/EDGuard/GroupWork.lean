import EDGuard.Group
import EDGuard.Lib.Settling

/-!
# The work of a group

* `Group.work` — the steps left to the goroutines of a group, for the first `N` runnables and `M`
  calls.
* `work_step` — every step takes one off it, but for the round of the wait loop of `Start` that
  finds its context done.
* `spins_bounded` — **a group spins in that loop and nowhere else**.
-/

set_option autoImplicit false

namespace EDGuard

/-- The steps left to a call of `Add`, the goroutines of its runnable included. -/
def AddPc.work : AddPc → Nat
  | .idle => 15
  | .rlock => 14
  | .rlocked => 13
  | .lock => 12
  | .locked => 11
  | .send => 10
  | .returned | .refused => 0

/-- The steps left to a call of `Start` or `StopAndWait`. -/
def CallPc.work : CallPc → Nat
  | .idle => 8
  | .stop => 7
  | .stopStart => 6
  | .stopLock => 5
  | .stopSet => 4
  | .stopCancel => 3
  | .stopWait => 2
  | .stopClose | .start => 1
  | .returned => 0

/-- The steps left to the body of `startOnce`, the goroutines of what it finds in the queue
included. -/
def BodyPc.work (queue : List Nat) : BodyPc → Nat
  | .none => 7 + 10 * queue.length
  | .spawn => 6 + 10 * queue.length
  | .lock => 4 + 10 * queue.length
  | .enqueue rest => 3 + 10 * rest.length
  | .ready => 2
  | .close => 1
  | .done => 0

/-- The steps left to the reconciler, and to the runnable in its hand. -/
def ReconcilePc.work : ReconcilePc → Nat
  | .off | .exited => 0
  | .recv => 1
  | .report _ => 2
  | .launch _ => 7
  | .locked _ => 8
  | .rlock _ => 9

def CheckPc.work : CheckPc → Nat
  | .checking => 2
  | .signalling => 1
  | .idle | .done => 0

def RunPc.work : RunPc → Nat
  | .running => 3
  | .sendErr => 2
  | .finishing => 1
  | .idle | .done => 0

/-- A context can be done once. -/
def ctxWork (err : Option CtxErr) : Nat := if err = none then 1 else 0

namespace Group

/-- The steps left to the first `N` runnables and `M` calls. -/
def work (N M : Nat) (s : Group) : Nat :=
  (if s.crashed then 0 else 1) + total N AddPc.work s.adds + total M CallPc.work s.calls +
    total M ctxWork s.ctxErr + s.body.work s.startQueue + s.reconcile.work +
    total N CheckPc.work s.checks + total N RunPc.work s.runs

/-- The action is about the first `N` runnables and `M` calls. -/
def Action.Within (N M : Nat) : Action → Prop
  | .add i | .recvReady i | .recvAdd i | .check i _ | .signalClosed i | .runReturn i _
  | .recvRunErr i | .wgDone i => i < N
  | .callStart c | .callStop c | .call c | .expire c _ => c < M
  | .body | .ctxDone | .recvQueue | .reconcile | .recvReport => True

/-- A round of the wait loop that finds its context done. -/
def Action.spin (a : Action) : Nat := if a = .ctxDone then 1 else 0

section

variable {N M : Nat} {s t : Group}

theorem work_setAdd {i : Nat} (hi : i < N) (pc : AddPc) :
    total N AddPc.work (s.setAdd i pc).adds + (s.adds i).work =
      total N AddPc.work s.adds + pc.work :=
  total_update hi pc

theorem work_setCall {c : Nat} (hc : c < M) (pc : CallPc) :
    total M CallPc.work (s.setCall c pc).calls + (s.calls c).work =
      total M CallPc.work s.calls + pc.work :=
  total_update hc pc

theorem BodyPc.work_ready (queue queue' : List Nat) :
    (if queue' = [] then BodyPc.close else .ready).work queue ≤ 2 := by
  split <;> simp [BodyPc.work]

/-- A step of a call of `Add`. -/
theorem Work.add {i : Nat} (hi : i < N) (pc : AddPc) (gain : Nat)
    (hpc : pc.work + gain + 1 ≤ (s.adds i).work) (hadds : t.adds = (s.setAdd i pc).adds)
    (hbody : t.body.work t.startQueue ≤ s.body.work s.startQueue + gain)
    (hcrashed : t.crashed = s.crashed) (hcalls : t.calls = s.calls) (hctx : t.ctxErr = s.ctxErr)
    (hrec : t.reconcile = s.reconcile) (hchecks : t.checks = s.checks) (hruns : t.runs = s.runs) :
    t.work N M + 1 ≤ s.work N M := by
  have hsum := work_setAdd (s := s) hi pc
  unfold work
  rw [hadds, hcrashed, hcalls, hctx, hrec, hchecks, hruns]
  omega

/-- A step of a call of `Start` or `StopAndWait`. -/
theorem Work.call {c : Nat} (hc : c < M) (pc : CallPc) (hpc : pc.work + 1 ≤ (s.calls c).work)
    (hcalls : t.calls = (s.setCall c pc).calls) (hbody : t.body = s.body)
    (hqueue : t.startQueue = s.startQueue) (hcrashed : t.crashed = s.crashed)
    (hadds : t.adds = s.adds) (hctx : t.ctxErr = s.ctxErr) (hrec : t.reconcile = s.reconcile)
    (hchecks : t.checks = s.checks) (hruns : t.runs = s.runs) :
    t.work N M + 1 ≤ s.work N M := by
  have hsum := work_setCall (s := s) hc pc
  unfold work
  rw [hcalls, hbody, hqueue, hcrashed, hadds, hctx, hrec, hchecks, hruns]
  omega

/-- A step of the reconciler or of the body of `startOnce`. -/
theorem Work.loops (hpc : t.body.work t.startQueue + t.reconcile.work + 1 ≤
      s.body.work s.startQueue + s.reconcile.work) (hcrashed : t.crashed = s.crashed)
    (hadds : t.adds = s.adds) (hcalls : t.calls = s.calls) (hctx : t.ctxErr = s.ctxErr)
    (hchecks : t.checks = s.checks) (hruns : t.runs = s.runs) :
    t.work N M + 1 ≤ s.work N M := by
  unfold work
  rw [hcrashed, hadds, hcalls, hctx, hchecks, hruns]
  omega

/-- A step of the goroutine of a runnable. -/
theorem Work.run {i : Nat} (hi : i < N) (pc : RunPc) (hpc : pc.work + 1 ≤ (s.runs i).work)
    (hruns : t.runs = Function.update s.runs i pc) (hbody : t.body = s.body)
    (hqueue : t.startQueue = s.startQueue) (hcrashed : t.crashed = s.crashed)
    (hadds : t.adds = s.adds) (hcalls : t.calls = s.calls) (hctx : t.ctxErr = s.ctxErr)
    (hrec : t.reconcile = s.reconcile) (hchecks : t.checks = s.checks) :
    t.work N M + 1 ≤ s.work N M := by
  have hsum := total_update (w := RunPc.work) (f := s.runs) hi pc
  unfold work
  rw [hruns, hbody, hqueue, hcrashed, hadds, hcalls, hctx, hrec, hchecks]
  omega

/-- A panic. -/
theorem Work.crash (hc : s.crashed = false) :
    ({ s with crashed := true } : Group).work N M + 1 ≤ s.work N M := by
  unfold work
  simp only [hc, Bool.false_eq_true, ↓reduceIte]
  omega

/-- **Every step takes one off the work**, but for a round of the wait loop whose context is
done. -/
theorem work_step {a : Action} (ha : a.Within N M) (h : step s a = some t) :
    t.work N M + 1 ≤ s.work N M + a.spin := by
  obtain ⟨hc, hstep⟩ := step_iff.mp h
  cases hstep with
  | @addBegin i hpc | @addRlock i hpc _ | @addRefuse i hpc _ | @addPass i hpc _ | @addLock i hpc _
  | @addStarted i hpc _ =>
    have hi : i < N := ha
    refine Nat.le_add_right_of_le (Work.add hi _ 0 ?_ rfl (Nat.le_refl _) rfl rfl rfl rfl rfl rfl)
    rw [hpc]
    decide
  | @addQueue i hpc hst =>
    have hi : i < N := ha
    refine Nat.le_add_right_of_le (Work.add hi .returned 10 ?_ rfl ?_ rfl rfl rfl rfl rfl rfl)
    · rw [hpc]
      exact Nat.le_refl _
    · show s.body.work (s.startQueue ++ [i]) ≤ s.body.work s.startQueue + 10
      cases s.body <;> simp [BodyPc.work] <;> omega
  | addCrash _ _ | signalCrash _ _ => exact Nat.le_add_right_of_le (Work.crash hc)
  | @callStart c hpc | @callStop c hpc | @startDone c hpc _ | @stopStartDone c hpc _
  | @stopOnce c hpc _ | @stopDone c hpc _ | @stopLock c hpc _ _ | @stopSet c hpc
  | @stopCancel c hpc | @stopWait c hpc _ | @stopClose c hpc =>
    have hc : c < M := ha
    refine Nat.le_add_right_of_le (Work.call hc _ ?_ rfl rfl rfl rfl rfl rfl rfl rfl rfl)
    rw [hpc]
    decide
  | startOnce _ hbody =>
    refine Nat.le_add_right_of_le (Work.loops ?_ rfl rfl rfl rfl rfl rfl)
    simp only [hbody, BodyPc.work]
    omega
  | @expire c err hnone =>
    have hsum := total_update (w := ctxWork) (f := s.ctxErr) ha (some err)
    rw [hnone] at hsum
    simp only [ctxWork, reduceCtorEq, ↓reduceIte] at hsum
    simp only [work]
    omega
  | bodySpawn hbody =>
    refine Nat.le_add_right_of_le (Work.loops ?_ rfl rfl rfl rfl rfl rfl)
    simp only [hbody, BodyPc.work, ReconcilePc.work]
    omega
  | bodyLock hbody _ =>
    refine Nat.le_add_right_of_le (Work.loops ?_ rfl rfl rfl rfl rfl rfl)
    simp only [hbody, BodyPc.work]
    omega
  | bodyUnlock hbody =>
    refine Nat.le_add_right_of_le (Work.loops ?_ rfl rfl rfl rfl rfl rfl)
    have hle := BodyPc.work_ready s.startQueue s.startQueue
    simp only [hbody, BodyPc.work, List.length_nil] at hle ⊢
    omega
  | bodyClose hbody =>
    refine Nat.le_add_right_of_le (Work.loops ?_ rfl rfl rfl rfl rfl rfl)
    simp only [hbody, BodyPc.work]
    omega
  | ctxDeadline _ _ | ctxCanceled _ _ => exact Nat.le_refl _
  | @recvReady i hbody hpc =>
    have hsum := total_update (w := CheckPc.work) (f := s.checks) ha .done
    have hle := BodyPc.work_ready (s.startQueue.erase i) (s.startQueue.erase i)
    rw [hpc] at hsum
    simp only [work, hbody, BodyPc.work, CheckPc.work] at hsum hle ⊢
    omega
  | @recvAdd i hrec hpc _ =>
    have hsum := work_setAdd (s := s) ha .returned
    rw [hpc] at hsum
    simp only [work, setAdd, hrec, AddPc.work, ReconcilePc.work] at hsum ⊢
    omega
  | recvQueue hrec hbody _ =>
    refine Nat.le_add_right_of_le (Work.loops ?_ rfl rfl rfl rfl rfl rfl)
    simp only [hrec, hbody, BodyPc.work, ReconcilePc.work, List.length_cons]
    omega
  | exit hrec _ | rlock hrec _ | drop hrec _ | wgAdd hrec _ | recvReport hrec =>
    refine Nat.le_add_right_of_le (Work.loops ?_ rfl rfl rfl rfl rfl rfl)
    simp only [hrec, ReconcilePc.work]
    omega
  | @launch i hrec =>
    have hchecks := total_update_le (N := N) (w := CheckPc.work) (f := s.checks) i .checking
    have hruns := total_update_le (N := N) (w := RunPc.work) (f := s.runs) i .running
    simp only [work, hrec, CheckPc.work, RunPc.work, ReconcilePc.work] at hchecks hruns ⊢
    omega
  | @check i ok hpc =>
    have hsum := total_update (w := CheckPc.work) (f := s.checks) ha
      (if ok && s.signalReady i then .signalling else .done)
    have hle : (if ok && s.signalReady i then CheckPc.signalling else .done).work ≤ 1 := by
      split <;> decide
    rw [hpc] at hsum
    simp only [work, CheckPc.work] at hsum hle ⊢
    omega
  | @runReturn i err hpc =>
    have hi : i < N := ha
    refine Nat.le_add_right_of_le (Work.run hi (if err then .sendErr else .finishing) ?_ rfl rfl rfl
      rfl rfl rfl rfl rfl rfl)
    rw [hpc]
    cases err <;> decide
  | @recvRunErr i hpc | @wgDone i hpc =>
    have hi : i < N := ha
    refine Nat.le_add_right_of_le (Work.run hi _ ?_ rfl rfl rfl rfl rfl rfl rfl rfl rfl)
    rw [hpc]
    decide

theorem work_newRunnableGroup : newRunnableGroup.work N M = 15 * N + 9 * M + 8 := by
  simp only [work, newRunnableGroup, total_const, AddPc.work, CallPc.work, ctxWork, BodyPc.work,
    ReconcilePc.work, CheckPc.work, RunPc.work, Bool.false_eq_true, ↓reduceIte, List.length_nil]
  omega

end

/-- **A group spins in the wait loop of `Start` and nowhere else.** A run with `N` runnables and `M`
calls of `Start` and `StopAndWait`, in any order of the steps, with any results of the checks and
runnables, is no longer than `15 N + 9 M + 8` steps and the rounds of that loop that find its
context done. -/
theorem spins_bounded (N M : Nat) (as : List Action) (s : Group)
    (h : Trace.run step newRunnableGroup as = some s) (hw : ∀ a ∈ as, a.Within N M) :
    as.length ≤ 15 * N + 9 * M + 8 + as.count .ctxDone := by
  have hpot : Trace.Potential step (fun _ => True) (fun _ a => a.Within N M) (work N M)
      Action.spin :=
    ⟨fun _ _ _ _ _ _ => trivial, fun _ _ _ _ ha hst => work_step ha hst⟩
  have hspins : ∀ as : List Action, (as.map Action.spin).sum = as.count .ctxDone := by
    intro as
    induction as with
    | nil => rfl
    | cons a as ih =>
      rw [List.map_cons, List.sum_cons, ih, List.count_cons, Nat.add_comm]
      simp [Action.spin]
  have hmeets : Trace.Meets step (fun _ a => a.Within N M) newRunnableGroup as :=
    Trace.meets_of_invariant (I := fun _ => True) (fun _ _ _ _ _ _ => trivial)
      (fun _ _ _ ha => ha) trivial hw
  have hlen := hpot.length_le trivial hmeets h
  rw [work_newRunnableGroup, hspins] at hlen
  omega

/-- `Start` of a group with one runnable runs into the deadline of its context and goes round. -/
def spinning : List Action :=
  List.replicate 5 (.add 0) ++ [.callStart 0, .call 0, .body, .body, .recvQueue, .reconcile,
    .reconcile, .reconcile, .body, .expire 0 .deadlineExceeded] ++ List.replicate 40 .ctxDone

theorem spins_bounded_spinning : ∃ s, Trace.run step newRunnableGroup spinning = some s ∧
    spinning.length ≤ 15 * 1 + 9 * 1 + 8 + spinning.count .ctxDone ∧
    15 * 1 + 9 * 1 + 8 < spinning.length := by
  have hobs : (Trace.run step newRunnableGroup spinning).isSome := by decide
  obtain ⟨s, hs⟩ := Option.isSome_iff_exists.mp hobs
  have hw : ∀ a ∈ spinning, a.Within 1 1 := by
    intro a ha
    simp only [spinning, List.mem_append, List.mem_replicate, List.mem_cons, List.not_mem_nil,
      or_false] at ha
    rcases ha with (⟨_, rfl⟩ | rfl | rfl | rfl | rfl | rfl | rfl | rfl | rfl | rfl | rfl) |
      ⟨_, rfl⟩ <;> simp [Action.Within]
  exact ⟨s, hs, spins_bounded 1 1 spinning s hs hw, by decide⟩

end Group

end EDGuard
