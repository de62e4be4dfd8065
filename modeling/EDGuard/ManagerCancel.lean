import EDGuard.ManagerShutdown
import EDGuard.GroupHalt

/-!
# A cancelled start

* `Early` — before `shutdown` no group is stopped, `errCh` is not drained and nobody has crashed.
* `caches_ends_iff` — where the checks of the caches in `N` never succeed, a cancelled `Start` that
  waits for `Caches` keeps a way to `shutdown` if and only if every entry of the start queue can
  signal.
* `cancelled_start_iff` — what ends the start of a group, of a group that is stopped, and of the
  manager.
-/

set_option autoImplicit false

namespace EDGuard

/-- `Start` has come to its deferred `shutdown`. -/
def StartPc.ended : StartPc → Bool
  | .shutdown | .wait | .returned _ => true
  | .call _ | .inside _ | .select => false

namespace Group

theorem Reachable.stopsOnce {s : Group} (hs : s.Reachable) : s.StopsOnce := by
  obtain ⟨as, has⟩ := hs
  exact stopsOnce_run has

/-- Only its beginning moves a call that has not begun. -/
theorem idle_step {s t : Group} {c : Nat} {a : Action} (hc : s.calls c = .idle)
    (hstart : a ≠ .callStart c) (hstop : a ≠ .callStop c) (h : Step s a t) :
    t.calls c = .idle := by
  have hset : ∀ {d : Nat} {pc pc' : CallPc}, s.calls d = pc → pc ≠ .idle →
      Function.update s.calls d pc' c = .idle := by
    intro d pc pc' hd hpc
    have hne : c ≠ d := by
      rintro rfl
      exact hpc (hd.symm.trans hc)
    rw [Function.update_of_ne hne]
    exact hc
  cases h with
  | @callStart d _ =>
    have hne : c ≠ d := fun h => hstart (by rw [h])
    exact (Function.update_of_ne hne ..).trans hc
  | @callStop d _ =>
    have hne : c ≠ d := fun h => hstop (by rw [h])
    exact (Function.update_of_ne hne ..).trans hc
  | startDone hpc _ | stopStartDone hpc _ | stopOnce hpc _ | stopDone hpc _ | stopWait hpc _ =>
    exact hset hpc (by simp)
  | stopLock hpc _ _ => exact hset hpc (by simp)
  | stopSet hpc | stopCancel hpc | stopClose hpc => exact hset hpc (by simp)
  | _ => exact hc

/-- A call that has begun stays so. -/
theorem begun_step {s t : Group} {c : Nat} {a : Action} (hc : s.calls c ≠ .idle)
    (h : Step s a t) : t.calls c ≠ .idle := by
  have hset : ∀ {d : Nat} {pc : CallPc}, pc ≠ .idle → Function.update s.calls d pc c ≠ .idle := by
    intro d pc hpc
    rcases eq_or_ne c d with rfl | hne
    · rwa [Function.update_self]
    · rwa [Function.update_of_ne hne]
  cases h with
  | callStart _ | callStop _ | startDone _ _ | stopStartDone _ _ | stopOnce _ _ | stopDone _ _
  | stopWait _ _ => exact hset (by simp)
  | stopLock _ _ _ => exact hset (by simp)
  | stopSet _ | stopCancel _ | stopClose _ => exact hset (by simp)
  | _ => exact hc

/-- A group that nobody stops neither crashes nor is cancelled. -/
theorem Reachable.untouched {s : Group} (hs : s.Reachable) (ho : s.OneStop)
    (hidle : s.calls 1 = .idle) : s.crashed = false ∧ s.cancelled = false := by
  have hfresh := ho.fresh (Or.inl hidle)
  refine ⟨?_, ?_⟩
  · cases hc : s.crashed with
    | false => rfl
    | true =>
      have hdone := hs.stopsOnce.closed (hs.stopsOnce.crashed hc)
      rw [hfresh] at hdone
      cases hdone
  · cases hc : s.cancelled with
    | false => rfl
    | true => exact absurd hfresh (hs.stopsOnce.cancelled hc)

end Group

namespace TaskManager

/-! ## Before `shutdown` -/

/-- Nothing of `shutdown` has happened. -/
structure Early (s : TaskManager) : Prop where
  stop : s.stop = .off
  drain : s.drain = .off
  running : s.crashed = false
  idle : ∀ g, (s.groups g).calls 1 = .idle
  inside : ∀ g, s.main = .inside g → (s.groups g).calls 0 ≠ .idle

theorem ended_step {s t : TaskManager} {a : Action} (hs : s.main.ended = true) (h : Step s a t) :
    t.main.ended = true := by
  have hno : ∀ {pc : StartPc}, s.main = pc → pc.ended = false → False := by
    intro pc hpc hend
    rw [hpc, hend] at hs
    cases hs
  cases h with
  | callStart hm _ | inStart hm _ _ | startReturned hm _ | seeDone hm _ => exact (hno hm rfl).elim
  | shutdown _ | shutdownReturned _ _ => rfl
  | recvReport hr _ | recvRunErr hr _ =>
    rcases receive_cases hr with ⟨_, hm, rfl⟩ | ⟨_, _, rfl⟩
    · exact (hno hm rfl).elim
    · exact hs
  | drainCancel _ | cancel _ | stopCancel _ | timeout _ _ => simpa using hs
  | _ => exact hs

theorem not_ended_step {s t : TaskManager} {a : Action} (h : Step s a t)
    (ht : t.main.ended = false) : s.main.ended = false := by
  cases hs : s.main.ended with
  | false => rfl
  | true =>
    rw [ended_step hs h] at ht
    cases ht

/-- A step of a group before `shutdown`. -/
theorem Early.setGroup {s : TaskManager} (hs : s.Early) (hm : s.Managed) {g : GroupName}
    {b : Group.Action} {u : Group} (hu : Group.step (s.groups g) b = some u) (hb : b.managed)
    (hnot : b ≠ .callStop 1) :
    (s.setGroup g u).crashed = false ∧ ∀ g', ((s.setGroup g u).groups g').calls 1 = .idle := by
  have hstep := (Group.step_iff.mp hu).2
  have hnot' : b ≠ .callStart 1 := by
    rintro rfl
    cases hb
  have hidle := Group.idle_step (hs.idle g) hnot' hnot hstep
  have hone := Group.oneStop_step (hm.oneStop g) hb hstep
  refine ⟨(((hm.reachable g).step hu).untouched hone hidle).1, fun g' => ?_⟩
  show (Function.update s.groups g u g').calls 1 = .idle
  rcases eq_or_ne g' g with rfl | hg
  · rw [Function.update_self]
    exact hidle
  · rw [Function.update_of_ne hg]
    exact hs.idle g'

/-- `Start` of a group stays called. -/
theorem begun_setGroup {s : TaskManager} {g g' : GroupName} {b : Group.Action} {u : Group}
    (hu : Group.step (s.groups g) b = some u) (h : (s.groups g').calls 0 ≠ .idle) :
    (Function.update s.groups g u g').calls 0 ≠ .idle := by
  rcases eq_or_ne g' g with rfl | hg
  · rw [Function.update_self]
    exact Group.begun_step h (Group.step_iff.mp hu).2
  · rwa [Function.update_of_ne hg]

theorem early_main {s t : TaskManager} (hm : s.Managed) (hs : s.Early) (h : Step s .main t)
    (ht : t.main.ended = false) : t.Early := by
  cases h with
  | @callStart g u hpc hu =>
    obtain ⟨hrun, hidle⟩ := hs.setGroup hm hu rfl (by simp)
    refine ⟨hs.stop, hs.drain, hrun, hidle, fun g' hg' => ?_⟩
    cases hg'
    show (Function.update s.groups g u g).calls 0 ≠ .idle
    rw [Function.update_self]
    cases (Group.step_iff.mp hu).2
    show Function.update (s.groups g).calls 0 .start 0 ≠ .idle
    rw [Function.update_self]
    simp
  | inStart hpc _ hu =>
    obtain ⟨hrun, hidle⟩ := hs.setGroup hm hu (Or.inl rfl) (by simp)
    exact ⟨hs.stop, hs.drain, hrun, hidle, fun g' hg' => begun_setGroup hu (hs.inside g' hg')⟩
  | @startReturned g hpc _ =>
    refine ⟨hs.stop, hs.drain, hs.running, hs.idle, fun g' hg' => ?_⟩
    cases g <;> cases hx : (s.groups _).startErr <;> simp [StartPc.next, hx] at hg'
  | shutdown _ | shutdownReturned _ _ => cases ht

theorem early_step {s t : TaskManager} {a : Action} (hm : s.Managed) (hs : s.Early)
    (h : Step s a t) (ht : t.main.ended = false) : t.Early := by
  have hoff : ∀ {pc : StopPc}, s.stop = pc → pc ≠ .off → False :=
    fun hpc hne => hne (hpc.symm.trans hs.stop)
  have hdry : ∀ {pc : DrainPc}, s.drain = pc → pc ≠ .off → False :=
    fun hpc hne => hne (hpc.symm.trans hs.drain)
  have hset : ∀ {g : GroupName} {b : Group.Action} {u : Group},
      Group.step (s.groups g) b = some u → b.managed → b ≠ .callStop 1 →
        (s.setGroup g u).Early := by
    intro g b u hu hb hnot
    obtain ⟨hrun, hidle⟩ := hs.setGroup hm hu hb hnot
    exact ⟨hs.stop, hs.drain, hrun, hidle, fun g' hg' => begun_setGroup hu (hs.inside g' hg')⟩
  cases a with
  | main => exact early_main hm hs h ht
  | seeDone =>
    cases h with
    | seeDone _ _ => cases ht
  | drain =>
    cases h with
    | drainCancel hd | drainDone hd _ => exact (hdry hd (by simp)).elim
    | drainClose hd _ | drainCrash hd _ => exact (hdry hd (by simp)).elim
  | stop =>
    cases h with
    | callStop hd _ | stopReturned hd _ | stopCancel hd => exact (hoff hd (by simp)).elim
    | inStop hd _ _ => exact (hoff hd (by simp)).elim
  | group g b =>
    cases h with
    | group hb hu =>
      refine hset hu (Action.Makes.of_internal (a := .main) (g := g) hb).1 ?_
      rintro rfl
      cases hb
  | check g i ok =>
    cases h with
    | check hu => exact hset hu trivial (by simp)
    | checkFatal _ hcan _ =>
      rw [((hm.reachable g).untouched (hm.oneStop g) (hs.idle g)).2] at hcan
      cases hcan
  | invoke g i =>
    cases h with
    | invoke _ _ => exact ⟨hs.stop, hs.drain, hs.running, hs.idle, hs.inside⟩
  | runReturn g i err =>
    cases h with
    | runReturn _ hu =>
      have hearly := hset hu trivial (by simp)
      exact ⟨hearly.stop, hearly.drain, hearly.running, hearly.idle, hearly.inside⟩
  | recvReport r g =>
    cases h with
    | recvReport hr _ =>
      rcases receive_cases hr with ⟨_, _, rfl⟩ | ⟨_, hd, rfl⟩
      · cases ht
      · exact (hdry hd (by simp)).elim
  | recvRunErr r g i =>
    cases h with
    | recvRunErr hr _ =>
      rcases receive_cases hr with ⟨_, _, rfl⟩ | ⟨_, hd, rfl⟩
      · cases ht
      · exact (hdry hd (by simp)).elim
  | cancel err =>
    cases h with
    | cancel _ =>
      unfold internalCancel
      split <;> exact ⟨hs.stop, hs.drain, hs.running, hs.idle, hs.inside⟩
  | timeout =>
    cases h with
    | timeout hne _ => exact absurd hs.stop hne

theorem early_init (tasks : List Runnable) (reader : Bool) : (init tasks reader).Early := by
  rw [init_eq]
  refine ⟨rfl, rfl, rfl, fun g => rfl, fun g hg => ?_⟩
  cases reader <;> cases hg

theorem early_run {tasks : List Runnable} {reader : Bool} {as : List Action} {s : TaskManager}
    (h : Trace.run step (init tasks reader) as = some s) (hend : s.main.ended = false) :
    s.Early := by
  refine (Trace.run_invariant (I := fun s => s.Managed ∧ (s.main.ended = false → s.Early)) ?_
    ⟨managed_init tasks reader, fun _ => early_init tasks reader⟩ h).2 hend
  intro u a v hu hv
  obtain ⟨hc, hstep⟩ := step_iff.mp hv
  exact ⟨managed_step hu.1 hc hstep,
    fun hv' => early_step hu.1 (hu.2 (not_ended_step hstep hv')) hstep hv'⟩

/-! ## Waiting for `Caches` -/

/-- The checks of the caches in `N` never succeed, those of the others do. -/
def Action.Honest (N : Nat → Prop) : Action → Prop
  | .check .caches i ok => ok = true ↔ ¬ N i
  | _ => True

theorem Action.Makes.honest {N : Nat → Prop} {a : Action} {b : Group.Action}
    (h : a.Makes .caches b) (ha : a.Honest N) : b.Honest N := by
  cases b with
  | check i ok =>
    obtain rfl := h.2 i ok rfl
    exact ha
  | _ => trivial

/-- `Start` waits for `Caches`. -/
structure InCaches (s : TaskManager) : Prop where
  managed : s.Managed
  early : s.Early
  main : s.main = .inside .caches
  ctx : s.ctxErr.isSome = true

theorem ctxErr_kept {s t : TaskManager} {a : Action} (hs : s.ctxErr.isSome = true)
    (h : Step s a t) : t.ctxErr.isSome = true := by
  cases h with
  | cancel _ => simp
  | drainCancel _ | stopCancel _ | timeout _ _ => simpa using hs
  | recvReport hr _ | recvRunErr hr _ =>
    rcases receive_cases hr with ⟨_, _, rfl⟩ | ⟨_, _, rfl⟩ <;> exact hs
  | _ => exact hs

/-- `Start` goes on only when `Start` of `Caches` has returned. -/
theorem main_inCaches {s t : TaskManager} {a : Action} (hs : s.InCaches) (h : Step s a t) :
    t.main = .inside .caches ∨
      (s.groups .caches).calls 0 = .returned ∧ (t.main = .select ∨ t.main.ended = true) := by
  have hno : ∀ {pc : StartPc}, s.main = pc → pc ≠ .inside .caches → False :=
    fun hpc hne => hne (hpc.symm.trans hs.main)
  cases h with
  | callStart hm _ | seeDone hm _ => exact (hno hm (by simp)).elim
  | shutdown hm => exact (hno hm (by simp)).elim
  | shutdownReturned hm _ => exact (hno hm (by simp)).elim
  | @startReturned g hm hret =>
    have hg : g = .caches := by
      have hsame := hm.symm.trans hs.main
      cases hsame
      rfl
    subst hg
    refine Or.inr ⟨hret, ?_⟩
    cases hx : (s.groups .caches).startErr <;> simp [StartPc.next, StartPc.ended]
  | recvReport hr _ | recvRunErr hr _ =>
    rcases receive_cases hr with ⟨_, hm, rfl⟩ | ⟨_, _, rfl⟩
    · exact (hno hm (by simp)).elim
    · exact Or.inl hs.main
  | drainCancel _ | cancel _ | stopCancel _ | timeout _ _ => exact Or.inl (by simpa using hs.main)
  | _ => exact Or.inl hs.main

/-- What the honest steps of a group preserve. -/
theorem caches_step {I : Group → Prop} {N : Nat → Prop} {s t : TaskManager} {a : Action}
    (hs : s.Managed) (ha : a.Honest N)
    (hI : ∀ u v b, Group.Action.Honest N b → I u → Group.Step u b v → I v)
    (hi : I (s.groups .caches)) (hc : s.crashed = false) (h : Step s a t) :
    I (t.groups .caches) := by
  rcases groups_step hs hc h .caches with heq | ⟨b, hb, hu⟩
  · rwa [heq]
  · exact hI _ _ b (hb.honest ha) hi (Group.step_iff.mp hu).2

theorem inCaches_step {s t : TaskManager} {a : Action} (hs : s.InCaches) (h : step s a = some t)
    (hmain : t.main = .inside .caches) : t.InCaches := by
  obtain ⟨hc, hstep⟩ := step_iff.mp h
  exact ⟨managed_step hs.managed hc hstep,
    early_step hs.managed hs.early hstep (by rw [hmain]; rfl), hmain, ctxErr_kept hs.ctx hstep⟩

/-- Entry `i` of `Caches` keeps `Start` waiting. -/
structure CachesBlocked (N : Nat → Prop) (i : Nat) (s : TaskManager) : Prop where
  inCaches : s.InCaches
  blocking : (s.groups .caches).Blocking N i

theorem cachesBlocked_step {N : Nat → Prop} {i : Nat} {s t : TaskManager} {a : Action}
    (hs : CachesBlocked N i s) (ha : a.Honest N) (h : step s a = some t) :
    CachesBlocked N i t := by
  obtain ⟨hc, hstep⟩ := step_iff.mp h
  have hmain : t.main = .inside .caches := by
    refine (main_inCaches hs.inCaches hstep).resolve_right fun hret => ?_
    have hdone := (hs.inCaches.managed.reachable .caches).stopsOnce.returned 0 hret.1
    rw [hs.blocking.body] at hdone
    cases hdone
  refine ⟨inCaches_step hs.inCaches h hmain, ?_⟩
  exact caches_step (I := fun u => u.Blocking N i) hs.inCaches.managed ha
    (fun u v b hb hu hv => Group.blocking_step hu hb hv) hs.blocking hc hstep

/-! ## A start that comes to `shutdown` -/

/-- `Start` has come to `shutdown`, is at its `select`, or waits for `Caches`, which is not
stuck. -/
structure CachesGoing (N : Nat → Prop) (s : TaskManager) : Prop where
  managed : s.Managed
  ctx : s.ctxErr.isSome = true
  main : s.main.ended = true ∨
    s.Early ∧ (s.main = .select ∨ s.main = .inside .caches ∧ Group.Going N (s.groups .caches))

theorem select_step {s t : TaskManager} {a : Action} (hs : s.main = .select) (h : Step s a t) :
    t.main = .select ∨ t.main.ended = true := by
  have hno : ∀ {pc : StartPc}, s.main = pc → pc ≠ .select → False :=
    fun hpc hne => hne (hpc.symm.trans hs)
  cases h with
  | callStart hm _ | inStart hm _ _ | startReturned hm _ => exact (hno hm (by simp)).elim
  | shutdown hm => exact (hno hm (by simp)).elim
  | shutdownReturned hm _ => exact (hno hm (by simp)).elim
  | seeDone _ _ => exact Or.inr rfl
  | recvReport hr _ | recvRunErr hr _ =>
    rcases receive_cases hr with ⟨_, _, rfl⟩ | ⟨_, _, rfl⟩
    · exact Or.inr rfl
    · exact Or.inl hs
  | drainCancel _ | cancel _ | stopCancel _ | timeout _ _ => exact Or.inl (by simpa using hs)
  | _ => exact Or.inl hs

theorem cachesGoing_step {N : Nat → Prop} {s t : TaskManager} {a : Action}
    (hs : CachesGoing N s) (ha : a.Honest N) (h : step s a = some t) : CachesGoing N t := by
  obtain ⟨hc, hstep⟩ := step_iff.mp h
  refine ⟨managed_step hs.managed hc hstep, ctxErr_kept hs.ctx hstep, ?_⟩
  cases hend : t.main.ended with
  | true => exact Or.inl rfl
  | false =>
    rcases hs.main with hold | ⟨hearly, hplace⟩
    · rw [ended_step hold hstep] at hend
      cases hend
    · refine Or.inr ⟨early_step hs.managed hearly hstep hend, ?_⟩
      have hno : ¬ t.main.ended = true := by
        rw [hend]
        simp
      rcases hplace with hsel | ⟨hin, hgoing⟩
      · exact Or.inl ((select_step hsel hstep).resolve_right hno)
      · rcases main_inCaches ⟨hs.managed, hearly, hin, hs.ctx⟩ hstep with hmain | ⟨_, hmain⟩
        · refine Or.inr ⟨hmain, ?_⟩
          exact caches_step (I := Group.Going N) hs.managed ha
            (fun u v b hb hu hv => Group.going_step hu hb hv) hgoing hc hstep
        · exact Or.inl (hmain.resolve_right hno)

theorem groups_setGroup (s : TaskManager) (g : GroupName) (u : Group) :
    (s.setGroup g u).groups g = u := by
  unfold setGroup
  exact Function.update_self ..

theorem setGroup_setGroup (s : TaskManager) (g : GroupName) (u v : Group) :
    (s.setGroup g u).setGroup g v = s.setGroup g v := by
  unfold setGroup
  simp only [Function.update_idem]

/-- A run of a group by steps that need no call is a run of the manager. -/
theorem reaches_setGroup {N : Nat → Prop} {as : List Group.Action} :
    ∀ {s : TaskManager} {u : Group}, s.crashed = (s.groups .caches).crashed →
      (∀ a ∈ as, Group.Action.Waking N a) →
      Trace.run Group.step (s.groups .caches) as = some u →
      Trace.Reaches step (Action.Honest N) s (s.setGroup .caches u) := by
  induction as with
  | nil =>
    intro s u hc _ h
    cases h
    have hsame : s.setGroup .caches (s.groups .caches) = s := by
      unfold setGroup
      rw [Function.update_eq_self, ← hc]
    rw [hsame]
    exact .refl s
  | cons a as ih =>
    intro s u hc ha h
    obtain ⟨v, hv, hrun⟩ := Trace.run_cons_eq_some.mp h
    have hrunning : s.crashed = false := hc.trans (Group.step_iff.mp hv).1
    have hgroup := groups_setGroup s .caches v
    have hfirst : Trace.Reaches step (Action.Honest N) s (s.setGroup .caches v) := by
      have hwake := ha a List.mem_cons_self
      cases a with
      | reconcile | body | recvReady i =>
        exact .single (a := .group .caches _) trivial (step_iff.mpr ⟨hrunning, .group rfl hv⟩)
      | check i ok =>
        obtain ⟨rfl, hN⟩ := hwake
        exact .single (a := .check .caches i true) (iff_of_true rfl hN)
          (step_iff.mpr ⟨hrunning, .check hv⟩)
      | _ => exact hwake.elim
    have hrest := ih (s := s.setGroup .caches v) (u := u) (by rw [hgroup]; rfl)
      (fun b hb => ha b (List.mem_cons_of_mem a hb)) (by rwa [hgroup])
    rw [setGroup_setGroup] at hrest
    exact hfirst.trans hrest

theorem exists_ended_of_select {N : Nat → Prop} {s : TaskManager} (hc : s.crashed = false)
    (hctx : s.ctxErr.isSome = true) (hm : s.main = .select) :
    ∃ t, Trace.Reaches step (Action.Honest N) s t ∧ t.main.ended = true :=
  ⟨_, .single (a := .seeDone) trivial (step_iff.mpr ⟨hc, .seeDone hm hctx⟩), rfl⟩

/-- `Start` of `Caches` has returned. -/
theorem exists_ended_of_returned {N : Nat → Prop} {s : TaskManager} (hs : CachesGoing N s)
    (hm : s.main = .inside .caches) (hret : (s.groups .caches).calls 0 = .returned)
    (hc : s.crashed = false) :
    ∃ t, Trace.Reaches step (Action.Honest N) s t ∧ t.main.ended = true := by
  have hstep := Step.startReturned hm hret
  have hreach : Trace.Reaches step (Action.Honest N) s _ :=
    .single (a := .main) trivial (step_iff.mpr ⟨hc, hstep⟩)
  cases hx : (s.groups .caches).startErr with
  | some err =>
    refine ⟨_, hreach, ?_⟩
    rw [hx]
    rfl
  | none =>
    obtain ⟨t, ht, hend⟩ := exists_ended_of_select (N := N)
      (s := { s with main := .next .caches (s.groups .caches).startErr }) hc hs.ctx
      (by rw [hx]; rfl)
    exact ⟨t, hreach.trans ht, hend⟩

/-- **A cancelled `Start` that is not stuck comes to `shutdown`.** -/
theorem exists_ended {N : Nat → Prop} {s : TaskManager} (hs : CachesGoing N s) :
    ∃ t, Trace.Reaches step (Action.Honest N) s t ∧ t.main.ended = true := by
  rcases hs.main with hend | ⟨hearly, hsel | ⟨hin, hgoing⟩⟩
  · exact ⟨s, .refl s, hend⟩
  · exact exists_ended_of_select hearly.running hs.ctx hsel
  · have hcrash := ((hs.managed.reachable .caches).untouched (hs.managed.oneStop .caches)
      (hearly.idle .caches)).1
    -- the body of `startOnce` comes to its end, and the call of `Start` returns
    obtain ⟨u, ⟨as, has, hrun⟩, hucrash, hudone, hcalls⟩ := Group.exists_done hgoing hcrash
    have hreach := reaches_setGroup (s := s) (hearly.running.trans hcrash.symm) has hrun
    have hgroup := groups_setGroup s .caches u
    have hu : CachesGoing N (s.setGroup .caches u) :=
      Trace.Reaches.invariant (I := CachesGoing N) (fun _ _ _ hu ha hv => cachesGoing_step hu ha hv)
        hs hreach
    have hbegun : u.calls 0 = .start ∨ u.calls 0 = .returned := by
      have hne := hearly.inside .caches hin
      rw [hcalls]
      exact ((hs.managed.oneStop .caches).starts 0 (by simp)).resolve_left hne
    rcases hbegun with hstart | hret
    · have hdone := Group.Step.startDone hstart hudone
      have hmain := Step.inStart (s := s.setGroup .caches u) hin
        (by rw [hgroup, hstart]; simp)
        (by rw [hgroup]; exact Group.step_iff.mpr ⟨hucrash, hdone⟩)
      have hnext : Trace.Reaches step (Action.Honest N) (s.setGroup .caches u) _ :=
        .single (a := .main) trivial (step_iff.mpr ⟨hucrash, hmain⟩)
      have hv := Trace.Reaches.invariant (I := CachesGoing N)
        (fun _ _ _ hu ha hv => cachesGoing_step hu ha hv) hu hnext
      have hret : (((s.setGroup .caches u).setGroup .caches
          (u.setCall 0 .returned)).groups .caches).calls 0 = .returned := by
        rw [groups_setGroup]
        show Function.update u.calls 0 .returned 0 = .returned
        rw [Function.update_self]
      obtain ⟨t, ht, hend⟩ := exists_ended_of_returned hv hin hret hucrash
      exact ⟨t, (hreach.trans hnext).trans ht, hend⟩
    · obtain ⟨t, ht, hend⟩ := exists_ended_of_returned hu hin (by rw [hgroup]; exact hret) hucrash
      exact ⟨t, hreach.trans ht, hend⟩

/-- **`Start` waiting for `Caches`**, its context done. Where the checks of the caches in `N` never
succeed, it keeps a way to `shutdown` if and only if every entry of the start queue can signal. -/
theorem caches_ends_iff {tasks : List Runnable} {reader : Bool} {as : List Action}
    {s : TaskManager} (h : Trace.run step (init tasks reader) as = some s)
    (hm : s.main = .inside .caches) (hb : (s.groups .caches).body = .ready)
    (hctx : s.ctxErr.isSome = true) (N : Nat → Prop) :
    Trace.AlwaysReaches step (Action.Honest N) (fun t => t.main.ended = true) s ↔
      ∀ i ∈ (s.groups .caches).startQueue, (s.groups .caches).CanSignal N i := by
  have hs : s.InCaches := ⟨managed_run h, early_run h (by rw [hm]; rfl), hm, hctx⟩
  obtain ⟨cs, hcs⟩ := hs.managed.reachable .caches
  obtain ⟨hp, hl⟩ := Group.looping_run hcs
  constructor
  · intro hall i hi
    by_contra hno
    refine Trace.AlwaysReaches.not_of_invariant (I := CachesBlocked N i) ?_ ?_
      ⟨hs, hp, hb, hi, hno⟩ hall
    · exact fun u a v hu ha hv => cachesBlocked_step hu ha hv
    · intro u hu hend
      rw [hu.inCaches.main] at hend
      cases hend
  · intro hcan
    refine Trace.AlwaysReaches.of_invariant (I := CachesGoing N) ?_ (fun u hu => exists_ended hu) ?_
    · exact fun u a v hu ha hv => cachesGoing_step hu ha hv
    · exact ⟨hs.managed, hctx, Or.inr ⟨hs.early, Or.inr ⟨hm, hp, hl, Or.inl hb, fun _ => hcan⟩⟩⟩

/-! ## What ends a start -/

/-- **A start whose context is done.** The context ends nothing: without a readiness signal the wait
loop ends only if there is nothing to wait for.  Where the checks of the runnables in `N` never
succeed, the loop, a `StopAndWait` that waits for it, and a cancelled `TaskManager.Start` keep a way
to go on if and only if every entry of the start queue can signal.  What `Start` returns is none or
the error `DeadlineExceeded` of its context. -/
theorem cancelled_start_iff (N : Nat → Prop) :
    (∀ as s, Trace.run Group.step newRunnableGroup as = some s →
      (s.body = .ready ∨ s.body.drained = true →
        (Trace.AlwaysReaches Group.step Group.Action.NoSignal (fun t => t.body.drained = true) s ↔
          s.startQueue = [])) ∧
      (s.body = .ready →
        (Trace.AlwaysReaches Group.step (Group.Action.Honest N) (fun t => t.body.drained = true) s ↔
          ∀ i ∈ s.startQueue, s.CanSignal N i)) ∧
      (∀ c, s.body = .ready → s.calls c = .stopStart →
        (Trace.AlwaysReaches Group.step (Group.Action.Honest N)
            (fun t => (t.calls c).cancelling = true) s ↔
          ∀ i ∈ s.startQueue, s.CanSignal N i)) ∧
      ∀ err, s.retErr = some err →
        err = .deadlineExceeded ∧ s.ctxErr s.starter = some .deadlineExceeded) ∧
    ∀ tasks reader as s, Trace.run step (init tasks reader) as = some s →
      s.main = .inside .caches → (s.groups .caches).body = .ready → s.ctxErr.isSome = true →
        (Trace.AlwaysReaches step (Action.Honest N) (fun t => t.main.ended = true) s ↔
          ∀ i ∈ (s.groups .caches).startQueue, (s.groups .caches).CanSignal N i) :=
  ⟨fun _ _ h => ⟨Group.noSignal_ends_iff h, fun hb => Group.wait_ends_iff h hb N,
    fun _ hb hc => Group.stopping_ends_iff h hb hc N, (Group.returns_run h).deadline⟩,
    fun _ _ _ _ h hm hb hctx => caches_ends_iff h hm hb hctx N⟩

/-- A runnable is queued, a `StopAndWait` begins, and its context expires. -/
def expiredStop : List Group.Action :=
  [.add 0, .add 0, .add 0, .add 0, .add 0, .callStop 0, .call 0, .call 0, .body, .body,
    .recvQueue, .body, .reconcile, .reconcile, .reconcile, .expire 0 .deadlineExceeded]

/-- A manager without tasks is cancelled while it waits for the informers and the pump. -/
def cancelledWait : List Action :=
  startEmpty .pumps ++ startEmpty .bpfPrograms ++
    [.main, .main, .group .caches .body, .group .caches .body, .group .caches .recvQueue,
      .group .caches .reconcile, .group .caches .reconcile, .group .caches .reconcile,
      .group .caches .recvQueue, .group .caches .reconcile, .group .caches .reconcile,
      .group .caches .reconcile, .group .caches .body, .cancel .canceled]

theorem run_expiredStop : ∃ s, Trace.run Group.step newRunnableGroup expiredStop = some s ∧
    s.body = .ready ∧ s.calls 0 = .stopStart ∧ s.ctxErr s.starter = some .deadlineExceeded ∧
      s.startQueue = [0] ∧ s.checks 0 = .checking := by
  have hobs : (Trace.run Group.step newRunnableGroup expiredStop).map (fun s =>
      (s.body, s.calls 0, s.ctxErr s.starter)) =
        some (.ready, .stopStart, some .deadlineExceeded) := by decide
  have hqueue : (Trace.run Group.step newRunnableGroup expiredStop).map (fun s =>
      (s.startQueue, s.checks 0)) = some ([0], .checking) := by decide
  obtain ⟨s, hs, hobs⟩ := Option.map_eq_some_iff.mp hobs
  rw [hs] at hqueue
  simp only [Prod.mk.injEq, Option.map_some, Option.some.injEq] at hobs hqueue
  exact ⟨s, hs, hobs.1, hobs.2.1, hobs.2.2, hqueue.1, hqueue.2⟩

theorem run_cancelledWait : ∃ s, Trace.run step (init [] true) cancelledWait = some s ∧
    s.main = .inside .caches ∧ (s.groups .caches).body = .ready ∧ s.ctxErr = some .canceled ∧
      (s.groups .caches).startQueue = [0, 1] ∧ (s.groups .caches).checks 0 = .checking ∧
        (s.groups .caches).checks 1 = .checking := by
  have hobs : (Trace.run step (init [] true) cancelledWait).map (fun s =>
      (s.main, (s.groups .caches).body, s.ctxErr)) =
        some (.inside .caches, .ready, some .canceled) := by decide
  have hqueue : (Trace.run step (init [] true) cancelledWait).map (fun s =>
      ((s.groups .caches).startQueue, (s.groups .caches).checks 0, (s.groups .caches).checks 1)) =
        some ([0, 1], .checking, .checking) := by decide
  obtain ⟨s, hs, hobs⟩ := Option.map_eq_some_iff.mp hobs
  rw [hs] at hqueue
  simp only [Prod.mk.injEq, Option.map_some, Option.some.injEq] at hobs hqueue
  exact ⟨s, hs, hobs.1, hobs.2.1, hobs.2.2, hqueue.1, hqueue.2.1, hqueue.2.2⟩

/-- A runnable whose check never succeeds keeps a `StopAndWait` with an expired context, and a
cancelled manager, in the start for good. -/
theorem cancelled_start_stuck :
    (∃ s, Trace.run Group.step newRunnableGroup expiredStop = some s ∧
      s.ctxErr s.starter = some .deadlineExceeded ∧
      ¬ Trace.AlwaysReaches Group.step (Group.Action.Honest (· = 0))
          (fun t => t.body.drained = true) s ∧
      ¬ Trace.AlwaysReaches Group.step (Group.Action.Honest (· = 0))
          (fun t => (t.calls 0).cancelling = true) s) ∧
    ∃ s, Trace.run step (init [] true) cancelledWait = some s ∧ s.ctxErr = some .canceled ∧
      ¬ Trace.AlwaysReaches step (Action.Honest (· = 0)) (fun t => t.main.ended = true) s := by
  constructor
  · obtain ⟨s, hs, hb, hcall, hctx, hq, hpc⟩ := run_expiredStop
    have hno : ¬ ∀ i ∈ s.startQueue, s.CanSignal (· = 0) i := by
      intro hall
      rcases hall 0 (by rw [hq]; simp) with hsig | hcan
      · rw [hpc] at hsig
        cases hsig
      · exact hcan.1 rfl
    exact ⟨s, hs, hctx, fun h => hno ((Group.wait_ends_iff hs hb _).mp h),
      fun h => hno ((Group.stopping_ends_iff hs hb hcall _).mp h)⟩
  · obtain ⟨s, hs, hm, hb, hctx, hq, hpc, _⟩ := run_cancelledWait
    refine ⟨s, hs, hctx, fun h => ?_⟩
    have hall := (caches_ends_iff hs hm hb (by rw [hctx]; rfl) _).mp h
    rcases hall 0 (by rw [hq]; simp) with hsig | hcan
    · rw [hpc] at hsig
      cases hsig
    · exact hcan.1 rfl

theorem cancelled_start_iff_runs :
    (∃ s, Trace.run Group.step newRunnableGroup expiredStop = some s ∧
      Trace.AlwaysReaches Group.step (Group.Action.Honest fun _ => False)
        (fun t => (t.calls 0).cancelling = true) s) ∧
    ∃ s, Trace.run step (init [] true) cancelledWait = some s ∧
      Trace.AlwaysReaches step (Action.Honest fun _ => False) (fun t => t.main.ended = true) s := by
  constructor
  · obtain ⟨s, hs, hb, hcall, _, hq, hpc⟩ := run_expiredStop
    refine ⟨s, hs, (((cancelled_start_iff _).1 _ s hs).2.2.1 0 hb hcall).mpr fun i hi => ?_⟩
    rw [hq, List.mem_singleton] at hi
    subst hi
    exact Or.inr ⟨id, by rw [hpc]; simp⟩
  · obtain ⟨s, hs, hm, hb, hctx, hq, hpc, hpc'⟩ := run_cancelledWait
    refine ⟨s, hs, ((cancelled_start_iff _).2 _ _ _ s hs hm hb (by rw [hctx]; rfl)).mpr
      fun i hi => Or.inr ⟨id, ?_⟩⟩
    rw [hq, List.mem_pair] at hi
    rcases hi with rfl | rfl
    · rw [hpc]
      simp
    · rw [hpc']
      simp

end TaskManager

end EDGuard
