import EDGuard.ManagerReady

/-!
# A failed start

`Start` fails when one of its steps returns an error: adding the informers, creating the perf
reader, adding the pump, or `Start` of a group.  The deferred `shutdown` is the same for all of
them.

* `Group.Fresh` — a group to which runnables were added and that was neither started nor stopped;
  `fresh_run` — `Caches` is such a group until `Start` comes to it.
* `not_addFails` — adding to groups that nobody stops succeeds, so two of these steps cannot fail;
  `not_fails_pumps` — nor can `Start` of `Pumps`, to which nothing is added.
* `closesNil_iff` — the reader that is closed was never created if its creation failed.
* `failed_start_iff` — **a failed start**: `StopAndWait` starts a group that `Start` had not come
  to, so only a failure of the last group, `Caches`, starts nothing new.
-/

set_option autoImplicit false

namespace EDGuard

namespace Group

/-- A group to which `q` was added, and nothing else was done; a context may be done. -/
def Fresh (q : List Nat) (s : Group) : Prop := ∃ x, s = { queued q with ctxErr := x }

theorem fresh_step {q : List Nat} {s t : Group} {a : Action} (hs : s.Fresh q) (ha : a.managed)
    (hstart : a ≠ .callStart 0) (hstop : a ≠ .callStop 1) (h : Step s a t) : t.Fresh q := by
  obtain ⟨x, rfl⟩ := hs
  cases h with
  | expire _ => exact ⟨_, rfl⟩
  | callStart _ =>
    obtain rfl := ha
    exact absurd rfl hstart
  | callStop _ =>
    obtain rfl := ha
    exact absurd rfl hstop
  | addBegin _ | addRlock _ _ | addRefuse _ _ | addPass _ _ | addLock _ _ | addQueue _ _
  | addStarted _ _ | addCrash _ _ | recvAdd _ _ _ => cases ha
  | startOnce hpc _ => rcases hpc with hpc | hpc <;> cases hpc
  | startDone hpc _ | stopStartDone hpc _ | stopOnce hpc _ | stopDone hpc _ | stopLock hpc _ _
  | stopSet hpc | stopCancel hpc | stopWait hpc _ | stopClose hpc => cases hpc
  | bodySpawn hb | bodyUnlock hb | bodyClose hb => cases hb
  | bodyLock hb _ | ctxDeadline hb _ | ctxCanceled hb _ | recvReady hb _ => cases hb
  | recvQueue hrec _ _ => cases hrec
  | exit hrec _ | rlock hrec _ | drop hrec _ | wgAdd hrec _ => cases hrec
  | launch hrec | recvReport hrec => cases hrec
  | check hpc | runReturn hpc | recvRunErr hpc | wgDone hpc => cases hpc
  | signalCrash hpc _ => cases hpc

/-- The steps of a call of `Add` do not refuse it while the group is not stopped. -/
theorem unrefused_step {i : Nat} (s : Group) (a : Action) (t : Group)
    (hs : s.stopped = false ∧ s.adds i ≠ .refused) (ha : a = .add i) (h : step s a = some t) :
    t.stopped = false ∧ t.adds i ≠ .refused := by
  have hset : ∀ {pc : AddPc}, pc ≠ .refused → Function.update s.adds i pc i ≠ .refused := by
    intro pc hpc
    rwa [Function.update_self]
  subst ha
  cases (step_iff.mp h).2 with
  | addRefuse _ hst =>
    rw [hs.1] at hst
    cases hst
  | addCrash _ _ => exact hs
  | addBegin _ | addRlock _ _ | addPass _ _ | addLock _ _ | addQueue _ _ | addStarted _ _ =>
    exact ⟨hs.1, hset (by simp)⟩

/-- Nothing was added, so the body of `startOnce` waits for nothing. -/
structure Unused (s : Group) : Prop where
  queue : s.startQueue = []
  body : s.body ≠ .ready ∧ ∀ q, s.body = .enqueue q → q = []
  retErr : s.retErr = none

theorem unused_step {s t : Group} {a : Action} (hs : s.Unused) (ha : a.managed)
    (h : Step s a t) : t.Unused := by
  cases h with
  | addBegin _ | addRlock _ _ | addRefuse _ _ | addPass _ _ | addLock _ _ | addQueue _ _
  | addStarted _ _ | addCrash _ _ | recvAdd _ _ _ => cases ha
  | startOnce _ _ | bodySpawn _ | bodyClose _ => exact ⟨hs.queue, by simp, hs.retErr⟩
  | bodyLock _ _ =>
    refine ⟨hs.queue, ⟨by simp, fun q hq => ?_⟩, hs.retErr⟩
    cases hq
    exact hs.queue
  | bodyUnlock _ =>
    refine ⟨hs.queue, ?_, hs.retErr⟩
    rw [if_pos hs.queue]
    simp
  | recvQueue _ hb _ => cases hs.body.2 _ hb
  | ctxDeadline hb _ | ctxCanceled hb _ | recvReady hb _ => exact absurd hb hs.body.1
  | _ => exact ⟨hs.queue, hs.body, hs.retErr⟩

end Group

/-- `TaskManager.Start` has not come to `Start` of `Caches`. -/
def StartPc.beforeCaches : StartPc → Bool
  | .call _ | .inside .pumps | .inside .bpfPrograms => true
  | _ => false

namespace TaskManager

/-! ## Before `Caches` is started -/

theorem fresh_setGroup {q : List Nat} {s : TaskManager} {g : GroupName} {b : Group.Action}
    {u : Group} (hs : (s.groups .caches).Fresh q) (hu : Group.step (s.groups g) b = some u)
    (hb : b.managed) (hstart : b ≠ .callStart 0) (hstop : b ≠ .callStop 1) :
    (Function.update s.groups g u .caches).Fresh q := by
  rcases eq_or_ne .caches g with rfl | hg
  · rw [Function.update_self]
    exact Group.fresh_step hs hb hstart hstop (Group.step_iff.mp hu).2
  · rwa [Function.update_of_ne hg]

theorem fresh_expire {q : List Nat} {s : TaskManager} (hs : (s.groups .caches).Fresh q) (c : Nat)
    (err : CtxErr) : (s.expire c err .caches).Fresh q := by
  obtain ⟨x, hx⟩ := hs
  refine ⟨Function.update x c (some err), ?_⟩
  unfold expire
  rw [hx]

/-- Its contexts may be done. -/
theorem fresh_cancel {q : List Nat} {s : TaskManager} (hs : (s.groups .caches).Fresh q)
    (err : CtxErr) : ((s.internalCancel err).groups .caches).Fresh q ∧
      ((s.shutdownCancel err).groups .caches).Fresh q := by
  constructor
  · unfold internalCancel
    split
    · exact fresh_expire hs 0 err
    · exact hs
  · unfold shutdownCancel
    split
    · exact fresh_expire hs 1 err
    · exact hs

theorem fresh_groups {q : List Nat} {s t : TaskManager} {a : Action} (hoff : s.stop = .off)
    (hs : (s.groups .caches).Fresh q) (h : Step s a t) (ht : t.main.beforeCaches = true) :
    (t.groups .caches).Fresh q := by
  cases h with
  | @callStart g u _ _ =>
    have hg : GroupName.caches ≠ g := by
      rintro rfl
      cases ht
    show (Function.update s.groups g u .caches).Fresh q
    rwa [Function.update_of_ne hg]
  | callStop hpc _ =>
    rw [hoff] at hpc
    cases hpc
  | inStart _ _ hu => exact fresh_setGroup hs hu (Or.inl rfl) (by simp) (by simp)
  | inStop _ _ hu => exact fresh_setGroup hs hu (Or.inr rfl) (by simp) (by simp)
  | @group g b u hb hu =>
    have hmanaged : b.managed := (Action.Makes.of_internal (a := .main) (g := g) hb).1
    refine fresh_setGroup hs hu hmanaged ?_ ?_
    · rintro rfl
      cases hb
    · rintro rfl
      cases hb
  | check hu | runReturn _ hu => exact fresh_setGroup hs hu trivial (by simp) (by simp)
  | recvReport hr hu | recvRunErr hr hu =>
    rcases receive_cases hr with ⟨_, _, rfl⟩ | ⟨_, _, rfl⟩ <;>
      exact fresh_setGroup hs hu trivial (by simp) (by simp)
  | drainCancel _ | cancel _ => exact (fresh_cancel hs _).1
  | stopCancel _ | timeout _ _ => exact (fresh_cancel hs _).2
  | _ => exact hs

theorem beforeCaches_step {s t : TaskManager} {a : Action} (h : Step s a t)
    (ht : t.main.beforeCaches = true) : s.main.beforeCaches = true := by
  cases h with
  | callStart hm _ =>
    rw [hm]
    rfl
  | @startReturned g hm _ =>
    rw [hm]
    cases g with
    | pumps | bpfPrograms => rfl
    | caches => cases hx : (s.groups .caches).startErr <;> simp [StartPc.next, hx,
        StartPc.beforeCaches] at ht
  | shutdown _ | shutdownReturned _ _ | seeDone _ _ => cases ht
  | recvReport hr _ | recvRunErr hr _ =>
    rcases receive_cases hr with ⟨_, _, rfl⟩ | ⟨_, _, rfl⟩
    · cases ht
    · exact ht
  | drainCancel _ | cancel _ | stopCancel _ | timeout _ _ => simpa using ht
  | _ => exact ht

theorem not_ended_of_beforeCaches {pc : StartPc} (h : pc.beforeCaches = true) :
    pc.ended = false := by
  cases pc with
  | call _ | inside _ => rfl
  | select | shutdown | wait | returned _ => cases h

/-- **`Caches` is untouched** until `Start` comes to it. -/
theorem fresh_run {tasks : List Runnable} {as : List Action} {s : TaskManager}
    (h : Trace.run step (init tasks true) as = some s) (hm : s.main.beforeCaches = true) :
    (s.groups .caches).Fresh (idsOf (tasks ++ ownTasks true) .caches) := by
  have hstart : ((init tasks true).groups .caches).Fresh
      (idsOf (tasks ++ ownTasks true) .caches) := by
    rw [init_eq]
    exact ⟨_, rfl⟩
  refine (Trace.run_invariant (I := fun s => s.Managed ∧ (s.main.ended = false → s.Early) ∧
    (s.main.beforeCaches = true →
      (s.groups .caches).Fresh (idsOf (tasks ++ ownTasks true) .caches))) ?_
    ⟨managed_init tasks true, fun _ => early_init tasks true, fun _ => hstart⟩ h).2.2 hm
  rintro u a v ⟨hu, he, hf⟩ hv
  obtain ⟨hc, hstep⟩ := step_iff.mp hv
  refine ⟨managed_step hu hc hstep,
    fun hv' => early_step hu (he (not_ended_step hstep hv')) hstep hv', fun hv' => ?_⟩
  have hbefore := beforeCaches_step hstep hv'
  exact fresh_groups (he (not_ended_of_beforeCaches hbefore)).stop (hf hbefore) hstep hv'

/-! ## What fails -/

/-- The steps of `Start` that can return an error. -/
inductive FailedStep where
  /-- `runnables.Add` of the informers -/
  | cache
  /-- `perf.NewReader` -/
  | reader
  /-- `runnables.Add` of the pump -/
  | pump
  /-- `Start` of a group -/
  | start (g : GroupName)
  deriving DecidableEq

/-- `runnables.Add` of `fn` is refused, and `Start` comes to `shutdown` in the state `t`. -/
def AddFails (s : TaskManager) (fn : Runnable) (t : TaskManager) : Prop :=
  ∃ g u, fn.group = some g ∧
    Trace.Reaches Group.step (fun a => a = .add s.added.length) (s.groups g) u ∧
      u.adds s.added.length = .refused ∧ t = { s.setGroup g u with main := .shutdown }

/-- `Start` of the tasks fails at the step, and comes to `shutdown` in the state `s`. -/
def Fails (tasks : List Runnable) : FailedStep → TaskManager → Prop
  | .cache, s => AddFails (tasks.foldl Add NewTaskManager) informerCache s
  | .reader, s => s = init tasks false
  | .pump, s =>
    AddFails { (tasks.foldl Add NewTaskManager).Add informerCache with rd := true } eventPump s
  | .start g, s => ∃ as u, Trace.run step (init tasks true) as = some u ∧ u.main = .inside g ∧
      (u.groups g).calls 0 = .returned ∧ (u.groups g).startErr.isSome = true ∧
        step u .main = some s

/-- The goroutine that drains `errCh` comes to `Close` of a reader that was never created. -/
def ClosesNil (s : TaskManager) : Prop := s.crashed = false ∧ s.drain = .close ∧ s.rd = false

/-- The runnable was handed to its group, and the group is started. -/
def Handed (s : TaskManager) (p : GroupName × Nat) : Prop :=
  (s.groups p.1).started = true ∧ (s.groups p.1).adds p.2 = .returned

/-- No `shutdown` from here closes a reader that was never created. -/
def NeverClosesNil (s : TaskManager) : Prop :=
  ∀ as t, Trace.run step s as = some t → ¬ t.ClosesNil

/-- No `shutdown` from here invokes a runnable that is not handed to a started group here. -/
def NeverStrays (s : TaskManager) : Prop :=
  ∀ as t, Trace.run step s as = some t → ∀ p ∈ t.invoked, s.Handed p

/-- **`Add` succeeds** while nobody stops the groups. -/
theorem not_addFails {s t : TaskManager} {fn : Runnable}
    (hstop : ∀ g, (s.groups g).stopped = false)
    (hadds : ∀ g, (s.groups g).adds s.added.length ≠ .refused) : ¬ AddFails s fn t := by
  rintro ⟨g, u, -, hreach, hrefused, -⟩
  exact (hreach.invariant Group.unrefused_step ⟨hstop g, hadds g⟩).2 hrefused

theorem not_fails_add {tasks : List Runnable} {s : TaskManager} :
    ¬ Fails tasks .cache s ∧ ¬ Fails tasks .pump s := by
  have hadds : ∀ q : List Nat, ∀ i, (Group.queued q).adds i ≠ .refused := by
    intro q i
    show (if i ∈ q then AddPc.returned else .idle) ≠ .refused
    split <;> simp
  unfold Fails
  rw [foldl_Add, withTasks_Add]
  exact ⟨not_addFails (fun _ => rfl) fun _ => hadds _ _,
    not_addFails (fun _ => rfl) fun _ => hadds _ _⟩

/-- **`Start` of `Pumps` succeeds**: its start queue is empty. -/
theorem not_fails_pumps {tasks : List Runnable} {s : TaskManager} :
    ¬ Fails tasks (.start .pumps) s := by
  rintro ⟨as, u, hu, _, _, herr, _⟩
  have hunused : (u.groups .pumps).Unused := by
    refine (Trace.run_invariant (I := fun v => v.Managed ∧ (v.groups .pumps).Unused)
      (fun v a w hv hw => ?_) ⟨managed_init tasks true, ?_⟩ hu).2
    · obtain ⟨hc, hstep⟩ := step_iff.mp hw
      refine ⟨managed_step hv.1 hc hstep, ?_⟩
      rcases groups_step hv.1 hc hstep .pumps with heq | ⟨b, hb, hg⟩
      · rw [heq]
        exact hv.2
      · exact Group.unused_step hv.2 hb.1 (Group.step_iff.mp hg).2
    · rw [init_eq]
      have hqueue : idsOf (tasks ++ ownTasks true) .pumps = [] := idsOf_pumps _
      exact ⟨hqueue, ⟨BodyPc.noConfusion, fun q hq => (by cases hq)⟩, rfl⟩
  unfold Group.startErr at herr
  rw [hunused.retErr, ite_self] at herr
  cases herr

/-- `Start` of a group has returned an error. -/
theorem fails_start {tasks : List Runnable} {g : GroupName} {s : TaskManager}
    (h : Fails tasks (.start g) s) : ∃ as u, Trace.run step (init tasks true) as = some u ∧
      u.main = .inside g ∧ (u.groups g).calls 0 = .returned ∧ step u .main = some s ∧
        s = { u with main := .shutdown } := by
  obtain ⟨as, u, hu, hm, hret, herr, hs⟩ := h
  refine ⟨as, u, hu, hm, hret, hs, ?_⟩
  have hno : ∀ {pc : StartPc}, u.main = pc → pc ≠ .inside g → False :=
    fun hpc hne => hne (hpc.symm.trans hm)
  cases (step_iff.mp hs).2 with
  | callStart hpc _ => exact (hno hpc (by simp)).elim
  | inStart hpc hne _ =>
    cases hm.symm.trans hpc
    exact absurd hret hne
  | startReturned hpc _ =>
    cases hm.symm.trans hpc
    obtain ⟨err, herr⟩ := Option.isSome_iff_exists.mp herr
    rw [herr]
    rfl
  | shutdown hpc => exact (hno hpc (by simp)).elim
  | shutdownReturned hpc _ => exact (hno hpc (by simp)).elim

/-! ## The reader -/

theorem rd_step {s t : TaskManager} {a : Action} (h : Step s a t) : t.rd = s.rd := by
  cases h with
  | drainCancel _ | cancel _ =>
    unfold internalCancel
    split <;> rfl
  | stopCancel _ | timeout _ _ =>
    unfold shutdownCancel
    split <;> rfl
  | recvReport hr _ | recvRunErr hr _ =>
    rcases receive_cases hr with ⟨_, _, rfl⟩ | ⟨_, _, rfl⟩ <;> rfl
  | _ => rfl

theorem rd_run {s t : TaskManager} {as : List Action} (h : Trace.run step s as = some t) :
    t.rd = s.rd :=
  Trace.run_invariant (I := fun u => u.rd = s.rd)
    (fun _ _ _ hu hv => (rd_step (step_iff.mp hv).2).trans hu) rfl h

/-- **The reader**: it is closed without having been created exactly when its creation failed. -/
theorem closesNil_iff {tasks : List Runnable} {k : FailedStep} {s : TaskManager}
    (h : Fails tasks k s) : s.NeverClosesNil ↔ k ≠ .reader := by
  cases k with
  | cache => exact (not_fails_add.1 h).elim
  | pump => exact (not_fails_add.2 h).elim
  | reader =>
    refine iff_of_false (fun hnever => ?_) fun hne => hne rfl
    obtain rfl := h
    rw [init_eq] at hnever
    exact hnever [.main, .drain] _ rfl ⟨rfl, rfl, rfl⟩
  | start g =>
    refine iff_of_true (fun as t ht hnil => ?_) (by simp)
    obtain ⟨bs, u, hu, _, _, _, rfl⟩ := fails_start h
    have hrd : t.rd = true := by
      rw [rd_run ht]
      show u.rd = true
      rw [rd_run hu, init_eq]
    rw [hnil.2.2] at hrd
    cases hrd

/-! ## The runnables -/

/-- `shutdown` up to the invocation of the first runnable of `Caches`. -/
def strayFirst (i : Nat) : List Action :=
  [.main, .stop, .stop, .stop, .group .caches .body, .group .caches .body,
    .group .caches .recvQueue, .group .caches .reconcile, .group .caches .reconcile,
    .group .caches .reconcile, .invoke .caches i]

/-- **`StopAndWait` of an untouched `Caches` starts it.** -/
theorem exists_stray {s : TaskManager} {i : Nat} {q : List Nat} (hc : s.crashed = false)
    (hm : s.main = .shutdown) (hg : (s.groups .caches).Fresh (i :: q)) :
    ∃ as t, Trace.run step s as = some t ∧ (.caches, i) ∈ t.invoked := by
  obtain ⟨x, hg⟩ := hg
  by_cases hmem : (GroupName.caches, i) ∈ s.invoked
  · exact ⟨[], s, rfl, hmem⟩
  · have hrun : ∃ t, Trace.run step s (strayFirst i) = some t ∧ (.caches, i) ∈ t.invoked := by
      simp [strayFirst, Trace.run_cons, step, act, mainStep, stopStep, setGroup, Group.step,
        Group.act, Group.call, Group.onceStart, Group.bodyStep, Group.reconcileStep, Group.setCall,
        Group.Action.internal, Group.queued, newRunnableGroup, hc, hm, hg, hmem]
    exact ⟨strayFirst i, hrun⟩

/-- A runnable of a group that is not started was not handed to a started group. -/
theorem not_handed_of_fresh {s : TaskManager} {q : List Nat} {i : Nat}
    (hg : (s.groups .caches).Fresh q) : ¬ s.Handed (.caches, i) := by
  obtain ⟨x, hg⟩ := hg
  intro hh
  have hstarted := hh.1
  rw [hg] at hstarted
  cases hstarted

/-- The informers are in `Caches`. -/
theorem exists_caches (tasks : List Runnable) (reader : Bool) :
    ∃ i q, idsOf (tasks ++ ownTasks reader) .caches = i :: q := by
  have hmem : informerCache ∈ tasks ++ ownTasks reader :=
    List.mem_append_right _ List.mem_cons_self
  obtain ⟨k, hk⟩ := List.getElem?_of_mem hmem
  exact List.exists_cons_of_ne_nil
    (List.ne_nil_of_mem (mem_idsOf.mpr ⟨informerCache, hk, rfl⟩))

/-- Before `Caches` is started, a failure starts it. -/
theorem strays_of_fresh {s : TaskManager} {q : List Nat} (hc : s.crashed = false)
    (hm : s.main = .shutdown) (hg : (s.groups .caches).Fresh q) (hq : ∃ i q', q = i :: q') :
    ¬ s.NeverStrays := by
  obtain ⟨i, q', rfl⟩ := hq
  intro hnever
  obtain ⟨as, t, ht, hmem⟩ := exists_stray hc hm hg
  exact not_handed_of_fresh hg (hnever as t ht _ hmem)

/-- What was invoked was launched. -/
theorem Logged.launched {s : TaskManager} (hs : s.Managed) (hl : s.Logged) {p : GroupName × Nat}
    (hp : p ∈ s.invoked) : p.2 ∈ (s.groups p.1).launched := by
  refine ((hs.reachable p.1).phase.launches.runs p.2).mpr fun hidle => ?_
  have hlog := hl p
  unfold LoggedAt at hlog
  rw [hidle] at hlog
  exact hlog.1 hp

/-- After all groups were started, only what was handed to them runs. -/
theorem neverStrays_of_started {tasks : List Runnable} {reader : Bool} {bs : List Action}
    {s : TaskManager} (h : Trace.run step (init tasks reader) bs = some s)
    (hstarted : ∀ g, (s.groups g).started = true) : s.NeverStrays := by
  intro as t ht p hp
  have hrun : Trace.run step (init tasks reader) (bs ++ as) = some t := by
    rw [Trace.run_append_of_eq h]
    exact ht
  have hlogged := (shutting_run hrun).logged
  have hmem := hlogged.launched (managed_run hrun) hp
  have hadd := ((managed_run hrun).reachable p.1).phase.launched_added hmem
  rw [adds_run hrun, ← adds_run h] at hadd
  exact ⟨hstarted p.1, hadd⟩

/-- **A failed start fails cleanly** — it closes no missing reader and starts nothing that was not
handed to a started group — exactly when the step that failed is `Start` of `Caches`. -/
theorem failed_start_iff {tasks : List Runnable} {k : FailedStep} {s : TaskManager}
    (h : Fails tasks k s) : s.NeverClosesNil ∧ s.NeverStrays ↔ k = .start .caches := by
  cases k with
  | cache => exact (not_fails_add.1 h).elim
  | pump => exact (not_fails_add.2 h).elim
  | reader =>
    refine iff_of_false (fun hand => ?_) (by simp)
    exact (closesNil_iff h).mp hand.1 rfl
  | start g =>
    obtain ⟨as, u, hu, hm, hret, hs, rfl⟩ := fails_start h
    rcases eq_or_ne g .caches with rfl | hg
    · refine iff_of_true ⟨(closesNil_iff h).mpr (by simp), ?_⟩ rfl
      have hreturned : ∀ g', (u.groups g').calls 0 = .returned := by
        intro g'
        cases g' with
        | caches => exact hret
        | pumps | bpfPrograms => exact pastStarted_run hu _ (by rw [hm]; rfl)
      have hrun : Trace.run step (init tasks true) (as ++ [.main]) =
          some { u with main := .shutdown } := by
        rw [Trace.run_append_of_eq hu, Trace.run_singleton]
        exact hs
      exact neverStrays_of_started hrun fun g' => ((managed_run hu).started (hreturned g')).1
    · have hbefore : u.main.beforeCaches = true := by
        rw [hm]
        cases g with
        | pumps | bpfPrograms => rfl
        | caches => exact absurd rfl hg
      have hcrash := (early_run hu (not_ended_of_beforeCaches hbefore)).running
      have hfresh := fresh_run hu hbefore
      refine iff_of_false (fun hand => ?_) (by simpa using hg)
      exact strays_of_fresh (s := { u with main := .shutdown }) hcrash rfl hfresh
        (exists_caches tasks true) hand.2

/-- The deadline of the context passes while `Start` of `Caches` waits for its runnables. -/
def deadlineRun : List Action :=
  startEmpty .pumps ++ startEmpty .bpfPrograms ++
    [.main, .main, .group .caches .body, .group .caches .body, .group .caches .recvQueue,
      .group .caches .reconcile, .group .caches .reconcile, .group .caches .reconcile,
      .group .caches .recvQueue, .group .caches .reconcile, .group .caches .reconcile,
      .group .caches .reconcile, .group .caches .body, .cancel .deadlineExceeded,
      .group .caches .ctxDone, .check .caches 0 true, .group .caches (.recvReady 0),
      .check .caches 1 true, .group .caches (.recvReady 1), .group .caches .body, .main]

theorem failed_start_iff_deadline : ∃ s, Fails [] (.start .caches) s ∧
    s.NeverClosesNil ∧ s.NeverStrays := by
  have hobs : (Trace.run step (init [] true) deadlineRun).map
      (fun u => (u.main, (u.groups .caches).calls 0, (u.groups .caches).startErr.isSome,
        (step u .main).isSome)) = some (.inside .caches, .returned, true, true) := by decide
  obtain ⟨u, hu, hobs⟩ := Option.map_eq_some_iff.mp hobs
  simp only [Prod.mk.injEq] at hobs
  obtain ⟨s, hs⟩ := Option.isSome_iff_exists.mp hobs.2.2.2
  have hfails : Fails [] (.start .caches) s :=
    ⟨deadlineRun, u, hu, hobs.1, hobs.2.1, hobs.2.2.1, hs⟩
  exact ⟨s, hfails, (failed_start_iff hfails).mpr rfl⟩

/-- The perf reader cannot be created: `shutdown` closes it all the same, and it starts the
informers, whose group was not started. -/
theorem failed_start_unclean :
    ¬ (∀ tasks k s, Fails tasks k s → s.NeverClosesNil) ∧
      ¬ (∀ tasks k s, Fails tasks k s → s.NeverStrays) := by
  constructor
  · intro hall
    have hobs : (Trace.run step (init [mysqlTask] false) [.main, .drain]).map
        (fun s => (s.crashed, s.drain, s.rd)) = some (false, .close, false) := by decide
    obtain ⟨s, hs, hobs⟩ := Option.map_eq_some_iff.mp hobs
    simp only [Prod.mk.injEq] at hobs
    exact hall [mysqlTask] .reader _ rfl _ s hs hobs
  · intro hall
    have hobs : (Trace.run step (init [mysqlTask] false) (strayFirst 1)).map
        (fun s => s.invoked) = some [(.caches, 1)] := by decide
    obtain ⟨s, hs, hobs⟩ := Option.map_eq_some_iff.mp hobs
    have hmem : (GroupName.caches, 1) ∈ s.invoked := by
      rw [hobs]
      simp
    have hhanded := hall [mysqlTask] .reader _ rfl _ s hs _ hmem
    exact absurd hhanded.1 (by decide)

end TaskManager

end EDGuard
