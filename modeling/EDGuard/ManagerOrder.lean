import EDGuard.ManagerShutdown

/-!
# The order in which the groups are started and stopped

* `PumpFirst`, `PumpLast` — the pump is handed to its started group before a `bpfRunner` is invoked,
  and its context is cancelled after the `bpfRunner`s have returned.
* `consumer_outlives_iff` — the type switch puts the pump in `Caches`, which is started last and
  stopped first, so both hold in every run only for task lists without a `bpfRunner`.
-/

set_option autoImplicit false

namespace EDGuard

/-- `Start` of the runnable has returned. -/
def RunPc.returned : RunPc → Bool
  | .sendErr | .finishing | .done => true
  | .idle | .running => false

namespace Group

/-- Nobody calls `Add` of a group of a manager that has started. -/
theorem adds_step {s t : Group} {a : Action} (ha : a.managed) (h : Step s a t) :
    t.adds = s.adds := by
  cases h with
  | addBegin _ | addRlock _ _ | addRefuse _ _ | addPass _ _ | addLock _ _ | addQueue _ _
  | addStarted _ _ | addCrash _ _ | recvAdd _ _ _ => cases ha
  | _ => rfl

/-- What was launched was added. -/
theorem Phase.launched_added {s : Group} (hs : s.Phase) {i : Nat} (hi : i ∈ s.launched) :
    s.adds i = .returned := by
  by_contra hne
  have hcount := hs.accounts.count i
  have hpos := List.count_pos_iff.mpr hi
  rw [if_neg hne] at hcount
  omega

end Group

namespace TaskManager

/-! ## What the order is for -/

/-- The place of the pump: after the tasks and the informers. -/
def pumpPlace (tasks : List Runnable) : Nat := tasks.length + 1

/-- The pump was handed to its group, and the group is started. -/
def PumpHanded (tasks : List Runnable) (s : TaskManager) : Prop :=
  ∃ g, eventPump.group = some g ∧ (s.groups g).started = true ∧
    (s.groups g).adds (pumpPlace tasks) = .returned

/-- When `Start` of a `bpfRunner` is invoked, the pump was handed to its started group. -/
def PumpFirst (tasks : List Runnable) : Prop :=
  ∀ reader as s i t, Trace.run step (init tasks reader) as = some s →
    step s (.invoke .bpfPrograms i) = some t → s.PumpHanded tasks

/-- The context of the group of the pump is cancelled when every `bpfRunner` that was started has
returned, or the grace period is over. -/
def PumpLast (tasks : List Runnable) : Prop :=
  ∀ reader as s a t g, Trace.run step (init tasks reader) as = some s → step s a = some t →
    eventPump.group = some g → (s.groups g).cancelled = false → (t.groups g).cancelled = true →
      (∀ i, (.bpfPrograms, i) ∈ s.invoked → ((s.groups .bpfPrograms).runs i).returned = true) ∨
        s.shutdownErr = some .deadlineExceeded

/-! ## Task lists without a `bpfRunner` -/

theorem adds_run {tasks : List Runnable} {reader : Bool} {as : List Action} {s : TaskManager}
    (h : Trace.run step (init tasks reader) as = some s) (g : GroupName) :
    (s.groups g).adds = ((init tasks reader).groups g).adds := by
  refine (Trace.run_invariant (I := fun s => s.Managed ∧
    (s.groups g).adds = ((init tasks reader).groups g).adds) (fun u a v hu hv => ?_)
    ⟨managed_init tasks reader, rfl⟩ h).2
  obtain ⟨hc, hstep⟩ := step_iff.mp hv
  refine ⟨managed_step hu.1 hc hstep, ?_⟩
  rcases groups_step hu.1 hc hstep g with heq | ⟨b, hb, hu'⟩
  · rw [heq]
    exact hu.2
  · exact (Group.adds_step hb.1 (Group.step_iff.mp hu').2).trans hu.2

/-- **A group launches only what the type switch put into it.** -/
theorem group_of_launched {tasks : List Runnable} {reader : Bool} {as : List Action}
    {s : TaskManager} (h : Trace.run step (init tasks reader) as = some s) {g : GroupName} {i : Nat}
    (hi : i ∈ (s.groups g).launched) :
    ∃ fn, (tasks ++ ownTasks reader)[i]? = some fn ∧ fn.group = some g := by
  have hadd := ((managed_run h).reachable g).phase.launched_added hi
  rw [adds_run h g, init_eq] at hadd
  have hadd' : (if i ∈ idsOf (tasks ++ ownTasks reader) g then AddPc.returned else .idle) =
      .returned := hadd
  split at hadd'
  · exact mem_idsOf.mp ‹_›
  · cases hadd'

/-- Only tasks are `bpfRunner`s. -/
theorem bpfRunner_of_mem {tasks : List Runnable} {reader : Bool} {fn : Runnable}
    (h : fn ∈ tasks ++ ownTasks reader) (hg : fn.group = some .bpfPrograms) :
    fn ∈ tasks ∧ fn.bpfRunner = true := by
  have hb : fn.bpfRunner = true := by
    unfold Runnable.group at hg
    split at hg
    · assumption
    · split at hg <;> [cases hg; (split at hg <;> cases hg)]
  refine ⟨(List.mem_append.mp h).resolve_right fun hown => ?_, hb⟩
  cases reader <;> simp [ownTasks] at hown
  · rw [hown] at hb
    cases hb
  · rcases hown with rfl | rfl <;> cases hb

theorem runs_bpfPrograms {tasks : List Runnable} (hno : ∀ fn ∈ tasks, fn.bpfRunner = false)
    {reader : Bool} {as : List Action} {s : TaskManager}
    (h : Trace.run step (init tasks reader) as = some s) (i : Nat) :
    (s.groups .bpfPrograms).runs i = .idle := by
  by_contra hne
  have hphase := ((managed_run h).reachable .bpfPrograms).phase
  obtain ⟨fn, hfn, hg⟩ := group_of_launched h ((hphase.launches.runs i).mpr hne)
  obtain ⟨hmem, hb⟩ := bpfRunner_of_mem (List.mem_of_getElem? hfn) hg
  rw [hno fn hmem] at hb
  cases hb

/-! ## Task lists with a `bpfRunner` -/

theorem run_startEmpty {s : TaskManager} {g : GroupName} (hc : s.crashed = false)
    (hm : s.main = .call g) (hg : s.groups g = .queued []) :
    ∃ t, Trace.run step s (startEmpty g) = some t ∧ t.main = .next g none ∧ t.crashed = false ∧
      t.invoked = s.invoked ∧ ∀ g', g' ≠ g → t.groups g' = s.groups g' := by
  have hother : ∀ u : Group, ∀ g', ¬ g' = g → Function.update s.groups g u g' = s.groups g' :=
    fun u g' hg' => Function.update_of_ne hg' ..
  simpa [startEmpty, Trace.run_cons, step, act, mainStep, setGroup, Group.step,
    Group.act, Group.call, Group.onceStart, Group.bodyStep, Group.setCall, Group.Action.internal,
    Group.startErr, Group.queued, newRunnableGroup, hc, hm, hg] using hother _

/-- `Start` of a group up to the launch of its first runnable. -/
def launchFirst (g : GroupName) : List Action :=
  [.main, .main, .group g .body, .group g .body, .group g .recvQueue, .group g .reconcile,
    .group g .reconcile, .group g .reconcile]

theorem run_launchFirst {s : TaskManager} {g : GroupName} {i : Nat} {q : List Nat}
    (hc : s.crashed = false) (hm : s.main = .call g) (hg : s.groups g = .queued (i :: q)) :
    ∃ t, Trace.run step s (launchFirst g) = some t ∧ (t.groups g).runs i = .running ∧
      t.crashed = false ∧ t.invoked = s.invoked ∧ ∀ g', g' ≠ g → t.groups g' = s.groups g' := by
  have hother : ∀ u : Group, ∀ g', ¬ g' = g → Function.update s.groups g u g' = s.groups g' :=
    fun u g' hg' => Function.update_of_ne hg' ..
  simpa [launchFirst, Trace.run_cons, step, act, mainStep, setGroup, Group.step,
    Group.act, Group.call, Group.onceStart, Group.bodyStep, Group.reconcileStep, Group.setCall,
    Group.Action.internal, Group.queued, newRunnableGroup, hc, hm, hg] using hother _

theorem idsOf_pumps (fns : List Runnable) : idsOf fns .pumps = [] := by
  apply List.eq_nil_iff_forall_not_mem.mpr
  intro i hi
  obtain ⟨fn, _, hg⟩ := mem_idsOf.mp hi
  unfold Runnable.group at hg
  split at hg
  · cases hg
  · split at hg
    · cases hg
    · split at hg <;> cases hg

/-- **A `bpfRunner` is invoked while `Caches` is not started.** -/
theorem exists_invoked {tasks : List Runnable} {fn : Runnable} (hmem : fn ∈ tasks)
    (hb : fn.bpfRunner = true) :
    ∃ as s i t, Trace.run step (init tasks true) as = some s ∧
      step s (.invoke .bpfPrograms i) = some t ∧ (s.groups .caches).started = false := by
  have hg : fn.group = some .bpfPrograms := by
    unfold Runnable.group
    rw [if_pos hb]
  obtain ⟨k, hk⟩ := List.getElem?_of_mem (List.mem_append_left (ownTasks true) hmem)
  obtain ⟨i, q, hq⟩ := List.exists_cons_of_ne_nil
    (List.ne_nil_of_mem (mem_idsOf.mpr ⟨fn, hk, hg⟩))
  have hinit := init_eq tasks true
  obtain ⟨u, hu, hmain, hcrash, hinvoked, hgroups⟩ := run_startEmpty (s := init tasks true)
    (g := .pumps) (by rw [hinit]; rfl) (by rw [hinit]; rfl)
    (by rw [hinit]; exact congrArg Group.queued (idsOf_pumps _))
  obtain ⟨s, hs, hrun, hcrash', hinvoked', hgroups'⟩ := run_launchFirst (g := .bpfPrograms) hcrash
    hmain ((hgroups .bpfPrograms (by decide)).trans (by rw [hinit]; exact congrArg Group.queued hq))
  have hnone : s.invoked = [] := by rw [hinvoked', hinvoked, hinit]; rfl
  refine ⟨startEmpty .pumps ++ launchFirst .bpfPrograms, s, i, _, ?_,
    step_iff.mpr ⟨hcrash', .invoke hrun (by rw [hnone]; exact List.not_mem_nil)⟩, ?_⟩
  · rw [Trace.run_append_of_eq hu]
    exact hs
  · rw [hgroups' .caches (by decide), hgroups .caches (by decide), hinit]
    rfl

/-- **The consumer outlives the producers**, in every run, exactly for the task lists that have no
`bpfRunner`. -/
theorem consumer_outlives_iff (tasks : List Runnable) :
    (PumpFirst tasks ∧ PumpLast tasks) ↔ ∀ fn ∈ tasks, fn.bpfRunner = false := by
  constructor
  · rintro ⟨hfirst, -⟩ fn hmem
    cases hb : fn.bpfRunner with
    | false => rfl
    | true =>
      obtain ⟨as, s, i, t, hs, ht, hnot⟩ := exists_invoked hmem hb
      obtain ⟨g, hg, hstarted, _⟩ := hfirst true as s i t hs ht
      cases hg
      rw [hnot] at hstarted
      cases hstarted
  · intro hno
    refine ⟨fun reader as s i t hs ht => ?_,
      fun reader as s a t g hs _ _ _ _ => Or.inl fun i hi => ?_⟩
    · cases (step_iff.mp ht).2 with
      | invoke hrun _ =>
        rw [runs_bpfPrograms hno hs i] at hrun
        cases hrun
    · have hlog := (shutting_run hs).logged (.bpfPrograms, i)
      unfold LoggedAt at hlog
      rw [show (s.groups .bpfPrograms).runs i = .idle from runs_bpfPrograms hno hs i] at hlog
      exact absurd hi hlog.1

/-- The task of `main` is invoked before `Caches` is started. -/
def invokedFirst : List Action := startEmpty .pumps ++ launchFirst .bpfPrograms

/-- The manager is started and cancelled; `Caches` is stopped up to `r.cancel()`. -/
def cancelledFirst : List Action :=
  startEmpty .pumps ++ startOne .bpfPrograms 0 ++ startTwo .caches 1 2 ++
    [.invoke .bpfPrograms 0, .cancel .canceled, .seeDone, .main] ++ List.replicate 5 .stop

/-- With the task of `main`, the pump is started too late and cancelled too early. -/
theorem pump_not_outlives : ¬ PumpFirst [mysqlTask] ∧ ¬ PumpLast [mysqlTask] := by
  constructor
  · intro hfirst
    have hobs : (Trace.run step (init [mysqlTask] true) invokedFirst).map
        (fun s => ((s.groups .caches).started, (step s (.invoke .bpfPrograms 0)).isSome)) =
          some (false, true) := by decide
    obtain ⟨s, hs, hobs⟩ := Option.map_eq_some_iff.mp hobs
    obtain ⟨hno, hsome⟩ := Prod.mk.inj hobs
    obtain ⟨t, ht⟩ := Option.isSome_iff_exists.mp hsome
    obtain ⟨g, hg, hstarted, _⟩ := hfirst true _ s 0 t hs ht
    cases hg
    rw [hno] at hstarted
    cases hstarted
  · intro hlast
    have hobs : (Trace.run step (init [mysqlTask] true) cancelledFirst).map
        (fun s => ((s.groups .caches).cancelled, s.invoked,
          ((s.groups .bpfPrograms).runs 0).returned, s.shutdownErr)) =
          some (false, [(.bpfPrograms, 0)], false, none) := by decide
    have hafter : (Trace.run step (init [mysqlTask] true) (cancelledFirst ++ [.stop])).map
        (fun s => (s.groups .caches).cancelled) = some true := by decide
    obtain ⟨s, hs, hobs⟩ := Option.map_eq_some_iff.mp hobs
    simp only [Prod.mk.injEq] at hobs
    obtain ⟨hbefore, hinvoked, hrun, herr⟩ := hobs
    rw [Trace.run_append_of_eq hs, Trace.run_singleton] at hafter
    obtain ⟨t, ht, hcancelled⟩ := Option.map_eq_some_iff.mp hafter
    rcases hlast true _ s .stop t .caches hs ht rfl hbefore hcancelled with hall | hdead
    · have hret := hall 0 (by rw [hinvoked]; simp)
      rw [hrun] at hret
      cases hret
    · rw [herr] at hdead
      cases hdead

end TaskManager

end EDGuard
