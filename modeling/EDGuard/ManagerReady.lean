import EDGuard.ManagerCancel
import EDGuard.ManagerOrder

/-!
# The ready point

* `StartPc.past` — the groups whose `Start` has returned; `queued_run` — what the type switch put
  into a group stays queued or was sent.
* `ready_iff` — **when `Start` is ready**, every runnable it was given, the informers and the pump
  were handed to a goroutine once, if and only if every task meets one of the three interfaces:
  `AddTask` returns nil for the others, too, and drops them.
-/

set_option autoImplicit false

namespace EDGuard

/-- `Start` of the group has returned, and `TaskManager.Start` has gone on to this point. -/
def StartPc.past : StartPc → GroupName → Bool
  | .call .bpfPrograms, g | .inside .bpfPrograms, g => decide (g = .pumps)
  | .call .caches, g | .inside .caches, g => decide (g ≠ .caches)
  | .select, _ => true
  | _, _ => false

theorem StartPc.past_next {g g' : GroupName} {err : Option CtxErr}
    (h : (StartPc.next g err).past g' = true) : (StartPc.inside g).past g' = true ∨ g' = g := by
  cases err with
  | some err => cases h
  | none => cases g <;> cases g' <;> revert h <;> decide

namespace TaskManager

/-! ## The started groups -/

/-- The groups that lie behind `Start` have been started. -/
def PastStarted (s : TaskManager) : Prop :=
  ∀ g, s.main.past g = true → (s.groups g).calls 0 = .returned

theorem pastStarted_step {s t : TaskManager} {a : Action} (hs : s.Managed) (hc : s.crashed = false)
    (hp : s.PastStarted) (h : Step s a t) : t.PastStarted := by
  intro g hg
  refine returned_groups hs hc h ?_
  cases h with
  | @callStart g' u hm _ =>
    refine hp g ?_
    rw [hm]
    cases g' <;> exact hg
  | @startReturned g' hm hret =>
    rcases StartPc.past_next hg with hpast | rfl
    · exact hp g (by rwa [hm])
    · exact hret
  | shutdown _ | shutdownReturned _ _ | seeDone _ _ => cases hg
  | recvReport hr _ | recvRunErr hr _ =>
    rcases receive_cases hr with ⟨_, _, rfl⟩ | ⟨_, _, rfl⟩
    · cases hg
    · exact hp g hg
  | drainCancel _ | cancel _ | stopCancel _ | timeout _ _ => exact hp g (by simpa using hg)
  | _ => exact hp g hg

theorem pastStarted_run {tasks : List Runnable} {reader : Bool} {as : List Action}
    {s : TaskManager} (h : Trace.run step (init tasks reader) as = some s) : s.PastStarted := by
  refine (Trace.run_invariant (I := fun s => s.Managed ∧ s.PastStarted) (fun u a v hu hv => ?_)
    ⟨managed_init tasks reader, fun g hg => ?_⟩ h).2
  · obtain ⟨hc, hstep⟩ := step_iff.mp hv
    exact ⟨managed_step hu.1 hc hstep, pastStarted_step hu.1 hc hu.2 hstep⟩
  · rw [init_eq] at hg
    cases reader <;> cases hg

/-- A group whose `Start` has returned is started. -/
theorem Managed.started {s : TaskManager} (hs : s.Managed) {g : GroupName}
    (hret : (s.groups g).calls 0 = .returned) :
    (s.groups g).started = true ∧ (s.groups g).body = .done := by
  have hdone := (hs.reachable g).stopsOnce.returned 0 hret
  refine ⟨?_, hdone⟩
  rw [(hs.reachable g).phase.accounts.started, hdone]
  rfl

/-! ## The queued runnables -/

/-- **What the type switch put into a group** stays in its start queue until it is sent. -/
theorem queued_run {tasks : List Runnable} {reader : Bool} {as : List Action} {s : TaskManager}
    (h : Trace.run step (init tasks reader) as = some s) {i : Nat} {fn : Runnable} {g : GroupName}
    (hfn : (tasks ++ ownTasks reader)[i]? = some fn) (hg : fn.group = some g) :
    (s.groups g).Queued i := by
  refine (Trace.run_invariant (I := fun s => s.Managed ∧ (s.groups g).Queued i)
    (fun u a v hu hv => ?_) ⟨managed_init tasks reader, Or.inl ?_⟩ h).2
  · obtain ⟨hc, hstep⟩ := step_iff.mp hv
    refine ⟨managed_step hu.1 hc hstep, ?_⟩
    rcases groups_step hu.1 hc hstep g with heq | ⟨b, _, hb⟩
    · rw [heq]
      exact hu.2
    · exact Group.queued_step (hu.1.reachable g).phase.starting (Group.step_iff.mp hb).2 hu.2
  · rw [init_eq]
    exact mem_idsOf.mpr ⟨fn, hfn, hg⟩

/-! ## Ready -/

/-- `TaskManager.Start` has started the group, and nobody has begun to stop it. -/
def StartedByStart (s : TaskManager) (g : GroupName) : Prop :=
  (s.groups g).started = true ∧ (s.groups g).calls 0 = .returned ∧ (s.groups g).calls 1 = .idle

/-- The goroutine of the runnable was started once, by a group that `TaskManager.Start` started. -/
def ScheduledOnce (s : TaskManager) (i : Nat) : Prop :=
  ∃ g, s.StartedByStart g ∧ (s.groups g).launched.count i = 1 ∧
    ∀ g', g' ≠ g → i ∉ (s.groups g').launched

/-- Without a reader `Start` does not become ready. -/
theorem reader_of_select {tasks : List Runnable} {reader : Bool} {as : List Action}
    {s : TaskManager} (h : Trace.run step (init tasks reader) as = some s) (hm : s.main = .select) :
    reader = true := by
  cases reader with
  | true => rfl
  | false =>
    have hend : s.main.ended = true :=
      Trace.run_invariant (I := fun s => s.main.ended = true)
        (fun _ _ _ hu hv => ended_step hu (step_iff.mp hv).2) rfl h
    rw [hm] at hend
    cases hend

theorem scheduledOnce {tasks : List Runnable} {reader : Bool} {as : List Action} {s : TaskManager}
    (h : Trace.run step (init tasks reader) as = some s) (hm : s.main = .select) {i : Nat}
    {fn : Runnable} {g : GroupName} (hfn : (tasks ++ ownTasks reader)[i]? = some fn)
    (hg : fn.group = some g) : s.ScheduledOnce i := by
  have hs := managed_run h
  have hret : (s.groups g).calls 0 = .returned := pastStarted_run h g (by rw [hm]; rfl)
  have hidle := (early_run h (by rw [hm]; rfl)).idle g
  obtain ⟨hstarted, hdone⟩ := hs.started hret
  refine ⟨g, ⟨hstarted, hret, hidle⟩, ?_, fun g' hne hmem => ?_⟩
  · exact (hs.reachable g).phase.launched_once (queued_run h hfn hg) (by rw [hdone]; rfl)
  · obtain ⟨fn', hfn', hg'⟩ := group_of_launched h hmem
    obtain rfl : fn = fn' := Option.some.inj (hfn.symm.trans hfn')
    exact hne (Option.some.inj (hg'.symm.trans hg))

/-- **No accepted task is dropped.** `AddTask` returns nil for every task; when `Start` is ready,
all of them, the informers and the pump have been scheduled once if and only if every task meets
one of the three interfaces. -/
theorem ready_iff {tasks : List Runnable} {reader : Bool} {as : List Action} {s : TaskManager}
    (h : Trace.run step (init tasks reader) as = some s) (hm : s.main = .select) :
    (∀ i, i < tasks.length + 2 → s.ScheduledOnce i) ↔ ∀ fn ∈ tasks, fn.group ≠ none := by
  obtain rfl := reader_of_select h hm
  constructor
  · intro hall fn hmem hnone
    obtain ⟨i, hi⟩ := List.getElem?_of_mem hmem
    have hlt : i < tasks.length := (List.getElem?_eq_some_iff.mp hi).1
    obtain ⟨g, _, hcount, _⟩ := hall i (by omega)
    have hmem' : i ∈ (s.groups g).launched := List.count_pos_iff.mp (by omega)
    obtain ⟨fn', hfn', hg'⟩ := group_of_launched h hmem'
    rw [List.getElem?_append_left hlt, hi] at hfn'
    cases hfn'
    rw [hnone] at hg'
    cases hg'
  · intro hall i hi
    have hlen : i < (tasks ++ ownTasks true).length := by
      rw [List.length_append]
      exact hi
    have hfn : (tasks ++ ownTasks true)[i]? = some (tasks ++ ownTasks true)[i] :=
      List.getElem?_eq_getElem hlen
    have hgroup : ((tasks ++ ownTasks true)[i]).group ≠ none := by
      rcases List.mem_append.mp (List.getElem_mem hlen) with htask | hown
      · exact hall _ htask
      · rcases List.mem_pair.mp hown with he | he <;> rw [he] <;> decide
    obtain ⟨g, hg⟩ := Option.ne_none_iff_exists'.mp hgroup
    exact scheduledOnce h hm hfn hg

/-- All three groups are started, with one runnable of the tasks in `BpfPrograms`. -/
def readyRun : List Action :=
  startEmpty .pumps ++ startOne .bpfPrograms 0 ++ startTwo .caches 1 2

theorem ready_iff_mysqlTask : ∃ s, Trace.run step (init [mysqlTask] true) readyRun = some s ∧
    s.main = .select ∧ ∀ i, i < 3 → s.ScheduledOnce i := by
  have hobs : (Trace.run step (init [mysqlTask] true) readyRun).map (fun s => s.main) =
      some StartPc.select := by decide
  obtain ⟨s, hs, hm⟩ := Option.map_eq_some_iff.mp hobs
  exact ⟨s, hs, hm, (ready_iff hs hm).mpr (by decide)⟩

/-- A runnable that has no interface but that of `Start`. -/
def plainTask : Runnable := ⟨false, false, false⟩

/-- **A plain runnable is accepted and dropped.** -/
theorem plain_dropped :
    ¬ ∀ (tasks : List Runnable) (reader : Bool) (as : List Action) (s : TaskManager),
      Trace.run step (init tasks reader) as = some s → s.main = .select →
        ∀ i, i < tasks.length + 2 → s.ScheduledOnce i := by
  intro hall
  have hobs : (Trace.run step (init [plainTask] true)
      (startEmpty .pumps ++ startEmpty .bpfPrograms ++ startTwo .caches 1 2)).map
        (fun s => s.main) = some StartPc.select := by decide
  obtain ⟨s, hs, hm⟩ := Option.map_eq_some_iff.mp hobs
  obtain ⟨g, _, hcount, _⟩ := hall _ _ _ s hs hm 0 (by decide)
  have hmem : 0 ∈ (s.groups g).launched := List.count_pos_iff.mp (by omega)
  obtain ⟨fn, hfn, hg⟩ := group_of_launched hs hmem
  cases hfn
  cases hg

end TaskManager

end EDGuard
