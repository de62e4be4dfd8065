import EDGuard.Manager
import EDGuard.GroupStop
import Mathlib.Data.List.Induction

/-!
# The groups of the task manager

* `init_eq` — what `runnables.Add` leaves in each group is what calls of `Add` leave there.
* `groups_step` — a step of the manager is, in each group, no step or one step of the group.
* `Managed` — each group is in a state that a run of the group reaches, the contexts of its two
  calls are those of the manager, and only call 1 stops it.
-/

set_option autoImplicit false

namespace EDGuard

namespace Group

/-- Some run of the group leads to the state. -/
def Reachable (s : Group) : Prop := ∃ as, Trace.run step newRunnableGroup as = some s

theorem Reachable.step {s t : Group} {a : Action} (hs : s.Reachable) (h : Group.step s a = some t) :
    t.Reachable := by
  obtain ⟨as, has⟩ := hs
  exact ⟨as ++ [a], by rw [Trace.run_append_of_eq has, Trace.run_singleton, h]⟩

theorem Reachable.phase {s : Group} (hs : s.Reachable) : s.Phase := by
  obtain ⟨as, has⟩ := hs
  exact phase_run has

theorem Reachable.waits {s : Group} (hs : s.Reachable) : s.Waits := by
  obtain ⟨as, has⟩ := hs
  exact waits_run has

/-- A step of a group in which call 0 is the only call of `Start` and call 1 the only call of
`StopAndWait`. -/
def Action.managed : Action → Prop
  | .add _ | .recvAdd _ => False
  | .callStart c => c = 0
  | .callStop c => c = 1
  | .call c => c = 0 ∨ c = 1
  | _ => True

/-- Only call 1 is a call of `StopAndWait`. -/
structure OneStop (s : Group) : Prop where
  starts : ∀ c, c ≠ 1 → s.calls c = .idle ∨ s.calls c = .start ∨ s.calls c = .returned
  fresh : s.calls 1 = .idle ∨ s.calls 1 = .stop → s.stopOnce = .fresh
  stop : s.calls 1 ≠ .start

/-- Steps of the calls that leave `stopOnce` alone or are past it. -/
theorem OneStop.setCall {s t : Group} (hs : s.OneStop) {c : Nat} {pc : CallPc}
    (hcalls : t.calls = Function.update s.calls c pc)
    (hstart : c ≠ 1 → pc = .idle ∨ pc = .start ∨ pc = .returned)
    (hfresh : c = 1 → pc = .idle ∨ pc = .stop → t.stopOnce = .fresh)
    (hother : c ≠ 1 → s.stopOnce = .fresh → t.stopOnce = .fresh)
    (hstop : c = 1 → pc ≠ .start) : t.OneStop := by
  refine ⟨fun d hd => ?_, fun h => ?_, ?_⟩
  · rw [hcalls]
    rcases eq_or_ne d c with rfl | hdc
    · rw [Function.update_self]
      exact hstart hd
    · rw [Function.update_of_ne hdc]
      exact hs.starts d hd
  · rw [hcalls] at h
    rcases eq_or_ne 1 c with rfl | hc
    · rw [Function.update_self] at h
      exact hfresh rfl h
    · rw [Function.update_of_ne hc] at h
      exact hother (Ne.symm hc) (hs.fresh h)
  · rw [hcalls]
    rcases eq_or_ne 1 c with rfl | hc
    · rw [Function.update_self]
      exact hstop rfl
    · rw [Function.update_of_ne hc]
      exact hs.stop

/-- A call that stands in `StopAndWait` is call 1. -/
theorem OneStop.eq_one {s : Group} (hs : s.OneStop) {c : Nat} {pc : CallPc} (hc : s.calls c = pc)
    (hpc : pc ≠ .idle ∧ pc ≠ .start ∧ pc ≠ .returned) : c = 1 := by
  by_contra hne
  rcases hs.starts c hne with h | h | h <;> rw [hc] at h
  · exact hpc.1 h
  · exact hpc.2.1 h
  · exact hpc.2.2 h

theorem oneStop_step {s t : Group} {a : Action} (hs : s.OneStop) (ha : a.managed)
    (h : Step s a t) : t.OneStop := by
  cases h with
  | callStart hpc =>
    obtain rfl := ha
    exact hs.setCall (c := 0) rfl (fun _ => Or.inr (Or.inl rfl)) (fun h => by cases h)
      (fun _ h => h) fun h => by cases h
  | callStop hpc =>
    obtain rfl := ha
    exact hs.setCall (c := 1) rfl (fun h => absurd rfl h) (fun _ _ => hs.fresh (Or.inl hpc))
      (fun _ h => h) fun _ => by simp
  | startDone hpc _ =>
    exact hs.setCall rfl (fun _ => Or.inr (Or.inr rfl))
      (fun _ h => by rcases h with h | h <;> cases h) (fun _ h => h) fun _ => by simp
  | @stopDone c hpc hdone =>
    obtain rfl := hs.eq_one hpc (by simp)
    rw [hs.fresh (Or.inr hpc)] at hdone
    cases hdone
  | @stopOnce c hpc _ | @stopStartDone c hpc _ | @stopLock c hpc _ _ | @stopSet c hpc
  | @stopCancel c hpc | @stopWait c hpc _ | @stopClose c hpc =>
    obtain rfl := hs.eq_one hpc (by simp)
    exact hs.setCall (c := 1) rfl (fun h => absurd rfl h)
      (fun _ h => by rcases h with h | h <;> cases h) (fun h => absurd rfl h) fun _ => by simp
  | _ => exact ⟨hs.starts, hs.fresh, hs.stop⟩

/-- A `StopAndWait` that was not cut short by its context leaves a quiet group. -/
def StopsQuiet (s : Group) : Prop :=
  s.ctxErr 1 = none → s.calls 1 = .stopClose ∨ s.calls 1 = .returned → s.Quiet

theorem stopsQuiet_step {s t : Group} {a : Action} (hp : s.Stopping) (ho : s.OneStop)
    (hs : s.StopsQuiet) (h : Step s a t) : t.StopsQuiet := by
  intro hctx hcall
  have hstep := h
  -- a call other than call 1 moves
  have hother : ∀ {c : Nat} {pc : CallPc}, c ≠ 1 → s.ctxErr 1 = none →
      Function.update s.calls c pc 1 = .stopClose ∨ Function.update s.calls c pc 1 = .returned →
      t.Quiet := by
    intro c pc hc hx hcall
    rw [Function.update_of_ne (Ne.symm hc)] at hcall
    exact quiet_step (hs hx hcall) hstep
  -- call 1 moves to another place
  have hself : ∀ {c : Nat} {pc : CallPc}, s.ctxErr 1 = none → pc ≠ .stopClose → pc ≠ .returned →
      Function.update s.calls c pc 1 = .stopClose ∨ Function.update s.calls c pc 1 = .returned →
      t.Quiet := by
    intro c pc hx hne hne' hcall
    rcases eq_or_ne c 1 with rfl | hc
    · rw [Function.update_self] at hcall
      exact (hcall.elim hne hne').elim
    · exact hother hc hx hcall
  cases h with
  | callStart _ | callStop _ | stopStartDone _ _ | stopOnce _ _ | stopLock _ _ _ | stopSet _
  | stopCancel _ => exact hself hctx (by simp) (by simp) hcall
  | startDone hpc _ =>
    refine hother ?_ hctx hcall
    rintro rfl
    exact ho.stop hpc
  | stopDone hpc hdone =>
    refine hother ?_ hctx hcall
    rintro rfl
    rw [ho.fresh (Or.inr hpc)] at hdone
    cases hdone
  | @stopWait c hpc hwait =>
    obtain rfl := ho.eq_one hpc (by simp)
    have hx : s.ctxErr 1 = none := hctx
    rw [hx] at hwait
    exact ⟨hp.stopped 1 (by rw [hpc]; rfl), hwait.resolve_right (by simp)⟩
  | @stopClose c hpc =>
    obtain rfl := ho.eq_one hpc (by simp)
    exact quiet_step (hs hctx (Or.inl hpc)) hstep
  | @expire c err _ =>
    have hx : Function.update s.ctxErr c (some err) 1 = none := hctx
    rcases eq_or_ne c 1 with rfl | hc
    · rw [Function.update_self] at hx
      cases hx
    · rw [Function.update_of_ne (Ne.symm hc)] at hx
      exact quiet_step (hs hx hcall) hstep
  | _ => exact quiet_step (hs hctx hcall) hstep

/-- A call that has returned stays so. -/
theorem returned_step {s t : Group} {a : Action} {c : Nat} (hc : s.calls c = .returned)
    (h : Step s a t) : t.calls c = .returned := by
  have hset : ∀ {d : Nat} {pc pc' : CallPc}, s.calls d = pc → pc ≠ .returned →
      Function.update s.calls d pc' c = .returned := by
    intro d pc pc' hd hpc
    have hcd : c ≠ d := by
      rintro rfl
      exact hpc (hd.symm.trans hc)
    rw [Function.update_of_ne hcd]
    exact hc
  cases h with
  | callStart hd | callStop hd | startDone hd _ | stopStartDone hd _ | stopOnce hd _
  | stopDone hd _ | stopLock hd _ _ | stopSet hd | stopCancel hd | stopWait hd _
  | stopClose hd => exact hset hd (by simp)
  | _ => exact hc

/-- The contexts of the calls change only when one of them is done. -/
theorem ctxErr_step {s t : Group} {a : Action} (ha : ∀ c err, a ≠ .expire c err)
    (h : Step s a t) : t.ctxErr = s.ctxErr := by
  cases h with
  | expire _ => exact absurd rfl (ha _ _)
  | _ => rfl

/-- A group to which the runnables `q` were added, and nothing else was done. -/
def queued (q : List Nat) : Group :=
  { newRunnableGroup with
    adds := fun i => if i ∈ q then .returned else .idle
    startQueue := q }

theorem queued_enqueue (q : List Nat) (i : Nat) : (queued q).enqueue i = queued (q ++ [i]) := by
  have hadds : Function.update (queued q).adds i .returned = (queued (q ++ [i])).adds := by
    funext j
    show _ = if j ∈ q ++ [i] then AddPc.returned else .idle
    rcases eq_or_ne j i with rfl | hj
    · rw [Function.update_self, if_pos (by simp)]
    · rw [Function.update_of_ne hj]
      show (if j ∈ q then AddPc.returned else .idle) = _
      simp [hj]
  unfold enqueue setAdd
  rw [hadds]
  rfl

/-- **`enqueue` is a whole call of `Add`** on a group that nobody has started or stopped. -/
theorem run_enqueue {s : Group} {i : Nat} (hc : s.crashed = false) (hidle : s.adds i = .idle)
    (hw : s.stopWriter = false) (hstop : s.stopped = false) (hmu : s.startMu = false)
    (hst : s.started = false) :
    Trace.run step s (List.replicate 5 (.add i)) = some (s.enqueue i) := by
  simp [List.replicate, Trace.run_cons, step, act, add, setAdd, enqueue, hc, hidle, hw, hstop, hmu,
    hst]

theorem reachable_queued (q : List Nat) (hq : q.Nodup) : (queued q).Reachable := by
  induction q using List.reverseRecOn with
  | nil => exact ⟨[], rfl⟩
  | append_singleton q i ih =>
    obtain ⟨hn, hi⟩ : q.Nodup ∧ i ∉ q := by
      have hsplit := List.nodup_append.mp hq
      exact ⟨hsplit.1, fun hi => hsplit.2.2 i hi i (by simp) rfl⟩
    obtain ⟨as, has⟩ := ih hn
    refine ⟨as ++ List.replicate 5 (.add i), ?_⟩
    rw [Trace.run_append_of_eq has, run_enqueue rfl (if_neg hi) rfl rfl rfl rfl, queued_enqueue]

end Group

/-- The runnables that the type switch puts into a group, by their places. -/
def idsOf (fns : List Runnable) (g : GroupName) : List Nat :=
  (List.range fns.length).filter fun i => decide ((fns[i]?.bind Runnable.group) = some g)

theorem mem_idsOf {fns : List Runnable} {g : GroupName} {i : Nat} :
    i ∈ idsOf fns g ↔ ∃ fn, fns[i]? = some fn ∧ fn.group = some g := by
  unfold idsOf
  rw [List.mem_filter, List.mem_range, decide_eq_true_eq, Option.bind_eq_some_iff]
  constructor
  · exact fun h => h.2
  · rintro ⟨fn, hfn, hg⟩
    exact ⟨(List.getElem?_eq_some_iff.mp hfn).1, fn, hfn, hg⟩

theorem nodup_idsOf (fns : List Runnable) (g : GroupName) : (idsOf fns g).Nodup :=
  List.nodup_range.filter _

theorem idsOf_append (fns : List Runnable) (fn : Runnable) (g : GroupName) :
    idsOf (fns ++ [fn]) g = idsOf fns g ++ if fn.group = some g then [fns.length] else [] := by
  unfold idsOf
  rw [List.length_append, List.length_singleton, List.range_succ, List.filter_append]
  congr 1
  · apply List.filter_congr
    intro i hi
    rw [List.getElem?_append_left (List.mem_range.mp hi)]
  · rw [List.filter_singleton, List.getElem?_append_right (Nat.le_refl _), Nat.sub_self]
    by_cases hg : fn.group = some g <;> simp [hg]

namespace TaskManager

/-! ## The groups at the start -/

/-- A manager to which the runnables `fns` were added, and nothing else was done. -/
def withTasks (fns : List Runnable) : TaskManager :=
  { NewTaskManager with
    added := fns
    groups := fun g => .queued (idsOf fns g) }

theorem withTasks_Add (fns : List Runnable) (fn : Runnable) :
    (withTasks fns).Add fn = withTasks (fns ++ [fn]) := by
  have hgroups : ((withTasks fns).Add fn).groups = (withTasks (fns ++ [fn])).groups := by
    funext g
    show _ = Group.queued (idsOf (fns ++ [fn]) g)
    rw [idsOf_append]
    unfold Add
    cases fn.group with
    | none =>
      rw [if_neg (by simp), List.append_nil]
      rfl
    | some g' =>
      rcases eq_or_ne g g' with rfl | hg
      · rw [if_pos rfl, ← Group.queued_enqueue]
        exact Function.update_self ..
      · rw [if_neg (by simpa using Ne.symm hg), List.append_nil]
        exact Function.update_of_ne hg ..
  calc (withTasks fns).Add fn
      = { withTasks (fns ++ [fn]) with groups := ((withTasks fns).Add fn).groups } := rfl
    _ = withTasks (fns ++ [fn]) := by rw [hgroups]

theorem foldl_Add (tasks : List Runnable) : tasks.foldl Add NewTaskManager = withTasks tasks := by
  induction tasks using List.reverseRecOn with
  | nil => rfl
  | append_singleton tasks fn ih =>
    rw [List.foldl_append, ih]
    exact withTasks_Add tasks fn

/-- What `Start` adds on top of the tasks. -/
def ownTasks (reader : Bool) : List Runnable := informerCache :: if reader then [eventPump] else []

/-- **The manager at the start**: the groups hold the runnables that the type switch gave them. -/
theorem init_eq (tasks : List Runnable) (reader : Bool) :
    init tasks reader =
      { withTasks (tasks ++ ownTasks reader) with
        rd := reader
        main := if reader then .call .pumps else .shutdown } := by
  cases reader with
  | false =>
    show { (tasks.foldl Add NewTaskManager).Add informerCache with main := .shutdown } = _
    rw [foldl_Add, withTasks_Add]
    rfl
  | true =>
    show { ((tasks.foldl Add NewTaskManager).Add informerCache).Add eventPump with
      rd := true
      main := .call .pumps } = _
    rw [foldl_Add, withTasks_Add, withTasks_Add, List.append_assoc]
    rfl

/-! ## Steps of the groups -/

/-- What is known of the groups of a manager. -/
structure Managed (s : TaskManager) : Prop where
  reachable : ∀ g, (s.groups g).Reachable
  running : s.crashed = false → ∀ g, (s.groups g).crashed = false
  oneStop : ∀ g, (s.groups g).OneStop
  stopsQuiet : ∀ g, (s.groups g).StopsQuiet
  internal : ∀ g, (s.groups g).ctxErr 0 = s.internalErr
  shutdown : ∀ g, (s.groups g).ctxErr 1 = s.shutdownErr

/-- The action `b` of group `g` is part of the action `a`: no call but those of the manager, and no
check but that of `a`. -/
def Action.Makes (a : Action) (g : GroupName) (b : Group.Action) : Prop :=
  b.managed ∧ ∀ i ok, b = .check i ok → a = .check g i ok

theorem Action.Makes.of_managed {a : Action} {g : GroupName} {b : Group.Action} (hb : b.managed)
    (hcheck : ∀ i ok, b ≠ .check i ok) : a.Makes g b :=
  ⟨hb, fun i ok h => absurd h (hcheck i ok)⟩

theorem Action.Makes.of_internal {a : Action} {g : GroupName} {b : Group.Action}
    (h : b.internal = true) : a.Makes g b := by
  refine .of_managed ?_ ?_
  · cases b <;> trivial
  · rintro i ok rfl
    cases h

theorem setGroup_step {s : TaskManager} {a : Action} {g g' : GroupName} {b : Group.Action}
    {t : Group} (ht : Group.step (s.groups g) b = some t) (hb : a.Makes g b) :
    Function.update s.groups g t g' = s.groups g' ∨
      ∃ b : Group.Action, a.Makes g' b ∧
        Group.step (s.groups g') b = some (Function.update s.groups g t g') := by
  rcases eq_or_ne g' g with rfl | hg
  · rw [Function.update_self]
    exact Or.inr ⟨b, hb, ht⟩
  · exact Or.inl (Function.update_of_ne hg ..)

theorem expire_step {s : TaskManager} (hs : s.Managed) (hc : s.crashed = false) {c : Nat}
    {err : CtxErr} {g : GroupName} (hx : (s.groups g).ctxErr c = none) :
    Group.step (s.groups g) (.expire c err) = some (s.expire c err g) :=
  Group.step_iff.mpr ⟨hs.running hc g, .expire hx⟩

/-- The receiver of an error changes nothing but its own place. -/
theorem receive_cases {s u : TaskManager} {r : Receiver} (h : s.receive r = some u) :
    (r = .start ∧ s.main = .select ∧ u = { s with main := .shutdown }) ∨
      r = .drain ∧ s.drain = .recv ∧ u = s := by
  cases r with
  | start =>
    simp only [receive] at h
    split at h
    · cases h
      exact Or.inl ⟨rfl, ‹_›, rfl⟩
    · cases h
  | drain =>
    simp only [receive] at h
    split at h
    · cases h
      exact Or.inr ⟨rfl, ‹_›, rfl⟩
    · cases h

/-- **A step of the manager is, in each group, no step or one step of the group.** -/
theorem groups_step {s t : TaskManager} {a : Action} (hs : s.Managed) (hc : s.crashed = false)
    (h : Step s a t) (g : GroupName) :
    t.groups g = s.groups g ∨
      ∃ b : Group.Action, a.Makes g b ∧ Group.step (s.groups g) b = some (t.groups g) := by
  have hinternal : ∀ {err : CtxErr}, (s.internalCancel err).groups g = s.groups g ∨
      ∃ b : Group.Action, a.Makes g b ∧
        Group.step (s.groups g) b = some ((s.internalCancel err).groups g) := by
    intro err
    unfold internalCancel
    split
    · rename_i hx
      exact Or.inr ⟨.expire 0 err, .of_managed trivial (by simp),
        expire_step hs hc ((hs.internal g).trans hx)⟩
    · exact Or.inl rfl
  have hshutdown : ∀ {err : CtxErr}, (s.shutdownCancel err).groups g = s.groups g ∨
      ∃ b : Group.Action, a.Makes g b ∧
        Group.step (s.groups g) b = some ((s.shutdownCancel err).groups g) := by
    intro err
    unfold shutdownCancel
    split
    · rename_i hx
      exact Or.inr ⟨.expire 1 err, .of_managed trivial (by simp),
        expire_step hs hc ((hs.shutdown g).trans hx)⟩
    · exact Or.inl rfl
  cases h with
  | callStart _ ht => exact setGroup_step ht (.of_managed rfl (by simp))
  | inStart _ _ ht => exact setGroup_step ht (.of_managed (Or.inl rfl) (by simp))
  | callStop _ ht => exact setGroup_step ht (.of_managed rfl (by simp))
  | inStop _ _ ht => exact setGroup_step ht (.of_managed (Or.inr rfl) (by simp))
  | group ha ht => exact setGroup_step ht (.of_internal ha)
  | check ht => exact setGroup_step ht ⟨trivial, fun i ok h => by cases h; rfl⟩
  | runReturn _ ht => exact setGroup_step ht (.of_managed trivial (by simp))
  | recvReport hr ht | recvRunErr hr ht =>
    rcases receive_cases hr with ⟨_, _, rfl⟩ | ⟨_, _, rfl⟩ <;>
      exact setGroup_step ht (.of_managed trivial (by simp))
  | drainCancel _ => exact hinternal
  | cancel _ => exact hinternal
  | stopCancel _ => exact hshutdown
  | timeout _ _ => exact hshutdown
  | _ => exact Or.inl rfl

/-- What every step of every group preserves, the groups of a manager have. -/
theorem forall_groups_step {I : Group → Prop} {s t : TaskManager} {a : Action} (hs : s.Managed)
    (hc : s.crashed = false) (hI : ∀ g, I (s.groups g))
    (hstep : ∀ g b u, b.managed → Group.Step (s.groups g) b u → I u) (h : Step s a t) :
    ∀ g, I (t.groups g) := by
  intro g
  rcases groups_step hs hc h g with heq | ⟨b, hb, ht⟩
  · rw [heq]
    exact hI g
  · exact hstep g b _ hb.1 (Group.step_iff.mp ht).2

/-- The contexts of the calls after a step of one group. -/
theorem ctxErr_setGroup {s : TaskManager} {g : GroupName} {a : Group.Action} {u : Group}
    (hu : Group.step (s.groups g) a = some u) (ha : ∀ c err, a ≠ .expire c err) (g' : GroupName) :
    (Function.update s.groups g u g').ctxErr = (s.groups g').ctxErr := by
  rcases eq_or_ne g' g with rfl | hg
  · rw [Function.update_self]
    exact Group.ctxErr_step ha (Group.step_iff.mp hu).2
  · rw [Function.update_of_ne hg]

theorem internal_ne_expire {a : Group.Action} (h : a.internal = true) (c : Nat) (err : CtxErr) :
    a ≠ .expire c err := by
  rintro rfl
  cases h

/-- The contexts of the calls are those of the manager. -/
def Ctxs (s : TaskManager) (c : Nat) (err : Option CtxErr) : Prop :=
  ∀ g, (s.groups g).ctxErr c = err

theorem ctxs_internalCancel {s : TaskManager} (hi : s.Ctxs 0 s.internalErr)
    (hd : s.Ctxs 1 s.shutdownErr) (err : CtxErr) :
    (s.internalCancel err).Ctxs 0 (s.internalCancel err).internalErr ∧
      (s.internalCancel err).Ctxs 1 (s.internalCancel err).shutdownErr := by
  unfold internalCancel
  split
  · refine ⟨fun g => ?_, fun g => ?_⟩
    · show Function.update (s.groups g).ctxErr 0 (some err) 0 = some err
      rw [Function.update_self]
    · show Function.update (s.groups g).ctxErr 0 (some err) 1 = s.shutdownErr
      rw [Function.update_of_ne (by simp)]
      exact hd g
  · exact ⟨hi, hd⟩

theorem ctxs_shutdownCancel {s : TaskManager} (hi : s.Ctxs 0 s.internalErr)
    (hd : s.Ctxs 1 s.shutdownErr) (err : CtxErr) :
    (s.shutdownCancel err).Ctxs 0 (s.shutdownCancel err).internalErr ∧
      (s.shutdownCancel err).Ctxs 1 (s.shutdownCancel err).shutdownErr := by
  unfold shutdownCancel
  split
  · refine ⟨fun g => ?_, fun g => ?_⟩
    · show Function.update (s.groups g).ctxErr 1 (some err) 0 = s.internalErr
      rw [Function.update_of_ne (by simp)]
      exact hi g
    · show Function.update (s.groups g).ctxErr 1 (some err) 1 = some err
      rw [Function.update_self]
  · exact ⟨hi, hd⟩

theorem ctxs_step {s t : TaskManager} {a : Action} (hi : s.Ctxs 0 s.internalErr)
    (hd : s.Ctxs 1 s.shutdownErr) (h : Step s a t) :
    t.Ctxs 0 t.internalErr ∧ t.Ctxs 1 t.shutdownErr := by
  have hset : ∀ {g : GroupName} {b : Group.Action} {u : Group},
      Group.step (s.groups g) b = some u → (∀ c err, b ≠ .expire c err) →
      (∀ g', (Function.update s.groups g u g').ctxErr 0 = s.internalErr) ∧
        ∀ g', (Function.update s.groups g u g').ctxErr 1 = s.shutdownErr := by
    intro g b u hu hb
    refine ⟨fun g' => ?_, fun g' => ?_⟩ <;> rw [ctxErr_setGroup hu hb]
    · exact hi g'
    · exact hd g'
  cases h with
  | callStart _ ht | inStart _ _ ht | callStop _ ht | inStop _ _ ht | check ht | runReturn _ ht =>
    exact hset ht (by simp)
  | group ha ht => exact hset ht (internal_ne_expire ha)
  | @recvReport r g u v hr ht | @recvRunErr r g i u v hr ht =>
    rcases receive_cases hr with ⟨_, _, rfl⟩ | ⟨_, _, rfl⟩ <;> exact hset ht (by simp)
  | drainCancel _ | cancel _ => exact ctxs_internalCancel hi hd _
  | stopCancel _ | timeout _ _ => exact ctxs_shutdownCancel hi hd _
  | _ => exact ⟨hi, hd⟩

theorem managed_step {s t : TaskManager} {a : Action} (hs : s.Managed) (hc : s.crashed = false)
    (h : Step s a t) : t.Managed := by
  obtain ⟨hi, hd⟩ := ctxs_step hs.internal hs.shutdown h
  refine ⟨?_, ?_, ?_, ?_, hi, hd⟩
  · intro g
    rcases groups_step hs hc h g with heq | ⟨b, _, ht⟩
    · rw [heq]
      exact hs.reachable g
    · exact (hs.reachable g).step ht
  · have hset : ∀ {g : GroupName} {u : Group}, u.crashed = false →
        ∀ g', (Function.update s.groups g u g').crashed = false := by
      intro g u hu g'
      rcases eq_or_ne g' g with rfl | hg
      · rwa [Function.update_self]
      · rw [Function.update_of_ne hg]
        exact hs.running hc g'
    cases h with
    | callStart _ _ | inStart _ _ _ | callStop _ _ | inStop _ _ _ | check _ | runReturn _ _
    | group _ _ => exact fun hct => hset hct
    | @recvReport r g u v hr _ | @recvRunErr r g i u v hr _ =>
      rcases receive_cases hr with ⟨_, _, rfl⟩ | ⟨_, _, rfl⟩ <;> exact fun hct => hset hct
    | drainCancel _ | cancel _ =>
      intro _ g
      unfold internalCancel
      split <;> exact hs.running hc g
    | stopCancel _ | timeout _ _ =>
      intro _ g
      unfold shutdownCancel
      split <;> exact hs.running hc g
    | _ => exact fun _ => hs.running hc
  · exact forall_groups_step hs hc hs.oneStop
      (fun g b u hb hu => Group.oneStop_step (hs.oneStop g) hb hu) h
  · exact forall_groups_step hs hc hs.stopsQuiet (fun g b u _ hu =>
      Group.stopsQuiet_step (hs.reachable g).phase.stopping (hs.oneStop g) (hs.stopsQuiet g) hu) h

theorem managed_init (tasks : List Runnable) (reader : Bool) : (init tasks reader).Managed := by
  rw [init_eq]
  refine ⟨fun g => Group.reachable_queued _ (nodup_idsOf _ _), fun _ g => rfl, fun g => ?_,
    fun g _ h => ?_, fun g => rfl, fun g => rfl⟩
  · exact ⟨fun _ _ => Or.inl rfl, fun _ => rfl, fun h => by cases h⟩
  · rcases h with h | h <;> cases h

theorem managed_run {tasks : List Runnable} {reader : Bool} {as : List Action} {s : TaskManager}
    (h : Trace.run step (init tasks reader) as = some s) : s.Managed :=
  Trace.run_invariant (I := Managed)
    (fun _ _ _ hs ht => managed_step hs (step_iff.mp ht).1 (step_iff.mp ht).2)
    (managed_init tasks reader) h

end TaskManager

end EDGuard
