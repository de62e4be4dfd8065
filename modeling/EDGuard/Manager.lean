import EDGuard.GroupStart

/-!
# The task manager (`internal/manager/task_manager.go`, `internal/manager/runnable.go`)

`Start` starts three groups in turn and waits; `shutdown` stops them in another order, in a
goroutine of its own, next to one that drains `errCh`.

* `Runnable`, `Runnable.group` — the interfaces of a runnable and the type switch of
  `runnables.Add`.
* `TaskManager` — the three groups, the contexts, the program points of the three goroutines, and
  what was invoked, failed and received so far.
* `step` — one step of one goroutine; inside the groups it is a step of `Group`.
* `Step`, `step_iff` — what one step can do, one constructor per case.

All groups share the unbuffered `errCh`, so their sends on it need a receiver here.  In every group
call 0 is the call of `Start` and call 1 that of `StopAndWait`.  The fourth group, `HttpServers`, is
never given a runnable, started or stopped.
-/

set_option autoImplicit false

namespace EDGuard

/-- The interfaces of the package that a runnable has. -/
structure Runnable where
  bpfRunner : Bool
  hasCache : Bool
  pumpRunner : Bool
  deriving DecidableEq

inductive GroupName where
  | bpfPrograms
  | caches
  | pumps
  deriving DecidableEq

/-- The type switch of `runnables.Add`; a runnable that meets no case is dropped. -/
def Runnable.group (fn : Runnable) : Option GroupName :=
  if fn.bpfRunner then some .bpfPrograms
  else if fn.hasCache then some .caches
  else if fn.pumpRunner then some .caches
  else none

/-- The check of the runnable is `WaitForCacheSync`; the checks of the others return true. -/
def Runnable.waitsForSync (fn : Runnable) : Bool := !fn.bpfRunner && fn.hasCache

/-- `informerCache`. -/
def informerCache : Runnable := ⟨false, true, false⟩

/-- `eventPump`. -/
def eventPump : Runnable := ⟨false, false, true⟩

/-- Where `TaskManager.Start` stands, its deferred call of `shutdown` included. -/
inductive StartPc where
  /-- before `Start` of a group -/
  | call (g : GroupName)
  /-- in `Start` of a group -/
  | inside (g : GroupName)
  /-- at the `select` -/
  | select
  /-- before `shutdown` -/
  | shutdown
  /-- at `<-tm.shutdownCtx.Done()` -/
  | wait
  /-- `shutdown` has returned; `clean` says that it returned nil -/
  | returned (clean : Bool)
  deriving DecidableEq

/-- Where the goroutine that drains `errCh` stands. -/
inductive DrainPc where
  | off
  /-- before `tm.internalCancel()` -/
  | cancel
  /-- before `tm.rd.Close()` -/
  | close
  /-- at the `select` -/
  | recv
  | done
  deriving DecidableEq

/-- Where the goroutine that stops the groups stands. -/
inductive StopPc where
  | off
  /-- before `StopAndWait` of a group -/
  | call (g : GroupName)
  /-- in `StopAndWait` of a group -/
  | inside (g : GroupName)
  /-- before `shutdownCancel()` -/
  | cancel
  | done
  deriving DecidableEq

inductive Receiver where
  | start
  | drain
  deriving DecidableEq

structure TaskManager where
  /-- what `runnables.Add` was given; a runnable is named by its place -/
  added : List Runnable
  groups : GroupName → Group
  /-- `tm.rd` was created -/
  rd : Bool
  /-- the error of the context given to `Start` -/
  ctxErr : Option CtxErr
  /-- the error of `tm.internalCtx` -/
  internalErr : Option CtxErr
  /-- the error of `tm.shutdownCtx` -/
  shutdownErr : Option CtxErr
  main : StartPc
  drain : DrainPc
  stop : StopPc
  /-- the runnables whose `Start` was invoked -/
  invoked : List (GroupName × Nat)
  /-- the runnables whose `Start` returned an error -/
  failed : List (GroupName × Nat)
  /-- the runnables whose error was received from `errCh` -/
  received : List (GroupName × Nat)
  crashed : Bool

/-- `NewTaskManager`. -/
def NewTaskManager : TaskManager :=
  { added := []
    groups := fun _ => newRunnableGroup
    rd := false
    ctxErr := none
    internalErr := none
    shutdownErr := none
    main := .shutdown
    drain := .off
    stop := .off
    invoked := []
    failed := []
    received := []
    crashed := false }

/-- `Add` to a group that is not started, as one step. -/
def Group.enqueue (s : Group) (i : Nat) : Group :=
  { s.setAdd i .returned with startQueue := s.startQueue ++ [i] }

/-- The error that call 0 of a group returns: the body of `startOnce` sets that of its own call. -/
def Group.startErr (s : Group) : Option CtxErr := if s.starter = 0 then s.retErr else none

/-- A step of a group that none of its calls makes and that needs no party outside the group. -/
def Group.Action.internal : Group.Action → Bool
  | .body | .ctxDone | .recvReady _ | .recvQueue | .reconcile | .signalClosed _ | .wgDone _ => true
  | _ => false

/-- What `Start` does after `Start` of a group has returned. -/
def StartPc.next (g : GroupName) (err : Option CtxErr) : StartPc :=
  match err, g with
  | some _, _ => .shutdown
  | none, .pumps => .call .bpfPrograms
  | none, .bpfPrograms => .call .caches
  | none, .caches => .select

/-- The order in which the groups are stopped. -/
def StopPc.next : GroupName → StopPc
  | .caches => .call .bpfPrograms
  | .bpfPrograms => .call .pumps
  | .pumps => .cancel

namespace TaskManager

/-- `runnables.Add` before the groups are started. -/
def Add (s : TaskManager) (fn : Runnable) : TaskManager :=
  { s with
    added := s.added ++ [fn]
    groups := match fn.group with
      | some g => Function.update s.groups g ((s.groups g).enqueue s.added.length)
      | none => s.groups }

/-- `Start` up to the first call of `Start` of a group, after `AddTask` of all tasks; `reader` says
that `perf.NewReader` succeeds.  Nobody else uses the groups so far. -/
def init (tasks : List Runnable) (reader : Bool) : TaskManager :=
  let s := (tasks.foldl Add NewTaskManager).Add informerCache
  if reader then { s.Add eventPump with rd := true, main := .call .pumps }
  else { s with main := .shutdown }

inductive Action where
  /-- the next operation of `Start` -/
  | main
  /-- `Start` finds its context done -/
  | seeDone
  /-- the next operation of the goroutine that drains `errCh` -/
  | drain
  /-- the next operation of the goroutine that stops the groups -/
  | stop
  /-- an internal step of a group -/
  | group (g : GroupName) (a : Group.Action)
  | check (g : GroupName) (i : Nat) (ok : Bool)
  /-- the goroutine of a runnable invokes its `Start` -/
  | invoke (g : GroupName) (i : Nat)
  | runReturn (g : GroupName) (i : Nat) (err : Bool)
  | recvReport (r : Receiver) (g : GroupName)
  | recvRunErr (r : Receiver) (g : GroupName) (i : Nat)
  /-- the context given to `Start` is done -/
  | cancel (err : CtxErr)
  /-- the grace period of `tm.shutdownCtx` is over -/
  | timeout
  deriving DecidableEq

def setGroup (s : TaskManager) (g : GroupName) (t : Group) : TaskManager :=
  { s with groups := Function.update s.groups g t, crashed := t.crashed }

/-- The context of call `c` is done in every group. -/
def expire (s : TaskManager) (c : Nat) (err : CtxErr) (g : GroupName) : Group :=
  { s.groups g with ctxErr := Function.update (s.groups g).ctxErr c (some err) }

/-- `tm.internalCtx` is done, if it is not already. -/
def internalCancel (s : TaskManager) (err : CtxErr) : TaskManager :=
  if s.internalErr = none then { s with internalErr := some err, groups := s.expire 0 err } else s

/-- `tm.shutdownCtx` is done, if it is not already. -/
def shutdownCancel (s : TaskManager) (err : CtxErr) : TaskManager :=
  if s.shutdownErr = none then { s with shutdownErr := some err, groups := s.expire 1 err } else s

section

variable (s : TaskManager) (err : CtxErr)

@[simp] theorem main_internalCancel : (s.internalCancel err).main = s.main := by
  unfold internalCancel
  split <;> rfl

@[simp] theorem main_shutdownCancel : (s.shutdownCancel err).main = s.main := by
  unfold shutdownCancel
  split <;> rfl

@[simp] theorem stop_internalCancel : (s.internalCancel err).stop = s.stop := by
  unfold internalCancel
  split <;> rfl

@[simp] theorem stop_shutdownCancel : (s.shutdownCancel err).stop = s.stop := by
  unfold shutdownCancel
  split <;> rfl

@[simp] theorem ctxErr_internalCancel : (s.internalCancel err).ctxErr = s.ctxErr := by
  unfold internalCancel
  split <;> rfl

@[simp] theorem ctxErr_shutdownCancel : (s.shutdownCancel err).ctxErr = s.ctxErr := by
  unfold shutdownCancel
  split <;> rfl

@[simp] theorem invoked_internalCancel : (s.internalCancel err).invoked = s.invoked := by
  unfold internalCancel
  split <;> rfl

@[simp] theorem invoked_shutdownCancel : (s.shutdownCancel err).invoked = s.invoked := by
  unfold shutdownCancel
  split <;> rfl

@[simp] theorem shutdownErr_internalCancel :
    (s.internalCancel err).shutdownErr = s.shutdownErr := by
  unfold internalCancel
  split <;> rfl

end

/-- `Start`, operation by operation. -/
def mainStep (s : TaskManager) : Option TaskManager :=
  match s.main with
  | .call g => (Group.step (s.groups g) (.callStart 0)).map fun t =>
      { s.setGroup g t with main := .inside g }
  | .inside g =>
    if (s.groups g).calls 0 = .returned then
      some { s with main := .next g (s.groups g).startErr }
    else (Group.step (s.groups g) (.call 0)).map (s.setGroup g)
  | .shutdown => some { s with main := .wait, drain := .cancel, stop := .call .caches }
  | .wait => s.shutdownErr.map fun err => { s with main := .returned (decide (err = .canceled)) }
  | .select | .returned _ => none

/-- The goroutine that drains `errCh`, operation by operation; a missing reader is dereferenced. -/
def drainStep (s : TaskManager) : Option TaskManager :=
  match s.drain with
  | .cancel => some { s.internalCancel .canceled with drain := .close }
  | .close =>
    if s.rd then some { s with drain := .recv } else some { s with crashed := true }
  | .recv => match s.main with
    | .returned _ => some { s with drain := .done }
    | _ => none
  | .off | .done => none

/-- The goroutine that stops the groups, operation by operation. -/
def stopStep (s : TaskManager) : Option TaskManager :=
  match s.stop with
  | .call g => (Group.step (s.groups g) (.callStop 1)).map fun t =>
      { s.setGroup g t with stop := .inside g }
  | .inside g =>
    if (s.groups g).calls 1 = .returned then some { s with stop := .next g }
    else (Group.step (s.groups g) (.call 1)).map (s.setGroup g)
  | .cancel => some { s.shutdownCancel .canceled with stop := .done }
  | .off | .done => none

/-- A receive from `errCh`; `Start` then returns. -/
def receive (s : TaskManager) : Receiver → Option TaskManager
  | .start => if s.main = .select then some { s with main := .shutdown } else none
  | .drain => if s.drain = .recv then some s else none

/-- One step of a manager that has not crashed. -/
def act (s : TaskManager) : Action → Option TaskManager
  | .main => s.mainStep
  | .seeDone =>
    if s.main = .select ∧ s.ctxErr.isSome then some { s with main := .shutdown } else none
  | .drain => s.drainStep
  | .stop => s.stopStep
  | .group g a =>
    if a.internal then (Group.step (s.groups g) a).map (s.setGroup g) else none
  | .check g i true => (Group.step (s.groups g) (.check i true)).map (s.setGroup g)
  -- `klog.Fatalf`
  | .check g i false =>
    if (s.groups g).checks i = .checking ∧ (s.groups g).cancelled = true ∧
        (s.added[i]?.any fun fn => fn.waitsForSync) = true then
      some { s with crashed := true }
    else none
  | .invoke g i =>
    if (s.groups g).runs i = .running ∧ (g, i) ∉ s.invoked then
      some { s with invoked := s.invoked ++ [(g, i)] }
    else none
  | .runReturn g i err =>
    if (g, i) ∈ s.invoked then
      (Group.step (s.groups g) (.runReturn i err)).map fun t =>
        { s.setGroup g t with failed := if err then s.failed ++ [(g, i)] else s.failed }
    else none
  | .recvReport r g => (s.receive r).bind fun u =>
      (Group.step (s.groups g) .recvReport).map (u.setGroup g)
  | .recvRunErr r g i => (s.receive r).bind fun u =>
      (Group.step (s.groups g) (.recvRunErr i)).map fun t =>
        { u.setGroup g t with received := s.received ++ [(g, i)] }
  | .cancel err =>
    if s.ctxErr = none then some { s.internalCancel err with ctxErr := some err } else none
  | .timeout =>
    if s.stop ≠ .off ∧ s.shutdownErr = none then some (s.shutdownCancel .deadlineExceeded) else none

def step (s : TaskManager) (a : Action) : Option TaskManager :=
  if s.crashed then none else s.act a

/-! ## What one step can do -/

/-- The steps, one constructor per case. -/
inductive Step (s : TaskManager) : Action → TaskManager → Prop where
  | callStart {g t} : s.main = .call g → Group.step (s.groups g) (.callStart 0) = some t →
      Step s .main { s.setGroup g t with main := .inside g }
  | inStart {g t} : s.main = .inside g → (s.groups g).calls 0 ≠ .returned →
      Group.step (s.groups g) (.call 0) = some t → Step s .main (s.setGroup g t)
  | startReturned {g} : s.main = .inside g → (s.groups g).calls 0 = .returned →
      Step s .main { s with main := .next g (s.groups g).startErr }
  | shutdown : s.main = .shutdown →
      Step s .main { s with main := .wait, drain := .cancel, stop := .call .caches }
  | shutdownReturned {err} : s.main = .wait → s.shutdownErr = some err →
      Step s .main { s with main := .returned (decide (err = .canceled)) }
  | seeDone : s.main = .select → s.ctxErr.isSome → Step s .seeDone { s with main := .shutdown }
  | drainCancel : s.drain = .cancel →
      Step s .drain { s.internalCancel .canceled with drain := .close }
  | drainClose : s.drain = .close → s.rd = true → Step s .drain { s with drain := .recv }
  | drainCrash : s.drain = .close → s.rd = false → Step s .drain { s with crashed := true }
  | drainDone {clean} : s.drain = .recv → s.main = .returned clean →
      Step s .drain { s with drain := .done }
  | callStop {g t} : s.stop = .call g → Group.step (s.groups g) (.callStop 1) = some t →
      Step s .stop { s.setGroup g t with stop := .inside g }
  | inStop {g t} : s.stop = .inside g → (s.groups g).calls 1 ≠ .returned →
      Group.step (s.groups g) (.call 1) = some t → Step s .stop (s.setGroup g t)
  | stopReturned {g} : s.stop = .inside g → (s.groups g).calls 1 = .returned →
      Step s .stop { s with stop := .next g }
  | stopCancel : s.stop = .cancel →
      Step s .stop { s.shutdownCancel .canceled with stop := .done }
  | group {g a t} : a.internal = true → Group.step (s.groups g) a = some t →
      Step s (.group g a) (s.setGroup g t)
  | check {g i t} : Group.step (s.groups g) (.check i true) = some t →
      Step s (.check g i true) (s.setGroup g t)
  | checkFatal {g i} : (s.groups g).checks i = .checking → (s.groups g).cancelled = true →
      (s.added[i]?.any fun fn => fn.waitsForSync) = true →
      Step s (.check g i false) { s with crashed := true }
  | invoke {g i} : (s.groups g).runs i = .running → (g, i) ∉ s.invoked →
      Step s (.invoke g i) { s with invoked := s.invoked ++ [(g, i)] }
  | runReturn {g i err t} : (g, i) ∈ s.invoked →
      Group.step (s.groups g) (.runReturn i err) = some t →
      Step s (.runReturn g i err)
        { s.setGroup g t with failed := if err then s.failed ++ [(g, i)] else s.failed }
  | recvReport {r g u t} : s.receive r = some u → Group.step (s.groups g) .recvReport = some t →
      Step s (.recvReport r g) (u.setGroup g t)
  | recvRunErr {r g i u t} : s.receive r = some u →
      Group.step (s.groups g) (.recvRunErr i) = some t →
      Step s (.recvRunErr r g i) { u.setGroup g t with received := s.received ++ [(g, i)] }
  | cancel {err} : s.ctxErr = none →
      Step s (.cancel err) { s.internalCancel err with ctxErr := some err }
  | timeout : s.stop ≠ .off → s.shutdownErr = none →
      Step s .timeout (s.shutdownCancel .deadlineExceeded)

theorem main_cases {s t : TaskManager} (h : s.mainStep = some t) : Step s .main t := by
  unfold mainStep at h
  split at h
  · rename_i g hm
    obtain ⟨u, hu, rfl⟩ := Option.map_eq_some_iff.mp h
    exact .callStart hm hu
  · rename_i g hm
    split at h
    · cases h
      exact .startReturned hm ‹_›
    · obtain ⟨u, hu, rfl⟩ := Option.map_eq_some_iff.mp h
      exact .inStart hm ‹_› hu
  · cases h
    exact .shutdown ‹_›
  · rename_i hm
    obtain ⟨err, herr, rfl⟩ := Option.map_eq_some_iff.mp h
    exact .shutdownReturned hm herr
  · cases h
  · cases h

theorem drain_cases {s t : TaskManager} (h : s.drainStep = some t) : Step s .drain t := by
  unfold drainStep at h
  split at h
  · cases h
    exact .drainCancel ‹_›
  · rename_i hd
    split at h
    · cases h
      exact .drainClose hd ‹_›
    · rename_i hrd
      cases h
      exact .drainCrash hd (by simpa using hrd)
  · split at h
    · cases h
      exact .drainDone ‹_› ‹_›
    · cases h
  · cases h
  · cases h

theorem stop_cases {s t : TaskManager} (h : s.stopStep = some t) : Step s .stop t := by
  unfold stopStep at h
  split at h
  · rename_i g hm
    obtain ⟨u, hu, rfl⟩ := Option.map_eq_some_iff.mp h
    exact .callStop hm hu
  · rename_i g hm
    split at h
    · cases h
      exact .stopReturned hm ‹_›
    · obtain ⟨u, hu, rfl⟩ := Option.map_eq_some_iff.mp h
      exact .inStop hm ‹_› hu
  · cases h
    exact .stopCancel ‹_›
  · cases h
  · cases h

theorem Step_of_act {s t : TaskManager} {a : Action} (h : s.act a = some t) : Step s a t := by
  cases a with
  | main => exact main_cases h
  | drain => exact drain_cases h
  | stop => exact stop_cases h
  | seeDone =>
    simp only [act] at h
    split at h
    · rename_i hd
      cases h
      exact .seeDone hd.1 hd.2
    · cases h
  | group g a =>
    simp only [act] at h
    split at h
    · obtain ⟨u, hu, rfl⟩ := Option.map_eq_some_iff.mp h
      exact .group ‹_› hu
    · cases h
  | check g i ok =>
    cases ok with
    | true =>
      obtain ⟨u, hu, rfl⟩ := Option.map_eq_some_iff.mp h
      exact .check hu
    | false =>
      simp only [act] at h
      split at h
      · rename_i hf
        cases h
        exact .checkFatal hf.1 hf.2.1 hf.2.2
      · cases h
  | invoke g i =>
    simp only [act] at h
    split at h
    · rename_i hi
      cases h
      exact .invoke hi.1 hi.2
    · cases h
  | runReturn g i err =>
    simp only [act] at h
    split at h
    · obtain ⟨u, hu, rfl⟩ := Option.map_eq_some_iff.mp h
      exact .runReturn ‹_› hu
    · cases h
  | recvReport r g =>
    obtain ⟨u, hu, h⟩ := Option.bind_eq_some_iff.mp h
    obtain ⟨v, hv, rfl⟩ := Option.map_eq_some_iff.mp h
    exact .recvReport hu hv
  | recvRunErr r g i =>
    obtain ⟨u, hu, h⟩ := Option.bind_eq_some_iff.mp h
    obtain ⟨v, hv, rfl⟩ := Option.map_eq_some_iff.mp h
    exact .recvRunErr hu hv
  | cancel err =>
    simp only [act] at h
    split at h
    · cases h
      exact .cancel ‹_›
    · cases h
  | timeout =>
    simp only [act] at h
    split at h
    · rename_i ht
      cases h
      exact .timeout ht.1 ht.2
    · cases h

theorem step_of_Step {s t : TaskManager} {a : Action} (hc : s.crashed = false) (h : Step s a t) :
    step s a = some t := by
  unfold step
  rw [hc, if_neg Bool.false_ne_true]
  cases h <;> simp_all [act, mainStep, drainStep, stopStep]

/-- **The step function and its cases agree.** -/
theorem step_iff {s t : TaskManager} {a : Action} :
    step s a = some t ↔ s.crashed = false ∧ Step s a t := by
  constructor
  · intro h
    unfold step at h
    split at h
    · cases h
    · rename_i hc
      exact ⟨by simpa using hc, Step_of_act h⟩
  · rintro ⟨hc, h⟩
    exact step_of_Step hc h

end TaskManager

end EDGuard
