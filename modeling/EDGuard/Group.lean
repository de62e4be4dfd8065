import EDGuard.Lib.Trace
import Mathlib.Logic.Function.Basic
import Mathlib.Data.List.Count

/-!
# A runnable group (`internal/manager/runnable_group.go`)

Any number of calls of `Add`, and of `Start` and `StopAndWait`, run at the same time as the
reconciler, the goroutines of the started runnables and their readiness checks.

* `Group` — the fields of `runnableGroup`, the program point of every goroutine, and what was
  launched and reported so far.
* `step` — one lock, channel or close operation of one goroutine.
* `Step`, `step_iff` — what one step can do, one constructor per case.

A runnable is named by its call of `Add`, which allocates its own `readyRunnable`.  A send on a
closed channel ends the process: nothing is enabled in a crashed state.  A writer that waits for
`r.stop` does not hold up new readers here; a `sync.RWMutex` lets it, and so has fewer schedules.
-/

set_option autoImplicit false

namespace EDGuard

/-- Where a call of `Add` stands. -/
inductive AddPc where
  | idle
  /-- before `r.stop.RLock()` -/
  | rlock
  /-- holding `r.stop` for reading -/
  | rlocked
  /-- before `r.start.Lock()` -/
  | lock
  /-- holding `r.start` -/
  | locked
  /-- sending on `r.ch` -/
  | send
  /-- returned nil -/
  | returned
  /-- returned `errRunnableGroupStopped` -/
  | refused
  deriving DecidableEq

/-- Where a call of `Start` or of `StopAndWait` stands. -/
inductive CallPc where
  | idle
  /-- `Start`, in `startOnce.Do` -/
  | start
  /-- `StopAndWait`, in `stopOnce.Do` -/
  | stop
  /-- in `StopAndWait`, in the call of `Start` -/
  | stopStart
  /-- before `r.stop.Lock()` -/
  | stopLock
  /-- holding `r.stop` for writing -/
  | stopSet
  /-- before `r.cancel()` -/
  | stopCancel
  /-- at the `select` -/
  | stopWait
  /-- before `close(r.ch)` -/
  | stopClose
  | returned
  deriving DecidableEq

/-- Where the body of `startOnce` stands. -/
inductive BodyPc where
  /-- not begun -/
  | none
  /-- before `go r.reconcile()` -/
  | spawn
  /-- before `r.start.Lock()` -/
  | lock
  /-- holding `r.start`, in the loop over `startQueue` -/
  | enqueue (rest : List Nat)
  /-- in the loop that waits for readiness -/
  | ready
  /-- before `close(r.startReadyCh)` -/
  | close
  | done
  deriving DecidableEq

/-- Where the reconciler stands. -/
inductive ReconcilePc where
  | off
  /-- receiving from `r.ch` -/
  | recv
  /-- before `r.stop.RLock()` -/
  | rlock (i : Nat)
  /-- holding `r.stop` for reading -/
  | locked (i : Nat)
  /-- sending `errRunnableGroupStopped`, holding `r.stop` for reading -/
  | report (i : Nat)
  /-- before `go func(rn)` -/
  | launch (i : Nat)
  | exited
  deriving DecidableEq

/-- Where the readiness check of a runnable stands. -/
inductive CheckPc where
  | idle
  | checking
  /-- sending on `r.startReadyCh` -/
  | signalling
  | done
  deriving DecidableEq

/-- Where the goroutine of a runnable stands. -/
inductive RunPc where
  | idle
  | running
  /-- sending the error on `r.errChan` -/
  | sendErr
  /-- before `r.wg.Done()` -/
  | finishing
  | done
  deriving DecidableEq

/-- The error of a context that is done. -/
inductive CtxErr where
  | canceled
  | deadlineExceeded
  deriving DecidableEq

inductive Once where
  | fresh
  | running
  | done
  deriving DecidableEq

structure Group where
  adds : Nat → AddPc
  calls : Nat → CallPc
  /-- the error of the context of a call -/
  ctxErr : Nat → Option CtxErr
  /-- the call that runs or ran the body of `startOnce` -/
  starter : Nat
  body : BodyPc
  retErr : Option CtxErr
  /-- `r.start` is held -/
  startMu : Bool
  started : Bool
  startQueue : List Nat
  signalReady : Nat → Bool
  startReadyClosed : Bool
  /-- how often `r.stop` is held for reading -/
  stopReaders : Nat
  /-- `r.stop` is held for writing -/
  stopWriter : Bool
  stopped : Bool
  stopOnce : Once
  /-- `r.cancel` was called -/
  cancelled : Bool
  reconcile : ReconcilePc
  chClosed : Bool
  wg : Nat
  checks : Nat → CheckPc
  runs : Nat → RunPc
  /-- the runnables whose goroutine was started -/
  launched : List Nat
  /-- the runnables for which `errRunnableGroupStopped` was received from `errChan` -/
  reported : List Nat
  crashed : Bool

/-- `newRunnableGroup`. -/
def newRunnableGroup : Group :=
  { adds := fun _ => .idle
    calls := fun _ => .idle
    ctxErr := fun _ => none
    starter := 0
    body := .none
    retErr := none
    startMu := false
    started := false
    startQueue := []
    signalReady := fun _ => false
    startReadyClosed := false
    stopReaders := 0
    stopWriter := false
    stopped := false
    stopOnce := .fresh
    cancelled := false
    reconcile := .off
    chClosed := false
    wg := 0
    checks := fun _ => .idle
    runs := fun _ => .idle
    launched := []
    reported := []
    crashed := false }

namespace Group

inductive Action where
  /-- the next operation of a call of `Add` -/
  | add (i : Nat)
  | callStart (c : Nat)
  | callStop (c : Nat)
  /-- the next operation of a call of `Start` or `StopAndWait` -/
  | call (c : Nat)
  /-- the context of a call is done -/
  | expire (c : Nat) (err : CtxErr)
  /-- the next operation of the body of `startOnce` -/
  | body
  /-- the wait loop of `Start` finds its context done -/
  | ctxDone
  /-- the wait loop of `Start` receives from `r.startReadyCh` -/
  | recvReady (i : Nat)
  /-- the reconciler receives from a call of `Add` -/
  | recvAdd (i : Nat)
  /-- the reconciler receives from the body of `startOnce` -/
  | recvQueue
  /-- the next operation of the reconciler -/
  | reconcile
  /-- the reader of `errChan` receives what the reconciler reports -/
  | recvReport
  | check (i : Nat) (ok : Bool)
  /-- a readiness signal is sent on the closed `r.startReadyCh` -/
  | signalClosed (i : Nat)
  /-- `Start` of a runnable returns -/
  | runReturn (i : Nat) (err : Bool)
  /-- the reader of `errChan` receives the error of a runnable -/
  | recvRunErr (i : Nat)
  | wgDone (i : Nat)
  deriving DecidableEq

def setAdd (s : Group) (i : Nat) (pc : AddPc) : Group :=
  { s with adds := Function.update s.adds i pc }

def setCall (s : Group) (c : Nat) (pc : CallPc) : Group :=
  { s with calls := Function.update s.calls c pc }

/-- `Add`, operation by operation. -/
def add (s : Group) (i : Nat) : Option Group :=
  match s.adds i with
  | .idle => some (s.setAdd i .rlock)
  | .rlock =>
    if s.stopWriter then none
    else some { s.setAdd i .rlocked with stopReaders := s.stopReaders + 1 }
  | .rlocked => some { s.setAdd i (if s.stopped then .refused else .lock) with
      stopReaders := s.stopReaders - 1 }
  | .lock => if s.startMu then none else some { s.setAdd i .locked with startMu := true }
  | .locked =>
    if s.started then some { s.setAdd i .send with startMu := false }
    else some { s.setAdd i .returned with
      startQueue := s.startQueue ++ [i]
      startMu := false }
  | .send => if s.chClosed then some { s with crashed := true } else none
  | .returned | .refused => none

/-- `startOnce.Do`: the first call runs the body, the others wait for its end. -/
def onceStart (s : Group) (c : Nat) (next : CallPc) : Option Group :=
  match s.body with
  | .none => some { s with starter := c, body := .spawn }
  | .done => some (s.setCall c next)
  | _ => none

/-- `Start` and `StopAndWait`, operation by operation. -/
def call (s : Group) (c : Nat) : Option Group :=
  match s.calls c with
  | .start => s.onceStart c .returned
  | .stop =>
    match s.stopOnce with
    | .fresh => some { s.setCall c .stopStart with stopOnce := .running }
    | .running => none
    | .done => some (s.setCall c .returned)
  | .stopStart => s.onceStart c .stopLock
  | .stopLock =>
    if s.stopReaders = 0 ∧ s.stopWriter = false then
      some { s.setCall c .stopSet with stopWriter := true }
    else none
  | .stopSet => some { s.setCall c .stopCancel with stopped := true, stopWriter := false }
  | .stopCancel => some { s.setCall c .stopWait with cancelled := true }
  | .stopWait =>
    if s.wg = 0 ∨ (s.ctxErr c).isSome then some (s.setCall c .stopClose) else none
  | .stopClose => some { s.setCall c .returned with chClosed := true, stopOnce := .done }
  | .idle | .returned => none

/-- The body of `startOnce`, operation by operation. -/
def bodyStep (s : Group) : Option Group :=
  match s.body with
  | .spawn => some { s with reconcile := .recv, body := .lock }
  | .lock =>
    if s.startMu then none
    else some { s with startMu := true, started := true, body := .enqueue s.startQueue }
  | .enqueue [] => some { s with
      startMu := false
      body := if s.startQueue = [] then .close else .ready }
  | .close => some { s with startReadyClosed := true, body := .done }
  | _ => none

/-- `case rn := <-r.startReadyCh`. -/
def recvReady (s : Group) (i : Nat) : Option Group :=
  match s.body, s.checks i with
  | .ready, .signalling => some { s with
      startQueue := s.startQueue.erase i
      checks := Function.update s.checks i .done
      body := if s.startQueue.erase i = [] then .close else .ready }
  | _, _ => none

/-- `case <-ctx.Done()`: the loop goes on. -/
def ctxDone (s : Group) : Option Group :=
  match s.body, s.ctxErr s.starter with
  | .ready, some .deadlineExceeded => some { s with retErr := some .deadlineExceeded }
  | .ready, some .canceled => some s
  | _, _ => none

/-- The reconciler, operation by operation. -/
def reconcileStep (s : Group) : Option Group :=
  match s.reconcile with
  | .recv => if s.chClosed then some { s with reconcile := .exited } else none
  | .rlock i =>
    if s.stopWriter then none
    else some { s with stopReaders := s.stopReaders + 1, reconcile := .locked i }
  | .locked i =>
    if s.stopped then some { s with reconcile := .report i }
    else some { s with wg := s.wg + 1, stopReaders := s.stopReaders - 1, reconcile := .launch i }
  | .launch i => some { s with
      reconcile := .recv
      checks := Function.update s.checks i .checking
      runs := Function.update s.runs i .running
      launched := s.launched ++ [i] }
  | _ => none

/-- One step of a group that has not crashed. -/
def act (s : Group) : Action → Option Group
  | .add i => s.add i
  | .callStart c => if s.calls c = .idle then some (s.setCall c .start) else none
  | .callStop c => if s.calls c = .idle then some (s.setCall c .stop) else none
  | .call c => s.call c
  | .expire c err =>
    if s.ctxErr c = none then some { s with ctxErr := Function.update s.ctxErr c (some err) }
    else none
  | .body => s.bodyStep
  | .ctxDone => s.ctxDone
  | .recvReady i => s.recvReady i
  | .recvAdd i =>
    match s.reconcile, s.adds i with
    | .recv, .send =>
      if s.chClosed then none else some { s.setAdd i .returned with reconcile := .rlock i }
    | _, _ => none
  | .recvQueue =>
    match s.reconcile, s.body with
    | .recv, .enqueue (i :: rest) =>
      if s.chClosed then none
      else some { s with
        signalReady := Function.update s.signalReady i true
        reconcile := .rlock i
        body := .enqueue rest }
    | _, _ => none
  | .reconcile => s.reconcileStep
  | .recvReport =>
    match s.reconcile with
    | .report i => some { s with
        stopReaders := s.stopReaders - 1
        reconcile := .recv
        reported := s.reported ++ [i] }
    | _ => none
  | .check i ok =>
    if s.checks i = .checking then
      some { s with
        checks := Function.update s.checks i
          (if ok && s.signalReady i then .signalling else .done) }
    else none
  | .signalClosed i =>
    if s.checks i = .signalling ∧ s.startReadyClosed then some { s with crashed := true } else none
  | .runReturn i err =>
    if s.runs i = .running then
      some { s with runs := Function.update s.runs i (if err then .sendErr else .finishing) }
    else none
  | .recvRunErr i =>
    if s.runs i = .sendErr then some { s with runs := Function.update s.runs i .finishing }
    else none
  | .wgDone i =>
    if s.runs i = .finishing then
      some { s with runs := Function.update s.runs i .done, wg := s.wg - 1 }
    else none

def step (s : Group) (a : Action) : Option Group := if s.crashed then none else s.act a

/-! ## What one step can do -/

/-- The steps, one constructor per case. -/
inductive Step (s : Group) : Action → Group → Prop where
  | addBegin {i} : s.adds i = .idle → Step s (.add i) (s.setAdd i .rlock)
  | addRlock {i} : s.adds i = .rlock → s.stopWriter = false →
      Step s (.add i) { s.setAdd i .rlocked with stopReaders := s.stopReaders + 1 }
  | addRefuse {i} : s.adds i = .rlocked → s.stopped = true →
      Step s (.add i) { s.setAdd i .refused with stopReaders := s.stopReaders - 1 }
  | addPass {i} : s.adds i = .rlocked → s.stopped = false →
      Step s (.add i) { s.setAdd i .lock with stopReaders := s.stopReaders - 1 }
  | addLock {i} : s.adds i = .lock → s.startMu = false →
      Step s (.add i) { s.setAdd i .locked with startMu := true }
  | addQueue {i} : s.adds i = .locked → s.started = false →
      Step s (.add i) { s.setAdd i .returned with
        startQueue := s.startQueue ++ [i]
        startMu := false }
  | addStarted {i} : s.adds i = .locked → s.started = true →
      Step s (.add i) { s.setAdd i .send with startMu := false }
  | addCrash {i} : s.adds i = .send → s.chClosed = true →
      Step s (.add i) { s with crashed := true }
  | callStart {c} : s.calls c = .idle → Step s (.callStart c) (s.setCall c .start)
  | callStop {c} : s.calls c = .idle → Step s (.callStop c) (s.setCall c .stop)
  | startOnce {c} : s.calls c = .start ∨ s.calls c = .stopStart → s.body = .none →
      Step s (.call c) { s with starter := c, body := .spawn }
  | startDone {c} : s.calls c = .start → s.body = .done → Step s (.call c) (s.setCall c .returned)
  | stopStartDone {c} : s.calls c = .stopStart → s.body = .done →
      Step s (.call c) (s.setCall c .stopLock)
  | stopOnce {c} : s.calls c = .stop → s.stopOnce = .fresh →
      Step s (.call c) { s.setCall c .stopStart with stopOnce := .running }
  | stopDone {c} : s.calls c = .stop → s.stopOnce = .done →
      Step s (.call c) (s.setCall c .returned)
  | stopLock {c} : s.calls c = .stopLock → s.stopReaders = 0 → s.stopWriter = false →
      Step s (.call c) { s.setCall c .stopSet with stopWriter := true }
  | stopSet {c} : s.calls c = .stopSet →
      Step s (.call c) { s.setCall c .stopCancel with stopped := true, stopWriter := false }
  | stopCancel {c} : s.calls c = .stopCancel →
      Step s (.call c) { s.setCall c .stopWait with cancelled := true }
  | stopWait {c} : s.calls c = .stopWait → s.wg = 0 ∨ (s.ctxErr c).isSome →
      Step s (.call c) (s.setCall c .stopClose)
  | stopClose {c} : s.calls c = .stopClose →
      Step s (.call c) { s.setCall c .returned with chClosed := true, stopOnce := .done }
  | expire {c err} : s.ctxErr c = none →
      Step s (.expire c err) { s with ctxErr := Function.update s.ctxErr c (some err) }
  | bodySpawn : s.body = .spawn → Step s .body { s with reconcile := .recv, body := .lock }
  | bodyLock : s.body = .lock → s.startMu = false →
      Step s .body { s with startMu := true, started := true, body := .enqueue s.startQueue }
  | bodyUnlock : s.body = .enqueue [] → Step s .body { s with
      startMu := false
      body := if s.startQueue = [] then .close else .ready }
  | bodyClose : s.body = .close → Step s .body { s with startReadyClosed := true, body := .done }
  | ctxDeadline : s.body = .ready → s.ctxErr s.starter = some .deadlineExceeded →
      Step s .ctxDone { s with retErr := some .deadlineExceeded }
  | ctxCanceled : s.body = .ready → s.ctxErr s.starter = some .canceled → Step s .ctxDone s
  | recvReady {i} : s.body = .ready → s.checks i = .signalling → Step s (.recvReady i) { s with
      startQueue := s.startQueue.erase i
      checks := Function.update s.checks i .done
      body := if s.startQueue.erase i = [] then .close else .ready }
  | recvAdd {i} : s.reconcile = .recv → s.adds i = .send → s.chClosed = false →
      Step s (.recvAdd i) { s.setAdd i .returned with reconcile := .rlock i }
  | recvQueue {i rest} : s.reconcile = .recv → s.body = .enqueue (i :: rest) →
      s.chClosed = false → Step s .recvQueue { s with
        signalReady := Function.update s.signalReady i true
        reconcile := .rlock i
        body := .enqueue rest }
  | exit : s.reconcile = .recv → s.chClosed = true →
      Step s .reconcile { s with reconcile := .exited }
  | rlock {i} : s.reconcile = .rlock i → s.stopWriter = false →
      Step s .reconcile { s with stopReaders := s.stopReaders + 1, reconcile := .locked i }
  | drop {i} : s.reconcile = .locked i → s.stopped = true →
      Step s .reconcile { s with reconcile := .report i }
  | wgAdd {i} : s.reconcile = .locked i → s.stopped = false → Step s .reconcile { s with
      wg := s.wg + 1
      stopReaders := s.stopReaders - 1
      reconcile := .launch i }
  | launch {i} : s.reconcile = .launch i → Step s .reconcile { s with
      reconcile := .recv
      checks := Function.update s.checks i .checking
      runs := Function.update s.runs i .running
      launched := s.launched ++ [i] }
  | recvReport {i} : s.reconcile = .report i → Step s .recvReport { s with
      stopReaders := s.stopReaders - 1
      reconcile := .recv
      reported := s.reported ++ [i] }
  | check {i ok} : s.checks i = .checking → Step s (.check i ok) { s with
      checks := Function.update s.checks i
        (if ok && s.signalReady i then .signalling else .done) }
  | signalCrash {i} : s.checks i = .signalling → s.startReadyClosed = true →
      Step s (.signalClosed i) { s with crashed := true }
  | runReturn {i err} : s.runs i = .running → Step s (.runReturn i err) { s with
      runs := Function.update s.runs i (if err then .sendErr else .finishing) }
  | recvRunErr {i} : s.runs i = .sendErr → Step s (.recvRunErr i) { s with
      runs := Function.update s.runs i .finishing }
  | wgDone {i} : s.runs i = .finishing → Step s (.wgDone i) { s with
      runs := Function.update s.runs i .done
      wg := s.wg - 1 }

theorem step_of_Step {s t : Group} {a : Action} (hc : s.crashed = false) (h : Step s a t) :
    step s a = some t := by
  unfold step
  rw [hc, if_neg Bool.false_ne_true]
  cases h with
  | startOnce hcall hbody =>
    rcases hcall with hcall | hcall <;> simp [act, call, onceStart, hcall, hbody]
  | _ =>
    simp_all [act, add, call, onceStart, bodyStep, ctxDone, recvReady, reconcileStep]

theorem add_cases {s t : Group} {i : Nat} (h : s.add i = some t) : Step s (.add i) t := by
  unfold add at h
  split at h
  · cases h
    exact .addBegin ‹_›
  · split at h
    · cases h
    · rename_i hw
      cases h
      exact .addRlock ‹_› (by simpa using hw)
  · rename_i hpc
    cases hst : s.stopped with
    | true =>
      rw [hst] at h
      cases h
      exact .addRefuse hpc hst
    | false =>
      rw [hst] at h
      cases h
      exact .addPass hpc hst
  · split at h
    · cases h
    · rename_i hm
      cases h
      exact .addLock ‹_› (by simpa using hm)
  · split at h
    · cases h
      exact .addStarted ‹_› ‹_›
    · rename_i hst
      cases h
      exact .addQueue ‹_› (by simpa using hst)
  · split at h
    · cases h
      exact .addCrash ‹_› ‹_›
    · cases h
  · cases h
  · cases h

theorem call_cases {s t : Group} {c : Nat} (h : s.call c = some t) : Step s (.call c) t := by
  have honce : ∀ {next : CallPc}, s.onceStart c next = some t →
      s.body = .none ∧ t = { s with starter := c, body := .spawn } ∨
        s.body = .done ∧ t = s.setCall c next := by
    intro next hn
    unfold onceStart at hn
    split at hn
    · cases hn
      exact Or.inl ⟨‹_›, rfl⟩
    · cases hn
      exact Or.inr ⟨‹_›, rfl⟩
    · cases hn
  unfold call at h
  split at h
  · rename_i hpc
    rcases honce h with ⟨hb, rfl⟩ | ⟨hb, rfl⟩
    · exact .startOnce (Or.inl hpc) hb
    · exact .startDone hpc hb
  · split at h
    · cases h
      exact .stopOnce ‹_› ‹_›
    · cases h
    · cases h
      exact .stopDone ‹_› ‹_›
  · rename_i hpc
    rcases honce h with ⟨hb, rfl⟩ | ⟨hb, rfl⟩
    · exact .startOnce (Or.inr hpc) hb
    · exact .stopStartDone hpc hb
  · split at h
    · rename_i hl
      cases h
      exact .stopLock ‹_› hl.1 hl.2
    · cases h
  · cases h
    exact .stopSet ‹_›
  · cases h
    exact .stopCancel ‹_›
  · split at h
    · cases h
      exact .stopWait ‹_› ‹_›
    · cases h
  · cases h
    exact .stopClose ‹_›
  · cases h
  · cases h

theorem body_cases {s t : Group} (h : s.bodyStep = some t) : Step s .body t := by
  unfold bodyStep at h
  split at h
  · cases h
    exact .bodySpawn ‹_›
  · split at h
    · cases h
    · rename_i hm
      cases h
      exact .bodyLock ‹_› (by simpa using hm)
  · cases h
    exact .bodyUnlock ‹_›
  · cases h
    exact .bodyClose ‹_›
  · cases h

theorem reconcile_cases {s t : Group} (h : s.reconcileStep = some t) : Step s .reconcile t := by
  unfold reconcileStep at h
  split at h
  · split at h
    · cases h
      exact .exit ‹_› ‹_›
    · cases h
  · split at h
    · cases h
    · rename_i hw
      cases h
      exact .rlock ‹_› (by simpa using hw)
  · split at h
    · cases h
      exact .drop ‹_› ‹_›
    · rename_i hst
      cases h
      exact .wgAdd ‹_› (by simpa using hst)
  · cases h
    exact .launch ‹_›
  · cases h

theorem Step_of_act {s t : Group} {a : Action} (h : s.act a = some t) : Step s a t := by
  cases a with
  | add i => exact add_cases h
  | call c => exact call_cases h
  | body => exact body_cases h
  | reconcile => exact reconcile_cases h
  | callStart c =>
    simp only [act] at h
    split at h
    · cases h
      exact .callStart ‹_›
    · cases h
  | callStop c =>
    simp only [act] at h
    split at h
    · cases h
      exact .callStop ‹_›
    · cases h
  | expire c err =>
    simp only [act] at h
    split at h
    · cases h
      exact .expire ‹_›
    · cases h
  | ctxDone =>
    simp only [act, ctxDone] at h
    split at h
    · cases h
      exact .ctxDeadline ‹_› ‹_›
    · cases h
      exact .ctxCanceled ‹_› ‹_›
    · cases h
  | recvReady i =>
    simp only [act, recvReady] at h
    split at h
    · cases h
      exact .recvReady ‹_› ‹_›
    · cases h
  | recvAdd i =>
    simp only [act] at h
    split at h
    · split at h
      · cases h
      · rename_i hch
        cases h
        exact .recvAdd ‹_› ‹_› (by simpa using hch)
    · cases h
  | recvQueue =>
    simp only [act] at h
    split at h
    · split at h
      · cases h
      · rename_i hch
        cases h
        exact .recvQueue ‹_› ‹_› (by simpa using hch)
    · cases h
  | recvReport =>
    simp only [act] at h
    split at h
    · cases h
      exact .recvReport ‹_›
    · cases h
  | check i ok =>
    simp only [act] at h
    split at h
    · cases h
      exact .check ‹_›
    · cases h
  | signalClosed i =>
    simp only [act] at h
    split at h
    · rename_i hs
      cases h
      exact .signalCrash hs.1 hs.2
    · cases h
  | runReturn i err =>
    simp only [act] at h
    split at h
    · cases h
      exact .runReturn ‹_›
    · cases h
  | recvRunErr i =>
    simp only [act] at h
    split at h
    · cases h
      exact .recvRunErr ‹_›
    · cases h
  | wgDone i =>
    simp only [act] at h
    split at h
    · cases h
      exact .wgDone ‹_›
    · cases h

/-- **The step function and its cases agree.** -/
theorem step_iff {s t : Group} {a : Action} :
    step s a = some t ↔ s.crashed = false ∧ Step s a t := by
  constructor
  · intro h
    unfold step at h
    split at h
    · cases h
    · rename_i hc
      exact ⟨by simpa using hc, Step_of_act h⟩
  · rintro ⟨hc, h⟩
    exact step_of_Step hc h

/-- A step as a run. -/
theorem Step.reaches {P : Action → Prop} {s t : Group} {a : Action} (h : Step s a t)
    (hc : s.crashed = false) (ha : P a) : Trace.Reaches step P s t :=
  .single ha (step_iff.mpr ⟨hc, h⟩)

end Group

end EDGuard
