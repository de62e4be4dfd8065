import EDGuard.Pod
import EDGuard.Lib.BoundedMap
import EDGuard.Lib.Trace
import Mathlib.Logic.Function.Basic

/-!
# The runner (`internal/task/bpf_runner/mysql/mysql.go`)

Three kinds of goroutines share `r.mu`, the unbuffered channels `r.ch` and `r.internalErrChan`,
and the two registries: the main loop of `Start`, the informer goroutines `ι` (each runs one
handler at a time) and the attach goroutines.

* `Runner` — the fields of `BpfRunner` and the program point of every goroutine.
* `step` — one step of one goroutine; every outcome of a call outside the runner is part of the
  action.  A rendezvous on an unbuffered channel is one step of both sides.
* `Step`, `step_iff` — what one step can do, one constructor per case.

A panic ends the process: nothing is enabled in a crashed state.
-/

set_option autoImplicit false

namespace EDGuard

/-- Where the main loop stands: in `Start`, in `attachInstance`, or in the deferred function. -/
inductive MainPc where
  /-- at the `select` -/
  | select
  /-- in `attachInstance`, before `r.mu.Lock()` -/
  | attachLock (t : Instance)
  /-- holding `r.mu`, before the instance is stored -/
  | attachBody (t : Instance)
  /-- holding `r.mu`, before `clusters.Update` -/
  | attachUpdate (t : Instance) (cluster : Cluster)
  /-- holding `r.mu`, sending the error of `clusters.Update` -/
  | attachErr (t : Instance)
  /-- holding `r.mu`, before the check of `Attached` -/
  | attachSpawn (t : Instance)
  /-- before `r.internalCancel()` -/
  | deferCancel
  /-- in `r.wg.Wait()` -/
  | deferWait
  /-- before `close(r.ch)` -/
  | deferCloseCh
  /-- before `close(r.internalErrChan)` -/
  | deferCloseErr
  | exited
  deriving DecidableEq

/-- Where an attach goroutine stands. -/
inductive AttachPc where
  /-- before `OpenExecutable` -/
  | open
  /-- before `Uprobe` -/
  | uprobe
  /-- before `Uretprobe` -/
  | uretprobe
  /-- before `program.Attached = true` -/
  | mark
  /-- waiting for the context -/
  | wait
  /-- sending an error -/
  | sendErr
  | done
  deriving DecidableEq

/-- The next program point of an attach goroutine after one of its three fallible calls. -/
def AttachPc.probe : AttachPc → Bool → Option AttachPc
  | .open, ok => some (if ok then .uprobe else .sendErr)
  | .uprobe, ok => some (if ok then .uretprobe else .sendErr)
  | .uretprobe, ok => some (if ok then .mark else .sendErr)
  | _, _ => none

/-- An attach goroutine with its arguments; `version` names the program. -/
structure Attacher where
  pid : Int
  version : GoString
  pc : AttachPc
  deriving DecidableEq

inductive Party (ι : Type) where
  | main
  | callback (i : ι)
  | attacher (k : Nat)
  deriving DecidableEq

structure Runner (ι : Type) where
  bpfPrograms : GoString → Option Program
  instances : GoString → Option Instance
  clusters : BoundedMap UInt32 Cluster 1024
  /-- who holds `r.mu` -/
  mu : Option (Party ι)
  main : MainPc
  callbacks : ι → CallbackPc
  attachers : List Attacher
  /-- the context given to `Start` is done -/
  ctxDone : Bool
  /-- `r.internalCancel` was called -/
  internalDone : Bool
  chClosed : Bool
  errClosed : Bool
  crashed : Bool

/-- `WithBpfProgram`. -/
def WithBpfProgram (bpfPrograms : GoString → Option Program) (p : Program) :
    GoString → Option Program :=
  Function.update bpfPrograms p.version (some p)

/-- Only programs that were registered are found. -/
theorem mem_of_foldl_withBpfProgram : ∀ {programs : List Program} {m : GoString → Option Program}
    {v : GoString} {p : Program}, programs.foldl WithBpfProgram m v = some p →
    m v = some p ∨ ∃ q ∈ programs, q.version = v
  | [], _, _, _, h => Or.inl h
  | q :: programs, m, v, p, h => by
    rcases mem_of_foldl_withBpfProgram (m := WithBpfProgram m q) h with hm | ⟨q', hq', hv⟩
    · rcases eq_or_ne v q.version with rfl | hv
      · exact Or.inr ⟨q, List.mem_cons_self, rfl⟩
      · unfold WithBpfProgram at hm
        rw [Function.update_of_ne hv] at hm
        exact Or.inl hm
    · exact Or.inr ⟨q', List.mem_cons_of_mem _ hq', hv⟩

namespace Runner

variable {ι : Type}

/-- The runner once `Start` is at its `select`, with the programs registered in order. -/
def init (programs : List Program) : Runner ι :=
  { bpfPrograms := programs.foldl WithBpfProgram fun _ => none
    instances := fun _ => none
    clusters := .empty
    mu := none
    main := .select
    callbacks := fun _ => .idle
    attachers := []
    ctxDone := false
    internalDone := false
    chClosed := false
    errClosed := false
    crashed := false }

inductive Action (ι : Type) where
  | deliver (i : ι) (e : PodEvent)
  | iterate (i : ι)
  | lookup (i : ι) (pid : Option Int)
  | child (i : ι) (pid : Option Int)
  | recvCh (i : ι)
  | recvErr (p : Party ι)
  | lockAttach
  | store
  | update (ok : Bool)
  | spawn
  | lockDetach (i : ι)
  | delete (i : ι) (ok : Bool)
  | probe (k : Nat) (ok : Bool)
  | mark (k : Nat)
  | unattach (k : Nat)
  | cancel
  | leave
  | unwind
  | sendClosed (p : Party ι)

section

variable [DecidableEq ι]

def setCallback (s : Runner ι) (i : ι) (pc : CallbackPc) : Runner ι :=
  { s with callbacks := Function.update s.callbacks i pc }

/-- The main loop receives from `r.ch`. -/
def recvCh (s : Runner ι) (i : ι) : Option (Runner ι) :=
  match s.main, s.callbacks i with
  | .select, .add t => some { s.setCallback i .idle with main := .attachLock t }
  | _, _ => none

/-- The main loop receives from `r.internalErrChan`; `detachInstance` returns and unlocks. -/
def recvErr (s : Runner ι) (p : Party ι) : Option (Runner ι) :=
  if s.main = .select then
    match p with
    | .main => none
    | .callback i =>
      match s.callbacks i with
      | .sendErr => some (s.setCallback i .idle)
      | .detachErr => some { s.setCallback i .idle with mu := none }
      | _ => none
    | .attacher k =>
      match s.attachers[k]? with
      | some a =>
        if a.pc = .sendErr then
          some { s with attachers := s.attachers.set k { a with pc := .done } }
        else none
      | none => none
  else none

/-- `attachInstance` up to `r.Instances[t.GetId()] = t`; a missing program is dereferenced. -/
def store (s : Runner ι) : Option (Runner ι) :=
  match s.main with
  | .attachBody t =>
    match s.bpfPrograms t.version with
    | none => some { s with crashed := true }
    | some bpfProgram => some { s with
        instances := Function.update s.instances t.GetId (some t)
        main := .attachUpdate t (bpfCluster t bpfProgram) }
  | _ => none

/-- `clusters.Update`. -/
def update (s : Runner ι) (ok : Bool) : Option (Runner ι) :=
  match s.main with
  | .attachUpdate t cluster =>
    if ok then
      (s.clusters.update t.pidKey cluster).map fun m =>
        { s with clusters := m, main := .attachSpawn t }
    else some { s with main := .attachErr t }
  | _ => none

/-- The end of `attachInstance`, with its deferred unlock. -/
def spawn (s : Runner ι) : Option (Runner ι) :=
  match s.main with
  | .attachSpawn t => some { s with
      mu := none
      main := .select
      attachers := if (s.bpfPrograms t.version).any fun p => !p.attached then
        s.attachers ++ [⟨t.pid, t.version, .open⟩] else s.attachers }
  | _ => none

/-- `detachInstance` with the lock held, up to its deferred unlock or the send of the error. -/
def delete (s : Runner ι) (i : ι) (ok : Bool) : Option (Runner ι) :=
  match s.callbacks i with
  | .detachBody id =>
    match s.instances id with
    | none => some { s.setCallback i .idle with mu := none }
    | some t =>
      if ok then
        (s.clusters.delete t.pidKey).map fun m => { s.setCallback i .idle with
          clusters := m
          instances := Function.update s.instances id none
          mu := none }
      else some (s.setCallback i .detachErr)
  | _ => none

def setAttacher (s : Runner ι) (k : Nat) (a : Attacher) : Runner ι :=
  { s with attachers := s.attachers.set k a }

/-- The deferred function of `Start`, call by call. -/
def unwind (s : Runner ι) : Option (Runner ι) :=
  match s.main with
  | .deferCancel => some { s with internalDone := true, main := .deferWait }
  | .deferWait =>
    if ∀ a ∈ s.attachers, a.pc = .done then some { s with main := .deferCloseCh } else none
  | .deferCloseCh => some { s with chClosed := true, main := .deferCloseErr }
  | .deferCloseErr => some { s with errClosed := true, main := .exited }
  | _ => none

/-- The party is at a send on a closed channel. -/
def sendsOnClosed (s : Runner ι) : Party ι → Bool
  | .main => match s.main with
    | .attachErr _ => s.errClosed
    | _ => false
  | .callback i => match s.callbacks i with
    | .add _ => s.chClosed
    | .sendErr | .detachErr => s.errClosed
    | _ => false
  | .attacher k => match s.attachers[k]? with
    | some a => decide (a.pc = .sendErr) && s.errClosed
    | none => false

/-- One step of a runner that has not crashed. -/
def act (s : Runner ι) : Action ι → Option (Runner ι)
  | .deliver i e =>
    if s.callbacks i = .idle then
      match e.handler with
      | none => some { s with crashed := true }
      | some pc => some (s.setCallback i pc)
    else none
  | .iterate i =>
    match (s.callbacks i).iterate s.bpfPrograms s.instances with
    | none => none
    | some none => some { s with crashed := true }
    | some (some pc) => some (s.setCallback i pc)
  | .lookup i pid =>
    match s.callbacks i with
    | .lookup pod imageId containerId => some (s.setCallback i (match pid with
      | none => .sendErr
      | some pid => .child pod imageId containerId pid))
    | _ => none
  | .child i pid =>
    match s.callbacks i with
    | .child pod imageId containerId _ => some (s.setCallback i (match pid with
      | none => .sendErr
      | some pid => .add (newInstance pod imageId containerId pid)))
    | _ => none
  | .recvCh i => s.recvCh i
  | .recvErr p => s.recvErr p
  | .lockAttach =>
    match s.main, s.mu with
    | .attachLock t, none => some { s with mu := some .main, main := .attachBody t }
    | _, _ => none
  | .store => s.store
  | .update ok => s.update ok
  | .spawn => s.spawn
  | .lockDetach i =>
    match s.callbacks i, s.mu with
    | .detachLock id, none =>
      some { s.setCallback i (.detachBody id) with mu := some (.callback i) }
    | _, _ => none
  | .delete i ok => s.delete i ok
  | .probe k ok =>
    match s.attachers[k]? with
    | none => none
    | some a => (a.pc.probe ok).map fun pc => s.setAttacher k { a with pc := pc }
  | .mark k =>
    match s.attachers[k]? with
    | none => none
    | some a =>
      if a.pc = .mark then some { s.setAttacher k { a with pc := .wait } with
        bpfPrograms := Function.update s.bpfPrograms a.version
          ((s.bpfPrograms a.version).map fun p => { p with attached := true }) }
      else none
  | .unattach k =>
    match s.attachers[k]? with
    | none => none
    | some a =>
      if a.pc = .wait ∧ (s.ctxDone ∨ s.internalDone) then
        some (s.setAttacher k { a with pc := .done })
      else none
  | .cancel => some { s with ctxDone := true }
  | .leave =>
    if s.main = .select ∧ s.ctxDone then some { s with main := .deferCancel } else none
  | .unwind => s.unwind
  | .sendClosed p => if s.sendsOnClosed p then some { s with crashed := true } else none

def step (s : Runner ι) (a : Action ι) : Option (Runner ι) :=
  if s.crashed then none else s.act a

/-! ## What one step can do -/

/-- The steps, one constructor per case. -/
inductive Step (s : Runner ι) : Action ι → Runner ι → Prop where
  | deliver {i e pc} : s.callbacks i = .idle → e.handler = some pc →
      Step s (.deliver i e) (s.setCallback i pc)
  | iterate {i pc} : (s.callbacks i).iterate s.bpfPrograms s.instances = some (some pc) →
      Step s (.iterate i) (s.setCallback i pc)
  | lookupErr {i pod imageId containerId} : s.callbacks i = .lookup pod imageId containerId →
      Step s (.lookup i none) (s.setCallback i .sendErr)
  | lookup {i pod imageId containerId pid} : s.callbacks i = .lookup pod imageId containerId →
      Step s (.lookup i (some pid)) (s.setCallback i (.child pod imageId containerId pid))
  | childErr {i pod imageId containerId pid} : s.callbacks i = .child pod imageId containerId pid →
      Step s (.child i none) (s.setCallback i .sendErr)
  | child {i pod imageId containerId pid₀ pid} :
      s.callbacks i = .child pod imageId containerId pid₀ →
      Step s (.child i (some pid))
        (s.setCallback i (.add (newInstance pod imageId containerId pid)))
  | recvCh {i t} : s.main = .select → s.callbacks i = .add t →
      Step s (.recvCh i) { s.setCallback i .idle with main := .attachLock t }
  | recvLookupErr {i} : s.main = .select → s.callbacks i = .sendErr →
      Step s (.recvErr (.callback i)) (s.setCallback i .idle)
  | recvDetachErr {i} : s.main = .select → s.callbacks i = .detachErr →
      Step s (.recvErr (.callback i)) { s.setCallback i .idle with mu := none }
  | recvAttachErr {k a} : s.main = .select → s.attachers[k]? = some a → a.pc = .sendErr →
      Step s (.recvErr (.attacher k)) (s.setAttacher k { a with pc := .done })
  | lockAttach {t} : s.main = .attachLock t → s.mu = none →
      Step s .lockAttach { s with mu := some .main, main := .attachBody t }
  | store {t bpfProgram} : s.main = .attachBody t → s.bpfPrograms t.version = some bpfProgram →
      Step s .store { s with
        instances := Function.update s.instances t.GetId (some t)
        main := .attachUpdate t (bpfCluster t bpfProgram) }
  | update {t cluster m} : s.main = .attachUpdate t cluster →
      s.clusters.update t.pidKey cluster = some m →
      Step s (.update true) { s with clusters := m, main := .attachSpawn t }
  | updateErr {t cluster} : s.main = .attachUpdate t cluster →
      Step s (.update false) { s with main := .attachErr t }
  | spawn {t} : s.main = .attachSpawn t → Step s .spawn { s with
      mu := none
      main := .select
      attachers := if (s.bpfPrograms t.version).any fun p => !p.attached then
        s.attachers ++ [⟨t.pid, t.version, .open⟩] else s.attachers }
  | lockDetach {i id} : s.callbacks i = .detachLock id → s.mu = none →
      Step s (.lockDetach i) { s.setCallback i (.detachBody id) with mu := some (.callback i) }
  | deleteAbsent {i id ok} : s.callbacks i = .detachBody id → s.instances id = none →
      Step s (.delete i ok) { s.setCallback i .idle with mu := none }
  | delete {i id t m} : s.callbacks i = .detachBody id → s.instances id = some t →
      s.clusters.delete t.pidKey = some m → Step s (.delete i true) { s.setCallback i .idle with
        clusters := m
        instances := Function.update s.instances id none
        mu := none }
  | deleteErr {i id t} : s.callbacks i = .detachBody id → s.instances id = some t →
      Step s (.delete i false) (s.setCallback i .detachErr)
  | probe {k a ok pc} : s.attachers[k]? = some a → a.pc.probe ok = some pc →
      Step s (.probe k ok) (s.setAttacher k { a with pc := pc })
  | mark {k a} : s.attachers[k]? = some a → a.pc = .mark →
      Step s (.mark k) { s.setAttacher k { a with pc := .wait } with
        bpfPrograms := Function.update s.bpfPrograms a.version
          ((s.bpfPrograms a.version).map fun p => { p with attached := true }) }
  | unattach {k a} : s.attachers[k]? = some a → a.pc = .wait → s.ctxDone ∨ s.internalDone →
      Step s (.unattach k) (s.setAttacher k { a with pc := .done })
  | cancel : Step s .cancel { s with ctxDone := true }
  | leave : s.main = .select → s.ctxDone → Step s .leave { s with main := .deferCancel }
  | deferCancel : s.main = .deferCancel →
      Step s .unwind { s with internalDone := true, main := .deferWait }
  | deferWait : s.main = .deferWait → (∀ a ∈ s.attachers, a.pc = .done) →
      Step s .unwind { s with main := .deferCloseCh }
  | deferCloseCh : s.main = .deferCloseCh →
      Step s .unwind { s with chClosed := true, main := .deferCloseErr }
  | deferCloseErr : s.main = .deferCloseErr →
      Step s .unwind { s with errClosed := true, main := .exited }
  | crashDeliver {i e} : s.callbacks i = .idle → e.handler = none →
      Step s (.deliver i e) { s with crashed := true }
  | crashIterate {i} : (s.callbacks i).iterate s.bpfPrograms s.instances = some none →
      Step s (.iterate i) { s with crashed := true }
  | crashStore {t} : s.main = .attachBody t → s.bpfPrograms t.version = none →
      Step s .store { s with crashed := true }
  | crashSend {p} : s.sendsOnClosed p → Step s (.sendClosed p) { s with crashed := true }

theorem step_of_Step {s t : Runner ι} {a : Action ι} (hc : s.crashed = false) (h : Step s a t) :
    step s a = some t := by
  unfold step
  rw [hc, if_neg Bool.false_ne_true]
  cases h <;> simp_all [act, recvCh, recvErr, store, update, spawn, delete, setAttacher, unwind]

theorem recvErr_cases {s t : Runner ι} {p : Party ι} (h : s.recvErr p = some t) :
    Step s (.recvErr p) t := by
  unfold recvErr at h
  split at h
  · rename_i hsel
    split at h
    · cases h
    · split at h
      · cases h
        exact .recvLookupErr hsel ‹_›
      · cases h
        exact .recvDetachErr hsel ‹_›
      · cases h
    · split at h
      · split at h
        · cases h
          exact .recvAttachErr hsel ‹_› ‹_›
        · cases h
      · cases h
  · cases h

theorem delete_cases {s t : Runner ι} {i : ι} {ok : Bool} (h : s.delete i ok = some t) :
    Step s (.delete i ok) t := by
  unfold delete at h
  split at h
  · rename_i id hcb
    split at h
    · cases h
      exact .deleteAbsent hcb ‹_›
    · rename_i x hx
      split at h
      · rename_i hok
        obtain ⟨m, hm, rfl⟩ := Option.map_eq_some_iff.mp h
        subst hok
        exact .delete hcb hx hm
      · rename_i hok
        cases h
        obtain rfl : ok = false := by simpa using hok
        exact .deleteErr hcb hx
  · cases h

theorem unwind_cases {s t : Runner ι} (h : s.unwind = some t) : Step s .unwind t := by
  unfold unwind at h
  split at h
  · cases h
    exact .deferCancel ‹_›
  · split at h
    · cases h
      exact .deferWait ‹_› ‹_›
    · cases h
  · cases h
    exact .deferCloseCh ‹_›
  · cases h
    exact .deferCloseErr ‹_›
  · cases h

theorem Step_of_act {s t : Runner ι} {a : Action ι} (h : s.act a = some t) : Step s a t := by
  cases a with
  | deliver i e =>
    simp only [act] at h
    split at h
    · split at h
      · cases h
        exact .crashDeliver ‹_› ‹_›
      · cases h
        exact .deliver ‹_› ‹_›
    · cases h
  | iterate i =>
    simp only [act] at h
    split at h
    · cases h
    · cases h
      exact .crashIterate ‹_›
    · cases h
      exact .iterate ‹_›
  | lookup i pid =>
    simp only [act] at h
    split at h
    · cases h
      cases pid with
      | none => exact .lookupErr ‹_›
      | some pid => exact .lookup ‹_›
    · cases h
  | child i pid =>
    simp only [act] at h
    split at h
    · cases h
      cases pid with
      | none => exact .childErr ‹_›
      | some pid => exact .child ‹_›
    · cases h
  | recvCh i =>
    simp only [act, recvCh] at h
    split at h
    · cases h
      exact .recvCh ‹_› ‹_›
    · cases h
  | recvErr p => exact recvErr_cases h
  | lockAttach =>
    simp only [act] at h
    split at h
    · cases h
      exact .lockAttach ‹_› ‹_›
    · cases h
  | store =>
    simp only [act, store] at h
    split at h
    · split at h
      · cases h
        exact .crashStore ‹_› ‹_›
      · cases h
        exact .store ‹_› ‹_›
    · cases h
  | update ok =>
    simp only [act, update] at h
    split at h
    · rename_i t₀ cluster hmain
      split at h
      · rename_i hok
        obtain ⟨m, hm, rfl⟩ := Option.map_eq_some_iff.mp h
        subst hok
        exact .update hmain hm
      · rename_i hok
        cases h
        obtain rfl : ok = false := by simpa using hok
        exact .updateErr hmain
    · cases h
  | spawn =>
    simp only [act, spawn] at h
    split at h
    · cases h
      exact .spawn ‹_›
    · cases h
  | lockDetach i =>
    simp only [act] at h
    split at h
    · cases h
      exact .lockDetach ‹_› ‹_›
    · cases h
  | delete i ok => exact delete_cases h
  | probe k ok =>
    simp only [act] at h
    split at h
    · cases h
    · obtain ⟨pc, hpc, rfl⟩ := Option.map_eq_some_iff.mp h
      exact .probe ‹_› hpc
  | mark k =>
    simp only [act] at h
    split at h
    · cases h
    · split at h
      · cases h
        exact .mark ‹_› ‹_›
      · cases h
  | unattach k =>
    simp only [act] at h
    split at h
    · cases h
    · split at h
      · rename_i hw
        cases h
        exact .unattach ‹_› hw.1 hw.2
      · cases h
  | cancel =>
    cases h
    exact .cancel
  | leave =>
    simp only [act] at h
    split at h
    · rename_i hl
      cases h
      exact .leave hl.1 hl.2
    · cases h
  | unwind => exact unwind_cases h
  | sendClosed p =>
    simp only [act] at h
    split at h
    · cases h
      exact .crashSend ‹_›
    · cases h

/-- **The step function and its cases agree.** -/
theorem step_iff {s t : Runner ι} {a : Action ι} :
    step s a = some t ↔ s.crashed = false ∧ Step s a t := by
  constructor
  · intro h
    unfold step at h
    split at h
    · cases h
    · rename_i hc
      exact ⟨by simpa using hc, Step_of_act h⟩
  · rintro ⟨hc, h⟩
    exact step_of_Step hc h

/-- A step as a run. -/
theorem Step.reaches {P : Action ι → Prop} {s t : Runner ι} {a : Action ι} (h : Step s a t)
    (hc : s.crashed = false) (ha : P a) : Trace.Reaches step P s t :=
  .single ha (step_iff.mpr ⟨hc, h⟩)

end

end Runner

end EDGuard
