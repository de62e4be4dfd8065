import EDGuard.Group

/-!
# What becomes of the runnables of a group

* `Accounts` — every runnable whose `Add` returned nil is in exactly one place: waiting in the
  start queue, in the hand of the reconciler, launched, or reported as dropped.
* `late_run` — an `Add` that begins after `stopped` was set is refused.
* `settles` — the reconciler can always finish what a started group has accepted.
* `add_safe` — while no `Add` is between its check of `stopped` and its send when `StopAndWait`
  closes `r.ch`, no `Add` sends on the closed channel.  `add_crashes`: one that is there does.
-/

set_option autoImplicit false

namespace EDGuard

/-- The runnable in the hand of the reconciler. -/
def ReconcilePc.holds : ReconcilePc → Option Nat
  | .rlock i | .locked i | .report i | .launch i => some i
  | _ => none

/-- The body of `startOnce` has not taken `r.start` so far. -/
def BodyPc.before : BodyPc → Bool
  | .none | .spawn | .lock => true
  | _ => false

/-- The part of the start queue that the body has still to send. -/
def BodyPc.pending (startQueue : List Nat) : BodyPc → List Nat
  | .none | .spawn | .lock => startQueue
  | .enqueue rest => rest
  | _ => []

/-- The call of `Add` is past its check of `stopped` and has not finished its send. -/
def AddPc.inside : AddPc → Bool
  | .lock | .locked | .send => true
  | _ => false

/-- The call has not passed its check of `stopped`. -/
def AddPc.outside : AddPc → Bool
  | .idle | .rlock | .rlocked | .refused => true
  | _ => false

/-- `StopAndWait` is past the point where it sets `stopped`. -/
def CallPc.stopping : CallPc → Bool
  | .stopCancel | .stopWait | .stopClose => true
  | _ => false

/-- `StopAndWait` is past its call of `Start`. -/
def CallPc.pastStart : CallPc → Bool
  | .stopLock | .stopSet | .stopCancel | .stopWait | .stopClose => true
  | _ => false

namespace Group

/-- What the body of `startOnce` has still to send. -/
def pending (s : Group) : List Nat := s.body.pending s.startQueue

/-- How often runnable `i` is in the hand of the reconciler or waiting to be sent to it. -/
def inTransit (s : Group) (i : Nat) : Nat :=
  (if s.reconcile.holds = some i then 1 else 0) + s.pending.count i

/-! ## Every accepted runnable is in one place -/

/-- Every runnable whose `Add` returned nil is in exactly one place, the others in none. -/
structure Accounts (s : Group) : Prop where
  started : s.started = !s.body.before
  off : s.body = .none ∨ s.body = .spawn → s.reconcile = .off
  count : ∀ i, s.launched.count i + s.reported.count i + s.inTransit i =
    if s.adds i = .returned then 1 else 0

theorem accounts_init : newRunnableGroup.Accounts :=
  ⟨rfl, fun _ => rfl, fun _ => rfl⟩

/-- Steps that move no runnable. -/
theorem Accounts.frame {s t : Group} (hs : s.Accounts) (hst : t.started = s.started)
    (hbefore : t.body.before = s.body.before)
    (hoff : t.body = .none ∨ t.body = .spawn → s.body = .none ∨ s.body = .spawn)
    (hrec : t.reconcile = s.reconcile) (hl : t.launched = s.launched)
    (hrep : t.reported = s.reported) (hp : t.pending = s.pending)
    (hadd : ∀ i, t.adds i = .returned ↔ s.adds i = .returned) : t.Accounts := by
  refine ⟨?_, fun hb => ?_, fun i => ?_⟩
  · rw [hst, hbefore]
    exact hs.started
  · rw [hrec]
    exact hs.off (hoff hb)
  · have hcount := hs.count i
    unfold inTransit at hcount ⊢
    rw [hl, hrep, hrec, hp]
    simp only [hadd]
    exact hcount

theorem setAdd_returned {s : Group} {i : Nat} {pc : AddPc} (hold : s.adds i ≠ .returned)
    (hnew : pc ≠ .returned) (j : Nat) :
    (s.setAdd i pc).adds j = .returned ↔ s.adds j = .returned := by
  show Function.update s.adds i pc j = _ ↔ _
  rcases eq_or_ne j i with rfl | hj
  · rw [Function.update_self]
    exact iff_of_false hnew hold
  · rw [Function.update_of_ne hj]

/-- A call of `Add` that goes on without returning nil. -/
theorem Accounts.setAdd {s t : Group} (hs : s.Accounts) {i : Nat} {pc : AddPc}
    (hold : s.adds i ≠ .returned) (hnew : pc ≠ .returned) (hadds : t.adds = (s.setAdd i pc).adds)
    (hst : t.started = s.started) (hbody : t.body = s.body) (hq : t.startQueue = s.startQueue)
    (hrec : t.reconcile = s.reconcile) (hl : t.launched = s.launched)
    (hrep : t.reported = s.reported) : t.Accounts := by
  refine hs.frame hst (by rw [hbody]) (by rw [hbody]; exact fun h => h) hrec hl hrep ?_ fun j => ?_
  · unfold pending
    rw [hbody, hq]
  · rw [hadds]
    exact setAdd_returned hold hnew j

/-- A call of `Add` that returns nil, its runnable now in one place. -/
theorem Accounts.returned {s t : Group} (hs : s.Accounts) {i : Nat}
    (hold : s.adds i ≠ .returned) (hadds : t.adds = (s.setAdd i .returned).adds)
    (hst : t.started = s.started) (hbody : t.body = s.body)
    (hoff : t.body = .none ∨ t.body = .spawn → t.reconcile = .off)
    (hl : t.launched = s.launched) (hrep : t.reported = s.reported)
    (htrans : ∀ j, t.inTransit j = s.inTransit j + if i = j then 1 else 0) : t.Accounts := by
  refine ⟨?_, hoff, fun j => ?_⟩
  · rw [hst, hbody]
    exact hs.started
  · have hcount := hs.count j
    rw [hl, hrep, htrans, hadds]
    show _ = if Function.update s.adds i .returned j = .returned then 1 else 0
    rcases eq_or_ne j i with rfl | hj
    · rw [if_neg hold] at hcount
      rw [Function.update_self, if_pos rfl, if_pos rfl]
      omega
    · rw [Function.update_of_ne hj, if_neg (Ne.symm hj)]
      omega

/-- A step that moves a runnable from one place to another. -/
theorem Accounts.move {s t : Group} (hs : s.Accounts) (hadds : t.adds = s.adds)
    (hst : t.started = !t.body.before)
    (hoff : t.body = .none ∨ t.body = .spawn → t.reconcile = .off)
    (hsum : ∀ i, t.launched.count i + t.reported.count i + t.inTransit i =
      s.launched.count i + s.reported.count i + s.inTransit i) : t.Accounts :=
  ⟨hst, hoff, fun i => by rw [hsum, hadds]; exact hs.count i⟩

/-- The body of `startOnce` goes on to a place after `r.start.Lock()`. -/
theorem Accounts.body_after {s t : Group} (hs : s.Accounts) (hfrom : s.body.before = false)
    (hto : t.body.before = false) (hadds : t.adds = s.adds) (hst : t.started = s.started)
    (hrec : t.reconcile = s.reconcile) (hl : t.launched = s.launched)
    (hrep : t.reported = s.reported) (hp : t.pending = s.pending) : t.Accounts := by
  refine hs.move hadds ?_ (fun hb => ?_) fun i => ?_
  · rw [hst, hto, hs.started, hfrom]
  · rcases hb with hb | hb <;>
      · rw [hb] at hto
        cases hto
  · unfold inTransit
    rw [hl, hrep, hrec, hp]

/-- The reconciler goes on with the runnable it holds. -/
theorem Accounts.reconcile {s t : Group} (hs : s.Accounts) (hne : s.reconcile ≠ .off)
    (hadds : t.adds = s.adds) (hst : t.started = s.started) (hbody : t.body = s.body)
    (hsum : ∀ i, t.launched.count i + t.reported.count i + t.inTransit i =
      s.launched.count i + s.reported.count i + s.inTransit i) : t.Accounts := by
  refine hs.move hadds ?_ (fun hb => ?_) hsum
  · rw [hst, hbody]
    exact hs.started
  · rw [hbody] at hb
    exact absurd (hs.off hb) hne

theorem accounts_body {s t : Group} (hs : s.Accounts) (h : Step s .body t) : t.Accounts := by
  cases h with
  | bodySpawn hb =>
    have hrec := hs.off (Or.inr hb)
    refine hs.move rfl ?_ (fun hb' => ?_) fun i => ?_
    · rw [hs.started, hb]
      rfl
    · rcases hb' with hb' | hb' <;> cases hb'
    · simp [inTransit, pending, BodyPc.pending, hb, hrec, ReconcilePc.holds]
  | bodyLock hb _ =>
    refine hs.move rfl rfl (fun hb' => ?_) fun i => ?_
    · rcases hb' with hb' | hb' <;> cases hb'
    · simp [inTransit, pending, BodyPc.pending, hb]
  | bodyUnlock hb =>
    refine hs.body_after (by rw [hb]; rfl) ?_ rfl rfl rfl rfl rfl ?_
    · show (if s.startQueue = [] then BodyPc.close else BodyPc.ready).before = false
      split <;> rfl
    · unfold pending
      rw [hb]
      show (if s.startQueue = [] then BodyPc.close else BodyPc.ready).pending s.startQueue = []
      split <;> rfl
  | bodyClose hb =>
    refine hs.body_after (by rw [hb]; rfl) rfl rfl rfl rfl rfl rfl ?_
    unfold pending
    rw [hb]
    rfl

theorem accounts_reconcile {s t : Group} (hs : s.Accounts) (h : Step s .reconcile t) :
    t.Accounts := by
  cases h with
  | exit hrec _ =>
    refine hs.reconcile (by rw [hrec]; simp) rfl rfl rfl fun i => ?_
    simp [inTransit, pending, hrec, ReconcilePc.holds]
  | rlock hrec _ =>
    refine hs.reconcile (by rw [hrec]; simp) rfl rfl rfl fun i => ?_
    simp [inTransit, pending, hrec, ReconcilePc.holds]
  | drop hrec _ =>
    refine hs.reconcile (by rw [hrec]; simp) rfl rfl rfl fun i => ?_
    simp [inTransit, pending, hrec, ReconcilePc.holds]
  | wgAdd hrec _ =>
    refine hs.reconcile (by rw [hrec]; simp) rfl rfl rfl fun i => ?_
    simp [inTransit, pending, hrec, ReconcilePc.holds]
  | launch hrec =>
    refine hs.reconcile (by rw [hrec]; simp) rfl rfl rfl fun i => ?_
    simp only [inTransit, pending, hrec, ReconcilePc.holds, List.count_append,
      List.count_singleton, beq_iff_eq, Option.some.injEq, reduceCtorEq, ↓reduceIte]
    omega

theorem accounts_step {s t : Group} {a : Action} (hs : s.Accounts) (h : Step s a t) :
    t.Accounts := by
  cases h with
  | addBegin hpc => exact hs.setAdd (by rw [hpc]; simp) (by simp) rfl rfl rfl rfl rfl rfl rfl
  | addRlock hpc _ => exact hs.setAdd (by rw [hpc]; simp) (by simp) rfl rfl rfl rfl rfl rfl rfl
  | addRefuse hpc _ => exact hs.setAdd (by rw [hpc]; simp) (by simp) rfl rfl rfl rfl rfl rfl rfl
  | addPass hpc _ => exact hs.setAdd (by rw [hpc]; simp) (by simp) rfl rfl rfl rfl rfl rfl rfl
  | addLock hpc _ => exact hs.setAdd (by rw [hpc]; simp) (by simp) rfl rfl rfl rfl rfl rfl rfl
  | addStarted hpc _ => exact hs.setAdd (by rw [hpc]; simp) (by simp) rfl rfl rfl rfl rfl rfl rfl
  | @addQueue i hpc hst =>
    refine hs.returned (i := i) (by rw [hpc]; simp) rfl rfl rfl hs.off rfl rfl fun j => ?_
    have hb : s.body.before = true := by
      have hstarted := hs.started
      rw [hst] at hstarted
      simpa using hstarted.symm
    have hpend : s.pending = s.startQueue := by
      unfold pending
      cases hbody : s.body <;> first | rfl | (rw [hbody] at hb; cases hb)
    have hpend' : pending { s.setAdd i .returned with
        startQueue := s.startQueue ++ [i]
        startMu := false } = s.startQueue ++ [i] := by
      show s.body.pending (s.startQueue ++ [i]) = _
      cases hbody : s.body <;> first | rfl | (rw [hbody] at hb; cases hb)
    unfold inTransit
    rw [hpend, hpend', List.count_append, List.count_singleton]
    simp only [beq_iff_eq]
    exact (Nat.add_assoc ..).symm
  | @recvAdd i hrec hpc _ =>
    refine hs.returned (i := i) (by rw [hpc]; simp) rfl rfl rfl (fun hb => ?_) rfl rfl fun j => ?_
    · rw [hs.off hb] at hrec
      cases hrec
    · show (if some i = some j then 1 else 0) + s.pending.count j = _
      unfold inTransit
      rw [hrec]
      simp only [ReconcilePc.holds, Option.some.injEq, reduceCtorEq, ↓reduceIte]
      omega
  | bodySpawn hb => exact accounts_body hs (.bodySpawn hb)
  | bodyLock hb hm => exact accounts_body hs (.bodyLock hb hm)
  | bodyUnlock hb => exact accounts_body hs (.bodyUnlock hb)
  | bodyClose hb => exact accounts_body hs (.bodyClose hb)
  | @recvReady i hb _ =>
    refine hs.body_after (by rw [hb]; rfl) ?_ rfl rfl rfl rfl rfl ?_
    · show (if s.startQueue.erase i = [] then BodyPc.close else BodyPc.ready).before = false
      split <;> rfl
    · unfold pending
      rw [hb]
      show (if s.startQueue.erase i = [] then BodyPc.close else BodyPc.ready).pending _ = []
      split <;> rfl
  | @recvQueue i rest hrec hb _ =>
    refine hs.move rfl ?_ (fun hb' => ?_) fun j => ?_
    · rw [hs.started, hb]
      rfl
    · rcases hb' with hb' | hb' <;> cases hb'
    · simp only [inTransit, pending, BodyPc.pending, hrec, hb, ReconcilePc.holds,
        List.count_cons, beq_iff_eq, Option.some.injEq, reduceCtorEq, ↓reduceIte]
      omega
  | @startOnce c hcall hb =>
    have hrec := hs.off (Or.inl hb)
    refine hs.move rfl ?_ (fun _ => hrec) fun i => ?_
    · rw [hs.started, hb]
      rfl
    · simp [inTransit, pending, BodyPc.pending, hb]
  | exit hrec hch => exact accounts_reconcile hs (.exit hrec hch)
  | rlock hrec hw => exact accounts_reconcile hs (.rlock hrec hw)
  | drop hrec hst => exact accounts_reconcile hs (.drop hrec hst)
  | wgAdd hrec hst => exact accounts_reconcile hs (.wgAdd hrec hst)
  | launch hrec => exact accounts_reconcile hs (.launch hrec)
  | recvReport hrec =>
    refine hs.reconcile (by rw [hrec]; simp) rfl rfl rfl fun i => ?_
    simp only [inTransit, pending, hrec, ReconcilePc.holds, List.count_append,
      List.count_singleton, beq_iff_eq, Option.some.injEq, reduceCtorEq, ↓reduceIte]
    omega
  | _ => exact hs.frame rfl rfl (fun h => h) rfl rfl rfl rfl fun _ => Iff.rfl

theorem accounts_run {as : List Action} {s : Group}
    (h : Trace.run step newRunnableGroup as = some s) : s.Accounts :=
  Trace.run_invariant (I := Accounts) (fun _ _ _ hs ht => accounts_step hs (step_iff.mp ht).2)
    accounts_init h

/-! ## Stopping -/

/-- What `StopAndWait` has done when it is past a point. -/
structure Stopping (s : Group) : Prop where
  stopped : ∀ c, (s.calls c).stopping = true → s.stopped = true
  body : ∀ c, (s.calls c).pastStart = true → s.body = .done
  closed : s.chClosed = true → s.stopped = true ∧ s.body = .done
  writer : s.stopWriter = true → ∃ c, s.calls c = .stopSet

theorem stopping_init : newRunnableGroup.Stopping := by
  refine ⟨fun c hc => ?_, fun c hc => ?_, fun hc => ?_, fun hc => ?_⟩ <;> cases hc

/-- Steps of other goroutines. -/
theorem Stopping.frame {s t : Group} (hs : s.Stopping) (hcalls : t.calls = s.calls)
    (hst : t.stopped = s.stopped) (hbody : s.body = .done → t.body = .done)
    (hch : t.chClosed = s.chClosed) (hw : t.stopWriter = s.stopWriter) : t.Stopping := by
  refine ⟨?_, ?_, ?_, ?_⟩
  · rw [hcalls, hst]
    exact hs.stopped
  · rw [hcalls]
    exact fun c hc => hbody (hs.body c hc)
  · rw [hch, hst]
    exact fun hc => ⟨(hs.closed hc).1, hbody (hs.closed hc).2⟩
  · rw [hw, hcalls]
    exact hs.writer

/-- A call that goes on. -/
theorem Stopping.call {s t : Group} (hs : s.Stopping) {c : Nat} {pc : CallPc}
    (hcalls : t.calls = Function.update s.calls c pc) (hbody : t.body = s.body)
    (hst : s.stopped = true → t.stopped = true) (hstop : pc.stopping = true → t.stopped = true)
    (hpast : pc.pastStart = true → s.body = .done)
    (hch : t.chClosed = true → t.stopped = true ∧ s.body = .done)
    (hw : t.stopWriter = true → ∃ c', t.calls c' = .stopSet) : t.Stopping := by
  refine ⟨?_, ?_, ?_, hw⟩
  · rw [hcalls]
    refine (Function.forall_update_iff s.calls
      (p := fun _ pc => CallPc.stopping pc = true → t.stopped = true)).mpr ⟨hstop, ?_⟩
    exact fun c' _ hc' => hst (hs.stopped c' hc')
  · rw [hcalls, hbody]
    refine (Function.forall_update_iff s.calls
      (p := fun _ pc => CallPc.pastStart pc = true → s.body = .done)).mpr ⟨hpast, ?_⟩
    exact fun c' _ hc' => hs.body c' hc'
  · rw [hbody]
    exact hch

/-- A call that neither takes nor releases `r.stop`. -/
theorem Stopping.callQuiet {s t : Group} (hs : s.Stopping) {c : Nat} {pc : CallPc}
    (hold : s.calls c ≠ .stopSet) (hcalls : t.calls = Function.update s.calls c pc)
    (hbody : t.body = s.body) (hst : t.stopped = s.stopped)
    (hstop : pc.stopping = true → s.stopped = true) (hpast : pc.pastStart = true → s.body = .done)
    (hch : t.chClosed = s.chClosed) (hw : t.stopWriter = s.stopWriter) : t.Stopping := by
  refine hs.call hcalls hbody (fun h => hst.trans h) (fun h => hst.trans (hstop h)) hpast
    (fun h => ?_) fun h => ?_
  · rw [hst]
    exact hs.closed (hch ▸ h)
  · obtain ⟨c', hc'⟩ := hs.writer (hw ▸ h)
    have hne : c' ≠ c := by
      rintro rfl
      exact hold hc'
    exact ⟨c', by rw [hcalls, Function.update_of_ne hne]; exact hc'⟩

theorem stopping_call {s t : Group} {c : Nat} (hs : s.Stopping) (h : Step s (.call c) t) :
    t.Stopping := by
  cases h with
  | startOnce _ hb =>
    exact hs.frame rfl rfl (fun hd => by rw [hb] at hd; cases hd) rfl rfl
  | startDone hpc _ =>
    exact hs.callQuiet (by rw [hpc]; simp) rfl rfl rfl (fun h => by cases h)
      (fun h => by cases h) rfl rfl
  | stopStartDone hpc hb =>
    exact hs.callQuiet (by rw [hpc]; simp) rfl rfl rfl (fun h => by cases h) (fun _ => hb) rfl rfl
  | stopOnce hpc _ =>
    exact hs.callQuiet (by rw [hpc]; simp) rfl rfl rfl (fun h => by cases h)
      (fun h => by cases h) rfl rfl
  | stopDone hpc _ =>
    exact hs.callQuiet (by rw [hpc]; simp) rfl rfl rfl (fun h => by cases h)
      (fun h => by cases h) rfl rfl
  | stopLock hpc _ _ =>
    exact hs.call rfl rfl (fun h => h) (fun h => by cases h)
      (fun _ => hs.body c (by rw [hpc]; rfl)) hs.closed fun _ => ⟨c, Function.update_self ..⟩
  | stopSet hpc =>
    refine hs.call rfl rfl (fun _ => rfl) (fun _ => rfl) (fun _ => hs.body c (by rw [hpc]; rfl))
      (fun h => ⟨rfl, (hs.closed h).2⟩) fun h => ?_
    cases h
  | stopCancel hpc =>
    exact hs.callQuiet (by rw [hpc]; simp) rfl rfl rfl
      (fun _ => hs.stopped c (by rw [hpc]; rfl)) (fun _ => hs.body c (by rw [hpc]; rfl)) rfl rfl
  | stopWait hpc _ =>
    exact hs.callQuiet (by rw [hpc]; simp) rfl rfl rfl
      (fun _ => hs.stopped c (by rw [hpc]; rfl)) (fun _ => hs.body c (by rw [hpc]; rfl)) rfl rfl
  | stopClose hpc =>
    have hst := hs.stopped c (by rw [hpc]; rfl)
    have hb := hs.body c (by rw [hpc]; rfl)
    refine hs.call rfl rfl (fun h => h) (fun h => by cases h) (fun h => by cases h)
      (fun _ => ⟨hst, hb⟩) fun h => ?_
    obtain ⟨c', hc'⟩ := hs.writer h
    have hne : c' ≠ c := by
      rintro rfl
      rw [hpc] at hc'
      cases hc'
    exact ⟨c', (Function.update_of_ne hne ..).trans hc'⟩

theorem stopping_step {s t : Group} {a : Action} (hs : s.Stopping) (h : Step s a t) :
    t.Stopping := by
  have hlive : ∀ {pc : BodyPc}, s.body = pc → pc ≠ .done → s.body = .done → t.body = .done :=
    fun hb hne hd => absurd (hb.symm.trans hd) hne
  cases a with
  | call c => exact stopping_call hs h
  | callStart c =>
    cases h with
    | callStart hpc =>
      exact hs.callQuiet (by rw [hpc]; simp) rfl rfl rfl (fun h => by cases h)
        (fun h => by cases h) rfl rfl
  | callStop c =>
    cases h with
    | callStop hpc =>
      exact hs.callQuiet (by rw [hpc]; simp) rfl rfl rfl (fun h => by cases h)
        (fun h => by cases h) rfl rfl
  | body =>
    cases h with
    | bodySpawn hb => exact hs.frame rfl rfl (hlive hb (by simp)) rfl rfl
    | bodyLock hb _ => exact hs.frame rfl rfl (hlive hb (by simp)) rfl rfl
    | bodyUnlock hb => exact hs.frame rfl rfl (hlive hb (by simp)) rfl rfl
    | bodyClose hb => exact hs.frame rfl rfl (hlive hb (by simp)) rfl rfl
  | recvReady i =>
    cases h with
    | recvReady hb _ => exact hs.frame rfl rfl (hlive hb (by simp)) rfl rfl
  | recvQueue =>
    cases h with
    | recvQueue _ hb _ => exact hs.frame rfl rfl (hlive hb (by simp)) rfl rfl
  | _ => cases h <;> exact hs.frame rfl rfl (fun hd => hd) rfl rfl

/-! ## Late calls of `Add` -/

theorem stopped_mono {s t : Group} {a : Action} (h : Step s a t) (hst : s.stopped = true) :
    t.stopped = true := by
  cases h with
  | stopSet _ => rfl
  | _ => exact hst

/-- Once `stopped` is set, a call of `Add` that has not passed its check never does. -/
theorem outside_step {s t : Group} {a : Action} {i : Nat} (h : Step s a t)
    (hst : s.stopped = true) (hout : (s.adds i).outside = true) : (t.adds i).outside = true := by
  have hset : ∀ {j : Nat} {pc pc' : AddPc}, s.adds j = pc →
      (pc.outside = true → pc'.outside = true) →
      (Function.update s.adds j pc' i).outside = true := by
    intro j pc pc' hj hpc
    rcases eq_or_ne i j with rfl | hij
    · rw [Function.update_self]
      exact hpc (hj ▸ hout)
    · rw [Function.update_of_ne hij]
      exact hout
  cases h with
  | addBegin hj => exact hset hj fun _ => rfl
  | addRlock hj _ => exact hset hj fun _ => rfl
  | addRefuse hj _ => exact hset hj fun _ => rfl
  | addPass _ hno =>
    rw [hst] at hno
    cases hno
  | addLock hj _ => exact hset hj fun h => by cases h
  | addQueue hj _ => exact hset hj fun h => by cases h
  | addStarted hj _ => exact hset hj fun h => by cases h
  | recvAdd _ hj _ => exact hset hj fun h => by cases h
  | _ => exact hout

/-- **A call of `Add` that begins after `stopped` was set is refused**, and its runnable is never
launched. -/
theorem late_run {bs cs : List Action} {s₀ s : Group} {i : Nat}
    (h₀ : Trace.run step newRunnableGroup bs = some s₀) (h : Trace.run step s₀ cs = some s)
    (hst : s₀.stopped = true) (hidle : s₀.adds i = .idle) :
    s.stopped = true ∧ (s.adds i).outside = true ∧ i ∉ s.launched := by
  have hlate : s.stopped = true ∧ (s.adds i).outside = true := by
    refine Trace.run_invariant (I := fun s => s.stopped = true ∧ (s.adds i).outside = true) ?_
      ⟨hst, by rw [hidle]; rfl⟩ h
    intro s a t hs ht
    have hstep := (step_iff.mp ht).2
    exact ⟨stopped_mono hstep hs.1, outside_step hstep hs.1 hs.2⟩
  have hrun : Trace.run step newRunnableGroup (bs ++ cs) = some s := by
    rw [Trace.run_append_of_eq h₀]
    exact h
  have hcount := (accounts_run hrun).count i
  have hne : s.adds i ≠ .returned := by
    intro hret
    rw [hret] at hlate
    cases hlate.2
  rw [if_neg hne] at hcount
  exact ⟨hlate.1, hlate.2, List.count_eq_zero.mp (by omega)⟩

/-- The steps a refusal takes: those of the call of `Add` itself, and those of a `StopAndWait` that
still holds `r.stop`. -/
def Action.Refusing (i : Nat) : Action → Prop
  | .add j => j = i
  | .call _ => True
  | _ => False

theorem refusing_add (i : Nat) : Action.Refusing i (.add i) := rfl

theorem refused_of_rlocked {s : Group} {i : Nat} (hc : s.crashed = false) (hst : s.stopped = true)
    (hpc : s.adds i = .rlocked) :
    ∃ t, Trace.Reaches step (Action.Refusing i) s t ∧ t.adds i = .refused :=
  ⟨_, .single (refusing_add i) (step_iff.mpr ⟨hc, .addRefuse hpc hst⟩), Function.update_self ..⟩

theorem refused_of_rlock {s : Group} {i : Nat} (hp : s.Stopping) (hc : s.crashed = false)
    (hst : s.stopped = true) (hpc : s.adds i = .rlock) :
    ∃ t, Trace.Reaches step (Action.Refusing i) s t ∧ t.adds i = .refused := by
  have hfree : ∀ {u : Group}, u.crashed = false → u.stopped = true → u.adds i = .rlock →
      u.stopWriter = false →
      ∃ t, Trace.Reaches step (Action.Refusing i) u t ∧ t.adds i = .refused := by
    intro u hc hst hpc hw
    have hlock := Step.addRlock hpc hw
    obtain ⟨t, ht, href⟩ := refused_of_rlocked (i := i) (s := { u.setAdd i .rlocked with
      stopReaders := u.stopReaders + 1 }) hc hst (Function.update_self ..)
    exact ⟨t, (hlock.reaches hc (refusing_add i)).trans ht, href⟩
  cases hw : s.stopWriter with
  | false => exact hfree hc hst hpc hw
  | true =>
    obtain ⟨c, hcall⟩ := hp.writer hw
    have hset := Step.stopSet hcall
    obtain ⟨t, ht, href⟩ := hfree (u := { s.setCall c .stopCancel with
      stopped := true
      stopWriter := false }) hc rfl hpc rfl
    exact ⟨t, (hset.reaches hc trivial).trans ht, href⟩

/-- **A late call of `Add` comes to its refusal.** -/
theorem refused_of_outside {s : Group} {i : Nat} (hp : s.Stopping) (hc : s.crashed = false)
    (hst : s.stopped = true) (hout : (s.adds i).outside = true) :
    ∃ t, Trace.Reaches step (Action.Refusing i) s t ∧ t.adds i = .refused := by
  cases hpc : s.adds i with
  | refused => exact ⟨s, .refl s, hpc⟩
  | rlocked => exact refused_of_rlocked hc hst hpc
  | rlock => exact refused_of_rlock hp hc hst hpc
  | idle =>
    have hbegin := Step.addBegin hpc
    obtain ⟨t, ht, href⟩ := refused_of_rlock (i := i) (stopping_step hp hbegin) hc hst
      (Function.update_self ..)
    exact ⟨t, (hbegin.reaches hc (refusing_add i)).trans ht, href⟩
  | lock | locked | send | returned =>
    rw [hpc] at hout
    cases hout

/-! ## The reconciler goes on -/

/-- A step of the reconciler, of the reader of `errChan`, of the body of `startOnce` or of a call
that is under way. -/
def Action.Serving : Action → Prop
  | .reconcile | .recvReport | .recvQueue | .body | .call _ => True
  | _ => False

/-- When the reconciler runs. -/
structure Reconciling (s : Group) : Prop where
  off : s.reconcile = .off → s.body = .none ∨ s.body = .spawn
  exited : s.reconcile = .exited → s.chClosed = true

theorem reconciling_step {s t : Group} {a : Action} (hs : s.Reconciling) (h : Step s a t) :
    t.Reconciling := by
  have hon : ∀ {pc : BodyPc}, s.body = pc → pc.before = false ∨ pc = .lock →
      s.reconcile ≠ .off := by
    intro pc hb hpc hoff
    rcases hs.off hoff with hn | hn <;> rw [hb] at hn <;> subst hn <;>
      rcases hpc with hpc | hpc <;> cases hpc
  cases h with
  | startOnce _ _ => exact ⟨fun _ => Or.inr rfl, hs.exited⟩
  | bodySpawn _ => exact ⟨fun h => (by cases h), fun h => by cases h⟩
  | bodyLock hb _ => exact ⟨fun h => absurd h (hon hb (Or.inr rfl)), hs.exited⟩
  | bodyUnlock hb => exact ⟨fun h => absurd h (hon hb (Or.inl rfl)), hs.exited⟩
  | bodyClose hb => exact ⟨fun h => absurd h (hon hb (Or.inl rfl)), hs.exited⟩
  | recvReady hb _ => exact ⟨fun h => absurd h (hon hb (Or.inl rfl)), hs.exited⟩
  | stopClose _ => exact ⟨hs.off, fun _ => rfl⟩
  | exit _ hch => exact ⟨fun h => (by cases h), fun _ => hch⟩
  | recvAdd _ _ _ | recvQueue _ _ _ | rlock _ _ | drop _ _ | wgAdd _ _ | launch _
  | recvReport _ => exact ⟨fun h => (by cases h), fun h => by cases h⟩
  | _ => exact ⟨hs.off, hs.exited⟩

/-- A group that has not crashed, with its invariants. -/
structure Sound (s : Group) : Prop where
  running : s.crashed = false
  accounts : s.Accounts
  stopping : s.Stopping
  reconciling : s.Reconciling

theorem Sound.advance {s t : Group} {a : Action} (hs : s.Sound) (h : Step s a t)
    (hc : t.crashed = s.crashed) : t.Sound :=
  ⟨hc.trans hs.running, accounts_step hs.accounts h, stopping_step hs.stopping h,
    reconciling_step hs.reconciling h⟩

/-- The reconciler has come back to its receive. -/
structure Served (s t : Group) : Prop where
  reaches : Trace.Reaches step Action.Serving s t
  sound : t.Sound
  recv : t.reconcile = .recv
  body : t.body = s.body
  adds : t.adds = s.adds

theorem Served.cons {s t u : Group} {a : Action} (hs : s.Sound) (h : Step s a t)
    (ha : a.Serving) (hbody : t.body = s.body) (hadds : t.adds = s.adds) (hu : Served t u) :
    Served s u :=
  ⟨(h.reaches hs.running ha).trans hu.reaches, hu.sound, hu.recv,
    hu.body.trans hbody, hu.adds.trans hadds⟩

theorem Served.single {s t : Group} {a : Action} (hs : s.Sound) (h : Step s a t)
    (ha : a.Serving) (hc : t.crashed = s.crashed) (hrecv : t.reconcile = .recv)
    (hbody : t.body = s.body) (hadds : t.adds = s.adds) : Served s t :=
  ⟨.single ha (step_iff.mpr ⟨hs.running, h⟩), hs.advance h hc, hrecv, hbody, hadds⟩

theorem served_launch {s : Group} (hs : s.Sound) {i : Nat} (hrec : s.reconcile = .launch i) :
    ∃ t, Served s t :=
  ⟨_, .single hs (.launch hrec) trivial rfl rfl rfl rfl⟩

theorem served_locked {s : Group} (hs : s.Sound) {i : Nat} (hrec : s.reconcile = .locked i) :
    ∃ t, Served s t := by
  cases hst : s.stopped with
  | true =>
    have hdrop := Step.drop hrec hst
    have hreport : Served { s with reconcile := .report i } _ :=
      .single (hs.advance hdrop rfl) (.recvReport rfl) trivial rfl rfl rfl rfl
    exact ⟨_, .cons hs hdrop trivial rfl rfl hreport⟩
  | false =>
    have hadd := Step.wgAdd hrec hst
    obtain ⟨t, ht⟩ := served_launch (hs.advance hadd rfl) rfl
    exact ⟨t, .cons hs hadd trivial rfl rfl ht⟩

theorem served_rlock {s : Group} (hs : s.Sound) {i : Nat} (hrec : s.reconcile = .rlock i) :
    ∃ t, Served s t := by
  have hfree : ∀ {u : Group}, u.Sound → u.reconcile = .rlock i → u.stopWriter = false →
      ∃ t, Served u t := by
    intro u hu hrec hw
    have hlock := Step.rlock hrec hw
    obtain ⟨t, ht⟩ := served_locked (hu.advance hlock rfl) rfl
    exact ⟨t, .cons hu hlock trivial rfl rfl ht⟩
  cases hw : s.stopWriter with
  | false => exact hfree hs hrec hw
  | true =>
    -- `StopAndWait` holds the lock and releases it in one step
    obtain ⟨c, hc⟩ := hs.stopping.writer hw
    have hset := Step.stopSet hc
    obtain ⟨t, ht⟩ := hfree (hs.advance hset rfl) hrec rfl
    exact ⟨t, .cons hs hset trivial rfl rfl ht⟩

/-- **What the reconciler holds, it finishes.** -/
theorem served_of_holds {s : Group} (hs : s.Sound) {i : Nat}
    (hrec : s.reconcile.holds = some i) : ∃ t, Served s t := by
  cases hpc : s.reconcile with
  | rlock j => exact served_rlock hs hpc
  | locked j => exact served_locked hs hpc
  | report j => exact ⟨_, .single hs (.recvReport hpc) trivial rfl rfl rfl rfl⟩
  | launch j => exact served_launch hs hpc
  | off | recv | exited =>
    rw [hpc] at hrec
    cases hrec

/-- The start queue is sent to the reconciler, one runnable after the other. -/
theorem served_queue (rest : List Nat) : ∀ {s : Group}, s.Sound → s.reconcile = .recv →
    s.body = .enqueue rest → ∃ t, Trace.Reaches step Action.Serving s t ∧ t.Sound ∧
      t.reconcile = .recv ∧ t.body = .enqueue [] ∧ t.adds = s.adds := by
  induction rest with
  | nil =>
    intro s hs hrec hb
    exact ⟨s, .refl s, hs, hrec, hb, rfl⟩
  | cons i rest ih =>
    intro s hs hrec hb
    have hch : s.chClosed = false := by
      cases hch : s.chClosed with
      | false => rfl
      | true =>
        have hdone := (hs.stopping.closed hch).2
        rw [hb] at hdone
        cases hdone
    have hrecv := Step.recvQueue hrec hb hch
    have hs' := hs.advance hrecv rfl
    obtain ⟨t, ht⟩ := served_of_holds (i := i) hs' rfl
    obtain ⟨u, hu, hsound, hurec, hub, hua⟩ := ih ht.sound ht.recv ht.body
    refine ⟨u, ?_, hsound, hurec, hub, hua.trans ht.adds⟩
    exact (hrecv.reaches hs.running trivial).trans
      (ht.reaches.trans hu)

/-- From a started group, the reconciler can finish everything that was accepted. -/
theorem settles {s : Group} (hs : s.Sound) (hst : s.started = true) :
    ∃ t, Trace.Reaches step Action.Serving s t ∧ t.Sound ∧ t.adds = s.adds ∧
      ∀ i, t.inTransit i = 0 := by
  have hbefore : s.body.before = false := by
    have hstarted := hs.accounts.started
    rw [hst] at hstarted
    simpa using hstarted.symm
  have hrecv : ∃ t, Trace.Reaches step Action.Serving s t ∧ t.Sound ∧ t.adds = s.adds ∧
      t.body = s.body ∧ (t.reconcile = .recv ∨ t.reconcile = .exited) := by
    cases hrec : s.reconcile with
    | off =>
      rcases hs.reconciling.off hrec with hb | hb <;>
        · rw [hb] at hbefore
          cases hbefore
    | recv => exact ⟨s, .refl s, hs, rfl, rfl, Or.inl hrec⟩
    | exited => exact ⟨s, .refl s, hs, rfl, rfl, Or.inr hrec⟩
    | rlock i | locked i | report i | launch i =>
      obtain ⟨t, ht⟩ := served_of_holds (i := i) hs (by rw [hrec]; rfl)
      exact ⟨t, ht.reaches, ht.sound, ht.adds, ht.body, Or.inl ht.recv⟩
  have hzero : ∀ {t : Group}, t.reconcile.holds = none → t.pending = [] →
      ∀ i, t.inTransit i = 0 := by
    intro t hh hp i
    simp [inTransit, hh, hp]
  obtain ⟨t, hreach, hsound, hadds, hbody, hrec⟩ := hrecv
  cases hb : s.body with
  | enqueue rest =>
    have htb : t.body = .enqueue rest := hbody.trans hb
    rcases hrec with hrec | hrec
    · obtain ⟨u, hu, husound, hurec, hub, hua⟩ := served_queue rest hsound hrec htb
      refine ⟨u, hreach.trans hu, husound, hua.trans hadds, hzero (by rw [hurec]; rfl) ?_⟩
      unfold pending
      rw [hub]
      rfl
    · have hdone := (hsound.stopping.closed (hsound.reconciling.exited hrec)).2
      rw [htb] at hdone
      cases hdone
  | none | spawn | lock =>
    rw [hb] at hbefore
    cases hbefore
  | ready | close | done =>
    refine ⟨t, hreach, hsound, hadds, hzero ?_ ?_⟩
    · rcases hrec with hrec | hrec <;> rw [hrec] <;> rfl
    · unfold pending
      rw [hbody, hb]
      rfl

/-! ## The closed channel -/

/-- When `StopAndWait` closes `r.ch`, no call of `Add` is between its check of `stopped` and the
end of its send. -/
def NoAddInside (s : Group) : Action → Prop
  | .call c => s.calls c = .stopClose → ∀ i, (s.adds i).inside = false
  | _ => True

/-- After the close nobody is on the way to a send. -/
def NoLateSend (s : Group) : Prop := s.chClosed = true → ∀ i, (s.adds i).inside = false

theorem noLateSend_step {s t : Group} {a : Action} (hp : s.Stopping) (hs : s.NoLateSend)
    (hg : s.NoAddInside a) (h : Step s a t) : t.NoLateSend := by
  intro hch i
  have hset : ∀ {j : Nat} {pc : AddPc}, s.chClosed = true → pc.inside = false →
      (Function.update s.adds j pc i).inside = false := by
    intro j pc hc hpc
    rcases eq_or_ne i j with rfl | hij
    · rw [Function.update_self]
      exact hpc
    · rw [Function.update_of_ne hij]
      exact hs hc i
  cases h with
  | addBegin _ | addRlock _ _ | addRefuse _ _ | addQueue _ _ => exact hset hch rfl
  | addPass _ hno =>
    rw [(hp.closed hch).1] at hno
    cases hno
  | @addLock j hj _ | @addStarted j hj _ =>
    have hin := hs hch j
    rw [hj] at hin
    cases hin
  | stopClose hpc => exact hg hpc i
  | recvAdd _ _ hno =>
    have hno' : s.chClosed = true := hch
    rw [hno] at hno'
    cases hno'
  | _ => exact hs hch i

/-- **Add.** In every run in which `StopAndWait` never closes `r.ch` while an `Add` is between its
check and the end of its send: no `Add` is at its send on the closed channel; in a started group
every runnable whose `Add` returned nil is launched once, or reported once, or in the hand of the
reconciler, which can finish it; and an `Add` that begins after `stopped` was set never passes its
check, can always run to its refusal, and its runnable is never launched. -/
theorem add_safe (as : List Action) (s : Group)
    (h : Trace.run step newRunnableGroup as = some s)
    (hg : Trace.Meets step NoAddInside newRunnableGroup as) :
    (∀ i, s.adds i = .send → s.chClosed = false) ∧
    (∀ i, s.adds i = .returned → s.started = true →
      s.launched.count i + s.reported.count i + s.inTransit i = 1 ∧
        (s.crashed = false → ∃ t, Trace.Reaches step Action.Serving s t ∧
          t.launched.count i + t.reported.count i = 1)) ∧
    ∀ bs cs s₀ i, as = bs ++ cs → Trace.run step newRunnableGroup bs = some s₀ →
      s₀.stopped = true → s₀.adds i = .idle →
        (s.adds i).outside = true ∧ i ∉ s.launched ∧
          (s.crashed = false → ∃ t, Trace.Reaches step (Action.Refusing i) s t ∧
            t.adds i = .refused) := by
  have hinv : s.Stopping ∧ s.Reconciling ∧ s.NoLateSend := by
    refine Trace.run_invariant_of_meets
      (I := fun s => s.Stopping ∧ s.Reconciling ∧ s.NoLateSend) ?_
      ⟨stopping_init, ⟨fun _ => Or.inl rfl, fun h => by cases h⟩, fun h => by cases h⟩ hg h
    intro s a t hs hga ht
    have hstep := (step_iff.mp ht).2
    exact ⟨stopping_step hs.1 hstep, reconciling_step hs.2.1 hstep,
      noLateSend_step hs.1 hs.2.2 hga hstep⟩
  have hacc := accounts_run h
  refine ⟨fun i hi => ?_, fun i hi hst => ⟨?_, fun hc => ?_⟩, ?_⟩
  · cases hch : s.chClosed with
    | false => rfl
    | true =>
      have hin := hinv.2.2 hch i
      rw [hi] at hin
      cases hin
  · rw [hacc.count i, if_pos hi]
  · obtain ⟨t, hreach, hsound, hadds, hzero⟩ := settles ⟨hc, hacc, hinv.1, hinv.2.1⟩ hst
    have hcount := hsound.accounts.count i
    rw [hadds, if_pos hi, hzero i] at hcount
    exact ⟨t, hreach, hcount⟩
  · rintro bs cs s₀ i rfl h₀ hstop hidle
    rw [Trace.run_append_of_eq h₀] at h
    obtain ⟨hst, hout, hno⟩ := late_run h₀ h hstop hidle
    exact ⟨hout, hno, fun hc => refused_of_outside hinv.1 hc hst hout⟩

/-- The channel is not closed by this step. -/
def NotClosing (s : Group) : Action → Prop
  | .call c => s.calls c ≠ .stopClose
  | _ => True

instance (s : Group) : ∀ a, Decidable (s.NotClosing a)
  | .call c => inferInstanceAs (Decidable (s.calls c ≠ .stopClose))
  | .add _ | .callStart _ | .callStop _ | .expire .. | .body | .ctxDone | .recvReady _ | .recvAdd _
  | .recvQueue | .reconcile | .recvReport | .check .. | .signalClosed _ | .runReturn ..
  | .recvRunErr _ | .wgDone _ => isTrue trivial

theorem noAddInside_of_notClosing (s : Group) (a : Action) (h : s.NotClosing a) :
    s.NoAddInside a := by
  cases a with
  | call c => exact fun hpc => absurd hpc h
  | _ => trivial

/-- A group is started with an empty queue. -/
def startEmpty : List Action := [.callStart 0, .call 0, .body, .body, .body, .body, .call 0]

/-- `Add` on a started group, up to its send. -/
def addToSend (i : Nat) : List Action := [.add i, .add i, .add i, .add i, .add i]

/-- A runnable is added to a started group and launched. -/
def addAndLaunch : List Action :=
  startEmpty ++ addToSend 0 ++ [.recvAdd 0, .reconcile, .reconcile, .reconcile]

theorem add_safe_addAndLaunch : ∃ s, Trace.run step newRunnableGroup addAndLaunch = some s ∧
    s.launched = [0] ∧ s.launched.count 0 + s.reported.count 0 + s.inTransit 0 = 1 := by
  have hobs : (Trace.run step newRunnableGroup addAndLaunch).map
      (fun s => (s.launched, s.adds 0, s.started)) = some ([0], AddPc.returned, true) := by decide
  obtain ⟨s, hs, heq⟩ := Option.map_eq_some_iff.mp hobs
  simp only [Prod.mk.injEq] at heq
  have hg : Trace.Meets step NotClosing newRunnableGroup addAndLaunch := by decide
  have hsafe := add_safe addAndLaunch s hs (hg.mono noAddInside_of_notClosing)
  exact ⟨s, hs, heq.1, (hsafe.2.1 0 heq.2.1 heq.2.2).1⟩

/-- An `Add` has found the group neither stopped nor unstarted when `StopAndWait` runs. -/
def stopDuringAdd : List Action :=
  startEmpty ++ addToSend 0 ++ [.callStop 1, .call 1, .call 1, .call 1, .call 1, .call 1, .call 1,
    .call 1]

/-- **The `Add` is left at its send on the closed channel.** -/
theorem add_crashes : ¬ ∀ (as : List Action) (s : Group),
    Trace.run step newRunnableGroup as = some s → ∀ i, s.adds i = .send → s.chClosed = false := by
  intro hall
  have hobs : (Trace.run step newRunnableGroup stopDuringAdd).map
      (fun s => (s.adds 0, s.chClosed)) = some (AddPc.send, true) := by decide
  obtain ⟨s, hs, heq⟩ := Option.map_eq_some_iff.mp hobs
  simp only [Prod.mk.injEq] at heq
  have hopen := hall stopDuringAdd s hs 0 heq.1
  rw [heq.2] at hopen
  cases hopen

end Group

end EDGuard
