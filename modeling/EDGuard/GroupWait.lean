import EDGuard.GroupStart

/-!
# The wait loop of `Start`

`case <-ctx.Done()` records the error of the context and goes round the loop again.

* `wait_ends_iff` — where the checks of the runnables in `N` never succeed, the loop keeps a way to
  its end if and only if every entry of the start queue can signal.
* `noSignal_ends_iff` — without a readiness signal it ends only if it was not entered.
* `returns_run` — the error that `Start` returns is `DeadlineExceeded` of its own context, or none.
-/

set_option autoImplicit false

namespace EDGuard

namespace Group

/-- The readiness of runnable `i` was found, or its check may still find it: it is not in `N` and
has not failed. -/
def CanSignal (s : Group) (N : Nat → Prop) (i : Nat) : Prop :=
  s.checks i = .signalling ∨ ¬ N i ∧ s.checks i ≠ .done

/-- The checks of the runnables in `N` never succeed, those of the others do. -/
def Action.Honest (N : Nat → Prop) : Action → Prop
  | .check i ok => ok = true ↔ ¬ N i
  | _ => True

/-- No readiness is received. -/
def Action.NoSignal : Action → Prop
  | .recvReady _ => False
  | _ => True

/-- The steps that lead to the readiness of a runnable outside `N`. -/
def Action.Waking (N : Nat → Prop) : Action → Prop
  | .reconcile | .recvReady _ | .body => True
  | .check i ok => ok = true ∧ ¬ N i
  | _ => False

theorem Action.Waking.honest {N : Nat → Prop} {a : Action} (h : a.Waking N) : a.Honest N := by
  cases a with
  | check i ok => exact iff_of_true h.1 h.2
  | _ => trivial

/-! ## A blocked start -/

/-- Entry `i` keeps the wait loop going: no check that may still succeed brings its readiness. -/
structure Blocking (s : Group) (N : Nat → Prop) (i : Nat) : Prop where
  phase : s.Phase
  body : s.body = .ready
  queued : i ∈ s.startQueue
  cannot : ¬ s.CanSignal N i

theorem Blocking.check_ne {s : Group} {N : Nat → Prop} {i : Nat} (hs : s.Blocking N i) :
    s.checks i ≠ .signalling := fun h => hs.cannot (Or.inl h)

/-- A step that leaves the check of `i` alone. -/
theorem Blocking.frame {s t : Group} {N : Nat → Prop} {i : Nat} (hs : s.Blocking N i)
    (hp : t.Phase) (hbody : t.body = s.body) (hq : i ∈ s.startQueue → i ∈ t.startQueue)
    (hch : t.checks i = s.checks i) : t.Blocking N i := by
  refine ⟨hp, hbody.trans hs.body, hq hs.queued, ?_⟩
  unfold CanSignal
  rw [hch]
  exact hs.cannot

theorem blocking_step {s t : Group} {N : Nat → Prop} {i : Nat} {a : Action}
    (hs : s.Blocking N i) (ha : a.Honest N) (h : Step s a t) : t.Blocking N i := by
  have hp := phase_step hs.phase h
  have hno : ∀ {pc : BodyPc}, s.body = pc → pc ≠ .ready → False :=
    fun hb hne => hne (hb.symm.trans hs.body)
  cases h with
  | bodySpawn hb => exact (hno hb (by simp)).elim
  | bodyLock hb _ => exact (hno hb (by simp)).elim
  | bodyUnlock hb => exact (hno hb (by simp)).elim
  | bodyClose hb => exact (hno hb (by simp)).elim
  | startOnce _ hb => exact (hno hb (by simp)).elim
  | recvQueue _ hb _ => exact (hno hb (by simp)).elim
  | addQueue _ _ => exact hs.frame hp rfl (fun hi => List.mem_append_left _ hi) rfl
  | @recvReady j hb hpc =>
    have hij : i ≠ j := by
      rintro rfl
      exact hs.check_ne hpc
    have hmem : i ∈ s.startQueue.erase j := (List.mem_erase_of_ne hij).mpr hs.queued
    have hne : s.startQueue.erase j ≠ [] := List.ne_nil_of_mem hmem
    refine hs.frame hp ?_ (fun _ => hmem) (Function.update_of_ne hij ..)
    rw [hb]
    exact if_neg hne
  | @check j ok hpc =>
    rcases eq_or_ne i j with rfl | hij
    · refine ⟨hp, hs.body, hs.queued, ?_⟩
      have hN : N i := by
        by_contra hN
        exact hs.cannot (Or.inr ⟨hN, by rw [hpc]; simp⟩)
      have hok : ok = false := by
        cases ok with
        | false => rfl
        | true => exact absurd hN (ha.mp rfl)
      rintro (hsig | ⟨hnot, _⟩)
      · have hsig' : Function.update s.checks i _ i = .signalling := hsig
        rw [hok, Function.update_self] at hsig'
        cases hsig'
      · exact hnot hN
    · exact hs.frame hp rfl id (Function.update_of_ne hij ..)
  | @launch j hrec =>
    rcases eq_or_ne i j with rfl | hij
    · -- the check of `i` begins, so it has not failed and `i` is in `N`
      refine ⟨hp, hs.body, hs.queued, ?_⟩
      have hnot := (hs.phase.accounts.not_launched (i := i) (by rw [hrec]; rfl)).1
      have hidle : s.checks i = .idle := by
        by_contra hne
        exact hnot ((hs.phase.launches.checks i).mpr hne)
      rintro (hsig | ⟨hN, _⟩)
      · have hsig' : Function.update s.checks i .checking i = .signalling := hsig
        rw [Function.update_self] at hsig'
        cases hsig'
      · exact hs.cannot (Or.inr ⟨hN, by rw [hidle]; simp⟩)
    · exact hs.frame hp rfl id (Function.update_of_ne hij ..)
  | _ => exact hs.frame hp rfl id rfl

/-- Without a readiness signal the loop does not come to its end. -/
theorem noSignal_step {s t : Group} {a : Action} (hb : s.body = .ready) (ha : a.NoSignal)
    (h : Step s a t) : t.body = .ready := by
  cases h with
  | bodySpawn hb' | bodyLock hb' _ | bodyUnlock hb' | bodyClose hb' | startOnce _ hb'
  | recvQueue _ hb' _ =>
    rw [hb] at hb'
    cases hb'
  | recvReady _ _ => exact ha.elim
  | _ => exact hb

/-! ## A start that comes to its end -/

/-- A group in its wait loop, nobody of which has crashed. -/
structure Waiting (s : Group) : Prop where
  phase : s.Phase
  running : s.crashed = false
  body : s.body = .ready

/-- Runnable `i` was made ready, the rest of the wait loop is as before. -/
structure Woken (N : Nat → Prop) (s : Group) (i : Nat) (t : Group) : Prop where
  reaches : Trace.Reaches step (Action.Waking N) s t
  waiting : t.Waiting
  signalling : t.checks i = .signalling
  queue : t.startQueue = s.startQueue
  checks : ∀ j, j ≠ i → t.checks j = s.checks j
  calls : t.calls = s.calls

theorem Waiting.advance {s t : Group} {a : Action} (hs : s.Waiting) (h : Step s a t)
    (hc : t.crashed = s.crashed) (hb : t.body = s.body) : t.Waiting :=
  ⟨phase_step hs.phase h, hc.trans hs.running, hb.trans hs.body⟩

theorem Woken.cons {N : Nat → Prop} {s u t : Group} {i : Nat} {a : Action} (hs : s.Waiting)
    (h : Step s a u) (ha : a.Waking N) (hq : u.startQueue = s.startQueue)
    (hch : ∀ j, j ≠ i → u.checks j = s.checks j) (hcalls : u.calls = s.calls)
    (hu : Woken N u i t) : Woken N s i t :=
  ⟨(h.reaches hs.running ha).trans hu.reaches, hu.waiting,
    hu.signalling, hu.queue.trans hq, fun j hj => (hu.checks j hj).trans (hch j hj),
    hu.calls.trans hcalls⟩

/-- The check of an entry succeeds. -/
theorem woken_of_checking {N : Nat → Prop} {s : Group} {i : Nat} (hs : s.Waiting) (hN : ¬ N i)
    (hsig : s.signalReady i = true) (hpc : s.checks i = .checking) : ∃ t, Woken N s i t := by
  have hcheck : Step s (.check i true) _ := .check hpc
  refine ⟨_, hcheck.reaches hs.running ⟨rfl, hN⟩, hs.advance hcheck rfl rfl, ?_, rfl,
    fun j hj => Function.update_of_ne hj .., rfl⟩
  show Function.update s.checks i _ i = _
  rw [Function.update_self, hsig]
  rfl

theorem Waiting.not_stopped {s : Group} (hs : s.Waiting) : s.stopped = false := by
  cases hst : s.stopped with
  | false => rfl
  | true =>
    have hdone := hs.phase.starting.stopped hst
    rw [hs.body] at hdone
    cases hdone

theorem Waiting.not_writer {s : Group} (hs : s.Waiting) : s.stopWriter = false := by
  cases hw : s.stopWriter with
  | false => rfl
  | true =>
    obtain ⟨c, hc⟩ := hs.phase.stopping.writer hw
    have hdone := hs.phase.stopping.body c (by rw [hc]; rfl)
    rw [hs.body] at hdone
    cases hdone

/-- The reconciler launches the entry it holds, and its check succeeds. -/
theorem woken_of_launch {N : Nat → Prop} {s : Group} {i : Nat} (hs : s.Waiting) (hN : ¬ N i)
    (hsig : s.signalReady i = true) (hrec : s.reconcile = .launch i) : ∃ t, Woken N s i t := by
  have hlaunch := Step.launch hrec
  obtain ⟨t, ht⟩ := woken_of_checking (N := N) (i := i) (hs.advance hlaunch rfl rfl) hN hsig
    (Function.update_self ..)
  exact ⟨t, .cons hs hlaunch trivial rfl (fun j hj => Function.update_of_ne hj ..) rfl ht⟩

theorem woken_of_locked {N : Nat → Prop} {s : Group} {i : Nat} (hs : s.Waiting) (hN : ¬ N i)
    (hsig : s.signalReady i = true) (hrec : s.reconcile = .locked i) : ∃ t, Woken N s i t := by
  have hadd := Step.wgAdd hrec hs.not_stopped
  obtain ⟨t, ht⟩ := woken_of_launch (N := N) (i := i) (hs.advance hadd rfl rfl) hN hsig rfl
  exact ⟨t, .cons hs hadd trivial rfl (fun _ _ => rfl) rfl ht⟩

theorem woken_of_rlock {N : Nat → Prop} {s : Group} {i : Nat} (hs : s.Waiting) (hN : ¬ N i)
    (hsig : s.signalReady i = true) (hrec : s.reconcile = .rlock i) : ∃ t, Woken N s i t := by
  have hlock := Step.rlock hrec hs.not_writer
  obtain ⟨t, ht⟩ := woken_of_locked (N := N) (i := i) (hs.advance hlock rfl rfl) hN hsig rfl
  exact ⟨t, .cons hs hlock trivial rfl (fun _ _ => rfl) rfl ht⟩

/-- In the wait loop every entry was sent to the reconciler. -/
theorem Phase.sent {s : Group} (hs : s.Phase) (hb : s.body = .ready) {i : Nat}
    (hi : i ∈ s.startQueue) : s.signalReady i = true := by
  refine (hs.starting.queued i hi).resolve_left ?_
  unfold Group.pending
  rw [hb]
  exact List.not_mem_nil

/-- An entry whose goroutine does not exist is in the hand of the reconciler. -/
theorem Waiting.held {s : Group} (hs : s.Waiting) {i : Nat} (hi : i ∈ s.startQueue)
    (hidle : s.checks i = .idle) : s.reconcile.holds = some i := by
  have hcount := hs.phase.accounts.count i
  have hl : s.launched.count i = 0 :=
    List.count_eq_zero.mpr fun hmem => (hs.phase.launches.checks i).mp hmem hidle
  have hr : s.reported.count i = 0 :=
    List.count_eq_zero.mpr (hs.phase.starting.kept i (hs.phase.sent hs.body hi)).1
  have hp : s.pending = [] := by
    unfold Group.pending
    rw [hs.body]
    rfl
  unfold inTransit at hcount
  rw [if_pos (hs.phase.added i hi), hp, hl, hr] at hcount
  by_contra hno
  rw [if_neg hno] at hcount
  simp at hcount

/-- **Every entry that can signal can be made ready.** -/
theorem exists_woken {N : Nat → Prop} {s : Group} {i : Nat} (hs : s.Waiting)
    (hi : i ∈ s.startQueue) (hcan : s.CanSignal N i) : ∃ t, Woken N s i t := by
  have hsig := hs.phase.sent hs.body hi
  rcases hcan with hpc | ⟨hN, hdone⟩
  · exact ⟨s, .refl s, hs, hpc, rfl, fun _ _ => rfl, rfl⟩
  · cases hpc : s.checks i with
    | idle =>
      have hheld := hs.held hi hpc
      cases hrec : s.reconcile with
      | rlock j =>
        rw [hrec] at hheld
        cases hheld
        exact woken_of_rlock hs hN hsig hrec
      | locked j =>
        rw [hrec] at hheld
        cases hheld
        exact woken_of_locked hs hN hsig hrec
      | launch j =>
        rw [hrec] at hheld
        cases hheld
        exact woken_of_launch hs hN hsig hrec
      | report j =>
        rw [hrec] at hheld
        cases hheld
        exact absurd hrec (hs.phase.starting.kept i hsig).2
      | off | recv | exited =>
        rw [hrec] at hheld
        cases hheld
    | checking => exact woken_of_checking hs hN hsig hpc
    | signalling => exact ⟨s, .refl s, hs, hpc, rfl, fun _ _ => rfl, rfl⟩
    | done => exact absurd hpc hdone

/-- The wait loop has come to its end, no call has moved. -/
structure Over (N : Nat → Prop) (s t : Group) : Prop where
  reaches : Trace.Reaches step (Action.Waking N) s t
  phase : t.Phase
  running : t.crashed = false
  body : t.body = .close
  calls : t.calls = s.calls

/-- **A loop whose entries can all signal can come to its end.** -/
theorem exists_over {N : Nat → Prop} (n : Nat) : ∀ {s : Group}, s.Waiting →
    s.startQueue.length = n → s.startQueue ≠ [] → (∀ i ∈ s.startQueue, s.CanSignal N i) →
    ∃ t, Over N s t := by
  induction n with
  | zero =>
    intro s _ hlen hne _
    exact absurd (List.eq_nil_of_length_eq_zero hlen) hne
  | succ n ih =>
    intro s hs hlen hne hcan
    obtain ⟨i, rest, hq⟩ := List.exists_cons_of_ne_nil hne
    have hi : i ∈ s.startQueue := by
      rw [hq]
      exact List.mem_cons_self
    obtain ⟨u, hu⟩ := exists_woken hs hi (hcan i hi)
    have hrecv := Step.recvReady hu.waiting.body hu.signalling
    have hphase := phase_step hu.waiting.phase hrecv
    have herase : u.startQueue.erase i = rest := by
      rw [hu.queue, hq, List.erase_cons_head]
    rw [herase] at hrecv hphase
    have hreach :=
      hu.reaches.trans (hrecv.reaches (P := Action.Waking N) hu.waiting.running trivial)
    by_cases hrest : rest = []
    · rw [if_pos hrest] at hrecv hphase hreach
      exact ⟨_, hreach, hphase, hu.waiting.running, rfl, hu.calls⟩
    · rw [if_neg hrest] at hrecv hphase hreach
      have hnodup := hs.phase.starting.nodup
      rw [hq] at hnodup
      have hlen' : rest.length = n := by
        rw [hq, List.length_cons] at hlen
        omega
      obtain ⟨t, ht⟩ := ih ⟨hphase, hu.waiting.running, rfl⟩ hlen' hrest fun j hj => by
        have hji : j ≠ i := by
          rintro rfl
          exact (List.nodup_cons.mp hnodup).1 hj
        have hjq : j ∈ s.startQueue := by
          rw [hq]
          exact List.mem_cons_of_mem i hj
        have hcj := hcan j hjq
        unfold CanSignal at hcj ⊢
        show Function.update u.checks i .done j = .signalling ∨
          ¬ N j ∧ Function.update u.checks i .done j ≠ .done
        rw [Function.update_of_ne hji, hu.checks j hji]
        exact hcj
      exact ⟨t, hreach.trans ht.reaches, ht.phase, ht.running, ht.body, ht.calls.trans hu.calls⟩

/-- When a group crashes, and what its wait loop waits for. -/
structure Looping (s : Group) : Prop where
  crashed : s.crashed = true → s.body = .done
  queue : s.body = .ready → s.startQueue ≠ []

theorem looping_step {s t : Group} {a : Action} (hp : s.Phase) (hs : s.Looping)
    (h : Step s a t) : t.Looping := by
  cases h with
  | addCrash _ hch => exact ⟨fun _ => (hp.stopping.closed hch).2, hs.queue⟩
  | signalCrash _ hcl => exact ⟨fun _ => hp.starting.closed hcl, hs.queue⟩
  | addQueue _ _ => exact ⟨hs.crashed, fun _ => List.append_ne_nil_of_right_ne_nil _ (by simp)⟩
  | bodyUnlock hb =>
    refine ⟨fun hc => ?_, fun hr => ?_⟩
    · have hd := hs.crashed hc
      rw [hb] at hd
      cases hd
    · intro hq
      have hr' : (if s.startQueue = [] then BodyPc.close else BodyPc.ready) = .ready := hr
      rw [if_pos hq] at hr'
      cases hr'
  | @recvReady i hb _ =>
    refine ⟨fun hc => ?_, fun hr => ?_⟩
    · have hd := hs.crashed hc
      rw [hb] at hd
      cases hd
    · intro hq
      have hr' : (if s.startQueue.erase i = [] then BodyPc.close else BodyPc.ready) = .ready := hr
      rw [if_pos hq] at hr'
      cases hr'
  | bodySpawn hb | bodyLock hb _ | startOnce _ hb | recvQueue _ hb _ =>
    refine ⟨fun hc => ?_, fun hr => by cases hr⟩
    have hd := hs.crashed hc
    rw [hb] at hd
    cases hd
  | bodyClose _ => exact ⟨fun _ => rfl, fun hr => by cases hr⟩
  | _ => exact ⟨hs.crashed, hs.queue⟩

theorem looping_run {as : List Action} {s : Group}
    (h : Trace.run step newRunnableGroup as = some s) : s.Phase ∧ s.Looping := by
  refine Trace.run_invariant (I := fun s => s.Phase ∧ s.Looping) ?_
    ⟨phase_run (Trace.run_nil newRunnableGroup), fun hc => (by cases hc), fun hb => by cases hb⟩ h
  exact fun u a v hu hv => ⟨phase_step hu.1 (step_iff.mp hv).2,
    looping_step hu.1 hu.2 (step_iff.mp hv).2⟩

/-- The start is in its wait loop, where every entry can signal, or it is over. -/
structure Going (N : Nat → Prop) (s : Group) : Prop where
  phase : s.Phase
  looping : s.Looping
  body : s.body = .ready ∨ s.body.drained = true
  queue : s.body = .ready → ∀ i ∈ s.startQueue, s.CanSignal N i

theorem CanSignal.congr {s t : Group} {N : Nat → Prop} {i : Nat} (h : s.CanSignal N i)
    (hch : t.checks i = s.checks i) : t.CanSignal N i := by
  unfold CanSignal at h ⊢
  rw [hch]
  exact h

theorem going_recvReady {s t : Group} {N : Nat → Prop} {i : Nat} (hs : Going N s)
    (h : Step s (.recvReady i) t) : Going N t := by
  have hp := phase_step hs.phase h
  have hl := looping_step hs.phase hs.looping h
  cases h with
  | recvReady hb hpc =>
    refine ⟨hp, hl, ?_, fun _ j hj => ?_⟩
    · show (if s.startQueue.erase i = [] then BodyPc.close else .ready) = .ready ∨ _
      split
      · exact Or.inr rfl
      · exact Or.inl rfl
    · obtain ⟨hji, hmem⟩ := hs.phase.starting.nodup.mem_erase_iff.mp hj
      exact (hs.queue hb j hmem).congr (Function.update_of_ne hji ..)

/-- The check of an entry ends, or begins. -/
theorem Going.setCheck {s t : Group} {N : Nat → Prop} {i : Nat} (hs : Going N s) (hp : t.Phase)
    (hl : t.Looping) (hbody : t.body = s.body) (hq : t.startQueue = s.startQueue)
    (hch : ∀ j, j ≠ i → t.checks j = s.checks j)
    (hi : s.body = .ready → i ∈ s.startQueue → t.CanSignal N i) : Going N t := by
  refine ⟨hp, hl, by rw [hbody]; exact hs.body, fun hb j hj => ?_⟩
  rw [hbody] at hb
  rw [hq] at hj
  rcases eq_or_ne j i with rfl | hne
  · exact hi hb hj
  · exact (hs.queue hb j hj).congr (hch j hne)

theorem going_step {s t : Group} {N : Nat → Prop} {a : Action} (hs : Going N s)
    (ha : a.Honest N) (h : Step s a t) : Going N t := by
  have hp := phase_step hs.phase h
  have hl := looping_step hs.phase hs.looping h
  have hno : ∀ {pc : BodyPc}, s.body = pc → pc ≠ .ready → pc.drained = false → False := by
    intro pc hb hne hover
    rcases hs.body with hr | ho
    · exact hne (hb.symm.trans hr)
    · rw [hb, hover] at ho
      cases ho
  cases h with
  | bodySpawn hb | bodyLock hb _ | bodyUnlock hb | startOnce _ hb | recvQueue _ hb _ =>
    exact (hno hb (by simp) rfl).elim
  | bodyClose hb => exact ⟨hp, hl, Or.inr rfl, fun hr => by cases hr⟩
  | addQueue _ hst =>
    have hbefore := hs.phase.accounts.started
    rw [hst] at hbefore
    cases hb : s.body with
    | none | spawn | lock => exact (hno hb (by simp) rfl).elim
    | enqueue rest | ready | close | done =>
      rw [hb] at hbefore
      cases hbefore
  | recvReady hb hpc => exact going_recvReady hs (.recvReady hb hpc)
  | @check i ok hpc =>
    refine hs.setCheck (i := i) hp hl rfl rfl (fun j hj => Function.update_of_ne hj ..)
      fun hb hi => Or.inl ?_
    have hN : ¬ N i := by
      rcases hs.queue hb i hi with hsig | hcan
      · rw [hpc] at hsig
        cases hsig
      · exact hcan.1
    have hok : ok = true := ha.mpr hN
    show Function.update s.checks i _ i = .signalling
    rw [Function.update_self, hok, hs.phase.sent hb hi]
    rfl
  | @launch i hrec =>
    refine hs.setCheck (i := i) hp hl rfl rfl (fun j hj => Function.update_of_ne hj ..)
      fun hb hi => Or.inr ⟨?_, ?_⟩
    · rcases hs.queue hb i hi with hsig | hcan
      · have hidle : s.checks i = .idle := by
          by_contra hne
          exact (hs.phase.accounts.not_launched (by rw [hrec]; rfl)).1
            ((hs.phase.launches.checks i).mpr hne)
        rw [hidle] at hsig
        cases hsig
      · exact hcan.1
    · show Function.update s.checks i .checking i ≠ .done
      rw [Function.update_self]
      simp
  | _ => exact ⟨hp, hl, hs.body, hs.queue⟩

/-- **A start that is not stuck can come to its end**, with no call moved. -/
theorem exists_done {s : Group} {N : Nat → Prop} (hs : Going N s) (hc : s.crashed = false) :
    ∃ t, Trace.Reaches step (Action.Waking N) s t ∧ t.crashed = false ∧ t.body = .done ∧
      t.calls = s.calls := by
  have hclose : ∀ {u : Group}, u.crashed = false → u.body = .close → u.calls = s.calls →
      ∃ t, Trace.Reaches step (Action.Waking N) u t ∧ t.crashed = false ∧ t.body = .done ∧
        t.calls = s.calls :=
    fun huc hub hcalls => ⟨_, (Step.bodyClose hub).reaches huc trivial, huc, rfl, hcalls⟩
  rcases hs.body with hb | hover
  · obtain ⟨u, hu⟩ := exists_over _ ⟨hs.phase, hc, hb⟩ rfl (hs.looping.queue hb) (hs.queue hb)
    obtain ⟨t, ht, htc, htb, hcalls⟩ := hclose hu.running hu.body hu.calls
    exact ⟨t, hu.reaches.trans ht, htc, htb, hcalls⟩
  · cases hb : s.body with
    | close => exact hclose hc hb rfl
    | done => exact ⟨s, .refl s, hc, hb, rfl⟩
    | none | spawn | lock | enqueue rest | ready =>
      rw [hb] at hover
      cases hover

theorem honest_of_waking {s t : Group} {N : Nat → Prop}
    (h : Trace.Reaches step (Action.Waking N) s t) : Trace.Reaches step (Action.Honest N) s t :=
  h.mono fun _ ha => ha.honest

/-- **The wait loop.** Where the checks of the runnables in `N` never succeed, it keeps a way to its
end if and only if every entry of the start queue can signal; the context plays no part. -/
theorem wait_ends_iff {as : List Action} {s : Group}
    (h : Trace.run step newRunnableGroup as = some s) (hb : s.body = .ready) (N : Nat → Prop) :
    Trace.AlwaysReaches step (Action.Honest N) (fun t => t.body.drained = true) s ↔
      ∀ i ∈ s.startQueue, s.CanSignal N i := by
  obtain ⟨hp, hl⟩ := looping_run h
  constructor
  · intro hall i hi
    by_contra hno
    refine Trace.AlwaysReaches.not_of_invariant (I := fun s => s.Blocking N i) ?_ ?_
      ⟨hp, hb, hi, hno⟩ hall
    · exact fun u a v hu ha hv => blocking_step hu ha (step_iff.mp hv).2
    · intro u hu hover
      rw [hu.body] at hover
      cases hover
  · intro hcan
    refine Trace.AlwaysReaches.of_invariant (I := Going N) ?_ ?_
      ⟨hp, hl, Or.inl hb, fun _ => hcan⟩
    · exact fun u a v hu ha hv => going_step hu ha (step_iff.mp hv).2
    · intro u hu
      cases hc : u.crashed with
      | true => exact ⟨u, .refl u, by rw [hu.looping.crashed hc]; rfl⟩
      | false =>
        obtain ⟨t, ht, _, htb, _⟩ := exists_done hu hc
        exact ⟨t, honest_of_waking ht, by rw [htb]; rfl⟩

theorem over_step {s t : Group} {a : Action} (hs : s.body.drained = true) (h : Step s a t) :
    t.body.drained = true := by
  cases h with
  | bodySpawn hb | bodyLock hb _ | bodyUnlock hb | startOnce _ hb | recvQueue _ hb _
  | recvReady hb _ =>
    rw [hb] at hs
    cases hs
  | bodyClose _ => rfl
  | _ => exact hs

/-- **Without a readiness signal** the start comes to its end only if there is nothing to wait
for. -/
theorem noSignal_ends_iff {as : List Action} {s : Group}
    (h : Trace.run step newRunnableGroup as = some s)
    (hb : s.body = .ready ∨ s.body.drained = true) :
    Trace.AlwaysReaches step Action.NoSignal (fun t => t.body.drained = true) s ↔
      s.startQueue = [] := by
  obtain ⟨hp, hl⟩ := looping_run h
  rcases hb with hready | hover
  · refine iff_of_false ?_ (hl.queue hready)
    refine Trace.AlwaysReaches.not_of_invariant (I := fun s => s.body = .ready) ?_ ?_ hready
    · exact fun u a v hu ha hv => noSignal_step hu ha (step_iff.mp hv).2
    · intro u hu ho
      rw [hu] at ho
      cases ho
  · refine iff_of_true ?_ (hp.starting.drained hover)
    refine Trace.AlwaysReaches.of_invariant (I := fun s => s.body.drained = true) ?_ ?_ hover
    · exact fun u a v hu _ hv => over_step hu (step_iff.mp hv).2
    · exact fun u hu => ⟨u, .refl u, hu⟩

/-! ## The error of the context -/

/-- `Start` returns the error of its own context, and never `Canceled`. -/
structure Returns (s : Group) : Prop where
  deadline : ∀ err, s.retErr = some err →
    err = .deadlineExceeded ∧ s.ctxErr s.starter = some .deadlineExceeded
  fresh : s.body = .none → s.retErr = none

theorem returns_step {s t : Group} {a : Action} (hs : s.Returns) (h : Step s a t) : t.Returns := by
  cases h with
  | startOnce _ hb =>
    refine ⟨fun err herr => ?_, fun _ => hs.fresh hb⟩
    have hnone : some err = none := herr.symm.trans (hs.fresh hb)
    cases hnone
  | @expire c err hnone =>
    refine ⟨fun e he => ?_, hs.fresh⟩
    obtain ⟨hdead, hctx⟩ := hs.deadline e he
    have hne : s.starter ≠ c := by
      rintro rfl
      rw [hctx] at hnone
      cases hnone
    exact ⟨hdead, (Function.update_of_ne hne ..).trans hctx⟩
  | ctxDeadline hb hctx =>
    refine ⟨fun err herr => ?_, fun hn => ?_⟩
    · cases herr
      exact ⟨rfl, hctx⟩
    · have hn' : s.body = .none := hn
      rw [hb] at hn'
      cases hn'
  | bodySpawn _ | bodyLock _ _ | bodyClose _ | recvQueue _ _ _ =>
    exact ⟨hs.deadline, fun hn => by cases hn⟩
  | bodyUnlock _ | recvReady _ _ =>
    refine ⟨hs.deadline, fun hn => ?_⟩
    simp only at hn
    split at hn <;> cases hn
  | _ => exact ⟨hs.deadline, hs.fresh⟩

theorem returns_run {as : List Action} {s : Group}
    (h : Trace.run step newRunnableGroup as = some s) : s.Returns :=
  Trace.run_invariant (I := Returns) (fun _ _ _ hu hv => returns_step hu (step_iff.mp hv).2)
    ⟨fun err herr => (by cases herr), fun _ => rfl⟩ h

end Group

end EDGuard
