import EDGuard.GroupWait
import Mathlib.Data.Finset.Card

/-!
# A `StopAndWait` that starts its group

`StopAndWait` calls `Start` before it takes `r.stop` and cancels the group.

* `Reading` — who holds `r.stop` for reading, so that the lock comes free.
* `StopsOnce` — what `stopOnce` promises its callers.
* `stopping_ends_iff` — where the checks of the runnables in `N` never succeed, a `StopAndWait` in
  its call of `Start` keeps a way to its cancel-and-wait phase if and only if every entry of the
  start queue can signal.
-/

set_option autoImplicit false

namespace EDGuard

/-- The reconciler holds `r.stop` for reading. -/
def ReconcilePc.reading : ReconcilePc → Bool
  | .locked _ | .report _ => true
  | _ => false

namespace Group

/-! ## The holders of `r.stop` -/

/-- Who holds `r.stop` for reading: the calls of `Add` in `F`, and the reconciler. -/
structure Reading (s : Group) (F : Finset Nat) : Prop where
  adds : ∀ i, s.adds i = .rlocked ↔ i ∈ F
  count : s.stopReaders = F.card + if s.reconcile.reading then 1 else 0

/-- Steps that neither take nor release `r.stop` for reading. -/
theorem Reading.frame {s t : Group} {F : Finset Nat} (hs : s.Reading F)
    (hadds : ∀ i, t.adds i = .rlocked ↔ s.adds i = .rlocked)
    (hrec : t.reconcile.reading = s.reconcile.reading) (hr : t.stopReaders = s.stopReaders) :
    t.Reading F := by
  refine ⟨fun i => (hadds i).trans (hs.adds i), ?_⟩
  rw [hr, hrec]
  exact hs.count

theorem setAdd_rlocked {s : Group} {i : Nat} {pc : AddPc} (hold : s.adds i ≠ .rlocked)
    (hnew : pc ≠ .rlocked) (j : Nat) :
    (s.setAdd i pc).adds j = .rlocked ↔ s.adds j = .rlocked := by
  show Function.update s.adds i pc j = _ ↔ _
  rcases eq_or_ne j i with rfl | hj
  · rw [Function.update_self]
    exact iff_of_false hnew hold
  · rw [Function.update_of_ne hj]

/-- A call of `Add` leaves its read lock. -/
theorem Reading.release {s t : Group} {F : Finset Nat} {i : Nat} {pc : AddPc} (hs : s.Reading F)
    (hi : s.adds i = .rlocked) (hpc : pc ≠ .rlocked) (hadds : t.adds = (s.setAdd i pc).adds)
    (hrec : t.reconcile = s.reconcile) (hr : t.stopReaders = s.stopReaders - 1) :
    t.Reading (F.erase i) := by
  have hmem := (hs.adds i).mp hi
  refine ⟨fun j => ?_, ?_⟩
  · rw [hadds, Finset.mem_erase]
    show Function.update s.adds i pc j = _ ↔ _
    rcases eq_or_ne j i with rfl | hj
    · rw [Function.update_self]
      exact iff_of_false hpc fun h => h.1 rfl
    · rw [Function.update_of_ne hj, hs.adds j]
      simp [hj]
  · have hpos := Finset.card_pos.mpr ⟨i, hmem⟩
    rw [hr, hrec, hs.count, Finset.card_erase_of_mem hmem]
    omega

theorem reading_step {s t : Group} {F : Finset Nat} {a : Action} (ha : s.Accounts)
    (hs : s.Reading F) (h : Step s a t) : ∃ F', t.Reading F' := by
  cases h with
  | addBegin hpc | addLock hpc _ | addQueue hpc _ | addStarted hpc _ =>
    exact ⟨F, hs.frame (setAdd_rlocked (by rw [hpc]; simp) (by simp)) rfl rfl⟩
  | @addRlock i hpc _ =>
    have hno : i ∉ F := by
      intro hi
      have hlocked := (hs.adds i).mpr hi
      rw [hpc] at hlocked
      cases hlocked
    refine ⟨insert i F, fun j => ?_, ?_⟩
    · show Function.update s.adds i .rlocked j = _ ↔ _
      rw [Finset.mem_insert]
      rcases eq_or_ne j i with rfl | hj
      · rw [Function.update_self]
        exact iff_of_true rfl (Or.inl rfl)
      · rw [Function.update_of_ne hj, hs.adds j]
        simp [hj]
    · show s.stopReaders + 1 = (insert i F).card + if s.reconcile.reading then 1 else 0
      rw [Finset.card_insert_of_notMem hno, hs.count]
      omega
  | addRefuse hpc _ | addPass hpc _ => exact ⟨_, hs.release hpc (by simp) rfl rfl rfl⟩
  | @recvAdd i hrec hpc _ =>
    refine ⟨F, hs.frame (setAdd_rlocked (by rw [hpc]; simp) (by simp)) ?_ rfl⟩
    rw [hrec]
    rfl
  | recvQueue hrec _ _ | exit hrec _ | launch hrec | drop hrec _ =>
    refine ⟨F, hs.frame (fun _ => Iff.rfl) ?_ rfl⟩
    rw [hrec]
    rfl
  | rlock hrec _ =>
    refine ⟨F, hs.adds, ?_⟩
    have hcount := hs.count
    rw [hrec] at hcount
    exact congrArg (· + 1) hcount
  | wgAdd hrec _ | recvReport hrec =>
    refine ⟨F, hs.adds, ?_⟩
    have hcount := hs.count
    rw [hrec] at hcount
    exact congrArg (· - 1) hcount
  | bodySpawn hb =>
    refine ⟨F, hs.frame (fun _ => Iff.rfl) ?_ rfl⟩
    rw [ha.off (Or.inr hb)]
    rfl
  | _ => exact ⟨F, hs.frame (fun _ => Iff.rfl) rfl rfl⟩

theorem reading_run {as : List Action} {s : Group}
    (h : Trace.run step newRunnableGroup as = some s) : ∃ F, s.Reading F := by
  have hinit : newRunnableGroup.Reading ∅ :=
    ⟨fun i => iff_of_false (by simp [newRunnableGroup]) (by simp), rfl⟩
  refine (Trace.run_invariant (I := fun s => s.Accounts ∧ ∃ F, s.Reading F) ?_
    ⟨accounts_init, ∅, hinit⟩ h).2
  rintro u a v ⟨ha, F, hF⟩ hv
  have hstep := (step_iff.mp hv).2
  exact ⟨accounts_step ha hstep, reading_step ha hF hstep⟩

/-- The steps of the holders of `r.stop`, and of the call `c`. -/
def Action.Unlocking : Action → Prop
  | .add _ | .reconcile | .recvReport | .call _ | .body => True
  | _ => False

theorem Action.Unlocking.honest {N : Nat → Prop} {a : Action} (h : a.Unlocking) : a.Honest N := by
  cases a with
  | check i ok => exact h.elim
  | _ => trivial

/-- A `StopAndWait` is past its call of `Start`, and the holders of `r.stop` are known. -/
structure Unlocking (s : Group) (c : Nat) : Prop where
  running : s.crashed = false
  accounts : s.Accounts
  stopping : s.Stopping
  reading : ∃ F, s.Reading F
  call : s.calls c = .stopLock

theorem Unlocking.advance {s t : Group} {c : Nat} {a : Action} (hs : s.Unlocking c)
    (h : Step s a t) (hc : t.crashed = s.crashed) (hcall : t.calls c = s.calls c) :
    t.Unlocking c := by
  obtain ⟨F, hF⟩ := hs.reading
  exact ⟨hc.trans hs.running, accounts_step hs.accounts h, stopping_step hs.stopping h,
    reading_step hs.accounts hF h, hcall.trans hs.call⟩

/-- Nobody holds `r.stop`: the call takes it and goes on to cancel the group. -/
theorem stopCancel_of_free {s : Group} {c : Nat} (hs : s.Unlocking c) (hr : s.stopReaders = 0)
    (hw : s.stopWriter = false) :
    ∃ t, Trace.Reaches step Action.Unlocking s t ∧ t.calls c = .stopCancel := by
  have hlock := Step.stopLock hs.call hr hw
  have hset := Step.stopSet (s := { s.setCall c .stopSet with stopWriter := true }) (c := c)
    (Function.update_self ..)
  exact ⟨_, (hlock.reaches hs.running trivial).trans (hset.reaches hs.running trivial),
    Function.update_self ..⟩

/-- Another `StopAndWait` that holds `r.stop` for writing lets it go. -/
theorem exists_noWriter {s : Group} {c : Nat} (hs : s.Unlocking c) :
    ∃ t, Trace.Reaches step Action.Unlocking s t ∧ t.Unlocking c ∧ t.stopWriter = false ∧
      t.stopReaders = s.stopReaders := by
  cases hw : s.stopWriter with
  | false => exact ⟨s, .refl s, hs, hw, rfl⟩
  | true =>
    obtain ⟨c', hc'⟩ := hs.stopping.writer hw
    have hne : c ≠ c' := by
      rintro rfl
      rw [hs.call] at hc'
      cases hc'
    have hset := Step.stopSet hc'
    exact ⟨_, hset.reaches hs.running trivial,
      hs.advance hset rfl (Function.update_of_ne hne ..), rfl, rfl⟩

/-- One holder of `r.stop` lets it go. -/
theorem exists_fewerReaders {s : Group} {c n : Nat} (hs : s.Unlocking c)
    (hn : s.stopReaders = n + 1) :
    ∃ t, Trace.Reaches step Action.Unlocking s t ∧ t.Unlocking c ∧ t.stopReaders = n := by
  obtain ⟨F, hF⟩ := hs.reading
  have hsub : s.stopReaders - 1 = n := by omega
  cases hrec : s.reconcile.reading with
  | true =>
    cases hpc : s.reconcile with
    | locked i =>
      cases hst : s.stopped with
      | true =>
        have hdrop := Step.drop hpc hst
        have hrep := Step.recvReport (s := { s with reconcile := .report i }) (i := i) rfl
        exact ⟨_, (hdrop.reaches hs.running trivial).trans (hrep.reaches hs.running trivial),
          (hs.advance hdrop rfl rfl).advance hrep rfl rfl, hsub⟩
      | false =>
        have hadd := Step.wgAdd hpc hst
        exact ⟨_, hadd.reaches hs.running trivial, hs.advance hadd rfl rfl, hsub⟩
    | report i =>
      have hrep := Step.recvReport hpc
      exact ⟨_, hrep.reaches hs.running trivial, hs.advance hrep rfl rfl, hsub⟩
    | off | recv | rlock i | launch i | exited =>
      rw [hpc] at hrec
      cases hrec
  | false =>
    have hcount := hF.count
    rw [hrec, hn] at hcount
    have hpos : 0 < F.card := by
      simp at hcount
      omega
    obtain ⟨i, hi⟩ := Finset.card_pos.mp hpos
    have hpc := (hF.adds i).mpr hi
    cases hst : s.stopped with
    | true =>
      have href := Step.addRefuse hpc hst
      exact ⟨_, href.reaches hs.running trivial, hs.advance href rfl rfl, hsub⟩
    | false =>
      have hpass := Step.addPass hpc hst
      exact ⟨_, hpass.reaches hs.running trivial, hs.advance hpass rfl rfl, hsub⟩

/-- **A `StopAndWait` that is past its call of `Start` can come to cancel the group.** -/
theorem exists_stopCancel {c : Nat} (n : Nat) : ∀ {s : Group}, s.Unlocking c →
    s.stopReaders = n →
    ∃ t, Trace.Reaches step Action.Unlocking s t ∧ t.calls c = .stopCancel := by
  induction n with
  | zero =>
    intro s hs hn
    obtain ⟨t, ht, htu, hw, hr⟩ := exists_noWriter hs
    obtain ⟨u, hu, hcall⟩ := stopCancel_of_free htu (hr.trans hn) hw
    exact ⟨u, ht.trans hu, hcall⟩
  | succ n ih =>
    intro s hs hn
    obtain ⟨t, ht, htu, hr⟩ := exists_fewerReaders hs hn
    obtain ⟨u, hu, hcall⟩ := ih htu hr
    exact ⟨u, ht.trans hu, hcall⟩

/-! ## Where a `StopAndWait` stands -/

end Group

/-- The call runs the body of `stopOnce`. -/
def CallPc.inStop : CallPc → Bool
  | .stopStart | .stopLock | .stopSet | .stopCancel | .stopWait | .stopClose => true
  | _ => false

/-- The call has come to its cancel-and-wait phase. -/
def CallPc.cancelling : CallPc → Bool
  | .stopCancel | .stopWait | .stopClose | .returned => true
  | _ => false

namespace Group

/-- One call runs the body of `stopOnce`, and only its end closes `r.ch`; a call returns when the
start is over. -/
structure StopsOnce (s : Group) : Prop where
  running : ∀ c, (s.calls c).inStop = true → s.stopOnce = .running
  unique : ∀ c d, (s.calls c).inStop = true → (s.calls d).inStop = true → c = d
  closed : s.chClosed = true → s.stopOnce = .done
  crashed : s.crashed = true → s.chClosed = true
  cancelled : s.cancelled = true → s.stopOnce ≠ .fresh
  drained : s.stopOnce = .done → s.body = .done
  returned : ∀ c, s.calls c = .returned → s.body = .done

/-- Steps of other goroutines. -/
theorem StopsOnce.frame {s t : Group} (hs : s.StopsOnce) (hcalls : t.calls = s.calls)
    (honce : t.stopOnce = s.stopOnce) (hch : t.chClosed = s.chClosed)
    (hcr : t.crashed = true → s.chClosed = true) (hcan : t.cancelled = s.cancelled)
    (hbody : s.body = .done → t.body = .done) : t.StopsOnce := by
  refine ⟨?_, ?_, ?_, ?_, ?_, ?_, ?_⟩
  · rw [hcalls, honce]
    exact hs.running
  · rw [hcalls]
    exact hs.unique
  · rw [hch, honce]
    exact hs.closed
  · rw [hch]
    exact hcr
  · rw [hcan, honce]
    exact hs.cancelled
  · rw [honce]
    exact fun h => hbody (hs.drained h)
  · rw [hcalls]
    exact fun c hc => hbody (hs.returned c hc)

/-- A call goes on inside the body of `stopOnce`, or outside of it. -/
theorem StopsOnce.setCall {s t : Group} (hs : s.StopsOnce) {c : Nat} {pc : CallPc}
    (hcalls : t.calls = Function.update s.calls c pc)
    (hpc : pc.inStop = true → (s.calls c).inStop = true)
    (hret : pc = .returned → s.body = .done) (honce : t.stopOnce = s.stopOnce)
    (hch : t.chClosed = s.chClosed) (hcr : t.crashed = s.crashed)
    (hcan : t.cancelled = true → s.cancelled = true ∨ (s.calls c).inStop = true)
    (hbody : t.body = s.body) : t.StopsOnce := by
  have hin : ∀ d, (t.calls d).inStop = true → (s.calls d).inStop = true := by
    intro d hd
    rw [hcalls] at hd
    rcases eq_or_ne d c with rfl | hne
    · rw [Function.update_self] at hd
      exact hpc hd
    · rwa [Function.update_of_ne hne] at hd
  refine ⟨fun d hd => ?_, fun d e hd he => hs.unique d e (hin d hd) (hin e he), ?_, ?_,
    fun h => ?_, ?_, fun d hd => ?_⟩
  · rw [honce]
    exact hs.running d (hin d hd)
  · rw [hch, honce]
    exact hs.closed
  · rw [hcr, hch]
    exact hs.crashed
  · rw [honce]
    rcases hcan h with hold | hstop
    · exact hs.cancelled hold
    · rw [hs.running c hstop]
      simp
  · rw [honce, hbody]
    exact hs.drained
  · rw [hbody]
    rw [hcalls] at hd
    rcases eq_or_ne d c with rfl | hne
    · rw [Function.update_self] at hd
      exact hret hd
    · rw [Function.update_of_ne hne] at hd
      exact hs.returned d hd

/-- A call begins the body of `stopOnce`. -/
theorem stopsOnce_begin {s : Group} {c : Nat} (hs : s.StopsOnce) (hpc : s.calls c = .stop)
    (hfresh : s.stopOnce = .fresh) :
    StopsOnce { s.setCall c .stopStart with stopOnce := .running } := by
  have honly : ∀ d, (Function.update s.calls c .stopStart d).inStop = true → d = c := by
    intro d hd
    by_contra hne
    rw [Function.update_of_ne hne] at hd
    have hrun := hs.running d hd
    rw [hfresh] at hrun
    cases hrun
  have hnot : s.chClosed = true → False := by
    intro hcl
    have hdone := hs.closed hcl
    rw [hfresh] at hdone
    cases hdone
  refine ⟨fun _ _ => rfl, fun d e hd he => (honly d hd).trans (honly e he).symm,
    fun hcl => (hnot hcl).elim, hs.crashed, fun _ h => (by cases h), fun h => (by cases h),
    fun d hd => ?_⟩
  have hd' : Function.update s.calls c .stopStart d = .returned := hd
  rcases eq_or_ne d c with rfl | hne
  · rw [Function.update_self] at hd'
    cases hd'
  · rw [Function.update_of_ne hne] at hd'
    exact hs.returned d hd'

/-- The body of `stopOnce` ends. -/
theorem stopsOnce_end {s : Group} {c : Nat} (hp : s.Stopping) (hs : s.StopsOnce)
    (hpc : s.calls c = .stopClose) :
    StopsOnce { s.setCall c .returned with chClosed := true, stopOnce := .done } := by
  have hin : (s.calls c).inStop = true := by
    rw [hpc]
    rfl
  have hdone : s.body = .done := hp.body c (by rw [hpc]; rfl)
  have hnone : ∀ d, ¬ (Function.update s.calls c .returned d).inStop = true := by
    intro d hd
    rcases eq_or_ne d c with rfl | hne
    · rw [Function.update_self] at hd
      cases hd
    · rw [Function.update_of_ne hne] at hd
      exact hne (hs.unique d c hd hin)
  exact ⟨fun d hd => absurd hd (hnone d), fun d e hd => absurd hd (hnone d), fun _ => rfl,
    fun _ => rfl, fun _ h => (by cases h), fun _ => hdone, fun _ _ => hdone⟩

theorem stopsOnce_call {s t : Group} {c : Nat} (hp : s.Phase) (hs : s.StopsOnce)
    (h : Step s (.call c) t) : t.StopsOnce := by
  cases h with
  | startOnce _ hb =>
    exact hs.frame rfl rfl rfl hs.crashed rfl fun hd => by rw [hb] at hd; cases hd
  | startDone hpc hb =>
    exact hs.setCall rfl (fun h => by cases h) (fun _ => hb) rfl rfl rfl Or.inl rfl
  | stopStartDone hpc _ | stopLock hpc _ _ | stopSet hpc =>
    exact hs.setCall rfl (fun _ => by rw [hpc]; rfl) (fun h => by cases h) rfl rfl rfl Or.inl rfl
  | stopWait hpc _ =>
    exact hs.setCall rfl (fun _ => by rw [hpc]; rfl) (fun h => by cases h) rfl rfl rfl Or.inl rfl
  | stopCancel hpc =>
    exact hs.setCall rfl (fun _ => by rw [hpc]; rfl) (fun h => by cases h) rfl rfl rfl
      (fun _ => Or.inr (by rw [hpc]; rfl)) rfl
  | stopDone hpc hdone =>
    exact hs.setCall rfl (fun h => by cases h) (fun _ => hs.drained hdone) rfl rfl rfl Or.inl rfl
  | stopOnce hpc hfresh => exact stopsOnce_begin hs hpc hfresh
  | stopClose hpc => exact stopsOnce_end hp.stopping hs hpc

theorem stopsOnce_step {s t : Group} {a : Action} (hp : s.Phase) (hs : s.StopsOnce)
    (h : Step s a t) : t.StopsOnce := by
  have hlive : ∀ {pc : BodyPc}, s.body = pc → pc ≠ .done → s.body = .done → t.body = .done :=
    fun hb hne hd => absurd (hb.symm.trans hd) hne
  cases a with
  | call c => exact stopsOnce_call hp hs h
  | callStart c | callStop c =>
    cases h
    exact hs.setCall rfl (fun h => by cases h) (fun h => by cases h) rfl rfl rfl Or.inl rfl
  | add i =>
    cases h with
    | addCrash _ hch => exact hs.frame rfl rfl rfl (fun _ => hch) rfl id
    | _ => exact hs.frame rfl rfl rfl hs.crashed rfl id
  | signalClosed i =>
    cases h with
    | signalCrash hpc hcl =>
      -- nobody signals once `startReadyCh` is closed
      have hempty := hp.starting.drained (by rw [hp.starting.closed hcl]; rfl)
      rcases hp.starting.sent i (hp.starting.signalling i hpc) with hq | ⟨hdone, _⟩
      · rw [hempty] at hq
        cases hq
      · rw [hpc] at hdone
        cases hdone
  | body =>
    cases h with
    | bodySpawn hb | bodyUnlock hb | bodyClose hb =>
      exact hs.frame rfl rfl rfl hs.crashed rfl (hlive hb (by simp))
    | bodyLock hb _ => exact hs.frame rfl rfl rfl hs.crashed rfl (hlive hb (by simp))
  | recvReady i =>
    cases h with
    | recvReady hb _ => exact hs.frame rfl rfl rfl hs.crashed rfl (hlive hb (by simp))
  | recvQueue =>
    cases h with
    | recvQueue _ hb _ => exact hs.frame rfl rfl rfl hs.crashed rfl (hlive hb (by simp))
  | _ => cases h <;> exact hs.frame rfl rfl rfl hs.crashed rfl id

theorem stopsOnce_run {as : List Action} {s : Group}
    (h : Trace.run step newRunnableGroup as = some s) : s.StopsOnce := by
  refine (Trace.run_invariant (I := fun s => s.Phase ∧ s.StopsOnce) ?_
    ⟨phase_run (Trace.run_nil newRunnableGroup), ?_⟩ h).2
  · exact fun u a v hu hv => ⟨phase_step hu.1 (step_iff.mp hv).2,
      stopsOnce_step hu.1 hu.2 (step_iff.mp hv).2⟩
  · refine ⟨fun c hc => ?_, fun c d hc => ?_, fun hc => ?_, fun hc => ?_, fun hc => ?_,
      fun hc => ?_, fun c hc => ?_⟩ <;> cases hc

/-- The call runs the body of `stopOnce`, or has run it. -/
def CallHalts (s : Group) (c : Nat) : Prop :=
  (s.calls c).inStop = true ∨ (s.calls c).cancelling = true

theorem callHalts_step {s t : Group} {c : Nat} {a : Action} (hs : s.CallHalts c)
    (h : Step s a t) : t.CallHalts c := by
  have hset : ∀ {d : Nat} {pc pc' : CallPc}, s.calls d = pc →
      (pc.inStop = true ∨ pc.cancelling = true → pc'.inStop = true ∨ pc'.cancelling = true) →
      (Function.update s.calls d pc' c).inStop = true ∨
        (Function.update s.calls d pc' c).cancelling = true := by
    intro d pc pc' hd hpc
    rcases eq_or_ne c d with rfl | hne
    · rw [Function.update_self]
      exact hpc (hd ▸ hs)
    · rw [Function.update_of_ne hne]
      exact hs
  cases h with
  | callStart hpc | callStop hpc => exact hset hpc (by decide)
  | startDone hpc _ | stopStartDone hpc _ | stopOnce hpc _ | stopDone hpc _ | stopWait hpc _ =>
    exact hset hpc (by decide)
  | stopLock hpc _ _ => exact hset hpc (by decide)
  | stopSet hpc | stopCancel hpc | stopClose hpc => exact hset hpc (by decide)
  | _ => exact hs

/-- A `StopAndWait` in a group whose start is not stuck. -/
structure Halting (N : Nat → Prop) (c : Nat) (s : Group) : Prop where
  going : Going N s
  once : s.StopsOnce
  reading : ∃ F, s.Reading F
  call : s.CallHalts c

theorem halting_step {s t : Group} {N : Nat → Prop} {c : Nat} {a : Action} (hs : Halting N c s)
    (ha : a.Honest N) (h : step s a = some t) : Halting N c t := by
  have hstep := (step_iff.mp h).2
  obtain ⟨F, hF⟩ := hs.reading
  exact ⟨going_step hs.going ha hstep, stopsOnce_step hs.going.phase hs.once hstep,
    reading_step hs.going.phase.accounts hF hstep, callHalts_step hs.call hstep⟩

theorem halting_reaches {s t : Group} {N : Nat → Prop} {c : Nat} (hs : Halting N c s)
    (h : Trace.Reaches step (Action.Honest N) s t) : Halting N c t :=
  Trace.Reaches.invariant (I := Halting N c) (fun _ _ _ hu ha hv => halting_step hu ha hv) hs h

/-- While the call is in the body of `stopOnce` the group does not crash. -/
theorem StopsOnce.running_of_inStop {s : Group} (hs : s.StopsOnce) {c : Nat}
    (hc : (s.calls c).inStop = true) : s.crashed = false := by
  cases hcr : s.crashed with
  | false => rfl
  | true =>
    have hdone := hs.closed (hs.crashed hcr)
    rw [hs.running c hc] at hdone
    cases hdone

theorem exists_cancelling_of_lock {s : Group} {N : Nat → Prop} {c : Nat} (hs : Halting N c s)
    (hc : s.calls c = .stopLock) :
    ∃ t, Trace.Reaches step (Action.Honest N) s t ∧ (t.calls c).cancelling = true := by
  have hrun := hs.once.running_of_inStop (c := c) (by rw [hc]; rfl)
  obtain ⟨t, ht, hcancel⟩ := exists_stopCancel _
    ⟨hrun, hs.going.phase.accounts, hs.going.phase.stopping, hs.reading, hc⟩ rfl
  exact ⟨t, ht.mono fun _ ha => ha.honest, by rw [hcancel]; rfl⟩

/-- **A `StopAndWait` whose start is not stuck comes to its cancel-and-wait phase.** -/
theorem exists_cancelling {s : Group} {N : Nat → Prop} {c : Nat} (hs : Halting N c s) :
    ∃ t, Trace.Reaches step (Action.Honest N) s t ∧ (t.calls c).cancelling = true := by
  have hcall := hs.call
  unfold CallHalts at hcall
  cases hc : s.calls c with
  | stopStart =>
    -- the start ends, its call returns, and the call goes on to the lock
    have hrun := hs.once.running_of_inStop (c := c) (by rw [hc]; rfl)
    obtain ⟨u, hu, hrun', hdone, hcalls⟩ := exists_done hs.going hrun
    have hreturn := Step.stopStartDone (s := u) (c := c) ((congrFun hcalls c).trans hc) hdone
    have hreach := (honest_of_waking hu).trans
      (hreturn.reaches (P := Action.Honest N) hrun' trivial)
    obtain ⟨t, ht, hcancel⟩ := exists_cancelling_of_lock (halting_reaches hs hreach)
      (Function.update_self ..)
    exact ⟨t, hreach.trans ht, hcancel⟩
  | stopLock => exact exists_cancelling_of_lock hs hc
  | stopSet =>
    have hrun := hs.once.running_of_inStop (c := c) (by rw [hc]; rfl)
    refine ⟨_, (Step.stopSet hc).reaches hrun trivial, ?_⟩
    show (Function.update s.calls c .stopCancel c).cancelling = true
    rw [Function.update_self]
    rfl
  | stopCancel | stopWait | stopClose | returned => exact ⟨s, .refl s, by rw [hc]; rfl⟩
  | idle | start | stop =>
    rw [hc] at hcall
    simp [CallPc.inStop, CallPc.cancelling] at hcall

/-- In the wait loop a `StopAndWait` stays in its call of `Start`. -/
theorem stopStart_step {s t : Group} {c : Nat} {a : Action} (hb : s.body = .ready)
    (hc : s.calls c = .stopStart) (h : Step s a t) : t.calls c = .stopStart := by
  have hset : ∀ {d : Nat} {pc pc' : CallPc}, s.calls d = pc → pc ≠ .stopStart →
      Function.update s.calls d pc' c = .stopStart := by
    intro d pc pc' hd hpc
    have hne : c ≠ d := by
      rintro rfl
      exact hpc (hd.symm.trans hc)
    rw [Function.update_of_ne hne]
    exact hc
  cases h with
  | stopStartDone _ hdone =>
    rw [hb] at hdone
    cases hdone
  | callStart hpc | callStop hpc | startDone hpc _ | stopOnce hpc _ | stopDone hpc _
  | stopWait hpc _ => exact hset hpc (by simp)
  | stopLock hpc _ _ => exact hset hpc (by simp)
  | stopSet hpc | stopCancel hpc | stopClose hpc => exact hset hpc (by simp)
  | _ => exact hc

/-- **`StopAndWait` in its call of `Start`.** Where the checks of the runnables in `N` never
succeed, it keeps a way to its cancel-and-wait phase if and only if every entry can signal. -/
theorem stopping_ends_iff {as : List Action} {s : Group} {c : Nat}
    (h : Trace.run step newRunnableGroup as = some s) (hb : s.body = .ready)
    (hcall : s.calls c = .stopStart) (N : Nat → Prop) :
    Trace.AlwaysReaches step (Action.Honest N) (fun t => (t.calls c).cancelling = true) s ↔
      ∀ i ∈ s.startQueue, s.CanSignal N i := by
  obtain ⟨hp, hl⟩ := looping_run h
  constructor
  · intro hall i hi
    by_contra hno
    refine Trace.AlwaysReaches.not_of_invariant
      (I := fun s => s.Blocking N i ∧ s.calls c = .stopStart) ?_ ?_
      ⟨⟨hp, hb, hi, hno⟩, hcall⟩ hall
    · exact fun u a v hu ha hv => ⟨blocking_step hu.1 ha (step_iff.mp hv).2,
        stopStart_step hu.1.body hu.2 (step_iff.mp hv).2⟩
    · intro u hu hcancel
      rw [hu.2] at hcancel
      cases hcancel
  · intro hcan
    refine Trace.AlwaysReaches.of_invariant (I := Halting N c)
      (fun _ _ _ hu ha hv => halting_step hu ha hv) (fun _ hu => exists_cancelling hu) ?_
    exact ⟨⟨hp, hl, Or.inl hb, fun _ => hcan⟩, stopsOnce_run h, reading_run h,
      Or.inl (by rw [hcall]; rfl)⟩

end Group

end EDGuard
