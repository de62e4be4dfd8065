import EDGuard.GroupAdd

/-!
# The start phase of a group

* `Starting` — where an entry of the start queue is: waiting to be sent, sent and not ready so far,
  or received from `startReadyCh` and gone from the queue.
* `start_phase` — no entry of the start queue is dropped; when the body of `startOnce` returns,
  each of them was launched once and its readiness was received; nobody sends on `startReadyCh`
  after it was closed.
-/

set_option autoImplicit false

namespace EDGuard

/-- The body of `startOnce` returns, or has returned. -/
def BodyPc.drained : BodyPc → Bool
  | .close | .done => true
  | _ => false

namespace Group

/-! ## The launched runnables -/

/-- The goroutines of the launched runnables, and of no others, exist. -/
structure Launches (s : Group) : Prop where
  checks : ∀ i, i ∈ s.launched ↔ s.checks i ≠ .idle
  runs : ∀ i, i ∈ s.launched ↔ s.runs i ≠ .idle

theorem launches_init : newRunnableGroup.Launches := by
  constructor <;> intro i <;> exact iff_of_false (by simp [newRunnableGroup]) fun h => h rfl

/-- The check of a launched runnable goes on. -/
theorem Launches.setCheck {s t : Group} (hs : s.Launches) {i : Nat} {pc : CheckPc}
    (hold : s.checks i ≠ .idle) (hnew : pc ≠ .idle)
    (hch : t.checks = Function.update s.checks i pc) (hr : t.runs = s.runs)
    (hl : t.launched = s.launched) : t.Launches := by
  refine ⟨fun j => ?_, fun j => ?_⟩
  · rw [hl, hch]
    rcases eq_or_ne j i with rfl | hj
    · rw [Function.update_self]
      exact iff_of_true ((hs.checks j).mpr hold) hnew
    · rw [Function.update_of_ne hj]
      exact hs.checks j
  · rw [hl, hr]
    exact hs.runs j

/-- The goroutine of a launched runnable goes on. -/
theorem Launches.setRun {s t : Group} (hs : s.Launches) {i : Nat} {pc : RunPc}
    (hold : s.runs i ≠ .idle) (hnew : pc ≠ .idle)
    (hr : t.runs = Function.update s.runs i pc) (hch : t.checks = s.checks)
    (hl : t.launched = s.launched) : t.Launches := by
  refine ⟨fun j => ?_, fun j => ?_⟩
  · rw [hl, hch]
    exact hs.checks j
  · rw [hl, hr]
    rcases eq_or_ne j i with rfl | hj
    · rw [Function.update_self]
      exact iff_of_true ((hs.runs j).mpr hold) hnew
    · rw [Function.update_of_ne hj]
      exact hs.runs j

theorem launches_step {s t : Group} {a : Action} (hs : s.Launches) (h : Step s a t) :
    t.Launches := by
  cases h with
  | @launch i hrec =>
    have hpc : ∀ {β : Type} {f : Nat → β} {b z : β}, b ≠ z →
        (∀ j, j ∈ s.launched ↔ f j ≠ z) →
        ∀ j, j ∈ s.launched ++ [i] ↔ Function.update f i b j ≠ z := by
      intro β f b z hb hf j
      rw [List.mem_append, List.mem_singleton]
      rcases eq_or_ne j i with rfl | hj
      · rw [Function.update_self]
        exact iff_of_true (Or.inr rfl) hb
      · rw [Function.update_of_ne hj, ← hf j]
        simp [hj]
    exact ⟨hpc (by simp) hs.checks, hpc (by simp) hs.runs⟩
  | recvReady _ hpc => exact hs.setCheck (by rw [hpc]; simp) (by simp) rfl rfl rfl
  | check hpc =>
    refine hs.setCheck (by rw [hpc]; simp) ?_ rfl rfl rfl
    split <;> simp
  | runReturn hpc =>
    refine hs.setRun (by rw [hpc]; simp) ?_ rfl rfl rfl
    split <;> simp
  | recvRunErr hpc => exact hs.setRun (by rw [hpc]; simp) (by simp) rfl rfl rfl
  | wgDone hpc => exact hs.setRun (by rw [hpc]; simp) (by simp) rfl rfl rfl
  | _ => exact ⟨hs.checks, hs.runs⟩

/-! ## The entries of the start queue -/

/-- The start queue during the start phase. -/
structure Starting (s : Group) : Prop where
  nodup : s.startQueue.Nodup
  pending : ∀ i ∈ s.pending, i ∈ s.startQueue
  queued : ∀ i ∈ s.startQueue, i ∈ s.pending ∨ s.signalReady i = true
  sent : ∀ i, s.signalReady i = true → i ∈ s.startQueue ∨ (s.checks i = .done ∧ i ∈ s.launched)
  signalling : ∀ i, s.checks i = .signalling → s.signalReady i = true
  kept : ∀ i, s.signalReady i = true → i ∉ s.reported ∧ s.reconcile ≠ .report i
  drained : s.body.drained = true → s.startQueue = []
  closed : s.startReadyClosed = true → s.body = .done
  stopped : s.stopped = true → s.body = .done

theorem starting_init : newRunnableGroup.Starting := by
  refine ⟨List.nodup_nil, fun i hi => ?_, fun i hi => ?_, fun i hi => ?_, fun i hi => ?_,
    fun i hi => ?_, fun hb => ?_, fun hc => ?_, fun hst => ?_⟩
  · cases hi
  · cases hi
  · cases hi
  · cases hi
  · cases hi
  · cases hb
  · cases hc
  · cases hst

/-- Steps that touch neither the queue nor the readiness of its entries. -/
theorem Starting.frame {s t : Group} (hs : s.Starting) (hq : t.startQueue = s.startQueue)
    (hbody : t.body = s.body) (hsig : t.signalReady = s.signalReady) (hch : t.checks = s.checks)
    (hl : t.launched = s.launched) (hrep : t.reported = s.reported)
    (hrec : ∀ i, t.reconcile = .report i → s.reconcile = .report i ∨ s.signalReady i = false)
    (hcl : t.startReadyClosed = s.startReadyClosed)
    (hst : t.stopped = true → s.stopped = true ∨ s.body = .done) : t.Starting := by
  have hp : t.pending = s.pending := by
    unfold Group.pending
    rw [hbody, hq]
  refine ⟨?_, ?_, ?_, ?_, ?_, fun i hi => ?_, ?_, ?_, fun h => ?_⟩
  · rw [hq]
    exact hs.nodup
  · rw [hp, hq]
    exact hs.pending
  · rw [hp, hq, hsig]
    exact hs.queued
  · rw [hq, hsig, hch, hl]
    exact hs.sent
  · rw [hsig, hch]
    exact hs.signalling
  · rw [hsig] at hi
    rw [hrep]
    refine ⟨(hs.kept i hi).1, fun hr => ?_⟩
    rcases hrec i hr with hold | hno
    · exact (hs.kept i hi).2 hold
    · rw [hi] at hno
      cases hno
  · rw [hbody, hq]
    exact hs.drained
  · rw [hcl, hbody]
    exact hs.closed
  · rw [hbody]
    rcases hst h with hst | hdone
    · exact hs.stopped hst
    · exact hdone

/-- An entry that was sent and not received as ready keeps the body from returning. -/
theorem Starting.not_over {s : Group} (hs : s.Starting) {i : Nat} (hi : i ∈ s.startQueue) :
    s.body.drained = false := by
  cases hb : s.body.drained with
  | false => rfl
  | true =>
    rw [hs.drained hb] at hi
    cases hi

/-- What the reconciler holds was not launched so far. -/
theorem Accounts.not_launched {s : Group} (hs : s.Accounts) {i : Nat}
    (hi : s.reconcile.holds = some i) : i ∉ s.launched ∧ i ∉ s.reported := by
  have hcount := hs.count i
  have htrans : 1 ≤ s.inTransit i := by
    unfold inTransit
    rw [if_pos hi]
    omega
  have hle : (if s.adds i = .returned then 1 else 0) ≤ 1 := by
    split <;> omega
  exact ⟨fun hl => by have := List.count_pos_iff.mpr hl; omega,
    fun hr => by have := List.count_pos_iff.mpr hr; omega⟩

/-- An entry of the queue in the hand of the reconciler keeps the group from being stopped. -/
theorem Starting.not_stopped {s : Group} (hs : s.Starting) (ha : s.Accounts) {i : Nat}
    (hi : s.reconcile.holds = some i) (hsig : s.signalReady i = true) : s.stopped = false := by
  rcases hs.sent i hsig with hq | ⟨_, hl⟩
  · have hover := hs.not_over hq
    cases hst : s.stopped with
    | false => rfl
    | true =>
      rw [hs.stopped hst] at hover
      cases hover
  · exact absurd hl (ha.not_launched hi).1

theorem starting_reconcile {s t : Group} (ha : s.Accounts) (hs : s.Starting)
    (h : Step s .reconcile t) : t.Starting := by
  cases h with
  | exit hrec _ | rlock hrec _ | wgAdd hrec _ =>
    refine hs.frame rfl rfl rfl rfl rfl rfl (fun i hi => ?_) rfl Or.inl
    cases hi
  | @drop i hrec hst =>
    refine hs.frame rfl rfl rfl rfl rfl rfl (fun j hj => ?_) rfl Or.inl
    cases hj
    cases hsig : s.signalReady i with
    | false => exact Or.inr rfl
    | true =>
      rw [hs.not_stopped ha (by rw [hrec]; rfl) hsig] at hst
      cases hst
  | @launch i hrec =>
    have hholds : s.reconcile.holds = some i := by rw [hrec]; rfl
    refine ⟨hs.nodup, hs.pending, hs.queued, fun j hj => ?_, fun j hj => ?_, fun j hj => ?_,
      hs.drained, hs.closed, hs.stopped⟩
    · rcases hs.sent j hj with hq | ⟨hdone, hl⟩
      · exact Or.inl hq
      · have hne : j ≠ i := by
          rintro rfl
          exact (ha.not_launched hholds).1 hl
        refine Or.inr ⟨?_, List.mem_append_left _ hl⟩
        show Function.update s.checks i .checking j = .done
        rw [Function.update_of_ne hne]
        exact hdone
    · have hj' : Function.update s.checks i .checking j = .signalling := hj
      rcases eq_or_ne j i with rfl | hne
      · rw [Function.update_self] at hj'
        cases hj'
      · rw [Function.update_of_ne hne] at hj'
        exact hs.signalling j hj'
    · exact ⟨(hs.kept j hj).1, fun hr => by cases hr⟩

theorem starting_body {s t : Group} (hs : s.Starting) (h : Step s .body t) : t.Starting := by
  have hnever : ∀ {pc : BodyPc}, s.body = pc → pc ≠ .done → s.body ≠ .done := by
    rintro pc hb hne hdone
    exact hne (hb.symm.trans hdone)
  cases h with
  | bodySpawn hb =>
    exact ⟨hs.nodup, fun i hi => hi, fun i hi => Or.inl hi, hs.sent, hs.signalling,
      fun i hi => ⟨(hs.kept i hi).1, fun hr => by cases hr⟩, fun hover => (by cases hover),
      fun hc => absurd (hs.closed hc) (hnever hb (by simp)),
      fun hst => absurd (hs.stopped hst) (hnever hb (by simp))⟩
  | bodyLock hb _ =>
    exact ⟨hs.nodup, fun i hi => hi, fun i hi => Or.inl hi, hs.sent, hs.signalling, hs.kept,
      fun hover => (by cases hover), fun hc => absurd (hs.closed hc) (hnever hb (by simp)),
      fun hst => absurd (hs.stopped hst) (hnever hb (by simp))⟩
  | bodyUnlock hb =>
    have hp : s.pending = [] := by
      unfold Group.pending
      rw [hb]
      rfl
    have hp' : Group.pending { s with
        startMu := false
        body := if s.startQueue = [] then .close else .ready } = [] := by
      show (if s.startQueue = [] then BodyPc.close else BodyPc.ready).pending s.startQueue = []
      split <;> rfl
    refine ⟨hs.nodup, fun i hi => ?_, fun i hi => ?_, hs.sent, hs.signalling, hs.kept,
      fun hover => ?_, fun hc => absurd (hs.closed hc) (hnever hb (by simp)),
      fun hst => absurd (hs.stopped hst) (hnever hb (by simp))⟩
    · rw [hp'] at hi
      cases hi
    · rcases hs.queued i hi with hpend | hsig
      · rw [hp] at hpend
        cases hpend
      · exact Or.inr hsig
    · have hover' :
          (if s.startQueue = [] then BodyPc.close else BodyPc.ready).drained = true := hover
      split at hover'
      · assumption
      · cases hover'
  | bodyClose hb =>
    have hq : s.startQueue = [] := hs.drained (by rw [hb]; rfl)
    refine ⟨hs.nodup, fun i hi => ?_, fun i hi => ?_, hs.sent, hs.signalling, hs.kept,
      fun _ => hq, fun _ => rfl, fun _ => rfl⟩
    · cases hi
    · have hi' : i ∈ s.startQueue := hi
      rw [hq] at hi'
      cases hi'

/-- A call of `Add` puts its runnable into the queue of a group that is not started. -/
theorem starting_addQueue {s : Group} (ha : s.Accounts) (hs : s.Starting) {i : Nat}
    (hpc : s.adds i = .locked) (hst : s.started = false) :
    Starting { s.setAdd i .returned with
      startQueue := s.startQueue ++ [i]
      startMu := false } := by
  have hb : s.body.before = true := by
    have hstarted := ha.started
    rw [hst] at hstarted
    simpa using hstarted.symm
  have hpend : ∀ {u : Group}, u.body = s.body → u.pending = u.startQueue := by
    intro u hub
    unfold Group.pending
    rw [hub]
    cases hbody : s.body <;> first | rfl | (rw [hbody] at hb; cases hb)
  have hnot : s.body.drained = false := by
    cases hbody : s.body <;> first | rfl | (rw [hbody] at hb; cases hb)
  -- nothing of a runnable whose `Add` has not returned is in the queue
  have hnew : i ∉ s.startQueue := by
    intro hi
    have hcount := ha.count i
    have hin : 1 ≤ s.inTransit i := by
      have hmem : 1 ≤ s.pending.count i := by
        rw [hpend rfl]
        exact List.count_pos_iff.mpr hi
      unfold inTransit
      omega
    rw [if_neg (by rw [hpc]; simp)] at hcount
    omega
  have hmem : ∀ {j}, j ∈ s.startQueue → j ∈ s.startQueue ++ [i] := List.mem_append_left _
  refine ⟨?_, fun j hj => ?_, fun j hj => Or.inl ?_, fun j hj => ?_, hs.signalling, hs.kept,
    fun hover => ?_, hs.closed, hs.stopped⟩
  · refine List.nodup_append.mpr ⟨hs.nodup, by simp, fun j hj k hk => ?_⟩
    rw [List.mem_singleton.mp hk]
    rintro rfl
    exact hnew hj
  · exact (hpend (u := { s.setAdd i .returned with
      startQueue := s.startQueue ++ [i]
      startMu := false }) rfl) ▸ hj
  · exact (hpend (u := { s.setAdd i .returned with
      startQueue := s.startQueue ++ [i]
      startMu := false }) rfl).symm ▸ hj
  · exact (hs.sent j hj).imp hmem id
  · have hover' : s.body.drained = true := hover
    rw [hnot] at hover'
    cases hover'

/-- The body sends an entry of the queue to the reconciler. -/
theorem starting_recvQueue {s t : Group} (ha : s.Accounts) (hs : s.Starting)
    (h : Step s .recvQueue t) : t.Starting := by
  cases h with
  | @recvQueue i rest hrec hb hch =>
    have hp : s.pending = i :: rest := by
      unfold Group.pending
      rw [hb]
      rfl
    have hi : i ∈ s.startQueue := hs.pending i (by rw [hp]; exact List.mem_cons_self)
    -- an entry that was not sent so far was not reported
    have hnot : i ∉ s.reported := by
      intro hrep
      have hcount := ha.count i
      have hpos := List.count_pos_iff.mpr hrep
      have htrans : 1 ≤ s.inTransit i := by
        unfold inTransit
        rw [hp, List.count_cons_self]
        omega
      have hle : (if s.adds i = .returned then 1 else 0) ≤ 1 := by
        split <;> omega
      omega
    have hsig : ∀ {j}, Function.update s.signalReady i true j = true ↔
        j = i ∨ s.signalReady j = true := by
      intro j
      rcases eq_or_ne j i with rfl | hj
      · simp
      · rw [Function.update_of_ne hj]
        simp [hj]
    have hdone : s.body ≠ .done := by
      rw [hb]
      simp
    refine ⟨hs.nodup, fun j hj => ?_, fun j hj => ?_, fun j hj => ?_, fun j hj => ?_,
      fun j hj => ⟨?_, fun hr => by cases hr⟩, fun hover => (by cases hover),
      fun hc => absurd (hs.closed hc) hdone, fun hst => absurd (hs.stopped hst) hdone⟩
    · exact hs.pending j (by rw [hp]; exact List.mem_cons_of_mem _ hj)
    · rcases hs.queued j hj with hpend | hready
      · rw [hp] at hpend
        rcases List.mem_cons.mp hpend with rfl | hrest
        · exact Or.inr (hsig.mpr (Or.inl rfl))
        · exact Or.inl hrest
      · exact Or.inr (hsig.mpr (Or.inr hready))
    · rcases hsig.mp hj with rfl | hready
      · exact Or.inl hi
      · exact hs.sent j hready
    · exact hsig.mpr (Or.inr (hs.signalling j hj))
    · rcases hsig.mp hj with rfl | hready
      · exact hnot
      · exact (hs.kept j hready).1

/-- The body receives the readiness of an entry and takes it out of the queue. -/
theorem starting_recvReady {s t : Group} {i : Nat} (hs : s.Starting)
    (hl : s.checks i = .signalling → i ∈ s.launched) (h : Step s (.recvReady i) t) :
    t.Starting := by
  cases h with
  | recvReady hb hpc =>
    have hdone : s.body ≠ .done := by
      rw [hb]
      simp
    have hp : s.pending = [] := by
      unfold Group.pending
      rw [hb]
      rfl
    have hp' : (if s.startQueue.erase i = [] then BodyPc.close else BodyPc.ready).pending
        (s.startQueue.erase i) = [] := by
      split <;> rfl
    have hupd : ∀ {j : Nat}, j ≠ i → Function.update s.checks i .done j = s.checks j :=
      fun hj => Function.update_of_ne hj ..
    refine ⟨hs.nodup.erase i, fun j hj => ?_, fun j hj => Or.inr ?_, fun j hj => ?_, fun j hj => ?_,
      hs.kept, fun hover => ?_, fun hc => absurd (hs.closed hc) hdone,
      fun hst => absurd (hs.stopped hst) hdone⟩
    · have hj' : j ∈ (if s.startQueue.erase i = [] then BodyPc.close else BodyPc.ready).pending
        (s.startQueue.erase i) := hj
      rw [hp'] at hj'
      cases hj'
    · rcases hs.queued j (List.mem_of_mem_erase hj) with hpend | hsig
      · rw [hp] at hpend
        cases hpend
      · exact hsig
    · rcases eq_or_ne j i with rfl | hne
      · exact Or.inr ⟨Function.update_self .., hl hpc⟩
      · refine (hs.sent j hj).imp (List.mem_erase_of_ne hne).mpr fun hpast => ⟨?_, hpast.2⟩
        exact (hupd hne).trans hpast.1
    · rcases eq_or_ne j i with rfl | hne
      · exact hs.signalling j hpc
      · exact hs.signalling j ((hupd hne).symm.trans hj)
    · have hover' :
          (if s.startQueue.erase i = [] then BodyPc.close else BodyPc.ready).drained = true := hover
      split at hover'
      · assumption
      · cases hover'

theorem starting_step {s t : Group} {a : Action} (ha : s.Accounts) (hl : s.Launches)
    (hp : s.Stopping) (hs : s.Starting) (h : Step s a t) : t.Starting := by
  have hframe : ∀ {u : Group}, u.reconcile = s.reconcile → ∀ i, u.reconcile = .report i →
      s.reconcile = .report i ∨ s.signalReady i = false :=
    fun hu i hi => Or.inl (hu ▸ hi)
  cases a with
  | body => exact starting_body hs h
  | reconcile => exact starting_reconcile ha hs h
  | recvQueue => exact starting_recvQueue ha hs h
  | recvReady i =>
    exact starting_recvReady hs (fun hpc => (hl.checks i).mpr (by rw [hpc]; simp)) h
  | add i =>
    cases h with
    | addQueue hpc hst => exact starting_addQueue ha hs hpc hst
    | _ => exact hs.frame rfl rfl rfl rfl rfl rfl (hframe rfl) rfl Or.inl
  | call c =>
    cases h with
    | startOnce _ hb =>
      have hpend : s.pending = s.startQueue := by
        unfold Group.pending
        rw [hb]
        rfl
      have hdone : s.body ≠ .done := by
        rw [hb]
        simp
      exact ⟨hs.nodup, fun i hi => hi, fun i hi => Or.inl hi, hs.sent, hs.signalling, hs.kept,
        fun hover => (by cases hover), fun hc => absurd (hs.closed hc) hdone,
        fun hst => absurd (hs.stopped hst) hdone⟩
    | stopSet hpc =>
      exact hs.frame rfl rfl rfl rfl rfl rfl (hframe rfl) rfl
        fun _ => Or.inr (hp.body c (by rw [hpc]; rfl))
    | _ => exact hs.frame rfl rfl rfl rfl rfl rfl (hframe rfl) rfl Or.inl
  | recvAdd i =>
    cases h with
    | recvAdd hrec hpc hch =>
      refine hs.frame rfl rfl rfl rfl rfl rfl (fun j hj => ?_) rfl Or.inl
      cases hj
  | recvReport =>
    cases h with
    | @recvReport i hrec =>
      refine ⟨hs.nodup, hs.pending, hs.queued, hs.sent, hs.signalling, fun j hj => ⟨?_, ?_⟩,
        hs.drained, hs.closed, hs.stopped⟩
      · intro hmem
        rcases List.mem_append.mp hmem with hold | hnew
        · exact (hs.kept j hj).1 hold
        · rw [List.mem_singleton.mp hnew] at hj
          exact (hs.kept i hj).2 hrec
      · intro hr
        cases hr
  | check i ok =>
    cases h with
    | check hpc =>
      refine ⟨hs.nodup, hs.pending, hs.queued, fun j hj => ?_, fun j hj => ?_, hs.kept, hs.drained,
        hs.closed, hs.stopped⟩
      · refine (hs.sent j hj).imp id fun hpast => ⟨?_, hpast.2⟩
        have hne : j ≠ i := by
          rintro rfl
          rw [hpc] at hpast
          cases hpast.1
        show Function.update s.checks i _ j = _
        rw [Function.update_of_ne hne]
        exact hpast.1
      · have hj' : Function.update s.checks i
            (if ok && s.signalReady i then CheckPc.signalling else .done) j = .signalling := hj
        rcases eq_or_ne j i with rfl | hne
        · rw [Function.update_self] at hj'
          split at hj'
          · rename_i hok
            exact (Bool.and_eq_true_iff.mp hok).2
          · cases hj'
        · rw [Function.update_of_ne hne] at hj'
          exact hs.signalling j hj'
  | _ => cases h <;> exact hs.frame rfl rfl rfl rfl rfl rfl (hframe rfl) rfl Or.inl

/-- The entries of the queue are those of calls of `Add` that returned nil. -/
def QueueAdded (s : Group) : Prop := ∀ i ∈ s.startQueue, s.adds i = .returned

theorem queueAdded_step {s t : Group} {a : Action} (hs : s.QueueAdded) (h : Step s a t) :
    t.QueueAdded := by
  have hset : ∀ {j : Nat} {pc : AddPc}, s.adds j ≠ .returned →
      ∀ i ∈ s.startQueue, Function.update s.adds j pc i = .returned := by
    intro j pc hj i hi
    have hij : i ≠ j := by
      rintro rfl
      exact hj (hs i hi)
    rw [Function.update_of_ne hij]
    exact hs i hi
  cases h with
  | addBegin hpc | addRlock hpc _ | addRefuse hpc _ | addPass hpc _ | addLock hpc _
  | addStarted hpc _ | recvAdd _ hpc _ => exact hset (by rw [hpc]; simp)
  | @addQueue j hpc _ =>
    intro i hi
    rcases List.mem_append.mp hi with hold | hnew
    · exact hset (by rw [hpc]; simp) i hold
    · rw [List.mem_singleton.mp hnew]
      exact Function.update_self ..
  | recvReady _ _ => exact fun i hi => hs i (List.mem_of_mem_erase hi)
  | _ => exact hs

/-! ## Runs -/

/-- What the invariants of the start phase need. -/
structure Phase (s : Group) : Prop where
  accounts : s.Accounts
  launches : s.Launches
  stopping : s.Stopping
  starting : s.Starting
  added : s.QueueAdded

theorem phase_step {s t : Group} {a : Action} (hs : s.Phase) (h : Step s a t) : t.Phase :=
  ⟨accounts_step hs.accounts h, launches_step hs.launches h, stopping_step hs.stopping h,
    starting_step hs.accounts hs.launches hs.stopping hs.starting h, queueAdded_step hs.added h⟩

theorem phase_run {as : List Action} {s : Group}
    (h : Trace.run step newRunnableGroup as = some s) : s.Phase :=
  Trace.run_invariant (I := Phase) (fun _ _ _ hs ht => phase_step hs (step_iff.mp ht).2)
    ⟨accounts_init, launches_init, stopping_init, starting_init, fun i hi => by cases hi⟩ h

/-- Runnable `i` is in the start queue, or its entry was sent to the reconciler. -/
def Queued (s : Group) (i : Nat) : Prop := i ∈ s.startQueue ∨ s.signalReady i = true

theorem queued_step {s t : Group} {a : Action} {i : Nat} (hs : s.Starting) (h : Step s a t)
    (hi : s.Queued i) : t.Queued i := by
  cases h with
  | addQueue _ _ => exact hi.imp_left (List.mem_append_left _)
  | @recvReady j _ hpc =>
    rcases hi with hq | hsig
    · rcases eq_or_ne i j with rfl | hne
      · exact Or.inr (hs.signalling i hpc)
      · exact Or.inl ((List.mem_erase_of_ne hne).mpr hq)
    · exact Or.inr hsig
  | @recvQueue j _ _ _ _ =>
    refine hi.imp id fun hsig => ?_
    show Function.update s.signalReady j true i = true
    rcases eq_or_ne i j with rfl | hne
    · rw [Function.update_self]
    · rw [Function.update_of_ne hne]
      exact hsig
  | _ => exact hi

/-- An entry leaves the queue only when its readiness is received. -/
theorem mem_startQueue_step {s t : Group} {a : Action} {i : Nat} (h : Step s a t)
    (hi : i ∈ s.startQueue) : i ∈ t.startQueue ∨ a = .recvReady i := by
  cases h with
  | addQueue _ _ => exact Or.inl (List.mem_append_left _ hi)
  | @recvReady j _ _ =>
    rcases eq_or_ne i j with rfl | hne
    · exact Or.inr rfl
    · exact Or.inl ((List.mem_erase_of_ne hne).mpr hi)
  | _ => exact Or.inl hi

theorem mem_startQueue_run {cs : List Action} {i : Nat} :
    ∀ {s t : Group}, Trace.run step s cs = some t → i ∈ s.startQueue →
      i ∈ t.startQueue ∨ Action.recvReady i ∈ cs := by
  induction cs with
  | nil =>
    intro s t h hi
    cases h
    exact Or.inl hi
  | cons a cs ih =>
    intro s t h hi
    obtain ⟨u, hu, hrun⟩ := Trace.run_cons_eq_some.mp h
    rcases mem_startQueue_step (step_iff.mp hu).2 hi with hmem | rfl
    · exact (ih hrun hmem).imp_right (List.mem_cons_of_mem a)
    · exact Or.inr List.mem_cons_self

/-- An entry of the start queue is not reported as dropped. -/
theorem Phase.not_reported {s : Group} (hs : s.Phase) {i : Nat} (hi : s.Queued i) :
    i ∉ s.reported := by
  have hsent : s.signalReady i = true → i ∉ s.reported := fun hsig => (hs.starting.kept i hsig).1
  rcases hi with hq | hsig
  · rcases hs.starting.queued i hq with hpend | hsig
    · intro hrep
      have hcount := hs.accounts.count i
      have hpos := List.count_pos_iff.mpr hrep
      have hpend' := List.count_pos_iff.mpr hpend
      have hle : (if s.adds i = .returned then 1 else 0) ≤ 1 := by
        split <;> omega
      unfold inTransit at hcount
      omega
    · exact hsent hsig
  · exact hsent hsig

/-- When the body of `startOnce` returns, an entry of the queue was launched once. -/
theorem Phase.launched_once {s : Group} (hs : s.Phase) {i : Nat} (hi : s.Queued i)
    (hover : s.body.drained = true) : s.launched.count i = 1 := by
  have hempty := hs.starting.drained hover
  have hnot : i ∉ s.startQueue := by
    rw [hempty]
    exact List.not_mem_nil
  have hsig : s.signalReady i = true := hi.resolve_left hnot
  have hmem : i ∈ s.launched := ((hs.starting.sent i hsig).resolve_left hnot).2
  have hpos := List.count_pos_iff.mpr hmem
  have hcount := hs.accounts.count i
  have hle : (if s.adds i = .returned then 1 else 0) ≤ 1 := by
    split <;> omega
  omega

/-- **Start.** In every run, an entry that was in the start queue is never reported as dropped, and
when the body of `startOnce` returns it was launched once and its readiness was received; receiving
the readiness of a runnable takes its entry and no other out of the queue; and nobody is at a send
on `startReadyCh` after it was closed. -/
theorem start_phase (as : List Action) (s : Group)
    (h : Trace.run step newRunnableGroup as = some s) :
    (∀ bs cs s₀ i, as = bs ++ cs → Trace.run step newRunnableGroup bs = some s₀ →
      i ∈ s₀.startQueue →
        i ∉ s.reported ∧
          (s.body.drained = true → s.launched.count i = 1 ∧ Action.recvReady i ∈ cs)) ∧
    (∀ i t, step s (.recvReady i) = some t →
      i ∈ s.startQueue ∧ ∀ j, j ∈ t.startQueue ↔ j ≠ i ∧ j ∈ s.startQueue) ∧
    ∀ i, s.checks i = .signalling → s.startReadyClosed = false := by
  have hs := phase_run h
  have hsignal : ∀ i, s.checks i = .signalling → i ∈ s.startQueue := by
    intro i hpc
    rcases hs.starting.sent i (hs.starting.signalling i hpc) with hq | ⟨hdone, _⟩
    · exact hq
    · rw [hpc] at hdone
      cases hdone
  refine ⟨?_, fun i t ht => ?_, fun i hpc => ?_⟩
  · rintro bs cs s₀ i rfl h₀ hi
    rw [Trace.run_append_of_eq h₀] at h
    have hq : s.Queued i := by
      refine (Trace.run_invariant (I := fun s => s.Phase ∧ s.Queued i) ?_
        ⟨phase_run h₀, Or.inl hi⟩ h).2
      intro u a v hu hv
      have hstep := (step_iff.mp hv).2
      exact ⟨phase_step hu.1 hstep, queued_step hu.1.starting hstep hu.2⟩
    refine ⟨hs.not_reported hq, fun hover => ⟨hs.launched_once hq hover, ?_⟩⟩
    refine (mem_startQueue_run h hi).resolve_left ?_
    rw [hs.starting.drained hover]
    exact List.not_mem_nil
  · cases (step_iff.mp ht).2 with
    | recvReady hb hpc =>
      exact ⟨hsignal i hpc, fun j => hs.starting.nodup.mem_erase_iff⟩
  · cases hc : s.startReadyClosed with
    | false => rfl
    | true =>
      have hempty := hs.starting.drained (by rw [hs.starting.closed hc]; rfl)
      have hmem := hsignal i hpc
      rw [hempty] at hmem
      cases hmem

/-- Two runnables are queued. -/
def queueTwo : List Action :=
  [.add 0, .add 0, .add 0, .add 0, .add 0, .add 1, .add 1, .add 1, .add 1, .add 1]

/-- A `StopAndWait` starts the group, and the check of the second runnable comes first. -/
def startTwo : List Action :=
  [.callStop 0, .call 0, .call 0, .body, .body,
    .recvQueue, .reconcile, .reconcile, .reconcile, .recvQueue, .reconcile, .reconcile, .reconcile,
    .body, .check 1 true]

/-- The second runnable is ready, and returns, before the first. -/
def readyTwo : List Action :=
  [.recvReady 1, .runReturn 1 false, .check 0 true, .recvReady 0, .body, .runReturn 0 false]

theorem start_phase_outOfOrder : ∃ s u t,
    Trace.run step newRunnableGroup (queueTwo ++ (startTwo ++ readyTwo)) = some s ∧
    s.body = .done ∧ (∀ i ∈ [0, 1], i ∉ s.reported ∧ s.launched.count i = 1 ∧
      Action.recvReady i ∈ startTwo ++ readyTwo) ∧
    Trace.run step newRunnableGroup (queueTwo ++ startTwo) = some u ∧
    step u (.recvReady 1) = some t ∧ ∀ j, j ∈ t.startQueue ↔ j ≠ 1 ∧ j ∈ u.startQueue := by
  have hobs : (Trace.run step newRunnableGroup (queueTwo ++ (startTwo ++ readyTwo))).map
      (fun s => s.body) = some BodyPc.done := by decide
  have hqueue : (Trace.run step newRunnableGroup queueTwo).map (fun s => s.startQueue) =
      some [0, 1] := by decide
  have hready : (Trace.run step newRunnableGroup (queueTwo ++ startTwo ++ [.recvReady 1])).isSome :=
    by decide
  obtain ⟨s, hs, hbody⟩ := Option.map_eq_some_iff.mp hobs
  obtain ⟨s₀, h₀, hq⟩ := Option.map_eq_some_iff.mp hqueue
  obtain ⟨t, ht⟩ := Option.isSome_iff_exists.mp hready
  obtain ⟨u, hu, hstep⟩ := Trace.run_append_eq_some.mp ht
  have hfirst : step u (.recvReady 1) = some t := by simpa [Trace.run] using hstep
  refine ⟨s, u, t, hs, hbody, fun i hi => ?_, hu, hfirst, ((start_phase _ u hu).2.1 1 t hfirst).2⟩
  have hphase := (start_phase _ s hs).1 queueTwo (startTwo ++ readyTwo) s₀ i rfl h₀ (hq ▸ hi)
  exact ⟨hphase.1, hphase.2 (by rw [hbody]; rfl)⟩

end Group

end EDGuard
