import EDGuard.ManagerInv

/-!
# A clean shutdown

* `Logged` — what was invoked, failed and received agrees with where the goroutines of the runnables
  stand.
* `Settled` — `shutdownCtx` is cancelled, rather than expired, only after every group has come to
  rest; a `StopAndWait` that its context cuts short shows as `DeadlineExceeded`.
* `shutdown_clean` — when `shutdown` returns nil, everything that was invoked has returned, every
  error was received once, and nothing is started any more.
-/

set_option autoImplicit false

namespace EDGuard

/-! ## The goroutines of the runnables -/

/-- A goroutine stays, starts, or ends; it neither returns from `Start` nor is heard on `errCh`. -/
def RunPc.Silent (pc pc' : RunPc) : Prop :=
  pc' = pc ∨ pc = .idle ∧ pc' = .running ∨ pc = .finishing ∧ pc' = .done

/-- How often the `Start` of a runnable that stands at the place has failed and was heard, and
whether it was invoked. -/
def RunPc.Logged (invoked : Prop) (failed received : Nat) : RunPc → Prop
  | .idle => ¬ invoked ∧ failed = 0 ∧ received = 0
  | .running => failed = 0 ∧ received = 0
  | .sendErr => invoked ∧ failed = 1 ∧ received = 0
  | .finishing | .done => invoked ∧ failed = received ∧ failed ≤ 1

theorem RunPc.Logged.silent {pc pc' : RunPc} {invoked : Prop} {failed received : Nat}
    (h : pc.Logged invoked failed received) (hpc : pc.Silent pc') :
    pc'.Logged invoked failed received := by
  rcases hpc with rfl | ⟨rfl, rfl⟩ | ⟨rfl, rfl⟩
  · exact h
  · exact h.2
  · exact h

namespace Group

/-- A runnable returns, or is heard on `errCh`. -/
def Action.heard : Action → Bool
  | .runReturn _ _ | .recvRunErr _ => true
  | _ => false

theorem silent_step {s t : Group} {a : Action} (hs : s.Phase) (ha : a.heard = false)
    (h : Step s a t) (i : Nat) : (s.runs i).Silent (t.runs i) := by
  cases h with
  | @launch j hrec =>
    show (s.runs i).Silent (Function.update s.runs j .running i)
    rcases eq_or_ne i j with rfl | hij
    · have hidle : s.runs i = .idle := by
        by_contra hne
        exact (hs.accounts.not_launched (by rw [hrec]; rfl)).1 ((hs.launches.runs i).mpr hne)
      exact Or.inr (Or.inl ⟨hidle, Function.update_self ..⟩)
    · exact Or.inl (Function.update_of_ne hij ..)
  | @wgDone j hpc =>
    show (s.runs i).Silent (Function.update s.runs j .done i)
    rcases eq_or_ne i j with rfl | hij
    · exact Or.inr (Or.inr ⟨hpc, Function.update_self ..⟩)
    · exact Or.inl (Function.update_of_ne hij ..)
  | runReturn _ | recvRunErr _ => cases ha
  | _ => exact Or.inl rfl

/-- **`reconcile` does no `wg.Add` once `stopped` is set.** -/
theorem wg_step {s t : Group} {a : Action} (hs : s.stopped = true) (h : Step s a t) :
    t.wg ≤ s.wg := by
  cases h with
  | wgAdd _ hst =>
    rw [hs] at hst
    cases hst
  | wgDone _ => exact Nat.sub_le _ _
  | _ => exact Nat.le_refl _

end Group

namespace TaskManager

/-! ## What was invoked, failed and received -/

/-- The records agree with the goroutine of a runnable. -/
def LoggedAt (s : TaskManager) (p : GroupName × Nat) : Prop :=
  ((s.groups p.1).runs p.2).Logged (p ∈ s.invoked) (s.failed.count p) (s.received.count p)

def Logged (s : TaskManager) : Prop := ∀ p, s.LoggedAt p

/-- Steps in which no `Start` is invoked or returns and no error is received. -/
theorem Logged.frame {s t : TaskManager} (hs : s.Logged)
    (hr : ∀ g i, ((s.groups g).runs i).Silent ((t.groups g).runs i))
    (hi : t.invoked = s.invoked) (hf : t.failed = s.failed) (hrec : t.received = s.received) :
    t.Logged := by
  intro p
  unfold LoggedAt
  rw [hi, hf, hrec]
  exact (hs p).silent (hr p.1 p.2)

/-- A step that the records tell of one runnable. -/
theorem Logged.one {s t : TaskManager} (hs : s.Logged) {p : GroupName × Nat} {pc : RunPc}
    (hp : pc.Logged (p ∈ t.invoked) (t.failed.count p) (t.received.count p))
    (hr : ∀ q, (t.groups q.1).runs q.2 = if q = p then pc else (s.groups q.1).runs q.2)
    (hi : ∀ q, q ≠ p → (q ∈ t.invoked ↔ q ∈ s.invoked))
    (hf : ∀ q, q ≠ p → t.failed.count q = s.failed.count q)
    (hrec : ∀ q, q ≠ p → t.received.count q = s.received.count q) : t.Logged := by
  intro q
  unfold LoggedAt
  rw [hr q]
  rcases eq_or_ne q p with rfl | hq
  · rw [if_pos rfl]
    exact hp
  · rw [if_neg hq, propext (hi q hq), hf q hq, hrec q hq]
    exact hs q

theorem logged_init (tasks : List Runnable) (reader : Bool) : (init tasks reader).Logged := by
  rw [init_eq]
  intro p
  exact ⟨List.not_mem_nil, rfl, rfl⟩

theorem silent_setGroup {s : TaskManager} {g : GroupName} {b : Group.Action} {u : Group}
    (hs : s.Managed) (hu : Group.step (s.groups g) b = some u) (hb : b.heard = false)
    (g' : GroupName) (i : Nat) :
    ((s.groups g').runs i).Silent ((Function.update s.groups g u g').runs i) := by
  rcases eq_or_ne g' g with rfl | hg
  · rw [Function.update_self]
    exact Group.silent_step (hs.reachable g').phase hb (Group.step_iff.mp hu).2 i
  · rw [Function.update_of_ne hg]
    exact Or.inl rfl

/-- The goroutine of runnable `i` of group `g` moves. -/
theorem runs_setGroup {s : TaskManager} {g : GroupName} {i : Nat} {pc : RunPc} {u : Group}
    (hu : u.runs = Function.update (s.groups g).runs i pc) (q : GroupName × Nat) :
    (Function.update s.groups g u q.1).runs q.2 =
      if q = (g, i) then pc else (s.groups q.1).runs q.2 := by
  obtain ⟨g', j⟩ := q
  rcases eq_or_ne g' g with rfl | hg
  · rw [Function.update_self, hu]
    rcases eq_or_ne j i with rfl | hj
    · rw [Function.update_self, if_pos rfl]
    · rw [Function.update_of_ne hj, if_neg (by simpa using hj)]
  · rw [Function.update_of_ne hg, if_neg (by simp [hg])]

theorem count_append_of_ne {p q : GroupName × Nat} (h : q ≠ p) (l : List (GroupName × Nat)) :
    (l ++ [p]).count q = l.count q := by
  rw [List.count_append, List.count_singleton, if_neg (by simpa using Ne.symm h)]
  rfl

theorem count_append_self (p : GroupName × Nat) (l : List (GroupName × Nat)) :
    (l ++ [p]).count p = l.count p + 1 := by
  rw [List.count_append, List.count_singleton_self]

theorem logged_invoke {s : TaskManager} {g : GroupName} {i : Nat} (hs : s.Logged)
    (hrun : (s.groups g).runs i = .running) :
    Logged { s with invoked := s.invoked ++ [(g, i)] } := by
  have hold := hs (g, i)
  unfold LoggedAt at hold
  rw [hrun] at hold
  have hnew : RunPc.running.Logged ((g, i) ∈ s.invoked ++ [(g, i)]) (s.failed.count (g, i))
      (s.received.count (g, i)) := hold
  refine hs.one hnew (fun q => ?_) (fun q hq => ?_) (fun _ _ => rfl) fun _ _ => rfl
  · split
    · rename_i hq
      rw [hq]
      exact hrun
    · rfl
  · show q ∈ s.invoked ++ [(g, i)] ↔ q ∈ s.invoked
    rw [List.mem_append, List.mem_singleton]
    exact or_iff_left hq

theorem logged_runReturn {s : TaskManager} {g : GroupName} {i : Nat} {err : Bool} {u : Group}
    (hs : s.Logged) (hi : (g, i) ∈ s.invoked)
    (hu : Group.step (s.groups g) (.runReturn i err) = some u) :
    Logged { s.setGroup g u with
      failed := if err then s.failed ++ [(g, i)] else s.failed } := by
  have hold := hs (g, i)
  unfold LoggedAt at hold
  cases (Group.step_iff.mp hu).2 with
  | runReturn hpc =>
    rw [hpc] at hold
    refine hs.one ?_ (runs_setGroup rfl) (fun _ _ => Iff.rfl) (fun q hq => ?_) fun _ _ => rfl
    · cases err with
      | true =>
        refine ⟨hi, ?_, hold.2⟩
        show (s.failed ++ [(g, i)]).count (g, i) = 1
        rw [count_append_self, hold.1]
      | false =>
        refine ⟨hi, hold.1.trans hold.2.symm, ?_⟩
        show s.failed.count (g, i) ≤ 1
        rw [hold.1]
        exact Nat.zero_le _
    · cases err with
      | true => exact count_append_of_ne hq s.failed
      | false => rfl

theorem logged_recvRunErr {s u : TaskManager} {r : Receiver} {g : GroupName} {i : Nat} {v : Group}
    (hs : s.Logged) (hr : s.receive r = some u)
    (hv : Group.step (s.groups g) (.recvRunErr i) = some v) :
    Logged { u.setGroup g v with received := s.received ++ [(g, i)] } := by
  have hold := hs (g, i)
  unfold LoggedAt at hold
  cases (Group.step_iff.mp hv).2 with
  | recvRunErr hpc =>
    rw [hpc] at hold
    have hcount : (s.received ++ [(g, i)]).count (g, i) = 1 := by
      rw [count_append_self, hold.2.2]
    have hnew : RunPc.finishing.Logged ((g, i) ∈ s.invoked) (s.failed.count (g, i))
        ((s.received ++ [(g, i)]).count (g, i)) :=
      ⟨hold.1, hold.2.1.trans hcount.symm, Nat.le_of_eq hold.2.1⟩
    rcases receive_cases hr with ⟨_, _, rfl⟩ | ⟨_, _, rfl⟩ <;>
      exact hs.one hnew (runs_setGroup rfl) (fun _ _ => Iff.rfl) (fun _ _ => rfl)
        fun q hq => count_append_of_ne hq _

theorem logged_step {s t : TaskManager} {a : Action} (hs : s.Managed) (hl : s.Logged)
    (h : Step s a t) : t.Logged := by
  cases h with
  | callStart _ hu | inStart _ _ hu | callStop _ hu | inStop _ _ hu | check hu =>
    exact hl.frame (silent_setGroup hs hu rfl) rfl rfl rfl
  | @group g b u hb hu =>
    refine hl.frame (silent_setGroup hs hu ?_) rfl rfl rfl
    cases b <;> first | rfl | cases hb
  | invoke hrun _ => exact logged_invoke hl hrun
  | runReturn hi hu => exact logged_runReturn hl hi hu
  | recvRunErr hr hv => exact logged_recvRunErr hl hr hv
  | recvReport hr hv =>
    rcases receive_cases hr with ⟨_, _, rfl⟩ | ⟨_, _, rfl⟩ <;>
      exact hl.frame (silent_setGroup hs hv rfl) rfl rfl rfl
  | drainCancel _ | cancel _ =>
    unfold internalCancel
    split <;> exact hl.frame (fun _ _ => Or.inl rfl) rfl rfl rfl
  | stopCancel _ | timeout _ _ =>
    unfold shutdownCancel
    split <;> exact hl.frame (fun _ _ => Or.inl rfl) rfl rfl rfl
  | _ => exact hl.frame (fun _ _ => Or.inl rfl) rfl rfl rfl

/-! ## Why `shutdownCtx` is done -/

end TaskManager

/-- The groups whose `StopAndWait` has returned. -/
def StopPc.past : StopPc → GroupName → Bool
  | .off, _ | .call .caches, _ | .inside .caches, _ => false
  | .call .bpfPrograms, g | .inside .bpfPrograms, g => decide (g = .caches)
  | .call .pumps, g | .inside .pumps, g => decide (g ≠ .pumps)
  | .cancel, _ | .done, _ => true

theorem StopPc.past_next {g g' : GroupName} (h : (StopPc.next g).past g' = true) :
    (StopPc.inside g).past g' = true ∨ g' = g := by
  cases g <;> cases g' <;> revert h <;> decide

namespace TaskManager

/-- What a cancelled `shutdownCtx` and a nil result of `shutdown` say. -/
structure Settled (s : TaskManager) : Prop where
  past : ∀ g, s.stop.past g = true → (s.groups g).calls 1 = .returned
  quiet : s.shutdownErr = some .canceled → ∀ g, (s.groups g).Quiet
  clean : s.main = .returned true → s.shutdownErr = some .canceled

/-- A call of a group that has returned has done so for good. -/
theorem returned_groups {s t : TaskManager} {a : Action} (hs : s.Managed) (hc : s.crashed = false)
    (h : Step s a t) {g : GroupName} {c : Nat} (hg : (s.groups g).calls c = .returned) :
    (t.groups g).calls c = .returned := by
  rcases groups_step hs hc h g with heq | ⟨b, _, hb⟩
  · rwa [heq]
  · exact Group.returned_step hg (Group.step_iff.mp hb).2

theorem past_step {s t : TaskManager} {a : Action} (hs : s.Managed) (hc : s.crashed = false)
    (hset : s.Settled) (h : Step s a t) {g : GroupName} (hg : t.stop.past g = true) :
    (t.groups g).calls 1 = .returned := by
  refine returned_groups hs hc h ?_
  cases h with
  | shutdown _ => cases hg
  | @callStop g' u hpc _ =>
    refine hset.past g ?_
    rw [hpc]
    cases g' <;> exact hg
  | @stopReturned g' hpc hret =>
    rcases StopPc.past_next hg with hpast | rfl
    · exact hset.past g (by rwa [hpc])
    · exact hret
  | stopCancel hpc =>
    refine hset.past g ?_
    rw [hpc]
    rfl
  | recvReport hr _ | recvRunErr hr _ =>
    rcases receive_cases hr with ⟨_, _, rfl⟩ | ⟨_, _, rfl⟩ <;> exact hset.past g hg
  | drainCancel _ | cancel _ | timeout _ _ => exact hset.past g (by simpa using hg)
  | _ => exact hset.past g hg

/-- `shutdownCtx` stays as it is, expires, or is cancelled by the goroutine that stops the
groups. -/
theorem shutdownErr_step {s t : TaskManager} {a : Action} (h : Step s a t) :
    t.shutdownErr = s.shutdownErr ∨ t.shutdownErr = some .deadlineExceeded ∨
      s.stop = .cancel ∧ s.shutdownErr = none := by
  cases h with
  | drainCancel _ | cancel _ => exact Or.inl (by simp)
  | stopCancel hpc =>
    unfold shutdownCancel
    split
    · exact Or.inr (Or.inr ⟨hpc, ‹_›⟩)
    · exact Or.inl rfl
  | timeout _ hnone =>
    unfold shutdownCancel
    rw [if_pos hnone]
    exact Or.inr (Or.inl rfl)
  | recvReport hr _ | recvRunErr hr _ =>
    rcases receive_cases hr with ⟨_, _, rfl⟩ | ⟨_, _, rfl⟩ <;> exact Or.inl rfl
  | _ => exact Or.inl rfl

theorem quiet_groups {s t : TaskManager} {a : Action} (hs : s.Managed) (hc : s.crashed = false)
    (hq : ∀ g, (s.groups g).Quiet) (h : Step s a t) (g : GroupName) : (t.groups g).Quiet :=
  forall_groups_step hs hc hq (fun g _ _ _ hu => Group.quiet_step (hq g) hu) h g

theorem settled_step {s t : TaskManager} {a : Action} (hs : s.Managed) (hc : s.crashed = false)
    (hset : s.Settled) (h : Step s a t) : t.Settled := by
  refine ⟨fun g => past_step hs hc hset h, fun hx => ?_, fun hm => ?_⟩
  · rcases shutdownErr_step h with heq | hdead | ⟨hpc, hnone⟩
    · exact quiet_groups hs hc (hset.quiet (heq.symm.trans hx)) h
    · rw [hdead] at hx
      cases hx
    · -- every `StopAndWait` has returned, and none because its context was done
      refine quiet_groups hs hc (fun g => hs.stopsQuiet g ?_ (Or.inr ?_)) h
      · exact (hs.shutdown g).trans hnone
      · exact hset.past g (by rw [hpc]; rfl)
  · -- a `shutdownCtx` that is done stays as it is
    have hkeep : s.main = .returned true → t.shutdownErr = some .canceled := by
      intro hm'
      have hold := hset.clean hm'
      cases h with
      | drainCancel _ | cancel _ => simpa using hold
      | stopCancel _ | timeout _ _ =>
        unfold shutdownCancel
        rw [if_neg (by rw [hold]; simp)]
        exact hold
      | recvReport hr _ | recvRunErr hr _ =>
        rcases receive_cases hr with ⟨_, _, rfl⟩ | ⟨_, _, rfl⟩ <;> exact hold
      | _ => exact hold
    cases h with
    | @shutdownReturned err _ herr =>
      cases err with
      | canceled => exact herr
      | deadlineExceeded => cases hm
    | callStart _ _ | shutdown _ | seeDone _ _ => cases hm
    | @startReturned g hpc hret =>
      cases g <;> cases hx : (s.groups _).startErr <;> simp [StartPc.next, hx] at hm
    | recvReport hr _ | recvRunErr hr _ =>
      rcases receive_cases hr with ⟨_, _, rfl⟩ | ⟨_, _, rfl⟩
      · cases hm
      · exact hkeep hm
    | drainCancel _ | cancel _ | stopCancel _ | timeout _ _ => exact hkeep (by simpa using hm)
    | _ => exact hkeep hm

theorem settled_init (tasks : List Runnable) (reader : Bool) : (init tasks reader).Settled := by
  rw [init_eq]
  refine ⟨fun g h => (by cases h), fun h => (by cases h), fun h => ?_⟩
  cases reader <;> cases h

/-! ## The shutdown -/

structure Shutting (s : TaskManager) : Prop where
  managed : s.Managed
  logged : s.Logged
  settled : s.Settled

theorem shutting_step {s t : TaskManager} {a : Action} (hs : s.Shutting) (h : step s a = some t) :
    t.Shutting := by
  obtain ⟨hc, hstep⟩ := step_iff.mp h
  exact ⟨managed_step hs.managed hc hstep, logged_step hs.managed hs.logged hstep,
    settled_step hs.managed hc hs.settled hstep⟩

theorem shutting_run {tasks : List Runnable} {reader : Bool} {as : List Action} {s : TaskManager}
    (h : Trace.run step (init tasks reader) as = some s) : s.Shutting :=
  Trace.run_invariant (I := Shutting) (fun _ _ _ => shutting_step)
    ⟨managed_init tasks reader, logged_init tasks reader, settled_init tasks reader⟩ h

/-- All groups have come to rest. -/
structure AtRest (s : TaskManager) : Prop where
  managed : s.Managed
  quiet : ∀ g, (s.groups g).Quiet

theorem atRest_step {s t : TaskManager} {a : Action} (hs : s.AtRest) (h : step s a = some t) :
    t.AtRest := by
  obtain ⟨hc, hstep⟩ := step_iff.mp h
  exact ⟨managed_step hs.managed hc hstep, quiet_groups hs.managed hc hs.quiet hstep⟩

theorem AtRest.done {s : TaskManager} (hs : s.AtRest) {g : GroupName} {i : Nat}
    (hi : (s.groups g).runs i ≠ .idle) : (s.groups g).runs i = .done := by
  have hg := hs.managed.reachable g
  exact ((hs.quiet g).launched hg.waits).1 i ((hg.phase.launches.runs i).mpr hi)

/-- Nothing is launched, and no `Start` is invoked, on the way from one state to the other. -/
def NoneStarted (s t : TaskManager) : Prop :=
  t.invoked = s.invoked ∧ ∀ g, (t.groups g).launched = (s.groups g).launched

theorem AtRest.noneStarted {s t : TaskManager} {a : Action} (hs : s.AtRest)
    (h : step s a = some t) : s.NoneStarted t := by
  obtain ⟨hc, hstep⟩ := step_iff.mp h
  refine ⟨?_, fun g => ?_⟩
  · cases hstep with
    | @invoke g i hrun _ =>
      have hdone := hs.done (g := g) (i := i) (by rw [hrun]; simp)
      rw [hrun] at hdone
      cases hdone
    | drainCancel _ | cancel _ | stopCancel _ | timeout _ _ => simp
    | recvReport hr _ | recvRunErr hr _ =>
      rcases receive_cases hr with ⟨_, _, rfl⟩ | ⟨_, _, rfl⟩ <;> rfl
    | _ => rfl
  · rcases groups_step hs.managed hc hstep g with heq | ⟨b, _, hb⟩
    · rw [heq]
    · exact (hs.quiet g).launched_step (hs.managed.reachable g).waits (Group.step_iff.mp hb).2

theorem AtRest.noneStarted_run {s t : TaskManager} {as : List Action} (hs : s.AtRest)
    (h : Trace.run step s as = some t) : s.NoneStarted t :=
  Trace.run_rel (I := AtRest) (R := NoneStarted) (fun _ => ⟨rfl, fun _ => rfl⟩)
    (fun _ _ _ huv hvw => ⟨hvw.1.trans huv.1, fun g => (hvw.2 g).trans (huv.2 g)⟩)
    (fun _ _ _ => atRest_step) (fun _ _ _ => AtRest.noneStarted) hs h

/-- **A clean shutdown.** When `shutdown` has returned nil, every runnable whose `Start` was invoked
has returned, each error was received once, and whatever happens afterwards no runnable is started;
in no state does a step of a stopped group raise its `wg`. -/
theorem shutdown_clean (tasks : List Runnable) (reader : Bool) (as : List Action) (s : TaskManager)
    (h : Trace.run step (init tasks reader) as = some s) :
    (s.main = .returned true →
      (∀ g i, (g, i) ∈ s.invoked → (s.groups g).runs i = .done) ∧
      (∀ p, s.received.count p = s.failed.count p ∧ s.failed.count p ≤ 1) ∧
      ∀ bs t, Trace.run step s bs = some t →
        t.invoked = s.invoked ∧
          ∀ g, (t.groups g).launched = (s.groups g).launched ∧ (t.groups g).wg = 0) ∧
    ∀ g a t, (s.groups g).stopped = true → Group.step (s.groups g) a = some t →
      t.wg ≤ (s.groups g).wg := by
  have hs := shutting_run h
  refine ⟨fun hclean => ?_, fun g a t hst ht => Group.wg_step hst (Group.step_iff.mp ht).2⟩
  have hrest : s.AtRest := ⟨hs.managed, hs.settled.quiet (hs.settled.clean hclean)⟩
  have hdone : ∀ g i, (s.groups g).runs i = .idle ∨ (s.groups g).runs i = .done :=
    fun g i => (em _).imp id hrest.done
  refine ⟨fun g i hi => ?_, fun p => ?_, fun bs t ht => ?_⟩
  · refine (hdone g i).resolve_left fun hidle => ?_
    have hlog := hs.logged (g, i)
    unfold LoggedAt at hlog
    rw [hidle] at hlog
    exact hlog.1 hi
  · have hlog := hs.logged p
    unfold LoggedAt at hlog
    rcases hdone p.1 p.2 with hpc | hpc
    · rw [hpc] at hlog
      obtain ⟨_, hf, hr⟩ := hlog
      omega
    · rw [hpc] at hlog
      exact ⟨hlog.2.1.symm, hlog.2.2⟩
  · obtain ⟨hinvoked, hlaunched⟩ := hrest.noneStarted_run ht
    have hlater := Trace.run_invariant (I := AtRest) (fun _ _ _ => atRest_step) hrest ht
    exact ⟨hinvoked, fun g => ⟨hlaunched g, (hlater.quiet g).wg⟩⟩

/-- The task that `main` adds. -/
def mysqlTask : Runnable := ⟨true, false, false⟩

/-- `Start` of a group that has nothing to wait for. -/
def startEmpty (g : GroupName) : List Action :=
  [.main, .main, .group g .body, .group g .body, .group g .body, .group g .body, .main, .main]

/-- `Start` of a group with one runnable. -/
def startOne (g : GroupName) (i : Nat) : List Action :=
  [.main, .main, .group g .body, .group g .body, .group g .recvQueue, .group g .reconcile,
    .group g .reconcile, .group g .reconcile, .group g .body, .check g i true,
    .group g (.recvReady i), .group g .body, .main, .main]

/-- `Start` of a group with two runnables. -/
def startTwo (g : GroupName) (i j : Nat) : List Action :=
  [.main, .main, .group g .body, .group g .body, .group g .recvQueue, .group g .reconcile,
    .group g .reconcile, .group g .reconcile, .group g .recvQueue, .group g .reconcile,
    .group g .reconcile, .group g .reconcile, .group g .body, .check g i true,
    .group g (.recvReady i), .check g j true, .group g (.recvReady j), .group g .body, .main, .main]

/-- `StopAndWait` of a group, once its runnables are done. -/
def stopGroup : List Action := List.replicate 9 .stop

/-- The reader is created, a runnable of the BPF group fails, and the pump and the informers end. -/
def cleanRun : List Action :=
  startEmpty .pumps ++ startOne .bpfPrograms 0 ++ startTwo .caches 1 2 ++
    [.invoke .bpfPrograms 0, .runReturn .bpfPrograms 0 true, .recvRunErr .start .bpfPrograms 0,
      .main, .drain, .drain, .invoke .caches 1, .runReturn .caches 1 false,
      .group .caches (.wgDone 1), .invoke .caches 2, .runReturn .caches 2 true,
      .recvRunErr .drain .caches 2, .group .caches (.wgDone 2),
      .group .bpfPrograms (.wgDone 0)] ++
    stopGroup ++ stopGroup ++ stopGroup ++ [.stop, .main]

theorem shutdown_clean_cleanRun : ∃ s,
    Trace.run step (init [mysqlTask] true) cleanRun = some s ∧
      s.main = .returned true ∧ (s.groups .caches).runs 2 = .done ∧
        s.received.count (.caches, 2) = s.failed.count (.caches, 2) := by
  have hobs : (Trace.run step (init [mysqlTask] true) cleanRun).map
      (fun s => (s.main, s.invoked)) =
        some (.returned true, [(.bpfPrograms, 0), (.caches, 1), (.caches, 2)]) := by decide
  obtain ⟨s, hs, hobs⟩ := Option.map_eq_some_iff.mp hobs
  obtain ⟨hmain, hinvoked⟩ := Prod.mk.inj hobs
  obtain ⟨hdone, hcount, _⟩ := (shutdown_clean _ _ _ s hs).1 hmain
  exact ⟨s, hs, hmain, hdone .caches 2 (by rw [hinvoked]; simp), (hcount (.caches, 2)).1⟩

end TaskManager

end EDGuard
