import EDGuard.Agent
import EDGuard.ProbeLoss
import EDGuard.ProbeOnce

/-!
# From a query to its line

* `printed_once` — **no call is printed twice**, in any order of the steps and with any losses, as
  long as the pump finds a record for every event it acts on.
* `served_once` — **every served call has exactly one record, printed or queued**, while the slots
  fit, no sample is lost, the queue has room and the pump meets no error and is not told to stop.
* `served_printed` — and the pump, left to itself, then prints all of them.
-/

set_option autoImplicit false

namespace EDGuard

/-- The records of the latest capture of a call. -/
def Push.Of (p : Push) (id : CallId) : Prop := p.source.map Capture.call = some id

instance (p : Push) (id : CallId) : Decidable (p.Of id) := inferInstanceAs (Decidable (_ = _))

/-- A call is pushed at most once, so the pushes are about distinct calls. -/
theorem ProbeState.Latched.nodup {s : ProbeState} (hs : s.Latched) :
    (s.pushes.map Push.call).Nodup := by
  rw [List.nodup_iff_count_le_one]
  intro id
  have hcount : (s.pushes.map Push.call).count id = s.pushedFor id := by
    rw [List.count, List.countP_map]
    unfold ProbeState.pushedFor
    congr 1
  rw [hcount]
  exact hs.once id

namespace Agent

variable {ι : Type} {n : Nat}

section

variable [DecidableEq ι]

/-! ## At most once -/

/-- The pump finds a record for the event it acts on. -/
def FindsRecord (s : Agent ι n) : Action ι n → Prop
  | .pipe a => s.pipe.FindsRecord a
  | _ => True

instance (s : Agent ι n) : ∀ a, Decidable (s.FindsRecord a)
  | .pipe a => inferInstanceAs (Decidable (s.pipe.FindsRecord a))
  | .runner _ | .close .. | .enter .. | .entry .. | .ret .. | .leave _ => isTrue trivial

/-- The records are accounted for, and no call has two of them. -/
structure Accounted (s : Agent ι n) : Prop where
  handlers : (s.handlers.Inv ∧ s.handlers.PushesBegun) ∧ s.handlers.Latched
  shared : s.QueueShared
  pipe : (s.pipe.printed ++ s.pipe.queue.items).Sublist s.pipe.pushed

theorem accounted_step {s t : Agent ι n} {a : Action ι n} (hs : s.Accounted)
    (hg : s.FindsRecord a) (h : step s a = some t) : t.Accounted where
  handlers := by
    refine projects_handlers.invariant (J := fun p => (p.Inv ∧ p.PushesBegun) ∧ p.Latched) ?_
      trivial hs.handlers h
    rintro u b v ⟨hu, hl⟩ hv
    exact ⟨ProbeState.pushesBegun_step u b v hu hv, ProbeState.latched_step hu.1 hu.2 hl hv⟩
  shared := queueShared_step s a t hs.shared h
  pipe := by
    refine projects_pipe.invariant_of (J := fun p => (p.printed ++ p.queue.items).Sublist p.pushed)
      (fun _ _ _ hs hg ht => Pipe.sublist_step hs hg ht) trivial hs.pipe ?_ h
    intro b hb
    cases a with
    | ret tid cpu f =>
      obtain ⟨r, _, rfl⟩ := Option.map_eq_some_iff.mp hb
      exact trivial
    | pipe a =>
      obtain rfl : a = b := Option.some.inj hb
      exact hg
    | runner _ | close _ _ | enter _ _ | entry _ _ _ | leave _ => cases hb

theorem accounted_run {programs : List Program} {as : List (Action ι n)} {s : Agent ι n}
    (h : Trace.run step (init programs) as = some s)
    (hg : Trace.Meets step FindsRecord (init programs) as) : s.Accounted := by
  refine Trace.run_invariant_of_meets (fun _ _ _ hs hg ht => accounted_step hs hg ht) ?_ hg h
  exact ⟨⟨⟨ProbeState.inv_init, fun _ hp => nomatch hp⟩, ProbeState.latched_init⟩, rfl,
    List.Sublist.refl _⟩

omit [DecidableEq ι] in
/-- The printed lines are records of pushes, in the order of the pushes. -/
theorem Accounted.printed {s : Agent ι n} (hs : s.Accounted) : ∃ ps : List Push,
    ps.Sublist s.probe.pushes.reverse ∧ s.pipe.printed = ps.map Push.record := by
  have hsub := (List.sublist_append_left _ _).trans hs.pipe
  rw [hs.shared, ← List.map_reverse, List.sublist_map_iff] at hsub
  exact hsub

/-- **No call is printed twice.** In every run in which the pump finds a record for every event it
acts on, whatever is lost otherwise: the printed lines are records of pushes, in the order of the
pushes, and these are about distinct calls. -/
theorem printed_once (programs : List Program) (as : List (Action ι n)) (s : Agent ι n)
    (h : Trace.run step (init programs) as = some s)
    (hg : Trace.Meets step FindsRecord (init programs) as) :
    ∃ ps : List Push, ps.Sublist s.probe.pushes.reverse ∧ s.pipe.printed = ps.map Push.record ∧
      (ps.map Push.call).Nodup := by
  have hs := accounted_run h hg
  obtain ⟨ps, hps, hprinted⟩ := hs.printed
  have hnodup : (s.probe.pushes.reverse.map Push.call).Nodup := by
    rw [List.map_reverse, List.nodup_reverse]
    exact hs.handlers.2.nodup
  exact ⟨ps, hps, hprinted, hnodup.sublist (hps.map Push.call)⟩

/-! ## Exactly once -/

/-- The slots fit, no sample is lost, the queue has room, no error occurs and the pump is not told
to stop. -/
def NoLoss (s : Agent ι n) (a : Action ι n) : Prop :=
  (∀ b ∈ toHandlers s a, s.handlers.SlotFits b) ∧ ∀ b ∈ toPipe s a, s.pipe.Lossless b

omit [DecidableEq ι] in
instance (s : Agent ι n) (a : Action ι n) : Decidable (s.NoLoss a) :=
  inferInstanceAs (Decidable (_ ∧ _))

/-- Every served call has its record on the way. -/
structure Served (s : Agent ι n) : Prop where
  handlers : s.handlers.Inv ∧ s.handlers.Kept
  shared : s.QueueShared
  pipe : s.pipe.Delivered ∧ s.pipe.Running

omit [DecidableEq ι] in
theorem served_init (programs : List Program) : (init programs : Agent ι n).Served := by
  refine ⟨⟨ProbeState.inv_init, ?_, ?_⟩, rfl, .mk' rfl ?_, PumpPc.noConfusion, rfl⟩
  · intro tid l hl
    cases hl
  · intro id hid
    cases hid
  · simp [init, Pipe.init, Pipe.backing, Pipe.held, Ring.empty, Ring.samples]

theorem served_step {s t : Agent ι n} {a : Action ι n} (hs : s.Served) (hg : s.NoLoss a)
    (h : step s a = some t) : t.Served where
  handlers := by
    refine projects_handlers.invariant_of (J := fun p => p.Inv ∧ p.Kept) ?_ trivial hs.handlers
      hg.1 h
    rintro u b v ⟨hi, hk⟩ hb hv
    exact ⟨ProbeState.inv_step u b v hi hv, ProbeState.kept_step hi hk hb hv⟩
  shared := queueShared_step s a t hs.shared h
  pipe := by
    refine projects_pipe.invariant_of (J := fun p => p.Delivered ∧ p.Running) ?_ trivial hs.pipe
      hg.2 h
    rintro u b v ⟨hd, hr⟩ hb hv
    exact ⟨Pipe.delivered_step hd hb hv, Pipe.running_step hr hb hv⟩

theorem served_run {programs : List Program} {as : List (Action ι n)} {s : Agent ι n}
    (h : Trace.run step (init programs) as = some s)
    (hg : Trace.Meets step NoLoss (init programs) as) : s.Served :=
  Trace.run_invariant_of_meets (fun _ _ _ hs hg ht => served_step hs hg ht) (served_init programs)
    hg h

omit [DecidableEq ι] in
/-- The records of all pushes are printed or queued, in order. -/
theorem Served.records {s : Agent ι n} (hs : s.Served) :
    s.pipe.printed ++ s.pipe.queue.items = (s.probe.pushes.map Push.record).reverse :=
  hs.pipe.1.records.trans hs.shared

omit [DecidableEq ι] in
/-- A served call has exactly one push, completed from its capture. -/
theorem Served.push {s : Agent ι n} (hs : s.Served) {id : CallId} (hid : id ∈ s.probe.served) :
    ∃ p c, s.probe.pushes.filter (fun p => p.Of id) = [p] ∧ c ∈ s.probe.captures ∧ c.call = id ∧
      p.FromSource c := by
  have hone : s.handlers.recordsOf id = 1 := hs.handlers.2.served id hid
  have hlen : (s.probe.pushes.filter fun p => p.Of id).length = 1 := by
    rw [← List.countP_eq_length_filter]
    exact hone
  obtain ⟨p, hp⟩ := List.length_eq_one_iff.mp hlen
  have hmem : p ∈ s.probe.pushes.filter fun p => p.Of id := by
    rw [hp]
    exact List.mem_singleton_self p
  obtain ⟨hpush, hof⟩ := List.mem_filter.mp hmem
  obtain ⟨c, hc, hfrom⟩ := hs.handlers.1.push_ok p hpush
  refine ⟨p, c, hp, hc, ?_, hfrom⟩
  have hsource : p.source.map Capture.call = some id := of_decide_eq_true hof
  rw [hfrom.1] at hsource
  exact Option.some.inj hsource

/-- **Every served call has exactly one record, printed or queued.** In every run in which the slots
fit, no sample is lost, the queue has room, and the pump meets no error and is not told to stop: the
printed lines followed by the queue are the records of the pushes in order, and a call whose entry
handler got past its guards and whose return handler then found the process registered has exactly
one push, which completes what was captured of this call. -/
theorem served_once (programs : List Program) (as : List (Action ι n)) (s : Agent ι n)
    (h : Trace.run step (init programs) as = some s)
    (hg : Trace.Meets step NoLoss (init programs) as) :
    s.pipe.printed ++ s.pipe.queue.items = (s.probe.pushes.map Push.record).reverse ∧
    ∀ id ∈ s.probe.served, ∃ p c, s.probe.pushes.filter (fun p => p.Of id) = [p] ∧
      c ∈ s.probe.captures ∧ c.call = id ∧ p.FromSource c := by
  have hs := served_run h hg
  exact ⟨hs.records, fun id hid => hs.push hid⟩

/-! ## The pump catches up -/

/-- The handlers emit their events and the pump goes on, without losses and errors. -/
def Drains (s : Agent ι n) : Action ι n → Prop
  | .pipe a => s.pipe.Lossless a
  | _ => False

omit [DecidableEq ι] in
theorem noLoss_of_drains {s : Agent ι n} {a : Action ι n} (h : s.Drains a) : s.NoLoss a := by
  cases a with
  | pipe a =>
    refine ⟨fun b hb => ?_, fun b hb => ?_⟩
    · -- the handlers see at most a pop
      have hpop : popped s.pipe a = some b := hb
      unfold popped at hpop
      split at hpop
      · split at hpop
        · cases hpop
        · cases hpop
          exact trivial
      · cases hpop
    · obtain rfl : a = b := Option.some.inj hb
      exact h
  | runner _ | close _ _ | enter _ _ | entry _ _ _ | ret _ _ _ | leave _ => exact h.elim

/-- **Every served query is printed.** In every such run, in every state in which the process has
not crashed: the handlers and the pump, left to themselves and without losses and errors, can take
no more steps than the work of the state, in whatever order, and where they cannot go on the one
record of every served call is printed. -/
theorem served_printed (programs : List Program) (as : List (Action ι n)) (s : Agent ι n)
    (h : Trace.run step (init programs) as = some s)
    (hg : Trace.Meets step NoLoss (init programs) as) (halive : s.runner.crashed = false) :
    Trace.Settles step Drains (fun t => ∀ id ∈ s.probe.served, ∃ p,
      s.probe.pushes.filter (fun p => p.Of id) = [p] ∧ p.record ∈ t.pipe.printed)
      s.pipe.work s := by
  have hs := served_run h hg
  have hpot : Trace.Potential step (fun t : Agent ι n => t.Served ∧ t.probe = s.probe ∧
      t.runner.crashed = false) Drains (fun t => t.pipe.work) (fun _ => 0) := by
    refine ⟨fun u a v hu ha hv => ?_, fun u a v _ ha hv => ?_⟩
    · refine ⟨served_step hu.1 (noLoss_of_drains ha) hv, ?_⟩
      cases a with
      | pipe a =>
        obtain ⟨_, p, _, rfl⟩ := pipe_spec hv
        exact hu.2
      | runner _ | close _ _ | enter _ _ | entry _ _ _ | ret _ _ _ | leave _ => exact ha.elim
    · cases a with
      | pipe a =>
        obtain ⟨hown, p, hp, rfl⟩ := pipe_spec hv
        have huse := Pipe.work_step u.pipe a p hp
        rw [Pipe.causes_own ha hown] at huse
        exact huse
      | runner _ | close _ _ | enter _ _ | entry _ _ _ | ret _ _ _ | leave _ => exact ha.elim
  refine hpot.settles (fun _ _ _ => rfl) (fun t ht hstuck id hid => ?_) ⟨hs, rfl, halive⟩
  obtain ⟨htserved, hprobe, hcrashed⟩ := ht
  have hcaught : t.pipe.CaughtUp := by
    refine Pipe.caughtUp_of_stuck htserved.pipe.2 fun b hb => ?_
    have hnone := hstuck (.pipe b) hb.1
    unfold step at hnone
    rw [hcrashed, if_neg Bool.false_ne_true] at hnone
    simp only [act, if_pos hb.2, Option.map_eq_none_iff] at hnone
    exact hnone
  obtain ⟨p, c, hp, _⟩ := hs.push hid
  refine ⟨p, hp, ?_⟩
  rw [htserved.pipe.1.of_caughtUp hcaught, htserved.shared, hprobe, List.mem_reverse]
  refine List.mem_map_of_mem ?_
  have hmem : p ∈ s.probe.pushes.filter fun p => p.Of id := by
    rw [hp]
    exact List.mem_singleton_self p
  exact (List.mem_filter.mp hmem).1

end

theorem printed_once_oneQuery : ∃ s : Agent Unit 2,
    Trace.run step (init [percona5734]) oneQuery = some s ∧ s.pipe.printed.length = 1 ∧
    ∃ ps : List Push, ps.Sublist s.probe.pushes.reverse ∧ s.pipe.printed = ps.map Push.record ∧
      (ps.map Push.call).Nodup := by
  obtain ⟨s, hs, hprinted⟩ := Option.map_eq_some_iff.mp oneQuery_printed
  have hlen : s.pipe.printed.length = 1 := by
    rw [← List.length_map (f := DbCtx.gtid), hprinted]
    rfl
  exact ⟨s, hs, hlen, printed_once _ oneQuery s hs (by decide +kernel)⟩

/-- The query of `oneQuery` has returned; its event was not emitted so far. -/
def queryReturned : List (Action Unit 2) := attached ++ query cpu1 3

theorem queryReturned_served : (Trace.run step (init [percona5734]) queryReturned).map
    (fun s => (s.probe.served, s.runner.crashed)) = some ([⟨7, 0⟩], false) := by decide +kernel

theorem served_once_queryReturned : ∃ s : Agent Unit 2,
    Trace.run step (init [percona5734]) queryReturned = some s ∧
    s.pipe.printed ++ s.pipe.queue.items = (s.probe.pushes.map Push.record).reverse ∧
    ∃ p c, s.probe.pushes.filter (fun p => p.Of ⟨7, 0⟩) = [p] ∧ c ∈ s.probe.captures ∧
      c.call = ⟨7, 0⟩ ∧ p.FromSource c := by
  obtain ⟨s, hs, heq⟩ := Option.map_eq_some_iff.mp queryReturned_served
  have hserved : s.probe.served = [⟨7, 0⟩] := congrArg Prod.fst heq
  obtain ⟨hrecords, hall⟩ := served_once _ queryReturned s hs (by decide +kernel)
  exact ⟨s, hs, hrecords, hall ⟨7, 0⟩ (by rw [hserved]; exact List.mem_singleton_self _)⟩

theorem served_printed_queryReturned : ∃ s : Agent Unit 2,
    Trace.run step (init [percona5734]) queryReturned = some s ∧ ⟨7, 0⟩ ∈ s.probe.served ∧
    Trace.Settles step Drains (fun t => ∀ id ∈ s.probe.served, ∃ p,
      s.probe.pushes.filter (fun p => p.Of id) = [p] ∧ p.record ∈ t.pipe.printed)
      s.pipe.work s := by
  obtain ⟨s, hs, heq⟩ := Option.map_eq_some_iff.mp queryReturned_served
  have hserved : s.probe.served = [⟨7, 0⟩] := congrArg Prod.fst heq
  exact ⟨s, hs, by rw [hserved]; exact List.mem_singleton_self _,
    served_printed _ queryReturned s hs (by decide +kernel) (congrArg Prod.snd heq)⟩

end Agent

end EDGuard
