import EDGuard.PumpDelivery
import EDGuard.Lib.Settling

/-!
# The work of the pump

* `printed_pushed` — every printed record was pushed, whatever is lost or dropped.
* `work_bounded` — the handlers and the pump together take at most eight steps for each record that
  is pushed, apart from errors of the reader.
* `pump_settles` — without losses, overflows, errors and a stop they come to rest by themselves
  within a bound that the state gives, in any order of their steps, and have then printed
  everything.
-/

set_option autoImplicit false

namespace EDGuard

namespace Pipe

variable {α Cpu : Type} [DecidableEq Cpu]

/-! ## Nothing is made up -/

/-- No event is under way. -/
def Eventless (s : Pipe α Cpu) : Prop :=
  s.between = [] ∧ (∀ c, (s.rings c).records = []) ∧ s.pc ≠ .lookup

/-- Where the records come from. -/
structure Sourced (s : Pipe α Cpu) : Prop where
  queued : ∀ x ∈ s.queue.items, x ∈ s.pushed
  printed : ∀ x ∈ s.printed, x ∈ s.pushed
  /-- the pump finds the queue empty only after it took a record from it -/
  latest : s.pushed ≠ [] → s.queue.items = [] → s.dbCtx ∈ s.pushed
  eventless : s.pushed = [] → s.Eventless

omit [DecidableEq Cpu] in
theorem sourced_init (zero : α) : (init zero : Pipe α Cpu).Sourced := by
  refine ⟨?_, ?_, fun h => absurd rfl h, fun _ => ⟨rfl, fun _ => rfl, ?_⟩⟩
  · intro x hx
    cases hx
  · intro x hx
    cases hx
  · intro hpc
    cases hpc

omit [DecidableEq Cpu] in
/-- A step that leaves the records alone, and brings up an event only when there was one. -/
theorem Sourced.frame {s t : Pipe α Cpu} (hs : s.Sourced) (hqueue : t.queue = s.queue)
    (hprinted : t.printed = s.printed) (hdbCtx : t.dbCtx = s.dbCtx) (hpushed : t.pushed = s.pushed)
    (heventless : s.Eventless → t.Eventless) : t.Sourced := by
  refine ⟨?_, ?_, ?_, ?_⟩
  · rw [hqueue, hpushed]
    exact hs.queued
  · rw [hprinted, hpushed]
    exact hs.printed
  · rw [hqueue, hpushed, hdbCtx]
    exact hs.latest
  · rw [hpushed]
    exact fun h => heventless (hs.eventless h)

omit [DecidableEq Cpu] in
theorem sourced_push {s : Pipe α Cpu} (hs : s.Sourced) (cpu : Cpu) (gtid : UInt64) (record : α) :
    (s.push cpu gtid record).Sourced := by
  have hmem : ∀ {x : α}, x ∈ s.pushed → x ∈ s.pushed ++ [record] := by
    intro x hx
    exact List.mem_append_left _ hx
  refine ⟨?_, fun x hx => hmem (hs.printed x hx), ?_, ?_⟩
  · intro x hx
    have hx' := (EvictQueue.push_sublist s.queue record).subset hx
    rcases List.mem_append.mp hx' with hq | hr
    · exact hmem (hs.queued x hq)
    · exact List.mem_append_right _ hr
  · -- the record that was just pushed is still there
    intro _ hempty
    have hitems : (s.queue.push record).items = [] := hempty
    by_cases hlt : s.queue.items.length < 5120
    · rw [EvictQueue.push_of_lt hlt] at hitems
      simp at hitems
    · rw [EvictQueue.push_of_not_lt hlt] at hitems
      have hlen := congrArg List.length hitems
      rw [List.length_tail, List.length_append, List.length_singleton, List.length_nil] at hlen
      omega
  · intro hnil
    simp [push] at hnil

omit [DecidableEq Cpu] in
theorem sourced_lookup {s : Pipe α Cpu} (hs : s.Sourced) (hpc : s.pc = .lookup) :
    s.popPrint.Sourced := by
  have hne : s.pushed ≠ [] := fun hnil => (hs.eventless hnil).2.2 hpc
  rcases popPrint_cases s with ⟨x, q, hq, hpop⟩ | ⟨hempty, hpop⟩
  · have hx : x ∈ s.pushed := hs.queued x (by rw [hq]; exact List.mem_cons_self)
    rw [hpop]
    refine ⟨fun y hy => hs.queued y (by rw [hq]; exact List.mem_cons_of_mem x hy), ?_,
      fun _ _ => hx, fun hnil => absurd hnil hne⟩
    intro y hy
    rcases List.mem_append.mp hy with hp | hl
    · exact hs.printed y hp
    · exact List.mem_singleton.mp hl ▸ hx
  · rw [hpop]
    refine ⟨hs.queued, ?_, hs.latest, fun hnil => absurd hnil hne⟩
    intro y hy
    rcases List.mem_append.mp hy with hp | hl
    · exact hs.printed y hp
    · exact List.mem_singleton.mp hl ▸ hs.latest hne hempty

theorem sourced_step (s : Pipe α Cpu) (a : Action α Cpu) (t : Pipe α Cpu) (hs : s.Sourced)
    (h : step s a = some t) : t.Sourced := by
  cases a with
  | push cpu gtid record =>
    cases h
    exact sourced_push hs cpu gtid record
  | emit i fits =>
    obtain ⟨cpu, gtid, hb, rfl⟩ := emit_spec h
    refine hs.frame rfl rfl rfl rfl fun he => ?_
    rw [he.1] at hb
    cases hb
  | cancel =>
    cases h
    exact hs.frame rfl rfl rfl rfl id
  | select =>
    obtain ⟨_, rfl⟩ := select_spec h
    refine hs.frame rfl rfl rfl rfl fun he => ⟨he.1, he.2.1, ?_⟩
    cases s.ctxDone <;> simp
  | read cpu =>
    obtain ⟨_, rest, ⟨gtid, hr, rfl⟩ | ⟨n, hr, rfl⟩⟩ := read_cases h
    · refine hs.frame rfl rfl rfl rfl fun he => ?_
      rw [he.2.1 cpu] at hr
      cases hr
    · refine hs.frame rfl rfl rfl rfl fun he => ?_
      rw [he.2.1 cpu] at hr
      cases hr
  | readErr closed =>
    obtain ⟨_, rfl⟩ := readErr_spec h
    refine hs.frame rfl rfl rfl rfl fun he => ⟨he.1, he.2.1, ?_⟩
    cases closed <;> simp
  | lookup ok =>
    obtain ⟨hpc, rfl⟩ := lookup_spec h
    cases ok with
    | true => exact sourced_lookup hs hpc
    | false => exact hs.frame rfl rfl rfl rfl fun he => ⟨he.1, he.2.1, by simp⟩

/-- **Every printed record was pushed**, whatever is lost or dropped: the zero value that the pump
starts with is never printed. -/
theorem printed_pushed (zero : α) (as : List (Action α Cpu)) (s : Pipe α Cpu)
    (h : Trace.run step (init zero) as = some s) : ∀ x ∈ s.printed, x ∈ s.pushed :=
  (Trace.run_invariant sourced_step (sourced_init zero) h).printed

theorem printed_pushed_twoQueries : ∃ s, Trace.run step (init DbCtx.zero) twoQueries = some s ∧
    ∀ x ∈ s.printed, x ∈ s.pushed :=
  ⟨_, rfl, printed_pushed DbCtx.zero twoQueries _ rfl⟩

/-! ## The work of a record -/

/-- The records in the rings. -/
def waiting [Fintype Cpu] (s : Pipe α Cpu) : Nat := ∑ c, (s.rings c).records.length

/-- The steps the pump takes before it comes back to the reader. -/
def stepsLeft : PumpPc → Nat
  | .lookup => 3
  | .select => 2
  | .read => 1
  | .stopped => 0

/-- Each handler has an event to emit, a ring may get two records from it, and each of these takes
the pump around its loop once. -/
def work [Fintype Cpu] (s : Pipe α Cpu) : Nat :=
  7 * s.between.length + 3 * s.waiting + stepsLeft s.pc

/-- The work that the environment causes. -/
def Action.causes : Action α Cpu → Nat
  | .push .. => 8
  | .cancel => 1
  | .readErr false => 2
  | _ => 0

section

variable [Fintype Cpu]

theorem waiting_update (s : Pipe α Cpu) (cpu : Cpu) (r : Ring) :
    (∑ c, (Function.update s.rings cpu r c).records.length) + (s.rings cpu).records.length =
      s.waiting + r.records.length :=
  sum_update_add (fun r => r.records.length) s.rings cpu r

theorem length_output_le (r : Ring) (gtid : UInt64) (fits : Bool) :
    (r.output gtid fits).records.length ≤ r.records.length + 2 := by
  unfold Ring.output
  split
  · by_cases h0 : r.unreported = 0 <;> simp [h0]
  · simp

theorem work_step (s : Pipe α Cpu) (a : Action α Cpu) (t : Pipe α Cpu)
    (h : step s a = some t) : t.work + 1 ≤ s.work + a.causes := by
  cases a with
  | push cpu gtid record =>
    cases h
    simp only [work, waiting, push, Action.causes, List.length_append, List.length_singleton]
    omega
  | emit i fits =>
    obtain ⟨cpu, gtid, hb, rfl⟩ := emit_spec h
    have hlt : i < s.between.length := (List.getElem?_eq_some_iff.mp hb).1
    have hsum := waiting_update s cpu ((s.rings cpu).output gtid fits)
    have hout := length_output_le (s.rings cpu) gtid fits
    simp only [work, waiting, Action.causes, List.length_eraseIdx, hlt, ↓reduceIte] at hsum ⊢
    omega
  | cancel =>
    cases h
    exact Nat.le_refl _
  | select =>
    obtain ⟨hpc, rfl⟩ := select_spec h
    simp only [work, waiting, Action.causes, hpc]
    cases s.ctxDone <;> simp [stepsLeft]
  | read cpu =>
    obtain ⟨hpc, rest, ⟨gtid, hr, rfl⟩ | ⟨n, hr, rfl⟩⟩ := read_cases h <;>
    · have hsum := waiting_update s cpu { s.rings cpu with records := rest }
      rw [hr, List.length_cons] at hsum
      simp only [work, waiting, Action.causes, hpc, stepsLeft] at hsum ⊢
      omega
  | readErr closed =>
    obtain ⟨hpc, rfl⟩ := readErr_spec h
    cases closed <;> simp [work, waiting, Action.causes, hpc, stepsLeft]
  | lookup ok =>
    obtain ⟨hpc, rfl⟩ := lookup_spec h
    cases ok with
    | false => simp [work, waiting, Action.causes, hpc, stepsLeft]
    | true =>
      rcases popPrint_cases s with ⟨x, q, _, hpop⟩ | ⟨_, hpop⟩ <;>
      · rw [if_pos rfl, hpop]
        simp [work, waiting, Action.causes, hpc, stepsLeft]

theorem work_potential : Trace.Potential (σ := Pipe α Cpu) step (fun _ => True) (fun _ _ => True)
    work Action.causes where
  inv := fun _ _ _ _ _ _ => trivial
  uses := fun s a t _ _ h => work_step s a t h

/-- **The pump never spins**: in every run, whatever is lost and whatever errors occur, all steps
together are at most eight for each pushed record, two for each error that the loop ignores and one
for each cancellation, besides the two that it takes to be in `Read` at first. -/
theorem work_bounded (zero : α) (as : List (Action α Cpu)) (s : Pipe α Cpu)
    (h : Trace.run step (init zero) as = some s) :
    as.length ≤ 2 + (as.map Action.causes).sum := by
  have hinit : (init zero : Pipe α Cpu).work = 2 := by
    simp [work, waiting, init, Ring.empty, stepsLeft]
  have hlen := work_potential.length_le trivial (Trace.meets_of_forall fun _ _ => trivial) h
  omega

theorem work_bounded_twoQueries : ∃ s, Trace.run step (init DbCtx.zero) twoQueries = some s ∧
    twoQueries.length ≤ 2 + (twoQueries.map Action.causes).sum :=
  ⟨_, rfl, work_bounded DbCtx.zero twoQueries _ rfl⟩

/-! ## Rest -/

/-- The pump was neither stopped nor told to. -/
structure Running (s : Pipe α Cpu) : Prop where
  pc : s.pc ≠ .stopped
  ctxDone : s.ctxDone = false

/-- The steps of the handlers after the push, and of the pump. -/
def Action.Own : Action α Cpu → Prop
  | .push .. => False
  | _ => True

instance : ∀ a : Action α Cpu, Decidable a.Own
  | .push .. => isFalse id
  | .emit .. | .cancel | .select | .read _ | .readErr _ | .lookup _ => isTrue trivial

omit [Fintype Cpu] in
theorem running_step {s t : Pipe α Cpu} {a : Action α Cpu} (hs : s.Running) (hg : s.Lossless a)
    (h : step s a = some t) : t.Running := by
  cases a with
  | push cpu gtid record =>
    cases h
    exact ⟨hs.pc, hs.ctxDone⟩
  | emit i fits =>
    obtain ⟨cpu, gtid, _, rfl⟩ := emit_spec h
    exact ⟨hs.pc, hs.ctxDone⟩
  | cancel => exact hg.elim
  | readErr closed => exact hg.elim
  | select =>
    obtain ⟨_, rfl⟩ := select_spec h
    exact ⟨by simp [hs.ctxDone], hs.ctxDone⟩
  | read cpu =>
    obtain ⟨_, rest, ⟨gtid, _, rfl⟩ | ⟨n, _, rfl⟩⟩ := read_cases h
    · exact ⟨PumpPc.noConfusion, hs.ctxDone⟩
    · exact ⟨PumpPc.noConfusion, hs.ctxDone⟩
  | lookup ok =>
    obtain ⟨_, rfl⟩ := lookup_spec h
    have hok : ok = true := hg
    rw [if_pos hok]
    rcases popPrint_cases s with ⟨x, q, _, hpop⟩ | ⟨_, hpop⟩ <;>
    · rw [hpop]
      exact ⟨PumpPc.noConfusion, hs.ctxDone⟩

omit [Fintype Cpu] in
theorem pushed_own {s t : Pipe α Cpu} {a : Action α Cpu} (ha : a.Own) (h : step s a = some t) :
    t.pushed = s.pushed := by
  cases a with
  | push cpu gtid record => exact ha.elim
  | emit i fits =>
    obtain ⟨cpu, gtid, _, rfl⟩ := emit_spec h
    rfl
  | cancel =>
    cases h
    rfl
  | select =>
    obtain ⟨_, rfl⟩ := select_spec h
    rfl
  | read cpu =>
    obtain ⟨_, rest, ⟨gtid, _, rfl⟩ | ⟨n, _, rfl⟩⟩ := read_cases h
    · rfl
    · rfl
  | readErr closed =>
    obtain ⟨_, rfl⟩ := readErr_spec h
    rfl
  | lookup ok =>
    obtain ⟨_, rfl⟩ := lookup_spec h
    cases ok with
    | false => rfl
    | true =>
      rcases popPrint_cases s with ⟨x, q, _, hpop⟩ | ⟨_, hpop⟩ <;>
      · rw [if_pos rfl, hpop]

omit [DecidableEq Cpu] [Fintype Cpu] in
/-- Without losses and errors no own step adds to the work. -/
theorem causes_own {s : Pipe α Cpu} {a : Action α Cpu} (hg : s.Lossless a) (ha : a.Own) :
    a.causes = 0 := by
  cases a with
  | push cpu gtid record => exact ha.elim
  | cancel => exact hg.elim
  | readErr closed => exact hg.elim
  | emit i fits => rfl
  | select => rfl
  | read cpu => rfl
  | lookup ok => rfl

omit [Fintype Cpu] in
/-- **A running pump rests only when it has caught up.** -/
theorem caughtUp_of_stuck {s : Pipe α Cpu} (hs : s.Running)
    (hstuck : Trace.Stuck step (fun s a => s.Lossless a ∧ a.Own) s) : s.CaughtUp := by
  have hread : s.pc = .read := by
    cases hpc : s.pc with
    | select =>
      have hnone := hstuck .select ⟨trivial, trivial⟩
      simp [step, hpc] at hnone
    | read => rfl
    | lookup =>
      have hnone := hstuck (.lookup true) ⟨rfl, trivial⟩
      simp [step, hpc] at hnone
    | stopped => exact absurd hpc hs.pc
  refine ⟨fun c => ?_, by simp [hread], ?_⟩
  · cases hr : (s.rings c).records with
    | nil => rfl
    | cons r rest =>
      have hnone := hstuck (.read c) ⟨trivial, trivial⟩
      cases r <;> simp [step, read, hread, hr] at hnone
  · cases hb : s.between with
    | nil => rfl
    | cons e rest =>
      have hnone := hstuck (.emit 0 true) ⟨rfl, trivial⟩
      simp [step, emit, hb] at hnone

omit [DecidableEq Cpu] in
theorem Delivered.of_caughtUp {s : Pipe α Cpu} (hs : s.Delivered) (hc : s.CaughtUp) :
    s.printed = s.pushed := by
  obtain ⟨hr, hpc, hb⟩ := hc
  have h0 : s.backing = 0 := by simp [backing, held, hpc, hb, hr, Ring.samples]
  have hempty : s.queue.items = [] := List.length_eq_zero_iff.mp (hs.backed ▸ h0)
  have hrec := hs.records
  rw [hempty, List.append_nil] at hrec
  exact hrec

/-- **The pump settles.** In every run in which no sample is lost, the queue has room, no read and
no lookup fails and the pump is not told to stop, in every state: the handlers and the pump, left to
themselves under these conditions, cannot take more steps than the work of the state, in whatever
order; where they cannot go on every record that was pushed is printed; and there is such an
end. -/
theorem pump_settles (zero : α) (as : List (Action α Cpu)) (s : Pipe α Cpu)
    (h : Trace.run step (init zero) as = some s)
    (hg : Trace.Meets step Lossless (init zero) as) :
    Trace.Settles step (fun s a => s.Lossless a ∧ a.Own)
      (fun t => t.CaughtUp ∧ t.printed = s.pushed) s.work s ∧
    ∃ bs t, Trace.Meets step (fun s a => s.Lossless a ∧ a.Own) s bs ∧
      Trace.run step s bs = some t ∧ t.CaughtUp ∧ t.printed = s.pushed := by
  have hs : s.Delivered ∧ s.Running := by
    refine Trace.run_invariant_of_meets (I := fun s => s.Delivered ∧ s.Running)
      (fun _ _ _ hs hg ht => ⟨delivered_step hs.1 hg ht, running_step hs.2 hg ht⟩)
      ⟨.mk' rfl ?_, PumpPc.noConfusion, rfl⟩ hg h
    simp [backing, held, init, Ring.empty, Ring.samples]
  have hpot : Trace.Potential step
      (fun t : Pipe α Cpu => (t.Delivered ∧ t.Running) ∧ t.pushed = s.pushed)
      (fun s a => s.Lossless a ∧ a.Own) work (fun _ => 0) := by
    refine ⟨fun u a v hu ha hv => ?_, fun u a v _ ha hv => ?_⟩
    · exact ⟨⟨delivered_step hu.1.1 ha.1 hv, running_step hu.1.2 ha.1 hv⟩,
        (pushed_own ha.2 hv).trans hu.2⟩
    · have huse := work_step u a v hv
      rw [causes_own ha.1 ha.2] at huse
      exact huse
  have hsettles : Trace.Settles step (fun s a => s.Lossless a ∧ a.Own)
      (fun t => t.CaughtUp ∧ t.printed = s.pushed) s.work s := by
    refine hpot.settles (fun _ _ _ => rfl) (fun t ht hstuck => ?_) ⟨hs, rfl⟩
    have hc := caughtUp_of_stuck ht.1.2 hstuck
    exact ⟨hc, (ht.1.1.of_caughtUp hc).trans ht.2⟩
  obtain ⟨bs, t, hm, hrun, _, hend⟩ := hsettles.exists_end
  exact ⟨hsettles, bs, t, hm, hrun, hend⟩

/-- Two records are pushed, and nothing else happened so far. -/
def twoPushed : List (Action DbCtx Unit) :=
  [.push () 17 (recordOf 17), .push () 19 (recordOf 19)]

theorem pump_settles_twoPushed : ∃ s, Trace.run step (init DbCtx.zero) twoPushed = some s ∧
    Trace.Settles step (fun s a => s.Lossless a ∧ a.Own)
      (fun t => t.CaughtUp ∧ t.printed = s.pushed) s.work s ∧
    ∃ bs t, Trace.Meets step (fun s a => s.Lossless a ∧ a.Own) s bs ∧
      Trace.run step s bs = some t ∧ t.CaughtUp ∧ t.printed = s.pushed :=
  ⟨_, rfl, pump_settles DbCtx.zero twoPushed _ rfl (by decide)⟩

end

end Pipe

end EDGuard
