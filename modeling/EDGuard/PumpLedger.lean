import EDGuard.PumpDelivery
import EDGuard.Lib.Settling

/-!
# The books of the pump

The queue and the rings lose records and events independently, and the pump takes a record for each
event, or prints its last one again.

* `overwrites`, `losses`, `reports`, `repeats`, `failures` — what can go wrong in a step.
* `ledger` — **three balances hold in every run**: of the records, of the events against the
  records, and of the samples that were lost.
-/

set_option autoImplicit false

namespace EDGuard

namespace Pipe

variable {α Cpu : Type}

/-- A push on the full queue drops the oldest record. -/
def overwrites (s : Pipe α Cpu) : Action α Cpu → Nat
  | .push .. => if s.queue.items.length < 5120 then 0 else 1
  | _ => 0

/-- A sample does not fit into its ring. -/
def losses (_ : Pipe α Cpu) : Action α Cpu → Nat
  | .emit _ false => 1
  | _ => 0

/-- `record.LostSamples` of what `rd.Read` returns. -/
def reports (s : Pipe α Cpu) : Action α Cpu → Nat
  | .read cpu =>
    match (s.rings cpu).records with
    | .lost n :: _ => n
    | _ => 0
  | _ => 0

/-- The queue is empty, and `dbCtx` is printed as it was. -/
def repeats (s : Pipe α Cpu) : Action α Cpu → Nat
  | .lookup true => if s.queue.items = [] then 1 else 0
  | _ => 0

/-- The lookup fails, and the pump returns. -/
def failures (_ : Pipe α Cpu) : Action α Cpu → Nat
  | .lookup false => 1
  | _ => 0

variable [DecidableEq Cpu]

/-- **Records**: pushed ones and repeated ones are printed, queued or overwritten. -/
theorem records_step (s : Pipe α Cpu) (a : Action α Cpu) (t : Pipe α Cpu)
    (h : step s a = some t) :
    t.printed.length + t.queue.items.length + s.pushed.length + s.overwrites a =
      s.printed.length + s.queue.items.length + t.pushed.length + s.repeats a := by
  cases a with
  | push cpu gtid record =>
    cases h
    have hlen := EvictQueue.length_push s.queue record
    simp only [push, overwrites, repeats, List.length_append, List.length_singleton] at hlen ⊢
    omega
  | emit i fits =>
    obtain ⟨cpu, gtid, _, rfl⟩ := emit_spec h
    rfl
  | cancel =>
    cases h
    rfl
  | select =>
    obtain ⟨_, rfl⟩ := select_spec h
    rfl
  | read cpu =>
    obtain ⟨_, rest, ⟨gtid, _, rfl⟩ | ⟨n, _, rfl⟩⟩ := read_cases h <;> rfl
  | readErr closed =>
    obtain ⟨_, rfl⟩ := readErr_spec h
    rfl
  | lookup ok =>
    obtain ⟨_, rfl⟩ := lookup_spec h
    cases ok with
    | false => rfl
    | true =>
      rw [if_pos rfl]
      rcases popPrint_cases s with ⟨x, q, hq, hpop⟩ | ⟨hempty, hpop⟩
      · rw [hpop]
        simp only [overwrites, repeats, hq, List.length_append, List.length_cons, List.length_nil,
          reduceCtorEq, ↓reduceIte]
        omega
      · rw [hpop]
        simp only [overwrites, repeats, hempty, List.length_append, List.length_singleton,
          ↓reduceIte]
        omega

variable [Fintype Cpu]

/-- **Events against records**: a queued or overwritten record has an event to come, or its event
was lost, or found another record gone. -/
theorem events_step (s : Pipe α Cpu) (a : Action α Cpu) (t : Pipe α Cpu)
    (h : step s a = some t) :
    t.queue.items.length + s.backing + s.overwrites a =
      s.queue.items.length + t.backing + (s.losses a + s.repeats a + s.failures a) := by
  cases a with
  | push cpu gtid record =>
    cases h
    have hlen := EvictQueue.length_push s.queue record
    have hback := backing_push s cpu gtid record
    simp only [push, overwrites, losses, repeats, failures] at hlen hback ⊢
    omega
  | emit i fits =>
    have hback := backing_emit h
    obtain ⟨cpu, gtid, _, rfl⟩ := emit_spec h
    cases fits <;>
    · simp only [overwrites, losses, repeats, failures, Bool.false_eq_true, ↓reduceIte] at hback ⊢
      omega
  | cancel =>
    cases h
    rfl
  | select =>
    obtain ⟨hpc, rfl⟩ := select_spec h
    cases hctx : s.ctxDone <;>
      simp [backing, held, hpc, overwrites, losses, repeats, failures]
  | read cpu =>
    have hback := backing_read h
    obtain ⟨_, rest, ⟨gtid, _, rfl⟩ | ⟨n, _, rfl⟩⟩ := read_cases h <;>
    · simp only [overwrites, losses, repeats, failures] at hback ⊢
      omega
  | readErr closed =>
    obtain ⟨hpc, rfl⟩ := readErr_spec h
    cases closed <;> simp [backing, held, hpc, overwrites, losses, repeats, failures]
  | lookup ok =>
    obtain ⟨hpc, rfl⟩ := lookup_spec h
    cases ok with
    | false =>
      simp only [backing, held, hpc, overwrites, losses, repeats, failures, reduceCtorEq,
        Bool.false_eq_true, ↓reduceIte]
      omega
    | true =>
      have hback := backing_lookup hpc
      rw [if_pos rfl]
      rcases popPrint_cases s with ⟨x, q, hq, hpop⟩ | ⟨hempty, hpop⟩
      · rw [hpop] at hback ⊢
        simp only [overwrites, losses, repeats, failures, hq, List.length_cons, reduceCtorEq,
          ↓reduceIte]
        omega
      · rw [hpop] at hback ⊢
        simp only [overwrites, losses, repeats, failures, hempty, List.length_nil, ↓reduceIte]
        omega

/-- The lost samples that the pump was not told about so far. -/
def untold (s : Pipe α Cpu) : Nat := ∑ c, (s.rings c).lostSamples

omit [DecidableEq Cpu] [Fintype Cpu] in
theorem lostSamples_output (r : Ring) (gtid : UInt64) (fits : Bool) :
    (r.output gtid fits).lostSamples = r.lostSamples + if fits then 0 else 1 := by
  cases fits with
  | false =>
    simp only [Ring.output, Ring.lostSamples, Bool.false_eq_true, ↓reduceIte]
    omega
  | true =>
    by_cases h0 : r.unreported = 0 <;>
      simp [Ring.output, Ring.lostSamples, PerfRecord.lostSamples, h0]

theorem untold_update (s : Pipe α Cpu) (cpu : Cpu) (r : Ring) :
    ∑ c, (Function.update s.rings cpu r c).lostSamples + (s.rings cpu).lostSamples =
      s.untold + r.lostSamples :=
  sum_update_add Ring.lostSamples s.rings cpu r

/-- **Lost samples** are reported, or will be with the next sample that fits. -/
theorem untold_step (s : Pipe α Cpu) (a : Action α Cpu) (t : Pipe α Cpu)
    (h : step s a = some t) : t.untold + s.reports a = s.untold + s.losses a := by
  cases a with
  | push cpu gtid record =>
    cases h
    rfl
  | emit i fits =>
    obtain ⟨cpu, gtid, _, rfl⟩ := emit_spec h
    have hsum := untold_update s cpu ((s.rings cpu).output gtid fits)
    rw [lostSamples_output] at hsum
    cases fits <;>
    · simp only [untold, reports, losses, Bool.false_eq_true, ↓reduceIte] at hsum ⊢
      omega
  | cancel =>
    cases h
    rfl
  | select =>
    obtain ⟨_, rfl⟩ := select_spec h
    rfl
  | read cpu =>
    obtain ⟨_, rest, ⟨gtid, hr, rfl⟩ | ⟨n, hr, rfl⟩⟩ := read_cases h <;>
    · have hsum := untold_update s cpu { s.rings cpu with records := rest }
      simp only [untold, reports, losses, hr, Ring.lostSamples, PerfRecord.lostSamples,
        List.map_cons, List.sum_cons] at hsum ⊢
      omega
  | readErr closed =>
    obtain ⟨_, rfl⟩ := readErr_spec h
    rfl
  | lookup ok =>
    obtain ⟨_, rfl⟩ := lookup_spec h
    cases ok with
    | false => rfl
    | true =>
      rcases popPrint_cases s with ⟨x, q, _, hpop⟩ | ⟨_, hpop⟩ <;>
      · rw [if_pos rfl, hpop]
        rfl

/-- **The books of the pump are balanced** in every run, whatever is overwritten, lost, printed
again or fails: every record that was pushed, or printed again, is printed, queued or was
overwritten; the queued and overwritten records are as many as the events to come and those that
took no record; and every lost sample was reported or is still to be. -/
theorem ledger (zero : α) (as : List (Action α Cpu)) (s : Pipe α Cpu)
    (h : Trace.run step (init zero) as = some s) :
    s.printed.length + s.queue.items.length + Trace.tally step overwrites (init zero) as =
      s.pushed.length + Trace.tally step repeats (init zero) as ∧
    s.queue.items.length + Trace.tally step overwrites (init zero) as =
      s.backing + Trace.tally step (fun s a => s.losses a + s.repeats a + s.failures a)
        (init zero) as ∧
    s.untold + Trace.tally step reports (init zero) as =
      Trace.tally step losses (init zero) as := by
  have hbacking : (init zero : Pipe α Cpu).backing = 0 := by
    simp [backing, held, init, Ring.empty, Ring.samples]
  have huntold : (init zero : Pipe α Cpu).untold = 0 := by
    simp [untold, init, Ring.empty, Ring.lostSamples]
  have hrecords := Trace.tally_balance (φ := fun s => s.printed.length + s.queue.items.length)
    (ψ := fun s => s.pushed.length) records_step h
  have hevents := Trace.tally_balance (φ := fun s => s.queue.items.length) (ψ := backing)
    events_step h
  have hlost := Trace.tally_balance (φ := untold) (ψ := fun _ => 0)
    (fun s a t hst => untold_step s a t hst) h
  have hempty : (init zero : Pipe α Cpu).pushed.length = 0 ∧
      (init zero : Pipe α Cpu).printed.length = 0 ∧
      (init zero : Pipe α Cpu).queue.items.length = 0 := ⟨rfl, rfl, rfl⟩
  simp only [hempty, hbacking, huntold, Nat.add_zero, Nat.zero_add] at hrecords hevents hlost
  exact ⟨hrecords, hevents, hlost⟩

/-- The event of the first query is lost, which the pump learns with that of the second one. -/
def lostQuery : List (Action DbCtx Unit) :=
  [.push () 17 (recordOf 17), .emit 0 false, .push () 19 (recordOf 19), .emit 0 true,
    .select, .read (), .select, .read (), .lookup true]

theorem ledger_lostQuery : ∃ s, Trace.run step (init DbCtx.zero) lostQuery = some s ∧
    s.printed = [recordOf 17] ∧ s.queue.items = [recordOf 19] ∧
    s.printed.length + s.queue.items.length +
        Trace.tally step overwrites (init DbCtx.zero) lostQuery =
      s.pushed.length + Trace.tally step repeats (init DbCtx.zero) lostQuery ∧
    s.queue.items.length + Trace.tally step overwrites (init DbCtx.zero) lostQuery =
      s.backing + Trace.tally step (fun s a => s.losses a + s.repeats a + s.failures a)
        (init DbCtx.zero) lostQuery ∧
    s.untold + Trace.tally step reports (init DbCtx.zero) lostQuery =
      Trace.tally step losses (init DbCtx.zero) lostQuery :=
  ⟨_, rfl, rfl, rfl, ledger DbCtx.zero lostQuery _ rfl⟩

end Pipe

end EDGuard
