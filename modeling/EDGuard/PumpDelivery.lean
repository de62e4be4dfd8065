import EDGuard.Pump
import Mathlib.Algebra.BigOperators.Fin

/-!
# What the pump delivers

* `printed_sublist` — as long as the pump finds a record for every event it acts on, what it
  prints is a subsequence of what was pushed.  `stale_record_printed`: after one overflow of the
  queue it finds the queue empty and prints its last record again.
* `delivery` — without losses and overflows, printed records followed by the queue are the pushed
  records, and the queue holds one record for each event still to be acted on.
* `backlog` — while every lost sample is made up for by a dropped record, the queue empties
  whenever the pump has caught up.  `backlog_left`: one lost sample leaves a record behind for
  good.
-/

set_option autoImplicit false

namespace EDGuard

/-! ## Counting -/

/-- Changing one entry of a finite family changes its total by that entry. -/
theorem sum_update_add {ι β : Type} [Fintype ι] [DecidableEq ι] (g : β → Nat) (f : ι → β) (i : ι)
    (v : β) : ∑ j, g (Function.update f i v j) + g (f i) = ∑ j, g (f j) + g v := by
  have hrest : ∑ j ∈ Finset.univ.erase i, g (Function.update f i v j) =
      ∑ j ∈ Finset.univ.erase i, g (f j) := by
    refine Finset.sum_congr rfl fun j hj => ?_
    rw [Function.update_of_ne (Finset.ne_of_mem_erase hj)]
  rw [← Finset.add_sum_erase _ _ (Finset.mem_univ i), hrest, Function.update_self,
    ← Finset.add_sum_erase _ (fun j => g (f j)) (Finset.mem_univ i)]
  omega

/-- The samples a perf record stands for, and the lost samples it reports. -/
def PerfRecord.samples : PerfRecord → Nat
  | .sample _ => 1
  | .lost _ => 0

def PerfRecord.lostSamples : PerfRecord → Nat
  | .sample _ => 0
  | .lost n => n

/-- The samples in the ring. -/
def Ring.samples (r : Ring) : Nat := (r.records.map PerfRecord.samples).sum

/-- The lost samples the pump was not told about so far. -/
def Ring.lostSamples (r : Ring) : Nat :=
  (r.records.map PerfRecord.lostSamples).sum + r.unreported

theorem Ring.samples_output (r : Ring) (gtid : UInt64) (fits : Bool) :
    (r.output gtid fits).samples = r.samples + if fits then 1 else 0 := by
  cases fits with
  | false => rfl
  | true =>
    by_cases h0 : r.unreported = 0 <;>
      simp [Ring.output, Ring.samples, PerfRecord.samples, h0]

namespace Pipe

variable {α Cpu : Type}

/-- An event in the hand of the pump. -/
def held (s : Pipe α Cpu) : Nat := if s.pc = .lookup then 1 else 0

variable [DecidableEq Cpu]

/-! ## Filling the rings and draining them -/

/-- The rings after the handlers of `l` have emitted their events in turn, with `lost c` samples
lost on `c` since. -/
def ringOf (lost : Cpu → Nat) (l : List (Cpu × UInt64 × α)) (c : Cpu) : Ring :=
  ⟨(l.filter fun e => e.1 = c).map fun e => .sample e.2.1, lost c⟩

theorem ringOf_append (l : List (Cpu × UInt64 × α)) (e : Cpu × UInt64 × α) :
    Function.update (ringOf 0 l) e.1 ((ringOf 0 l e.1).output e.2.1 true) =
      ringOf 0 (l ++ [e]) := by
  funext c
  rcases eq_or_ne c e.1 with rfl | hc
  · simp [ringOf, Ring.output]
  · simp [ringOf, hc, Ne.symm hc]

theorem ringOf_read (lost : Cpu → Nat) (e : Cpu × UInt64 × α) (l : List (Cpu × UInt64 × α)) :
    Function.update (ringOf lost (e :: l)) e.1
      { ringOf lost (e :: l) e.1 with records := (ringOf lost l e.1).records } =
        ringOf lost l := by
  funext c
  rcases eq_or_ne c e.1 with rfl | hc
  · simp [ringOf]
  · simp [ringOf, hc, Ne.symm hc]

/-- Every handler of `l` pushes its record and emits its event, one after the other. -/
def fill (l : List (Cpu × UInt64 × α)) : List (Action α Cpu) :=
  l.flatMap fun e => [.push e.1 e.2.1 e.2.2, .emit 0 true]

/-- One round of the pump for every event of `l`. -/
def drain (l : List (Cpu × UInt64 × α)) : List (Action α Cpu) :=
  l.flatMap fun e => [.select, .read e.1, .lookup true]

theorem push_emit {s : Pipe α Cpu} {l : List (Cpu × UInt64 × α)} (hb : s.between = [])
    (hr : s.rings = ringOf 0 l) (e : Cpu × UInt64 × α) :
    Trace.run step s (fill [e]) = some { s with
      queue := s.queue.push e.2.2
      rings := ringOf 0 (l ++ [e])
      pushed := s.pushed ++ [e.2.2] } := by
  simp [fill, Trace.run, step, push, emit, hb, hr, ringOf_append]

theorem fill_run (l : List (Cpu × UInt64 × α)) : ∀ {s : Pipe α Cpu}
    {m : List (Cpu × UInt64 × α)}, s.between = [] → s.rings = ringOf 0 m →
    s.queue.items.length + l.length ≤ 5120 → ∃ q, q.items = s.queue.items ++ l.map (·.2.2) ∧
      Trace.run step s (fill l) = some { s with
        queue := q
        rings := ringOf 0 (m ++ l)
        pushed := s.pushed ++ l.map (·.2.2) } := by
  induction l with
  | nil =>
    intro s m hb hr hcap
    exact ⟨s.queue, by simp, by simp [fill, hr.symm]⟩
  | cons e l ih =>
    intro s m hb hr hcap
    simp only [List.length_cons] at hcap
    have hpush : (s.queue.push e.2.2).items = s.queue.items ++ [e.2.2] :=
      EvictQueue.push_of_lt (by omega) _
    obtain ⟨q, hq, hrun⟩ := ih (s := { s with
        queue := s.queue.push e.2.2
        rings := ringOf 0 (m ++ [e])
        pushed := s.pushed ++ [e.2.2] }) hb rfl (by rw [hpush]; simp; omega)
    refine ⟨q, by simp [hq, hpush], ?_⟩
    have hcons : (fill (e :: l) : List (Action α Cpu)) = fill [e] ++ fill l := by simp [fill]
    rw [hcons, Trace.run_append_of_eq (push_emit hb hr e), hrun]
    simp

theorem round_run {lost : Cpu → Nat} {s : Pipe α Cpu} {e : Cpu × UInt64 × α}
    {l : List (Cpu × UInt64 × α)} (hpc : s.pc = .select) (hctx : s.ctxDone = false)
    (hr : s.rings = ringOf lost (e :: l)) :
    Trace.run step s (drain [e]) =
      some ({ s with pc := .lookup, rings := ringOf lost l }).popPrint := by
  have hrec : (ringOf lost (e :: l) e.1).records =
      .sample e.2.1 :: (ringOf lost l e.1).records := by
    simp [ringOf]
  obtain ⟨queue, rings, between, pc, ctxDone, dbCtx, pushed, printed⟩ := s
  simp only at hpc hctx hr
  subst hpc hctx hr
  have hread :
      read ⟨queue, ringOf lost (e :: l), between, .read, false, dbCtx, pushed, printed⟩ e.1 =
        some ⟨queue, ringOf lost l, between, .lookup, false, dbCtx, pushed, printed⟩ := by
    simp only [read, hrec, ringOf_read]
  simp [drain, Trace.run, step, hread]

/-- A pump that is left alone with the events of `l` prints once for each of them. -/
theorem drain_run (lost : Cpu → Nat) (l : List (Cpu × UInt64 × α)) : ∀ {s : Pipe α Cpu},
    s.pc = .select → s.ctxDone = false → s.rings = ringOf lost l →
    ∃ t, Trace.run step s (drain l) = some t ∧
      t.pc = .select ∧ t.ctxDone = false ∧ (t.rings = fun c => ⟨[], lost c⟩) ∧
      t.between = s.between ∧ t.pushed = s.pushed ∧
      t.queue.items = s.queue.items.drop l.length ∧
      ∃ more, t.printed = s.printed ++ more ∧ more.length = l.length ∧
        ∀ x ∈ more, x ∈ s.queue.items ∨ x = s.dbCtx := by
  induction l with
  | nil =>
    intro s hpc hctx hr
    exact ⟨s, rfl, hpc, hctx, hr, rfl, rfl, rfl, [], by simp⟩
  | cons e l ih =>
    intro s hpc hctx hr
    have hcons : (drain (e :: l) : List (Action α Cpu)) = drain [e] ++ drain l := by simp [drain]
    rw [hcons, Trace.run_append_of_eq (round_run hpc hctx hr)]
    rcases popPrint_cases { s with pc := .lookup, rings := ringOf lost l } with
      ⟨x, q, hq, hpop⟩ | ⟨hq, hpop⟩
    all_goals simp only at hq
    · rw [hpop]
      obtain ⟨t, hrun, htpc, htctx, htr, htb, htp, htq, more, hmore, hlen, hmem⟩ := ih
        (s := { s with queue := q, pc := .select, rings := ringOf lost l, dbCtx := x,
                       printed := s.printed ++ [x] }) rfl hctx rfl
      refine ⟨t, hrun, htpc, htctx, htr, htb, htp, by simp [htq, hq], x :: more, ?_, ?_, ?_⟩
      · simp [hmore]
      · simp [hlen]
      · intro y hy
        rcases List.mem_cons.mp hy with rfl | hy
        · exact Or.inl (by simp [hq])
        · rcases hmem y hy with hy | rfl
          · exact Or.inl (by simp [hq, hy])
          · exact Or.inl (by simp [hq])
    · rw [hpop]
      obtain ⟨t, hrun, htpc, htctx, htr, htb, htp, htq, more, hmore, hlen, hmem⟩ := ih
        (s := { s with pc := .select, rings := ringOf lost l, printed := s.printed ++ [s.dbCtx] })
        rfl hctx rfl
      refine ⟨t, hrun, htpc, htctx, htr, htb, htp, by simp [htq, hq], s.dbCtx :: more, ?_, ?_, ?_⟩
      · simp [hmore]
      · simp [hlen]
      · intro y hy
        rcases List.mem_cons.mp hy with rfl | hy
        · exact Or.inr rfl
        · exact hmem y hy

/-! ## Order -/

/-- The pump finds a record for the event it acts on. -/
def FindsRecord (s : Pipe α Cpu) : Action α Cpu → Prop
  | .lookup true => s.queue.items ≠ []
  | _ => True

instance (s : Pipe α Cpu) : ∀ a, Decidable (s.FindsRecord a)
  | .lookup true => inferInstanceAs (Decidable (s.queue.items ≠ []))
  | .lookup false | .push .. | .emit .. | .cancel | .select | .read _ | .readErr _ => isTrue trivial

theorem sublist_step {s t : Pipe α Cpu} {a : Action α Cpu}
    (hs : (s.printed ++ s.queue.items).Sublist s.pushed) (hg : s.FindsRecord a)
    (h : step s a = some t) : (t.printed ++ t.queue.items).Sublist t.pushed := by
  cases a with
  | push cpu gtid record =>
    cases h
    exact EvictQueue.append_push_sublist hs record
  | emit i fits =>
    obtain ⟨cpu, gtid, _, rfl⟩ := emit_spec h
    exact hs
  | cancel =>
    cases h
    exact hs
  | select =>
    obtain ⟨_, rfl⟩ := select_spec h
    exact hs
  | read cpu =>
    obtain ⟨_, rest, ⟨gtid, _, rfl⟩ | ⟨n, _, rfl⟩⟩ := read_cases h
    · exact hs
    · exact hs
  | readErr closed =>
    obtain ⟨_, rfl⟩ := readErr_spec h
    exact hs
  | lookup ok =>
    obtain ⟨_, rfl⟩ := lookup_spec h
    cases ok with
    | false => exact hs
    | true =>
      rcases popPrint_cases s with ⟨x, q, hq, hpop⟩ | ⟨hempty, _⟩
      · rw [if_pos rfl, hpop]
        rw [hq] at hs
        simpa using hs
      · exact absurd hempty hg

/-- **No record is printed out of nothing or twice**, for any losses and overflows, while the
pump finds a record for every event it acts on. -/
theorem printed_sublist (zero : α) (as : List (Action α Cpu)) (s : Pipe α Cpu)
    (h : Trace.run step (init zero) as = some s)
    (hg : Trace.Meets step FindsRecord (init zero) as) : s.printed.Sublist s.pushed := by
  have hs : (s.printed ++ s.queue.items).Sublist s.pushed :=
    Trace.run_invariant_of_meets (I := fun s => (s.printed ++ s.queue.items).Sublist s.pushed)
      (fun _ _ _ hs hg ht => sublist_step hs hg ht) (List.Sublist.refl _) hg h
  exact (List.sublist_append_left _ _).trans hs

/-! ### The queue overflows once -/

/-- **An overflow makes the pump print a record again**: 5120 records are queued, one more push
drops the first of them, and the pump acts on all 5121 events. -/
theorem overflow_run {zero a b : α} (ha : a ≠ zero) (hab : a ≠ b) {l : List (Cpu × UInt64 × α)}
    (hl : ∀ e ∈ l, e.2.2 = b) (hlen : l.length + 1 = 5120) (c : Cpu) (gtid : UInt64)
    (e : Cpu × UInt64) : ∃ s, Trace.run step (init zero) (fill ((c, gtid, a) :: l) ++
        fill [(e.1, e.2, b)] ++ drain ((c, gtid, a) :: l ++ [(e.1, e.2, b)])) = some s ∧
      ¬ s.printed.Sublist s.pushed := by
  have hcap : (init zero : Pipe α Cpu).queue.items.length + ((c, gtid, a) :: l).length ≤ 5120 := by
    simp [init, EvictQueue.empty, hlen]
  obtain ⟨q, hq, hrun⟩ := fill_run ((c, gtid, a) :: l) (s := init zero) (m := []) rfl rfl hcap
  have hfill : Trace.run step (init zero) (fill ((c, gtid, a) :: l)) = some
      ⟨q, ringOf 0 ((c, gtid, a) :: l), [], .select, false, zero, a :: l.map (·.2.2), []⟩ := hrun
  have hpush : Trace.run step
      ⟨q, ringOf 0 ((c, gtid, a) :: l), [], .select, false, zero, a :: l.map (·.2.2), []⟩
      (fill [(e.1, e.2, b)]) = some ⟨q.push b, ringOf 0 ((c, gtid, a) :: l ++ [(e.1, e.2, b)]), [],
        .select, false, zero, a :: l.map (·.2.2) ++ [b], []⟩ := push_emit rfl rfl _
  have hfull : ¬ q.items.length < 5120 := by
    simp [hq, init, EvictQueue.empty, hlen]
  have hq' : (q.push b).items = l.map (·.2.2) ++ [b] := by
    simp [EvictQueue.push_of_not_lt hfull, hq, init, EvictQueue.empty]
  obtain ⟨t, hdrain, -, -, -, -, htp, -, more, hmore, hmlen, hmem⟩ := drain_run 0
    ((c, gtid, a) :: l ++ [(e.1, e.2, b)]) (s := ⟨q.push b, ringOf 0
      ((c, gtid, a) :: l ++ [(e.1, e.2, b)]), [], .select, false, zero,
      a :: l.map (·.2.2) ++ [b], []⟩) rfl rfl rfl
  refine ⟨t, ?_, fun hsub => ?_⟩
  · rw [List.append_assoc, Trace.run_append_of_eq hfill, Trace.run_append_of_eq hpush]
    exact hdrain
  · have heq : t.printed = t.pushed := by
      apply hsub.eq_of_length
      simp [hmore, htp, hmlen]
    have hmem_a : a ∈ more := by
      have hin : a ∈ t.pushed := by simp [htp]
      rw [← heq, hmore] at hin
      simpa [init] using hin
    rcases hmem a hmem_a with hin | hzero
    · have hin' : a ∈ l.map (·.2.2) ++ [b] := hq' ▸ hin
      rcases List.mem_append.mp hin' with hin' | hin'
      · obtain ⟨f, hf, hfa⟩ := List.mem_map.mp hin'
        exact hab (hfa.symm.trans (hl f hf))
      · exact hab (List.mem_singleton.mp hin')
    · exact ha hzero

/-- Records that differ in their thread only. -/
def recordOf (gtid : UInt64) : DbCtx := { DbCtx.zero with gtid := gtid }

theorem recordOf_ne {g h : UInt64} (hne : g ≠ h) : recordOf g ≠ recordOf h :=
  fun heq => hne (congrArg DbCtx.gtid heq)

/-- `n` queries of one thread, round-robin over 31 CPUs. -/
def roundRobin (n : Nat) (gtid : UInt64) : List (Fin 31 × UInt64 × DbCtx) :=
  (List.range n).map fun i => (Fin.ofNat 31 (i + 1), gtid, recordOf gtid)

/-- On 31 CPUs with room for 166 samples in each ring: 5121 queries before the pump reads. -/
theorem stale_record_printed : ∃ s, Trace.run step (init DbCtx.zero)
      (fill ((0, 1, recordOf 1) :: roundRobin 5119 2) ++ fill [(5, 2, recordOf 2)] ++
        drain ((0, 1, recordOf 1) :: roundRobin 5119 2 ++ [(5, 2, recordOf 2)])) = some s ∧
    ¬ s.printed.Sublist s.pushed := by
  refine overflow_run (recordOf_ne (h := 0) (by decide)) (recordOf_ne (by decide)) ?_ ?_ 0 1 (5, 2)
  · intro e he
    obtain ⟨i, _, rfl⟩ := List.mem_map.mp he
    rfl
  · simp [roundRobin]

/-- Two queries on two CPUs; the second handler emits its event first. -/
def twoQueries : List (Action DbCtx (Fin 2)) :=
  [.push 0 17 (recordOf 17), .push 1 19 (recordOf 19), .emit 1 true, .emit 0 true,
    .select, .read 1, .lookup true, .select, .read 0, .lookup true]

theorem printed_sublist_twoQueries : ∃ s, Trace.run step (init DbCtx.zero) twoQueries = some s ∧
    s.printed.Sublist s.pushed ∧ s.printed = [recordOf 17, recordOf 19] :=
  ⟨_, rfl, printed_sublist _ twoQueries _ rfl (by decide), rfl⟩

/-! ## Delivery without losses -/

variable [Fintype Cpu]

/-- The events that will still make the pump take a record: samples in the rings, the one in its
hand, and those of the handlers that have not emitted theirs. -/
def backing (s : Pipe α Cpu) : Nat := ∑ c, (s.rings c).samples + s.held + s.between.length

/-- No sample is lost, the queue has room for every push, the reader and the queue report no
error, and the context is not cancelled. -/
def Lossless (s : Pipe α Cpu) : Action α Cpu → Prop
  | .push .. => s.queue.items.length < 5120
  | .emit _ fits => fits = true
  | .cancel => False
  | .readErr _ => False
  | .lookup ok => ok = true
  | _ => True

instance (s : Pipe α Cpu) : ∀ a, Decidable (s.Lossless a)
  | .push .. => inferInstanceAs (Decidable (_ < _))
  | .emit _ fits => inferInstanceAs (Decidable (fits = true))
  | .cancel | .readErr _ => isFalse id
  | .lookup ok => inferInstanceAs (Decidable (ok = true))
  | .select | .read _ => isTrue trivial

omit [DecidableEq Cpu] in
theorem backing_push (s : Pipe α Cpu) (cpu : Cpu) (gtid : UInt64) (record : α) :
    (s.push cpu gtid record).backing = s.backing + 1 := by
  have hheld : (s.push cpu gtid record).held = s.held := rfl
  have hrings : (s.push cpu gtid record).rings = s.rings := rfl
  have hlen : (s.push cpu gtid record).between.length = s.between.length + 1 := by
    simp [push]
  unfold backing
  rw [hheld, hrings, hlen]
  omega

theorem backing_emit {s t : Pipe α Cpu} {i : Nat} {fits : Bool} (h : s.emit i fits = some t) :
    t.backing + (if fits then 0 else 1) = s.backing := by
  obtain ⟨cpu, gtid, hb, rfl⟩ := emit_spec h
  have hlt : i < s.between.length := (List.getElem?_eq_some_iff.mp hb).1
  have hsum := sum_update_add Ring.samples s.rings cpu ((s.rings cpu).output gtid fits)
  rw [Ring.samples_output] at hsum
  simp only [backing, held, List.length_eraseIdx, hlt, ↓reduceIte]
  cases fits <;> simp only [↓reduceIte, Bool.false_eq_true] at hsum ⊢ <;> omega

theorem backing_read {s t : Pipe α Cpu} {cpu : Cpu} (h : s.read cpu = some t) :
    t.backing = s.backing := by
  obtain ⟨hpc, rest, ⟨gtid, hr, rfl⟩ | ⟨n, hr, rfl⟩⟩ := read_cases h
  · have hsum := sum_update_add Ring.samples s.rings cpu { s.rings cpu with records := rest }
    simp only [Ring.samples, hr, List.map_cons, List.sum_cons, PerfRecord.samples] at hsum
    simp only [backing, held, hpc, Ring.samples, reduceCtorEq, ↓reduceIte]
    omega
  · have hsum := sum_update_add Ring.samples s.rings cpu { s.rings cpu with records := rest }
    simp only [Ring.samples, hr, List.map_cons, List.sum_cons, PerfRecord.samples] at hsum
    simp only [backing, held, hpc, Ring.samples, reduceCtorEq, ↓reduceIte]
    omega

omit [DecidableEq Cpu] in
theorem backing_lookup {s : Pipe α Cpu} (hpc : s.pc = .lookup) :
    s.popPrint.backing + 1 = s.backing := by
  rcases popPrint_cases s with ⟨x, q, _, hpop⟩ | ⟨_, hpop⟩ <;>
    · rw [hpop]
      simp only [backing, held, hpc, reduceCtorEq, ↓reduceIte]
      omega

/-- Printed records followed by the queue are the pushed records, and each queued record is
backed by one event. -/
structure Delivered (s : Pipe α Cpu) : Prop where
  records : s.printed ++ s.queue.items = s.pushed
  backed : s.backing = s.queue.items.length
  found : s.pc = .lookup → s.queue.items ≠ []

omit [DecidableEq Cpu] in
theorem Delivered.mk' {s : Pipe α Cpu} (hr : s.printed ++ s.queue.items = s.pushed)
    (hb : s.backing = s.queue.items.length) : s.Delivered := by
  refine ⟨hr, hb, fun hpc hq => ?_⟩
  simp only [backing, held, hpc, ↓reduceIte, hq, List.length_nil] at hb
  omega

theorem delivered_step {s t : Pipe α Cpu} {a : Action α Cpu} (hs : s.Delivered)
    (hg : s.Lossless a) (h : step s a = some t) : t.Delivered := by
  obtain ⟨hrec, hback, hfound⟩ := hs
  cases a with
  | push cpu gtid record =>
    cases h
    have hitems : (s.push cpu gtid record).queue.items = s.queue.items ++ [record] :=
      EvictQueue.push_of_lt hg record
    refine .mk' ?_ ?_
    · rw [hitems, ← List.append_assoc]
      exact congrArg (· ++ [record]) hrec
    · rw [backing_push, hitems, hback]
      simp
  | emit i fits =>
    have hfits : fits = true := hg
    have hb := backing_emit h
    rw [hfits, if_pos rfl, Nat.add_zero] at hb
    obtain ⟨cpu, gtid, _, rfl⟩ := emit_spec h
    exact .mk' hrec (hb.trans hback)
  | cancel => exact hg.elim
  | readErr closed => exact hg.elim
  | select =>
    obtain ⟨hpc, rfl⟩ := select_spec h
    refine .mk' hrec ?_
    rw [← hback]
    cases hctx : s.ctxDone <;> simp [backing, held, hpc]
  | read cpu =>
    have hb := backing_read h
    obtain ⟨_, rest, ⟨gtid, _, rfl⟩ | ⟨n, _, rfl⟩⟩ := read_cases h
    · exact .mk' hrec (hb.trans hback)
    · exact .mk' hrec (hb.trans hback)
  | lookup ok =>
    obtain ⟨hpc, rfl⟩ := lookup_spec h
    have hok : ok = true := hg
    have hb := backing_lookup hpc
    rw [hok, if_pos rfl]
    rcases popPrint_cases s with ⟨x, q, hq, hpop⟩ | ⟨hempty, _⟩
    · rw [hpop] at hb ⊢
      rw [hq] at hrec hback
      refine .mk' ?_ ?_
      · simpa using hrec
      · show _ = q.items.length
        rw [List.length_cons] at hback
        omega
    · exact absurd hempty (hfound hpc)

/-- **Exactly once, in order.** Without losses and overflows, in every state: the printed records
followed by the queue are the pushed records, the events not acted on plus the handlers between
push and event are as many as the queued records, and an event in the hand of the pump finds a
record. -/
theorem delivery (zero : α) (as : List (Action α Cpu)) (s : Pipe α Cpu)
    (h : Trace.run step (init zero) as = some s)
    (hg : Trace.Meets step Lossless (init zero) as) :
    s.printed ++ s.queue.items = s.pushed ∧
    ∑ c, (s.rings c).samples + s.held + s.between.length = s.queue.items.length ∧
    (s.pc = .lookup → s.queue.items ≠ []) := by
  have hs : s.Delivered := by
    refine Trace.run_invariant_of_meets (I := Delivered)
      (fun _ _ _ hs hg ht => delivered_step hs hg ht) (.mk' rfl ?_) hg h
    simp [backing, held, init, Ring.empty, Ring.samples]
  exact ⟨hs.records, hs.backed, hs.found⟩

theorem delivery_twoQueries : ∃ s, Trace.run step (init DbCtx.zero) twoQueries = some s ∧
    s.printed ++ s.queue.items = s.pushed ∧
    ∑ c, (s.rings c).samples + s.held + s.between.length = s.queue.items.length ∧
    (s.pc = .lookup → s.queue.items ≠ []) :=
  ⟨_, rfl, delivery _ twoQueries _ rfl (by decide)⟩

/-! ## Backlog -/

/-- An event goes without a pop, its sample lost or the lookup failed, only when the queue holds
fewer records than there are events to come. -/
def Covered (s : Pipe α Cpu) : Action α Cpu → Prop
  | .emit _ false => s.queue.items.length < s.backing
  | .lookup false => s.queue.items.length < s.backing
  | _ => True

instance (s : Pipe α Cpu) : ∀ a, Decidable (s.Covered a)
  | .emit _ false | .lookup false => inferInstanceAs (Decidable (_ < _))
  | .emit _ true | .lookup true | .push .. | .cancel | .select | .read _ | .readErr _ =>
    isTrue trivial

/-- The pump has caught up: every perf record was consumed and no handler is in between. -/
def CaughtUp (s : Pipe α Cpu) : Prop :=
  (∀ c, (s.rings c).records = []) ∧ s.pc ≠ .lookup ∧ s.between = []

theorem backed_step {s t : Pipe α Cpu} {a : Action α Cpu}
    (hs : s.queue.items.length ≤ s.backing) (hg : s.Covered a) (h : step s a = some t) :
    t.queue.items.length ≤ t.backing := by
  cases a with
  | push cpu gtid record =>
    cases h
    rw [backing_push]
    exact (EvictQueue.length_push_le s.queue record).trans (Nat.add_le_add_right hs 1)
  | emit i fits =>
    have hb := backing_emit h
    obtain ⟨cpu, gtid, _, rfl⟩ := emit_spec h
    cases fits with
    | true =>
      simp only [↓reduceIte] at hb
      exact hs.trans (by omega)
    | false =>
      have hlt : s.queue.items.length < s.backing := hg
      simp only [Bool.false_eq_true, ↓reduceIte] at hb
      show s.queue.items.length ≤ _
      omega
  | cancel =>
    cases h
    exact hs
  | select =>
    obtain ⟨hpc, rfl⟩ := select_spec h
    refine hs.trans (Nat.le_of_eq ?_)
    cases hctx : s.ctxDone <;> simp [backing, held, hpc]
  | read cpu =>
    have hb := backing_read h
    obtain ⟨_, rest, ⟨gtid, _, rfl⟩ | ⟨n, _, rfl⟩⟩ := read_cases h
    · exact hs.trans (Nat.le_of_eq hb.symm)
    · exact hs.trans (Nat.le_of_eq hb.symm)
  | readErr closed =>
    obtain ⟨hpc, rfl⟩ := readErr_spec h
    refine hs.trans (Nat.le_of_eq ?_)
    cases closed <;> simp [backing, held, hpc]
  | lookup ok =>
    obtain ⟨hpc, rfl⟩ := lookup_spec h
    cases ok with
    | false =>
      have hlt : s.queue.items.length < s.backing := hg
      simp only [backing, held, hpc, ↓reduceIte, Bool.false_eq_true, reduceCtorEq] at hlt ⊢
      omega
    | true =>
      have hb := backing_lookup hpc
      rw [if_pos rfl]
      rcases popPrint_cases s with ⟨x, q, hq, hpop⟩ | ⟨hempty, hpop⟩
      · rw [hpop] at hb ⊢
        rw [hq, List.length_cons] at hs
        show q.items.length ≤ _
        omega
      · rw [hpop]
        show s.queue.items.length ≤ _
        rw [hempty]
        exact Nat.zero_le _

/-- **The pump keeps up**: in a run where every event without a pop is covered by a dropped
record, the queue is empty whenever the pump has caught up, and it never holds more records than
there are events (delivered or lost) the pump has not consumed or been notified of, plus the
handlers in between. -/
theorem backlog (zero : α) (as : List (Action α Cpu)) (s : Pipe α Cpu)
    (h : Trace.run step (init zero) as = some s)
    (hg : Trace.Meets step Covered (init zero) as) :
    (s.CaughtUp → s.queue.items = []) ∧
    s.queue.items.length ≤ s.backing + ∑ c, (s.rings c).lostSamples := by
  have hs : s.queue.items.length ≤ s.backing :=
    Trace.run_invariant_of_meets (I := fun s => s.queue.items.length ≤ s.backing)
      (fun _ _ _ hs hg ht => backed_step hs hg ht) (Nat.zero_le _) hg h
  refine ⟨fun ⟨hr, hpc, hb⟩ => ?_, hs.trans (Nat.le_add_right _ _)⟩
  have h0 : s.backing = 0 := by simp [backing, held, hpc, hb, hr, Ring.samples]
  rw [h0] at hs
  exact List.length_eq_zero_iff.mp (Nat.le_zero.mp hs)

theorem backlog_twoQueries : ∃ s, Trace.run step (init DbCtx.zero) twoQueries = some s ∧
    (s.CaughtUp → s.queue.items = []) ∧
    s.queue.items.length ≤ s.backing + ∑ c, (s.rings c).lostSamples :=
  ⟨_, rfl, backlog _ twoQueries _ rfl (by decide)⟩

omit [Fintype Cpu] in
/-- A query finds its ring full of the events of `l`. -/
theorem full_run (zero a : α) {l : List (Cpu × UInt64 × α)} (hlen : l.length + 2 ≤ 5120)
    (c : Cpu) (g : UInt64) : ∃ q : EvictQueue α 5120, q.items = l.map (·.2.2) ++ [a] ∧
      Trace.run step (init zero) (fill l ++ [.push c g a, .emit 0 false]) =
        some ⟨q, ringOf (Function.update (fun _ => 0) c 1) l, [], .select, false, zero,
          l.map (·.2.2) ++ [a], []⟩ := by
  have hcap : (init zero : Pipe α Cpu).queue.items.length + l.length ≤ 5120 := by
    simp [init, EvictQueue.empty]
    omega
  obtain ⟨q, hq, hrun⟩ := fill_run l (s := init zero) (m := []) rfl rfl hcap
  have hq0 : q.items = l.map (·.2.2) := hq
  have hfill : Trace.run step (init zero) (fill l) = some
      ⟨q, ringOf 0 l, [], .select, false, zero, l.map (·.2.2), []⟩ := hrun
  have hlost : Function.update (ringOf 0 l) c ((ringOf 0 l c).output g false) =
      ringOf (Function.update (fun _ => 0) c 1) l := by
    funext c'
    rcases eq_or_ne c' c with rfl | hc
    · simp [ringOf, Ring.output]
    · simp [ringOf, hc]
  refine ⟨q.push a, ?_, ?_⟩
  · rw [EvictQueue.push_of_lt (by simp [hq0]; omega), hq0]
  · rw [Trace.run_append_of_eq hfill]
    simp [Trace.run, step, push, emit, hlost]

omit [Fintype Cpu] in
/-- The event of the next query brings the notice of the lost one: the pump reads both and acts on
one of them. -/
theorem notice_run {q : EvictQueue α 5120} {a b : α} (hq : q.items = [a]) (c : Cpu) (g : UInt64)
    (dbCtx : α) (pushed printed : List α) :
    ∃ s, Trace.run step ⟨q, fun c' => ⟨[], Function.update (fun _ => 0) c 1 c'⟩, [], .select, false,
        dbCtx, pushed, printed⟩
        ([.push c g b, .emit 0 true, .select, .read c, .select, .read c, .lookup true]) = some s ∧
      s.CaughtUp ∧ s.queue.items = [b] := by
  have hpush : (q.push b).items = [a, b] := by
    rw [EvictQueue.push_of_lt (by simp [hq]), hq]
    rfl
  obtain ⟨u, hu⟩ : ∃ u : Pipe α Cpu, u = ⟨q.push b, Function.update
    (fun c' => ⟨[], Function.update (fun _ => 0) c 1 c'⟩) c ⟨[], 0⟩, [], .lookup, false, dbCtx,
    pushed ++ [b], printed⟩ := ⟨_, rfl⟩
  have hemit : Trace.run step ⟨q, fun c' => ⟨[], Function.update (fun _ => 0) c 1 c'⟩, [], .select,
      false, dbCtx, pushed, printed⟩ [.push c g b, .emit 0 true] = some ⟨q.push b, Function.update
        (fun c' => ⟨[], Function.update (fun _ => 0) c 1 c'⟩) c ⟨[.lost 1, .sample g], 0⟩, [],
        .select, false, dbCtx, pushed ++ [b], printed⟩ := by
    simp [Trace.run, step, push, emit, Ring.output]
  have hread : Trace.run step ⟨q.push b, Function.update
      (fun c' => ⟨[], Function.update (fun _ => 0) c 1 c'⟩) c ⟨[.lost 1, .sample g], 0⟩, [],
      .select, false, dbCtx, pushed ++ [b], printed⟩
      [.select, .read c, .select, .read c, .lookup true] = some u.popPrint := by
    simp [Trace.run, step, read, hu]
  refine ⟨u.popPrint, (Trace.run_append_of_eq hemit _).trans hread, ?_⟩
  have hitems : u.queue.items = [a, b] := by rw [hu, hpush]
  rcases popPrint_cases u with ⟨x, rest, hrest, hpop⟩ | ⟨hempty, _⟩
  · rw [hpop]
    have hx : a :: [b] = x :: rest.items := hitems.symm.trans hrest
    refine ⟨⟨fun c' => ?_, by simp, by simp [hu]⟩, (List.cons.inj hx).2.symm⟩
    subst hu
    rcases eq_or_ne c' c with rfl | hc
    · simp
    · simp [hc]
  · exact absurd (hitems.symm.trans hempty) (by simp)

omit [Fintype Cpu] in
/-- **One lost sample leaves one record behind**: a query finds its ring full of the events of
`l`; the pump acts on all of these, then on the event of one more query, which brings the
notice. -/
theorem loss_run {zero a b : α} {l : List (Cpu × UInt64 × α)} (hlen : l.length + 2 ≤ 5120)
    (c : Cpu) (g g' : UInt64) : ∃ s, Trace.run step (init zero) (fill l ++
        ([.push c g a, .emit 0 false] ++ (drain l ++ [.push c g' b, .emit 0 true, .select, .read c,
          .select, .read c, .lookup true]))) = some s ∧
      s.CaughtUp ∧ s.queue.items = [b] := by
  obtain ⟨q, hq, hfull⟩ := full_run zero a hlen c g
  obtain ⟨t, hdrain, htpc, htctx, htr, htb, -, htq, -⟩ :=
    drain_run (Function.update (fun _ => 0) c 1) l
      (s := ⟨q, ringOf (Function.update (fun _ => 0) c 1) l, [], .select, false, zero,
        l.map (·.2.2) ++ [a], []⟩) rfl rfl rfl
  simp only [hq] at htq
  have hta : t.queue.items = [a] := by simpa using htq
  obtain ⟨queue, rings, between, pc, ctxDone, dbCtx, pushed, printed⟩ := t
  simp only at htpc htctx htr htb hta
  subst htpc htctx htr htb
  obtain ⟨s, hs, hcaught, hleft⟩ := notice_run (b := b) hta c g' dbCtx pushed printed
  refine ⟨s, ?_, hcaught, hleft⟩
  rw [← List.append_assoc, Trace.run_append_of_eq hfull, Trace.run_append_of_eq hdrain]
  exact hs

/-- `n` queries of one thread on the one CPU of the machine. -/
def onOneCpu (n : Nat) (gtid : UInt64) : List (Fin 1 × UInt64 × DbCtx) :=
  List.replicate n (0, gtid, recordOf gtid)

/-- The ring holds 170 samples, and a 171st query finds it full. -/
theorem backlog_left : ∃ s, Trace.run step (init DbCtx.zero) (fill (onOneCpu 170 17) ++
      ([.push 0 19 (recordOf 19), .emit 0 false] ++ (drain (onOneCpu 170 17) ++
        [.push 0 23 (recordOf 23), .emit 0 true, .select, .read 0, .select, .read 0,
          .lookup true]))) = some s ∧
    s.CaughtUp ∧ s.queue.items = [recordOf 23] := by
  refine loss_run ?_ 0 19 23
  rw [onOneCpu, List.length_replicate]
  omega

end Pipe

end EDGuard
