import EDGuard.Lib.Trace
import EDGuard.Lib.EvictQueue
import EDGuard.Record
import Mathlib.Logic.Function.Basic

/-!
# The pump and its two channels (`internal/task/pump/pump.go`)

A return handler first pushes its record on `db_ctx_queue` and then emits one perf event on the
ring of its CPU.  The pump reads one event at a time, from any ring, and takes one record from the
queue for it.  The two channels are independent: the queue drops its oldest record when it is
full, a ring loses a sample when it is full and reports the number of lost samples with the next
sample that fits.

* `Pipe` — the queue, the rings, the handlers between push and event, and the pump.
* `step` — one step of a handler or of the loop of `eventPump.Start`; `printed` and `pushed` are
  the observed sequences.

The record type is a parameter: the pump never looks into a record.
-/

set_option autoImplicit false

namespace EDGuard

/-- A record of a perf ring: a sample, or a notice with `LostSamples > 0`. -/
inductive PerfRecord where
  | sample (gtid : UInt64)
  | lost (lostSamples : Nat)
  deriving DecidableEq

/-- A perf ring: the records to be read and the samples lost since the last notice. -/
structure Ring where
  records : List PerfRecord
  unreported : Nat
  deriving DecidableEq

def Ring.empty : Ring := ⟨[], 0⟩

/-- `bpf_perf_event_output`: a sample that fits is preceded by the notice that is due. -/
def Ring.output (r : Ring) (gtid : UInt64) (fits : Bool) : Ring :=
  if fits then
    ⟨r.records ++ (if r.unreported = 0 then [] else [.lost r.unreported]) ++ [.sample gtid], 0⟩
  else { r with unreported := r.unreported + 1 }

/-- Where the loop of `eventPump.Start` stands. -/
inductive PumpPc where
  /-- at the `select` -/
  | select
  /-- in `rd.Read` -/
  | read
  /-- before `LookupAndDelete`, with an event in hand -/
  | lookup
  /-- returned -/
  | stopped
  deriving DecidableEq

structure Pipe (α Cpu : Type) where
  queue : EvictQueue α 5120
  rings : Cpu → Ring
  /-- handlers that have pushed and not emitted their event so far -/
  between : List (Cpu × UInt64)
  pc : PumpPc
  ctxDone : Bool
  dbCtx : α
  pushed : List α
  printed : List α

namespace Pipe

variable {α Cpu : Type}

/-- `zero` is the zero value of `var dbCtx`. -/
def init (zero : α) : Pipe α Cpu :=
  ⟨.empty, fun _ => .empty, [], .select, false, zero, [], []⟩

inductive Action (α Cpu : Type) where
  | push (cpu : Cpu) (gtid : UInt64) (record : α)
  | emit (i : Nat) (fits : Bool)
  | cancel
  | select
  | read (cpu : Cpu)
  | readErr (closed : Bool)
  | lookup (ok : Bool)

/-- `bpf_map_push_elem(&db_ctx_queue, db_ctx, BPF_EXIST)`. -/
def push (s : Pipe α Cpu) (cpu : Cpu) (gtid : UInt64) (record : α) : Pipe α Cpu :=
  { s with
    queue := s.queue.push record
    between := s.between ++ [(cpu, gtid)]
    pushed := s.pushed ++ [record] }

/-- `LookupAndDelete` without an error other than `ErrKeyNotExist`, then `Print`: on the empty
queue `dbCtx` keeps its value and is printed all the same. -/
def popPrint (s : Pipe α Cpu) : Pipe α Cpu :=
  match s.queue.pop with
  | some (x, q) => { s with queue := q, pc := .select, dbCtx := x, printed := s.printed ++ [x] }
  | none => { s with pc := .select, printed := s.printed ++ [s.dbCtx] }

variable [DecidableEq Cpu]

/-- The `i`-th pending handler emits its event. -/
def emit (s : Pipe α Cpu) (i : Nat) (fits : Bool) : Option (Pipe α Cpu) :=
  match s.between[i]? with
  | none => none
  | some (cpu, gtid) => some { s with
      between := s.between.eraseIdx i
      rings := Function.update s.rings cpu ((s.rings cpu).output gtid fits) }

/-- `rd.Read` returns the next record of a ring; a notice is only logged. -/
def read (s : Pipe α Cpu) (cpu : Cpu) : Option (Pipe α Cpu) :=
  match s.pc, (s.rings cpu).records with
  | .read, .sample _ :: rest => some { s with
      pc := .lookup
      rings := Function.update s.rings cpu { s.rings cpu with records := rest } }
  | .read, .lost _ :: rest => some { s with
      pc := .select
      rings := Function.update s.rings cpu { s.rings cpu with records := rest } }
  | _, _ => none

def step (s : Pipe α Cpu) : Action α Cpu → Option (Pipe α Cpu)
  | .push cpu gtid record => some (s.push cpu gtid record)
  | .emit i fits => s.emit i fits
  | .cancel => some { s with ctxDone := true }
  | .select =>
    if s.pc = .select then some { s with pc := if s.ctxDone then .stopped else .read } else none
  | .read cpu => s.read cpu
  | .readErr closed =>
    if s.pc = .read then some { s with pc := if closed then .stopped else .select } else none
  | .lookup ok =>
    if s.pc = .lookup then some (if ok then s.popPrint else { s with pc := .stopped }) else none

/-! ## What one step can do -/

theorem emit_spec {s t : Pipe α Cpu} {i : Nat} {fits : Bool} (h : s.emit i fits = some t) :
    ∃ cpu gtid, s.between[i]? = some (cpu, gtid) ∧ t = { s with
      between := s.between.eraseIdx i
      rings := Function.update s.rings cpu ((s.rings cpu).output gtid fits) } := by
  unfold emit at h
  split at h
  · cases h
  · rename_i cpu gtid hb
    cases h
    exact ⟨cpu, gtid, hb, rfl⟩

theorem read_cases {s t : Pipe α Cpu} {cpu : Cpu} (h : s.read cpu = some t) :
    s.pc = .read ∧ ∃ rest,
      ((∃ gtid, (s.rings cpu).records = .sample gtid :: rest ∧ t = { s with
          pc := .lookup
          rings := Function.update s.rings cpu { s.rings cpu with records := rest } }) ∨
        (∃ n, (s.rings cpu).records = .lost n :: rest ∧ t = { s with
          pc := .select
          rings := Function.update s.rings cpu { s.rings cpu with records := rest } })) := by
  unfold read at h
  split at h
  · rename_i gtid rest hpc hr
    cases h
    exact ⟨hpc, rest, Or.inl ⟨gtid, hr, rfl⟩⟩
  · rename_i n rest hpc hr
    cases h
    exact ⟨hpc, rest, Or.inr ⟨n, hr, rfl⟩⟩
  · cases h

omit [DecidableEq Cpu] in
theorem popPrint_cases (s : Pipe α Cpu) :
    (∃ x q, s.queue.items = x :: q.items ∧ s.popPrint =
      { s with queue := q, pc := .select, dbCtx := x, printed := s.printed ++ [x] }) ∨
    (s.queue.items = [] ∧ s.popPrint =
      { s with pc := .select, printed := s.printed ++ [s.dbCtx] }) := by
  unfold popPrint
  cases hp : s.queue.pop with
  | none => exact Or.inr ⟨EvictQueue.pop_eq_none_iff.mp hp, rfl⟩
  | some p => exact Or.inl ⟨p.1, p.2, EvictQueue.pop_eq_some hp, rfl⟩

theorem select_spec {s t : Pipe α Cpu} (h : step s .select = some t) :
    s.pc = .select ∧ t = { s with pc := if s.ctxDone then .stopped else .read } := by
  simp only [step] at h
  split at h
  · rename_i hpc
    cases h
    exact ⟨hpc, rfl⟩
  · cases h

theorem readErr_spec {s t : Pipe α Cpu} {closed : Bool} (h : step s (.readErr closed) = some t) :
    s.pc = .read ∧ t = { s with pc := if closed then .stopped else .select } := by
  simp only [step] at h
  split at h
  · rename_i hpc
    cases h
    exact ⟨hpc, rfl⟩
  · cases h

theorem lookup_spec {s t : Pipe α Cpu} {ok : Bool} (h : step s (.lookup ok) = some t) :
    s.pc = .lookup ∧ t = if ok then s.popPrint else { s with pc := .stopped } := by
  simp only [step] at h
  split at h
  · rename_i hpc
    cases h
    exact ⟨hpc, rfl⟩
  · cases h

end Pipe

end EDGuard
