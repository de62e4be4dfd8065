import EDGuard.Probe
import EDGuard.Lib.Trace

/-!
# Runs of the probe handlers

A run interleaves, in any order: threads entering and leaving `dispatch_command`, firings of the
two handlers on any CPU, changes of the `clusters` map from user space, and records taken from
`db_ctx_queue`.

What the kernel promises is built into `step`: one thread id carries one call at a time (a thread
that dies inside a call leaves it without a return firing, and its id may then be reused by any
process), the entry firings of a call precede its return firings, and the clock never goes back.
A handler may fire any number of times for one call, or not at all.  A firing is one step: how the
firings of different CPUs interleave between lookup, clock and push is left out.

Besides the maps the state keeps what was observed: `captures` are the records the entry handler
stored, with the firing and what it found; `pushes` are the records the return handler pushed;
`served` are the calls whose entry handler got past its guards and whose return handler then found
the process registered.

`Inv` ties the slots of `thread_db_ctx_hash` to these observations: a slot that waits for its
return handler is the latest capture of its thread id and has not been pushed; any other slot was
pushed exactly once.
-/

set_option autoImplicit false

namespace EDGuard

/-- A call: the `seq`-th one made on thread id `tid`. -/
structure CallId where
  tid : UInt32
  seq : Nat
  deriving DecidableEq

/-- A call in progress. -/
structure Live where
  call : CallId
  gtid : UInt64
  regs : PtRegs
  /-- an entry firing got past the guards -/
  hit : Bool
  /-- a return handler has fired -/
  returned : Bool
  deriving DecidableEq

/-- A record stored by the entry handler, with what it was filled from: the registers, the firing,
the value found in `clusters` and what the scratch element held before. -/
structure Capture where
  call : CallId
  gtid : UInt64
  regs : PtRegs
  firing : Firing
  cluster : Option Cluster
  scratch : DbCtx
  record : DbCtx

/-- When the record was stored. -/
def Capture.now (c : Capture) : UInt64 := c.firing.now

/-- What an entry firing for the call of `l` stores. -/
def Live.capture (l : Live) (f : Firing) (cluster : Cluster) (scratch : DbCtx) : Capture :=
  ⟨l.call, l.gtid, l.regs, f, some cluster, scratch, fillDbCtx cluster l.gtid l.regs f scratch⟩

/-- A record pushed by the return handler, with the call that was returning and the latest
capture of its thread id. -/
structure Push where
  call : CallId
  gtid : UInt64
  regs : PtRegs
  firing : Firing
  cluster : Option Cluster
  source : Option Capture
  record : DbCtx

structure ProbeState where
  kernel : Kernel
  clock : UInt64
  started : UInt32 → Nat
  live : UInt32 → Option Live
  captures : List Capture
  pushes : List Push
  served : List CallId

namespace ProbeState

def init : ProbeState := ⟨.init, 0, fun _ => 0, fun _ => none, [], [], []⟩

/-- The latest record stored in the slot of `tid`. -/
def lastCapture (s : ProbeState) (tid : UInt32) : Option Capture :=
  s.captures.find? fun c => c.call.tid = tid

/-- How often the data captured for a call was pushed. -/
def recordsOf (s : ProbeState) (id : CallId) : Nat :=
  s.pushes.countP fun p => p.source.map Capture.call = some id

inductive Action where
  | enter (gtid : UInt64) (regs : PtRegs)
  | entry (tid : UInt32) (cpu : Nat) (f : Firing)
  | ret (tid : UInt32) (f : Firing)
  | leave (tid : UInt32)
  | setCluster (pid : UInt32) (cluster : Cluster)
  | delCluster (pid : UInt32)
  | pop

/-- A thread enters `dispatch_command`. -/
def enter (s : ProbeState) (gtid : UInt64) (regs : PtRegs) : Option ProbeState :=
  match s.live (tidOf gtid) with
  | some _ => none
  | none =>
    let l : Live := ⟨⟨tidOf gtid, s.started (tidOf gtid)⟩, gtid, regs, false, false⟩
    some { s with
      started := Function.update s.started (tidOf gtid) (s.started (tidOf gtid) + 1)
      live := Function.update s.live (tidOf gtid) (some l) }

/-- `mysql57_query` fires for the call of `tid`. -/
def fireEntry (s : ProbeState) (tid : UInt32) (cpu : Nat) (f : Firing) : Option ProbeState :=
  match s.live tid with
  | none => none
  | some l =>
    if l.returned ∨ f.now < s.clock then none
    else
      let r := mysql57Query s.kernel cpu l.gtid l.regs f
      let hit := l.hit || decide (s.kernel.Traced l.gtid l.regs)
      let capture := Capture.mk l.call l.gtid l.regs f (s.kernel.clusters.lookup (pidOf l.gtid))
        (s.kernel.varHolder cpu)
      some { s with
        kernel := r.1
        clock := f.now
        live := Function.update s.live tid (some { l with hit := hit })
        captures := (r.2.map capture).toList ++ s.captures }

/-- `mysql57_query_return` fires for the call of `tid`. -/
def fireReturn (s : ProbeState) (tid : UInt32) (f : Firing) : Option ProbeState :=
  match s.live tid with
  | none => none
  | some l =>
    if f.now < s.clock then none
    else
      let r := mysql57QueryReturn s.kernel l.gtid f
      let served := decide (pidOf l.gtid ∈ s.kernel.clusters.keys) && l.hit
      let push := Push.mk l.call l.gtid l.regs f (s.kernel.clusters.lookup (pidOf l.gtid))
        (s.lastCapture tid)
      some { s with
        kernel := r.1
        clock := f.now
        live := Function.update s.live tid (some { l with returned := true })
        pushes := (r.2.map push).toList ++ s.pushes
        served := if served then l.call :: s.served else s.served }

/-- The call of `tid` ends, or its thread dies. -/
def leave (s : ProbeState) (tid : UInt32) : Option ProbeState :=
  match s.live tid with
  | none => none
  | some _ => some { s with live := Function.update s.live tid none }

def step (s : ProbeState) : Action → Option ProbeState
  | .enter gtid regs => s.enter gtid regs
  | .entry tid cpu f => s.fireEntry tid cpu f
  | .ret tid f => s.fireReturn tid f
  | .leave tid => s.leave tid
  | .setCluster pid cluster => (s.kernel.clusters.update pid cluster).map fun m =>
      { s with kernel := { s.kernel with clusters := m } }
  | .delCluster pid => (s.kernel.clusters.delete pid).map fun m =>
      { s with kernel := { s.kernel with clusters := m } }
  | .pop => s.kernel.dbCtxQueue.pop.map fun q =>
      { s with kernel := { s.kernel with dbCtxQueue := q.2 } }

/-! ## What one step can do -/

theorem enter_spec {s t : ProbeState} {gtid : UInt64} {regs : PtRegs}
    (h : s.enter gtid regs = some t) :
    s.live (tidOf gtid) = none ∧
    t = { s with
      started := Function.update s.started (tidOf gtid) (s.started (tidOf gtid) + 1)
      live := Function.update s.live (tidOf gtid)
        (some ⟨⟨tidOf gtid, s.started (tidOf gtid)⟩, gtid, regs, false, false⟩) } := by
  unfold enter at h
  split at h
  · cases h
  · rename_i hl
    cases h
    exact ⟨hl, rfl⟩

/-- The state after `c` was stored in the slot of `tid` for the call of `l`. -/
def withCapture (s : ProbeState) (tid : UInt32) (l : Live) (c : Capture)
    (m : BoundedMap UInt32 DbCtx 1024) (v : Nat → DbCtx) : ProbeState :=
  { s with
    kernel := { s.kernel with varHolder := v, threadDbCtxHash := m }
    clock := c.now
    live := Function.update s.live tid (some { l with hit := true })
    captures := c :: s.captures }

/-- The state after the pending record `d` of `tid` was completed and pushed. -/
def withPush (s : ProbeState) (tid : UInt32) (l : Live) (f : Firing) (cluster : Cluster)
    (d : DbCtx) : ProbeState :=
  { s with
    kernel := { s.kernel with
      threadDbCtxHash := s.kernel.threadDbCtxHash.modify tid fun _ => completeDbCtx cluster f d
      dbCtxQueue := s.kernel.dbCtxQueue.push (completeDbCtx cluster f d) }
    clock := f.now
    live := Function.update s.live tid (some { l with returned := true })
    pushes := ⟨l.call, l.gtid, l.regs, f, some cluster, s.lastCapture tid,
      completeDbCtx cluster f d⟩ :: s.pushes
    served := if l.hit then l.call :: s.served else s.served }

theorem lookup_withCapture {s : ProbeState} {tid : UInt32} {l : Live} {c : Capture}
    {m : BoundedMap UInt32 DbCtx 1024} {v : Nat → DbCtx}
    (hup : s.kernel.threadDbCtxHash.update tid c.record = some m) (tid' : UInt32) :
    (s.withCapture tid l c m v).kernel.threadDbCtxHash.lookup tid' =
      if tid' = tid then some c.record else s.kernel.threadDbCtxHash.lookup tid' :=
  BoundedMap.lookup_update hup tid'

theorem lookup_withPush {s : ProbeState} {tid : UInt32} {l : Live} {f : Firing}
    {cluster : Cluster} {d : DbCtx} (hp : s.kernel.Pending tid d) (tid' : UInt32) :
    (s.withPush tid l f cluster d).kernel.threadDbCtxHash.lookup tid' =
      if tid' = tid then some (completeDbCtx cluster f d)
      else s.kernel.threadDbCtxHash.lookup tid' := by
  refine (BoundedMap.lookup_modify _ _ _ _).trans ?_
  rw [hp.1]
  rfl

/-- **An entry firing** changes at most the slot of its own thread id, and records what it
stored there. -/
theorem fireEntry_cases {s t : ProbeState} {tid : UInt32} {cpu : Nat} {f : Firing} {l : Live}
    (h : s.fireEntry tid cpu f = some t) (hl : s.live tid = some l) (htid : tidOf l.gtid = tid) :
    l.returned = false ∧ s.clock ≤ f.now ∧
    ((¬ s.kernel.Traced l.gtid l.regs ∧ t = { s with
        clock := f.now
        live := Function.update s.live tid (some l) }) ∨
    (s.kernel.Traced l.gtid l.regs ∧ ¬ s.kernel.threadDbCtxHash.Accepts tid ∧ ∃ v, t = { s with
        kernel := { s.kernel with varHolder := v }
        clock := f.now
        live := Function.update s.live tid (some { l with hit := true }) }) ∨
    (s.kernel.Traced l.gtid l.regs ∧ ∃ cluster m v c,
      s.kernel.clusters.lookup (pidOf l.gtid) = some cluster ∧
      c = l.capture f cluster (s.kernel.varHolder cpu) ∧
      s.kernel.threadDbCtxHash.update tid c.record = some m ∧
      t = s.withCapture tid l c m v)) := by
  subst htid
  unfold fireEntry at h
  rw [hl] at h
  simp only at h
  split at h
  · cases h
  · rename_i hn
    obtain ⟨hret, hclock⟩ := not_or.mp hn
    refine ⟨by simpa using hret, UInt64.not_lt.mp hclock, ?_⟩
    cases h
    rcases mysql57Query_cases s.kernel cpu l.gtid l.regs f with
      ⟨hT, hq⟩ | ⟨hT, hA, v, hq⟩ | ⟨hT, cluster, m, v, hcl, hup, hq⟩
    · refine Or.inl ⟨hT, ?_⟩
      rw [hq]
      simp [hT]
    · refine Or.inr (Or.inl ⟨hT, hA, v, ?_⟩)
      rw [hq]
      simp [hT]
    · refine Or.inr (Or.inr ⟨hT, cluster, m, v, _, hcl, rfl, hup, ?_⟩)
      rw [hq]
      simp [hT, hcl, withCapture, Live.capture, Capture.now]

/-- **A return firing** pushes the pending slot of its thread id, or leaves the maps alone. -/
theorem fireReturn_cases {s t : ProbeState} {tid : UInt32} {f : Firing} {l : Live}
    (h : s.fireReturn tid f = some t) (hl : s.live tid = some l) (htid : tidOf l.gtid = tid) :
    s.clock ≤ f.now ∧
    ((pidOf l.gtid ∉ s.kernel.clusters.keys ∧ t = { s with
        clock := f.now
        live := Function.update s.live tid (some { l with returned := true }) }) ∨
    (pidOf l.gtid ∈ s.kernel.clusters.keys ∧ (∀ d, ¬ s.kernel.Pending tid d) ∧ t = { s with
        clock := f.now
        live := Function.update s.live tid (some { l with returned := true })
        served := if l.hit then l.call :: s.served else s.served }) ∨
    (∃ cluster d, s.kernel.clusters.lookup (pidOf l.gtid) = some cluster ∧
      s.kernel.Pending tid d ∧ t = s.withPush tid l f cluster d)) := by
  subst htid
  unfold fireReturn at h
  rw [hl] at h
  simp only at h
  split at h
  · cases h
  · rename_i hclock
    refine ⟨UInt64.not_lt.mp hclock, ?_⟩
    cases h
    rcases mysql57QueryReturn_cases s.kernel l.gtid f with
      ⟨hq, hskip⟩ | ⟨cluster, d, hcl, hp, hq⟩
    · rw [hq]
      by_cases hreg : pidOf l.gtid ∈ s.kernel.clusters.keys
      · refine Or.inr (Or.inl ⟨hreg, hskip.resolve_left (fun hn => hn hreg), ?_⟩)
        simp [hreg]
      · refine Or.inl ⟨hreg, ?_⟩
        simp [hreg]
    · have hreg : pidOf l.gtid ∈ s.kernel.clusters.keys := BoundedMap.mem_keys_of_lookup hcl
      refine Or.inr (Or.inr ⟨cluster, d, hcl, hp, ?_⟩)
      rw [hq]
      simp [hreg, hcl, withPush]

theorem leave_spec {s t : ProbeState} {tid : UInt32} (h : s.leave tid = some t) :
    t = { s with live := Function.update s.live tid none } := by
  unfold leave at h
  split at h
  · cases h
  · cases h
    rfl

/-- Steps of the agent: changes of `clusters` and reads of the queue. -/
def Action.OfAgent : Action → Prop
  | .setCluster .. | .delCluster .. | .pop => True
  | _ => False

theorem agent_spec {s t : ProbeState} {a : Action} (h : step s a = some t) (ha : a.OfAgent) :
    ∃ m q, t = { s with kernel := { s.kernel with clusters := m, dbCtxQueue := q } } := by
  cases a with
  | setCluster pid cluster =>
    obtain ⟨m, _, rfl⟩ := Option.map_eq_some_iff.mp h
    exact ⟨m, _, rfl⟩
  | delCluster pid =>
    obtain ⟨m, _, rfl⟩ := Option.map_eq_some_iff.mp h
    exact ⟨m, _, rfl⟩
  | pop =>
    obtain ⟨q, _, rfl⟩ := Option.map_eq_some_iff.mp h
    exact ⟨_, q.2, rfl⟩
  | enter _ _ | entry _ _ _ | ret _ _ | leave _ => exact ha.elim

/-- The calls in progress after one of them was set. -/
theorem live_update {live : UInt32 → Option Live} {tid tid' : UInt32} {l l' : Live}
    (h : Function.update live tid (some l) tid' = some l') :
    (tid' = tid ∧ l' = l) ∨ (tid' ≠ tid ∧ live tid' = some l') := by
  by_cases ht : tid' = tid
  · subst ht
    rw [Function.update_self] at h
    exact Or.inl ⟨rfl, (Option.some.inj h).symm⟩
  · rw [Function.update_of_ne ht] at h
    exact Or.inr ⟨ht, h⟩

/-- The calls in progress after one of them has ended. -/
theorem live_ended {live : UInt32 → Option Live} {tid tid' : UInt32} {l : Live}
    (h : Function.update live tid none tid' = some l) : tid' ≠ tid ∧ live tid' = some l := by
  by_cases ht : tid' = tid
  · subst ht
    rw [Function.update_self] at h
    cases h
  · rw [Function.update_of_ne ht] at h
    exact ⟨ht, h⟩

theorem live_of_fireEntry {s t : ProbeState} {tid : UInt32} {cpu : Nat} {f : Firing}
    (h : s.fireEntry tid cpu f = some t) : ∃ l, s.live tid = some l := by
  unfold fireEntry at h
  split at h
  · cases h
  · rename_i l hl
    exact ⟨l, hl⟩

theorem live_of_fireReturn {s t : ProbeState} {tid : UInt32} {f : Firing}
    (h : s.fireReturn tid f = some t) : ∃ l, s.live tid = some l := by
  unfold fireReturn at h
  split at h
  · cases h
  · rename_i l hl
    exact ⟨l, hl⟩

/-! ## When a step is enabled -/

theorem enter_enabled {s : ProbeState} {gtid : UInt64} (h : s.live (tidOf gtid) = none)
    (regs : PtRegs) : ∃ t, s.enter gtid regs = some t := by
  unfold enter
  rw [h]
  exact ⟨_, rfl⟩

theorem fireEntry_enabled {s : ProbeState} {tid : UInt32} {l : Live} {f : Firing}
    (hl : s.live tid = some l) (hret : l.returned = false) (hnow : s.clock ≤ f.now) (cpu : Nat) :
    ∃ t, s.fireEntry tid cpu f = some t := by
  unfold fireEntry
  rw [hl]
  exact ⟨_, if_neg (by simpa [hret] using hnow)⟩

theorem fireReturn_enabled {s : ProbeState} {tid : UInt32} {l : Live} {f : Firing}
    (hl : s.live tid = some l) (hnow : s.clock ≤ f.now) : ∃ t, s.fireReturn tid f = some t := by
  unfold fireReturn
  rw [hl]
  exact ⟨_, if_neg (UInt64.not_lt.mpr hnow)⟩

theorem leave_enabled {s : ProbeState} {tid : UInt32} {l : Live} (hl : s.live tid = some l) :
    ∃ t, s.leave tid = some t := by
  unfold leave
  rw [hl]
  exact ⟨_, rfl⟩

theorem step_setCluster {s : ProbeState} {pid : UInt32} {cluster : Cluster}
    {m : BoundedMap UInt32 Cluster 1024} (h : s.kernel.clusters.update pid cluster = some m) :
    step s (.setCluster pid cluster) =
      some { s with kernel := { s.kernel with clusters := m } } := by
  simp only [step, h, Option.map_some]

end ProbeState

end EDGuard
