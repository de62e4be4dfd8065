import EDGuard.ProbePairing
import EDGuard.PumpSettles
import EDGuard.RunnerStop
import EDGuard.Lib.Simulation

/-!
# The agent (`main.go`)

`main` hands the maps of one object file to the three parts of the process: the runner writes
`clusters` and opens the probes, the handlers in the kernel read `clusters` and fill `db_ctx_queue`,
the pump empties the queue.

* `Link`, `Links` — the two probes of an attach goroutine, closed by its deferred calls.
* `Agent` — the parts; `kernel` has each shared map from the part that owns it.
* `step` — one step of one part.  A handler fires only while a probe of its kind is attached, and
  `r.wg.Wait()` returns only after the deferred calls.
* `agent_projects` — **a run of the agent is a run of each of its parts**.
-/

set_option autoImplicit false

namespace EDGuard

/-- A pushed record is about the thread of its capture. -/
theorem ProbeState.Inv.record_gtid {s : ProbeState} (hi : s.Inv) {p : Push} (hp : p ∈ s.pushes) :
    ∃ c ∈ s.captures, p.FromSource c ∧ p.record.gtid = c.gtid := by
  obtain ⟨c, hc, hfrom⟩ := hi.push_ok p hp
  have ⟨_, _, _, _, _, hrecord⟩ := hfrom
  refine ⟨c, hc, hfrom, ?_⟩
  rw [hrecord]
  exact (hi.cap_ok c hc).1.gtid

/-- A link of an attach goroutine. -/
inductive Link where
  | none
  | attached
  | closed
  /-- `Close` has failed, which nobody looks at: the probe stays -/
  | left
  deriving DecidableEq

/-- The probe is in place. -/
def Link.Live (l : Link) : Prop := l = .attached ∨ l = .left

instance (l : Link) : Decidable l.Live := inferInstanceAs (Decidable (_ ∨ _))

/-- The links of one attach goroutine: `up` and `urp`. -/
structure Links where
  up : Link
  urp : Link
  deriving DecidableEq

/-- What a call that has succeeded attaches. -/
def Links.attach (l : Links) : AttachPc → Links
  | .uprobe => { l with up := .attached }
  | .uretprobe => { l with urp := .attached }
  | _ => l

def Link.close (ok : Bool) : Link := if ok then .closed else .left

/-- The next deferred call of `attach`: `urp.Close()` before `up.Close()`. -/
def Links.close (l : Links) (ok : Bool) : Option Links :=
  if l.urp = .attached then some { l with urp := .close ok }
  else if l.up = .attached then some { l with up := .close ok }
  else none

/-- No deferred call is left. -/
def Links.Released (l : Links) : Prop := l.up ≠ .attached ∧ l.urp ≠ .attached

instance (l : Links) : Decidable l.Released := inferInstanceAs (Decidable (_ ∧ _))

/-- The process, for informer goroutines `ι` and `n` CPUs.  The maps `clusters` and `dbCtxQueue` of
`probe.kernel` are not used: see `kernel`. -/
structure Agent (ι : Type) (n : Nat) where
  runner : Runner ι
  /-- of the attach goroutines, in the order of `runner.attachers` -/
  links : Nat → Links
  probe : ProbeState
  pipe : Pipe DbCtx (Fin n)

namespace Agent

variable {ι : Type} {n : Nat}

def init (programs : List Program) : Agent ι n :=
  ⟨.init programs, fun _ => ⟨.none, .none⟩, .init, .init .zero⟩

/-- The maps of the object file. -/
def kernel (s : Agent ι n) : Kernel :=
  { s.probe.kernel with
    clusters := s.runner.clusters
    dbCtxQueue := s.pipe.queue }

/-- The threads and the handlers. -/
def handlers (s : Agent ι n) : ProbeState := { s.probe with kernel := s.kernel }

inductive Action (ι : Type) (n : Nat) where
  | runner (a : Runner.Action ι)
  | close (k : Nat) (ok : Bool)
  | enter (gtid : UInt64) (regs : PtRegs)
  | entry (tid : UInt32) (cpu : Fin n) (f : Firing)
  | ret (tid : UInt32) (cpu : Fin n) (f : Firing)
  | leave (tid : UInt32)
  | pipe (a : Pipe.Action DbCtx (Fin n))

/-- Some `Mysql57Query` is attached. -/
def Hooked (s : Agent ι n) : Prop := ∃ k < s.runner.attachers.length, (s.links k).up.Live

/-- Some `Mysql57QueryReturn` is attached. -/
def HookedReturn (s : Agent ι n) : Prop := ∃ k < s.runner.attachers.length, (s.links k).urp.Live

instance (s : Agent ι n) : Decidable s.Hooked :=
  inferInstanceAs (Decidable (∃ k < _, _))

instance (s : Agent ι n) : Decidable s.HookedReturn :=
  inferInstanceAs (Decidable (∃ k < _, _))

/-- `r.wg.Wait()` waits for the deferred calls, too. -/
def Waited (s : Agent ι n) : Runner.Action ι → Prop
  | .unwind => s.runner.main = .deferWait → ∀ k < s.runner.attachers.length, (s.links k).Released
  | _ => True

instance (s : Agent ι n) : ∀ a, Decidable (s.Waited a)
  | .unwind => inferInstanceAs (Decidable (_ → _))
  | .deliver .. | .iterate _ | .lookup .. | .child .. | .recvCh _ | .recvErr _ | .lockAttach
  | .store | .update _ | .spawn | .lockDetach _ | .delete .. | .probe .. | .mark _ | .unattach _
  | .cancel | .leave | .sendClosed _ => isTrue trivial

/-- The links after a step of the runner. -/
def relink (s : Agent ι n) : Runner.Action ι → Nat → Links
  | .probe k true =>
    match s.runner.attachers[k]? with
    | some a => Function.update s.links k ((s.links k).attach a.pc)
    | none => s.links
  | _ => s.links

/-- An attach goroutine that is done runs its next deferred call. -/
def close (s : Agent ι n) (k : Nat) (ok : Bool) : Option (Agent ι n) :=
  match s.runner.attachers[k]? with
  | none => none
  | some a =>
    if a.pc = .done then
      ((s.links k).close ok).map fun l => { s with links := Function.update s.links k l }
    else none

/-- The record that a firing of `Mysql57QueryReturn` pushes. -/
def returned (s : Agent ι n) (tid : UInt32) (f : Firing) : Option (UInt64 × DbCtx) :=
  (s.probe.live tid).bind fun l =>
    (mysql57QueryReturn s.kernel l.gtid f).2.map fun d => (l.gtid, d)

/-- `Mysql57QueryReturn` fires: its record goes to the queue, its event to the ring later. -/
def ret (s : Agent ι n) (tid : UInt32) (cpu : Fin n) (f : Firing) : Option (Agent ι n) :=
  (s.handlers.fireReturn tid f).map fun p => { s with
    probe := p
    pipe := match s.returned tid f with
      | none => s.pipe
      | some (gtid, d) => s.pipe.push cpu gtid d }

section

variable [DecidableEq ι]

/-- One step of an agent whose process is alive. -/
def act (s : Agent ι n) : Action ι n → Option (Agent ι n)
  | .runner a =>
    if s.Waited a then
      (s.runner.act a).map fun r => { s with runner := r, links := s.relink a }
    else none
  | .close k ok => s.close k ok
  | .enter gtid regs => (s.handlers.enter gtid regs).map fun p => { s with probe := p }
  | .entry tid cpu f =>
    if s.Hooked then (s.handlers.fireEntry tid cpu f).map fun p => { s with probe := p } else none
  | .ret tid cpu f => if s.HookedReturn then s.ret tid cpu f else none
  | .leave tid => (s.handlers.leave tid).map fun p => { s with probe := p }
  | .pipe a =>
    if a.Own then (s.pipe.step a).map fun p => { s with pipe := p } else none

def step (s : Agent ι n) (a : Action ι n) : Option (Agent ι n) :=
  if s.runner.crashed then none else s.act a

/-! ## What one step can do -/

theorem step_iff {s t : Agent ι n} {a : Action ι n} :
    step s a = some t ↔ s.runner.crashed = false ∧ s.act a = some t := by
  unfold step
  cases s.runner.crashed <;> simp

theorem runner_spec {s t : Agent ι n} {a : Runner.Action ι} (h : step s (.runner a) = some t) :
    s.Waited a ∧ ∃ r, Runner.step s.runner a = some r ∧
      t = { s with runner := r, links := s.relink a } := by
  obtain ⟨halive, hact⟩ := step_iff.mp h
  simp only [act] at hact
  split at hact
  · rename_i hw
    obtain ⟨r, hr, rfl⟩ := Option.map_eq_some_iff.mp hact
    refine ⟨hw, r, ?_, rfl⟩
    unfold Runner.step
    rw [halive, if_neg Bool.false_ne_true]
    exact hr
  · cases hact

theorem close_spec {s t : Agent ι n} {k : Nat} {ok : Bool} (h : step s (.close k ok) = some t) :
    ∃ a l, s.runner.attachers[k]? = some a ∧ a.pc = .done ∧ (s.links k).close ok = some l ∧
      t = { s with links := Function.update s.links k l } := by
  have hact : s.close k ok = some t := (step_iff.mp h).2
  unfold close at hact
  split at hact
  · cases hact
  · rename_i a ha
    split at hact
    · rename_i hdone
      obtain ⟨l, hl, rfl⟩ := Option.map_eq_some_iff.mp hact
      exact ⟨a, l, ha, hdone, hl, rfl⟩
    · cases hact

theorem enter_spec {s t : Agent ι n} {gtid : UInt64} {regs : PtRegs}
    (h : step s (.enter gtid regs) = some t) :
    ∃ p, s.handlers.enter gtid regs = some p ∧ t = { s with probe := p } := by
  obtain ⟨p, hp, rfl⟩ := Option.map_eq_some_iff.mp (step_iff.mp h).2
  exact ⟨p, hp, rfl⟩

theorem leave_spec {s t : Agent ι n} {tid : UInt32} (h : step s (.leave tid) = some t) :
    ∃ p, s.handlers.leave tid = some p ∧ t = { s with probe := p } := by
  obtain ⟨p, hp, rfl⟩ := Option.map_eq_some_iff.mp (step_iff.mp h).2
  exact ⟨p, hp, rfl⟩

theorem entry_spec {s t : Agent ι n} {tid : UInt32} {cpu : Fin n} {f : Firing}
    (h : step s (.entry tid cpu f) = some t) :
    s.Hooked ∧ ∃ p, s.handlers.fireEntry tid cpu f = some p ∧ t = { s with probe := p } := by
  have hact := (step_iff.mp h).2
  simp only [act] at hact
  split at hact
  · rename_i hhook
    obtain ⟨p, hp, rfl⟩ := Option.map_eq_some_iff.mp hact
    exact ⟨hhook, p, hp, rfl⟩
  · cases hact

theorem ret_spec {s t : Agent ι n} {tid : UInt32} {cpu : Fin n} {f : Firing}
    (h : step s (.ret tid cpu f) = some t) :
    s.HookedReturn ∧ ∃ p, s.handlers.fireReturn tid f = some p ∧ t = { s with
      probe := p
      pipe := match s.returned tid f with
        | none => s.pipe
        | some (gtid, d) => s.pipe.push cpu gtid d } := by
  have hact := (step_iff.mp h).2
  simp only [act] at hact
  split at hact
  · rename_i hhook
    obtain ⟨p, hp, rfl⟩ := Option.map_eq_some_iff.mp hact
    exact ⟨hhook, p, hp, rfl⟩
  · cases hact

theorem pipe_spec {s t : Agent ι n} {a : Pipe.Action DbCtx (Fin n)}
    (h : step s (.pipe a) = some t) :
    a.Own ∧ ∃ p, s.pipe.step a = some p ∧ t = { s with pipe := p } := by
  have hact := (step_iff.mp h).2
  simp only [act] at hact
  split at hact
  · rename_i hown
    obtain ⟨p, hp, rfl⟩ := Option.map_eq_some_iff.mp hact
    exact ⟨hown, p, hp, rfl⟩
  · cases hact

end

/-! ## What the parts see of each other -/

/-- What the kernel sees of a step of the runner. -/
def clusterChange (r : Runner ι) : Runner.Action ι → Option ProbeState.Action
  | .update true =>
    match r.main with
    | .attachUpdate t cluster => some (.setCluster t.pidKey cluster)
    | _ => none
  | .delete i true =>
    match r.callbacks i with
    | .detachBody id => (r.instances id).map fun t => .delCluster t.pidKey
    | _ => none
  | _ => none

/-- The pump takes a record. -/
def popped (p : Pipe DbCtx (Fin n)) : Pipe.Action DbCtx (Fin n) → Option ProbeState.Action
  | .lookup true => if p.queue.items = [] then none else some .pop
  | _ => none

/-- The actions of the runner. -/
def toRunner : Action ι n → Option (Runner.Action ι)
  | .runner a => some a
  | _ => none

/-- The actions of the threads and the handlers, and what user space does to their maps. -/
def toHandlers (s : Agent ι n) : Action ι n → Option ProbeState.Action
  | .runner a => clusterChange s.runner a
  | .close .. => none
  | .enter gtid regs => some (.enter gtid regs)
  | .entry tid cpu f => some (.entry tid cpu f)
  | .ret tid _ f => some (.ret tid f)
  | .leave tid => some (.leave tid)
  | .pipe a => popped s.pipe a

/-- The actions of the pump, and the pushes of the handlers. -/
def toPipe (s : Agent ι n) : Action ι n → Option (Pipe.Action DbCtx (Fin n))
  | .ret tid cpu f => (s.returned tid f).map fun r => .push cpu r.1 r.2
  | .pipe a => some a
  | _ => none

section

variable [DecidableEq ι]

/-- **Every step of the runner on `clusters` is one the kernel sees**, and no other one is. -/
theorem clusterChange_step {r r' : Runner ι} {a : Runner.Action ι}
    (h : Runner.step r a = some r') (p : ProbeState) (hp : p.kernel.clusters = r.clusters) :
    Trace.run ProbeState.step p (clusterChange r a).toList =
      some { p with kernel := { p.kernel with clusters := r'.clusters } } := by
  have hkeep : r'.clusters = r.clusters → (clusterChange r a) = none →
      Trace.run ProbeState.step p (clusterChange r a).toList =
        some { p with kernel := { p.kernel with clusters := r'.clusters } } := by
    intro heq hnone
    rw [hnone, heq, ← hp]
    rfl
  cases (Runner.step_iff.mp h).2 with
  | @update t cluster m hmain hm =>
    have hobs : clusterChange r (.update true) = some (.setCluster t.pidKey cluster) := by
      simp [clusterChange, hmain]
    rw [hobs]
    refine (Trace.run_singleton _ _).trans ?_
    simp only [ProbeState.step, hp, hm, Option.map_some]
  | @delete i id t m hcb hinst hm =>
    have hobs : clusterChange r (.delete i true) = some (.delCluster t.pidKey) := by
      simp [clusterChange, hcb, hinst]
    rw [hobs]
    refine (Trace.run_singleton _ _).trans ?_
    simp only [ProbeState.step, hp, hm, Option.map_some]
  | @deleteAbsent i id ok hcb hinst =>
    refine hkeep rfl ?_
    cases ok <;> simp [clusterChange, hcb, hinst]
  | _ => exact hkeep rfl rfl

omit [DecidableEq ι] in
/-- **Every step of the pump on `db_ctx_queue` is one the kernel sees**, and no other one is. -/
theorem popped_step {p p' : Pipe DbCtx (Fin n)} {a : Pipe.Action DbCtx (Fin n)} (hown : a.Own)
    (h : p.step a = some p') (q : ProbeState) (hq : q.kernel.dbCtxQueue = p.queue) :
    Trace.run ProbeState.step q (popped p a).toList =
      some { q with kernel := { q.kernel with dbCtxQueue := p'.queue } } := by
  have hkeep : p'.queue = p.queue → popped p a = none →
      Trace.run ProbeState.step q (popped p a).toList =
        some { q with kernel := { q.kernel with dbCtxQueue := p'.queue } } := by
    intro heq hnone
    rw [hnone, heq, ← hq]
    rfl
  cases a with
  | push cpu gtid record => exact hown.elim
  | emit i fits =>
    obtain ⟨cpu, gtid, _, rfl⟩ := Pipe.emit_spec h
    exact hkeep rfl rfl
  | cancel =>
    cases h
    exact hkeep rfl rfl
  | select =>
    obtain ⟨_, rfl⟩ := Pipe.select_spec h
    exact hkeep rfl rfl
  | read cpu =>
    obtain ⟨_, rest, ⟨gtid, _, rfl⟩ | ⟨m, _, rfl⟩⟩ := Pipe.read_cases h
    · exact hkeep rfl rfl
    · exact hkeep rfl rfl
  | readErr closed =>
    obtain ⟨_, rfl⟩ := Pipe.readErr_spec h
    exact hkeep rfl rfl
  | lookup ok =>
    obtain ⟨_, rfl⟩ := Pipe.lookup_spec h
    cases ok with
    | false => exact hkeep rfl rfl
    | true =>
      have hpop : p.popPrint.queue = p.queue ∧ p.queue.items = [] ∨
          p.queue.items ≠ [] ∧ ∃ x, p.queue.pop = some (x, p.popPrint.queue) := by
        unfold Pipe.popPrint
        cases hp : p.queue.pop with
        | none => exact Or.inl ⟨rfl, EvictQueue.pop_eq_none_iff.mp hp⟩
        | some x =>
          refine Or.inr ⟨fun hempty => ?_, x.1, rfl⟩
          rw [EvictQueue.pop_eq_none_iff.mpr hempty] at hp
          cases hp
      rcases hpop with ⟨heq, hempty⟩ | ⟨hne, x, hx⟩
      · exact hkeep heq (by simp [popped, hempty])
      · have hobs : popped p (.lookup true) = some .pop := by simp [popped, hne]
        rw [hobs]
        refine (Trace.run_singleton _ _).trans ?_
        simp only [ProbeState.step, hq, hx, Option.map_some, ↓reduceIte]

omit [DecidableEq ι] in
/-- The record that is pushed is the one the handler has completed. -/
theorem returned_eq {s : Agent ι n} {tid : UInt32} {f : Firing} {l : Live}
    (hl : s.probe.live tid = some l) :
    s.returned tid f = (mysql57QueryReturn s.kernel l.gtid f).2.map fun d => (l.gtid, d) := by
  rw [returned, hl, Option.bind_some]

/-- What a firing of the return handler does to the shared maps, and what it records. -/
theorem fireReturn_maps {p q : ProbeState} {tid : UInt32} {f : Firing}
    (h : p.fireReturn tid f = some q) : ∃ l new, p.live tid = some l ∧
      q.kernel.clusters = p.kernel.clusters ∧ q.captures = p.captures ∧
      q.pushes = new ++ p.pushes ∧
      new.map Push.record = (mysql57QueryReturn p.kernel l.gtid f).2.toList ∧
      (∀ x ∈ new, pidOf x.gtid ∈ p.kernel.clusters.keys) ∧
      q.kernel.dbCtxQueue = (mysql57QueryReturn p.kernel l.gtid f).2.elim p.kernel.dbCtxQueue
        p.kernel.dbCtxQueue.push := by
  obtain ⟨l, hl⟩ := ProbeState.live_of_fireReturn h
  unfold ProbeState.fireReturn at h
  rw [hl] at h
  simp only at h
  split at h
  · cases h
  · cases h
    rcases mysql57QueryReturn_cases p.kernel l.gtid f with
      ⟨hr, _⟩ | ⟨cluster, d, hcl, _, hr⟩
    · refine ⟨l, [], ?_⟩
      rw [hr]
      refine ⟨hl, rfl, rfl, rfl, rfl, fun x hx => ?_, rfl⟩
      cases hx
    · refine ⟨l, [⟨l.call, l.gtid, l.regs, f, p.kernel.clusters.lookup (pidOf l.gtid),
        p.lastCapture tid, completeDbCtx cluster f d⟩], ?_⟩
      rw [hr]
      refine ⟨hl, rfl, rfl, rfl, rfl, fun x hx => ?_, rfl⟩
      rw [List.mem_singleton.mp hx]
      exact BoundedMap.mem_keys_of_lookup hcl

/-- The entry handler changes neither shared map, and captures nothing but traced calls. -/
theorem fireEntry_maps {p q : ProbeState} {tid : UInt32} {cpu : Nat} {f : Firing}
    (h : p.fireEntry tid cpu f = some q) : ∃ new, q.kernel.clusters = p.kernel.clusters ∧
      q.kernel.dbCtxQueue = p.kernel.dbCtxQueue ∧ q.pushes = p.pushes ∧
      q.captures = new ++ p.captures ∧ ∀ c ∈ new, p.kernel.Traced c.gtid c.regs := by
  obtain ⟨l, hl⟩ := ProbeState.live_of_fireEntry h
  unfold ProbeState.fireEntry at h
  rw [hl] at h
  simp only at h
  split at h
  · cases h
  · cases h
    rcases mysql57Query_cases p.kernel cpu l.gtid l.regs f with
      ⟨_, hr⟩ | ⟨_, _, v, hr⟩ | ⟨htraced, cluster, m, v, _, _, hr⟩
    · refine ⟨[], ?_⟩
      rw [hr]
      exact ⟨rfl, rfl, rfl, rfl, fun _ hc => absurd hc List.not_mem_nil⟩
    · refine ⟨[], ?_⟩
      rw [hr]
      exact ⟨rfl, rfl, rfl, rfl, fun _ hc => absurd hc List.not_mem_nil⟩
    · refine ⟨[⟨l.call, l.gtid, l.regs, f, p.kernel.clusters.lookup (pidOf l.gtid),
        p.kernel.varHolder cpu, fillDbCtx cluster l.gtid l.regs f (p.kernel.varHolder cpu)⟩], ?_⟩
      rw [hr]
      refine ⟨rfl, rfl, rfl, rfl, fun c hc => ?_⟩
      rw [List.mem_singleton.mp hc]
      exact htraced

/-- **What a step records**: captures of traced calls while an entry probe is attached, pushes of
registered processes while a return probe is. -/
structure Recorded (s t : Agent ι n) (cs : List Capture) (ps : List Push) : Prop where
  captures : t.probe.captures = cs ++ s.probe.captures
  pushes : t.probe.pushes = ps ++ s.probe.pushes
  traced : ∀ c ∈ cs, s.kernel.Traced c.gtid c.regs ∧ s.Hooked
  registered : ∀ p ∈ ps, pidOf p.gtid ∈ s.runner.clusters.keys ∧ s.HookedReturn
  pushed : t.pipe.pushed = s.pipe.pushed ++ (ps.map Push.record).reverse

omit [DecidableEq ι] in
theorem Recorded.nothing {s t : Agent ι n} (hcaptures : t.probe.captures = s.probe.captures)
    (hpushes : t.probe.pushes = s.probe.pushes) (hpushed : t.pipe.pushed = s.pipe.pushed) :
    Recorded s t [] [] where
  captures := hcaptures
  pushes := hpushes
  traced := fun _ hc => nomatch hc
  registered := fun _ hp => nomatch hp
  pushed := hpushed.trans (List.append_nil _).symm

theorem recorded_step {s t : Agent ι n} {a : Action ι n} (h : step s a = some t) :
    ∃ cs ps, Recorded s t cs ps := by
  cases a with
  | runner a =>
    obtain ⟨_, r, _, rfl⟩ := runner_spec h
    exact ⟨[], [], .nothing rfl rfl rfl⟩
  | close k ok =>
    obtain ⟨a, l, _, _, _, rfl⟩ := close_spec h
    exact ⟨[], [], .nothing rfl rfl rfl⟩
  | enter gtid regs =>
    obtain ⟨p, hp, rfl⟩ := enter_spec h
    obtain ⟨_, rfl⟩ := ProbeState.enter_spec hp
    exact ⟨[], [], .nothing rfl rfl rfl⟩
  | entry tid cpu f =>
    obtain ⟨hhook, p, hp, rfl⟩ := entry_spec h
    obtain ⟨new, _, _, hpushes, hcaptures, htraced⟩ := fireEntry_maps hp
    exact ⟨new, [], hcaptures, hpushes, fun c hc => ⟨htraced c hc, hhook⟩,
      fun p hp => (nomatch hp), (List.append_nil _).symm⟩
  | ret tid cpu f =>
    obtain ⟨hhook, p, hp, rfl⟩ := ret_spec h
    obtain ⟨l, new, hl, _, hcaptures, hpushes, hrecords, hkeys, _⟩ := fireReturn_maps hp
    refine ⟨[], new, hcaptures, hpushes, fun c hc => (nomatch hc),
      fun x hx => ⟨hkeys x hx, hhook⟩, ?_⟩
    have hret : s.returned tid f =
        (mysql57QueryReturn s.kernel l.gtid f).2.map fun d => (l.gtid, d) := returned_eq hl
    have hk : s.handlers.kernel = s.kernel := rfl
    rw [hrecords, hret, hk]
    cases (mysql57QueryReturn s.kernel l.gtid f).2 with
    | none => exact (List.append_nil _).symm
    | some d => rfl
  | leave tid =>
    obtain ⟨p, hp, rfl⟩ := leave_spec h
    obtain rfl := ProbeState.leave_spec hp
    exact ⟨[], [], .nothing rfl rfl rfl⟩
  | pipe a =>
    obtain ⟨hown, p, hp, rfl⟩ := pipe_spec h
    exact ⟨[], [], .nothing rfl rfl (Pipe.pushed_own hown hp)⟩

/-- What the handlers have pushed is what the queue was given, in order. -/
def QueueShared (s : Agent ι n) : Prop := s.pipe.pushed = (s.probe.pushes.map Push.record).reverse

theorem queueShared_step (s : Agent ι n) (a : Action ι n) (t : Agent ι n) (hs : s.QueueShared)
    (h : step s a = some t) : t.QueueShared := by
  obtain ⟨cs, ps, hr⟩ := recorded_step h
  unfold QueueShared at hs ⊢
  rw [hr.pushed, hr.pushes, hs, List.map_append, List.reverse_append]

omit [DecidableEq ι] in
/-- What is on the queue, or was, is the record of a push. -/
theorem QueueShared.push_of_mem {s : Agent ι n} (hs : s.QueueShared) {x : DbCtx}
    (hx : x ∈ s.pipe.pushed) : ∃ p ∈ s.probe.pushes, p.record = x := by
  rw [hs, List.mem_reverse] at hx
  exact List.mem_map.mp hx

/-! ## The parts -/

theorem projects_runner : Trace.Projects (step (ι := ι) (n := n)) (fun _ => True) Runner.step
    runner (fun _ a => toRunner a) where
  inv := fun _ _ _ _ _ => trivial
  step := by
    intro s a t _ h
    cases a with
    | runner a =>
      obtain ⟨_, r, hr, rfl⟩ := runner_spec h
      exact (Trace.run_singleton _ _).trans hr
    | close k ok =>
      obtain ⟨a, l, _, _, _, rfl⟩ := close_spec h
      rfl
    | enter gtid regs =>
      obtain ⟨p, _, rfl⟩ := enter_spec h
      rfl
    | entry tid cpu f =>
      obtain ⟨_, p, _, rfl⟩ := entry_spec h
      rfl
    | ret tid cpu f =>
      obtain ⟨_, p, _, rfl⟩ := ret_spec h
      rfl
    | leave tid =>
      obtain ⟨p, _, rfl⟩ := leave_spec h
      rfl
    | pipe a =>
      obtain ⟨_, p, _, rfl⟩ := pipe_spec h
      rfl

theorem projects_pipe : Trace.Projects (step (ι := ι) (n := n)) (fun _ => True) Pipe.step
    pipe toPipe where
  inv := fun _ _ _ _ _ => trivial
  step := by
    intro s a t _ h
    cases a with
    | runner a =>
      obtain ⟨_, r, _, rfl⟩ := runner_spec h
      rfl
    | close k ok =>
      obtain ⟨a, l, _, _, _, rfl⟩ := close_spec h
      rfl
    | enter gtid regs =>
      obtain ⟨p, _, rfl⟩ := enter_spec h
      rfl
    | entry tid cpu f =>
      obtain ⟨_, p, _, rfl⟩ := entry_spec h
      rfl
    | ret tid cpu f =>
      obtain ⟨_, p, _, rfl⟩ := ret_spec h
      simp only [toPipe]
      cases s.returned tid f <;> rfl
    | leave tid =>
      obtain ⟨p, _, rfl⟩ := leave_spec h
      rfl
    | pipe a =>
      obtain ⟨_, p, hp, rfl⟩ := pipe_spec h
      exact (Trace.run_singleton _ _).trans hp

theorem projects_handlers : Trace.Projects (step (ι := ι) (n := n)) (fun _ => True)
    ProbeState.step handlers toHandlers where
  inv := fun _ _ _ _ _ => trivial
  step := by
    intro s a t _ h
    cases a with
    | runner a =>
      obtain ⟨_, r, hr, rfl⟩ := runner_spec h
      exact clusterChange_step hr s.handlers rfl
    | close k ok =>
      obtain ⟨a, l, _, _, _, rfl⟩ := close_spec h
      rfl
    | enter gtid regs =>
      obtain ⟨p, hp, rfl⟩ := enter_spec h
      refine (Trace.run_singleton _ _).trans (hp.trans ?_)
      obtain ⟨_, rfl⟩ := ProbeState.enter_spec hp
      rfl
    | entry tid cpu f =>
      obtain ⟨_, p, hp, rfl⟩ := entry_spec h
      refine (Trace.run_singleton _ _).trans (hp.trans ?_)
      obtain ⟨_, hclusters, hqueue, _⟩ := fireEntry_maps hp
      simp only [handlers, kernel] at hclusters hqueue ⊢
      rw [← hclusters, ← hqueue]
    | ret tid cpu f =>
      obtain ⟨_, p, hp, rfl⟩ := ret_spec h
      refine (Trace.run_singleton _ _).trans (hp.trans ?_)
      obtain ⟨l, _, hl, hclusters, _, _, _, _, hqueue⟩ := fireReturn_maps hp
      have hk : s.handlers.kernel = s.kernel := rfl
      rw [hk] at hclusters hqueue
      rw [returned_eq hl]
      cases hd : (mysql57QueryReturn s.kernel l.gtid f).2 with
      | none =>
        rw [hd] at hqueue
        simp only [handlers, kernel, Option.map_none, Option.elim_none] at hclusters hqueue ⊢
        rw [← hclusters, ← hqueue]
      | some d =>
        rw [hd] at hqueue
        simp only [handlers, kernel, Option.map_some, Option.elim_some,
          Pipe.push] at hclusters hqueue ⊢
        rw [← hclusters, ← hqueue]
    | leave tid =>
      obtain ⟨p, hp, rfl⟩ := leave_spec h
      refine (Trace.run_singleton _ _).trans (hp.trans ?_)
      obtain rfl := ProbeState.leave_spec hp
      rfl
    | pipe a =>
      obtain ⟨hown, p, hp, rfl⟩ := pipe_spec h
      exact popped_step hown hp s.handlers rfl

/-- **A run of the agent is a run of each of its parts**, with the maps they share: what the runner
writes to `clusters` is what the handlers read there, what the handlers push is what the pump
finds. -/
theorem agent_projects (programs : List Program) (as : List (Action ι n)) (s : Agent ι n)
    (h : Trace.run step (init programs) as = some s) :
    Trace.run Runner.step (Runner.init programs) (as.filterMap toRunner) = some s.runner ∧
    Trace.run ProbeState.step ProbeState.init (Trace.observe step toHandlers (init programs) as) =
      some s.handlers ∧
    Trace.run Pipe.step (Pipe.init DbCtx.zero) (Trace.observe step toPipe (init programs) as) =
      some s.pipe := by
  refine ⟨?_, projects_handlers.run trivial h, projects_pipe.run trivial h⟩
  have hrun := projects_runner.run trivial h
  rw [Trace.observe_eq_filterMap h] at hrun
  exact hrun

end

/-! ## One query -/

/-- The pod with the process 10 is registered and its server probed. -/
def attached : List (Action Unit 2) :=
  (Runner.registerPod Runner.pod9f 10 ++ Runner.attachActs).map .runner

def cpu0 : Fin 2 := ⟨0, Nat.zero_lt_two⟩
def cpu1 : Fin 2 := ⟨1, Nat.one_lt_two⟩

/-- Thread 7 of process 10. -/
def gtid10 : UInt64 := 0xA00000007

/-- The thread makes a query on a CPU. -/
def query (cpu : Fin 2) (now : UInt64) : List (Action Unit 2) :=
  [.enter gtid10 ⟨0, 0, COM_QUERY⟩, .entry 7 cpu (ProbeState.firingAt now),
    .ret 7 cpu (ProbeState.firingAt now), .leave 7]

/-- The event of the query is emitted and acted on. -/
def pumped (cpu : Fin 2) : List (Action Unit 2) :=
  [.pipe (.emit 0 true), .pipe .select, .pipe (.read cpu), .pipe (.lookup true)]

/-- A query of a registered process, from the pod event to its line. -/
def oneQuery : List (Action Unit 2) := attached ++ query cpu1 3 ++ pumped cpu1

theorem oneQuery_printed : (Trace.run step (init [percona5734]) oneQuery).map
    (fun s => s.pipe.printed.map DbCtx.gtid) = some [gtid10] := by decide +kernel

end Agent

end EDGuard
