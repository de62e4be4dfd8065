import EDGuard.AgentShutdown
import EDGuard.ManagerOrder

/-!
# The process (`main.go`)

`main` adds the runner to the task manager, which adds the informers and the pump, and calls
`Start`.

* `Process` — the manager and the agent.
* `returns`, `allows` — what ties them: `Start` of a runnable is invoked by the goroutine that its
  group launched, its context is that of the group, and it returns when its loop has ended.
* `process_projects` — **a run of the process is a run of the manager and of the agent**.
* `traced_while_running` — **a call is captured and a record pushed only while `Start` of the runner
  runs, and a line printed only while `Start` of the pump does**.
* `quiet_after_shutdown` — **after a clean shutdown the process is quiet**.
-/

set_option autoImplicit false

namespace EDGuard

/-- The steps of the goroutine in `BpfRunner.Start`. -/
def Runner.Action.ofMain {ι : Type} : Runner.Action ι → Bool
  | .recvCh _ | .recvErr _ | .lockAttach | .store | .update _ | .spawn | .leave | .unwind
  | .sendClosed .main => true
  | _ => false

/-- The steps of the goroutine in `eventPump.Start`. -/
def Pipe.Action.ofPump {α Cpu : Type} : Pipe.Action α Cpu → Bool
  | .select | .read _ | .readErr _ | .lookup _ => true
  | .push .. | .emit .. | .cancel => false

/-- `tm.rd.Close()` was called. -/
def TaskManager.readerClosed (s : TaskManager) : Bool := decide (s.drain = .recv ∨ s.drain = .done)

namespace Runner

variable {ι : Type} [DecidableEq ι] {s t : Runner ι} {a : Action ι}

/-- Without its main loop the runner has no attach goroutines. -/
theorem inactive_step (h : Step s a t) (ha : a.ofMain = false)
    (hs : s.main = .select ∧ s.attachers = []) : t.main = .select ∧ t.attachers = [] := by
  cases h with
  | recvCh | recvLookupErr | recvDetachErr | recvAttachErr | lockAttach | store | update
  | updateErr | spawn | leave | deferCancel | deferWait | deferCloseCh | deferCloseErr
  | crashStore => cases ha
  | probe hk _ | mark hk _ | unattach hk _ _ =>
    rw [hs.2] at hk
    cases hk
  | _ => exact hs

/-- A main loop that has exited stays so. -/
theorem exited_step (h : Step s a t) (hs : s.main = .exited) : t.main = .exited := by
  cases h with
  | recvCh hm | recvLookupErr hm | recvDetachErr hm | recvAttachErr hm | lockAttach hm | store hm
  | update hm | updateErr hm | spawn hm | leave hm | deferCancel hm | deferWait hm
  | deferCloseCh hm =>
    rw [hs] at hm
    cases hm
  | deferCloseErr => rfl
  | _ => exact hs

end Runner

namespace Pipe

variable {α Cpu : Type} [DecidableEq Cpu] {s t : Pipe α Cpu} {a : Action α Cpu}

/-- The loop moves, and prints, in its own steps only. -/
theorem notPump_step (h : step s a = some t) (ha : a.ofPump = false) :
    t.pc = s.pc ∧ t.printed = s.printed := by
  cases a with
  | push cpu gtid record | cancel =>
    cases h
    exact ⟨rfl, rfl⟩
  | emit i fits =>
    obtain ⟨_, _, _, rfl⟩ := emit_spec h
    exact ⟨rfl, rfl⟩
  | select | read _ | readErr _ | lookup _ => cases ha

/-- A loop that has ended takes no step. -/
theorem stopped_step (h : step s a = some t) (hs : s.pc = .stopped) : a.ofPump = false := by
  cases a with
  | push _ _ _ | cancel | emit _ _ => rfl
  | select =>
    obtain ⟨hpc, _⟩ := select_spec h
    rw [hs] at hpc
    cases hpc
  | read cpu =>
    obtain ⟨hpc, _⟩ := read_cases h
    rw [hs] at hpc
    cases hpc
  | readErr closed =>
    obtain ⟨hpc, _⟩ := readErr_spec h
    rw [hs] at hpc
    cases hpc
  | lookup ok =>
    obtain ⟨hpc, _⟩ := lookup_spec h
    rw [hs] at hpc
    cases hpc

end Pipe

namespace TaskManager

theorem invoked_step {s t : TaskManager} {a : Action} (h : Step s a t) {p : GroupName × Nat}
    (hp : p ∈ s.invoked) : p ∈ t.invoked := by
  cases h with
  | invoke => exact List.mem_append_left _ hp
  | recvReport hr _ | recvRunErr hr _ =>
    rcases receive_cases hr with ⟨_, _, rfl⟩ | ⟨_, _, rfl⟩ <;> exact hp
  | drainCancel | cancel | stopCancel | timeout => simpa using hp
  | _ => exact hp

/-- **`Start` of a runnable returns in a step of its own.** -/
theorem returned_step {s t : TaskManager} {a : Action} (hs : s.Managed) (h : Step s a t)
    {p : GroupName × Nat} (ht : ((t.groups p.1).runs p.2).returned = true) :
    ((s.groups p.1).runs p.2).returned = true ∨ ∃ err, a = .runReturn p.1 p.2 err := by
  have hsilent : ((s.groups p.1).runs p.2).Silent ((t.groups p.1).runs p.2) →
      ((s.groups p.1).runs p.2).returned = true := by
    rintro (heq | ⟨_, hrun⟩ | ⟨hfin, _⟩)
    · rw [← heq]
      exact ht
    · rw [hrun] at ht
      cases ht
    · rw [hfin]
      rfl
  cases h with
  | callStart _ hu | inStart _ _ hu | callStop _ hu | inStop _ _ hu | check hu =>
    exact Or.inl (hsilent (silent_setGroup hs hu rfl p.1 p.2))
  | @group g b u hb hu =>
    refine Or.inl (hsilent (silent_setGroup hs hu ?_ p.1 p.2))
    cases b <;> first | rfl | cases hb
  | @runReturn g i err u _ hu =>
    have hruns : ∃ pc, u.runs = Function.update (s.groups g).runs i pc := by
      cases (Group.step_iff.mp hu).2 with
      | runReturn _ => exact ⟨_, rfl⟩
    obtain ⟨pc, hruns⟩ := hruns
    have hset := runs_setGroup hruns p
    by_cases hp : p = (g, i)
    · subst hp
      exact Or.inr ⟨err, rfl⟩
    · rw [if_neg hp] at hset
      exact Or.inl (hset ▸ ht)
  | @recvRunErr r g i u v hr hv =>
    have hruns : (s.groups g).runs i = .sendErr ∧
        v.runs = Function.update (s.groups g).runs i .finishing := by
      cases (Group.step_iff.mp hv).2 with
      | recvRunErr hpc => exact ⟨hpc, rfl⟩
    have hset := runs_setGroup hruns.2 p
    by_cases hp : p = (g, i)
    · subst hp
      rw [hruns.1]
      exact Or.inl rfl
    · rw [if_neg hp] at hset
      rcases receive_cases hr with ⟨_, _, rfl⟩ | ⟨_, _, rfl⟩ <;> exact Or.inl (hset ▸ ht)
  | recvReport hr hv =>
    rcases receive_cases hr with ⟨_, _, rfl⟩ | ⟨_, _, rfl⟩ <;>
      exact Or.inl (hsilent (silent_setGroup hs hv rfl p.1 p.2))
  | drainCancel | cancel =>
    refine Or.inl (hsilent (Or.inl ?_))
    unfold internalCancel
    split <;> rfl
  | stopCancel | timeout =>
    refine Or.inl (hsilent (Or.inl ?_))
    unfold shutdownCancel
    split <;> rfl
  | _ => exact Or.inl ht

end TaskManager

/-- The whole process. -/
structure Process (ι : Type) (n : Nat) where
  manager : TaskManager
  agent : Agent ι n
  /-- `Start` of the pump returns an error -/
  pumpErr : Bool

namespace Process

variable {ι : Type} {n : Nat}

/-- `main` up to the first call of `Start` of a group; `reader` says that `perf.NewReader`
succeeds. -/
def init (programs : List Program) (reader : Bool) : Process ι n :=
  ⟨.init [TaskManager.mysqlTask] reader, .init programs, false⟩

/-! The places of the three runnables. -/

def runner : GroupName × Nat := (.bpfPrograms, 0)
def informers : GroupName × Nat := (.caches, 1)
def pump : GroupName × Nat := (.caches, 2)

/-- Where the goroutine of a runnable stands. -/
def runPc (s : Process ι n) (p : GroupName × Nat) : RunPc := (s.manager.groups p.1).runs p.2

inductive Action (ι : Type) (n : Nat) where
  | manager (a : TaskManager.Action)
  | agent (a : Agent.Action ι n)

/-- `Start` of the runner returns nil, at the end of its deferred calls; that of the informers
returns nil at once; that of the pump returns at one of the ends of its loop. -/
def returns (s : Process ι n) : TaskManager.Action → Bool
  | .runReturn .bpfPrograms 0 err => decide (s.agent.runner.main = .exited) && !err
  | .runReturn .caches 1 err => !err
  | .runReturn .caches 2 err => decide (s.agent.pipe.pc = .stopped) && err == s.pumpErr
  | _ => true

/-- The loops run in the goroutines that have invoked `Start`, and end with the contexts of their
groups; the handlers are called by the informers; a closed reader was closed by the manager. -/
def allows (s : Process ι n) : Agent.Action ι n → Bool
  | .runner (.deliver ..) => s.manager.invoked.contains informers
  | .runner .cancel => (s.manager.groups .bpfPrograms).cancelled
  | .runner a => !a.ofMain || s.manager.invoked.contains runner
  | .pipe .cancel => (s.manager.groups .caches).cancelled
  | .pipe (.readErr true) => s.manager.readerClosed && s.manager.invoked.contains pump
  | .pipe a => !a.ofPump || s.manager.invoked.contains pump
  | _ => true

/-- A step with which `Start` of the pump comes to return an error. -/
def failsPump : Agent.Action ι n → Bool
  | .pipe (.readErr true) | .pipe (.lookup false) => true
  | _ => false

variable [DecidableEq ι]

/-- One step; a panic or a fatal error of either part ends the process. -/
def step (s : Process ι n) : Action ι n → Option (Process ι n)
  | .manager a =>
    if s.agent.runner.crashed = false ∧ s.returns a = true then
      (TaskManager.step s.manager a).map fun m => { s with manager := m }
    else none
  | .agent a =>
    if s.manager.crashed = false ∧ s.allows a = true then
      (Agent.step s.agent a).map fun b => { s with
        agent := b
        pumpErr := s.pumpErr || failsPump a }
    else none

/-! ## What one step can do -/

theorem manager_spec {s t : Process ι n} {a : TaskManager.Action}
    (h : step s (.manager a) = some t) :
    s.returns a = true ∧ ∃ m, TaskManager.step s.manager a = some m ∧
      t = { s with manager := m } := by
  simp only [step] at h
  split at h
  · rename_i hgate
    obtain ⟨m, hm, rfl⟩ := Option.map_eq_some_iff.mp h
    exact ⟨hgate.2, m, hm, rfl⟩
  · cases h

theorem agent_spec {s t : Process ι n} {a : Agent.Action ι n} (h : step s (.agent a) = some t) :
    s.allows a = true ∧ ∃ b, Agent.step s.agent a = some b ∧
      t = { s with agent := b, pumpErr := s.pumpErr || failsPump a } := by
  simp only [step] at h
  split at h
  · rename_i hgate
    obtain ⟨b, hb, rfl⟩ := Option.map_eq_some_iff.mp h
    exact ⟨hgate.2, b, hb, rfl⟩
  · cases h

/-- The actions of the manager. -/
def toManager : Action ι n → Option TaskManager.Action
  | .manager a => some a
  | .agent _ => none

/-- The actions of the agent. -/
def toAgent : Action ι n → Option (Agent.Action ι n)
  | .manager _ => none
  | .agent a => some a

theorem projects_manager : Trace.Projects (step (ι := ι) (n := n)) (fun _ => True)
    TaskManager.step manager (fun _ a => toManager a) where
  inv := fun _ _ _ _ _ => trivial
  step := by
    intro s a t _ h
    cases a with
    | manager a =>
      obtain ⟨_, m, hm, rfl⟩ := manager_spec h
      exact (Trace.run_singleton _ _).trans hm
    | agent a =>
      obtain ⟨_, b, _, rfl⟩ := agent_spec h
      rfl

theorem projects_agent : Trace.Projects (step (ι := ι) (n := n)) (fun _ => True) Agent.step agent
    (fun _ a => toAgent a) where
  inv := fun _ _ _ _ _ => trivial
  step := by
    intro s a t _ h
    cases a with
    | manager a =>
      obtain ⟨_, m, _, rfl⟩ := manager_spec h
      rfl
    | agent a =>
      obtain ⟨_, b, hb, rfl⟩ := agent_spec h
      exact (Trace.run_singleton _ _).trans hb

/-- **A run of the process is a run of the manager and of the agent**, so that what holds of every
run of these holds here. -/
theorem process_projects {programs : List Program} {reader : Bool} {as : List (Action ι n)}
    {s : Process ι n} (h : Trace.run step (init programs reader) as = some s) :
    Trace.run TaskManager.step (TaskManager.init [TaskManager.mysqlTask] reader)
      (as.filterMap toManager) = some s.manager ∧
    Trace.run Agent.step (Agent.init programs) (as.filterMap toAgent) = some s.agent := by
  have hmanager := projects_manager.run trivial h
  have hagent := projects_agent.run trivial h
  rw [Trace.observe_eq_filterMap h] at hmanager hagent
  exact ⟨hmanager, hagent⟩

/-! ## The runnables and their loops -/

/-- No `Close` fails. -/
def ClosesFine : Action ι n → Prop
  | .agent a => Agent.ClosesFine a
  | .manager _ => True

omit [DecidableEq ι] in
instance : ∀ a : Action ι n, Decidable (ClosesFine a)
  | .agent a => inferInstanceAs (Decidable (Agent.ClosesFine a))
  | .manager _ => isTrue trivial

/-- A loop runs only in the goroutine that has invoked its `Start`, and has ended when that has
returned. -/
structure Coupled (s : Process ι n) : Prop where
  shutting : s.manager.Shutting
  idle : runner ∉ s.manager.invoked →
    s.agent.runner.main = .select ∧ s.agent.runner.attachers = []
  exited : (s.runPc runner).returned = true → s.agent.runner.main = .exited
  stopped : (s.runPc pump).returned = true → s.agent.pipe.pc = .stopped

omit [DecidableEq ι] in
theorem coupled_init (programs : List Program) (reader : Bool) :
    (init programs reader : Process ι n).Coupled := by
  have hshutting : (TaskManager.init [TaskManager.mysqlTask] reader).Shutting :=
    ⟨TaskManager.managed_init _ reader, TaskManager.logged_init _ reader,
      TaskManager.settled_init _ reader⟩
  have hidle : ∀ p, (init programs reader : Process ι n).runPc p = .idle := by
    rintro ⟨g, i⟩
    cases reader <;> cases g <;> rfl
  refine ⟨hshutting, fun _ => ⟨rfl, rfl⟩, fun hret => ?_, fun hret => ?_⟩
  · rw [hidle] at hret
    cases hret
  · rw [hidle] at hret
    cases hret

omit [DecidableEq ι] in
/-- A runnable whose `Start` was invoked and has not returned is running. -/
theorem Coupled.running {s : Process ι n} (hs : s.Coupled) {p : GroupName × Nat}
    (hinvoked : p ∈ s.manager.invoked) (hret : (s.runPc p).returned ≠ true) :
    s.runPc p = .running := by
  have hlog : (s.runPc p).Logged (p ∈ s.manager.invoked) _ _ := hs.shutting.logged p
  cases hpc : s.runPc p with
  | running => rfl
  | idle =>
    rw [hpc] at hlog
    exact absurd hinvoked hlog.1
  | sendErr | finishing | done =>
    rw [hpc] at hret
    exact absurd rfl hret

omit [DecidableEq ι] in
theorem allows_main {s : Process ι n} {a : Runner.Action ι} (h : s.allows (.runner a) = true)
    (ha : a.ofMain = true) : runner ∈ s.manager.invoked := by
  cases a with
  | deliver | cancel => cases ha
  | _ =>
    simp only [allows, ha, Bool.not_true, Bool.false_or] at h
    exact List.contains_iff_mem.mp h

omit [DecidableEq ι] in
theorem allows_pump {s : Process ι n} {a : Pipe.Action DbCtx (Fin n)}
    (h : s.allows (.pipe a) = true) (ha : a.ofPump = true) : pump ∈ s.manager.invoked := by
  cases a with
  | push _ _ _ | emit _ _ | cancel => cases ha
  | readErr closed =>
    cases closed with
    | false => simpa [allows, Pipe.Action.ofPump] using h
    | true =>
      simp only [allows, Bool.and_eq_true] at h
      exact List.contains_iff_mem.mp h.2
  | select | read _ | lookup _ => simpa [allows, Pipe.Action.ofPump] using h

omit [DecidableEq ι] in
/-- `Start` of the runner and of the pump return when their loops have ended. -/
theorem returns_ended {s : Process ι n} {err : Bool} :
    (s.returns (.runReturn runner.1 runner.2 err) = true → s.agent.runner.main = .exited) ∧
    (s.returns (.runReturn pump.1 pump.2 err) = true → s.agent.pipe.pc = .stopped) := by
  constructor
  · intro h
    simp only [returns, runner, Bool.and_eq_true, decide_eq_true_eq] at h
    exact h.1
  · intro h
    simp only [returns, pump, Bool.and_eq_true, decide_eq_true_eq] at h
    exact h.1

/-- What a step of the agent does to the loop of the pump. -/
theorem pipe_step {s t : Agent ι n} {a : Agent.Action ι n} (h : Agent.step s a = some t) :
    (t.pipe.pc = s.pipe.pc ∧ t.pipe.printed = s.pipe.printed) ∨
      ∃ b, a = .pipe b ∧ b.ofPump = true ∧ s.pipe.pc ≠ .stopped := by
  have hrun := Agent.projects_pipe.step s a t trivial h
  cases hb : Agent.toPipe s a with
  | none =>
    rw [hb] at hrun
    rw [← Option.some.inj hrun]
    exact Or.inl ⟨rfl, rfl⟩
  | some b =>
    rw [hb] at hrun
    have hstep : s.pipe.step b = some t.pipe := (Trace.run_singleton _ _).symm.trans hrun
    cases hp : b.ofPump with
    | false => exact Or.inl (Pipe.notPump_step hstep hp)
    | true =>
      refine Or.inr ⟨b, ?_, hp, fun hpc => ?_⟩
      · cases a with
        | pipe c => exact congrArg _ (Option.some.inj hb)
        | ret tid cpu f =>
          -- a return handler only pushes
          obtain ⟨r, _, rfl⟩ := Option.map_eq_some_iff.mp hb
          cases hp
        | runner _ | close _ _ | enter _ _ | entry _ _ _ | leave _ => cases hb
      · rw [Pipe.stopped_step hstep hpc] at hp
        cases hp

theorem coupled_step {s t : Process ι n} {a : Action ι n} (hs : s.Coupled)
    (h : step s a = some t) : t.Coupled := by
  cases a with
  | manager a =>
    obtain ⟨hret, m, hm, rfl⟩ := manager_spec h
    have hstep := (TaskManager.step_iff.mp hm).2
    refine ⟨TaskManager.shutting_step hs.shutting hm, fun hnot => hs.idle fun hold => ?_,
      fun hr => ?_, fun hr => ?_⟩
    · exact hnot (TaskManager.invoked_step hstep hold)
    · rcases TaskManager.returned_step (p := runner) hs.shutting.managed hstep hr with
        hold | ⟨err, rfl⟩
      · exact hs.exited hold
      · exact returns_ended.1 hret
    · rcases TaskManager.returned_step (p := pump) hs.shutting.managed hstep hr with
        hold | ⟨err, rfl⟩
      · exact hs.stopped hold
      · exact returns_ended.2 hret
  | agent a =>
    obtain ⟨hallow, b, hb, rfl⟩ := agent_spec h
    refine ⟨hs.shutting, fun hnot => ?_, fun hr => ?_, fun hr => ?_⟩
    · have hrun := Agent.projects_runner.step s.agent a b trivial hb
      cases a with
      | runner c =>
        have hc := (Runner.step_iff.mp ((Trace.run_singleton _ _).symm.trans hrun)).2
        refine Runner.inactive_step hc ?_ (hs.idle hnot)
        by_contra hmain
        exact hnot (allows_main hallow (by simpa using hmain))
      | close _ _ | enter _ _ | entry _ _ _ | ret _ _ _ | leave _ | pipe _ =>
        exact Option.some.inj hrun ▸ hs.idle hnot
    · refine Agent.projects_runner.invariant (J := fun r => r.main = .exited) ?_ trivial
        (hs.exited hr) hb
      exact fun r c r' hr hc => Runner.exited_step (Runner.step_iff.mp hc).2 hr
    · rcases pipe_step hb with ⟨hpc, _⟩ | ⟨_, _, _, hpc⟩
      · exact hpc.trans (hs.stopped hr)
      · exact absurd (hs.stopped hr) hpc

theorem linked_step {s t : Process ι n} {a : Action ι n} (hs : s.agent.Linked)
    (hg : ClosesFine a) (h : step s a = some t) : t.agent.Linked := by
  cases a with
  | manager a =>
    obtain ⟨_, m, _, rfl⟩ := manager_spec h
    exact hs
  | agent a =>
    obtain ⟨_, b, hb, rfl⟩ := agent_spec h
    exact Agent.linked_step hs hg hb

/-! ## What is traced, and when -/

omit [DecidableEq ι] in
/-- A probe is in place only while `Start` of the runner runs. -/
theorem running_of_hooked {s : Process ι n} (hs : s.Coupled) (hl : s.agent.Linked)
    (h : s.agent.Hooked ∨ s.agent.HookedReturn) :
    runner ∈ s.manager.invoked ∧ s.runPc runner = .running := by
  have hinvoked : runner ∈ s.manager.invoked := by
    by_contra hnot
    have hlen : s.agent.runner.attachers.length = 0 := by rw [(hs.idle hnot).2]; rfl
    rcases h with ⟨k, hk, _⟩ | ⟨k, hk, _⟩ <;> omega
  refine ⟨hinvoked, hs.running hinvoked fun hret => ?_⟩
  obtain ⟨hno, hnor⟩ := hl.unhooked (by rw [hs.exited hret]; rfl)
  exact h.elim hno hnor

/-- What a step records, or prints, it does while the runnable runs that this is the work of. -/
theorem running_of_recorded {s t : Process ι n} {a : Action ι n} (hs : s.Coupled)
    (hl : s.agent.Linked) (h : step s a = some t) :
    (t.agent.probe.captures = s.agent.probe.captures ∧
        t.agent.probe.pushes = s.agent.probe.pushes ∨
      runner ∈ s.manager.invoked ∧ s.runPc runner = .running) ∧
    (t.agent.pipe.printed = s.agent.pipe.printed ∨
      pump ∈ s.manager.invoked ∧ s.runPc pump = .running) := by
  cases a with
  | manager a =>
    obtain ⟨_, m, _, rfl⟩ := manager_spec h
    exact ⟨Or.inl ⟨rfl, rfl⟩, Or.inl rfl⟩
  | agent a =>
    obtain ⟨hallow, b, hb, rfl⟩ := agent_spec h
    constructor
    · obtain ⟨cs, ps, hr⟩ := Agent.recorded_step hb
      by_cases hhook : s.agent.Hooked ∨ s.agent.HookedReturn
      · exact Or.inr (running_of_hooked hs hl hhook)
      · obtain ⟨hno, hnor⟩ := not_or.mp hhook
        obtain rfl : cs = [] := List.eq_nil_iff_forall_not_mem.mpr fun c hc =>
          hno (hr.traced c hc).2
        obtain rfl : ps = [] := List.eq_nil_iff_forall_not_mem.mpr fun p hp =>
          hnor (hr.registered p hp).2
        exact Or.inl ⟨hr.captures, hr.pushes⟩
    · rcases pipe_step hb with ⟨_, hprinted⟩ | ⟨c, rfl, hpump, hpc⟩
      · exact Or.inl hprinted
      · have hinvoked := allows_pump hallow hpump
        exact Or.inr ⟨hinvoked, hs.running hinvoked fun hret => hpc (hs.stopped hret)⟩

theorem coupled_run {programs : List Program} {reader : Bool} {as : List (Action ι n)}
    {s : Process ι n} (h : Trace.run step (init programs reader) as = some s)
    (hg : Trace.Meets step (fun _ a => ClosesFine a) (init programs reader) as) :
    s.Coupled ∧ s.agent.Linked :=
  Trace.run_invariant_of_meets (I := fun s => s.Coupled ∧ s.agent.Linked)
    (fun _ _ _ hs ha ht => ⟨coupled_step hs.1 ht, linked_step hs.2 ha ht⟩)
    ⟨coupled_init programs reader, Agent.linked_init programs⟩ hg h

/-- **Tracing is bounded by the runnables.** In every run in which no `Close` fails, whenever a step
captures a call or pushes a record, `Start` of the runner was invoked and has not returned; whenever
a step prints a line, `Start` of the pump was invoked and has not returned. -/
theorem traced_while_running (programs : List Program) (reader : Bool) (as : List (Action ι n))
    (s t : Process ι n) (a : Action ι n)
    (h : Trace.run step (init programs reader) as = some s)
    (hg : Trace.Meets step (fun _ a => ClosesFine a) (init programs reader) as)
    (ht : step s a = some t) :
    (t.agent.probe.captures ≠ s.agent.probe.captures ∨
        t.agent.probe.pushes ≠ s.agent.probe.pushes →
      runner ∈ s.manager.invoked ∧ s.runPc runner = .running) ∧
    (t.agent.pipe.printed ≠ s.agent.pipe.printed →
      pump ∈ s.manager.invoked ∧ s.runPc pump = .running) := by
  obtain ⟨hs, hl⟩ := coupled_run h hg
  obtain ⟨hrunner, hpump⟩ := running_of_recorded hs hl ht
  refine ⟨fun hne => hrunner.resolve_left ?_, fun hne => hpump.resolve_left hne⟩
  rintro ⟨hcaptures, hpushes⟩
  exact hne.elim (fun hc => hc hcaptures) fun hp => hp hpushes

/-- `shutdown` has returned nil. -/
structure Ended (s : Process ι n) : Prop where
  coupled : s.Coupled
  linked : s.agent.Linked
  rest : s.manager.AtRest

omit [DecidableEq ι] in
theorem Ended.not_running {s : Process ι n} (hs : s.Ended) (p : GroupName × Nat) :
    s.runPc p ≠ .running := by
  intro hrun
  have hdone : s.runPc p = .done := hs.rest.done (g := p.1) (i := p.2) (by
    show s.runPc p ≠ .idle
    rw [hrun]
    simp)
  rw [hrun] at hdone
  cases hdone

omit [DecidableEq ι] in
/-- No deferred call of an attach goroutine is left. -/
theorem Ended.released {s : Process ι n} (hs : s.Ended) {k : Nat} {x : Attacher}
    (hx : s.agent.runner.attachers[k]? = some x) : (s.agent.links k).Released := by
  by_cases hinvoked : runner ∈ s.manager.invoked
  · have hret : (s.runPc runner).returned = true := by
      by_contra hnot
      exact hs.not_running runner (hs.coupled.running hinvoked hnot)
    exact hs.linked.released (by rw [hs.coupled.exited hret]; rfl) k
  · rw [(hs.coupled.idle hinvoked).2] at hx
    cases hx

theorem ended_step {s t : Process ι n} {a : Action ι n} (hs : s.Ended) (h : step s a = some t) :
    t.Ended := by
  refine ⟨coupled_step hs.coupled h, linked_step hs.linked ?_ h, ?_⟩
  · cases a with
    | manager _ => exact trivial
    | agent a =>
      obtain ⟨_, b, hb, _⟩ := agent_spec h
      cases a with
      | close k ok =>
        obtain ⟨x, l, hx, _, hclose, _⟩ := Agent.close_spec hb
        obtain ⟨hup, hurp⟩ := hs.released hx
        simp [Links.close, hup, hurp] at hclose
      | runner _ | enter _ _ | entry _ _ _ | ret _ _ _ | leave _ | pipe _ => exact trivial
  · exact projects_manager.invariant (fun _ _ _ => TaskManager.atRest_step) trivial hs.rest h

/-- **A clean shutdown leaves the process quiet.** In every run in which no `Close` fails, once
`shutdown` has returned nil: no probe is in place, and whatever happens from there on, no call is
captured, no record pushed and no line printed. -/
theorem quiet_after_shutdown (programs : List Program) (reader : Bool) (as bs : List (Action ι n))
    (s t : Process ι n) (h : Trace.run step (init programs reader) as = some s)
    (hg : Trace.Meets step (fun _ a => ClosesFine a) (init programs reader) as)
    (hclean : s.manager.main = .returned true) (ht : Trace.run step s bs = some t) :
    (¬ t.agent.Hooked ∧ ¬ t.agent.HookedReturn) ∧
      t.agent.probe.captures = s.agent.probe.captures ∧
      t.agent.probe.pushes = s.agent.probe.pushes ∧
      t.agent.pipe.printed = s.agent.pipe.printed := by
  obtain ⟨hcoupled, hlinked⟩ := coupled_run h hg
  have hs : s.Ended := ⟨hcoupled, hlinked, hcoupled.shutting.managed,
    hcoupled.shutting.settled.quiet (hcoupled.shutting.settled.clean hclean)⟩
  have hend := Trace.run_invariant (fun _ _ _ hu hv => ended_step hu hv) hs ht
  refine ⟨not_or.mp fun hhook =>
    hend.not_running runner (running_of_hooked hend.coupled hend.linked hhook).2, ?_⟩
  refine Trace.run_rel (I := Ended) (R := fun u v =>
    v.agent.probe.captures = u.agent.probe.captures ∧
      v.agent.probe.pushes = u.agent.probe.pushes ∧ v.agent.pipe.printed = u.agent.pipe.printed)
    (fun _ => ⟨rfl, rfl, rfl⟩) ?_ (fun _ _ _ hu hv => ended_step hu hv) ?_ hs ht
  · rintro u v w ⟨h1, h2, h3⟩ ⟨h1', h2', h3'⟩
    exact ⟨h1'.trans h1, h2'.trans h2, h3'.trans h3⟩
  · intro u a v hu hv
    obtain ⟨hrunner, hpump⟩ := running_of_recorded hu.coupled hu.linked hv
    obtain ⟨hcaptures, hpushes⟩ := hrunner.resolve_right fun hr => hu.not_running _ hr.2
    exact ⟨hcaptures, hpushes, hpump.resolve_right fun hr => hu.not_running _ hr.2⟩

/-! ## One query between start and shutdown -/

/-- All groups are started and all runnables invoked. -/
def starting : List TaskManager.Action :=
  TaskManager.startEmpty .pumps ++ TaskManager.startOne .bpfPrograms 0 ++
    TaskManager.startTwo .caches 1 2 ++
    [.invoke .bpfPrograms 0, .invoke .caches 1, .runReturn .caches 1 false,
      .group .caches (.wgDone 1), .invoke .caches 2]

def started : List (Action Unit 2) := starting.map .manager

/-- A registered and probed server is called. -/
def called : List (Action Unit 2) :=
  started ++ Agent.attached.map .agent ++ [.agent (.enter Agent.gtid10 ⟨0, 0, COM_QUERY⟩)]

/-- `StopAndWait` of a group up to its wait, and from there. -/
def stopUntilWait : List (Action Unit 2) := List.replicate 6 (.manager .stop)
def stopFromWait : List (Action Unit 2) := List.replicate 3 (.manager .stop)

/-- The context is cancelled; the pump and then the runner end with their groups. -/
def shutDown : List (Action Unit 2) :=
  [.manager (.cancel .canceled), .manager .seeDone, .manager .main, .manager .drain,
    .manager .drain] ++
    stopUntilWait ++ [.agent (.pipe .cancel), .agent (.pipe .select),
      .manager (.runReturn .caches 2 false), .manager (.group .caches (.wgDone 2))] ++
    stopFromWait ++ stopUntilWait ++ Agent.stop.map .agent ++
    [.agent (.runner .unwind), .agent (.runner .unwind),
      .manager (.runReturn .bpfPrograms 0 false),
      .manager (.group .bpfPrograms (.wgDone 0))] ++
    stopFromWait ++ stopUntilWait ++ stopFromWait ++ [.manager .stop, .manager .main]

theorem traced_while_running_called : ∃ s t : Process Unit 2,
    Trace.run step (init [percona5734] true) called = some s ∧
    step s (.agent (.entry 7 Agent.cpu1 (ProbeState.firingAt 3))) = some t ∧
    runner ∈ s.manager.invoked ∧ s.runPc runner = .running := by
  have hobs : (Trace.run step (init [percona5734] true)
      (called ++ [.agent (.entry 7 Agent.cpu1 (ProbeState.firingAt 3))])).map
        (fun t => t.agent.probe.captures.length) = some 1 := by decide +kernel
  have hnone : (Trace.run step (init [percona5734] true) called).map
      (fun s => s.agent.probe.captures.length) = some 0 := by decide +kernel
  obtain ⟨t, ht, hone⟩ := Option.map_eq_some_iff.mp hobs
  obtain ⟨s, hs, hlast⟩ := Trace.run_append_eq_some.mp ht
  rw [hs] at hnone
  have hzero : s.agent.probe.captures.length = 0 := Option.some.inj hnone
  have hstep : step s (.agent (.entry 7 Agent.cpu1 (ProbeState.firingAt 3))) = some t :=
    (Trace.run_singleton _ _).symm.trans hlast
  refine ⟨s, t, hs, hstep, (traced_while_running _ _ _ s t _ hs (by decide +kernel) hstep).1
    (Or.inl fun heq => ?_)⟩
  rw [heq, hzero] at hone
  cases hone

theorem quiet_after_shutdown_oneQuery : ∃ s t : Process Unit 2,
    Trace.run step (init [percona5734] true)
      (started ++ Agent.oneQuery.map .agent ++ shutDown) = some s ∧
    s.manager.main = .returned true ∧
    Trace.run step s (Agent.lateQuery.map .agent) = some t ∧
    (¬ t.agent.Hooked ∧ ¬ t.agent.HookedReturn) ∧
      t.agent.probe.captures = s.agent.probe.captures ∧
      t.agent.probe.pushes = s.agent.probe.pushes ∧
      t.agent.pipe.printed = s.agent.pipe.printed := by
  have hobs : (Trace.run step (init [percona5734] true)
      (started ++ Agent.oneQuery.map .agent ++ shutDown ++ Agent.lateQuery.map .agent)).isSome := by
    decide +kernel
  have hmain : (Trace.run step (init [percona5734] true)
      (started ++ Agent.oneQuery.map .agent ++ shutDown)).map (fun s => s.manager.main) =
        some (.returned true) := by decide +kernel
  obtain ⟨t, ht⟩ := Option.isSome_iff_exists.mp hobs
  obtain ⟨s, hs, hlate⟩ := Trace.run_append_eq_some.mp ht
  rw [hs] at hmain
  have hclean := Option.some.inj hmain
  exact ⟨s, t, hs, hclean, hlate, quiet_after_shutdown _ _ _ _ s t hs (by decide +kernel) hclean
    hlate⟩

end Process

end EDGuard
