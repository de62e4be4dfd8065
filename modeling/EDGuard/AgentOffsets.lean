import EDGuard.AgentOrigin
import EDGuard.ProbeCapture

/-!
# The offsets a line is read with

`attachInstance` stores the offsets of a program under a pid, and the handlers read the `THD` of a
call at the offsets they find for its process.

* `Entry` — what is stored for an instance: its cluster name and the offsets of the program of its
  image.
* `Runner.Valued`, `ProbeState.Filled` — **the invariants**: `clusters` has entries only, and what
  a firing found there is the entry of its process.
* `printed_offsets` — so every line was read with the offsets of a program that was registered for
  the image of a reported container.
-/

set_option autoImplicit false

namespace EDGuard

/-- A program that is found was registered under its version. -/
theorem eq_of_foldl_withBpfProgram : ∀ {ps : List Program} {m : GoString → Option Program}
    {v : GoString} {p : Program}, ps.foldl WithBpfProgram m v = some p →
    m v = some p ∨ p ∈ ps ∧ p.version = v
  | [], _, _, _, h => Or.inl h
  | q :: ps, m, v, p, h => by
    rcases eq_of_foldl_withBpfProgram (m := WithBpfProgram m q) h with hm | ⟨hp, hv⟩
    · rcases eq_or_ne v q.version with rfl | hv
      · unfold WithBpfProgram at hm
        rw [Function.update_self] at hm
        exact Or.inr ⟨Option.some.inj hm ▸ List.mem_cons_self, by rw [Option.some.inj hm]⟩
      · unfold WithBpfProgram at hm
        rw [Function.update_of_ne hv] at hm
        exact Or.inl hm
    · exact Or.inr ⟨List.mem_cons_of_mem q hp, hv⟩

namespace Runner

section

variable (programs : GoString → Option Program) (delivered : PodEvent → Prop)
  (answers : GoString → Int → Prop)

/-- What `attachInstance` stores for an instance of a reported container. -/
def Entry (pid : UInt32) (cluster : Cluster) : Prop :=
  ∃ t program, Origin programs delivered answers t ∧ t.pidKey = pid ∧
    programs t.version = some program ∧ cluster = bpfCluster t program

variable {ι : Type}

/-- Only the mark of a program changes, and `clusters` has entries only. -/
structure Valued (s : Runner ι) : Prop where
  offsets : ∀ v p, s.bpfPrograms v = some p →
    ∃ q, programs v = some q ∧ p.properties = q.properties
  writing : ∀ t cluster, s.main = .attachUpdate t cluster →
    ∃ q, programs t.version = some q ∧ cluster = bpfCluster t q
  values : ∀ k cluster, s.clusters.lookup k = some cluster →
    Entry programs delivered answers k cluster

end

variable {ι : Type} {programs : GoString → Option Program} {delivered : PodEvent → Prop}
  {answers : GoString → Int → Prop}

theorem valued_init (ps : List Program) :
    Valued (offered ps) delivered answers (init ps : Runner ι) where
  offsets := fun _ p hp => ⟨p, hp, rfl⟩
  writing := by
    intro t cluster hmain
    cases hmain
  values := by
    intro k cluster hk
    have hnone : (init ps : Runner ι).clusters.lookup k = none := BoundedMap.lookup_empty k
    rw [hnone] at hk
    cases hk

/-- A step that stores nothing. -/
theorem Valued.frame {s t : Runner ι} (hs : Valued programs delivered answers s)
    (hprograms : t.bpfPrograms = s.bpfPrograms) (hclusters : t.clusters = s.clusters)
    (hmain : ∀ x cluster, t.main = .attachUpdate x cluster → s.main = .attachUpdate x cluster) :
    Valued programs delivered answers t where
  offsets := by
    rw [hprograms]
    exact hs.offsets
  writing := fun x cluster hx => hs.writing x cluster (hmain x cluster hx)
  values := by
    rw [hclusters]
    exact hs.values

variable [DecidableEq ι]

theorem valued_step {s t : Runner ι} {a : Action ι}
    (horigin : Sourced programs delivered answers s) (hs : Valued programs delivered answers s)
    (h : Step s a t) : Valued programs delivered answers t := by
  cases h with
  | @store x bpfProgram hmain hp =>
    obtain ⟨q, hq, hsame⟩ := hs.offsets x.version bpfProgram hp
    refine ⟨hs.offsets, fun y cluster hy => ?_, hs.values⟩
    cases hy
    exact ⟨q, hq, by rw [bpfCluster, bpfCluster, hsame]⟩
  | @update x cluster m hmain hm =>
    obtain ⟨q, hq, hcluster⟩ := hs.writing x cluster hmain
    refine ⟨hs.offsets, fun y cluster hy => (by cases hy), fun k value hk => ?_⟩
    rw [BoundedMap.lookup_update hm] at hk
    split at hk
    · rename_i hkey
      cases hk
      exact ⟨x, q, horigin.main x (by rw [hmain]; rfl), hkey.symm, hq, hcluster⟩
    · exact hs.values k value hk
  | @delete i id x m _ _ hm =>
    refine ⟨hs.offsets, hs.writing, fun k value hk => ?_⟩
    rw [BoundedMap.lookup_delete hm] at hk
    split at hk
    · cases hk
    · exact hs.values k value hk
  | @mark k x _ _ =>
    refine ⟨fun v p hp => ?_, hs.writing, hs.values⟩
    have hp : Function.update s.bpfPrograms x.version
        ((s.bpfPrograms x.version).map fun p => { p with attached := true }) v = some p := hp
    rcases eq_or_ne v x.version with rfl | hv
    · rw [Function.update_self] at hp
      obtain ⟨p₀, hp₀, rfl⟩ := Option.map_eq_some_iff.mp hp
      exact hs.offsets x.version p₀ hp₀
    · rw [Function.update_of_ne hv] at hp
      exact hs.offsets v p hp
  | recvCh _ _ | lockAttach _ _ | updateErr _ | spawn _ | leave _ _ | deferCancel _ | deferWait _ _
  | deferCloseCh _ | deferCloseErr _ =>
    refine hs.frame rfl rfl fun _ _ hx => ?_
    cases hx
  | _ => exact hs.frame rfl rfl fun _ _ hx => hx

end Runner

namespace ProbeState

/-- The handlers read with values of `clusters`. -/
structure Filled (P : UInt32 → Cluster → Prop) (s : ProbeState) : Prop where
  captures : ∀ c ∈ s.captures, ∀ cluster, c.cluster = some cluster → P (pidOf c.gtid) cluster
  pushes : ∀ p ∈ s.pushes, ∀ cluster, p.cluster = some cluster → P (pidOf p.gtid) cluster

/-- What `clusters` holds. -/
def Holds (P : UInt32 → Cluster → Prop) (s : ProbeState) : Prop :=
  ∀ pid cluster, s.kernel.clusters.lookup pid = some cluster → P pid cluster

theorem filled_step {P : UInt32 → Cluster → Prop} {s t : ProbeState} {a : Action}
    (hs : s.Inv ∧ s.Filled P) (hmap : s.Holds P) (h : step s a = some t) : t.Inv ∧ t.Filled P := by
  obtain ⟨hi, hf⟩ := hs
  refine ⟨inv_step s a t hi h, ?_⟩
  cases a with
  | enter gtid regs =>
    obtain ⟨_, rfl⟩ := enter_spec h
    exact ⟨hf.captures, hf.pushes⟩
  | entry tid cpu f =>
    obtain ⟨l, hl⟩ := live_of_fireEntry h
    obtain ⟨_, _, ⟨_, rfl⟩ | ⟨_, _, _, rfl⟩ | ⟨_, cluster, _, _, _, hcl, rfl, _, rfl⟩⟩ :=
      fireEntry_cases h hl (hi.live_ok tid l hl).2.1
    · exact ⟨hf.captures, hf.pushes⟩
    · exact ⟨hf.captures, hf.pushes⟩
    · refine ⟨fun c hc value hvalue => ?_, hf.pushes⟩
      rcases List.mem_cons.mp hc with rfl | hold
      · obtain rfl : cluster = value := Option.some.inj hvalue
        exact hmap _ cluster hcl
      · exact hf.captures c hold value hvalue
  | ret tid f =>
    obtain ⟨l, hl⟩ := live_of_fireReturn h
    obtain ⟨_, ⟨_, rfl⟩ | ⟨_, _, rfl⟩ | ⟨cluster, d, hcl, _, rfl⟩⟩ :=
      fireReturn_cases h hl (hi.live_ok tid l hl).2.1
    · exact ⟨hf.captures, hf.pushes⟩
    · exact ⟨hf.captures, hf.pushes⟩
    · refine ⟨hf.captures, fun p hp value hvalue => ?_⟩
      rcases List.mem_cons.mp hp with rfl | hold
      · obtain rfl : cluster = value := Option.some.inj hvalue
        exact hmap _ cluster hcl
      · exact hf.pushes p hold value hvalue
  | leave tid =>
    obtain rfl := leave_spec h
    exact ⟨hf.captures, hf.pushes⟩
  | setCluster _ _ | delCluster _ | pop =>
    obtain ⟨_, _, rfl⟩ := agent_spec h trivial
    exact ⟨hf.captures, hf.pushes⟩

end ProbeState

namespace Agent

variable {ι : Type} {n : Nat}

section

variable (programs : GoString → Option Program) (delivered : PodEvent → Prop)
  (answers : GoString → Int → Prop)

/-- The handlers have read with entries of reported containers only. -/
structure ReadWith (s : Agent ι n) : Prop where
  traceable : Traceable programs delivered answers s
  runner : Runner.Valued programs delivered answers s.runner
  handlers : s.handlers.Filled (Runner.Entry programs delivered answers)

end

variable {programs : GoString → Option Program} {delivered : PodEvent → Prop}
  {answers : GoString → Int → Prop}

theorem readWith_init (ps : List Program) :
    ReadWith (offered ps) delivered answers (init ps : Agent ι n) where
  traceable := traceable_init ps
  runner := Runner.valued_init ps
  handlers := ⟨fun _ hc => (nomatch hc), fun _ hp => nomatch hp⟩

variable [DecidableEq ι]

theorem readWith_step {s t : Agent ι n} {a : Action ι n}
    (hs : ReadWith programs delivered answers s) (htold : Told delivered answers s a)
    (h : step s a = some t) : ReadWith programs delivered answers t where
  traceable := traceable_step hs.traceable htold h
  runner := by
    cases a with
    | runner b =>
      obtain ⟨_, r, hr, rfl⟩ := runner_spec h
      exact Runner.valued_step hs.traceable.runner hs.runner (Runner.step_iff.mp hr).2
    | close _ _ | enter _ _ | entry _ _ _ | ret _ _ _ | leave _ | pipe _ =>
      have hsame := projects_runner.step s _ t trivial h
      exact Option.some.inj hsame ▸ hs.runner
  handlers := by
    -- the handlers look up what the runner has stored
    have hmap : s.handlers.Holds (Runner.Entry programs delivered answers) := hs.runner.values
    exact (projects_handlers.invariant_of
      (J := fun p => p.Inv ∧ p.Filled (Runner.Entry programs delivered answers))
      (fun _ _ _ hj hm hv => ProbeState.filled_step hj hm hv) trivial
      ⟨hs.traceable.handlers, hs.handlers⟩ (fun _ _ => hmap) h).2

/-- The cluster name of an instance and the offsets of a program that was registered for its image;
the instance has the process, and was made for a reported container. -/
def OffsetsOf (ps : List Program) (delivered : PodEvent → Prop) (answers : GoString → Int → Prop)
    (pid : UInt32) (cluster : Cluster) : Prop :=
  ∃ t, ∃ program ∈ ps, Runner.Origin (offered ps) delivered answers t ∧ t.pidKey = pid ∧
    program.version = t.version ∧ cluster = bpfCluster t program

theorem offsetsOf_of_entry {ps : List Program} {pid : UInt32} {cluster : Cluster}
    (h : Runner.Entry (offered ps) delivered answers pid cluster) :
    OffsetsOf ps delivered answers pid cluster := by
  obtain ⟨t, program, horigin, hpid, hprogram, hcluster⟩ := h
  rcases eq_of_foldl_withBpfProgram hprogram with hnone | ⟨hmem, hversion⟩
  · cases hnone
  · exact ⟨t, program, hmem, horigin, hpid, hversion, hcluster⟩

/-- **Every line is read with the offsets of its image.** In every run of the agent, whatever is
lost, dropped or printed again: a line is the record of a return firing `p`, which completed the
record of an entry firing `c`. Each of the two was read from the memory at its own firing, with the
value that this firing had found in `clusters`; and what a firing finds are the offsets of a program
that was registered for the image of a reported container of the process it fired in. -/
theorem printed_offsets (delivered : PodEvent → Prop) (answers : GoString → Int → Prop)
    (ps : List Program) (as : List (Action ι n)) (s : Agent ι n)
    (h : Trace.run step (init ps) as = some s)
    (htold : Trace.Meets step (Told delivered answers) (init ps) as) : ∀ x ∈ s.pipe.printed,
      ∃ c ∈ s.probe.captures, ∃ p ∈ s.probe.pushes, ∃ own other,
        x = p.record ∧ p.source = some c ∧ c.cluster = some own ∧ p.cluster = some other ∧
        c.record = fillDbCtx own c.gtid c.regs c.firing c.scratch ∧
        p.record = completeDbCtx other p.firing c.record ∧
        OffsetsOf ps delivered answers (pidOf c.gtid) own ∧
        OffsetsOf ps delivered answers (pidOf p.gtid) other := by
  have hs : ReadWith (offered ps) delivered answers s :=
    Trace.run_invariant_of_meets (fun _ _ _ hs hg ht => readWith_step hs hg ht)
      (readWith_init ps) htold h
  intro x hx
  obtain ⟨p, hp, rfl⟩ := hs.traceable.shared.push_of_mem (hs.traceable.pipe.printed x hx)
  obtain ⟨c, hc, hsource, _, _, other, hother, hrecord⟩ := hs.traceable.handlers.push_ok p hp
  obtain ⟨own, hown, hfilled⟩ := (hs.traceable.handlers.cap_ok c hc).1
  exact ⟨c, hc, p, hp, own, other, rfl, hsource, hown, hother, hfilled, hrecord,
    offsetsOf_of_entry (hs.handlers.captures c hc own hown),
    offsetsOf_of_entry (hs.handlers.pushes p hp other hother)⟩

/-- A firing in a process in which every byte is the low byte of its address. -/
def rulerFiring : Firing := lowFiring fun a => some a.toUInt8

/-- A thread of the process makes a query with its `THD` at address 0. -/
def rulerQuery : List (Action Unit 2) :=
  attached ++ [.enter gtid10 ⟨0, 0, COM_QUERY⟩, .entry 7 cpu1 rulerFiring,
    .ret 7 cpu1 rulerFiring, .leave 7] ++ pumped cpu1

/-- The thread id was read at 8432, the error number at 12768. -/
theorem rulerQuery_printed : (Trace.run step (init [percona5734]) rulerQuery).map
    (fun s => s.pipe.printed.map fun x => (x.threadId, x.sqlErrno)) =
      some [(0xF3F2F1F0, 0xE3E2E1E0)] := by decide +kernel

theorem printed_offsets_rulerQuery : ∃ (s : Agent Unit 2) (x : DbCtx),
    Trace.run step (init [percona5734]) rulerQuery = some s ∧ x ∈ s.pipe.printed ∧
    (x.threadId, x.sqlErrno) = (0xF3F2F1F0, 0xE3E2E1E0) ∧
      ∃ c ∈ s.probe.captures, ∃ p ∈ s.probe.pushes, ∃ own other,
        x = p.record ∧ p.source = some c ∧ c.cluster = some own ∧ p.cluster = some other ∧
        c.record = fillDbCtx own c.gtid c.regs c.firing c.scratch ∧
        p.record = completeDbCtx other p.firing c.record ∧
        OffsetsOf [percona5734] Created Runs10 (pidOf c.gtid) own ∧
        OffsetsOf [percona5734] Created Runs10 (pidOf p.gtid) other := by
  obtain ⟨s, hs, hprinted⟩ := Option.map_eq_some_iff.mp rulerQuery_printed
  obtain ⟨x, hx, hread⟩ := List.map_eq_singleton_iff.mp hprinted
  have hmem : x ∈ s.pipe.printed := by
    rw [hx]
    exact List.mem_singleton_self x
  have htold : Trace.Meets step (Told Created Runs10) (init [percona5734]) rulerQuery := by
    decide +kernel
  exact ⟨s, x, hs, hmem, hread, printed_offsets _ _ _ rulerQuery s hs htold x hmem⟩

end Agent

end EDGuard
