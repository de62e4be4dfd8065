import EDGuard.Agent
import EDGuard.RunnerOrigin

/-!
# Where a printed line comes from

* `Traceable` — **the invariant of the agent**: the keys of `clusters`, the captures and the pushes
  all belong to processes that were looked up for a container that a pod event has reported.
* `printed_origin` — so does every printed line, whatever is lost, dropped or printed again.
* `unregistered_silent` — firings in a process that is not registered leave no trace.
-/

set_option autoImplicit false

namespace EDGuard

namespace Agent

variable {ι : Type} {n : Nat}

section

variable (programs : GoString → Option Program) (delivered : PodEvent → Prop)
  (answers : GoString → Int → Prop)

/-- What the environment tells the runner. -/
def Told (s : Agent ι n) : Action ι n → Prop
  | .runner a => Runner.Told delivered answers s.runner a
  | _ => True

instance [∀ e, Decidable (delivered e)] [∀ c p, Decidable (answers c p)] (s : Agent ι n) :
    ∀ a, Decidable (Told delivered answers s a)
  | .runner a => inferInstanceAs (Decidable (Runner.Told delivered answers s.runner a))
  | .close .. | .enter .. | .entry .. | .ret .. | .leave _ | .pipe _ => isTrue trivial

/-- The process was registered for a reported container. -/
def Legitimate (pid : UInt32) : Prop :=
  ∃ t, Runner.Origin programs delivered answers t ∧ t.pidKey = pid

/-- Everything the agent knows about a process, it knows about a legitimate one. -/
structure Traceable (s : Agent ι n) : Prop where
  runner : Runner.Sourced programs delivered answers s.runner
  handlers : s.handlers.Inv
  captures : ∀ c ∈ s.probe.captures,
    c.regs.parm3 = COM_QUERY ∧ Legitimate programs delivered answers (pidOf c.gtid)
  shared : s.QueueShared
  pipe : s.pipe.Sourced

end

variable {programs : GoString → Option Program} {delivered : PodEvent → Prop}
  {answers : GoString → Int → Prop}

theorem traceable_init (ps : List Program) :
    Traceable (offered ps) delivered answers (init ps : Agent ι n) where
  runner := Runner.sourced_init ps
  handlers := ProbeState.inv_init
  captures := fun _ hc => nomatch hc
  shared := rfl
  pipe := Pipe.sourced_init DbCtx.zero

variable [DecidableEq ι]

theorem traceable_step {s t : Agent ι n} {a : Action ι n}
    (hs : Traceable programs delivered answers s)
    (htold : Told delivered answers s a) (h : step s a = some t) :
    Traceable programs delivered answers t where
  runner := by
    cases a with
    | runner b =>
      obtain ⟨_, r, hr, rfl⟩ := runner_spec h
      exact Runner.sourced_step hs.runner htold (Runner.step_iff.mp hr).2
    | close _ _ | enter _ _ | entry _ _ _ | ret _ _ _ | leave _ | pipe _ =>
      have hsame := projects_runner.step s _ t trivial h
      exact Option.some.inj hsame ▸ hs.runner
  handlers := projects_handlers.invariant ProbeState.inv_step trivial hs.handlers h
  captures := by
    intro c hc
    obtain ⟨cs, ps, hr⟩ := recorded_step h
    rcases List.mem_append.mp (hr.captures ▸ hc) with hnew | hold
    · obtain ⟨hkey, hcmd⟩ := (hr.traced c hnew).1
      exact ⟨hcmd, hs.runner.clusters _ hkey⟩
    · exact hs.captures c hold
  shared := queueShared_step s a t hs.shared h
  pipe := projects_pipe.invariant Pipe.sourced_step trivial hs.pipe h

omit [DecidableEq ι] in
/-- A record that was pushed is the capture of a traced call, completed at its return. -/
theorem Traceable.of_pushed {s : Agent ι n} (hs : Traceable programs delivered answers s)
    {x : DbCtx} (hx : x ∈ s.pipe.pushed) : ∃ c ∈ s.probe.captures, ∃ p ∈ s.probe.pushes,
      p.FromSource c ∧ x = p.record ∧ c.regs.parm3 = COM_QUERY ∧ x.gtid = c.gtid ∧
        Legitimate programs delivered answers (pidOf x.gtid) := by
  obtain ⟨p, hp, rfl⟩ := hs.shared.push_of_mem hx
  obtain ⟨c, hc, hsource, hgtid⟩ := hs.handlers.record_gtid hp
  obtain ⟨hcmd, hlegit⟩ := hs.captures c hc
  exact ⟨c, hc, p, hp, hsource, rfl, hcmd, hgtid, hgtid ▸ hlegit⟩

/-- **Every printed line comes from a managed pod.** In every run of the agent, whatever is lost,
dropped or printed again: a printed line is the record of a `COM_QUERY` that the entry handler
captured, completed at a return on the same thread; the pid of its process was answered for a
container, and an event that was delivered reported this container ready, with the image of a
registered program, in a running pod of the operator. -/
theorem printed_origin (delivered : PodEvent → Prop) (answers : GoString → Int → Prop)
    (ps : List Program) (as : List (Action ι n)) (s : Agent ι n)
    (h : Trace.run step (init ps) as = some s)
    (htold : Trace.Meets step (Told delivered answers) (init ps) as) : ∀ x ∈ s.pipe.printed,
      (∃ c ∈ s.probe.captures, ∃ p ∈ s.probe.pushes, p.FromSource c ∧ x = p.record ∧
        c.regs.parm3 = COM_QUERY ∧ x.gtid = c.gtid) ∧
      ∃ e pod containerId pid, delivered e ∧ e.Reports pod ∧ answers containerId pid ∧
        pidOf x.gtid = .ofInt pid ∧ ∃ c ∈ pod.containerStatuses, c.ready = true ∧
          c.mysqlImage = true ∧ (∃ p ∈ ps, p.version = ParseImage c.image) ∧
          ParseContainerId c.containerID = some containerId := by
  have hs : Traceable (offered ps) delivered answers s :=
    Trace.run_invariant_of_meets (fun _ _ _ hs hg ht => traceable_step hs hg ht)
      (traceable_init ps) htold h
  intro x hx
  obtain ⟨c, hc, p, hp, hsource, hrecord, hcmd, hgtid, hlegit⟩ :=
    hs.of_pushed (hs.pipe.printed x hx)
  obtain ⟨t, ⟨pod, imageId, containerId, pid, ⟨⟨e, he, hrep⟩, d, hd, htarget⟩, hpid, rfl⟩, hkey⟩ :=
    hlegit
  refine ⟨⟨c, hc, p, hp, hsource, hrecord, hcmd, hgtid⟩, e, pod, containerId, pid, he, hrep, hpid,
    hkey.symm, d, hd, ?_⟩
  unfold ContainerStatus.target at htarget
  split at htarget
  · rename_i hgate
    simp only [Bool.and_eq_true] at hgate
    obtain ⟨cid, hcid, heq⟩ := Option.map_eq_some_iff.mp htarget
    cases heq
    obtain ⟨p, hp⟩ := Option.isSome_iff_exists.mp hgate.2
    exact ⟨hgate.1.1, hgate.1.2, (mem_of_foldl_withBpfProgram hp).resolve_left (by simp), hcid⟩
  · cases htarget

/-- The pod of `oneQuery` is created. -/
def Created (e : PodEvent) : Prop := e = .create Runner.pod9f

instance (e : PodEvent) : Decidable (Created e) := inferInstanceAs (Decidable (_ = _))

/-- The container of `oneQuery` runs the process 10. -/
def Runs10 (containerId : GoString) (pid : Int) : Prop := containerId = lit ['9', 'f'] ∧ pid = 10

instance (containerId : GoString) (pid : Int) : Decidable (Runs10 containerId pid) :=
  inferInstanceAs (Decidable (_ ∧ _))

theorem printed_origin_oneQuery : ∃ s : Agent Unit 2,
    Trace.run step (init [percona5734]) oneQuery = some s ∧ ∃ x ∈ s.pipe.printed,
      (∃ c ∈ s.probe.captures, ∃ p ∈ s.probe.pushes, p.FromSource c ∧ x = p.record ∧
        c.regs.parm3 = COM_QUERY ∧ x.gtid = c.gtid) ∧
      ∃ e pod containerId pid, Created e ∧ e.Reports pod ∧ Runs10 containerId pid ∧
        pidOf x.gtid = .ofInt pid ∧ ∃ c ∈ pod.containerStatuses, c.ready = true ∧
          c.mysqlImage = true ∧ (∃ p ∈ [percona5734], p.version = ParseImage c.image) ∧
          ParseContainerId c.containerID = some containerId := by
  obtain ⟨s, hs, hprinted⟩ := Option.map_eq_some_iff.mp oneQuery_printed
  obtain ⟨x, hx, _⟩ := List.map_eq_singleton_iff.mp hprinted
  have hmem : x ∈ s.pipe.printed := by
    rw [hx]
    exact List.mem_singleton_self x
  have htold : Trace.Meets step (Told Created Runs10) (init [percona5734]) oneQuery := by
    decide +kernel
  exact ⟨s, hs, x, hmem, printed_origin _ _ _ oneQuery s hs htold x hmem⟩

/-! ## Processes that are not registered -/

/-- The process is not registered by this step. -/
def KeepsOut (pid : UInt32) (s : Agent ι n) : Action ι n → Prop
  | .runner (.update true) => ∀ x ∈ s.runner.main.stored, x.pidKey ≠ pid
  | _ => True

omit [DecidableEq ι] in
instance (pid : UInt32) (s : Agent ι n) : ∀ a, Decidable (KeepsOut pid s a)
  | .runner (.update true) =>
    inferInstanceAs (Decidable (∀ x ∈ s.runner.main.stored, x.pidKey ≠ pid))
  | .runner (.update false) | .runner (.deliver ..) | .runner (.iterate _) | .runner (.lookup ..)
  | .runner (.child ..) | .runner (.recvCh _) | .runner (.recvErr _) | .runner .lockAttach
  | .runner .store | .runner .spawn | .runner (.lockDetach _) | .runner (.delete ..)
  | .runner (.probe ..) | .runner (.mark _) | .runner (.unattach _) | .runner .cancel
  | .runner .leave | .runner .unwind | .runner (.sendClosed _) | .close .. | .enter .. | .entry ..
  | .ret .. | .leave _ | .pipe _ => isTrue trivial

theorem keepsOut_step {pid : UInt32} {s t : Agent ι n} {a : Action ι n}
    (hs : pid ∉ s.runner.clusters.keys) (hg : KeepsOut pid s a) (h : step s a = some t) :
    pid ∉ t.runner.clusters.keys := by
  cases a with
  | runner b =>
    obtain ⟨_, r, hr, rfl⟩ := runner_spec h
    show pid ∉ r.clusters.keys
    cases (Runner.step_iff.mp hr).2 with
    | @update x cluster m hmain hm =>
      intro hpid
      rcases Finset.mem_insert.mp (BoundedMap.keys_update hm ▸ hpid) with heq | hold
      · exact hg x (by rw [hmain]; rfl) heq.symm
      · exact hs hold
    | @delete i id x m _ _ hm =>
      intro hpid
      exact hs (Finset.mem_of_mem_erase (BoundedMap.keys_delete hm ▸ hpid))
    | _ => exact hs
  | close _ _ | enter _ _ | entry _ _ _ | ret _ _ _ | leave _ | pipe _ =>
    have hsame := projects_runner.step s _ t trivial h
    exact Option.some.inj hsame ▸ hs

/-- **A process that is not registered leaves no trace.** From any state in which its pid is not in
`clusters`, before it was attached or after it was detached, and for as long as no step registers
it: the firings that begin from there on capture nothing in the process and push no record for a
return in it. A firing is one step here; one that looks the pid up before it is taken out, and
stores or pushes only after that, is not among them. -/
theorem unregistered_silent (pid : UInt32) (bs : List (Action ι n)) (s t : Agent ι n)
    (h : Trace.run step s bs = some t) (hg : Trace.Meets step (KeepsOut pid) s bs)
    (hs : pid ∉ s.runner.clusters.keys) :
    pid ∉ t.runner.clusters.keys ∧
    (∃ cs, t.probe.captures = cs ++ s.probe.captures ∧ ∀ c ∈ cs, pidOf c.gtid ≠ pid) ∧
    ∃ ps, t.probe.pushes = ps ++ s.probe.pushes ∧ ∀ p ∈ ps, pidOf p.gtid ≠ pid := by
  refine Trace.run_invariant_of_meets (I := fun u => pid ∉ u.runner.clusters.keys ∧
    (∃ cs, u.probe.captures = cs ++ s.probe.captures ∧ ∀ c ∈ cs, pidOf c.gtid ≠ pid) ∧
    ∃ ps, u.probe.pushes = ps ++ s.probe.pushes ∧ ∀ p ∈ ps, pidOf p.gtid ≠ pid) ?_
    ⟨hs, ⟨[], rfl, fun _ hc => nomatch hc⟩, [], rfl, fun _ hp => nomatch hp⟩ hg h
  rintro u a v ⟨hkey, ⟨cs, hcs, hcpid⟩, ps, hps, hppid⟩ ha hv
  obtain ⟨cs', ps', hr⟩ := recorded_step hv
  refine ⟨keepsOut_step hkey ha hv, ⟨cs' ++ cs, ?_, fun c hc => ?_⟩, ps' ++ ps, ?_, fun p hp => ?_⟩
  · rw [hr.captures, hcs, List.append_assoc]
  · rcases List.mem_append.mp hc with hnew | hold
    · exact fun he => hkey (he ▸ (hr.traced c hnew).1.1)
    · exact hcpid c hold
  · rw [hr.pushes, hps, List.append_assoc]
  · rcases List.mem_append.mp hp with hnew | hold
    · exact fun he => hkey (he ▸ (hr.registered p hnew).1)
    · exact hppid p hold

/-- The process 11 makes a query on a probed machine. -/
def strangerQuery : List (Action Unit 2) :=
  [.enter 0xB00000007 ⟨0, 0, COM_QUERY⟩, .entry 7 cpu0 (ProbeState.firingAt 1),
    .ret 7 cpu0 (ProbeState.firingAt 1), .leave 7]

theorem unregistered_silent_stranger : ∃ s t : Agent Unit 2,
    Trace.run step (init [percona5734]) attached = some s ∧
    Trace.run step s strangerQuery = some t ∧ 11 ∉ t.runner.clusters.keys ∧
    (∃ cs, t.probe.captures = cs ++ s.probe.captures ∧ ∀ c ∈ cs, pidOf c.gtid ≠ 11) ∧
    ∃ ps, t.probe.pushes = ps ++ s.probe.pushes ∧ ∀ p ∈ ps, pidOf p.gtid ≠ 11 := by
  have hobs : (Trace.run step (init [percona5734]) (attached ++ strangerQuery)).isSome := by
    decide +kernel
  have hkeys : (Trace.run step (init [percona5734]) attached).map
      (fun s => decide (11 ∉ s.runner.clusters.keys)) = some true := by decide +kernel
  have hg : (Trace.run step (init [percona5734]) attached).map
      (fun s => decide (Trace.Meets step (KeepsOut 11) s strangerQuery)) = some true := by
    decide +kernel
  obtain ⟨t, ht⟩ := Option.isSome_iff_exists.mp hobs
  obtain ⟨s, hs, hquery⟩ := Trace.run_append_eq_some.mp ht
  rw [hs] at hkeys hg
  exact ⟨s, t, hs, hquery, unregistered_silent 11 strangerQuery s t hquery
    (of_decide_eq_true (Option.some.inj hg)) (of_decide_eq_true (Option.some.inj hkeys))⟩

end Agent

end EDGuard
