import EDGuard.PodRegistry
import EDGuard.Registry

/-!
# Instance keys and failed map operations

The key `version|containerId` of an instance is built three times: by `onPodUpdate` and
`onPodDelete` from the image and the id of a container status, and by `GetId` from the instance.

* `keys_consistent` — in every reachable state the three agree, and every instance that is sent or
  stored has a program.
* `failed_operation_iff` — a failed operation on `clusters` leaves the runner as it was, and a
  later event tries it again, exactly if it is the `Delete` of `detachInstance`.
* `failed_update_registers` — `attachInstance` stores the instance before its `Update`, so a
  registration that failed looks like one that succeeded.
-/

set_option autoImplicit false

namespace EDGuard

namespace Runner

variable {ι : Type} [DecidableEq ι] {programs : List Program} {s t u : Runner ι}

/-! ## Keys -/

/-- An instance with that version and container id is stored. -/
def Stores (s : Runner ι) (version containerId : GoString) : Prop :=
  ∃ id t, s.instances id = some t ∧ t.version = version ∧ t.containerId = containerId

/-- The keys of `r.Instances` are those that the handlers compute, and programs are found. -/
structure KeysConsistent (programs : List Program) (s : Runner ι) : Prop where
  /-- an instance that a handler sends on `r.ch` -/
  sent : ∀ i t, s.callbacks i = .add t → (s.bpfPrograms t.version).isSome
  /-- an instance that the main loop has received -/
  received : ∀ t, s.main.instance = some t → (s.bpfPrograms t.version).isSome
  /-- `attachInstance` does not dereference a missing program -/
  found : ∀ u, step s .store = some u → u.crashed = false
  stored : ∀ id t, s.instances id = some t → t.GetId = id ∧ (s.bpfPrograms t.version).isSome
  computed : (∀ p ∈ programs, BAR ∉ p.version) → ∀ (c : ContainerStatus) (containerId : GoString),
    ParseContainerId c.containerID = some containerId →
    (s.bpfPrograms (ParseImage c.image)).isSome →
    ((s.instances (instanceId (ParseImage c.image) containerId)).isSome ↔
      s.Stores (ParseImage c.image) containerId)
  /-- `onPodUpdate` passes a container over if its instance is stored, and registers it if not -/
  updated : (∀ p ∈ programs, BAR ∉ p.version) → ∀ (c : ContainerStatus) (containerId : GoString),
    c.ready = true → c.mysqlImage = true → ParseContainerId c.containerID = some containerId →
    (s.bpfPrograms (ParseImage c.image)).isSome →
    (updateIteration s.bpfPrograms s.instances c = .continue ↔
        s.Stores (ParseImage c.image) containerId) ∧
      (updateIteration s.bpfPrograms s.instances c = .found (ParseImage c.image) containerId ↔
        ¬ s.Stores (ParseImage c.image) containerId)
  /-- `onPodDelete` finds a container if its instance is stored, and passes it over if not -/
  deleted : (∀ p ∈ programs, BAR ∉ p.version) → ∀ (c : ContainerStatus) (containerId : GoString),
    c.mysqlImage = true → ParseContainerId c.containerID = some containerId →
    (s.bpfPrograms (ParseImage c.image)).isSome →
    (deleteIteration s.bpfPrograms s.instances c = .found (ParseImage c.image) containerId ↔
        s.Stores (ParseImage c.image) containerId) ∧
      (deleteIteration s.bpfPrograms s.instances c = .continue ↔
        ¬ s.Stores (ParseImage c.image) containerId)
  /-- the id that `onPodDelete` gives to `r.Delete` is that of the instance of the container -/
  detached : (∀ p ∈ programs, BAR ∉ p.version) → ∀ (c : ContainerStatus)
    (rest : List ContainerStatus) (id : GoString),
    (CallbackPc.delete (c :: rest)).iterate s.bpfPrograms s.instances =
      some (some (.detachLock id)) →
    ∃ t, s.instances id = some t ∧ t.version = ParseImage c.image ∧
      ParseContainerId c.containerID = some t.containerId

/-- The programs of the runner are those that were registered. -/
def Registered (programs : List Program) (s : Runner ι) : Prop :=
  ∀ v, (s.bpfPrograms v).isSome → ∃ p ∈ programs, p.version = v

omit [DecidableEq ι] in
theorem registered_init : (init programs : Runner ι).Registered programs := by
  intro v hv
  obtain ⟨p, hp⟩ := Option.isSome_iff_exists.mp hv
  rcases mem_of_foldl_withBpfProgram hp with hnone | hmem
  · cases hnone
  · exact hmem

theorem registered_step {a : Action ι} (hr : s.Registered programs) (h : Step s a t) :
    t.Registered programs := by
  intro v hv
  rw [isSome_bpfPrograms h] at hv
  exact hr v hv

/-- What every run keeps of the programs and the instances under way. -/
theorem known_run {as : List (Action ι)} (h : Trace.run step (init programs) as = some s) :
    s.Known ∧ s.Registered programs :=
  Trace.run_invariant (I := fun s : Runner ι => s.Known ∧ s.Registered programs)
    (fun _ _ _ hi hstep =>
      ⟨known_step hi.1 (step_iff.mp hstep).2, registered_step hi.2 (step_iff.mp hstep).2⟩)
    ⟨known_init programs, registered_init⟩ h

omit [DecidableEq ι] in
/-- The version and the container id of a stored instance can be read off its key. -/
theorem Known.instance_of_id (hk : s.Known) (hr : s.Registered programs)
    (hbar : ∀ p ∈ programs, BAR ∉ p.version) {version containerId : GoString}
    (hv : (s.bpfPrograms version).isSome) {x : Instance}
    (hx : s.instances (instanceId version containerId) = some x) :
    x.version = version ∧ x.containerId = containerId := by
  have hclean : ∀ v, (s.bpfPrograms v).isSome → BAR ∉ v := by
    intro v hsome
    obtain ⟨p, hp, rfl⟩ := hr v hsome
    exact hbar p hp
  obtain ⟨hid, hprog⟩ := hk.stored _ x hx
  have hcid : x.containerId = containerId := calc
    x.containerId = containerOf x.GetId := (containerOf_instanceId (hclean _ hprog)).symm
    _ = containerOf (instanceId version containerId) := congrArg containerOf hid
    _ = containerId := containerOf_instanceId (hclean _ hv)
  refine ⟨?_, hcid⟩
  have hid' : instanceId x.version containerId = instanceId version containerId := hcid ▸ hid
  unfold instanceId at hid'
  exact List.append_cancel_right (List.append_cancel_right hid')

omit [DecidableEq ι] in
/-- **The key that is computed from a container status** is there exactly if the instance of the
container is stored. -/
theorem Known.isSome_iff_stores (hk : s.Known) (hr : s.Registered programs)
    (hbar : ∀ p ∈ programs, BAR ∉ p.version) {version containerId : GoString}
    (hv : (s.bpfPrograms version).isSome) :
    (s.instances (instanceId version containerId)).isSome ↔ s.Stores version containerId := by
  constructor
  · intro hsome
    obtain ⟨x, hx⟩ := Option.isSome_iff_exists.mp hsome
    exact ⟨_, x, hx, hk.instance_of_id hr hbar hv hx⟩
  · rintro ⟨id, x, hx, hversion, hcid⟩
    obtain ⟨hid, _⟩ := hk.stored id x hx
    have hsame : instanceId version containerId = id := by
      rw [← hid, ← hversion, ← hcid]
      rfl
    rw [hsame, hx]
    rfl

omit [DecidableEq ι] in
/-- `onPodUpdate` at a ready container with a known image. -/
theorem updateIteration_of_stores {c : ContainerStatus} {containerId : GoString}
    (hready : c.ready = true) (himage : c.mysqlImage = true)
    (hcid : ParseContainerId c.containerID = some containerId)
    (hprog : (s.bpfPrograms (ParseImage c.image)).isSome) :
    updateIteration s.bpfPrograms s.instances c =
      if (s.instances (instanceId (ParseImage c.image) containerId)).isSome then .continue
      else .found (ParseImage c.image) containerId := by
  obtain ⟨p, hp⟩ := Option.isSome_iff_exists.mp hprog
  simp [updateIteration, hready, himage, hcid, hp]

omit [DecidableEq ι] in
/-- `onPodDelete` at a container with a known image. -/
theorem deleteIteration_of_stores {c : ContainerStatus} {containerId : GoString}
    (himage : c.mysqlImage = true) (hcid : ParseContainerId c.containerID = some containerId)
    (hprog : (s.bpfPrograms (ParseImage c.image)).isSome) :
    deleteIteration s.bpfPrograms s.instances c =
      if (s.instances (instanceId (ParseImage c.image) containerId)).isSome then
        .found (ParseImage c.image) containerId
      else .continue := by
  obtain ⟨p, hp⟩ := Option.isSome_iff_exists.mp hprog
  cases hin : s.instances (instanceId (ParseImage c.image) containerId) <;>
    simp [deleteIteration, himage, hcid, hp, hin]

/-- **Instance keys are consistent and programs are found**, in every reachable state. -/
theorem keys_consistent {as : List (Action ι)} (h : Trace.run step (init programs) as = some s) :
    s.KeysConsistent programs := by
  obtain ⟨hk, hr⟩ := known_run h
  refine ⟨fun i x hx => ?_, hk.main, fun u hu => ?_, hk.stored,
    fun hbar c cid _ hprog => hk.isSome_iff_stores hr hbar hprog,
    fun hbar c cid hready himage hcid hprog => ?_, fun hbar c cid himage hcid hprog => ?_,
    fun hbar c rest id hit => ?_⟩
  · exact hk.callback i x.version (by rw [hx]; rfl)
  · obtain ⟨hc, hstep⟩ := step_iff.mp hu
    cases hstep with
    | store _ _ => exact hc
    | crashStore hmain hnone =>
      have hsome := hk.main _ (by rw [hmain]; rfl)
      rw [hnone] at hsome
      cases hsome
  · rw [updateIteration_of_stores hready himage hcid hprog,
      ← hk.isSome_iff_stores hr hbar hprog]
    split <;> simp [*]
  · rw [deleteIteration_of_stores himage hcid hprog,
      ← hk.isSome_iff_stores hr hbar hprog]
    split <;> simp [*]
  · rcases iterate_cases hit with ⟨hidle, _⟩ | ⟨_, _, _, hpc, _⟩ | ⟨_, _, _, _, _, hpc, _⟩ |
      ⟨_, _, _, hpc⟩ | ⟨c', rest', imageId, containerId, hpc, hfound, hid⟩
    · cases hidle
    · cases hpc
    · cases hpc
    · cases hpc
    · cases hpc
      cases hid
      obtain ⟨rfl, hcid, hprog, hsome⟩ := deleteIteration_found hfound
      obtain ⟨x, hx⟩ := Option.isSome_iff_exists.mp hsome
      obtain ⟨hversion, hxcid⟩ := hk.instance_of_id hr hbar hprog hx
      exact ⟨x, hx, hversion, hxcid ▸ hcid⟩

/-- Container `9f` is registered: an update event passes it over, a delete event finds it. -/
theorem keys_consistent_pod9f : ∃ s : Runner Unit,
    Trace.run step (init [percona5734]) (registerPod pod9f 10) = some s ∧
    s.KeysConsistent [percona5734] ∧
    updateIteration s.bpfPrograms s.instances (perconaContainer (lit ['9', 'f'])) = .continue ∧
    deleteIteration s.bpfPrograms s.instances (perconaContainer (lit ['9', 'f'])) =
      .found PerconaServer5734 (lit ['9', 'f']) := by
  have hobs : (Trace.run step (init [percona5734]) (registerPod pod9f 10)).map (fun s =>
      (s.instances (instance9f 10).GetId, (s.bpfPrograms PerconaServer5734).isSome)) =
        some (some (instance9f 10), true) := by decide +kernel
  obtain ⟨s, hs, heq⟩ := Option.map_eq_some_iff.mp hobs
  simp only [Prod.mk.injEq] at heq
  obtain ⟨hin, hprog⟩ := heq
  have himage : ParseImage (perconaContainer (lit ['9', 'f'])).image = PerconaServer5734 := by
    decide
  have hbar : ∀ p ∈ [percona5734], BAR ∉ p.version := by decide
  have hstores : s.Stores (ParseImage (perconaContainer (lit ['9', 'f'])).image)
      (lit ['9', 'f']) :=
    ⟨_, instance9f 10, hin, by rw [himage]; rfl, rfl⟩
  rw [← himage] at hprog
  have hkeys := keys_consistent hs
  exact ⟨s, hs, hkeys,
    (hkeys.updated hbar _ _ rfl (by decide) (by decide) hprog).1.mpr hstores,
    himage ▸ (hkeys.deleted hbar _ _ (by decide) (by decide) hprog).1.mpr hstores⟩

/-! ## Failed map operations -/

/-- A call whose operation on `clusters` fails, with the container status it stems from: of
`attachInstance` with an instance, or of `detachInstance` with an id. -/
inductive FailedCall (ι : Type) where
  | attach (c : ContainerStatus) (t : Instance)
  | detach (c : ContainerStatus) (i : ι) (id : GoString)

namespace FailedCall

/-- The runner is about to make the call, which a handler has prepared from the status. -/
def Calls (s : Runner ι) : FailedCall ι → Prop
  | .attach c t => s.main = .attachLock t ∧ c.ready ∧ c.mysqlImage ∧
      ParseImage c.image = t.version ∧ ParseContainerId c.containerID = some t.containerId
  | .detach c i id => s.callbacks i = .detachLock id ∧ (s.instances id).isSome ∧ c.mysqlImage ∧
      (s.bpfPrograms (ParseImage c.image)).isSome ∧ ∃ containerId,
        ParseContainerId c.containerID = some containerId ∧
          instanceId (ParseImage c.image) containerId = id

/-- The steps of the call up to the operation that fails. -/
def actions : FailedCall ι → List (Action ι)
  | .attach _ _ => [.lockAttach, .store, .update false]
  | .detach _ i _ => [.lockDetach i, .delete i false]

/-- `Update` on behalf of `attachInstance`, not `Delete` on behalf of `detachInstance`. -/
def ofUpdate : FailedCall ι → Bool
  | .attach _ _ => true
  | .detach _ _ _ => false

/-- A later event with the same container status makes the handler try the operation again. -/
def Retried (s : Runner ι) : FailedCall ι → Prop
  | .attach c t => updateIteration s.bpfPrograms s.instances c = .found t.version t.containerId
  | .detach c _ id => ∃ imageId containerId, instanceId imageId containerId = id ∧
      deleteIteration s.bpfPrograms s.instances c = .found imageId containerId

end FailedCall

/-- Both registries and the programs with their `Attached` flags are the same. -/
structure Unchanged (s t : Runner ι) : Prop where
  instances : t.instances = s.instances
  clusters : t.clusters = s.clusters
  programs : t.bpfPrograms = s.bpfPrograms

/-- `attachInstance` up to a failed `Update`: the instance is stored, nothing else has changed. -/
theorem attach_failed {x : Instance} (hmain : s.main = .attachLock x)
    (h : Trace.run step s [.lockAttach, .store, .update false] = some u) :
    u.instances = Function.update s.instances x.GetId (some x) ∧ u.clusters = s.clusters ∧
      u.bpfPrograms = s.bpfPrograms := by
  obtain ⟨s₁, h₁, h⟩ := Trace.run_cons_eq_some.mp h
  obtain ⟨s₂, h₂, h⟩ := Trace.run_cons_eq_some.mp h
  rw [Trace.run_singleton] at h
  cases (step_iff.mp h₁).2 with
  | lockAttach hmain' _ =>
    rw [hmain] at hmain'
    cases hmain'
    cases (step_iff.mp h₂).2 with
    | store hbody _ =>
      cases hbody
      cases (step_iff.mp h).2 with
      | updateErr _ => exact ⟨rfl, rfl, rfl⟩
    | crashStore _ _ => cases (step_iff.mp h).1

/-- `detachInstance` up to a failed `Delete`. -/
theorem detach_failed {i : ι} {id : GoString} (hcb : s.callbacks i = .detachLock id)
    (hsome : (s.instances id).isSome)
    (h : Trace.run step s [.lockDetach i, .delete i false] = some u) : s.Unchanged u := by
  obtain ⟨s₁, h₁, h⟩ := Trace.run_cons_eq_some.mp h
  rw [Trace.run_singleton] at h
  cases (step_iff.mp h₁).2 with
  | lockDetach hcb' _ =>
    rw [hcb] at hcb'
    cases hcb'
    cases (step_iff.mp h).2 with
    | deleteErr _ _ => exact ⟨rfl, rfl, rfl⟩
    | @deleteAbsent _ id' _ hbody hnone =>
      have hpc : (s.setCallback i (.detachBody id)).callbacks i = .detachBody id' := hbody
      rw [setCallback_self] at hpc
      cases hpc
      rw [show s.instances id = none from hnone] at hsome
      cases hsome

/-- **A failed `Update` looks like a registration**: the registries are as before only if that
same instance was registered already, and no later event finds the container unregistered. -/
theorem failed_update_registers {c : ContainerStatus} {x : Instance}
    (hc : (FailedCall.attach c x : FailedCall ι).Calls s)
    (h : Trace.run step s (FailedCall.attach c x : FailedCall ι).actions = some u) :
    (s.Unchanged u ↔ s.instances x.GetId = some x) ∧
      updateIteration u.bpfPrograms u.instances c = .continue := by
  obtain ⟨hmain, hready, himage, hversion, hcid⟩ := hc
  obtain ⟨hin, hcl, hprog⟩ := attach_failed hmain h
  refine ⟨⟨fun hu => ?_, fun hx => ⟨?_, hcl, hprog⟩⟩, ?_⟩
  · rw [← hu.instances, hin, Function.update_self]
  · rw [hin, ← hx, Function.update_eq_self]
  · have hstored : (u.instances (instanceId x.version x.containerId)).isSome := by
      rw [hin]
      exact Option.isSome_iff_exists.mpr ⟨x, Function.update_self ..⟩
    simp [updateIteration, hready, himage, hversion, hcid, hstored]

/-- **A failed operation leaves the registry as it was**, so that a later event for the same pod
tries it again, exactly if it is not the `Update` of `attachInstance`. -/
theorem failed_operation_iff {c : FailedCall ι} (hc : c.Calls s)
    (h : Trace.run step s c.actions = some u) :
    (s.Unchanged u ∧ c.Retried u) ↔ c.ofUpdate = false := by
  cases c with
  | attach c x =>
    refine iff_of_false (fun hu => ?_) (by simp [FailedCall.ofUpdate])
    have hretried : updateIteration u.bpfPrograms u.instances c = _ := hu.2
    rw [(failed_update_registers hc h).2] at hretried
    cases hretried
  | detach c i id =>
    obtain ⟨hcb, hsome, himage, hprog, cid, hcid, rfl⟩ := hc
    have hu := detach_failed hcb hsome h
    refine iff_of_true ⟨hu, ParseImage c.image, cid, rfl, ?_⟩ rfl
    obtain ⟨p, hp⟩ := Option.isSome_iff_exists.mp hprog
    obtain ⟨x, hx⟩ := Option.isSome_iff_exists.mp hsome
    simp [deleteIteration, himage, hcid, hu.programs, hu.instances, hp, hx]

/-- The call of `detachInstance` for the pod of container `9f`. -/
def detach9f : FailedCall Unit :=
  .detach (perconaContainer (lit ['9', 'f'])) () (instance9f 10).GetId

/-- The call of `attachInstance` for the pod of container `9f`. -/
def attach9f : FailedCall Unit :=
  .attach (perconaContainer (lit ['9', 'f'])) (instance9f 10)

/-- The delete event of a registered pod has reached `detachInstance`. -/
def detaching9f : List (Action Unit) :=
  registerPod pod9f 10 ++ [.deliver () (.delete pod9f), .iterate ()]

/-- The instance of a created pod has reached the main loop. -/
def attaching9f : List (Action Unit) :=
  [.deliver () (.create pod9f), .iterate (), .lookup () (some 10), .child () (some 10), .recvCh ()]

theorem failed_operation_detach : ∃ s u : Runner Unit,
    Trace.run step (init [percona5734]) detaching9f = some s ∧
    Trace.run step s detach9f.actions = some u ∧ s.Unchanged u ∧ detach9f.Retried u := by
  have hobs : (Trace.run step (init [percona5734]) detaching9f).map (fun s =>
      (s.callbacks (), (s.instances (instance9f 10).GetId).isSome,
        (s.bpfPrograms PerconaServer5734).isSome, (Trace.run step s detach9f.actions).isSome)) =
        some (.detachLock (instance9f 10).GetId, true, true, true) := by decide +kernel
  obtain ⟨s, hs, heq⟩ := Option.map_eq_some_iff.mp hobs
  simp only [Prod.mk.injEq] at heq
  obtain ⟨hcb, hsome, hprog, hrun⟩ := heq
  obtain ⟨u, hu⟩ := Option.isSome_iff_exists.mp hrun
  have hc : detach9f.Calls s :=
    ⟨hcb, hsome, by decide, hprog, lit ['9', 'f'], by decide, by decide⟩
  exact ⟨s, u, hs, hu, (failed_operation_iff hc hu).mpr rfl⟩

/-- **A failed `Update` is not undone**: the instance stays in `r.Instances`. -/
theorem failed_update_kept : ¬ ∀ (as : List (Action Unit)) (s u : Runner Unit)
    (c : FailedCall Unit), Trace.run step (init [percona5734]) as = some s → c.Calls s →
      Trace.run step s c.actions = some u → s.Unchanged u ∧ c.Retried u := by
  intro hall
  have hobs : (Trace.run step (init [percona5734]) attaching9f).map (fun s =>
      (s.main, s.instances (instance9f 10).GetId,
        (Trace.run step s attach9f.actions).map fun u => u.instances (instance9f 10).GetId)) =
        some (.attachLock (instance9f 10), none, some (some (instance9f 10))) := by decide +kernel
  obtain ⟨s, hs, heq⟩ := Option.map_eq_some_iff.mp hobs
  simp only [Prod.mk.injEq] at heq
  obtain ⟨hmain, hbefore, hrun⟩ := heq
  obtain ⟨u, hu, hafter⟩ := Option.map_eq_some_iff.mp hrun
  have hc : attach9f.Calls s := ⟨hmain, rfl, by decide, by decide, by decide⟩
  have hsame := (hall _ s u attach9f hs hc hu).1.instances
  rw [hsame, hbefore] at hafter
  cases hafter

end Runner

end EDGuard
