import EDGuard.Registry

/-!
# Deleting a pod

One informer goroutine delivers the events of a pod one after the other.

* `LastOfPod` — when the delete event of a pod is delivered, the one instance that is registered is
  named by a container status of the pod, and no other registration is under way; or there is none.
* `podGone_iff` — exactly then every run that handles the event to its end, however the handler and
  the main loop interleave, leaves both registries empty.
* `second_container_stays` — the handler stops at its first match, so a pod with two containers
  leaves one behind.
-/

set_option autoImplicit false

namespace EDGuard

/-- The instance that `attachInstance` registers, from its `r.mu.Lock()` on. -/
def MainPc.registering : MainPc → Option Instance
  | .attachBody t | .attachUpdate t _ | .attachSpawn t => some t
  | _ => none

theorem MainPc.inSection_of_registering {pc : MainPc} {x : Instance}
    (h : pc.registering = some x) : pc.inSection = true := by
  cases pc <;> first | rfl | cases h

theorem MainPc.instance_of_registering {pc : MainPc} {x : Instance}
    (h : pc.registering = some x) : pc.instance = some x := by
  cases pc <;> first | exact h | cases h

/-- The id that `onPodDelete` looks up for a container status. -/
def ContainerStatus.detachId (programs : GoString → Option Program) (c : ContainerStatus) :
    Option GoString :=
  (c.detachTarget programs).map fun target => instanceId target.1 target.2

section

variable {programs : GoString → Option Program} {instances : GoString → Option Instance}
  {c : ContainerStatus} {rest : List ContainerStatus}

/-- **One container of a delete event**: its instance is detached, or it has none. -/
theorem iterate_delete_cons {pc : CallbackPc}
    (h : (CallbackPc.delete (c :: rest)).iterate programs instances = some (some pc)) :
    (∃ id, c.detachId programs = some id ∧ (instances id).isSome ∧ pc = .detachLock id) ∨
      (∀ id, c.detachId programs = some id → instances id = none) ∧ pc = .delete rest := by
  simp only [CallbackPc.iterate] at h
  cases hit : deleteIteration programs instances c with
  | panic =>
    rw [hit] at h
    cases h
  | «continue» =>
    rw [hit] at h
    cases h
    refine Or.inr ⟨fun id hid => ?_, rfl⟩
    obtain ⟨⟨imageId, containerId⟩, htarget, rfl⟩ := Option.map_eq_some_iff.mp hid
    exact (deleteIteration_eq_continue_iff.mp hit).2 imageId containerId htarget
  | found imageId containerId =>
    rw [hit] at h
    cases h
    obtain ⟨htarget, hsome⟩ := deleteIteration_eq_found_iff.mp hit
    exact Or.inl ⟨_, Option.map_eq_some_iff.mpr ⟨_, htarget, rfl⟩, hsome, rfl⟩

/-- The loop goes on unless the id of the container cannot be parsed. -/
theorem exists_iterate_delete_cons (h : c.mysqlImage = true → ¬ ShortDockerId c.containerID) :
    ∃ pc, (CallbackPc.delete (c :: rest)).iterate programs instances = some (some pc) := by
  have hne : deleteIteration programs instances c ≠ .panic := fun hp =>
    h (deleteIteration_eq_panic_iff.mp hp).1 (deleteIteration_eq_panic_iff.mp hp).2
  simp only [CallbackPc.iterate]
  cases hit : deleteIteration programs instances c with
  | panic => exact absurd hit hne
  | «continue» => exact ⟨_, rfl⟩
  | found imageId containerId => exact ⟨_, rfl⟩

end

namespace Runner

/-- Neither registry holds an entry. -/
def PodGone (s : Runner Unit) : Prop := (∀ id, s.instances id = none) ∧ s.clusters.keys = ∅

/-- No event is delivered and no operation on `clusters` fails. -/
def Action.Settling : Action Unit → Prop
  | .deliver .. => False
  | a => a.MapOk

/-! ## The condition -/

/-- One instance is registered, under `id`, and no key but that of `x`. -/
structure OnlyOne (s : Runner Unit) (id : GoString) (x : Instance) : Prop where
  stored : (s.instances id).isSome
  others : ∀ id', id' ≠ id → s.instances id' = none
  keys : ∀ k ∈ s.clusters.keys, k = x.pidKey

/-- `x` is the instance of `id`, with none in the hand of the main loop; or the main loop registers
it, and holds `r.mu` for it. -/
def EndsWith (s : Runner Unit) (id : GoString) (x : Instance) : Prop :=
  s.main.instance = none ∧ s.instances id = some x ∨ s.main.registering = some x ∧ x.GetId = id

/-- The main loop has no instance in hand and nothing is registered; or a container status of the
pod names the only instance, and no other one is under way. -/
def LastOfPod (s : Runner Unit) (pod : Pod) : Prop :=
  s.main.instance = none ∧ s.PodGone ∨
    ∃ c ∈ pod.containerStatuses, ∃ id x, c.detachId s.bpfPrograms = some id ∧ s.OnlyOne id x ∧
      s.EndsWith id x

/-- Every run that handles the delete event of the pod to its end leaves nothing behind. -/
def Forgets (s : Runner Unit) (pod : Pod) : Prop :=
  ∀ bs t, Trace.run step s (.deliver () (.delete (.pod pod)) :: bs) = some t →
    (∀ a ∈ bs, a.Settling) → t.callbacks () = .idle → t.main = .select → t.PodGone

/-- What it takes to handle the delete event: the informer is free, the main loop is in its loop,
the ids of the containers can be parsed, and what is registered or about to be can be deleted and
updated in `clusters`. -/
structure CanServe (s : Runner Unit) (pod : Pod) : Prop where
  alive : s.crashed = false
  idle : s.callbacks () = .idle
  main : s.main = .select ∨ (∃ x, s.main = .attachLock x) ∨ ∃ x, s.main.registering = some x
  parses : ∀ c ∈ pod.containerStatuses, c.mysqlImage = true → ¬ ShortDockerId c.containerID
  keyed : ∀ id x, s.instances id = some x →
    x.pidKey ∈ s.clusters.keys ∨ ∃ cluster, s.main = .attachUpdate x cluster
  room : ∀ x, s.main.instance = some x → s.clusters.Accepts x.pidKey

/-- What is known in every state. -/
structure Tracked (s : Runner Unit) : Prop where
  locked : s.Locked
  kept : s.Kept
  known : s.Known

theorem tracked_step {s t : Runner Unit} {a : Action Unit} (hs : s.Tracked) (h : Step s a t) :
    t.Tracked :=
  ⟨locked_step hs.locked h, kept_step hs.locked hs.kept h, known_step hs.known h⟩

theorem tracked_run {programs : List Program} {as : List (Action Unit)} {s : Runner Unit}
    (h : Trace.run step (init programs) as = some s) : s.Tracked := by
  refine Trace.run_invariant (I := Tracked)
    (fun _ _ _ hs ht => tracked_step hs (step_iff.mp ht).2)
    ⟨locked_init programs, fun x hx => ?_, known_init programs⟩ h
  cases hx

/-- The ids that the containers of a pod are looked up under never change. -/
theorem detachId_step {s t : Runner Unit} {a : Action Unit} (h : Step s a t)
    (c : ContainerStatus) : c.detachId t.bpfPrograms = c.detachId s.bpfPrograms := by
  unfold ContainerStatus.detachId ContainerStatus.detachTarget
  rw [isSome_bpfPrograms h]

/-! ## After the removal -/

/-- The handler is at rest, and so is the registry. -/
structure Settled (s : Runner Unit) : Prop where
  idle : s.callbacks () = .idle
  gone : s.PodGone
  main : s.main.instance = none

/-- An idle handler moves only when an event is delivered. -/
theorem idle_step {s t : Runner Unit} {a : Action Unit} (hidle : s.callbacks () = .idle)
    (ha : a.Settling) (h : Step s a t) : t.callbacks () = .idle := by
  cases h with
  | deliver _ _ => exact ha.elim
  | iterate hit =>
    rw [show s.callbacks _ = .idle from hidle] at hit
    cases hit
  | lookupErr hcb | lookup hcb | childErr hcb | child hcb | recvCh _ hcb | recvLookupErr _ hcb
  | recvDetachErr _ hcb | lockDetach hcb _ | deleteAbsent hcb _ | delete hcb _ _
  | deleteErr hcb _ =>
    rw [show s.callbacks _ = .idle from hidle] at hcb
    cases hcb
  | _ => exact hidle

theorem settled_step {s t : Runner Unit} {a : Action Unit} (hs : s.Settled) (ha : a.Settling)
    (h : Step s a t) : t.Settled := by
  refine ⟨idle_step hs.idle ha h, ?_, ?_⟩
  · cases h with
    | store hmain _ | update hmain _ =>
      have hno := hs.main
      rw [hmain] at hno
      cases hno
    | delete hcb _ _ =>
      rw [show s.callbacks _ = .idle from hs.idle] at hcb
      cases hcb
    | _ => exact hs.gone
  · cases h with
    | recvCh _ hcb =>
      rw [show s.callbacks _ = .idle from hs.idle] at hcb
      cases hcb
    | lockAttach hmain _ | store hmain _ | update hmain _ | updateErr hmain =>
      have hno := hs.main
      rw [hmain] at hno
      cases hno
    | spawn _ | leave _ _ | deferCancel _ | deferWait _ _ | deferCloseCh _ | deferCloseErr _ => rfl
    | _ => exact hs.main

/-! ## Up to the removal -/

/-- A handler of a delete event, before its removal. -/
def Deleting : CallbackPc → Prop
  | .delete _ | .detachLock _ | .detachBody _ => True
  | _ => False

/-- The handler will come to detach `id`. -/
def WillDetach (s : Runner Unit) (id : GoString) : Prop :=
  (∃ rest, s.callbacks () = .delete rest ∧ ∃ c ∈ rest, c.detachId s.bpfPrograms = some id) ∨
    s.callbacks () = .detachLock id ∨ s.callbacks () = .detachBody id

/-- The handler is going to remove the only instance. -/
def Removing (s : Runner Unit) : Prop :=
  ∃ id x, s.OnlyOne id x ∧ s.EndsWith id x ∧ s.WillDetach id

/-- There is nothing to remove, and the handler is looking for it. -/
structure Searching (s : Runner Unit) : Prop where
  gone : s.PodGone
  main : s.main.instance = none
  handler : ∃ rest, s.callbacks () = .delete rest

theorem WillDetach.deleting {s : Runner Unit} {id : GoString} (h : s.WillDetach id) :
    Deleting (s.callbacks ()) := by
  rcases h with ⟨rest, hcb, _⟩ | hcb | hcb <;> rw [hcb] <;> trivial

theorem WillDetach.congr {s t : Runner Unit} {a : Action Unit} {id : GoString}
    (h : s.WillDetach id) (hstep : Step s a t) (hcb : t.callbacks = s.callbacks) :
    t.WillDetach id := by
  unfold WillDetach
  rw [hcb]
  rcases h with ⟨rest, hrest, c, hc, hid⟩ | h
  · exact Or.inl ⟨rest, hrest, c, hc, (detachId_step hstep c).trans hid⟩
  · exact Or.inr h

/-- The handler is about to take `r.mu` for the id. -/
theorem WillDetach.eq_of_lock {s : Runner Unit} {id id' : GoString} (h : s.WillDetach id)
    (hcb : s.callbacks () = .detachLock id') : id' = id := by
  rcases h with ⟨_, hrest, _⟩ | hlock | hbody
  · cases hrest.symm.trans hcb
  · cases hlock.symm.trans hcb
    rfl
  · cases hbody.symm.trans hcb

/-- The handler holds `r.mu` for the id. -/
theorem WillDetach.eq_of_body {s : Runner Unit} {id id' : GoString} (h : s.WillDetach id)
    (hcb : s.callbacks () = .detachBody id') : id' = id := by
  rcases h with ⟨_, hrest, _⟩ | hlock | hbody
  · cases hrest.symm.trans hcb
  · cases hlock.symm.trans hcb
  · cases hbody.symm.trans hcb
    rfl

theorem EndsWith.settled {s : Runner Unit} {id : GoString} {x : Instance} (h : s.EndsWith id x)
    (hmain : s.main.registering = none) : s.main.instance = none ∧ s.instances id = some x := by
  refine h.resolve_right fun ⟨hreg, _⟩ => ?_
  rw [hmain] at hreg
  cases hreg

theorem EndsWith.registering {s : Runner Unit} {id : GoString} {x y : Instance}
    (h : s.EndsWith id x) (hmain : s.main.registering = some y) : y = x ∧ x.GetId = id := by
  rcases h with ⟨hnone, _⟩ | ⟨hreg, hid⟩
  · rw [MainPc.instance_of_registering hmain] at hnone
    cases hnone
  · exact ⟨Option.some.inj (hmain.symm.trans hreg), hid⟩

/-- Steps that change neither registry and take or give no instance. -/
theorem Removing.frame {s t : Runner Unit} {a : Action Unit} (hs : s.Removing) (h : Step s a t)
    (hin : t.instances = s.instances) (hcl : t.clusters = s.clusters)
    (hmain : ∀ id x, s.EndsWith id x → t.main.instance = none ∧ s.instances id = some x ∨
      t.main.registering = some x ∧ x.GetId = id)
    (hcb : t.callbacks = s.callbacks) : t.Removing := by
  obtain ⟨id, x, hone, hset, hw⟩ := hs
  refine ⟨id, x, ⟨?_, ?_, ?_⟩, ?_, hw.congr h hcb⟩
  · rw [hin]
    exact hone.stored
  · rw [hin]
    exact hone.others
  · rw [hcl]
    exact hone.keys
  · unfold EndsWith
    rw [hin]
    exact hmain id x hset

/-- The only instance is removed: the main loop is not about to register it again. -/
theorem settled_of_delete {s t : Runner Unit} {id : GoString} {x y : Instance}
    {m : BoundedMap UInt32 Cluster 1024} (hl : s.Locked) (hone : s.OnlyOne id x)
    (hset : s.EndsWith id x) (hcb : s.callbacks () = .detachBody id) (hy : s.instances id = some y)
    (hdel : s.clusters.delete y.pidKey = some m) (hidle : t.callbacks () = .idle)
    (hmain : t.main = s.main) (hcl : t.clusters = m)
    (hin : t.instances = Function.update s.instances id none) : t.Settled := by
  have hheld : s.mu = some (.callback ()) := (hl.callback ()).mp (by rw [hcb]; rfl)
  rcases hset with ⟨hnone, hx⟩ | ⟨hreg, _⟩
  · obtain rfl : x = y := Option.some.inj (hx.symm.trans hy)
    refine ⟨hidle, ⟨fun id' => ?_, ?_⟩, by rw [hmain, hnone]⟩
    · rw [hin]
      rcases eq_or_ne id' id with rfl | hne
      · exact Function.update_self ..
      · rw [Function.update_of_ne hne]
        exact hone.others id' hne
    · rw [hcl, BoundedMap.keys_delete hdel, Finset.eq_empty_iff_forall_notMem]
      intro k hk
      obtain ⟨hne, hmem⟩ := Finset.mem_erase.mp hk
      exact hne (hone.keys k hmem)
  · -- the main loop would hold `r.mu` as well
    have hmu := hl.main.mp (MainPc.inSection_of_registering hreg)
    rw [hheld] at hmu
    cases hmu

/-- **The handler goes on to the next container**: it finds the only instance, or has yet to. -/
theorem removing_iterate {s : Runner Unit} {pc : CallbackPc} (hs : s.Removing)
    (hit : (s.callbacks ()).iterate s.bpfPrograms s.instances = some (some pc)) :
    (s.setCallback () pc).Removing := by
  obtain ⟨id, x, hone, hset, hw⟩ := hs
  have hpc : (s.setCallback () pc).callbacks () = pc := setCallback_self s () _
  refine ⟨id, x, ⟨hone.stored, hone.others, hone.keys⟩, hset, ?_⟩
  rcases hw with ⟨rest, hcb, c, hc, hid⟩ | hcb | hcb
  all_goals rw [hcb] at hit
  · cases rest with
    | nil => cases hc
    | cons c' rest =>
      rcases iterate_delete_cons hit with ⟨id', _, hsome, rfl⟩ | ⟨hpass, rfl⟩
      · -- nothing else is stored
        have hsame : id' = id := by
          by_contra hne
          rw [hone.others id' hne] at hsome
          cases hsome
        exact Or.inr (Or.inl (hsame ▸ hpc))
      · rcases List.mem_cons.mp hc with rfl | hc
        · have hstored := hone.stored
          rw [hpass id hid] at hstored
          cases hstored
        · exact Or.inl ⟨rest, hpc, c, hc, hid⟩
  · cases hit
  · cases hit

theorem removing_step {s t : Runner Unit} {a : Action Unit} (hi : s.Tracked) (hs : s.Removing)
    (ha : a.Settling) (h : Step s a t) : t.Removing ∨ t.Settled := by
  have hframe := fun hin hcl hmain hcb => Or.inl (b := t.Settled) (hs.frame h hin hcl hmain hcb)
  have ⟨id, x, hone, hset, hw⟩ := hs
  have hd := hw.deleting
  cases h with
  | deliver _ _ | crashDeliver _ _ => exact ha.elim
  | iterate hit => exact Or.inl (removing_iterate hs hit)
  | lookupErr hcb | lookup hcb | childErr hcb | child hcb | recvCh _ hcb | recvLookupErr _ hcb
  | recvDetachErr _ hcb =>
    rw [show s.callbacks () = _ from hcb] at hd
    exact hd.elim
  | lockAttach hmain _ =>
    have hnone := (hset.settled (by rw [hmain]; rfl)).1
    rw [hmain] at hnone
    cases hnone
  | leave hmain _ | deferCancel hmain | deferWait hmain _ | deferCloseCh hmain
  | deferCloseErr hmain =>
    exact hframe rfl rfl (fun id x hset => Or.inl ⟨rfl, (hset.settled (by rw [hmain]; rfl)).2⟩) rfl
  | @store y _ hmain _ =>
    obtain ⟨rfl, rfl⟩ := hset.registering (y := y) (by rw [hmain]; rfl)
    refine Or.inl ⟨y.GetId, y, ⟨?_, fun id' hne => ?_, hone.keys⟩, Or.inr ⟨rfl, rfl⟩,
      hw.congr (.store hmain ‹_›) rfl⟩
    · simp
    · exact (Function.update_of_ne hne ..).trans (hone.others id' hne)
  | @update y cluster m hmain hm =>
    obtain ⟨rfl, hid⟩ := hset.registering (y := y) (by rw [hmain]; rfl)
    refine Or.inl ⟨id, y, ⟨hone.stored, hone.others, fun k hk => ?_⟩, Or.inr ⟨rfl, hid⟩,
      hw.congr (.update hmain hm) rfl⟩
    have hk' : k ∈ insert y.pidKey s.clusters.keys := BoundedMap.keys_update hm ▸ hk
    rcases Finset.mem_insert.mp hk' with rfl | hk'
    · rfl
    · exact hone.keys k hk'
  | updateErr _ | deleteErr _ _ => cases ha
  | @spawn y hmain =>
    refine hframe rfl rfl (fun id x hset => ?_) rfl
    obtain ⟨rfl, hid⟩ := hset.registering (y := y) (by rw [hmain]; rfl)
    exact Or.inl ⟨rfl, hid ▸ hi.kept y (by rw [hmain]; rfl)⟩
  | @lockDetach u id' hcb _ =>
    obtain rfl := hw.eq_of_lock hcb
    exact Or.inl ⟨id', x, ⟨hone.stored, hone.others, hone.keys⟩, hset,
      Or.inr (Or.inr (setCallback_self s () _))⟩
  | @deleteAbsent u id' _ hcb hnone =>
    obtain rfl := hw.eq_of_body hcb
    have hstored := hone.stored
    rw [hnone] at hstored
    cases hstored
  | @delete u id' y m hcb hy hdel =>
    obtain rfl := hw.eq_of_body hcb
    exact Or.inr (settled_of_delete hi.locked hone hset hcb hy hdel (setCallback_self s () _)
      rfl rfl rfl)
  | _ => exact hframe rfl rfl (fun _ _ hset => hset) rfl

theorem searching_step {s t : Runner Unit} {a : Action Unit} (hs : s.Searching) (ha : a.Settling)
    (h : Step s a t) : t.Searching ∨ t.Settled := by
  obtain ⟨rest, hcb⟩ := hs.handler
  have hno := hs.main
  cases h with
  | deliver _ _ | crashDeliver _ _ => exact ha.elim
  | @iterate u pc hit =>
    have hpc : (s.setCallback u pc).callbacks () = pc := setCallback_self s () _
    rw [show s.callbacks u = _ from hcb] at hit
    cases rest with
    | nil =>
      cases hit
      exact Or.inr ⟨hpc, hs.gone, hno⟩
    | cons c rest =>
      rcases iterate_delete_cons hit with ⟨id, _, hsome, _⟩ | ⟨_, rfl⟩
      · rw [hs.gone.1 id] at hsome
        cases hsome
      · exact Or.inl ⟨hs.gone, hno, rest, hpc⟩
  | lookupErr hcb' | lookup hcb' | childErr hcb' | child hcb' | recvCh _ hcb'
  | recvLookupErr _ hcb' | recvDetachErr _ hcb' | lockDetach hcb' _ | deleteAbsent hcb' _
  | delete hcb' _ _ | deleteErr hcb' _ =>
    rw [show s.callbacks () = _ from hcb'] at hcb
    cases hcb
  | lockAttach hmain _ | store hmain _ | update hmain _ | updateErr hmain | spawn hmain =>
    rw [hmain] at hno
    cases hno
  | leave _ _ | deferCancel _ | deferWait _ _ | deferCloseCh _ | deferCloseErr _ =>
    exact Or.inl ⟨hs.gone, rfl, rest, hcb⟩
  | _ => exact Or.inl ⟨hs.gone, hno, rest, hcb⟩

/-- **Nothing stays behind**, on any way to the end of the handler. -/
theorem podGone_of_ending {s t : Runner Unit} {bs : List (Action Unit)} (hi : s.Tracked)
    (hs : s.Removing ∨ s.Searching ∨ s.Settled) (hbs : ∀ a ∈ bs, a.Settling)
    (h : Trace.run step s bs = some t) (hidle : t.callbacks () = .idle) : t.PodGone := by
  induction bs generalizing s with
  | nil =>
    obtain rfl : s = t := Option.some.inj h
    rcases hs with ⟨id, x, _, _, hw⟩ | hsearch | hset
    · have hd := hw.deleting
      rw [hidle] at hd
      exact hd.elim
    · exact hsearch.gone
    · exact hset.gone
  | cons a bs ih =>
    obtain ⟨u, hu, hrun⟩ := Trace.run_cons_eq_some.mp h
    have hstep := (step_iff.mp hu).2
    have ha : a.Settling := hbs a List.mem_cons_self
    refine ih (tracked_step hi hstep) ?_ (fun b hb => hbs b (List.mem_cons_of_mem _ hb)) hrun
    rcases hs with hremove | hsearch | hset
    · exact (removing_step hi hremove ha hstep).imp_right Or.inr
    · exact Or.inr (searching_step hsearch ha hstep)
    · exact Or.inr (Or.inr (settled_step hset ha hstep))

/-! ## A way to the end -/

/-- The main loop has registered `x`, and the handler is where it was. -/
structure Registers (s : Runner Unit) (x : Instance) (t : Runner Unit) : Prop where
  alive : t.crashed = false
  main : t.main = .select
  mu : t.mu = none
  callbacks : t.callbacks = s.callbacks
  instances : t.instances = Function.update s.instances x.GetId (some x)
  keys : t.clusters.keys = insert x.pidKey s.clusters.keys
  programs : t.bpfPrograms = s.bpfPrograms

section

variable {s : Runner Unit} {x : Instance}

theorem registers_spawn (hc : s.crashed = false) (hmain : s.main = .attachSpawn x)
    (hx : s.instances x.GetId = some x) (hkey : x.pidKey ∈ s.clusters.keys) :
    ∃ t, Trace.Reaches step Action.Settling s t ∧ s.Registers x t := by
  refine ⟨_, (Step.spawn hmain).reaches hc trivial, hc, rfl, rfl, rfl, ?_, ?_, rfl⟩
  · exact (Function.update_eq_self_iff.mpr hx.symm).symm
  · exact (Finset.insert_eq_of_mem hkey).symm

theorem registers_update {cluster : Cluster} (hc : s.crashed = false)
    (hmain : s.main = .attachUpdate x cluster) (hx : s.instances x.GetId = some x)
    (hroom : s.clusters.Accepts x.pidKey) :
    ∃ t, Trace.Reaches step Action.Settling s t ∧ s.Registers x t := by
  obtain ⟨m, hm⟩ := BoundedMap.exists_update hroom cluster
  have hkeys := BoundedMap.keys_update hm
  obtain ⟨t, ht, hreg⟩ := registers_spawn (s := { s with clusters := m, main := .attachSpawn x })
    hc rfl hx (by rw [hkeys]; exact Finset.mem_insert_self ..)
  have hstep : Trace.Reaches step Action.Settling s _ := (Step.update hmain hm).reaches hc rfl
  refine ⟨t, hstep.trans ht, hreg.alive, hreg.main, hreg.mu, hreg.callbacks, hreg.instances, ?_,
    hreg.programs⟩
  rw [hreg.keys, hkeys, Finset.insert_idem]

theorem registers_body (hk : s.Known) (hc : s.crashed = false) (hmain : s.main = .attachBody x)
    (hroom : s.clusters.Accepts x.pidKey) :
    ∃ t, Trace.Reaches step Action.Settling s t ∧ s.Registers x t := by
  obtain ⟨p, hp⟩ := Option.isSome_iff_exists.mp (hk.main x (by rw [hmain]; rfl))
  obtain ⟨t, ht, hreg⟩ := registers_update (s := { s with
    instances := Function.update s.instances x.GetId (some x)
    main := .attachUpdate x (bpfCluster x p) }) hc rfl (Function.update_self ..) hroom
  refine ⟨t, ((Step.store hmain hp).reaches hc trivial).trans ht, hreg.alive, hreg.main, hreg.mu,
    hreg.callbacks, ?_, hreg.keys, hreg.programs⟩
  exact hreg.instances.trans (Function.update_idem ..)

theorem registers_lock (hk : s.Known) (hc : s.crashed = false) (hmain : s.main = .attachLock x)
    (hmu : s.mu = none) (hroom : s.clusters.Accepts x.pidKey) :
    ∃ t, Trace.Reaches step Action.Settling s t ∧ s.Registers x t := by
  have hstep := Step.lockAttach hmain hmu
  obtain ⟨t, ht, hreg⟩ := registers_body (known_step hk hstep) hc rfl hroom
  exact ⟨t, (hstep.reaches hc trivial).trans ht, hreg.alive, hreg.main, hreg.mu, hreg.callbacks,
    hreg.instances, hreg.keys, hreg.programs⟩

/-- The handler has detached `x` from `id`, and the main loop is where it was. -/
structure Detaches (s : Runner Unit) (id : GoString) (x : Instance) (t : Runner Unit) : Prop where
  alive : t.crashed = false
  main : t.main = s.main
  mu : t.mu = none
  idle : t.callbacks () = .idle
  instances : t.instances = Function.update s.instances id none
  room : ∀ k, t.clusters.Accepts k
  keys : t.clusters.keys = s.clusters.keys.erase x.pidKey

theorem detaches {id : GoString} (hc : s.crashed = false) (hcb : s.callbacks () = .detachLock id)
    (hmu : s.mu = none) (hx : s.instances id = some x) (hkey : x.pidKey ∈ s.clusters.keys) :
    ∃ t, Trace.Reaches step Action.Settling s t ∧ s.Detaches id x t := by
  obtain ⟨m, hm⟩ := Option.ne_none_iff_exists'.mp
    (mt BoundedMap.delete_eq_none_iff.mp (not_not.mpr hkey))
  have hlock := Step.lockDetach (i := ()) hcb hmu
  have hdel : Step { s.setCallback () (.detachBody id) with mu := some (.callback ()) }
      (.delete () true) _ := .delete (setCallback_self s () _) hx hm
  have hreach : Trace.Reaches step Action.Settling s _ :=
    (hlock.reaches hc trivial).trans (hdel.reaches hc rfl)
  refine ⟨_, hreach, hc, rfl, rfl, ?_, rfl, fun k => BoundedMap.accepts_of_delete hm,
    BoundedMap.keys_delete hm⟩
  exact setCallback_self { s.setCallback () (.detachBody id) with mu := some (.callback ()) } () _

/-- **The search of the handler**, with the main loop left aside. -/
theorem searches : ∀ {rest : List ContainerStatus} {s : Runner Unit}, s.crashed = false →
    s.callbacks () = .delete rest →
    (∀ c ∈ rest, c.mysqlImage = true → ¬ ShortDockerId c.containerID) →
    ∃ pc, Trace.Reaches step Action.Settling s (s.setCallback () pc) ∧
      (pc = .idle ∨ ∃ c ∈ rest, ∃ id, c.detachId s.bpfPrograms = some id ∧
        (s.instances id).isSome ∧ pc = .detachLock id)
  | [], s, hc, hcb, _ => by
    have hit : (s.callbacks ()).iterate s.bpfPrograms s.instances = some (some .idle) := by
      rw [hcb]
      rfl
    exact ⟨.idle, (Step.iterate hit).reaches hc trivial, Or.inl rfl⟩
  | c :: rest, s, hc, hcb, hparse => by
    obtain ⟨pc, hit⟩ : ∃ pc, (CallbackPc.delete (c :: rest)).iterate s.bpfPrograms s.instances =
        some (some pc) := exists_iterate_delete_cons (hparse c List.mem_cons_self)
    have hreach : Trace.Reaches step Action.Settling s (s.setCallback () pc) :=
      (Step.iterate (by rw [hcb]; exact hit)).reaches hc trivial
    rcases iterate_delete_cons hit with ⟨id, hid, hsome, rfl⟩ | ⟨_, rfl⟩
    · exact ⟨_, hreach, Or.inr ⟨c, List.mem_cons_self, id, hid, hsome, rfl⟩⟩
    · obtain ⟨pc, hrest, hend⟩ := searches (s := s.setCallback () (.delete rest)) hc
        (setCallback_self s () _) fun c' hc' => hparse c' (List.mem_cons_of_mem _ hc')
      have hsame : (s.setCallback () (.delete rest)).setCallback () pc = s.setCallback () pc := by
        unfold setCallback
        simp only [Function.update_idem]
      rw [hsame] at hrest
      refine ⟨pc, hreach.trans hrest, hend.imp_right ?_⟩
      rintro ⟨c', hc', id, hid, hsome, hpc⟩
      exact ⟨c', List.mem_cons_of_mem _ hc', id, hid, hsome, hpc⟩

end

/-! ## Both ways -/

section

variable {s : Runner Unit} {rest : List ContainerStatus} {x : Instance}

/-- A run to the end of the handler, with the main loop back at its `select`, whose registries are
not empty unless `P`. -/
def Ends (s : Runner Unit) (P : Prop) : Prop :=
  ∃ t, Trace.Reaches step Action.Settling s t ∧ t.callbacks () = .idle ∧ t.main = .select ∧
    (t.PodGone → P)

theorem Ends.of_reaches {u : Runner Unit} {P Q : Prop}
    (h : Trace.Reaches step Action.Settling s u) (hu : u.Ends P) (hPQ : P → Q) : s.Ends Q := by
  obtain ⟨t, ht, hidle, hmain, hgone⟩ := hu
  exact ⟨t, h.trans ht, hidle, hmain, fun hg => hPQ (hgone hg)⟩

/-- What is registered last stays. -/
theorem ends_of_registers {u : Runner Unit} {P : Prop}
    (h : ∃ t, Trace.Reaches step Action.Settling u t ∧ u.Registers x t)
    (hidle : u.callbacks () = .idle) : u.Ends P := by
  obtain ⟨t, ht, hreg⟩ := h
  refine ⟨t, ht, by rw [hreg.callbacks, hidle], hreg.main, fun hgone => ?_⟩
  have hstored := hgone.1 x.GetId
  rw [hreg.instances, Function.update_self] at hstored
  cases hstored

/-- **With the main loop at its `select`**, the handler alone decides. -/
theorem ends_of_select (hc : s.crashed = false) (hmain : s.main = .select) (hmu : s.mu = none)
    (hcb : s.callbacks () = .delete rest)
    (hparse : ∀ c ∈ rest, c.mysqlImage = true → ¬ ShortDockerId c.containerID)
    (hkeyed : ∀ id y, s.instances id = some y → y.pidKey ∈ s.clusters.keys) :
    s.Ends (s.PodGone ∨ ∃ c ∈ rest, ∃ id y, c.detachId s.bpfPrograms = some id ∧
      s.OnlyOne id y ∧ s.instances id = some y) := by
  obtain ⟨pc, hreach, rfl | ⟨c, hmem, id, hid, hsome, rfl⟩⟩ := searches hc hcb hparse
  · exact ⟨_, hreach, setCallback_self s () _, hmain, Or.inl⟩
  · obtain ⟨y, hy⟩ := Option.isSome_iff_exists.mp hsome
    obtain ⟨t, ht, hdet⟩ := detaches (s := s.setCallback () (.detachLock id)) hc
      (setCallback_self s () _) hmu hy (hkeyed id y hy)
    refine ⟨t, hreach.trans ht, hdet.idle, hdet.main.trans hmain, fun hgone => ?_⟩
    refine Or.inr ⟨c, hmem, id, y, hid, ⟨hsome, fun id' hne => ?_, fun k hk => ?_⟩, hy⟩
    · have hnone := hgone.1 id'
      rw [hdet.instances, Function.update_of_ne hne] at hnone
      exact hnone
    · by_contra hne
      have hleft : k ∈ t.clusters.keys := by
        rw [hdet.keys]
        exact Finset.mem_erase.mpr ⟨hne, hk⟩
      rw [hgone.2] at hleft
      cases hleft

/-- **With an instance on its way to the lock**: the handler may come first. -/
theorem ends_of_attachLock {P : Prop} (hk : s.Known) (hc : s.crashed = false)
    (hmain : s.main = .attachLock x) (hmu : s.mu = none) (hcb : s.callbacks () = .delete rest)
    (hparse : ∀ c ∈ rest, c.mysqlImage = true → ¬ ShortDockerId c.containerID)
    (hkeyed : ∀ id y, s.instances id = some y → y.pidKey ∈ s.clusters.keys)
    (hroom : s.clusters.Accepts x.pidKey) : s.Ends P := by
  have hknown : ∀ {t : Runner Unit}, Trace.Reaches step Action.Settling s t → t.Known := fun h =>
    h.invariant (I := Known) (fun _ _ _ hu _ hstep => known_step hu (step_iff.mp hstep).2) hk
  obtain ⟨pc, hreach, rfl | ⟨c, _, id, _, hsome, rfl⟩⟩ := searches hc hcb hparse
  · exact .of_reaches hreach (ends_of_registers
      (registers_lock (hknown hreach) hc hmain hmu hroom) (setCallback_self s () _)) fun h => h
  · obtain ⟨y, hy⟩ := Option.isSome_iff_exists.mp hsome
    obtain ⟨t, ht, hdet⟩ := detaches (s := s.setCallback () (.detachLock id)) hc
      (setCallback_self s () _) hmu hy (hkeyed id y hy)
    have hboth := hreach.trans ht
    exact .of_reaches hboth (ends_of_registers (registers_lock (hknown hboth) hdet.alive
      (hdet.main.trans hmain) hdet.mu (hdet.room _)) hdet.idle) fun h => h

/-- **With an instance that is new and not stored yet**: the handler may look too early. -/
theorem ends_of_attachBody {P : Prop} (hk : s.Known) (hc : s.crashed = false)
    (hmain : s.main = .attachBody x) (hnew : s.instances x.GetId = none)
    (hcb : s.callbacks () = .delete rest)
    (hparse : ∀ c ∈ rest, c.mysqlImage = true → ¬ ShortDockerId c.containerID)
    (hkeyed : ∀ id y, s.instances id = some y → y.pidKey ∈ s.clusters.keys)
    (hroom : s.clusters.Accepts x.pidKey) : s.Ends P := by
  obtain ⟨pc, hreach, hpc⟩ := searches hc hcb hparse
  have hknown : (s.setCallback () pc).Known :=
    hreach.invariant (I := Known) (fun _ _ _ hu _ hstep => known_step hu (step_iff.mp hstep).2) hk
  obtain ⟨t, ht, hreg⟩ := registers_body hknown hc hmain hroom
  rcases hpc with rfl | ⟨c, _, id, _, hsome, rfl⟩
  · exact .of_reaches hreach (ends_of_registers ⟨t, ht, hreg⟩ (setCallback_self s () _)) fun h => h
  · obtain ⟨y, hy⟩ := Option.isSome_iff_exists.mp hsome
    have hne : id ≠ x.GetId := by
      rintro rfl
      rw [hnew] at hy
      cases hy
    have hcbt : t.callbacks () = .detachLock id := by
      rw [hreg.callbacks]
      exact setCallback_self s () _
    have hyt : t.instances id = some y := by
      rw [hreg.instances, Function.update_of_ne hne]
      exact hy
    have hkeyt : y.pidKey ∈ t.clusters.keys := by
      rw [hreg.keys]
      exact Finset.mem_insert_of_mem (hkeyed id y hy)
    obtain ⟨u, hu, hdet⟩ := detaches hreg.alive hcbt hreg.mu hyt hkeyt
    refine ⟨u, (hreach.trans ht).trans hu, hdet.idle, hdet.main.trans hreg.main, fun hgone => ?_⟩
    have hstays := hgone.1 x.GetId
    rw [hdet.instances, Function.update_of_ne hne.symm, hreg.instances, Function.update_self]
      at hstays
    cases hstays

/-- **With the instance of an id that is registered already**: the main loop comes first. -/
theorem ends_of_registering {t : Runner Unit}
    (hreach : Trace.Reaches step Action.Settling s t) (hreg : s.Registers x t)
    (hstored : (s.instances x.GetId).isSome) (hcb : s.callbacks () = .delete rest)
    (hparse : ∀ c ∈ rest, c.mysqlImage = true → ¬ ShortDockerId c.containerID)
    (hkeyed : ∀ id y, s.instances id = some y → id = x.GetId ∨ y.pidKey ∈ s.clusters.keys) :
    s.Ends (∃ c ∈ rest, ∃ id, c.detachId s.bpfPrograms = some id ∧ s.OnlyOne id x ∧
      x.GetId = id) := by
  have hxt : t.instances x.GetId = some x := by
    rw [hreg.instances, Function.update_self]
  have hother : ∀ id, id ≠ x.GetId → t.instances id = s.instances id := fun id hne => by
    rw [hreg.instances, Function.update_of_ne hne]
  have hkeyt : ∀ id y, t.instances id = some y → y.pidKey ∈ t.clusters.keys := by
    intro id y hy
    rw [hreg.keys]
    rcases eq_or_ne id x.GetId with rfl | hne
    · obtain rfl : x = y := Option.some.inj (hxt.symm.trans hy)
      exact Finset.mem_insert_self ..
    · rw [hother id hne] at hy
      exact Finset.mem_insert_of_mem ((hkeyed id y hy).resolve_left hne)
  refine .of_reaches hreach (ends_of_select hreg.alive hreg.main hreg.mu
    (by rw [hreg.callbacks, hcb]) hparse hkeyt) ?_
  rintro (hgone | ⟨c, hc, id, y, hid, hone, hy⟩)
  · rw [hgone.1 x.GetId] at hxt
    cases hxt
  · have hsame : x.GetId = id := by
      by_contra hne
      rw [hone.others _ hne] at hxt
      cases hxt
    subst hsame
    obtain rfl : x = y := Option.some.inj (hxt.symm.trans hy)
    refine ⟨c, hc, x.GetId, hreg.programs ▸ hid, ⟨hstored, fun id' hne => ?_, fun k hk => ?_⟩, rfl⟩
    · rw [← hother id' hne]
      exact hone.others id' hne
    · exact hone.keys k (by rw [hreg.keys]; exact Finset.mem_insert_of_mem hk)

end

/-- Nobody is in a critical section. -/
theorem Locked.free {s : Runner Unit} (hl : s.Locked) (hmain : s.main.inSection = false)
    (hcb : (s.callbacks ()).inSection = false) : s.mu = none := by
  cases hmu : s.mu with
  | none => rfl
  | some p =>
    cases p with
    | main =>
      rw [hl.main.mpr hmu] at hmain
      cases hmain
    | callback u =>
      rw [(hl.callback ()).mpr hmu] at hcb
      cases hcb
    | attacher k => exact absurd hmu (hl.attacher k)

/-- A run to the end that is known of shows the condition. -/
theorem Forgets.elim {s : Runner Unit} {pod : Pod} {P : Prop} (h : s.Forgets pod)
    (hs : s.CanServe pod)
    (hends : (s.setCallback () (.delete pod.containerStatuses)).Ends P) : P := by
  obtain ⟨t, ⟨bs, hbs, hrun⟩, hidle, hmain, hgone⟩ := hends
  have hdeliver : step s (.deliver () (.delete (.pod pod))) =
      some (s.setCallback () (.delete pod.containerStatuses)) :=
    step_iff.mpr ⟨hs.alive, .deliver hs.idle rfl⟩
  exact hgone (h bs t (Trace.run_cons_eq_some.mpr ⟨_, hdeliver, hrun⟩) hbs hidle hmain)

/-- **Where something else is registered or under way, some run leaves an entry.** -/
theorem lastOfPod_of_forgets {s : Runner Unit} {pod : Pod} (hi : s.Tracked)
    (hs : s.CanServe pod) (h : s.Forgets pod) : s.LastOfPod pod := by
  have hdeliver : Step s (.deliver () (.delete (.pod pod)))
      (s.setCallback () (.delete pod.containerStatuses)) := .deliver hs.idle rfl
  have hu := tracked_step hi hdeliver
  have hcb := setCallback_self s () (.delete pod.containerStatuses)
  have hkeyed : (∀ x cluster, s.main ≠ .attachUpdate x cluster) → ∀ id y,
      s.instances id = some y → y.pidKey ∈ s.clusters.keys := fun hno id y hy =>
    (hs.keyed id y hy).resolve_right fun ⟨cluster, hm⟩ => hno y cluster hm
  have hregistering : ∀ x, s.main.registering = some x →
      (∃ c ∈ pod.containerStatuses, ∃ id, c.detachId s.bpfPrograms = some id ∧
        (s.setCallback () (.delete pod.containerStatuses)).OnlyOne id x ∧ x.GetId = id) →
      s.LastOfPod pod := by
    rintro x hx ⟨c, hc, id, hid, hone, hsame⟩
    exact Or.inr ⟨c, hc, id, x, hid, ⟨hone.stored, hone.others, hone.keys⟩, Or.inr ⟨hx, hsame⟩⟩
  cases hmain : s.main with
  | select =>
    have hmu := hu.locked.free (by rw [show (s.setCallback () _).main = _ from hmain]; rfl)
      (by rw [hcb]; rfl)
    rcases h.elim hs (ends_of_select hs.alive hmain hmu hcb hs.parses
      (hkeyed (by simp [hmain]))) with hgone | ⟨c, hc, id, y, hid, hone, hy⟩
    · exact Or.inl ⟨by rw [hmain]; rfl, hgone⟩
    · exact Or.inr ⟨c, hc, id, y, hid, ⟨hone.stored, hone.others, hone.keys⟩,
        Or.inl ⟨by rw [hmain]; rfl, hy⟩⟩
  | attachLock x =>
    have hmu := hu.locked.free (by rw [show (s.setCallback () _).main = _ from hmain]; rfl)
      (by rw [hcb]; rfl)
    exact h.elim hs (ends_of_attachLock hu.known hs.alive hmain hmu hcb hs.parses
      (hkeyed (by simp [hmain])) (hs.room x (by rw [hmain]; rfl)))
  | attachBody x =>
    have hroom := hs.room x (by rw [hmain]; rfl)
    have hkeys := hkeyed (by simp [hmain])
    cases hx : s.instances x.GetId with
    | none =>
      exact h.elim hs (ends_of_attachBody hu.known hs.alive hmain hx hcb hs.parses hkeys hroom)
    | some y =>
      obtain ⟨t, ht, hreg⟩ := registers_body hu.known hs.alive hmain hroom
      exact hregistering x (by rw [hmain]; rfl) (h.elim hs (ends_of_registering ht hreg
        (by rw [show (s.setCallback () _).instances x.GetId = _ from hx]; rfl) hcb hs.parses
        fun id y hy => Or.inr (hkeys id y hy)))
  | attachUpdate x cluster =>
    have hx := hi.kept x (by rw [hmain]; rfl)
    obtain ⟨t, ht, hreg⟩ := registers_update (s := s.setCallback () (.delete pod.containerStatuses))
      hs.alive hmain hx (hs.room x (by rw [hmain]; rfl))
    refine hregistering x (by rw [hmain]; rfl) (h.elim hs (ends_of_registering ht hreg
      (by rw [show (s.setCallback () _).instances x.GetId = _ from hx]; rfl) hcb hs.parses
      fun id y hy => ?_))
    rcases hs.keyed id y hy with hkey | ⟨_, hm⟩
    · exact Or.inr hkey
    · rw [hmain] at hm
      cases hm
      exact Or.inl (hi.known.stored id x hy).1.symm
  | attachSpawn x =>
    have hx := hi.kept x (by rw [hmain]; rfl)
    have hkeys := hkeyed (by simp [hmain])
    obtain ⟨t, ht, hreg⟩ := registers_spawn (s := s.setCallback () (.delete pod.containerStatuses))
      hs.alive hmain hx (hkeys _ x hx)
    exact hregistering x (by rw [hmain]; rfl) (h.elim hs (ends_of_registering ht hreg
      (by rw [show (s.setCallback () _).instances x.GetId = _ from hx]; rfl) hcb hs.parses
      fun id y hy => Or.inr (hkeys id y hy)))
  | attachErr x | deferCancel | deferWait | deferCloseCh | deferCloseErr | exited =>
    rcases hs.main with hsel | ⟨y, hlock⟩ | ⟨y, hreg⟩
    · rw [hmain] at hsel
      cases hsel
    · rw [hmain] at hlock
      cases hlock
    · rw [hmain] at hreg
      cases hreg

/-- **Deleting a pod.** If, when the delete event of a pod is delivered, nothing is registered but
one instance that a container status of the pod names, and nothing else is under way, then every
run that handles the event to its end leaves both registries empty; and where the event can be
handled, all these runs do so in no other case. -/
theorem podGone_iff (programs : List Program) (as : List (Action Unit)) (s : Runner Unit)
    (h : Trace.run step (init programs) as = some s) (pod : Pod) :
    (s.LastOfPod pod → s.Forgets pod) ∧
      (s.CanServe pod → s.Forgets pod → s.LastOfPod pod) := by
  have hi := tracked_run h
  refine ⟨fun hlast bs t hrun hbs hidle _ => ?_, lastOfPod_of_forgets hi⟩
  obtain ⟨u, hu, hrun⟩ := Trace.run_cons_eq_some.mp hrun
  have hstep := (step_iff.mp hu).2
  refine podGone_of_ending (tracked_step hi hstep) ?_ hbs hrun hidle
  cases hstep with
  | deliver _ hh =>
    cases hh
    have hcb := setCallback_self s () (.delete pod.containerStatuses)
    rcases hlast with ⟨hmain, hgone⟩ | ⟨c, hc, id, x, hid, hone, hends⟩
    · exact Or.inr (Or.inl ⟨hgone, hmain, _, hcb⟩)
    · exact Or.inl ⟨id, x, ⟨hone.stored, hone.others, hone.keys⟩, hends,
        Or.inl ⟨_, hcb, c, hc, hid⟩⟩
  | crashDeliver _ hh => cases hh

/-- A managed pod with the container `9f`. -/
def oneContainer : Pod := managedPod [perconaContainer (lit ['9', 'f'])]

/-- One container is registered and its pod is deleted. -/
theorem podGone_oneContainer : ∃ s t : Runner Unit,
    Trace.run step (init [percona5734]) (registerPod (.pod oneContainer) 10) = some s ∧
    Trace.run step s (deletePod (.pod oneContainer)) = some t ∧ s.CanServe oneContainer ∧
    s.LastOfPod oneContainer ∧ t.PodGone := by
  have hobs : (Trace.run step (init [percona5734])
      (registerPod (.pod oneContainer) 10)).map (fun s => (s.crashed, s.callbacks (), s.main,
        (s.bpfPrograms PerconaServer5734).isSome, s.instances)) =
          some (false, CallbackPc.idle, MainPc.select, true,
            Function.update (fun _ => none) (instance9f 10).GetId (some (instance9f 10))) := rfl
  have hkeys : (Trace.run step (init [percona5734])
      (registerPod (.pod oneContainer) 10)).map (fun s => s.clusters.keys) =
        some {(instance9f 10).pidKey} := by decide +kernel
  have hend : (Trace.run step (init [percona5734])
      (registerPod (.pod oneContainer) 10 ++ deletePod (.pod oneContainer))).map
        (fun s => (s.callbacks (), s.main)) = some (CallbackPc.idle, MainPc.select) := rfl
  obtain ⟨s, hs, heq⟩ := Option.map_eq_some_iff.mp hobs
  simp only [Prod.mk.injEq] at heq
  obtain ⟨hc, hidle, hmain, hprog, hin⟩ := heq
  rw [hs, Option.map_some, Option.some.injEq] at hkeys
  rw [Trace.run_append_of_eq hs] at hend
  obtain ⟨t, ht, hrest⟩ := Option.map_eq_some_iff.mp hend
  simp only [Prod.mk.injEq] at hrest
  have hstored : s.instances (instance9f 10).GetId = some (instance9f 10) := by
    rw [hin, Function.update_self]
  have hothers : ∀ id, id ≠ (instance9f 10).GetId → s.instances id = none := fun id hne => by
    rw [hin, Function.update_of_ne hne]
  have hserve : s.CanServe oneContainer := by
    refine ⟨hc, hidle, Or.inl hmain, ?_, fun id x hx => Or.inl ?_, fun x hx => ?_⟩
    · intro c hcs _
      obtain rfl := List.mem_singleton.mp hcs
      exact ParseContainerId_eq_none_iff.not.mp (by decide)
    · rcases eq_or_ne id (instance9f 10).GetId with rfl | hne
      · obtain rfl : instance9f 10 = x := Option.some.inj (hstored.symm.trans hx)
        rw [hkeys]
        exact Finset.mem_singleton_self _
      · rw [hothers id hne] at hx
        cases hx
    · rw [hmain] at hx
      cases hx
  have hdetach : (perconaContainer (lit ['9', 'f'])).detachId s.bpfPrograms =
      some (instance9f 10).GetId := by
    have himage : ParseImage (perconaContainer (lit ['9', 'f'])).image = PerconaServer5734 := by
      decide
    unfold ContainerStatus.detachId ContainerStatus.detachTarget
    rw [himage, hprog]
    decide
  have hlast : s.LastOfPod oneContainer :=
    Or.inr ⟨_, List.mem_singleton_self _, _, instance9f 10, hdetach,
      ⟨by rw [hstored]; rfl, hothers, fun k hk => Finset.mem_singleton.mp (hkeys ▸ hk)⟩,
      Or.inl ⟨by rw [hmain]; rfl, hstored⟩⟩
  exact ⟨s, t, hs, ht, hserve, hlast, (podGone_iff _ _ s hs oneContainer).1 hlast _ t ht
    (by simp [Action.Settling, Action.MapOk]) hrest.1 hrest.2⟩

/-! ## Two containers -/

/-- The event is about the pod of that name; lookups and operations on `clusters` succeed. -/
def Action.Smooth (name : GoString) : Action Unit → Prop
  | .deliver _ e => e.podName = some name
  | .lookup _ pid | .child _ pid => pid.isSome
  | a => a.MapOk

instance (name : GoString) : ∀ a, Decidable (Action.Smooth name a)
  | .deliver _ e => inferInstanceAs (Decidable (e.podName = some name))
  | .lookup _ pid | .child _ pid => inferInstanceAs (Decidable (pid.isSome = true))
  | .update ok | .delete _ ok => inferInstanceAs (Decidable (ok = true))
  | .iterate _ | .recvCh _ | .recvErr _ | .lockAttach | .store | .spawn | .lockDetach _ | .probe ..
  | .mark _ | .unattach _ | .cancel | .leave | .unwind | .sendClosed _ => isTrue trivial

/-- A managed pod with the containers `9f` and `8e`. -/
def twoContainers : Pod :=
  managedPod [perconaContainer (lit ['9', 'f']), perconaContainer (lit ['8', 'e'])]

/-- The create event registers the first container, an update the second. -/
def bothRegistered : List (Action Unit) :=
  (.deliver () (.create (.pod twoContainers)) :: .iterate () :: registerActs 10) ++
    (.deliver () (.update (.pod twoContainers)) :: .iterate () :: .iterate () :: registerActs 11)

/-- **The handler stops at its first match.** -/
theorem second_container_stays :
    ¬ ∀ (as bs : List (Action Unit)) (pod : Pod) (s : Runner Unit),
      Trace.run step (init [percona5734]) (as ++ .deliver () (.delete (.pod pod)) :: bs) = some s →
      (∀ a ∈ as ++ bs, a.Smooth pod.name) → (∀ a ∈ bs, a.Settling) →
      s.callbacks () = .idle → s.main = .select → s.PodGone := by
  intro hall
  have hobs : (Trace.run step (init [percona5734]) (bothRegistered ++
      .deliver () (.delete (.pod twoContainers)) ::
        [.iterate (), .lockDetach (), .delete () true])).map
      (fun s => (s.callbacks (), s.main, (s.instances (instanceId PerconaServer5734
        (lit ['8', 'e']))).isSome)) = some (CallbackPc.idle, MainPc.select, true) := by
    decide +kernel
  obtain ⟨s, hs, heq⟩ := Option.map_eq_some_iff.mp hobs
  simp only [Prod.mk.injEq] at heq
  obtain ⟨hidle, hmain, hstays⟩ := heq
  have hgone := hall bothRegistered _ twoContainers s hs (by decide +kernel)
    (by simp [Action.Settling, Action.MapOk]) hidle hmain
  rw [hgone.1] at hstays
  cases hstays

end Runner

end EDGuard
