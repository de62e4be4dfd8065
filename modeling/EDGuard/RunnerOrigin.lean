import EDGuard.PodResync

/-!
# Where registered processes come from

* `Told` — the events that the environment delivers and the pids that it answers.
* `Origin` — the pod event, the container and the pid that an instance was made of.
* `Sourced` — **the invariant**: every instance under way has an origin, and so has every key of
  `clusters`.
* `sourced_step` — it is kept by every step.
-/

set_option autoImplicit false

namespace EDGuard

/-- The event makes `onPodUpdate` go through the containers of the pod. -/
def PodEvent.Reports (e : PodEvent) (pod : Pod) : Prop :=
  (e = .create (.pod pod) ∨ e = .update (.pod pod)) ∧ pod.Managed

theorem handler_update {e : PodEvent} {pod : Pod} {rest : List ContainerStatus}
    (h : e.handler = some (.update pod rest)) : e.Reports pod ∧ rest = pod.containerStatuses := by
  have hupdate : ∀ {obj : Obj}, onPodUpdate obj = some (.update pod rest) →
      obj = .pod pod ∧ pod.Managed ∧ rest = pod.containerStatuses := by
    intro obj hobj
    unfold onPodUpdate at hobj
    split at hobj
    · cases hobj
    · split at hobj
      · cases hobj
      · rename_i hphase
        split at hobj
        · cases hobj
        · rename_i hlabel
          cases hobj
          exact ⟨rfl, ⟨of_not_not hphase, of_not_not hlabel⟩, rfl⟩
  cases e with
  | create obj =>
    obtain ⟨rfl, hm, hrest⟩ := hupdate h
    exact ⟨⟨Or.inl rfl, hm⟩, hrest⟩
  | update obj =>
    obtain ⟨rfl, hm, hrest⟩ := hupdate h
    exact ⟨⟨Or.inr rfl, hm⟩, hrest⟩
  | delete obj =>
    cases obj with
    | pod p => cases h
    | deletedFinalStateUnknown => cases h

/-- What a container is registered under depends on the set of programs only. -/
theorem ContainerStatus.target_congr {programs programs' : GoString → Option Program}
    (h : ∀ v, (programs v).isSome = (programs' v).isSome) (c : ContainerStatus) :
    c.target programs = c.target programs' := by
  unfold target
  rw [h]

/-- The container whose pid a handler looks up. -/
def CallbackPc.container : CallbackPc → Option GoString
  | .child _ _ containerId _ => some containerId
  | _ => none

namespace Runner

variable {ι : Type}

section

variable (programs : GoString → Option Program) (delivered : PodEvent → Prop)
  (answers : GoString → Int → Prop)

/-- Delivered events are among `delivered`, and a pid that is looked up for a container is among
`answers`. -/
def Told (s : Runner ι) : Action ι → Prop
  | .deliver _ e => delivered e
  | .child i (some pid) => ∀ containerId ∈ (s.callbacks i).container, answers containerId pid
  | _ => True

instance [∀ e, Decidable (delivered e)] [∀ c p, Decidable (answers c p)] (s : Runner ι) :
    ∀ a, Decidable (Told delivered answers s a)
  | .deliver _ e => inferInstanceAs (Decidable (delivered e))
  | .child i (some pid) =>
    inferInstanceAs (Decidable (∀ containerId ∈ (s.callbacks i).container, answers containerId pid))
  | .child _ none | .iterate _ | .lookup .. | .recvCh _ | .recvErr _ | .lockAttach | .store
  | .update _ | .spawn | .lockDetach _ | .delete .. | .probe .. | .mark _ | .unattach _ | .cancel
  | .leave | .unwind | .sendClosed _ => isTrue trivial

/-- The container was reported ready with a known image by a delivered event. -/
def Reported (pod : Pod) (imageId containerId : GoString) : Prop :=
  (∃ e, delivered e ∧ e.Reports pod) ∧
    ∃ c ∈ pod.containerStatuses, c.target programs = some (imageId, containerId)

/-- The instance was made for a reported container, with a pid that was answered for it. -/
def Origin (t : Instance) : Prop :=
  ∃ pod imageId containerId pid, Reported programs delivered pod imageId containerId ∧
    answers containerId pid ∧ t = newInstance pod imageId containerId pid

/-- What a handler has in hand comes from an event. -/
def PcSourced : CallbackPc → Prop
  | .update pod rest =>
    (∃ e, delivered e ∧ e.Reports pod) ∧ ∀ c ∈ rest, c ∈ pod.containerStatuses
  | .lookup pod imageId containerId | .child pod imageId containerId _ =>
    Reported programs delivered pod imageId containerId
  | .add t => Origin programs delivered answers t
  | _ => True

/-- Every instance under way has an origin, and so has every key of `clusters`. -/
structure Sourced (s : Runner ι) : Prop where
  known : ∀ v, (s.bpfPrograms v).isSome = (programs v).isSome
  callback : ∀ i, PcSourced programs delivered answers (s.callbacks i)
  main : ∀ t, s.main.instance = some t → Origin programs delivered answers t
  clusters : ∀ k ∈ s.clusters.keys, ∃ t, Origin programs delivered answers t ∧ t.pidKey = k

end

variable {programs : GoString → Option Program} {delivered : PodEvent → Prop}
  {answers : GoString → Int → Prop}

theorem sourced_init (ps : List Program) :
    Sourced (offered ps) delivered answers (init ps : Runner ι) := by
  refine ⟨fun _ => rfl, fun _ => trivial, fun t ht => ?_, fun k hk => ?_⟩
  · cases ht
  · simp [init] at hk

variable [DecidableEq ι]

theorem Sourced.setCallback {s : Runner ι} (hs : Sourced programs delivered answers s) {i : ι}
    {pc : CallbackPc} (hpc : PcSourced programs delivered answers pc) :
    ∀ j, PcSourced programs delivered answers ((s.setCallback i pc).callbacks j) := by
  intro j
  rcases eq_or_ne j i with rfl | hj
  · rw [setCallback_self]
    exact hpc
  · rw [setCallback_of_ne s hj]
    exact hs.callback j

theorem pcSourced_handler {e : PodEvent} {pc : CallbackPc} (he : delivered e)
    (h : e.handler = some pc) : PcSourced programs delivered answers pc := by
  rcases handler_cases h with rfl | ⟨pod, rfl⟩ | ⟨pod, rfl⟩
  · trivial
  · exact ⟨⟨e, he, (handler_update h).1⟩, fun c hc => hc⟩
  · trivial

theorem pcSourced_iterate {programs' : GoString → Option Program}
    {instances : GoString → Option Instance} {pc pc' : CallbackPc}
    (hprog : ∀ v, (programs' v).isSome = (programs v).isSome)
    (hpc : PcSourced programs delivered answers pc)
    (h : pc.iterate programs' instances = some (some pc')) :
    PcSourced programs delivered answers pc' := by
  rcases iterate_cases h with ⟨rfl, _⟩ | ⟨pod, c, rest, rfl, rfl⟩ |
    ⟨pod, c, rest, imageId, containerId, rfl, hfound, rfl⟩ | ⟨c, rest, rfl, rfl⟩ |
    ⟨c, rest, imageId, containerId, rfl, hfound, rfl⟩
  · trivial
  · exact ⟨hpc.1, fun d hd => hpc.2 d (List.mem_cons_of_mem c hd)⟩
  · have htarget := (updateIteration_eq_found_iff.mp hfound).1
    rw [ContainerStatus.target_congr hprog] at htarget
    exact ⟨hpc.1, c, hpc.2 c List.mem_cons_self, htarget⟩
  · trivial
  · trivial

/-- The handlers part of `sourced_step`. -/
theorem callback_sourced {s t : Runner ι} {a : Action ι} (hs : Sourced programs delivered answers s)
    (htold : Told delivered answers s a) (h : Step s a t) :
    ∀ j, PcSourced programs delivered answers (t.callbacks j) := by
  cases h with
  | @deliver i e pc _ hh => exact hs.setCallback (pcSourced_handler htold hh)
  | @iterate i pc hit => exact hs.setCallback (pcSourced_iterate hs.known (hs.callback i) hit)
  | @lookup i pod imageId containerId pid hcb =>
    have hpc := hs.callback i
    rw [hcb] at hpc
    exact hs.setCallback hpc
  | @child i pod imageId containerId pid₀ pid hcb =>
    have hpc := hs.callback i
    rw [hcb] at hpc
    have hpid : answers containerId pid := htold containerId (by rw [hcb]; rfl)
    exact hs.setCallback ⟨pod, imageId, containerId, pid, hpc, hpid, rfl⟩
  | lookupErr _ | childErr _ | recvCh _ _ | recvLookupErr _ _ | recvDetachErr _ _ | lockDetach _ _
  | deleteAbsent _ _ | delete _ _ _ | deleteErr _ _ => exact hs.setCallback trivial
  | _ => exact hs.callback

theorem sourced_step {s t : Runner ι} {a : Action ι} (hs : Sourced programs delivered answers s)
    (htold : Told delivered answers s a) (h : Step s a t) :
    Sourced programs delivered answers t := by
  refine ⟨fun v => (isSome_bpfPrograms h v).trans (hs.known v),
    callback_sourced hs htold h, fun x hx => ?_, ?_⟩
  · rcases instance_main h hx with hx | ⟨i, _, hcb⟩
    · exact hs.main x hx
    · have hpc := hs.callback i
      rw [hcb] at hpc
      exact hpc
  · cases h with
    | @update x cluster m hmain hm =>
      intro k hk
      rcases Finset.mem_insert.mp (BoundedMap.keys_update hm ▸ hk) with rfl | hk
      · exact ⟨x, hs.main x (by rw [hmain]; rfl), rfl⟩
      · exact hs.clusters k hk
    | @delete i id x m _ _ hm =>
      intro k hk
      exact hs.clusters k (Finset.mem_of_mem_erase (BoundedMap.keys_delete hm ▸ hk))
    | _ => exact hs.clusters

end Runner

end EDGuard
