import EDGuard.Runner
import EDGuard.Lib.Interleave

/-!
# Pod events on the two registries

What the handlers, `Add`, `Delete` and the main loop together do with an event, as a function of
the two registries, when nothing else happens until the event is done.

* `Env` — the programs, and the answers of the lookups, which depend on the container id only.
* `Registry.attach`, `Registry.detach` — the two ways in which an event changes the registries.
* `Registry.handle` — the event.
* `handle_cases` — an event of one pod changes nothing outside the ids and keys of its containers,
  and what it does depends on nothing else.
-/

set_option autoImplicit false

namespace EDGuard

/-! ## Lookups -/

/-- What the handlers ask of the outside world. -/
structure Env where
  programs : List Program
  /-- `GetContainerPid` -/
  cri : GoString → Option Int
  /-- `GetChildPid` of the pid of the container -/
  child : GoString → Option Int

/-- `|`, between the version and the container id of an instance id. -/
def BAR : UInt8 := 124

namespace Env

variable (env : Env)

/-- `r.bpfPrograms` after the calls of `WithBpfProgram`. -/
def offers : GoString → Option Program := env.programs.foldl WithBpfProgram fun _ => none

/-- The pid under which a container is registered, `none` when a lookup fails. -/
def pid (containerId : GoString) : Option Int :=
  (env.cri containerId).bind fun _ => env.child containerId

/-- The key of a container in `clusters`. -/
def key (containerId : GoString) : Option UInt32 := (env.pid containerId).map UInt32.ofInt

/-- The instance has a program and the pid that the lookups give for its container. -/
def Made (t : Instance) : Prop :=
  (env.offers t.version).isSome ∧ env.pid t.containerId = some t.pid

/-- **Assumptions**: no version contains the separator of an id, and different containers have
different keys. -/
structure Apart : Prop where
  bar : ∀ p ∈ env.programs, BAR ∉ p.version
  keys : ∀ c c' k, env.key c = some k → env.key c' = some k → c = c'

variable {env}

theorem pid_of_cri_eq_none {containerId : GoString} (h : env.cri containerId = none) :
    env.pid containerId = none := by
  unfold Env.pid
  rw [h]
  rfl

theorem pid_of_cri {containerId : GoString} (h : (env.cri containerId).isSome) :
    env.pid containerId = env.child containerId := by
  obtain ⟨q, hq⟩ := Option.isSome_iff_exists.mp h
  unfold Env.pid
  rw [hq]
  rfl

theorem Made.key {t : Instance} (h : env.Made t) : env.key t.containerId = some t.pidKey := by
  unfold Env.key
  rw [h.2]
  rfl

/-- Only programs that were registered are offered. -/
theorem mem_of_offers {v : GoString} {p : Program} (h : env.offers v = some p) :
    ∃ q ∈ env.programs, q.version = v := by
  rcases mem_of_foldl_withBpfProgram h with hm | hq
  · cases hm
  · exact hq

theorem Apart.version (ha : env.Apart) {v : GoString} (h : (env.offers v).isSome) : BAR ∉ v := by
  obtain ⟨p, hp⟩ := Option.isSome_iff_exists.mp h
  obtain ⟨q, hq, rfl⟩ := mem_of_offers hp
  exact ha.bar q hq

end Env

/-- What follows the first `|` of an id. -/
def containerOf (id : GoString) : GoString := (id.dropWhile (· ≠ BAR)).drop 1

theorem containerOf_instanceId {version containerId : GoString} (h : BAR ∉ version) :
    containerOf (instanceId version containerId) = containerId := by
  have hid : instanceId version containerId = version ++ BAR :: containerId := by
    unfold instanceId
    rw [List.append_assoc]
    rfl
  have hne : ∀ b ∈ version, decide (b ≠ BAR) = true := fun b hb =>
    decide_eq_true fun he => h (he ▸ hb)
  unfold containerOf
  rw [hid, List.dropWhile_append_of_pos hne]
  rfl

theorem Env.Apart.containerOf {env : Env} (ha : env.Apart) {t : Instance} (h : env.Made t) :
    containerOf t.GetId = t.containerId := containerOf_instanceId (ha.version h.1)

/-! ## The registries -/

/-- `r.Instances` and `clusters`. -/
@[ext] structure Registry where
  instances : GoString → Option Instance
  clusters : UInt32 → Option Cluster

namespace Registry

def empty : Registry := ⟨fun _ => none, fun _ => none⟩

/-- The registries with one entry each changed. -/
def set (r : Registry) (id : GoString) (k : UInt32) (x : Option Instance) (w : Option Cluster) :
    Registry :=
  ⟨Function.update r.instances id x, Function.update r.clusters k w⟩

/-- `attachInstance`. -/
def attach (env : Env) (r : Registry) (t : Instance) : Registry :=
  match env.offers t.version with
  | none => r
  | some p => r.set t.GetId t.pidKey (some t) (some (bpfCluster t p))

/-- `detachInstance`: without an entry in `clusters` the instance stays. -/
def detach (r : Registry) (id : GoString) : Registry :=
  match r.instances id with
  | none => r
  | some t =>
    if (r.clusters t.pidKey).isSome then r.set id t.pidKey none none else r

/-- The rest of `onPodUpdate` and of what follows from it. -/
def updateLoop (env : Env) (r : Registry) (pod : Pod) : List ContainerStatus → Registry
  | [] => r
  | c :: rest =>
    match updateIteration env.offers r.instances c with
    | .panic => r
    | .continue => updateLoop env r pod rest
    | .found imageId containerId =>
      match env.pid containerId with
      | none => r
      | some pid => r.attach env (newInstance pod imageId containerId pid)

/-- The rest of `onPodDelete` and of what follows from it. -/
def deleteLoop (env : Env) (r : Registry) : List ContainerStatus → Registry
  | [] => r
  | c :: rest =>
    match deleteIteration env.offers r.instances c with
    | .panic => r
    | .continue => deleteLoop env r rest
    | .found imageId containerId => r.detach (instanceId imageId containerId)

/-- What follows when a handler stands at `pc`. -/
def finish (env : Env) (r : Registry) : CallbackPc → Registry
  | .idle | .sendErr | .detachErr => r
  | .update pod rest => r.updateLoop env pod rest
  | .lookup pod imageId containerId =>
    match env.pid containerId with
    | none => r
    | some pid => r.attach env (newInstance pod imageId containerId pid)
  | .child pod imageId containerId _ =>
    match env.child containerId with
    | none => r
    | some pid => r.attach env (newInstance pod imageId containerId pid)
  | .add t => r.attach env t
  | .delete rest => r.deleteLoop env rest
  | .detachLock id | .detachBody id => r.detach id

/-- The event, from its delivery to the end. -/
def handle (env : Env) (r : Registry) (e : PodEvent) : Registry :=
  match e.handler with
  | none => r
  | some pc => r.finish env pc

/-! ## The part of one pod -/

variable {env : Env} {cids all : Set GoString} {r r' : Registry}

/-- Every instance stands under its own id, with the pid of its container, and every key is that
of a container; all these containers are in `all`. -/
structure Sound (env : Env) (all : Set GoString) (r : Registry) : Prop where
  stored : ∀ id t, r.instances id = some t →
    t.GetId = id ∧ env.Made t ∧ t.containerId ∈ all
  keyed : ∀ k w, r.clusters k = some w → ∃ cid ∈ all, env.key cid = some k

/-- The registries agree about the containers `cids`. -/
structure Agree (env : Env) (cids : Set GoString) (r r' : Registry) : Prop where
  instances : ∀ v cid, BAR ∉ v → cid ∈ cids →
    r.instances (instanceId v cid) = r'.instances (instanceId v cid)
  clusters : ∀ cid k, cid ∈ cids → env.key cid = some k → r.clusters k = r'.clusters k

theorem Agree.set (h : r.Agree env cids r') (id : GoString) (k : UInt32) (x : Option Instance)
    (w : Option Cluster) : (r.set id k x w).Agree env cids (r'.set id k x w) := by
  refine ⟨fun v cid hv hcid => ?_, fun cid k' hcid hk => ?_⟩
  · show Function.update r.instances id x _ = Function.update r'.instances id x _
    rcases eq_or_ne (instanceId v cid) id with he | hne
    · rw [he, Function.update_self, Function.update_self]
    · rw [Function.update_of_ne hne, Function.update_of_ne hne]
      exact h.instances v cid hv hcid
  · show Function.update r.clusters k w _ = Function.update r'.clusters k w _
    rcases eq_or_ne k' k with rfl | hne
    · rw [Function.update_self, Function.update_self]
    · rw [Function.update_of_ne hne, Function.update_of_ne hne]
      exact h.clusters cid k' hcid hk

/-- Changing the entries of a container outside `cids`. -/
theorem Agree.set_frame (ha : env.Apart) (h : r.Agree env cids r') {id : GoString} {k : UInt32}
    (hkey : env.key (containerOf id) = some k) (hout : containerOf id ∉ cids)
    (x : Option Instance) (w : Option Cluster) : (r.set id k x w).Agree env cids r' := by
  refine ⟨fun v cid hv hcid => ?_, fun cid k' hcid hk => ?_⟩
  · have hne : instanceId v cid ≠ id := by
      rintro rfl
      rw [containerOf_instanceId hv] at hout
      exact hout hcid
    show Function.update r.instances id x _ = _
    rw [Function.update_of_ne hne]
    exact h.instances v cid hv hcid
  · have hne : k' ≠ k := by
      rintro rfl
      exact hout (ha.keys _ _ _ hk hkey ▸ hcid)
    show Function.update r.clusters k w _ = _
    rw [Function.update_of_ne hne]
    exact h.clusters cid k' hcid hk

theorem Sound.put (hs : r.Sound env all) {t : Instance} (ht : env.Made t)
    (hall : t.containerId ∈ all) (w : Option Cluster) :
    (r.set t.GetId t.pidKey (some t) w).Sound env all := by
  refine ⟨fun id t' h => ?_, fun k w' h => ?_⟩
  · rcases eq_or_ne id t.GetId with rfl | hne
    · obtain rfl : t = t' := by simpa [Registry.set] using h
      exact ⟨rfl, ht, hall⟩
    · exact hs.stored id t' (by simpa [Registry.set, hne] using h)
  · rcases eq_or_ne k t.pidKey with rfl | hne
    · exact ⟨t.containerId, hall, ht.key⟩
    · exact hs.keyed k w' (by simpa [Registry.set, hne] using h)

theorem Sound.drop (hs : r.Sound env all) (id : GoString) (k : UInt32) :
    (r.set id k none none).Sound env all := by
  refine ⟨fun id' t h => ?_, fun k' w h => ?_⟩
  · rcases eq_or_ne id' id with rfl | hne
    · simp [Registry.set] at h
    · exact hs.stored id' t (by simpa [Registry.set, hne] using h)
  · rcases eq_or_ne k' k with rfl | hne
    · simp [Registry.set] at h
    · exact hs.keyed k' w (by simpa [Registry.set, hne] using h)

/-- `r` and `r'` are sound and agree about the containers `cids`. -/
structure Part (env : Env) (all cids : Set GoString) (r r' : Registry) : Prop where
  left : r.Sound env all
  right : r'.Sound env all
  agree : r.Agree env cids r'

theorem Part.symm (h : Part env all cids r r') : Part env all cids r' r :=
  ⟨h.right, h.left, ⟨fun v cid hv hcid => (h.agree.instances v cid hv hcid).symm,
    fun cid k hcid hk => (h.agree.clusters cid k hcid hk).symm⟩⟩

theorem Part.trans {r'' : Registry} (h : Part env all cids r r') (h' : Part env all cids r' r'') :
    Part env all cids r r'' :=
  ⟨h.left, h'.right,
    ⟨fun v cid hv hcid =>
        (h.agree.instances v cid hv hcid).trans (h'.agree.instances v cid hv hcid),
      fun cid k hcid hk =>
        (h.agree.clusters cid k hcid hk).trans (h'.agree.clusters cid k hcid hk)⟩⟩

theorem Part.attach (h : Part env all cids r r') {t : Instance} (ht : env.Made t)
    (hall : t.containerId ∈ all) : Part env all cids (r.attach env t) (r'.attach env t) := by
  unfold Registry.attach
  split
  · exact h
  · exact ⟨h.left.put ht hall _, h.right.put ht hall _, h.agree.set _ _ _ _⟩

theorem Part.attach_frame (ha : env.Apart) (h : Part env all cids r r') {t : Instance}
    (ht : env.Made t) (hall : t.containerId ∈ all) (hout : t.containerId ∉ cids) :
    Part env all cids (r.attach env t) r' := by
  unfold Registry.attach
  split
  · exact h
  · have hid := ha.containerOf ht
    refine ⟨h.left.put ht hall _, h.right, h.agree.set_frame ha ?_ ?_ _ _⟩
    · rw [hid]
      exact ht.key
    · rw [hid]
      exact hout

theorem Part.detach (ha : env.Apart) (h : Part env all cids r r') {v cid : GoString}
    (hv : BAR ∉ v) (hcid : cid ∈ cids) :
    Part env all cids (r.detach (instanceId v cid)) (r'.detach (instanceId v cid)) := by
  unfold Registry.detach
  rw [← h.agree.instances v cid hv hcid]
  cases ht : r.instances (instanceId v cid) with
  | none => exact h
  | some t =>
    obtain ⟨hid, hmade, _⟩ := h.left.stored _ t ht
    have hsame : t.containerId = cid := by
      rw [← ha.containerOf hmade, hid, containerOf_instanceId hv]
    simp only
    rw [← h.agree.clusters cid t.pidKey hcid (hsame ▸ hmade.key)]
    split
    · exact ⟨h.left.drop _ _, h.right.drop _ _, h.agree.set _ _ _ _⟩
    · exact h

theorem Part.detach_frame (ha : env.Apart) (h : Part env all cids r r') {v cid : GoString}
    (hv : BAR ∉ v) (hcid : cid ∉ cids) : Part env all cids (r.detach (instanceId v cid)) r' := by
  unfold Registry.detach
  cases ht : r.instances (instanceId v cid) with
  | none => exact h
  | some t =>
    obtain ⟨hid, hmade, _⟩ := h.left.stored _ t ht
    simp only
    split
    · refine ⟨h.left.drop _ _, h.right, h.agree.set_frame ha ?_ ?_ _ _⟩
      · rw [← hid, ha.containerOf hmade]
        exact hmade.key
      · rw [containerOf_instanceId hv]
        exact hcid
    · exact h

/-! ## What an event does -/

/-- An iteration sees of the registry only the ids of its container, and of the programs only which
ones there are. -/
theorem iteration_congr {programs programs' : GoString → Option Program}
    {instances instances' : GoString → Option Instance} {c : ContainerStatus}
    (hprog : ∀ v, (programs v).isSome = (programs' v).isSome)
    (h : ∀ cid, ParseContainerId c.containerID = some cid → ∀ v, (programs v).isSome →
      instances (instanceId v cid) = instances' (instanceId v cid)) :
    updateIteration programs instances c = updateIteration programs' instances' c ∧
      deleteIteration programs instances c = deleteIteration programs' instances' c := by
  unfold updateIteration deleteIteration
  cases hp : ParseContainerId c.containerID with
  | none => exact ⟨rfl, rfl⟩
  | some cid =>
    have hsome := hprog (ParseImage c.image)
    cases hv : programs (ParseImage c.image) with
    | none =>
      rw [hv] at hsome
      have hv' : programs' (ParseImage c.image) = none := by simpa using hsome.symm
      simp [hv, hv']
    | some p =>
      rw [hv] at hsome
      obtain ⟨p', hv'⟩ := Option.isSome_iff_exists.mp hsome.symm
      have heq := h cid hp (ParseImage c.image) (by rw [hv]; rfl)
      simp [hv, hv', heq]

/-- The head of a loop and what follows it. -/
theorem finish_iterate {programs : GoString → Option Program} {pc pc' : CallbackPc}
    (hprog : ∀ v, (programs v).isSome = (env.offers v).isSome)
    (h : pc.iterate programs r.instances = some (some pc')) :
    r.finish env pc' = r.finish env pc := by
  unfold CallbackPc.iterate at h
  split at h
  · cases h
    rfl
  · rename_i pod c rest
    rw [(iteration_congr (c := c) hprog fun _ _ _ _ => rfl).1] at h
    cases hit : updateIteration env.offers r.instances c with
    | panic =>
      rw [hit] at h
      cases h
    | «continue» =>
      rw [hit] at h
      cases h
      simp [finish, updateLoop, hit]
    | found imageId containerId =>
      rw [hit] at h
      cases h
      simp [finish, updateLoop, hit]
  · cases h
    rfl
  · rename_i c rest
    rw [(iteration_congr (c := c) hprog fun _ _ _ _ => rfl).2] at h
    cases hit : deleteIteration env.offers r.instances c with
    | panic =>
      rw [hit] at h
      cases h
    | «continue» =>
      rw [hit] at h
      cases h
      simp [finish, deleteLoop, hit]
    | found imageId containerId =>
      rw [hit] at h
      cases h
      simp [finish, deleteLoop, hit]
  · cases h

/-- The registration that `onPodUpdate` makes, if any, on both sides. -/
theorem updateLoop_cases (h : r.Agree env cids r') (ha : env.Apart) (pod : Pod) :
    ∀ {cs : List ContainerStatus},
      (∀ c ∈ cs, ∀ cid, ParseContainerId c.containerID = some cid → cid ∈ cids) →
      (r.updateLoop env pod cs = r ∧ r'.updateLoop env pod cs = r') ∨
      ∃ t, env.Made t ∧ t.containerId ∈ cids ∧ r.updateLoop env pod cs = r.attach env t ∧
        r'.updateLoop env pod cs = r'.attach env t
  | [], _ => Or.inl ⟨rfl, rfl⟩
  | c :: rest, hcs => by
    have hrest := updateLoop_cases h ha pod fun c' hc' => hcs c' (List.mem_cons_of_mem c hc')
    have hcongr := (iteration_congr (c := c) (fun _ => rfl) fun cid hp v hv =>
      h.instances v cid (ha.version hv) (hcs c List.mem_cons_self cid hp)).1
    unfold updateLoop
    rw [← hcongr]
    cases hit : updateIteration env.offers r.instances c with
    | panic => exact Or.inl ⟨rfl, rfl⟩
    | «continue» => exact hrest
    | found imageId containerId =>
      obtain ⟨_, hp, hoffer, _⟩ := updateIteration_found hit
      cases hpid : env.pid containerId with
      | none => exact Or.inl (by simp only [hpid, and_self])
      | some pid =>
        refine Or.inr ⟨newInstance pod imageId containerId pid, ⟨hoffer, hpid⟩,
          hcs c List.mem_cons_self containerId hp, ?_⟩
        simp only [hpid, and_self]

/-- The removal that `onPodDelete` makes, if any, on both sides. -/
theorem deleteLoop_cases (h : r.Agree env cids r') (ha : env.Apart) :
    ∀ {cs : List ContainerStatus},
      (∀ c ∈ cs, ∀ cid, ParseContainerId c.containerID = some cid → cid ∈ cids) →
      (r.deleteLoop env cs = r ∧ r'.deleteLoop env cs = r') ∨
      ∃ v cid, BAR ∉ v ∧ cid ∈ cids ∧ r.deleteLoop env cs = r.detach (instanceId v cid) ∧
        r'.deleteLoop env cs = r'.detach (instanceId v cid)
  | [], _ => Or.inl ⟨rfl, rfl⟩
  | c :: rest, hcs => by
    have hrest := deleteLoop_cases h ha fun c' hc' => hcs c' (List.mem_cons_of_mem c hc')
    have hcongr := (iteration_congr (c := c) (fun _ => rfl) fun cid hp v hv =>
      h.instances v cid (ha.version hv) (hcs c List.mem_cons_self cid hp)).2
    unfold deleteLoop
    rw [← hcongr]
    cases hit : deleteIteration env.offers r.instances c with
    | panic => exact Or.inl ⟨rfl, rfl⟩
    | «continue» => exact hrest
    | found imageId containerId =>
      obtain ⟨_, hp, hoffer, _⟩ := deleteIteration_found hit
      exact Or.inr ⟨imageId, containerId, ha.version hoffer,
        hcs c List.mem_cons_self containerId hp, rfl, rfl⟩

end Registry

/-- The container statuses an event carries. -/
def PodEvent.statuses : PodEvent → List ContainerStatus
  | .create (.pod p) | .update (.pod p) | .delete (.pod p) => p.containerStatuses
  | _ => []

/-- The parsed ids of the containers of an event. -/
def PodEvent.containers (e : PodEvent) : Set GoString :=
  { cid | ∃ c ∈ e.statuses, ParseContainerId c.containerID = some cid }

theorem handler_statuses (e : PodEvent) : e.handler = none ∨ e.handler = some .idle ∨
    (∃ pod, e.handler = some (.update pod e.statuses)) ∨
    e.handler = some (.delete e.statuses) := by
  have hupdate : ∀ pod : Pod, onPodUpdate (.pod pod) = some .idle ∨
      onPodUpdate (.pod pod) = some (.update pod pod.containerStatuses) := by
    intro pod
    unfold onPodUpdate
    by_cases hphase : pod.phase ≠ PodRunning
    · exact Or.inl (if_pos hphase)
    · by_cases hlabel : pod.label managedByLabel ≠ some managedBy
      · exact Or.inl ((if_neg hphase).trans (if_pos hlabel))
      · exact Or.inr ((if_neg hphase).trans (if_neg hlabel))
  cases e with
  | create obj | update obj =>
    cases obj with
    | deletedFinalStateUnknown => exact Or.inl rfl
    | pod pod =>
      rcases hupdate pod with hi | hu
      · exact Or.inr (Or.inl hi)
      · exact Or.inr (Or.inr (Or.inl ⟨pod, hu⟩))
  | delete obj =>
    cases obj with
    | deletedFinalStateUnknown => exact Or.inl rfl
    | pod pod => exact Or.inr (Or.inr (Or.inr rfl))

namespace Registry

variable {env : Env} {cids all : Set GoString} {r r' : Registry}

theorem Agree.refl (r : Registry) : r.Agree env cids r := ⟨fun _ _ _ _ => rfl, fun _ _ _ _ => rfl⟩

/-- **An event**, on two registries that agree about its containers: nothing, one registration or
one removal, and the same on both sides. -/
theorem handle_cases (e : PodEvent) (h : r.Agree env e.containers r') (ha : env.Apart) :
    (r.handle env e = r ∧ r'.handle env e = r') ∨
    (∃ t, env.Made t ∧ t.containerId ∈ e.containers ∧ r.handle env e = r.attach env t ∧
      r'.handle env e = r'.attach env t) ∨
    (∃ v cid, BAR ∉ v ∧ cid ∈ e.containers ∧ r.handle env e = r.detach (instanceId v cid) ∧
      r'.handle env e = r'.detach (instanceId v cid)) := by
  have hcs : ∀ c ∈ e.statuses, ∀ cid, ParseContainerId c.containerID = some cid →
      cid ∈ e.containers := fun c hc cid hp => ⟨c, hc, hp⟩
  unfold handle
  rcases handler_statuses e with hno | hidle | ⟨pod, hupd⟩ | hdel
  · rw [hno]
    exact Or.inl ⟨rfl, rfl⟩
  · rw [hidle]
    exact Or.inl ⟨rfl, rfl⟩
  · rw [hupd]
    rcases updateLoop_cases h ha pod hcs with hnone | hattach
    · exact Or.inl hnone
    · exact Or.inr (Or.inl hattach)
  · rw [hdel]
    rcases deleteLoop_cases h ha hcs with hnone | hdetach
    · exact Or.inl hnone
    · exact Or.inr (Or.inr hdetach)

theorem Part.handle (ha : env.Apart) (h : Part env all cids r r') {e : PodEvent}
    (hall : e.containers ⊆ all) (hown : e.containers ⊆ cids) :
    Part env all cids (r.handle env e) (r'.handle env e) := by
  have hagree : r.Agree env e.containers r' :=
    ⟨fun v cid hv hcid => h.agree.instances v cid hv (hown hcid),
      fun cid k hcid hk => h.agree.clusters cid k (hown hcid) hk⟩
  rcases handle_cases e hagree ha with
    ⟨hr, hr'⟩ | ⟨t, ht, hcid, hr, hr'⟩ | ⟨v, cid, hv, hcid, hr, hr'⟩
  · rw [hr, hr']
    exact h
  · rw [hr, hr']
    exact h.attach ht (hall hcid)
  · rw [hr, hr']
    exact h.detach ha hv (hown hcid)

/-- **An event of another pod** does not touch the part. -/
theorem Part.handle_frame (ha : env.Apart) (h : Part env all cids r r') {e : PodEvent}
    (hall : e.containers ⊆ all) (hout : ∀ cid ∈ e.containers, cid ∉ cids) :
    Part env all cids (r.handle env e) r' := by
  rcases handle_cases e (Agree.refl r) ha with
    ⟨hr, _⟩ | ⟨t, ht, hcid, hr, _⟩ | ⟨v, cid, hv, hcid, hr, _⟩
  · rw [hr]
    exact h
  · rw [hr]
    exact h.attach_frame ha ht (hall hcid) (hout _ hcid)
  · rw [hr]
    exact h.detach_frame ha hv (hout _ hcid)

theorem Sound.handle (ha : env.Apart) (h : r.Sound env all) {e : PodEvent}
    (hall : e.containers ⊆ all) : (r.handle env e).Sound env all := by
  have hpart : Part env all all r r := ⟨h, h, Agree.refl r⟩
  exact (hpart.handle ha hall hall).left

/-! ## Interleaved events -/

theorem sound_empty : empty.Sound env all := by
  refine ⟨fun _ _ h => ?_, fun _ _ h => ?_⟩ <;> cases h

variable {κ : Type} [DecidableEq κ]

/-- The containers of a pod. -/
def containersOf (es : List (κ × PodEvent)) (k : κ) : Set GoString :=
  { cid | ∃ e ∈ es, e.1 = k ∧ cid ∈ e.2.containers }

/-- Containers of different pods have different parsed ids. -/
def PodsApart (es : List (κ × PodEvent)) : Prop :=
  ∀ e ∈ es, ∀ e' ∈ es, e.1 ≠ e'.1 → ∀ cid ∈ e.2.containers, cid ∉ e'.2.containers

/-- The registries after the events. -/
def handleAll (env : Env) (es : List (κ × PodEvent)) : Registry :=
  es.foldl (fun r e => r.handle env e.2) empty

omit [DecidableEq κ] in
theorem sound_handleAll (ha : env.Apart) {es : List (κ × PodEvent)}
    (hall : ∀ e ∈ es, e.2.containers ⊆ all) : (handleAll env es).Sound env all :=
  List.foldlRecOn es _ sound_empty fun _ hr e he => Sound.handle ha hr (hall e he)

/-- **One pod.** What is registered of its containers does not depend on the interleaving. -/
theorem handleAll_part (ha : env.Apart) {es es' : List (κ × PodEvent)}
    (hsame : Interleave.SamePerKey es es') (hpods : PodsApart es) (k : κ) :
    (handleAll env es).Agree env (containersOf es k) (handleAll env es') := by
  have hempty : Part env Set.univ (containersOf es k) empty empty :=
    ⟨sound_empty, sound_empty, Agree.refl _⟩
  refine (Interleave.part_confluent (k := k) hsame (fun _ _ h => h.symm)
    (fun _ _ _ h h' => h.trans h') ?_ ?_ hempty).agree
  · intro s t e he h hne
    refine h.handle_frame ha (Set.subset_univ _) fun cid hcid => ?_
    rintro ⟨e', he', rfl, hcid'⟩
    exact hpods e he e' he' hne cid hcid hcid'
  · intro s t e he h hk
    exact h.handle ha (Set.subset_univ _) fun cid hcid => ⟨e, he, hk, hcid⟩

omit [DecidableEq κ] in
/-- Registries that agree about the containers of every pod, and have no others. -/
theorem Sound.eq_of_agree (ha : env.Apart) {es : List (κ × PodEvent)}
    (hs : r.Sound env { cid | ∃ e ∈ es, cid ∈ e.2.containers })
    (hs' : r'.Sound env { cid | ∃ e ∈ es, cid ∈ e.2.containers })
    (h : ∀ k, r.Agree env (containersOf es k) r') : r = r' := by
  ext1
  · funext id
    refine Option.ext fun t => ⟨fun ht => ?_, fun ht => ?_⟩
    · obtain ⟨rfl, hmade, e, he, hcid⟩ := hs.stored id t ht
      exact ((h e.1).instances t.version _ (ha.version hmade.1) ⟨e, he, rfl, hcid⟩) ▸ ht
    · obtain ⟨rfl, hmade, e, he, hcid⟩ := hs'.stored id t ht
      exact ((h e.1).instances t.version _ (ha.version hmade.1) ⟨e, he, rfl, hcid⟩).symm ▸ ht
  · funext k
    refine Option.ext fun w => ⟨fun hw => ?_, fun hw => ?_⟩
    · obtain ⟨cid, ⟨e, he, hcid⟩, hk⟩ := hs.keyed k w hw
      exact ((h e.1).clusters cid k ⟨e, he, rfl, hcid⟩ hk) ▸ hw
    · obtain ⟨cid, ⟨e, he, hcid⟩, hk⟩ := hs'.keyed k w hw
      exact ((h e.1).clusters cid k ⟨e, he, rfl, hcid⟩ hk).symm ▸ hw

/-- **Confluence.** The events of the pods may be interleaved in any way. -/
theorem handleAll_confluent (ha : env.Apart) {es es' : List (κ × PodEvent)}
    (hsame : Interleave.SamePerKey es es') (hpods : PodsApart es) :
    handleAll env es = handleAll env es' := by
  have hs := sound_handleAll ha fun e he cid (hcid : cid ∈ e.2.containers) =>
    (⟨e, he, hcid⟩ : cid ∈ { cid | ∃ e ∈ es, cid ∈ e.2.containers })
  have hs' := sound_handleAll ha fun e he cid (hcid : cid ∈ e.2.containers) =>
    (⟨e, (hsame.mem_iff e).mpr he, hcid⟩ : cid ∈ { cid | ∃ e ∈ es, cid ∈ e.2.containers })
  exact hs.eq_of_agree ha hs' (handleAll_part ha hsame hpods)

end Registry

end EDGuard
