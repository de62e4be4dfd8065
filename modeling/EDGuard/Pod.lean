import EDGuard.Instance
import Mathlib.Data.List.Infix

/-!
# Pod events and the handlers of the runner (`internal/task/bpf_runner/mysql/mysql.go`)

The handlers registered with the informer, cut at every point where they touch shared state or
call out: between two such points a handler is a pure function of what it reads.

* `Pod`, `Obj`, `PodEvent` — what client-go delivers.
* `CallbackPc` — where a handler stands; `onPodUpdate` and `onPodDelete` enter the loops.
* `updateIteration`, `deleteIteration` — one container of the two loops.
-/

set_option autoImplicit false

namespace EDGuard

structure ContainerStatus where
  ready : Bool
  image : GoString
  containerID : GoString
  deriving DecidableEq

structure Pod where
  name : GoString
  phase : GoString
  labels : List (GoString × GoString)
  containerStatuses : List ContainerStatus
  deriving DecidableEq

/-- `pod.Labels[key]`. -/
def Pod.label (pod : Pod) (key : GoString) : Option GoString := pod.labels.lookup key

/-- What a handler may be given. -/
inductive Obj where
  | pod (p : Pod)
  /-- `cache.DeletedFinalStateUnknown` -/
  | deletedFinalStateUnknown
  deriving DecidableEq

inductive PodEvent where
  | create (obj : Obj)
  | update (new : Obj)
  | delete (obj : Obj)
  deriving DecidableEq

/-- The pod an event is about. -/
def PodEvent.podName : PodEvent → Option GoString
  | .create (.pod p) | .update (.pod p) | .delete (.pod p) => some p.name
  | _ => none

/-- `corev1.PodRunning`. -/
def PodRunning : GoString := lit ['R', 'u', 'n', 'n', 'i', 'n', 'g']

/-- `"app.kubernetes.io/managed-by"`. -/
def managedByLabel : GoString :=
  lit ['a', 'p', 'p', '.', 'k', 'u', 'b', 'e', 'r', 'n', 'e', 't', 'e', 's', '.', 'i', 'o', '/',
    'm', 'a', 'n', 'a', 'g', 'e', 'd', '-', 'b', 'y']

/-- `"app.kubernetes.io/instance"`. -/
def instanceLabel : GoString :=
  lit ['a', 'p', 'p', '.', 'k', 'u', 'b', 'e', 'r', 'n', 'e', 't', 'e', 's', '.', 'i', 'o', '/',
    'i', 'n', 's', 't', 'a', 'n', 'c', 'e']

/-- `"mysql.radondb.com"`. -/
def managedBy : GoString :=
  lit ['m', 'y', 's', 'q', 'l', '.', 'r', 'a', 'd', 'o', 'n', 'd', 'b', '.', 'c', 'o', 'm']

/-- `strings.Contains(c.Image, "percona") || strings.Contains(c.Image, "mysql")`. -/
def ContainerStatus.mysqlImage (c : ContainerStatus) : Bool :=
  contains c.image (lit ['p', 'e', 'r', 'c', 'o', 'n', 'a']) ||
    contains c.image (lit ['m', 'y', 's', 'q', 'l'])

/-- Where a handler stands. -/
inductive CallbackPc where
  /-- no event is being handled -/
  | idle
  /-- at the head of the loop of `onPodUpdate` -/
  | update (pod : Pod) (rest : List ContainerStatus)
  /-- before `GetContainerPid` -/
  | lookup (pod : Pod) (imageId containerId : GoString)
  /-- before `GetChildPid` -/
  | child (pod : Pod) (imageId containerId : GoString) (pid : Int)
  /-- sending the error of a lookup -/
  | sendErr
  /-- in `Add`, sending on `r.ch` -/
  | add (t : Instance)
  /-- at the head of the loop of `onPodDelete` -/
  | delete (rest : List ContainerStatus)
  /-- in `detachInstance`, before `r.mu.Lock()` -/
  | detachLock (id : GoString)
  /-- in `detachInstance`, holding `r.mu` -/
  | detachBody (id : GoString)
  /-- sending the error of `clusters.Delete`, holding `r.mu` -/
  | detachErr
  deriving DecidableEq

/-- `onPodUpdate` up to its loop; `none` is the panic of the type assertion. -/
def onPodUpdate : Obj → Option CallbackPc
  | .deletedFinalStateUnknown => none
  | .pod pod =>
    if pod.phase ≠ PodRunning then some .idle
    else if pod.label managedByLabel ≠ some managedBy then some .idle
    else some (.update pod pod.containerStatuses)

def onPodCreate (obj : Obj) : Option CallbackPc := onPodUpdate obj

/-- `onPodDelete` up to its loop; `none` is the panic of the type assertion. -/
def onPodDelete : Obj → Option CallbackPc
  | .deletedFinalStateUnknown => none
  | .pod pod => some (.delete pod.containerStatuses)

def PodEvent.handler : PodEvent → Option CallbackPc
  | .create obj => onPodCreate obj
  | .update new => onPodUpdate new
  | .delete obj => onPodDelete obj

/-- One iteration of a loop over the container statuses. -/
inductive Iteration where
  | panic
  | continue
  | found (imageId containerId : GoString)
  deriving DecidableEq

section

variable (programs : GoString → Option Program) (instances : GoString → Option Instance)

/-- One container of the loop of `onPodUpdate`, up to the lookups. -/
def updateIteration (c : ContainerStatus) : Iteration :=
  if !c.ready then .continue
  else if !c.mysqlImage then .continue
  else
    let imageId := ParseImage c.image
    match ParseContainerId c.containerID with
    | none => .panic
    | some containerId =>
      if (programs imageId).isNone then .continue
      else if (instances (instanceId imageId containerId)).isSome then .continue
      else .found imageId containerId

/-- One container of the loop of `onPodDelete`, up to `r.Delete`. -/
def deleteIteration (c : ContainerStatus) : Iteration :=
  if !c.mysqlImage then .continue
  else
    let imageId := ParseImage c.image
    match ParseContainerId c.containerID with
    | none => .panic
    | some containerId =>
      if (programs imageId).isNone then .continue
      else if (instances (instanceId imageId containerId)).isNone then .continue
      else .found imageId containerId

/-- The next program point of a handler at the head of its loop: `none` elsewhere, `some none` is
the panic of `ParseContainerId`. -/
def CallbackPc.iterate : CallbackPc → Option (Option CallbackPc)
  | .update _ [] => some (some .idle)
  | .update pod (c :: rest) =>
    match updateIteration programs instances c with
    | .panic => some none
    | .continue => some (some (.update pod rest))
    | .found imageId containerId => some (some (.lookup pod imageId containerId))
  | .delete [] => some (some .idle)
  | .delete (c :: rest) =>
    match deleteIteration programs instances c with
    | .panic => some none
    | .continue => some (some (.delete rest))
    | .found imageId containerId => some (some (.detachLock (instanceId imageId containerId)))
  | _ => none

end

/-- The instance that `onPodUpdate` hands to `Add`. -/
def newInstance (pod : Pod) (imageId containerId : GoString) (pid : Int) : Instance :=
  (((NewMySQLTask imageId).WithClusterName ((pod.label instanceLabel).getD [])).WithPod
    pod.name).WithContainerId containerId |>.WithPid pid

/-! ## What one iteration can do -/

theorem updateIteration_found {programs : GoString → Option Program}
    {instances : GoString → Option Instance} {c : ContainerStatus} {imageId containerId : GoString}
    (h : updateIteration programs instances c = .found imageId containerId) :
    imageId = ParseImage c.image ∧ ParseContainerId c.containerID = some containerId ∧
      (programs imageId).isSome ∧ instances (instanceId imageId containerId) = none := by
  unfold updateIteration at h
  split at h
  · cases h
  · split at h
    · cases h
    · simp only at h
      split at h
      · cases h
      · rename_i cid hcid
        split at h
        · cases h
        · rename_i hprog
          split at h
          · cases h
          · rename_i hinst
            cases h
            refine ⟨rfl, hcid, ?_, ?_⟩
            · simpa [Option.isSome_iff_ne_none] using hprog
            · simpa using hinst

theorem deleteIteration_found {programs : GoString → Option Program}
    {instances : GoString → Option Instance} {c : ContainerStatus} {imageId containerId : GoString}
    (h : deleteIteration programs instances c = .found imageId containerId) :
    imageId = ParseImage c.image ∧ ParseContainerId c.containerID = some containerId ∧
      (programs imageId).isSome ∧ (instances (instanceId imageId containerId)).isSome := by
  unfold deleteIteration at h
  split at h
  · cases h
  · simp only at h
    split at h
    · cases h
    · rename_i cid hcid
      split at h
      · cases h
      · rename_i hprog
        split at h
        · cases h
        · rename_i hinst
          cases h
          refine ⟨rfl, hcid, ?_, ?_⟩
          · simpa [Option.isSome_iff_ne_none] using hprog
          · simpa [Option.isSome_iff_ne_none] using hinst

/-- The image and container id that `onPodUpdate` registers a container under: that of a ready
container with a known image. -/
def ContainerStatus.target (programs : GoString → Option Program) (c : ContainerStatus) :
    Option (GoString × GoString) :=
  if c.ready && c.mysqlImage && (programs (ParseImage c.image)).isSome then
    (ParseContainerId c.containerID).map fun containerId => (ParseImage c.image, containerId)
  else none

theorem updateIteration_eq_found_iff {programs : GoString → Option Program}
    {instances : GoString → Option Instance} {c : ContainerStatus}
    {imageId containerId : GoString} :
    updateIteration programs instances c = .found imageId containerId ↔
      c.target programs = some (imageId, containerId) ∧
        instances (instanceId imageId containerId) = none := by
  constructor
  · intro h
    have hgate : c.ready = true ∧ c.mysqlImage = true := by
      unfold updateIteration at h
      cases hr : c.ready <;> cases hm : c.mysqlImage <;> simp_all
    obtain ⟨rfl, hcid, hprog, hnone⟩ := updateIteration_found h
    exact ⟨by simp [ContainerStatus.target, hgate, hcid, hprog], hnone⟩
  · rintro ⟨htarget, hnone⟩
    unfold ContainerStatus.target at htarget
    split at htarget
    · rename_i hgate
      simp only [Bool.and_eq_true] at hgate
      obtain ⟨cid, hcid, heq⟩ := Option.map_eq_some_iff.mp htarget
      cases heq
      obtain ⟨p, hp⟩ := Option.isSome_iff_exists.mp hgate.2
      simp [updateIteration, hgate.1, hcid, hp, hnone]
    · cases htarget

theorem updateIteration_eq_panic_iff {programs : GoString → Option Program}
    {instances : GoString → Option Instance} {c : ContainerStatus} :
    updateIteration programs instances c = .panic ↔
      c.ready = true ∧ c.mysqlImage = true ∧ ShortDockerId c.containerID := by
  rw [← ParseContainerId_eq_none_iff]
  constructor
  · intro h
    unfold updateIteration at h
    split at h
    · cases h
    · rename_i hready
      split at h
      · cases h
      · rename_i himage
        simp only at h
        split at h
        · rename_i hparse
          exact ⟨by simpa using hready, by simpa using himage, hparse⟩
        · split at h
          · cases h
          · split at h <;> cases h
  · rintro ⟨hready, himage, hparse⟩
    simp [updateIteration, hready, himage, hparse]

/-- A container that is passed over has nothing to register, or is registered. -/
theorem updateIteration_eq_continue_iff {programs : GoString → Option Program}
    {instances : GoString → Option Instance} {c : ContainerStatus} :
    updateIteration programs instances c = .continue ↔
      ¬ (c.ready = true ∧ c.mysqlImage = true ∧ ShortDockerId c.containerID) ∧
        ∀ imageId containerId, c.target programs = some (imageId, containerId) →
          (instances (instanceId imageId containerId)).isSome := by
  rw [← @updateIteration_eq_panic_iff programs instances c]
  cases hit : updateIteration programs instances c with
  | panic => simp
  | «continue» =>
    refine iff_of_true rfl ⟨by simp, fun imageId containerId htarget => ?_⟩
    apply Option.isSome_iff_ne_none.mpr
    intro hnone
    rw [updateIteration_eq_found_iff.mpr ⟨htarget, hnone⟩] at hit
    cases hit
  | found imageId containerId =>
    refine iff_of_false (by simp) fun h => ?_
    obtain ⟨htarget, hnone⟩ := updateIteration_eq_found_iff.mp hit
    have hsome := h.2 imageId containerId htarget
    rw [hnone] at hsome
    cases hsome

theorem deleteIteration_eq_panic_iff {programs : GoString → Option Program}
    {instances : GoString → Option Instance} {c : ContainerStatus} :
    deleteIteration programs instances c = .panic ↔
      c.mysqlImage = true ∧ ShortDockerId c.containerID := by
  rw [← ParseContainerId_eq_none_iff]
  constructor
  · intro h
    unfold deleteIteration at h
    split at h
    · cases h
    · rename_i himage
      simp only at h
      split at h
      · rename_i hparse
        exact ⟨by simpa using himage, hparse⟩
      · split at h
        · cases h
        · split at h <;> cases h
  · rintro ⟨himage, hparse⟩
    simp [deleteIteration, himage, hparse]

/-- The image and container id that `onPodDelete` looks for: that of a container with a known image,
ready or not. -/
def ContainerStatus.detachTarget (programs : GoString → Option Program) (c : ContainerStatus) :
    Option (GoString × GoString) :=
  if c.mysqlImage && (programs (ParseImage c.image)).isSome then
    (ParseContainerId c.containerID).map fun containerId => (ParseImage c.image, containerId)
  else none

theorem deleteIteration_eq_found_iff {programs : GoString → Option Program}
    {instances : GoString → Option Instance} {c : ContainerStatus}
    {imageId containerId : GoString} :
    deleteIteration programs instances c = .found imageId containerId ↔
      c.detachTarget programs = some (imageId, containerId) ∧
        (instances (instanceId imageId containerId)).isSome := by
  constructor
  · intro h
    have hgate : c.mysqlImage = true := by
      unfold deleteIteration at h
      cases hm : c.mysqlImage <;> simp_all
    obtain ⟨rfl, hcid, hprog, hsome⟩ := deleteIteration_found h
    exact ⟨by simp [ContainerStatus.detachTarget, hgate, hcid, hprog], hsome⟩
  · rintro ⟨htarget, hsome⟩
    unfold ContainerStatus.detachTarget at htarget
    split at htarget
    · rename_i hgate
      simp only [Bool.and_eq_true] at hgate
      obtain ⟨cid, hcid, heq⟩ := Option.map_eq_some_iff.mp htarget
      cases heq
      obtain ⟨p, hp⟩ := Option.isSome_iff_exists.mp hgate.2
      obtain ⟨x, hx⟩ := Option.isSome_iff_exists.mp hsome
      simp [deleteIteration, hgate.1, hcid, hp, hx]
    · cases htarget

/-- A container that is passed over has nothing to detach, or is not registered. -/
theorem deleteIteration_eq_continue_iff {programs : GoString → Option Program}
    {instances : GoString → Option Instance} {c : ContainerStatus} :
    deleteIteration programs instances c = .continue ↔
      ¬ (c.mysqlImage = true ∧ ShortDockerId c.containerID) ∧
        ∀ imageId containerId, c.detachTarget programs = some (imageId, containerId) →
          instances (instanceId imageId containerId) = none := by
  rw [← @deleteIteration_eq_panic_iff programs instances c]
  cases hit : deleteIteration programs instances c with
  | panic => simp
  | «continue» =>
    refine iff_of_true rfl ⟨by simp, fun imageId containerId htarget => ?_⟩
    by_contra hsome
    rw [deleteIteration_eq_found_iff.mpr ⟨htarget, Option.isSome_iff_ne_none.mpr hsome⟩] at hit
    cases hit
  | found imageId containerId =>
    refine iff_of_false (by simp) fun h => ?_
    obtain ⟨htarget, hsome⟩ := deleteIteration_eq_found_iff.mp hit
    rw [h.2 imageId containerId htarget] at hsome
    cases hsome

/-- What a handler may do at the head of its loop. -/
theorem iterate_cases {programs : GoString → Option Program}
    {instances : GoString → Option Instance} {pc pc' : CallbackPc}
    (h : pc.iterate programs instances = some (some pc')) :
    (pc' = .idle ∧ ((∃ pod, pc = .update pod []) ∨ pc = .delete [])) ∨
    (∃ pod c rest, pc = .update pod (c :: rest) ∧ pc' = .update pod rest) ∨
    (∃ pod c rest imageId containerId, pc = .update pod (c :: rest) ∧
      updateIteration programs instances c = .found imageId containerId ∧
      pc' = .lookup pod imageId containerId) ∨
    (∃ c rest, pc = .delete (c :: rest) ∧ pc' = .delete rest) ∨
    (∃ c rest imageId containerId, pc = .delete (c :: rest) ∧
      deleteIteration programs instances c = .found imageId containerId ∧
      pc' = .detachLock (instanceId imageId containerId)) := by
  unfold CallbackPc.iterate at h
  split at h
  · cases h
    exact Or.inl ⟨rfl, Or.inl ⟨_, rfl⟩⟩
  · rename_i pod c rest
    split at h
    · cases h
    · cases h
      exact Or.inr (Or.inl ⟨pod, c, rest, rfl, rfl⟩)
    · rename_i imageId containerId hfound
      cases h
      exact Or.inr (Or.inr (Or.inl ⟨pod, c, rest, imageId, containerId, rfl, hfound, rfl⟩))
  · cases h
    exact Or.inl ⟨rfl, Or.inr rfl⟩
  · rename_i c rest
    split at h
    · cases h
    · cases h
      exact Or.inr (Or.inr (Or.inr (Or.inl ⟨c, rest, rfl, rfl⟩)))
    · rename_i imageId containerId hfound
      cases h
      exact Or.inr (Or.inr (Or.inr (Or.inr ⟨c, rest, imageId, containerId, rfl, hfound, rfl⟩)))
  · cases h

theorem handler_cases {e : PodEvent} {pc : CallbackPc} (h : e.handler = some pc) :
    pc = .idle ∨ (∃ pod : Pod, pc = .update pod pod.containerStatuses) ∨
      ∃ pod : Pod, pc = .delete pod.containerStatuses := by
  have hupdate : ∀ {obj : Obj} {pc : CallbackPc}, onPodUpdate obj = some pc →
      pc = .idle ∨ ∃ pod : Pod, pc = .update pod pod.containerStatuses := by
    intro obj pc h
    unfold onPodUpdate at h
    split at h
    · cases h
    · rename_i pod
      split at h
      · cases h
        exact Or.inl rfl
      · split at h
        · cases h
          exact Or.inl rfl
        · cases h
          exact Or.inr ⟨pod, rfl⟩
  cases e with
  | create obj =>
    rcases hupdate h with hi | hu
    · exact Or.inl hi
    · exact Or.inr (Or.inl hu)
  | update new =>
    rcases hupdate h with hi | hu
    · exact Or.inl hi
    · exact Or.inr (Or.inl hu)
  | delete obj =>
    cases obj with
    | pod p =>
      cases h
      exact Or.inr (Or.inr ⟨p, rfl⟩)
    | deletedFinalStateUnknown => cases h

/-! ## A managed pod -/

/-- A ready container with the image of the supported server. -/
def perconaContainer (id : GoString) : ContainerStatus :=
  ⟨true, PerconaServer5734,
    lit ['c', 'o', 'n', 't', 'a', 'i', 'n', 'e', 'r', 'd', ':', '/', '/'] ++ id⟩

/-- A running pod of the cluster `m`. -/
def managedPod (cs : List ContainerStatus) : Pod :=
  ⟨lit ['p'], PodRunning, [(managedByLabel, managedBy), (instanceLabel, lit ['m'])], cs⟩

example : updateIteration (fun _ => some percona5734) (fun _ => none)
    (perconaContainer (lit ['9', 'f'])) = .found PerconaServer5734 (lit ['9', 'f']) := by
  decide

end EDGuard
