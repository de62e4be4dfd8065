import EDGuard.RunnerInv

/-!
# Panics of the handlers

Two things can end the process in a handler: a payload that is not a `*corev1.Pod` fails the type
assertion, and a docker container id of fewer than 12 bytes fails the slice of `ParseContainerId`.
(`ParseImage` is safe: `split_ne_nil`.)

* `handler_returns_iff` — **exactly which payloads are safe**, in every run.
* `payloads_panic` — a `cache.DeletedFinalStateUnknown` and a short docker id are not.
-/

set_option autoImplicit false

namespace EDGuard

/-- `onPodUpdate` looks at the container id of the status. -/
def ContainerStatus.UpdateSafe (c : ContainerStatus) : Prop :=
  c.ready = true → c.mysqlImage = true → ¬ ShortDockerId c.containerID

/-- `onPodDelete` looks at the container id of the status. -/
def ContainerStatus.DeleteSafe (c : ContainerStatus) : Prop :=
  c.mysqlImage = true → ¬ ShortDockerId c.containerID

/-- The payload is a pod; `onPodUpdate` leaves it alone, or no container it looks at has a short
docker id. -/
def Obj.UpdateSafe : Obj → Prop
  | .pod p => p.phase = PodRunning → p.label managedByLabel = some managedBy →
      ∀ c ∈ p.containerStatuses, c.UpdateSafe
  | .deletedFinalStateUnknown => False

/-- The payload is a pod, and no container `onPodDelete` looks at has a short docker id. -/
def Obj.DeleteSafe : Obj → Prop
  | .pod p => ∀ c ∈ p.containerStatuses, c.DeleteSafe
  | .deletedFinalStateUnknown => False

/-- The payload of the event is safe for its handler. -/
def PodEvent.Safe : PodEvent → Prop
  | .create obj => obj.UpdateSafe
  | .update new => new.UpdateSafe
  | .delete obj => obj.DeleteSafe

/-- No container that is still ahead of the handler makes it panic. -/
def CallbackPc.Safe : CallbackPc → Prop
  | .update _ rest => ∀ c ∈ rest, c.UpdateSafe
  | .delete rest => ∀ c ∈ rest, c.DeleteSafe
  | _ => True

theorem handler_safe {e : PodEvent} (h : e.Safe) : ∃ pc, e.handler = some pc ∧ pc.Safe := by
  have hupdate : ∀ obj : Obj, obj.UpdateSafe → ∃ pc, onPodUpdate obj = some pc ∧ pc.Safe := by
    intro obj hobj
    cases obj with
    | deletedFinalStateUnknown => exact hobj.elim
    | pod pod =>
      unfold onPodUpdate
      by_cases hphase : pod.phase = PodRunning
      · by_cases hlabel : pod.label managedByLabel = some managedBy
        · exact ⟨.update pod pod.containerStatuses, by simp [hphase, hlabel], hobj hphase hlabel⟩
        · exact ⟨.idle, by simp [hphase, hlabel], trivial⟩
      · exact ⟨.idle, by simp [hphase], trivial⟩
  cases e with
  | create obj => exact hupdate obj h
  | update obj => exact hupdate obj h
  | delete obj =>
    cases obj with
    | deletedFinalStateUnknown => exact h.elim
    | pod pod => exact ⟨.delete pod.containerStatuses, rfl, h⟩

theorem iterate_safe {programs : GoString → Option Program}
    {instances : GoString → Option Instance} {pc pc' : CallbackPc} (hpc : pc.Safe)
    (h : pc.iterate programs instances = some (some pc')) : pc'.Safe := by
  rcases iterate_cases h with ⟨rfl, _⟩ | ⟨pod, c, rest, rfl, rfl⟩ | ⟨_, _, _, _, _, _, _, rfl⟩ |
    ⟨c, rest, rfl, rfl⟩ | ⟨_, _, _, _, _, _, rfl⟩
  · trivial
  · exact fun c' hc' => hpc c' (List.mem_cons_of_mem c hc')
  · trivial
  · exact fun c' hc' => hpc c' (List.mem_cons_of_mem c hc')
  · trivial

theorem iterate_ne_panic {programs : GoString → Option Program}
    {instances : GoString → Option Instance} {pc : CallbackPc} (hpc : pc.Safe) :
    pc.iterate programs instances ≠ some none := by
  intro h
  unfold CallbackPc.iterate at h
  split at h
  · cases h
  · rename_i pod c rest
    split at h
    · rename_i hpanic
      obtain ⟨hready, himage, hshort⟩ := updateIteration_eq_panic_iff.mp hpanic
      exact hpc c List.mem_cons_self hready himage hshort
    · cases h
    · cases h
  · cases h
  · rename_i c rest
    split at h
    · rename_i hpanic
      obtain ⟨himage, hshort⟩ := deleteIteration_eq_panic_iff.mp hpanic
      exact hpc c List.mem_cons_self himage hshort
    · cases h
    · cases h
  · cases h

namespace Runner

variable {ι : Type} [DecidableEq ι] {programs : List Program} {s t u : Runner ι} {i : ι}

/-- The step is a panic of the handler of goroutine `i`. -/
def Panics (i : ι) (s : Runner ι) : Action ι → Prop
  | .deliver j e => j = i ∧ e.handler = none
  | .iterate j => j = i ∧ (s.callbacks j).iterate s.bpfPrograms s.instances = some none
  | _ => False

/-- The action delivers no event to goroutine `i`. -/
def Action.NotTo (i : ι) : Action ι → Prop
  | .deliver j _ => j ≠ i
  | _ => True

/-- **Goroutine `i` handles the event without a panic**, whatever happened before and whatever the
others do meanwhile. -/
def HandlesSafely (programs : List Program) (i : ι) (e : PodEvent) : Prop :=
  ∀ (as bs : List (Action ι)) (s t : Runner ι), Trace.run step (init programs) as = some s →
    (∀ b ∈ bs, b.NotTo i) → Trace.run step s (.deliver i e :: bs) = some t →
    Trace.Meets step (fun s a => ¬ s.Panics i a) s (.deliver i e :: bs)

theorem safe_step {a : Action ι} (hs : (s.callbacks i).Safe) (ha : a.NotTo i) (h : Step s a t) :
    (t.callbacks i).Safe := by
  have hset : ∀ {j : ι} {pc : CallbackPc}, (i = j → pc.Safe) →
      ((s.setCallback j pc).callbacks i).Safe := by
    intro j pc hpc
    rcases eq_or_ne i j with rfl | hij
    · rw [setCallback_self]
      exact hpc rfl
    · rw [setCallback_of_ne s hij]
      exact hs
  cases h with
  | deliver _ _ => exact hset fun hij => absurd hij.symm ha
  | iterate hit =>
    refine hset fun hij => ?_
    subst hij
    exact iterate_safe hs hit
  | lookupErr _ | lookup _ | childErr _ | child _ | recvCh _ _ | recvLookupErr _ _
  | recvDetachErr _ _ | lockDetach _ _ | deleteAbsent _ _ | delete _ _ _ | deleteErr _ _ =>
    exact hset fun _ => trivial
  | _ => exact hs

omit [DecidableEq ι] in
theorem not_panics_of_safe {a : Action ι} (hs : (s.callbacks i).Safe) (ha : a.NotTo i) :
    ¬ s.Panics i a := by
  cases a with
  | deliver j e => exact fun hp => ha hp.1
  | iterate j =>
    rintro ⟨rfl, hp⟩
    exact iterate_ne_panic hs hp
  | _ => exact id

/-- **Safe payloads.** -/
theorem handlesSafely_of_safe {e : PodEvent} (h : e.Safe) : HandlesSafely programs i e := by
  intro as bs s t _ hbs _
  obtain ⟨pc, hpc, hsafe⟩ := handler_safe h
  refine ⟨fun hp => ?_, fun u hu => ?_⟩
  · rw [hp.2] at hpc
    cases hpc
  · have hu' : (u.callbacks i).Safe := by
      cases (step_iff.mp hu).2 with
      | deliver _ hh =>
        obtain rfl : _ = pc := Option.some.inj (hh.symm.trans hpc)
        rw [setCallback_self]
        exact hsafe
      | crashDeliver _ hh =>
        rw [hpc] at hh
        cases hh
    exact Trace.meets_of_invariant (I := fun v : Runner ι => (v.callbacks i).Safe)
      (fun _ _ _ hv ha hstep => safe_step hv ha (step_iff.mp hstep).2)
      (fun _ _ hv ha => not_panics_of_safe hv ha) hu' hbs

/-! ## Unsafe payloads -/

/-- Goroutine `i` and the main loop are at rest, and `clusters` has no key but 1. -/
structure Resting (i : ι) (s : Runner ι) : Prop where
  alive : s.crashed = false
  idle : s.callbacks i = .idle
  main : s.main = .select
  unlocked : s.mu = none
  keys : s.clusters.keys ⊆ {1}

omit [DecidableEq ι] in
theorem resting_init : (init programs : Runner ι).Resting i :=
  ⟨rfl, rfl, rfl, rfl, by simp [init]⟩

omit [DecidableEq ι] in
theorem Resting.accepts (hs : s.Resting i) : s.clusters.Accepts 1 := by
  rcases Finset.subset_singleton_iff.mp hs.keys with hnone | hone
  · exact Or.inr (by rw [hnone]; decide)
  · exact Or.inl (by rw [hone]; exact Finset.mem_singleton_self 1)

/-- The programs are the same, and what was registered still is. -/
structure Grown (s t : Runner ι) : Prop where
  programs : t.bpfPrograms = s.bpfPrograms
  instances : ∀ id, (s.instances id).isSome → (t.instances id).isSome

omit [DecidableEq ι] in
theorem Grown.trans (h : s.Grown t) (h' : t.Grown u) : s.Grown u :=
  ⟨h'.programs.trans h.programs, fun id hid => h'.instances id (h.instances id hid)⟩

@[simp] theorem setCallback_setCallback (s : Runner ι) (i : ι) (pc pc' : CallbackPc) :
    (s.setCallback i pc).setCallback i pc' = s.setCallback i pc' := by
  simp [setCallback]

/-- The handler brings the only container of a running pod to the send on `r.ch`. -/
theorem reaches_add (hs : s.Resting i) {c : ContainerStatus} {imageId containerId : GoString}
    (hfound : updateIteration s.bpfPrograms s.instances c = .found imageId containerId) :
    Trace.Reaches step (fun _ => True) s
      (s.setCallback i (.add (newInstance (managedPod [c]) imageId containerId 1))) := by
  have hdeliver : Step s (.deliver i (.update (.pod (managedPod [c]))))
      (s.setCallback i (.update (managedPod [c]) [c])) := .deliver hs.idle rfl
  have hiterate : Step (s.setCallback i (.update (managedPod [c]) [c])) (.iterate i)
      ((s.setCallback i (.update (managedPod [c]) [c])).setCallback i
        (.lookup (managedPod [c]) imageId containerId)) := by
    refine .iterate ?_
    rw [setCallback_self]
    simp [CallbackPc.iterate, setCallback, hfound]
  have hlookup : Step (s.setCallback i (.lookup (managedPod [c]) imageId containerId))
      (.lookup i (some 1))
      ((s.setCallback i (.lookup (managedPod [c]) imageId containerId)).setCallback i
        (.child (managedPod [c]) imageId containerId 1)) := .lookup (setCallback_self ..)
  have hchild : Step (s.setCallback i (.child (managedPod [c]) imageId containerId 1))
      (.child i (some 1))
      ((s.setCallback i (.child (managedPod [c]) imageId containerId 1)).setCallback i
        (.add (newInstance (managedPod [c]) imageId containerId 1))) := .child (setCallback_self ..)
  rw [setCallback_setCallback] at hiterate hlookup hchild
  exact (hdeliver.reaches hs.alive trivial).trans <| (hiterate.reaches hs.alive trivial).trans <|
    (hlookup.reaches hs.alive trivial).trans (hchild.reaches hs.alive trivial)

/-- The main loop registers the instance that the handler sends. -/
theorem exists_registered (hs : s.Resting i) {x : Instance} (hkey : x.pidKey = 1)
    (hprog : (s.bpfPrograms x.version).isSome) :
    ∃ t, Trace.Reaches step (fun _ => True) (s.setCallback i (.add x)) t ∧ t.Resting i ∧
      s.Grown t ∧ (t.instances x.GetId).isSome := by
  obtain ⟨p, hp⟩ := Option.isSome_iff_exists.mp hprog
  obtain ⟨m, hm⟩ := BoundedMap.exists_update (hkey ▸ hs.accepts) (bpfCluster x p)
  let s₁ : Runner ι := { s.setCallback i .idle with main := .attachLock x }
  let s₂ : Runner ι := { s₁ with mu := some .main, main := .attachBody x }
  let s₃ : Runner ι := { s₂ with
    instances := Function.update s.instances x.GetId (some x)
    main := .attachUpdate x (bpfCluster x p) }
  let s₄ : Runner ι := { s₃ with clusters := m, main := .attachSpawn x }
  have hrecv : Step (s.setCallback i (.add x)) (.recvCh i)
      { (s.setCallback i (.add x)).setCallback i .idle with main := .attachLock x } :=
    .recvCh hs.main (setCallback_self ..)
  rw [setCallback_setCallback] at hrecv
  have hlock : Step s₁ .lockAttach s₂ := .lockAttach rfl hs.unlocked
  have hstore : Step s₂ .store s₃ := .store rfl hp
  have hupdate : Step s₃ (.update true) s₄ := .update rfl hm
  have hspawn := Step.spawn (s := s₄) rfl
  refine ⟨_, (hrecv.reaches hs.alive trivial).trans <| (hlock.reaches hs.alive trivial).trans <|
    (hstore.reaches hs.alive trivial).trans <| (hupdate.reaches hs.alive trivial).trans
      (hspawn.reaches hs.alive trivial), ?_, ?_, ?_⟩
  · refine ⟨hs.alive, setCallback_self s i .idle, rfl, rfl, ?_⟩
    show m.keys ⊆ {1}
    rw [BoundedMap.keys_update hm, hkey]
    exact Finset.insert_subset (Finset.mem_singleton_self 1) hs.keys
  · refine ⟨rfl, fun id hid => ?_⟩
    show (Function.update s.instances x.GetId (some x) id).isSome
    rcases eq_or_ne id x.GetId with rfl | hne
    · rw [Function.update_self]
      rfl
    · rw [Function.update_of_ne hne]
      exact hid
  · show (Function.update s.instances x.GetId (some x) x.GetId).isSome
    rw [Function.update_self]
    rfl

omit [DecidableEq ι] in
theorem updateIteration_continue_of_grown (h : s.Grown t) {c : ContainerStatus}
    (hc : updateIteration s.bpfPrograms s.instances c = .continue) :
    updateIteration t.bpfPrograms t.instances c = .continue := by
  rw [updateIteration_eq_continue_iff, h.programs] at *
  exact ⟨hc.1, fun imageId containerId ht => h.instances _ (hc.2 imageId containerId ht)⟩

/-- **Any list of containers can be known already**, save those that cannot be parsed. -/
theorem exists_known {cs : List ContainerStatus} (hsafe : ∀ c ∈ cs, c.UpdateSafe)
    (hs : s.Resting i) : ∃ t, Trace.Reaches step (fun _ => True) s t ∧ t.Resting i ∧ s.Grown t ∧
      ∀ c ∈ cs, updateIteration t.bpfPrograms t.instances c = .continue := by
  induction cs generalizing s with
  | nil => exact ⟨s, .refl s, hs, ⟨rfl, fun _ h => h⟩, by simp⟩
  | cons c cs ih =>
    have hfirst : ∃ t, Trace.Reaches step (fun _ => True) s t ∧ t.Resting i ∧ s.Grown t ∧
        updateIteration t.bpfPrograms t.instances c = .continue := by
      cases hit : updateIteration s.bpfPrograms s.instances c with
      | panic =>
        obtain ⟨hready, himage, hshort⟩ := updateIteration_eq_panic_iff.mp hit
        exact absurd hshort (hsafe c List.mem_cons_self hready himage)
      | «continue» => exact ⟨s, .refl s, hs, ⟨rfl, fun _ h => h⟩, hit⟩
      | found imageId containerId =>
        obtain ⟨himage, hcid, hprog, _⟩ := updateIteration_found hit
        obtain ⟨t, hreach, ht, hgrown, hstored⟩ := exists_registered hs
          (x := newInstance (managedPod [c]) imageId containerId 1) rfl hprog
        refine ⟨t, (reaches_add hs hit).trans hreach, ht, hgrown, ?_⟩
        have htarget := (updateIteration_eq_found_iff.mp hit).1
        rw [updateIteration_eq_continue_iff, hgrown.programs]
        refine ⟨fun hp => ?_, fun v cid hv => ?_⟩
        · exact hsafe c List.mem_cons_self hp.1 hp.2.1 hp.2.2
        · obtain ⟨rfl, rfl⟩ := Prod.mk.inj (Option.some.inj (hv.symm.trans htarget))
          exact hstored
    obtain ⟨t, hst, ht, hgrown, hc⟩ := hfirst
    obtain ⟨u, htu, hu, hgrown', hcs⟩ :=
      ih (fun c' hc' => hsafe c' (List.mem_cons_of_mem c hc')) ht
    refine ⟨u, hst.trans htu, hu, hgrown.trans hgrown', fun c' hc' => ?_⟩
    rcases List.mem_cons.mp hc' with rfl | hc'
    · exact updateIteration_continue_of_grown hgrown' hc
    · exact hcs c' hc'

/-- The loop passes over the containers `pre`. -/
theorem run_loop {l : List ContainerStatus → CallbackPc} (hc : s.crashed = false)
    {rest : List ContainerStatus} : ∀ {pre : List ContainerStatus},
    (∀ c ∈ pre, ∀ cs, (l (c :: cs)).iterate s.bpfPrograms s.instances = some (some (l cs))) →
    Trace.run step (s.setCallback i (l (pre ++ rest))) (List.replicate pre.length (.iterate i)) =
      some (s.setCallback i (l rest))
  | [], _ => rfl
  | c :: pre, h => by
    have hstep : Step (s.setCallback i (l (c :: pre ++ rest))) (.iterate i)
        ((s.setCallback i (l (c :: pre ++ rest))).setCallback i (l (pre ++ rest))) := by
      refine .iterate ?_
      rw [setCallback_self]
      exact h c List.mem_cons_self (pre ++ rest)
    rw [setCallback_setCallback] at hstep
    have hnext := step_iff.mpr ⟨show (s.setCallback i _).crashed = false from hc, hstep⟩
    rw [List.length_cons, List.replicate_succ, Trace.run_cons, hnext, Option.bind_some]
    exact run_loop hc fun c' hc' => h c' (List.mem_cons_of_mem c hc')

/-- A reachable state in which the loop over the containers of the event ends in a panic. -/
theorem not_handlesSafely_of_loop {e : PodEvent} (l : List ContainerStatus → CallbackPc)
    (pre post : List ContainerStatus) (c : ContainerStatus)
    (hreach : Trace.Reaches step (fun _ => True) (init programs) s) (hs : s.Resting i)
    (he : e.handler = some (l (pre ++ c :: post)))
    (hpre : ∀ c ∈ pre, ∀ cs,
      (l (c :: cs)).iterate s.bpfPrograms s.instances = some (some (l cs)))
    (hpanic : (l (c :: post)).iterate s.bpfPrograms s.instances = some none) :
    ¬ HandlesSafely programs i e := by
  intro hsafe
  obtain ⟨as, _, has⟩ := hreach
  let s₁ := s.setCallback i (l (pre ++ c :: post))
  let s₂ := s.setCallback i (l (c :: post))
  have hdeliver : step s (.deliver i e) = some s₁ := step_iff.mpr ⟨hs.alive, .deliver hs.idle he⟩
  have hloop : Trace.run step s (.deliver i e :: List.replicate pre.length (.iterate i)) =
      some s₂ := by
    rw [Trace.run_cons, hdeliver, Option.bind_some]
    exact run_loop hs.alive hpre
  have hiterate : (s₂.callbacks i).iterate s₂.bpfPrograms s₂.instances = some none := by
    rw [show s₂.callbacks i = l (c :: post) from setCallback_self ..]
    exact hpanic
  have hcrash : step s₂ (.iterate i) = some { s₂ with crashed := true } :=
    step_iff.mpr ⟨hs.alive, .crashIterate hiterate⟩
  have hrun : Trace.run step s ((.deliver i e :: List.replicate pre.length (.iterate i)) ++
      [.iterate i]) = some { s₂ with crashed := true } := by
    rw [Trace.run_append_of_eq hloop, Trace.run_singleton, hcrash]
  have hown : ∀ b ∈ List.replicate pre.length (.iterate i) ++ [.iterate i],
      Action.NotTo i (b : Action ι) := by
    intro b hb
    rcases List.mem_append.mp hb with hb | hb
    · rw [List.eq_of_mem_replicate hb]
      trivial
    · rw [List.mem_singleton.mp hb]
      trivial
  have hmeets : Trace.Meets step (fun s a => ¬ s.Panics i a) s
      ((.deliver i e :: List.replicate pre.length (.iterate i)) ++ [.iterate i]) :=
    hsafe as _ s _ has hown hrun
  exact ((Trace.meets_append.mp hmeets).2 s₂ hloop).1 ⟨rfl, hiterate⟩

/-- The first container of a list that does not meet a condition. -/
theorem exists_first {P : ContainerStatus → Prop} {cs : List ContainerStatus}
    (h : ¬ ∀ c ∈ cs, P c) : ∃ pre c post, cs = pre ++ c :: post ∧ (∀ x ∈ pre, P x) ∧ ¬ P c := by
  classical
  simp only [not_forall] at h
  obtain ⟨c, hc, hp⟩ := h
  have hfind : (cs.find? fun x => decide (¬ P x)).isSome := by
    rw [List.find?_isSome]
    exact ⟨c, hc, by simpa using hp⟩
  obtain ⟨x, hx⟩ := Option.isSome_iff_exists.mp hfind
  obtain ⟨hpx, pre, post, rfl, hpre⟩ := List.find?_eq_some_iff_append.mp hx
  exact ⟨pre, x, post, rfl, fun y hy => by simpa using hpre y hy, by simpa using hpx⟩

theorem not_handlesSafely_of_handler {e : PodEvent} (he : e.handler = none) :
    ¬ HandlesSafely programs i e := by
  intro hsafe
  have hrun : Trace.run step (init programs : Runner ι) [.deliver i e] =
      some { (init programs : Runner ι) with crashed := true } := by
    rw [Trace.run_singleton]
    exact step_iff.mpr ⟨rfl, .crashDeliver rfl he⟩
  exact (hsafe [] [] _ _ rfl (by simp) hrun).1 ⟨rfl, he⟩

theorem not_handlesSafely_of_update {e : PodEvent} {obj : Obj}
    (he : e.handler = onPodUpdate obj) (h : ¬ obj.UpdateSafe) : ¬ HandlesSafely programs i e := by
  cases obj with
  | deletedFinalStateUnknown => exact not_handlesSafely_of_handler he
  | pod pod =>
    simp only [Obj.UpdateSafe, Classical.not_imp] at h
    obtain ⟨hphase, hlabel, hcs⟩ := h
    obtain ⟨pre, c, post, hsplit, hpre, hc⟩ := exists_first hcs
    obtain ⟨s, hreach, hs, _, hknown⟩ := exists_known hpre (resting_init (i := i))
    simp only [ContainerStatus.UpdateSafe, Classical.not_imp, not_not] at hc
    have hpanic : updateIteration s.bpfPrograms s.instances c = .panic :=
      updateIteration_eq_panic_iff.mpr hc
    refine not_handlesSafely_of_loop (.update pod) pre post c hreach hs ?_ (fun x hx cs => ?_) ?_
    · rw [he, ← hsplit]
      simp [onPodUpdate, hphase, hlabel]
    · simp only [CallbackPc.iterate, hknown x hx]
    · simp only [CallbackPc.iterate, hpanic]

theorem not_handlesSafely_of_delete {obj : Obj} (h : ¬ obj.DeleteSafe) :
    ¬ HandlesSafely programs i (.delete obj) := by
  cases obj with
  | deletedFinalStateUnknown => exact not_handlesSafely_of_handler rfl
  | pod pod =>
    obtain ⟨pre, c, post, hsplit, hpre, hc⟩ := exists_first h
    let s : Runner ι := init programs
    have hknown : ∀ x ∈ pre, deleteIteration s.bpfPrograms s.instances x = .continue := by
      intro x hx
      cases hit : deleteIteration s.bpfPrograms s.instances x with
      | panic =>
        obtain ⟨himage, hshort⟩ := deleteIteration_eq_panic_iff.mp hit
        exact absurd hshort (hpre x hx himage)
      | «continue» => rfl
      | found imageId containerId =>
        have hsome := (deleteIteration_found hit).2.2.2
        cases hsome
    simp only [ContainerStatus.DeleteSafe, Classical.not_imp, not_not] at hc
    have hpanic : deleteIteration s.bpfPrograms s.instances c = .panic :=
      deleteIteration_eq_panic_iff.mpr hc
    refine not_handlesSafely_of_loop .delete pre post c (.refl s) resting_init ?_
      (fun x hx cs => ?_) ?_
    · rw [← hsplit]
      rfl
    · simp only [CallbackPc.iterate, hknown x hx]
    · simp only [CallbackPc.iterate, hpanic]

/-- **Handlers never panic on exactly the safe payloads**: pods in which no container that the
handler looks at has a docker id of fewer than 12 bytes. -/
theorem handler_returns_iff (programs : List Program) (i : ι) (e : PodEvent) :
    HandlesSafely programs i e ↔ e.Safe := by
  refine ⟨fun hsafe => by_contra fun h => ?_, handlesSafely_of_safe⟩
  cases e with
  | create obj | update obj => exact not_handlesSafely_of_update rfl h hsafe
  | delete obj => exact not_handlesSafely_of_delete h hsafe

/-- A container whose docker id has two bytes. -/
def dockerContainer : ContainerStatus := ⟨true, PerconaServer5734, dockerPrefix ++ lit ['9', 'f']⟩

/-- **A tombstone** fails the type assertion of `onPodDelete`, and a short docker id the slice of
`ParseContainerId`. -/
theorem payloads_panic : ¬ HandlesSafely [percona5734] () (.delete .deletedFinalStateUnknown) ∧
    ¬ HandlesSafely [percona5734] () (.update (.pod (managedPod [dockerContainer]))) := by
  have hshort : ShortDockerId dockerContainer.containerID :=
    ⟨lit ['9', 'f'], rfl, by decide, by decide⟩
  have hunsafe : ¬ (Obj.pod (managedPod [dockerContainer])).UpdateSafe := fun h =>
    h rfl rfl dockerContainer List.mem_cons_self rfl (by decide) hshort
  exact ⟨not_handlesSafely_of_handler rfl, not_handlesSafely_of_update (by rfl) hunsafe⟩

end Runner

end EDGuard
