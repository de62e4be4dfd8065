import EDGuard.PodDeletion
import EDGuard.PodIndependence

/-!
# Resyncs

Every delivery of the update of a pod scans its containers from the front.  It passes over those
that have nothing to register or are registered, and stops at the first other one, whether or not
the lookups for that one succeed.

* `updateLoop_eq` — the loop of `onPodUpdate` as an operation on the list of the containers that are
  missing: it registers the head, or stays stuck at it.
* `Delivery.regs` — a delivery that is handled to completion does that to the registries.
* `resyncs_converge_iff` — **exactly when** as many deliveries as there are eligible containers
  register all those that can be looked up.
* `resync_stuck` — a container whose lookups fail keeps those behind it out for good.
-/

set_option autoImplicit false

namespace EDGuard

/-! ## What is missing -/

/-- The programs after the calls of `WithBpfProgram`. -/
def offered (programs : List Program) : GoString → Option Program :=
  programs.foldl WithBpfProgram fun _ => none

/-- The eligible containers of a pod, in order: version and container id. -/
def Pod.targets (programs : List Program) (pod : Pod) : List (GoString × GoString) :=
  pod.containerStatuses.filterMap (·.target (offered programs))

/-- A pod that `onPodUpdate` goes through. -/
structure Pod.Managed (pod : Pod) : Prop where
  phase : pod.phase = PodRunning
  label : pod.label managedByLabel = some managedBy

/-- The key of a container. -/
def targetId (y : GoString × GoString) : GoString := instanceId y.1 y.2

/-- Those of a list of containers that are not registered. -/
def missing (instances : GoString → Option Instance) (ys : List (GoString × GoString)) :
    List (GoString × GoString) :=
  ys.filter fun y => (instances (targetId y)).isNone

theorem mem_missing {instances : GoString → Option Instance} {ys : List (GoString × GoString)}
    {y : GoString × GoString} :
    y ∈ missing instances ys ↔ y ∈ ys ∧ instances (targetId y) = none := by
  simp [missing]

/-- Registering the first missing container of a list without repetitions. -/
theorem missing_update {instances : GoString → Option Instance}
    {ys rest : List (GoString × GoString)} {y : GoString × GoString}
    (hnodup : (ys.map targetId).Nodup) (h : missing instances ys = y :: rest) (x : Instance) :
    missing (Function.update instances (targetId y) (some x)) ys = rest := by
  have hfilter : missing (Function.update instances (targetId y) (some x)) ys =
      (missing instances ys).filter fun z => decide (targetId z ≠ targetId y) := by
    unfold missing
    rw [List.filter_filter]
    apply List.filter_congr
    intro z _
    rcases eq_or_ne (targetId z) (targetId y) with he | hne
    · simp [he]
    · simp [hne, Function.update_of_ne]
  have hsub : (missing instances ys).map targetId |>.Nodup :=
    hnodup.sublist (List.filter_sublist.map targetId)
  rw [h] at hfilter hsub
  rw [List.map_cons, List.nodup_cons] at hsub
  rw [hfilter, List.filter_cons_of_neg (by simp), List.filter_eq_self]
  intro z hz
  have hne : targetId z ≠ targetId y := fun he => hsub.1 (he ▸ List.mem_map_of_mem hz)
  simpa using hne

/-- A list whose front part succeeds and whose rest is empty or starts with a failure. -/
theorem pairwise_iff_of_append {α : Type} {fails : α → Prop} {done rest : List α}
    (hdone : ∀ y ∈ done, ¬ fails y) (hrest : rest = [] ∨ ∃ y ys, rest = y :: ys ∧ fails y) :
    (done ++ rest).Pairwise (fun y z => fails y → fails z) ↔ ∀ y ∈ rest, fails y := by
  rw [List.pairwise_append]
  constructor
  · rintro ⟨_, hpair, _⟩
    rcases hrest with rfl | ⟨y, ys, rfl, hy⟩
    · simp
    · intro z hz
      rcases List.mem_cons.mp hz with rfl | hz
      · exact hy
      · exact (List.pairwise_cons.mp hpair).1 z hz hy
  · intro hall
    refine ⟨List.pairwise_of_forall_mem_list fun y hy z _ hf => absurd hf (hdone y hy),
      List.pairwise_of_forall_mem_list fun y _ z hz _ => hall z hz,
      fun y hy z _ hf => absurd hf (hdone y hy)⟩

/-! ## A delivery on the registries -/

/-- The loop comes to a container that makes it panic. -/
def loopPanics (iteration : ContainerStatus → Iteration) : List ContainerStatus → Prop
  | [] => False
  | c :: rest =>
    match iteration c with
    | .panic => True
    | .continue => loopPanics iteration rest
    | .found _ _ => False

namespace Registry

variable {env : Env} {r : Registry}

/-- Register the first container of a list, if the lookups for it succeed. -/
def register (env : Env) (r : Registry) (pod : Pod) : List (GoString × GoString) → Registry
  | [] => r
  | y :: _ =>
    match env.pid y.2 with
    | none => r
    | some pid => r.attach env (newInstance pod y.1 y.2 pid)

/-- **The loop of `onPodUpdate`** is about the first missing container only. -/
theorem updateLoop_eq (pod : Pod) {cs : List ContainerStatus}
    (h : ¬ loopPanics (updateIteration env.offers r.instances) cs) :
    r.updateLoop env pod cs =
      r.register env pod (missing r.instances (cs.filterMap (·.target env.offers))) := by
  induction cs with
  | nil => rfl
  | cons c cs ih =>
    unfold updateLoop
    unfold loopPanics at h
    cases hit : updateIteration env.offers r.instances c with
    | panic =>
      rw [hit] at h
      exact absurd trivial h
    | «continue» =>
      rw [hit] at h
      obtain ⟨_, hknown⟩ := updateIteration_eq_continue_iff.mp hit
      have hsame : missing r.instances ((c :: cs).filterMap (·.target env.offers)) =
          missing r.instances (cs.filterMap (·.target env.offers)) := by
        cases htarget : c.target env.offers with
        | none => rw [List.filterMap_cons_none htarget]
        | some y =>
          rw [List.filterMap_cons_some htarget]
          have hsome := Option.isSome_iff_exists.mp (hknown y.1 y.2 htarget)
          obtain ⟨x, hx⟩ := hsome
          unfold missing
          rw [List.filter_cons_of_neg]
          simp [targetId, hx]
      rw [hsame]
      exact ih h
    | found imageId containerId =>
      obtain ⟨htarget, hnone⟩ := updateIteration_eq_found_iff.mp hit
      have hhead : missing r.instances ((c :: cs).filterMap (·.target env.offers)) =
          (imageId, containerId) :: missing r.instances (cs.filterMap (·.target env.offers)) := by
        rw [List.filterMap_cons_some htarget]
        unfold missing
        rw [List.filter_cons_of_pos]
        simp [targetId, hnone]
      rw [hhead]
      cases env.pid containerId <;> rfl

end Registry

theorem Pod.Managed.handler {pod : Pod} (h : pod.Managed) :
    (PodEvent.update (.pod pod)).handler = some (.update pod pod.containerStatuses) := by
  simp [PodEvent.handler, onPodUpdate, h.phase, h.label]

/-- The loop that a handler stands at the head of will panic. -/
def CallbackPc.Doomed (programs : GoString → Option Program)
    (instances : GoString → Option Instance) : CallbackPc → Prop
  | .update _ rest => loopPanics (updateIteration programs instances) rest
  | .delete rest => loopPanics (deleteIteration programs instances) rest
  | _ => False

theorem doomed_iterate {programs programs' : GoString → Option Program}
    {instances : GoString → Option Instance} {pc pc' : CallbackPc}
    (hprog : ∀ v, (programs v).isSome = (programs' v).isSome)
    (hpc : pc.Doomed programs' instances)
    (h : pc.iterate programs instances = some (some pc')) : pc'.Doomed programs' instances := by
  unfold CallbackPc.iterate at h
  split at h
  · exact hpc.elim
  · rename_i pod c rest
    rw [(Registry.iteration_congr (c := c) hprog fun _ _ _ _ => rfl).1] at h
    simp only [CallbackPc.Doomed, loopPanics] at hpc
    cases hit : updateIteration programs' instances c with
    | panic =>
      rw [hit] at h
      cases h
    | «continue» =>
      rw [hit] at h hpc
      cases h
      exact hpc
    | found imageId containerId =>
      rw [hit] at hpc
      exact hpc.elim
  · exact hpc.elim
  · rename_i c rest
    rw [(Registry.iteration_congr (c := c) hprog fun _ _ _ _ => rfl).2] at h
    simp only [CallbackPc.Doomed, loopPanics] at hpc
    cases hit : deleteIteration programs' instances c with
    | panic =>
      rw [hit] at h
      cases h
    | «continue» =>
      rw [hit] at h hpc
      cases h
      exact hpc
    | found imageId containerId =>
      rw [hit] at hpc
      exact hpc.elim
  · cases h

namespace Runner

variable {ι : Type} [DecidableEq ι] {env : Env} {e : PodEvent} {s t u : Runner ι}

/-! ## A delivery in a run -/

/-- The run `as` delivers the event `e` and nothing else, handles it to completion, and every
operation on `clusters` succeeds; the lookups answer as `env` says. -/
structure Delivery (env : Env) (e : PodEvent) (as : List (Action ι)) (s t : Runner ι) : Prop where
  run : Trace.run step s as = some t
  event : as.filterMap Action.event = [e]
  orderly : Trace.Meets step (Orderly env) s as
  mapOk : ∀ a ∈ as, a.MapOk
  quiet : t.Quiet

/-- One handler is at work, and its loop will panic. -/
structure Dooms (env : Env) (i : ι) (s : Runner ι) : Prop where
  main : s.main.instance = none
  others : ∀ j, j ≠ i → s.callbacks j = .idle
  loop : (s.callbacks i).Doomed env.offers s.instances

theorem dooms_step {i : ι} {a : Action ι} (ho : s.Offers env) (hd : s.Dooms env i)
    (ha : a.event = none) (h : Step s a t) (ht : t.crashed = false) : t.Dooms env i := by
  have hcb : ∀ {j : ι} {pc : CallbackPc}, s.callbacks j = pc → pc ≠ .idle →
      ¬ pc.Doomed env.offers s.instances → False := by
    intro j pc hj hne hno
    rcases eq_or_ne j i with rfl | hji
    · exact hno (hj ▸ hd.loop)
    · exact hne (hj.symm.trans (hd.others j hji))
  have hmain : ∀ {x : Instance}, s.main.instance = some x → False := by
    intro x hx
    rw [hd.main] at hx
    cases hx
  cases h with
  | deliver _ _ | crashDeliver _ _ => cases ha
  | crashIterate _ | crashStore _ _ | crashSend _ => cases ht
  | @iterate j pc hit =>
    rcases eq_or_ne j i with rfl | hji
    · refine ⟨hd.main, fun k hk => ?_, ?_⟩
      · rw [setCallback_of_ne s hk]
        exact hd.others k hk
      · rw [setCallback_self]
        exact doomed_iterate ho.known hd.loop hit
    · rw [hd.others j hji] at hit
      cases hit
  | lookupErr hj | lookup hj | childErr hj | child hj | recvCh _ hj | recvLookupErr _ hj
  | recvDetachErr _ hj | lockDetach hj _ | deleteAbsent hj _ | delete hj _ _ | deleteErr hj _ =>
    exact (hcb hj (by simp) (by simp [CallbackPc.Doomed])).elim
  | lockAttach hm _ | store hm _ | update hm _ | updateErr hm | spawn hm =>
    exact (hmain (by rw [hm]; rfl)).elim
  | recvAttachErr _ _ _ | probe _ _ | mark _ _ | unattach _ _ _ | cancel =>
    exact ⟨hd.main, hd.others, hd.loop⟩
  | leave _ _ | deferCancel _ | deferWait _ _ | deferCloseCh _ | deferCloseErr _ =>
    exact ⟨rfl, hd.others, hd.loop⟩

omit [DecidableEq ι] in
/-- A run in which nothing is delivered. -/
theorem event_of_filterMap {as : List (Action ι)} (h : as.filterMap Action.event = [])
    {a : Action ι} (ha : a ∈ as) : a.event = none := List.filterMap_eq_nil_iff.mp h a ha

/-- What a run without a delivery keeps while a handler is at work. -/
theorem serves_quietly {as : List (Action ι)} {r : Registry} (ho : s.Offers env)
    (hs : Serves env s r) (hev : as.filterMap Action.event = []) (hok : ∀ a ∈ as, a.MapOk)
    (hg : Trace.Meets step (Orderly env) s as) (h : Trace.run step s as = some t)
    (ht : t.crashed = false) : t.Offers env ∧ Serves env t r := by
  induction as generalizing s with
  | nil =>
    obtain rfl : s = t := Option.some.inj h
    exact ⟨ho, hs⟩
  | cons a as ih =>
    obtain ⟨u, hu, hrun⟩ := Trace.run_cons_eq_some.mp h
    have hstep := (step_iff.mp hu).2
    have ha : a.event = none := event_of_filterMap hev List.mem_cons_self
    have hne : a ≠ .update false := by
      rintro rfl
      exact absurd (hok _ List.mem_cons_self) Bool.false_ne_true
    rw [List.filterMap_cons_none ha] at hev
    exact ih (offers_step ho hstep)
      (serves_step ho hs hne hg.1 ha hstep (alive_of_run hrun ht)) hev
      (fun b hb => hok b (List.mem_cons_of_mem a hb)) (hg.2 u hu) hrun

theorem dooms_deliver {i : ι} {pc : CallbackPc} (hq : s.Quiet) (hpc : e.handler = some pc)
    (hdoomed : pc.Doomed env.offers s.instances) (h : Step s (.deliver i e) t) :
    t.Dooms env i := by
  cases h with
  | deliver _ hh =>
    obtain rfl := Option.some.inj (hh.symm.trans hpc)
    refine ⟨?_, fun j hj => ?_, ?_⟩
    · show s.main.instance = none
      rw [hq.main]
      rfl
    · rw [setCallback_of_ne s hj]
      exact hq.idle j
    · rw [setCallback_self]
      exact hdoomed
  | crashDeliver _ hh =>
    rw [hpc] at hh
    cases hh

/-- A handler whose loop will panic never comes to its end. -/
theorem dooms_run {as : List (Action ι)} {i : ι} (ho : s.Offers env) (hd : s.Dooms env i)
    (hev : as.filterMap Action.event = []) (h : Trace.run step s as = some t)
    (ht : t.crashed = false) : t.Dooms env i := by
  induction as generalizing s with
  | nil =>
    obtain rfl : s = t := Option.some.inj h
    exact hd
  | cons a as ih =>
    obtain ⟨u, hu, hrun⟩ := Trace.run_cons_eq_some.mp h
    have hstep := (step_iff.mp hu).2
    have ha : a.event = none := event_of_filterMap hev List.mem_cons_self
    rw [List.filterMap_cons_none ha] at hev
    exact ih (offers_step ho hstep) (dooms_step ho hd ha hstep (alive_of_run hrun ht)) hev hrun

/-- The event is handled without a panic when it meets the registry `r`. -/
def Completes (env : Env) (r : Registry) (e : PodEvent) : Prop :=
  ∀ pc, e.handler = some pc → ¬ pc.Doomed env.offers r.instances

/-- **A delivery that is handled to completion** does to the registries what `handle` says, and its
loop does not panic. -/
theorem Delivery.regs {as : List (Action ι)} (h : Delivery env e as s t) (ho : s.Offers env)
    (hq : s.Quiet) : t.regs = s.regs.handle env e ∧ Completes env s.regs e := by
  obtain ⟨before, a, after, rfl, hbefore, ha, hafter⟩ := List.filterMap_eq_cons_iff.mp h.event
  cases a with
  | deliver i e' =>
    obtain rfl : e' = e := Option.some.inj ha
    obtain ⟨s₁, h₁, hrest⟩ := Trace.run_append_eq_some.mp h.run
    obtain ⟨s₂, h₂, h₃⟩ := Trace.run_cons_eq_some.mp hrest
    obtain ⟨hg₁, hg⟩ := Trace.meets_append.mp h.orderly
    obtain ⟨hq₁, hg₂⟩ := hg s₁ h₁
    have hok : ∀ b ∈ before ++ .deliver i e' :: after, b.MapOk := h.mapOk
    have halive := alive_of_run h₃ h.quiet.alive
    have hs : Serves env s s.regs := .main hq.idle (fun x hx => by
      rw [hq.main] at hx
      cases hx) (by rw [hq.main]; rfl)
    obtain ⟨ho₁, hs₁⟩ := serves_quietly ho hs (List.filterMap_eq_nil_iff.mpr hbefore)
      (fun b hb => hok b (List.mem_append_left _ hb)) hg₁ h₁ (alive_of_run hrest h.quiet.alive)
    have hstep := (step_iff.mp h₂).2
    have ho₂ := offers_step ho₁ hstep
    obtain ⟨_, hs₃⟩ := serves_quietly ho₂ (serves_deliver hs₁ hq₁ hstep halive) hafter
      (fun b hb => hok b (List.mem_append_right _ (List.mem_cons_of_mem _ hb))) (hg₂ s₂ h₂) h₃
      h.quiet.alive
    refine ⟨hs₃.quiet h.quiet, fun pc hpc hdoomed => ?_⟩
    rw [← hs₁.quiet hq₁] at hdoomed
    have hd : s₂.Dooms env i := dooms_deliver hq₁ hpc hdoomed hstep
    have hloop := (dooms_run ho₂ hd hafter h₃ h.quiet.alive).loop
    rw [h.quiet.idle i] at hloop
    exact hloop
  | _ => cases ha

/-! ## Many deliveries -/

variable {programs : List Program} {fails : Set GoString} {pod : Pod} {n : Nat}

/-- The event is delivered `n` times, each time handled to completion.  At each delivery the
lookups answer in any way, but those for the containers `fails` fail and the others succeed. -/
inductive Resync (programs : List Program) (fails : Set GoString) (e : PodEvent) :
    Nat → Runner ι → Runner ι → Prop where
  | zero (s : Runner ι) : Resync programs fails e 0 s s
  | succ {n : Nat} {s t u : Runner ι} {env : Env} {as : List (Action ι)} :
      Resync programs fails e n s t → env.programs = programs →
      (∀ containerId, env.pid containerId = none ↔ containerId ∈ fails) →
      Delivery env e as t u → Resync programs fails e (n + 1) s u

/-- **The resyncs have converged**: the eligible containers that can be looked up are registered,
nothing else that was not before, and no further delivery changes the registries. -/
structure Converged (programs : List Program) (fails : Set GoString) (pod : Pod)
    (s t : Runner ι) : Prop where
  kept : ∀ id x, s.instances id = some x → t.instances id = some x
  registered : ∀ y ∈ pod.targets programs, y.2 ∉ fails → (t.instances (targetId y)).isSome
  only : ∀ id x, t.instances id = some x → s.instances id = some x ∨
    ∃ y ∈ pod.targets programs, y.2 ∉ fails ∧ id = targetId y ∧
      ∃ pid, x = newInstance pod y.1 y.2 pid
  settled : ∀ n u, Resync programs fails (.update (.pod pod)) n t u →
    u.instances = t.instances ∧ u.clusters = t.clusters

/-- No further delivery finds a container that it can register. -/
def Stuck (fails : Set GoString) (ys : List (GoString × GoString)) : Prop :=
  ys = [] ∨ ∃ y rest, ys = y :: rest ∧ y.2 ∈ fails

theorem Stuck.head_mem {y : GoString × GoString} {rest : List (GoString × GoString)}
    (h : Stuck fails (y :: rest)) : y.2 ∈ fails := by
  rcases h with hnil | ⟨z, zs, hcons, hz⟩
  · cases hnil
  · obtain ⟨rfl, _⟩ := List.cons_eq_cons.mp hcons
    exact hz

theorem isSome_offered {y : GoString × GoString} (h : y ∈ pod.targets programs) :
    (offered programs y.1).isSome := by
  obtain ⟨c, _, htarget⟩ := List.mem_filterMap.mp h
  have hfound : updateIteration (offered programs) (fun _ => none) c = .found y.1 y.2 :=
    updateIteration_eq_found_iff.mpr ⟨htarget, rfl⟩
  exact (updateIteration_found hfound).2.2.1

/-- **One delivery** changes nothing, or registers the first missing container. -/
theorem Delivery.cases {as : List (Action ι)} (h : Delivery env (.update (.pod pod)) as s t)
    (hpod : pod.Managed) (ho : s.Offers env) (hq : s.Quiet) (hprog : env.programs = programs)
    (hfails : ∀ containerId, env.pid containerId = none ↔ containerId ∈ fails) :
    (Stuck fails (missing s.instances (pod.targets programs)) ∧ t.regs = s.regs) ∨
    ∃ y rest pid, missing s.instances (pod.targets programs) = y :: rest ∧ y.2 ∉ fails ∧
      t.instances =
        Function.update s.instances (targetId y) (some (newInstance pod y.1 y.2 pid)) := by
  obtain ⟨hregs, hcompletes⟩ := h.regs ho hq
  have hoffers : env.offers = offered programs := by rw [← hprog]; rfl
  have hloop : s.regs.handle env (.update (.pod pod)) =
      s.regs.updateLoop env pod pod.containerStatuses := by
    simp [Registry.handle, hpod.handler, Registry.finish]
  rw [hloop, Registry.updateLoop_eq pod (hcompletes _ hpod.handler), hoffers] at hregs
  have hregister : t.regs =
      s.regs.register env pod (missing s.instances (pod.targets programs)) := hregs
  cases hmissing : missing s.instances (pod.targets programs) with
  | nil =>
    rw [hmissing] at hregister
    exact Or.inl ⟨Or.inl rfl, hregister⟩
  | cons y rest =>
    rw [hmissing] at hregister
    cases hpid : env.pid y.2 with
    | none =>
      simp only [Registry.register, hpid] at hregister
      exact Or.inl ⟨Or.inr ⟨y, rest, rfl, (hfails y.2).mp hpid⟩, hregister⟩
    | some pid =>
      have hsuccess : y.2 ∉ fails := fun hf => by
        rw [(hfails y.2).mpr hf] at hpid
        cases hpid
      have hy : y ∈ missing s.instances (pod.targets programs) := by
        rw [hmissing]
        exact List.mem_cons_self
      obtain ⟨p, hp⟩ := Option.isSome_iff_exists.mp (isSome_offered (mem_missing.mp hy).1)
      have hattach : s.regs.attach env (newInstance pod y.1 y.2 pid) =
          s.regs.set (targetId y) (newInstance pod y.1 y.2 pid).pidKey
            (some (newInstance pod y.1 y.2 pid))
            (some (bpfCluster (newInstance pod y.1 y.2 pid) p)) := by
        unfold Registry.attach
        rw [hoffers, show (newInstance pod y.1 y.2 pid).version = y.1 from rfl, hp]
        rfl
      simp only [Registry.register, hpid, hattach] at hregister
      exact Or.inr ⟨y, rest, pid, rfl, hsuccess, congrArg Registry.instances hregister⟩

theorem offers_run {as : List (Action ι)} (ho : s.Offers env)
    (h : Trace.run step s as = some t) : t.Offers env :=
  Trace.run_invariant (I := fun s : Runner ι => s.Offers env)
    (fun _ _ _ hi hstep => offers_step hi (step_iff.mp hstep).2) ho h

/-- What `n` deliveries have done: they have registered containers from the front of those that
were missing, `n` of them unless they are stuck. -/
structure Progress (programs : List Program) (fails : Set GoString) (pod : Pod) (n : Nat)
    (s t : Runner ι) (done : List (GoString × GoString)) : Prop where
  split : missing s.instances (pod.targets programs) =
    done ++ missing t.instances (pod.targets programs)
  success : ∀ y ∈ done, y.2 ∉ fails
  enough : n ≤ done.length ∨ Stuck fails (missing t.instances (pod.targets programs))
  kept : ∀ id x, s.instances id = some x → t.instances id = some x
  only : ∀ id x, t.instances id = some x → s.instances id = some x ∨
    ∃ y ∈ done, id = targetId y ∧ ∃ pid, x = newInstance pod y.1 y.2 pid

/-- A runner at rest with the given programs. -/
structure Ready (programs : List Program) (s : Runner ι) : Prop where
  quiet : s.Quiet
  offers : ∀ env : Env, env.programs = programs → s.Offers env

theorem Ready.deliver {as : List (Action ι)} (hs : s.Ready programs)
    (h : Delivery env e as s t) : t.Ready programs :=
  ⟨h.quiet, fun env' henv => offers_run (hs.offers env' henv) h.run⟩

theorem Ready.resync (hs : s.Ready programs) (h : Resync programs fails e n s t) :
    t.Ready programs := by
  induction h with
  | zero => exact hs
  | succ _ _ _ hdel ih => exact (ih hs).deliver hdel

omit [DecidableEq ι] in
/-- A delivery that is stuck. -/
theorem Progress.stay {done : List (GoString × GoString)}
    (hp : Progress programs fails pod n s t done)
    (hstuck : Stuck fails (missing t.instances (pod.targets programs)))
    (hin : u.instances = t.instances) : Progress programs fails pod (n + 1) s u done := by
  refine ⟨?_, hp.success, Or.inr ?_, ?_, ?_⟩
  · rw [hin]
    exact hp.split
  · rw [hin]
    exact hstuck
  · rw [hin]
    exact hp.kept
  · rw [hin]
    exact hp.only

omit [DecidableEq ι] in
/-- A delivery that registers the first missing container. -/
theorem Progress.register {done rest : List (GoString × GoString)} {y : GoString × GoString}
    {pid : Int} (hp : Progress programs fails pod n s t done)
    (hnodup : ((pod.targets programs).map targetId).Nodup)
    (hmissing : missing t.instances (pod.targets programs) = y :: rest) (hy : y.2 ∉ fails)
    (hin : u.instances =
      Function.update t.instances (targetId y) (some (newInstance pod y.1 y.2 pid))) :
    Progress programs fails pod (n + 1) s u (done ++ [y]) := by
  have hrest : missing u.instances (pod.targets programs) = rest := by
    rw [hin]
    exact missing_update hnodup hmissing _
  have hnone : t.instances (targetId y) = none :=
    (mem_missing.mp (hmissing ▸ List.mem_cons_self : y ∈ missing t.instances _)).2
  refine ⟨?_, ?_, ?_, fun id x hx => ?_, fun id x hx => ?_⟩
  · rw [hp.split, hmissing, hrest, List.append_assoc, List.singleton_append]
  · intro z hz
    rcases List.mem_append.mp hz with hz | hz
    · exact hp.success z hz
    · rw [List.mem_singleton.mp hz]
      exact hy
  · rcases hp.enough with hlen | hstuck
    · apply Or.inl
      simp
      omega
    · rw [hmissing] at hstuck
      exact absurd hstuck.head_mem hy
  · have hne : id ≠ targetId y := by
      rintro rfl
      rw [hp.kept _ _ hx] at hnone
      cases hnone
    rw [hin, Function.update_of_ne hne]
    exact hp.kept id x hx
  · rw [hin] at hx
    rcases eq_or_ne id (targetId y) with rfl | hne
    · rw [Function.update_self] at hx
      exact Or.inr ⟨y, by simp, rfl, pid, (Option.some.inj hx).symm⟩
    · rw [Function.update_of_ne hne] at hx
      rcases hp.only id x hx with hold | ⟨z, hz, hid, hinst⟩
      · exact Or.inl hold
      · exact Or.inr ⟨z, List.mem_append_left _ hz, hid, hinst⟩

/-- **One delivery more** is progress, whether or not it is stuck. -/
theorem Progress.deliver {as : List (Action ι)} {done : List (GoString × GoString)}
    (hp : Progress programs fails pod n s t done) (hpod : pod.Managed)
    (hnodup : ((pod.targets programs).map targetId).Nodup) (ht : t.Ready programs)
    (henv : env.programs = programs)
    (hfails : ∀ containerId, env.pid containerId = none ↔ containerId ∈ fails)
    (h : Delivery env (.update (.pod pod)) as t u) :
    ∃ done', Progress programs fails pod (n + 1) s u done' := by
  rcases h.cases hpod (ht.offers env henv) ht.quiet henv hfails with
    ⟨hstuck, hregs⟩ | ⟨y, rest, pid, hmissing, hy, hin⟩
  · exact ⟨done, hp.stay hstuck (congrArg Registry.instances hregs)⟩
  · exact ⟨done ++ [y], hp.register hnodup hmissing hy hin⟩

theorem exists_progress (hpod : pod.Managed)
    (hnodup : ((pod.targets programs).map targetId).Nodup) (hs : s.Ready programs)
    (h : Resync programs fails (.update (.pod pod)) n s t) :
    ∃ done, Progress programs fails pod n s t done := by
  induction h with
  | zero s =>
    exact ⟨[], rfl, by simp, Or.inl (Nat.zero_le _), fun _ _ hx => hx, fun _ _ hx => Or.inl hx⟩
  | succ hprev henv hfails hdel ih =>
    obtain ⟨done, hp⟩ := ih hs
    exact hp.deliver hpod hnodup (hs.resync hprev) henv hfails hdel

/-- Where the deliveries are stuck, none changes the registries. -/
theorem settled_of_stuck (hpod : pod.Managed) (hs : s.Ready programs)
    (hstuck : Stuck fails (missing s.instances (pod.targets programs)))
    (h : Resync programs fails (.update (.pod pod)) n s t) : t.regs = s.regs := by
  induction h with
  | zero => rfl
  | @succ n s t u env as hprev henv hfails hdel ih =>
    have ht := hs.resync hprev
    have hregs := ih hs hstuck
    have hin : t.instances = s.instances := congrArg Registry.instances hregs
    rcases hdel.cases hpod (ht.offers env henv) ht.quiet henv hfails with
      ⟨_, hsame⟩ | ⟨y, rest, _, hmissing, hy, _⟩
    · exact hsame.trans hregs
    · rw [hin] at hmissing
      rw [hmissing] at hstuck
      exact absurd hstuck.head_mem hy

/-- **Resyncs converge** exactly if no container that can be looked up stands behind one whose
lookups fail, among the eligible containers that are not registered at first. -/
theorem resyncs_converge_iff {as : List (Action ι)}
    (hreach : Trace.run step (init programs) as = some s) (hq : s.Quiet) (hpod : pod.Managed)
    (hnodup : ((pod.targets programs).map targetId).Nodup)
    (h : Resync programs fails (.update (.pod pod)) (pod.targets programs).length s t) :
    Converged programs fails pod s t ↔
      (missing s.instances (pod.targets programs)).Pairwise
        (fun y z => y.2 ∈ fails → z.2 ∈ fails) := by
  have hs : s.Ready programs := by
    refine ⟨hq, fun env henv => offers_run ?_ hreach⟩
    subst henv
    exact ⟨fun _ => rfl, fun _ => rfl⟩
  obtain ⟨done, hp⟩ := exists_progress hpod hnodup hs h
  have hstuck : Stuck fails (missing t.instances (pod.targets programs)) := by
    rcases hp.enough with hlen | hstuck
    · have hle : (missing s.instances (pod.targets programs)).length ≤
          (pod.targets programs).length := List.length_filter_le _ _
      rw [hp.split, List.length_append] at hle
      exact Or.inl (List.eq_nil_of_length_eq_zero (by omega))
    · exact hstuck
  rw [hp.split, pairwise_iff_of_append hp.success hstuck]
  constructor
  · intro hc y hy
    obtain ⟨hmem, hnone⟩ := mem_missing.mp hy
    by_contra hf
    have hsome := hc.registered y hmem hf
    rw [hnone] at hsome
    cases hsome
  · intro hall
    have hdone : ∀ y ∈ done, y ∈ pod.targets programs := fun y hy =>
      (mem_missing.mp (hp.split ▸ List.mem_append_left _ hy : y ∈ missing s.instances _)).1
    refine ⟨hp.kept, fun y hy hf => ?_, fun id x hx => ?_, fun n u hu => ?_⟩
    · apply Option.isSome_iff_ne_none.mpr
      intro hnone
      exact hf (hall y (mem_missing.mpr ⟨hy, hnone⟩))
    · rcases hp.only id x hx with hold | ⟨y, hy, hid, hinst⟩
      · exact Or.inl hold
      · exact Or.inr ⟨y, hdone y hy, hp.success y hy, hid, hinst⟩
    · have hregs := settled_of_stuck hpod (hs.resync h) hstuck hu
      exact ⟨congrArg Registry.instances hregs,
        BoundedMap.ext fun k => congrFun (congrArg Registry.clusters hregs) k⟩

/-! ## Two containers -/

/-- Only the container with this id can be looked up, with pid 10. -/
def onlyPid (id : GoString) : Env where
  programs := [percona5734]
  cri := fun c => if c = id then some 10 else none
  child := fun c => if c = id then some 10 else none

/-- The containers that cannot be looked up. -/
def failing (env : Env) : Set GoString := { c | env.pid c = none }

/-- The first missing container is registered. -/
def resyncRegisters : List (Action Unit) :=
  .deliver () (.update (.pod twoContainers)) :: .iterate () :: registerActs 10

/-- The first container is registered, the lookups for the second one fail. -/
def resyncPasses : List (Action Unit) :=
  [.deliver () (.update (.pod twoContainers)), .iterate (), .iterate (), .lookup () none,
    .recvErr (.callback ())]

/-- The lookups for the first container fail. -/
def resyncFails : List (Action Unit) :=
  [.deliver () (.update (.pod twoContainers)), .iterate (), .lookup () none,
    .recvErr (.callback ())]

theorem twoContainers_targets : twoContainers.targets [percona5734] =
    [(PerconaServer5734, lit ['9', 'f']), (PerconaServer5734, lit ['8', 'e'])] := by
  decide +kernel

theorem twoContainers_managed : twoContainers.Managed := ⟨rfl, by decide⟩

/-- A run of two deliveries, with the same lookups. -/
theorem resync_two (env : Env) (e : PodEvent) (as as' : List (Action Unit)) {s t : Runner Unit}
    (hrun : Trace.run step s (as ++ as') = some t) (ht : t.Quiet)
    (hmiddle : (Trace.run step s as).any (fun u => decide u.Quiet) = true)
    (hev : as.filterMap Action.event = [e] ∧ as'.filterMap Action.event = [e])
    (hg : Trace.Meets step (Orderly env) s (as ++ as')) (hok : ∀ a ∈ as ++ as', a.MapOk) :
    Resync env.programs (failing env) e 2 s t := by
  obtain ⟨u, hu, huq⟩ := (Option.any_eq_true ..).mp hmiddle
  obtain ⟨hg₁, hg₂⟩ := Trace.meets_append.mp hg
  rw [Trace.run_append_of_eq hu] at hrun
  have h₁ : Delivery env e as s u :=
    ⟨hu, hev.1, hg₁, fun a ha => hok a (List.mem_append_left _ ha), of_decide_eq_true huq⟩
  have h₂ : Delivery env e as' u t :=
    ⟨hrun, hev.2, hg₂ u hu, fun a ha => hok a (List.mem_append_right _ ha), ht⟩
  exact ((Resync.zero s).succ rfl (fun _ => Iff.rfl) h₁).succ rfl (fun _ => Iff.rfl) h₂

theorem quiet_init : (init [percona5734] : Runner Unit).Quiet := ⟨rfl, fun _ => rfl, rfl⟩

theorem nodup_twoContainers : ((twoContainers.targets [percona5734]).map targetId).Nodup := by
  rw [twoContainers_targets]
  decide

theorem resyncs_converge_twoContainers : ∃ t : Runner Unit,
    Trace.run step (init [percona5734]) (resyncRegisters ++ resyncPasses) = some t ∧
    Converged [percona5734] (failing (onlyPid (lit ['9', 'f']))) twoContainers
      (init [percona5734]) t := by
  have hrun : (Trace.run step (init [percona5734]) (resyncRegisters ++ resyncPasses)).any
      (fun t => decide t.Quiet) = true := by decide +kernel
  obtain ⟨t, ht, htq⟩ := (Option.any_eq_true ..).mp hrun
  have htwo := resync_two (onlyPid (lit ['9', 'f'])) (.update (.pod twoContainers))
    resyncRegisters resyncPasses ht (of_decide_eq_true htq) (by decide +kernel) (by decide +kernel)
    (by decide +kernel) (by decide +kernel)
  have hresync : Resync [percona5734] (failing (onlyPid (lit ['9', 'f'])))
      (.update (.pod twoContainers)) (twoContainers.targets [percona5734]).length
      (init [percona5734]) t := by
    rw [twoContainers_targets]
    exact htwo
  refine ⟨t, ht, (resyncs_converge_iff (Trace.run_nil _) quiet_init twoContainers_managed
    nodup_twoContainers hresync).mpr ?_⟩
  rw [twoContainers_targets]
  apply List.pairwise_pair.mpr
  intro hf
  cases hf

/-- **A container whose lookups fail keeps those behind it out**, however often the update is
delivered. -/
theorem resync_stuck : ¬ ∀ (as : List (Action Unit)) (s t : Runner Unit) (pod : Pod)
    (fails : Set GoString), Trace.run step (init [percona5734]) as = some s → s.Quiet →
      pod.Managed → ((pod.targets [percona5734]).map targetId).Nodup →
      Resync [percona5734] fails (.update (.pod pod)) (pod.targets [percona5734]).length s t →
      Converged [percona5734] fails pod s t := by
  intro hall
  have hobs : (Trace.run step (init [percona5734]) (resyncFails ++ resyncFails)).map
      (fun t => (decide t.Quiet, t.instances (instanceId PerconaServer5734 (lit ['8', 'e'])))) =
        some (true, none) := by decide +kernel
  obtain ⟨t, ht, heq⟩ := Option.map_eq_some_iff.mp hobs
  simp only [Prod.mk.injEq] at heq
  have htwo := resync_two (onlyPid (lit ['8', 'e'])) (.update (.pod twoContainers))
    resyncFails resyncFails ht (of_decide_eq_true heq.1) (by decide +kernel) (by decide +kernel)
    (by decide +kernel) (by decide +kernel)
  have hresync : Resync [percona5734] (failing (onlyPid (lit ['8', 'e'])))
      (.update (.pod twoContainers)) (twoContainers.targets [percona5734]).length
      (init [percona5734]) t := by
    rw [twoContainers_targets]
    exact htwo
  have hc := hall [] _ t twoContainers _ rfl quiet_init twoContainers_managed nodup_twoContainers
    hresync
  have hmem : (PerconaServer5734, lit ['8', 'e']) ∈ twoContainers.targets [percona5734] := by
    rw [twoContainers_targets]
    simp
  have hsome := hc.registered _ hmem (fun hf => by cases hf)
  rw [show targetId _ = instanceId PerconaServer5734 (lit ['8', 'e']) from rfl, heq.2] at hsome
  cases hsome

end Runner

end EDGuard
