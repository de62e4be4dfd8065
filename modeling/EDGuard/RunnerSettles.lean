import EDGuard.RunnerProgress
import EDGuard.RunnerStop
import EDGuard.PumpDelivery
import EDGuard.Lib.Settling

/-!
# The work of the runner

* `run_bounded` — **the runner never spins**: the length of a run is bounded by the containers of
  the events that were delivered in it.
* `stuck_cases` — where none of its goroutines can go on, a runner that was not told to stop has
  crashed, is at rest, or is in one of two deadlocks.
* `runner_settles` — **so left to itself it ends there**, in any order of its steps.
* `stuck_iff_atRest` — **at rest**, when every step has met `OpsFine` and nothing has crashed.
-/

set_option autoImplicit false

namespace EDGuard

/-- The steps left to a handler, each with what it hands over to the main loop. -/
def CallbackPc.work : CallbackPc → Nat
  | .idle => 0
  | .update _ rest => rest.length + 13
  | .lookup .. => 12
  | .child .. => 11
  | .add _ => 10
  | .delete rest => rest.length + 4
  | .detachLock _ => 3
  | .detachBody _ => 2
  | .detachErr | .sendErr => 1

/-- The steps left to the main loop, the way out of `Start` included. -/
def MainPc.work : MainPc → Nat
  | .attachLock _ => 14
  | .attachBody _ => 13
  | .attachUpdate .. => 12
  | .attachSpawn _ => 11
  | .attachErr _ | .select => 5
  | .deferCancel => 4
  | .deferWait => 3
  | .deferCloseCh => 2
  | .deferCloseErr => 1
  | .exited => 0

/-- The steps left to an attach goroutine. -/
def AttachPc.work : AttachPc → Nat
  | .open => 5
  | .uprobe => 4
  | .uretprobe => 3
  | .mark => 2
  | .wait | .sendErr => 1
  | .done => 0

/-- What an event makes a handler do. -/
def PodEvent.work (e : PodEvent) : Nat :=
  match e with
  | .create (.pod pod) | .update (.pod pod) | .delete (.pod pod) =>
    pod.containerStatuses.length + 14
  | _ => 1

theorem handler_work {e : PodEvent} {pc : CallbackPc} (h : e.handler = some pc) :
    pc.work + 1 ≤ e.work := by
  have hupdate : ∀ {obj : Obj}, onPodUpdate obj = some pc →
      ∃ pod, obj = .pod pod ∧ pc.work + 1 ≤ pod.containerStatuses.length + 14 := by
    intro obj hobj
    unfold onPodUpdate at hobj
    split at hobj
    · cases hobj
    · rename_i pod
      refine ⟨pod, rfl, ?_⟩
      split at hobj
      · cases hobj
        simp [CallbackPc.work]
      · split at hobj
        · cases hobj
          simp [CallbackPc.work]
        · cases hobj
          simp [CallbackPc.work]
  cases e with
  | create obj =>
    obtain ⟨pod, rfl, hle⟩ := hupdate h
    exact hle
  | update obj =>
    obtain ⟨pod, rfl, hle⟩ := hupdate h
    exact hle
  | delete obj =>
    cases obj with
    | pod pod =>
      cases h
      simp only [CallbackPc.work, PodEvent.work]
      omega
    | deletedFinalStateUnknown => cases h

theorem iterate_work {programs : GoString → Option Program}
    {instances : GoString → Option Instance} {pc pc' : CallbackPc}
    (h : pc.iterate programs instances = some (some pc')) : pc'.work + 1 ≤ pc.work := by
  rcases iterate_cases h with ⟨rfl, ⟨pod, rfl⟩ | rfl⟩ | ⟨pod, c, rest, rfl, rfl⟩ |
    ⟨pod, c, rest, imageId, containerId, rfl, _, rfl⟩ | ⟨c, rest, rfl, rfl⟩ |
    ⟨c, rest, imageId, containerId, rfl, _, rfl⟩ <;>
  · simp only [CallbackPc.work, List.length_cons, List.length_nil]
    omega

theorem AttachPc.probe_work {pc pc' : AttachPc} {ok : Bool} (h : pc.probe ok = some pc') :
    pc'.work + 1 ≤ pc.work := by
  cases pc <;> cases ok <;> cases h <;> decide

namespace Runner

variable {ι : Type}

section

variable [DecidableEq ι] [Fintype ι]

/-- The steps left to the runner. -/
def work (s : Runner ι) : Nat :=
  (if s.crashed then 0 else 1) + ∑ i, (s.callbacks i).work + s.main.work +
    (s.attachers.map fun a => a.pc.work).sum

/-- The work that the environment causes. -/
def Action.causes : Action ι → Nat
  | .deliver _ e => e.work
  | .cancel => 1
  | _ => 0

theorem work_setCallback (s : Runner ι) (i : ι) (pc : CallbackPc) :
    ∑ j, ((s.setCallback i pc).callbacks j).work + (s.callbacks i).work =
      ∑ j, (s.callbacks j).work + pc.work :=
  sum_update_add CallbackPc.work s.callbacks i pc

omit [DecidableEq ι] [Fintype ι] in
theorem work_setAttacher {s : Runner ι} {k : Nat} {a : Attacher} (ha : s.attachers[k]? = some a)
    (b : Attacher) :
    ((s.setAttacher k b).attachers.map fun a => a.pc.work).sum + a.pc.work =
      (s.attachers.map fun a => a.pc.work).sum + b.pc.work :=
  sum_map_set (fun a => a.pc.work) b ha

/-- A step of a handler. -/
theorem Work.callback {s t : Runner ι} {i : ι} {pc : CallbackPc} {gain : Nat}
    (hpc : pc.work + 1 ≤ (s.callbacks i).work + gain) (hcrashed : t.crashed = s.crashed)
    (hcb : t.callbacks = (s.setCallback i pc).callbacks) (hmain : t.main = s.main)
    (hatt : t.attachers = s.attachers) : t.work + 1 ≤ s.work + gain := by
  have hsum := work_setCallback s i pc
  unfold work
  rw [hcrashed, hcb, hmain, hatt]
  omega

omit [DecidableEq ι] in
/-- A step of the main loop. -/
theorem Work.main {s t : Runner ι} (hpc : t.main.work + 1 ≤ s.main.work)
    (hcrashed : t.crashed = s.crashed) (hcb : t.callbacks = s.callbacks)
    (hatt : t.attachers = s.attachers) : t.work + 1 ≤ s.work := by
  unfold work
  rw [hcrashed, hcb, hatt]
  omega

omit [DecidableEq ι] in
/-- A step of an attach goroutine. -/
theorem Work.attacher {s t : Runner ι} {k : Nat} {a : Attacher} {pc : AttachPc}
    (ha : s.attachers[k]? = some a) (hpc : pc.work + 1 ≤ a.pc.work)
    (hcrashed : t.crashed = s.crashed) (hcb : t.callbacks = s.callbacks) (hmain : t.main = s.main)
    (hatt : t.attachers = (s.setAttacher k { a with pc := pc }).attachers) :
    t.work + 1 ≤ s.work := by
  have hsum := work_setAttacher ha { a with pc := pc }
  unfold work
  rw [hcrashed, hcb, hmain, hatt]
  simp only at hsum
  omega

omit [DecidableEq ι] in
/-- A panic. -/
theorem Work.crash {s : Runner ι} (hc : s.crashed = false) :
    ({ s with crashed := true } : Runner ι).work + 1 ≤ s.work := by
  unfold work
  simp only [hc, Bool.false_eq_true, ↓reduceIte]
  omega

/-- **Every step takes one off the work.** -/
theorem work_step {s t : Runner ι} {a : Action ι} (h : step s a = some t) :
    t.work + 1 ≤ s.work + a.causes := by
  obtain ⟨hc, hstep⟩ := step_iff.mp h
  cases hstep with
  | @deliver i e pc hidle hh =>
    refine Work.callback ?_ rfl rfl rfl rfl
    rw [hidle]
    exact (handler_work hh).trans (Nat.le_add_left _ _)
  | iterate hit => exact Work.callback (iterate_work hit) rfl rfl rfl rfl
  | lookupErr hcb | lookup hcb | childErr hcb | child hcb =>
    refine Work.callback ?_ rfl rfl rfl rfl
    rw [hcb]
    simp [CallbackPc.work, Action.causes]
  | recvLookupErr _ hcb | recvDetachErr _ hcb =>
    refine Work.callback ?_ rfl rfl rfl rfl
    rw [hcb]
    exact Nat.le_refl _
  | lockDetach hcb _ | deleteAbsent hcb _ | delete hcb _ _ | deleteErr hcb _ =>
    refine Work.callback ?_ rfl rfl rfl rfl
    rw [hcb]
    simp [CallbackPc.work, Action.causes]
  | @recvCh i x hmain hcb =>
    -- the handler hands its instance over to the main loop
    have hsum := work_setCallback s i .idle
    have hadd : (s.callbacks i).work = 10 := by rw [hcb]; rfl
    have hidle : CallbackPc.idle.work = 0 := rfl
    rw [hadd, hidle] at hsum
    show (if s.crashed then 0 else 1) + ∑ j, ((s.setCallback i .idle).callbacks j).work + 14 +
      (s.attachers.map fun a => a.pc.work).sum + 1 ≤ s.work
    simp only [work, hmain, MainPc.work]
    omega
  | recvAttachErr _ ha hpc =>
    exact Work.attacher ha (by rw [hpc]; exact Nat.le_refl _) rfl rfl rfl rfl
  | lockAttach hmain _ | store hmain _ | update hmain _ | updateErr hmain =>
    refine Work.main ?_ rfl rfl rfl
    rw [hmain]
    simp [MainPc.work]
  | @spawn x hmain =>
    have hatt : ((if (s.bpfPrograms x.version).any fun p => !p.attached then
        s.attachers ++ [⟨x.pid, x.version, .open⟩] else s.attachers).map fun a => a.pc.work).sum ≤
          (s.attachers.map fun a => a.pc.work).sum + 5 := by
      split
      · rw [List.map_append, List.sum_append]
        exact Nat.le_refl _
      · exact Nat.le_add_right _ _
    simp only [work, hmain, MainPc.work, Action.causes]
    omega
  | probe ha hpc => exact Work.attacher ha (AttachPc.probe_work hpc) rfl rfl rfl rfl
  | mark ha hpc => exact Work.attacher ha (by rw [hpc]; exact Nat.le_refl _) rfl rfl rfl rfl
  | unattach ha hpc _ => exact Work.attacher ha (by rw [hpc]; exact Nat.le_refl _) rfl rfl rfl rfl
  | cancel => exact Nat.le_refl _
  | leave hmain _ | deferCancel hmain | deferWait hmain _ | deferCloseCh hmain
  | deferCloseErr hmain =>
    refine Work.main ?_ rfl rfl rfl
    rw [hmain]
    exact Nat.le_refl _
  | crashDeliver _ _ => exact (Work.crash hc).trans (Nat.le_add_right _ _)
  | crashIterate _ | crashStore _ _ | crashSend _ => exact Work.crash hc

theorem work_potential : Trace.Potential (step (ι := ι)) (fun _ => True) (fun _ _ => True) work
    Action.causes where
  inv := fun _ _ _ _ _ _ => trivial
  uses := fun _ _ _ _ _ h => work_step h

/-- **The runner never spins.** A run is no longer than six steps and, for each event that was
delivered in it, fourteen steps and one for each container of its pod; a cancellation is one
step. -/
theorem run_bounded (programs : List Program) (as : List (Action ι)) (s : Runner ι)
    (h : Trace.run step (init programs) as = some s) :
    as.length ≤ 6 + (as.map Action.causes).sum := by
  have hinit : (init programs : Runner ι).work = 6 := by
    simp [work, init, CallbackPc.work, MainPc.work]
  have hlen := work_potential.length_le trivial (Trace.meets_of_forall fun _ _ => trivial) h
  omega

theorem run_bounded_registering : ∃ s : Runner Unit,
    Trace.run step (init [percona5734]) registering = some s ∧
    registering.length ≤ 6 + (registering.map Action.causes).sum := by
  have hobs : (Trace.run step (init [percona5734]) registering).isSome := by decide +kernel
  obtain ⟨s, hs⟩ := Option.isSome_iff_exists.mp hobs
  exact ⟨s, hs, run_bounded _ registering s hs⟩

end

/-! ## Where nobody can go on -/

/-- Every handler has returned and the main loop waits for the next instance. -/
structure AtRest (s : Runner ι) : Prop where
  main : s.main = .select
  mu : s.mu = none
  callbacks : ∀ i, s.callbacks i = .idle
  attachers : ∀ a ∈ s.attachers, a.pc = .wait ∨ a.pc = .done

/-- The main loop waits for itself after a failed `clusters.Update`, or for a handler that waits for
it after a failed `clusters.Delete`. -/
def Deadlocked (s : Runner ι) : Prop :=
  (∃ t, s.main = .attachErr t) ∨ ∃ t i, s.main = .attachLock t ∧ s.callbacks i = .detachErr

section

variable [DecidableEq ι] {s : Runner ι}

theorem not_stuck (hc : s.crashed = false) (hstuck : Trace.Stuck step (fun _ a => a.Own) s)
    {a : Action ι} {t : Runner ι} (h : Step s a t) (ha : a.Own) : False := by
  have hsome := step_iff.mpr ⟨hc, h⟩
  rw [hstuck a ha] at hsome
  cases hsome

/-- A handler that holds `r.mu` can go on, or sends an error. -/
theorem holder_stuck (hl : s.Locked) (hc : s.crashed = false)
    (hstuck : Trace.Stuck step (fun _ a => a.Own) s) {i : ι} (hmu : s.mu = some (.callback i)) :
    s.callbacks i = .detachErr := by
  have hsec := (hl.callback i).mpr hmu
  cases hcb : s.callbacks i with
  | detachErr => rfl
  | detachBody id =>
    cases hx : s.instances id with
    | none => exact (not_stuck hc hstuck (a := .delete i true) (.deleteAbsent hcb hx) trivial).elim
    | some x => exact (not_stuck hc hstuck (Step.deleteErr hcb hx) trivial).elim
  | _ =>
    rw [hcb] at hsec
    cases hsec

/-- At the head of its loop a handler can go on. -/
theorem iterate_enabled {programs : GoString → Option Program}
    {instances : GoString → Option Instance} {pc : CallbackPc}
    (h : (∃ pod rest, pc = .update pod rest) ∨ ∃ rest, pc = .delete rest) :
    ∃ r, pc.iterate programs instances = some r := by
  rcases h with ⟨pod, rest, rfl⟩ | ⟨rest, rfl⟩
  · cases rest with
    | nil => exact ⟨_, rfl⟩
    | cons c rest =>
      simp only [CallbackPc.iterate]
      cases updateIteration programs instances c <;> exact ⟨_, rfl⟩
  · cases rest with
    | nil => exact ⟨_, rfl⟩
    | cons c rest =>
      simp only [CallbackPc.iterate]
      cases deleteIteration programs instances c <;> exact ⟨_, rfl⟩

theorem not_looping (hc : s.crashed = false) (hstuck : Trace.Stuck step (fun _ a => a.Own) s)
    {i : ι} (h : (∃ pod rest, s.callbacks i = .update pod rest) ∨
      ∃ rest, s.callbacks i = .delete rest) : False := by
  obtain ⟨r, hr⟩ : ∃ r, (s.callbacks i).iterate s.bpfPrograms s.instances = some r :=
    iterate_enabled h
  cases r with
  | none => exact not_stuck hc hstuck (Step.crashIterate hr) trivial
  | some pc => exact not_stuck hc hstuck (Step.iterate hr) trivial

theorem idle_of_stuck (hl : s.Locked) (hc : s.crashed = false)
    (hstuck : Trace.Stuck step (fun _ a => a.Own) s) (hmain : s.main = .select) :
    s.mu = none ∧ ∀ i, s.callbacks i = .idle := by
  have herr : ∀ i, s.callbacks i ≠ .detachErr := fun i hcb =>
    not_stuck hc hstuck (Step.recvDetachErr hmain hcb) trivial
  have hmu : s.mu = none := by
    cases hmu : s.mu with
    | none => rfl
    | some p =>
      cases p with
      | main =>
        have hsec := hl.main.mpr hmu
        rw [hmain] at hsec
        cases hsec
      | callback i => exact absurd (holder_stuck hl hc hstuck hmu) (herr i)
      | attacher k => exact absurd hmu (hl.attacher k)
  refine ⟨hmu, fun i => ?_⟩
  cases hcb : s.callbacks i with
  | idle => rfl
  | update pod rest => exact (not_looping hc hstuck (Or.inl ⟨pod, rest, hcb⟩)).elim
  | delete rest => exact (not_looping hc hstuck (Or.inr ⟨rest, hcb⟩)).elim
  | lookup pod imageId containerId =>
    exact (not_stuck hc hstuck (Step.lookupErr hcb) trivial).elim
  | child pod imageId containerId pid =>
    exact (not_stuck hc hstuck (Step.childErr hcb) trivial).elim
  | sendErr => exact (not_stuck hc hstuck (Step.recvLookupErr hmain hcb) trivial).elim
  | add x => exact (not_stuck hc hstuck (Step.recvCh hmain hcb) trivial).elim
  | detachLock id => exact (not_stuck hc hstuck (Step.lockDetach hcb hmu) trivial).elim
  | detachBody id =>
    have hheld := (hl.callback i).mp (by rw [hcb]; rfl)
    rw [hmu] at hheld
    cases hheld
  | detachErr => exact absurd hcb (herr i)

theorem attachers_of_stuck (hc : s.crashed = false)
    (hstuck : Trace.Stuck step (fun _ a => a.Own) s) (hmain : s.main = .select) :
    ∀ a ∈ s.attachers, a.pc = .wait ∨ a.pc = .done := by
  intro a ha
  obtain ⟨k, hk⟩ := List.mem_iff_getElem?.mp ha
  cases hpc : a.pc with
  | wait => exact Or.inl rfl
  | done => exact Or.inr rfl
  | «open» =>
    exact (not_stuck hc hstuck (a := .probe k true) (.probe hk (by rw [hpc]; rfl)) trivial).elim
  | uprobe =>
    exact (not_stuck hc hstuck (a := .probe k true) (.probe hk (by rw [hpc]; rfl)) trivial).elim
  | uretprobe =>
    exact (not_stuck hc hstuck (a := .probe k true) (.probe hk (by rw [hpc]; rfl)) trivial).elim
  | mark => exact (not_stuck hc hstuck (Step.mark hk hpc) trivial).elim
  | sendErr => exact (not_stuck hc hstuck (Step.recvAttachErr hmain hk hpc) trivial).elim

/-- **Where nobody can go on**, a runner that was not told to stop is at rest or deadlocked. -/
theorem stuck_cases (hl : s.Locked) (hk : s.Known) (hleft : s.LeftDone) (hc : s.crashed = false)
    (hctx : s.ctxDone = false) (hstuck : Trace.Stuck step (fun _ a => a.Own) s) :
    s.AtRest ∨ s.Deadlocked := by
  cases hmain : s.main with
  | select =>
    obtain ⟨hmu, hidle⟩ := idle_of_stuck hl hc hstuck hmain
    exact Or.inl ⟨hmain, hmu, hidle, attachers_of_stuck hc hstuck hmain⟩
  | attachLock x =>
    cases hmu : s.mu with
    | none => exact (not_stuck hc hstuck (Step.lockAttach hmain hmu) trivial).elim
    | some p =>
      cases p with
      | main =>
        have hsec := hl.main.mpr hmu
        rw [hmain] at hsec
        cases hsec
      | callback i => exact Or.inr (Or.inr ⟨x, i, hmain, holder_stuck hl hc hstuck hmu⟩)
      | attacher k => exact absurd hmu (hl.attacher k)
  | attachBody x =>
    obtain ⟨p, hp⟩ := Option.isSome_iff_exists.mp (hk.main x (by rw [hmain]; rfl))
    exact (not_stuck hc hstuck (Step.store hmain hp) trivial).elim
  | attachUpdate x cluster =>
    exact (not_stuck hc hstuck (Step.updateErr hmain) trivial).elim
  | attachErr x => exact Or.inr (Or.inl ⟨x, hmain⟩)
  | attachSpawn x => exact (not_stuck hc hstuck (Step.spawn hmain) trivial).elim
  | deferCancel | deferWait | deferCloseCh | deferCloseErr | exited =>
    have hdone := hleft (by rw [hmain]; rfl)
    rw [hctx] at hdone
    cases hdone

/-- **Conversely**, at rest nobody can go on before the environment does. -/
theorem AtRest.stuck (hs : s.AtRest) (hctx : s.ctxDone = false) (hint : s.internalDone = false) :
    Trace.Stuck step (fun _ a => a.Own) s := by
  intro a ha
  rw [Option.eq_none_iff_forall_ne_some]
  intro t ht
  have hmain := hs.main
  cases (step_iff.mp ht).2 with
  | deliver | crashDeliver | cancel => exact ha
  | @iterate i _ hit | @crashIterate i hit =>
    rw [hs.callbacks i] at hit
    cases hit
  | @lookupErr i _ _ _ hcb | @lookup i _ _ _ _ hcb | @childErr i _ _ _ _ hcb
  | @child i _ _ _ _ _ hcb | @recvCh i _ _ hcb | @recvLookupErr i _ hcb | @recvDetachErr i _ hcb
  | @lockDetach i _ hcb | @deleteAbsent i _ _ hcb | @delete i _ _ _ hcb | @deleteErr i _ _ hcb =>
    rw [hs.callbacks i] at hcb
    cases hcb
  | recvAttachErr _ hk hpc | mark hk hpc =>
    rcases hs.attachers _ (List.mem_of_getElem? hk) with hw | hw <;>
    · rw [hw] at hpc
      cases hpc
  | probe hk hprobe =>
    rcases hs.attachers _ (List.mem_of_getElem? hk) with hw | hw <;>
    · rw [hw] at hprobe
      cases hprobe
  | unattach _ _ hdone =>
    rw [hctx, hint] at hdone
    simp at hdone
  | leave _ hdone =>
    rw [hctx] at hdone
    cases hdone
  | lockAttach hm | store hm | update hm | updateErr hm | spawn hm | deferCancel hm | deferWait hm
  | deferCloseCh hm | deferCloseErr hm | crashStore hm =>
    rw [hmain] at hm
    cases hm
  | @crashSend p hp =>
    cases p with
    | main => simp [sendsOnClosed, hmain] at hp
    | callback i => simp [sendsOnClosed, hs.callbacks i] at hp
    | attacher k =>
      simp only [sendsOnClosed] at hp
      split at hp
      · rename_i b hk
        rcases hs.attachers b (List.mem_of_getElem? hk) with hw | hw <;> simp [hw] at hp
      · cases hp

/-- What the ends of the runs rest on. -/
structure Placed (s : Runner ι) : Prop where
  locked : s.Locked
  known : s.Known
  leftDone : s.LeftDone
  internal : s.internalDone = true → s.ctxDone = true

theorem placed_step {t : Runner ι} {a : Action ι} (hs : s.Placed) (h : step s a = some t) :
    t.Placed := by
  have hstep := (step_iff.mp h).2
  refine ⟨locked_step hs.locked hstep, known_step hs.known hstep, leftDone_step hs.leftDone hstep,
    ?_⟩
  cases hstep with
  | cancel => exact fun _ => rfl
  | deferCancel hm => exact fun _ => hs.leftDone (by rw [hm]; rfl)
  | _ => exact hs.internal

omit [DecidableEq ι] in
theorem placed_init (programs : List Program) : (init programs : Runner ι).Placed :=
  ⟨locked_init programs, known_init programs, fun hl => (nomatch hl), fun hi => (nomatch hi)⟩

/-- The runner's own steps do not cancel the context. -/
theorem ctxDone_own {t : Runner ι} {a : Action ι} (ha : a.Own) (h : step s a = some t) :
    t.ctxDone = s.ctxDone := by
  cases (step_iff.mp h).2 with
  | cancel => exact ha.elim
  | _ => rfl

/-- **The runner settles.** In every state of every run in which it was not told to stop: left to
itself, with any outcomes of the calls it makes, it takes no more steps than the work of the state,
in any order, and where it cannot go on it has crashed, or is at rest, or is in one of the two
deadlocks; and there is such an end. -/
theorem runner_settles [Fintype ι] (programs : List Program) (as : List (Action ι)) (s : Runner ι)
    (h : Trace.run step (init programs) as = some s) (hctx : s.ctxDone = false) :
    Trace.Settles step (fun _ a => a.Own)
      (fun t => t.crashed = true ∨ t.AtRest ∨ t.Deadlocked) s.work s ∧
    ∃ bs t, (∀ b ∈ bs, Action.Own b) ∧ Trace.run step s bs = some t ∧
      (t.crashed = true ∨ t.AtRest ∨ t.Deadlocked) := by
  have hs : s.Placed := Trace.run_invariant (fun _ _ _ hs ht => placed_step hs ht)
    (placed_init programs) h
  have hpot : Trace.Potential step (fun t : Runner ι => t.Placed ∧ t.ctxDone = false)
      (fun _ a => a.Own) work (fun _ => 0) := by
    refine ⟨fun u a v hu ha hv => ?_, fun u a v _ ha hv => ?_⟩
    · exact ⟨placed_step hu.1 hv, (ctxDone_own ha hv).trans hu.2⟩
    · have huse := work_step hv
      have hcauses : a.causes = 0 := by
        cases a with
        | deliver _ _ | cancel => exact ha.elim
        | _ => rfl
      rw [hcauses] at huse
      exact huse
  have hsettles : Trace.Settles step (fun _ a => a.Own)
      (fun t => t.crashed = true ∨ t.AtRest ∨ t.Deadlocked) s.work s := by
    refine hpot.settles (fun _ _ _ => rfl) (fun t ht hstuck => ?_) ⟨hs, hctx⟩
    cases hc : t.crashed with
    | true => exact Or.inl rfl
    | false =>
      exact Or.inr (stuck_cases ht.1.locked ht.1.known ht.1.leftDone hc ht.2 hstuck)
  obtain ⟨bs, t, hm, hrun, _, hend⟩ := hsettles.exists_end
  exact ⟨hsettles, bs, t, Trace.forall_of_meets hm hrun, hrun, hend⟩

/-- **At rest while the map operations are fine.** In every run whose steps meet `OpsFine`, for a
runner that has neither crashed nor been told to stop: nobody can go on exactly when every handler
has returned, `r.mu` is free, no attach goroutine is under way and the main loop waits for the next
instance. -/
theorem stuck_iff_atRest (programs : List Program) (as : List (Action ι)) (s : Runner ι)
    (h : Trace.run step (init programs) as = some s)
    (hg : Trace.Meets step OpsFine (init programs) as) (hc : s.crashed = false)
    (hctx : s.ctxDone = false) : (∀ a : Action ι, a.Own → step s a = none) ↔ s.AtRest := by
  have hinv : s.Placed ∧ (s.ctxDone = false → s.Fine) := by
    refine Trace.run_invariant_of_meets
      (I := fun s : Runner ι => s.Placed ∧ (s.ctxDone = false → s.Fine)) ?_
      ⟨placed_init programs, fun _ => trivial⟩ hg h
    intro u a v hu hga hv
    refine ⟨placed_step hu.1 hv, fun hvx => ?_⟩
    have hstep := (step_iff.mp hv).2
    have hux : u.ctxDone = false := by
      cases hstep with
      | cancel => cases hvx
      | _ => exact hvx
    exact fine_step hu.1.locked (hu.2 hux) hga hstep hvx
  obtain ⟨hplaced, hfine⟩ := hinv
  constructor
  · intro hstuck
    rcases stuck_cases hplaced.locked hplaced.known hplaced.leftDone hc hctx hstuck with
      hrest | ⟨x, hm⟩ | ⟨x, i, hm, hcb⟩
    · exact hrest
    · have hf := hfine hctx
      unfold Fine at hf
      rw [hm] at hf
      exact hf.elim
    · have hf := hfine hctx
      unfold Fine at hf
      rw [hm] at hf
      exact absurd hcb (hf.2 i).1
  · intro hrest
    refine hrest.stuck hctx ?_
    cases hint : s.internalDone with
    | false => rfl
    | true =>
      have hdone := hplaced.internal hint
      rw [hctx] at hdone
      cases hdone

end

/-- A pod has been registered and probed. -/
def probed : List (Action Unit) := registerPod pod9f 10 ++ attachActs

/-- The only handler hands over the first instance, and nothing is detached. -/
def FirstInstance (s : Runner Unit) : Action Unit → Prop
  | .recvCh _ => s.clusters.keys = ∅ ∧ (s.callbacks () matches .add _) = true
  | .lockAttach => s.clusters.keys = ∅
  | .update ok => ok = true
  | .lockDetach _ | .delete .. => False
  | _ => True

instance (s : Runner Unit) : ∀ a, Decidable (s.FirstInstance a)
  | .recvCh _ => inferInstanceAs (Decidable (_ ∧ _))
  | .lockAttach => inferInstanceAs (Decidable (s.clusters.keys = ∅))
  | .update ok => inferInstanceAs (Decidable (ok = true))
  | .lockDetach _ | .delete .. => isFalse fun h => h
  | .deliver .. | .iterate _ | .lookup .. | .child .. | .recvErr _ | .store | .spawn | .probe ..
  | .mark _ | .unattach _ | .cancel | .leave | .unwind | .sendClosed _ => isTrue trivial

theorem FirstInstance.opsFine {s : Runner Unit} {a : Action Unit} (h : s.FirstInstance a) :
    s.OpsFine a := by
  have haccepts : s.clusters.keys = ∅ → ∀ k, s.clusters.Accepts k := by
    intro hempty k
    right
    rw [hempty]
    decide
  cases a with
  | recvCh i =>
    obtain ⟨hempty, hadd⟩ := h
    refine ⟨fun t _ => Or.inl (haccepts hempty _), fun j => ?_⟩
    cases j
    cases hcb : s.callbacks () with
    | add x => exact ⟨fun hc => (nomatch hc), fun _ hc => (nomatch hc)⟩
    | _ =>
      rw [hcb] at hadd
      cases hadd
  | lockAttach => exact fun t _ => haccepts h _
  | update ok => exact h
  | lockDetach _ | delete _ _ => exact h.elim
  | _ => trivial

theorem runner_settles_registering : ∃ s : Runner Unit,
    Trace.run step (init [percona5734]) registering = some s ∧
    Trace.Settles step (fun _ a => a.Own)
      (fun t => t.crashed = true ∨ t.AtRest ∨ t.Deadlocked) s.work s ∧
    ∃ bs t, (∀ b ∈ bs, Action.Own b) ∧ Trace.run step s bs = some t ∧
      (t.crashed = true ∨ t.AtRest ∨ t.Deadlocked) := by
  have hobs : (Trace.run step (init [percona5734]) registering).map (fun s => s.ctxDone) =
      some false := by decide +kernel
  obtain ⟨s, hs, hctx⟩ := Option.map_eq_some_iff.mp hobs
  exact ⟨s, hs, runner_settles _ registering s hs hctx⟩

theorem stuck_iff_atRest_probed : ∃ s : Runner Unit,
    Trace.run step (init [percona5734]) probed = some s ∧
    ((∀ a : Action Unit, a.Own → step s a = none) ↔ s.AtRest) := by
  have hobs : (Trace.run step (init [percona5734]) probed).map
      (fun s => (s.crashed, s.ctxDone)) = some (false, false) := by decide +kernel
  have hg : Trace.Meets step FirstInstance (init [percona5734]) probed := by decide +kernel
  obtain ⟨s, hs, hval⟩ := Option.map_eq_some_iff.mp hobs
  exact ⟨s, hs, stuck_iff_atRest _ probed s hs (hg.mono fun _ _ h => h.opsFine)
    (Prod.ext_iff.mp hval).1 (Prod.ext_iff.mp hval).2⟩

end Runner

end EDGuard
