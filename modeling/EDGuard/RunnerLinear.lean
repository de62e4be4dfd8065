import EDGuard.PodIndependence
import EDGuard.Lib.Simulation

/-!
# The two registries as one sequential object

Handlers and main loop change `r.Instances` and `clusters` under `r.mu`, one store after the other,
and read `r.Instances` without it.

* `Registry.Commit` — a critical section that has succeeded, as one operation on both registries.
* `Runner.commit` — the step that completes a section; `registry_simulates`.
* `registry_linear` — **every run leaves in the registries what its sections, one after the other,
  leave there**; in the middle of an `attachInstance` the instance is stored ahead of that.
-/

set_option autoImplicit false

namespace EDGuard

namespace Registry

/-- A critical section of `r.mu` whose map operation has succeeded. -/
inductive Commit where
  | attach (t : Instance) (cluster : Cluster)
  | detach (id : GoString)
  deriving DecidableEq

/-- The section as one operation. -/
def commit (r : Registry) : Commit → Registry
  | .attach t cluster => r.set t.GetId t.pidKey (some t) (some cluster)
  | .detach id => r.detach id

/-- The registries while the main loop stands at a program point: an instance is stored before its
entry in `clusters`. -/
def during (r : Registry) : MainPc → Registry
  | .attachUpdate t _ | .attachErr t => { r with
      instances := Function.update r.instances t.GetId (some t) }
  | _ => r

theorem during_of_not_inSection {r : Registry} {pc : MainPc} (h : pc.inSection = false) :
    r.during pc = r := by
  cases pc <;> first | rfl | cases h

end Registry

namespace Runner

variable {ι : Type}

/-- The section that a step completes. -/
def commit (s : Runner ι) : Action ι → Option Registry.Commit
  | .update true =>
    match s.main with
    | .attachUpdate t cluster => some (.attach t cluster)
    | _ => none
  | .delete i true =>
    match s.callbacks i with
    | .detachBody id => some (.detach id)
    | _ => none
  | _ => none

/-- The locks are taken in turn, and the registries are those of the sequential object. -/
structure Replays (s : Runner ι) (r : Registry) : Prop where
  locked : s.Locked
  regs : s.regs = r.during s.main

variable [DecidableEq ι]

/-- **The runner implements the sequential object**: a step that completes a section does to the
registries what the section does as a whole, and no other step shows. -/
theorem registry_simulates : Trace.Simulates (step (ι := ι))
    (fun r c => some (Registry.commit r c)) Replays commit := by
  rintro s a t r ⟨hl, hregs⟩ h
  obtain ⟨_, hstep⟩ := step_iff.mp h
  have hl' := locked_step hl hstep
  -- a step that completes no section
  have hquiet : s.commit a = none → t.regs = r.during t.main → ∃ r',
      Trace.run (fun r c => some (Registry.commit r c)) r (s.commit a).toList = some r' ∧
        t.Replays r' := by
    intro hnone hr
    rw [hnone]
    exact ⟨r, rfl, hl', hr⟩
  -- a handler that holds the lock finds the main loop outside of its section
  have houtside : ∀ i, (s.callbacks i).inSection = true → s.main.inSection = false := by
    intro i hi
    cases hm : s.main.inSection with
    | false => rfl
    | true =>
      have hmu := (hl.callback i).mp hi
      rw [hl.main.mp hm] at hmu
      cases hmu
  cases hstep with
  | @store x p hmain _ =>
    rw [hmain] at hregs
    obtain rfl : s.regs = r := hregs
    exact hquiet rfl rfl
  | @update x cluster m hmain hm =>
    rw [hmain] at hregs
    have hcommit : s.commit (.update true) = some (.attach x cluster) := by
      simp [commit, hmain]
    refine ⟨r.commit (.attach x cluster), by rw [hcommit]; rfl, hl', ?_⟩
    obtain ⟨hinst, hcl⟩ := Registry.mk.inj hregs
    refine Registry.ext hinst (funext fun k => ?_)
    show m.lookup k = Function.update r.clusters x.pidKey (some cluster) k
    rw [BoundedMap.lookup_update hm, Function.update_apply, hcl]
  | @updateErr x cluster hmain =>
    rw [hmain] at hregs
    exact hquiet rfl hregs
  | @deleteAbsent i id ok hcb hnone =>
    have hmain := houtside i (by rw [hcb]; rfl)
    rw [Registry.during_of_not_inSection hmain] at hregs
    have hsame : r.detach id = r := by
      have hr : r.instances id = none := hregs ▸ hnone
      simp only [Registry.detach, hr]
    have hrun : Trace.run (fun r c => some (Registry.commit r c)) r
        (s.commit (.delete i ok)).toList = some r := by
      cases ok with
      | false => rfl
      | true =>
        simp only [commit, hcb, Option.toList_some, Trace.run_singleton]
        exact congrArg some hsame
    refine ⟨r, hrun, hl', ?_⟩
    show s.regs = r.during s.main
    rw [Registry.during_of_not_inSection hmain, hregs]
  | @delete i id x m hcb hx hm =>
    have hmain := houtside i (by rw [hcb]; rfl)
    rw [Registry.during_of_not_inSection hmain] at hregs
    have hcommit : s.commit (.delete i true) = some (.detach id) := by
      simp [commit, hcb]
    refine ⟨r.commit (.detach id), by rw [hcommit]; rfl, hl', ?_⟩
    show (⟨Function.update s.instances id none, m.lookup⟩ : Registry) = (r.detach id).during s.main
    rw [Registry.during_of_not_inSection hmain, ← hregs]
    have hkey : (s.clusters.lookup x.pidKey).isSome := by
      have hmem : x.pidKey ∈ s.clusters.keys := by
        by_contra hnot
        rw [BoundedMap.delete_eq_none_iff.mpr hnot] at hm
        cases hm
      obtain ⟨v, hv⟩ := BoundedMap.mem_keys_iff.mp hmem
      rw [hv]
      rfl
    simp only [Registry.detach, regs, hx, hkey, ↓reduceIte]
    refine Registry.ext rfl (funext fun k => ?_)
    show m.lookup k = Function.update s.clusters.lookup x.pidKey none k
    rw [BoundedMap.lookup_delete hm, Function.update_apply]
  | deleteErr _ _ => exact hquiet rfl hregs
  | recvCh hmain _ | lockAttach hmain _ | spawn hmain | leave hmain _ | deferCancel hmain
  | deferWait hmain _ | deferCloseCh hmain | deferCloseErr hmain =>
    rw [hmain] at hregs
    exact hquiet rfl hregs
  | _ => exact hquiet rfl hregs

omit [DecidableEq ι] in
theorem replays_init (programs : List Program) : (init programs : Runner ι).Replays .empty := by
  refine ⟨locked_init programs, Registry.ext rfl (funext fun k => ?_)⟩
  show (BoundedMap.empty : BoundedMap UInt32 Cluster 1024).lookup k = none
  exact BoundedMap.lookup_empty k

/-- **The registries are linearizable.** In every run, with any number of handlers and any outcome
of every call: replaying, in the order in which they came to an end, the critical sections whose
map operation succeeded gives the registries, up to an instance that the main loop has stored ahead
of its entry in `clusters`; while the main loop does not hold `r.mu`, it gives exactly them. -/
theorem registry_linear (programs : List Program) (as : List (Action ι)) (s : Runner ι)
    (h : Trace.run step (init programs) as = some s) :
    s.regs = ((Trace.observe step commit (init programs) as).foldl Registry.commit
      .empty).during s.main ∧
    (s.mu ≠ some .main →
      s.regs = (Trace.observe step commit (init programs) as).foldl Registry.commit .empty) := by
  obtain ⟨r, hr, hs⟩ := registry_simulates.run (replays_init programs) h
  rw [Trace.run_total] at hr
  obtain rfl := Option.some.inj hr
  refine ⟨hs.regs, fun hmu => ?_⟩
  have hsection : s.main.inSection = false := by
    cases hm : s.main.inSection with
    | false => rfl
    | true => exact absurd (hs.locked.main.mp hm) hmu
  rw [hs.regs, Registry.during_of_not_inSection hsection]

theorem registry_linear_pod9f : ∃ s : Runner Unit,
    Trace.run step (init [percona5734]) (registerPod pod9f 10) = some s ∧ s.mu = none ∧
    Trace.observe step commit (init [percona5734]) (registerPod pod9f 10) =
      [.attach (instance9f 10) (bpfCluster (instance9f 10) percona5734)] ∧
    s.regs = Registry.commit .empty
      (.attach (instance9f 10) (bpfCluster (instance9f 10) percona5734)) := by
  have hobs : (Trace.run step (init [percona5734]) (registerPod pod9f 10)).map
      (fun s => s.mu) = some (none : Option (Party Unit)) := by decide +kernel
  have hcommits : Trace.observe step commit (init [percona5734]) (registerPod pod9f 10) =
      [.attach (instance9f 10) (bpfCluster (instance9f 10) percona5734)] := by decide +kernel
  obtain ⟨s, hs, hmu⟩ := Option.map_eq_some_iff.mp hobs
  have hregs := (registry_linear _ _ s hs).2 (by rw [hmu]; exact fun hm => nomatch hm)
  rw [hcommits] at hregs
  exact ⟨s, hs, hmu, hcommits, hregs⟩

end Runner

end EDGuard
