import EDGuard.RunnerInv
import EDGuard.Lib.StoreIndex

/-!
# The two registries

`r.Instances` is keyed by `version|containerId`, the `clusters` map by pid.

* `agree_of_keysApart` — while no registration abandons the key of the instance it replaces and no
  detach removes a key that another instance uses, the two agree whenever `r.mu` is free.
* `abandoned_key` — a container that is looked up again before it is stored, with another child
  pid, leaves its first pid in `clusters`.
-/

set_option autoImplicit false

namespace EDGuard

namespace Runner

variable {ι : Type}

/-- The value `attachInstance` stores for an instance. -/
def clusterOf (s : Runner ι) (t : Instance) : Option Cluster :=
  (s.bpfPrograms t.version).map (bpfCluster t)

/-- The keys of `clusters` are the pids of the instances, and every value carries the name and
the offsets of an instance with that pid. -/
def Agree (s : Runner ι) : Prop :=
  (∀ k, k ∈ s.clusters.keys ↔ ∃ id t, s.instances id = some t ∧ t.pidKey = k) ∧
  ∀ k w, s.clusters.lookup k = some w → ∃ id t, s.instances id = some t ∧ t.pidKey = k ∧
    ∃ p, s.bpfPrograms t.version = some p ∧ w = bpfCluster t p

/-- `clusters` seen as an index over `Instances`. -/
def EntryOk (s : Runner ι) (k : UInt32) : Prop :=
  StoreIndex.EntryOk Instance.pidKey (fun t w => s.clusterOf t = some w) s.instances k
    (s.clusters.lookup k)

theorem agree_iff {s : Runner ι} : s.Agree ↔ ∀ k, s.EntryOk k := by
  have hval : ∀ t w, (∃ p, s.bpfPrograms t.version = some p ∧ w = bpfCluster t p) ↔
      s.clusterOf t = some w := by
    intro t w
    unfold clusterOf
    rw [Option.map_eq_some_iff]
    constructor
    · rintro ⟨p, hp, rfl⟩
      exact ⟨p, hp, rfl⟩
    · rintro ⟨p, hp, hw⟩
      exact ⟨p, hp, hw.symm⟩
  have hkeys : ∀ k, k ∈ s.clusters.keys ↔ (s.clusters.lookup k).isSome := by
    intro k
    rw [BoundedMap.mem_keys_iff, Option.isSome_iff_exists]
  show _ ↔ StoreIndex.Agrees _ _ _ _
  rw [StoreIndex.agrees_iff]
  simp only [Agree, hval, hkeys]

variable [DecidableEq ι]

/-- A registration abandons no key: the entry under the key of the instance it replaces belongs
to another instance as well.  A detach removes a key that no other instance has. -/
def KeysApart (s : Runner ι) : Action ι → Prop
  | .store => ∀ t, s.main = .attachBody t → ∀ t₀, s.instances t.GetId = some t₀ →
      t₀.pidKey ≠ t.pidKey → ∀ w, s.clusters.lookup t₀.pidKey = some w →
        ∃ id t', id ≠ t.GetId ∧ s.instances id = some t' ∧ t'.pidKey = t₀.pidKey ∧
          s.clusterOf t' = some w
  | .delete i true => ∀ id t, s.callbacks i = .detachBody id → s.instances id = some t →
      ∀ id' t', id' ≠ id → s.instances id' = some t' → t'.pidKey ≠ t.pidKey
  | _ => True

/-- The offsets of a program never change. -/
theorem clusterOf_step {s t : Runner ι} {a : Action ι} (h : Step s a t) (x : Instance) :
    t.clusterOf x = s.clusterOf x := by
  cases h with
  | @mark k b _ _ =>
    show (Function.update s.bpfPrograms b.version _ x.version).map _ = _
    unfold clusterOf
    rcases eq_or_ne x.version b.version with hv | hv
    · rw [hv, Function.update_self]
      cases s.bpfPrograms b.version <;> rfl
    · rw [Function.update_of_ne hv]
  | _ => rfl

/-- What holds of the registries at each place of the main loop. -/
def RegistryAt (s : Runner ι) : MainPc → Prop
  | .attachUpdate t cluster => s.instances t.GetId = some t ∧ s.clusterOf t = some cluster ∧
      ∀ k, k ≠ t.pidKey → s.EntryOk k
  | .attachErr _ => True
  | _ => ∀ k, s.EntryOk k

omit [DecidableEq ι] in
theorem registryAt_congr {s t : Runner ι} (hof : ∀ x, t.clusterOf x = s.clusterOf x)
    (hin : t.instances = s.instances) (hcl : t.clusters = s.clusters) (pc : MainPc) :
    t.RegistryAt pc ↔ s.RegistryAt pc := by
  have hfun : t.clusterOf = s.clusterOf := funext hof
  cases pc <;> simp only [RegistryAt, EntryOk, hin, hcl, hfun]

omit [DecidableEq ι] in
theorem registryAt_iff {s : Runner ι} {pc : MainPc} (h : pc.inSection = false) :
    s.RegistryAt pc ↔ ∀ k, s.EntryOk k := by
  cases pc <;> first | exact Iff.rfl | cases h

omit [DecidableEq ι] in
theorem registry_store {s t : Runner ι} {x : Instance} {p : Program}
    (hr : ∀ k, s.EntryOk k) (hg : s.KeysApart .store) (hmain : s.main = .attachBody x)
    (hprog : s.bpfPrograms x.version = some p)
    (hin : t.instances = Function.update s.instances x.GetId (some x))
    (hcl : t.clusters = s.clusters) (hof : t.clusterOf = s.clusterOf) :
    t.RegistryAt (.attachUpdate x (bpfCluster x p)) := by
  refine ⟨?_, ?_, fun k hk => ?_⟩
  · rw [hin, Function.update_self]
  · rw [hof]
    unfold clusterOf
    rw [hprog]
    rfl
  · unfold EntryOk
    rw [hin, hcl, hof]
    refine (StoreIndex.entryOk_insert_iff (hr k) (Ne.symm hk)).mpr ?_
    rintro x₀ w hx₀ rfl hw
    exact hg x hmain x₀ hx₀ hk w hw

omit [DecidableEq ι] in
theorem registry_delete {s t : Runner ι} {i : ι} {id : GoString} {x : Instance}
    {m : BoundedMap UInt32 Cluster 1024} (hr : ∀ k, s.EntryOk k)
    (hg : s.KeysApart (.delete i true))
    (hcb : s.callbacks i = .detachBody id) (hx : s.instances id = some x)
    (hdel : s.clusters.delete x.pidKey = some m)
    (hin : t.instances = Function.update s.instances id none) (hcl : t.clusters = m)
    (hof : t.clusterOf = s.clusterOf) : ∀ k, t.EntryOk k := by
  have hagree := (StoreIndex.agrees_remove_iff hr hx (BoundedMap.lookup_delete hdel)).mpr
    (hg id x hcb hx)
  intro k
  unfold EntryOk
  rw [hin, hcl, hof]
  exact hagree k

theorem registry_step {s t : Runner ι} {a : Action ι} (hl : s.Locked)
    (hr : s.RegistryAt s.main) (hg : s.KeysApart a) (h : Step s a t) : t.RegistryAt t.main := by
  have hof := clusterOf_step h
  cases h with
  | @store x p hmain hprog =>
    rw [hmain] at hr
    exact registry_store hr hg hmain hprog rfl rfl (funext hof)
  | @update x cluster m hmain hupd =>
    rw [hmain] at hr
    obtain ⟨hstored, hval, hrest⟩ := hr
    intro k
    show StoreIndex.EntryOk _ _ s.instances k (m.lookup k)
    rw [BoundedMap.lookup_update hupd]
    rcases eq_or_ne k x.pidKey with rfl | hk
    · rw [if_pos rfl]
      exact ⟨x.GetId, x, hstored, rfl, hval⟩
    · rw [if_neg hk]
      exact hrest k hk
  | @delete i id x m hcb hx hdel =>
    have hout : s.main.inSection = false := by
      have hheld : s.mu = some (.callback i) := (hl.callback i).mp (by rw [hcb]; rfl)
      have hno := hl.main.not.mpr (by rw [hheld]; simp)
      simpa using hno
    have hall := (registryAt_iff hout).mp hr
    exact (registryAt_iff hout).mpr (registry_delete hall hg hcb hx hdel rfl rfl (funext hof))
  | updateErr _ => trivial
  | recvCh hmain _ | lockAttach hmain _ | spawn hmain | leave hmain _
  | deferCancel hmain | deferWait hmain _ | deferCloseCh hmain | deferCloseErr hmain =>
    rw [hmain] at hr
    exact (registryAt_congr hof rfl rfl _).mpr hr
  | mark _ _ => exact (registryAt_congr hof rfl rfl s.main).mpr hr
  | _ => exact (registryAt_congr hof rfl rfl _).mpr hr

/-- **Agreement.** In every run whose steps keep the keys apart, in every state in which `r.mu` is
free the two registries agree, whatever the lookups answer and whichever map operations fail. -/
theorem agree_of_keysApart (programs : List Program) (as : List (Action ι)) (s : Runner ι)
    (h : Trace.run step (init programs) as = some s)
    (hg : Trace.Meets step KeysApart (init programs) as) (hmu : s.mu = none) : s.Agree := by
  have hinv : s.Locked ∧ s.RegistryAt s.main := by
    refine Trace.run_invariant_of_meets (I := fun s => s.Locked ∧ s.RegistryAt s.main) ?_
      ⟨locked_init programs, ?_⟩ hg h
    · intro s a t hs hga ht
      obtain ⟨_, hstep⟩ := step_iff.mp ht
      exact ⟨locked_step hs.1 hstep, registry_step hs.1 hs.2 hga hstep⟩
    · intro k id x hx
      cases hx
  have hout : s.main.inSection = false := by
    have hno := hinv.1.main.not.mpr (by rw [hmu]; simp)
    simpa using hno
  exact agree_iff.mpr ((registryAt_iff hout).mp hinv.2)

/-! ## One container, looked up twice -/

/-- A container is registered: lookups, hand-over, `attachInstance`. -/
def registerActs (pid : Int) : List (Action Unit) :=
  [.lookup () (some pid), .child () (some pid), .recvCh (), .lockAttach, .store, .update true,
    .spawn]

/-- A managed pod with the container `9f`. -/
def pod9f : Obj := .pod (managedPod [perconaContainer (lit ['9', 'f'])])

/-- A managed pod with the container `8e`. -/
def pod8e : Obj := .pod (managedPod [perconaContainer (lit ['8', 'e'])])

/-- The create event of a pod is handled. -/
def registerPod (obj : Obj) (pid : Int) : List (Action Unit) :=
  .deliver () (.create obj) :: .iterate () :: registerActs pid

/-- The delete event of a pod with a registered container is handled. -/
def deletePod (obj : Obj) : List (Action Unit) :=
  [.deliver () (.delete obj), .iterate (), .lockDetach (), .delete () true]

/-- The instance of container `9f` with the given pid. -/
def instance9f (pid : Int) : Instance :=
  newInstance (managedPod [perconaContainer (lit ['9', 'f'])]) PerconaServer5734
    (lit ['9', 'f']) pid

/-- Instances are stored under fresh ids only, and nothing is deleted. -/
def FreshStore (s : Runner ι) : Action ι → Prop
  | .store => match s.main with
    | .attachBody t => s.instances t.GetId = none
    | _ => True
  | .delete .. => False
  | _ => True

instance (s : Runner ι) : ∀ a, Decidable (s.FreshStore a)
  | .store => match h : s.main with
    | .attachBody t => decidable_of_iff (s.instances t.GetId = none) (by simp [FreshStore, h])
    | .select | .attachLock _ | .attachUpdate .. | .attachErr _ | .attachSpawn _ | .deferCancel
    | .deferWait | .deferCloseCh | .deferCloseErr | .exited => isTrue (by simp [FreshStore, h])
  | .delete .. => isFalse fun h => h
  | .deliver .. | .iterate _ | .lookup .. | .child .. | .recvCh _ | .recvErr _ | .lockAttach
  | .update _ | .spawn | .lockDetach _ | .probe .. | .mark _ | .unattach _ | .cancel | .leave
  | .unwind | .sendClosed _ => isTrue trivial

omit [DecidableEq ι] in
theorem keysApart_of_freshStore (s : Runner ι) (a : Action ι) (h : s.FreshStore a) :
    s.KeysApart a := by
  cases a with
  | store =>
    intro t hmain t₀ ht₀
    simp only [FreshStore, hmain] at h
    rw [h] at ht₀
    cases ht₀
  | delete i ok => exact h.elim
  | _ => trivial

theorem agree_registered : ∃ s : Runner Unit, Trace.run step (init [percona5734])
      (.deliver () (.create pod9f) :: .iterate () :: registerActs 10) = some s ∧
    s.instances (instance9f 10).GetId = some (instance9f 10) ∧ s.Agree := by
  have hobs : (Trace.run step (init [percona5734])
      (.deliver () (.create pod9f) :: .iterate () :: registerActs 10)).map
      (fun s => (s.mu, s.instances (instance9f 10).GetId)) =
        some ((none : Option (Party Unit)), some (instance9f 10)) := by decide +kernel
  obtain ⟨s, hs, heq⟩ := Option.map_eq_some_iff.mp hobs
  simp only [Prod.mk.injEq] at heq
  have hfresh : Trace.Meets step FreshStore (init [percona5734])
      (.deliver () (.create pod9f) :: .iterate () :: registerActs 10) := by decide +kernel
  exact ⟨s, hs, heq.2,
    agree_of_keysApart _ _ s hs (hfresh.mono keysApart_of_freshStore) heq.1⟩

/-- The main loop has taken the instance with pid 10 and not stored it when an update is handled,
and by then the child of the container is pid 11. -/
def lookedUpTwice : List (Action Unit) :=
  [.deliver () (.create pod9f), .iterate (), .lookup () (some 10), .child () (some 10),
    .recvCh (), .deliver () (.update pod9f), .iterate (), .lookup () (some 11),
    .child () (some 11), .lockAttach, .store, .update true, .spawn, .recvCh (), .lockAttach,
    .store, .update true, .spawn]

/-- **The first pid stays in `clusters`**, and no instance has it. -/
theorem abandoned_key :
    ¬ ∀ (as : List (Action Unit)) (s : Runner Unit), (∀ a ∈ as, a.MapOk) →
      Trace.run step (init [percona5734]) as = some s → s.mu = none → s.Agree := by
  intro hall
  have hobs : (Trace.run step (init [percona5734]) lookedUpTwice).map
      (fun s => (s.mu, s.clusters.lookup 10, s.instances)) =
        some ((none : Option (Party Unit)), some (bpfCluster (instance9f 10) percona5734),
          Function.update (Function.update (fun _ => none) (instance9f 10).GetId
            (some (instance9f 10))) (instance9f 11).GetId (some (instance9f 11))) := rfl
  obtain ⟨s, hs, heq⟩ := Option.map_eq_some_iff.mp hobs
  simp only [Prod.mk.injEq] at heq
  obtain ⟨hmu, hlook, hin⟩ := heq
  have hagree := hall _ s (by decide) hs hmu
  obtain ⟨id, t, hid, hkey⟩ := (hagree.1 10).mp (BoundedMap.mem_keys_of_lookup hlook)
  have hsame : (instance9f 10).GetId = (instance9f 11).GetId := by decide
  rw [hin, hsame, Function.update_idem] at hid
  rcases eq_or_ne id (instance9f 11).GetId with rfl | hne
  · rw [Function.update_self] at hid
    cases hid
    exact absurd hkey (by decide)
  · rw [Function.update_of_ne hne] at hid
    cases hid

end Runner

end EDGuard
