import EDGuard.PodRegistry
import EDGuard.Registry
import Mathlib.Data.Fintype.Basic

/-!
# Independent pods

Events are handled one by one: the next one is delivered when no handler is at work and the main
loop is back at its `select`.

* `Serves` — what the registries will be once the event that is under way is done.
* `handlesAll_regs` — **refinement**: a run that handles events one by one leaves the registries
  that `Registry.handle` computes from the events.
* `pods_independent` — so the interleaving of the events of different pods does not matter, while no
  version contains the separator of an id.
* `shared_id` — with a version that contains it, two containers may have one id.
-/

set_option autoImplicit false

namespace EDGuard

/-- The container whose pid a handler is about to ask the container runtime for. -/
def CallbackPc.looking : CallbackPc → Option GoString
  | .lookup _ _ containerId => some containerId
  | _ => none

/-- The container whose child pid a handler is about to read from procfs. -/
def CallbackPc.probing : CallbackPc → Option GoString
  | .child _ _ containerId _ => some containerId
  | _ => none

/-- What a handler that is about to register has made sure of. -/
def CallbackPc.Made (env : Env) : CallbackPc → Prop
  | .lookup _ imageId _ => (env.offers imageId).isSome
  | .child _ imageId containerId _ => (env.offers imageId).isSome ∧ (env.cri containerId).isSome
  | .add t => env.Made t
  | _ => True

/-- What follows when the main loop stands at `pc`. -/
def Registry.finishMain (env : Env) (r : Registry) : MainPc → Registry
  | .attachLock t | .attachBody t => r.attach env t
  | .attachUpdate t cluster => ⟨r.instances, Function.update r.clusters t.pidKey (some cluster)⟩
  | _ => r

namespace Runner

variable {ι : Type}

def regs (s : Runner ι) : Registry := ⟨s.instances, s.clusters.lookup⟩

/-- No event is under way. -/
structure Quiet (s : Runner ι) : Prop where
  alive : s.crashed = false
  idle : ∀ i, s.callbacks i = .idle
  main : s.main = .select

instance [Fintype ι] (s : Runner ι) : Decidable s.Quiet :=
  decidable_of_iff (s.crashed = false ∧ (∀ i, s.callbacks i = .idle) ∧ s.main = .select)
    ⟨fun h => ⟨h.1, h.2.1, h.2.2⟩, fun h => ⟨h.alive, h.idle, h.main⟩⟩

/-- An event is delivered when no other is under way, the lookups answer as `env` says, and an
operation on `clusters` fails only if the map is full or the key is absent. -/
def Orderly (env : Env) (s : Runner ι) : Action ι → Prop
  | .deliver _ _ => s.Quiet
  | .lookup i pid => ∀ containerId ∈ (s.callbacks i).looking, pid = env.cri containerId
  | .child i pid => ∀ containerId ∈ (s.callbacks i).probing, pid = env.child containerId
  | .update ok => ok = false → ∀ t ∈ s.main.instance, ¬ s.clusters.Accepts t.pidKey
  | .delete i ok => ok = false → ∀ id ∈ (s.callbacks i).detaching, ∀ t ∈ s.instances id,
      t.pidKey ∉ s.clusters.keys
  | _ => True

instance [Fintype ι] (env : Env) (s : Runner ι) : ∀ a, Decidable (s.Orderly env a)
  | .deliver _ _ => inferInstanceAs (Decidable s.Quiet)
  | .lookup i pid => inferInstanceAs (Decidable (∀ c ∈ (s.callbacks i).looking, pid = env.cri c))
  | .child i pid => inferInstanceAs (Decidable (∀ c ∈ (s.callbacks i).probing, pid = env.child c))
  | .update ok => inferInstanceAs (Decidable (ok = false → ∀ t ∈ s.main.instance, ¬ _))
  | .delete i ok => inferInstanceAs (Decidable (ok = false → ∀ id ∈ (s.callbacks i).detaching,
      ∀ t ∈ s.instances id, t.pidKey ∉ s.clusters.keys))
  | .iterate _ | .recvCh _ | .recvErr _ | .lockAttach | .store | .spawn | .lockDetach _
  | .probe .. | .mark _ | .unattach _ | .cancel | .leave | .unwind | .sendClosed _ => isTrue trivial

def Action.event : Action ι → Option PodEvent
  | .deliver _ e => some e
  | _ => none

/-- The id under which `attachInstance` stores an instance in this step. -/
def stores (s : Runner ι) : Action ι → Option GoString
  | .store => s.main.instance.map Instance.GetId
  | _ => none

variable [DecidableEq ι]

/-- The run `as` handles the events `es` one by one, and registers fewer than 1024 instances. -/
structure HandlesAll (env : Env) (es : List PodEvent) (as : List (Action ι)) (s : Runner ι) :
    Prop where
  run : Trace.run step (init env.programs) as = some s
  events : as.filterMap Action.event = es
  orderly : Trace.Meets step (Orderly env) (init env.programs) as
  quiet : s.Quiet
  few : (Trace.observe step stores (init env.programs) as).toFinset.card < 1024

/-! ## The event under way -/

variable {env : Env} {s t : Runner ι} {r : Registry}

/-- The programs of the runner are those of `env`, whichever are attached. -/
structure Offers (env : Env) (s : Runner ι) : Prop where
  known : ∀ v, (s.bpfPrograms v).isSome = (env.offers v).isSome
  value : ∀ x, s.clusterOf x = (env.offers x.version).map (bpfCluster x)

theorem offers_step {a : Action ι} (ho : s.Offers env) (h : Step s a t) : t.Offers env :=
  ⟨fun v => (isSome_bpfPrograms h v).trans (ho.known v),
    fun x => (clusterOf_step h x).trans (ho.value x)⟩

/-- At most one handler is at work, or the main loop; when it is done the registries are `r`. -/
inductive Serves (env : Env) (s : Runner ι) (r : Registry) : Prop where
  | callback (i : ι) : s.main.instance = none → (∀ j, j ≠ i → s.callbacks j = .idle) →
      (s.callbacks i).Made env → s.regs.finish env (s.callbacks i) = r → Serves env s r
  | main : (∀ j, s.callbacks j = .idle) → (∀ x, s.main.instance = some x → env.Made x) →
      s.regs.finishMain env s.main = r → Serves env s r

omit [DecidableEq ι] in
theorem Serves.busy (hs : Serves env s r) {i : ι} (hi : s.callbacks i ≠ .idle) :
    s.main.instance = none ∧ (∀ j, j ≠ i → s.callbacks j = .idle) ∧ (s.callbacks i).Made env ∧
      s.regs.finish env (s.callbacks i) = r := by
  cases hs with
  | callback j hmain hidle hmade hr =>
    obtain rfl : i = j := by_contra fun hne => hi (hidle i hne)
    exact ⟨hmain, hidle, hmade, hr⟩
  | main hidle _ _ => exact absurd (hidle i) hi

omit [DecidableEq ι] in
theorem Serves.attaching (hs : Serves env s r) {x : Instance} (hx : s.main.instance = some x) :
    (∀ j, s.callbacks j = .idle) ∧ env.Made x ∧ s.regs.finishMain env s.main = r := by
  cases hs with
  | callback _ hmain _ _ _ =>
    rw [hmain] at hx
    cases hx
  | main hidle hmade hr => exact ⟨hidle, hmade x hx, hr⟩

/-- A step of the handler at work. -/
theorem Serves.handler (hs : Serves env s r) {i : ι} {pc pc' : CallbackPc}
    (hpc : s.callbacks i = pc) (hne : pc ≠ .idle)
    (hcb : t.callbacks = Function.update s.callbacks i pc') (hmain : t.main = s.main)
    (hmade : pc.Made env → pc'.Made env)
    (hfin : t.regs.finish env pc' = s.regs.finish env pc) : Serves env t r := by
  subst hpc
  obtain ⟨hidle, hother, hold, hr⟩ := hs.busy hne
  have hself : t.callbacks i = pc' := by rw [hcb, Function.update_self]
  refine .callback i (by rw [hmain]; exact hidle) (fun j hj => ?_) ?_ ?_
  · rw [hcb, Function.update_of_ne hj]
    exact hother j hj
  · rw [hself]
    exact hmade hold
  · rw [hself]
    exact hfin.trans hr

omit [DecidableEq ι] in
/-- A step that neither a handler nor `attachInstance` makes. -/
theorem Serves.frame (hs : Serves env s r) (hregs : t.regs = s.regs)
    (hcb : t.callbacks = s.callbacks) (hinst : t.main.instance = s.main.instance)
    (hmain : s.regs.finishMain env t.main = s.regs.finishMain env s.main) : Serves env t r := by
  cases hs with
  | callback i hidle hother hmade hr =>
    refine .callback i (hinst.trans hidle) ?_ ?_ ?_
    · rw [hcb]
      exact hother
    · rw [hcb]
      exact hmade
    · rw [hcb, hregs]
      exact hr
  | main hidle hmade hr =>
    refine .main ?_ ?_ ?_
    · rw [hcb]
      exact hidle
    · rw [hinst]
      exact hmade
    · rw [hregs, hmain]
      exact hr

omit [DecidableEq ι] in
/-- Between two events nothing is left to do. -/
theorem Serves.quiet (hs : Serves env s r) (hq : s.Quiet) : s.regs = r := by
  cases hs with
  | callback i _ _ _ hr =>
    rw [hq.idle i] at hr
    exact hr
  | main _ _ hr =>
    rw [hq.main] at hr
    exact hr

theorem serves_deliver {i : ι} {e : PodEvent} (hs : Serves env s r) (hq : s.Quiet)
    (h : Step s (.deliver i e) t) (ht : t.crashed = false) : Serves env t (r.handle env e) := by
  have hr := hs.quiet hq
  cases h with
  | @deliver _ _ pc hidle hh =>
    have hself : (s.setCallback i pc).callbacks i = pc := setCallback_self s i pc
    refine .callback i ?_ (fun j hj => ?_) ?_ ?_
    · show s.main.instance = none
      rw [hq.main]
      rfl
    · rw [setCallback_of_ne s hj]
      exact hq.idle j
    · rw [hself]
      rcases handler_cases hh with rfl | ⟨_, rfl⟩ | ⟨_, rfl⟩ <;> trivial
    · rw [hself]
      unfold Registry.handle
      rw [hh, ← hr]
      rfl
  | crashDeliver _ _ => cases ht

/-- `clusters` never has more keys than there are ids registered so far. -/
structure Backed (env : Env) (ids : Finset GoString) (s : Runner ι) : Prop where
  keys : ∀ k ∈ s.clusters.keys, ∃ id ∈ ids, env.key (containerOf id) = some k
  hand : ∀ x cluster, s.main = .attachUpdate x cluster → x.GetId ∈ ids

omit [DecidableEq ι] in
theorem Backed.accepts {ids : Finset GoString} (hb : Backed env ids s) (hfew : ids.card < 1024)
    (k : UInt32) : s.clusters.Accepts k := by
  refine Or.inr (Nat.lt_of_le_of_lt ?_ hfew)
  refine (Finset.card_le_card fun k hk => ?_).trans
    (Finset.card_image_le (f := fun id => (env.key (containerOf id)).getD 0))
  obtain ⟨id, hid, hkey⟩ := hb.keys k hk
  exact Finset.mem_image.mpr ⟨id, hid, by rw [hkey]; rfl⟩

theorem backed_step {a : Action ι} {ids : Finset GoString} (ha : env.Apart)
    (hb : Backed env ids s) (hs : Serves env s r) (h : Step s a t) :
    Backed env (ids ∪ (s.stores a).toList.toFinset) t := by
  have hkeep : ∀ k ∈ s.clusters.keys,
      ∃ id ∈ ids ∪ (s.stores a).toList.toFinset, env.key (containerOf id) = some k := by
    intro k hk
    obtain ⟨id, hid, hkey⟩ := hb.keys k hk
    exact ⟨id, Finset.mem_union_left _ hid, hkey⟩
  have hhand : t.main = s.main → ∀ x cluster, t.main = .attachUpdate x cluster →
      x.GetId ∈ ids ∪ (s.stores a).toList.toFinset := fun hmain x cluster hx =>
    Finset.mem_union_left _ (hb.hand x cluster (hmain ▸ hx))
  cases h with
  | @store x p hmain hprog =>
    refine ⟨hkeep, fun y cluster hy => ?_⟩
    cases hy
    apply Finset.mem_union_right
    simp [stores, hmain, MainPc.instance]
  | @update x cluster m hmain hupd =>
    refine ⟨fun k hk => ?_, fun y cluster hy => by cases hy⟩
    have hk' : k ∈ insert x.pidKey s.clusters.keys := BoundedMap.keys_update hupd ▸ hk
    rcases Finset.mem_insert.mp hk' with rfl | hk'
    · obtain ⟨_, hmade, _⟩ := hs.attaching (by rw [hmain]; rfl : s.main.instance = some x)
      refine ⟨x.GetId, Finset.mem_union_left _ (hb.hand x cluster hmain), ?_⟩
      rw [ha.containerOf hmade]
      exact hmade.key
    · exact hkeep k hk'
  | @delete _ _ _ m _ _ hdel =>
    refine ⟨fun k hk => hkeep k ?_, hhand rfl⟩
    have hk' : k ∈ s.clusters.keys.erase _ := BoundedMap.keys_delete hdel ▸ hk
    exact Finset.mem_of_mem_erase hk'
  | recvCh _ _ | lockAttach _ _ | updateErr _ | spawn _ | leave _ _ | deferCancel _
  | deferWait _ _ | deferCloseCh _ | deferCloseErr _ =>
    exact ⟨hkeep, fun y cluster hy => by cases hy⟩
  | _ => exact ⟨hkeep, hhand rfl⟩

omit [DecidableEq ι] in
/-- `attachInstance` from its store on. -/
theorem attach_regs (ho : s.Offers env) {x : Instance} {p : Program}
    (hprog : s.bpfPrograms x.version = some p) :
    s.regs.attach env x = s.regs.set x.GetId x.pidKey (some x) (some (bpfCluster x p)) := by
  have hval := ho.value x
  unfold clusterOf at hval
  rw [hprog] at hval
  obtain ⟨q, hq, hqv⟩ := Option.map_eq_some_iff.mp hval.symm
  unfold Registry.attach
  rw [hq]
  simp only [hqv]

omit [DecidableEq ι] in
/-- `detachInstance` of a stored instance whose key is there. -/
theorem detach_regs {id : GoString} {x : Instance} {m : BoundedMap UInt32 Cluster 1024}
    (hx : s.instances id = some x) (hdel : s.clusters.delete x.pidKey = some m) :
    s.regs.detach id = ⟨Function.update s.instances id none, m.lookup⟩ := by
  have hsome : s.regs.instances id = some x := hx
  have hkey : (s.regs.clusters x.pidKey).isSome := by
    apply Option.isSome_iff_ne_none.mpr
    intro hnone
    rw [BoundedMap.delete_eq_none_iff.mpr (BoundedMap.lookup_eq_none_iff.mp hnone)] at hdel
    cases hdel
  have hlook : m.lookup = Function.update s.clusters.lookup x.pidKey none := by
    funext k
    rw [BoundedMap.lookup_delete hdel, Function.update_apply]
  unfold Registry.detach
  rw [hsome, hlook]
  exact if_pos hkey

/-- **One step** leaves what the registries will be when the event is done. -/
theorem serves_step {a : Action ι} (ho : s.Offers env) (hs : Serves env s r)
    (hok : a ≠ .update false) (hg : s.Orderly env a) (ha : a.event = none)
    (h : Step s a t) (ht : t.crashed = false) : Serves env t r := by
  cases h with
  | deliver _ _ | crashDeliver _ _ => cases ha
  | crashIterate _ | crashStore _ _ | crashSend _ => cases ht
  | @iterate i pc' hit =>
    refine hs.handler rfl ?_ rfl rfl (fun _ => ?_) (Registry.finish_iterate ho.known hit)
    · rintro hidle
      rw [hidle] at hit
      cases hit
    · rcases iterate_cases hit with ⟨rfl, _⟩ | ⟨_, _, _, _, rfl⟩ | ⟨_, _, _, _, _, _, hfound, rfl⟩ |
        ⟨_, _, _, rfl⟩ | ⟨_, _, _, _, _, _, rfl⟩ <;> try trivial
      rw [CallbackPc.Made, ← ho.known]
      exact (updateIteration_found hfound).2.2.1
  | @lookupErr i pod imageId containerId hcb =>
    have hcri : none = env.cri containerId := hg containerId (by rw [hcb]; rfl)
    refine hs.handler hcb (by simp) rfl rfl (fun _ => trivial) ?_
    show s.regs = _
    simp only [Registry.finish, Env.pid_of_cri_eq_none hcri.symm]
  | @lookup i pod imageId containerId pid hcb =>
    have hcri : some pid = env.cri containerId := hg containerId (by rw [hcb]; rfl)
    have hsome : (env.cri containerId).isSome := by rw [← hcri]; rfl
    refine hs.handler hcb (by simp) rfl rfl (fun hm => ⟨hm, hsome⟩) ?_
    show s.regs.finish env _ = _
    simp only [Registry.finish, Env.pid_of_cri hsome]
  | @childErr i pod imageId containerId pid hcb =>
    have hchild : none = env.child containerId := hg containerId (by rw [hcb]; rfl)
    refine hs.handler hcb (by simp) rfl rfl (fun _ => trivial) ?_
    show s.regs = _
    simp only [Registry.finish, ← hchild]
  | @child i pod imageId containerId pid₀ pid hcb =>
    have hchild : some pid = env.child containerId := hg containerId (by rw [hcb]; rfl)
    refine hs.handler hcb (by simp) rfl rfl
      (fun hm => ⟨hm.1, (Env.pid_of_cri hm.2).trans hchild.symm⟩) ?_
    show s.regs.finish env _ = _
    simp only [Registry.finish, ← hchild]
  | @recvCh i x hmain hcb =>
    obtain ⟨_, hother, hmade, hr⟩ := hs.busy (i := i) (by rw [hcb]; simp)
    rw [hcb] at hmade hr
    refine .main (fun j => ?_) (fun y hy => ?_) hr
    · show Function.update s.callbacks i .idle j = .idle
      rcases eq_or_ne j i with rfl | hne
      · exact Function.update_self ..
      · rw [Function.update_of_ne hne]
        exact hother j hne
    · cases hy
      exact hmade
  | recvLookupErr _ hcb | recvDetachErr _ hcb =>
    exact hs.handler hcb (by simp) rfl rfl (fun _ => trivial) rfl
  | @lockAttach x hmain _ =>
    obtain ⟨hidle, hmade, hr⟩ := hs.attaching (by rw [hmain]; rfl : s.main.instance = some x)
    rw [hmain] at hr
    exact .main hidle (fun y hy => by cases hy; exact hmade) hr
  | @store x p hmain hprog =>
    obtain ⟨hidle, hmade, hr⟩ := hs.attaching (by rw [hmain]; rfl : s.main.instance = some x)
    rw [hmain] at hr
    exact .main hidle (fun y hy => by cases hy; exact hmade) ((attach_regs ho hprog).symm.trans hr)
  | @update x cluster m hmain hupd =>
    obtain ⟨hidle, hmade, hr⟩ := hs.attaching (by rw [hmain]; rfl : s.main.instance = some x)
    rw [hmain] at hr
    refine .main hidle (fun y hy => by cases hy; exact hmade) (Eq.trans ?_ hr)
    have hlook : m.lookup = Function.update s.clusters.lookup x.pidKey (some cluster) := by
      funext k
      rw [BoundedMap.lookup_update hupd, Function.update_apply]
    show (⟨s.instances, m.lookup⟩ : Registry) = ⟨s.instances, _⟩
    rw [hlook]
    rfl
  | updateErr _ => exact absurd rfl hok
  | @spawn x hmain =>
    obtain ⟨hidle, _, hr⟩ := hs.attaching (by rw [hmain]; rfl : s.main.instance = some x)
    rw [hmain] at hr
    exact .main hidle (fun y hy => by cases hy) hr
  | lockDetach hcb _ => exact hs.handler hcb (by simp) rfl rfl (fun _ => trivial) rfl
  | @deleteAbsent i id ok hcb hx =>
    refine hs.handler hcb (by simp) rfl rfl (fun _ => trivial) ?_
    have hnone : s.regs.instances id = none := hx
    show s.regs = s.regs.detach id
    simp only [Registry.detach, hnone]
  | @delete i id x m hcb hx hdel =>
    exact hs.handler hcb (by simp) rfl rfl (fun _ => trivial) (detach_regs hx hdel).symm
  | @deleteErr i id x hcb hx =>
    refine hs.handler hcb (by simp) rfl rfl (fun _ => trivial) ?_
    have hsome : s.regs.instances id = some x := hx
    have hgone : s.regs.clusters x.pidKey = none :=
      BoundedMap.lookup_eq_none_iff.mpr (hg rfl id (by rw [hcb]; rfl) x hx)
    show s.regs = s.regs.detach id
    simp [Registry.detach, hsome, hgone]
  | recvAttachErr _ _ _ | probe _ _ | mark _ _ | unattach _ _ _ | cancel =>
    exact hs.frame rfl rfl rfl rfl
  | leave hmain _ | deferCancel hmain | deferWait hmain _ | deferCloseCh hmain
  | deferCloseErr hmain =>
    refine hs.frame rfl rfl ?_ ?_ <;> rw [hmain] <;> rfl

/-! ## Runs -/

/-- A crash ends the run. -/
theorem alive_of_run {as : List (Action ι)} (h : Trace.run step s as = some t)
    (ht : t.crashed = false) : s.crashed = false := by
  cases as with
  | nil =>
    obtain rfl : s = t := Option.some.inj h
    exact ht
  | cons a as =>
    obtain ⟨u, hu, _⟩ := Trace.run_cons_eq_some.mp h
    exact (step_iff.mp hu).1

theorem serves_run (ha : env.Apart) : ∀ {as : List (Action ι)} {s t : Runner ι} {r : Registry}
    {ids : Finset GoString}, s.Offers env → Serves env s r → Backed env ids s →
    (ids ∪ (Trace.observe step stores s as).toFinset).card < 1024 →
    Trace.Meets step (Orderly env) s as → Trace.run step s as = some t → t.Quiet →
    t.regs = (as.filterMap Action.event).foldl (Registry.handle env) r
  | [], s, t, r, ids, _, hs, _, _, _, h, hq => by
    obtain rfl : s = t := Option.some.inj h
    exact hs.quiet hq
  | a :: as, s, t, r, ids, ho, hs, hb, hfew, hg, h, hq => by
    obtain ⟨u, hu, hrun⟩ := Trace.run_cons_eq_some.mp h
    have hstep := (step_iff.mp hu).2
    have halive := alive_of_run hrun hq.alive
    have hfull := hb.accepts ((Finset.card_le_card Finset.subset_union_left).trans_lt hfew)
    have hb' := backed_step ha hb hs hstep
    rw [Trace.observe_cons hu, List.toFinset_append, ← Finset.union_assoc] at hfew
    have ho' := offers_step ho hstep
    cases hev : a.event with
    | none =>
      have hok : a ≠ .update false := by
        rintro rfl
        cases hstep with
        | @updateErr x _ hmain => exact hg.1 rfl x (by rw [hmain]; rfl) (hfull x.pidKey)
      rw [List.filterMap_cons_none hev]
      exact serves_run ha ho' (serves_step ho hs hok hg.1 hev hstep halive) hb' hfew
        (hg.2 u hu) hrun hq
    | some e =>
      rw [List.filterMap_cons_some hev, List.foldl_cons]
      cases a with
      | deliver i e' =>
        cases hev
        exact serves_run ha ho' (serves_deliver hs hg.1 hstep halive) hb' hfew (hg.2 u hu) hrun hq
      | _ => cases hev

omit [DecidableEq ι] in
theorem serves_init : Serves env (init env.programs : Runner ι) .empty := by
  refine .main (fun _ => rfl) (fun x hx => by cases hx) ?_
  show (⟨_, BoundedMap.lookup .empty⟩ : Registry) = ⟨_, _⟩
  congr

/-- **Refinement.** Handling events one by one leaves the registries that `handle` computes. -/
theorem handlesAll_regs (ha : env.Apart) {es : List PodEvent} {as : List (Action ι)}
    (h : HandlesAll env es as s) : s.regs = es.foldl (Registry.handle env) .empty := by
  have ho : (init env.programs : Runner ι).Offers env := ⟨fun _ => rfl, fun _ => rfl⟩
  have hb : Backed env ∅ (init env.programs : Runner ι) := by
    refine ⟨fun k hk => ?_, fun x cluster hx => by cases hx⟩
    exact absurd hk (by simp [init])
  have hrun := serves_run ha ho serves_init hb (by simpa using h.few) h.orderly h.run h.quiet
  rw [hrun, h.events]

/-- **Independent pods.** Two runs that handle, one by one, interleavings of the same events of each
pod end with the same instances and the same `clusters` map. -/
theorem pods_independent {κ : Type} [DecidableEq κ] (ha : env.Apart)
    {es es' : List (κ × PodEvent)} (hsame : Interleave.SamePerKey es es')
    (hpods : Registry.PodsApart es) {as as' : List (Action ι)} {s s' : Runner ι}
    (h : HandlesAll env (es.map Prod.snd) as s) (h' : HandlesAll env (es'.map Prod.snd) as' s') :
    s.instances = s'.instances ∧ s.clusters = s'.clusters := by
  have hregs : s.regs = s'.regs := by
    rw [handlesAll_regs ha h, handlesAll_regs ha h', List.foldl_map, List.foldl_map]
    exact Registry.handleAll_confluent ha hsame hpods
  obtain ⟨hin, hcl⟩ := Registry.mk.inj hregs
  exact ⟨hin, BoundedMap.ext fun k => congrFun hcl k⟩

/-! ## Two pods -/

/-- Containers `9f` and `8e` have the pids 10 and 11. -/
def twoPids (c : GoString) : Option Int :=
  if c = lit ['9', 'f'] then some 10 else if c = lit ['8', 'e'] then some 11 else none

def twoEnv : Env where
  programs := [percona5734]
  cri := twoPids
  child := twoPids

/-- Two containers with the pids 10 and 11 have different keys. -/
theorem keys_apart (env : Env) (c₁ c₂ : GoString)
    (hcri : ∀ c, env.cri c = if c = c₁ then some 10 else if c = c₂ then some 11 else none)
    (hchild : ∀ c, env.child c = env.cri c) :
    ∀ c c' k, env.key c = some k → env.key c' = some k → c = c' := by
  have hkey : ∀ c k, env.key c = some k → (c = c₁ ∧ k = 10) ∨ (c = c₂ ∧ k = 11) := by
    intro c k hc
    unfold Env.key Env.pid at hc
    rw [hchild c, hcri c] at hc
    split at hc
    · rename_i h1
      exact Or.inl ⟨h1, (Option.some.inj hc).symm⟩
    · split at hc
      · rename_i h2
        exact Or.inr ⟨h2, (Option.some.inj hc).symm⟩
      · cases hc
  intro c c' k hc hc'
  rcases hkey c k hc with ⟨rfl, rfl⟩ | ⟨rfl, rfl⟩ <;>
    rcases hkey c' _ hc' with ⟨rfl, hk⟩ | ⟨rfl, hk⟩
  · rfl
  · exact absurd hk (by decide)
  · exact absurd hk (by decide)
  · rfl

/-- Two pods with one container each. -/
theorem pods_apart {es : List (Bool × PodEvent)} {f : Bool → GoString} (hf : f true ≠ f false)
    (h : ∀ e ∈ es, ∀ cid ∈ e.2.containers, cid = f e.1) : Registry.PodsApart es := by
  intro e he e' he' hne cid hcid hcid'
  have hsame : f e.1 = f e'.1 := (h e he cid hcid).symm.trans (h e' he' cid hcid')
  cases hb : e.1 <;> cases hb' : e'.1 <;> rw [hb, hb'] at hsame hne
  · exact hne rfl
  · exact hf hsame.symm
  · exact hf hsame
  · exact hne rfl

theorem twoEnv_apart : twoEnv.Apart :=
  ⟨by decide, keys_apart twoEnv _ _ (fun _ => rfl) fun _ => rfl⟩

/-- The pod `true` is created and deleted, the pod `false` is created. -/
def twoPods : List (Bool × PodEvent) :=
  [(true, .create pod9f), (false, .create pod8e), (true, .delete pod9f)]

def twoPodsLate : List (Bool × PodEvent) :=
  [(true, .create pod9f), (true, .delete pod9f), (false, .create pod8e)]

theorem twoPods_apart : Registry.PodsApart twoPods := by
  refine pods_apart (f := fun b => if b then lit ['9', 'f'] else lit ['8', 'e']) (by decide) ?_
  intro e he cid hcid
  obtain ⟨c, hc, hp⟩ := hcid
  simp only [twoPods, List.mem_cons, List.not_mem_nil, or_false] at he
  rcases he with rfl | rfl | rfl <;> obtain rfl := List.mem_singleton.mp hc <;>
    exact (Option.some.inj (hp.symm.trans (by decide)))

def twoPodsRun : List (Action Unit) :=
  registerPod pod9f 10 ++ registerPod pod8e 11 ++ deletePod pod9f

def twoPodsLateRun : List (Action Unit) :=
  registerPod pod9f 10 ++ deletePod pod9f ++ registerPod pod8e 11

theorem pods_independent_twoPods : ∃ s s' : Runner Unit,
    Trace.run step (init [percona5734]) twoPodsRun = some s ∧
    Trace.run step (init [percona5734]) twoPodsLateRun = some s' ∧
    s.instances = s'.instances ∧ s.clusters = s'.clusters := by
  have hrun : (Trace.run step (init [percona5734]) twoPodsRun).any
      (fun s : Runner Unit => decide s.Quiet) = true := by decide +kernel
  have hrun' : (Trace.run step (init [percona5734]) twoPodsLateRun).any
      (fun s : Runner Unit => decide s.Quiet) = true := by decide +kernel
  obtain ⟨s, hs, hq⟩ := (Option.any_eq_true ..).mp hrun
  obtain ⟨s', hs', hq'⟩ := (Option.any_eq_true ..).mp hrun'
  have h : HandlesAll twoEnv (twoPods.map Prod.snd) twoPodsRun s :=
    ⟨hs, by decide +kernel, by decide +kernel, of_decide_eq_true hq, by decide +kernel⟩
  have h' : HandlesAll twoEnv (twoPodsLate.map Prod.snd) twoPodsLateRun s' :=
    ⟨hs', by decide +kernel, by decide +kernel, of_decide_eq_true hq', by decide +kernel⟩
  have hsame : Interleave.SamePerKey twoPods twoPodsLate :=
    (by decide +kernel : ∀ k, Interleave.only k twoPods = Interleave.only k twoPodsLate)
  exact ⟨s, s', hs, hs', pods_independent twoEnv_apart hsame twoPods_apart h h'⟩

/-! ## A version with a `|` -/

/-- The image `mysql` with the container `x|9f`. -/
def barPod : Obj :=
  .pod (managedPod [⟨true, lit ['m', 'y', 's', 'q', 'l'], lit ['x', '|', '9', 'f']⟩])

/-- The image `mysql|x` with the container `9f`. -/
def barImagePod : Obj :=
  .pod (managedPod [⟨true, lit ['m', 'y', 's', 'q', 'l', '|', 'x'], lit ['9', 'f']⟩])

/-- The id of the container of either pod. -/
def barId : GoString := lit ['m', 'y', 's', 'q', 'l', '|', 'x', '|', '9', 'f']

/-- Containers `x|9f` and `9f` have the pids 10 and 11. -/
def barPids (c : GoString) : Option Int :=
  if c = lit ['x', '|', '9', 'f'] then some 10 else if c = lit ['9', 'f'] then some 11 else none

/-- A program for each of the two images. -/
def barEnv : Env where
  programs := [⟨false, lit ['m', 'y', 's', 'q', 'l'], perconaProperties⟩,
    ⟨false, lit ['m', 'y', 's', 'q', 'l', '|', 'x'], perconaProperties⟩]
  cri := barPids
  child := barPids

/-- Both pods are created. -/
def barPods : List (Bool × PodEvent) := [(true, .create barPod), (false, .create barImagePod)]

def barPodsLate : List (Bool × PodEvent) := [(false, .create barImagePod), (true, .create barPod)]

theorem barPods_apart : Registry.PodsApart barPods := by
  refine pods_apart (f := fun b => if b then lit ['x', '|', '9', 'f'] else lit ['9', 'f'])
    (by decide) ?_
  intro e he cid hcid
  obtain ⟨c, hc, hp⟩ := hcid
  simp only [barPods, List.mem_cons, List.not_mem_nil, or_false] at he
  rcases he with rfl | rfl <;> obtain rfl := List.mem_singleton.mp hc <;>
    exact (Option.some.inj (hp.symm.trans (by decide)))

/-- The second pod is found registered. -/
def barRun (first second : Obj) (pid : Int) : List (Action Unit) :=
  registerPod first pid ++ [.deliver () (.create second), .iterate (), .iterate ()]

/-- **Two containers with one id.** With a version that contains `|`, the pod that comes first is
registered, and the other one is not. -/
theorem shared_id : ¬ ∀ (env : Env) (es es' : List (Bool × PodEvent)) (as as' : List (Action Unit))
    (s s' : Runner Unit), (∀ c c' k, env.key c = some k → env.key c' = some k → c = c') →
      Interleave.SamePerKey es es' → Registry.PodsApart es →
      HandlesAll env (es.map Prod.snd) as s → HandlesAll env (es'.map Prod.snd) as' s' →
      s.instances = s'.instances ∧ s.clusters = s'.clusters := by
  intro hall
  have hobs : (Trace.run step (init barEnv.programs) (barRun barPod barImagePod 10)).any
      (fun s : Runner Unit => decide (s.Quiet ∧ (s.instances barId).map Instance.pid = some 10)) =
        true := by
    decide +kernel
  have hobs' : (Trace.run step (init barEnv.programs) (barRun barImagePod barPod 11)).any
      (fun s : Runner Unit => decide (s.Quiet ∧ (s.instances barId).map Instance.pid = some 11)) =
        true := by
    decide +kernel
  obtain ⟨s, hs, hend⟩ := (Option.any_eq_true ..).mp hobs
  obtain ⟨s', hs', hend'⟩ := (Option.any_eq_true ..).mp hobs'
  obtain ⟨hq, hpid⟩ := of_decide_eq_true hend
  obtain ⟨hq', hpid'⟩ := of_decide_eq_true hend'
  have h : HandlesAll barEnv (barPods.map Prod.snd) (barRun barPod barImagePod 10) s :=
    ⟨hs, by decide +kernel, by decide +kernel, hq, by decide +kernel⟩
  have h' : HandlesAll barEnv (barPodsLate.map Prod.snd) (barRun barImagePod barPod 11) s' :=
    ⟨hs', by decide +kernel, by decide +kernel, hq', by decide +kernel⟩
  have hkeys := keys_apart barEnv _ _ (fun _ => rfl) fun _ => rfl
  have hsame : Interleave.SamePerKey barPods barPodsLate :=
    (by decide +kernel : ∀ k, Interleave.only k barPods = Interleave.only k barPodsLate)
  have heq := (hall barEnv barPods barPodsLate _ _ s s' hkeys hsame barPods_apart h h').1
  rw [heq, hpid'] at hpid
  cases hpid

end Runner

end EDGuard
