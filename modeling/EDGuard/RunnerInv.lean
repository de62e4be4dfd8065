import EDGuard.Runner

/-!
# Invariants of the runner

* `Locked` — `r.mu` is held by exactly the party that stands in a critical section.
* `Known` — every instance under way has a program, and every stored one stands under its own id;
  in particular `attachInstance` never dereferences a missing program.
* `locked_step`, `known_step` — both are kept by every step.
* `kept_step` — so is what `attachInstance` has stored, up to its end.
-/

set_option autoImplicit false

namespace EDGuard

/-- The main loop stands between `Lock` and `Unlock` of `attachInstance`. -/
def MainPc.inSection : MainPc → Bool
  | .attachBody _ | .attachUpdate _ _ | .attachErr _ | .attachSpawn _ => true
  | _ => false

/-- The handler stands between `Lock` and `Unlock` of `detachInstance`. -/
def CallbackPc.inSection : CallbackPc → Bool
  | .detachBody _ | .detachErr => true
  | _ => false

/-- The instance in the hand of the main loop. -/
def MainPc.instance : MainPc → Option Instance
  | .attachLock t | .attachBody t | .attachUpdate t _ | .attachErr t | .attachSpawn t => some t
  | _ => none

/-- The instance the main loop has stored and not finished. -/
def MainPc.stored : MainPc → Option Instance
  | .attachUpdate t _ | .attachErr t | .attachSpawn t => some t
  | _ => none

theorem MainPc.inSection_of_stored {pc : MainPc} {x : Instance} (h : pc.stored = some x) :
    pc.inSection = true := by
  cases pc <;> first | rfl | cases h

/-- The version of the instance a handler is about to register. -/
def CallbackPc.version : CallbackPc → Option GoString
  | .lookup _ imageId _ | .child _ imageId _ _ => some imageId
  | .add t => some t.version
  | _ => none

/-- The id a handler is detaching. -/
def CallbackPc.detaching : CallbackPc → Option GoString
  | .detachLock id | .detachBody id => some id
  | _ => none

theorem handler_quiet {e : PodEvent} {pc : CallbackPc} (h : e.handler = some pc) :
    pc.inSection = false ∧ pc.version = none := by
  rcases handler_cases h with rfl | ⟨pod, rfl⟩ | ⟨pod, rfl⟩ <;> exact ⟨rfl, rfl⟩

theorem iterate_quiet {programs : GoString → Option Program}
    {instances : GoString → Option Instance} {pc pc' : CallbackPc}
    (h : pc.iterate programs instances = some (some pc')) :
    pc.inSection = false ∧ pc'.inSection = false ∧
      ∀ v, pc'.version = some v → (programs v).isSome := by
  refine ⟨?_, ?_⟩
  · cases pc <;> first | rfl | cases h
  · rcases iterate_cases h with ⟨rfl, _⟩ | ⟨pod, c, rest, rfl, rfl⟩ |
      ⟨pod, c, rest, imageId, containerId, rfl, hfound, rfl⟩ | ⟨c, rest, rfl, rfl⟩ |
      ⟨c, rest, imageId, containerId, rfl, hfound, rfl⟩
    · exact ⟨rfl, fun v hv => by cases hv⟩
    · exact ⟨rfl, fun v hv => by cases hv⟩
    · refine ⟨rfl, fun v hv => ?_⟩
      cases hv
      exact (updateIteration_found hfound).2.2.1
    · exact ⟨rfl, fun v hv => by cases hv⟩
    · exact ⟨rfl, fun v hv => by cases hv⟩

theorem iterate_not_detaching {programs : GoString → Option Program}
    {instances : GoString → Option Instance} {pc : CallbackPc} {r : Option CallbackPc}
    (h : pc.iterate programs instances = some r) : pc.detaching = none := by
  cases pc <;> first | rfl | cases h

namespace Runner

variable {ι : Type} [DecidableEq ι]

@[simp] theorem setCallback_self (s : Runner ι) (i : ι) (pc : CallbackPc) :
    (s.setCallback i pc).callbacks i = pc := Function.update_self ..

theorem setCallback_of_ne (s : Runner ι) {i j : ι} (h : j ≠ i) (pc : CallbackPc) :
    (s.setCallback i pc).callbacks j = s.callbacks j := Function.update_of_ne h ..

/-- The program point of a handler after `setCallback`. -/
theorem setCallback_cases {β : Type} (f : CallbackPc → β) {s : Runner ι} {i j : ι} {pc : CallbackPc}
    {b : β} (h : f ((s.setCallback j pc).callbacks i) = b) :
    f (s.callbacks i) = b ∨ i = j ∧ f pc = b := by
  rcases eq_or_ne i j with rfl | hij
  · rw [setCallback_self] at h
    exact Or.inr ⟨rfl, h⟩
  · rw [setCallback_of_ne s hij] at h
    exact Or.inl h

/-! ## The lock -/

/-- `r.mu` is held by exactly the party in a critical section. -/
structure Locked (s : Runner ι) : Prop where
  main : s.main.inSection = true ↔ s.mu = some .main
  callback : ∀ i, (s.callbacks i).inSection = true ↔ s.mu = some (.callback i)
  attacher : ∀ k, s.mu ≠ some (.attacher k)

omit [DecidableEq ι] in
/-- Steps that neither lock nor unlock. -/
theorem Locked.frame {s t : Runner ι} (hl : s.Locked) (hmu : t.mu = s.mu)
    (hmain : t.main.inSection = s.main.inSection)
    (hcb : ∀ i, (t.callbacks i).inSection = (s.callbacks i).inSection) : t.Locked := by
  refine ⟨?_, fun i => ?_, fun k => ?_⟩
  · rw [hmain, hmu]
    exact hl.main
  · rw [hcb, hmu]
    exact hl.callback i
  · rw [hmu]
    exact hl.attacher k

theorem Locked.setCallback {s : Runner ι} (hl : s.Locked) {i : ι} {pc : CallbackPc}
    (hfrom : (s.callbacks i).inSection = pc.inSection) : (s.setCallback i pc).Locked := by
  refine hl.frame rfl rfl fun j => ?_
  rcases eq_or_ne j i with rfl | hj
  · rw [setCallback_self, hfrom]
  · rw [setCallback_of_ne s hj]

/-- A handler that leaves its critical section unlocks. -/
theorem Locked.unlock {s t : Runner ι} (hl : s.Locked) {i : ι} (hi : (s.callbacks i).inSection)
    (pc : CallbackPc) (hpc : pc.inSection = false) (hmu : t.mu = none) (hmain : t.main = s.main)
    (hcb : t.callbacks = (s.setCallback i pc).callbacks) : t.Locked := by
  have hheld : s.mu = some (.callback i) := (hl.callback i).mp hi
  refine ⟨?_, fun j => ?_, fun k => ?_⟩
  · rw [hmain, hmu, hl.main, hheld]
    simp
  · rw [hcb, hmu]
    rcases eq_or_ne j i with rfl | hj
    · simp [hpc]
    · rw [setCallback_of_ne s hj, hl.callback j, hheld]
      simp [Ne.symm hj]
  · rw [hmu]
    simp

theorem locked_step {s t : Runner ι} {a : Action ι} (hl : s.Locked) (h : Step s a t) :
    t.Locked := by
  cases h with
  | deliver hidle hh => exact hl.setCallback (by rw [hidle, (handler_quiet hh).1]; rfl)
  | iterate hit => exact hl.setCallback (by rw [(iterate_quiet hit).1, (iterate_quiet hit).2.1])
  | lookupErr hcb => exact hl.setCallback (by rw [hcb]; rfl)
  | lookup hcb => exact hl.setCallback (by rw [hcb]; rfl)
  | childErr hcb => exact hl.setCallback (by rw [hcb]; rfl)
  | child hcb => exact hl.setCallback (by rw [hcb]; rfl)
  | recvLookupErr _ hcb => exact hl.setCallback (by rw [hcb]; rfl)
  | deleteErr hcb _ => exact hl.setCallback (by rw [hcb]; rfl)
  | @recvCh i x hmain hcb =>
    have hset : (s.setCallback i .idle).Locked := hl.setCallback (by rw [hcb]; rfl)
    exact hset.frame rfl (by rw [show (s.setCallback i .idle).main = s.main from rfl, hmain]; rfl)
      fun _ => rfl
  | @recvDetachErr i _ hcb => exact hl.unlock (by rw [hcb]; rfl) .idle rfl rfl rfl rfl
  | recvAttachErr _ _ _ => exact hl.frame rfl rfl fun _ => rfl
  | lockAttach hmain hmu =>
    refine ⟨by simp [MainPc.inSection], fun i => ?_, fun k => by simp⟩
    have hno := hl.callback i
    rw [hmu] at hno
    simp only [reduceCtorEq, iff_false, Bool.not_eq_true] at hno
    simp [hno]
  | store hmain _ => exact hl.frame rfl (by rw [hmain]; rfl) fun _ => rfl
  | update hmain _ => exact hl.frame rfl (by rw [hmain]; rfl) fun _ => rfl
  | updateErr hmain => exact hl.frame rfl (by rw [hmain]; rfl) fun _ => rfl
  | spawn hmain =>
    have hheld : s.mu = some .main := hl.main.mp (by rw [hmain]; rfl)
    refine ⟨by simp [MainPc.inSection], fun i => ?_, fun k => by simp⟩
    have hno := hl.callback i
    rw [hheld] at hno
    simp only [Option.some.injEq, reduceCtorEq, iff_false, Bool.not_eq_true] at hno
    simp [hno]
  | @lockDetach i id hcb hmu =>
    refine ⟨?_, fun j => ?_, fun k => by simp⟩
    · have hno := hl.main
      rw [hmu] at hno
      simp only [reduceCtorEq, iff_false, Bool.not_eq_true] at hno
      simp [Runner.setCallback, hno]
    · show ((s.setCallback i (.detachBody id)).callbacks j).inSection = true ↔ _
      rcases eq_or_ne j i with rfl | hj
      · simp [CallbackPc.inSection]
      · have hno := hl.callback j
        rw [hmu] at hno
        simp only [reduceCtorEq, iff_false, Bool.not_eq_true] at hno
        rw [setCallback_of_ne s hj, hno]
        simp [Ne.symm hj]
  | deleteAbsent hcb _ => exact hl.unlock (by rw [hcb]; rfl) .idle rfl rfl rfl rfl
  | delete hcb _ _ => exact hl.unlock (by rw [hcb]; rfl) .idle rfl rfl rfl rfl
  | probe _ _ => exact hl.frame rfl rfl fun _ => rfl
  | mark _ _ => exact hl.frame rfl rfl fun _ => rfl
  | unattach _ _ _ => exact hl.frame rfl rfl fun _ => rfl
  | cancel => exact hl.frame rfl rfl fun _ => rfl
  | leave hmain _ => exact hl.frame rfl (by rw [hmain]; rfl) fun _ => rfl
  | deferCancel hmain => exact hl.frame rfl (by rw [hmain]; rfl) fun _ => rfl
  | deferWait hmain _ => exact hl.frame rfl (by rw [hmain]; rfl) fun _ => rfl
  | deferCloseCh hmain => exact hl.frame rfl (by rw [hmain]; rfl) fun _ => rfl
  | deferCloseErr hmain => exact hl.frame rfl (by rw [hmain]; rfl) fun _ => rfl
  | crashDeliver _ _ => exact hl.frame rfl rfl fun _ => rfl
  | crashIterate _ => exact hl.frame rfl rfl fun _ => rfl
  | crashStore _ _ => exact hl.frame rfl rfl fun _ => rfl
  | crashSend _ => exact hl.frame rfl rfl fun _ => rfl

omit [DecidableEq ι] in
theorem locked_init (programs : List Program) : (init programs : Runner ι).Locked := by
  refine ⟨?_, fun i => ?_, fun k => ?_⟩ <;> simp [init, MainPc.inSection, CallbackPc.inSection]

/-! ## Programs and ids -/

/-- Every instance under way has a program; every stored one stands under its own id. -/
structure Known (s : Runner ι) : Prop where
  callback : ∀ i v, (s.callbacks i).version = some v → (s.bpfPrograms v).isSome
  main : ∀ x, s.main.instance = some x → (s.bpfPrograms x.version).isSome
  stored : ∀ id x, s.instances id = some x → x.GetId = id ∧ (s.bpfPrograms x.version).isSome

/-- The set of programs never changes. -/
theorem isSome_bpfPrograms {s t : Runner ι} {a : Action ι} (h : Step s a t) (v : GoString) :
    (t.bpfPrograms v).isSome = (s.bpfPrograms v).isSome := by
  cases h with
  | @mark k x _ _ =>
    show (Function.update s.bpfPrograms x.version _ v).isSome = _
    rcases eq_or_ne v x.version with rfl | hv
    · simp
    · rw [Function.update_of_ne hv]
  | _ => rfl

/-- The instance in the hand of the main loop is the one it had or the one it receives. -/
theorem instance_main {s t : Runner ι} {a : Action ι} (h : Step s a t) {x : Instance}
    (hx : t.main.instance = some x) :
    s.main.instance = some x ∨ ∃ i, a = .recvCh i ∧ s.callbacks i = .add x := by
  cases h with
  | recvCh hmain hcb =>
    cases hx
    exact Or.inr ⟨_, rfl, hcb⟩
  | lockAttach hmain _ | store hmain _ | update hmain _ | updateErr hmain =>
    rw [hmain]
    exact Or.inl hx
  | spawn _ | leave _ _ | deferCancel _ | deferWait _ _ | deferCloseCh _ | deferCloseErr _ =>
    cases hx
  | _ => exact Or.inl hx

/-- A stored instance was stored before or is stored by this step. -/
theorem instances_step {s t : Runner ι} {a : Action ι} (h : Step s a t) {id : GoString}
    {x : Instance} (hx : t.instances id = some x) :
    s.instances id = some x ∨ a = .store ∧ s.main = .attachBody x ∧ id = x.GetId := by
  cases h with
  | @store y _ hmain _ =>
    have hx' : Function.update s.instances y.GetId (some y) id = some x := hx
    rcases eq_or_ne id y.GetId with rfl | hid
    · rw [Function.update_self] at hx'
      cases hx'
      exact Or.inr ⟨rfl, hmain, rfl⟩
    · rw [Function.update_of_ne hid] at hx'
      exact Or.inl hx'
  | @delete _ id' _ _ _ _ _ =>
    have hx' : Function.update s.instances id' none id = some x := hx
    rcases eq_or_ne id id' with rfl | hid
    · rw [Function.update_self] at hx'
      cases hx'
    · rw [Function.update_of_ne hid] at hx'
      exact Or.inl hx'
  | _ => exact Or.inl hx

/-- The version a handler is about to register is the one it had or the image it has found. -/
theorem version_callback {s t : Runner ι} {a : Action ι} (h : Step s a t) {i : ι} {v : GoString}
    (hv : (t.callbacks i).version = some v) :
    (s.callbacks i).version = some v ∨ (s.bpfPrograms v).isSome := by
  cases h with
  | deliver _ hh =>
    rcases setCallback_cases CallbackPc.version hv with hold | ⟨_, hnew⟩
    · exact Or.inl hold
    · rw [(handler_quiet hh).2] at hnew
      cases hnew
  | iterate hit =>
    rcases setCallback_cases CallbackPc.version hv with hold | ⟨_, hnew⟩
    · exact Or.inl hold
    · exact Or.inr ((iterate_quiet hit).2.2 v hnew)
  | lookup hcb =>
    rcases setCallback_cases CallbackPc.version hv with hold | ⟨rfl, hnew⟩
    · exact Or.inl hold
    · rw [hcb]
      exact Or.inl hnew
  | child hcb =>
    rcases setCallback_cases CallbackPc.version hv with hold | ⟨rfl, hnew⟩
    · exact Or.inl hold
    · rw [hcb]
      exact Or.inl hnew
  | lookupErr _ | childErr _ | recvCh _ _ | recvLookupErr _ _ | recvDetachErr _ _
  | lockDetach _ _ | deleteAbsent _ _ | delete _ _ _ | deleteErr _ _ =>
    rcases setCallback_cases CallbackPc.version hv with hold | ⟨_, hnew⟩
    · exact Or.inl hold
    · cases hnew
  | _ => exact Or.inl hv

theorem known_step {s t : Runner ι} {a : Action ι} (hk : s.Known) (h : Step s a t) : t.Known := by
  refine ⟨fun i v hv => ?_, fun x hx => ?_, fun id x hx => ?_⟩
  · rw [isSome_bpfPrograms h]
    rcases version_callback h hv with hv | hv
    · exact hk.callback i v hv
    · exact hv
  · rw [isSome_bpfPrograms h]
    rcases instance_main h hx with hx | ⟨i, _, hcb⟩
    · exact hk.main x hx
    · exact hk.callback i x.version (by rw [hcb]; rfl)
  · rw [isSome_bpfPrograms h]
    rcases instances_step h hx with hx | ⟨_, hmain, rfl⟩
    · exact hk.stored id x hx
    · exact ⟨rfl, hk.main x (by rw [hmain]; rfl)⟩

omit [DecidableEq ι] in
theorem known_init (programs : List Program) : (init programs : Runner ι).Known := by
  refine ⟨fun i v hv => ?_, fun x hx => ?_, fun id x hx => ?_⟩
  · cases hv
  · cases hx
  · cases hx

/-! ## Stored instances -/

/-- The instance that `attachInstance` has stored is still there when it goes on. -/
def Kept (s : Runner ι) : Prop := ∀ x, s.main.stored = some x → s.instances x.GetId = some x

theorem kept_step {s t : Runner ι} {a : Action ι} (hl : s.Locked) (hk : s.Kept)
    (h : Step s a t) : t.Kept := by
  intro x hx
  cases h with
  | store _ _ =>
    cases hx
    exact Function.update_self ..
  | update hmain _ | updateErr hmain =>
    cases hx
    exact hk x (by rw [hmain]; rfl)
  | recvCh _ _ | lockAttach _ _ | spawn _ | leave _ _ | deferCancel _ | deferWait _ _
  | deferCloseCh _ | deferCloseErr _ => cases hx
  | @delete i id y m hcb _ _ =>
    have hheld : s.mu = some (.callback i) := (hl.callback i).mp (by rw [hcb]; rfl)
    have hmain := hl.main.mp (MainPc.inSection_of_stored hx)
    rw [hheld] at hmain
    cases hmain
  | _ => exact hk x hx

/-! ## Outcomes -/

/-- The action is no failed operation on `clusters`. -/
def Action.MapOk : Action ι → Prop
  | .update ok | .delete _ ok => ok = true
  | _ => True

instance : ∀ a : Action ι, Decidable a.MapOk
  | .update ok | .delete _ ok => inferInstanceAs (Decidable (ok = true))
  | .deliver .. | .iterate _ | .lookup .. | .child .. | .recvCh _ | .recvErr _ | .lockAttach
  | .store | .spawn | .lockDetach _ | .probe .. | .mark _ | .unattach _ | .cancel | .leave
  | .unwind | .sendClosed _ => isTrue trivial

end Runner

end EDGuard
