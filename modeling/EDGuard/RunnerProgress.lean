import EDGuard.RunnerInv

/-!
# Progress of the runner

* `live_of_opsFine` — while no map operation fails at a bad moment, every blocked party can be
  unblocked by steps of the runner alone.
* `update_failure_deadlocks` — one failed `clusters.Update` blocks the main loop on its own
  channel, with `r.mu` held, for good.
-/

set_option autoImplicit false

namespace EDGuard

namespace Runner

variable {ι : Type}

/-- The party waits for `r.mu`, for a receiver on `r.ch` or for one on `r.internalErrChan`. -/
def Blocked (s : Runner ι) : Party ι → Prop
  | .main => (∃ t, s.main = .attachLock t) ∧ s.mu ≠ none ∨ ∃ t, s.main = .attachErr t
  | .callback i => (∃ id, s.callbacks i = .detachLock id) ∧ s.mu ≠ none ∨
      (∃ t, s.callbacks i = .add t) ∨ s.callbacks i = .sendErr ∨ s.callbacks i = .detachErr
  | .attacher k => ∃ a, s.attachers[k]? = some a ∧ a.pc = .sendErr

/-- The party waits for a receiver on `r.internalErrChan`. -/
def SendsErr (s : Runner ι) : Party ι → Prop
  | .main => ∃ t, s.main = .attachErr t
  | .callback i => s.callbacks i = .sendErr ∨ s.callbacks i = .detachErr
  | .attacher k => ∃ a, s.attachers[k]? = some a ∧ a.pc = .sendErr

/-- The party stands elsewhere in `t`. -/
def Moved (s t : Runner ι) : Party ι → Prop
  | .main => t.main ≠ s.main
  | .callback i => t.callbacks i ≠ s.callbacks i
  | .attacher k => t.attachers[k]? ≠ s.attachers[k]?

/-- A step of the runner, not of the informer or of whoever cancels the context. -/
def Action.Own : Action ι → Prop
  | .deliver .. | .cancel => False
  | _ => True

variable [DecidableEq ι]

/-- Every blocked party can be unblocked by steps of the runner, and whoever holds `r.mu` and
waits for a receiver on `r.internalErrChan` has one in the main loop. -/
def Live (s : Runner ι) : Prop :=
  (∀ p, s.Blocked p → ∃ t, Trace.Reaches step Action.Own s t ∧ s.Moved t p) ∧
  ∀ p, s.mu = some p → s.SendsErr p → s.main = .select

/-! ## The condition -/

/-- `clusters.Delete` for the instance `id` can succeed, or there is none. -/
def Deletable (s : Runner ι) (id : GoString) : Prop :=
  ∀ x ∈ s.instances id, x.pidKey ∈ s.clusters.keys

/-- Handler `j` is in `detachInstance` and will free an entry of `clusters`. -/
def FreesRoom (s : Runner ι) (j : ι) : Prop :=
  ∃ id ∈ (s.callbacks j).detaching, ∃ x ∈ s.instances id, x.pidKey ∈ s.clusters.keys

/-- `clusters` takes the key of `t`, now or after a detach under way. -/
def Room (s : Runner ι) (t : Instance) : Prop :=
  s.clusters.Accepts t.pidKey ∨ ∃ j, s.FreesRoom j

/-- No handler that holds `r.mu` has failed to delete or is bound to fail. -/
def HolderFine (s : Runner ι) : Prop :=
  ∀ i, s.callbacks i ≠ .detachErr ∧ ∀ id, s.callbacks i = .detachBody id → s.Deletable id

/-- Updates succeed; the main loop takes an instance only when there will be room for its key and
no handler holds the lock with a failed deletion or one that cannot succeed; while the main loop is
not at its `select`, a handler takes the lock only for a deletion that can succeed, and a deletion
fails only for an instance that is not there. -/
def OpsFine (s : Runner ι) : Action ι → Prop
  | .recvCh i => (∀ t, s.callbacks i = .add t → s.Room t) ∧ s.HolderFine
  | .lockAttach => ∀ t, s.main = .attachLock t → s.clusters.Accepts t.pidKey
  | .update ok => ok = true
  | .lockDetach i => s.main = .select ∨ ∀ id, s.callbacks i = .detachLock id → s.Deletable id
  | .delete i ok => ok = true ∨ s.main = .select ∨
      ∀ id, s.callbacks i = .detachBody id → s.instances id = none
  | _ => True

/-! ## What the condition keeps -/

/-- What is known at each place of the main loop. -/
def FineAt (s : Runner ι) : MainPc → Prop
  | .select | .attachSpawn _ => True
  | .attachLock t => s.Room t ∧ s.HolderFine
  | .attachBody t | .attachUpdate t _ => s.clusters.Accepts t.pidKey
  | _ => False

def Fine (s : Runner ι) : Prop := s.FineAt s.main

omit [DecidableEq ι] in
theorem Fine.frame {s t : Runner ι} (hf : s.Fine) (hmain : t.main = s.main)
    (hcl : t.clusters = s.clusters) (hin : t.instances = s.instances)
    (hcb : t.callbacks = s.callbacks) : t.Fine := by
  have hat : ∀ pc, t.FineAt pc = s.FineAt pc := by
    intro pc
    cases pc <;> simp only [FineAt, Room, HolderFine, FreesRoom, Deletable, hcl, hin, hcb]
  unfold Fine
  rw [hmain, hat]
  exact hf

omit [DecidableEq ι] in
/-- Only the main loop that waits for `r.mu` depends on the handlers. -/
theorem Fine.waiting {s t : Runner ι} (hf : s.Fine) (hmain : t.main = s.main)
    (hcl : t.clusters = s.clusters)
    (hlock : ∀ x, s.main = .attachLock x → s.Room x → s.HolderFine → t.Room x ∧ t.HolderFine) :
    t.Fine := by
  unfold Fine at *
  rw [hmain]
  cases hm : s.main with
  | attachLock x =>
    rw [hm] at hf
    exact hlock x hm hf.1 hf.2
  | attachBody x | attachUpdate x _ =>
    rw [hm] at hf
    show t.clusters.Accepts x.pidKey
    rw [hcl]
    exact hf
  | _ =>
    rw [hm] at hf
    exact hf

theorem room_setCallback {s : Runner ι} {x : Instance} (h : s.Room x) {i : ι} {pc : CallbackPc}
    (hi : s.FreesRoom i → (s.setCallback i pc).FreesRoom i) : (s.setCallback i pc).Room x := by
  rcases h with hacc | ⟨j, hfree⟩
  · exact Or.inl hacc
  · refine Or.inr ⟨j, ?_⟩
    rcases eq_or_ne j i with rfl | hj
    · exact hi hfree
    · obtain ⟨id, hid, hx⟩ := hfree
      refine ⟨id, ?_, hx⟩
      rw [setCallback_of_ne s hj]
      exact hid

theorem holderFine_setCallback {s : Runner ι} (h : s.HolderFine) {i : ι} {pc : CallbackPc}
    (herr : pc ≠ .detachErr) (hbody : ∀ id, pc = .detachBody id → s.Deletable id) :
    (s.setCallback i pc).HolderFine := by
  intro j
  rcases eq_or_ne j i with rfl | hj
  · rw [setCallback_self]
    exact ⟨herr, hbody⟩
  · rw [setCallback_of_ne s hj]
    exact h j

omit [DecidableEq ι] in
/-- A handler that is not detaching frees no entry. -/
theorem not_freesRoom {s : Runner ι} {i : ι} (h : (s.callbacks i).detaching = none) :
    ¬ s.FreesRoom i := by
  rintro ⟨id, hid, _⟩
  rw [h] at hid
  cases hid

/-- A handler that was not detaching moves to a place without the lock. -/
theorem Fine.setCallback {s : Runner ι} (hf : s.Fine) {i : ι} {pc : CallbackPc}
    (hold : (s.callbacks i).detaching = none) (hnew : pc.inSection = false) :
    (s.setCallback i pc).Fine := by
  refine hf.waiting rfl rfl fun x _ hroom hfine => ⟨?_, ?_⟩
  · exact room_setCallback hroom fun hfree => absurd hfree (not_freesRoom hold)
  · refine holderFine_setCallback hfine ?_ fun id hpc => ?_
    · rintro rfl
      cases hnew
    · rw [hpc] at hnew
      cases hnew

theorem fine_step {s t : Runner ι} {a : Action ι} (hl : s.Locked) (hf : s.Fine)
    (hg : s.OpsFine a) (h : Step s a t) (hctx : t.ctxDone = false) : t.Fine := by
  cases h with
  | deliver hidle hh => exact hf.setCallback (by rw [hidle]; rfl) (handler_quiet hh).1
  | iterate hit => exact hf.setCallback (iterate_not_detaching hit) (iterate_quiet hit).2.1
  | lookupErr hcb | lookup hcb | childErr hcb | child hcb =>
    exact hf.setCallback (by rw [hcb]; rfl) rfl
  | recvLookupErr _ hcb => exact hf.setCallback (by rw [hcb]; rfl) rfl
  | @recvCh i x hmain hcb =>
    refine ⟨room_setCallback (hg.1 x hcb) fun hfree => ?_, holderFine_setCallback hg.2 (by simp) ?_⟩
    · exact absurd hfree (not_freesRoom (by rw [hcb]; rfl))
    · intro id hpc
      cases hpc
  | recvDetachErr hmain _ =>
    show Runner.FineAt _ s.main
    rw [hmain]
    trivial
  | recvAttachErr _ _ _ => exact hf.frame rfl rfl rfl rfl
  | lockAttach hmain _ => exact hg _ hmain
  | store hmain _ =>
    unfold Fine at hf
    rw [hmain] at hf
    exact hf
  | update _ _ => trivial
  | updateErr _ => cases hg
  | spawn _ => trivial
  | @lockDetach i id hcb _ =>
    refine hf.waiting rfl rfl fun x hm hroom hfine => ⟨room_setCallback hroom ?_, ?_⟩
    · rintro ⟨id', hid, hx⟩
      refine ⟨id', ?_, hx⟩
      rw [setCallback_self]
      rw [hcb] at hid
      exact hid
    · refine holderFine_setCallback hfine (by simp) fun id' hpc => ?_
      cases hpc
      rcases hg with hsel | hdel
      · rw [hm] at hsel
        cases hsel
      · exact hdel id hcb
  | @deleteAbsent i id ok hcb hnone =>
    refine hf.waiting rfl rfl fun x _ hroom hfine => ⟨room_setCallback hroom ?_, ?_⟩
    · -- the instance is gone, so its removal would have freed nothing
      rintro ⟨id', hid, y, hy, _⟩
      rw [hcb] at hid
      cases hid
      rw [hnone] at hy
      cases hy
    · refine holderFine_setCallback hfine (by simp) fun id' hpc => ?_
      cases hpc
  | @delete i id x m hcb hx hm =>
    have hacc : ∀ k, m.Accepts k := fun k => BoundedMap.accepts_of_delete hm
    have hheld : s.mu = some (.callback i) := (hl.callback i).mp (by rw [hcb]; rfl)
    show Runner.FineAt _ s.main
    unfold Fine at hf
    cases hmain : s.main with
    | attachLock y =>
      refine ⟨Or.inl (hacc _), fun j => ?_⟩
      -- the lock was held by `i` alone
      have hj : ((s.setCallback i .idle).callbacks j).inSection = false := by
        rcases eq_or_ne j i with rfl | hj
        · simp [CallbackPc.inSection]
        · rw [setCallback_of_ne s hj]
          have hno := (hl.callback j).not.mpr (by rw [hheld]; simpa using Ne.symm hj)
          simpa using hno
      show (s.setCallback i .idle).callbacks j ≠ _ ∧ ∀ id',
        (s.setCallback i .idle).callbacks j = _ → _
      constructor
      · intro herr
        rw [herr] at hj
        cases hj
      · intro id' hbody
        rw [hbody] at hj
        cases hj
    | select | attachSpawn _ => trivial
    | attachBody _ | attachUpdate _ _ => exact hacc _
    | attachErr _ | deferCancel | deferWait | deferCloseCh | deferCloseErr | exited =>
      rw [hmain] at hf
      exact hf
  | @deleteErr i id x hcb hx =>
    refine hf.waiting rfl rfl fun y hm _ _ => ?_
    rcases hg with hok | hsel | habs
    · cases hok
    · rw [hm] at hsel
      cases hsel
    · rw [habs id hcb] at hx
      cases hx
  | probe _ _ => exact hf.frame rfl rfl rfl rfl
  | mark _ _ => exact hf.frame rfl rfl rfl rfl
  | unattach _ _ _ => exact hf.frame rfl rfl rfl rfl
  | cancel => cases hctx
  | leave _ hdone =>
    have hdone' : s.ctxDone = false := hctx
    rw [hdone'] at hdone
    cases hdone
  | deferCancel hmain | deferWait hmain _ | deferCloseCh hmain | deferCloseErr hmain =>
    unfold Fine at hf
    rw [hmain] at hf
    exact hf.elim
  | crashDeliver _ _ | crashIterate _ | crashStore _ _ | crashSend _ =>
    exact hf.frame rfl rfl rfl rfl

/-! ## Paths of the runner -/

/-- A running state with all invariants. -/
structure Healthy (s : Runner ι) : Prop where
  running : s.crashed = false
  live : s.ctxDone = false
  locked : s.Locked
  known : s.Known
  fine : s.Fine

theorem Healthy.advance {s t : Runner ι} {a : Action ι} (hs : s.Healthy) (h : Step s a t)
    (hg : s.OpsFine a) (hc : t.crashed = s.crashed) (hx : t.ctxDone = s.ctxDone) : t.Healthy :=
  ⟨hc.trans hs.running, hx.trans hs.live, locked_step hs.locked h, known_step hs.known h,
    fine_step hs.locked hs.fine hg h (hx.trans hs.live)⟩

theorem Healthy.reaches {s t : Runner ι} {a : Action ι} (hs : s.Healthy) (h : Step s a t)
    (hown : a.Own) : Trace.Reaches step Action.Own s t :=
  Step.reaches h hs.running hown

/-- `u` is reached from `s` by steps of whoever holds `r.mu` in `s`, and there the lock is free. -/
structure Freed (s u : Runner ι) : Prop where
  reaches : Trace.Reaches step Action.Own s u
  healthy : u.Healthy
  mu : u.mu = none
  main : s.mu ≠ some .main → u.main = s.main
  select : s.mu = some .main → u.main = .select
  callbacks : ∀ i, s.mu ≠ some (.callback i) → u.callbacks i = s.callbacks i
  attachers : ∀ (k : Nat) (a : Attacher), s.attachers[k]? = some a → u.attachers[k]? = some a

/-- One more step of the main loop in front. -/
theorem Freed.cons {s t u : Runner ι} (hst : Trace.Reaches step Action.Own s t)
    (hheld : s.mu = some .main) (hmu : t.mu = s.mu) (hcb : t.callbacks = s.callbacks)
    (hat : t.attachers = s.attachers) (h : Freed t u) : Freed s u := by
  refine ⟨hst.trans h.reaches, h.healthy, h.mu, fun hne => absurd hheld hne,
    fun _ => h.select (hmu.trans hheld), fun i hi => ?_, fun k a ha => ?_⟩
  · rw [h.callbacks i (hmu ▸ hi), hcb]
  · exact h.attachers k a (hat ▸ ha)

theorem freed_spawn {s : Runner ι} (hs : s.Healthy) {x : Instance} (hm : s.main = .attachSpawn x) :
    ∃ u, s.Freed u := by
  have hstep := Step.spawn hm
  have hheld : s.mu = some .main := hs.locked.main.mp (by rw [hm]; rfl)
  refine ⟨_, hs.reaches hstep trivial, hs.advance hstep trivial rfl rfl, rfl,
    fun hne => absurd hheld hne, fun _ => rfl, fun i _ => rfl, fun k a ha => ?_⟩
  have hlt : k < s.attachers.length := (List.getElem?_eq_some_iff.mp ha).1
  show (if _ then s.attachers ++ _ else s.attachers)[k]? = some a
  split
  · rw [List.getElem?_append_left hlt]
    exact ha
  · exact ha

theorem freed_update {s : Runner ι} (hs : s.Healthy) {x : Instance} {cluster : Cluster}
    (hm : s.main = .attachUpdate x cluster) : ∃ u, s.Freed u := by
  have hacc : s.clusters.Accepts x.pidKey := by
    have hf := hs.fine
    unfold Fine at hf
    rw [hm] at hf
    exact hf
  obtain ⟨m, hupd⟩ := BoundedMap.exists_update hacc cluster
  have hstep := Step.update hm hupd
  have hheld : s.mu = some .main := hs.locked.main.mp (by rw [hm]; rfl)
  obtain ⟨u, hu⟩ := freed_spawn (hs.advance hstep rfl rfl rfl) rfl
  exact ⟨u, hu.cons (hs.reaches hstep trivial) hheld rfl rfl rfl⟩

theorem freed_body {s : Runner ι} (hs : s.Healthy) {x : Instance} (hm : s.main = .attachBody x) :
    ∃ u, s.Freed u := by
  have hprog : (s.bpfPrograms x.version).isSome := hs.known.main x (by rw [hm]; rfl)
  obtain ⟨bpfProgram, hprog⟩ := Option.isSome_iff_exists.mp hprog
  have hstep := Step.store hm hprog
  have hheld : s.mu = some .main := hs.locked.main.mp (by rw [hm]; rfl)
  obtain ⟨u, hu⟩ := freed_update (hs.advance hstep trivial rfl rfl) rfl
  exact ⟨u, hu.cons (hs.reaches hstep trivial) hheld rfl rfl rfl⟩

/-- A handler that leaves its critical section in one step. -/
theorem freed_unlock {s t : Runner ι} {a : Action ι} {i : ι} (hs : s.Healthy)
    (hheld : s.mu = some (.callback i)) (h : Step s a t) (hown : a.Own) (hg : s.OpsFine a)
    (hc : t.crashed = s.crashed) (hx : t.ctxDone = s.ctxDone) (hmu : t.mu = none)
    (hmain : t.main = s.main) (hcb : ∀ j, j ≠ i → t.callbacks j = s.callbacks j)
    (hat : t.attachers = s.attachers) : s.Freed t := by
  refine ⟨hs.reaches h hown, hs.advance h hg hc hx, hmu, fun _ => hmain, fun hm => ?_,
    fun j hj => hcb j ?_, fun k b hb => hat ▸ hb⟩
  · rw [hheld] at hm
    cases hm
  · rintro rfl
    exact hj hheld

omit [DecidableEq ι] in
/-- While a handler holds the lock, the main loop is at its `select` or waits for the lock. -/
theorem Healthy.main_of_callback {s : Runner ι} (hs : s.Healthy) {i : ι}
    (hheld : s.mu = some (.callback i)) : s.main = .select ∨ ∃ x, s.main = .attachLock x := by
  have hf := hs.fine
  unfold Fine at hf
  cases hm : s.main with
  | select => exact Or.inl rfl
  | attachLock x => exact Or.inr ⟨x, rfl⟩
  | attachBody x | attachUpdate x c | attachSpawn x | attachErr x =>
    have hmain := hs.locked.main.mp (by rw [hm]; rfl)
    rw [hheld] at hmain
    cases hmain
  | deferCancel | deferWait | deferCloseCh | deferCloseErr | exited =>
    rw [hm] at hf
    exact hf.elim

omit [DecidableEq ι] in
/-- A handler that failed to delete finds the main loop at its `select`. -/
theorem Healthy.select_of_detachErr {s : Runner ι} (hs : s.Healthy) {i : ι}
    (hcb : s.callbacks i = .detachErr) : s.main = .select := by
  have hheld : s.mu = some (.callback i) := (hs.locked.callback i).mp (by rw [hcb]; rfl)
  rcases hs.main_of_callback hheld with hsel | ⟨x, hm⟩
  · exact hsel
  · have hf := hs.fine
    unfold Fine at hf
    rw [hm] at hf
    exact absurd hcb (hf.2 i).1

theorem freed_detachErr {s : Runner ι} (hs : s.Healthy) {i : ι}
    (hcb : s.callbacks i = .detachErr) : ∃ u, s.Freed u := by
  have hheld : s.mu = some (.callback i) := (hs.locked.callback i).mp (by rw [hcb]; rfl)
  have hstep := Step.recvDetachErr (hs.select_of_detachErr hcb) hcb
  exact ⟨_, freed_unlock hs hheld hstep trivial trivial rfl rfl rfl rfl
    (fun j hj => setCallback_of_ne s hj _) rfl⟩

theorem freed_detachBody {s : Runner ι} (hs : s.Healthy) {i : ι} {id : GoString}
    (hcb : s.callbacks i = .detachBody id) : ∃ u, s.Freed u := by
  have hheld : s.mu = some (.callback i) := (hs.locked.callback i).mp (by rw [hcb]; rfl)
  cases hx : s.instances id with
  | none =>
    have hstep : Step s (.delete i true) _ := .deleteAbsent hcb hx
    exact ⟨_, freed_unlock hs hheld hstep trivial (Or.inl rfl) rfl rfl rfl rfl
      (fun j hj => setCallback_of_ne s hj _) rfl⟩
  | some x =>
    cases hdel : s.clusters.delete x.pidKey with
    | some m =>
      have hstep := Step.delete hcb hx hdel
      exact ⟨_, freed_unlock hs hheld hstep trivial (Or.inl rfl) rfl rfl rfl rfl
        (fun j hj => setCallback_of_ne s hj _) rfl⟩
    | none =>
      -- the deletion fails, and then the main loop is at its `select` to take the error
      have hsel : s.main = .select := by
        have hkey := BoundedMap.delete_eq_none_iff.mp hdel
        rcases hs.main_of_callback hheld with hsel | ⟨y, hm⟩
        · exact hsel
        · have hf := hs.fine
          unfold Fine at hf
          rw [hm] at hf
          exact absurd ((hf.2 i).2 id hcb x hx) hkey
      have hstep := Step.deleteErr hcb hx
      have ht : (s.setCallback i .detachErr).Healthy :=
        hs.advance hstep (Or.inr (Or.inl hsel)) rfl rfl
      obtain ⟨u, hu⟩ := freed_detachErr ht (setCallback_self s i _)
      refine ⟨u, (hs.reaches hstep trivial).trans hu.reaches, hu.healthy, hu.mu, hu.main,
        hu.select, fun j hj => ?_, hu.attachers⟩
      have hji : j ≠ i := by
        rintro rfl
        exact hj hheld
      rw [hu.callbacks j hj, setCallback_of_ne s hji]

/-- **The lock can always be freed.** -/
theorem exists_freed {s : Runner ι} (hs : s.Healthy) : ∃ u, s.Freed u := by
  cases hmu : s.mu with
  | none =>
    refine ⟨s, .refl s, hs, hmu, fun _ => rfl, fun hm => ?_, fun _ _ => rfl, fun _ _ ha => ha⟩
    rw [hmu] at hm
    cases hm
  | some p =>
    cases p with
    | main =>
      have hsec := hs.locked.main.mpr hmu
      have hf := hs.fine
      unfold Fine at hf
      cases hm : s.main with
      | attachBody x => exact freed_body hs hm
      | attachUpdate x c => exact freed_update hs hm
      | attachSpawn x => exact freed_spawn hs hm
      | attachErr x =>
        rw [hm] at hf
        exact hf.elim
      | _ =>
        rw [hm] at hsec
        cases hsec
    | callback i =>
      have hsec := (hs.locked.callback i).mpr hmu
      cases hcb : s.callbacks i with
      | detachBody id => exact freed_detachBody hs hcb
      | detachErr => exact freed_detachErr hs hcb
      | _ =>
        rw [hcb] at hsec
        cases hsec
    | attacher k => exact absurd hmu (hs.locked.attacher k)

/-- `u` is reached from `s` without moving an attach goroutine or a handler that is not in
`detachInstance`. -/
structure Passed (s u : Runner ι) : Prop where
  reaches : Trace.Reaches step Action.Own s u
  healthy : u.Healthy
  callbacks : ∀ i, (s.callbacks i).inSection = false → (s.callbacks i).detaching = none →
    u.callbacks i = s.callbacks i
  attachers : ∀ (k : Nat) (a : Attacher), s.attachers[k]? = some a → u.attachers[k]? = some a

theorem Passed.trans {s t u : Runner ι} (h : Passed s t) (h' : Passed t u) : Passed s u := by
  refine ⟨h.reaches.trans h'.reaches, h'.healthy, fun i hsec hdet => ?_, fun k a ha => ?_⟩
  · have hcb := h.callbacks i hsec hdet
    rw [h'.callbacks i (hcb ▸ hsec) (hcb ▸ hdet), hcb]
  · exact h'.attachers k a (h.attachers k a ha)

theorem Freed.passed {s u : Runner ι} (hs : s.Healthy) (h : Freed s u) : Passed s u := by
  refine ⟨h.reaches, h.healthy, fun i hsec _ => h.callbacks i fun hmu => ?_, h.attachers⟩
  have hin := (hs.locked.callback i).mpr hmu
  rw [hsec] at hin
  cases hin

/-- With the lock free and room for the key, the main loop comes back to its `select`. -/
theorem passed_of_accepts {s : Runner ι} (hs : s.Healthy) {x : Instance}
    (hm : s.main = .attachLock x) (hmu : s.mu = none) (hacc : s.clusters.Accepts x.pidKey) :
    ∃ u, Passed s u ∧ u.main = .select := by
  have hstep := Step.lockAttach hm hmu
  have hfine : s.OpsFine .lockAttach := by
    intro y hy
    rw [hm] at hy
    cases hy
    exact hacc
  have ht := hs.advance hstep hfine rfl rfl
  obtain ⟨u, hu⟩ := exists_freed ht
  refine ⟨u, ?_, hu.select rfl⟩
  have hfirst : Passed s { s with mu := some .main, main := .attachBody x } :=
    ⟨hs.reaches hstep trivial, ht, fun _ _ _ => rfl, fun _ _ ha => ha⟩
  exact hfirst.trans (hu.passed ht)

/-- With the lock free, a detach under way makes room first. -/
theorem passed_of_freesRoom {s : Runner ι} (hs : s.Healthy) {x : Instance}
    (hm : s.main = .attachLock x) (hmu : s.mu = none) {j : ι} (hj : s.FreesRoom j) :
    ∃ u, Passed s u ∧ u.main = .select := by
  obtain ⟨id, hid, y, hy, hkey⟩ := hj
  have hcb : s.callbacks j = .detachLock id := by
    cases hpc : s.callbacks j with
    | detachLock id' =>
      rw [hpc] at hid
      cases hid
      rfl
    | detachBody id' =>
      have hheld := (hs.locked.callback j).mp (by rw [hpc]; rfl)
      rw [hmu] at hheld
      cases hheld
    | _ =>
      rw [hpc] at hid
      cases hid
  have hstep := Step.lockDetach hcb hmu
  have hdel : ∀ id', s.callbacks j = .detachLock id' → s.Deletable id' := by
    intro id' hid' z hz
    rw [hcb] at hid'
    cases hid'
    obtain rfl : y = z := Option.some.inj (hy.symm.trans hz)
    exact hkey
  have ht := hs.advance hstep (Or.inr hdel) rfl rfl
  have hbody : ({ s.setCallback j (.detachBody id) with mu := some (.callback j) }).callbacks j =
      .detachBody id := setCallback_self s j _
  cases hm' : s.clusters.delete y.pidKey with
  | none => exact absurd hkey (BoundedMap.delete_eq_none_iff.mp hm')
  | some m =>
    have hstep' := Step.delete hbody hy hm'
    have hu := ht.advance hstep' (Or.inl rfl) rfl rfl
    obtain ⟨w, hw, hsel⟩ := passed_of_accepts hu hm rfl (BoundedMap.accepts_of_delete hm')
    refine ⟨w, Passed.trans ⟨(hs.reaches hstep trivial).trans (ht.reaches hstep' trivial), hu,
      fun i hsec hdet => ?_, fun _ _ ha => ha⟩ hw, hsel⟩
    have hij : i ≠ j := by
      rintro rfl
      rw [hcb] at hdet
      cases hdet
    show ({ s.setCallback j (.detachBody id) with
      mu := some (.callback j) }.setCallback j .idle).callbacks i = _
    rw [setCallback_of_ne _ hij]
    exact setCallback_of_ne s hij _

/-- **The main loop can always come back to its `select`.** -/
theorem exists_select {s : Runner ι} (hs : s.Healthy) : ∃ u, Passed s u ∧ u.main = .select := by
  obtain ⟨t, ht⟩ := exists_freed hs
  have hpass := ht.passed hs
  have hf := ht.healthy.fine
  unfold Fine at hf
  cases hm : t.main with
  | select => exact ⟨t, hpass, hm⟩
  | attachLock x =>
    rw [hm] at hf
    rcases hf.1 with hacc | ⟨j, hj⟩
    · obtain ⟨u, hu, hsel⟩ := passed_of_accepts ht.healthy hm ht.mu hacc
      exact ⟨u, hpass.trans hu, hsel⟩
    · obtain ⟨u, hu, hsel⟩ := passed_of_freesRoom ht.healthy hm ht.mu hj
      exact ⟨u, hpass.trans hu, hsel⟩
  | attachBody x | attachUpdate x c | attachSpawn x | attachErr x =>
    have hheld := ht.healthy.locked.main.mp (by rw [hm]; rfl)
    rw [ht.mu] at hheld
    cases hheld
  | deferCancel | deferWait | deferCloseCh | deferCloseErr | exited =>
    rw [hm] at hf
    exact hf.elim

/-! ## Every blocked party moves -/

theorem callback_moves {s : Runner ι} (hs : s.Healthy) {i : ι} (hb : s.Blocked (.callback i)) :
    ∃ t, Trace.Reaches step Action.Own s t ∧ s.Moved t (.callback i) := by
  have hset : ∀ {u : Runner ι} {pc pc' : CallbackPc}, s.callbacks i = pc → pc' ≠ pc →
      (u.setCallback i pc').callbacks i ≠ s.callbacks i := by
    intro u pc pc' hcb hne
    rw [setCallback_self, hcb]
    exact hne
  rcases hb with ⟨⟨id, hcb⟩, _⟩ | ⟨x, hcb⟩ | hcb | hcb
  · -- waits for the lock: whoever holds it leaves, then the handler takes it
    obtain ⟨u, hu⟩ := exists_freed hs
    have hcb' : u.callbacks i = .detachLock id := by
      rw [← hcb]
      refine hu.callbacks i fun hmu => ?_
      have hsec := (hs.locked.callback i).mpr hmu
      rw [hcb] at hsec
      cases hsec
    exact ⟨_, hu.reaches.trans (hu.healthy.reaches (.lockDetach hcb' hu.mu) trivial),
      hset hcb (by simp)⟩
  · obtain ⟨u, hu, hsel⟩ := exists_select hs
    have hcb' : u.callbacks i = .add x := by
      rw [← hcb]
      exact hu.callbacks i (by rw [hcb]; rfl) (by rw [hcb]; rfl)
    exact ⟨_, hu.reaches.trans (hu.healthy.reaches (.recvCh hsel hcb') trivial),
      hset hcb (by simp)⟩
  · obtain ⟨u, hu, hsel⟩ := exists_select hs
    have hcb' : u.callbacks i = .sendErr := by
      rw [← hcb]
      exact hu.callbacks i (by rw [hcb]; rfl) (by rw [hcb]; rfl)
    exact ⟨_, hu.reaches.trans (hu.healthy.reaches (.recvLookupErr hsel hcb') trivial),
      hset hcb (by simp)⟩
  · exact ⟨_, hs.reaches (.recvDetachErr (hs.select_of_detachErr hcb) hcb) trivial,
      hset hcb (by simp)⟩

theorem attacher_moves {s : Runner ι} (hs : s.Healthy) {k : Nat} (hb : s.Blocked (.attacher k)) :
    ∃ t, Trace.Reaches step Action.Own s t ∧ s.Moved t (.attacher k) := by
  obtain ⟨a, ha, hpc⟩ := hb
  obtain ⟨u, hu, hsel⟩ := exists_select hs
  have hua := hu.attachers k a ha
  refine ⟨_, hu.reaches.trans (hu.healthy.reaches (.recvAttachErr hsel hua hpc) trivial), ?_⟩
  have hlt : k < u.attachers.length := (List.getElem?_eq_some_iff.mp hua).1
  show (u.attachers.set k { a with pc := .done })[k]? ≠ s.attachers[k]?
  rw [List.getElem?_set_self hlt, ha]
  intro heq
  have hdone : AttachPc.done = a.pc := congrArg Attacher.pc (Option.some.inj heq)
  rw [hpc] at hdone
  cases hdone

theorem main_moves {s : Runner ι} (hs : s.Healthy) (hb : s.Blocked .main) :
    ∃ t, Trace.Reaches step Action.Own s t ∧ s.Moved t .main := by
  rcases hb with ⟨⟨x, hm⟩, _⟩ | ⟨x, hm⟩
  · obtain ⟨u, hu⟩ := exists_freed hs
    have hnot : s.mu ≠ some .main := by
      intro hmu
      have hsec := hs.locked.main.mpr hmu
      rw [hm] at hsec
      cases hsec
    have hm' : u.main = .attachLock x := (hu.main hnot).trans hm
    refine ⟨_, hu.reaches.trans (hu.healthy.reaches (.lockAttach hm' hu.mu) trivial), ?_⟩
    show MainPc.attachBody x ≠ s.main
    rw [hm]
    simp
  · have hf := hs.fine
    unfold Fine at hf
    rw [hm] at hf
    exact hf.elim

theorem live_of_healthy {s : Runner ι} (hs : s.Healthy) : s.Live := by
  constructor
  · intro p hb
    cases p with
    | main => exact main_moves hs hb
    | callback i => exact callback_moves hs hb
    | attacher k => exact attacher_moves hs hb
  · intro p hmu hsend
    cases p with
    | main =>
      obtain ⟨x, hm⟩ := hsend
      have hf := hs.fine
      unfold Fine at hf
      rw [hm] at hf
      exact hf.elim
    | callback i =>
      rcases hsend with hcb | hcb
      · have hsec := (hs.locked.callback i).mpr hmu
        rw [hcb] at hsec
        cases hsec
      · exact hs.select_of_detachErr hcb
    | attacher k => exact absurd hmu (hs.locked.attacher k)

/-- **No deadlock while the map operations are fine.** In every run whose steps meet `OpsFine`,
as long as the context is not cancelled, every blocked party can be unblocked by the runner, and
no holder of `r.mu` waits for a main loop that is itself waiting. -/
theorem live_of_opsFine (programs : List Program) (as : List (Action ι)) (s : Runner ι)
    (h : Trace.run step (init programs) as = some s)
    (hg : Trace.Meets step OpsFine (init programs) as) (hrun : s.crashed = false)
    (hctx : s.ctxDone = false) : s.Live := by
  have hinv : (s.Locked ∧ s.Known) ∧ (s.ctxDone = false → s.Fine) := by
    refine Trace.run_invariant_of_meets
      (I := fun s => (s.Locked ∧ s.Known) ∧ (s.ctxDone = false → s.Fine)) ?_
      ⟨⟨locked_init programs, known_init programs⟩, fun _ => trivial⟩ hg h
    intro s a t hs hga ht
    obtain ⟨_, hstep⟩ := step_iff.mp ht
    refine ⟨⟨locked_step hs.1.1 hstep, known_step hs.1.2 hstep⟩, fun htx => ?_⟩
    have hsx : s.ctxDone = false := by
      cases hstep with
      | cancel => cases htx
      | _ => exact htx
    exact fine_step hs.1.1 (hs.2 hsx) hga hstep htx
  exact live_of_healthy ⟨hrun, hctx, hinv.1.1, hinv.1.2, hinv.2 hctx⟩

/-- The informer hands over a container of a managed pod, and the handler looks up its pid. -/
def registering : List (Action Unit) :=
  [.deliver () (.create (.pod (managedPod [perconaContainer (lit ['9', 'f'])]))), .iterate (),
    .lookup () (some 10), .child () (some 10)]

theorem live_registering : ∃ s : Runner Unit,
    Trace.run step (init [percona5734]) registering = some s ∧ s.Blocked (.callback ()) ∧
      s.Live := by
  have hobs : (Trace.run step (init [percona5734]) registering).map
      (fun s => (s.callbacks (), s.crashed, s.ctxDone)) = some (.add (newInstance
        (managedPod [perconaContainer (lit ['9', 'f'])]) PerconaServer5734 (lit ['9', 'f']) 10),
        false, false) := by decide
  obtain ⟨s, hs, heq⟩ := Option.map_eq_some_iff.mp hobs
  simp only [Prod.mk.injEq] at heq
  have hg : Trace.Meets step OpsFine (init [percona5734]) registering := by
    simp [registering, Trace.Meets, OpsFine]
  exact ⟨s, hs, Or.inr (Or.inl ⟨_, heq.1⟩), live_of_opsFine _ registering s hs hg heq.2.1 heq.2.2⟩

/-! ## A failed update -/

/-- A main loop that sends on its own channel stays there. -/
theorem attachErr_step {s t : Runner ι} {a : Action ι} {x : Instance} (h : step s a = some t)
    (hm : s.main = .attachErr x) : t.main = .attachErr x := by
  obtain ⟨_, hstep⟩ := step_iff.mp h
  cases hstep with
  | recvCh hsel _ | lockAttach hsel _ | store hsel _ | update hsel _ | updateErr hsel | spawn hsel
  | leave hsel _ | deferCancel hsel | deferWait hsel _ | deferCloseCh hsel | deferCloseErr hsel =>
    rw [hm] at hsel
    cases hsel
  | _ => exact hm

theorem attachErr_reaches {s t : Runner ι} {x : Instance}
    (h : Trace.Reaches step Action.Own s t) (hm : s.main = .attachErr x) :
    t.main = .attachErr x :=
  h.invariant (I := fun s => s.main = .attachErr x) (fun _ _ _ hs _ ht => attachErr_step ht hs) hm

/-- **A failed `clusters.Update` is a deadlock.** -/
theorem update_failure_deadlocks :
    ¬ ∀ (as : List (Action Unit)) (s : Runner Unit),
      Trace.run step (init [percona5734]) as = some s → s.crashed = false → s.ctxDone = false →
        s.Live := by
  intro hall
  have hobs : (Trace.run step (init [percona5734]) (registering ++
      [.recvCh (), .lockAttach, .store, .update false])).map
      (fun s => (s.main, s.crashed, s.ctxDone)) = some (.attachErr (newInstance
        (managedPod [perconaContainer (lit ['9', 'f'])]) PerconaServer5734 (lit ['9', 'f']) 10),
        false, false) := by decide
  obtain ⟨s, hs, heq⟩ := Option.map_eq_some_iff.mp hobs
  simp only [Prod.mk.injEq] at heq
  have hlive := hall _ s hs heq.2.1 heq.2.2
  obtain ⟨t, hreach, hmoved⟩ := hlive.1 .main (Or.inr ⟨_, heq.1⟩)
  exact hmoved ((attachErr_reaches hreach heq.1).trans heq.1.symm)

end Runner

end EDGuard
