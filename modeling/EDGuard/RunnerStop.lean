import EDGuard.Registry

/-!
# Stopping the runner

`Start` closes `r.ch` and `r.internalErrChan` after it has waited for the attach goroutines; nobody
waits for the informer goroutines, and nobody receives while it waits.

* `sendsOpen_iff` — nobody is ever at a send on a closed channel if and only if no handler is at a
  send when its channel is closed and none comes to a send afterwards.
* `late_pod_event` — a pod event that is being handled at the shutdown is left at such a send.
* `stoppable_iff` — every attach goroutine can come to its end without a receiver, and the wait of
  `Start` to its end, if and only if no attachment fails after the main loop has left its `select`
  and none is at the send of its error when the main loop leaves.
* `late_attach_failure` — an attachment that fails after that keeps `Start` waiting for ever.
-/

set_option autoImplicit false

namespace EDGuard

/-- The handler is at a send on `r.ch`. -/
def CallbackPc.sendsCh : CallbackPc → Bool
  | .add _ => true
  | _ => false

/-- The handler is at a send on `r.internalErrChan`. -/
def CallbackPc.sendsErr : CallbackPc → Bool
  | .sendErr | .detachErr => true
  | _ => false

/-- The main loop has left its `select` for good. -/
def MainPc.left : MainPc → Bool
  | .deferCancel | .deferWait | .deferCloseCh | .deferCloseErr | .exited => true
  | _ => false

/-- The deferred function is past `r.wg.Wait()`. -/
def MainPc.waited : MainPc → Bool
  | .deferCloseCh | .deferCloseErr | .exited => true
  | _ => false

namespace Runner

variable {ι : Type}

/-! ## Closed channels -/

/-- No handler is at a send on a closed channel. -/
structure SendsOpen (s : Runner ι) : Prop where
  ch : s.chClosed = true → ∀ i, (s.callbacks i).sendsCh = false
  err : s.errClosed = true → ∀ i, (s.callbacks i).sendsErr = false

/-- When the channels are closed. -/
structure Closing (s : Runner ι) : Prop where
  ch : s.chClosed = true → s.main = .deferCloseErr ∨ s.main = .exited
  err : s.errClosed = true → s.main = .exited
  attachers : s.main.waited = true → ∀ a ∈ s.attachers, a.pc = .done

theorem closing_init (programs : List Program) : (init programs : Runner ι).Closing := by
  refine ⟨fun h => ?_, fun h => ?_, fun h => ?_⟩ <;> cases h

/-- Only the handlers can be at a send on a closed channel. -/
theorem sendsOpen_iff_callbacks {s : Runner ι} (hc : s.Closing) :
    (∀ p, s.sendsOnClosed p = false) ↔ s.SendsOpen := by
  constructor
  · refine fun h => ⟨fun hch i => ?_, fun herr i => ?_⟩ <;>
      · have hi := h (.callback i)
        simp only [sendsOnClosed] at hi
        cases hcb : s.callbacks i <;> simp_all [CallbackPc.sendsCh, CallbackPc.sendsErr]
  · intro h p
    cases p with
    | main =>
      simp only [sendsOnClosed]
      split
      · rename_i x hmain
        cases herr : s.errClosed with
        | false => rfl
        | true =>
          rw [hc.err herr] at hmain
          cases hmain
      · rfl
    | callback i =>
      have hch := fun hcl => h.ch hcl i
      have herr := fun hcl => h.err hcl i
      simp only [sendsOnClosed]
      split <;> rename_i hcb
      · simpa [hcb, CallbackPc.sendsCh] using hch
      · simpa [hcb, CallbackPc.sendsErr] using herr
      · simpa [hcb, CallbackPc.sendsErr] using herr
      · rfl
    | attacher k =>
      simp only [sendsOnClosed]
      split
      · rename_i a ha
        cases herr : s.errClosed with
        | false => exact Bool.and_false _
        | true =>
          have hmem : a ∈ s.attachers := List.mem_of_getElem? ha
          rw [hc.attachers (by rw [hc.err herr]; rfl) a hmem]
          rfl
      · rfl

/-- Steps that leave the deferred function where it is. -/
theorem Closing.frame {s t : Runner ι} (hc : s.Closing) (hmain : t.main = s.main)
    (hch : t.chClosed = s.chClosed) (herr : t.errClosed = s.errClosed)
    (hatt : (∀ a ∈ s.attachers, a.pc = .done) → ∀ a ∈ t.attachers, a.pc = .done) : t.Closing := by
  refine ⟨?_, ?_, ?_⟩
  · rw [hmain, hch]
    exact hc.ch
  · rw [hmain, herr]
    exact hc.err
  · rw [hmain]
    exact fun hw => hatt (hc.attachers hw)

/-- Steps of a main loop that has not come to the closes. -/
theorem Closing.before {s t : Runner ι} (hc : s.Closing) (hs : s.main.waited = false)
    (ht : t.main.waited = false) (hch : t.chClosed = s.chClosed)
    (herr : t.errClosed = s.errClosed) : t.Closing := by
  refine ⟨fun h => ?_, fun h => ?_, fun hw => ?_⟩
  · rcases hc.ch (hch ▸ h) with hm | hm <;>
      · rw [hm] at hs
        cases hs
  · rw [hc.err (herr ▸ h)] at hs
    cases hs
  · rw [ht] at hw
    cases hw

/-- An attach goroutine that has not come to its end goes on. -/
theorem Closing.attacher {s t : Runner ι} (hc : s.Closing) {k : Nat} {a : Attacher}
    (ha : s.attachers[k]? = some a) (hpc : a.pc ≠ .done) (hmain : t.main = s.main)
    (hch : t.chClosed = s.chClosed) (herr : t.errClosed = s.errClosed) : t.Closing :=
  hc.frame hmain hch herr fun hdone => absurd (hdone a (List.mem_of_getElem? ha)) hpc

theorem AttachPc.probe_ne_done {pc pc' : AttachPc} {ok : Bool} (h : pc.probe ok = some pc') :
    pc ≠ .done := by
  rintro rfl
  cases h

variable [DecidableEq ι]

theorem closing_step {s t : Runner ι} {a : Action ι} (hc : s.Closing) (h : Step s a t) :
    t.Closing := by
  cases h with
  | recvCh hm _ => exact hc.before (by rw [hm]; rfl) rfl rfl rfl
  | lockAttach hm _ => exact hc.before (by rw [hm]; rfl) rfl rfl rfl
  | store hm _ => exact hc.before (by rw [hm]; rfl) rfl rfl rfl
  | update hm _ => exact hc.before (by rw [hm]; rfl) rfl rfl rfl
  | updateErr hm => exact hc.before (by rw [hm]; rfl) rfl rfl rfl
  | spawn hm => exact hc.before (by rw [hm]; rfl) rfl rfl rfl
  | leave hm _ => exact hc.before (by rw [hm]; rfl) rfl rfl rfl
  | deferCancel hm => exact hc.before (by rw [hm]; rfl) rfl rfl rfl
  | recvAttachErr _ ha hpc => exact hc.attacher ha (by rw [hpc]; simp) rfl rfl rfl
  | probe ha hpc => exact hc.attacher ha (AttachPc.probe_ne_done hpc) rfl rfl rfl
  | mark ha hpc => exact hc.attacher ha (by rw [hpc]; simp) rfl rfl rfl
  | unattach ha hpc _ => exact hc.attacher ha (by rw [hpc]; simp) rfl rfl rfl
  | deferWait hm hdone =>
    refine ⟨fun h => ?_, fun h => ?_, fun _ => hdone⟩
    · rcases hc.ch h with hm' | hm' <;> rw [hm] at hm' <;> cases hm'
    · have hm' := hc.err h
      rw [hm] at hm'
      cases hm'
  | deferCloseCh hm =>
    refine ⟨fun _ => Or.inl rfl, fun h => ?_, fun _ => hc.attachers (by rw [hm]; rfl)⟩
    have hm' := hc.err h
    rw [hm] at hm'
    cases hm'
  | deferCloseErr hm =>
    exact ⟨fun _ => Or.inr rfl, fun _ => rfl, fun _ => hc.attachers (by rw [hm]; rfl)⟩
  | _ => exact hc.frame rfl rfl rfl fun hdone => hdone

/-- The instance that a handler finds stored when it detaches. -/
def detached (s : Runner ι) (i : ι) : Option Instance :=
  match s.callbacks i with
  | .detachBody id => s.instances id
  | _ => none

/-- No channel is closed while a handler is at a send on it, and no handler comes to a send on a
closed channel. -/
def NoLateSend (s : Runner ι) : Action ι → Prop
  | .unwind => (s.main = .deferCloseCh → ∀ i, (s.callbacks i).sendsCh = false) ∧
      (s.main = .deferCloseErr → ∀ i, (s.callbacks i).sendsErr = false)
  | .child _ (some _) => s.chClosed = false
  | .lookup _ none | .child _ none => s.errClosed = false
  | .delete i false => (s.detached i).isSome → s.errClosed = false
  | _ => True

theorem sendsOpen_setCallback {s : Runner ι} (hs : s.SendsOpen) (i : ι) (pc : CallbackPc) :
    (s.setCallback i pc).SendsOpen ↔
      (s.chClosed = true → pc.sendsCh = false) ∧ (s.errClosed = true → pc.sendsErr = false) := by
  constructor
  · intro h
    have hself := setCallback_self s i pc
    exact ⟨fun hc => hself ▸ h.ch hc i, fun hc => hself ▸ h.err hc i⟩
  · rintro ⟨hch, herr⟩
    refine ⟨fun hc j => ?_, fun hc j => ?_⟩ <;> rcases eq_or_ne j i with rfl | hj
    · rw [setCallback_self]
      exact hch hc
    · rw [setCallback_of_ne s hj]
      exact hs.ch hc j
    · rw [setCallback_self]
      exact herr hc
    · rw [setCallback_of_ne s hj]
      exact hs.err hc j

/-- A handler that goes on to a place where it does not send. -/
theorem SendsOpen.setCallback {s t : Runner ι} (hs : s.SendsOpen) {i : ι} {pc : CallbackPc}
    (hcb : t.callbacks = (s.setCallback i pc).callbacks) (hch : t.chClosed = s.chClosed)
    (herr : t.errClosed = s.errClosed) (hsch : pc.sendsCh = false)
    (hserr : pc.sendsErr = false) : t.SendsOpen := by
  have hset := (sendsOpen_setCallback hs i pc).mpr ⟨fun _ => hsch, fun _ => hserr⟩
  refine ⟨?_, ?_⟩
  · rw [hcb, hch]
    exact hset.ch
  · rw [hcb, herr]
    exact hset.err

theorem handler_sends {e : PodEvent} {pc : CallbackPc} (h : e.handler = some pc) :
    pc.sendsCh = false ∧ pc.sendsErr = false := by
  rcases handler_cases h with rfl | ⟨pod, rfl⟩ | ⟨pod, rfl⟩ <;> exact ⟨rfl, rfl⟩

theorem iterate_sends {programs : GoString → Option Program}
    {instances : GoString → Option Instance} {pc pc' : CallbackPc}
    (h : pc.iterate programs instances = some (some pc')) :
    pc'.sendsCh = false ∧ pc'.sendsErr = false := by
  rcases iterate_cases h with ⟨rfl, _⟩ | ⟨_, _, _, _, rfl⟩ | ⟨_, _, _, _, _, _, _, rfl⟩ |
    ⟨_, _, _, rfl⟩ | ⟨_, _, _, _, _, _, rfl⟩ <;> exact ⟨rfl, rfl⟩

/-- A step keeps the sends open exactly if it meets the condition. -/
theorem noLateSend_iff {s t : Runner ι} {a : Action ι} (hs : s.SendsOpen) (h : Step s a t) :
    s.NoLateSend a ↔ t.SendsOpen := by
  cases h with
  | deliver _ hh =>
    exact iff_of_true trivial (hs.setCallback rfl rfl rfl (handler_sends hh).1 (handler_sends hh).2)
  | iterate hit =>
    exact iff_of_true trivial
      (hs.setCallback rfl rfl rfl (iterate_sends hit).1 (iterate_sends hit).2)
  | lookup _ | recvCh _ _ | recvLookupErr _ _ | recvDetachErr _ _ | lockDetach _ _
  | delete _ _ _ => exact iff_of_true trivial (hs.setCallback rfl rfl rfl rfl rfl)
  | lookupErr _ | childErr _ =>
    rw [sendsOpen_setCallback hs]
    simp [NoLateSend, CallbackPc.sendsCh, CallbackPc.sendsErr]
  | child _ =>
    rw [sendsOpen_setCallback hs]
    simp [NoLateSend, CallbackPc.sendsCh, CallbackPc.sendsErr]
  | @deleteAbsent i id ok hcb hno =>
    refine iff_of_true ?_ (hs.setCallback rfl rfl rfl rfl rfl)
    cases ok with
    | true => trivial
    | false =>
      intro hsome
      unfold detached at hsome
      simp only [hcb, hno] at hsome
      cases hsome
  | @deleteErr i id x hcb hx =>
    rw [sendsOpen_setCallback hs]
    simp [NoLateSend, detached, hcb, hx, CallbackPc.sendsCh, CallbackPc.sendsErr]
  | deferCancel hm | deferWait hm _ =>
    refine iff_of_true ⟨fun h => ?_, fun h => ?_⟩ ⟨hs.ch, hs.err⟩ <;>
      · rw [hm] at h
        cases h
  | deferCloseCh hm =>
    constructor
    · exact fun hg => ⟨fun _ => hg.1 hm, hs.err⟩
    · refine fun ht => ⟨fun _ => ht.ch rfl, fun h => ?_⟩
      rw [hm] at h
      cases h
  | deferCloseErr hm =>
    constructor
    · exact fun hg => ⟨hs.ch, fun _ => hg.2 hm⟩
    · refine fun ht => ⟨fun h => ?_, fun _ => ht.err rfl⟩
      rw [hm] at h
      cases h
  | _ => exact iff_of_true trivial ⟨hs.ch, hs.err⟩

/-- **Sends on closed channels.** In every run, nobody is at a send on a closed channel in any
state if and only if every step meets `NoLateSend`. -/
theorem sendsOpen_iff (programs : List Program) (as : List (Action ι)) (s : Runner ι)
    (h : Trace.run step (init programs) as = some s) :
    (∀ bs cs u, as = bs ++ cs → Trace.run step (init programs) bs = some u →
        ∀ p, u.sendsOnClosed p = false) ↔
      Trace.Meets step NoLateSend (init programs) as := by
  have hopen : (init programs : Runner ι).SendsOpen :=
    ⟨fun h => (by cases h), fun h => by cases h⟩
  rw [Trace.meets_iff_forall (I := Closing) (P := fun u => ∀ p, u.sendsOnClosed p = false)
    (fun _ _ _ hs ht => closing_step hs (step_iff.mp ht).2) ?_ (closing_init programs)
    ((sendsOpen_iff_callbacks (closing_init programs)).mpr hopen) h]
  intro u a v hu hpu hv
  have hstep := (step_iff.mp hv).2
  rw [sendsOpen_iff_callbacks (closing_step hu hstep)]
  exact noLateSend_iff ((sendsOpen_iff_callbacks hu).mp hpu) hstep

instance (s : Runner Unit) : ∀ a, Decidable (s.NoLateSend a)
  | .unwind => decidable_of_iff ((s.main = .deferCloseCh → (s.callbacks ()).sendsCh = false) ∧
      (s.main = .deferCloseErr → (s.callbacks ()).sendsErr = false))
      ⟨fun h => ⟨fun hm _ => h.1 hm, fun hm _ => h.2 hm⟩,
        fun h => ⟨fun hm => h.1 hm (), fun hm => h.2 hm ()⟩⟩
  | .child _ (some _) => inferInstanceAs (Decidable (s.chClosed = false))
  | .lookup _ none | .child _ none => inferInstanceAs (Decidable (s.errClosed = false))
  | .delete i false =>
    inferInstanceAs (Decidable ((s.detached i).isSome = true → s.errClosed = false))
  | .lookup _ (some _) | .delete _ true | .deliver .. | .iterate _ | .recvCh _ | .recvErr _
  | .lockAttach | .store | .update _ | .spawn | .lockDetach _ | .probe .. | .mark _ | .unattach _
  | .cancel | .leave | .sendClosed _ => isTrue trivial

/-- The first attach goroutine comes to its wait. -/
def attachActs : List (Action Unit) := [.probe 0 true, .probe 0 true, .probe 0 true, .mark 0]

/-- The runner has attached a program and is stopped; a resync is handled afterwards. -/
def resyncAfterStop : List (Action Unit) :=
  (.deliver () (.create pod9f) :: .iterate () :: registerActs 10) ++ attachActs ++
    [.cancel, .leave, .unwind, .unattach 0, .unwind, .unwind, .unwind,
      .deliver () (.update pod9f), .iterate (), .iterate ()]

theorem sendsOpen_resyncAfterStop : ∃ s : Runner Unit,
    Trace.run step (init [percona5734]) resyncAfterStop = some s ∧
      (∀ bs cs u, resyncAfterStop = bs ++ cs →
        Trace.run step (init [percona5734]) bs = some u → ∀ p, u.sendsOnClosed p = false) := by
  have hsome : (Trace.run step (init [percona5734]) resyncAfterStop).isSome := by decide +kernel
  obtain ⟨s, hs⟩ := Option.isSome_iff_exists.mp hsome
  have hg : Trace.Meets step NoLateSend (init [percona5734]) resyncAfterStop := by decide +kernel
  exact ⟨s, hs, (sendsOpen_iff _ resyncAfterStop s hs).mpr hg⟩

/-- A pod event has been looked up when the runner is stopped. -/
def stopDuringEvent : List (Action Unit) :=
  [.deliver () (.create pod9f), .iterate (), .lookup () (some 10), .child () (some 10), .cancel,
    .leave, .unwind, .unwind, .unwind]

/-- **A late pod event is left at its send on the closed channel.** -/
theorem late_pod_event :
    ¬ ∀ (as : List (Action Unit)) (s : Runner Unit),
      Trace.run step (init [percona5734]) as = some s → ∀ p, s.sendsOnClosed p = false := by
  intro hall
  have hobs : (Trace.run step (init [percona5734]) stopDuringEvent).map
      (fun s => s.sendsOnClosed (.callback ())) = some true := by decide +kernel
  obtain ⟨s, hs, heq⟩ := Option.map_eq_some_iff.mp hobs
  have hno := hall _ s hs (.callback ())
  rw [heq] at hno
  cases hno

/-! ## The wait for the attach goroutines -/

/-- A step of attach goroutine `k` that needs no other party. -/
def Action.Attaching (k : Nat) : Action ι → Prop
  | .probe j _ | .mark j | .unattach j => j = k
  | _ => False

/-- A step of an attach goroutine, or of the deferred function, that needs no other party. -/
def Action.Ending : Action ι → Prop
  | .probe .. | .mark _ | .unattach _ | .unwind => True
  | _ => False

omit [DecidableEq ι] in
theorem Action.Attaching.ending {k : Nat} {a : Action ι} (h : a.Attaching k) : a.Ending := by
  cases a <;> trivial

/-- Once the main loop has left its `select`, every attach goroutine can come to its `wg.Done` by
steps of its own, and the deferred function to the end of its wait. -/
def Stoppable (s : Runner ι) : Prop :=
  s.main.left = true → s.crashed = false →
    (∀ k a, s.attachers[k]? = some a → ∃ t b, Trace.Reaches step (Action.Attaching k) s t ∧
      t.attachers[k]? = some b ∧ b.pc = .done) ∧
    ∃ t, Trace.Reaches step Action.Ending s t ∧ t.main.waited = true

/-- No attachment fails after the main loop has left its `select`, and none is at the send of its
error when the main loop leaves. -/
def NoLateFailure (s : Runner ι) : Action ι → Prop
  | .probe _ ok => ok = false → s.main.left = false
  | .leave => ∀ a ∈ s.attachers, a.pc ≠ .sendErr
  | _ => True

/-- No attach goroutine waits for a main loop that has left. -/
def NoneStranded (s : Runner ι) : Prop :=
  s.main.left = true → s.crashed = false → ∀ a ∈ s.attachers, a.pc ≠ .sendErr

/-- The main loop leaves its `select` only when the context is done. -/
def LeftDone (s : Runner ι) : Prop := s.main.left = true → s.ctxDone = true

theorem leftDone_step {s t : Runner ι} {a : Action ι} (hs : s.LeftDone) (h : Step s a t) :
    t.LeftDone := by
  intro hl
  cases h with
  | cancel => rfl
  | leave _ hctx => exact hctx
  | deferCancel hm | deferWait hm _ | deferCloseCh hm | deferCloseErr hm =>
    exact hs (by rw [hm]; rfl)
  | recvCh _ _ | lockAttach _ _ | store _ _ | update _ _ | updateErr _ | spawn _ => cases hl
  | _ => exact hs hl

/-- Attach goroutine `k` has come to its end, nothing else has changed. -/
structure Finished (s : Runner ι) (k : Nat) (a : Attacher) (t : Runner ι) : Prop where
  reaches : Trace.Reaches step (Action.Attaching k) s t
  attachers : t.attachers = s.attachers.set k { a with pc := .done }
  main : t.main = s.main
  ctx : t.ctxDone = s.ctxDone
  crashed : t.crashed = s.crashed

omit [DecidableEq ι] in
theorem setAttacher_self {s : Runner ι} {k : Nat} {a b : Attacher}
    (ha : s.attachers[k]? = some a) : (s.setAttacher k b).attachers[k]? = some b :=
  List.getElem?_set_self (List.getElem?_eq_some_iff.mp ha).1

/-- One more step in front. -/
theorem Finished.cons {s u t : Runner ι} {k : Nat} {a : Attacher} {pc : AttachPc}
    {act : Action ι} (hc : s.crashed = false) (h : Step s act u) (hact : act.Attaching k)
    (hatt : u.attachers = s.attachers.set k { a with pc := pc }) (hmain : u.main = s.main)
    (hctx : u.ctxDone = s.ctxDone) (hcr : u.crashed = s.crashed)
    (hu : Finished u k { a with pc := pc } t) : Finished s k a t := by
  refine ⟨(h.reaches hc hact).trans hu.reaches, ?_,
    hu.main.trans hmain, hu.ctx.trans hctx, hu.crashed.trans hcr⟩
  rw [hu.attachers, hatt, List.set_set]

theorem finished_of_wait {s : Runner ι} {k : Nat} {a : Attacher} (hc : s.crashed = false)
    (hctx : s.ctxDone = true) (ha : s.attachers[k]? = some a) (hpc : a.pc = .wait) :
    ∃ t, Finished s k a t := by
  have hend := Step.unattach ha hpc (Or.inl hctx)
  exact ⟨_, .single (a := .unattach k) rfl (step_iff.mpr ⟨hc, hend⟩), rfl, rfl, rfl, rfl⟩

theorem finished_of_mark {s : Runner ι} {k : Nat} {a : Attacher} (hc : s.crashed = false)
    (hctx : s.ctxDone = true) (ha : s.attachers[k]? = some a) (hpc : a.pc = .mark) :
    ∃ t, Finished s k a t := by
  have hmark := Step.mark ha hpc
  obtain ⟨t, ht⟩ := finished_of_wait (s := { s.setAttacher k { a with pc := .wait } with
    bpfPrograms := Function.update s.bpfPrograms a.version
      ((s.bpfPrograms a.version).map fun p => { p with attached := true }) })
    (a := { a with pc := .wait }) hc hctx (setAttacher_self ha) rfl
  exact ⟨t, .cons hc hmark rfl rfl rfl rfl rfl ht⟩

/-- One of the three fallible calls succeeds. -/
theorem finished_of_probe {s : Runner ι} {k : Nat} {a : Attacher} (q : AttachPc)
    (hc : s.crashed = false) (ha : s.attachers[k]? = some a)
    (hpc : a.pc.probe true = some q)
    (hnext : ∃ t, Finished (s.setAttacher k { a with pc := q }) k { a with pc := q } t) :
    ∃ t, Finished s k a t := by
  obtain ⟨t, ht⟩ := hnext
  exact ⟨t, .cons hc (.probe ha hpc) rfl rfl rfl rfl rfl ht⟩

/-- **An attach goroutine that is not at the send of an error can come to its end.** -/
theorem exists_finished {s : Runner ι} {k : Nat} {a : Attacher} (hc : s.crashed = false)
    (hctx : s.ctxDone = true) (ha : s.attachers[k]? = some a) (hdone : a.pc ≠ .done)
    (herr : a.pc ≠ .sendErr) : ∃ t, Finished s k a t := by
  have huret : ∀ {u : Runner ι} {b : Attacher}, u.crashed = false → u.ctxDone = true →
      u.attachers[k]? = some b → b.pc = .uretprobe → ∃ t, Finished u k b t := by
    intro u b huc hux hb hpc
    exact finished_of_probe .mark huc hb (by rw [hpc]; rfl)
      (finished_of_mark huc hux (setAttacher_self hb) rfl)
  have hup : ∀ {u : Runner ι} {b : Attacher}, u.crashed = false → u.ctxDone = true →
      u.attachers[k]? = some b → b.pc = .uprobe → ∃ t, Finished u k b t := by
    intro u b huc hux hb hpc
    exact finished_of_probe .uretprobe huc hb (by rw [hpc]; rfl)
      (huret huc hux (setAttacher_self hb) rfl)
  cases hpc : a.pc with
  | «open» =>
    exact finished_of_probe .uprobe hc ha (by rw [hpc]; rfl)
      (hup hc hctx (setAttacher_self ha) rfl)
  | uprobe => exact hup hc hctx ha hpc
  | uretprobe => exact huret hc hctx ha hpc
  | mark => exact finished_of_mark hc hctx ha hpc
  | wait => exact finished_of_wait hc hctx ha hpc
  | sendErr => exact absurd hpc herr
  | done => exact absurd hpc hdone

/-- The first `n` attach goroutines have come to their end. -/
structure Ended (s : Runner ι) (n : Nat) (t : Runner ι) : Prop where
  reaches : Trace.Reaches step Action.Ending s t
  main : t.main = s.main
  ctx : t.ctxDone = true
  crashed : t.crashed = false
  length : t.attachers.length = s.attachers.length
  sendErr : ∀ a ∈ t.attachers, a.pc ≠ .sendErr
  done : ∀ k a, k < n → t.attachers[k]? = some a → a.pc = .done

theorem exists_ended {s : Runner ι} (hc : s.crashed = false) (hctx : s.ctxDone = true)
    (hno : ∀ a ∈ s.attachers, a.pc ≠ .sendErr) (n : Nat) : ∃ t, Ended s n t := by
  induction n with
  | zero => exact ⟨s, .refl s, rfl, hctx, hc, rfl, hno, fun k a hk => by omega⟩
  | succ n ih =>
    obtain ⟨u, hu⟩ := ih
    -- nothing to do for goroutine `n`
    have hskip : (∀ a, u.attachers[n]? = some a → a.pc = .done) → Ended s (n + 1) u := by
      refine fun hn => ⟨hu.reaches, hu.main, hu.ctx, hu.crashed, hu.length, hu.sendErr, ?_⟩
      intro k a hk hka
      rcases Nat.lt_succ_iff_lt_or_eq.mp hk with hlt | rfl
      · exact hu.done k a hlt hka
      · exact hn a hka
    cases ha : u.attachers[n]? with
    | none => exact ⟨u, hskip fun a ha' => by rw [ha] at ha'; cases ha'⟩
    | some a =>
      by_cases hend : a.pc = .done
      · exact ⟨u, hskip fun b hb => by rw [ha] at hb; cases hb; exact hend⟩
      · obtain ⟨t, ht⟩ := exists_finished hu.crashed hu.ctx ha hend
          (hu.sendErr a (List.mem_of_getElem? ha))
        have hown : Trace.Reaches step Action.Ending u t := ht.reaches.mono fun _ hb => hb.ending
        refine ⟨t, hu.reaches.trans hown, ht.main.trans hu.main, ht.ctx.trans hu.ctx,
          ht.crashed.trans hu.crashed, ?_, fun b hb => ?_, fun k b hk hkb => ?_⟩
        · rw [ht.attachers, List.length_set, hu.length]
        · rw [ht.attachers] at hb
          rcases List.mem_or_eq_of_mem_set hb with hold | rfl
          · exact hu.sendErr b hold
          · simp
        · rw [ht.attachers] at hkb
          rcases Nat.lt_succ_iff_lt_or_eq.mp hk with hlt | rfl
          · rw [List.getElem?_set_ne (by omega)] at hkb
            exact hu.done k b hlt hkb
          · rw [List.getElem?_set_self (List.getElem?_eq_some_iff.mp ha).1] at hkb
            cases hkb
            rfl

/-- A deferred function whose attach goroutines have come to their end can pass its wait. -/
theorem exists_waited {s : Runner ι} (hl : s.main.left = true) (hc : s.crashed = false)
    (hdone : ∀ a ∈ s.attachers, a.pc = .done) :
    ∃ t, Trace.Reaches step Action.Ending s t ∧ t.main.waited = true := by
  have hwait : ∀ {u : Runner ι}, u.main = .deferWait → u.crashed = false →
      (∀ a ∈ u.attachers, a.pc = .done) →
      ∃ t, Trace.Reaches step Action.Ending u t ∧ t.main.waited = true := by
    intro u hm huc hud
    have hpass := Step.deferWait hm hud
    exact ⟨_, hpass.reaches huc trivial, rfl⟩
  cases hm : s.main with
  | deferCancel =>
    obtain ⟨t, ht, hw⟩ := hwait (u := { s with internalDone := true, main := .deferWait }) rfl hc
      hdone
    have hcancel := Step.deferCancel hm
    exact ⟨t, (hcancel.reaches hc trivial).trans ht, hw⟩
  | deferWait => exact hwait hm hc hdone
  | deferCloseCh | deferCloseErr | exited => exact ⟨s, .refl s, by rw [hm]; rfl⟩
  | select | attachLock _ | attachBody _ | attachUpdate _ _ | attachErr _ | attachSpawn _ =>
    rw [hm] at hl
    cases hl

/-- A stranded attach goroutine stays where it is. -/
theorem stranded_step {s t : Runner ι} {act : Action ι} {k : Nat} {a : Attacher}
    (hact : act.Attaching k) (ha : s.attachers[k]? = some a) (hpc : a.pc = .sendErr)
    (h : Step s act t) : False := by
  cases h with
  | @probe j b ok pc hb hprobe =>
    obtain rfl : j = k := hact
    rw [ha] at hb
    cases hb
    rw [hpc] at hprobe
    cases hprobe
  | @mark j b hb hmark =>
    obtain rfl : j = k := hact
    rw [ha] at hb
    cases hb
    rw [hpc] at hmark
    cases hmark
  | @unattach j b hb hwait _ =>
    obtain rfl : j = k := hact
    rw [ha] at hb
    cases hb
    rw [hpc] at hwait
    cases hwait
  | _ => exact hact.elim

theorem stoppable_iff_noneStranded {s : Runner ι} (hs : s.LeftDone) :
    s.Stoppable ↔ s.NoneStranded := by
  constructor
  · intro h hl hc a ha hpc
    obtain ⟨k, hk⟩ := List.mem_iff_getElem?.mp ha
    obtain ⟨t, b, ⟨as, has, hrun⟩, hb, hdone⟩ := (h hl hc).1 k a hk
    cases as with
    | nil =>
      cases hrun
      rw [hk] at hb
      cases hb
      rw [hpc] at hdone
      cases hdone
    | cons act as =>
      obtain ⟨u, hu, -⟩ := Trace.run_cons_eq_some.mp hrun
      exact stranded_step (has act List.mem_cons_self) hk hpc (step_iff.mp hu).2
  · intro h hl hc
    refine ⟨fun k a ha => ?_, ?_⟩
    · by_cases hdone : a.pc = .done
      · exact ⟨s, a, .refl s, ha, hdone⟩
      · obtain ⟨t, ht⟩ := exists_finished hc (hs hl) ha hdone (h hl hc a (List.mem_of_getElem? ha))
        refine ⟨t, { a with pc := .done }, ht.reaches, ?_, rfl⟩
        rw [ht.attachers, List.getElem?_set_self (List.getElem?_eq_some_iff.mp ha).1]
    · obtain ⟨u, hu⟩ := exists_ended hc (hs hl) (h hl hc) s.attachers.length
      have hdone : ∀ a ∈ u.attachers, a.pc = .done := by
        intro a ha
        obtain ⟨k, hk⟩ := List.mem_iff_getElem?.mp ha
        have hlt := (List.getElem?_eq_some_iff.mp hk).1
        exact hu.done k a (hu.length ▸ hlt) hk
      obtain ⟨t, ht, hw⟩ := exists_waited (by rw [hu.main]; exact hl) hu.crashed hdone
      exact ⟨t, hu.reaches.trans ht, hw⟩

/-- A step strands no attach goroutine exactly if it meets the condition. -/
theorem noLateFailure_iff {s t : Runner ι} {a : Action ι} (hc : s.crashed = false)
    (hs : s.NoneStranded) (h : Step s a t) : s.NoLateFailure a ↔ t.NoneStranded := by
  have hset : ∀ {k : Nat} {b : Attacher}, b.pc ≠ .sendErr → s.main.left = true →
      ∀ x ∈ s.attachers.set k b, x.pc ≠ .sendErr := by
    intro k b hb hl x hx
    rcases List.mem_or_eq_of_mem_set hx with hold | rfl
    · exact hs hl hc x hold
    · exact hb
  cases h with
  | @probe k b ok pc hb hprobe =>
    cases ok with
    | true =>
      refine iff_of_true (fun h => by cases h) fun hl _ => hset ?_ hl
      show pc ≠ .sendErr
      rintro rfl
      cases hpc : b.pc <;> rw [hpc] at hprobe <;> cases hprobe
    | false =>
      have hpc : pc = .sendErr := by
        cases hpc : b.pc <;> rw [hpc] at hprobe <;> cases hprobe <;> rfl
      constructor
      · intro hg hl
        have hl' : s.main.left = true := hl
        rw [hg rfl] at hl'
        cases hl'
      · intro ht _
        cases hl : s.main.left with
        | false => rfl
        | true =>
          have hmem := List.mem_of_getElem? (setAttacher_self (b := { b with pc := pc }) hb)
          exact absurd hpc (ht hl hc _ hmem)
  | leave hm _ => exact ⟨fun hg _ _ => hg, fun ht => ht rfl hc⟩
  | mark _ _ | unattach _ _ _ => exact iff_of_true trivial fun hl _ => hset (by simp) hl
  | recvAttachErr hm _ _ =>
    refine iff_of_true trivial fun hl => ?_
    rw [show (s.setAttacher _ _).main = s.main from rfl, hm] at hl
    cases hl
  | recvCh _ _ | lockAttach _ _ | store _ _ | update _ _ | updateErr _ | spawn _ =>
    exact iff_of_true trivial fun hl => by cases hl
  | deferCancel hm | deferWait hm _ | deferCloseCh hm | deferCloseErr hm =>
    exact iff_of_true trivial fun _ hcr => hs (by rw [hm]; rfl) hcr
  | crashDeliver _ _ | crashIterate _ | crashStore _ _ | crashSend _ =>
    exact iff_of_true trivial fun _ hcr => by cases hcr
  | _ => exact iff_of_true trivial hs

/-- **The wait of `Start`.** In every run, in every state in which the main loop has left its
`select` every attach goroutine can come to its end on its own and the wait can be passed, if and
only if every step meets `NoLateFailure`. -/
theorem stoppable_iff (programs : List Program) (as : List (Action ι)) (s : Runner ι)
    (h : Trace.run step (init programs) as = some s) :
    (∀ bs cs u, as = bs ++ cs → Trace.run step (init programs) bs = some u → u.Stoppable) ↔
      Trace.Meets step NoLateFailure (init programs) as := by
  have hinit : (init programs : Runner ι).LeftDone := fun hl => by cases hl
  rw [Trace.meets_iff_forall (I := LeftDone) (P := Stoppable)
    (fun _ _ _ hs ht => leftDone_step hs (step_iff.mp ht).2) ?_ hinit
    (fun hl => by cases hl) h]
  intro u a v hu hpu hv
  obtain ⟨hc, hstep⟩ := step_iff.mp hv
  rw [stoppable_iff_noneStranded (leftDone_step hu hstep)]
  exact noLateFailure_iff hc ((stoppable_iff_noneStranded hu).mp hpu) hstep

omit [DecidableEq ι] in
instance (s : Runner ι) : ∀ a, Decidable (s.NoLateFailure a)
  | .probe _ ok => inferInstanceAs (Decidable (ok = false → s.main.left = false))
  | .leave => inferInstanceAs (Decidable (∀ a ∈ s.attachers, a.pc ≠ .sendErr))
  | .deliver .. | .iterate _ | .lookup .. | .child .. | .recvCh _ | .recvErr _ | .lockAttach
  | .store | .update _ | .spawn | .lockDetach _ | .delete .. | .mark _ | .unattach _ | .cancel
  | .unwind | .sendClosed _ => isTrue trivial

/-- A program is attached and the runner is told to stop while it waits. -/
def stopAttached : List (Action Unit) :=
  (.deliver () (.create pod9f) :: .iterate () :: registerActs 10) ++ attachActs ++
    [.cancel, .leave]

theorem stoppable_stopAttached : ∃ s : Runner Unit,
    Trace.run step (init [percona5734]) stopAttached = some s ∧ s.main.left = true ∧
      s.Stoppable := by
  have hobs : (Trace.run step (init [percona5734]) stopAttached).map (fun s => s.main) =
      some MainPc.deferCancel := by decide +kernel
  obtain ⟨s, hs, hmain⟩ := Option.map_eq_some_iff.mp hobs
  have hg : Trace.Meets step NoLateFailure (init [percona5734]) stopAttached := by decide +kernel
  exact ⟨s, hs, by rw [hmain]; rfl,
    (stoppable_iff _ stopAttached s hs).mpr hg stopAttached [] s (by simp) hs⟩

/-- `OpenExecutable` fails after the main loop has left its `select`. -/
def failDuringStop : List (Action Unit) :=
  (.deliver () (.create pod9f) :: .iterate () :: registerActs 10) ++
    [.cancel, .leave, .probe 0 false]

/-- **An attachment that fails during the stop is stranded.** -/
theorem late_attach_failure :
    ¬ ∀ (as : List (Action Unit)) (s : Runner Unit),
      Trace.run step (init [percona5734]) as = some s → s.Stoppable := by
  intro hall
  have hobs : (Trace.run step (init [percona5734]) failDuringStop).map
      (fun s => (s.main, s.crashed, s.ctxDone, s.attachers)) =
        some (MainPc.deferCancel, false, true, [⟨10, PerconaServer5734, .sendErr⟩]) := by
    decide +kernel
  obtain ⟨s, hs, heq⟩ := Option.map_eq_some_iff.mp hobs
  simp only [Prod.mk.injEq] at heq
  obtain ⟨hmain, hc, hctx, hatt⟩ := heq
  have hnone := (stoppable_iff_noneStranded fun _ => hctx).mp (hall _ s hs)
  exact hnone (by rw [hmain]; rfl) hc ⟨10, PerconaServer5734, .sendErr⟩ (by rw [hatt]; simp) rfl

end Runner

end EDGuard
