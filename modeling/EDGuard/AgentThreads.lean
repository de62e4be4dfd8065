import EDGuard.Agent

/-!
# The threads that are ever reported

`thread_db_ctx_hash` has an entry for a thread id, and neither handler deletes one.

* `Inv.slot_iff` — the slots are those of the threads with a capture.
* `printed_threads` — **the lines of an agent are about 1024 thread ids at most**, over its whole
  life; once so many have a slot, no line is about another one.
-/

set_option autoImplicit false

namespace EDGuard

namespace ProbeState

theorem Inv.slot_iff {s : ProbeState} (hi : s.Inv) (tid : UInt32) :
    tid ∈ s.kernel.threadDbCtxHash.keys ↔ ∃ c ∈ s.captures, c.call.tid = tid := by
  constructor
  · intro htid
    obtain ⟨d, hd⟩ := BoundedMap.mem_keys_iff.mp htid
    rcases hi.slots tid with ⟨hnone, _⟩ | ⟨_, c, _, hc, _⟩
    · rw [hnone] at hd
      cases hd
    · obtain ⟨hmem, htid'⟩ := mem_of_lastCapture hc
      exact ⟨c, hmem, htid'⟩
  · rintro ⟨c, hc, hctid⟩
    rcases hi.slots tid with ⟨_, hnone⟩ | ⟨d, _, hd, _⟩
    · have hno := List.find?_eq_none.mp hnone c hc
      simp [hctid] at hno
    · exact BoundedMap.mem_keys_of_lookup hd

/-- A capture is stored under the thread id of its gtid. -/
def CapturesOwn (s : ProbeState) : Prop := ∀ c ∈ s.captures, c.call.tid = tidOf c.gtid

theorem capturesOwn_step (s : ProbeState) (a : Action) (t : ProbeState)
    (hs : s.Inv ∧ s.CapturesOwn) (h : step s a = some t) : t.Inv ∧ t.CapturesOwn := by
  obtain ⟨hi, hown⟩ := hs
  refine ⟨inv_step s a t hi h, ?_⟩
  cases a with
  | enter gtid regs =>
    obtain ⟨_, rfl⟩ := enter_spec h
    exact hown
  | entry tid cpu f =>
    obtain ⟨l, hl⟩ := live_of_fireEntry h
    obtain ⟨hcall, htid, _⟩ := hi.live_ok tid l hl
    obtain ⟨_, _, ⟨_, rfl⟩ | ⟨_, _, _, rfl⟩ | ⟨_, _, _, _, _, _, rfl, _, rfl⟩⟩ :=
      fireEntry_cases h hl htid
    · exact hown
    · exact hown
    · intro c hc
      rcases List.mem_cons.mp hc with rfl | hold
      · exact hcall.trans htid.symm
      · exact hown c hold
  | ret tid f =>
    obtain ⟨l, hl⟩ := live_of_fireReturn h
    obtain ⟨_, htid, _⟩ := hi.live_ok tid l hl
    obtain ⟨_, ⟨_, rfl⟩ | ⟨_, _, rfl⟩ | ⟨_, _, _, _, rfl⟩⟩ := fireReturn_cases h hl htid <;>
      exact hown
  | leave tid =>
    obtain rfl := leave_spec h
    exact hown
  | setCluster _ _ | delCluster _ | pop =>
    obtain ⟨_, _, rfl⟩ := agent_spec h trivial
    exact hown

end ProbeState

namespace Agent

variable {ι : Type} {n : Nat}

/-- The thread ids with an entry of `thread_db_ctx_hash`. -/
def slots (s : Agent ι n) : Finset UInt32 := s.kernel.threadDbCtxHash.keys

/-- Every line is about a thread with a slot. -/
structure Slotted (s : Agent ι n) : Prop where
  handlers : s.handlers.Inv ∧ s.handlers.CapturesOwn
  shared : s.QueueShared
  pipe : s.pipe.Sourced

theorem slotted_init (programs : List Program) : (init programs : Agent ι n).Slotted where
  handlers := ⟨ProbeState.inv_init, fun _ hc => nomatch hc⟩
  shared := rfl
  pipe := Pipe.sourced_init DbCtx.zero

theorem Slotted.slot_of_printed {s : Agent ι n} (hs : s.Slotted) {x : DbCtx}
    (hx : x ∈ s.pipe.printed) : tidOf x.gtid ∈ s.slots := by
  obtain ⟨p, hp, rfl⟩ := hs.shared.push_of_mem (hs.pipe.printed x hx)
  obtain ⟨c, hc, _, hgtid⟩ := hs.handlers.1.record_gtid hp
  rw [hgtid, ← hs.handlers.2 c hc]
  exact (hs.handlers.1.slot_iff c.call.tid).mpr ⟨c, hc, rfl⟩

variable [DecidableEq ι]

theorem slotted_step (s : Agent ι n) (a : Action ι n) (t : Agent ι n) (hs : s.Slotted)
    (h : step s a = some t) : t.Slotted where
  handlers := projects_handlers.invariant ProbeState.capturesOwn_step trivial hs.handlers h
  shared := queueShared_step s a t hs.shared h
  pipe := projects_pipe.invariant Pipe.sourced_step trivial hs.pipe h

theorem slotted_run {programs : List Program} {as : List (Action ι n)} {s : Agent ι n}
    (h : Trace.run step (init programs) as = some s) : s.Slotted :=
  Trace.run_invariant slotted_step (slotted_init programs) h

/-- No slot is ever given up. -/
theorem slots_step {s t : Agent ι n} {a : Action ι n} (hs : s.Slotted) (h : step s a = some t) :
    s.slots ⊆ t.slots := by
  intro tid htid
  obtain ⟨cs, _, hr⟩ := recorded_step h
  obtain ⟨c, hc, hctid⟩ := (hs.handlers.1.slot_iff tid).mp htid
  refine ((slotted_step s a t hs h).handlers.1.slot_iff tid).mpr ⟨c, ?_, hctid⟩
  show c ∈ t.probe.captures
  rw [hr.captures]
  exact List.mem_append_right cs hc

/-- **The lines of an agent are about 1024 thread ids at most.** In every run, whatever is lost: the
slots are never given up, and every line is about a thread with a slot.  So once 1024 threads have
one, whatever happens from there on, no line is about any other thread. -/
theorem printed_threads (programs : List Program) (as bs : List (Action ι n)) (s t : Agent ι n)
    (h : Trace.run step (init programs) as = some s) (ht : Trace.run step s bs = some t) :
    s.slots ⊆ t.slots ∧ t.slots.card ≤ 1024 ∧ (∀ x ∈ t.pipe.printed, tidOf x.gtid ∈ t.slots) ∧
    (s.slots.card = 1024 → ∀ x ∈ t.pipe.printed, tidOf x.gtid ∈ s.slots) := by
  have hs := slotted_run h
  have hkept : s.slots ⊆ t.slots :=
    Trace.run_rel (I := Slotted) (R := fun u v => u.slots ⊆ v.slots) (fun _ => Finset.Subset.rfl)
      (fun _ _ _ => Finset.Subset.trans) slotted_step (fun _ _ _ hu hv => slots_step hu hv) hs ht
  have hcard : t.slots.card ≤ 1024 := t.kernel.threadDbCtxHash.card_le
  have hprinted : ∀ x ∈ t.pipe.printed, tidOf x.gtid ∈ t.slots := fun x hx =>
    (Trace.run_invariant slotted_step hs ht).slot_of_printed hx
  refine ⟨hkept, hcard, hprinted, fun hfull => ?_⟩
  rw [Finset.eq_of_subset_of_card_le hkept (hcard.trans hfull.ge)]
  exact hprinted

theorem printed_threads_oneQuery : ∃ s t : Agent Unit 2,
    Trace.run step (init [percona5734]) (attached ++ query cpu1 3) = some s ∧
    Trace.run step s (pumped cpu1) = some t ∧ s.slots ⊆ t.slots ∧ 7 ∈ t.slots ∧
    ∀ x ∈ t.pipe.printed, tidOf x.gtid ∈ t.slots := by
  obtain ⟨t, ht, hprinted⟩ := Option.map_eq_some_iff.mp oneQuery_printed
  obtain ⟨s, hs, hpumped⟩ := Trace.run_append_eq_some.mp ht
  obtain ⟨hkept, _, hall, _⟩ := printed_threads _ _ _ s t hs hpumped
  obtain ⟨x, hx, hgtid⟩ := List.map_eq_singleton_iff.mp hprinted
  refine ⟨s, t, hs, hpumped, hkept, ?_, hall⟩
  have hslot := hall x (by rw [hx]; exact List.mem_singleton_self x)
  rw [hgtid] at hslot
  exact hslot

end Agent

end EDGuard
