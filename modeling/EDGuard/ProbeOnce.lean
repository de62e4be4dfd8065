import EDGuard.ProbePairing

/-!
# Duplicated probes

Each copy of the pair that is attached to the function fires for every call, so that a call has any
number of entry firings, followed by any number of return firings.  The mark `processed` of the slot
is a latch: an entry firing that stores sets it, the first return firing that finds it set clears it
and pushes.

* `Latched` — **the invariant**: a call that has returned has pushed, or its slot may still be
  pending, but not both; and a thread id has pushed no more than it has stored, a pending slot
  counting as a push to come.
* `at_most_one_record` — so a call pushes at most one record, and a thread id at most as many as
  entry firings have stored for it.
-/

set_option autoImplicit false

namespace EDGuard

namespace ProbeState

/-- How many records the return firings of a call have pushed. -/
def pushedFor (s : ProbeState) (id : CallId) : Nat := s.pushes.countP fun p => p.call = id

/-- How many records the return firings on a thread id have pushed. -/
def pushedOn (s : ProbeState) (tid : UInt32) : Nat := s.pushes.countP fun p => p.call.tid = tid

/-- How many entry firings on a thread id have stored a slot. -/
def storedOn (s : ProbeState) (tid : UInt32) : Nat := s.captures.countP fun c => c.call.tid = tid

/-- 1 when the slot of the thread id waits for a return handler. -/
def pendingOn (s : ProbeState) (tid : UInt32) : Nat :=
  if (s.kernel.threadDbCtxHash.lookup tid).any fun d => d.processed = UNHANDLED then 1 else 0

theorem pendingOn_le (s : ProbeState) (tid : UInt32) : s.pendingOn tid ≤ 1 := by
  unfold pendingOn
  split <;> omega

theorem pendingOn_of_pending {s : ProbeState} {tid : UInt32} {d : DbCtx}
    (h : s.kernel.Pending tid d) : s.pendingOn tid = 1 := by
  simp [pendingOn, h.1, h.2]

/-- **The latch.** -/
structure Latched (s : ProbeState) : Prop where
  once : ∀ id, s.pushedFor id ≤ 1
  fresh : ∀ tid l, s.live tid = some l → l.returned = false → s.pushedFor l.call = 0
  returned : ∀ tid l, s.live tid = some l → l.returned = true →
    s.pushedFor l.call + s.pendingOn tid ≤ 1
  stored : ∀ tid, s.pushedOn tid + s.pendingOn tid ≤ s.storedOn tid

variable {s t : ProbeState}

theorem latched_init : init.Latched := by
  refine ⟨fun _ => Nat.zero_le _, ?_, ?_, fun tid => ?_⟩
  · intro tid l hl
    cases hl
  · intro tid l hl
    cases hl
  · simp [pushedOn, storedOn, pendingOn, init, Kernel.init]

/-- A step that neither stores nor pushes; it may mark a call as returned. -/
theorem Latched.frame (hs : s.Latched) (hpushes : t.pushes = s.pushes)
    (hcaptures : t.captures = s.captures)
    (hslots : t.kernel.threadDbCtxHash = s.kernel.threadDbCtxHash)
    (hlive : ∀ tid l, t.live tid = some l → ∃ l₀, s.live tid = some l₀ ∧ l.call = l₀.call ∧
      (l.returned = false → l₀.returned = false)) : t.Latched := by
  have hfor : ∀ id, t.pushedFor id = s.pushedFor id := fun id => by
    unfold pushedFor
    rw [hpushes]
  have hpending : ∀ tid, t.pendingOn tid = s.pendingOn tid := fun tid => by
    unfold pendingOn
    rw [hslots]
  refine ⟨fun id => ?_, fun tid l hl hr => ?_, fun tid l hl hr => ?_, fun tid => ?_⟩
  · rw [hfor]
    exact hs.once id
  · obtain ⟨l₀, hl₀, hcall, hr₀⟩ := hlive tid l hl
    rw [hfor, hcall]
    exact hs.fresh tid l₀ hl₀ (hr₀ hr)
  · obtain ⟨l₀, hl₀, hcall, _⟩ := hlive tid l hl
    rw [hfor, hcall, hpending]
    cases hr₀ : l₀.returned with
    | true => exact hs.returned tid l₀ hl₀ hr₀
    | false =>
      have h0 := hs.fresh tid l₀ hl₀ hr₀
      have h1 := s.pendingOn_le tid
      omega
  · have hon := hs.stored tid
    unfold pushedOn storedOn at hon ⊢
    rw [hpushes, hcaptures, hpending]
    exact hon

theorem latched_enter {gtid : UInt64} {regs : PtRegs} (hb : s.PushesBegun) (hs : s.Latched)
    (h : s.enter gtid regs = some t) : t.Latched := by
  obtain ⟨_, rfl⟩ := enter_spec h
  refine ⟨hs.once, fun tid l hl hr => ?_, fun tid l hl hr => ?_, hs.stored⟩
  · rcases live_update hl with ⟨_, rfl⟩ | ⟨_, hl⟩
    · apply List.countP_eq_zero.mpr
      intro p hp hcall
      have hlt := hb p hp
      rw [of_decide_eq_true hcall] at hlt
      exact absurd hlt (Nat.lt_irrefl _)
    · exact hs.fresh tid l hl hr
  · rcases live_update hl with ⟨_, rfl⟩ | ⟨_, hl⟩
    · cases hr
    · exact hs.returned tid l hl hr

/-- **An entry firing that stores** makes its slot pending. -/
theorem Latched.store {tid : UInt32} {l : Live} {c : Capture}
    {m : BoundedMap UInt32 DbCtx 1024} {v : Nat → DbCtx} (hs : s.Latched)
    (hl : s.live tid = some l) (htid : c.call.tid = tid) (hret : l.returned = false)
    (hup : s.kernel.threadDbCtxHash.update tid c.record = some m) :
    (s.withCapture tid l c m v).Latched := by
  have hother : ∀ tid', tid' ≠ tid →
      (s.withCapture tid l c m v).pendingOn tid' = s.pendingOn tid' := by
    intro tid' hne
    unfold pendingOn
    rw [lookup_withCapture hup, if_neg hne]
  have hstored : ∀ tid', (s.withCapture tid l c m v).storedOn tid' =
      s.storedOn tid' + if tid = tid' then 1 else 0 := by
    intro tid'
    unfold storedOn withCapture
    rw [List.countP_cons]
    simp [htid]
  refine ⟨hs.once, fun tid' l' hl' hr => ?_, fun tid' l' hl' hr => ?_, fun tid' => ?_⟩
  · rcases live_update hl' with ⟨rfl, rfl⟩ | ⟨_, hl'⟩
    · exact hs.fresh tid' l hl hret
    · exact hs.fresh tid' l' hl' hr
  · rcases live_update hl' with ⟨rfl, rfl⟩ | ⟨hne, hl'⟩
    · exact absurd hr (by simp [hret])
    · rw [hother tid' hne]
      exact hs.returned tid' l' hl' hr
  · rw [hstored]
    rcases eq_or_ne tid' tid with rfl | hne
    · rw [if_pos rfl]
      exact Nat.add_le_add ((Nat.le_add_right _ _).trans (hs.stored tid')) (pendingOn_le _ _)
    · rw [hother tid' hne, if_neg (Ne.symm hne)]
      exact hs.stored tid'

theorem pushedFor_withPush (s : ProbeState) (tid : UInt32) (l : Live) (f : Firing)
    (cluster : Cluster) (d : DbCtx) (id : CallId) :
    (s.withPush tid l f cluster d).pushedFor id =
      s.pushedFor id + if l.call = id then 1 else 0 := by
  unfold pushedFor withPush
  rw [List.countP_cons]
  simp

theorem pushedOn_withPush {tid : UInt32} {l : Live} (f : Firing) (cluster : Cluster) (d : DbCtx)
    (htid : l.call.tid = tid) (tid' : UInt32) :
    (s.withPush tid l f cluster d).pushedOn tid' =
      s.pushedOn tid' + if tid = tid' then 1 else 0 := by
  unfold pushedOn withPush
  rw [List.countP_cons]
  simp [htid]

/-- Nothing was pushed for a call whose slot is still pending. -/
theorem Latched.pushedFor_eq_zero {tid : UInt32} {l : Live} {d : DbCtx} (hs : s.Latched)
    (hl : s.live tid = some l) (hp : s.kernel.Pending tid d) : s.pushedFor l.call = 0 := by
  cases hr : l.returned with
  | false => exact hs.fresh tid l hl hr
  | true =>
    have hle := hs.returned tid l hl hr
    rw [pendingOn_of_pending hp] at hle
    omega

/-- **A return firing that pushes** clears the mark. -/
theorem Latched.push {tid : UInt32} {l : Live} {f : Firing} {cluster : Cluster} {d : DbCtx}
    (hs : s.Latched) (hi : s.Inv) (hl : s.live tid = some l) (hp : s.kernel.Pending tid d) :
    (s.withPush tid l f cluster d).Latched := by
  obtain ⟨htid, _, _⟩ := hi.live_ok tid l hl
  have hself : (s.withPush tid l f cluster d).pendingOn tid = 0 := by
    unfold pendingOn
    rw [lookup_withPush hp, if_pos rfl]
    exact if_neg (by simp [completeDbCtx, UNHANDLED])
  have hother : ∀ tid', tid' ≠ tid →
      (s.withPush tid l f cluster d).pendingOn tid' = s.pendingOn tid' := by
    intro tid' hne
    unfold pendingOn
    rw [lookup_withPush hp, if_neg hne]
  have hfor := s.pushedFor_withPush tid l f cluster d
  have hzero := hs.pushedFor_eq_zero hl hp
  have hsame : ∀ tid' l', tid' ≠ tid → s.live tid' = some l' →
      (s.withPush tid l f cluster d).pushedFor l'.call = s.pushedFor l'.call := by
    intro tid' l' hne hl'
    have hcall : l.call ≠ l'.call := fun he =>
      hne (by rw [← (hi.live_ok tid' l' hl').1, ← htid, he])
    rw [hfor, if_neg hcall, Nat.add_zero]
  refine ⟨fun id => ?_, fun tid' l' hl' hr => ?_, fun tid' l' hl' hr => ?_, fun tid' => ?_⟩
  · rw [hfor]
    rcases eq_or_ne l.call id with rfl | hne
    · rw [hzero, if_pos rfl]
    · rw [if_neg hne]
      exact hs.once id
  · rcases live_update hl' with ⟨_, rfl⟩ | ⟨hne, hl'⟩
    · cases hr
    · rw [hsame tid' l' hne hl']
      exact hs.fresh tid' l' hl' hr
  · rcases live_update hl' with ⟨rfl, rfl⟩ | ⟨hne, hl'⟩
    · rw [hself, hfor, hzero, if_pos rfl]
    · rw [hsame tid' l' hne hl', hother tid' hne]
      exact hs.returned tid' l' hl' hr
  · have hle := hs.stored tid'
    rw [pushedOn_withPush f cluster d htid]
    rcases eq_or_ne tid' tid with rfl | hne
    · rw [pendingOn_of_pending hp] at hle
      rw [hself, if_pos rfl]
      exact hle
    · rw [hother tid' hne, if_neg (Ne.symm hne)]
      exact hle

theorem latched_step {s t : ProbeState} {a : Action} (hi : s.Inv) (hb : s.PushesBegun)
    (hs : s.Latched) (h : step s a = some t) : t.Latched := by
  cases a with
  | enter gtid regs => exact latched_enter hb hs h
  | entry tid cpu f =>
    obtain ⟨l, hl⟩ := live_of_fireEntry h
    obtain ⟨htid, hg, _⟩ := hi.live_ok tid l hl
    obtain ⟨hret, _, hcase⟩ := fireEntry_cases h hl hg
    have hmark : ∀ hit, ∀ tid' l', Function.update s.live tid (some { l with hit := hit }) tid' =
        some l' → ∃ l₀, s.live tid' = some l₀ ∧ l'.call = l₀.call ∧
          (l'.returned = false → l₀.returned = false) := by
      intro hit tid' l' hl'
      rcases live_update hl' with ⟨rfl, rfl⟩ | ⟨_, hl'⟩
      · exact ⟨l, hl, rfl, id⟩
      · exact ⟨l', hl', rfl, id⟩
    rcases hcase with ⟨_, rfl⟩ | ⟨_, _, v, rfl⟩ | ⟨_, cluster, m, v, _, _, rfl, hup, rfl⟩
    · exact hs.frame rfl rfl rfl (hmark l.hit)
    · exact hs.frame rfl rfl rfl (hmark true)
    · exact hs.store hl htid hret hup
  | ret tid f =>
    obtain ⟨l, hl⟩ := live_of_fireReturn h
    obtain ⟨_, hcase⟩ := fireReturn_cases h hl (hi.live_ok tid l hl).2.1
    have hmark : ∀ tid' l', Function.update s.live tid (some { l with returned := true }) tid' =
        some l' → ∃ l₀, s.live tid' = some l₀ ∧ l'.call = l₀.call ∧
          (l'.returned = false → l₀.returned = false) := by
      intro tid' l' hl'
      rcases live_update hl' with ⟨rfl, rfl⟩ | ⟨_, hl'⟩
      · exact ⟨l, hl, rfl, fun hr => nomatch hr⟩
      · exact ⟨l', hl', rfl, id⟩
    rcases hcase with ⟨_, rfl⟩ | ⟨_, _, rfl⟩ | ⟨cluster, d, _, hp, rfl⟩
    · exact hs.frame rfl rfl rfl hmark
    · exact hs.frame rfl rfl rfl hmark
    · exact hs.push hi hl hp
  | leave tid =>
    obtain rfl := leave_spec h
    exact hs.frame rfl rfl rfl fun tid' l' hl' => ⟨l', (live_ended hl').2, rfl, id⟩
  | setCluster _ _ | delCluster _ | pop =>
    obtain ⟨m, q, rfl⟩ := agent_spec h trivial
    exact hs.frame rfl rfl rfl fun _ l' hl' => ⟨l', hl', rfl, id⟩

/-- **At most one record per call**, however often the two handlers fire for it, and at most as
many records on a thread id as entry firings have stored for it. -/
theorem at_most_one_record {s : ProbeState} {as : List Action}
    (h : Trace.run step init as = some s) :
    (∀ id, s.pushedFor id ≤ 1) ∧ ∀ tid, s.pushedOn tid ≤ s.storedOn tid := by
  have hs : s.Latched := by
    refine (Trace.run_invariant (I := fun s => (s.Inv ∧ s.PushesBegun) ∧ s.Latched) ?_
      ⟨⟨inv_init, fun p hp => nomatch hp⟩, latched_init⟩ h).2
    rintro s a t ⟨hb, hs⟩ ht
    exact ⟨pushesBegun_step s a t hb ht, latched_step hb.1 hb.2 hs ht⟩
  exact ⟨hs.once, fun tid => (Nat.le_add_right _ _).trans (hs.stored tid)⟩

/-- The two handlers are attached twice, and one call is made. -/
theorem at_most_one_record_duplicated :
    ∃ s, Trace.run step init [.setCluster 1 zeroCluster, .enter gtid17 ⟨0, 0, COM_QUERY⟩,
      .entry 7 0 (firingAt 1), .entry 7 0 (firingAt 2), .ret 7 (firingAt 3), .ret 7 (firingAt 4),
      .leave 7] = some s ∧ (s.pushedOn 7, s.storedOn 7) = (1, 2) ∧ ∀ id, s.pushedFor id ≤ 1 := by
  have hrun : (Trace.run step init [.setCluster 1 zeroCluster, .enter gtid17 ⟨0, 0, COM_QUERY⟩,
      .entry 7 0 (firingAt 1), .entry 7 0 (firingAt 2), .ret 7 (firingAt 3), .ret 7 (firingAt 4),
      .leave 7]).map (fun s => (s.pushedOn 7, s.storedOn 7)) = some (1, 2) := by decide
  obtain ⟨s, hs, hobs⟩ := Option.map_eq_some_iff.mp hrun
  exact ⟨s, hs, hobs, (at_most_one_record hs).1⟩

end ProbeState

end EDGuard
