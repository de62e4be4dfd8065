import EDGuard.ProbeRun

/-!
# The slot invariant

`Inv` holds in every state a run of the probe reaches (`inv_run`):

* `live_ok`, `cap_seq`, `own` — a call in progress is the newest one of its thread id, and a
  capture of it is a capture of exactly its registers and the latest one of the slot;
* `cap_ok` — every captured record is what the entry handler writes;
* `slots` — a slot exists iff its thread id has a capture; a slot that waits for its return
  handler holds the latest capture, which was not pushed yet; any other slot was pushed once;
* `fresh` — nothing of a call is pushed before its return handler fires;
* `push_ok` — a pushed record is its source completed by the return handler.
-/

set_option autoImplicit false

namespace EDGuard

/-- The record is what the entry firing writes for these registers, with what it found in
`clusters`. -/
def Capture.Faithful (c : Capture) : Prop :=
  ∃ cluster, c.cluster = some cluster ∧
    c.record = fillDbCtx cluster c.gtid c.regs c.firing c.scratch

theorem Live.capture_faithful (l : Live) (f : Firing) (cluster : Cluster) (scratch : DbCtx) :
    (l.capture f cluster scratch).Faithful := ⟨cluster, rfl, rfl⟩

theorem Capture.Faithful.gtid {c : Capture} (h : c.Faithful) : c.record.gtid = c.gtid := by
  obtain ⟨_, _, hr⟩ := h
  rw [hr]
  rfl

theorem Capture.Faithful.thdAddr {c : Capture} (h : c.Faithful) :
    c.record.thdAddr = c.regs.parm1.toInt64 := by
  obtain ⟨_, _, hr⟩ := h
  rw [hr]
  rfl

theorem Capture.Faithful.costTime {c : Capture} (h : c.Faithful) : c.record.costTime = c.now := by
  obtain ⟨_, _, hr⟩ := h
  rw [hr]
  rfl

theorem Capture.Faithful.processed {c : Capture} (h : c.Faithful) :
    c.record.processed = UNHANDLED := by
  obtain ⟨_, _, hr⟩ := h
  rw [hr]
  rfl

/-- `bpf_probe_read_user` cannot read the `clusters` value, so no capture carries a name. -/
theorem Capture.Faithful.clusterName {c : Capture} (h : c.Faithful) :
    c.record.clusterName = Vector.replicate 64 0 := by
  obtain ⟨_, _, hr⟩ := h
  rw [hr]
  have hk : c.firing.mem.InKernel c.firing.clusterAddr 64 := fun i hi =>
    c.firing.clusterAddr_kernel i (by omega)
  exact bpfProbeReadUser_kernel hk

/-- The record is its source completed by the return firing. -/
def Push.FromSource (p : Push) (c : Capture) : Prop :=
  p.source = some c ∧ c.call.tid = p.call.tid ∧ c.now ≤ p.firing.now ∧
    ∃ cluster, p.cluster = some cluster ∧ p.record = completeDbCtx cluster p.firing c.record

namespace ProbeState

/-- The slot of `tid` and its latest capture agree. -/
def SlotOk (s : ProbeState) (tid : UInt32) : Prop :=
  (s.kernel.threadDbCtxHash.lookup tid = none ∧ s.lastCapture tid = none) ∨
  ∃ d c, s.kernel.threadDbCtxHash.lookup tid = some d ∧ s.lastCapture tid = some c ∧
    ((d.processed = UNHANDLED ∧ d = c.record ∧ s.recordsOf c.call = 0) ∨
      (d.processed ≠ UNHANDLED ∧ s.recordsOf c.call = 1))

structure Inv (s : ProbeState) : Prop where
  live_ok : ∀ tid l, s.live tid = some l →
    l.call.tid = tid ∧ tidOf l.gtid = tid ∧ l.call.seq < s.started tid
  cap_seq : ∀ c ∈ s.captures, c.call.seq < s.started c.call.tid
  cap_ok : ∀ c ∈ s.captures, c.Faithful ∧ c.now ≤ s.clock
  own : ∀ tid l, s.live tid = some l → ∀ c ∈ s.captures, c.call = l.call →
    c.gtid = l.gtid ∧ c.regs = l.regs ∧ ∃ c', s.lastCapture tid = some c' ∧ c'.call = l.call
  slots : ∀ tid, s.SlotOk tid
  fresh : ∀ tid l, s.live tid = some l → l.returned = false → s.recordsOf l.call = 0
  push_ok : ∀ p ∈ s.pushes, ∃ c ∈ s.captures, p.FromSource c

theorem inv_init : Inv init := by
  refine ⟨?_, ?_, ?_, ?_, ?_, ?_, ?_⟩
  · intro _ _ h; cases h
  · intro _ h; cases h
  · intro _ h; cases h
  · intro _ _ h; cases h
  · intro tid; exact Or.inl ⟨BoundedMap.lookup_empty tid, rfl⟩
  · intro _ _ h; cases h
  · intro _ h; cases h

/-! ## Observations -/

theorem mem_of_lastCapture {s : ProbeState} {tid : UInt32} {c : Capture}
    (h : s.lastCapture tid = some c) : c ∈ s.captures ∧ c.call.tid = tid :=
  ⟨List.mem_of_find?_eq_some h, by simpa using List.find?_some h⟩

theorem lastCapture_withCapture {s : ProbeState} {tid : UInt32} {l : Live} {c : Capture}
    {m : BoundedMap UInt32 DbCtx 1024} {v : Nat → DbCtx} (htid : c.call.tid = tid)
    (tid' : UInt32) : (s.withCapture tid l c m v).lastCapture tid' =
      if tid = tid' then some c else s.lastCapture tid' := by
  unfold lastCapture withCapture
  rw [List.find?_cons]
  by_cases h : tid = tid' <;> simp [htid, h]

theorem recordsOf_withPush {s : ProbeState} {tid : UInt32} {l : Live} {f : Firing}
    {cluster : Cluster} {d : DbCtx} {c : Capture} (hlast : s.lastCapture tid = some c)
    (id : CallId) : (s.withPush tid l f cluster d).recordsOf id =
      s.recordsOf id + if c.call = id then 1 else 0 := by
  unfold recordsOf withPush
  rw [List.countP_cons]
  simp [hlast]

/-- A call without captures has no records. -/
theorem Inv.recordsOf_eq_zero {s : ProbeState} (hi : s.Inv) {id : CallId}
    (h : ∀ c ∈ s.captures, c.call ≠ id) : s.recordsOf id = 0 := by
  apply List.countP_eq_zero.mpr
  intro p hp
  obtain ⟨c, hc, hsrc, _⟩ := hi.push_ok p hp
  rw [hsrc]
  simpa using h c hc

/-- A slot that waits for its return handler holds the latest capture, not pushed so far. -/
theorem Inv.pending_source {s : ProbeState} (hi : s.Inv) {tid : UInt32} {d : DbCtx}
    (hp : s.kernel.Pending tid d) :
    ∃ c, s.lastCapture tid = some c ∧ c ∈ s.captures ∧ c.call.tid = tid ∧ d = c.record ∧
      s.recordsOf c.call = 0 := by
  rcases hi.slots tid with ⟨hn, _⟩ | ⟨d', c, hd, hc, hcase⟩
  · rw [hp.1] at hn
    cases hn
  · rw [hp.1] at hd
    cases hd
    obtain ⟨hmem, htid⟩ := mem_of_lastCapture hc
    rcases hcase with ⟨_, hrec, h0⟩ | ⟨hne, _⟩
    · exact ⟨c, hc, hmem, htid, hrec, h0⟩
    · exact absurd hp.2 hne

/-! ## Preservation -/

theorem inv_enter {s t : ProbeState} {gtid : UInt64} {regs : PtRegs} (hi : s.Inv)
    (h : s.enter gtid regs = some t) : t.Inv := by
  obtain ⟨hfree, rfl⟩ := enter_spec h
  have hseq : ∀ tid, s.started tid ≤ Function.update s.started (tidOf gtid)
      (s.started (tidOf gtid) + 1) tid := by
    intro tid
    by_cases ht : tid = tidOf gtid
    · subst ht; simp
    · simp [ht]
  have hnew : ∀ c ∈ s.captures, c.call ≠ ⟨tidOf gtid, s.started (tidOf gtid)⟩ := by
    intro c hc he
    have := hi.cap_seq c hc
    rw [he] at this
    exact absurd this (Nat.lt_irrefl _)
  refine ⟨?_, ?_, hi.cap_ok, ?_, hi.slots, ?_, hi.push_ok⟩
  · intro tid l hl
    rcases live_update hl with ⟨rfl, rfl⟩ | ⟨_, hl⟩
    · simp
    · obtain ⟨h1, h2, h3⟩ := hi.live_ok tid l hl
      exact ⟨h1, h2, h3.trans_le (hseq tid)⟩
  · intro c hc
    exact (hi.cap_seq c hc).trans_le (hseq _)
  · intro tid l hl c hc he
    rcases live_update hl with ⟨rfl, rfl⟩ | ⟨_, hl⟩
    · exact absurd he (hnew c hc)
    · exact hi.own tid l hl c hc he
  · intro tid l hl hr
    rcases live_update hl with ⟨rfl, rfl⟩ | ⟨_, hl⟩
    · exact hi.recordsOf_eq_zero hnew
    · exact hi.fresh tid l hl hr

/-- A step that only sets flags of the live call of `tid` and moves the clock keeps the
invariant. -/
theorem Inv.relive {s t : ProbeState} (hi : s.Inv) {tid : UInt32} {k l : Live} {now : UInt64}
    (hl : s.live tid = some k) (hcall : l.call = k.call) (hgtid : l.gtid = k.gtid)
    (hregs : l.regs = k.regs) (hret : l.returned = false → k.returned = false)
    (hnow : s.clock ≤ now) (hslots : t.kernel.threadDbCtxHash = s.kernel.threadDbCtxHash)
    (hclock : t.clock = now) (hstarted : t.started = s.started)
    (hlive : t.live = Function.update s.live tid (some l))
    (hcaps : t.captures = s.captures) (hpush : t.pushes = s.pushes) : t.Inv := by
  have hlook : ∀ tid' l₁, t.live tid' = some l₁ → ∃ l₀, s.live tid' = some l₀ ∧
      l₁.call = l₀.call ∧ l₁.gtid = l₀.gtid ∧ l₁.regs = l₀.regs ∧
      (l₁.returned = false → l₀.returned = false) := by
    intro tid' l₁ h₁
    rw [hlive] at h₁
    rcases live_update h₁ with ⟨rfl, rfl⟩ | ⟨_, h₁⟩
    · exact ⟨k, hl, hcall, hgtid, hregs, hret⟩
    · exact ⟨l₁, h₁, rfl, rfl, rfl, id⟩
  have hlast : ∀ tid', t.lastCapture tid' = s.lastCapture tid' := fun tid' => by
    unfold lastCapture
    rw [hcaps]
  have hrec : ∀ id, t.recordsOf id = s.recordsOf id := fun id => by
    unfold recordsOf
    rw [hpush]
  refine ⟨?_, ?_, ?_, ?_, ?_, ?_, ?_⟩
  · intro tid' l₁ h₁
    obtain ⟨l₀, h₀, hc, hg, _, _⟩ := hlook tid' l₁ h₁
    rw [hc, hg, hstarted]
    exact hi.live_ok tid' l₀ h₀
  · rw [hcaps, hstarted]
    exact hi.cap_seq
  · intro c hc
    rw [hcaps] at hc
    obtain ⟨hf, hle⟩ := hi.cap_ok c hc
    exact ⟨hf, hclock ▸ UInt64.le_trans hle hnow⟩
  · intro tid' l₁ h₁ c hc he
    obtain ⟨l₀, h₀, hcl, hg, hr, _⟩ := hlook tid' l₁ h₁
    rw [hcaps] at hc
    rw [hg, hr, hcl, hlast]
    exact hi.own tid' l₀ h₀ c hc (he.trans hcl)
  · intro tid'
    unfold SlotOk
    rw [hslots, hlast]
    simp only [hrec]
    exact hi.slots tid'
  · intro tid' l₁ h₁ hr
    obtain ⟨l₀, h₀, hc, _, _, hr'⟩ := hlook tid' l₁ h₁
    rw [hrec, hc]
    exact hi.fresh tid' l₀ h₀ (hr' hr)
  · rw [hcaps, hpush]
    exact hi.push_ok

/-- Storing a capture of the live call of `tid` in its slot keeps the invariant. -/
theorem Inv.store {s : ProbeState} (hi : s.Inv) {tid : UInt32} {l : Live} {f : Firing}
    {cluster : Cluster} {scratch : DbCtx} {m : BoundedMap UInt32 DbCtx 1024} {v : Nat → DbCtx}
    (hl : s.live tid = some l) (hret : l.returned = false) (hnow : s.clock ≤ f.now)
    (hup : s.kernel.threadDbCtxHash.update tid (l.capture f cluster scratch).record = some m) :
    (s.withCapture tid l (l.capture f cluster scratch) m v).Inv := by
  obtain ⟨htid, hg, hseq⟩ := hi.live_ok tid l hl
  have hr := l.capture_faithful f cluster scratch
  have h0 : s.recordsOf l.call = 0 := hi.fresh tid l hl hret
  have hlook : ∀ tid' l₁,
      (s.withCapture tid l (l.capture f cluster scratch) m v).live tid' = some l₁ →
      ∃ l₀, s.live tid' = some l₀ ∧ l₁.call = l₀.call ∧ l₁.gtid = l₀.gtid ∧ l₁.regs = l₀.regs ∧
        l₁.returned = l₀.returned := by
    intro tid' l₁ h₁
    rcases live_update h₁ with ⟨rfl, rfl⟩ | ⟨_, h₁⟩
    · exact ⟨l, hl, rfl, rfl, rfl, rfl⟩
    · exact ⟨l₁, h₁, rfl, rfl, rfl, rfl⟩
  have hrec : ∀ id, (s.withCapture tid l (l.capture f cluster scratch) m v).recordsOf id =
      s.recordsOf id := fun _ => rfl
  refine ⟨?_, ?_, ?_, ?_, ?_, ?_, ?_⟩
  · intro tid' l₁ h₁
    obtain ⟨l₀, h₀, hc, hg', _, _⟩ := hlook tid' l₁ h₁
    rw [hc, hg']
    exact hi.live_ok tid' l₀ h₀
  · intro c hc
    rcases List.mem_cons.mp hc with rfl | hc
    · exact htid.symm ▸ hseq
    · exact hi.cap_seq c hc
  · intro c hc
    rcases List.mem_cons.mp hc with rfl | hc
    · exact ⟨hr, UInt64.le_refl _⟩
    · obtain ⟨hf, hle⟩ := hi.cap_ok c hc
      exact ⟨hf, UInt64.le_trans hle hnow⟩
  · intro tid' l₁ h₁ c hc he
    obtain ⟨l₀, h₀, hcl, hg', hr', _⟩ := hlook tid' l₁ h₁
    rw [hg', hr', hcl, lastCapture_withCapture htid]
    have htid' := (hi.live_ok tid' l₀ h₀).1
    by_cases hsame : tid = tid'
    · subst hsame
      rw [hl] at h₀
      cases h₀
      rw [if_pos rfl]
      rcases List.mem_cons.mp hc with rfl | hc
      · exact ⟨rfl, rfl, _, rfl, rfl⟩
      · obtain ⟨h1, h2, _⟩ := hi.own tid l hl c hc (he.trans hcl)
        exact ⟨h1, h2, _, rfl, rfl⟩
    · rw [if_neg hsame]
      rcases List.mem_cons.mp hc with rfl | hc
      · refine absurd ?_ hsame
        rw [← htid, ← htid', ← hcl, ← he]
        rfl
      · exact hi.own tid' l₀ h₀ c hc (he.trans hcl)
  · intro tid'
    unfold SlotOk
    rw [lastCapture_withCapture htid, lookup_withCapture hup]
    simp only [hrec]
    by_cases hsame : tid = tid'
    · subst hsame
      rw [if_pos rfl, if_pos rfl]
      exact Or.inr ⟨_, _, rfl, rfl, Or.inl ⟨hr.processed, rfl, h0⟩⟩
    · rw [if_neg (Ne.symm hsame), if_neg hsame]
      exact hi.slots tid'
  · intro tid' l₁ h₁ hr₁
    obtain ⟨l₀, h₀, hc, _, _, hr'⟩ := hlook tid' l₁ h₁
    rw [hrec, hc]
    exact hi.fresh tid' l₀ h₀ (hr' ▸ hr₁)
  · intro p hp
    obtain ⟨c, hc, hsrc⟩ := hi.push_ok p hp
    exact ⟨c, List.mem_cons_of_mem _ hc, hsrc⟩

theorem inv_entry {s t : ProbeState} {tid : UInt32} {cpu : Nat} {f : Firing} (hi : s.Inv)
    (h : s.fireEntry tid cpu f = some t) : t.Inv := by
  obtain ⟨l, hl⟩ := live_of_fireEntry h
  obtain ⟨hret, hnow, hcase⟩ := fireEntry_cases h hl (hi.live_ok tid l hl).2.1
  rcases hcase with ⟨_, rfl⟩ | ⟨_, _, v, rfl⟩ | ⟨_, cluster, m, v, _, _, rfl, hup, rfl⟩
  · exact hi.relive hl rfl rfl rfl id hnow rfl rfl rfl rfl rfl rfl
  · exact hi.relive (l := { l with hit := true }) hl rfl rfl rfl id hnow rfl rfl rfl rfl rfl rfl
  · exact hi.store hl hret hnow hup

/-- Pushing the pending slot of `tid` keeps the invariant. -/
theorem Inv.push {s : ProbeState} (hi : s.Inv) {tid : UInt32} {l : Live} {f : Firing}
    {cluster : Cluster} {d : DbCtx} (hl : s.live tid = some l) (hnow : s.clock ≤ f.now)
    (hp : s.kernel.Pending tid d) : (s.withPush tid l f cluster d).Inv := by
  obtain ⟨c, hlast, hmem, hctid, hrec, h0⟩ := hi.pending_source hp
  obtain ⟨htid, _, _⟩ := hi.live_ok tid l hl
  refine ⟨?_, hi.cap_seq, ?_, ?_, ?_, ?_, ?_⟩
  · intro tid' l₁ h₁
    rcases live_update h₁ with ⟨rfl, rfl⟩ | ⟨_, h₁⟩
    · exact hi.live_ok tid' l hl
    · exact hi.live_ok tid' l₁ h₁
  · intro c' hc'
    obtain ⟨hf, hle⟩ := hi.cap_ok c' hc'
    exact ⟨hf, UInt64.le_trans hle hnow⟩
  · intro tid' l₁ h₁ c' hc' he
    rcases live_update h₁ with ⟨rfl, rfl⟩ | ⟨_, h₁⟩
    · exact hi.own tid' l hl c' hc' he
    · exact hi.own tid' l₁ h₁ c' hc' he
  · intro tid'
    have hlast' : (s.withPush tid l f cluster d).lastCapture tid' = s.lastCapture tid' := rfl
    unfold SlotOk
    rw [hlast', lookup_withPush hp]
    simp only [recordsOf_withPush hlast]
    by_cases hsame : tid' = tid
    · subst hsame
      rw [if_pos rfl]
      have hmark : (completeDbCtx cluster f d).processed ≠ UNHANDLED :=
        (by decide : (0 : Int8) ≠ UNHANDLED)
      refine Or.inr ⟨completeDbCtx cluster f d, c, rfl, hlast, Or.inr ⟨hmark, ?_⟩⟩
      rw [h0, if_pos rfl]
    · rw [if_neg hsame]
      rcases hi.slots tid' with hn | ⟨d', c', hd', hc', hcase⟩
      · exact Or.inl hn
      · have hne : c.call ≠ c'.call := fun he => by
          apply hsame
          rw [← (mem_of_lastCapture hc').2, ← hctid, he]
        refine Or.inr ⟨d', c', hd', hc', ?_⟩
        rw [if_neg hne, Nat.add_zero]
        exact hcase
  · intro tid' l₁ h₁ hr₁
    rcases live_update h₁ with ⟨rfl, rfl⟩ | ⟨hsame, h₁⟩
    · cases hr₁
    · have hne : c.call ≠ l₁.call := fun he => by
        apply hsame
        rw [← (hi.live_ok tid' l₁ h₁).1, ← hctid, he]
      rw [recordsOf_withPush hlast, if_neg hne, Nat.add_zero]
      exact hi.fresh tid' l₁ h₁ hr₁
  · intro p hp'
    rcases List.mem_cons.mp hp' with rfl | hp'
    · refine ⟨c, hmem, hlast, ?_, ?_, cluster, rfl, by rw [hrec]⟩
      · rw [hctid, htid]
      · exact UInt64.le_trans (hi.cap_ok c hmem).2 hnow
    · exact hi.push_ok p hp'

theorem inv_ret {s t : ProbeState} {tid : UInt32} {f : Firing} (hi : s.Inv)
    (h : s.fireReturn tid f = some t) : t.Inv := by
  obtain ⟨l, hl⟩ := live_of_fireReturn h
  obtain ⟨hnow, hcase⟩ := fireReturn_cases h hl (hi.live_ok tid l hl).2.1
  rcases hcase with ⟨_, rfl⟩ | ⟨_, _, rfl⟩ | ⟨cluster, d, _, hp, rfl⟩
  · exact hi.relive (l := { l with returned := true }) hl rfl rfl rfl
      (fun hr => by cases hr) hnow rfl rfl rfl rfl rfl rfl
  · exact hi.relive (l := { l with returned := true }) hl rfl rfl rfl
      (fun hr => by cases hr) hnow rfl rfl rfl rfl rfl rfl
  · exact hi.push hl hnow hp

theorem inv_leave {s t : ProbeState} {tid : UInt32} (hi : s.Inv) (h : s.leave tid = some t) :
    t.Inv := by
  obtain rfl := leave_spec h
  exact ⟨fun tid' l hl => hi.live_ok tid' l (live_ended hl).2, hi.cap_seq, hi.cap_ok,
    fun tid' l hl => hi.own tid' l (live_ended hl).2, hi.slots,
    fun tid' l hl => hi.fresh tid' l (live_ended hl).2, hi.push_ok⟩

/-- Changes of `clusters` and of the queue are not seen by the invariant. -/
theorem Inv.frame {s : ProbeState} (hi : s.Inv) (m : BoundedMap UInt32 Cluster 1024)
    (q : EvictQueue DbCtx 5120) :
    Inv { s with kernel := { s.kernel with clusters := m, dbCtxQueue := q } } :=
  ⟨hi.live_ok, hi.cap_seq, hi.cap_ok, hi.own, hi.slots, hi.fresh, hi.push_ok⟩

theorem inv_step (s : ProbeState) (a : Action) (t : ProbeState) (hi : s.Inv)
    (h : step s a = some t) : t.Inv := by
  cases a with
  | enter gtid regs => exact inv_enter hi h
  | entry tid cpu f => exact inv_entry hi h
  | ret tid f => exact inv_ret hi h
  | leave tid => exact inv_leave hi h
  | setCluster _ _ | delCluster _ | pop =>
    obtain ⟨m, q, rfl⟩ := agent_spec h trivial
    exact hi.frame m q

/-- **Every reachable state meets the slot invariant.** -/
theorem inv_run {s : ProbeState} {as : List Action} (h : Trace.run step init as = some s) :
    s.Inv := Trace.run_invariant inv_step inv_init h

/-- Every record was pushed in a call that had begun. -/
def PushesBegun (s : ProbeState) : Prop := ∀ q ∈ s.pushes, q.call.seq < s.started q.call.tid

theorem pushesBegun_step (s : ProbeState) (a : Action) (t : ProbeState)
    (hs : s.Inv ∧ s.PushesBegun) (h : step s a = some t) : t.Inv ∧ t.PushesBegun := by
  obtain ⟨hi, hp⟩ := hs
  refine ⟨inv_step s a t hi h, ?_⟩
  cases a with
  | enter gtid regs =>
    obtain ⟨_, rfl⟩ := enter_spec h
    intro q hq
    have hseq := hp q hq
    by_cases he : q.call.tid = tidOf gtid
    · rw [he] at hseq ⊢
      simp only [Function.update_self]
      omega
    · simpa [he] using hseq
  | entry tid cpu f =>
    obtain ⟨l, hl⟩ := live_of_fireEntry h
    obtain ⟨_, _, hcase⟩ := fireEntry_cases h hl (hi.live_ok tid l hl).2.1
    rcases hcase with ⟨_, rfl⟩ | ⟨_, _, v, rfl⟩ | ⟨_, cluster, m, v, _, _, rfl, _, rfl⟩ <;> exact hp
  | ret tid f =>
    obtain ⟨l, hl⟩ := live_of_fireReturn h
    obtain ⟨hcall, hg, hseq⟩ := hi.live_ok tid l hl
    obtain ⟨_, hcase⟩ := fireReturn_cases h hl hg
    rcases hcase with ⟨_, rfl⟩ | ⟨_, _, rfl⟩ | ⟨cluster, d, _, _, rfl⟩
    · exact hp
    · exact hp
    · intro q hq
      rcases List.mem_cons.mp hq with rfl | hq
      · exact hcall.symm ▸ hseq
      · exact hp q hq
  | leave tid => obtain rfl := leave_spec h; exact hp
  | setCluster _ _ | delCluster _ | pop => obtain ⟨m, q, rfl⟩ := agent_spec h trivial; exact hp

end ProbeState

end EDGuard
