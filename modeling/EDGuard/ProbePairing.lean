import EDGuard.ProbeInv

/-!
# Pairing of entry and return firings

* `paired_iff` — in every run, every pushed record holds what the entry firing of the returning
  call captured, with the elapsed time as its cost, **if and only if** no return handler ever
  finds the slot of its thread id pending although the entry handler of its own call stored
  nothing.
* `stale_slot_pushed` — a run where that happens: a return that found its process unregistered
  leaves the slot pending, and the next call of the thread (a command other than `COM_QUERY`)
  pushes it again under its own return.
-/

set_option autoImplicit false

namespace EDGuard

/-- The pushed record is the capture of the call that is returning: its gtid, its `THD`, every
field the entry firing captured, and the time between the two firings. -/
def Push.Paired (p : Push) (captures : List Capture) : Prop :=
  ∃ c ∈ captures, c.call = p.call ∧ p.record.gtid = p.gtid ∧
    p.record.thdAddr = p.regs.parm1.toInt64 ∧
    (∃ cluster, p.record = completeDbCtx cluster p.firing c.record) ∧
    c.now ≤ p.firing.now ∧ p.record.costTime.toNat = p.firing.now.toNat - c.now.toNat

namespace ProbeState

def AllPaired (s : ProbeState) : Prop := ∀ p ∈ s.pushes, p.Paired s.captures

/-- The return handler finds the slot of its thread id pending only when the entry handler of
its own call stored it. -/
def ReturnMatches (s : ProbeState) : Action → Prop
  | .ret tid _ => ∀ l ∈ s.live tid, pidOf l.gtid ∈ s.kernel.clusters.keys →
      ∀ d ∈ s.kernel.threadDbCtxHash.lookup tid, d.processed = UNHANDLED →
        ∃ c ∈ s.captures, c.call = l.call
  | _ => True

instance (s : ProbeState) : ∀ a, Decidable (s.ReturnMatches a)
  | .ret tid _ => inferInstanceAs (Decidable (∀ l ∈ s.live tid, _ → ∀ d ∈ _, _ → ∃ c ∈ _, _))
  | .enter .. | .entry .. | .leave .. | .setCluster .. | .delCluster .. | .pop => isTrue trivial

/-! ## Captures and pushes only grow -/

theorem history_mono {s t : ProbeState} {a : Action} (hi : s.Inv) (h : step s a = some t) :
    (∀ c ∈ s.captures, c ∈ t.captures) ∧ (∀ p ∈ s.pushes, p ∈ t.pushes) := by
  cases a with
  | enter gtid regs =>
    obtain ⟨_, rfl⟩ := enter_spec h
    exact ⟨fun _ hc => hc, fun _ hp => hp⟩
  | entry tid cpu f =>
    obtain ⟨l, hl⟩ := live_of_fireEntry h
    obtain ⟨_, _, hcase⟩ := fireEntry_cases h hl (hi.live_ok tid l hl).2.1
    rcases hcase with ⟨_, rfl⟩ | ⟨_, _, v, rfl⟩ | ⟨_, cluster, m, v, _, _, rfl, _, rfl⟩
    · exact ⟨fun _ hc => hc, fun _ hp => hp⟩
    · exact ⟨fun _ hc => hc, fun _ hp => hp⟩
    · exact ⟨fun _ hc => List.mem_cons_of_mem _ hc, fun _ hp => hp⟩
  | ret tid f =>
    obtain ⟨l, hl⟩ := live_of_fireReturn h
    obtain ⟨_, hcase⟩ := fireReturn_cases h hl (hi.live_ok tid l hl).2.1
    rcases hcase with ⟨_, rfl⟩ | ⟨_, _, rfl⟩ | ⟨cluster, d, _, _, rfl⟩
    · exact ⟨fun _ hc => hc, fun _ hp => hp⟩
    · exact ⟨fun _ hc => hc, fun _ hp => hp⟩
    · exact ⟨fun _ hc => hc, fun _ hp => List.mem_cons_of_mem _ hp⟩
  | leave tid =>
    obtain rfl := leave_spec h
    exact ⟨fun _ hc => hc, fun _ hp => hp⟩
  | setCluster _ _ | delCluster _ | pop =>
    obtain ⟨m, q, rfl⟩ := agent_spec h trivial
    exact ⟨fun _ hc => hc, fun _ hp => hp⟩

/-- The call can capture nothing any more: its return handler fired, or it ended. -/
def Sealed (s : ProbeState) (id : CallId) : Prop :=
  id.seq < s.started id.tid ∧ ∀ l, s.live id.tid = some l → l.call = id → l.returned = true

theorem sealed_step {s t : ProbeState} {a : Action} {id : CallId} (hi : s.Inv)
    (hs : s.Sealed id) (h : step s a = some t) :
    t.Sealed id ∧ ∀ c ∈ t.captures, c.call = id → c ∈ s.captures := by
  obtain ⟨hseq, hret⟩ := hs
  -- a step that only touches the live call of `tid` and does not reset its return flag
  have hrelive : ∀ (tid : UInt32) (l l' : Live), s.live tid = some l → l'.call = l.call →
      (l.returned = true → l'.returned = true) → ∀ l₁,
      Function.update s.live tid (some l') id.tid = some l₁ → l₁.call = id →
      l₁.returned = true := by
    intro tid l l' hl hcall hr l₁ h₁ he
    rcases live_update h₁ with ⟨rfl, rfl⟩ | ⟨_, h₁⟩
    · exact hr (hret l hl (hcall ▸ he))
    · exact hret l₁ h₁ he
  cases a with
  | enter gtid regs =>
    obtain ⟨_, rfl⟩ := enter_spec h
    refine ⟨⟨?_, ?_⟩, fun c hc _ => hc⟩
    · by_cases ht : id.tid = tidOf gtid
      · rw [ht] at hseq
        simp only [ht, Function.update_self]
        omega
      · simpa [ht] using hseq
    · intro l₁ h₁ he
      rcases live_update h₁ with ⟨_, rfl⟩ | ⟨_, h₁⟩
      · rw [← he] at hseq
        exact absurd hseq (Nat.lt_irrefl _)
      · exact hret l₁ h₁ he
  | entry tid cpu f =>
    obtain ⟨l, hl⟩ := live_of_fireEntry h
    obtain ⟨hfalse, _, hcase⟩ := fireEntry_cases h hl (hi.live_ok tid l hl).2.1
    rcases hcase with ⟨_, rfl⟩ | ⟨_, _, v, rfl⟩ | ⟨_, cluster, m, v, _, _, rfl, _, rfl⟩
    · exact ⟨⟨hseq, hrelive tid l l hl rfl fun hr => hr⟩, fun c hc _ => hc⟩
    · exact ⟨⟨hseq, hrelive tid l _ hl rfl fun hr => hr⟩, fun c hc _ => hc⟩
    · refine ⟨⟨hseq, hrelive tid l _ hl rfl fun hr => hr⟩, fun c hc he => ?_⟩
      rcases List.mem_cons.mp hc with rfl | hc
      · have htid : tid = id.tid := by
          rw [← (hi.live_ok tid l hl).1, ← he]
          rfl
        subst htid
        rw [hret l hl he] at hfalse
        cases hfalse
      · exact hc
  | ret tid f =>
    obtain ⟨l, hl⟩ := live_of_fireReturn h
    obtain ⟨_, hcase⟩ := fireReturn_cases h hl (hi.live_ok tid l hl).2.1
    have hseal := hrelive tid l { l with returned := true } hl rfl fun _ => rfl
    rcases hcase with ⟨_, rfl⟩ | ⟨_, _, rfl⟩ | ⟨cluster, d, _, _, rfl⟩
    · exact ⟨⟨hseq, hseal⟩, fun c hc _ => hc⟩
    · exact ⟨⟨hseq, hseal⟩, fun c hc _ => hc⟩
    · exact ⟨⟨hseq, hseal⟩, fun c hc _ => hc⟩
  | leave tid =>
    obtain rfl := leave_spec h
    exact ⟨⟨hseq, fun l₁ h₁ he => hret l₁ (live_ended h₁).2 he⟩, fun c hc _ => hc⟩
  | setCluster _ _ | delCluster _ | pop =>
    obtain ⟨m, q, rfl⟩ := agent_spec h trivial
    exact ⟨⟨hseq, hret⟩, fun c hc _ => hc⟩

theorem sealed_run {s t : ProbeState} {as : List Action} {id : CallId} (hi : s.Inv)
    (h : Trace.run step s as = some t) (hs : s.Sealed id) :
    ∀ c ∈ t.captures, c.call = id → c ∈ s.captures := by
  have hrel : s.Sealed id → t.Sealed id ∧ ∀ c ∈ t.captures, c.call = id → c ∈ s.captures := by
    refine Trace.run_rel (R := fun s t => s.Sealed id →
      t.Sealed id ∧ ∀ c ∈ t.captures, c.call = id → c ∈ s.captures) ?_ ?_ inv_step ?_ hi h
    · exact fun s hs => ⟨hs, fun c hc _ => hc⟩
    · intro s t u hst htu hs
      obtain ⟨ht, hc⟩ := hst hs
      obtain ⟨hu, hc'⟩ := htu ht
      exact ⟨hu, fun c hm he => hc c (hc' c hm he) he⟩
    · exact fun s a t hi h hs => sealed_step hi hs h
  exact (hrel hs).2

/-! ## The two directions -/

theorem allPaired_step {s t : ProbeState} {a : Action} (hi : s.Inv) (hp : s.AllPaired)
    (hm : s.ReturnMatches a) (h : step s a = some t) : t.AllPaired := by
  have hold : ∀ p ∈ s.pushes, p.Paired t.captures := by
    intro p hmem
    obtain ⟨c, hc, hrest⟩ := hp p hmem
    exact ⟨c, (history_mono hi h).1 c hc, hrest⟩
  cases a with
  | ret tid f =>
    obtain ⟨l, hl⟩ := live_of_fireReturn h
    obtain ⟨hnow, hcase⟩ := fireReturn_cases h hl (hi.live_ok tid l hl).2.1
    rcases hcase with ⟨_, rfl⟩ | ⟨_, _, rfl⟩ | ⟨cluster, d, hcl, hpend, rfl⟩
    · exact hold
    · exact hold
    · intro p hmem
      rcases List.mem_cons.mp hmem with rfl | hmem
      · obtain ⟨c, hlast, hc, _, rfl, _⟩ := hi.pending_source hpend
        obtain ⟨c₀, hc₀, he₀⟩ :=
          hm l hl (BoundedMap.mem_keys_of_lookup hcl) _ hpend.1 hpend.2
        obtain ⟨_, _, c₁, hlast₁, he⟩ := hi.own tid l hl c₀ hc₀ he₀
        obtain rfl : c = c₁ := Option.some.inj (hlast.symm.trans hlast₁)
        obtain ⟨hgtid, hregs, _⟩ := hi.own tid l hl c hc he
        obtain ⟨hf, hle⟩ := hi.cap_ok c hc
        have hle' : c.now ≤ f.now := UInt64.le_trans hle hnow
        refine ⟨c, hc, he, ?_, ?_, ⟨cluster, rfl⟩, hle', ?_⟩
        · show c.record.gtid = l.gtid
          rw [hf.gtid, hgtid]
        · show c.record.thdAddr = l.regs.parm1.toInt64
          rw [hf.thdAddr, hregs]
        · show (f.now - c.record.costTime).toNat = f.now.toNat - c.now.toNat
          rw [hf.costTime, UInt64.toNat_sub_of_le _ _ hle']
      · exact hold p hmem
  | enter gtid regs => obtain ⟨_, rfl⟩ := enter_spec h; exact hold
  | entry tid cpu f =>
    obtain ⟨l, hl⟩ := live_of_fireEntry h
    obtain ⟨_, _, hcase⟩ := fireEntry_cases h hl (hi.live_ok tid l hl).2.1
    rcases hcase with ⟨_, rfl⟩ | ⟨_, _, v, rfl⟩ | ⟨_, cluster, m, v, _, _, rfl, _, rfl⟩ <;>
      exact hold
  | leave tid => obtain rfl := leave_spec h; exact hold
  | setCluster _ _ | delCluster _ | pop => obtain ⟨m, q, rfl⟩ := agent_spec h trivial; exact hold

/-- A return handler that pushes a slot its own call did not store spoils the run for good. -/
theorem returnMatches_of_allPaired {s t u : ProbeState} {a : Action} {as : List Action}
    (hi : s.Inv) (h : step s a = some t) (hrun : Trace.run step t as = some u)
    (hu : u.AllPaired) : s.ReturnMatches a := by
  cases a with
  | ret tid f =>
    intro l hl hreg d hd hd'
    obtain ⟨htid, _, hseq⟩ := hi.live_ok tid l hl
    obtain ⟨_, hcase⟩ := fireReturn_cases h hl (hi.live_ok tid l hl).2.1
    rcases hcase with ⟨hn, _⟩ | ⟨_, hn, _⟩ | ⟨cluster, d', _, _, ht⟩
    · exact absurd hreg hn
    · exact absurd ⟨hd, hd'⟩ (hn d)
    · have hmono : ∀ p ∈ t.pushes, p ∈ u.pushes :=
        Trace.run_rel (R := fun s t => ∀ p ∈ s.pushes, p ∈ t.pushes) (fun _ _ hp => hp)
          (fun _ _ _ h1 h2 p hp => h2 p (h1 p hp)) inv_step
          (fun _ _ _ hi h => (history_mono hi h).2) (inv_step s _ t hi h) hrun
      obtain ⟨c, hc, he, _⟩ := hu _ (hmono _ (by rw [ht]; exact List.mem_cons_self))
      have hsealed : t.Sealed l.call := by
        rw [ht]
        refine ⟨htid.symm ▸ hseq, fun l₁ h₁ _ => ?_⟩
        simp only [withPush, htid, Function.update_self, Option.some.injEq] at h₁
        exact h₁ ▸ rfl
      have hct := sealed_run (inv_step s _ t hi h) hrun hsealed c hc he
      rw [ht] at hct
      exact ⟨c, hct, he⟩
  | _ => trivial

theorem meets_of_allPaired : ∀ {s u : ProbeState} {as : List Action}, s.Inv →
    Trace.run step s as = some u → u.AllPaired → Trace.Meets step ReturnMatches s as
  | _, _, [], _, _, _ => trivial
  | s, u, a :: as, hi, h, hu => by
    obtain ⟨t, ht, hrun⟩ := Trace.run_cons_eq_some.mp h
    refine ⟨returnMatches_of_allPaired hi ht hrun hu, fun t' ht' => ?_⟩
    obtain rfl : t = t' := Option.some.inj (ht.symm.trans ht')
    exact meets_of_allPaired (inv_step s a t hi ht) hrun hu

/-- **Pairing.** In every run, every pushed record is the capture of the call that is returning
if and only if every return handler that finds a pending slot finds the one of its own call. -/
theorem paired_iff (as : List Action) (s : ProbeState) (h : Trace.run step init as = some s) :
    s.AllPaired ↔ Trace.Meets step ReturnMatches init as := by
  constructor
  · exact meets_of_allPaired inv_init h
  · intro hm
    refine (Trace.run_invariant_of_meets (I := fun s => s.Inv ∧ s.AllPaired) ?_
      ⟨inv_init, ?_⟩ hm h).2
    · exact fun s a t hs hG ht => ⟨inv_step s a t hs.1 ht, allPaired_step hs.1 hs.2 hG ht⟩
    · intro p hp
      cases hp

/-! ## The stale slot -/

/-- No readable byte and no user address. -/
def noMemory : Memory := ⟨fun _ => none, fun _ => false⟩

/-- A firing at a time, in a process none of whose memory can be read. -/
def firingAt (now : UInt64) : Firing :=
  ⟨now, Vector.replicate _ 0, noMemory, 0, fun _ _ => rfl, 0, fun _ _ => rfl⟩

def zeroCluster : Cluster := ⟨Vector.replicate _ 0, Vector.replicate _ 0⟩

/-- Thread 7 of process 1. -/
def gtid17 : UInt64 := 0x100000007

/-- One `COM_QUERY` call of a registered process, from entry to return. -/
def queryRun : List Action :=
  [.setCluster 1 zeroCluster, .enter gtid17 ⟨0, 0, COM_QUERY⟩, .entry 7 0 (firingAt 1),
   .ret 7 (firingAt 2), .leave 7]

theorem paired_queryRun : ∃ s, Trace.run step init queryRun = some s ∧ s.AllPaired := by
  obtain ⟨s, hs⟩ := Option.isSome_iff_exists.mp
    (by decide : (Trace.run step init queryRun).isSome = true)
  exact ⟨s, hs, (paired_iff queryRun s hs).mpr (by decide)⟩

/-- The process is removed from `clusters` while a `COM_QUERY` call runs and registered again
before the thread makes a call with another command. -/
def staleRun : List Action :=
  [.setCluster 1 zeroCluster, .enter gtid17 ⟨0, 0, COM_QUERY⟩, .entry 7 0 (firingAt 1),
   .delCluster 1, .ret 7 (firingAt 2), .leave 7, .setCluster 1 zeroCluster,
   .enter gtid17 ⟨0, 0, 4⟩, .entry 7 0 (firingAt 3), .ret 7 (firingAt 4)]

/-- **The second call pushes the record of the first.** -/
theorem stale_slot_pushed :
    ¬ ∀ (as : List Action) (s : ProbeState), Trace.run step init as = some s → s.AllPaired := by
  intro hall
  have hrun : (Trace.run step init staleRun).map
      (fun s => (s.pushes.map Push.call, s.captures.map Capture.call)) =
        some ([⟨7, 1⟩], [⟨7, 0⟩]) := by decide
  obtain ⟨s, hs, hobs⟩ := Option.map_eq_some_iff.mp hrun
  obtain ⟨hpush, hcap⟩ := Prod.mk.inj hobs
  have hp : (⟨7, 1⟩ : CallId) ∈ s.pushes.map Push.call := by rw [hpush]; simp
  obtain ⟨p, hp, hpc⟩ := List.mem_map.mp hp
  obtain ⟨c, hc, he, _⟩ := hall staleRun s hs p hp
  have hc' : c.call ∈ s.captures.map Capture.call := List.mem_map_of_mem hc
  rw [hcap, he, hpc] at hc'
  simp at hc'

end ProbeState

end EDGuard
