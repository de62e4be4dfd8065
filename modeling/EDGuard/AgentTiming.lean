import EDGuard.AgentDelivery
import EDGuard.AgentThreads
import EDGuard.Lib.Intervals

/-!
# The times of the lines

A record is pushed with the time from the entry firing that stored it to the return firing that
pushes it.  `thread_db_ctx_hash` has one slot for a thread, so these times do not overlap.

* `Timed` — **the invariant of the handlers**: for each thread id the times of its pushes do not
  overlap, and a pending slot was stored after all of them.
* `printed_ordered` — of two lines about one thread, the second was captured after the return that
  completed the first.
* `printed_spent` — so what a thread's lines report as cost is together no more than the time that
  has passed.
-/

set_option autoImplicit false

namespace EDGuard

/-- When the record of a push was stored. -/
def Push.began (p : Push) : Nat :=
  match p.source with
  | none => 0
  | some c => c.now.toNat

/-- When it was pushed. -/
def Push.ended (p : Push) : Nat := p.firing.now.toNat

namespace ProbeState

/-- The pushes of a thread id, newest first. -/
def pushesOf (s : ProbeState) (tid : UInt32) : List Push :=
  s.pushes.filter fun p => p.call.tid = tid

/-- The pushes of a thread id do not overlap, up to a time. -/
def ApartUpTo (s : ProbeState) (tid : UInt32) (now : UInt64) : Prop :=
  Intervals.Apart Push.began Push.ended now.toNat (s.pushesOf tid)

/-- **The times of the pushes.** -/
structure Timed (s : ProbeState) : Prop where
  apart : ∀ tid, s.ApartUpTo tid s.clock
  pending : ∀ tid d, s.kernel.Pending tid d → s.ApartUpTo tid d.costTime

variable {s t : ProbeState}

theorem timed_init : init.Timed where
  apart := fun _ => .nil
  pending := fun _ _ _ => .nil

/-- A step that neither stores nor pushes. -/
theorem Timed.frame (hs : s.Timed) (hpushes : t.pushes = s.pushes) (hclock : s.clock ≤ t.clock)
    (hslots : t.kernel.threadDbCtxHash = s.kernel.threadDbCtxHash) : t.Timed where
  apart := fun tid => by
    unfold ApartUpTo pushesOf
    rw [hpushes]
    exact (hs.apart tid).mono hclock
  pending := fun tid d hd => by
    unfold Kernel.Pending at hd
    rw [hslots] at hd
    unfold ApartUpTo pushesOf
    rw [hpushes]
    exact hs.pending tid d hd

/-- **An entry firing that stores** begins after everything that was pushed. -/
theorem Timed.store {tid : UInt32} {l : Live} {c : Capture} {m : BoundedMap UInt32 DbCtx 1024}
    {v : Nat → DbCtx} (hs : s.Timed) (hnow : s.clock ≤ c.now) (hcost : c.record.costTime = c.now)
    (hup : s.kernel.threadDbCtxHash.update tid c.record = some m) :
    (s.withCapture tid l c m v).Timed where
  apart := fun tid' => (hs.apart tid').mono hnow
  pending := by
    intro tid' d hd
    have hlookup := hd.1
    rw [lookup_withCapture hup] at hlookup
    split at hlookup
    · obtain rfl := Option.some.inj hlookup
      rw [hcost]
      exact (hs.apart tid').mono hnow
    · exact hs.pending tid' d ⟨hlookup, hd.2⟩

/-- **A return firing that pushes** ends what its slot has begun. -/
theorem Timed.push {tid : UInt32} {l : Live} {f : Firing} {cluster : Cluster} {d : DbCtx}
    (hs : s.Timed) (hi : s.Inv) (hl : s.live tid = some l) (hnow : s.clock ≤ f.now)
    (hp : s.kernel.Pending tid d) : (s.withPush tid l f cluster d).Timed := by
  obtain ⟨htid, _, _⟩ := hi.live_ok tid l hl
  obtain ⟨c, hlast, hmem, _, hrec, _⟩ := hi.pending_source hp
  obtain ⟨hf, hle⟩ := hi.cap_ok c hmem
  have hcost : d.costTime = c.now := by rw [hrec, hf.costTime]
  have hother : ∀ tid', tid' ≠ tid →
      (s.withPush tid l f cluster d).pushesOf tid' = s.pushesOf tid' := fun tid' hne =>
    List.filter_cons_of_neg (by simp [htid, Ne.symm hne])
  refine ⟨fun tid' => ?_, fun tid' d' hd' => ?_⟩
  · rcases eq_or_ne tid' tid with rfl | hne
    · have hself : (s.withPush tid' l f cluster d).pushesOf tid' =
          ⟨l.call, l.gtid, l.regs, f, some cluster, some c, completeDbCtx cluster f d⟩ ::
            s.pushesOf tid' := by
        rw [← hlast]
        exact List.filter_cons_of_pos (by simp [htid])
      have hbefore : s.ApartUpTo tid' c.now := hcost ▸ hs.pending tid' d hp
      unfold ApartUpTo
      rw [hself]
      refine .cons ?_ (UInt64.le_trans hle hnow) (Nat.le_refl _)
      exact hbefore
    · unfold ApartUpTo
      rw [hother tid' hne]
      exact (hs.apart tid').mono hnow
  · have hlookup := hd'.1
    rw [lookup_withPush hp] at hlookup
    split at hlookup
    · -- the slot is no longer pending
      obtain rfl := Option.some.inj hlookup
      exact absurd hd'.2 (by simp [completeDbCtx, UNHANDLED])
    · rename_i hne
      unfold ApartUpTo
      rw [hother tid' hne]
      exact hs.pending tid' d' ⟨hlookup, hd'.2⟩

theorem timed_step (s : ProbeState) (a : Action) (t : ProbeState) (hs : s.Inv ∧ s.Timed)
    (h : step s a = some t) : t.Inv ∧ t.Timed := by
  obtain ⟨hi, ht⟩ := hs
  refine ⟨inv_step s a t hi h, ?_⟩
  cases a with
  | enter gtid regs =>
    obtain ⟨_, rfl⟩ := enter_spec h
    exact ht.frame rfl (UInt64.le_refl _) rfl
  | entry tid cpu f =>
    obtain ⟨l, hl⟩ := live_of_fireEntry h
    obtain ⟨_, hnow, ⟨_, rfl⟩ | ⟨_, _, v, rfl⟩ | ⟨_, cluster, m, v, _, _, rfl, hup, rfl⟩⟩ :=
      fireEntry_cases h hl (hi.live_ok tid l hl).2.1
    · exact ht.frame rfl hnow rfl
    · exact ht.frame rfl hnow rfl
    · exact ht.store hnow rfl hup
  | ret tid f =>
    obtain ⟨l, hl⟩ := live_of_fireReturn h
    obtain ⟨hnow, ⟨_, rfl⟩ | ⟨_, _, rfl⟩ | ⟨cluster, d, _, hp, rfl⟩⟩ :=
      fireReturn_cases h hl (hi.live_ok tid l hl).2.1
    · exact ht.frame rfl hnow rfl
    · exact ht.frame rfl hnow rfl
    · exact ht.push hi hl hnow hp
  | leave tid =>
    obtain rfl := leave_spec h
    exact ht.frame rfl (UInt64.le_refl _) rfl
  | setCluster _ _ | delCluster _ | pop =>
    obtain ⟨_, _, rfl⟩ := agent_spec h trivial
    exact ht.frame rfl (UInt64.le_refl _) rfl

/-- Of two pushes of one thread, the later one was stored after the earlier one. -/
theorem Timed.pairwise (hs : s.Timed) : s.pushes.Pairwise fun p q =>
    q.call.tid = p.call.tid → ∀ c, p.source = some c → q.firing.now ≤ c.now := by
  refine List.pairwise_iff_forall_sublist.mpr fun {p q} hsub htid c hc => ?_
  have hof : [p, q].Sublist (s.pushesOf p.call.tid) := by
    have hfilter := hsub.filter fun r => r.call.tid = p.call.tid
    simpa [pushesOf, htid] using hfilter
  have hbefore := List.pairwise_iff_forall_sublist.mp (hs.apart p.call.tid).pairwise hof
  have hbegan : p.began = c.now.toNat := by
    unfold Push.began
    rw [hc]
  rw [hbegan] at hbefore
  exact hbefore

/-- The cost of a pushed record is the time from its capture to its push. -/
theorem Inv.costTime {p : Push} (hi : s.Inv) (hp : p ∈ s.pushes) :
    p.record.costTime.toNat = p.ended - p.began := by
  obtain ⟨c, hc, hsource, _, hle, cluster, _, hrecord⟩ := hi.push_ok p hp
  have hnow := (hi.cap_ok c hc).1.costTime
  unfold Push.ended Push.began
  rw [hsource, hrecord]
  show (p.firing.now - c.record.costTime).toNat = p.firing.now.toNat - c.now.toNat
  rw [hnow, UInt64.toNat_sub_of_le _ _ hle]

/-- A pushed record is about the thread that pushed it. -/
theorem Inv.record_tid {p : Push} (hi : s.Inv) (hown : s.CapturesOwn) (hp : p ∈ s.pushes) :
    tidOf p.record.gtid = p.call.tid := by
  obtain ⟨c, hc, ⟨_, htid, _⟩, hgtid⟩ := hi.record_gtid hp
  rw [hgtid, ← htid, hown c hc]

end ProbeState

namespace Agent

section

variable {ι : Type} {n : Nat} [DecidableEq ι]

theorem timed_run {programs : List Program} {as : List (Action ι n)} {s : Agent ι n}
    (h : Trace.run step (init programs) as = some s) : s.handlers.Inv ∧ s.handlers.Timed := by
  refine Trace.run_invariant (I := fun u => u.handlers.Inv ∧ u.handlers.Timed) ?_
    ⟨ProbeState.inv_init, ProbeState.timed_init⟩ h
  intro u a v hu hv
  exact projects_handlers.invariant ProbeState.timed_step trivial hu hv

/-- **A thread's lines are in order.** In every run in which the pump finds a record for every event
it acts on, whatever is lost otherwise: the lines are records that were pushed, and of two lines
about one thread the second was captured no earlier than the return that completed the first. -/
theorem printed_ordered (programs : List Program) (as : List (Action ι n)) (s : Agent ι n)
    (h : Trace.run step (init programs) as = some s)
    (hg : Trace.Meets step FindsRecord (init programs) as) :
    ∃ ps : List Push, (∀ p ∈ ps, p ∈ s.probe.pushes) ∧ s.pipe.printed = ps.map Push.record ∧
      ps.Pairwise fun p q => tidOf p.record.gtid = tidOf q.record.gtid →
        ∃ c ∈ s.probe.captures, q.FromSource c ∧ p.firing.now ≤ c.now := by
  obtain ⟨ps, hps, hprinted⟩ := (accounted_run h hg).printed
  obtain ⟨hi, ht⟩ := timed_run h
  have hown := (slotted_run h).handlers.2
  have hmem : ∀ p ∈ ps, p ∈ s.probe.pushes := fun p hp => List.mem_reverse.mp (hps.subset hp)
  have hpairwise := (List.pairwise_reverse.mpr ht.pairwise).sublist hps
  refine ⟨ps, hmem, hprinted, hpairwise.imp_of_mem fun {p q} hp hq hpq htid => ?_⟩
  obtain ⟨c, hc, hsource⟩ := hi.push_ok q (hmem q hq)
  have hsame : p.call.tid = q.call.tid := by
    rwa [hi.record_tid hown (hmem p hp), hi.record_tid hown (hmem q hq)] at htid
  exact ⟨c, hc, hsource, hpq hsame c hsource.1⟩

/-- What the lines of a thread id report as cost, together. -/
def spentOn (s : Agent ι n) (tid : UInt32) : Nat :=
  ((s.pipe.printed.filter fun x => tidOf x.gtid = tid).map fun x => x.costTime.toNat).sum

theorem spentOn_le {programs : List Program} {as : List (Action ι n)} {s : Agent ι n}
    (h : Trace.run step (init programs) as = some s)
    (hg : Trace.Meets step FindsRecord (init programs) as) (tid : UInt32) :
    s.spentOn tid ≤ s.probe.clock.toNat := by
  obtain ⟨hi, ht⟩ := timed_run h
  have hslotted := slotted_run h
  obtain ⟨ps, hps, hprinted⟩ := (accounted_run h hg).printed
  have hmem : ∀ p ∈ ps, p ∈ s.handlers.pushes := fun p hp => List.mem_reverse.mp (hps.subset hp)
  let len (p : Push) : Nat := p.ended - p.began
  have hfilter : (ps.filter fun p => tidOf p.record.gtid = tid) =
      ps.filter fun p => p.call.tid = tid := by
    refine List.filter_congr fun p hp => ?_
    rw [hi.record_tid hslotted.handlers.2 (hmem p hp)]
  calc s.spentOn tid
      = ((ps.filter fun p => p.call.tid = tid).map fun p => p.record.costTime.toNat).sum := by
        rw [spentOn, hprinted, List.filter_map, List.map_map, ← hfilter]
        rfl
    _ = ((ps.filter fun p => p.call.tid = tid).map len).sum := by
        refine congrArg List.sum (List.map_congr_left fun p hp => ?_)
        exact hi.costTime (hmem p (List.mem_of_mem_filter hp))
    _ ≤ ((s.handlers.pushesOf tid).reverse.map len).sum := by
        refine List.Sublist.sum_le_sum (List.Sublist.map len ?_) fun _ _ => Nat.zero_le _
        have hsub := hps.filter fun p => p.call.tid = tid
        rwa [List.filter_reverse] at hsub
    _ = ((s.handlers.pushesOf tid).map len).sum := by
        rw [List.map_reverse, List.sum_reverse]
    _ ≤ s.probe.clock.toNat := (ht.apart tid).sum_le

/-- **A thread's lines fit into its time.** In every run in which the pump finds a record for every
event it acts on, whatever is lost otherwise: what the lines of one thread id report as cost is
together no more than the time at the last firing, and so all lines report at most 1024 times
that. -/
theorem printed_spent (programs : List Program) (as : List (Action ι n)) (s : Agent ι n)
    (h : Trace.run step (init programs) as = some s)
    (hg : Trace.Meets step FindsRecord (init programs) as) :
    (∀ tid, s.spentOn tid ≤ s.probe.clock.toNat) ∧
    (s.pipe.printed.map fun x => x.costTime.toNat).sum ≤ 1024 * s.probe.clock.toNat := by
  have hlane := spentOn_le h hg
  have hslotted := slotted_run h
  refine ⟨hlane, ?_⟩
  calc (s.pipe.printed.map fun x => x.costTime.toNat).sum
      ≤ s.slots.card * s.probe.clock.toNat :=
        Intervals.sum_le_of_lanes (fun _ hx => hslotted.slot_of_printed hx) hlane
    _ ≤ 1024 * s.probe.clock.toNat :=
        Nat.mul_le_mul_right _ s.kernel.threadDbCtxHash.card_le

end

/-! ## Two queries -/

/-- The thread makes a query, which takes some time. -/
def longQuery (cpu : Fin 2) (began ended : UInt64) : List (Action Unit 2) :=
  [.enter gtid10 ⟨0, 0, COM_QUERY⟩, .entry 7 cpu (ProbeState.firingAt began),
    .ret 7 cpu (ProbeState.firingAt ended), .leave 7]

/-- Two queries of one thread on two CPUs, and their lines. -/
def longQueries : List (Action Unit 2) :=
  attached ++ longQuery cpu1 3 7 ++ longQuery cpu0 8 12 ++ pumped cpu1 ++ pumped cpu0

theorem longQueries_printed : (Trace.run step (init [percona5734]) longQueries).map
    (fun s => (s.pipe.printed.map DbCtx.costTime, s.probe.clock)) = some ([4, 4], 12) := by
  decide +kernel

theorem printed_ordered_longQueries : ∃ s : Agent Unit 2,
    Trace.run step (init [percona5734]) longQueries = some s ∧
    s.pipe.printed.map DbCtx.costTime = [4, 4] ∧
    ∃ ps : List Push, (∀ p ∈ ps, p ∈ s.probe.pushes) ∧ s.pipe.printed = ps.map Push.record ∧
      ps.Pairwise fun p q => tidOf p.record.gtid = tidOf q.record.gtid →
        ∃ c ∈ s.probe.captures, q.FromSource c ∧ p.firing.now ≤ c.now := by
  obtain ⟨s, hs, hobs⟩ := Option.map_eq_some_iff.mp longQueries_printed
  exact ⟨s, hs, congrArg Prod.fst hobs, printed_ordered _ longQueries s hs (by decide +kernel)⟩

theorem printed_spent_longQueries : ∃ s : Agent Unit 2,
    Trace.run step (init [percona5734]) longQueries = some s ∧
    s.pipe.printed.map DbCtx.costTime = [4, 4] ∧ s.probe.clock = 12 ∧
    (∀ tid, s.spentOn tid ≤ s.probe.clock.toNat) ∧
    (s.pipe.printed.map fun x => x.costTime.toNat).sum ≤ 1024 * s.probe.clock.toNat := by
  obtain ⟨s, hs, hobs⟩ := Option.map_eq_some_iff.mp longQueries_printed
  exact ⟨s, hs, congrArg Prod.fst hobs, congrArg Prod.snd hobs,
    printed_spent _ longQueries s hs (by decide +kernel)⟩

end Agent

end EDGuard
