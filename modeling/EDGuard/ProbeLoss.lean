import EDGuard.ProbePairing
import Mathlib.Data.Set.Card
import Mathlib.Data.Finset.Image

/-!
# Queries lost by a full slot table

`thread_db_ctx_hash` has 1024 entries and neither handler ever deletes one: a thread id keeps its
slot for good.

* `no_query_lost` — when every entry firing that gets past its guards finds its slot present or
  a free entry, each call served by the pair has exactly one record.
* `query_lost` — 1025 threads of one process, one call after another: the last call has none.
-/

set_option autoImplicit false

namespace EDGuard

namespace ProbeState

/-- An entry firing that gets past its guards finds its slot present or a free entry. -/
def SlotFits (s : ProbeState) : Action → Prop
  | .entry tid _ _ => ∀ l ∈ s.live tid, s.kernel.Traced l.gtid l.regs →
      s.kernel.threadDbCtxHash.Accepts tid
  | _ => True

instance (s : ProbeState) : ∀ a, Decidable (s.SlotFits a)
  | .entry tid _ _ => inferInstanceAs (Decidable (∀ l ∈ s.live tid, _ → _))
  | .enter .. | .ret .. | .leave .. | .setCluster .. | .delCluster .. | .pop => isTrue trivial

/-- Every call whose entry handler got past its guards owns the slot of its thread id, and every
served call has one record. -/
structure Kept (s : ProbeState) : Prop where
  hit : ∀ tid l, s.live tid = some l → l.hit = true →
    ∃ c, s.lastCapture tid = some c ∧ c.call = l.call
  served : ∀ id ∈ s.served, s.recordsOf id = 1

theorem Kept.relive {s t : ProbeState} (hk : s.Kept) {tid : UInt32} {l' : Live}
    (hlive : t.live = Function.update s.live tid (some l'))
    (hhit : l'.hit = true → ∃ c, t.lastCapture tid = some c ∧ c.call = l'.call)
    (hlast : ∀ tid', tid' ≠ tid → t.lastCapture tid' = s.lastCapture tid') :
    ∀ tid' l, t.live tid' = some l → l.hit = true →
      ∃ c, t.lastCapture tid' = some c ∧ c.call = l.call := by
  intro tid' l₁ h₁ hh
  rw [hlive] at h₁
  rcases live_update h₁ with ⟨rfl, rfl⟩ | ⟨ht, h₁⟩
  · exact hhit hh
  · rw [hlast tid' ht]
    exact hk.hit tid' l₁ h₁ hh

theorem kept_entry {s t : ProbeState} {tid : UInt32} {cpu : Nat} {f : Firing} (hi : s.Inv)
    (hk : s.Kept) (hfit : s.SlotFits (.entry tid cpu f)) (h : s.fireEntry tid cpu f = some t) :
    t.Kept := by
  obtain ⟨l, hl⟩ := live_of_fireEntry h
  obtain ⟨htid, hg, _⟩ := hi.live_ok tid l hl
  obtain ⟨_, _, hcase⟩ := fireEntry_cases h hl hg
  rcases hcase with ⟨_, rfl⟩ | ⟨hT, hA, v, rfl⟩ | ⟨_, cluster, m, v, _, _, rfl, _, rfl⟩
  · exact ⟨hk.relive rfl (hk.hit tid l hl) fun _ _ => rfl, hk.served⟩
  · exact absurd (hfit l hl hT) hA
  · refine ⟨hk.relive rfl (fun _ => ⟨_, (lastCapture_withCapture htid tid).trans (if_pos rfl), rfl⟩)
      (fun tid' hne => ?_), hk.served⟩
    exact (lastCapture_withCapture htid tid').trans (if_neg (Ne.symm hne))

theorem kept_ret {s t : ProbeState} {tid : UInt32} {f : Firing} (hi : s.Inv) (hk : s.Kept)
    (h : s.fireReturn tid f = some t) : t.Kept := by
  obtain ⟨l, hl⟩ := live_of_fireReturn h
  obtain ⟨_, hcase⟩ := fireReturn_cases h hl (hi.live_ok tid l hl).2.1
  have hhit := hk.hit tid l hl
  rcases hcase with ⟨_, rfl⟩ | ⟨_, hnp, rfl⟩ | ⟨cluster, d, _, hp, rfl⟩
  · exact ⟨hk.relive rfl hhit fun _ _ => rfl, hk.served⟩
  · refine ⟨hk.relive rfl hhit fun _ _ => rfl, fun id hid => ?_⟩
    by_cases hh : l.hit = true
    · simp only [hh, ↓reduceIte] at hid
      rcases List.mem_cons.mp hid with rfl | hid
      · -- the slot is there and not pending: it was pushed by an earlier firing for this call
        obtain ⟨c, hlast, hcall⟩ := hhit hh
        rcases hi.slots tid with ⟨_, hnone⟩ | ⟨d, c', hd, hc', hcase'⟩
        · rw [hlast] at hnone
          cases hnone
        · obtain rfl : c = c' := Option.some.inj (hlast.symm.trans hc')
          rcases hcase' with ⟨hun, _, _⟩ | ⟨_, h1⟩
          · exact absurd ⟨hd, hun⟩ (hnp d)
          · exact hcall ▸ h1
      · exact hk.served id hid
    · simp only [hh, Bool.false_eq_true, ↓reduceIte] at hid
      exact hk.served id hid
  · obtain ⟨c, hlast, _, _, _, h0⟩ := hi.pending_source hp
    refine ⟨hk.relive rfl hhit fun _ _ => rfl, fun id hid => ?_⟩
    rw [recordsOf_withPush hlast]
    have hold : ∀ id ∈ s.served, s.recordsOf id + (if c.call = id then 1 else 0) = 1 := by
      intro id hid
      have h1 := hk.served id hid
      have hne : c.call ≠ id := fun he => by
        rw [he] at h0
        omega
      rw [if_neg hne, h1]
    by_cases hh : l.hit = true
    · simp only [withPush, hh, ↓reduceIte] at hid
      rcases List.mem_cons.mp hid with rfl | hid
      · obtain ⟨c', hlast', hcall⟩ := hhit hh
        obtain rfl : c = c' := Option.some.inj (hlast.symm.trans hlast')
        rw [if_pos hcall, ← hcall, h0]
      · exact hold id hid
    · simp only [withPush, hh, Bool.false_eq_true, ↓reduceIte] at hid
      exact hold id hid

theorem kept_step {s t : ProbeState} {a : Action} (hi : s.Inv) (hk : s.Kept)
    (hfit : s.SlotFits a) (h : step s a = some t) : t.Kept := by
  cases a with
  | enter gtid regs =>
    obtain ⟨_, rfl⟩ := enter_spec h
    refine ⟨hk.relive rfl (fun hh => ?_) fun _ _ => rfl, hk.served⟩
    cases hh
  | entry tid cpu f => exact kept_entry hi hk hfit h
  | ret tid f => exact kept_ret hi hk h
  | leave tid =>
    obtain rfl := leave_spec h
    exact ⟨fun tid' l hl => hk.hit tid' l (live_ended hl).2, hk.served⟩
  | setCluster _ _ | delCluster _ | pop =>
    obtain ⟨m, q, rfl⟩ := agent_spec h trivial
    exact ⟨hk.hit, hk.served⟩

/-- The records of a call hold what its entry firing captured. -/
theorem Inv.record_of_recordsOf {s : ProbeState} (hi : s.Inv) {id : CallId}
    (h : s.recordsOf id = 1) :
    ∃ p ∈ s.pushes, ∃ c ∈ s.captures, c.call = id ∧ p.FromSource c := by
  have hpos : 0 < s.recordsOf id := by omega
  obtain ⟨p, hp, hsrc⟩ := List.countP_pos_iff.mp hpos
  obtain ⟨c, hc, hfrom⟩ := hi.push_ok p hp
  refine ⟨p, hp, c, hc, ?_, hfrom⟩
  rw [hfrom.1] at hsrc
  simpa using hsrc

/-- **No query is lost while the slots fit.** A call whose entry handler got past its guards and
whose return handler then found the process registered has exactly one record, and the record is
its capture completed at its return. -/
theorem no_query_lost (as : List Action) (s : ProbeState) (h : Trace.run step init as = some s)
    (hfit : Trace.Meets step SlotFits init as) :
    ∀ id ∈ s.served, s.recordsOf id = 1 ∧
      ∃ p ∈ s.pushes, ∃ c ∈ s.captures, c.call = id ∧ p.FromSource c := by
  have hinv : s.Inv ∧ s.Kept := by
    refine Trace.run_invariant_of_meets (I := fun s => s.Inv ∧ s.Kept) ?_
      ⟨inv_init, ?_⟩ hfit h
    · exact fun s a t hs hG ht => ⟨inv_step s a t hs.1 ht, kept_step hs.1 hs.2 hG ht⟩
    · constructor
      · intro _ _ hl
        cases hl
      · intro _ hid
        cases hid
  intro id hid
  have h1 := hinv.2.served id hid
  exact ⟨h1, hinv.1.record_of_recordsOf h1⟩

theorem no_query_lost_queryRun : ∃ s, Trace.run step init queryRun = some s ∧
    ⟨7, 0⟩ ∈ s.served ∧ s.recordsOf ⟨7, 0⟩ = 1 := by
  have hrun : (Trace.run step init queryRun).map served = some [⟨7, 0⟩] := by decide
  obtain ⟨s, hs, hserved⟩ := Option.map_eq_some_iff.mp hrun
  have hmem : ⟨7, 0⟩ ∈ s.served := by rw [hserved]; simp
  exact ⟨s, hs, hmem, (no_query_lost queryRun s hs (by decide) _ hmem).1⟩

/-! ## The full table -/

/-- The thread ids with a call in progress. -/
def inFlight (s : ProbeState) : Set UInt32 := {tid | s.live tid ≠ none}

/-- Thread `n` of process 1. -/
def gtidOf (n : Nat) : UInt64 := .ofNat (2 ^ 32 + n)

/-- One `COM_QUERY` call of thread `n`, from entry to return. -/
def oneCall (n : Nat) : List Action :=
  [.enter (gtidOf n) ⟨0, 0, COM_QUERY⟩, .entry (tidOf (gtidOf n)) 0 (firingAt 0),
   .ret (tidOf (gtidOf n)) (firingAt 0), .leave (tidOf (gtidOf n))]

/-- Threads `0` to `n - 1` of process 1 make one call each, one after another. -/
def crowd : Nat → List Action
  | 0 => [.setCluster 1 zeroCluster]
  | n + 1 => crowd n ++ oneCall n

theorem pidOf_gtidOf {n : Nat} (h : n < 2 ^ 32) : pidOf (gtidOf n) = 1 := by
  have hn : (gtidOf n).toNat = 2 ^ 32 + n := by
    rw [gtidOf, UInt64.toNat_ofNat']
    omega
  have hpid : (pidOf (gtidOf n)).toNat = (1 : UInt32).toNat := by
    simp only [pidOf, UInt64.toNat_toUInt32, UInt64.toNat_shiftRight, hn]
    simp
    omega
  exact UInt32.toNat_inj.mp hpid

theorem toNat_tidOf_gtidOf {n : Nat} (h : n < 2 ^ 32) : (tidOf (gtidOf n)).toNat = n := by
  rw [tidOf, UInt64.toNat_toUInt32, gtidOf, UInt64.toNat_ofNat']
  omega

theorem tidOf_gtidOf_inj {i j : Nat} (hi : i < 2 ^ 32) (hj : j < 2 ^ 32)
    (he : tidOf (gtidOf i) = tidOf (gtidOf j)) : i = j := by
  rw [← toNat_tidOf_gtidOf hi, ← toNat_tidOf_gtidOf hj, he]

theorem card_tids {n : Nat} (hn : n ≤ 2 ^ 32) :
    ((Finset.range n).image fun i => tidOf (gtidOf i)).card = n := by
  rw [Finset.card_image_of_injOn, Finset.card_range]
  intro i hi j hj he
  have hi' := Finset.mem_range.mp hi
  have hj' := Finset.mem_range.mp hj
  exact tidOf_gtidOf_inj (by omega) (by omega) he

theorem tid_fresh {n : Nat} (hn : n < 2 ^ 32) :
    tidOf (gtidOf n) ∉ (Finset.range n).image fun i => tidOf (gtidOf i) := by
  intro hmem
  obtain ⟨i, hi, he⟩ := Finset.mem_image.mp hmem
  have hlt := Finset.mem_range.mp hi
  have := tidOf_gtidOf_inj (by omega) hn he
  omega

/-- Between two calls of the crowd. -/
structure Quiet (s : ProbeState) : Prop where
  inv : s.Inv
  live : s.live = fun _ => none
  registered : 1 ∈ s.kernel.clusters.keys
  clock : s.clock = 0

/-- At most one call is in progress. -/
def Single (s : ProbeState) : Prop := ∃ tid, ∀ tid', tid' ≠ tid → s.live tid' = none

theorem Single.encard_le {s : ProbeState} (h : s.Single) : s.inFlight.encard ≤ 1024 := by
  obtain ⟨tid, hother⟩ := h
  have hsub : s.inFlight ⊆ {tid} := fun tid' hmem => by
    by_contra hne
    exact hmem (hother tid' hne)
  calc s.inFlight.encard ≤ ({tid} : Set UInt32).encard := Set.encard_le_encard hsub
    _ = 1 := Set.encard_singleton tid
    _ ≤ 1024 := by exact_mod_cast (by omega : 1 ≤ 1024)

/-- Inside a call on `tid` that started in the quiet state `s₀`. -/
structure During (s₀ s : ProbeState) (tid : UInt32) (l : Live) : Prop where
  inv : s.Inv
  live : s.live = Function.update s₀.live tid (some l)
  clock : s.clock = 0
  clusters : s.kernel.clusters = s₀.kernel.clusters

theorem During.live_tid {s₀ s : ProbeState} {tid : UInt32} {l : Live} (hd : During s₀ s tid l) :
    s.live tid = some l := by
  rw [hd.live, Function.update_self]

theorem During.update_live {s₀ s : ProbeState} {tid : UInt32} {l : Live}
    (hd : During s₀ s tid l) (l' : Live) :
    Function.update s.live tid (some l') = Function.update s₀.live tid (some l') := by
  rw [hd.live, Function.update_idem]

theorem During.single {s₀ s : ProbeState} {tid : UInt32} {l : Live} (hd : During s₀ s tid l)
    (hq : s₀.Quiet) : s.Single :=
  ⟨tid, fun tid' hne => by rw [hd.live, Function.update_of_ne hne, hq.live]⟩

theorem during_enter {s : ProbeState} (hq : s.Quiet) (n : Nat) :
    ∃ t l, s.enter (gtidOf n) ⟨0, 0, COM_QUERY⟩ = some t ∧ During s t (tidOf (gtidOf n)) l ∧
      l.gtid = gtidOf n ∧ l.regs.parm3 = COM_QUERY ∧ l.returned = false ∧
      t.kernel = s.kernel := by
  obtain ⟨t, ht⟩ := enter_enabled (by rw [hq.live]) ⟨0, 0, COM_QUERY⟩
  obtain ⟨_, hspec⟩ := enter_spec ht
  refine ⟨t, ⟨⟨tidOf (gtidOf n), s.started (tidOf (gtidOf n))⟩, gtidOf n, ⟨0, 0, COM_QUERY⟩,
    false, false⟩, ht, ⟨inv_enter hq.inv ht, ?_, ?_, ?_⟩, rfl, rfl, rfl, ?_⟩
  · rw [hspec]
  · rw [hspec]
    exact hq.clock
  · rw [hspec]
  · rw [hspec]

/-- The entry firing takes a slot, or finds the table full. -/
theorem During.entry {s₀ s : ProbeState} {tid : UInt32} {l : Live} (hd : During s₀ s tid l)
    (hT : s.kernel.Traced l.gtid l.regs) (hret : l.returned = false) :
    ∃ t, s.fireEntry tid 0 (firingAt 0) = some t ∧ During s₀ t tid { l with hit := true } ∧
      ((s.kernel.threadDbCtxHash.Accepts tid ∧
          t.kernel.threadDbCtxHash.keys = insert tid s.kernel.threadDbCtxHash.keys) ∨
        (¬ s.kernel.threadDbCtxHash.Accepts tid ∧
          t.kernel.threadDbCtxHash = s.kernel.threadDbCtxHash)) := by
  have hl := hd.live_tid
  have hnow : s.clock ≤ (firingAt 0).now := by rw [hd.clock]; exact UInt64.le_refl _
  obtain ⟨t, ht⟩ := fireEntry_enabled hl hret hnow 0
  have hi := inv_entry hd.inv ht
  obtain ⟨_, _, hcase⟩ := fireEntry_cases ht hl (hd.inv.live_ok tid l hl).2.1
  rcases hcase with ⟨hno, _⟩ | ⟨_, hA, v, rfl⟩ | ⟨_, _, m, v, _, _, rfl, hup, rfl⟩
  · exact absurd hT hno
  · exact ⟨_, ht, ⟨hi, hd.update_live _, rfl, hd.clusters⟩, Or.inr ⟨hA, rfl⟩⟩
  · exact ⟨_, ht, ⟨hi, hd.update_live _, rfl, hd.clusters⟩,
      Or.inl ⟨BoundedMap.accepts_of_update hup, BoundedMap.keys_update hup⟩⟩

/-- The return firing keeps the keys; without a slot the call is served without a record. -/
theorem During.ret {s₀ s : ProbeState} {tid : UInt32} {l : Live} (hd : During s₀ s tid l)
    (hreg : pidOf l.gtid ∈ s.kernel.clusters.keys) (hhit : l.hit = true) :
    ∃ t l', s.fireReturn tid (firingAt 0) = some t ∧ During s₀ t tid l' ∧
      t.kernel.threadDbCtxHash.keys = s.kernel.threadDbCtxHash.keys ∧
      (tid ∉ s.kernel.threadDbCtxHash.keys → l.call ∈ t.served ∧ t.recordsOf l.call = 0) := by
  have hl := hd.live_tid
  have hnow : s.clock ≤ (firingAt 0).now := by rw [hd.clock]; exact UInt64.le_refl _
  obtain ⟨t, ht⟩ := fireReturn_enabled hl hnow
  have hi := inv_ret hd.inv ht
  obtain ⟨_, hcase⟩ := fireReturn_cases ht hl (hd.inv.live_ok tid l hl).2.1
  rcases hcase with ⟨hno, _⟩ | ⟨_, _, rfl⟩ | ⟨cluster, d, _, hp, rfl⟩
  · exact absurd hreg hno
  · refine ⟨_, _, ht, ⟨hi, hd.update_live _, rfl, hd.clusters⟩, rfl, fun hslot => ⟨?_, ?_⟩⟩
    · simp [hhit]
    · -- no slot, hence no capture on this thread id
      apply hd.inv.recordsOf_eq_zero
      intro c hc he
      obtain ⟨_, _, c', hlast, _⟩ := hd.inv.own tid l hl c hc he
      rcases hd.inv.slots tid with ⟨_, hnone⟩ | ⟨d, _, hlook, _⟩
      · rw [hlast] at hnone
        cases hnone
      · exact hslot (BoundedMap.mem_keys_of_lookup hlook)
  · exact ⟨_, _, ht, ⟨hi, hd.update_live _, rfl, hd.clusters⟩, BoundedMap.keys_modify _ _ _,
      fun hslot => absurd (BoundedMap.mem_keys_of_lookup hp.1) hslot⟩

theorem During.leave {s₀ s : ProbeState} {tid : UInt32} {l : Live} (hd : During s₀ s tid l)
    (hq : s₀.Quiet) : ∃ t, s.leave tid = some t ∧ t.Quiet ∧ t.kernel = s.kernel ∧
      t.served = s.served ∧ t.pushes = s.pushes := by
  obtain ⟨t, ht⟩ := leave_enabled hd.live_tid
  have hi := inv_leave hd.inv ht
  obtain rfl := leave_spec ht
  refine ⟨_, ht, ⟨hi, ?_, ?_, hd.clock⟩, rfl, rfl, rfl⟩
  · show Function.update s.live tid none = _
    rw [hd.live, Function.update_idem, hq.live]
    exact Function.update_eq_self tid (fun _ => none)
  · show 1 ∈ s.kernel.clusters.keys
    rw [hd.clusters]
    exact hq.registered

/-- One call of the crowd takes a slot, or is served without a record when the table is full. -/
theorem oneCall_spec {s : ProbeState} (hq : s.Quiet) {n : Nat} (hn : n < 2 ^ 32)
    (hfresh : tidOf (gtidOf n) ∉ s.kernel.threadDbCtxHash.keys) :
    ∃ t, Trace.run step s (oneCall n) = some t ∧ t.Quiet ∧
      Trace.Meets step (fun s _ => s.Single) s (oneCall n) ∧
      (s.kernel.threadDbCtxHash.keys.card < 1024 →
        t.kernel.threadDbCtxHash.keys = insert (tidOf (gtidOf n)) s.kernel.threadDbCtxHash.keys) ∧
      (s.kernel.threadDbCtxHash.keys.card = 1024 → ∃ id ∈ t.served, t.recordsOf id = 0) := by
  obtain ⟨s₁, l, h₁, hd₁, hgtid, hcmd, hret, hk₁⟩ := during_enter hq n
  have hreg : pidOf l.gtid ∈ s.kernel.clusters.keys := by
    rw [hgtid, pidOf_gtidOf hn]
    exact hq.registered
  obtain ⟨s₂, h₂, hd₂, hslot⟩ := hd₁.entry ⟨by rw [hd₁.clusters]; exact hreg, hcmd⟩ hret
  rw [hk₁] at hslot
  obtain ⟨s₃, l₃, h₃, hd₃, hk₃, hlost⟩ := hd₂.ret (by rw [hd₂.clusters]; exact hreg) rfl
  obtain ⟨s₄, h₄, hq₄, hk₄, hserved, hpushes⟩ := hd₃.leave hq
  refine ⟨s₄, ?_, hq₄, ?_, ?_, ?_⟩
  · exact Trace.run_cons_eq_some.mpr ⟨s₁, h₁, Trace.run_cons_eq_some.mpr ⟨s₂, h₂,
      Trace.run_cons_eq_some.mpr ⟨s₃, h₃, (Trace.run_singleton _ _).trans h₄⟩⟩⟩
  · refine ⟨⟨0, fun tid' _ => by rw [hq.live]⟩, fun t₁ ht₁ => ?_⟩
    obtain rfl : s₁ = t₁ := Option.some.inj (h₁.symm.trans ht₁)
    refine ⟨hd₁.single hq, fun t₂ ht₂ => ?_⟩
    obtain rfl : s₂ = t₂ := Option.some.inj (h₂.symm.trans ht₂)
    refine ⟨hd₂.single hq, fun t₃ ht₃ => ?_⟩
    obtain rfl : s₃ = t₃ := Option.some.inj (h₃.symm.trans ht₃)
    exact ⟨hd₃.single hq, fun _ _ => trivial⟩
  · intro hroom
    rw [hk₄, hk₃]
    rcases hslot with ⟨_, hkeys⟩ | ⟨hA, _⟩
    · exact hkeys
    · exact absurd (Or.inr hroom) hA
  · intro hfull
    have hno : tidOf (gtidOf n) ∉ s₂.kernel.threadDbCtxHash.keys := by
      rcases hslot with ⟨hA, _⟩ | ⟨_, hsame⟩
      · rcases hA with hmem | hlt
        · exact absurd hmem hfresh
        · omega
      · rw [hsame]
        exact hfresh
    obtain ⟨hid, h0⟩ := hlost hno
    refine ⟨_, hserved ▸ hid, ?_⟩
    unfold recordsOf
    rw [hpushes]
    exact h0

theorem crowd_spec (n : Nat) (hn : n ≤ 1024) :
    ∃ s, Trace.run step init (crowd n) = some s ∧ s.Quiet ∧
      Trace.Meets step (fun s _ => s.Single) init (crowd n) ∧
      s.kernel.threadDbCtxHash.keys = (Finset.range n).image fun i => tidOf (gtidOf i) := by
  induction n with
  | zero =>
    obtain ⟨m, hm⟩ : ∃ m, init.kernel.clusters.update 1 zeroCluster = some m :=
      BoundedMap.exists_update (by decide) _
    refine ⟨_, (Trace.run_singleton _ _).trans (step_setCluster hm),
      ⟨inv_init.frame m _, rfl, ?_, rfl⟩,
      ⟨⟨0, fun _ _ => rfl⟩, fun _ _ => trivial⟩, BoundedMap.keys_empty⟩
    show 1 ∈ m.keys
    rw [BoundedMap.keys_update hm]
    simp
  | succ n ih =>
    obtain ⟨s, hs, hq, hone, hkeys⟩ := ih (by omega)
    have hfresh : tidOf (gtidOf n) ∉ s.kernel.threadDbCtxHash.keys := by
      rw [hkeys]
      exact tid_fresh (by omega)
    have hcard : s.kernel.threadDbCtxHash.keys.card < 1024 := by
      rw [hkeys, card_tids (by omega)]
      omega
    obtain ⟨t, ht, hqt, honet, hroom, _⟩ := oneCall_spec hq (by omega) hfresh
    refine ⟨t, ?_, hqt, ?_, ?_⟩
    · rw [crowd, Trace.run_append_of_eq hs, ht]
    · refine Trace.meets_append.mpr ⟨hone, fun s' hs' => ?_⟩
      obtain rfl : s = s' := Option.some.inj (hs.symm.trans hs')
      exact honet
    · rw [hroom hcard, hkeys, Finset.range_add_one, Finset.image_insert]

/-- A crowd of `n` fills `n` entries, and thread `n` has no slot in the table. -/
theorem crowd_fills {n : Nat} (hn : n ≤ 1024) : ∃ as s, Trace.run step init as = some s ∧
    s.Quiet ∧ Trace.Meets step (fun s _ => s.Single) init as ∧
    s.kernel.threadDbCtxHash.keys.card = n ∧
    tidOf (gtidOf n) ∉ s.kernel.threadDbCtxHash.keys := by
  obtain ⟨s, hs, hq, hone, hkeys⟩ := crowd_spec n hn
  refine ⟨crowd n, s, hs, hq, hone, ?_, ?_⟩
  · rw [hkeys, card_tids (by omega)]
  · rw [hkeys]
    exact tid_fresh (by omega)

/-- **The 1025th thread loses its query**, with never more than one call in flight. -/
theorem query_lost :
    ¬ ∀ (as : List Action) (s : ProbeState), Trace.run step init as = some s →
      Trace.Meets step (fun s _ => s.inFlight.encard ≤ 1024) init as →
      ∀ id ∈ s.served, s.recordsOf id = 1 := by
  intro hall
  obtain ⟨as, s, hs, hq, hone, hfull, hfresh⟩ := crowd_fills (Nat.le_refl 1024)
  obtain ⟨t, ht, _, honet, _, hlost⟩ := oneCall_spec hq (by omega) hfresh
  obtain ⟨id, hid, h0⟩ := hlost hfull
  have hsingle : Trace.Meets step (fun s _ => s.Single) init (as ++ oneCall 1024) := by
    refine Trace.meets_append.mpr ⟨hone, fun s' hs' => ?_⟩
    obtain rfl : s = s' := Option.some.inj (hs.symm.trans hs')
    exact honet
  have h1 := hall (as ++ oneCall 1024) t (by rw [Trace.run_append_of_eq hs, ht])
    (hsingle.mono fun s _ h => h.encard_le) id hid
  rw [h0] at h1
  cases h1

end ProbeState

end EDGuard
