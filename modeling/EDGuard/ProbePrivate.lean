import EDGuard.ProbePairing

/-!
# The records of one thread

* `Private` — a probe that one thread has for itself: no scratch element, no other slot.
* `refines_run` — the records that are pushed for a thread print what its private probe prints for
  the handler firings of that thread.
* `prints_alike` — so two runs in which a thread sees the same print the same for it, whatever the
  other threads do.  The thread must not find the slot that an earlier thread with its id left
  pending, and the strings that `bpf_probe_read_str` copies must lie in user memory.
-/

set_option autoImplicit false

namespace EDGuard

/-! ## What is read -/

/-- Two firings at the same time for the same process, with the same user memory. -/
structure Firing.Same (f f' : Firing) : Prop where
  now : f.now = f'.now
  comm : f.comm = f'.comm
  mem : f.mem.SameUser f'.mem

theorem Firing.Same.refl (f : Firing) : f.Same f := ⟨rfl, rfl, .refl f.mem⟩

theorem bpfProbeReadUser_same {m m' : Memory} (h : m.SameUser m') (n : Nat) (src : UInt64) :
    bpfProbeReadUser m n src = bpfProbeReadUser m' n src := by
  unfold bpfProbeReadUser
  by_cases hu : m.InUser src n
  · have hu' : m'.InUser src n := fun i hi => h.user ▸ hu i hi
    have hbyte : ∀ i < n, m.byte (src + .ofNat i) = m'.byte (src + .ofNat i) :=
      fun i hi => h.byte _ (hu i hi)
    have hread : m.Readable src n ↔ m'.Readable src n :=
      forall₂_congr fun i hi => by rw [hbyte i hi]
    have hbytes : m.bytes src n = m'.bytes src n := by
      unfold Memory.bytes
      congr 1
      funext i
      rw [hbyte i i.isLt]
    simp only [hu, hu', true_and, hread, hbytes]
  · have hu' : ¬ m'.InUser src n := fun hu' => hu fun i hi => h.user.symm ▸ hu' i hi
    rw [if_neg fun hand => hu hand.1, if_neg fun hand => hu' hand.1]

theorem readNat_same {m m' : Memory} (h : m.SameUser m') (n : Nat) (src : UInt64) :
    readNat m n src = readNat m' n src := by
  unfold readNat
  rw [bpfProbeReadUser_same h]

/-- `&query.length` is an address on the BPF stack. -/
theorem readNat_queryLen (f : Firing) : readNat f.mem 8 (f.queryAddr + 8) = 0 := by
  have hk : f.mem.InKernel (f.queryAddr + 8) 8 := by
    intro i hi
    have haddr : f.queryAddr + 8 + UInt64.ofNat i = f.queryAddr + UInt64.ofNat (8 + i) := by
      rw [UInt64.ofNat_add, UInt64.add_assoc]
      rfl
    rw [haddr]
    exact f.queryAddr_kernel (8 + i) (by omega)
  unfold readNat
  rw [bpfProbeReadUser_kernel hk]
  rfl

/-- A copied string ends where `strnlen` says, whatever was there before. -/
theorem cstr_bpfProbeReadStr {n : Nat} {m m' : Memory} {dst dst' : Vector UInt8 n} {src : UInt64}
    (hn : 0 < n) (hlen : m.strnlen src (n - 1) = m'.strnlen src (n - 1))
    (hbyte : ∀ len, m.strnlen src (n - 1) = some len →
      ∀ i < len, m.byte (src + .ofNat i) = m'.byte (src + .ofNat i)) :
    cstr (bpfProbeReadStr m dst src).toList = cstr (bpfProbeReadStr m' dst' src).toList := by
  unfold bpfProbeReadStr
  rw [← hlen]
  cases hs : m.strnlen src (n - 1) with
  | none => rfl
  | some len =>
    have hle := Memory.strnlen_le hs
    refine cstr_congr (k := len) ?_ fun i hi => ?_
    · have hlt : len < n := by omega
      simp [hlt]
    · have hlt : i < n := by omega
      rcases Nat.lt_or_eq_of_le hi with hi | rfl
      · simp [hlt, hi, hbyte len hs i hi]
      · simp [hlt]

/-! ## Records that print the same -/

/-- The record with what the entry handler leaves of another one: the fields of the return handler,
and the bytes behind the two copied strings. -/
def DbCtx.overlay (d r : DbCtx) : DbCtx :=
  { d with
    user := r.user
    privUser := r.privUser
    previousFoundRows := r.previousFoundRows
    currentFoundRows := r.currentFoundRows
    affectedRows := r.affectedRows
    sentRowCount := r.sentRowCount
    rowCountFunc := r.rowCountFunc
    sqlErrno := r.sqlErrno
    killed := r.killed }

/-- The entry handler has determined the same of both records. -/
structure DbCtx.Like (d d' : DbCtx) : Prop where
  rest : ∃ r, d' = d.overlay r
  user : cstr d.user.toList = cstr d'.user.toList
  privUser : cstr d.privUser.toList = cstr d'.privUser.toList

theorem DbCtx.Like.processed {d d' : DbCtx} (h : d.Like d') : d.processed = d'.processed := by
  obtain ⟨⟨r, rfl⟩, _, _⟩ := h
  rfl

/-- **Return firings that see the same** complete such records to ones that print the same. -/
theorem completeDbCtx_like {d d' : DbCtx} {f f' : Firing} (h : d.Like d') (hf : f.Same f')
    (cluster : Cluster) :
    (completeDbCtx cluster f d).Like (completeDbCtx cluster f' d') ∧
      (completeDbCtx cluster f d).Print = (completeDbCtx cluster f' d').Print := by
  obtain ⟨⟨r, rfl⟩, hu, hp⟩ := h
  have hsame : completeDbCtx cluster f' (d.overlay r) =
      (completeDbCtx cluster f d).overlay (completeDbCtx cluster f (d.overlay r)) := by
    unfold completeDbCtx DbCtx.overlay readU64 readU32
    simp only [readNat_same hf.mem, hf.now]
  refine ⟨⟨⟨_, hsame⟩, hu, hp⟩, ?_⟩
  have hu' : cstr d.user.toList = cstr r.user.toList := hu
  have hp' : cstr d.privUser.toList = cstr r.privUser.toList := hp
  rw [hsame]
  unfold DbCtx.Print completeDbCtx DbCtx.overlay
  simp only [hu', hp']

/-- The two strings that `bpf_probe_read_str` copies lie in user memory. -/
def Firing.StringsInUser (cluster : Cluster) (regs : PtRegs) (f : Firing) : Prop :=
  ∀ fo, fo = .mUser ∨ fo = .mPrivUser →
    f.mem.StrInUser (readU64 f.mem (regs.parm1 + cluster.offset fo)) (MAX_USER_LEN - 1)

/-- The entry handler leaves nothing of the scratch element that is printed. -/
theorem fillDbCtx_scratch (cluster : Cluster) (gtid : UInt64) (regs : PtRegs) (f : Firing)
    (d d' : DbCtx) :
    (fillDbCtx cluster gtid regs f d).Like (fillDbCtx cluster gtid regs f d') := by
  refine ⟨⟨fillDbCtx cluster gtid regs f d', ?_⟩, ?_, ?_⟩
  · simp only [fillDbCtx, DbCtx.overlay]
  · exact cstr_bpfProbeReadStr (by decide) rfl fun _ _ _ _ => rfl
  · exact cstr_bpfProbeReadStr (by decide) rfl fun _ _ _ _ => rfl

/-- **Entry firings that see the same** write records that print the same. -/
theorem fillDbCtx_same {f f' : Firing} (hf : f.Same f') {cluster : Cluster} {regs : PtRegs}
    (hs : f.StringsInUser cluster regs) (gtid : UInt64) (d : DbCtx) :
    (fillDbCtx cluster gtid regs f d).Like (fillDbCtx cluster gtid regs f' d) := by
  have hstr : ∀ fo, fo = FieldOffset.mUser ∨ fo = .mPrivUser → ∀ dst : Vector UInt8 MAX_USER_LEN,
      cstr (bpfProbeReadStr f.mem dst (readU64 f.mem (regs.parm1 + cluster.offset fo))).toList =
        cstr (bpfProbeReadStr f'.mem dst
          (readU64 f'.mem (regs.parm1 + cluster.offset fo))).toList := by
    intro fo hfo dst
    obtain ⟨hlen, hbyte⟩ := hf.mem.strnlen (hs fo hfo)
    have haddr : readU64 f'.mem (regs.parm1 + cluster.offset fo) =
        readU64 f.mem (regs.parm1 + cluster.offset fo) := by
      unfold readU64
      rw [readNat_same hf.mem]
    rw [haddr]
    exact cstr_bpfProbeReadStr (by decide) hlen hbyte
  -- the cluster name and the length are read from kernel memory
  have hlt : ∀ i < MAX_CLUSTER_NAME_LEN, i < 320 := fun i hi => Nat.lt_of_lt_of_le hi (by decide)
  have hname : bpfProbeReadUser f'.mem MAX_CLUSTER_NAME_LEN f.clusterAddr =
      bpfProbeReadUser f'.mem MAX_CLUSTER_NAME_LEN f'.clusterAddr := by
    rw [← bpfProbeReadUser_same hf.mem,
      bpfProbeReadUser_kernel fun i hi => f.clusterAddr_kernel i (hlt i hi),
      bpfProbeReadUser_kernel fun i hi => f'.clusterAddr_kernel i (hlt i hi)]
  have hqueryLen : readNat f'.mem 8 (f.queryAddr + 8) = readNat f'.mem 8 (f'.queryAddr + 8) := by
    rw [← readNat_same hf.mem, readNat_queryLen, readNat_queryLen]
  refine ⟨⟨fillDbCtx cluster gtid regs f' d, ?_⟩, hstr _ (Or.inl rfl) d.user,
    hstr _ (Or.inr rfl) d.privUser⟩
  unfold fillDbCtx DbCtx.overlay readU64 readU32 readU16
  simp only [bpfProbeReadUser_same hf.mem, readNat_same hf.mem, hf.now, hf.comm, hqueryLen]
  rw [hname]

/-! ## What a thread sees -/

/-- What a firing gets of its thread, of the `clusters` entry of its process and of the machine. -/
inductive Seen where
  | entry (gtid : UInt64) (regs : PtRegs) (cluster : Option Cluster) (f : Firing)
  | ret (gtid : UInt64) (cluster : Option Cluster) (f : Firing)

/-- The same firing on both sides; kernel memory and kernel addresses may differ. -/
def Seen.Same : Seen → Seen → Prop
  | .entry gtid regs cluster f, .entry gtid' regs' cluster' f' =>
      gtid = gtid' ∧ regs = regs' ∧ cluster = cluster' ∧ f.Same f'
  | .ret gtid cluster f, .ret gtid' cluster' f' => gtid = gtid' ∧ cluster = cluster' ∧ f.Same f'
  | _, _ => False

/-- An entry firing that gets past its guards copies strings from user memory only. -/
def Seen.StringsInUser : Seen → Prop
  | .entry _ regs (some cluster) f => regs.parm3 = COM_QUERY → f.StringsInUser cluster regs
  | _ => True

/-! ## The private probe -/

/-- A probe that serves one thread: its slot, and what its records print, the latest first. -/
structure Private where
  slot : Option DbCtx
  printed : List Printout

namespace Private

def init : Private := ⟨none, []⟩

/-- The handlers, with a cleared record in place of the scratch element. -/
def step (p : Private) : Seen → Private
  | .entry gtid regs (some cluster) f =>
      if regs.parm3 = COM_QUERY then
        { p with slot := some (fillDbCtx cluster gtid regs f .zero) }
      else p
  | .ret _ (some cluster) f =>
      match p.slot with
      | none => p
      | some d =>
        if d.processed = UNHANDLED then
          ⟨some (completeDbCtx cluster f d), (completeDbCtx cluster f d).Print :: p.printed⟩
        else p
  | _ => p

def run (p : Private) (es : List Seen) : Private := es.foldl step p

/-- The slots print the same, and so does everything printed so far. -/
structure Alike (p p' : Private) : Prop where
  slot : Option.Rel DbCtx.Like p.slot p'.slot
  printed : p.printed = p'.printed

theorem Alike.step {p p' : Private} {e e' : Seen} (h : p.Alike p') (he : e.Same e')
    (hs : e.StringsInUser) : (p.step e).Alike (p'.step e') := by
  rcases e with ⟨gtid, regs, cluster, f⟩ | ⟨gtid, cluster, f⟩ <;>
    rcases e' with ⟨gtid', regs', cluster', f'⟩ | ⟨gtid', cluster', f'⟩
  · obtain ⟨rfl, rfl, rfl, hf⟩ := he
    cases cluster with
    | none => exact h
    | some cluster =>
      simp only [Private.step]
      split
      · rename_i hcmd
        refine ⟨.some ?_, h.printed⟩
        exact fillDbCtx_same hf (hs hcmd) gtid .zero
      · exact h
  · exact he.elim
  · exact he.elim
  · obtain ⟨rfl, rfl, hf⟩ := he
    cases cluster with
    | none => exact h
    | some cluster =>
      obtain ⟨slot, printed⟩ := p
      obtain ⟨slot', printed'⟩ := p'
      obtain ⟨hslot, rfl⟩ := h
      cases hslot with
      | none => exact ⟨.none, rfl⟩
      | some hd =>
        obtain ⟨hlike, hprint⟩ := completeDbCtx_like hd hf cluster
        simp only [Private.step, ← hd.processed]
        split
        · exact ⟨.some hlike, by rw [hprint]⟩
        · exact ⟨.some hd, rfl⟩

/-- **The private probe** prints the same for firings that see the same. -/
theorem Alike.run {p p' : Private} {es es' : List Seen} (h : p.Alike p')
    (he : List.Forall₂ Seen.Same es es') (hs : ∀ e ∈ es, e.StringsInUser) :
    (p.run es).Alike (p'.run es') := by
  induction he generalizing p p' with
  | nil => exact h
  | cons hsame _ ih =>
    refine ih (h.step hsame (hs _ List.mem_cons_self)) fun e hmem => ?_
    exact hs e (List.mem_cons_of_mem _ hmem)

end Private

/-! ## One thread in a run -/

namespace ProbeState

/-- The probe after loading, with any bytes in the scratch elements. -/
def initWith (varHolder : Nat → DbCtx) : ProbeState :=
  { init with kernel := { init.kernel with varHolder := varHolder } }

theorem inv_initWith (varHolder : Nat → DbCtx) : Inv (initWith varHolder) :=
  ⟨inv_init.live_ok, inv_init.cap_seq, inv_init.cap_ok, inv_init.own, inv_init.slots,
    inv_init.fresh, inv_init.push_ok⟩

/-- What the handlers see in a step that is a firing for thread id `tid`. -/
def sees (s : ProbeState) (tid : UInt32) : Action → Option Seen
  | .entry tid' _ f =>
      if tid' = tid then (s.live tid).map fun l =>
        .entry l.gtid l.regs (s.kernel.clusters.lookup (pidOf l.gtid)) f
      else none
  | .ret tid' f =>
      if tid' = tid then (s.live tid).map fun l =>
        .ret l.gtid (s.kernel.clusters.lookup (pidOf l.gtid)) f
      else none
  | _ => none

/-- What the handlers see for thread id `tid` in a run, in order. -/
def view (tid : UInt32) (s : ProbeState) (as : List Action) : List Seen :=
  Trace.observe step (sees · tid) s as

/-- What is printed for the calls of thread id `tid` from the `n`-th on, the latest first. -/
def printsOf (s : ProbeState) (tid : UInt32) (n : Nat) : List Printout :=
  (s.pushes.filter fun p => p.call.tid = tid ∧ n ≤ p.call.seq).map fun p => p.record.Print

/-- An entry firing for `tid` that gets past its guards can store its record. -/
def UpdateSucceeds (tid : UInt32) (s : ProbeState) : Action → Prop
  | .entry tid' _ _ => tid' = tid → ∀ l ∈ s.live tid, s.kernel.Traced l.gtid l.regs →
      s.kernel.threadDbCtxHash.Accepts tid
  | _ => True

instance (tid : UInt32) (s : ProbeState) : ∀ a, Decidable (UpdateSucceeds tid s a)
  | .entry tid' _ _ => inferInstanceAs (Decidable (tid' = tid → ∀ l ∈ s.live tid, _ → _))
  | .enter .. | .ret .. | .leave .. | .setCluster .. | .delCluster .. | .pop => isTrue trivial

/-- A return firing for `tid` that finds its slot pending finds what the calls of `tid` from the
`n`-th on have stored there. -/
def OwnSlot (tid : UInt32) (n : Nat) (s : ProbeState) : Action → Prop
  | .ret tid' _ => tid' = tid → ∀ l ∈ s.live tid, pidOf l.gtid ∈ s.kernel.clusters.keys →
      ∀ d ∈ s.kernel.threadDbCtxHash.lookup tid, d.processed = UNHANDLED →
        ∃ c ∈ s.captures, c.call.tid = tid ∧ n ≤ c.call.seq
  | _ => True

instance (tid : UInt32) (n : Nat) (s : ProbeState) : ∀ a, Decidable (OwnSlot tid n s a)
  | .ret tid' _ => inferInstanceAs
      (Decidable (tid' = tid → ∀ l ∈ s.live tid, _ → ∀ d ∈ _, _ → ∃ c ∈ _, _))
  | .enter .. | .entry .. | .leave .. | .setCluster .. | .delCluster .. | .pop => isTrue trivial

/-- **Simulation relation**: the private probe of the calls of `tid` from the `n`-th on has the
slot of `tid`, or nothing while these calls have stored nothing, and has printed their records. -/
structure Tracks (tid : UInt32) (n : Nat) (s : ProbeState) (p : Private) : Prop where
  begun : n ≤ s.started tid
  live : ∀ l, s.live tid = some l → n ≤ l.call.seq
  slot : match p.slot with
    | none => ∀ c ∈ s.captures, c.call.tid = tid → c.call.seq < n
    | some d => ∃ d', s.kernel.threadDbCtxHash.lookup tid = some d' ∧ d.Like d'
  printed : p.printed = s.printsOf tid n

variable {tid : UInt32} {n : Nat} {s t : ProbeState} {p : Private}

/-- A step that leaves the thread id and its slot alone. -/
theorem Tracks.frame (h : Tracks tid n s p) (hstarted : s.started tid ≤ t.started tid)
    (hlive : ∀ l, t.live tid = some l → n ≤ l.call.seq)
    (hcaps : ∀ c ∈ t.captures, c.call.tid = tid → c ∈ s.captures)
    (hslot : t.kernel.threadDbCtxHash.lookup tid = s.kernel.threadDbCtxHash.lookup tid)
    (hprinted : t.printsOf tid n = s.printsOf tid n) : Tracks tid n t p := by
  refine ⟨h.begun.trans hstarted, hlive, ?_, h.printed.trans hprinted.symm⟩
  have hs := h.slot
  split
  · rename_i hnone
    rw [hnone] at hs
    exact fun c hc ht => hs c (hcaps c hc ht) ht
  · rename_i d hsome
    rw [hsome] at hs
    rw [hslot]
    exact hs

theorem printsOf_cons (s : ProbeState) (q : Push) (tid : UInt32) (n : Nat) :
    ({ s with pushes := q :: s.pushes } : ProbeState).printsOf tid n =
      if q.call.tid = tid ∧ n ≤ q.call.seq then q.record.Print :: s.printsOf tid n
      else s.printsOf tid n := by
  unfold printsOf
  by_cases h : q.call.tid = tid ∧ n ≤ q.call.seq <;> simp [h]

theorem tracks_enter {gtid : UInt64} {regs : PtRegs} (ht : Tracks tid n s p)
    (h : s.enter gtid regs = some t) : Tracks tid n t p := by
  obtain ⟨_, rfl⟩ := enter_spec h
  have hstarted : s.started tid ≤ Function.update s.started (tidOf gtid)
      (s.started (tidOf gtid) + 1) tid := by
    by_cases he : tid = tidOf gtid
    · subst he; simp
    · simp [he]
  refine ht.frame hstarted (fun l hl => ?_) (fun _ hc _ => hc) rfl rfl
  rcases live_update hl with ⟨rfl, rfl⟩ | ⟨_, hl⟩
  · exact ht.begun
  · exact ht.live l hl

/-- A firing does not change the number of a call. -/
theorem Tracks.live_of_update {tid' : UInt32} {l l' l₁ : Live} (ht : Tracks tid n s p)
    (hl : s.live tid' = some l) (hc : l'.call = l.call)
    (h₁ : Function.update s.live tid' (some l') tid = some l₁) : n ≤ l₁.call.seq := by
  rcases live_update h₁ with ⟨rfl, rfl⟩ | ⟨_, h₁⟩
  · exact hc ▸ ht.live l hl
  · exact ht.live l₁ h₁

/-- An entry firing for `tid` that stores its record. -/
theorem Tracks.store {l : Live} {cpu : Nat} {f : Firing} {cluster : Cluster}
    {m : BoundedMap UInt32 DbCtx 1024} {v : Nat → DbCtx} (ht : Tracks tid n s p)
    (hlive : n ≤ l.call.seq) (hcmd : l.regs.parm3 = COM_QUERY)
    (hup : s.kernel.threadDbCtxHash.update tid
      (l.capture f cluster (s.kernel.varHolder cpu)).record = some m) :
    Tracks tid n (s.withCapture tid l (l.capture f cluster (s.kernel.varHolder cpu)) m v)
      (p.step (.entry l.gtid l.regs (some cluster) f)) := by
  have hstore : p.step (.entry l.gtid l.regs (some cluster) f) =
      { p with slot := some (fillDbCtx cluster l.gtid l.regs f .zero) } := if_pos hcmd
  rw [hstore]
  refine ⟨ht.begun, fun l₁ h₁ => ?_, ⟨_, (lookup_withCapture hup tid).trans (if_pos rfl), ?_⟩,
    ht.printed⟩
  · rcases live_update h₁ with ⟨_, rfl⟩ | ⟨hne, _⟩
    · exact hlive
    · exact absurd rfl hne
  · exact fillDbCtx_scratch cluster l.gtid l.regs f .zero (s.kernel.varHolder cpu)

theorem tracks_entry {tid' : UInt32} {cpu : Nat} {f : Firing} (hi : s.Inv)
    (ht : Tracks tid n s p) (hfit : UpdateSucceeds tid s (.entry tid' cpu f))
    (h : s.fireEntry tid' cpu f = some t) :
    Tracks tid n t (p.run (s.sees tid (.entry tid' cpu f)).toList) := by
  obtain ⟨l, hl⟩ := live_of_fireEntry h
  obtain ⟨hcall, hg, _⟩ := hi.live_ok tid' l hl
  obtain ⟨_, _, hcase⟩ := fireEntry_cases h hl hg
  by_cases he : tid' = tid
  · subst he
    have hsees : s.sees tid' (.entry tid' cpu f) =
        some (.entry l.gtid l.regs (s.kernel.clusters.lookup (pidOf l.gtid)) f) := by
      simp [sees, hl]
    rw [hsees]
    show Tracks tid' n t (p.step _)
    rcases hcase with ⟨hT, rfl⟩ | ⟨hT, hA, _, _⟩ | ⟨hT, cluster, m, v, _, hcl, rfl, hup, rfl⟩
    · -- a guard fails, on both sides
      have hskip : p.step (.entry l.gtid l.regs (s.kernel.clusters.lookup (pidOf l.gtid)) f) =
          p := by
        cases hcl : s.kernel.clusters.lookup (pidOf l.gtid) with
        | none => rfl
        | some cluster =>
          exact if_neg fun hcmd => hT ⟨BoundedMap.mem_keys_of_lookup hcl, hcmd⟩
      rw [hskip]
      exact ht.frame (Nat.le_refl _) (fun _ => ht.live_of_update hl rfl) (fun _ hc _ => hc) rfl rfl
    · exact absurd (hfit rfl l hl hT) hA
    · rw [hcl]
      exact ht.store (ht.live l hl) hT.2 hup
  · have hsees : s.sees tid (.entry tid' cpu f) = none := by simp [sees, he]
    rw [hsees]
    show Tracks tid n t p
    rcases hcase with ⟨_, rfl⟩ | ⟨_, _, v, rfl⟩ | ⟨_, cluster, m, v, _, _, rfl, hup, rfl⟩
    · exact ht.frame (Nat.le_refl _) (fun _ => ht.live_of_update hl rfl) (fun _ hc _ => hc) rfl rfl
    · exact ht.frame (Nat.le_refl _) (fun _ => ht.live_of_update hl rfl) (fun _ hc _ => hc) rfl rfl
    · refine ht.frame (Nat.le_refl _) (fun _ => ht.live_of_update hl rfl) (fun c hc htid => ?_) ?_
        rfl
      · rcases List.mem_cons.mp hc with rfl | hc
        · exact absurd (hcall.symm.trans htid) he
        · exact hc
      · exact (lookup_withCapture hup tid).trans (if_neg (Ne.symm he))

/-- A return firing for `tid` that pushes a slot of its own. -/
theorem Tracks.push {l : Live} {f : Firing} {cluster : Cluster} {d : DbCtx} {c : Capture}
    (ht : Tracks tid n s p) (hcall : l.call.tid = tid) (hlive : n ≤ l.call.seq)
    (hpend : s.kernel.Pending tid d) (hc : c ∈ s.captures) (htid : c.call.tid = tid)
    (hseq : n ≤ c.call.seq) :
    Tracks tid n (s.withPush tid l f cluster d) (p.step (.ret l.gtid (some cluster) f)) := by
  obtain ⟨slot, printed⟩ := p
  cases slot with
  | none => exact absurd hseq (Nat.not_le.mpr (ht.slot c hc htid))
  | some d₀ =>
    obtain ⟨d', hd', hlike⟩ := ht.slot
    obtain rfl : d = d' := Option.some.inj (hpend.1.symm.trans hd')
    obtain ⟨hlike', hprint⟩ := completeDbCtx_like hlike (.refl f) cluster
    have hpush : Private.step ⟨some d₀, printed⟩ (.ret l.gtid (some cluster) f) =
        ⟨some (completeDbCtx cluster f d₀), (completeDbCtx cluster f d₀).Print :: printed⟩ :=
      if_pos (hlike.processed.trans hpend.2)
    rw [hpush]
    refine ⟨ht.begun, fun l₁ h₁ => ?_, ⟨completeDbCtx cluster f d, ?_, hlike'⟩, ?_⟩
    · rcases live_update h₁ with ⟨_, rfl⟩ | ⟨hne, _⟩
      · exact hlive
      · exact absurd rfl hne
    · exact (lookup_withPush hpend tid).trans (if_pos rfl)
    · have hnew := printsOf_cons s ⟨l.call, l.gtid, l.regs, f, some cluster,
        s.lastCapture tid, completeDbCtx cluster f d⟩ tid n
      rw [if_pos ⟨hcall, hlive⟩, ← ht.printed, ← hprint] at hnew
      exact hnew.symm

theorem tracks_ret {tid' : UInt32} {f : Firing} (hi : s.Inv) (ht : Tracks tid n s p)
    (hown : OwnSlot tid n s (.ret tid' f)) (h : s.fireReturn tid' f = some t) :
    Tracks tid n t (p.run (s.sees tid (.ret tid' f)).toList) := by
  obtain ⟨l, hl⟩ := live_of_fireReturn h
  obtain ⟨hcall, hg, _⟩ := hi.live_ok tid' l hl
  obtain ⟨_, hcase⟩ := fireReturn_cases h hl hg
  by_cases he : tid' = tid
  · subst he
    have hsees : s.sees tid' (.ret tid' f) =
        some (.ret l.gtid (s.kernel.clusters.lookup (pidOf l.gtid)) f) := by
      simp [sees, hl]
    rw [hsees]
    show Tracks tid' n t (p.step _)
    rcases hcase with ⟨hreg, rfl⟩ | ⟨hreg, hpend, rfl⟩ | ⟨cluster, d, hcl, hpend, rfl⟩
    · rw [BoundedMap.lookup_eq_none_iff.mpr hreg]
      exact ht.frame (Nat.le_refl _) (fun _ => ht.live_of_update hl rfl) (fun _ hc _ => hc) rfl rfl
    · -- no slot waits here, nor in the private probe
      have hskip : p.step (.ret l.gtid (s.kernel.clusters.lookup (pidOf l.gtid)) f) = p := by
        obtain ⟨cluster, hcl⟩ := BoundedMap.mem_keys_iff.mp hreg
        rw [hcl]
        obtain ⟨slot, printed⟩ := p
        cases slot with
        | none => rfl
        | some d =>
          obtain ⟨d', hd', hlike⟩ := ht.slot
          exact if_neg fun hp => hpend d' ⟨hd', hlike.processed ▸ hp⟩
      rw [hskip]
      exact ht.frame (Nat.le_refl _) (fun _ => ht.live_of_update hl rfl) (fun _ hc _ => hc) rfl rfl
    · obtain ⟨c, hc, htid, hseq⟩ :=
        hown rfl l hl (BoundedMap.mem_keys_of_lookup hcl) d hpend.1 hpend.2
      rw [hcl]
      exact ht.push hcall (ht.live l hl) hpend hc htid hseq
  · have hsees : s.sees tid (.ret tid' f) = none := by simp [sees, he]
    rw [hsees]
    show Tracks tid n t p
    rcases hcase with ⟨_, rfl⟩ | ⟨_, _, rfl⟩ | ⟨cluster, d, _, hpend, rfl⟩
    · exact ht.frame (Nat.le_refl _) (fun _ => ht.live_of_update hl rfl) (fun _ hc _ => hc) rfl rfl
    · exact ht.frame (Nat.le_refl _) (fun _ => ht.live_of_update hl rfl) (fun _ hc _ => hc) rfl rfl
    · refine ht.frame (Nat.le_refl _) (fun _ => ht.live_of_update hl rfl) (fun _ hc _ => hc) ?_ ?_
      · exact (lookup_withPush hpend tid).trans (if_neg (Ne.symm he))
      · have hnew := printsOf_cons s ⟨l.call, l.gtid, l.regs, f, some cluster,
          s.lastCapture tid', completeDbCtx cluster f d⟩ tid n
        rw [if_neg fun hp => he (hcall.symm.trans hp.1)] at hnew
        exact hnew

/-- **One step of the probe** is what the thread sees of it in its private probe. -/
theorem tracks_step {a : Action} (hi : s.Inv) (ht : Tracks tid n s p)
    (hfit : UpdateSucceeds tid s a) (hown : OwnSlot tid n s a) (h : step s a = some t) :
    Tracks tid n t (p.run (s.sees tid a).toList) := by
  cases a with
  | enter gtid regs => exact tracks_enter ht h
  | entry tid' cpu f => exact tracks_entry hi ht hfit h
  | ret tid' f => exact tracks_ret hi ht hown h
  | leave tid' =>
    obtain rfl := leave_spec h
    exact ht.frame (Nat.le_refl _) (fun l hl => ht.live l (live_ended hl).2) (fun _ hc _ => hc)
      rfl rfl
  | setCluster _ _ | delCluster _ | pop =>
    obtain ⟨m, q, rfl⟩ := agent_spec h trivial
    exact ht.frame (Nat.le_refl _) ht.live (fun _ hc _ => hc) rfl rfl

/-- **Refinement.** A run does for the calls of `tid` what the private probe does with the firings
that `tid` sees. -/
theorem refines_run : ∀ {s t : ProbeState} {p : Private} {as : List Action}, s.Inv →
    Tracks tid n s p → Trace.Meets step (UpdateSucceeds tid) s as →
    Trace.Meets step (OwnSlot tid n) s as → Trace.run step s as = some t →
    Tracks tid n t (p.run (view tid s as))
  | s, t, p, [], _, ht, _, _, h => by
    obtain rfl : s = t := Option.some.inj h
    exact ht
  | s, t, p, a :: as, hi, ht, hfit, hown, h => by
    obtain ⟨u, hu, hrun⟩ := Trace.run_cons_eq_some.mp h
    have hstep := tracks_step hi ht hfit.1 hown.1 hu
    have hrest := refines_run (inv_step s a u hi hu) hstep (hfit.2 u hu) (hown.2 u hu) hrun
    have hview : view tid s (a :: as) = (s.sees tid a).toList ++ view tid u as :=
      Trace.observe_cons hu as
    rw [hview]
    unfold Private.run at hrest ⊢
    rw [List.foldl_append]
    exact hrest

/-! ## Two runs -/

/-- The run `as` from `s` to `t`, some time after loading: `s` is where the first call of a thread
with id `tid` is still to come, and its entry firings can store their records. -/
structure Lifetime (tid : UInt32) (s : ProbeState) (as : List Action) (t : ProbeState) : Prop where
  loaded : ∃ varHolder bs, Trace.run step (initWith varHolder) bs = some s
  born : s.live tid = none
  run : Trace.run step s as = some t
  updates : Trace.Meets step (UpdateSucceeds tid) s as

theorem Lifetime.tracks {as : List Action} (h : Lifetime tid s as t)
    (hown : Trace.Meets step (OwnSlot tid (s.started tid)) s as) :
    Tracks tid (s.started tid) t (Private.init.run (view tid s as)) := by
  obtain ⟨varHolder, bs, hload⟩ := h.loaded
  have hstart : (initWith varHolder).Inv ∧ (initWith varHolder).PushesBegun :=
    ⟨inv_initWith varHolder, fun q hq => by cases hq⟩
  obtain ⟨hi, hbegun⟩ := Trace.run_invariant pushesBegun_step hstart hload
  refine refines_run hi ⟨Nat.le_refl _, ?_, ?_, ?_⟩ h.updates hown h.run
  · intro l hl
    rw [h.born] at hl
    cases hl
  · intro c hc htid
    exact htid ▸ hi.cap_seq c hc
  · have hnone : s.pushes.filter (fun q => q.call.tid = tid ∧ s.started tid ≤ q.call.seq) = [] := by
      apply List.filter_eq_nil_iff.mpr
      intro q hq hand
      obtain ⟨htid, hle⟩ := of_decide_eq_true hand
      exact absurd hle (Nat.not_le.mpr (htid ▸ hbegun q hq))
    unfold printsOf
    rw [hnone]
    rfl

/-- **The records of one thread.** In two runs a thread sees the same, every slot that its return
firings find pending is its own, and the strings it hands to `bpf_probe_read_str` lie in user
memory: its records print the same. -/
theorem prints_alike {s' t' : ProbeState} {as as' : List Action}
    (h : Lifetime tid s as t) (h' : Lifetime tid s' as' t')
    (hview : List.Forall₂ Seen.Same (view tid s as) (view tid s' as'))
    (hs : ∀ e ∈ view tid s as, e.StringsInUser)
    (hown : Trace.Meets step (OwnSlot tid (s.started tid)) s as)
    (hown' : Trace.Meets step (OwnSlot tid (s'.started tid)) s' as') :
    t.printsOf tid (s.started tid) = t'.printsOf tid (s'.started tid) := by
  have halike : Private.init.Alike Private.init := ⟨.none, rfl⟩
  rw [← (h.tracks hown).printed, ← (h'.tracks hown').printed]
  exact (halike.run hview hs).printed

/-! ## One query in two runs -/

/-- The lower half is user space, with zeros except at address 7; the other half is kernel space. -/
def halves (top kernel : UInt8) : Memory where
  byte a := some (if a < 0x8000000000000000 then (if a = 7 then top else 0) else kernel)
  user a := decide (a < 0x8000000000000000)

theorem halves_same (top kernel kernel' : UInt8) :
    (halves top kernel).SameUser (halves top kernel') := by
  refine ⟨rfl, fun a ha => ?_⟩
  have hlt : a < 0x8000000000000000 := of_decide_eq_true ha
  simp [halves, hlt]

theorem halves_kernel (top kernel : UInt8) :
    (halves top kernel).InKernel 0x8000000000000000 320 :=
  (by decide +kernel : ∀ i < 320,
    decide ((0x8000000000000000 : UInt64) + .ofNat i < 0x8000000000000000) = false)

def halvesFiring (top kernel : UInt8) (now : UInt64) : Firing :=
  ⟨now, Vector.replicate _ 0, halves top kernel, 0x8000000000000000, halves_kernel top kernel,
    0x8000000000000000, fun i hi => halves_kernel top kernel i (by omega)⟩

theorem halvesFiring_same (top kernel kernel' : UInt8) (now : UInt64) :
    (halvesFiring top kernel now).Same (halvesFiring top kernel' now) :=
  ⟨rfl, rfl, halves_same top kernel kernel'⟩

/-- A `COM_QUERY` call of thread 7 of process 1 on one CPU.  Its pointers to strings are the
number at address 0. -/
def oneQuery (cpu : Nat) (top kernel : UInt8) : List Action :=
  [.enter gtid17 ⟨0, 0, COM_QUERY⟩, .entry 7 cpu (halvesFiring top kernel 2),
   .ret 7 (halvesFiring top kernel 3), .leave 7]

def oneSeen (top kernel : UInt8) : List Seen :=
  [.entry gtid17 ⟨0, 0, COM_QUERY⟩ (some zeroCluster) (halvesFiring top kernel 2),
   .ret gtid17 (some zeroCluster) (halvesFiring top kernel 3)]

theorem oneSeen_same (top kernel kernel' : UInt8) :
    List.Forall₂ Seen.Same (oneSeen top kernel) (oneSeen top kernel') :=
  .cons ⟨rfl, rfl, rfl, halvesFiring_same top kernel kernel' 2⟩
    (.cons ⟨rfl, rfl, halvesFiring_same top kernel kernel' 3⟩ .nil)

/-- Process 1 is registered. -/
def registered : ProbeState := (step init (.setCluster 1 zeroCluster)).getD init

theorem registered_loaded :
    ∃ varHolder bs, Trace.run step (initWith varHolder) bs = some registered :=
  ⟨fun _ => .zero, [.setCluster 1 zeroCluster], rfl⟩

/-- Process 1 is registered and its thread 8 enters a call on CPU 3. -/
def crowding : List Action :=
  [.setCluster 1 zeroCluster, .enter 0x100000008 ⟨0, 0, COM_QUERY⟩,
   .entry 8 3 (halvesFiring 0 66 1)]

/-- The scratch elements hold a user name after loading. -/
def strayUser : Nat → DbCtx := fun _ => { DbCtx.zero with user := Vector.replicate _ 65 }

def crowded : ProbeState := (Trace.run step (initWith strayUser) crowding).getD init

set_option maxRecDepth 4000 in
theorem prints_alike_oneQuery : ∃ t t', Trace.run step registered (oneQuery 0 0 0) = some t ∧
    Trace.run step crowded (oneQuery 3 0 65) = some t' ∧ t.printsOf 7 0 = t'.printsOf 7 0 := by
  obtain ⟨t, ht⟩ := Option.isSome_iff_exists.mp
    (by decide : (Trace.run step registered (oneQuery 0 0 0)).isSome = true)
  obtain ⟨t', ht'⟩ := Option.isSome_iff_exists.mp
    (by decide : (Trace.run step crowded (oneQuery 3 0 65)).isSome = true)
  have hfirst : Lifetime 7 registered (oneQuery 0 0 0) t :=
    ⟨registered_loaded, rfl, ht, by decide⟩
  have hsecond : Lifetime 7 crowded (oneQuery 3 0 65) t' :=
    ⟨⟨strayUser, crowding, rfl⟩, rfl, ht', by decide⟩
  refine ⟨t, t', ht, ht', ?_⟩
  refine prints_alike hfirst hsecond (oneSeen_same 0 0 65) ?_ (by decide) (by decide)
  intro e he
  rcases List.mem_cons.mp he with rfl | he
  · rintro - fo -
    have haddr : readU64 (halvesFiring 0 0 2).mem (0 + zeroCluster.offset fo) = 0 := by
      cases fo <;> rfl
    show (halves 0 0).StrInUser (readU64 _ _) _
    rw [haddr]
    exact ⟨rfl, fun b hb hne => absurd (Option.some.inj hb).symm hne⟩
  · rw [List.mem_singleton.mp he]
    trivial

/-! ## Two queries that differ -/

/-- The records of a thread print the same in any two runs that meet `C` and in which the thread
sees the same. -/
def AlwaysAlike (C : UInt32 → ProbeState → List Action → Prop) : Prop :=
  ∀ tid s t s' t' as as', Lifetime tid s as t → Lifetime tid s' as' t' →
    List.Forall₂ Seen.Same (view tid s as) (view tid s' as') → C tid s as → C tid s' as' →
    t.printsOf tid (s.started tid) = t'.printsOf tid (s'.started tid)

/-- Thread 7 of process 2 dies inside a `COM_QUERY` call. -/
def dying : List Action :=
  [.setCluster 1 zeroCluster, .setCluster 2 zeroCluster, .enter 0x200000007 ⟨0, 0, COM_QUERY⟩,
   .entry 7 0 (firingAt 1), .leave 7]

def leftPending : ProbeState := (Trace.run step init dying).getD init

/-- Thread 7 of process 1 makes a call with another command. -/
def otherCommand : List Action :=
  [.enter gtid17 ⟨0, 0, 4⟩, .entry 7 0 (firingAt 2), .ret 7 (firingAt 3), .leave 7]

def otherSeen : List Seen :=
  [.entry gtid17 ⟨0, 0, 4⟩ (some zeroCluster) (firingAt 2),
   .ret gtid17 (some zeroCluster) (firingAt 3)]

theorem otherSeen_same : List.Forall₂ Seen.Same otherSeen otherSeen :=
  .cons ⟨rfl, rfl, rfl, .refl _⟩ (.cons ⟨rfl, rfl, .refl _⟩ .nil)

theorem otherSeen_strings : ∀ e ∈ otherSeen, e.StringsInUser := by
  intro e he
  rcases List.mem_cons.mp he with rfl | he
  · intro hcmd
    exact absurd hcmd (by decide)
  · rw [List.mem_singleton.mp he]
    trivial

set_option maxRecDepth 4000 in
/-- **Another thread's record.** Thread 7 of process 1 sees the same in both runs, but in the first
one its return handler pushes the record of thread 7 of process 2.  And with a string pointer into
kernel space the user name is what the kernel has there. -/
theorem prints_differ :
    ¬ AlwaysAlike (fun tid s as => ∀ e ∈ view tid s as, e.StringsInUser) ∧
      ¬ AlwaysAlike (fun tid s as => Trace.Meets step (OwnSlot tid (s.started tid)) s as) := by
  constructor
  · intro hall
    have hrun : (Trace.run step leftPending otherCommand).map
        (fun t => (t.printsOf 7 1).length) = some 1 := by decide
    have hrun' : (Trace.run step registered otherCommand).map
        (fun t => (t.printsOf 7 0).length) = some 0 := by decide
    obtain ⟨t, ht, hone⟩ := Option.map_eq_some_iff.mp hrun
    obtain ⟨t', ht', hzero⟩ := Option.map_eq_some_iff.mp hrun'
    have halike := hall 7 leftPending t registered t' otherCommand otherCommand
      ⟨⟨fun _ => .zero, dying, rfl⟩, rfl, ht, by decide⟩ ⟨registered_loaded, rfl, ht', by decide⟩
      otherSeen_same otherSeen_strings otherSeen_strings
    have hlen : (t.printsOf 7 1).length = (t'.printsOf 7 0).length := congrArg List.length halike
    rw [hone, hzero] at hlen
    cases hlen
  · intro hall
    have hrun : (Trace.run step registered (oneQuery 0 0x80 0)).map
        (fun t => (t.printsOf 7 0).map Printout.username) = some [[]] := by decide +kernel
    have hrun' : (Trace.run step registered (oneQuery 0 0x80 65)).map
        (fun t => (t.printsOf 7 0).map Printout.username) = some [List.replicate 31 65] := by
      decide +kernel
    obtain ⟨t, ht, hempty⟩ := Option.map_eq_some_iff.mp hrun
    obtain ⟨t', ht', hname⟩ := Option.map_eq_some_iff.mp hrun'
    have halike := hall 7 registered t registered t' (oneQuery 0 0x80 0) (oneQuery 0 0x80 65)
      ⟨registered_loaded, rfl, ht, by decide⟩ ⟨registered_loaded, rfl, ht', by decide⟩
      (oneSeen_same 0x80 0 65) (by decide) (by decide)
    have hnames : (t.printsOf 7 0).map Printout.username =
        (t'.printsOf 7 0).map Printout.username := congrArg _ halike
    rw [hempty, hname] at hnames
    cases hnames

end ProbeState

end EDGuard
