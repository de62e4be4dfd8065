import EDGuard.Record
import EDGuard.Lib.BoundedMap
import EDGuard.Lib.EvictQueue

/-!
# The two eBPF handlers (`mysqld_probe.c`)

* `Kernel` — the maps of the object file: `clusters`, `var_holder`, `thread_db_ctx_hash`,
  `db_ctx_queue`.
* `Firing` — what one firing of a handler sees besides the maps: the clock, the command name,
  the memory, and the kernel addresses of the `clusters` value and of the local `query`.
* `mysql57Query`, `mysql57QueryReturn` — the handlers, one atomic step each.

The helpers follow their documentation: `bpf_probe_read_user` copies from user space only and
zero-fills its destination when it fails; `bpf_probe_read_str` copies a NUL-terminated string
without padding; a hash map rejects an update that would add a key when it is full, and the
handler ignores the result.
-/

set_option autoImplicit false

namespace EDGuard

/-! ## Helpers -/

def bpfProbeReadUser (m : Memory) (n : Nat) (src : UInt64) : Vector UInt8 n :=
  if m.InUser src n ∧ m.Readable src n then m.bytes src n else Vector.replicate n 0

def bpfProbeReadStr {n : Nat} (m : Memory) (dst : Vector UInt8 n) (src : UInt64) : Vector UInt8 n :=
  match m.strnlen src (n - 1) with
  | none => Vector.replicate n 0
  | some len => Vector.ofFn fun i =>
      if i < len then (m.byte (src + .ofNat i)).getD 0 else if i = len then 0 else dst[i]

/-- The number in the `n` bytes at `src`. -/
def readNat (m : Memory) (n : Nat) (src : UInt64) : Nat := leNat (bpfProbeReadUser m n src).toList

def readU64 (m : Memory) (src : UInt64) : UInt64 := .ofNat (readNat m 8 src)
def readU32 (m : Memory) (src : UInt64) : UInt32 := .ofNat (readNat m 4 src)
def readU16 (m : Memory) (src : UInt64) : UInt16 := .ofNat (readNat m 2 src)

theorem bpfProbeReadUser_kernel {m : Memory} {n : Nat} {src : UInt64} (h : m.InKernel src n) :
    bpfProbeReadUser m n src = Vector.replicate n 0 := by
  unfold bpfProbeReadUser
  cases n with
  | zero => split <;> simp
  | succ n => exact if_neg fun hu => h.not_inUser (by omega) hu.1

/-! ## Maps -/

def COM_QUERY : UInt64 := 3

/-- The `processed` mark of a slot whose return handler has not run. -/
def UNHANDLED : Int8 := 0xf

/-- The maps of the object file; `varHolder` is the per-CPU element. -/
structure Kernel where
  clusters : BoundedMap UInt32 Cluster 1024
  varHolder : Nat → DbCtx
  threadDbCtxHash : BoundedMap UInt32 DbCtx 1024
  dbCtxQueue : EvictQueue DbCtx 5120

def Kernel.init : Kernel := ⟨.empty, fun _ => .zero, .empty, .empty⟩

/-- `gtid >> 32`, the process id. -/
def pidOf (gtid : UInt64) : UInt32 := (gtid >>> 32).toUInt32

/-- The key of `thread_db_ctx_hash`: the map reads four bytes at `&gtid`, its low half. -/
def tidOf (gtid : UInt64) : UInt32 := gtid.toUInt32

/-- `struct pt_regs` as the entry handler reads it. -/
structure PtRegs where
  parm1 : UInt64
  parm2 : UInt64
  parm3 : UInt64
  deriving DecidableEq

/-- What a firing sees besides the maps and its thread. -/
structure Firing where
  now : UInt64
  comm : Vector UInt8 MAX_COMM_LEN
  mem : Memory
  /-- address of the value found in `clusters` -/
  clusterAddr : UInt64
  clusterAddr_kernel : mem.InKernel clusterAddr 320
  /-- address of the local variable `query` on the BPF stack -/
  queryAddr : UInt64
  queryAddr_kernel : mem.InKernel queryAddr 16

/-! ## Entry -/

/-- The writes of `mysql57_query` to the scratch element, in the order of the source. -/
def fillDbCtx (cluster : Cluster) (gtid : UInt64) (ctx : PtRegs) (f : Firing) (dbCtx : DbCtx) :
    DbCtx :=
  -- struct COM_QUERY_DATA { const char *query; unsigned int length; }
  let comData := (bpfProbeReadUser f.mem 16 ctx.parm2).toList
  let thd := ctx.parm1
  let at' (fo : FieldOffset) : UInt64 := thd + cluster.offset fo
  -- struct st_mysql_const_lex_string { const char *str; unsigned long length; }
  let mDb := (bpfProbeReadUser f.mem 16 (at' .mDb)).toList
  { dbCtx with
    gtid := gtid
    costTime := f.now
    comm := f.comm
    clusterName := bpfProbeReadUser f.mem _ f.clusterAddr
    query := bpfProbeReadUser f.mem _ (.ofNat (leNat (comData.take 8)))
    queryLen := readU64 f.mem (f.queryAddr + 8)
    thdAddr := thd.toInt64
    threadId := readU32 f.mem (at' .mThreadId)
    queryId := (readU64 f.mem (at' .mQueryId)).toInt64
    database := bpfProbeReadUser f.mem _ (.ofNat (leNat (mDb.take 8)))
    timestamp := readU64 f.mem (at' .tvSec)
    user := bpfProbeReadStr f.mem dbCtx.user (readU64 f.mem (at' .mUser))
    privUser := bpfProbeReadStr f.mem dbCtx.privUser (readU64 f.mem (at' .mPrivUser))
    host := bpfProbeReadUser f.mem _ (readU64 f.mem (at' .mHost))
    ipaddr := bpfProbeReadUser f.mem _ (readU64 f.mem (at' .mIp))
    peerPort := readU16 f.mem (at' .peerPort)
    processed := UNHANDLED }

/-- `mysql57_query`: the new maps and the record stored in the slot of the thread, if any. -/
def mysql57Query (k : Kernel) (cpu : Nat) (gtid : UInt64) (ctx : PtRegs) (f : Firing) :
    Kernel × Option DbCtx :=
  match k.clusters.lookup (pidOf gtid) with
  | none => (k, none)
  | some cluster =>
    if ctx.parm3 ≠ COM_QUERY then (k, none)
    else
      let dbCtx := fillDbCtx cluster gtid ctx f (k.varHolder cpu)
      let k' := { k with varHolder := Function.update k.varHolder cpu dbCtx }
      -- the result of bpf_map_update_elem is ignored
      match k.threadDbCtxHash.update (tidOf gtid) dbCtx with
      | none => (k', none)
      | some h => ({ k' with threadDbCtxHash := h }, some dbCtx)

/-! ## Return -/

/-- The writes of `mysql57_query_return` to the slot. -/
def completeDbCtx (cluster : Cluster) (f : Firing) (dbCtx : DbCtx) : DbCtx :=
  let at' (fo : FieldOffset) : UInt64 := dbCtx.thdAddr.toUInt64 + cluster.offset fo
  { dbCtx with
    previousFoundRows := readU64 f.mem (at' .previousFoundRows)
    currentFoundRows := readU64 f.mem (at' .currentFoundRows)
    affectedRows := readU64 f.mem (at' .mAffectedRows)
    sentRowCount := readU64 f.mem (at' .mSentRowCount)
    rowCountFunc := readU64 f.mem (at' .mRowCountFunc)
    sqlErrno := readU32 f.mem (at' .mMysqlErrno)
    killed := (readU32 f.mem (at' .killed)).toInt32
    costTime := f.now - dbCtx.costTime
    processed := 0 }

/-- `mysql57_query_return`: the new maps and, unless the handler skips, the record it pushes.
A pushed record is followed by one perf event with the gtid of the firing. -/
def mysql57QueryReturn (k : Kernel) (gtid : UInt64) (f : Firing) : Kernel × Option DbCtx :=
  match k.clusters.lookup (pidOf gtid) with
  | none => (k, none)
  | some cluster =>
    match k.threadDbCtxHash.lookup (tidOf gtid) with
    | none => (k, none)
    | some dbCtx =>
      if dbCtx.processed ≠ UNHANDLED then (k, none)
      else
        let dbCtx' := completeDbCtx cluster f dbCtx
        ({ k with
            threadDbCtxHash := k.threadDbCtxHash.modify (tidOf gtid) fun _ => dbCtx'
            dbCtxQueue := k.dbCtxQueue.push dbCtx' }, some dbCtx')

/-! ## What one firing can do -/

/-- The entry handler gets past its two guards: the process is registered and the command is
`COM_QUERY`. -/
def Kernel.Traced (k : Kernel) (gtid : UInt64) (ctx : PtRegs) : Prop :=
  pidOf gtid ∈ k.clusters.keys ∧ ctx.parm3 = COM_QUERY

instance (k : Kernel) (gtid : UInt64) (ctx : PtRegs) : Decidable (k.Traced gtid ctx) :=
  inferInstanceAs (Decidable (_ ∧ _))

/-- **Entry**: it is skipped, or the table is full and only the scratch element changes, or the
filled scratch element is stored in the slot. -/
theorem mysql57Query_cases (k : Kernel) (cpu : Nat) (gtid : UInt64) (ctx : PtRegs) (f : Firing) :
    (¬ k.Traced gtid ctx ∧ mysql57Query k cpu gtid ctx f = (k, none)) ∨
    (k.Traced gtid ctx ∧ ¬ k.threadDbCtxHash.Accepts (tidOf gtid) ∧
      ∃ v, mysql57Query k cpu gtid ctx f = ({ k with varHolder := v }, none)) ∨
    (k.Traced gtid ctx ∧ ∃ cluster h v,
      k.clusters.lookup (pidOf gtid) = some cluster ∧
      k.threadDbCtxHash.update (tidOf gtid) (fillDbCtx cluster gtid ctx f (k.varHolder cpu)) =
        some h ∧
      mysql57Query k cpu gtid ctx f =
        ({ k with varHolder := v, threadDbCtxHash := h },
          some (fillDbCtx cluster gtid ctx f (k.varHolder cpu)))) := by
  unfold mysql57Query Kernel.Traced
  rw [BoundedMap.mem_keys_iff]
  cases hcl : k.clusters.lookup (pidOf gtid) with
  | none => exact Or.inl ⟨by simp, rfl⟩
  | some cluster =>
    by_cases hcmd : ctx.parm3 = COM_QUERY
    · have ht : (∃ v, some cluster = some v) ∧ ctx.parm3 = COM_QUERY := ⟨⟨cluster, rfl⟩, hcmd⟩
      simp only [hcmd, ne_eq, not_true_eq_false, ↓reduceIte]
      cases hup : k.threadDbCtxHash.update (tidOf gtid)
          (fillDbCtx cluster gtid ctx f (k.varHolder cpu)) with
      | none => exact Or.inr (Or.inl ⟨by simp, BoundedMap.update_eq_none_iff.mp hup, _, rfl⟩)
      | some h => exact Or.inr (Or.inr ⟨by simp, cluster, h, _, rfl, hup, rfl⟩)
    · exact Or.inl ⟨fun ht => hcmd ht.2, if_pos hcmd⟩

/-- The slot of `tid` holds `dbCtx` and waits for a return handler. -/
def Kernel.Pending (k : Kernel) (tid : UInt32) (dbCtx : DbCtx) : Prop :=
  k.threadDbCtxHash.lookup tid = some dbCtx ∧ dbCtx.processed = UNHANDLED

/-- **Return**: it is skipped, or it completes the pending slot, marks it processed and pushes
it. -/
theorem mysql57QueryReturn_cases (k : Kernel) (gtid : UInt64) (f : Firing) :
    (mysql57QueryReturn k gtid f = (k, none) ∧
      (pidOf gtid ∉ k.clusters.keys ∨ ∀ dbCtx, ¬ k.Pending (tidOf gtid) dbCtx)) ∨
    (∃ cluster dbCtx, k.clusters.lookup (pidOf gtid) = some cluster ∧
      k.Pending (tidOf gtid) dbCtx ∧
      mysql57QueryReturn k gtid f =
        ({ k with
            threadDbCtxHash := k.threadDbCtxHash.modify (tidOf gtid) fun _ =>
              completeDbCtx cluster f dbCtx
            dbCtxQueue := k.dbCtxQueue.push (completeDbCtx cluster f dbCtx) },
          some (completeDbCtx cluster f dbCtx))) := by
  unfold mysql57QueryReturn Kernel.Pending
  cases hcl : k.clusters.lookup (pidOf gtid) with
  | none => exact Or.inl ⟨rfl, Or.inl (BoundedMap.lookup_eq_none_iff.mp hcl)⟩
  | some cluster =>
    cases hslot : k.threadDbCtxHash.lookup (tidOf gtid) with
    | none => exact Or.inl ⟨rfl, Or.inr (by simp)⟩
    | some dbCtx =>
      by_cases hp : dbCtx.processed = UNHANDLED
      · exact Or.inr ⟨cluster, dbCtx, rfl, ⟨rfl, hp⟩, by simp [hp]⟩
      · refine Or.inl ⟨if_pos hp, Or.inr ?_⟩
        rintro d ⟨hd, hd'⟩
        cases hd
        exact hp hd'

end EDGuard
