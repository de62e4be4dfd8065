import EDGuard.Instance
import EDGuard.Lib.Layout

/-!
# The bytes of the shared records

The records cross the map system calls as bytes: `struct db_ctx` on the way out, `struct cluster` on
the way in.  The C side lays them out with natural alignment, the Go side reads and writes the
fields one behind the other, and a blank field takes its bytes without a value.

* `dbCtxMembers`, `clusterMembers` — the C declarations.
* `BpfDbCtx.read`, `BpfDbCtx.write`, `BpfCluster.write` — the Go declarations.
* `formats_agree` — **both sides mean the same bytes**: no member needs padding in front of it, and
  the blank field of `BpfDbCtx` is as long as the padding behind the last one.
-/

set_option autoImplicit false

namespace EDGuard

open Codec Layout

/-! ## The C declarations -/

abbrev u8 : Codec UInt8 := uint8
abbrev u16 : Codec UInt16 := uint16
abbrev u32 : Codec UInt32 := uint32
abbrev u64 : Codec UInt64 := uint64
abbrev ulong : Codec UInt64 := uint64
abbrev s8 : Codec Int8 := int8
abbrev s32 : Codec Int32 := int32
abbrev s64 : Codec Int64 := int64

/-- `struct db_ctx`. -/
def dbCtxMembers : List (Member DbCtx) :=
  [⟨u64, DbCtx.gtid⟩,
   ⟨u64, DbCtx.costTime⟩,
   ⟨s64, DbCtx.thdAddr⟩,
   ⟨ulong, DbCtx.timestamp⟩,
   ⟨u8.array MAX_COMM_LEN, DbCtx.comm⟩,
   ⟨u8.array MAX_CLUSTER_NAME_LEN, DbCtx.clusterName⟩,
   ⟨u8.array MAX_USER_LEN, DbCtx.user⟩,
   ⟨u8.array MAX_USER_LEN, DbCtx.privUser⟩,
   ⟨u8.array MAX_HOST_LEN, DbCtx.host⟩,
   ⟨u8.array MAX_IP_LEN, DbCtx.ipaddr⟩,
   ⟨u8.array MAX_IP_LEN, DbCtx.database⟩,
   ⟨u32, DbCtx.threadId⟩,
   ⟨s64, DbCtx.queryId⟩,
   ⟨u64, DbCtx.queryLen⟩,
   ⟨u8.array MAX_QUERY_LEN, DbCtx.query⟩,
   ⟨u64, DbCtx.previousFoundRows⟩,
   ⟨u64, DbCtx.currentFoundRows⟩,
   ⟨u64, DbCtx.affectedRows⟩,
   ⟨ulong, DbCtx.sentRowCount⟩,
   ⟨u64, DbCtx.rowCountFunc⟩,
   ⟨u32, DbCtx.sqlErrno⟩,
   ⟨s32, DbCtx.killed⟩,
   ⟨u16, DbCtx.peerPort⟩,
   ⟨s8, DbCtx.processed⟩]

/-- `struct cluster`. -/
def clusterMembers : List (Member Cluster) :=
  [⟨u8.array 64, Cluster.clusterName⟩,
   ⟨u64.array 32, Cluster.offsets⟩]

/-- `cluster->cluster_name`, in the memory of a cluster. -/
def clusterNameAt (bs : List UInt8) : Vector UInt8 64 :=
  (u8.array 64).decode ((bs.drop (offsetof clusterMembers 0)).take 64)

/-- `cluster->offsets[f]`, in the memory of a cluster. -/
def offsetAt (bs : List UInt8) (f : FieldOffset) : UInt64 :=
  u64.decode ((bs.drop (offsetof clusterMembers 1 + f.idx * u64.size)).take u64.size)

/-! ## The Go declarations -/

/-- Decoding a `BpfDbCtx`. -/
def BpfDbCtx.read : StateT (List UInt8) Option DbCtx := do
  let gtid ← uint64.read
  let costTime ← uint64.read
  let thdAddr ← int64.read
  let timestamp ← uint64.read
  let comm ← (uint8.array 16).read
  let clusterName ← (uint8.array 64).read
  let user ← (uint8.array 32).read
  let privUser ← (uint8.array 32).read
  let host ← (uint8.array 64).read
  let ipaddr ← (uint8.array 46).read
  let database ← (uint8.array 46).read
  let threadId ← uint32.read
  let queryId ← int64.read
  let queryLen ← uint64.read
  let query ← (uint8.array 1024).read
  let previousFoundRows ← uint64.read
  let currentFoundRows ← uint64.read
  let affectedRows ← uint64.read
  let sentRowCount ← uint64.read
  let rowCountFunc ← uint64.read
  let sqlErrno ← uint32.read
  let killed ← int32.read
  let peerPort ← uint16.read
  let processed ← int8.read
  -- _ [5]byte
  let _ ← (uint8.array 5).read
  return {
    gtid, costTime, thdAddr, timestamp, comm, clusterName, user, privUser, host, ipaddr, database,
    threadId, queryId, queryLen, query, previousFoundRows, currentFoundRows, affectedRows,
    sentRowCount, rowCountFunc, sqlErrno, killed, peerPort, processed }

/-- The fields of a `BpfDbCtx` that have a name. -/
def BpfDbCtx.fields (d : DbCtx) : List UInt8 :=
  [uint64.encode d.gtid,
   uint64.encode d.costTime,
   int64.encode d.thdAddr,
   uint64.encode d.timestamp,
   (uint8.array 16).encode d.comm,
   (uint8.array 64).encode d.clusterName,
   (uint8.array 32).encode d.user,
   (uint8.array 32).encode d.privUser,
   (uint8.array 64).encode d.host,
   (uint8.array 46).encode d.ipaddr,
   (uint8.array 46).encode d.database,
   uint32.encode d.threadId,
   int64.encode d.queryId,
   uint64.encode d.queryLen,
   (uint8.array 1024).encode d.query,
   uint64.encode d.previousFoundRows,
   uint64.encode d.currentFoundRows,
   uint64.encode d.affectedRows,
   uint64.encode d.sentRowCount,
   uint64.encode d.rowCountFunc,
   uint32.encode d.sqlErrno,
   int32.encode d.killed,
   uint16.encode d.peerPort,
   int8.encode d.processed].flatten

/-- Encoding a `BpfDbCtx`; the blank field is written as zeros. -/
def BpfDbCtx.write (d : DbCtx) : List UInt8 := BpfDbCtx.fields d ++ List.replicate 5 0

/-- Encoding a `BpfCluster`. -/
def BpfCluster.write (c : Cluster) : List UInt8 :=
  [(uint8.array 64).encode c.clusterName, (uint64.array 32).encode c.offsets].flatten

/-! ## The records as bytes -/

theorem dbCtx_snug : Snug 0 dbCtxMembers := by decide

theorem cluster_snug : Snug 0 clusterMembers := by decide

/-- Five bytes of padding are behind the last member. -/
theorem sizeof_dbCtx : sizeof dbCtxMembers = extent 0 dbCtxMembers + 5 := by decide

example : sizeof dbCtxMembers = 1432 ∧ sizeof clusterMembers = 320 := by decide

/-- Both sides have the same members in the same order. -/
theorem packed_dbCtx (d : DbCtx) : packed dbCtxMembers d = BpfDbCtx.fields d := rfl

theorem packed_cluster (c : Cluster) : packed clusterMembers c = BpfCluster.write c := rfl

theorem length_fields (d : DbCtx) : (BpfDbCtx.fields d).length = extent 0 dbCtxMembers := by
  rw [extent_eq d dbCtx_snug, Nat.zero_add, packed_dbCtx]

/-- The memory of a record is its fields and five bytes of padding. -/
theorem laidOut_dbCtx_iff {d : DbCtx} {bs : List UInt8} :
    LaidOut dbCtxMembers d bs ↔ ∃ pad, pad.length = 5 ∧ bs = BpfDbCtx.fields d ++ pad := by
  rw [laidOut_iff dbCtx_snug, sizeof_dbCtx, packed_dbCtx]
  constructor
  · rintro ⟨hlen, pad, rfl⟩
    rw [List.length_append, length_fields] at hlen
    exact ⟨pad, Nat.add_left_cancel hlen, rfl⟩
  · rintro ⟨pad, hpad, rfl⟩
    exact ⟨by rw [List.length_append, length_fields, hpad], pad, rfl⟩

theorem BpfDbCtx.read_fields (d : DbCtx) {pad : List UInt8} (hpad : pad.length = 5)
    (rest : List UInt8) : BpfDbCtx.read (BpfDbCtx.fields d ++ (pad ++ rest)) = some (d, rest) := by
  have hskip := (uint8.array 5).read_append hpad rest
  simp only [BpfDbCtx.fields, List.flatten_cons, List.flatten_nil, List.append_nil,
    List.append_assoc]
  unfold BpfDbCtx.read
  -- one step per field
  iterate 24 refine (read_bind _ _ _ _).trans ?_
  show ((uint8.array 5).read (pad ++ rest) >>= _) = _
  rw [hskip]
  rfl

theorem clusterNameAt_write (c : Cluster) : clusterNameAt (BpfCluster.write c) = c.clusterName := by
  have hlen := (u8.array 64).length_encode c.clusterName
  have htake : ((BpfCluster.write c).drop (offsetof clusterMembers 0)).take 64 =
      (u8.array 64).encode c.clusterName := List.take_left' hlen
  unfold clusterNameAt
  rw [htake, (u8.array 64).decode_encode]

theorem offsetAt_write (c : Cluster) (f : FieldOffset) :
    offsetAt (BpfCluster.write c) f = c.offset f := by
  have hlen := (u8.array 64).length_encode c.clusterName
  have hdrop : (BpfCluster.write c).drop (offsetof clusterMembers 1) =
      (u64.array 32).encode c.offsets := by
    have happ : BpfCluster.write c =
        (u8.array 64).encode c.clusterName ++ (u64.array 32).encode c.offsets := by
      simp [BpfCluster.write]
    rw [happ]
    exact List.drop_left' hlen
  unfold offsetAt
  rw [← List.drop_drop, hdrop]
  exact slice_array u64 c.offsets f.idx

/-- **The two sides agree on the bytes.** The memory of a `struct db_ctx` decodes to its fields and
nothing else, and encodes to itself except for the padding; an encoded `BpfCluster` is the memory of
a `struct cluster` with the same name and the offsets of the program. -/
theorem formats_agree {d : DbCtx} {bs : List UInt8} (h : LaidOut dbCtxMembers d bs)
    (rest : List UInt8) (name : Vector UInt8 64) (program : Program) :
    (BpfDbCtx.read (bs ++ rest) = some (d, rest) ∧
      (BpfDbCtx.write d).length = sizeof dbCtxMembers ∧
      (BpfDbCtx.write d).take (extent 0 dbCtxMembers) = bs.take (extent 0 dbCtxMembers)) ∧
    LaidOut clusterMembers ⟨name, program.properties⟩
      (BpfCluster.write ⟨name, program.properties⟩) ∧
    clusterNameAt (BpfCluster.write ⟨name, program.properties⟩) = name ∧
    ∀ f : FieldOffset,
      offsetAt (BpfCluster.write ⟨name, program.properties⟩) f = program.properties.get f.idx := by
  obtain ⟨pad, hpad, rfl⟩ := laidOut_dbCtx_iff.mp h
  refine ⟨⟨?_, ?_, ?_⟩, ?_, clusterNameAt_write _, offsetAt_write _⟩
  · rw [List.append_assoc]
    exact BpfDbCtx.read_fields d hpad rest
  · exact (laidOut_dbCtx_iff.mpr ⟨_, List.length_replicate, rfl⟩).length
  · unfold BpfDbCtx.write
    rw [List.take_left' (length_fields d), List.take_left' (length_fields d)]
  · refine (laidOut_iff cluster_snug).mpr ⟨?_, [], ?_⟩
    · have hlen := extent_eq (⟨name, program.properties⟩ : Cluster) cluster_snug
      rw [packed_cluster, Nat.zero_add] at hlen
      rw [← hlen]
      decide
    · rw [List.append_nil, packed_cluster]

/-- A record in which every field has a value of its own. -/
def sampleDbCtx : DbCtx where
  gtid := 0x0A00000007
  costTime := 0x0102030405060708
  thdAddr := -2
  timestamp := 1700000000
  comm := Vector.replicate _ 0xC0
  clusterName := Vector.replicate _ 0xC1
  user := Vector.replicate _ 0xC2
  privUser := Vector.replicate _ 0xC3
  host := Vector.replicate _ 0xC4
  ipaddr := Vector.replicate _ 0xC5
  database := Vector.replicate _ 0xC6
  threadId := 42
  queryId := -43
  queryLen := 1025
  query := Vector.replicate _ 0xC7
  previousFoundRows := 51
  currentFoundRows := 52
  affectedRows := 53
  sentRowCount := 54
  rowCountFunc := 55
  sqlErrno := 1064
  killed := -1
  peerPort := 0xB0B1
  processed := -61

/-- The padding is not zero and another record follows. -/
theorem formats_agree_sample :
    (BpfDbCtx.read (BpfDbCtx.fields sampleDbCtx ++ [1, 2, 3, 4, 5] ++ [6]) =
        some (sampleDbCtx, [6]) ∧
      (BpfDbCtx.write sampleDbCtx).length = 1432 ∧
      (BpfDbCtx.write sampleDbCtx).take 1427 = BpfDbCtx.fields sampleDbCtx) ∧
    clusterNameAt (BpfCluster.write ⟨Vector.replicate _ 0xC1, perconaProperties⟩) =
      Vector.replicate _ 0xC1 ∧
    offsetAt (BpfCluster.write ⟨Vector.replicate _ 0xC1, perconaProperties⟩) .mMysqlErrno =
      12768 := by
  have h : LaidOut dbCtxMembers sampleDbCtx (BpfDbCtx.fields sampleDbCtx ++ [1, 2, 3, 4, 5]) :=
    laidOut_dbCtx_iff.mpr ⟨[1, 2, 3, 4, 5], rfl, rfl⟩
  have hsize : sizeof dbCtxMembers = 1432 ∧ extent 0 dbCtxMembers = 1427 := by decide
  obtain ⟨⟨hread, hlen, htake⟩, _, hname, hoffset⟩ :=
    formats_agree h [6] (Vector.replicate _ 0xC1) percona5734
  refine ⟨⟨hread, hlen.trans hsize.1, ?_⟩, hname, hoffset .mMysqlErrno⟩
  rw [← hsize.2, htake]
  exact List.take_left' (length_fields sampleDbCtx)

end EDGuard
