import EDGuard.Tool

/-!
# The records both sides share

`struct db_ctx` and `struct cluster` of `mysqld_probe.c`, which are `BpfDbCtx` and `BpfCluster`
of `internal/generate/types.go` on the Go side, and `BpfDbCtx.Print`.

`Printout` holds what `Print` writes: the numeric fields as they are, every byte array as the
text before its first NUL (`unix.ByteSliceToString`, and `B642S` for the cluster name).
-/

set_option autoImplicit false

namespace EDGuard

/-- `enum field_offset`. -/
inductive FieldOffset where
  | mThreadId
  | mQueryId
  | mDb
  | tvSec
  | mUser
  | mPrivUser
  | mHost
  | mIp
  | peerPort
  | previousFoundRows
  | currentFoundRows
  | mAffectedRows
  | mSentRowCount
  | mRowCountFunc
  | mMysqlErrno
  | killed
  deriving DecidableEq, Repr

/-- The value of the enumerator, an index into `offsets`. -/
def FieldOffset.idx (f : FieldOffset) : Fin 32 := ⟨f.ctorIdx, by cases f <;> decide⟩

def MAX_COMM_LEN : Nat := 16
def MAX_CLUSTER_NAME_LEN : Nat := 64
def MAX_USER_LEN : Nat := 32
def MAX_HOST_LEN : Nat := 64
def MAX_IP_LEN : Nat := 46
def MAX_DATABASE_LEN : Nat := 64
def MAX_QUERY_LEN : Nat := 1024

/-- `struct db_ctx`; `database` has `MAX_IP_LEN` bytes in the source too. -/
structure DbCtx where
  gtid : UInt64
  costTime : UInt64
  thdAddr : Int64
  timestamp : UInt64
  comm : Vector UInt8 MAX_COMM_LEN
  clusterName : Vector UInt8 MAX_CLUSTER_NAME_LEN
  user : Vector UInt8 MAX_USER_LEN
  privUser : Vector UInt8 MAX_USER_LEN
  host : Vector UInt8 MAX_HOST_LEN
  ipaddr : Vector UInt8 MAX_IP_LEN
  database : Vector UInt8 MAX_IP_LEN
  threadId : UInt32
  queryId : Int64
  queryLen : UInt64
  query : Vector UInt8 MAX_QUERY_LEN
  previousFoundRows : UInt64
  currentFoundRows : UInt64
  affectedRows : UInt64
  sentRowCount : UInt64
  rowCountFunc : UInt64
  sqlErrno : UInt32
  killed : Int32
  peerPort : UInt16
  processed : Int8

/-- The zero value, of a Go `var dbCtx generate.BpfDbCtx` and of a fresh map element. -/
def DbCtx.zero : DbCtx where
  gtid := 0
  costTime := 0
  thdAddr := 0
  timestamp := 0
  comm := Vector.replicate _ 0
  clusterName := Vector.replicate _ 0
  user := Vector.replicate _ 0
  privUser := Vector.replicate _ 0
  host := Vector.replicate _ 0
  ipaddr := Vector.replicate _ 0
  database := Vector.replicate _ 0
  threadId := 0
  queryId := 0
  queryLen := 0
  query := Vector.replicate _ 0
  previousFoundRows := 0
  currentFoundRows := 0
  affectedRows := 0
  sentRowCount := 0
  rowCountFunc := 0
  sqlErrno := 0
  killed := 0
  peerPort := 0
  processed := 0

/-- `struct cluster`. -/
structure Cluster where
  clusterName : Vector UInt8 64
  offsets : Vector UInt64 32
  deriving DecidableEq

/-- `cluster->offsets[f]`. -/
def Cluster.offset (c : Cluster) (f : FieldOffset) : UInt64 := c.offsets[f.idx]

/-- What `BpfDbCtx.Print` logs, line by line. -/
structure Printout where
  date : Int64
  cluster : GoString
  process : GoString
  processId : UInt64
  pthreadId : UInt64
  host : GoString
  ip : GoString
  clientPort : UInt16
  threadId : UInt32
  database : GoString
  username : GoString
  privUsername : GoString
  queryId : Int64
  query : GoString
  queryLen : UInt64
  previousFoundRows : UInt64
  currentFoundRows : UInt64
  affectedRows : UInt64
  sentRowCount : UInt64
  rowCountFunc : UInt64
  sqlErrno : UInt32
  killed : Int32
  costTime : UInt64
  deriving DecidableEq

/-- `BpfDbCtx.Print`. -/
def DbCtx.Print (dbctx : DbCtx) : Printout where
  date := dbctx.timestamp.toInt64
  cluster := B642S dbctx.clusterName
  process := cstr dbctx.comm.toList
  processId := dbctx.gtid >>> 32
  pthreadId := dbctx.gtid <<< 32 >>> 32
  host := cstr dbctx.host.toList
  ip := cstr dbctx.ipaddr.toList
  clientPort := dbctx.peerPort
  threadId := dbctx.threadId
  database := cstr dbctx.database.toList
  username := cstr dbctx.user.toList
  privUsername := cstr dbctx.privUser.toList
  queryId := dbctx.queryId
  query := cstr dbctx.query.toList
  queryLen := dbctx.queryLen
  previousFoundRows := dbctx.previousFoundRows
  currentFoundRows := dbctx.currentFoundRows
  affectedRows := dbctx.affectedRows
  sentRowCount := dbctx.sentRowCount
  rowCountFunc := dbctx.rowCountFunc
  sqlErrno := dbctx.sqlErrno
  killed := dbctx.killed
  costTime := dbctx.costTime

end EDGuard
