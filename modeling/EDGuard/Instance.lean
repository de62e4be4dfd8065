import EDGuard.Record

/-!
# Instances and programs (`internal/db/mysql`, `internal/bpf`)

* `Instance` — a MySQL instance to be traced, with the builder methods and `GetId`.
* `Program` — a pair of probes for one server version, with the offsets it needs.
* `bpfCluster` — the value `attachInstance` stores under the pid of an instance, and `pidKey`,
  the key it stores it under.
-/

set_option autoImplicit false

namespace EDGuard

/-- `mysql.Instance`; a Go `int` is an `Int`. -/
structure Instance where
  clusterName : GoString
  pod : GoString
  containerId : GoString
  version : GoString
  pid : Int
  deriving DecidableEq

def NewMySQLTask (version : GoString) : Instance := ⟨[], [], [], version, 0⟩

namespace Instance

def WithClusterName (mt : Instance) (clusterName : GoString) : Instance :=
  { mt with clusterName := clusterName }

def WithPod (mt : Instance) (pod : GoString) : Instance := { mt with pod := pod }

def WithContainerId (mt : Instance) (containerId : GoString) : Instance :=
  { mt with containerId := containerId }

def WithPid (mt : Instance) (pid : Int) : Instance := { mt with pid := pid }

end Instance

/-- `fmt.Sprintf("%s|%s", version, containerId)`. -/
def instanceId (version containerId : GoString) : GoString := version ++ lit ['|'] ++ containerId

def Instance.GetId (mt : Instance) : GoString := instanceId mt.version mt.containerId

/-- `uint32(t.GetPid())`. -/
def Instance.pidKey (mt : Instance) : UInt32 := .ofInt mt.pid

/-- `bpf.Program`. -/
structure Program where
  attached : Bool
  version : GoString
  properties : Vector UInt64 32
  deriving DecidableEq

/-- `"percona-server:5.7.34"`. -/
def PerconaServer5734 : GoString :=
  lit ['p', 'e', 'r', 'c', 'o', 'n', 'a', '-', 's', 'e', 'r', 'v', 'e', 'r', ':', '5', '.', '7',
    '.', '3', '4']

/-- `MysqlProperties[PerconaServer5734]`; the last element is the offset of `dispatch_command`. -/
def perconaProperties : Vector UInt64 32 :=
  #v[8432, 8368, 544, 5120, 3936, 4096, 3968, 4000, 5112, 7600, 7608, 12776, 7640, 7624, 12768,
    8564, 0, 0, 0, 0, 0, 0, 0, 0, 0, 0, 0, 0, 0, 0, 0, 0x867250]

/-- The program `main` registers. -/
def percona5734 : Program := ⟨false, PerconaServer5734, perconaProperties⟩

/-- The value `attachInstance` stores in `clusters` for an instance. -/
def bpfCluster (t : Instance) (program : Program) : Cluster :=
  ⟨S264B t.clusterName, program.properties⟩

end EDGuard
