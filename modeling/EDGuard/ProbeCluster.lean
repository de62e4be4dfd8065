import EDGuard.ProbePairing
import EDGuard.Instance

/-!
# The cluster name of a printed record

The name travels from `attachInstance` through `clusters` to the entry handler, which copies it
with `bpf_probe_read_user`.  The source of that copy is a map value in kernel memory, so the copy
fails and the record carries 64 zero bytes.

* `printed_cluster_eq_nil` — the printed cluster name is empty in every run, for every record.
* `printed_cluster_iff` — it is the first 64 bytes of the registered name exactly when that name
  is empty.
-/

set_option autoImplicit false

namespace EDGuard

namespace ProbeState

/-- **No record carries a cluster name.** -/
theorem printed_cluster_eq_nil {as : List Action} {s : ProbeState}
    (h : Trace.run step init as = some s) {p : Push} (hp : p ∈ s.pushes) :
    p.record.Print.cluster = [] := by
  have hi := inv_run h
  obtain ⟨c, hc, _, _, _, cluster, _, hrec⟩ := hi.push_ok p hp
  have hname : p.record.clusterName = Vector.replicate 64 0 := by
    rw [hrec]
    exact (hi.cap_ok c hc).1.clusterName
  show B642S p.record.clusterName = []
  rw [hname, B642S_eq, Vector.toList_replicate, cstr_replicate_zero]

/-- **Attribution.** A record pushed while the registration of `t` is in `clusters` prints the
first 64 bytes of the cluster name of `t` if and only if that name is empty. -/
theorem printed_cluster_iff (as : List Action) (s : ProbeState)
    (h : Trace.run step init as = some s) (t : Instance) (program : Program) (p : Push)
    (hp : p ∈ s.pushes) (_hreg : p.cluster = some (bpfCluster t program)) :
    p.record.Print.cluster = t.clusterName.take 64 ↔ t.clusterName = [] := by
  rw [printed_cluster_eq_nil h hp]
  constructor
  · intro hnil
    have h64 := List.take_eq_nil_iff.mp hnil.symm
    exact h64.resolve_left (by omega)
  · intro hnil
    rw [hnil]
    rfl

/-- An instance of a cluster named `m`. -/
def instanceM : Instance :=
  (((NewMySQLTask PerconaServer5734).WithClusterName (lit ['m'])).WithPid 1)

/-- `instanceM` is registered and makes one `COM_QUERY` call. -/
def namedRun : List Action :=
  [.setCluster instanceM.pidKey (bpfCluster instanceM percona5734),
   .enter gtid17 ⟨0, 0, COM_QUERY⟩, .entry 7 0 (firingAt 1), .ret 7 (firingAt 2), .leave 7]

theorem namedRun_pushes : ∃ s p, Trace.run step init namedRun = some s ∧ p ∈ s.pushes ∧
    p.cluster = some (bpfCluster instanceM percona5734) := by
  have hrun : (Trace.run step init namedRun).map (fun s => s.pushes.map Push.cluster) =
      some [some (bpfCluster instanceM percona5734)] := by decide +kernel
  obtain ⟨s, hs, hobs⟩ := Option.map_eq_some_iff.mp hrun
  have hmem : some (bpfCluster instanceM percona5734) ∈ s.pushes.map Push.cluster := by
    rw [hobs]
    exact List.mem_singleton_self _
  obtain ⟨p, hp, hcl⟩ := List.mem_map.mp hmem
  exact ⟨s, p, hs, hp, hcl⟩

theorem printed_cluster_instanceM : ∃ s p, Trace.run step init namedRun = some s ∧
    p ∈ s.pushes ∧ p.record.Print.cluster ≠ instanceM.clusterName.take 64 := by
  obtain ⟨s, p, hs, hp, hcl⟩ := namedRun_pushes
  refine ⟨s, p, hs, hp, fun heq => ?_⟩
  have hnil := (printed_cluster_iff namedRun s hs instanceM percona5734 p hp hcl).mp heq
  exact absurd hnil (by decide)

/-- **The name is lost** for an instance whose name has no NUL byte. -/
theorem cluster_name_lost :
    ¬ ∀ (as : List Action) (s : ProbeState), Trace.run step init as = some s →
      ∀ (t : Instance) (program : Program), (0 : UInt8) ∉ t.clusterName →
      ∀ p ∈ s.pushes, p.cluster = some (bpfCluster t program) →
        p.record.Print.cluster = t.clusterName.take 64 := by
  intro hall
  obtain ⟨s, p, hs, hp, hcl⟩ := namedRun_pushes
  have hname := hall namedRun s hs instanceM percona5734 (by decide) p hp hcl
  rw [printed_cluster_eq_nil hs hp] at hname
  exact absurd hname (by decide)

end ProbeState

end EDGuard
