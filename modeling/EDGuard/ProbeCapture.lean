import EDGuard.ProbePrivate

/-!
# What the entry handler captures

* `statement_captured_iff` — **the statement**: the length is read from the local copy of `COM_DATA`
  on the BPF stack, which is no user memory, so it is always 0; and the text is read with the size
  of the whole array, so that nothing comes through when the array would reach behind the mapping.
* `names_in_full_iff` — **the names**: every name within its limit is printed in full, except for a
  database name longer than the array, which has the size of an address.
-/

set_option autoImplicit false

namespace EDGuard

/-! ## The helpers on memory that holds what they are asked for -/

variable {m : Memory} {p : UInt64} {s : List UInt8} {n : Nat}

theorem bpfProbeReadUser_of_readable (h : m.UserReadable p n) :
    bpfProbeReadUser m n p = m.bytes p n := if_pos h

theorem bpfProbeReadUser_of_not_readable (h : ¬ m.UserReadable p n) :
    bpfProbeReadUser m n p = Vector.replicate n 0 := if_neg h

/-- `bpf_probe_read_user` of a string into an array. -/
theorem cstr_bpfProbeReadUser (h : m.UserReadable p n) (hs : m.HoldsStr p s) :
    cstr (bpfProbeReadUser m n p).toList = s.take n := by
  rw [bpfProbeReadUser_of_readable h, hs.cstr_bytes]

/-- `bpf_probe_read_str` of a string into an array, whatever the array held before. -/
theorem cstr_bpfProbeReadStr_of_holds {dst : Vector UInt8 n} (hn : 0 < n) (hs : m.HoldsStr p s) :
    cstr (bpfProbeReadStr m dst p).toList = s.take (n - 1) := by
  have hzero : 0 ∉ s.take (n - 1) := fun h0 => hs.noNul (List.mem_of_mem_take h0)
  have hlen : (s.take (n - 1)).length = min s.length (n - 1) := by
    rw [List.length_take, Nat.min_comm]
  unfold bpfProbeReadStr
  rw [hs.strnlen (n - 1)]
  refine (cstr_of_getElem (fun i hi => ?_) ?_).trans (cstr_eq_self hzero)
  · rw [hlen] at hi
    have hlt : i < s.length := by omega
    have hb : m.byte (p + .ofNat i) = some s[i] := by
      rw [hs.byte i hlt, List.getElem?_eq_getElem hlt]
    rw [List.getElem?_take_of_lt (by omega), List.getElem?_eq_getElem hlt]
    simp only [Vector.getElem?_toList, Vector.getElem?_ofFn, hb]
    rw [dif_pos (by omega), if_pos hi]
    rfl
  · rw [hlen]
    simp only [Vector.getElem?_toList, Vector.getElem?_ofFn]
    rw [dif_pos (by omega), if_neg (Nat.lt_irrefl _), if_pos trivial]

/-- A structure of `size` bytes at `a` begins with the pointer `p`. -/
structure PointerAt (m : Memory) (size : Nat) (a p : UInt64) : Prop where
  readable : m.UserReadable a size
  value : UInt64.ofNat (m.number 8 a) = p

theorem PointerAt.readU64 {a : UInt64} (h : PointerAt m 8 a p) : EDGuard.readU64 m a = p := by
  unfold EDGuard.readU64 readNat
  rw [bpfProbeReadUser_of_readable h.readable]
  exact h.value

theorem PointerAt.field {a : UInt64} {size : Nat} (h : PointerAt m size a p) (hsize : 8 ≤ size) :
    UInt64.ofNat (leNat ((bpfProbeReadUser m size a).toList.take 8)) = p := by
  rw [bpfProbeReadUser_of_readable h.readable, m.take_bytes a hsize]
  exact h.value

/-! ## What the two handlers store and push -/

section Handlers

variable {k k' : Kernel} {cpu : Nat} {gtid : UInt64} {ctx : PtRegs} {f f' : Firing} {r r' : DbCtx}

theorem stored_eq (h : (mysql57Query k cpu gtid ctx f).2 = some r) :
    ∃ cluster, k.clusters.lookup (pidOf gtid) = some cluster ∧
      r = fillDbCtx cluster gtid ctx f (k.varHolder cpu) := by
  rcases mysql57Query_cases k cpu gtid ctx f with
    ⟨_, hq⟩ | ⟨_, _, v, hq⟩ | ⟨_, cluster, m, v, hcl, _, hq⟩
  · rw [hq] at h
    cases h
  · rw [hq] at h
    cases h
  · rw [hq] at h
    exact ⟨cluster, hcl, (Option.some.inj h).symm⟩

theorem pushed_eq (h : (mysql57QueryReturn k gtid f).2 = some r') :
    ∃ cluster d, k.threadDbCtxHash.lookup (tidOf gtid) = some d ∧
      r' = completeDbCtx cluster f d := by
  rcases mysql57QueryReturn_cases k gtid f with ⟨hq, _⟩ | ⟨cluster, d, _, hp, hq⟩
  · rw [hq] at h
    cases h
  · rw [hq] at h
    exact ⟨cluster, d, hp.1, (Option.some.inj h).symm⟩

/-! ## The statement -/

/-- `COM_DATA` at `arg` holds a pointer to a text in user memory and its length, and a NUL is behind
the text. -/
structure ComQuery (m : Memory) (arg q : UInt64) (length : UInt32) (text : List UInt8) : Prop where
  query : PointerAt m 16 arg q
  length_eq : UInt32.ofNat (m.number 4 (arg + 8)) = length
  inUser : m.InUser q (text.length + 1)
  holds : m.HoldsText q text
  text_length : text.length = length.toNat

variable {q : UInt64} {length : UInt32} {text : List UInt8}

theorem stored_queryLen (h : (mysql57Query k cpu gtid ctx f).2 = some r) : r.queryLen = 0 := by
  obtain ⟨cluster, _, rfl⟩ := stored_eq h
  show readU64 f.mem (f.queryAddr + 8) = 0
  unfold readU64
  rw [readNat_queryLen]
  rfl

theorem stored_query (h : (mysql57Query k cpu gtid ctx f).2 = some r)
    (hq : ComQuery f.mem ctx.parm2 q length text) :
    r.query = bpfProbeReadUser f.mem MAX_QUERY_LEN q := by
  obtain ⟨cluster, _, rfl⟩ := stored_eq h
  rw [← hq.query.field (by decide)]
  simp only [fillDbCtx]

/-- The text is printed if the bytes the array takes can all be read, or if there is nothing to
print. -/
theorem query_printed_iff (h : (mysql57Query k cpu gtid ctx f).2 = some r)
    (hq : ComQuery f.mem ctx.parm2 q length text) :
    r.Print.query = cstr (text.take MAX_QUERY_LEN) ↔
      f.mem.UserReadable q MAX_QUERY_LEN ∨ cstr text = [] := by
  show cstr r.query.toList = _ ↔ _
  rw [stored_query h hq]
  by_cases hr : f.mem.UserReadable q MAX_QUERY_LEN
  · rw [bpfProbeReadUser_of_readable hr, hq.holds.cstr_bytes]
    simp [hr]
  · have hnil : cstr (text.take MAX_QUERY_LEN) = [] ↔ cstr text = [] := by
      cases text with
      | nil => rfl
      | cons b text => simp [cstr, MAX_QUERY_LEN, List.takeWhile_cons]
    rw [bpfProbeReadUser_of_not_readable hr, Vector.toList_replicate, cstr_replicate_zero]
    simp only [hr, false_or]
    exact eq_comm.trans hnil

/-- **The statement is captured faithfully** only when it is empty. -/
theorem statement_captured_iff (h : (mysql57Query k cpu gtid ctx f).2 = some r)
    (hq : ComQuery f.mem ctx.parm2 q length text) :
    r.queryLen = length.toUInt64 ∧ r.Print.query = cstr (text.take MAX_QUERY_LEN) ↔
      length = 0 := by
  rw [stored_queryLen h, query_printed_iff h hq]
  constructor
  · rintro ⟨hlen, _⟩
    exact UInt32.toUInt64_inj.mp hlen.symm
  · rintro rfl
    have hnil : text = [] := List.eq_nil_of_length_eq_zero hq.text_length
    exact ⟨rfl, Or.inr (by rw [hnil]; rfl)⟩

/-- The lower half is user space and holds these bytes. -/
def lowMemory (byte : UInt64 → Option UInt8) : Memory :=
  ⟨byte, fun a => decide (a < 0x8000000000000000)⟩

theorem lowMemory_kernel (byte : UInt64 → Option UInt8) :
    (lowMemory byte).InKernel 0x8000000000000000 320 := ProbeState.halves_kernel 0 0

theorem lowMemory_kernel_query (byte : UInt64 → Option UInt8) :
    (lowMemory byte).InKernel 0x8000000000000000 16 :=
  fun i hi => lowMemory_kernel byte i (by omega)

def lowFiring (byte : UInt64 → Option UInt8) : Firing :=
  ⟨1, Vector.replicate _ 0, lowMemory byte, 0x8000000000000000, lowMemory_kernel byte,
    0x8000000000000000, lowMemory_kernel_query byte⟩

/-- The empty statement. -/
theorem statement_captured_empty :
    ∃ r, (mysql57Query ProbeState.registered.kernel 0 ProbeState.gtid17 ⟨0, 0, COM_QUERY⟩
        (lowFiring fun _ => some 0)).2 = some r ∧ r.queryLen = 0 ∧ r.Print.query = [] := by
  obtain ⟨r, hr⟩ := Option.isSome_iff_exists.mp
    (by decide : (mysql57Query ProbeState.registered.kernel 0 ProbeState.gtid17 ⟨0, 0, COM_QUERY⟩
      (lowFiring fun _ => some 0)).2.isSome = true)
  have hq : ComQuery (lowMemory fun _ => some 0) 0 0 0 [] :=
    ⟨⟨by decide, by decide⟩, by decide, by decide, ⟨by decide, rfl⟩, rfl⟩
  exact ⟨r, hr, (statement_captured_iff hr hq).mpr rfl⟩

/-- `COM_DATA` at address 0, and a statement of one letter at the end of the mapping. -/
def oneLetter (a : UInt64) : Option UInt8 :=
  if a < 18 then some (if a = 0 then 16 else if a = 8 then 1 else if a = 16 then 97 else 0)
  else none

/-- **A statement of one letter** is stored without its length. -/
theorem statement_lost :
    ¬ ∀ (k : Kernel) (cpu : Nat) (gtid : UInt64) (ctx : PtRegs) (f : Firing) (r : DbCtx)
      (q : UInt64) (length : UInt32) (text : List UInt8),
      (mysql57Query k cpu gtid ctx f).2 = some r → ComQuery f.mem ctx.parm2 q length text →
      r.queryLen = length.toUInt64 ∧ r.Print.query = cstr (text.take MAX_QUERY_LEN) := by
  intro hall
  obtain ⟨r, hr⟩ := Option.isSome_iff_exists.mp
    (by decide : (mysql57Query ProbeState.registered.kernel 0 ProbeState.gtid17 ⟨0, 0, COM_QUERY⟩
      (lowFiring oneLetter)).2.isSome = true)
  have hq : ComQuery (lowMemory oneLetter) 0 16 1 [97] :=
    ⟨⟨by decide, by decide⟩, by decide, by decide, ⟨by decide, rfl⟩, rfl⟩
  have hlen := (hall _ _ _ _ _ r 16 1 [97] hr hq).1
  rw [stored_queryLen hr] at hlen
  exact absurd hlen (by decide)

/-! ## The names -/

structure Names where
  database : List UInt8
  user : List UInt8
  privUser : List UInt8
  host : List UInt8
  ip : List UInt8

/-- The limits the source declares. -/
structure Names.Within (n : Names) : Prop where
  database : n.database.length < MAX_DATABASE_LEN
  user : n.user.length < MAX_USER_LEN
  privUser : n.privUser.length < MAX_USER_LEN
  host : n.host.length < MAX_HOST_LEN
  ip : n.ip.length < MAX_IP_LEN

/-- The `THD` leads to these strings, and what the handler reads on the way is readable. -/
structure Names.At (n : Names) (m : Memory) (cluster : Cluster) (thd : UInt64) : Prop where
  database : ∃ p, PointerAt m 16 (thd + cluster.offset .mDb) p ∧ m.UserReadable p MAX_IP_LEN ∧
    m.HoldsStr p n.database
  user : ∃ p, PointerAt m 8 (thd + cluster.offset .mUser) p ∧ m.HoldsStr p n.user
  privUser : ∃ p, PointerAt m 8 (thd + cluster.offset .mPrivUser) p ∧ m.HoldsStr p n.privUser
  host : ∃ p, PointerAt m 8 (thd + cluster.offset .mHost) p ∧ m.UserReadable p MAX_HOST_LEN ∧
    m.HoldsStr p n.host
  ip : ∃ p, PointerAt m 8 (thd + cluster.offset .mIp) p ∧ m.UserReadable p MAX_IP_LEN ∧
    m.HoldsStr p n.ip

/-- The names the log line of a record shows. -/
def Printout.names (p : Printout) : Names :=
  ⟨p.database, p.username, p.privUsername, p.host, p.ip⟩

/-- What an entry firing makes of the names. -/
theorem names_fillDbCtx {n : Names} {cluster : Cluster} {scratch : DbCtx}
    (h : n.At f.mem cluster ctx.parm1) :
    (fillDbCtx cluster gtid ctx f scratch).Print.names =
      ⟨n.database.take MAX_IP_LEN, n.user.take (MAX_USER_LEN - 1),
        n.privUser.take (MAX_USER_LEN - 1), n.host.take MAX_HOST_LEN, n.ip.take MAX_IP_LEN⟩ := by
  obtain ⟨⟨pd, hpd, hrd, hd⟩, ⟨pu, hpu, hu⟩, ⟨pp, hpp, hp⟩, ⟨ph, hph, hrh, hh⟩,
    ⟨pi, hpi, hri, hi⟩⟩ := h
  have hmax : 0 < MAX_USER_LEN := by decide
  simp only [Printout.names, DbCtx.Print, fillDbCtx]
  rw [hpd.field (by decide), hpu.readU64, hpp.readU64, hph.readU64, hpi.readU64,
    cstr_bpfProbeReadUser hrd hd, cstr_bpfProbeReadStr_of_holds hmax hu,
    cstr_bpfProbeReadStr_of_holds hmax hp, cstr_bpfProbeReadUser hrh hh,
    cstr_bpfProbeReadUser hri hi]

/-- The return handler leaves the names alone. -/
theorem names_completeDbCtx (cluster : Cluster) (f : Firing) (d : DbCtx) :
    (completeDbCtx cluster f d).Print.names = d.Print.names := rfl

/-- **The names are printed in full** when the database name is not longer than an address. -/
theorem names_in_full_iff {cluster : Cluster} {n : Names}
    (hcl : k.clusters.lookup (pidOf gtid) = some cluster)
    (h : (mysql57Query k cpu gtid ctx f).2 = some r)
    (hslot : k'.threadDbCtxHash.lookup (tidOf gtid) = some r)
    (hpush : (mysql57QueryReturn k' gtid f').2 = some r')
    (hn : n.At f.mem cluster ctx.parm1) (hw : n.Within) :
    r'.Print.names = n ↔ n.database.length ≤ MAX_IP_LEN := by
  obtain ⟨c, hc, rfl⟩ := stored_eq h
  obtain rfl : cluster = c := Option.some.inj (hcl.symm.trans hc)
  obtain ⟨_, d, hd, rfl⟩ := pushed_eq hpush
  obtain rfl := Option.some.inj (hslot.symm.trans hd)
  have hu : n.user.take (MAX_USER_LEN - 1) = n.user :=
    List.take_of_length_le (Nat.le_sub_one_of_lt hw.user)
  have hp : n.privUser.take (MAX_USER_LEN - 1) = n.privUser :=
    List.take_of_length_le (Nat.le_sub_one_of_lt hw.privUser)
  have hh : n.host.take MAX_HOST_LEN = n.host := List.take_of_length_le hw.host.le
  have hi : n.ip.take MAX_IP_LEN = n.ip := List.take_of_length_le hw.ip.le
  rw [names_completeDbCtx, names_fillDbCtx hn, hu, hp, hh, hi, ← List.take_eq_self_iff]
  constructor
  · intro he
    exact congrArg Names.database he
  · intro he
    rw [he]

/-- The `THD` is at address 0; the database name at address 32 has `n` letters, the other names are
empty. -/
def longName (n : Nat) (a : UInt64) : Option UInt8 :=
  some (if a = 0 then 32 else if a = 16 then 24 else if 32 ≤ a ∧ a < 32 + .ofNat n then 97 else 0)

def longNames (n : Nat) : Names := ⟨List.replicate n 97, [], [], [], []⟩

def nameCluster : Cluster :=
  ⟨Vector.replicate _ 0, Vector.ofFn fun i => if i = FieldOffset.mDb.idx then 0 else 16⟩

theorem longNames_within {n : Nat} (hn : n < MAX_DATABASE_LEN) : (longNames n).Within :=
  ⟨by simpa [longNames] using hn, (by decide : 0 < MAX_USER_LEN), (by decide : 0 < MAX_USER_LEN),
    (by decide : 0 < MAX_HOST_LEN), (by decide : 0 < MAX_IP_LEN)⟩

theorem longNames_at {n : Nat} (hn : n = MAX_IP_LEN ∨ n = MAX_IP_LEN + 1) :
    (longNames n).At (lowMemory (longName n)) nameCluster 0 := by
  rcases hn with rfl | rfl <;>
    exact ⟨⟨32, ⟨by decide, by decide⟩, by decide, ⟨by decide, by decide⟩, by decide⟩,
      ⟨24, ⟨by decide, by decide⟩, ⟨by decide, by decide⟩, by decide⟩,
      ⟨24, ⟨by decide, by decide⟩, ⟨by decide, by decide⟩, by decide⟩,
      ⟨24, ⟨by decide, by decide⟩, by decide, ⟨by decide, by decide⟩, by decide⟩,
      24, ⟨by decide, by decide⟩, by decide, ⟨by decide, by decide⟩, by decide⟩

/-- Process 1 is registered with the offsets of these names. -/
def named : Kernel := ((ProbeState.step .init (.setCluster 1 nameCluster)).getD .init).kernel

/-- The maps after the entry firing of a call with a database name of `n` letters. -/
def namedEntry (n : Nat) : Kernel × Option DbCtx :=
  mysql57Query named 0 ProbeState.gtid17 ⟨0, 0, COM_QUERY⟩ (lowFiring (longName n))

theorem namedEntry_pushed (n : Nat) : ∃ r r', (namedEntry n).2 = some r ∧
    (namedEntry n).1.threadDbCtxHash.lookup 7 = some r ∧
    (mysql57QueryReturn (namedEntry n).1 ProbeState.gtid17 (lowFiring (longName n))).2 =
      some r' :=
  ⟨_, _, rfl, rfl, rfl⟩

/-- A database name that fills the array. -/
theorem names_in_full_iff_filled : ∃ r', (mysql57QueryReturn (namedEntry MAX_IP_LEN).1
    ProbeState.gtid17 (lowFiring (longName MAX_IP_LEN))).2 = some r' ∧
    r'.Print.names = longNames MAX_IP_LEN := by
  obtain ⟨r, r', hr, hslot, hpush⟩ := namedEntry_pushed MAX_IP_LEN
  have hcl : named.clusters.lookup 1 = some nameCluster := rfl
  exact ⟨r', hpush, (names_in_full_iff hcl hr hslot hpush
    (longNames_at (Or.inl rfl)) (longNames_within (by decide))).mpr (by decide)⟩

/-- **A longer database name is cut**, although its limit is `MAX_DATABASE_LEN`. -/
theorem long_database_cut :
    ¬ ∀ (k k' : Kernel) (cpu : Nat) (gtid : UInt64) (ctx : PtRegs) (f f' : Firing)
      (cluster : Cluster) (r r' : DbCtx) (n : Names),
      k.clusters.lookup (pidOf gtid) = some cluster →
      (mysql57Query k cpu gtid ctx f).2 = some r →
      k'.threadDbCtxHash.lookup (tidOf gtid) = some r →
      (mysql57QueryReturn k' gtid f').2 = some r' →
      n.At f.mem cluster ctx.parm1 → n.Within → r'.Print.names = n := by
  intro hall
  have hat := longNames_at (n := MAX_IP_LEN + 1) (Or.inr rfl)
  obtain ⟨r, r', hr, hslot, hpush⟩ := namedEntry_pushed (MAX_IP_LEN + 1)
  have hfull := hall named _ 0 _ _ _ _ nameCluster r r' _ rfl hr hslot hpush hat
    (longNames_within (by decide))
  obtain ⟨c, hc, rfl⟩ := stored_eq hr
  obtain rfl : nameCluster = c := Option.some.inj hc
  obtain ⟨_, d, hd, rfl⟩ := pushed_eq hpush
  obtain rfl := Option.some.inj (hslot.symm.trans hd)
  rw [names_completeDbCtx, names_fillDbCtx hat] at hfull
  have hlen := congrArg (fun n : Names => n.database.length) hfull
  simp [longNames, MAX_IP_LEN] at hlen

end Handlers

end EDGuard
