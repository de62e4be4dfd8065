import EDGuard.RunnerStop

/-!
# Attaching a program

`attachInstance` reads `Attached`, the attach goroutine sets it after its three calls; a failed
goroutine is not started again.

* `oneAttached_iff` — a program has at most one live attach goroutine in every state if and only if
  `attachInstance` never comes to its check while an earlier goroutine of the program is on its way
  to `Attached`.
* `attached_twice` — two containers that show up before the first attachment completes.
* `allMonitored_iff` — every registered instance has an attached program or a goroutine on its way
  if and only if no attachment fails as the last one of a program with a registered instance.
* `unmonitored_instance` — one failed attachment.
-/

set_option autoImplicit false

namespace EDGuard

/-- The goroutine has not come to its `wg.Done`. -/
def Attacher.live (a : Attacher) : Bool := decide (a.pc ≠ .done)

/-- The goroutine holds both probes. -/
def Attacher.holdsBoth (a : Attacher) : Bool := decide (a.pc = .mark ∨ a.pc = .wait)

/-- The goroutine is live and has not failed. -/
def Attacher.healthy (a : Attacher) : Bool := decide (a.pc ≠ .done ∧ a.pc ≠ .sendErr)

/-- No call of an attach goroutine leads to its wait directly. -/
theorem AttachPc.probe_ne_wait {pc : AttachPc} {ok : Bool} : pc.probe ok ≠ some .wait := by
  cases pc <;> cases ok <;> simp [AttachPc.probe]

namespace Runner

variable {ι : Type}

/-! ## At most one goroutine -/

/-- How many attach goroutines of a version have a property. -/
def countOf (p : Attacher → Bool) (s : Runner ι) (v : GoString) : Nat :=
  s.attachers.countP fun a => decide (a.version = v) && p a

/-- No program has two live attach goroutines, or two pairs of probes. -/
def OneAttached (s : Runner ι) : Prop :=
  ∀ v, countOf Attacher.live s v ≤ 1 ∧ countOf Attacher.holdsBoth s v ≤ 1

theorem countOf_holdsBoth_le (s : Runner ι) (v : GoString) :
    countOf Attacher.holdsBoth s v ≤ countOf Attacher.live s v := by
  apply List.countP_mono_left
  intro a _ h
  simp only [Bool.and_eq_true, Attacher.holdsBoth, Attacher.live, decide_eq_true_eq] at h ⊢
  refine ⟨h.1, fun hd => ?_⟩
  rcases h.2 with hp | hp <;> rw [hd] at hp <;> cases hp

theorem oneAttached_iff_live {s : Runner ι} :
    s.OneAttached ↔ ∀ v, countOf Attacher.live s v ≤ 1 :=
  ⟨fun h v => (h v).1, fun h v => ⟨h v, (countOf_holdsBoth_le s v).trans (h v)⟩⟩

/-- When `attachInstance` comes to its check, every goroutine that was started for the program
before is past `program.Attached = true`, or has ended. -/
def PastMark (s : Runner ι) : Action ι → Prop
  | .spawn => match s.main with
    | .attachSpawn t => ∀ a ∈ s.attachers, a.version = t.version → a.pc = .wait ∨ a.pc = .done
    | _ => True
  | _ => True

/-- **What `Attached` says**: the goroutine that set it is waiting or has ended, and so is every
other one of the program. -/
structure Flagged (s : Runner ι) : Prop where
  known : ∀ a ∈ s.attachers, (s.bpfPrograms a.version).isSome
  waiting : ∀ a ∈ s.attachers, a.pc = .wait →
    (s.bpfPrograms a.version).any (fun p => p.attached) = true
  attached : ∀ a ∈ s.attachers, (s.bpfPrograms a.version).any (fun p => p.attached) = true →
    a.pc = .wait ∨ a.pc = .done

/-- An attach goroutine that goes on is still one of its version. -/
theorem countOf_set_le {s t : Runner ι} {k : Nat} {a b : Attacher}
    (ha : s.attachers[k]? = some a) (hv : b.version = a.version) (hlive : a.live = true)
    (hatt : t.attachers = s.attachers.set k b) (v : GoString) :
    countOf Attacher.live t v ≤ countOf Attacher.live s v := by
  obtain ⟨hk, rfl⟩ := List.getElem?_eq_some_iff.mp ha
  unfold countOf
  rw [hatt, List.countP_set hk, hv, hlive]
  by_cases hver : s.attachers[k].version = v
  · have hpos : 0 < s.attachers.countP fun a => decide (a.version = v) && a.live :=
      List.countP_pos_iff.mpr ⟨_, List.getElem_mem hk, by simp [hver, hlive]⟩
    simp only [hver, decide_true, Bool.true_and, ↓reduceIte]
    split <;> omega
  · simp [hver]

theorem countOf_congr {s t : Runner ι} (hatt : t.attachers = s.attachers)
    (p : Attacher → Bool) (v : GoString) : countOf p t v = countOf p s v := by
  unfold countOf
  rw [hatt]

/-- The goroutine that `attachInstance` starts. -/
theorem countOf_spawn {s t : Runner ι} {x : Instance}
    (hatt : t.attachers = s.attachers ++ [⟨x.pid, x.version, .open⟩]) (v : GoString) :
    countOf Attacher.live t v = countOf Attacher.live s v + if x.version = v then 1 else 0 := by
  unfold countOf
  rw [hatt, List.countP_append, List.countP_singleton]
  simp [Attacher.live]

variable [DecidableEq ι]

omit [DecidableEq ι] in
/-- While one goroutine of a program is live, all others have ended. -/
theorem done_of_ne {s : Runner ι} {k j : Nat} {a b : Attacher} (hs : s.OneAttached)
    (ha : s.attachers[k]? = some a) (hlive : a.live = true) (hb : s.attachers[j]? = some b)
    (hne : k ≠ j) (hv : b.version = a.version) : b.pc = .done := by
  obtain ⟨hk, rfl⟩ := List.getElem?_eq_some_iff.mp ha
  by_contra hpc
  -- without goroutine `k` none is left
  have hrest : countOf Attacher.live
      (s.setAttacher k { s.attachers[k] with pc := .done }) s.attachers[k].version = 0 := by
    have hone := (hs s.attachers[k].version).1
    unfold countOf at hone ⊢
    show (s.attachers.set k _).countP _ = 0
    rw [List.countP_set hk, if_pos (by simp [hlive]), if_neg (by simp [Attacher.live])]
    omega
  have hmem : b ∈ (s.setAttacher k { s.attachers[k] with pc := .done }).attachers :=
    List.mem_of_getElem? ((List.getElem?_set_ne hne).trans hb)
  have hno := List.countP_eq_zero.mp hrest b hmem
  simp [hv, Attacher.live, hpc] at hno

omit [DecidableEq ι] in
theorem flagged_init (programs : List Program) : (init programs : Runner ι).Flagged :=
  ⟨fun _ ha => (by cases ha), fun _ ha => (by cases ha), fun _ ha => by cases ha⟩

omit [DecidableEq ι] in
/-- An attach goroutine goes on. -/
theorem Flagged.set {s t : Runner ι} {k : Nat} {a b : Attacher} (hs : s.Flagged)
    (ha : s.attachers[k]? = some a) (hv : b.version = a.version)
    (hwait : b.pc = .wait → a.pc = .wait)
    (hpast : a.pc = .wait ∨ a.pc = .done → b.pc = .wait ∨ b.pc = .done)
    (hprog : t.bpfPrograms = s.bpfPrograms) (hatt : t.attachers = s.attachers.set k b) :
    t.Flagged := by
  have hmem : a ∈ s.attachers := List.mem_of_getElem? ha
  have hcases : ∀ x ∈ t.attachers, x ∈ s.attachers ∨ x = b := fun x hx => by
    rw [hatt] at hx
    exact List.mem_or_eq_of_mem_set hx
  refine ⟨fun x hx => ?_, fun x hx hw => ?_, fun x hx hp => ?_⟩
  · rw [hprog]
    rcases hcases x hx with hx | rfl
    · exact hs.known x hx
    · rw [hv]
      exact hs.known a hmem
  · rw [hprog]
    rcases hcases x hx with hx | rfl
    · exact hs.waiting x hx hw
    · rw [hv]
      exact hs.waiting a hmem (hwait hw)
  · rw [hprog] at hp
    rcases hcases x hx with hx | rfl
    · exact hs.attached x hx hp
    · rw [hv] at hp
      exact hpast (hs.attached a hmem hp)

omit [DecidableEq ι] in
/-- **The goroutine of a program sets `Attached`**: it is the only live one. -/
theorem Flagged.mark {s t : Runner ι} {k : Nat} {a : Attacher} (hs : s.Flagged)
    (hone : s.OneAttached) (ha : s.attachers[k]? = some a) (hpc : a.pc = .mark)
    (hprog : t.bpfPrograms = Function.update s.bpfPrograms a.version
      ((s.bpfPrograms a.version).map fun p => { p with attached := true }))
    (hatt : t.attachers = s.attachers.set k { a with pc := .wait }) : t.Flagged := by
  have hlive : a.live = true := by simp [Attacher.live, hpc]
  have hset : ∀ x ∈ t.attachers, x.version = a.version → x.pc = .wait ∨ x.pc = .done := by
    intro x hx hv
    obtain ⟨j, hj⟩ := List.mem_iff_getElem?.mp (hatt ▸ hx)
    rcases eq_or_ne k j with rfl | hne
    · rw [List.getElem?_set_self (List.getElem?_eq_some_iff.mp ha).1] at hj
      cases hj
      exact Or.inl rfl
    · rw [List.getElem?_set_ne hne] at hj
      exact Or.inr (done_of_ne hone ha hlive hj hne hv)
  have hold : ∀ x ∈ t.attachers, x.version ≠ a.version → x ∈ s.attachers := by
    intro x hx hv
    rcases List.mem_or_eq_of_mem_set (hatt ▸ hx) with hx | rfl
    · exact hx
    · exact absurd rfl hv
  obtain ⟨p, hp⟩ := Option.isSome_iff_exists.mp (hs.known a (List.mem_of_getElem? ha))
  have hself : t.bpfPrograms a.version = some { p with attached := true } := by
    rw [hprog, Function.update_self, hp]
    rfl
  have hother : ∀ v, v ≠ a.version → t.bpfPrograms v = s.bpfPrograms v := fun v hv => by
    rw [hprog, Function.update_of_ne hv]
  refine ⟨fun x hx => ?_, fun x hx hw => ?_, fun x hx hf => ?_⟩ <;>
    by_cases hv : x.version = a.version
  · rw [hv, hself]
    rfl
  · rw [hother _ hv]
    exact hs.known x (hold x hx hv)
  · rw [hv, hself]
    rfl
  · rw [hother _ hv]
    exact hs.waiting x (hold x hx hv) hw
  · exact hset x hx hv
  · rw [hother _ hv] at hf
    exact hs.attached x (hold x hx hv) hf

theorem flagged_step {s t : Runner ι} {a : Action ι} (hs : s.Flagged) (hone : s.OneAttached)
    (h : Step s a t) : t.Flagged := by
  cases h with
  | @spawn x hm =>
    cases hnew : (s.bpfPrograms x.version).any fun p => !p.attached with
    | false => exact ⟨hs.known, hs.waiting, hs.attached⟩
    | true =>
      obtain ⟨p, hp, hno⟩ := (Option.any_eq_true ..).mp hnew
      refine ⟨fun a ha => ?_, fun a ha hw => ?_, fun a ha hf => ?_⟩ <;>
        rcases List.mem_append.mp (show a ∈ s.attachers ++ [⟨x.pid, x.version, .open⟩] from ha) with
          ha | ha
      · exact hs.known a ha
      · obtain rfl := List.mem_singleton.mp ha
        exact Option.isSome_iff_exists.mpr ⟨p, hp⟩
      · exact hs.waiting a ha hw
      · obtain rfl := List.mem_singleton.mp ha
        cases hw
      · exact hs.attached a ha hf
      · obtain rfl := List.mem_singleton.mp ha
        rw [show ({ s with } : Runner ι).bpfPrograms x.version = some p from hp] at hf
        rw [show p.attached = true from hf] at hno
        cases hno
  | @recvAttachErr k x _ hb _ =>
    exact hs.set (b := { x with pc := .done }) hb rfl (fun hw => by cases hw)
      (fun _ => Or.inr rfl) rfl rfl
  | @probe k x ok pc hb hprobe =>
    refine hs.set (b := { x with pc := pc }) hb rfl (fun hw => ?_) (fun hpast => ?_) rfl rfl
    · rw [show pc = .wait from hw] at hprobe
      exact absurd hprobe AttachPc.probe_ne_wait
    · rcases hpast with hw | hd
      · rw [hw] at hprobe
        cases hprobe
      · exact absurd hd (AttachPc.probe_ne_done hprobe)
  | mark hb hpc => exact hs.mark hone hb hpc rfl rfl
  | @unattach k x hb _ _ =>
    exact hs.set (b := { x with pc := .done }) hb rfl (fun hw => by cases hw)
      (fun _ => Or.inr rfl) rfl rfl
  | _ => exact ⟨hs.known, hs.waiting, hs.attached⟩

/-- A step keeps the goroutines apart exactly if it meets the condition. -/
theorem pastMark_iff {s t : Runner ι} {a : Action ι} (hf : s.Flagged) (hs : s.OneAttached)
    (h : Step s a t) : s.PastMark a ↔ t.OneAttached := by
  have hset : ∀ {k : Nat} {b : Attacher} {pc : AttachPc} {u : Runner ι},
      s.attachers[k]? = some b → b.pc ≠ .done →
      u.attachers = s.attachers.set k { b with pc := pc } → u.OneAttached := by
    intro k b pc u hb hpc hu
    exact oneAttached_iff_live.mpr fun v => (countOf_set_le hb (b := { b with pc := pc }) rfl
      (by simpa [Attacher.live] using hpc) hu v).trans (hs v).1
  cases h with
  | @spawn x hm =>
    simp only [PastMark, hm]
    cases hnew : (s.bpfPrograms x.version).any fun p => !p.attached with
    | false =>
      -- the program is attached, and no goroutine is started
      refine iff_of_true (fun a ha hv => hf.attached a ha ?_) (oneAttached_iff_live.mpr fun v => ?_)
      · obtain ⟨p, hp⟩ := Option.isSome_iff_exists.mp (hf.known a ha)
        rw [← hv, hp] at hnew
        rw [hp]
        simpa using hnew
      · exact (countOf_congr (s := s) (by simp) _ v).trans_le (hs v).1
    | true =>
      have hcount := fun v => countOf_spawn (s := s) (x := x) (t := { s with
        mu := none
        main := .select
        attachers := if true = true then
          s.attachers ++ [⟨x.pid, x.version, .open⟩] else s.attachers }) (by simp) v
      have hunset : (s.bpfPrograms x.version).any (fun p => p.attached) ≠ true := by
        obtain ⟨p, hp, hno⟩ := (Option.any_eq_true ..).mp hnew
        rw [hp]
        simpa using hno
      rw [oneAttached_iff_live]
      constructor
      · intro hg v
        rw [hcount]
        split
        · rename_i hv
          subst hv
          -- nobody waits for a program that is not attached
          have hzero : countOf Attacher.live s x.version = 0 := by
            refine List.countP_eq_zero.mpr fun a ha hboth => ?_
            simp only [Bool.and_eq_true, decide_eq_true_eq, Attacher.live] at hboth
            rcases hg a ha hboth.1 with hw | hd
            · exact hunset (hboth.1 ▸ hf.waiting a ha hw)
            · exact hboth.2 hd
          omega
        · exact (hs v).1
      · intro ht a ha hv
        have hone := ht x.version
        rw [hcount, if_pos rfl] at hone
        have hzero : countOf Attacher.live s x.version = 0 := by omega
        have hno := List.countP_eq_zero.mp hzero a ha
        simp only [hv, decide_true, Bool.true_and, Attacher.live, decide_eq_true_eq,
          not_not] at hno
        exact Or.inr hno
  | recvAttachErr _ hb hpc =>
    exact iff_of_true trivial (hset hb (by rw [hpc]; simp) rfl)
  | probe hb hpc => exact iff_of_true trivial (hset hb (AttachPc.probe_ne_done hpc) rfl)
  | mark hb hpc => exact iff_of_true trivial (hset hb (by rw [hpc]; simp) rfl)
  | unattach hb hpc _ => exact iff_of_true trivial (hset hb (by rw [hpc]; simp) rfl)
  | _ => exact iff_of_true trivial hs

/-- **At most one attach goroutine.** In every run, in every state a program has at most one live
attach goroutine and at most one pair of probes, if and only if every step meets `PastMark`. -/
theorem oneAttached_iff (programs : List Program) (as : List (Action ι)) (s : Runner ι)
    (h : Trace.run step (init programs) as = some s) :
    (∀ bs cs u, as = bs ++ cs → Trace.run step (init programs) bs = some u → u.OneAttached) ↔
      Trace.Meets step PastMark (init programs) as := by
  have hinit : (init programs : Runner ι).OneAttached :=
    oneAttached_iff_live.mpr fun v => Nat.zero_le 1
  rw [Trace.meets_iff_forall_within (I := Flagged) (P := OneAttached)
    (fun _ _ _ hf hs ht => flagged_step hf hs (step_iff.mp ht).2) ?_ (flagged_init programs) hinit
    h]
  exact fun u a v hf hu hv => pastMark_iff hf hu (step_iff.mp hv).2

omit [DecidableEq ι] in
instance (s : Runner ι) : ∀ a, Decidable (s.PastMark a)
  | .spawn => match h : s.main with
    | .attachSpawn t => decidable_of_iff
        (∀ a ∈ s.attachers, a.version = t.version → a.pc = .wait ∨ a.pc = .done)
        (by simp only [PastMark, h])
    | .select | .attachLock _ | .attachBody _ | .attachUpdate .. | .attachErr _ | .deferCancel
    | .deferWait | .deferCloseCh | .deferCloseErr | .exited => isTrue (by simp [PastMark, h])
  | .deliver .. | .iterate _ | .lookup .. | .child .. | .recvCh _ | .recvErr _ | .lockAttach
  | .store | .update _ | .lockDetach _ | .delete .. | .probe .. | .mark _ | .unattach _ | .cancel
  | .leave | .unwind | .sendClosed _ => isTrue trivial

/-- The second pod shows up when the program is attached. -/
def attachedOnce : List (Action Unit) :=
  registerPod pod9f 10 ++ attachActs ++ registerPod pod8e 11

theorem oneAttached_attachedOnce : ∃ s : Runner Unit,
    Trace.run step (init [percona5734]) attachedOnce = some s ∧ s.attachers.length = 1 ∧
      s.OneAttached := by
  have hobs : (Trace.run step (init [percona5734]) attachedOnce).map
      (fun s => s.attachers.length) = some 1 := by decide +kernel
  obtain ⟨s, hs, hlen⟩ := Option.map_eq_some_iff.mp hobs
  have hg : Trace.Meets step PastMark (init [percona5734]) attachedOnce := by decide +kernel
  exact ⟨s, hs, hlen,
    (oneAttached_iff _ attachedOnce s hs).mpr hg attachedOnce [] s (by simp) hs⟩

/-- The second pod shows up while the first attachment is under way; both complete. -/
def attachedTwice : List (Action Unit) :=
  registerPod pod9f 10 ++ registerPod pod8e 11 ++ attachActs ++
    [.probe 1 true, .probe 1 true, .probe 1 true, .mark 1]

/-- **Two pairs of probes of one program.** -/
theorem attached_twice :
    ¬ ∀ (as : List (Action Unit)) (s : Runner Unit),
      Trace.run step (init [percona5734]) as = some s → s.OneAttached := by
  intro hall
  have hobs : (Trace.run step (init [percona5734]) attachedTwice).map
      (fun s => countOf Attacher.holdsBoth s PerconaServer5734) = some 2 := by decide +kernel
  obtain ⟨s, hs, heq⟩ := Option.map_eq_some_iff.mp hobs
  have hone := (hall _ s hs PerconaServer5734).2
  rw [heq] at hone
  omega

/-! ## Registered instances -/

/-- The program is attached and held, or a goroutine that has not failed is on its way. -/
def Monitored (s : Runner ι) (v : GoString) : Prop :=
  (∃ p, s.bpfPrograms v = some p ∧ p.attached = true ∧
    ∃ a ∈ s.attachers, a.version = v ∧ a.holdsBoth = true) ∨
  ∃ a ∈ s.attachers, a.version = v ∧ a.healthy = true

/-- Before the context is cancelled, the program of every stored instance whose `attachInstance`
has returned is monitored. -/
def AllMonitored (s : Runner ι) : Prop :=
  s.ctxDone = false → ∀ id x, s.instances id = some x → s.main.stored ≠ some x →
    s.Monitored x.version

omit [DecidableEq ι] in
theorem monitored_iff {s : Runner ι} {v : GoString} :
    s.Monitored v ↔ ∃ a ∈ s.attachers, a.version = v ∧ a.healthy = true := by
  constructor
  · rintro (⟨p, _, _, a, ha, hv, hb⟩ | h)
    · refine ⟨a, ha, hv, ?_⟩
      simp only [Attacher.holdsBoth, decide_eq_true_eq] at hb
      rcases hb with hb | hb <;> simp [Attacher.healthy, hb]
    · exact h
  · exact Or.inr

/-- An attachment that fails before the context is cancelled is not the last healthy one of its
program, or no instance of the program is registered. -/
def NotLastFailure (s : Runner ι) : Action ι → Prop
  | .probe k false => s.ctxDone = false → ∀ a, s.attachers[k]? = some a →
      (∃ j b, j ≠ k ∧ s.attachers[j]? = some b ∧ b.version = a.version ∧ b.healthy = true) ∨
      ∀ id x, s.instances id = some x → x.version = a.version → s.main.stored = some x
  | _ => True

/-- A program that is `Attached` has a goroutine that holds it. -/
structure Holding (s : Runner ι) : Prop where
  left : s.LeftDone
  internal : s.internalDone = true → s.ctxDone = true
  known : s.Known
  attached : s.ctxDone = false → ∀ v p, s.bpfPrograms v = some p → p.attached = true →
    ∃ a ∈ s.attachers, a.version = v ∧ a.pc = .wait

/-- Replacing one goroutine leaves the others where they are. -/
theorem mem_set_of_ne {l : List Attacher} {k : Nat} {a b x : Attacher} (ha : l[k]? = some a)
    (hx : x ∈ l) (hne : x ≠ a) : x ∈ l.set k b := by
  obtain ⟨j, hj⟩ := List.mem_iff_getElem?.mp hx
  have hjk : k ≠ j := by
    rintro rfl
    rw [ha] at hj
    cases hj
    exact hne rfl
  exact List.mem_of_getElem? ((List.getElem?_set_ne hjk).trans hj)

omit [DecidableEq ι] in
theorem init_bpfPrograms {programs : List Program} {v : GoString} {p : Program}
    (h : (init programs : Runner ι).bpfPrograms v = some p) : p ∈ programs := by
  have hfold : ∀ (ps : List Program) (f : GoString → Option Program),
      ps.foldl WithBpfProgram f v = some p → p ∈ ps ∨ f v = some p := by
    intro ps
    induction ps with
    | nil => exact fun f h => Or.inr h
    | cons q ps ih =>
      intro f h
      rcases ih _ h with hmem | hf
      · exact Or.inl (List.mem_cons_of_mem q hmem)
      · unfold WithBpfProgram at hf
        rcases eq_or_ne v q.version with rfl | hv
        · rw [Function.update_self] at hf
          cases hf
          exact Or.inl List.mem_cons_self
        · rw [Function.update_of_ne hv] at hf
          exact Or.inr hf
  exact (hfold programs _ h).resolve_right (by simp)

omit [DecidableEq ι] in
theorem holding_init {programs : List Program} (hp : ∀ p ∈ programs, p.attached = false) :
    (init programs : Runner ι).Holding := by
  refine ⟨fun h => (by cases h), fun h => (by cases h), known_init programs, ?_⟩
  intro _ v p hv hatt
  rw [hp p (init_bpfPrograms hv)] at hatt
  cases hatt

theorem holding_step {s t : Runner ι} {a : Action ι} (hs : s.Holding) (h : Step s a t) :
    t.Holding := by
  refine ⟨leftDone_step hs.left h, ?_, known_step hs.known h, ?_⟩
  · cases h with
    | cancel => exact fun _ => rfl
    | deferCancel hm => exact fun _ => hs.left (by rw [hm]; rfl)
    | _ => exact hs.internal
  · have hkeep : ∀ {k : Nat} {b c : Attacher} {v : GoString}, s.attachers[k]? = some b →
        b.pc ≠ .wait → (∃ x ∈ s.attachers, x.version = v ∧ x.pc = .wait) →
        ∃ x ∈ s.attachers.set k c, x.version = v ∧ x.pc = .wait := by
      rintro k b c v hb hpc ⟨x, hx, hv, hw⟩
      refine ⟨x, mem_set_of_ne hb hx ?_, hv, hw⟩
      rintro rfl
      exact hpc hw
    cases h with
    | probe hb hprobe =>
      intro hctx v p hv hp
      refine hkeep hb (fun hw => ?_) (hs.attached hctx v p hv hp)
      rw [hw] at hprobe
      cases hprobe
    | recvAttachErr _ hb hpc =>
      intro hctx v p hv hp
      exact hkeep hb (by rw [hpc]; simp) (hs.attached hctx v p hv hp)
    | @mark k b hb hpc =>
      intro hctx v p hv hp
      have hv' : Function.update s.bpfPrograms b.version
        ((s.bpfPrograms b.version).map fun p => { p with attached := true }) v = some p := hv
      rcases eq_or_ne v b.version with rfl | hne
      · exact ⟨{ b with pc := .wait }, List.mem_of_getElem? (setAttacher_self hb), rfl, rfl⟩
      · rw [Function.update_of_ne hne] at hv'
        exact hkeep hb (by rw [hpc]; simp) (hs.attached hctx v p hv' hp)
    | unattach _ _ hdone =>
      intro hctx
      rcases hdone with hd | hd
      · rw [show s.ctxDone = false from hctx] at hd
        cases hd
      · have hd' := hs.internal hd
        rw [show s.ctxDone = false from hctx] at hd'
        cases hd'
    | spawn _ =>
      intro hctx v p hv hp
      obtain ⟨x, hx, hver, hw⟩ := hs.attached hctx v p hv hp
      refine ⟨x, ?_, hver, hw⟩
      show x ∈ if _ then _ else _
      split
      · exact List.mem_append_left _ hx
      · exact hx
    | cancel => exact fun hctx => by cases hctx
    | _ => exact hs.attached

omit [DecidableEq ι] in
/-- An attach goroutine that goes on without failing still monitors its program. -/
theorem Monitored.set {s t : Runner ι} {k : Nat} {a b : Attacher} {v : GoString}
    (hm : s.Monitored v) (ha : s.attachers[k]? = some a) (hv : b.version = a.version)
    (hh : a.healthy = true → b.healthy = true) (hatt : t.attachers = s.attachers.set k b) :
    t.Monitored v := by
  rw [monitored_iff] at hm ⊢
  obtain ⟨x, hx, hxv, hxh⟩ := hm
  rw [hatt]
  by_cases hxa : x = a
  · subst hxa
    have hself := List.getElem?_set_self (a := b) (List.getElem?_eq_some_iff.mp ha).1
    exact ⟨b, List.mem_of_getElem? hself, hv.trans hxv, hh hxh⟩
  · exact ⟨x, mem_set_of_ne ha hx hxa, hxv, hxh⟩

omit [DecidableEq ι] in
theorem Monitored.congr {s t : Runner ι} {v : GoString} (hm : s.Monitored v)
    (hatt : ∀ a ∈ s.attachers, a ∈ t.attachers) : t.Monitored v := by
  rw [monitored_iff] at hm ⊢
  obtain ⟨x, hx, hxv, hxh⟩ := hm
  exact ⟨x, hatt x hx, hxv, hxh⟩

omit [DecidableEq ι] in
/-- Steps after which no other instance is registered and no program is abandoned. -/
theorem AllMonitored.frame {s t : Runner ι} (hs : s.AllMonitored)
    (hctx : t.ctxDone = s.ctxDone)
    (hin : ∀ id x, t.instances id = some x → t.main.stored ≠ some x →
      s.instances id = some x ∧ s.main.stored ≠ some x)
    (hmon : ∀ v, s.Monitored v → t.Monitored v) : t.AllMonitored := by
  intro hc id x hx hst
  obtain ⟨hx', hst'⟩ := hin id x hx hst
  exact hmon _ (hs (hctx ▸ hc) id x hx' hst')

/-- `attachInstance` returns: its instance is monitored. -/
theorem allMonitored_spawn {s t : Runner ι} (hh : s.Holding) (hs : s.AllMonitored)
    (h : Step s .spawn t) : t.AllMonitored := by
  cases h with
  | @spawn y hm =>
    intro hctx id x hx _
    by_cases hst : s.main.stored = some x
    · have hxy : x = y := by
        rw [hm] at hst
        exact (Option.some.inj hst).symm
      subst hxy
      obtain ⟨p, hp⟩ := Option.isSome_iff_exists.mp (hh.known.main x (by rw [hm]; rfl))
      rw [monitored_iff]
      cases hatt : p.attached with
      | false => exact ⟨⟨x.pid, x.version, .open⟩, by simp [hp, hatt], rfl, rfl⟩
      | true =>
        obtain ⟨a, ha, hv, hw⟩ := hh.attached hctx x.version p hp hatt
        exact ⟨a, by simpa [hp, hatt] using ha, hv, by simp [Attacher.healthy, hw]⟩
    · refine (hs hctx id x hx hst).congr fun a ha => ?_
      show a ∈ if _ then _ else _
      split
      · exact List.mem_append_left _ ha
      · exact ha

omit [DecidableEq ι] in
/-- An attachment fails: who depended on it has another one, exactly if the condition is met. -/
theorem notLastFailure_probe {s : Runner ι} {k : Nat} {a : Attacher}
    (hs : s.AllMonitored) (ha : s.attachers[k]? = some a) :
    s.NotLastFailure (.probe k false) ↔
      (s.setAttacher k { a with pc := .sendErr }).AllMonitored := by
  have hself := setAttacher_self (b := { a with pc := .sendErr }) ha
  have hother : ∀ {j : Nat}, j ≠ k →
      (s.setAttacher k { a with pc := .sendErr }).attachers[j]? = s.attachers[j]? :=
    fun hj => List.getElem?_set_ne (Ne.symm hj)
  constructor
  · intro hg hctx id x hx hst
    obtain ⟨b, hb, hbv, hbh⟩ := monitored_iff.mp (hs hctx id x hx hst)
    rw [monitored_iff]
    obtain ⟨j, hj⟩ := List.mem_iff_getElem?.mp hb
    rcases eq_or_ne j k with rfl | hjk
    · rw [ha] at hj
      cases hj
      rcases hg hctx a ha with ⟨i, c, hik, hc, hcv, hch⟩ | hall
      · exact ⟨c, List.mem_of_getElem? ((hother hik).trans hc), hcv.trans hbv, hch⟩
      · exact absurd (hall id x hx hbv.symm) hst
    · exact ⟨b, List.mem_of_getElem? ((hother hjk).trans hj), hbv, hbh⟩
  · intro ht hctx b hb
    rw [ha] at hb
    cases hb
    by_cases hall : ∀ id x, s.instances id = some x → x.version = a.version →
        s.main.stored = some x
    · exact Or.inr hall
    · push Not at hall
      obtain ⟨id, x, hx, hxv, hst⟩ := hall
      obtain ⟨c, hc, hcv, hch⟩ := monitored_iff.mp (ht hctx id x hx hst)
      obtain ⟨j, hj⟩ := List.mem_iff_getElem?.mp hc
      have hjk : j ≠ k := by
        rintro rfl
        rw [hself] at hj
        cases hj
        cases hch
      exact Or.inl ⟨j, c, hjk, (hother hjk).symm.trans hj, hcv.trans hxv, hch⟩

/-- A step keeps the instances monitored exactly if it meets the condition. -/
theorem notLastFailure_iff {s t : Runner ι} {a : Action ι} (hh : s.Holding)
    (hs : s.AllMonitored) (h : Step s a t) : s.NotLastFailure a ↔ t.AllMonitored := by
  have hdone : ∀ {u : Runner ι}, u.ctxDone = true → u.AllMonitored := by
    intro u hu hno
    rw [hu] at hno
    cases hno
  have hmain : s.main.left = true → s.ctxDone = true := hh.left
  cases h with
  | @probe k b ok pc hb hprobe =>
    cases ok with
    | false =>
      have hpc : pc = .sendErr := by
        cases hpc : b.pc <;> rw [hpc] at hprobe <;> cases hprobe <;> rfl
      subst hpc
      exact notLastFailure_probe hs hb
    | true =>
      refine iff_of_true trivial (hs.frame rfl (fun _ _ hx hst => ⟨hx, hst⟩) fun v hm => ?_)
      refine hm.set hb (b := { b with pc := pc }) rfl (fun _ => ?_) rfl
      cases hpc : b.pc <;> rw [hpc] at hprobe <;> cases hprobe <;> rfl
  | @recvAttachErr k b _ hb hpc =>
    refine iff_of_true trivial (hs.frame rfl (fun _ _ hx hst => ⟨hx, hst⟩) fun v hm => ?_)
    refine hm.set hb (b := { b with pc := .done }) rfl (fun hh => ?_) rfl
    simp [Attacher.healthy, hpc] at hh
  | @mark k b hb _ =>
    refine iff_of_true trivial (hs.frame rfl (fun _ _ hx hst => ⟨hx, hst⟩) fun v hm => ?_)
    exact hm.set hb (b := { b with pc := .wait }) rfl (fun _ => rfl) rfl
  | unattach _ _ hw => exact iff_of_true trivial (hdone (hw.elim id hh.internal))
  | cancel => exact iff_of_true trivial (hdone rfl)
  | leave _ hctx => exact iff_of_true trivial (hdone hctx)
  | deferCancel hm | deferWait hm _ | deferCloseCh hm | deferCloseErr hm =>
    exact iff_of_true trivial (hdone (hmain (by rw [hm]; rfl)))
  | spawn hm => exact iff_of_true trivial (allMonitored_spawn hh hs (.spawn hm))
  | @store y p hm hp =>
    refine iff_of_true trivial (hs.frame rfl (fun id x hx hst => ⟨?_, ?_⟩) fun v hv =>
      hv.congr fun _ ha => ha)
    · have hx' : Function.update s.instances y.GetId (some y) id = some x := hx
      rcases eq_or_ne id y.GetId with rfl | hid
      · rw [Function.update_self] at hx'
        cases hx'
        exact absurd rfl hst
      · rwa [Function.update_of_ne hid] at hx'
    · rw [hm]
      simp [MainPc.stored]
  | update hm _ | updateErr hm =>
    refine iff_of_true trivial (hs.frame rfl (fun id x hx hst => ⟨hx, ?_⟩) fun v hv =>
      hv.congr fun _ ha => ha)
    rw [hm]
    exact hst
  | recvCh hm _ | lockAttach hm _ =>
    refine iff_of_true trivial (hs.frame rfl (fun id x hx _ => ⟨hx, ?_⟩) fun v hv =>
      hv.congr fun _ ha => ha)
    rw [hm]
    simp [MainPc.stored]
  | @delete i id y m _ _ _ =>
    refine iff_of_true trivial (hs.frame rfl (fun id' x hx hst => ⟨?_, hst⟩) fun v hv =>
      hv.congr fun _ ha => ha)
    have hx' : Function.update s.instances id none id' = some x := hx
    rcases eq_or_ne id' id with rfl | hid
    · rw [Function.update_self] at hx'
      cases hx'
    · rwa [Function.update_of_ne hid] at hx'
  | _ => exact iff_of_true trivial hs

/-- **Registered instances are monitored.** In every run of a runner whose programs are not
`Attached` at its start, in every state before the context is cancelled the program of each
registered instance is attached or has a goroutine that has not failed, if and only if every step
meets `NotLastFailure`. -/
theorem allMonitored_iff (programs : List Program) (hp : ∀ p ∈ programs, p.attached = false)
    (as : List (Action ι)) (s : Runner ι) (h : Trace.run step (init programs) as = some s) :
    (∀ bs cs u, as = bs ++ cs → Trace.run step (init programs) bs = some u → u.AllMonitored) ↔
      Trace.Meets step NotLastFailure (init programs) as := by
  have hinit : (init programs : Runner ι).AllMonitored := fun _ id x hx => by cases hx
  rw [Trace.meets_iff_forall (I := Holding) (P := AllMonitored)
    (fun _ _ _ hs ht => holding_step hs (step_iff.mp ht).2) ?_ (holding_init hp) hinit h]
  exact fun u a v hu hpu hv => notLastFailure_iff hu hpu (step_iff.mp hv).2

/-- No call of an attach goroutine fails. -/
def NoFailure (_ : Runner ι) : Action ι → Prop
  | .probe _ ok => ok = true
  | _ => True

omit [DecidableEq ι] in
instance (s : Runner ι) : ∀ a, Decidable (s.NoFailure a)
  | .probe _ ok => inferInstanceAs (Decidable (ok = true))
  | .deliver .. | .iterate _ | .lookup .. | .child .. | .recvCh _ | .recvErr _ | .lockAttach
  | .store | .update _ | .spawn | .lockDetach _ | .delete .. | .mark _ | .unattach _ | .cancel
  | .leave | .unwind | .sendClosed _ => isTrue trivial

omit [DecidableEq ι] in
theorem notLastFailure_of_noFailure (s : Runner ι) (a : Action ι) (h : s.NoFailure a) :
    s.NotLastFailure a := by
  cases a with
  | probe k ok =>
    cases ok with
    | false => cases h
    | true => trivial
  | _ => trivial

theorem allMonitored_attachedTwice : ∃ s : Runner Unit,
    Trace.run step (init [percona5734]) attachedTwice = some s ∧
      (s.instances (instance9f 10).GetId).isSome ∧ s.AllMonitored := by
  have hobs : (Trace.run step (init [percona5734]) attachedTwice).map
      (fun s => (s.instances (instance9f 10).GetId).isSome) = some true := by decide +kernel
  obtain ⟨s, hs, hin⟩ := Option.map_eq_some_iff.mp hobs
  have hg : Trace.Meets step NoFailure (init [percona5734]) attachedTwice := by decide +kernel
  have hp : ∀ p ∈ [percona5734], p.attached = false := by decide
  exact ⟨s, hs, hin, (allMonitored_iff _ hp attachedTwice s hs).mpr
    (hg.mono notLastFailure_of_noFailure) attachedTwice [] s (by simp) hs⟩

/-- The only attachment fails, and an update event of the pod is handled afterwards. -/
def failedAttachment : List (Action Unit) :=
  registerPod pod9f 10 ++ [.probe 0 false, .recvErr (.attacher 0),
    .deliver () (.update pod9f), .iterate (), .iterate ()]

/-- **The stored instance suppresses a second attempt.** -/
theorem unmonitored_instance :
    ¬ ∀ (as : List (Action Unit)) (s : Runner Unit), (∀ a ∈ as, a.MapOk) →
      Trace.run step (init [percona5734]) as = some s → s.AllMonitored := by
  intro hall
  have hobs : (Trace.run step (init [percona5734]) failedAttachment).map
      (fun s => (s.ctxDone, s.main, s.instances (instance9f 10).GetId, s.attachers,
        s.callbacks ())) = some (false, MainPc.select, some (instance9f 10),
          [⟨10, PerconaServer5734, .done⟩], CallbackPc.idle) := by decide +kernel
  obtain ⟨s, hs, heq⟩ := Option.map_eq_some_iff.mp hobs
  simp only [Prod.mk.injEq] at heq
  obtain ⟨hctx, hmain, hin, hatt, _⟩ := heq
  have hmon := hall _ s (by decide) hs hctx _ _ hin (by rw [hmain]; simp [MainPc.stored])
  obtain ⟨a, ha, -, hh⟩ := monitored_iff.mp hmon
  rw [hatt, List.mem_singleton] at ha
  subst ha
  cases hh

end Runner

end EDGuard
