import EDGuard.Agent

/-!
# The probes of a runner that has stopped

* `Linked` — **the invariant**: the links of an attach goroutine are those of its program point, and
  once `r.wg.Wait()` has returned all of them were given up.
* `probes_paired` — a return probe is in place only together with an entry probe.
* `silent_after_stop` — **after the wait no probe is in place and nothing is recorded any more**,
  when no `Close` has failed.
-/

set_option autoImplicit false

namespace EDGuard

/-- The links of an attach goroutine at a program point, or of none. -/
def LinksOk : Option AttachPc → Links → Prop
  | none, l | some .open, l | some .uprobe, l => l = ⟨.none, .none⟩
  | some .uretprobe, l => l = ⟨.attached, .none⟩
  | some .sendErr, l => l.urp = .none ∧ (l.up = .none ∨ l.up = .attached)
  | some .mark, l | some .wait, l => l = ⟨.attached, .attached⟩
  | some .done, l => l.urp = .attached → l.up = .attached

/-- No deferred call has failed. -/
def Links.Sound (l : Links) : Prop := l.up ≠ .left ∧ l.urp ≠ .left

theorem LinksOk.paired {pc : Option AttachPc} {l : Links} (h : LinksOk pc l)
    (hurp : l.urp = .attached) : l.up = .attached := by
  unfold LinksOk at h
  split at h
  · rw [h] at hurp
    cases hurp
  · rw [h] at hurp
    cases hurp
  · rw [h] at hurp
    cases hurp
  · rw [h] at hurp
    cases hurp
  · rw [h.1] at hurp
    cases hurp
  · rw [h]
  · rw [h]
  · exact h hurp

/-- An attach goroutine that gives up has at most one link. -/
theorem LinksOk.probe {pc pc' : AttachPc} {ok : Bool} {l : Links} (h : LinksOk (some pc) l)
    (hpc : pc.probe ok = some pc') : LinksOk (some pc') (if ok then l.attach pc else l) := by
  cases pc with
  | «open» =>
    obtain rfl : l = ⟨.none, .none⟩ := h
    cases hpc
    cases ok
    · exact ⟨rfl, Or.inl rfl⟩
    · rfl
  | uprobe =>
    obtain rfl : l = ⟨.none, .none⟩ := h
    cases hpc
    cases ok
    · exact ⟨rfl, Or.inl rfl⟩
    · rfl
  | uretprobe =>
    obtain rfl : l = ⟨.attached, .none⟩ := h
    cases hpc
    cases ok
    · exact ⟨rfl, Or.inr rfl⟩
    · rfl
  | mark | wait | sendErr | done => cases hpc

theorem Links.close_sound {l l' : Links} (hs : l.Sound) (h : l.close true = some l') :
    l'.Sound ∧ (l.urp ≠ .attached → l'.urp ≠ .attached) ∧
      (l'.urp = .attached → l'.up = .attached) := by
  unfold Links.close at h
  split at h
  · cases h
    exact ⟨⟨hs.1, Link.noConfusion⟩, fun _ => Link.noConfusion, fun hurp => nomatch hurp⟩
  · rename_i hurp
    split at h
    · cases h
      exact ⟨⟨Link.noConfusion, hs.2⟩, fun _ => hurp, fun hattached => absurd hattached hurp⟩
    · cases h

namespace Runner

variable {ι : Type}

/-- The program point of an attach goroutine. -/
def attachPc (s : Runner ι) (k : Nat) : Option AttachPc := (s.attachers[k]?).map Attacher.pc

theorem attachPc_of {s : Runner ι} {k : Nat} {a : Attacher} (h : s.attachers[k]? = some a) :
    s.attachPc k = some a.pc := by
  rw [attachPc, h, Option.map_some]

theorem attachPc_set {s t : Runner ι} {k : Nat} {a b : Attacher} (ha : s.attachers[k]? = some a)
    (ht : t.attachers = s.attachers.set k b) (j : Nat) :
    t.attachPc j = if j = k then some b.pc else s.attachPc j := by
  have hlt : k < s.attachers.length := (List.getElem?_eq_some_iff.mp ha).1
  unfold attachPc
  rw [ht, List.getElem?_set]
  by_cases hj : j = k
  · subst hj
    simp [hlt]
  · rw [if_neg hj, if_neg (Ne.symm hj)]

/-- What a step that is no call of `attach` does to an attach goroutine. -/
def Moves (pc pc' : Option AttachPc) : Prop :=
  pc' = pc ∨ pc = none ∧ pc' = some .open ∨ pc = some .sendErr ∧ pc' = some .done ∨
    pc = some .mark ∧ pc' = some .wait ∨ pc = some .wait ∧ pc' = some .done

theorem Moves.linksOk {pc pc' : Option AttachPc} {l : Links} (h : Moves pc pc')
    (hl : LinksOk pc l) : LinksOk pc' l := by
  rcases h with rfl | ⟨rfl, rfl⟩ | ⟨rfl, rfl⟩ | ⟨rfl, rfl⟩ | ⟨rfl, rfl⟩
  · exact hl
  · exact hl
  · intro hurp
    rw [hl.1] at hurp
    cases hurp
  · exact hl
  · intro _
    exact congrArg Links.up hl

variable [DecidableEq ι]

/-- **What one step does to an attach goroutine**: it is at one of its three calls, or it moves
on without one. -/
theorem attachPc_cases {s t : Runner ι} {a : Action ι} (h : Step s a t) (k : Nat) :
    (∃ x ok pc, a = .probe k ok ∧ s.attachers[k]? = some x ∧ x.pc.probe ok = some pc ∧
      t.attachPc k = some pc) ∨
    ((∀ ok, a ≠ .probe k ok) ∧ Moves (s.attachPc k) (t.attachPc k)) := by
  cases h with
  | @probe j x ok pc hx hpc =>
    have hset := attachPc_set (t := s.setAttacher j { x with pc := pc }) hx rfl k
    by_cases hk : k = j
    · subst hk
      rw [if_pos rfl] at hset
      exact Or.inl ⟨x, ok, pc, rfl, hx, hpc, hset⟩
    · rw [if_neg hk] at hset
      refine Or.inr ⟨fun ok' he => ?_, Or.inl hset⟩
      cases he
      exact hk rfl
  | @recvAttachErr j x _ hx hpc =>
    have hset := attachPc_set (t := s.setAttacher j { x with pc := .done }) hx rfl k
    refine Or.inr ⟨fun _ he => (nomatch he), ?_⟩
    rw [hset]
    by_cases hk : k = j
    · subst hk
      rw [if_pos rfl, attachPc_of hx, hpc]
      exact Or.inr (Or.inr (Or.inl ⟨rfl, rfl⟩))
    · rw [if_neg hk]
      exact Or.inl rfl
  | @mark j x hx hpc =>
    have hset := attachPc_set (t := s.setAttacher j { x with pc := .wait }) hx rfl k
    refine Or.inr ⟨fun _ he => (nomatch he), ?_⟩
    show Moves _ ((s.setAttacher j { x with pc := .wait }).attachPc k)
    rw [hset]
    by_cases hk : k = j
    · subst hk
      rw [if_pos rfl, attachPc_of hx, hpc]
      exact Or.inr (Or.inr (Or.inr (Or.inl ⟨rfl, rfl⟩)))
    · rw [if_neg hk]
      exact Or.inl rfl
  | @unattach j x hx hpc _ =>
    have hset := attachPc_set (t := s.setAttacher j { x with pc := .done }) hx rfl k
    refine Or.inr ⟨fun _ he => (nomatch he), ?_⟩
    rw [hset]
    by_cases hk : k = j
    · subst hk
      rw [if_pos rfl, attachPc_of hx, hpc]
      exact Or.inr (Or.inr (Or.inr (Or.inr ⟨rfl, rfl⟩)))
    · rw [if_neg hk]
      exact Or.inl rfl
  | @spawn x hmain =>
    refine Or.inr ⟨fun _ he => (nomatch he), ?_⟩
    unfold Moves attachPc
    by_cases hany : (s.bpfPrograms x.version).any fun p => !p.attached
    · simp only [hany, ↓reduceIte, List.getElem?_append]
      by_cases hlt : k < s.attachers.length
      · simp [hlt]
      · by_cases hk : k - s.attachers.length = 0
        · simp [hlt, hk]
        · simp [hlt, hk]
    · simp [hany]
  | _ => exact Or.inr ⟨fun _ he => (nomatch he), Or.inl rfl⟩

end Runner

namespace Agent

variable {ι : Type} {n : Nat}

/-- No `Close` fails. -/
def ClosesFine : Action ι n → Prop
  | .close _ ok => ok = true
  | _ => True

instance : ∀ a : Action ι n, Decidable (ClosesFine a)
  | .close _ ok => inferInstanceAs (Decidable (ok = true))
  | .runner _ | .enter .. | .entry .. | .ret .. | .leave _ | .pipe _ => isTrue trivial

structure Linked (s : Agent ι n) : Prop where
  closing : s.runner.Closing
  ok : ∀ k, LinksOk (s.runner.attachPc k) (s.links k)
  sound : ∀ k, (s.links k).Sound
  released : s.runner.main.waited = true → ∀ k, (s.links k).Released

theorem linked_init (programs : List Program) : (init programs : Agent ι n).Linked where
  closing := Runner.closing_init programs
  ok := fun _ => rfl
  sound := fun _ => ⟨Link.noConfusion, Link.noConfusion⟩
  released := fun hw => nomatch hw

variable [DecidableEq ι]

omit [DecidableEq ι] in
theorem relink_of_ne {s : Agent ι n} {a : Runner.Action ι} {k : Nat}
    (h : ∀ ok, a ≠ .probe k ok) : s.relink a k = s.links k := by
  unfold relink
  split
  · rename_i j
    have hj : k ≠ j := fun he => h true (by rw [he])
    cases s.runner.attachers[j]? with
    | none => rfl
    | some x => exact Function.update_of_ne hj _ _
  · rfl

omit [DecidableEq ι] in
theorem relink_probe {s : Agent ι n} {k : Nat} {x : Attacher} {ok : Bool}
    (hx : s.runner.attachers[k]? = some x) :
    s.relink (.probe k ok) k = if ok then (s.links k).attach x.pc else s.links k := by
  cases ok with
  | false => rfl
  | true =>
    simp only [relink, hx]
    exact Function.update_self ..

omit [DecidableEq ι] in
/-- A call of `attach` does not leave a failed `Close` behind. -/
theorem attach_sound {l : Links} (h : l.Sound) (pc : AttachPc) : (l.attach pc).Sound := by
  cases pc with
  | uprobe => exact ⟨Link.noConfusion, h.2⟩
  | uretprobe => exact ⟨h.1, Link.noConfusion⟩
  | «open» | mark | wait | sendErr | done => exact h

/-- After `r.wg.Wait()` nothing is attached any more, and it returns only when all is released. -/
theorem released_step {s : Agent ι n} {a : Runner.Action ι} {r : Runner ι} (hs : s.Linked)
    (hw : s.Waited a) (h : Runner.Step s.runner a r) (hr : r.main.waited = true) (k : Nat) :
    (s.relink a k).Released := by
  have hdone : s.runner.main.waited = true → (s.relink a k).Released := by
    intro hmain
    rcases Runner.attachPc_cases h k with ⟨x, ok, pc, rfl, hx, hpc, _⟩ | ⟨hne, _⟩
    · -- the goroutine would have to be done
      rw [hs.closing.attachers hmain x (List.mem_of_getElem? hx)] at hpc
      cases hpc
    · rw [relink_of_ne hne]
      exact hs.released hmain k
  cases h with
  | @deferWait hmain hall =>
    show (s.links k).Released
    by_cases hk : k < s.runner.attachers.length
    · exact hw hmain k hk
    · have hok := hs.ok k
      rw [Runner.attachPc, List.getElem?_eq_none (Nat.le_of_not_lt hk)] at hok
      rw [show s.links k = ⟨.none, .none⟩ from hok]
      exact ⟨Link.noConfusion, Link.noConfusion⟩
  | deferCloseCh hmain | deferCloseErr hmain => exact hdone (by rw [hmain]; rfl)
  | recvCh | lockAttach | store | update | updateErr | spawn | leave | deferCancel => cases hr
  | _ => exact hdone hr

theorem linked_step {s t : Agent ι n} {a : Action ι n} (hs : s.Linked) (hg : ClosesFine a)
    (h : step s a = some t) : t.Linked := by
  cases a with
  | runner a =>
    obtain ⟨hw, r, hr, rfl⟩ := runner_spec h
    have hstep := (Runner.step_iff.mp hr).2
    refine ⟨Runner.closing_step hs.closing hstep, fun k => ?_, fun k => ?_, fun hmain k =>
      released_step hs hw hstep hmain k⟩
    · have hok := hs.ok k
      rcases Runner.attachPc_cases hstep k with ⟨x, ok, pc, rfl, hx, hpc, hnew⟩ | ⟨hne, hmove⟩
      · rw [Runner.attachPc_of hx] at hok
        show LinksOk (r.attachPc k) (s.relink (.probe k ok) k)
        rw [hnew, relink_probe hx]
        exact hok.probe hpc
      · show LinksOk (r.attachPc k) (s.relink a k)
        rw [relink_of_ne hne]
        exact hmove.linksOk hok
    · show (s.relink a k).Sound
      rcases Runner.attachPc_cases hstep k with ⟨x, ok, pc, rfl, hx, _, _⟩ | ⟨hne, _⟩
      · rw [relink_probe hx]
        cases ok with
        | false => exact hs.sound k
        | true => exact attach_sound (hs.sound k) x.pc
      · rw [relink_of_ne hne]
        exact hs.sound k
  | close k ok =>
    obtain ⟨x, l, hx, hdone, hl, rfl⟩ := close_spec h
    obtain rfl : ok = true := hg
    obtain ⟨hsound, hurp, hpaired⟩ := Links.close_sound (hs.sound k) hl
    have hother : ∀ j, j ≠ k → Function.update s.links k l j = s.links j :=
      fun j hj => Function.update_of_ne hj _ _
    refine ⟨hs.closing, fun j => ?_, fun j => ?_, fun hmain j => ?_⟩
    · show LinksOk (s.runner.attachPc j) (Function.update s.links k l j)
      rcases eq_or_ne j k with rfl | hj
      · rw [Function.update_self, Runner.attachPc_of hx, hdone]
        exact hpaired
      · rw [hother j hj]
        exact hs.ok j
    · show (Function.update s.links k l j).Sound
      rcases eq_or_ne j k with rfl | hj
      · rw [Function.update_self]
        exact hsound
      · rw [hother j hj]
        exact hs.sound j
    · -- nothing is left to close
      obtain ⟨hup, hurp'⟩ := hs.released hmain k
      simp [Links.close, hup, hurp'] at hl
  | enter gtid regs =>
    obtain ⟨p, _, rfl⟩ := enter_spec h
    exact ⟨hs.closing, hs.ok, hs.sound, hs.released⟩
  | entry tid cpu f =>
    obtain ⟨_, p, _, rfl⟩ := entry_spec h
    exact ⟨hs.closing, hs.ok, hs.sound, hs.released⟩
  | ret tid cpu f =>
    obtain ⟨_, p, _, rfl⟩ := ret_spec h
    exact ⟨hs.closing, hs.ok, hs.sound, hs.released⟩
  | leave tid =>
    obtain ⟨p, _, rfl⟩ := leave_spec h
    exact ⟨hs.closing, hs.ok, hs.sound, hs.released⟩
  | pipe a =>
    obtain ⟨_, p, _, rfl⟩ := pipe_spec h
    exact ⟨hs.closing, hs.ok, hs.sound, hs.released⟩

omit [DecidableEq ι] in
/-- A return probe is in place only together with the entry probe of its goroutine. -/
theorem Linked.paired {s : Agent ι n} (hs : s.Linked) (k : Nat) (h : (s.links k).urp.Live) :
    (s.links k).up.Live := by
  rcases h with hattached | hleft
  · exact Or.inl ((hs.ok k).paired hattached)
  · exact absurd hleft (hs.sound k).2

omit [DecidableEq ι] in
/-- After the wait no probe is in place. -/
theorem Linked.unhooked {s : Agent ι n} (hs : s.Linked) (hw : s.runner.main.waited = true) :
    ¬ s.Hooked ∧ ¬ s.HookedReturn := by
  have hnone : ∀ k, ¬ (s.links k).up.Live ∧ ¬ (s.links k).urp.Live := by
    intro k
    obtain ⟨hup, hurp⟩ := hs.released hw k
    obtain ⟨hup', hurp'⟩ := hs.sound k
    exact ⟨fun h => h.elim hup hup', fun h => h.elim hurp hurp'⟩
  exact ⟨fun ⟨k, _, hk⟩ => (hnone k).1 hk, fun ⟨k, _, hk⟩ => (hnone k).2 hk⟩

/-- After the wait only the two channels are left to be closed. -/
theorem waited_step {r r' : Runner ι} {a : Runner.Action ι} (h : Runner.Step r a r')
    (hw : r.main.waited = true) : r'.main.waited = true := by
  cases h with
  | recvCh hmain _ | lockAttach hmain _ | store hmain _ | update hmain _ | updateErr hmain
  | spawn hmain | leave hmain _ | deferCancel hmain | deferWait hmain _ =>
    rw [hmain] at hw
    cases hw
  | deferCloseCh _ | deferCloseErr _ => rfl
  | _ => exact hw

theorem stopped_step {s t : Agent ι n} {a : Action ι n}
    (hs : s.Linked ∧ s.runner.main.waited = true) (h : step s a = some t) :
    t.Linked ∧ t.runner.main.waited = true := by
  obtain ⟨hl, hw⟩ := hs
  refine ⟨linked_step hl ?_ h, ?_⟩
  · cases a with
    | close k ok =>
      obtain ⟨x, l, _, _, hclose, _⟩ := close_spec h
      obtain ⟨hup, hurp⟩ := hl.released hw k
      simp [Links.close, hup, hurp] at hclose
    | runner _ | enter _ _ | entry _ _ _ | ret _ _ _ | leave _ | pipe _ => exact trivial
  · refine projects_runner.invariant (J := fun r => r.main.waited = true) ?_ trivial hw h
    exact fun r b r' hr hr' => waited_step (Runner.step_iff.mp hr').2 hr

theorem linked_run {programs : List Program} {as : List (Action ι n)} {s : Agent ι n}
    (h : Trace.run step (init programs) as = some s)
    (hg : Trace.Meets step (fun _ a => ClosesFine a) (init programs) as) : s.Linked :=
  Trace.run_invariant_of_meets (fun _ _ _ hs hg ht => linked_step hs hg ht)
    (linked_init programs) hg h

/-- **A return probe is never in place without its entry probe**, in any run in which no `Close`
fails: a return firing finds the entry firings of its attach goroutine still enabled. -/
theorem probes_paired (programs : List Program) (as : List (Action ι n)) (s : Agent ι n)
    (h : Trace.run step (init programs) as = some s)
    (hg : Trace.Meets step (fun _ a => ClosesFine a) (init programs) as) :
    (∀ k, (s.links k).urp.Live → (s.links k).up.Live) ∧ (s.HookedReturn → s.Hooked) := by
  have hpaired := (linked_run h hg).paired
  exact ⟨hpaired, fun ⟨k, hk, hurp⟩ => ⟨k, hk, hpaired k hurp⟩⟩

/-- **Silence after the stop.** In every run in which no `Close` fails, once `r.wg.Wait()` has
returned: no probe is in place, and whatever the threads, the handlers of pod events and the pump do
from there on, no call is captured and no record is pushed any more. -/
theorem silent_after_stop (programs : List Program) (as bs : List (Action ι n)) (s t : Agent ι n)
    (h : Trace.run step (init programs) as = some s)
    (hg : Trace.Meets step (fun _ a => ClosesFine a) (init programs) as)
    (hw : s.runner.main.waited = true) (ht : Trace.run step s bs = some t) :
    (¬ t.Hooked ∧ ¬ t.HookedReturn) ∧ t.probe.captures = s.probe.captures ∧
      t.probe.pushes = s.probe.pushes ∧ t.pipe.pushed = s.pipe.pushed := by
  have hs : s.Linked ∧ s.runner.main.waited = true := ⟨linked_run h hg, hw⟩
  have hstop := Trace.run_invariant
    (fun _ _ _ hu hv => stopped_step hu hv) hs ht
  refine ⟨hstop.1.unhooked hstop.2, ?_⟩
  refine Trace.run_rel (I := fun u => u.Linked ∧ u.runner.main.waited = true)
    (R := fun u v => v.probe.captures = u.probe.captures ∧ v.probe.pushes = u.probe.pushes ∧
      v.pipe.pushed = u.pipe.pushed) (fun _ => ⟨rfl, rfl, rfl⟩) ?_
    (fun _ _ _ hu hv => stopped_step hu hv) ?_ hs ht
  · rintro u v w ⟨h1, h2, h3⟩ ⟨h1', h2', h3'⟩
    exact ⟨h1'.trans h1, h2'.trans h2, h3'.trans h3⟩
  · rintro u a v ⟨hl, hmain⟩ hv
    obtain ⟨hno, hnor⟩ := hl.unhooked hmain
    obtain ⟨cs, ps, hr⟩ := recorded_step hv
    have hcs : cs = [] := List.eq_nil_iff_forall_not_mem.mpr fun c hc => hno (hr.traced c hc).2
    have hps : ps = [] :=
      List.eq_nil_iff_forall_not_mem.mpr fun p hp => hnor (hr.registered p hp).2
    subst hcs hps
    exact ⟨hr.captures, hr.pushes, hr.pushed.trans (List.append_nil _)⟩

/-! ## A stop after one query -/

/-- The runner is told to stop, and its attach goroutine closes the probes. -/
def stop : List (Action Unit 2) :=
  [.runner .cancel, .runner .leave, .runner .unwind, .runner (.unattach 0), .close 0 true,
    .close 0 true, .runner .unwind]

/-- Another query is made after the stop. -/
def lateQuery : List (Action Unit 2) := [.enter gtid10 ⟨0, 0, COM_QUERY⟩, .leave 7]

theorem probes_paired_stop : ∃ s : Agent Unit 2,
    Trace.run step (init [percona5734]) (oneQuery ++ stop) = some s ∧
    (∀ k, (s.links k).urp.Live → (s.links k).up.Live) ∧ (s.HookedReturn → s.Hooked) := by
  have hobs : (Trace.run step (init [percona5734]) (oneQuery ++ stop)).isSome := by
    decide +kernel
  obtain ⟨s, hs⟩ := Option.isSome_iff_exists.mp hobs
  exact ⟨s, hs, probes_paired _ (oneQuery ++ stop) s hs (by decide +kernel)⟩

theorem silent_after_stop_lateQuery : ∃ s t : Agent Unit 2,
    Trace.run step (init [percona5734]) (oneQuery ++ stop) = some s ∧
    Trace.run step s lateQuery = some t ∧ (¬ t.Hooked ∧ ¬ t.HookedReturn) ∧
      t.probe.captures = s.probe.captures ∧ t.probe.pushes = s.probe.pushes ∧
      t.pipe.pushed = s.pipe.pushed := by
  have hobs : (Trace.run step (init [percona5734]) (oneQuery ++ stop ++ lateQuery)).isSome := by
    decide +kernel
  have hmain : (Trace.run step (init [percona5734]) (oneQuery ++ stop)).map
      (fun s => s.runner.main.waited) = some true := by decide +kernel
  obtain ⟨t, ht⟩ := Option.isSome_iff_exists.mp hobs
  obtain ⟨s, hs, hlate⟩ := Trace.run_append_eq_some.mp ht
  rw [hs] at hmain
  exact ⟨s, t, hs, hlate, silent_after_stop _ (oneQuery ++ stop) lateQuery s t hs
    (by decide +kernel) (Option.some.inj hmain) hlate⟩

end Agent

end EDGuard
