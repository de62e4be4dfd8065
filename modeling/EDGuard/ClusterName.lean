import EDGuard.Tool

/-!
# The cluster name codec (`pkg/tool/tools.go`)

* `S264BChecked` — the encoder with the index checks of Go: `none` is the panic.
* `S264BChecked_eq` — **no index is out of range.**
* `B642S_S264B`, `S264B_B642S` — a name read back, and a field written back.
* `cluster_name_codec` — **what survives the two**, in both orders.
-/

set_option autoImplicit false

namespace EDGuard

open FixedText

/-! ## The encoder, with its checks -/

/-- `bs[i] = b`. -/
def setAt (bs : Vector UInt8 64) (i : Nat) (b : UInt8) : Option (Vector UInt8 64) :=
  if hi : i < 64 then some (bs.set i b hi) else none

/-- `for i := 0; i < n; i++ { bs[i] = s[i] }`. -/
def copyLoopChecked (s : GoString) (n : Nat) (bs : Vector UInt8 64) : Option (Vector UInt8 64) :=
  (List.range n).foldlM (fun bs i => (s[i]?).bind fun b => setAt bs i b) bs

/-- `for i := 0; i < 64-slen; i++ { bs[slen+i] = 0 }`. -/
def zeroLoopChecked (slen : Nat) (bs : Vector UInt8 64) : Option (Vector UInt8 64) :=
  (List.range (64 - slen)).foldlM (fun bs i => setAt bs (slen + i) 0) bs

def S264BChecked (s : GoString) : Option (Vector UInt8 64) :=
  let bs := Vector.replicate 64 0
  if s.length = 0 then some bs
  else if 64 ≤ s.length then copyLoopChecked s 64 bs
  else (copyLoopChecked s s.length bs).bind fun bs => zeroLoopChecked s.length bs

theorem setAt_of_lt {bs : Vector UInt8 64} {i : Nat} (b : UInt8) (hi : i < 64) :
    setAt bs i b = some (bs.set i b hi) := dif_pos hi

/-- A loop whose checks all pass is the loop without them. -/
theorem foldlM_range_eq_some {α : Type} {n : Nat} {check : α → Nat → Option α}
    {f : (i : Nat) → i < n → α → α} (h : ∀ i (hi : i < n) a, check a i = some (f i hi a)) (a : α) :
    (List.range n).foldlM check a = some (Nat.fold n f a) := by
  induction n with
  | zero => rfl
  | succ n ih =>
    have hinit : (List.range n).foldlM check a =
        some (Nat.fold n (fun i hi => f i (Nat.lt_succ_of_lt hi)) a) :=
      ih fun i hi => h i (Nat.lt_succ_of_lt hi)
    rw [List.range_succ, List.foldlM_append, hinit, Nat.fold_succ]
    show List.foldlM check _ [n] = _
    rw [List.foldlM_cons, h n (Nat.lt_succ_self n)]
    rfl

theorem copyLoopChecked_eq {s : GoString} {n : Nat} (h64 : n ≤ 64) (hs : n ≤ s.length)
    (bs : Vector UInt8 64) : copyLoopChecked s n bs = some (copyLoop s n h64 hs bs) := by
  apply foldlM_range_eq_some
  intro i hi bs
  rw [List.getElem?_eq_getElem (Nat.lt_of_lt_of_le hi hs)]
  exact setAt_of_lt _ (Nat.lt_of_lt_of_le hi h64)

theorem zeroLoopChecked_eq (slen : Nat) (bs : Vector UInt8 64) :
    zeroLoopChecked slen bs = some (zeroLoop slen bs) := by
  apply foldlM_range_eq_some
  intro i hi bs
  exact setAt_of_lt 0 (Nat.add_lt_of_lt_sub' hi)

/-- **No index is out of range.** -/
theorem S264BChecked_eq (s : GoString) : S264BChecked s = some (S264B s) := by
  unfold S264BChecked S264B
  by_cases h0 : s.length = 0
  · simp only [if_pos h0]
  · by_cases h64 : 64 ≤ s.length
    · simp only [if_neg h0, if_pos h64, dif_pos h64]
      exact copyLoopChecked_eq (Nat.le_refl 64) h64 _
    · simp only [if_neg h0, if_neg h64, dif_neg h64]
      rw [copyLoopChecked_eq (by omega) (Nat.le_refl s.length)]
      exact zeroLoopChecked_eq s.length _

/-! ## The two as reads and writes of a field -/

theorem B642S_S264B (s : GoString) : LongestNulFree (s.take 64) (B642S (S264B s)) := by
  rw [B642S_eq, S264B_eq_pad, cstr_pad]
  exact longestNulFree_cstr (s.take 64)

theorem S264B_B642S (a : Vector UInt8 64) : Blanked a (S264B (B642S a)) := by
  rw [B642S_eq, S264B_eq_pad]
  exact blanked_pad_cstr a

/-- **The cluster name codec**: the encoder stays in range; a name read back is its longest
beginning of at most 64 bytes without a NUL; a field written back is zero behind its first NUL; and
the names that survive are told apart. -/
theorem cluster_name_codec :
    (∀ s : GoString, S264BChecked s = some (S264B s) ∧
      LongestNulFree (s.take 64) (B642S (S264B s)) ∧
      (B642S (S264B s) = s ↔ s.length ≤ 64 ∧ 0 ∉ s)) ∧
    (∀ a : Vector UInt8 64, Blanked a (S264B (B642S a)) ∧
      (S264B (B642S a) = a ↔ ZeroPadded a)) ∧
    Set.InjOn S264B {s | s.length ≤ 64 ∧ 0 ∉ s} := by
  refine ⟨fun s => ?_, fun a => ?_, ?_⟩
  · exact ⟨S264BChecked_eq s, B642S_S264B s, (B642S_S264B s).eq_self_iff⟩
  · exact ⟨S264B_B642S a, (S264B_B642S a).eq_self_iff⟩
  · have heq : S264B = pad 64 := funext S264B_eq_pad
    rw [heq]
    exact pad_injOn 64

end EDGuard
