import Mathlib.Data.List.Basic
import Mathlib.Data.List.TakeWhile
import Mathlib.Data.Vector.Basic

/-!
# Byte-addressed memory with two address spaces

`Memory` maps a 64-bit address to the byte stored there (`none` when the address is not
readable) and says which addresses are in user space.

* `InUser`, `InKernel`, `Readable` — ranges of addresses.
* `bytes`, `number` — the contents of a range, and the number stored there; `strnlen` — the length
  of a NUL-terminated string, with a limit, as the string copy routines see it.
* `SameUser`, `StrInUser` — memories that agree in user space, and strings that lie there.
* `HoldsText`, `HoldsStr` — a text with a NUL behind it, and a string, which has none inside.
* `leNat` — a little-endian number; `cstr` — the bytes before the first NUL.
-/

set_option autoImplicit false

structure Memory where
  byte : UInt64 → Option UInt8
  user : UInt64 → Bool

namespace Memory

def InUser (m : Memory) (a : UInt64) (n : Nat) : Prop := ∀ i < n, m.user (a + .ofNat i) = true

def InKernel (m : Memory) (a : UInt64) (n : Nat) : Prop := ∀ i < n, m.user (a + .ofNat i) = false

def Readable (m : Memory) (a : UInt64) (n : Nat) : Prop := ∀ i < n, (m.byte (a + .ofNat i)).isSome

instance (m : Memory) (a : UInt64) (n : Nat) : Decidable (m.InUser a n) :=
  inferInstanceAs (Decidable (∀ i < n, _))

instance (m : Memory) (a : UInt64) (n : Nat) : Decidable (m.Readable a n) :=
  inferInstanceAs (Decidable (∀ i < n, _))

/-- A range that can be copied out of user space. -/
def UserReadable (m : Memory) (a : UInt64) (n : Nat) : Prop := m.InUser a n ∧ m.Readable a n

instance (m : Memory) (a : UInt64) (n : Nat) : Decidable (m.UserReadable a n) :=
  inferInstanceAs (Decidable (_ ∧ _))

/-- The `n` bytes from `a` on. -/
def bytes (m : Memory) (a : UInt64) (n : Nat) : Vector UInt8 n :=
  Vector.ofFn fun i => (m.byte (a + .ofNat i)).getD 0

/-- The number of bytes before the first NUL, or the limit when there is no NUL before it;
`none` when a byte that has to be looked at is not readable. -/
def strnlen (m : Memory) (a : UInt64) : Nat → Option Nat
  | 0 => some 0
  | k + 1 =>
    match m.byte a with
    | none => none
    | some b => if b = 0 then some 0 else (strnlen m (a + 1) k).map (· + 1)

/-- A non-empty kernel range is not a user range. -/
theorem InKernel.not_inUser {m : Memory} {a : UInt64} {n : Nat} (h : m.InKernel a n) (hn : 0 < n) :
    ¬ m.InUser a n := fun hu => by
  have h0 := h 0 hn
  rw [hu 0 hn] at h0
  cases h0

/-- Both memories have the same user space. -/
structure SameUser (m m' : Memory) : Prop where
  user : m.user = m'.user
  byte : ∀ a, m.user a = true → m.byte a = m'.byte a

/-- The bytes of `text` are at `a`, and a NUL behind them. -/
structure HoldsText (m : Memory) (a : UInt64) (text : List UInt8) : Prop where
  byte : ∀ i < text.length, m.byte (a + .ofNat i) = text[i]?
  nul : m.byte (a + .ofNat text.length) = some 0

/-- The string `s` is at `a`. -/
structure HoldsStr (m : Memory) (a : UInt64) (s : List UInt8) : Prop extends m.HoldsText a s where
  noNul : 0 ∉ s

/-- Every byte that `strnlen` looks at is in user space. -/
def StrInUser (m : Memory) (a : UInt64) : Nat → Prop
  | 0 => True
  | k + 1 => m.user a = true ∧ ∀ b, m.byte a = some b → b ≠ 0 → StrInUser m (a + 1) k

theorem SameUser.refl (m : Memory) : SameUser m m := ⟨rfl, fun _ _ => rfl⟩

theorem add_ofNat_succ (a : UInt64) (i : Nat) :
    a + UInt64.ofNat (i + 1) = a + 1 + UInt64.ofNat i := by
  rw [UInt64.ofNat_add, UInt64.add_assoc, UInt64.add_comm (UInt64.ofNat i)]
  rfl

theorem strnlen_le {m : Memory} {k : Nat} :
    ∀ {a : UInt64} {len : Nat}, m.strnlen a k = some len → len ≤ k := by
  induction k with
  | zero =>
    intro a len h
    cases h
    exact Nat.le_refl _
  | succ k ih =>
    intro a len h
    unfold strnlen at h
    split at h
    · cases h
    · split at h
      · cases h
        exact Nat.zero_le _
      · obtain ⟨n, hn, rfl⟩ := Option.map_eq_some_iff.mp h
        exact Nat.succ_le_succ (ih hn)

/-- A string in user space has the same length and the same bytes in both memories. -/
theorem SameUser.strnlen {m m' : Memory} (h : m.SameUser m') {k : Nat} :
    ∀ {a : UInt64}, m.StrInUser a k → m.strnlen a k = m'.strnlen a k ∧
      ∀ len, m.strnlen a k = some len →
        ∀ i < len, m.byte (a + .ofNat i) = m'.byte (a + .ofNat i) := by
  induction k with
  | zero =>
    intro a _
    refine ⟨rfl, fun len hlen i hi => ?_⟩
    cases hlen
    exact absurd hi (Nat.not_lt_zero i)
  | succ k ih =>
    intro a hs
    have hbyte := h.byte a hs.1
    cases hb : m.byte a with
    | none =>
      rw [hb] at hbyte
      simp [Memory.strnlen, hb, ← hbyte]
    | some b =>
      rw [hb] at hbyte
      by_cases hz : b = 0
      · simp [Memory.strnlen, hb, ← hbyte, hz]
      · obtain ⟨hlen, hrest⟩ := ih (hs.2 b hb hz)
        refine ⟨by simp [Memory.strnlen, hb, ← hbyte, hz, hlen], fun len hl i hi => ?_⟩
        simp only [Memory.strnlen, hb, if_neg hz] at hl
        obtain ⟨n, hn, rfl⟩ := Option.map_eq_some_iff.mp hl
        cases i with
        | zero => simpa [hb] using hbyte
        | succ i =>
          have hnext := hrest n hn i (by omega)
          rw [add_ofNat_succ]
          exact hnext

end Memory

/-- The number a little-endian byte list stands for. -/
def leNat : List UInt8 → Nat
  | [] => 0
  | b :: bs => b.toNat + 256 * leNat bs

/-- The `n`-byte number at `a`. -/
def Memory.number (m : Memory) (n : Nat) (a : UInt64) : Nat := leNat (m.bytes a n).toList

/-- The bytes before the first NUL. -/
def cstr (bs : List UInt8) : List UInt8 := bs.takeWhile (· ≠ 0)

theorem cstr_replicate_zero (n : Nat) : cstr (List.replicate n 0) = [] := by
  cases n <;> rfl

/-- Texts that agree up to a NUL. -/
theorem cstr_congr {k : Nat} : ∀ {bs bs' : List UInt8}, bs[k]? = some 0 →
    (∀ i ≤ k, bs[i]? = bs'[i]?) → cstr bs = cstr bs' := by
  induction k with
  | zero =>
    intro bs bs' hz heq
    have h0 := heq 0 (Nat.le_refl _)
    rw [hz] at h0
    cases bs <;> cases bs' <;> simp_all [cstr]
  | succ k ih =>
    intro bs bs' hz heq
    have h0 := heq 0 (Nat.zero_le _)
    cases bs with
    | nil => simp at hz
    | cons b bs =>
      cases bs' with
      | nil => simp at h0
      | cons b' bs' =>
        simp only [List.getElem?_cons_zero, Option.some.injEq] at h0
        subst h0
        have hz' : bs[k]? = some 0 := by simpa using hz
        have hrest := ih hz' fun i hi => by simpa using heq (i + 1) (by omega)
        unfold cstr at hrest ⊢
        rw [List.takeWhile_cons, List.takeWhile_cons, hrest]

theorem cstr_append_zero (bs rest : List UInt8) : cstr (bs ++ 0 :: rest) = cstr bs := by
  induction bs with
  | nil => rfl
  | cons b bs ih =>
    unfold cstr at ih ⊢
    rw [List.cons_append, List.takeWhile_cons, List.takeWhile_cons, ih]

/-- The bytes begin with the text and a NUL. -/
theorem cstr_of_getElem {bs text : List UInt8} (h : ∀ i < text.length, bs[i]? = text[i]?)
    (hz : bs[text.length]? = some 0) : cstr bs = cstr text := by
  rw [← cstr_append_zero text []]
  refine cstr_congr hz fun i hi => ?_
  rcases Nat.lt_or_eq_of_le hi with hi | rfl
  · rw [h i hi, List.getElem?_append_left hi]
  · rw [hz, List.getElem?_append_right (Nat.le_refl _), Nat.sub_self]
    rfl

theorem cstr_eq_self {bs : List UInt8} (h : 0 ∉ bs) : cstr bs = bs := by
  apply List.takeWhile_eq_self_iff.mpr
  intro b hb
  simpa using ne_of_mem_of_not_mem hb h

namespace Memory

variable {m : Memory} {a : UInt64} {text s : List UInt8}

theorem getElem?_bytes {n i : Nat} (hi : i < n) {b : UInt8} (hb : m.byte (a + .ofNat i) = some b) :
    (m.bytes a n).toList[i]? = some b := by
  simp [bytes, hi, hb]

theorem take_bytes (m : Memory) (a : UInt64) {k n : Nat} (h : k ≤ n) :
    (m.bytes a n).toList.take k = (m.bytes a k).toList := by
  refine List.ext_getElem (by simp [h]) fun i hi _ => ?_
  simp [bytes]

/-- **A block copy of a text** shows what fits, up to a NUL in it. -/
theorem HoldsText.cstr_bytes (h : m.HoldsText a text) (n : Nat) :
    cstr (m.bytes a n).toList = cstr (text.take n) := by
  have hbyte : ∀ i < n, i < text.length → (m.bytes a n).toList[i]? = text[i]? := by
    intro i hi hlt
    have hb := h.byte i hlt
    rw [List.getElem?_eq_getElem hlt] at hb ⊢
    exact getElem?_bytes hi hb
  rcases Nat.lt_or_ge text.length n with hlt | hge
  · -- the NUL is copied too
    rw [List.take_of_length_le (by omega)]
    exact cstr_of_getElem (fun i hi => hbyte i (by omega) hi) (getElem?_bytes hlt h.nul)
  · have hcopy : (m.bytes a n).toList = text.take n := by
      refine List.ext_getElem? fun i => ?_
      rcases Nat.lt_or_ge i n with hi | hi
      · rw [hbyte i hi (by omega), List.getElem?_take_of_lt hi]
      · rw [List.getElem?_eq_none (by simpa using hi), List.getElem?_eq_none (by simp [hi])]
    rw [hcopy]

theorem HoldsStr.cstr_bytes (h : m.HoldsStr a s) (n : Nat) :
    cstr (m.bytes a n).toList = s.take n := by
  rw [h.toHoldsText.cstr_bytes n, cstr_eq_self fun h0 => h.noNul (List.mem_of_mem_take h0)]

theorem HoldsStr.tail {b : UInt8} (h : m.HoldsStr a (b :: s)) : m.HoldsStr (a + 1) s := by
  refine ⟨⟨fun i hi => ?_, ?_⟩, fun h0 => h.noNul (List.mem_cons_of_mem b h0)⟩
  · have hb := h.byte (i + 1) (Nat.succ_lt_succ hi)
    rwa [add_ofNat_succ, List.getElem?_cons_succ] at hb
  · have hn := h.nul
    rwa [List.length_cons, add_ofNat_succ] at hn

theorem HoldsStr.strnlen (k : Nat) :
    ∀ {a : UInt64} {s : List UInt8}, m.HoldsStr a s → m.strnlen a k = some (min s.length k) := by
  induction k with
  | zero =>
    intro a s _
    simp [Memory.strnlen]
  | succ k ih =>
    intro a s h
    cases s with
    | nil =>
      have hb : m.byte a = some 0 := by simpa using h.nul
      simp [Memory.strnlen, hb]
    | cons b s =>
      have hb : m.byte a = some b := by simpa using h.byte 0 (Nat.succ_pos _)
      have hne : b ≠ 0 := fun he => h.noNul (he ▸ List.mem_cons_self)
      simp only [Memory.strnlen, hb, if_neg hne, ih h.tail, Option.map_some, List.length_cons]
      rw [Nat.succ_min_succ]

end Memory
