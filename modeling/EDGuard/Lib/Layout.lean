import EDGuard.Lib.Memory

/-!
# Fixed-size encodings and the layout of structures

* `leBytes` — a number in little-endian order, the inverse of `leNat`.
* `Codec` — a type whose values are stored in a fixed number of bytes, with its natural alignment;
  `number` and `array` build codecs, `read` takes one value off a byte stream.
* `Member` — a member of a structure; `place` and `sizeof` lay the members out as a C compiler does,
  `packed` writes them one behind the other.
* `LaidOut` — the memory of a structure with a given value.  `laidOut_iff`: where the packed members
  happen to be aligned, that memory is the packed members and some padding behind them.
-/

set_option autoImplicit false

/-! ## Numbers -/

/-- The low `w` bytes of a number. -/
def leBytes : Nat → Nat → List UInt8
  | 0, _ => []
  | w + 1, v => .ofNat v :: leBytes w (v / 256)

theorem length_leBytes (w : Nat) : ∀ v, (leBytes w v).length = w := by
  induction w with
  | zero => exact fun _ => rfl
  | succ w ih => exact fun v => congrArg Nat.succ (ih (v / 256))

theorem leNat_leBytes (w : Nat) : ∀ v, v < 256 ^ w → leNat (leBytes w v) = v := by
  induction w with
  | zero =>
    intro v hv
    simp only [Nat.pow_zero, Nat.lt_one_iff] at hv
    exact hv.symm
  | succ w ih =>
    intro v hv
    have hdiv : v / 256 < 256 ^ w := by
      rw [Nat.div_lt_iff_lt_mul (by omega)]
      simpa [Nat.pow_succ] using hv
    simp only [leBytes, leNat, ih _ hdiv]
    rw [UInt8.toNat_ofNat']
    omega

/-! ## Codecs -/

structure Codec (α : Type) where
  size : Nat
  align : Nat
  encode : α → List UInt8
  decode : List UInt8 → α
  length_encode : ∀ a, (encode a).length = size
  decode_encode : ∀ a, decode (encode a) = a

/-- Equal pieces of a byte string. -/
theorem slice_flatMap {α : Type} {f : α → List UInt8} {size : Nat} (hf : ∀ a, (f a).length = size) :
    ∀ (l : List α) (i : Nat) (hi : i < l.length),
      ((l.flatMap f).drop (i * size)).take size = f l[i]
  | a :: l, 0, _ => by
    simp [List.take_left' (hf a)]
  | a :: l, i + 1, hi => by
    have hrest := slice_flatMap hf l i (Nat.lt_of_succ_lt_succ hi)
    rw [List.flatMap_cons, Nat.succ_mul, Nat.add_comm, ← List.drop_drop, List.drop_left' (hf a)]
    exact hrest

namespace Codec

variable {α : Type}

/-- A `w`-byte number. -/
def number (w : Nat) (toNat : α → Nat) (ofNat : Nat → α) (hlt : ∀ a, toNat a < 256 ^ w)
    (hinv : ∀ a, ofNat (toNat a) = a) : Codec α where
  size := w
  align := w
  encode a := leBytes w (toNat a)
  decode bs := ofNat (leNat bs)
  length_encode a := length_leBytes w (toNat a)
  decode_encode a := by rw [leNat_leBytes w _ (hlt a), hinv]

def uint8 : Codec UInt8 :=
  number 1 UInt8.toNat UInt8.ofNat (fun a => a.toNat_lt) (fun _ => UInt8.ofNat_toNat)

def uint16 : Codec UInt16 :=
  number 2 UInt16.toNat UInt16.ofNat (fun a => a.toNat_lt) (fun _ => UInt16.ofNat_toNat)

def uint32 : Codec UInt32 :=
  number 4 UInt32.toNat UInt32.ofNat (fun a => a.toNat_lt) (fun _ => UInt32.ofNat_toNat)

def uint64 : Codec UInt64 :=
  number 8 UInt64.toNat UInt64.ofNat (fun a => a.toNat_lt) (fun _ => UInt64.ofNat_toNat)

def int8 : Codec Int8 :=
  number 1 (fun a => a.toUInt8.toNat) (fun n => (UInt8.ofNat n).toInt8)
    (fun a => a.toUInt8.toNat_lt) (fun a => by simp)

def int32 : Codec Int32 :=
  number 4 (fun a => a.toUInt32.toNat) (fun n => (UInt32.ofNat n).toInt32)
    (fun a => a.toUInt32.toNat_lt) (fun a => by simp)

def int64 : Codec Int64 :=
  number 8 (fun a => a.toUInt64.toNat) (fun n => (UInt64.ofNat n).toInt64)
    (fun a => a.toUInt64.toNat_lt) (fun a => by simp)

/-- The elements one behind the other. -/
def array (c : Codec α) (n : Nat) : Codec (Vector α n) where
  size := n * c.size
  align := c.align
  encode v := v.toList.flatMap c.encode
  decode bs := Vector.ofFn fun i => c.decode ((bs.drop (i * c.size)).take c.size)
  length_encode v := by
    rw [List.length_flatMap, List.map_congr_left fun a _ => c.length_encode a]
    simp
  decode_encode v := by
    refine Vector.ext fun i hi => ?_
    rw [Vector.getElem_ofFn, slice_flatMap c.length_encode _ _ (by simpa using hi),
      c.decode_encode]
    simp

/-- An element of an array, where it is stored. -/
theorem slice_array (c : Codec α) {n : Nat} (v : Vector α n) (i : Fin n) :
    c.decode ((((c.array n).encode v).drop (i * c.size)).take c.size) = v[i] := by
  show c.decode (((v.toList.flatMap c.encode).drop _).take _) = _
  rw [slice_flatMap c.length_encode _ _ (by simp), c.decode_encode]
  simp

/-- Takes one value off a byte stream. -/
def read (c : Codec α) : StateT (List UInt8) Option α := fun bs =>
  if c.size ≤ bs.length then some (c.decode (bs.take c.size), bs.drop c.size) else none

theorem read_append (c : Codec α) {bs : List UInt8} (hbs : bs.length = c.size)
    (rest : List UInt8) : c.read (bs ++ rest) = some (c.decode bs, rest) := by
  have hlen : c.size ≤ (bs ++ rest).length := by
    rw [List.length_append, hbs]
    omega
  rw [read, if_pos hlen, List.take_left' hbs, List.drop_left' hbs]

/-- A reader that begins with a value, on bytes that begin with one. -/
theorem read_bind {β : Type} (c : Codec α) (a : α) (rest : List UInt8)
    (f : α → StateT (List UInt8) Option β) :
    (c.read >>= f) (c.encode a ++ rest) = f a rest := by
  show (c.read (c.encode a ++ rest) >>= fun p => f p.1 p.2) = f a rest
  rw [c.read_append (c.length_encode a), c.decode_encode]
  rfl

end Codec

/-! ## Structures -/

/-- A member of the structure `R`. -/
structure Member (R : Type) where
  {α : Type}
  codec : Codec α
  get : R → α

namespace Layout

variable {R : Type}

/-- The least multiple of `a` from `o` on. -/
def alignUp (o a : Nat) : Nat := (o + a - 1) / a * a

/-- The members at their offsets; the first one goes to `o` or behind. -/
def place : Nat → List (Member R) → List (Nat × Member R)
  | _, [] => []
  | o, m :: ms =>
    (alignUp o m.codec.align, m) :: place (alignUp o m.codec.align + m.codec.size) ms

/-- Where the last member ends. -/
def extent : Nat → List (Member R) → Nat
  | o, [] => o
  | o, m :: ms => extent (alignUp o m.codec.align + m.codec.size) ms

def sizeof (ms : List (Member R)) : Nat :=
  alignUp (extent 0 ms) ((ms.map fun m => m.codec.align).foldl max 1)

/-- The offset of the `i`-th member. -/
def offsetof (ms : List (Member R)) (i : Nat) : Nat := ((place 0 ms)[i]?.map Prod.fst).getD 0

/-- The members without padding between them. -/
def packed (ms : List (Member R)) (r : R) : List UInt8 :=
  ms.flatMap fun m => m.codec.encode (m.get r)

@[simp] theorem packed_nil (r : R) : packed [] r = [] := rfl

@[simp] theorem packed_cons (m : Member R) (ms : List (Member R)) (r : R) :
    packed (m :: ms) r = m.codec.encode (m.get r) ++ packed ms r := List.flatMap_cons

/-- **The memory of a structure**: its members are at their offsets, the padding holds anything. -/
structure LaidOut (ms : List (Member R)) (r : R) (bs : List UInt8) : Prop where
  length : bs.length = sizeof ms
  member : ∀ p ∈ place 0 ms, (bs.drop p.1).take p.2.codec.size = p.2.codec.encode (p.2.get r)

/-- Every member is aligned where the one before it ends. -/
def Snug : Nat → List (Member R) → Prop
  | _, [] => True
  | o, m :: ms => alignUp o m.codec.align = o ∧ Snug (o + m.codec.size) ms

instance instDecidableSnug : ∀ (o : Nat) (ms : List (Member R)), Decidable (Snug o ms)
  | _, [] => isTrue trivial
  | o, m :: ms =>
    have := instDecidableSnug (o + m.codec.size) ms
    inferInstanceAs (Decidable (_ ∧ _))

theorem extent_eq (r : R) : ∀ {o : Nat} {ms : List (Member R)}, Snug o ms →
    extent o ms = o + (packed ms r).length
  | _, [], _ => rfl
  | o, m :: ms, h => by
    have hrest := extent_eq r h.2
    rw [extent, h.1, hrest, packed_cons, List.length_append, m.codec.length_encode, Nat.add_assoc]

/-- Members that follow each other are where the packed bytes put them. -/
theorem members_iff (r : R) (bs : List UInt8) : ∀ {o : Nat} {ms : List (Member R)}, Snug o ms →
    ((∀ p ∈ place o ms, (bs.drop p.1).take p.2.codec.size = p.2.codec.encode (p.2.get r)) ↔
      ∃ pad, bs.drop o = packed ms r ++ pad)
  | o, [], _ => by
    simp [place]
  | o, m :: ms, h => by
    rw [place, h.1, List.forall_mem_cons, members_iff r bs h.2]
    have hlen := m.codec.length_encode (m.get r)
    constructor
    · rintro ⟨hm, pad, hpad⟩
      refine ⟨pad, ?_⟩
      rw [← List.take_append_drop m.codec.size (bs.drop o), hm, List.drop_drop, hpad, packed_cons,
        List.append_assoc]
    · rintro ⟨pad, hpad⟩
      have hcons : bs.drop o = m.codec.encode (m.get r) ++ (packed ms r ++ pad) := by
        rw [hpad, packed_cons, List.append_assoc]
      refine ⟨?_, pad, ?_⟩
      · rw [hcons, List.take_left' hlen]
      · rw [← List.drop_drop, hcons, List.drop_left' hlen]

/-- **Aligned members**: the memory of the structure is the packed members and the padding behind
them. -/
theorem laidOut_iff {ms : List (Member R)} {r : R} {bs : List UInt8} (h : Snug 0 ms) :
    LaidOut ms r bs ↔ bs.length = sizeof ms ∧ ∃ pad, bs = packed ms r ++ pad := by
  have hiff := members_iff r bs h
  rw [List.drop_zero] at hiff
  rw [← hiff]
  exact ⟨fun hl => ⟨hl.length, hl.member⟩, fun hl => ⟨hl.1, hl.2⟩⟩

end Layout
