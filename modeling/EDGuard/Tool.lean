import Mathlib.Data.List.GetD
import Mathlib.Data.List.Infix
import EDGuard.Lib.FixedText

/-!
# String helpers (`pkg/tool`)

Go strings are byte strings, `List UInt8`.

* `S264B`, `B642S` — the fixed-width cluster name codec of `tools.go`.  The loops carry the
  proof that every index is in range, so an out-of-range access cannot be written down.
* `ParseImage`, `ParseContainerId` — `container.go`; the unchecked slice `parts[1][:12]` makes
  the second one partial (`none` is the Go panic).

`B642S_eq` and `S264B_eq_pad` say what the two codec loops compute, and
`ParseContainerId_eq_none_iff` when the slice panics.
-/

set_option autoImplicit false

namespace EDGuard

abbrev GoString := List UInt8

/-- A Go string literal (ASCII). -/
def lit (cs : List Char) : GoString := cs.map fun c => UInt8.ofNat c.toNat

/-! ## `tools.go` -/

/-- `for i := 0; i < n; i++ { bs[i] = s[i] }`. -/
def copyLoop (s : GoString) (n : Nat) (h64 : n ≤ 64) (hs : n ≤ s.length) (bs : Vector UInt8 64) :
    Vector UInt8 64 :=
  Nat.fold n (fun i hi bs => bs.set i s[i]) bs

/-- `for i := 0; i < 64-slen; i++ { bs[slen+i] = 0 }`. -/
def zeroLoop (slen : Nat) (bs : Vector UInt8 64) : Vector UInt8 64 :=
  Nat.fold (64 - slen) (fun i hi bs => bs.set (slen + i) 0) bs

def S264B (s : GoString) : Vector UInt8 64 :=
  let bs := Vector.replicate 64 0
  if s.length = 0 then bs
  else if h : 64 ≤ s.length then copyLoop s 64 (Nat.le_refl _) h bs
  else zeroLoop s.length (copyLoop s s.length (by omega) (Nat.le_refl _) bs)

/-- The loop of `B642S`: append until the first NUL. -/
def appendLoop : List UInt8 → GoString → GoString
  | [], ba => ba
  | b :: bs, ba => if b = 0 then ba else appendLoop bs (ba ++ [b])

def B642S (bs : Vector UInt8 64) : GoString := appendLoop bs.toList []

theorem getElem_copyLoop (s : GoString) : ∀ (n : Nat) (h64 : n ≤ 64) (hs : n ≤ s.length)
    (bs : Vector UInt8 64) (j : Nat) (hj : j < 64),
    (copyLoop s n h64 hs bs)[j] = if h : j < n then s[j] else bs[j]
  | 0, _, _, bs, j, hj => by simp [copyLoop]
  | n + 1, h64, hs, bs, j, hj => by
    have ih := getElem_copyLoop s n (by omega) (by omega) bs j hj
    unfold copyLoop at ih ⊢
    rw [Nat.fold_succ, Vector.getElem_set]
    by_cases hjn : n = j
    · subst hjn
      simp
    · rw [if_neg hjn, ih]
      by_cases hlt : j < n
      · rw [dif_pos hlt, dif_pos (by omega)]
      · rw [dif_neg hlt, dif_neg (by omega)]

theorem getElem_zeroLoop (slen : Nat) (bs : Vector UInt8 64) (j : Nat) (hj : j < 64) :
    (zeroLoop slen bs)[j] = if slen ≤ j then 0 else bs[j] := by
  have hfold : ∀ (k : Nat) (hk : k ≤ 64 - slen),
      (Nat.fold k (fun i hi bs => bs.set (slen + i) 0) bs : Vector UInt8 64)[j] =
        if slen ≤ j ∧ j < slen + k then 0 else bs[j] := by
    intro k
    induction k with
    | zero => intro _; simp
    | succ k ih =>
      intro hk
      rw [Nat.fold_succ, Vector.getElem_set, ih (by omega)]
      by_cases hjk : slen + k = j
      · rw [if_pos hjk, if_pos (by omega)]
      · rw [if_neg hjk]
        exact if_congr (by omega) rfl rfl
  unfold zeroLoop
  rw [hfold _ (Nat.le_refl _)]
  exact if_congr (by omega) rfl rfl

/-- **Byte `j` of the encoding is byte `j` of the string, or zero past its end.** -/
theorem getElem_S264B (s : GoString) (j : Nat) (hj : j < 64) : (S264B s)[j] = s.getD j 0 := by
  unfold S264B
  split
  · rename_i h0
    obtain rfl := List.length_eq_zero_iff.mp h0
    simp
  · split
    · rename_i h64
      rw [getElem_copyLoop, dif_pos hj, List.getD_eq_getElem _ _ (by omega)]
    · rw [getElem_zeroLoop, getElem_copyLoop]
      by_cases hlt : j < s.length
      · rw [if_neg (by omega), dif_pos hlt, List.getD_eq_getElem _ _ hlt]
      · rw [if_pos (by omega), List.getD_eq_default _ _ (by omega)]

/-- **The encoder fills a field.** -/
theorem S264B_eq_pad (s : GoString) : S264B s = FixedText.pad 64 s := by
  refine Vector.ext fun j hj => ?_
  rw [getElem_S264B s j hj]
  exact (FixedText.get_pad 64 s ⟨j, hj⟩).symm

theorem appendLoop_eq : ∀ (bs ba : List UInt8), appendLoop bs ba = ba ++ cstr bs
  | [], ba => by simp [appendLoop, cstr]
  | b :: bs, ba => by
    unfold appendLoop cstr
    rw [List.takeWhile_cons]
    by_cases hb : b = 0
    · simp [hb]
    · rw [if_neg hb, if_pos (by simpa using hb), appendLoop_eq bs (ba ++ [b])]
      simp [cstr]

/-- **The decoder stops at the first NUL.** -/
theorem B642S_eq (bs : Vector UInt8 64) : B642S bs = cstr bs.toList := by
  unfold B642S
  rw [appendLoop_eq, List.nil_append]

/-! ## `container.go` -/

/-- `strings.Split` for a non-empty separator: `skip` counts the bytes of a separator that was
just found, `part` is the current part, newest byte first. -/
def splitAux (sep : GoString) : Nat → GoString → GoString → List GoString
  | _, part, [] => [part.reverse]
  | skip + 1, part, _ :: s => splitAux sep skip part s
  | 0, part, c :: s =>
    if sep.isPrefixOf (c :: s) then part.reverse :: splitAux sep (sep.length - 1) [] s
    else splitAux sep 0 (c :: part) s

def split (s sep : GoString) : List GoString := splitAux sep 0 [] s

theorem splitAux_ne_nil (sep : GoString) : ∀ (skip : Nat) (part s : GoString),
    splitAux sep skip part s ≠ []
  | 0, _, [] | _ + 1, _, [] => by simp [splitAux]
  | skip + 1, part, _ :: s => splitAux_ne_nil sep skip part s
  | 0, part, c :: s => by
    unfold splitAux
    split
    · simp
    · exact splitAux_ne_nil sep 0 (c :: part) s

/-- No part is ever missing: `parts[len(parts)-1]` is in range. -/
theorem split_ne_nil (s sep : GoString) : split s sep ≠ [] := splitAux_ne_nil sep 0 [] s

theorem intercalate_splitAux {sep : GoString} (hsep : sep ≠ []) :
    ∀ (skip : Nat) (part s : GoString),
      sep.intercalate (splitAux sep skip part s) = part.reverse ++ s.drop skip
  | 0, part, [] | _ + 1, part, [] => by simp [splitAux, List.intercalate]
  | skip + 1, part, _ :: s => by simpa [splitAux] using intercalate_splitAux hsep skip part s
  | 0, part, c :: s => by
    unfold splitAux
    split
    · rename_i hp
      obtain ⟨rest, hrest⟩ := List.isPrefixOf_iff_prefix.mp hp
      obtain ⟨q, qs, hparts⟩ :=
        List.exists_cons_of_ne_nil (splitAux_ne_nil sep (sep.length - 1) [] s)
      have hdrop : sep ++ s.drop (sep.length - 1) = c :: s := by
        obtain ⟨b, sep', rfl⟩ := List.exists_cons_of_ne_nil hsep
        obtain ⟨rfl, rfl⟩ := List.cons_eq_cons.mp hrest
        simp
      have ih := intercalate_splitAux hsep (sep.length - 1) [] s
      rw [hparts] at ih ⊢
      rw [List.intercalate_cons_cons, ih, List.reverse_nil, List.nil_append, List.append_assoc,
        hdrop]
      rfl
    · rw [intercalate_splitAux hsep 0 (c :: part) s]
      simp

/-- The parts, joined again by the separator. -/
theorem intercalate_split {sep : GoString} (hsep : sep ≠ []) (s : GoString) :
    sep.intercalate (split s sep) = s := intercalate_splitAux hsep 0 [] s

theorem splitAux_of_not_infix {sep : GoString} : ∀ {part s : GoString}, ¬ sep <:+: s →
    splitAux sep 0 part s = [part.reverse ++ s]
  | part, [], _ => by simp [splitAux]
  | part, c :: s, h => by
    rw [List.infix_cons_iff, not_or] at h
    have hp : sep.isPrefixOf (c :: s) = false := by
      simpa [← List.isPrefixOf_iff_prefix] using h.1
    unfold splitAux
    rw [hp, if_neg Bool.false_ne_true, splitAux_of_not_infix h.2]
    simp

theorem two_le_length_splitAux {sep : GoString} : ∀ {part s : GoString}, sep <:+: s → sep ≠ [] →
    2 ≤ (splitAux sep 0 part s).length
  | part, [], h, hsep => absurd (List.infix_nil.mp h) hsep
  | part, c :: s, h, hsep => by
    unfold splitAux
    split
    · have hpos := List.length_pos_iff.mpr (splitAux_ne_nil sep (sep.length - 1) [] s)
      rw [List.length_cons]
      omega
    · rename_i hp
      rcases List.infix_cons_iff.mp h with hpre | hin
      · exact absurd (List.isPrefixOf_iff_prefix.mpr hpre) hp
      · exact two_le_length_splitAux hin hsep

/-- **A string is its own only part exactly if the separator does not occur in it.** -/
theorem split_eq_singleton_iff {s sep : GoString} (hsep : sep ≠ []) :
    split s sep = [s] ↔ ¬ sep <:+: s := by
  constructor
  · intro h hin
    have hlen : 2 ≤ (split s sep).length := two_le_length_splitAux hin hsep
    rw [h] at hlen
    simp at hlen
  · exact fun h => splitAux_of_not_infix h

/-- `strings.Contains`. -/
def contains (s substr : GoString) : Bool := decide (substr <:+: s)

/-- The part after the last `/`. -/
def ParseImage (image : GoString) : GoString := (split image (lit ['/'])).getLastD []

/-- `cri.Docker`. -/
def Docker : GoString := lit ['d', 'o', 'c', 'k', 'e', 'r']

/-- `none` is the panic of `parts[1][:12]` on a short id. -/
def ParseContainerId (containerId : GoString) : Option GoString :=
  match split containerId (lit [':', '/', '/']) with
  | [part] => some part
  | [schema, id] =>
    if schema = Docker then (if 12 ≤ id.length then some (id.take 12) else none) else some id
  | _ => some containerId

/-- `"docker://"`. -/
def dockerPrefix : GoString := Docker ++ lit [':', '/', '/']

theorem split_dockerPrefix (id : GoString) :
    split (dockerPrefix ++ id) (lit [':', '/', '/']) = Docker :: split id (lit [':', '/', '/']) :=
  rfl

/-- A docker id of fewer than 12 bytes, after the scheme. -/
def ShortDockerId (containerId : GoString) : Prop :=
  ∃ id, containerId = dockerPrefix ++ id ∧ ¬ lit [':', '/', '/'] <:+: id ∧ id.length < 12

/-- **`ParseContainerId` panics exactly on a short docker id.** -/
theorem ParseContainerId_eq_none_iff {containerId : GoString} :
    ParseContainerId containerId = none ↔ ShortDockerId containerId := by
  have hsep : lit [':', '/', '/'] ≠ [] := by decide
  constructor
  · intro h
    unfold ParseContainerId at h
    split at h
    · cases h
    · rename_i schema id hparts
      have hjoin := intercalate_split hsep containerId
      split at h
      · rename_i hdocker
        subst hdocker
        split at h
        · cases h
        · rename_i hlen
          have hid : containerId = dockerPrefix ++ id := by
            rw [← hjoin, hparts]
            simp [List.intercalate, dockerPrefix]
          refine ⟨id, hid, ?_, by omega⟩
          rw [hid, split_dockerPrefix] at hparts
          exact (split_eq_singleton_iff hsep).mp (List.cons_eq_cons.mp hparts).2
      · cases h
    · cases h
  · rintro ⟨id, rfl, hin, hlen⟩
    unfold ParseContainerId
    rw [split_dockerPrefix, (split_eq_singleton_iff hsep).mpr hin]
    simp only [if_true]
    exact if_neg (by omega)

example : ParseImage (lit ['a', '/', 'b', '/', 'm', ':', '5']) = lit ['m', ':', '5'] := by decide

example : ParseContainerId (lit ['c', ':', '/', '/', '9', 'f']) = some (lit ['9', 'f']) := by decide

end EDGuard
