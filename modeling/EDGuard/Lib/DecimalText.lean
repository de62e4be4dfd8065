import Mathlib.Data.List.Basic
import Mathlib.Data.List.TakeWhile

/-!
# Decimal numbers as text

* `digits` — a number in decimal, as ASCII bytes without leading zeros; `value` — the number that a
  string of digits stands for.
* `value_digits` — **the round trip**.
* `takeWhile_digits_append` — the digits end where another byte begins.
-/

set_option autoImplicit false

namespace DecimalText

def isDigit (b : UInt8) : Bool := decide (48 ≤ b.toNat ∧ b.toNat ≤ 57)

def digits (n : Nat) : List UInt8 := (Nat.toDigits 10 n).map fun c => UInt8.ofNat c.toNat

def value (ds : List UInt8) : Nat := ds.foldl (fun n b => 10 * n + (b.toNat - 48)) 0

theorem toNat_of_isDigit {c : Char} (h : c.isDigit = true) :
    48 ≤ c.toNat ∧ c.toNat ≤ 57 ∧ (UInt8.ofNat c.toNat).toNat = c.toNat := by
  have hrange : 48 ≤ c.toNat ∧ c.toNat ≤ 57 := Char.isDigit_iff_toNat.mp h
  refine ⟨hrange.1, hrange.2, UInt8.toNat_ofNat_of_lt' ?_⟩
  show c.toNat < 256
  omega

theorem isDigit_of_mem_digits {n : Nat} {b : UInt8} (hb : b ∈ digits n) : isDigit b = true := by
  obtain ⟨c, hc, rfl⟩ := List.mem_map.mp hb
  obtain ⟨hlo, hhi, hval⟩ :=
    toNat_of_isDigit (Nat.isDigit_of_mem_toDigits (by decide) (by decide) hc)
  simp [isDigit, hval, hlo, hhi]

theorem digits_ne_nil (n : Nat) : digits n ≠ [] := by
  simp [digits]

/-- **The digits of a number stand for it.** -/
theorem value_digits (n : Nat) : value (digits n) = n := by
  have hfold : value (digits n) = Nat.ofDigitChars 10 (Nat.toDigits 10 n) 0 := by
    unfold value digits
    rw [List.foldl_map, Nat.ofDigitChars_eq_foldl]
    apply List.foldl_ext
    intro acc c hc
    rw [(toNat_of_isDigit (Nat.isDigit_of_mem_toDigits (by decide) (by decide) hc)).2.2]
    rfl
  rw [hfold, Nat.ofDigitChars_ten_toDigits]

theorem takeWhile_digits_append {n : Nat} {b : UInt8} (hb : isDigit b = false)
    (rest : List UInt8) : (digits n ++ b :: rest).takeWhile isDigit = digits n := by
  rw [List.takeWhile_append_of_pos fun c hc => isDigit_of_mem_digits hc, List.takeWhile_cons, hb]
  simp

/-- A text of digits begins with one. -/
theorem exists_digits (n : Nat) : ∃ b bs, digits n = b :: bs ∧ isDigit b = true := by
  obtain ⟨b, bs, hcons⟩ := List.exists_cons_of_ne_nil (digits_ne_nil n)
  refine ⟨b, bs, hcons, isDigit_of_mem_digits (n := n) ?_⟩
  rw [hcons]
  exact List.mem_cons_self

end DecimalText
