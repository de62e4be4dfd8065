import Mathlib.Data.List.Pairwise

/-!
# Maps of address ranges

A segment takes a range of addresses to a range of places, in order.  An address map is a list of
segments.

* `Maps` — an address and its place; `Mapped` — an address that has one.
* `Maps.unique` — in a map of disjoint segments an address has one place.
* `lookup` — the place by the first segment that holds the address.  `lookup_eq_some_iff`: for
  disjoint segments the order does not matter.
-/

set_option autoImplicit false

/-- The addresses from `base` to `base + size`, at `target`. -/
structure Segment where
  base : Nat
  size : Nat
  target : Nat

namespace Segment

def Holds (g : Segment) (v : Nat) : Prop := g.base ≤ v ∧ v < g.base + g.size

instance (g : Segment) (v : Nat) : Decidable (g.Holds v) :=
  inferInstanceAs (Decidable (_ ∧ _))

def place (g : Segment) (v : Nat) : Nat := v - g.base + g.target

end Segment

abbrev AddressMap := List Segment

namespace AddressMap

variable {m : AddressMap} {v w w' : Nat}

/-- The address `v` is at the place `w`. -/
def Maps (m : AddressMap) (v w : Nat) : Prop := ∃ g ∈ m, g.Holds v ∧ w = g.place v

def Mapped (m : AddressMap) (v : Nat) : Prop := ∃ w, m.Maps v w

/-- No address is in two segments. -/
def Disjoint (m : AddressMap) : Prop := m.Pairwise fun g g' => ∀ v, ¬ (g.Holds v ∧ g'.Holds v)

def lookup (m : AddressMap) (v : Nat) : Option Nat :=
  (m.find? fun g => decide (g.Holds v)).map fun g => g.place v

theorem mapped_iff : m.Mapped v ↔ ∃ g ∈ m, g.Holds v := by
  constructor
  · rintro ⟨w, g, hg, hv, _⟩
    exact ⟨g, hg, hv⟩
  · rintro ⟨g, hg, hv⟩
    exact ⟨g.place v, g, hg, hv, rfl⟩

/-- The segment that holds an address. -/
theorem Disjoint.eq_of_holds (hd : m.Disjoint) {g g' : Segment} (hg : g ∈ m) (hg' : g' ∈ m)
    (hv : g.Holds v) (hv' : g'.Holds v) : g = g' := by
  by_contra hne
  have hsymm : Std.Symm fun a b : Segment => ∀ u, ¬ (a.Holds u ∧ b.Holds u) :=
    ⟨fun _ _ h u hu => h u hu.symm⟩
  exact hd.forall hg hg' hne v ⟨hv, hv'⟩

theorem Maps.unique (hd : m.Disjoint) (h : m.Maps v w) (h' : m.Maps v w') : w = w' := by
  obtain ⟨g, hg, hv, rfl⟩ := h
  obtain ⟨g', hg', hv', rfl⟩ := h'
  rw [hd.eq_of_holds hg hg' hv hv']

theorem maps_of_lookup (h : m.lookup v = some w) : m.Maps v w := by
  obtain ⟨g, hfind, rfl⟩ := Option.map_eq_some_iff.mp h
  have hv : g.Holds v := by simpa using List.find?_some hfind
  exact ⟨g, List.mem_of_find?_eq_some hfind, hv, rfl⟩

theorem lookup_eq_none_iff : m.lookup v = none ↔ ¬ m.Mapped v := by
  unfold lookup
  rw [Option.map_eq_none_iff, List.find?_eq_none, mapped_iff]
  simp

/-- **The first segment is the only one.** -/
theorem lookup_eq_some_iff (hd : m.Disjoint) : m.lookup v = some w ↔ m.Maps v w := by
  constructor
  · exact maps_of_lookup
  · intro h
    cases hl : m.lookup v with
    | none => exact absurd ⟨w, h⟩ (lookup_eq_none_iff.mp hl)
    | some w' => rw [(maps_of_lookup hl).unique hd h]

end AddressMap
