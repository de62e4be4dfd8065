import Mathlib.Data.Finmap

/-!
# Maps with a fixed number of entries

`BoundedMap K V cap` is a finite map that never holds more than `cap` keys; the bound is a
field, so an overfull map cannot be built.

* `update` inserts or overwrites and is rejected (`none`) exactly when it would add a key to a
  full map.
* `delete` removes a key and is rejected when the key is absent.
* `modify` changes the value of a present key in place and leaves every other key alone.
-/

set_option autoImplicit false

/-- A finite map with at most `cap` keys. -/
structure BoundedMap (K V : Type) (cap : Nat) where
  entries : Finmap fun _ : K => V
  card_le : entries.keys.card ≤ cap

namespace BoundedMap

variable {K V : Type} {cap : Nat}

def empty : BoundedMap K V cap := ⟨∅, by simp⟩

def keys (m : BoundedMap K V cap) : Finset K := m.entries.keys

@[simp] theorem keys_empty : (empty : BoundedMap K V cap).keys = ∅ := Finmap.keys_empty

variable [DecidableEq K]

def lookup (m : BoundedMap K V cap) (k : K) : Option V := m.entries.lookup k

/-- An update of `k` is accepted: the key is present or there is room for one more. -/
def Accepts (m : BoundedMap K V cap) (k : K) : Prop := k ∈ m.keys ∨ m.keys.card < cap

instance (m : BoundedMap K V cap) (k : K) : Decidable (m.Accepts k) :=
  inferInstanceAs (Decidable (_ ∨ _))

theorem keys_insert (s : Finmap fun _ : K => V) (k : K) (v : V) :
    (s.insert k v).keys = insert k s.keys := by
  ext a
  simp [Finmap.mem_keys]

theorem card_insert_le {m : BoundedMap K V cap} {k : K} (h : m.Accepts k) (v : V) :
    (m.entries.insert k v).keys.card ≤ cap := by
  rw [keys_insert]
  rcases h with h | h
  · have hk : insert k m.entries.keys = m.entries.keys := Finset.insert_eq_of_mem h
    rw [hk]
    exact m.card_le
  · exact (Finset.card_insert_le _ _).trans h

/-- Insert or overwrite; rejected when it would add a key to a full map. -/
def update (m : BoundedMap K V cap) (k : K) (v : V) : Option (BoundedMap K V cap) :=
  if h : m.Accepts k then some ⟨m.entries.insert k v, card_insert_le h v⟩ else none

/-- Remove a key; rejected when it is absent. -/
def delete (m : BoundedMap K V cap) (k : K) : Option (BoundedMap K V cap) :=
  if k ∈ m.keys then
    some ⟨m.entries.erase k, by
      rw [Finmap.keys_erase]; exact (Finset.card_erase_le).trans m.card_le⟩
  else none

/-- Change the value of a present key in place. -/
def modify (m : BoundedMap K V cap) (k : K) (f : V → V) : BoundedMap K V cap :=
  match h : m.entries.lookup k with
  | none => m
  | some v => ⟨m.entries.insert k (f v), by
      rw [keys_insert, Finset.insert_eq_of_mem (Finmap.mem_keys.mpr
        (Finmap.mem_of_lookup_eq_some h))]
      exact m.card_le⟩

@[ext] theorem ext {m m' : BoundedMap K V cap} (h : ∀ k, m.lookup k = m'.lookup k) : m = m' := by
  obtain ⟨e, he⟩ := m
  obtain ⟨e', he'⟩ := m'
  obtain rfl : e = e' := Finmap.ext_lookup h
  rfl

@[simp] theorem lookup_empty (k : K) : (empty : BoundedMap K V cap).lookup k = none :=
  Finmap.lookup_empty k

theorem mem_keys_iff {m : BoundedMap K V cap} {k : K} : k ∈ m.keys ↔ ∃ v, m.lookup k = some v :=
  Finmap.mem_keys.trans Finmap.mem_iff

theorem mem_keys_of_lookup {m : BoundedMap K V cap} {k : K} {v : V} (h : m.lookup k = some v) :
    k ∈ m.keys := mem_keys_iff.mpr ⟨v, h⟩

theorem lookup_eq_none_iff {m : BoundedMap K V cap} {k : K} : m.lookup k = none ↔ k ∉ m.keys :=
  Finmap.lookup_eq_none.trans Finmap.mem_keys.symm.not

/-! ## Update -/

/-- **Updates are rejected exactly on a full map without the key.** -/
theorem update_eq_none_iff {m : BoundedMap K V cap} {k : K} {v : V} :
    m.update k v = none ↔ ¬ m.Accepts k := by
  unfold update
  split <;> simp_all

theorem exists_update {m : BoundedMap K V cap} {k : K} (h : m.Accepts k) (v : V) :
    ∃ m', m.update k v = some m' := ⟨_, dif_pos h⟩

theorem accepts_of_update {m m' : BoundedMap K V cap} {k : K} {v : V}
    (h : m.update k v = some m') : m.Accepts k := by
  by_contra hn
  rw [update_eq_none_iff.mpr hn] at h
  cases h

theorem lookup_update {m m' : BoundedMap K V cap} {k : K} {v : V} (h : m.update k v = some m')
    (j : K) : m'.lookup j = if j = k then some v else m.lookup j := by
  unfold update at h
  split at h
  · cases h
    split
    · subst j; exact Finmap.lookup_insert _
    · rename_i hj; exact Finmap.lookup_insert_of_ne _ hj
  · cases h

theorem keys_update {m m' : BoundedMap K V cap} {k : K} {v : V} (h : m.update k v = some m') :
    m'.keys = insert k m.keys := by
  unfold update at h
  split at h
  · cases h; exact keys_insert _ _ _
  · cases h

/-! ## Delete -/

theorem delete_eq_none_iff {m : BoundedMap K V cap} {k : K} : m.delete k = none ↔ k ∉ m.keys := by
  unfold delete
  split <;> simp_all

theorem lookup_delete {m m' : BoundedMap K V cap} {k : K} (h : m.delete k = some m') (j : K) :
    m'.lookup j = if j = k then none else m.lookup j := by
  unfold delete at h
  split at h
  · cases h
    split
    · subst j; exact Finmap.lookup_erase _ _
    · rename_i hj; exact Finmap.lookup_erase_ne hj
  · cases h

theorem keys_delete {m m' : BoundedMap K V cap} {k : K} (h : m.delete k = some m') :
    m'.keys = m.keys.erase k := by
  unfold delete at h
  split at h
  · cases h
    exact Finmap.keys_erase _ _
  · cases h

/-- After a deletion every update is accepted. -/
theorem accepts_of_delete {m m' : BoundedMap K V cap} {k j : K} (hd : m.delete j = some m') :
    m'.Accepts k := by
  have hj : j ∈ m.keys := by
    by_contra hn
    rw [delete_eq_none_iff.mpr hn] at hd
    cases hd
  have hcard : m'.keys.card < cap := by
    rw [keys_delete hd]
    exact (Finset.card_erase_lt_of_mem hj).trans_le m.card_le
  exact Or.inr hcard

/-! ## In-place change -/

theorem lookup_modify (m : BoundedMap K V cap) (k : K) (f : V → V) (j : K) :
    (m.modify k f).lookup j = if j = k then (m.lookup k).map f else m.lookup j := by
  unfold modify
  split
  · rename_i h
    split
    · subst j; simp [lookup, h]
    · rfl
  · rename_i v h
    split
    · subst j; simp [lookup, h]
    · rename_i hj; exact Finmap.lookup_insert_of_ne _ hj

theorem keys_modify (m : BoundedMap K V cap) (k : K) (f : V → V) :
    (m.modify k f).keys = m.keys := by
  ext j
  rw [mem_keys_iff, mem_keys_iff, lookup_modify]
  split
  · subst j; cases m.lookup k <;> simp
  · rfl

end BoundedMap
