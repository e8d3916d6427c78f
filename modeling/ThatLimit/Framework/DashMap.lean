import Mathlib.Data.List.AList
/-!
# A sharded concurrent map, one operation at a time

Every call on the map locks one shard, so each is a single step on a finite map.
Entries are kept in an association list without duplicate keys. The order in
which an iteration visits the keys is not determined by the map: it is a
permutation of `keys` supplied by whoever iterates.
-/

/-- A finite map with one value per key. -/
abbrev DashMap (κ ν : Type) := AList fun _ : κ => ν

namespace DashMap

variable {κ ν : Type} [DecidableEq κ]

def get (m : DashMap κ ν) (k : κ) : Option ν := m.lookup k

def insert (m : DashMap κ ν) (k : κ) (v : ν) : DashMap κ ν := AList.insert k v m

def remove (m : DashMap κ ν) (k : κ) : DashMap κ ν := AList.erase k m

/-- A write through a shared reference: the value under `k` changes in place. -/
def modify (m : DashMap κ ν) (k : κ) (f : ν → ν) : DashMap κ ν :=
  match m.get k with
  | some v => m.insert k (f v)
  | none => m

def isEmpty (m : DashMap κ ν) : Bool := m.entries.isEmpty

@[simp] theorem get_empty (k : κ) : get (∅ : DashMap κ ν) k = none := rfl

@[simp] theorem get_insert_self (m : DashMap κ ν) (k : κ) (v : ν) :
    (m.insert k v).get k = some v := AList.lookup_insert m

@[simp] theorem get_insert_ne (m : DashMap κ ν) {k k' : κ} (v : ν) (h : k' ≠ k) :
    (m.insert k v).get k' = m.get k' := AList.lookup_insert_ne h

theorem get_insert (m : DashMap κ ν) (k k' : κ) (v : ν) :
    (m.insert k v).get k' = if k' = k then some v else m.get k' := by
  by_cases h : k' = k
  · subst h; simp
  · simp [h]

@[simp] theorem get_remove_self (m : DashMap κ ν) (k : κ) : (m.remove k).get k = none :=
  AList.lookup_erase k m

@[simp] theorem get_remove_ne (m : DashMap κ ν) {k k' : κ} (h : k' ≠ k) :
    (m.remove k).get k' = m.get k' := AList.lookup_erase_ne h

theorem get_remove (m : DashMap κ ν) (k k' : κ) :
    (m.remove k).get k' = if k' = k then none else m.get k' := by
  by_cases h : k' = k
  · subst h; simp
  · simp [h]

theorem get_insert_eq_some {m : DashMap κ ν} {k k' : κ} {v v' : ν} :
    (m.insert k v).get k' = some v' ↔ (k' = k ∧ v = v') ∨ (k' ≠ k ∧ m.get k' = some v') := by
  by_cases h : k' = k
  · subst h; simp
  · simp [h]

theorem get_remove_eq_some {m : DashMap κ ν} {k k' : κ} {v : ν} :
    (m.remove k).get k' = some v ↔ k' ≠ k ∧ m.get k' = some v := by
  by_cases h : k' = k
  · subst h; simp
  · simp [h]

@[simp] theorem get_modify_self (m : DashMap κ ν) (k : κ) (f : ν → ν) :
    (m.modify k f).get k = (m.get k).map f := by
  unfold modify
  cases h : m.get k <;> simp [h]

@[simp] theorem get_modify_ne (m : DashMap κ ν) {k k' : κ} (f : ν → ν) (h : k' ≠ k) :
    (m.modify k f).get k' = m.get k' := by
  unfold modify
  cases m.get k <;> simp [h]

theorem get_modify (m : DashMap κ ν) (k k' : κ) (f : ν → ν) :
    (m.modify k f).get k' = if k' = k then (m.get k).map f else m.get k' := by
  by_cases h : k' = k
  · subst h; simp
  · simp [h]

theorem get_modify_eq_some {m : DashMap κ ν} {k k' : κ} {f : ν → ν} {v : ν} :
    (m.modify k f).get k' = some v ↔ ∃ v₀, m.get k' = some v₀ ∧ ((k' = k ∧ f v₀ = v) ∨ (k' ≠ k ∧ v₀ = v)) := by
  by_cases h : k' = k
  · subst h; simp
  · simp [h]

theorem get_modify_eq_none {m : DashMap κ ν} {k k' : κ} {f : ν → ν} :
    (m.modify k f).get k' = none ↔ m.get k' = none := by
  by_cases h : k' = k
  · subst h; simp
  · simp [h]

theorem mem_keys_iff (m : DashMap κ ν) (k : κ) : k ∈ m.keys ↔ (m.get k).isSome :=
  AList.mem_keys.symm.trans AList.lookup_isSome.symm

theorem get_of_isEmpty {m : DashMap κ ν} (h : m.isEmpty = true) (k : κ) : m.get k = none := by
  have he : m = ∅ := AList.ext (List.isEmpty_iff.mp h)
  rw [he, get_empty]

theorem isEmpty_of_get {m : DashMap κ ν} (h : ∀ k, m.get k = none) : m.isEmpty = true := by
  have hkeys : m.keys = [] := List.eq_nil_iff_forall_not_mem.mpr fun k hk => by simp [mem_keys_iff, h k] at hk
  exact List.isEmpty_iff.mpr (List.map_eq_nil_iff.mp hkeys)

theorem remove_insert (m : DashMap κ ν) (k : κ) (v : ν) (h : m.get k = none) :
    (m.insert k v).remove k = m := by
  have hk : k ∉ m := AList.lookup_eq_none.mp h
  apply AList.ext
  unfold insert remove
  rw [AList.insert_of_notMem hk]
  have he : List.kerase k ((⟨k, v⟩ : Sigma fun _ : κ => ν) :: m.entries) = m.entries :=
    List.kerase_cons_eq rfl
  exact he

end DashMap
