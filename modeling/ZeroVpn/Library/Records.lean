import Mathlib.Data.List.Nodup
import Mathlib.Tactic.Common

/-!
# Records keyed by strings

An object used as a map: entries in the order in which their keys came in.  `put` gives
a key a value where the key stands, or behind the other entries.
-/

namespace ZeroVpn
namespace Library
namespace Records

universe u

variable {α : Type u} {l : List (String × α)} {k k' : String} {v : α}

/-- `{ ...l, [k]: v }`. -/
def put : List (String × α) → String → α → List (String × α)
  | [], k, v => [(k, v)]
  | e :: l, k, v => if e.1 = k then (k, v) :: l else e :: put l k v

/-- The keys of a record. -/
def keys (l : List (String × α)) : List String := l.map fun e => e.1

theorem lookup_put_self (l : List (String × α)) (k : String) (v : α) :
    (put l k v).lookup k = some v := by
  induction l with
  | nil =>
      simp [put]
  | cons e l ih =>
      rw [put]
      split
      · simp
      · rename_i hne
        rw [List.lookup_cons, ih, beq_eq_false_iff_ne.mpr (Ne.symm hne)]

theorem lookup_put_of_ne (h : k' ≠ k) (l : List (String × α)) (v : α) :
    (put l k v).lookup k' = l.lookup k' := by
  induction l with
  | nil =>
      simp [put, h]
  | cons e l ih =>
      rw [put]
      split
      · rename_i heq
        rw [List.lookup_cons, List.lookup_cons, heq, beq_eq_false_iff_ne.mpr h]
      · rw [List.lookup_cons, List.lookup_cons, ih]

theorem mem_keys_put : k' ∈ keys (put l k v) ↔ k' ∈ keys l ∨ k' = k := by
  induction l with
  | nil =>
      simp [put, keys]
  | cons e l ih =>
      rw [put]
      split
      · rename_i heq
        simp only [keys, List.map_cons, List.mem_cons, heq]
        tauto
      · simp only [keys, List.map_cons, List.mem_cons] at ih ⊢
        rw [ih]
        tauto

theorem nodup_put (h : (keys l).Nodup) (k : String) (v : α) : (keys (put l k v)).Nodup := by
  induction l with
  | nil =>
      simp [put, keys]
  | cons e l ih =>
      obtain ⟨hhead, htail⟩ := List.nodup_cons.mp h
      rw [put]
      split
      · rename_i heq
        exact List.nodup_cons.mpr ⟨heq ▸ hhead, htail⟩
      · rename_i hne
        refine List.nodup_cons.mpr ⟨fun hmem => ?_, ih htail⟩
        rcases mem_keys_put.mp hmem with hold | hnew
        · exact hhead hold
        · exact hne hnew

/-- Writing what is there changes nothing. -/
theorem put_of_lookup (h : l.lookup k = some v) : put l k v = l := by
  induction l with
  | nil =>
      cases h
  | cons e l ih =>
      rw [put]
      split
      · rename_i heq
        rw [List.lookup_cons, heq, beq_self_eq_true] at h
        cases h
        rw [← heq]
      · rename_i hne
        rw [List.lookup_cons, beq_eq_false_iff_ne.mpr (Ne.symm hne)] at h
        rw [ih h]

theorem put_put (l : List (String × α)) (k : String) (v : α) : put (put l k v) k v = put l k v :=
  put_of_lookup (lookup_put_self l k v)

/-- The value of an entry is what its key finds. -/
theorem lookup_of_mem (h : (keys l).Nodup) {e : String × α} (he : e ∈ l) :
    l.lookup e.1 = some e.2 := by
  induction l with
  | nil =>
      cases he
  | cons e' l ih =>
      obtain ⟨hhead, htail⟩ := List.nodup_cons.mp h
      rcases List.mem_cons.mp he with rfl | hrest
      · rw [List.lookup_cons, beq_self_eq_true]
      · have hne : e.1 ≠ e'.1 := fun heq => hhead (List.mem_map.mpr ⟨e, hrest, heq⟩)
        rw [List.lookup_cons, beq_eq_false_iff_ne.mpr hne]
        exact ih htail hrest

end Records
end Library
end ZeroVpn
