import Mathlib.Data.List.Dedup
import Mathlib.Algebra.BigOperators.Group.Finset.Basic
import Mathlib.Tactic.Ring
import ZeroVpn.Library.Rows

/-!
# Grouped rows and their summary tables

`groupRows` is `SELECT … GROUP BY`, `overwrite` is `INSERT … ON CONFLICT (key)
DO UPDATE` with every column taken from the new row.  A summary table is
overwritten with the groups of a source table, so that the row of a key is the
summary of its group, or what it was before if the group is empty.

Then an interval of a time column is cut into slices of equal width, and
`foldColumn` folds a column with an associative operation.
-/

namespace ZeroVpn
namespace Library

universe u v w

section Rollups

variable {ρ : Type u} {τ : Type v} {κ : Type w} {κ' : Type w} [DecidableEq κ] [DecidableEq κ']

/-- The row stored under a key. -/
def rowAt (key : τ → κ) (k : κ) (rows : List τ) : Option τ :=
  rows.find? fun r => key r == k

/-- The new rows replace the old rows of their keys. -/
def overwrite (key : τ → κ) (new old : List τ) : List τ :=
  (old.filter fun r => !(new.map key).contains (key r)) ++ new

/-- One row for every key that occurs, made from the rows of that key. -/
def groupRows (key : ρ → κ) (agg : κ → List ρ → τ) (rows : List ρ) : List τ :=
  (rows.map key).dedup.map fun k => agg k (rows.filter fun r => key r == k)

theorem rowAt_mem {key : τ → κ} {k : κ} {rows : List τ} {r : τ}
    (h : rowAt key k rows = some r) : r ∈ rows ∧ key r = k :=
  ⟨List.mem_of_find?_eq_some h, by simpa using List.find?_some h⟩

theorem rowAt_eq_none {key : τ → κ} {k : κ} {rows : List τ} :
    rowAt key k rows = none ↔ k ∉ rows.map key := by
  unfold rowAt
  rw [List.find?_eq_none]
  constructor
  · intro h hmem
    obtain ⟨r, hr, hk⟩ := List.mem_map.mp hmem
    exact h r hr (by simpa using hk)
  · intro h r hr hk
    exact h (List.mem_map.mpr ⟨r, hr, by simpa using hk⟩)

/-- The rows of one key sum up to its row. -/
theorem columnSum_rowAt {key : τ → κ} {rows : List τ} (hnodup : (rows.map key).Nodup) (k : κ)
    {q : τ → Bool} (hq : ∀ r ∈ rows, q r = true ↔ key r = k) (col : τ → Int) :
    columnSum q col rows = ((rowAt key k rows).map col).getD 0 := by
  unfold rowAt
  rw [← columnSum_key hnodup]
  unfold columnSum
  congr 2
  refine List.filter_congr ?_
  intro r hr
  rw [Bool.eq_iff_iff, hq r hr, beq_iff_eq]

/-- A new row is found first. -/
theorem rowAt_overwrite (key : τ → κ) (k : κ) (new old : List τ) :
    rowAt key k (overwrite key new old) = (rowAt key k new).or (rowAt key k old) := by
  have happend : rowAt key k (overwrite key new old) =
      (rowAt key k (old.filter fun r => !(new.map key).contains (key r))).or
        (rowAt key k new) := List.find?_append
  rw [happend]
  cases hnew : rowAt key k new with
  | none =>
      -- the key is not among the new ones, so its old row stays
      have hfresh := rowAt_eq_none.mp hnew
      have hold : rowAt key k (old.filter fun r => !(new.map key).contains (key r)) =
          rowAt key k old := by
        unfold rowAt
        rw [List.find?_filter]
        congr 1
        funext r
        by_cases hk : key r = k
        · rw [hk]
          simp only [beq_self_eq_true, Bool.not_eq_true', List.contains_eq_mem,
            decide_eq_false_iff_not]
          simpa using hfresh
        · simp [hk]
      rw [hold, Option.or_none, Option.none_or]
  | some r =>
      obtain ⟨hr, hk⟩ := rowAt_mem hnew
      have hold : rowAt key k (old.filter fun r => !(new.map key).contains (key r)) = none := by
        rw [rowAt_eq_none]
        intro hmem
        obtain ⟨r', hr', hk'⟩ := List.mem_map.mp hmem
        have hcontains := (List.mem_filter.mp hr').2
        rw [hk', ← hk, List.contains_eq_mem] at hcontains
        simp only [Bool.not_eq_true', decide_eq_false_iff_not] at hcontains
        exact hcontains (List.mem_map.mpr ⟨r, hr, rfl⟩)
      rw [hold, Option.none_or, Option.some_or]

/-- No row gets lost. -/
theorem rowAt_overwrite_ne_none {key : τ → κ} {k : κ} {new old : List τ}
    (h : rowAt key k old ≠ none) : rowAt key k (overwrite key new old) ≠ none := by
  rw [rowAt_overwrite]
  cases rowAt key k new with
  | none =>
      exact h
  | some r =>
      exact Option.some_ne_none r

theorem mem_overwrite {key : τ → κ} {new old : List τ} {r : τ}
    (h : r ∈ overwrite key new old) : r ∈ new ∨ r ∈ old := by
  rcases List.mem_append.mp h with h | h
  · exact Or.inr (List.mem_filter.mp h).1
  · exact Or.inl h

/-- The keys stay pairwise distinct. -/
theorem nodup_overwrite {key : τ → κ} {new old : List τ} (hnew : (new.map key).Nodup)
    (hold : (old.map key).Nodup) : ((overwrite key new old).map key).Nodup := by
  unfold overwrite
  rw [List.map_append]
  refine List.Nodup.append (hold.sublist (List.Sublist.map key List.filter_sublist)) hnew ?_
  intro k hk hk'
  obtain ⟨r, hr, rfl⟩ := List.mem_map.mp hk
  have hcontains := (List.mem_filter.mp hr).2
  rw [List.contains_eq_mem] at hcontains
  simp only [Bool.not_eq_true', decide_eq_false_iff_not] at hcontains
  exact hcontains hk'

variable {key : ρ → κ} {agg : κ → List ρ → τ} {key' : τ → κ'} {f : κ → κ'} {rows : List ρ}

theorem mem_groupRows {r : τ} :
    r ∈ groupRows key agg rows ↔
      ∃ x ∈ rows, r = agg (key x) (rows.filter fun y => key y == key x) := by
  unfold groupRows
  simp only [List.mem_map, List.mem_dedup]
  constructor
  · rintro ⟨_, ⟨x, hx, rfl⟩, rfl⟩
    exact ⟨x, hx, rfl⟩
  · rintro ⟨x, hx, rfl⟩
    exact ⟨key x, ⟨x, hx, rfl⟩, rfl⟩

/-- The rows of some keys, key by key. -/
theorem flatMap_groups_perm {ks : List κ} (hks : ks.Nodup) (rows : List ρ) :
    (ks.flatMap fun k => rows.filter fun r => key r == k).Perm
      (rows.filter fun r => decide (key r ∈ ks)) := by
  induction ks with
  | nil =>
      simp
  | cons k ks ih =>
      obtain ⟨hk, hrest⟩ := List.nodup_cons.mp hks
      rw [List.flatMap_cons]
      refine ((ih hrest).append_left _).trans ?_
      have hsplit := List.filter_append_perm (fun r => key r == k)
        (rows.filter fun r => decide (key r ∈ k :: ks))
      rw [List.filter_filter, List.filter_filter] at hsplit
      have hfirst : (rows.filter fun r => key r == k && decide (key r ∈ k :: ks)) =
          rows.filter fun r => key r == k := by
        refine List.filter_congr ?_
        intro r _
        by_cases hr : key r = k
        · simp [hr]
        · simp [hr]
      have hlater : (rows.filter fun r => !(key r == k) && decide (key r ∈ k :: ks)) =
          rows.filter fun r => decide (key r ∈ ks) := by
        refine List.filter_congr ?_
        intro r _
        by_cases hr : key r = k
        · simp [hr, hk]
        · simp [hr]
      rwa [hfirst, hlater] at hsplit

/-- Rows of one key are one group. -/
theorem groupRows_singleton {k : κ} (hne : rows ≠ []) (hkey : ∀ r ∈ rows, key r = k) :
    groupRows key agg rows = [agg k rows] := by
  have hkeys : rows.map key = List.replicate rows.length k :=
    List.eq_replicate_iff.mpr ⟨List.length_map _, fun k' hk' => by
      obtain ⟨r, hr, rfl⟩ := List.mem_map.mp hk'
      exact hkey r hr⟩
  have hall : rows.filter (fun r => key r == k) = rows :=
    List.filter_eq_self.mpr fun r hr => beq_iff_eq.mpr (hkey r hr)
  unfold groupRows
  rw [hkeys, List.replicate_dedup (List.length_pos_iff.mpr hne).ne', List.map_singleton, hall]

/-- Duplicates go before or after. -/
theorem dedup_filter (p : κ → Bool) (keys : List κ) :
    (keys.filter p).dedup = keys.dedup.filter p := by
  induction keys with
  | nil =>
      rfl
  | cons k keys ih =>
      by_cases hp : p k = true
      · rw [List.filter_cons_of_pos hp]
        by_cases hmem : k ∈ keys
        · rw [List.dedup_cons_of_mem hmem,
            List.dedup_cons_of_mem (List.mem_filter.mpr ⟨hmem, hp⟩), ih]
        · have hmem' : k ∉ keys.filter p := fun h => hmem (List.mem_filter.mp h).1
          rw [List.dedup_cons_of_notMem hmem, List.dedup_cons_of_notMem hmem',
            List.filter_cons_of_pos hp, ih]
      · rw [List.filter_cons_of_neg hp, ih]
        by_cases hmem : k ∈ keys
        · rw [List.dedup_cons_of_mem hmem]
        · rw [List.dedup_cons_of_notMem hmem, List.filter_cons_of_neg hp]

/-- The groups over the rows of some keys are the groups of these keys. -/
theorem groupRows_filter (p : κ → Bool) {key₀ : τ → κ} (hkey : ∀ k rows, key₀ (agg k rows) = k) :
    groupRows key agg (rows.filter fun r => p (key r)) =
      (groupRows key agg rows).filter fun r => p (key₀ r) := by
  have hkeys : (rows.filter fun r => p (key r)).map key = (rows.map key).filter p := by
    rw [List.filter_map]
    rfl
  unfold groupRows
  rw [hkeys, dedup_filter, List.filter_map]
  have hp : (fun r => p (key₀ r)) ∘ (fun k => agg k (rows.filter fun r => key r == k)) = p := by
    funext k
    exact congrArg p (hkey k _)
  rw [hp]
  refine List.map_congr_left ?_
  intro k hk
  have hk' := (List.mem_filter.mp hk).2
  rw [List.filter_filter]
  refine congrArg (agg k) (List.filter_congr ?_)
  intro r _
  by_cases hr : key r = k
  · simp [hr, hk']
  · simp [hr]

omit [DecidableEq κ'] in
/-- The groups have distinct keys. -/
theorem nodup_groupRows (hkey : ∀ k rows, key' (agg k rows) = f k) (hf : Function.Injective f) :
    ((groupRows key agg rows).map key').Nodup := by
  unfold groupRows
  rw [List.map_map]
  have hmap : (key' ∘ fun k => agg k (rows.filter fun r => key r == k)) = f := by
    funext k
    exact hkey k _
  rw [hmap]
  exact (List.nodup_dedup _).map hf

/-- The row of a group that is not empty. -/
theorem rowAt_groupRows (hkey : ∀ k rows, key' (agg k rows) = f k) (hf : Function.Injective f)
    {x : ρ} (hx : x ∈ rows) :
    rowAt key' (f (key x)) (groupRows key agg rows) =
      some (agg (key x) (rows.filter fun y => key y == key x)) := by
  have hnodup : ((groupRows key agg rows).map key').Nodup := nodup_groupRows hkey hf
  have hmem : agg (key x) (rows.filter fun y => key y == key x) ∈ groupRows key agg rows :=
    mem_groupRows.mpr ⟨x, hx, rfl⟩
  unfold rowAt
  rw [← hkey (key x) (rows.filter fun y => key y == key x)]
  exact (find?_key_eq_some hnodup).mpr hmem

/-- An empty group has no row. -/
theorem rowAt_groupRows_none (hkey : ∀ k rows, key' (agg k rows) = f k) {k' : κ'}
    (h : ∀ x ∈ rows, f (key x) ≠ k') : rowAt key' k' (groupRows key agg rows) = none := by
  rw [rowAt_eq_none]
  intro hmem
  obtain ⟨r, hr, hk⟩ := List.mem_map.mp hmem
  obtain ⟨x, hx, rfl⟩ := mem_groupRows.mp hr
  exact h x hx (by rw [← hk, hkey])

end Rollups

section Slices

variable {ρ : Type u}

/-- A sum over rows of two disjoint kinds. -/
theorem columnSum_disjoint {q q₁ q₂ : ρ → Bool} (col : ρ → Int) {rows : List ρ}
    (hq : ∀ r ∈ rows, q r = (q₁ r || q₂ r)) (hdisjoint : ∀ r ∈ rows, (q₁ r && q₂ r) = false) :
    columnSum q col rows = columnSum q₁ col rows + columnSum q₂ col rows := by
  induction rows with
  | nil =>
      rfl
  | cons r rows ih =>
      have hr := hq r (by simp)
      have hd := hdisjoint r (by simp)
      rw [columnSum_cons, columnSum_cons, columnSum_cons,
        ih (fun r hr => hq r (List.mem_cons_of_mem _ hr))
          (fun r hr => hdisjoint r (List.mem_cons_of_mem _ hr)), hr]
      cases h₁ : q₁ r <;> cases h₂ : q₂ r
      · simp
      · simp only [Bool.false_or, if_true, Bool.false_eq_true, if_false]
        omega
      · simp only [Bool.or_false, if_true, Bool.false_eq_true, if_false]
        omega
      · rw [h₁, h₂] at hd
        cases hd

/-- The rows of `[lo, hi)` that `q` selects, by a time column. -/
def during (q : ρ → Bool) (at_ : ρ → Int) (lo hi : Int) (r : ρ) : Bool :=
  q r && decide (lo ≤ at_ r) && decide (at_ r < hi)

theorem during_iff {q : ρ → Bool} {at_ : ρ → Int} {lo hi : Int} {r : ρ} :
    during q at_ lo hi r = true ↔ q r = true ∧ lo ≤ at_ r ∧ at_ r < hi := by
  simp [during, and_assoc]

/-- The sum over an interval is the sum over its slices. -/
theorem columnSum_slices (q : ρ → Bool) (at_ : ρ → Int) (col : ρ → Int) (rows : List ρ)
    (lo : Int) {width : Int} (hwidth : 0 ≤ width) (n : Nat) :
    columnSum (during q at_ lo (lo + n * width)) col rows =
      ∑ i ∈ Finset.range n,
        columnSum (during q at_ (lo + i * width) (lo + (i + 1) * width)) col rows := by
  induction n with
  | zero =>
      refine columnSum_eq_zero ?_
      intro r _
      rw [Bool.eq_false_iff]
      intro h
      have hin := (during_iff.mp h).2
      simp only [Nat.cast_zero, zero_mul, add_zero] at hin
      omega
  | succ n ih =>
      rw [Finset.sum_range_succ, ← ih]
      have hlow : 0 ≤ (n : Int) * width := Int.mul_nonneg (by omega) hwidth
      have hnext : ((n : Int) + 1) * width = n * width + width := by ring
      push_cast
      rw [hnext]
      refine columnSum_disjoint col ?_ ?_
      · intro r _
        rw [Bool.eq_iff_iff, Bool.or_eq_true, during_iff, during_iff, during_iff]
        constructor
        · rintro ⟨hq, hlo, hhi⟩
          by_cases hcut : at_ r < lo + n * width
          · exact Or.inl ⟨hq, hlo, hcut⟩
          · exact Or.inr ⟨hq, by omega, hhi⟩
        · rintro (⟨hq, hlo, hhi⟩ | ⟨hq, hlo, hhi⟩)
          · exact ⟨hq, hlo, by omega⟩
          · exact ⟨hq, by omega, hhi⟩
      · intro r _
        rw [Bool.eq_false_iff, ne_eq, Bool.and_eq_true, during_iff, during_iff]
        rintro ⟨⟨_, _, hhi⟩, _, hlo, _⟩
        omega

end Slices

section Folds

variable {ρ : Type u} (op : Int → Int → Int)

/-- `MAX`, `MIN` or `SUM` of a column: none over no rows. -/
def foldColumn (col : ρ → Int) (rows : List ρ) : Option Int :=
  rows.foldr (fun r acc => (some (col r)).merge op acc) none

@[simp] theorem foldColumn_nil (col : ρ → Int) : foldColumn op col [] = none := rfl

theorem foldColumn_cons (col : ρ → Int) (r : ρ) (rows : List ρ) :
    foldColumn op col (r :: rows) = (some (col r)).merge op (foldColumn op col rows) := rfl

theorem foldColumn_map {ρ' : Type v} (f : ρ' → ρ) (col : ρ → Int) (rows : List ρ') :
    foldColumn op col (rows.map f) = foldColumn op (fun r => col (f r)) rows := by
  unfold foldColumn
  rw [List.foldr_map]

theorem foldColumn_eq_none {col : ρ → Int} {rows : List ρ} :
    foldColumn op col rows = none ↔ rows = [] := by
  cases rows with
  | nil =>
      simp
  | cons r rows =>
      rw [foldColumn_cons]
      cases foldColumn op col rows with
      | none =>
          simp
      | some a =>
          simp

/-- The fold of sums is the sum. -/
theorem foldColumn_add (col : ρ → Int) (rows : List ρ) :
    (foldColumn (· + ·) col rows).getD 0 = (rows.map col).sum := by
  induction rows with
  | nil =>
      rfl
  | cons r rows ih =>
      rw [foldColumn_cons, List.map_cons, List.sum_cons, ← ih]
      cases foldColumn (· + ·) col rows with
      | none =>
          exact (Int.add_zero (col r)).symm
      | some a =>
          rfl

variable [Std.Associative op]

theorem foldColumn_append (col : ρ → Int) (rows rows' : List ρ) :
    foldColumn op col (rows ++ rows') =
      (foldColumn op col rows).merge op (foldColumn op col rows') := by
  induction rows with
  | nil =>
      rw [List.nil_append, foldColumn_nil, Option.merge_none_left]
  | cons r rows ih =>
      rw [List.cons_append, foldColumn_cons, foldColumn_cons, ih]
      have hassoc : Std.Associative (Option.merge op) := inferInstance
      exact (hassoc.assoc _ _ _).symm

variable [Std.Commutative op]

/-- The order of the rows does not matter. -/
theorem foldColumn_perm (col : ρ → Int) {rows rows' : List ρ} (h : rows.Perm rows') :
    foldColumn op col rows = foldColumn op col rows' := by
  have hassoc : Std.Associative (Option.merge op) := inferInstance
  have hcomm : Std.Commutative (Option.merge op) := inferInstance
  have : LeftCommutative fun (r : ρ) (acc : Option Int) => (some (col r)).merge op acc := by
    constructor
    intro r r' acc
    rw [← hassoc.assoc, hcomm.comm (some (col r)), hassoc.assoc]
  exact h.foldr_eq none

/-- The fold of the folds of the groups is the fold of all rows. -/
theorem foldColumn_groupRows {τ : Type v} {κ : Type w} [DecidableEq κ] {key : ρ → κ}
    {agg : κ → List ρ → τ} {col : ρ → Int} {col' : τ → Int}
    (hagg : ∀ k rows, rows ≠ [] → some (col' (agg k rows)) = foldColumn op col rows)
    (rows : List ρ) : foldColumn op col' (groupRows key agg rows) = foldColumn op col rows := by
  have hgroups : ∀ ks : List κ, (∀ k ∈ ks, k ∈ rows.map key) →
      foldColumn op col' (ks.map fun k => agg k (rows.filter fun r => key r == k)) =
        foldColumn op col (ks.flatMap fun k => rows.filter fun r => key r == k) := by
    intro ks
    induction ks with
    | nil =>
        intro _
        rfl
    | cons k ks ih =>
        intro hks
        obtain ⟨r, hr, hk⟩ := List.mem_map.mp (hks k List.mem_cons_self)
        have hne : (rows.filter fun r => key r == k) ≠ [] :=
          List.ne_nil_of_mem (List.mem_filter.mpr ⟨hr, beq_iff_eq.mpr hk⟩)
        rw [List.map_cons, foldColumn_cons, hagg k _ hne,
          ih fun k' hk' => hks k' (List.mem_cons_of_mem _ hk'), List.flatMap_cons,
          foldColumn_append]
  unfold groupRows
  rw [hgroups _ fun k hk => List.mem_dedup.mp hk]
  refine foldColumn_perm op col ((flatMap_groups_perm (List.nodup_dedup _) rows).trans ?_)
  rw [List.filter_eq_self.mpr]
  intro r hr
  exact decide_eq_true (List.mem_dedup.mpr (List.mem_map_of_mem hr))

/-- An upsert that merges the column adds the new row to the fold. -/
theorem foldColumn_upsertRow {p q : ρ → Bool} {merge : ρ → ρ} (col : ρ → Int) {rows : List ρ}
    {new : ρ} (hnodup : rows.Nodup)
    (hone : ∀ r ∈ rows, ∀ r' ∈ rows, p r = true → p r' = true → r = r')
    (hq : ∀ r ∈ rows, p r = true → q (merge r) = q r ∧ q new = q r)
    (hcol : ∀ r ∈ rows, p r = true → col (merge r) = op (col r) (col new)) :
    foldColumn op col ((upsertRow p new merge rows).filter q) =
      (foldColumn op col (rows.filter q)).merge op (foldColumn op col ([new].filter q)) := by
  unfold upsertRow
  by_cases hany : rows.any p = true
  · rw [if_pos hany]
    obtain ⟨r, hr, hpr⟩ := List.any_eq_true.mp hany
    obtain ⟨hmerge, hnew⟩ := hq r hr hpr
    have hcolr := hcol r hr hpr
    -- the conflicting row is the only one that changes
    obtain ⟨l, l', rfl⟩ := List.append_of_mem hr
    rw [List.nodup_append, List.nodup_cons] at hnodup
    obtain ⟨_, ⟨hr', _⟩, hdisjoint⟩ := hnodup
    have hleft : updateWhere p merge l = l := by
      refine updateWhere_self ?_
      intro x hx hpx
      have heq := hone x (List.mem_append_left _ hx) r hr hpx hpr
      exact absurd heq (hdisjoint x hx r List.mem_cons_self)
    have hright : updateWhere p merge l' = l' := by
      refine updateWhere_self ?_
      intro x hx hpx
      have heq := hone x (List.mem_append_right _ (List.mem_cons_of_mem _ hx)) r hr hpx hpr
      exact absurd (heq ▸ hx) hr'
    have hupdate : updateWhere p merge (l ++ r :: l') = l ++ merge r :: l' := by
      have hsplit : updateWhere p merge (l ++ r :: l') =
          updateWhere p merge l ++ (if p r then merge r else r) :: updateWhere p merge l' := by
        simp [updateWhere]
      rw [hsplit, hleft, hright, if_pos hpr]
    rw [hupdate, List.filter_append, List.filter_append, foldColumn_append, foldColumn_append]
    by_cases hqr : q r = true
    · have hqm : q (merge r) = true := by
        rw [hmerge]
        exact hqr
      have hqn : q new = true := by
        rw [hnew]
        exact hqr
      simp only [List.filter_cons_of_pos hqm, List.filter_cons_of_pos hqr,
        List.filter_cons_of_pos hqn, List.filter_nil, foldColumn_cons, foldColumn_nil,
        Option.merge_none_right]
      have hpair : some (col (merge r)) = (some (col r)).merge op (some (col new)) := by
        rw [hcolr]
        rfl
      rw [hpair]
      have : Std.Associative (Option.merge op) := inferInstance
      have : Std.Commutative (Option.merge op) := inferInstance
      ac_rfl
    · have hqm : ¬ q (merge r) = true := by
        rw [hmerge]
        exact hqr
      have hqn : ¬ q new = true := by
        rw [hnew]
        exact hqr
      simp only [List.filter_cons_of_neg hqm, List.filter_cons_of_neg hqr,
        List.filter_cons_of_neg hqn, List.filter_nil, foldColumn_nil, Option.merge_none_right]
  · rw [if_neg hany, List.filter_append, foldColumn_append]

end Folds

end Library
end ZeroVpn
