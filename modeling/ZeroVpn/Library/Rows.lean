import Mathlib.Algebra.Ring.Int.Defs
import Mathlib.Data.List.Nodup

/-!
# Keyed rows

A table is a list of rows with a key whose values are pairwise distinct.
`updateWhere` is `UPDATE … WHERE`, `upsertRow` is `INSERT … ON CONFLICT (key)
DO UPDATE`, and a uniqueness constraint is `Nodup` of the projected list.
-/

namespace ZeroVpn
namespace Library

universe u v

section Rows

variable {ρ : Type u} {κ : Type v}

/-- `UPDATE rows SET f WHERE p`. -/
def updateWhere (p : ρ → Bool) (f : ρ → ρ) (rows : List ρ) : List ρ :=
  rows.map fun r => if p r then f r else r

/-- The number of rows that `updateWhere p` touches. -/
def rowsAffected (p : ρ → Bool) (rows : List ρ) : Nat :=
  (rows.filter p).length

theorem rowsAffected_pos {p : ρ → Bool} {rows : List ρ} {r : ρ}
    (hr : r ∈ rows) (hp : p r = true) : 0 < rowsAffected p rows := by
  unfold rowsAffected
  exact List.length_pos_of_mem (List.mem_filter.mpr ⟨hr, hp⟩)

theorem mem_updateWhere {p : ρ → Bool} {f : ρ → ρ} {rows : List ρ} {r' : ρ} :
    r' ∈ updateWhere p f rows ↔
      ∃ r ∈ rows, r' = if p r then f r else r := by
  unfold updateWhere
  rw [List.mem_map]
  constructor
  · rintro ⟨r, hr, rfl⟩
    exact ⟨r, hr, rfl⟩
  · rintro ⟨r, hr, rfl⟩
    exact ⟨r, hr, rfl⟩

/-- A row outside the `WHERE` clause stays. -/
theorem mem_updateWhere_of_not {p : ρ → Bool} {f : ρ → ρ} {rows : List ρ}
    {r : ρ} (hr : r ∈ rows) (hp : p r = false) :
    r ∈ updateWhere p f rows := by
  rw [mem_updateWhere]
  exact ⟨r, hr, by simp [hp]⟩

/-- A row inside the `WHERE` clause is replaced. -/
theorem mem_updateWhere_of_pos {p : ρ → Bool} {f : ρ → ρ} {rows : List ρ}
    {r : ρ} (hr : r ∈ rows) (hp : p r = true) :
    f r ∈ updateWhere p f rows := by
  rw [mem_updateWhere]
  exact ⟨r, hr, by simp [hp]⟩

/-- An update that rewrites every row to itself. -/
theorem updateWhere_self {p : ρ → Bool} {f : ρ → ρ} {rows : List ρ}
    (h : ∀ r ∈ rows, p r = true → f r = r) :
    updateWhere p f rows = rows := by
  unfold updateWhere
  calc rows.map (fun r => if p r then f r else r)
      = rows.map id := by
        apply List.map_congr_left
        intro r hr
        by_cases hp : p r = true
        · rw [if_pos hp, h r hr hp, id]
        · rw [if_neg hp, id]
    _ = rows := List.map_id rows

/-- An update that affects no row changes nothing. -/
theorem updateWhere_of_unaffected {p : ρ → Bool} {f : ρ → ρ} {rows : List ρ}
    (h : rowsAffected p rows = 0) :
    updateWhere p f rows = rows := by
  apply updateWhere_self
  intro r hr hp
  have hpos := rowsAffected_pos hr hp
  omega

/-- A row-wise property that the update keeps. -/
theorem forall_updateWhere {p : ρ → Bool} {f : ρ → ρ} {P : ρ → Prop} {rows : List ρ}
    (hrows : ∀ r ∈ rows, P r) (hf : ∀ r ∈ rows, p r = true → P r → P (f r)) :
    ∀ r' ∈ updateWhere p f rows, P r' := by
  intro r' hr'
  rw [mem_updateWhere] at hr'
  obtain ⟨r, hr, rfl⟩ := hr'
  by_cases hp : p r = true
  · rw [if_pos hp]
    exact hf r hr hp (hrows r hr)
  · rw [if_neg hp]
    exact hrows r hr

/-- An update that keeps a column of the rows it meets keeps the list of its
values. -/
theorem map_updateWhere_mem {p : ρ → Bool} {f : ρ → ρ} {col : ρ → κ} {rows : List ρ}
    (hcol : ∀ r ∈ rows, p r = true → col (f r) = col r) :
    (updateWhere p f rows).map col = rows.map col := by
  unfold updateWhere
  rw [List.map_map]
  apply List.map_congr_left
  intro r hr
  by_cases hp : p r = true
  · simp [hp, hcol r hr hp]
  · simp [hp]

/-- An update that keeps a column keeps the list of its values. -/
theorem map_updateWhere {p : ρ → Bool} {f : ρ → ρ} {col : ρ → κ}
    (hcol : ∀ r, col (f r) = col r) (rows : List ρ) :
    (updateWhere p f rows).map col = rows.map col :=
  map_updateWhere_mem fun r _ _ => hcol r

/-- An update seen through a projection of the rows. -/
theorem map_updateWhere_comm {ρ' : Type v} {p : ρ → Bool} {f : ρ → ρ}
    {g : ρ → ρ'} {q : ρ' → Bool} {h : ρ' → ρ'} {rows : List ρ}
    (hp : ∀ r ∈ rows, p r = q (g r)) (hf : ∀ r ∈ rows, p r = true → g (f r) = h (g r)) :
    (updateWhere p f rows).map g = updateWhere q h (rows.map g) := by
  unfold updateWhere
  rw [List.map_map, List.map_map]
  apply List.map_congr_left
  intro r hr
  simp only [Function.comp_apply]
  rw [← hp r hr]
  by_cases hpr : p r = true
  · rw [if_pos hpr, if_pos hpr, hf r hr hpr]
  · rw [if_neg hpr, if_neg hpr]

/-- A search that an update does not disturb finds the updated row. -/
theorem find?_updateWhere {p q : ρ → Bool} {f : ρ → ρ}
    (hq : ∀ r, p r = true → q (f r) = q r) (rows : List ρ) :
    (updateWhere p f rows).find? q = (rows.find? q).map fun r => if p r then f r else r := by
  have hsame : (q ∘ fun r => if p r then f r else r) = q := by
    funext r
    simp only [Function.comp_apply]
    split
    · rename_i hp
      exact hq r hp
    · rfl
  unfold updateWhere
  rw [List.find?_map, hsame]

/-- The values of a column in the rows of a filter that an update does not
disturb. -/
theorem filter_map_updateWhere {p q : ρ → Bool} {f : ρ → ρ} {col : ρ → κ} {rows : List ρ}
    (hq : ∀ r ∈ rows, p r = true → q (f r) = q r)
    (hcol : ∀ r ∈ rows, p r = true → col (f r) = col r) :
    ((updateWhere p f rows).filter q).map col = (rows.filter q).map col := by
  unfold updateWhere
  rw [List.filter_map, List.map_map]
  have hfilter : rows.filter (q ∘ fun r => if p r then f r else r) = rows.filter q := by
    apply List.filter_congr
    intro r hr
    by_cases hp : p r = true
    · simp [hp, hq r hr hp]
    · simp [hp]
  rw [hfilter]
  apply List.map_congr_left
  intro r hr
  by_cases hp : p r = true
  · simp [hp, hcol r (List.mem_filter.mp hr).1 hp]
  · simp [hp]

/-- Under a uniqueness constraint a row is determined by the column. -/
theorem row_unique {rows : List ρ} {col : ρ → κ}
    (hnodup : (rows.map col).Nodup) {r r' : ρ}
    (hr : r ∈ rows) (hr' : r' ∈ rows) (hcol : col r = col r') :
    r = r' :=
  List.inj_on_of_nodup_map hnodup hr hr' hcol

/-- Looking a row up by its key. -/
theorem find?_key_eq_some [DecidableEq κ] {rows : List ρ} {key : ρ → κ}
    (hnodup : (rows.map key).Nodup) {r : ρ} :
    rows.find? (fun x => key x == key r) = some r ↔ r ∈ rows := by
  constructor
  · intro h
    exact List.mem_of_find?_eq_some h
  · intro hr
    have hsome : (rows.find? fun x => key x == key r).isSome := by
      rw [List.find?_isSome]
      exact ⟨r, hr, by simp⟩
    obtain ⟨r', hr'⟩ := Option.isSome_iff_exists.mp hsome
    have hkey : key r' = key r := by
      simpa using List.find?_some hr'
    have hmem : r' ∈ rows := List.mem_of_find?_eq_some hr'
    rw [hr', row_unique hnodup hmem hr hkey]

/-- Looking a row up by its key after an update of the rows of one key. -/
theorem find?_updateWhere_key [DecidableEq κ] (key : ρ → κ) {f : ρ → ρ}
    (hf : ∀ r, key (f r) = key r) (rows : List ρ) (k k' : κ) :
    (updateWhere (fun r => key r == k) f rows).find? (fun r => key r == k') =
      if k = k' then (rows.find? fun r => key r == k).map f
      else rows.find? fun r => key r == k' := by
  induction rows with
  | nil =>
      simp [updateWhere]
  | cons r rows ih =>
      have hcons : updateWhere (fun r => key r == k) f (r :: rows) =
          (if key r == k then f r else r) :: updateWhere (fun r => key r == k) f rows := rfl
      rw [hcons, List.find?_cons, List.find?_cons, List.find?_cons, ih]
      by_cases hr : key r = k
      · by_cases hk : k = k'
        · simp [hr, hf, hk]
        · have hbeq : (k == k') = false := by
            simpa using hk
          simp [hr, hf, hk, hbeq]
      · have hne : (key r == k) = false := by
          simpa using hr
        by_cases hk : k = k'
        · subst hk
          simp [hne]
        · simp [hne, hk]

/-- Selecting the rows of one key. -/
theorem filter_key_eq_singleton [DecidableEq κ] {rows : List ρ} {key : ρ → κ}
    (hnodup : (rows.map key).Nodup) {r : ρ} (hr : r ∈ rows) :
    rows.filter (fun x => key x == key r) = [r] := by
  induction rows with
  | nil =>
      cases hr
  | cons x xs ih =>
      rw [List.map_cons, List.nodup_cons] at hnodup
      obtain ⟨hfresh, hrest⟩ := hnodup
      rcases List.mem_cons.mp hr with rfl | hr
      · have hnone : xs.filter (fun y => key y == key r) = [] := by
          rw [List.filter_eq_nil_iff]
          intro y hy heq
          exact hfresh (List.mem_map.mpr ⟨y, hy, eq_of_beq heq⟩)
        rw [List.filter_cons_of_pos (by simp), hnone]
      · have hne : ¬(key x == key r) = true := by
          intro heq
          exact hfresh (List.mem_map.mpr ⟨r, hr, (eq_of_beq heq).symm⟩)
        calc (x :: xs).filter (fun y => key y == key r)
            = xs.filter (fun y => key y == key r) := List.filter_cons_of_neg hne
          _ = [r] := ih hrest hr

/-- `INSERT … ON CONFLICT DO UPDATE`: `p` finds the conflicting row. -/
def upsertRow (p : ρ → Bool) (new : ρ) (merge : ρ → ρ) (rows : List ρ) : List ρ :=
  if rows.any p then updateWhere p merge rows else rows ++ [new]

/-- The sum of a column over the rows that `q` selects. -/
def columnSum (q : ρ → Bool) (col : ρ → Int) (rows : List ρ) : Int :=
  ((rows.filter q).map col).sum

@[simp] theorem columnSum_nil (q : ρ → Bool) (col : ρ → Int) :
    columnSum q col [] = 0 := rfl

theorem columnSum_cons (q : ρ → Bool) (col : ρ → Int) (r : ρ) (rows : List ρ) :
    columnSum q col (r :: rows) = (if q r then col r else 0) + columnSum q col rows := by
  unfold columnSum
  by_cases hq : q r = true
  · simp [hq]
  · simp [hq]

theorem columnSum_append (q : ρ → Bool) (col : ρ → Int) (rows rows' : List ρ) :
    columnSum q col (rows ++ rows') = columnSum q col rows + columnSum q col rows' := by
  unfold columnSum
  rw [List.filter_append, List.map_append, List.sum_append]

/-- A sum over no rows. -/
theorem columnSum_eq_zero {q : ρ → Bool} {col : ρ → Int} {rows : List ρ}
    (h : ∀ r ∈ rows, q r = false) : columnSum q col rows = 0 := by
  unfold columnSum
  rw [List.filter_eq_nil_iff.mpr fun r hr => by simp [h r hr]]
  rfl

/-- An update that adds `x` to a column of the row `r₀` and of no other row. -/
theorem columnSum_updateWhere {p q : ρ → Bool} {f : ρ → ρ} {col : ρ → Int} {x : Int}
    {rows : List ρ} {r₀ : ρ} (hnodup : rows.Nodup) (hr₀ : r₀ ∈ rows)
    (hp : ∀ r ∈ rows, p r = true ↔ r = r₀)
    (hq : q (f r₀) = q r₀) (hcol : col (f r₀) = col r₀ + x) :
    columnSum q col (updateWhere p f rows) =
      columnSum q col rows + if q r₀ then x else 0 := by
  have hsame : ∀ rs : List ρ, (∀ r ∈ rs, p r = false) → updateWhere p f rs = rs := by
    intro rs hrs
    refine updateWhere_self ?_
    intro r hr hpr
    rw [hrs r hr] at hpr
    cases hpr
  induction rows with
  | nil =>
      cases hr₀
  | cons r rows ih =>
      rw [List.nodup_cons] at hnodup
      have hcons : updateWhere p f (r :: rows) =
          (if p r then f r else r) :: updateWhere p f rows := rfl
      rw [hcons, columnSum_cons, columnSum_cons]
      by_cases hr : r = r₀
      · subst hr
        have hrest : updateWhere p f rows = rows := by
          refine hsame rows ?_
          intro r' hr'
          by_contra hpr
          have heq := (hp r' (List.mem_cons_of_mem _ hr')).mp (by simpa using hpr)
          exact hnodup.1 (heq ▸ hr')
        rw [hrest, if_pos ((hp r (by simp)).mpr rfl), hq, hcol]
        by_cases hqr : q r = true
        · simp only [if_pos hqr]
          omega
        · simp only [if_neg hqr]
          omega
      · have hpr : ¬ p r = true := fun h => hr ((hp r (by simp)).mp h)
        have hmem : r₀ ∈ rows := by
          rcases List.mem_cons.mp hr₀ with heq | hmem
          · exact absurd heq.symm hr
          · exact hmem
        rw [if_neg hpr, ih hnodup.2 hmem (fun r' hr' => hp r' (List.mem_cons_of_mem _ hr'))]
        omega

/-- An update that takes rows out of the selection. -/
theorem columnSum_deselect {p q : ρ → Bool} {f : ρ → ρ} {col : ρ → Int}
    (hout : ∀ r, p r = true → q (f r) = false) (rows : List ρ) :
    columnSum q col (updateWhere p f rows) =
      columnSum q col rows - columnSum (fun r => p r && q r) col rows := by
  induction rows with
  | nil =>
      rfl
  | cons r rows ih =>
      have hcons : updateWhere p f (r :: rows) =
          (if p r then f r else r) :: updateWhere p f rows := rfl
      rw [hcons, columnSum_cons, columnSum_cons, columnSum_cons, ih]
      by_cases hp : p r = true
      · by_cases hq : q r = true
        · simp only [hp, hq, hout r hp, if_true, Bool.and_self, Bool.false_eq_true, if_false]
          omega
        · simp only [hp, hq, hout r hp, if_true, Bool.true_and, Bool.false_eq_true, if_false]
          omega
      · simp only [hp, Bool.false_and, Bool.false_eq_true, if_false]
        omega

/-- An upsert whose merge adds the new value to the column. -/
theorem columnSum_upsertRow {p q : ρ → Bool} {merge : ρ → ρ} {col : ρ → Int}
    {rows : List ρ} {new : ρ} (hnodup : rows.Nodup)
    (hone : ∀ r ∈ rows, ∀ r' ∈ rows, p r = true → p r' = true → r = r')
    (hq : ∀ r ∈ rows, p r = true → q (merge r) = q r ∧ q new = q r)
    (hcol : ∀ r ∈ rows, p r = true → col (merge r) = col r + col new) :
    columnSum q col (upsertRow p new merge rows) =
      columnSum q col rows + if q new then col new else 0 := by
  unfold upsertRow
  by_cases hany : rows.any p = true
  · rw [if_pos hany]
    obtain ⟨r, hr, hpr⟩ := List.any_eq_true.mp hany
    obtain ⟨hmerge, hnew⟩ := hq r hr hpr
    rw [hnew]
    refine columnSum_updateWhere hnodup hr ?_ hmerge (hcol r hr hpr)
    intro r' hr'
    constructor
    · intro hpr'
      exact hone r' hr' r hr hpr' hpr
    · rintro rfl
      exact hpr
  · rw [if_neg hany, columnSum_append, columnSum_cons]
    simp

/-- The rows of one key are one row or none. -/
theorem columnSum_key [DecidableEq κ] {rows : List ρ} {key : ρ → κ}
    (hnodup : (rows.map key).Nodup) (k : κ) (col : ρ → Int) :
    columnSum (fun r => key r == k) col rows =
      ((rows.find? fun r => key r == k).map col).getD 0 := by
  cases hfind : rows.find? fun r => key r == k with
  | none =>
      have hnil : rows.filter (fun r => key r == k) = [] := by
        rw [List.filter_eq_nil_iff]
        exact List.find?_eq_none.mp hfind
      simp [columnSum, hnil]
  | some r =>
      have hkey : key r = k := by
        simpa using List.find?_some hfind
      have hone := filter_key_eq_singleton hnodup (List.mem_of_find?_eq_some hfind)
      rw [hkey] at hone
      simp [columnSum, hone]

end Rows

end Library
end ZeroVpn
