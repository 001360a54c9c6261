import ZeroVpn.Db.Bandwidth

/-!
# Minute and daily candles

The write side of `crates/zerovpn-db/src/repos/candles.rs`: `insert_1m` merges a
flushed minute into the minute table, `rollup_daily` overwrites the candles of a
day with the fold of its minute rows, and `prune` deletes old rows.  The device
and the server tables go through the same functions.

The columns are `BIGINT`, and `INT` for the samples.  A statement that would
write a row out of this range fails as a whole.

`fold_mergeRows` says that the fold of an interval grows by the rows merged into
it, column by column.
-/

namespace ZeroVpn

open Library

namespace Db
namespace Candles

/-- A row of a candle table; `id` is the device or the server. -/
structure CandleRow where
  id : Uuid
  bucketStart : Int
  rxHigh : Int
  rxLow : Int
  rxSum : Int
  txHigh : Int
  txLow : Int
  txSum : Int
  samples : Int
  deriving DecidableEq, Repr

/-- The primary key. -/
def CandleRow.key (r : CandleRow) : Uuid × Int := (r.id, r.bucketStart)

/-- The columns that a roll-up folds. -/
inductive Column where
  | rxHigh
  | rxLow
  | rxSum
  | txHigh
  | txLow
  | txSum
  | samples
  deriving DecidableEq, Repr

def Column.value : Column → CandleRow → Int
  | .rxHigh => CandleRow.rxHigh
  | .rxLow => CandleRow.rxLow
  | .rxSum => CandleRow.rxSum
  | .txHigh => CandleRow.txHigh
  | .txLow => CandleRow.txLow
  | .txSum => CandleRow.txSum
  | .samples => CandleRow.samples

def Column.op : Column → Int → Int → Int
  | .rxHigh => max
  | .rxLow => min
  | .rxSum => (· + ·)
  | .txHigh => max
  | .txLow => min
  | .txSum => (· + ·)
  | .samples => (· + ·)

instance {P : Column → Prop} [DecidablePred P] : Decidable (∀ c, P c) :=
  decidable_of_iff
    ((P .rxHigh ∧ P .rxLow ∧ P .rxSum) ∧ (P .txHigh ∧ P .txLow ∧ P .txSum) ∧ P .samples)
    ⟨fun ⟨⟨hrxHigh, hrxLow, hrxSum⟩, ⟨htxHigh, htxLow, htxSum⟩, hsamples⟩ c =>
        match c with
        | .rxHigh => hrxHigh
        | .rxLow => hrxLow
        | .rxSum => hrxSum
        | .txHigh => htxHigh
        | .txLow => htxLow
        | .txSum => htxSum
        | .samples => hsamples,
      fun h => ⟨⟨h .rxHigh, h .rxLow, h .rxSum⟩, ⟨h .txHigh, h .txLow, h .txSum⟩, h .samples⟩⟩

/-- The range of an `INT`. -/
def inI32 (n : Int) : Prop := -2 ^ 31 ≤ n ∧ n < 2 ^ 31

instance (n : Int) : Decidable (inI32 n) := inferInstanceAs (Decidable (_ ∧ _))

/-- A value that the column can store. -/
def Column.Holds : Column → Int → Prop
  | .samples => inI32
  | _ => inI64

instance : (c : Column) → (n : Int) → Decidable (c.Holds n)
  | .samples, n => inferInstanceAs (Decidable (inI32 n))
  | .rxHigh, n | .rxLow, n | .rxSum, n | .txHigh, n | .txLow, n | .txSum, n =>
      inferInstanceAs (Decidable (inI64 n))

/-- The row fits into its table. -/
def CandleRow.Storable (r : CandleRow) : Prop := ∀ c : Column, c.Holds (c.value r)

instance (r : CandleRow) : Decidable r.Storable :=
  inferInstanceAs (Decidable (∀ _ : Column, _))

/-- The row of a minute that was flushed before. -/
def CandleRow.merge (new old : CandleRow) : CandleRow :=
  { old with
    rxHigh := max old.rxHigh new.rxHigh
    rxLow := min old.rxLow new.rxLow
    rxSum := old.rxSum + new.rxSum
    txHigh := max old.txHigh new.txHigh
    txLow := min old.txLow new.txLow
    txSum := old.txSum + new.txSum
    samples := old.samples + new.samples }

/-- One row of the statement of `insert_1m`. -/
def mergeRow (minutes : List CandleRow) (new : CandleRow) : List CandleRow :=
  upsertRow (fun r => r.id == new.id && r.bucketStart == new.bucketStart) new new.merge minutes

/-- The minute table after the rows of a flush. -/
def mergeRows (rows minutes : List CandleRow) : List CandleRow :=
  rows.foldl mergeRow minutes

/-- `insert_1m`. -/
def insert1m (rows minutes : List CandleRow) : Except DbError (List CandleRow) :=
  if ∀ r ∈ mergeRows rows minutes, r.key ∈ rows.map CandleRow.key → r.Storable then
    .ok (mergeRows rows minutes)
  else .error .constraint

/-- `MAX(high), MIN(low), SUM(sum), …, SUM(samples)` of some minute rows. -/
def dayCandle (start : Int) (id : Uuid) (rows : List CandleRow) : CandleRow where
  id := id
  bucketStart := start
  rxHigh := (foldColumn max CandleRow.rxHigh rows).getD 0
  rxLow := (foldColumn min CandleRow.rxLow rows).getD 0
  rxSum := (foldColumn (· + ·) CandleRow.rxSum rows).getD 0
  txHigh := (foldColumn max CandleRow.txHigh rows).getD 0
  txLow := (foldColumn min CandleRow.txLow rows).getD 0
  txSum := (foldColumn (· + ·) CandleRow.txSum rows).getD 0
  samples := (foldColumn (· + ·) CandleRow.samples rows).getD 0

/-- The rows of `[lo, hi)`. -/
def between (lo hi : Int) : CandleRow → Bool :=
  during (fun _ => true) CandleRow.bucketStart lo hi

/-- The candles of a day, one for every id with rows in it. -/
def dayCandles (dayStart dayEnd : Int) (minutes : List CandleRow) : List CandleRow :=
  groupRows CandleRow.id (dayCandle (toTimestamp dayStart))
    (minutes.filter (between (toTimestamp dayStart) (toTimestamp dayEnd)))

/-- The candles of the day fit into the daily table. -/
def DayFits (dayStart dayEnd : Int) (minutes : List CandleRow) : Prop :=
  ∀ r ∈ dayCandles dayStart dayEnd minutes, r.Storable

instance (dayStart dayEnd : Int) (minutes : List CandleRow) :
    Decidable (DayFits dayStart dayEnd minutes) :=
  inferInstanceAs (Decidable (∀ r ∈ _, _))

/-- `rollup_daily`. -/
def rollupDaily (dayStart dayEnd : Int) (minutes daily : List CandleRow) :
    Except DbError (List CandleRow) :=
  if DayFits dayStart dayEnd minutes then
    .ok (overwrite CandleRow.key (dayCandles dayStart dayEnd minutes) daily)
  else .error .constraint

/-- One `DELETE` of `prune`. -/
def pruneRows (cut : Int) (rows : List CandleRow) : List CandleRow :=
  rows.filter fun r => decide (cut ≤ r.bucketStart)

/-- The rows of one id in `[lo, hi)`. -/
def part (rows : List CandleRow) (id : Uuid) (lo hi : Int) : List CandleRow :=
  rows.filter (during (fun r => r.id == id) CandleRow.bucketStart lo hi)

section Lookup

variable {rows minutes daily : List CandleRow} {id : Uuid} {lo hi : Int}

theorem mem_part {r : CandleRow} :
    r ∈ part rows id lo hi ↔ r ∈ rows ∧ r.id = id ∧ lo ≤ r.bucketStart ∧ r.bucketStart < hi := by
  unfold part
  rw [List.mem_filter, during_iff, beq_iff_eq]

theorem between_iff {r : CandleRow} :
    between lo hi r = true ↔ lo ≤ r.bucketStart ∧ r.bucketStart < hi := by
  unfold between
  rw [during_iff]
  exact ⟨fun h => h.2, fun h => ⟨rfl, h⟩⟩

theorem filter_between_id :
    (rows.filter (between lo hi)).filter (fun r => r.id == id) = part rows id lo hi := by
  unfold part between
  rw [List.filter_filter]
  refine List.filter_congr ?_
  intro r _
  simp only [during, Bool.true_and, Bool.and_assoc]

theorem dayCandle_injective (start : Int) : Function.Injective fun id : Uuid => (id, start) := by
  intro id id' h
  exact congrArg Prod.fst h

theorem key_dayCandle (start : Int) (id : Uuid) (rows : List CandleRow) :
    (dayCandle start id rows).key = (id, start) := rfl

/-- A flush that goes through. -/
theorem insert1m_eq_ok {minutes' : List CandleRow} (h : insert1m rows minutes = .ok minutes') :
    minutes' = mergeRows rows minutes ∧
      ∀ r ∈ minutes', r.key ∈ rows.map CandleRow.key → r.Storable := by
  unfold insert1m at h
  split at h
  · rename_i hfits
    cases h
    exact ⟨rfl, hfits⟩
  · cases h

/-- A roll-up that goes through. -/
theorem rollupDaily_eq_ok {dayStart dayEnd : Int} {daily' : List CandleRow}
    (h : rollupDaily dayStart dayEnd minutes daily = .ok daily') :
    DayFits dayStart dayEnd minutes ∧
      daily' = overwrite CandleRow.key (dayCandles dayStart dayEnd minutes) daily := by
  unfold rollupDaily at h
  split at h
  · rename_i hfits
    cases h
    exact ⟨hfits, rfl⟩
  · cases h

/-- The candle of an id that has minute rows in the interval. -/
theorem rowAt_rollupDaily {dayStart dayEnd : Int} {daily' : List CandleRow}
    (h : rollupDaily dayStart dayEnd minutes daily = .ok daily')
    (hpart : part minutes id (toTimestamp dayStart) (toTimestamp dayEnd) ≠ []) :
    rowAt CandleRow.key (id, toTimestamp dayStart) daily' =
      some (dayCandle (toTimestamp dayStart) id
        (part minutes id (toTimestamp dayStart) (toTimestamp dayEnd))) := by
  obtain ⟨r, hr⟩ := List.exists_mem_of_ne_nil _ hpart
  obtain ⟨hmem, rfl, hlo, hhi⟩ := mem_part.mp hr
  rw [(rollupDaily_eq_ok h).2, rowAt_overwrite]
  have hin : r ∈ minutes.filter (between (toTimestamp dayStart) (toTimestamp dayEnd)) :=
    List.mem_filter.mpr ⟨hmem, between_iff.mpr ⟨hlo, hhi⟩⟩
  have hgroup : rowAt CandleRow.key (r.id, toTimestamp dayStart)
      (dayCandles dayStart dayEnd minutes) = some _ :=
    rowAt_groupRows (key_dayCandle _) (dayCandle_injective (toTimestamp dayStart)) hin
  rw [hgroup, Option.some_or, filter_between_id]

/-- Every other candle stays. -/
theorem rowAt_rollupDaily_same {dayStart dayEnd t : Int} {daily' : List CandleRow}
    (h : rollupDaily dayStart dayEnd minutes daily = .ok daily')
    (hmiss : t = toTimestamp dayStart →
      part minutes id (toTimestamp dayStart) (toTimestamp dayEnd) = []) :
    rowAt CandleRow.key (id, t) daily' = rowAt CandleRow.key (id, t) daily := by
  rw [(rollupDaily_eq_ok h).2, rowAt_overwrite]
  have hgroup : rowAt CandleRow.key (id, t) (dayCandles dayStart dayEnd minutes) = none := by
    refine rowAt_groupRows_none (key_dayCandle _) ?_
    intro r hr heq
    obtain ⟨hmem, hin⟩ := List.mem_filter.mp hr
    obtain ⟨hid, htime⟩ := Prod.mk.injEq .. ▸ heq
    have hpart := mem_part.mpr ⟨hmem, hid, between_iff.mp hin⟩
    rw [hmiss htime.symm] at hpart
    cases hpart
  rw [hgroup, Option.none_or]

/-- A candle after a prune. -/
theorem rowAt_pruneRows (cut t : Int) :
    rowAt CandleRow.key (id, t) (pruneRows cut rows) =
      if cut ≤ t then rowAt CandleRow.key (id, t) rows else none := by
  unfold rowAt pruneRows
  rw [List.find?_filter]
  split
  · rename_i hcut
    congr 1
    funext r
    by_cases hkey : r.key = (id, t)
    · have htime : r.bucketStart = t := congrArg Prod.snd hkey
      simp [hkey, htime, hcut]
    · simp [hkey]
  · rename_i hcut
    rw [List.find?_eq_none]
    intro r _
    by_cases hkey : r.key = (id, t)
    · have htime : r.bucketStart = t := congrArg Prod.snd hkey
      simp [hkey, htime, hcut]
    · simp [hkey]

end Lookup

instance (c : Column) : Std.Associative c.op := by
  cases c
  all_goals
    constructor
    intro x y z
    simp only [Column.op]
    omega

instance (c : Column) : Std.Commutative c.op := by
  cases c
  all_goals
    constructor
    intro x y
    simp only [Column.op]
    omega

/-- The fold of one column. -/
def Column.fold (c : Column) (rows : List CandleRow) : Option Int :=
  foldColumn c.op c.value rows

/-- A candle is determined by the folds of its columns. -/
theorem dayCandle_congr {rows rows' : List CandleRow}
    (h : ∀ c : Column, c.fold rows = c.fold rows') (start : Int) (id : Uuid) :
    dayCandle start id rows = dayCandle start id rows' := by
  have h₁ : foldColumn max CandleRow.rxHigh rows = foldColumn max CandleRow.rxHigh rows' :=
    h .rxHigh
  have h₂ : foldColumn min CandleRow.rxLow rows = foldColumn min CandleRow.rxLow rows' :=
    h .rxLow
  have h₃ : foldColumn (· + ·) CandleRow.rxSum rows = foldColumn (· + ·) CandleRow.rxSum rows' :=
    h .rxSum
  have h₄ : foldColumn max CandleRow.txHigh rows = foldColumn max CandleRow.txHigh rows' :=
    h .txHigh
  have h₅ : foldColumn min CandleRow.txLow rows = foldColumn min CandleRow.txLow rows' :=
    h .txLow
  have h₆ : foldColumn (· + ·) CandleRow.txSum rows = foldColumn (· + ·) CandleRow.txSum rows' :=
    h .txSum
  have h₇ : foldColumn (· + ·) CandleRow.samples rows =
      foldColumn (· + ·) CandleRow.samples rows' := h .samples
  unfold dayCandle
  rw [h₁, h₂, h₃, h₄, h₅, h₆, h₇]

section Merge

variable {minutes : List CandleRow} {new : CandleRow}

theorem atRow_iff {r : CandleRow} :
    (r.id == new.id && r.bucketStart == new.bucketStart) = true ↔ r.key = new.key := by
  rw [Bool.and_eq_true, beq_iff_eq, beq_iff_eq]
  unfold CandleRow.key
  rw [Prod.mk.injEq]

theorem nodup_mergeRow (h : (minutes.map CandleRow.key).Nodup) (new : CandleRow) :
    ((mergeRow minutes new).map CandleRow.key).Nodup := by
  unfold mergeRow upsertRow
  split
  · have hkey : ∀ r, (new.merge r).key = r.key := fun _ => rfl
    rw [map_updateWhere hkey]
    exact h
  · rename_i hany
    rw [List.map_append, List.map_singleton]
    refine List.Nodup.append h (List.nodup_singleton _) ?_
    intro k hk hnew
    obtain ⟨r, hr, rfl⟩ := List.mem_map.mp hk
    refine hany (List.any_eq_true.mpr ⟨r, hr, ?_⟩)
    exact atRow_iff.mpr (List.mem_singleton.mp hnew)

/-- The fold of some keys after one more row. -/
theorem fold_mergeRow (h : (minutes.map CandleRow.key).Nodup) (new : CandleRow) (c : Column)
    (q : Uuid × Int → Bool) :
    c.fold ((mergeRow minutes new).filter fun r => q r.key) =
      (c.fold (minutes.filter fun r => q r.key)).merge c.op
        (c.fold ([new].filter fun r => q r.key)) := by
  refine foldColumn_upsertRow c.op c.value (List.Nodup.of_map _ h) ?_ ?_ ?_
  · intro r hr r' hr' hp hp'
    exact row_unique h hr hr' ((atRow_iff.mp hp).trans (atRow_iff.mp hp').symm)
  · intro r _ hp
    exact ⟨rfl, congrArg q (atRow_iff.mp hp).symm⟩
  · intro r _ _
    cases c
    all_goals rfl

theorem nodup_mergeRows (h : (minutes.map CandleRow.key).Nodup) (rows : List CandleRow) :
    ((mergeRows rows minutes).map CandleRow.key).Nodup := by
  unfold mergeRows
  induction rows generalizing minutes with
  | nil =>
      exact h
  | cons r rows ih =>
      exact ih (nodup_mergeRow h r)

/-- The fold of some keys after a flush. -/
theorem fold_mergeRows_where (h : (minutes.map CandleRow.key).Nodup) (rows : List CandleRow)
    (c : Column) (q : Uuid × Int → Bool) :
    c.fold ((mergeRows rows minutes).filter fun r => q r.key) =
      (c.fold (minutes.filter fun r => q r.key)).merge c.op
        (c.fold (rows.filter fun r => q r.key)) := by
  unfold mergeRows
  induction rows generalizing minutes with
  | nil =>
      exact Option.merge_none_right.symm
  | cons r rows ih =>
      have hcons : (r :: rows).filter (fun r => q r.key) =
          [r].filter (fun r => q r.key) ++ rows.filter fun r => q r.key := by
        rw [← List.filter_append, List.singleton_append]
      have hassoc : Std.Associative (Option.merge c.op) := inferInstance
      rw [List.foldl_cons, ih (nodup_mergeRow h r), fold_mergeRow h, hcons, hassoc.assoc]
      unfold Column.fold
      rw [foldColumn_append]

/-- The fold of an interval after a flush. -/
theorem fold_mergeRows (h : (minutes.map CandleRow.key).Nodup) (rows : List CandleRow) (c : Column)
    (id : Uuid) (lo hi : Int) :
    c.fold (part (mergeRows rows minutes) id lo hi) =
      (c.fold (part minutes id lo hi)).merge c.op (c.fold (part rows id lo hi)) :=
  fold_mergeRows_where h rows c fun k => k.1 == id && decide (lo ≤ k.2) && decide (k.2 < hi)

/-- What holds of the rows and is kept by merging holds after a flush. -/
theorem forall_mergeRows {P : CandleRow → Prop} (hmerge : ∀ r r', P r → P r' → P (r'.merge r))
    {rows : List CandleRow} (hrows : ∀ r ∈ rows, P r) (hminutes : ∀ r ∈ minutes, P r) :
    ∀ r ∈ mergeRows rows minutes, P r := by
  unfold mergeRows
  induction rows generalizing minutes with
  | nil =>
      exact hminutes
  | cons new rows ih =>
      refine ih (fun r hr => hrows r (List.mem_cons_of_mem _ hr)) ?_
      have hnew := hrows new List.mem_cons_self
      intro r hr
      unfold mergeRow upsertRow at hr
      split at hr
      · obtain ⟨r₀, hr₀, rfl⟩ := mem_updateWhere.mp hr
        have hold := hminutes r₀ hr₀
        split
        · exact hmerge r₀ new hold hnew
        · exact hold
      · rcases List.mem_append.mp hr with hr | hr
        · exact hminutes r hr
        · rw [List.mem_singleton.mp hr]
          exact hnew

/-- A row that no row of the flush goes to was there before. -/
theorem mem_of_mergeRows {rows : List CandleRow} {r : CandleRow} (hr : r ∈ mergeRows rows minutes)
    (hkey : r.key ∉ rows.map CandleRow.key) : r ∈ minutes := by
  unfold mergeRows at hr
  induction rows generalizing minutes with
  | nil =>
      exact hr
  | cons new rows ih =>
      rw [List.map_cons, List.mem_cons, not_or] at hkey
      have hmem := ih hr hkey.2
      unfold mergeRow upsertRow at hmem
      split at hmem
      · obtain ⟨r₀, hr₀, heq⟩ := mem_updateWhere.mp hmem
        split at heq
        · rename_i hat
          have hmerged : r.key = r₀.key := by
            rw [heq]
            rfl
          exact absurd (hmerged.trans (atRow_iff.mp hat)) hkey.1
        · exact heq ▸ hr₀
      · rcases List.mem_append.mp hmem with hmem | hmem
        · exact hmem
        · exact absurd (congrArg CandleRow.key (List.mem_singleton.mp hmem)) hkey.1

/-- Rows with samples stay rows with samples. -/
theorem samples_mergeRows {rows : List CandleRow} (hrows : ∀ r ∈ rows, 0 < r.samples)
    (hminutes : ∀ r ∈ minutes, 0 < r.samples) : ∀ r ∈ mergeRows rows minutes, 0 < r.samples := by
  refine forall_mergeRows ?_ hrows hminutes
  intro r r' hr hr'
  simp only [CandleRow.merge]
  omega

/-- A flush keeps the rows storable. -/
theorem storable_insert1m {rows minutes' : List CandleRow} (hminutes : ∀ r ∈ minutes, r.Storable)
    (h : insert1m rows minutes = .ok minutes') : ∀ r ∈ minutes', r.Storable := by
  obtain ⟨rfl, hfits⟩ := insert1m_eq_ok h
  intro r hr
  by_cases hkey : r.key ∈ rows.map CandleRow.key
  · exact hfits r hr hkey
  · exact hminutes r (mem_of_mergeRows hr hkey)

end Merge

theorem storable_rollupDaily {dayStart dayEnd : Int} {minutes daily daily' : List CandleRow}
    (hdaily : ∀ r ∈ daily, r.Storable) (h : rollupDaily dayStart dayEnd minutes daily = .ok daily') :
    ∀ r ∈ daily', r.Storable := by
  obtain ⟨hfits, rfl⟩ := rollupDaily_eq_ok h
  intro r hr
  rcases mem_overwrite hr with hnew | hold
  · exact hfits r hnew
  · exact hdaily r hold

end Candles
end Db
end ZeroVpn
