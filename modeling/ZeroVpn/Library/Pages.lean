import Mathlib.Data.Int.ConditionallyCompleteOrder
import Mathlib.Data.List.Sort
import Mathlib.Order.ConditionallyCompleteLattice.Basic
import ZeroVpn.Library.Rollups

/-!
# Grouped rows, read page by page

`groupsDesc` is `SELECT … GROUP BY bucket ORDER BY bucket DESC`: one result for
every bucket that has rows, the latest first.  A page is a `LIMIT` of it over the
rows before a cursor, and `readBack` asks for one page after the other, each time
with the start of the oldest bucket it got.

A query fails if a result that it computes is out of range.  Whether it computes
the results beyond the limit is up to the plan of the database.

The cursor is compared with the time of a row and not with its bucket.  Pages
lose nothing if the bucket of an instant is the start of the interval that the
instant is in, which is what `Grid` says.
-/

namespace ZeroVpn
namespace Library

universe u v w

section Descending

variable {keys : List Int}

/-- The values that occur, the greatest first. -/
def descending (keys : List Int) : List Int :=
  keys.dedup.insertionSort (· ≥ ·)

theorem mem_descending {k : Int} : k ∈ descending keys ↔ k ∈ keys := by
  unfold descending
  rw [List.mem_insertionSort, List.mem_dedup]

theorem pairwise_descending (keys : List Int) : (descending keys).Pairwise (· > ·) := by
  have hsorted : (descending keys).Pairwise (· ≥ ·) := List.pairwise_insertionSort _ _
  have hnodup : (descending keys).Nodup :=
    (List.perm_insertionSort _ _).nodup_iff.mpr (List.nodup_dedup keys)
  refine hsorted.imp₂ ?_ hnodup
  intro a b hge hne
  exact lt_of_le_of_ne hge hne.symm

/-- Values are sorted out before or after. -/
theorem descending_filter (p : Int → Bool) (keys : List Int) :
    descending (keys.filter p) = (descending keys).filter p := by
  refine List.Pairwise.eq_of_mem_iff (pairwise_descending _)
    ((pairwise_descending keys).filter p) ?_
  intro k
  rw [mem_descending, List.mem_filter, List.mem_filter, mem_descending]

/-- What comes after a value in a descending list is what is less. -/
theorem filter_lt_of_pairwise {l l' : List Int} {b : Int}
    (h : (l ++ b :: l').Pairwise (· > ·)) :
    (l ++ b :: l').filter (fun k => decide (k < b)) = l' := by
  obtain ⟨_, hafter, hbefore⟩ := List.pairwise_append.mp h
  have hnone : l.filter (fun k => decide (k < b)) = [] := by
    refine List.filter_eq_nil_iff.mpr ?_
    intro k hk hlt
    have hgt := hbefore k hk b List.mem_cons_self
    exact absurd (of_decide_eq_true hlt) (Int.not_lt.mpr (Int.le_of_lt hgt))
  have hall : l'.filter (fun k => decide (k < b)) = l' := by
    refine List.filter_eq_self.mpr ?_
    intro k hk
    exact decide_eq_true ((List.pairwise_cons.mp hafter).1 k hk)
  rw [List.filter_append, hnone, List.filter_cons_of_neg (by simp), hall, List.nil_append]

end Descending

/-- The start of the interval that an instant is in. -/
structure Grid (f : Int → Int) : Prop where
  mono : Monotone f
  le : ∀ t, f t ≤ t
  idem : ∀ t, f (f t) = f t

/-- An instant is before an interval exactly when its own interval is. -/
theorem Grid.lt_iff {f : Int → Int} (h : Grid f) (t u : Int) : t < f u ↔ f t < f u := by
  constructor
  · exact lt_of_le_of_lt (h.le t)
  · intro hlt
    by_contra hge
    have hmono := h.mono (Int.not_lt.mp hge)
    rw [h.idem] at hmono
    exact absurd hlt (Int.not_lt.mpr hmono)

/-- Intervals of equal length, one of which starts at `origin`. -/
theorem grid_bins (origin : Int) {stride : Int} (hstride : 0 < stride) :
    Grid fun t => origin + (t - origin) / stride * stride where
  mono := by
    intro t t' h
    have hdiv : (t - origin) / stride ≤ (t' - origin) / stride :=
      Int.ediv_le_ediv hstride (by omega)
    have hmul := Int.mul_le_mul_of_nonneg_right hdiv (Int.le_of_lt hstride)
    change origin + _ ≤ origin + _
    omega
  le := by
    intro t
    have hmul := Int.ediv_mul_le (t - origin) (Int.ne_of_gt hstride)
    change origin + _ ≤ t
    omega
  idem := by
    intro t
    rw [add_sub_cancel_left, Int.mul_ediv_cancel _ (Int.ne_of_gt hstride)]

theorem grid_id : Grid fun t => t where
  mono _ _ h := h
  le t := Int.le_refl t
  idem _ := rfl

section Pages

variable {ρ : Type u} {τ κ : Type v} {ε : Type w}

/-- One result for every bucket that has rows, the latest bucket first. -/
def groupsDesc (bucket : ρ → Int) (agg : Int → List ρ → τ) (rows : List ρ) : List τ :=
  (descending (rows.map bucket)).map fun b => agg b (rows.filter fun r => bucket r == b)

/-- The row is older than the cursor, if there is one. -/
def olderThan (at_ : ρ → Int) (before : Option Int) (r : ρ) : Bool :=
  match before with
  | none => true
  | some t => decide (at_ r < t)

theorem olderThan_eq (at_ : ρ → Int) (before : Option Int) :
    olderThan at_ before = fun r => olderThan id before (at_ r) := by
  cases before with
  | none =>
      rfl
  | some t =>
      rfl

/-- `LIMIT`, if there is one. -/
def limited (limit : Option Nat) (results : List τ) : List τ :=
  match limit with
  | none => results
  | some n => results.take n

/-- What a query computes: all results, or those up to the limit. -/
inductive Plan where
  | all
  | page
  deriving DecidableEq, Repr

def Plan.computed (plan : Plan) (limit : Option Nat) (results : List τ) : List τ :=
  match plan with
  | .all => results
  | .page => limited limit results

instance decidableEqExcept {ε : Type u} {α : Type v} [DecidableEq ε] [DecidableEq α] :
    DecidableEq (Except ε α)
  | .error e, .error e' => decidable_of_iff (e = e') ⟨congrArg _, Except.error.inj⟩
  | .ok a, .ok a' => decidable_of_iff (a = a') ⟨congrArg _, Except.ok.inj⟩
  | .error _, .ok _ => isFalse fun h => by cases h
  | .ok _, .error _ => isFalse fun h => by cases h

/-- A query whose results must be in range. -/
def checked (inRange : τ → Prop) [DecidablePred inRange] (e : ε) (plan : Plan)
    (limit : Option Nat) (results : List τ) : Except ε (List τ) :=
  if ∀ r ∈ plan.computed limit results, inRange r then .ok (limited limit results) else .error e

/-- Ask for pages, which have their oldest result first, until one is empty or fails; nothing if
`n` pages do not suffice. -/
def readBack (page : Option Int → Except ε (List τ)) (start : τ → Int) :
    Nat → Option Int → Option (Except ε (List τ))
  | 0, _ => none
  | n + 1, before =>
      match page before with
      | .error e => some (.error e)
      | .ok [] => some (.ok [])
      | .ok (oldest :: rest) =>
          (readBack page start n (some (start oldest))).map fun r => r.map (· ++ oldest :: rest)

section Checked

variable {inRange : τ → Prop} [DecidablePred inRange] {e : ε} {plan : Plan} {limit : Option Nat}
variable {results page : List τ}

theorem limited_subset (limit : Option Nat) (results : List τ) :
    limited limit results ⊆ results := by
  cases limit with
  | none =>
      exact fun _ hr => hr
  | some n =>
      exact List.take_subset n results

theorem computed_subset (plan : Plan) (limit : Option Nat) (results : List τ) :
    plan.computed limit results ⊆ results := by
  cases plan with
  | all =>
      exact fun _ hr => hr
  | page =>
      exact limited_subset limit results

theorem limited_subset_computed (plan : Plan) (limit : Option Nat) (results : List τ) :
    limited limit results ⊆ plan.computed limit results := by
  cases plan with
  | all =>
      exact limited_subset limit results
  | page =>
      exact fun _ hr => hr

theorem eq_of_checked (h : checked inRange e plan limit results = .ok page) :
    page = limited limit results := by
  unfold checked at h
  split at h
  · cases h
    rfl
  · cases h

/-- A query whose results are all in range. -/
theorem checked_of_all (h : ∀ r ∈ results, inRange r) :
    checked inRange e plan limit results = .ok (limited limit results) :=
  if_pos fun r hr => h r (computed_subset plan limit results hr)

/-- A query with a result on its page that is out of range. -/
theorem checked_of_exists {r : τ} (hr : r ∈ limited limit results) (hout : ¬inRange r) :
    checked inRange e plan limit results = .error e :=
  if_neg fun h => hout (h r (limited_subset_computed plan limit results hr))

/-- Without a limit there is only one plan. -/
theorem checked_none : checked inRange e plan none results =
    if ∀ r ∈ results, inRange r then .ok results else .error e := by
  cases plan
  · rfl
  · rfl

/-- A query fails because of a result that is out of range. -/
theorem checked_eq_error {e' : ε} (h : checked inRange e plan limit results = .error e') :
    e = e' ∧ ¬∀ r ∈ results, inRange r := by
  constructor
  · unfold checked at h
    split at h
    · cases h
    · exact Except.error.inj h
  · intro hall
    rw [checked_of_all hall] at h
    cases h

/-- Behind a page that was returned, the results are in range if all are. -/
theorem inRange_drop_iff {n : Nat} (h : checked inRange e plan (some n) results = .ok page) :
    (∀ r ∈ results.drop n, inRange r) ↔ ∀ r ∈ results, inRange r := by
  constructor
  · intro hall r hr
    rw [← List.take_append_drop n results, List.mem_append] at hr
    rcases hr with hr | hr
    · by_contra hout
      rw [checked_of_exists hr hout] at h
      cases h
    · exact hall r hr
  · exact fun hall r hr => hall r (List.mem_of_mem_drop hr)

end Checked

/-- The keys behind one of them are those that are older than it. -/
theorem filter_older_of_split {keys newer later : List Int} {before : Option Int} {b : Int}
    (hkeys : keys.Pairwise (· > ·))
    (hsplit : keys.filter (olderThan id before) = newer ++ b :: later) :
    keys.filter (olderThan id (some b)) = later := by
  have hsorted : (newer ++ b :: later).Pairwise (· > ·) := hsplit ▸ hkeys.filter _
  have hb : b ∈ keys.filter (olderThan id before) := by
    rw [hsplit]
    exact List.mem_append_right _ List.mem_cons_self
  have hbolder := (List.mem_filter.mp hb).2
  rw [← filter_lt_of_pairwise hsorted, ← hsplit, List.filter_filter]
  refine List.filter_congr ?_
  intro k _
  cases before with
  | none =>
      simp [olderThan]
  | some t =>
      have hbt : b < t := by simpa [olderThan] using hbolder
      by_cases hk : k < b
      · simp [olderThan, hk, Int.lt_trans hk hbt]
      · simp [olderThan, hk]

variable {bucket : ρ → Int} {agg : Int → List ρ → τ} {rows : List ρ}

theorem mem_groupsDesc {r : τ} :
    r ∈ groupsDesc bucket agg rows ↔
      ∃ x ∈ rows, r = agg (bucket x) (rows.filter fun y => bucket y == bucket x) := by
  unfold groupsDesc
  simp only [List.mem_map, mem_descending]
  constructor
  · rintro ⟨_, ⟨x, hx, rfl⟩, rfl⟩
    exact ⟨x, hx, rfl⟩
  · rintro ⟨x, hx, rfl⟩
    exact ⟨bucket x, ⟨x, hx, rfl⟩, rfl⟩

/-- A limit of one leaves the latest bucket. -/
theorem limited_groupsDesc {x : ρ} (hx : x ∈ rows) (hlast : ∀ r ∈ rows, bucket r ≤ bucket x) :
    limited (some 1) (groupsDesc bucket agg rows) =
      [agg (bucket x) (rows.filter fun r => bucket r == bucket x)] := by
  have hmem : bucket x ∈ descending (rows.map bucket) :=
    mem_descending.mpr (List.mem_map_of_mem hx)
  have hsorted := pairwise_descending (rows.map bucket)
  unfold groupsDesc
  cases hkeys : descending (rows.map bucket) with
  | nil =>
      rw [hkeys] at hmem
      cases hmem
  | cons b keys =>
      rw [hkeys] at hmem hsorted
      have hb : b ∈ descending (rows.map bucket) := hkeys ▸ List.mem_cons_self
      obtain ⟨r, hr, rfl⟩ := List.mem_map.mp (mem_descending.mp hb)
      have hle := hlast r hr
      rcases List.mem_cons.mp hmem with heq | hlater
      · rw [← heq]
        rfl
      · have hgt := (List.pairwise_cons.mp hsorted).1 _ hlater
        omega

/-- The results over the rows of some buckets are those of these buckets. -/
theorem groupsDesc_filter (p : Int → Bool) :
    groupsDesc bucket agg (rows.filter fun r => p (bucket r)) =
      ((descending (rows.map bucket)).filter p).map fun b =>
        agg b (rows.filter fun r => bucket r == b) := by
  have hkeys : (rows.filter fun r => p (bucket r)).map bucket = (rows.map bucket).filter p := by
    rw [List.filter_map]
    rfl
  unfold groupsDesc
  rw [hkeys, descending_filter]
  refine List.map_congr_left ?_
  intro b hb
  have hp := (List.mem_filter.mp hb).2
  rw [List.filter_filter]
  refine congrArg (agg b) (List.filter_congr ?_)
  intro r _
  by_cases hr : bucket r = b
  · simp [hr, hp]
  · simp [hr]

/-- The bucket of a result of the unlimited query, and all rows of it. -/
theorem groupsDesc_keys {start : τ → Int} (hstart : ∀ b rows, start (agg b rows) = b) :
    (groupsDesc bucket agg rows).map start = descending (rows.map bucket) := by
  unfold groupsDesc
  rw [List.map_map]
  conv_rhs => rw [← List.map_id (descending (rows.map bucket))]
  exact List.map_congr_left fun b _ => hstart b _

/-- Reading back through pages of a descending list of keys, some of which may be out of range. -/
theorem readBack_keys {page : Option Int → Except ε (List τ)} {start : τ → Int}
    {result : Int → τ} {inRange : Int → Prop} [DecidablePred inRange] {e : ε}
    {keys : List Int} {limit : Nat} (hlimit : 1 ≤ limit) (hkeys : keys.Pairwise (· > ·))
    (hstart : ∀ k, start (result k) = k)
    (hpage : ∀ before, (∀ b, before = some b → b ∈ keys) → ∃ plan, page before =
      (checked inRange e plan (some limit) (keys.filter (olderThan id before))).map
        fun ks => (ks.map result).reverse)
    (n : Nat) (before : Option Int) (hbefore : ∀ b, before = some b → b ∈ keys)
    (hn : (keys.filter (olderThan id before)).length < n) :
    readBack page start n before =
      some ((checked inRange e .all none (keys.filter (olderThan id before))).map
        fun ks => (ks.map result).reverse) := by
  induction n generalizing before with
  | zero =>
      exact absurd hn (Nat.not_lt_zero _)
  | succ n ih =>
      obtain ⟨plan, hplan⟩ := hpage before hbefore
      unfold readBack
      rw [hplan]
      generalize hrest : keys.filter (olderThan id before) = rest at hn ⊢
      cases hchecked : checked inRange e plan (some limit) rest with
      | error e' =>
          -- a key out of range ends the reading, and fails the whole query too
          obtain ⟨rfl, hout⟩ := checked_eq_error hchecked
          rw [checked_none, if_neg hout]
          rfl
      | ok ks =>
          have hks : ks = rest.take limit := eq_of_checked hchecked
          subst hks
          rcases List.eq_nil_or_concat (rest.take limit) with hnil | ⟨newer, b, hlast⟩
          · -- a page is empty only if nothing is left
            have hempty : rest = [] := by
              rcases List.take_eq_nil_iff.mp hnil with h | h
              · omega
              · exact h
            rw [hnil, hempty]
            rfl
          · have hsplit : rest = newer ++ b :: rest.drop limit := by
              have happend := List.take_append_drop limit rest
              rw [hlast, List.concat_eq_append, List.append_assoc] at happend
              exact happend.symm
            have hnext : keys.filter (olderThan id (some b)) = rest.drop limit :=
              filter_older_of_split hkeys (hrest.trans hsplit)
            have hb : b ∈ keys := by
              have hmem : b ∈ keys.filter (olderThan id before) := by
                rw [hrest, hsplit]
                exact List.mem_append_right _ List.mem_cons_self
              exact (List.mem_filter.mp hmem).1
            have hshorter : (rest.drop limit).length < n := by
              have hlength := congrArg List.length hsplit
              rw [List.length_append, List.length_cons] at hlength
              omega
            have htail := ih (some b) (fun b' h => Option.some.inj h ▸ hb) (by rwa [hnext])
            rw [hnext] at htail
            have hreverse : ((rest.take limit).map result).reverse =
                result b :: (newer.map result).reverse := by
              rw [hlast]
              simp
            simp only [Except.map]
            rw [hreverse]
            change (readBack page start n (some (start (result b)))).map _ = _
            rw [hstart, htail, checked_none, checked_none]
            simp only [inRange_drop_iff hchecked]
            by_cases hall : ∀ k ∈ rest, inRange k
            · rw [if_pos hall, if_pos hall]
              simp only [Option.map_some, Except.map]
              conv_rhs => rw [hsplit]
              simp
            · rw [if_neg hall, if_neg hall]
              rfl

/-- A query for the groups of some keys. -/
theorem checked_groups {inRange : τ → Prop} [DecidablePred inRange] {e : ε} {plan : Plan}
    {limit : Option Nat} {result : Int → τ} (keys : List Int) :
    checked inRange e plan limit (keys.map result) =
      (checked (fun k => inRange (result k)) e plan limit keys).map (List.map result) := by
  have hlimited : limited limit (keys.map result) = (limited limit keys).map result := by
    cases limit with
    | none =>
        rfl
    | some n =>
        exact List.map_take.symm
  have hcomputed : plan.computed limit (keys.map result) =
      (plan.computed limit keys).map result := by
    cases plan with
    | all =>
        rfl
    | page =>
        exact hlimited
  unfold checked
  rw [hlimited, hcomputed]
  simp only [List.forall_mem_map]
  split
  · rfl
  · rfl

/-- Reading back through pages of grouped rows is the query for the groups of all rows, and fails
exactly if it does. -/
theorem readBack_groups {at_ : ρ → Int} {f : Int → Int} (hgrid : Grid f) {start : κ → Int}
    {decode : τ → κ} (hstart : ∀ b rows, start (decode (agg b rows)) = b) {limit : Nat}
    (hlimit : 1 ≤ limit) {inRange : τ → Prop} [DecidablePred inRange] {e : ε}
    (plan : Option Int → Plan) (rows : List ρ) {n : Nat} (hn : rows.length < n) :
    readBack
        (fun before => (checked inRange e (plan before) (some limit)
          (groupsDesc (fun r => f (at_ r)) agg (rows.filter (olderThan at_ before)))).map
            fun page => (page.map decode).reverse) start n none =
      some ((checked inRange e .all none (groupsDesc (fun r => f (at_ r)) agg rows)).map
        fun page => (page.map decode).reverse) := by
  have hall : ∀ keys : List Int, keys.filter (olderThan id none) = keys := fun keys =>
    List.filter_eq_self.mpr fun _ _ => rfl
  have hmap : ∀ (q : Except ε (List Int)) (result : Int → τ),
      ((q.map (List.map result)).map fun page => (page.map decode).reverse) =
        q.map fun ks => (ks.map fun k => decode (result k)).reverse := by
    intro q result
    cases q with
    | error e =>
        rfl
    | ok ks =>
        simp [Except.map]
  have hread := @readBack_keys κ ε
    (fun before => (checked inRange e (plan before) (some limit)
      (groupsDesc (fun r => f (at_ r)) agg (rows.filter (olderThan at_ before)))).map
        fun page => (page.map decode).reverse) start
    (fun b => decode (agg b (rows.filter fun r => f (at_ r) == b)))
    (fun b => inRange (agg b (rows.filter fun r => f (at_ r) == b))) _ e
    (descending (rows.map fun r => f (at_ r))) limit hlimit (pairwise_descending _)
    (fun k => hstart k _) ?_ n none (fun b hb => by cases hb) ?_
  · rw [hread, hall]
    unfold groupsDesc
    rw [checked_groups, hmap]
  · intro before hbefore
    refine ⟨plan before, ?_⟩
    -- the cursor is the start of a bucket, so that it cuts none
    have hwhole : rows.filter (olderThan at_ before) =
        rows.filter fun r => olderThan id before (f (at_ r)) := by
      refine List.filter_congr ?_
      intro r _
      cases before with
      | none =>
          rfl
      | some b =>
          obtain ⟨x, _, rfl⟩ := List.mem_map.mp (mem_descending.mp (hbefore b rfl))
          exact decide_eq_decide.mpr (hgrid.lt_iff (at_ r) (at_ x))
    change (checked inRange e (plan before) (some limit) (groupsDesc (fun r => f (at_ r)) agg
      (rows.filter (olderThan at_ before)))).map _ = _
    rw [hwhole, groupsDesc_filter, checked_groups, hmap]
  · rw [hall]
    refine Nat.lt_of_le_of_lt ?_ hn
    unfold descending
    rw [List.length_insertionSort]
    have hlength := (List.dedup_sublist (rows.map fun r => f (at_ r))).length_le
    rwa [List.length_map] at hlength

end Pages

end Library
end ZeroVpn
