import Mathlib.Data.List.Nodup
import Mathlib.Logic.Function.Iterate

/-!
# Foreign keys

A database is a list of rows.  A row has a table, a key, and the columns of it
that hold a key and are not null; a schema says which of these columns are
foreign keys, and what the deletion of the referenced row does to them.

`deleteWhere` is `DELETE … WHERE`: the selected rows go, then the rows that
refer to a deleted row by a cascading column, then the rows that refer to those;
the columns of the remaining rows that are set to null lose their value.  The
tables of a schema have ranks that grow along cascading columns, so `depth`
rounds reach every row (`doomed_closed`), and no reference to a deleted row is
left (`integral_deleteWhere`).
-/

namespace ZeroVpn
namespace Library

/-- What the deletion of a referenced row does to a foreign key. -/
inductive OnDelete where
  | cascade
  | setNull
  deriving DecidableEq

structure Schema (T C : Type) where
  /-- The table that a column refers to. -/
  foreignKey : T → C → Option (T × OnDelete)
  rank : T → Nat
  depth : Nat
  rank_lt : ∀ t c t', foreignKey t c = some (t', .cascade) → rank t' < rank t
  rank_le : ∀ t, rank t ≤ depth

structure KeyedRow (T C K P : Type) where
  table : T
  key : K
  /-- The columns that hold a key. -/
  refs : List (C × K)
  content : P
  deriving DecidableEq

section ForeignKeys

variable {T C K P : Type}
variable (S : Schema T C)

/-- Every foreign key has its row. -/
def Integral (rows : List (KeyedRow T C K P)) : Prop :=
  ∀ r ∈ rows, ∀ ref ∈ r.refs, ∀ t act, S.foreignKey r.table ref.1 = some (t, act) →
    ∃ r' ∈ rows, r'.table = t ∧ r'.key = ref.2

/-- An insertion whose references have their rows. -/
theorem integral_append {S : Schema T C} {rows : List (KeyedRow T C K P)}
    {new : KeyedRow T C K P} (h : Integral S rows)
    (hnew : ∀ ref ∈ new.refs, ∀ t act, S.foreignKey new.table ref.1 = some (t, act) →
      ∃ r' ∈ rows, r'.table = t ∧ r'.key = ref.2) :
    Integral S (rows ++ [new]) := by
  have hfound : ∀ r ∈ rows ++ [new], ∀ ref ∈ r.refs, ∀ t act,
      S.foreignKey r.table ref.1 = some (t, act) →
        ∃ r' ∈ rows, r'.table = t ∧ r'.key = ref.2 := by
    intro r hr
    rcases List.mem_append.mp hr with hold | hwritten
    · exact h r hold
    · rw [List.mem_singleton.mp hwritten]
      exact hnew
  intro r hr ref href t act hkey
  obtain ⟨r', hr', heq⟩ := hfound r hr ref href t act hkey
  exact ⟨r', List.mem_append_left _ hr', heq⟩

variable [DecidableEq T] [DecidableEq K]

/-- The reference of a row of `table` is to a row that `p` selects, with the action `act`. -/
def refersTo (act : OnDelete) (rows : List (KeyedRow T C K P)) (p : KeyedRow T C K P → Bool)
    (table : T) (ref : C × K) : Bool :=
  rows.any fun r => p r && decide (S.foreignKey table ref.1 = some (r.table, act)) &&
    decide (ref.2 = r.key)

/-- One round of cascades. -/
def cascadeRound (rows : List (KeyedRow T C K P)) (p : KeyedRow T C K P → Bool)
    (r : KeyedRow T C K P) : Bool :=
  p r || r.refs.any (refersTo S .cascade rows p r.table)

/-- The rows that go with the rows that `p` selects. -/
def doomed (rows : List (KeyedRow T C K P)) (p : KeyedRow T C K P → Bool) :
    KeyedRow T C K P → Bool :=
  (cascadeRound S rows)^[S.depth] p

/-- The row without the references that are set to null. -/
def nullify (rows : List (KeyedRow T C K P)) (dead : KeyedRow T C K P → Bool)
    (r : KeyedRow T C K P) : KeyedRow T C K P :=
  { r with refs := r.refs.filter fun ref => !refersTo S .setNull rows dead r.table ref }

/-- `DELETE … WHERE p`. -/
def deleteWhere (p : KeyedRow T C K P → Bool) (rows : List (KeyedRow T C K P)) :
    List (KeyedRow T C K P) :=
  (rows.filter fun r => !doomed S rows p r).map (nullify S rows (doomed S rows p))

variable {S} {rows : List (KeyedRow T C K P)} {p : KeyedRow T C K P → Bool}

@[simp] theorem nullify_table (dead : KeyedRow T C K P → Bool) (r : KeyedRow T C K P) :
    (nullify S rows dead r).table = r.table := rfl

@[simp] theorem nullify_key (dead : KeyedRow T C K P → Bool) (r : KeyedRow T C K P) :
    (nullify S rows dead r).key = r.key := rfl

@[simp] theorem nullify_content (dead : KeyedRow T C K P → Bool) (r : KeyedRow T C K P) :
    (nullify S rows dead r).content = r.content := rfl

theorem refersTo_iff {act : OnDelete} {table : T} {ref : C × K} :
    refersTo S act rows p table ref = true ↔
      ∃ r ∈ rows, p r = true ∧ S.foreignKey table ref.1 = some (r.table, act) ∧
        ref.2 = r.key := by
  simp [refersTo, List.any_eq_true, and_assoc]

theorem cascadeRound_iff {r : KeyedRow T C K P} :
    cascadeRound S rows p r = true ↔
      p r = true ∨ ∃ ref ∈ r.refs, refersTo S .cascade rows p r.table ref = true := by
  simp [cascadeRound, List.any_eq_true]

theorem mem_nullify_refs {dead : KeyedRow T C K P → Bool} {r : KeyedRow T C K P} {ref : C × K} :
    ref ∈ (nullify S rows dead r).refs ↔
      ref ∈ r.refs ∧ refersTo S .setNull rows dead r.table ref = false := by
  simp [nullify, List.mem_filter]

/-- A reference that is no foreign key stays. -/
theorem mem_nullify_of_free {dead : KeyedRow T C K P → Bool} {r : KeyedRow T C K P} {ref : C × K}
    (href : ref ∈ r.refs) (hfree : ∀ t, S.foreignKey r.table ref.1 ≠ some (t, .setNull)) :
    ref ∈ (nullify S rows dead r).refs := by
  refine mem_nullify_refs.mpr ⟨href, ?_⟩
  rw [← Bool.not_eq_true, refersTo_iff]
  rintro ⟨r', -, -, hkey, -⟩
  exact hfree r'.table hkey

theorem mem_deleteWhere {r' : KeyedRow T C K P} :
    r' ∈ deleteWhere S p rows ↔
      ∃ r ∈ rows, doomed S rows p r = false ∧ nullify S rows (doomed S rows p) r = r' := by
  simp [deleteWhere, List.mem_map, List.mem_filter, and_assoc]

/-- A later round keeps what an earlier round has found. -/
theorem cascade_mono (n : Nat) {r : KeyedRow T C K P}
    (h : (cascadeRound S rows)^[n] p r = true) : (cascadeRound S rows)^[n + 1] p r = true := by
  rw [Function.iterate_succ_apply']
  exact cascadeRound_iff.mpr (Or.inl h)

theorem cascade_le {n m : Nat} (hnm : n ≤ m) {r : KeyedRow T C K P}
    (h : (cascadeRound S rows)^[n] p r = true) : (cascadeRound S rows)^[m] p r = true := by
  induction hnm with
  | refl =>
      exact h
  | step _ ih =>
      exact cascade_mono _ ih

/-- The rows of rank `m` are settled after `m` rounds. -/
theorem cascade_settled (m : Nat) {r : KeyedRow T C K P} (hrank : S.rank r.table ≤ m)
    (h : (cascadeRound S rows)^[m + 1] p r = true) : (cascadeRound S rows)^[m] p r = true := by
  induction m generalizing r with
  | zero =>
      rw [Function.iterate_succ_apply', cascadeRound_iff] at h
      rcases h with h | ⟨ref, -, href⟩
      · exact h
      · obtain ⟨r', -, -, hkey, -⟩ := refersTo_iff.mp href
        have hlt := S.rank_lt _ _ _ hkey
        omega
  | succ m ih =>
      rw [Function.iterate_succ_apply', cascadeRound_iff] at h
      rcases h with h | ⟨ref, hmem, href⟩
      · exact h
      · obtain ⟨r', hr', hdead, hkey, href'⟩ := refersTo_iff.mp href
        have hlt := S.rank_lt _ _ _ hkey
        rw [Function.iterate_succ_apply']
        refine cascadeRound_iff.mpr (Or.inr ⟨ref, hmem, ?_⟩)
        exact refersTo_iff.mpr ⟨r', hr', ih (by omega) hdead, hkey, href'⟩

theorem doomed_of_selected {r : KeyedRow T C K P} (h : p r = true) : doomed S rows p r = true :=
  cascade_le (Nat.zero_le S.depth) h

/-- A row that refers to a deleted row by a cascading column is deleted. -/
theorem doomed_closed {r r' : KeyedRow T C K P} {ref : C × K} (href : ref ∈ r.refs)
    (hr' : r' ∈ rows) (hdead : doomed S rows p r' = true)
    (hkey : S.foreignKey r.table ref.1 = some (r'.table, .cascade)) (hval : ref.2 = r'.key) :
    doomed S rows p r = true := by
  refine cascade_settled S.depth (S.rank_le r.table) ?_
  rw [Function.iterate_succ_apply', cascadeRound_iff]
  exact Or.inr ⟨ref, href, refersTo_iff.mpr ⟨r', hr', hdead, hkey, hval⟩⟩

/-- A row is deleted because it is selected, or because it refers to a deleted row. -/
theorem doomed_cases {r : KeyedRow T C K P} (h : doomed S rows p r = true) :
    p r = true ∨ ∃ ref ∈ r.refs, ∃ r' ∈ rows, doomed S rows p r' = true ∧
      S.foreignKey r.table ref.1 = some (r'.table, .cascade) ∧ ref.2 = r'.key := by
  have hround : ∀ n ≤ S.depth, (cascadeRound S rows)^[n] p r = true →
      p r = true ∨
        ∃ ref ∈ r.refs, refersTo S .cascade rows (doomed S rows p) r.table ref = true := by
    intro n
    induction n with
    | zero =>
        exact fun _ hr => Or.inl hr
    | succ n ih =>
        intro hn hr
        rw [Function.iterate_succ_apply', cascadeRound_iff] at hr
        rcases hr with hr | ⟨ref, hmem, href⟩
        · exact ih (by omega) hr
        · obtain ⟨r', hr', hdead, hkey, hval⟩ := refersTo_iff.mp href
          have hdoomed : doomed S rows p r' = true := cascade_le (by omega) hdead
          exact Or.inr ⟨ref, hmem, refersTo_iff.mpr ⟨r', hr', hdoomed, hkey, hval⟩⟩
  rcases hround S.depth (Nat.le_refl _) h with hsel | ⟨ref, hmem, href⟩
  · exact Or.inl hsel
  · exact Or.inr ⟨ref, hmem, refersTo_iff.mp href⟩

/-- A deletion leaves no reference to a deleted row. -/
theorem integral_deleteWhere (h : Integral S rows) : Integral S (deleteWhere S p rows) := by
  intro r hr ref href t act hkey
  obtain ⟨r₀, hr₀, halive, rfl⟩ := mem_deleteWhere.mp hr
  obtain ⟨hmem, hkept⟩ := mem_nullify_refs.mp href
  obtain ⟨r', hr', rfl, hval⟩ := h r₀ hr₀ ref hmem t act hkey
  cases hdead : doomed S rows p r' with
  | false =>
      exact ⟨_, mem_deleteWhere.mpr ⟨r', hr', hdead, rfl⟩, rfl, hval⟩
  | true =>
      cases act with
      | cascade =>
          rw [doomed_closed hmem hr' hdead hkey hval.symm] at halive
          cases halive
      | setNull =>
          have hlost : refersTo S .setNull rows (doomed S rows p) r₀.table ref = true :=
            refersTo_iff.mpr ⟨r', hr', hdead, hkey, hval.symm⟩
          rw [hlost] at hkept
          cases hkept

/-- The keys of the rows that are left. -/
theorem keys_deleteWhere : ((deleteWhere S p rows).map KeyedRow.key).Sublist
    (rows.map KeyedRow.key) := by
  unfold deleteWhere
  rw [List.map_map]
  exact (List.filter_sublist).map KeyedRow.key

/-- A deletion in tables that nothing refers to. -/
theorem deleteWhere_unreferenced
    (hfree : ∀ r ∈ rows, p r = true → ∀ t c act, S.foreignKey t c ≠ some (r.table, act)) :
    deleteWhere S p rows = rows.filter fun r => !p r := by
  have hround : ∀ n (r : KeyedRow T C K P),
      (cascadeRound S rows)^[n] p r = true → p r = true := by
    intro n
    induction n with
    | zero =>
        exact fun _ hr => hr
    | succ n ih =>
        intro r hr
        rw [Function.iterate_succ_apply', cascadeRound_iff] at hr
        rcases hr with hr | ⟨ref, -, href⟩
        · exact ih r hr
        · obtain ⟨r', hr', hdead, hkey, -⟩ := refersTo_iff.mp href
          exact absurd hkey (hfree r' hr' (ih r' hdead) _ _ _)
  have hdoomed : ∀ r, doomed S rows p r = p r := by
    intro r
    rw [Bool.eq_iff_iff]
    exact ⟨hround S.depth r, doomed_of_selected⟩
  have hnull : ∀ r, nullify S rows (doomed S rows p) r = r := by
    intro r
    have hrefs : r.refs.filter (fun ref =>
        !refersTo S .setNull rows (doomed S rows p) r.table ref) = r.refs := by
      rw [List.filter_eq_self]
      intro ref _
      rw [Bool.not_eq_true', ← Bool.not_eq_true, refersTo_iff]
      rintro ⟨r', hr', hdead, hkey, -⟩
      rw [hdoomed] at hdead
      exact hfree r' hr' hdead _ _ _ hkey
    unfold nullify
    rw [hrefs]
  unfold deleteWhere
  rw [List.map_congr_left fun r _ => hnull r, List.map_id']
  exact List.filter_congr fun r _ => by rw [hdoomed]

end ForeignKeys

end Library
end ZeroVpn
