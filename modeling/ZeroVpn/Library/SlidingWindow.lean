import Mathlib.Data.List.Basic

/-!
# Sliding windows

A sliding window admits a hit of a key if fewer than `max` hits of that key were
admitted within the window before it.  The decisions are functions of the whole history
of admitted hits; `decisions` lists those of a sequence of hits.

* `decisions_filter`: the keys do not influence each other;
* `decisions_refused`: a refused hit does not influence later ones;
* `recordAll_interval`: a half-open interval as long as the window holds at most `max`
  admitted hits of a key.
-/

namespace ZeroVpn
namespace Library
namespace SlidingWindow

universe u

/-- A hit of a key at a time. -/
structure Hit (κ : Type u) where
  time : Nat
  key : κ
  deriving DecidableEq

variable {κ : Type u} [DecidableEq κ] (max window : Nat)

/-- The hits of a key within the window before a time. -/
def recent (k : κ) (t : Nat) (past : List (Hit κ)) : List (Hit κ) :=
  past.filter fun h => decide (h.key = k ∧ t - h.time < window)

/-- Whether a hit is admitted after those of the past. -/
def allows (past : List (Hit κ)) (h : Hit κ) : Bool :=
  decide ((recent window h.key h.time past).length < max)

/-- The history behind a hit. -/
def record (past : List (Hit κ)) (h : Hit κ) : List (Hit κ) :=
  if allows max window past h then past ++ [h] else past

def recordAll (past hs : List (Hit κ)) : List (Hit κ) :=
  hs.foldl (record max window) past

/-- The hits of a sequence, each with the decision about it. -/
def decisions : List (Hit κ) → List (Hit κ) → List (Hit κ × Bool)
  | _, [] => []
  | past, h :: hs => (h, allows max window past h) :: decisions (record max window past h) hs

/-- The hits that were admitted. -/
def admitted (ds : List (Hit κ × Bool)) : List (Hit κ) :=
  (ds.filter fun d => d.2).map fun d => d.1

section History

variable {max window} {past hs hs' : List (Hit κ)} {h : Hit κ} {k : κ}

theorem decisions_append (past hs hs' : List (Hit κ)) :
    decisions max window past (hs ++ hs') =
      decisions max window past hs ++ decisions max window (recordAll max window past hs) hs' := by
  induction hs generalizing past with
  | nil =>
      rfl
  | cons h hs ih =>
      rw [List.cons_append, decisions, ih]
      rfl

theorem length_decisions (past hs : List (Hit κ)) :
    (decisions max window past hs).length = hs.length := by
  induction hs generalizing past with
  | nil =>
      rfl
  | cons h hs ih =>
      rw [decisions, List.length_cons, ih, List.length_cons]

theorem recordAll_eq_admitted (past hs : List (Hit κ)) :
    recordAll max window past hs = past ++ admitted (decisions max window past hs) := by
  induction hs generalizing past with
  | nil =>
      simp [recordAll, decisions, admitted]
  | cons h hs ih =>
      have hstep : recordAll max window past (h :: hs) =
          recordAll max window (record max window past h) hs := rfl
      rw [hstep, ih, decisions, record]
      cases hallow : allows max window past h with
      | true =>
          simp [admitted]
      | false =>
          simp [admitted]

/-- A refused hit leaves no trace. -/
theorem decisions_refused (hrefused : allows max window (recordAll max window past hs) h = false) :
    decisions max window past (hs ++ hs') =
      (decisions max window past (hs ++ h :: hs')).eraseIdx hs.length := by
  have hsame : record max window (recordAll max window past hs) h =
      recordAll max window past hs := by
    rw [record, hrefused, if_neg Bool.false_ne_true]
  rw [decisions_append, decisions_append, decisions, hsame,
    List.eraseIdx_append_of_length_le (Nat.le_of_eq (length_decisions past hs)),
    length_decisions, Nat.sub_self]
  rfl

end History

section Keys

variable {max window} {k : κ}

theorem recent_filter (k : κ) (t : Nat) (past : List (Hit κ)) :
    recent window k t (past.filter fun h => h.key = k) = recent window k t past := by
  rw [recent, List.filter_filter, recent]
  refine List.filter_congr fun h _ => ?_
  by_cases hkey : h.key = k
  · simp [hkey]
  · simp [hkey]

theorem allows_filter {h : Hit κ} (hkey : h.key = k) (past : List (Hit κ)) :
    allows max window (past.filter fun h => h.key = k) h = allows max window past h := by
  subst hkey
  rw [allows, recent_filter, allows]

theorem record_filter (past : List (Hit κ)) (h : Hit κ) :
    (record max window past h).filter (fun h => h.key = k) =
      if h.key = k then record max window (past.filter fun h => h.key = k) h
      else past.filter fun h => h.key = k := by
  by_cases hkey : h.key = k
  · rw [if_pos hkey, record, record, allows_filter hkey]
    split
    · simp [hkey]
    · rfl
  · rw [if_neg hkey, record]
    split
    · simp [hkey]
    · rfl

/-- The decisions about the hits of a key are those of a window of its own. -/
theorem decisions_filter (past hs : List (Hit κ)) :
    (decisions max window past hs).filter (fun d => d.1.key = k) =
      decisions max window (past.filter fun h => h.key = k) (hs.filter fun h => h.key = k) := by
  induction hs generalizing past with
  | nil =>
      rfl
  | cons h hs ih =>
      rw [decisions, List.filter_cons, ih, record_filter, List.filter_cons]
      by_cases hkey : h.key = k
      · simp only [hkey, decide_true, if_true]
        rw [decisions, allows_filter hkey]
      · simp only [hkey, decide_false, if_false, Bool.false_eq_true]

end Keys

section Interval

variable {max window} {k : κ} {a : Nat}

/-- The hits of a key in a half-open interval as long as the window. -/
def inInterval (window : Nat) (k : κ) (a : Nat) (hs : List (Hit κ)) : List (Hit κ) :=
  hs.filter fun h => decide (h.key = k ∧ a ≤ h.time ∧ h.time < a + window)

theorem inInterval_append (hs hs' : List (Hit κ)) :
    inInterval window k a (hs ++ hs') = inInterval window k a hs ++ inInterval window k a hs' :=
  List.filter_append ..

theorem record_interval {past : List (Hit κ)} {h : Hit κ}
    (hpast : (inInterval window k a past).length ≤ max) :
    (inInterval window k a (record max window past h)).length ≤ max := by
  cases hallow : allows max window past h with
  | false =>
      rw [record, hallow, if_neg Bool.false_ne_true]
      exact hpast
  | true =>
      rw [record, hallow, if_pos rfl, inInterval_append, List.length_append]
      by_cases hin : h.key = k ∧ a ≤ h.time ∧ h.time < a + window
      · -- what is in the interval was within the window before the hit
        have hfew : (recent window h.key h.time past).length < max := of_decide_eq_true hallow
        have hsub : (inInterval window k a past).length ≤
            (recent window h.key h.time past).length := by
          refine List.Sublist.length_le (List.monotone_filter_right past fun h' hin' => ?_)
          have hmem := of_decide_eq_true hin'
          refine decide_eq_true ⟨hmem.1.trans hin.1.symm, ?_⟩
          omega
        have hone : (inInterval window k a [h]).length = 1 := by
          simp [inInterval, hin]
        omega
      · have hnone : inInterval window k a [h] = [] := by
          simpa [inInterval] using hin
        rw [hnone]
        exact hpast

theorem recordAll_interval {past : List (Hit κ)} (hs : List (Hit κ))
    (hpast : (inInterval window k a past).length ≤ max) :
    (inInterval window k a (recordAll max window past hs)).length ≤ max := by
  induction hs generalizing past with
  | nil =>
      exact hpast
  | cons h hs ih =>
      exact ih (record_interval hpast)

end Interval

end SlidingWindow
end Library
end ZeroVpn
