import ZeroVpn.Library.SlidingWindow
import Std.Data.HashMap.Lemmas
import Mathlib.Tactic.Common

/-!
# The rate limiter of the mail-sending endpoints

`RateLimiter::check` of `crates/zerovpn-api/src/ratelimit.rs`: a map from keys to the
times of the hits that were let through, with the stale times of a key dropped whenever
the key is checked, and those of all keys once the map is big.

`check_sliding_window` compares a limiter with the window over the whole history: nothing
that is dropped would have counted later, as long as time does not go backwards.
-/

namespace ZeroVpn

open Library SlidingWindow

namespace Api

/-- `SWEEP_THRESHOLD`. -/
def SWEEP_THRESHOLD : Nat := 10000

structure RateLimiter where
  max : Nat
  window : Nat
  hits : Std.HashMap String (List Nat)

namespace RateLimiter

/-- `RateLimiter::new`. -/
def new (max window : Nat) : RateLimiter where
  max := max
  window := window
  hits := ∅

/-- The `retain` of the times of a key; `duration_since` is zero for a later time. -/
def retain (window now : Nat) (v : List Nat) : List Nat :=
  v.filter fun t => decide (now - t < window)

/-- The opportunistic sweep. -/
def sweep (window now : Nat) (map : Std.HashMap String (List Nat)) :
    Std.HashMap String (List Nat) :=
  map.filterMap fun _ v =>
    let v := retain window now v
    if v.isEmpty then none else some v

/-- The map that a call looks into. -/
def swept (threshold : Nat) (rl : RateLimiter) (now : Nat) : Std.HashMap String (List Nat) :=
  if threshold < rl.hits.size then sweep rl.window now rl.hits else rl.hits

/-- `RateLimiter::check`, with a threshold for the sweep. -/
def checkAbove (threshold : Nat) (rl : RateLimiter) (now : Nat) (key : String) :
    Bool × RateLimiter :=
  let map := swept threshold rl now
  let v := retain rl.window now (map[key]?.getD [])
  if rl.max ≤ v.length then (false, { rl with hits := map.insert key v })
  else (true, { rl with hits := map.insert key (v ++ [now]) })

/-- `RateLimiter::check`. -/
def check (rl : RateLimiter) (now : Nat) (key : String) : Bool × RateLimiter :=
  checkAbove SWEEP_THRESHOLD rl now key

/-- The limiter after a sequence of calls. -/
def after (threshold : Nat) (rl : RateLimiter) (calls : List (Hit String)) : RateLimiter :=
  calls.foldl (fun rl c => (checkAbove threshold rl c.time c.key).2) rl

/-- The calls of a sequence with their answers. -/
def served (threshold : Nat) : RateLimiter → List (Hit String) → List (Hit String × Bool)
  | _, [] => []
  | rl, c :: calls =>
      (c, (checkAbove threshold rl c.time c.key).1) ::
        served threshold (checkAbove threshold rl c.time c.key).2 calls

@[simp] theorem checkAbove_max (threshold : Nat) (rl : RateLimiter) (now : Nat) (key : String) :
    (checkAbove threshold rl now key).2.max = rl.max := by
  simp only [checkAbove]
  split
  · rfl
  · rfl

@[simp] theorem checkAbove_window (threshold : Nat) (rl : RateLimiter) (now : Nat)
    (key : String) : (checkAbove threshold rl now key).2.window = rl.window := by
  simp only [checkAbove]
  split
  · rfl
  · rfl

section Window

variable {threshold window now t : Nat} {rl : RateLimiter} {past : List (Hit String)}

/-- The times that a limiter keeps of a key. -/
def times (rl : RateLimiter) (k : String) : List Nat := rl.hits[k]?.getD []

/-- From a time on, the limiter knows what still counts of the admitted hits. -/
def Tracks (rl : RateLimiter) (past : List (Hit String)) (now : Nat) : Prop :=
  ∀ k t, now ≤ t →
    retain rl.window t (rl.times k) = (recent rl.window k t past).map fun h => h.time

theorem retain_retain (window : Nat) {now t : Nat} (h : now ≤ t) (v : List Nat) :
    retain window t (retain window now v) = retain window t v := by
  rw [retain, retain, retain, List.filter_filter]
  refine List.filter_congr fun t' _ => ?_
  rw [← Bool.decide_and, decide_eq_decide]
  omega

/-- The sweep drops nothing that counts. -/
theorem retain_sweep (window : Nat) {now t : Nat} (h : now ≤ t)
    (map : Std.HashMap String (List Nat)) (k : String) :
    retain window t ((sweep window now map)[k]?.getD []) = retain window t (map[k]?.getD []) := by
  rw [sweep, Std.HashMap.getElem?_filterMap']
  cases map[k]? with
  | none =>
      rfl
  | some v =>
      have hkept := retain_retain window h v
      rw [Option.bind_some]
      dsimp only
      split
      · rename_i hempty
        rw [List.isEmpty_iff.mp hempty] at hkept
        exact hkept
      · exact hkept

/-- What a call finds of a key, whether or not it sweeps. -/
theorem retain_swept (h : now ≤ t) (k : String) :
    retain rl.window t ((swept threshold rl now)[k]?.getD []) =
      retain rl.window t (rl.times k) := by
  unfold swept
  split
  · exact retain_sweep rl.window h rl.hits k
  · rfl

theorem tracks_new (max window now : Nat) : Tracks (new max window) [] now := by
  intro k t _
  simp [new, times, retain, recent]

theorem Tracks.mono (h : Tracks rl past now) (hle : now ≤ t) : Tracks rl past t :=
  fun k t' ht' => h k t' (Nat.le_trans hle ht')

theorem retain_append (window t : Nat) (v w : List Nat) :
    retain window t (v ++ w) = retain window t v ++ retain window t w :=
  List.filter_append ..

/-- The times that a call counts. -/
theorem counted (h : Tracks rl past now) (key : String) :
    retain rl.window now ((swept threshold rl now)[key]?.getD []) =
      (recent rl.window key now past).map fun h => h.time :=
  (retain_swept (Nat.le_refl now) key).trans (h key now (Nat.le_refl now))

/-- A call gives the answer of the window. -/
theorem check_eq_allows (h : Tracks rl past now) (key : String) :
    (checkAbove threshold rl now key).1 = allows rl.max rl.window past ⟨now, key⟩ := by
  simp only [checkAbove, counted h key, List.length_map, allows]
  split
  · rename_i hfull
    exact (decide_eq_false (Nat.not_lt.mpr hfull)).symm
  · rename_i hfew
    exact (decide_eq_true (Nat.not_le.mp hfew)).symm

/-- The entry of a key in a map where one entry was pruned and perhaps extended. -/
theorem retain_insert (h : now ≤ t) (map : Std.HashMap String (List Nat)) (key k : String)
    (added : List Nat) :
    retain window t
        ((map.insert key (retain window now (map[key]?.getD []) ++ added))[k]?.getD []) =
      retain window t (map[k]?.getD []) ++ if k = key then retain window t added else [] := by
  rw [Std.HashMap.getElem?_insert]
  by_cases hkey : k = key
  · subst hkey
    rw [if_pos (beq_self_eq_true k), if_pos rfl, Option.getD_some, retain_append,
      retain_retain window h]
  · rw [if_neg (by simpa using Ne.symm hkey), if_neg hkey, List.append_nil]

theorem check_tracks (h : Tracks rl past now) (key : String) :
    Tracks (checkAbove threshold rl now key).2 (record rl.max rl.window past ⟨now, key⟩) now := by
  intro k t hle
  have hanswer := @check_eq_allows threshold now rl past h key
  have hkept : retain rl.window t (rl.times k) = (recent rl.window k t past).map fun h => h.time :=
    h k t hle
  rw [record, ← hanswer]
  by_cases hfull : rl.max ≤ (retain rl.window now ((swept threshold rl now)[key]?.getD [])).length
  · simp only [checkAbove, if_pos hfull, Bool.false_eq_true, if_false]
    rw [← hkept, ← @retain_swept threshold now t rl hle k]
    have hins := @retain_insert rl.window now t hle (swept threshold rl now) key k []
    rw [List.append_nil] at hins
    refine hins.trans ?_
    simp [retain]
  · simp only [checkAbove, if_neg hfull, if_true]
    rw [recent, List.filter_append, List.map_append]
    refine (retain_insert hle (swept threshold rl now) key k [now]).trans ?_
    rw [retain_swept hle, hkept]
    congr 1
    by_cases hkey : k = key
    · subst hkey
      by_cases hfresh : t - now < rl.window
      · simp [retain, hfresh]
      · simp [retain, hfresh]
    · simp [hkey, Ne.symm hkey]

end Window

section Runs

variable {threshold now : Nat} {rl : RateLimiter} {past calls before behind : List (Hit String)}
  {c : Hit String}

theorem served_append (rl : RateLimiter) (before behind : List (Hit String)) :
    served threshold rl (before ++ behind) =
      served threshold rl before ++ served threshold (after threshold rl before) behind := by
  induction before generalizing rl with
  | nil =>
      rfl
  | cons c before ih =>
      rw [List.cons_append, served, ih]
      rfl

/-- The answers along calls in the order of time. -/
theorem served_eq_decisions (h : Tracks rl past now) (hnow : ∀ c ∈ calls, now ≤ c.time)
    (hsorted : calls.Pairwise fun c c' => c.time ≤ c'.time) :
    served threshold rl calls = decisions rl.max rl.window past calls := by
  induction calls generalizing rl past now with
  | nil =>
      rfl
  | cons c calls ih =>
      obtain ⟨hfirst, hrest⟩ := List.pairwise_cons.mp hsorted
      have hc := h.mono (hnow c List.mem_cons_self)
      have hnext := @check_tracks threshold c.time rl past hc c.key
      have htail := ih hnext hfirst hrest
      rw [checkAbove_max, checkAbove_window] at htail
      rw [served, decisions, htail, check_eq_allows hc]

/-- The answers of a limiter that begins with no hits. -/
theorem served_new (threshold max window : Nat)
    (hsorted : calls.Pairwise fun c c' => c.time ≤ c'.time) :
    served threshold (new max window) calls = decisions max window [] calls :=
  served_eq_decisions (tracks_new max window 0) (fun _ _ => Nat.zero_le _) hsorted

/-- The calls that were let through. -/
def accepted (rl : RateLimiter) (calls : List (Hit String)) : List (Hit String) :=
  admitted (served SWEEP_THRESHOLD rl calls)

theorem accepted_new (max window : Nat)
    (hsorted : calls.Pairwise fun c c' => c.time ≤ c'.time) :
    accepted (new max window) calls = recordAll max window [] calls := by
  rw [accepted, served_new _ _ _ hsorted, recordAll_eq_admitted, List.nil_append]

/-- The answer to a call in the middle of a run. -/
theorem answer_eq_allows (max window : Nat)
    (hsorted : (before ++ c :: behind).Pairwise fun c c' => c.time ≤ c'.time) :
    (check (after SWEEP_THRESHOLD (new max window) before) c.time c.key).1 =
      allows max window (recordAll max window [] before) c := by
  have hbefore : before.Pairwise fun c c' => c.time ≤ c'.time := hsorted.sublist (by simp)
  have hrun := served_new SWEEP_THRESHOLD max window hsorted
  rw [served_append, decisions_append, served_new SWEEP_THRESHOLD max window hbefore] at hrun
  have hhead := List.append_cancel_left hrun
  rw [served, decisions] at hhead
  exact congrArg Prod.snd (List.cons.inj hhead).1

/-- What makes the answers of a limiter those of a sliding window. -/
structure IsSlidingWindow (max window : Nat) (calls : List (Hit String)) : Prop where
  accepts_iff : ∀ before c behind, calls = before ++ c :: behind →
    ((check (after SWEEP_THRESHOLD (new max window) before) c.time c.key).1 = true ↔
      (recent window c.key c.time (accepted (new max window) before)).length < max)
  sweep_free : ∀ threshold, served threshold (new max window) calls =
    served SWEEP_THRESHOLD (new max window) calls
  refused_free : ∀ before c behind, calls = before ++ c :: behind →
    (check (after SWEEP_THRESHOLD (new max window) before) c.time c.key).1 = false →
      served SWEEP_THRESHOLD (new max window) (before ++ behind) =
        (served SWEEP_THRESHOLD (new max window) calls).eraseIdx before.length
  keys_apart : ∀ k, (served SWEEP_THRESHOLD (new max window) calls).filter (fun d => d.1.key = k) =
    served SWEEP_THRESHOLD (new max window) (calls.filter fun c => c.key = k)
  at_most : ∀ k a, (inInterval window k a (accepted (new max window) calls)).length ≤ max

/-- As long as time does not go backwards, the limiter is a sliding window over the
calls that it let through. -/
theorem check_sliding_window (max window : Nat) (calls : List (Hit String))
    (hsorted : calls.Pairwise fun c c' => c.time ≤ c'.time) :
    IsSlidingWindow max window calls where
  accepts_iff := by
    rintro before c behind rfl
    have hbefore : before.Pairwise fun c c' => c.time ≤ c'.time := hsorted.sublist (by simp)
    rw [answer_eq_allows max window hsorted, accepted_new max window hbefore, allows,
      decide_eq_true_iff]
  sweep_free threshold := by
    rw [served_new threshold max window hsorted, served_new _ max window hsorted]
  refused_free := by
    rintro before c behind rfl hrefused
    rw [answer_eq_allows max window hsorted] at hrefused
    rw [served_new _ max window hsorted, served_new _ max window (hsorted.sublist (by simp))]
    exact decisions_refused hrefused
  keys_apart k := by
    rw [served_new _ max window hsorted,
      served_new _ max window (hsorted.sublist List.filter_sublist)]
    exact decisions_filter [] calls
  at_most k a := by
    rw [accepted_new max window hsorted]
    exact recordAll_interval calls (Nat.zero_le max)

theorem check_sliding_window_sample :
    IsSlidingWindow 2 50 [⟨0, "k"⟩, ⟨0, "k"⟩, ⟨10, "other"⟩, ⟨20, "k"⟩, ⟨60, "k"⟩] :=
  check_sliding_window 2 50 _ (by decide)

end Runs

end RateLimiter
end Api
end ZeroVpn
