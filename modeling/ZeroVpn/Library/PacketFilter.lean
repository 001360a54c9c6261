import Mathlib.Data.List.Basic
import Mathlib.Logic.Function.Basic

/-!
# Packet filters

A packet filter is a set of named chains of rules.  A packet walks a chain from
its first rule on: a rule that the packet hits decides it or sends it through
another chain, from which it comes back if no rule there decides it.

`M` is the type of what a rule asks of a packet and `V` the type of verdicts.
`ChainCmd` are the commands that change the chains one at a time, and
`ChainCmd.run` is their effect; a command that is refused has none.
-/

namespace ZeroVpn
namespace Library

universe u v

inductive RuleTarget (V : Type v) where
  | verdict (v : V)
  | jump (chain : String)
  deriving DecidableEq, Repr

structure FilterRule (M : Type u) (V : Type v) where
  spec : M
  target : RuleTarget V
  deriving DecidableEq, Repr

/-- The rules of every chain that exists. -/
abbrev Chains (M : Type u) (V : Type v) := String → Option (List (FilterRule M V))

inductive ChainCmd (M : Type u) (V : Type v) where
  /-- `-N`. -/
  | create (chain : String)
  /-- `-F`. -/
  | flush (chain : String)
  /-- `-C`. -/
  | check (chain : String) (rule : FilterRule M V)
  /-- `-I chain 1`. -/
  | insert (chain : String) (rule : FilterRule M V)
  /-- `-A`. -/
  | append (chain : String) (rule : FilterRule M V)
  /-- `-D`. -/
  | delete (chain : String) (rule : FilterRule M V)
  deriving DecidableEq, Repr

section Walk

variable {M : Type u} {V : Type v} (hits : M → Bool)

/-- The verdict of a list of rules; `sub` is the verdict of a chain to which a
rule jumps. -/
def walk (sub : String → Option V) : List (FilterRule M V) → Option V
  | [] => none
  | r :: rs =>
      if hits r.spec then
        match r.target with
        | .verdict v => some v
        | .jump chain => (sub chain).or (walk sub rs)
      else walk sub rs

/-- The verdict of a chain, with jumps nested at most `depth` deep. -/
def chainVerdict (chains : Chains M V) : (depth : Nat) → String → Option V
  | 0, _ => none
  | depth + 1, name => walk hits (chainVerdict chains depth) ((chains name).getD [])

variable {hits} {sub : String → Option V} {rs : List (FilterRule M V)} {v : V}

theorem walk_append (rs rs' : List (FilterRule M V)) :
    walk hits sub (rs ++ rs') = (walk hits sub rs).or (walk hits sub rs') := by
  induction rs with
  | nil =>
      rfl
  | cons r rs ih =>
      simp only [List.cons_append, walk, ih]
      split
      · split
        · rfl
        · rw [Option.or_assoc]
      · rfl

/-- Rules without jumps do not look at other chains. -/
def Flat (rs : List (FilterRule M V)) : Prop := ∀ r ∈ rs, ∃ v, r.target = .verdict v

theorem Flat.walk_eq (h : Flat rs) (sub sub' : String → Option V) :
    walk hits sub rs = walk hits sub' rs := by
  induction rs with
  | nil =>
      rfl
  | cons r rs ih =>
      obtain ⟨v, hv⟩ := h r (by simp)
      have htail := ih fun r' hr' => h r' (List.mem_cons_of_mem _ hr')
      simp only [walk, hv, htail]

/-- A verdict of rules without jumps is that of a rule that was hit. -/
theorem Flat.of_walk (h : Flat rs) (hv : walk hits sub rs = some v) :
    ∃ r ∈ rs, r.target = .verdict v ∧ hits r.spec = true := by
  induction rs with
  | nil =>
      cases hv
  | cons r rs ih =>
      obtain ⟨v', hv'⟩ := h r (by simp)
      simp only [walk, hv'] at hv
      split at hv
      · rename_i hhits
        injection hv with hv
        exact ⟨r, by simp, hv ▸ hv', hhits⟩
      · obtain ⟨r', hr', hrest⟩ := ih (fun r' hr' => h r' (List.mem_cons_of_mem _ hr')) hv
        exact ⟨r', List.mem_cons_of_mem _ hr', hrest⟩

/-- Rules of which one is hit and has a verdict decide the packet. -/
theorem walk_isSome {r : FilterRule M V} (hr : r ∈ rs) (hhits : hits r.spec = true)
    (hv : r.target = .verdict v) : (walk hits sub rs).isSome = true := by
  induction rs with
  | nil =>
      cases hr
  | cons r' rs ih =>
      rcases List.mem_cons.mp hr with rfl | hr
      · simp [walk, hhits, hv]
      · have htail := ih hr
        simp only [walk]
        split
        · split
          · rfl
          · rw [Option.isSome_or, htail, Bool.or_true]
        · exact htail

/-- Unconditional jumps to one chain ask that chain. -/
theorem walk_jumps {chain : String} {rest : List (FilterRule M V)} (n : Nat)
    {jump : FilterRule M V} (htarget : jump.target = .jump chain)
    (hjump : hits jump.spec = true) :
    walk hits sub (List.replicate (n + 1) jump ++ rest) =
      (sub chain).or (walk hits sub rest) := by
  induction n with
  | zero =>
      simp [walk, hjump, htarget]
  | succ n ih =>
      rw [List.replicate_succ, List.cons_append]
      simp only [walk, hjump, htarget, ite_true, ih]
      rw [← Option.or_assoc, Option.or_self]

end Walk

namespace ChainCmd

variable {M : Type u} {V : Type v} [DecidableEq M] [DecidableEq V]

/-- A jump needs its chain. -/
def admits (chains : Chains M V) (r : FilterRule M V) : Bool :=
  match r.target with
  | .verdict _ => true
  | .jump chain => (chains chain).isSome

/-- The chains after a command; nothing when it is refused. -/
def run (chains : Chains M V) : ChainCmd M V → Option (Chains M V)
  | create name =>
      match chains name with
      | some _ => none
      | none => some (Function.update chains name (some []))
  | flush name => (chains name).map fun _ => Function.update chains name (some [])
  | check name r =>
      match chains name with
      | some rs => if r ∈ rs then some chains else none
      | none => none
  | insert name r =>
      match chains name with
      | some rs =>
          if admits chains r then some (Function.update chains name (some (r :: rs))) else none
      | none => none
  | append name r =>
      match chains name with
      | some rs =>
          if admits chains r then some (Function.update chains name (some (rs ++ [r]))) else none
      | none => none
  | delete name r =>
      match chains name with
      | some rs =>
          if r ∈ rs then some (Function.update chains name (some (rs.erase r))) else none
      | none => none

/-- The chain that a command changes. -/
def chain : ChainCmd M V → String
  | create name | flush name | check name _ | insert name _ | append name _ | delete name _ => name

/-- A command changes no other chain. -/
theorem run_other {chains chains' : Chains M V} {c : ChainCmd M V} (h : c.run chains = some chains')
    {name : String} (hname : name ≠ c.chain) : chains' name = chains name := by
  cases c with
  | create chain =>
      simp only [run] at h
      split at h
      · cases h
      · injection h with h
        rw [← h]
        exact Function.update_of_ne hname ..
  | flush chain =>
      obtain ⟨_, _, rfl⟩ := Option.map_eq_some_iff.mp h
      exact Function.update_of_ne hname ..
  | check chain r =>
      simp only [run] at h
      split at h
      · split at h
        · injection h with h
          rw [h]
        · cases h
      · cases h
  | insert chain r | append chain r | delete chain r =>
      simp only [run] at h
      split at h
      · split at h
        · injection h with h
          rw [← h]
          exact Function.update_of_ne hname ..
        · cases h
      · cases h

variable {chains chains' : Chains M V} {name : String} {rs : List (FilterRule M V)}
variable {r : FilterRule M V}

/-- A chain that exists is not created again. -/
theorem run_create_exists (h : chains name = some rs) :
    run chains (create name) = none := by
  simp [run, h]

theorem run_flush (h : chains name = some rs) :
    run chains (flush name) = some (Function.update chains name (some [])) := by
  simp [run, h]

theorem run_append (h : chains name = some rs) {v : V} (hr : r.target = .verdict v) :
    run chains (append name r) = some (Function.update chains name (some (rs ++ [r]))) := by
  simp [run, h, admits, hr]

theorem run_check_eq (hrun : run chains (check name r) = some chains') : chains' = chains := by
  simp only [run] at hrun
  split at hrun
  · split at hrun
    · injection hrun with hrun
      exact hrun.symm
    · cases hrun
  · cases hrun

end ChainCmd

end Library
end ZeroVpn
