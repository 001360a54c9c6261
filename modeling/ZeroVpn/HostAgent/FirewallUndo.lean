import ZeroVpn.HostAgent.CutoverRollback

/-!
# The undo of a firewall installation

`install`, `uninstall`, `detach_attached` and `cleanup_stage` of
`crates/zerovpn-host-agent/src/firewall_executor.rs`, when an append that fails
may have appended its rule all the same: "A failed append may have modified its
own chain, so flush any chain that was successfully created."

What the clean-up needs to know is not which rules are in the agent's chains but
which of the chains exist and which of the jumps are attached.  `Present` says
that, and the loops are described by how they change it.
-/

namespace ZeroVpn

open Library

namespace HostAgent

open Firewall Chain

/-- The call appends to a chain of the agent. -/
def HostCall.appendsOwned (c : HostCall) : Bool :=
  match c.cmd with
  | .iptables ⟨t, .append chain _⟩ => chain == ownedChain t
  | _ => false

/-- The meaning of a call when `fails` says which calls fail and `lingers` which
of the failed appends to a chain of the agent have appended their rule. -/
def HostCall.semLingering (obs : Observations) (fails lingers : HostCall → Bool) (c : HostCall)
    (host : Host) : Host × c.Reply :=
  if fails c then
    (if c.appendsOwned && lingers c then (c.cmd.exec obs host).1 else host, c.cmd.failure)
  else c.cmd.exec obs host

/-- The detach and clean-up commands that the report of a failed `install` names. -/
def CutoverError.undoFailures : CutoverError → List FirewallCommand
  | staging _ failed => failed
  | detach _ failed => failed
  | activation _ failed => failed
  | _ => []

namespace Firewall

/-- Every jump leads to a chain of its table: a jump to another one is refused, and
so is the deletion of a chain to which a rule jumps. -/
def WellFormed (fw : Firewall) : Prop := ∀ t, ∀ c ∈ fw t, ∀ r ∈ c.rules, admits (fw t) r = true

/-- The chains of the agent do not exist. -/
def LacksOwned (fw : Firewall) : Prop := ∀ t, has (fw t) (ownedChain t) = false

theorem LacksOwned.unowned {fw : Firewall} (h : fw.LacksOwned) (hwf : fw.WellFormed) (t : Table) :
    Unowned (ownedChain t) (fw t) := by
  intro c hc
  refine ⟨by simpa using List.any_eq_false.mp (h t) c hc, ?_⟩
  intro r hr hjump
  have hchain := hwf t c hc r hr
  rw [admits_jump _ hjump, h t] at hchain
  cases hchain

end Firewall

section Undo

variable {obs : Observations} {fails lingers : HostCall → Bool}
variable {base : Firewall} {plan : HostForwardPlan} {wg0 : Option Wg0}

/-- Which of its chains and which of its jumps the agent has. -/
structure Present (o : Owned) (chain jump : Table → Bool) : Prop where
  rules : ∀ t, (o t).rules.isSome = chain t
  jumped : ∀ t, (o t).jumped = jump t

theorem Present.eq_some {o : Owned} {chain jump : Table → Bool} (h : Present o chain jump)
    {t : Table} (ht : chain t = true) : ∃ rs, o t = ⟨some rs, jump t⟩ := by
  obtain ⟨rs, hrs⟩ := Option.isSome_iff_exists.mp ((h.rules t).trans ht)
  refine ⟨rs, ?_⟩
  rw [← hrs, ← h.jumped t]

theorem Present.eq_none {o : Owned} {chain jump : Table → Bool} (h : Present o chain jump)
    {t : Table} (ht : chain t = false) : o t = ⟨none, jump t⟩ := by
  have hnone : (o t).rules = none := by simpa using (h.rules t).trans ht
  rw [← hnone, ← h.jumped t]

/-- A change in one table. -/
theorem Present.update {o : Owned} {chain jump : Table → Bool} (h : Present o chain jump)
    (t : Table) (x : OwnedTable) :
    Present (Function.update o t x) (Function.update chain t x.rules.isSome)
      (Function.update jump t x.jumped) where
  rules := by
    intro t'
    by_cases ht : t' = t
    · subst ht
      simp
    · simpa [ht] using h.rules t'
  jumped := by
    intro t'
    by_cases ht : t' = t
    · subst ht
      simp
    · simpa [ht] using h.jumped t'

/-- Without chains and jumps the firewall is that of the host. -/
theorem Present.absent {o : Owned} (h : Present o (fun _ => false) fun _ => false) :
    hostWith base plan wg0 o = ⟨wg0, base⟩ := by
  have ho : o = owned .absent .absent := by
    funext t
    rw [h.eq_none rfl]
    cases t <;> rfl
  rw [ho]
  simp only [hostWith, withOwned_absent]

theorem present_absent : Present (owned .absent .absent) (fun _ => false) fun _ => false where
  rules t := by cases t <;> rfl
  jumped t := by cases t <;> rfl

/-- A command takes effect when `iptables` accepts it and it does not fail or, for
an append that fails, lingers. -/
theorem run_command_lingering (phase : CutoverPhase) (c : FirewallCommand) (host : Host) :
    Program.run (HostCall.semLingering obs fails lingers) (FirewallCommands.runCommand phase c)
        host =
      match c.run host.firewall with
      | none => (host, false)
      | some fw =>
          (if succeeds fails phase c ||
              (HostCall.appendsOwned ⟨phase, .iptables c⟩ && lingers ⟨phase, .iptables c⟩) then
            { host with firewall := fw }
          else host, succeeds fails phase c) := by
  unfold FirewallCommands.runCommand succeeds
  rw [Program.run_call, Program.run_ret]
  unfold HostCall.semLingering
  simp only [HostCmd.exec]
  cases fails ⟨phase, .iptables c⟩ with
  | false =>
      cases c.run host.firewall with
      | none =>
          rfl
      | some fw =>
          rfl
  | true =>
      cases hlinger : HostCall.appendsOwned ⟨phase, .iptables c⟩ &&
          lingers ⟨phase, .iptables c⟩ with
      | false =>
          cases c.run host.firewall with
          | none =>
              rfl
          | some fw =>
              rfl
      | true =>
          cases c.run host.firewall with
          | none =>
              rfl
          | some fw =>
              rfl

/-- A command that the system carries out. -/
theorem run_lingering {phase : CutoverPhase} {c : FirewallCommand} {o o' : Owned}
    (h : c.run (base.withOwned plan o) = some (base.withOwned plan o')) :
    Program.run (HostCall.semLingering obs fails lingers) (FirewallCommands.runCommand phase c)
        (hostWith base plan wg0 o) =
      (hostWith base plan wg0
        (if succeeds fails phase c ||
            (HostCall.appendsOwned ⟨phase, .iptables c⟩ && lingers ⟨phase, .iptables c⟩) then o'
          else o), succeeds fails phase c) := by
  rw [run_command_lingering]
  simp only [hostWith, h]
  split <;> rfl

/-- A command that `iptables` refuses. -/
theorem run_lingering_refused {phase : CutoverPhase} {c : FirewallCommand} {o : Owned}
    (h : c.run (base.withOwned plan o) = none) :
    Program.run (HostCall.semLingering obs fails lingers) (FirewallCommands.runCommand phase c)
        (hostWith base plan wg0 o) = (hostWith base plan wg0 o, false) := by
  rw [run_command_lingering]
  simp only [hostWith, h]

/-- Of the other commands only one that succeeds has an effect. -/
theorem run_lingering_atomic {phase : CutoverPhase} {c : FirewallCommand} {o o' : Owned}
    (hc : HostCall.appendsOwned ⟨phase, .iptables c⟩ = false)
    (h : c.run (base.withOwned plan o) = some (base.withOwned plan o')) :
    Program.run (HostCall.semLingering obs fails lingers) (FirewallCommands.runCommand phase c)
        (hostWith base plan wg0 o) =
      (hostWith base plan wg0 (if succeeds fails phase c then o' else o),
        succeeds fails phase c) := by
  rw [run_lingering h, hc, Bool.false_and, Bool.or_false]

/-- A command that answers success did not fail. -/
theorem succeeds_of_run {phase : CutoverPhase} {c : FirewallCommand} {host : Host}
    (h : (Program.run (HostCall.semLingering obs fails lingers)
      (FirewallCommands.runCommand phase c) host).2 = true) : succeeds fails phase c = true := by
  rw [run_command_lingering] at h
  cases hrun : c.run host.firewall with
  | none =>
      rw [hrun] at h
      cases h
  | some fw =>
      rw [hrun] at h
      exact h

/-- When all commands of a list answer success, none of them failed. -/
theorem succeeds_of_collecting {phase : CutoverPhase} {cs : List FirewallCommand} {host : Host}
    (h : (Program.run (HostCall.semLingering obs fails lingers)
      (FirewallCommands.runCollecting phase cs) host).2 = []) :
    ∀ c ∈ cs, succeeds fails phase c = true := by
  induction cs generalizing host with
  | nil =>
      simp
  | cons c cs ih =>
      simp only [FirewallCommands.runCollecting, Program.run_bind, Program.pure_eq,
        Program.run_ret] at h
      split at h
      · rename_i hok
        exact List.forall_mem_cons.mpr ⟨succeeds_of_run hok, ih h⟩
      · cases h

variable (base plan) in
/-- The commands lead from what the agent has to what it has after them. -/
inductive Leads : List FirewallCommand → Owned → Owned → Prop
  | nil (o : Owned) : Leads [] o o
  | cons {c : FirewallCommand} {cs : List FirewallCommand} {o o' o'' : Owned}
      (h : c.run (base.withOwned plan o) = some (base.withOwned plan o'))
      (rest : Leads cs o' o'') : Leads (c :: cs) o o''

theorem Leads.append {cs ds : List FirewallCommand} {o o' o'' : Owned}
    (h : Leads base plan cs o o') (h' : Leads base plan ds o' o'') :
    Leads base plan (cs ++ ds) o o'' := by
  induction h with
  | nil o =>
      exact h'
  | cons hc _ ih =>
      exact .cons hc (ih h')

variable (obs lingers wg0) in
/-- Commands that all succeed: nothing is reported. -/
theorem Leads.run_collecting {phase : CutoverPhase} {cs : List FirewallCommand} {o o' : Owned}
    (h : Leads base plan cs o o') (hok : ∀ c ∈ cs, succeeds fails phase c = true) :
    Program.run (HostCall.semLingering obs fails lingers)
        (FirewallCommands.runCollecting phase cs) (hostWith base plan wg0 o) =
      (hostWith base plan wg0 o', []) := by
  induction h with
  | nil o =>
      rfl
  | cons hc _ ih =>
      obtain ⟨hhead, htail⟩ := List.forall_mem_cons.mp hok
      simp only [FirewallCommands.runCollecting, Program.run_bind, run_lingering hc, hhead,
        Bool.true_or, ite_true, Program.pure_eq, Program.run_ret, ih htail]

theorem Leads.run_counting {phase : CutoverPhase} {cs : List FirewallCommand} {o o' : Owned}
    (h : Leads base plan cs o o') (hok : ∀ c ∈ cs, succeeds fails phase c = true) (n : Nat) :
    Program.run (HostCall.semLingering obs fails lingers)
        (FirewallCommands.runCounting phase n cs) (hostWith base plan wg0 o) =
      (hostWith base plan wg0 o', (n + cs.length, none)) := by
  induction h generalizing n with
  | nil o =>
      rfl
  | cons hc _ ih =>
      obtain ⟨hhead, htail⟩ := List.forall_mem_cons.mp hok
      rw [run_runCounting_cons, run_lingering hc, hhead, Bool.true_or, if_pos rfl, if_pos rfl,
        ih htail, List.length_cons, Nat.add_assoc, Nat.add_comm 1]

section Tables

variable (plan) (hbase : ∀ t, Unowned (ownedChain t) (base t))

include hbase in
/-- The clean-up of a table. -/
theorem leads_cleanup {o : Owned} {t : Table} {rs : List Rule} (ho : o t = ⟨some rs, false⟩) :
    Leads base plan [flushChain t, removeChain t] o (Function.update o t .absent) := by
  have hflushed : Function.update o t ⟨some [], false⟩ t = (⟨some [], false⟩ : OwnedTable) := by
    simp
  have hremove := remove_run plan (hbase t) hflushed
  rw [if_pos rfl, Function.update_idem] at hremove
  exact .cons (flush_run plan (hbase t) ho) (.cons hremove (.nil _))

include hbase in
/-- The clean-up of both tables. -/
theorem leads_cleanup_both {o : Owned} (h : Present o (fun _ => true) fun _ => false) :
    ∃ o', Leads base plan (FirewallCommands.ofPlan plan).cleanup o o' ∧
      Present o' (fun _ => false) fun _ => false := by
  obtain ⟨rs, hfilter⟩ := h.eq_some (t := .filter) rfl
  obtain ⟨rs', hnat⟩ := h.eq_some (t := .nat) rfl
  have hnat' : Function.update o .filter .absent .nat = ⟨some rs', false⟩ := by
    simpa using hnat
  refine ⟨_, (leads_cleanup plan hbase hfilter).append (leads_cleanup plan hbase hnat'), ?_⟩
  have hleft := (h.update .filter .absent).update .nat .absent
  refine ⟨fun t => (hleft.rules t).trans ?_, fun t => (hleft.jumped t).trans ?_⟩
  · cases t <;> rfl
  · cases t <;> rfl

/-- The detachment of a jump. -/
theorem leads_detach {o : Owned} {t : Table} {rs : List Rule} (ho : o t = ⟨some rs, true⟩)
    (hhas : has (base t) (hostChain t) = true) :
    Leads base plan [deleteJump plan t] o (Function.update o t ⟨some rs, false⟩) :=
  .cons (delete_run plan ho hhas) (.nil _)

/-- Which chains exist when `count` commands of the stage succeeded: `filter_exists`
and `nat_exists` of `cleanup_stage`. -/
def createdChains (count : Nat) : Table → Bool
  | .filter => decide (0 < count)
  | .nat => decide (1 < count)

/-- The commands that `cleanup_stage` runs. -/
def stageCleanup (count : Nat) : List FirewallCommand :=
  (if 0 < count then [flushChain .filter, removeChain .filter] else []) ++
    (if 1 < count then [flushChain .nat, removeChain .nat] else [])

theorem cleanupStage_eq (count : Nat) :
    (FirewallCommands.ofPlan plan).cleanupStage count =
      FirewallCommands.runCollecting .activate (stageCleanup count) := by
  match count with
  | 0 =>
      rfl
  | 1 =>
      rfl
  | k + 2 =>
      simp [FirewallCommands.cleanupStage, FirewallCommands.ofPlan_eq, stageCleanup]

include hbase in
/-- The clean-up of a stage takes the chains away that it created. -/
theorem leads_stageCleanup {o : Owned} {count : Nat}
    (h : Present o (createdChains count) fun _ => false) :
    ∃ o', Leads base plan (stageCleanup count) o o' ∧
      Present o' (fun _ => false) fun _ => false := by
  match count, h with
  | 0, h =>
      refine ⟨o, .nil o, fun t => (h.rules t).trans ?_, h.jumped⟩
      cases t <;> rfl
  | 1, h =>
      obtain ⟨rs, hfilter⟩ := h.eq_some (t := .filter) rfl
      refine ⟨_, leads_cleanup plan hbase hfilter, ?_⟩
      have hleft := h.update .filter .absent
      refine ⟨fun t => (hleft.rules t).trans ?_, fun t => (hleft.jumped t).trans ?_⟩
      · cases t <;> rfl
      · cases t <;> rfl
  | k + 2, h =>
      have hboth : Present o (fun _ => true) fun _ => false := by
        refine ⟨fun t => (h.rules t).trans ?_, h.jumped⟩
        cases t <;> simp [createdChains]
      have hlist : stageCleanup (k + 2) = (FirewallCommands.ofPlan plan).cleanup := by
        simp [stageCleanup, FirewallCommands.ofPlan_eq]
      rw [hlist]
      exact leads_cleanup_both plan hbase hboth

section Loops

variable (obs fails lingers wg0)

include hbase in
/-- An append, whether it fails or not, keeps the chains and the jumps. -/
theorem run_appendRule {o : Owned} {chain jump : Table → Bool} (h : Present o chain jump)
    (phase : CutoverPhase) {t : Table} (ht : chain t = true) {r : Rule} {verdict : String}
    {options : List String} (hr : r.target = .verdict verdict options) :
    ∃ o' ok, Program.run (HostCall.semLingering obs fails lingers)
        (FirewallCommands.runCommand phase (appendRule t r)) (hostWith base plan wg0 o) =
          (hostWith base plan wg0 o', ok) ∧ Present o' chain jump := by
  obtain ⟨rs, ho⟩ := h.eq_some ht
  refine ⟨_, _, run_lingering (append_run plan (hbase t) ho hr), ?_⟩
  split
  · have hnew := h.update t ⟨some (rs ++ [r]), jump t⟩
    rw [Option.isSome_some, ← ht] at hnew
    simpa using hnew
  · exact h

include hbase in
/-- The appends of the stage, up to the first one that fails. -/
theorem run_appends {o : Owned} {jump : Table → Bool} (phase : CutoverPhase)
    (rules : List (Table × Rule))
    (hrules : ∀ r ∈ rules, ∃ verdict options, r.2.target = .verdict verdict options)
    (h : Present o (fun _ => true) jump) (n : Nat) :
    ∃ o' count cause, Program.run (HostCall.semLingering obs fails lingers)
        (FirewallCommands.runCounting phase n (rules.map fun r => appendRule r.1 r.2))
        (hostWith base plan wg0 o) = (hostWith base plan wg0 o', (count, cause)) ∧
      Present o' (fun _ => true) jump ∧ n ≤ count := by
  induction rules generalizing o n with
  | nil =>
      exact ⟨o, n, none, rfl, h, le_rfl⟩
  | cons r rules ih =>
      obtain ⟨⟨verdict, options, hr⟩, hrest⟩ := List.forall_mem_cons.mp hrules
      obtain ⟨o', ok, hrun, ho'⟩ :=
        run_appendRule obs fails lingers plan wg0 hbase h phase (t := r.1) rfl hr
      rw [List.map_cons, run_runCounting_cons, hrun]
      cases ok with
      | false =>
          exact ⟨o', n, _, rfl, ho', le_rfl⟩
      | true =>
          obtain ⟨o'', count, cause, hloop, ho'', hcount⟩ := ih hrest ho' (n + 1)
          exact ⟨o'', count, cause, hloop, ho'', by omega⟩

include hbase in
theorem run_createChain {o : Owned} {t : Table} {jumped : Bool} (ho : o t = ⟨none, jumped⟩)
    (phase : CutoverPhase) :
    Program.run (HostCall.semLingering obs fails lingers)
        (FirewallCommands.runCommand phase (createChain t)) (hostWith base plan wg0 o) =
      (hostWith base plan wg0
        (if succeeds fails phase (createChain t) then Function.update o t ⟨some [], jumped⟩
          else o), succeeds fails phase (createChain t)) :=
  run_lingering_atomic rfl (create_run plan (hbase t) ho)

include hbase in
/-- The stage: the chains that exist after it are those of the count. -/
theorem run_stage_present :
    ∃ o count cause, Program.run (HostCall.semLingering obs fails lingers)
        (FirewallCommands.runCounting .activate 0 (FirewallCommands.ofPlan plan).stage)
        (hostWith base plan wg0 (owned .absent .absent)) =
          (hostWith base plan wg0 o, (count, cause)) ∧
      Present o (createdChains count) (fun _ => false) ∧ (cause = none → 1 < count) := by
  have hlist : (FirewallCommands.ofPlan plan).stage =
      createChain .filter :: createChain .nat ::
        [(Table.filter, plan.peerRule), (.filter, plan.httpsRule),
          (.filter, HostForwardPlan.dropRule), (.nat, plan.snatRule)].map
            fun r => appendRule r.1 r.2 := rfl
  have hfilter : owned .absent .absent .filter = ⟨none, false⟩ := rfl
  rw [hlist, run_runCounting_cons, run_createChain obs fails lingers plan wg0 hbase hfilter]
  cases succeeds fails .activate (createChain .filter) with
  | false =>
      refine ⟨_, 0, _, rfl, ⟨fun t => ?_, fun t => ?_⟩, fun h => by cases h⟩
      · cases t <;> rfl
      · cases t <;> rfl
  | true =>
      have hnat : Function.update (owned .absent .absent) .filter ⟨some [], false⟩ .nat =
          (⟨none, false⟩ : OwnedTable) := rfl
      rw [if_pos rfl, if_pos rfl, run_runCounting_cons,
        run_createChain obs fails lingers plan wg0 hbase hnat]
      cases succeeds fails .activate (createChain .nat) with
      | false =>
          refine ⟨_, 1, _, rfl, ⟨fun t => ?_, fun t => ?_⟩, fun h => by cases h⟩
          · cases t <;> rfl
          · cases t <;> rfl
      | true =>
          rw [if_pos rfl, if_pos rfl]
          have hboth : Present (Function.update
              (Function.update (owned .absent .absent) .filter ⟨some [], false⟩) .nat
                ⟨some [], false⟩) (fun _ => true) fun _ => false := by
            refine ⟨fun t => ?_, fun t => ?_⟩
            · cases t <;> rfl
            · cases t <;> rfl
          obtain ⟨o, count, cause, hrun, ho, hcount⟩ := run_appends obs fails lingers plan wg0
            hbase .activate [(Table.filter, plan.peerRule), (.filter, plan.httpsRule),
              (.filter, HostForwardPlan.dropRule), (.nat, plan.snatRule)]
            (by simp [HostForwardPlan.peerRule, HostForwardPlan.httpsRule,
              HostForwardPlan.dropRule, HostForwardPlan.snatRule]) hboth 2
          refine ⟨o, count, cause, hrun, ⟨fun t => (ho.rules t).trans ?_, ho.jumped⟩,
            fun _ => by omega⟩
          cases t with
          | filter =>
              simpa [createdChains] using (by omega : 0 < count)
          | nat =>
              simpa [createdChains] using (by omega : 1 < count)

/-- A jump is inserted, where the host has the chain for it, or nothing happens. -/
theorem run_insertJump {o : Owned} {t : Table} {rs : List Rule} (ho : o t = ⟨some rs, false⟩)
    (phase : CutoverPhase) :
    Program.run (HostCall.semLingering obs fails lingers)
        (FirewallCommands.runCommand phase (insertJump plan t)) (hostWith base plan wg0 o) =
      if has (base t) (hostChain t) && succeeds fails phase (insertJump plan t) then
        (hostWith base plan wg0 (Function.update o t ⟨some rs, true⟩), true)
      else (hostWith base plan wg0 o, false) := by
  have hrun : (insertJump plan t).run (base.withOwned plan o) = _ := insert_run plan ho
  cases hhas : has (base t) (hostChain t) with
  | false =>
      rw [hhas, if_neg Bool.false_ne_true] at hrun
      exact run_lingering_refused hrun
  | true =>
      rw [hhas, if_pos rfl] at hrun
      rw [run_lingering_atomic rfl hrun]
      cases succeeds fails phase (insertJump plan t) <;> rfl

variable (base) in
/-- A failed `install` whose undo commands succeed leaves the host as it was, and
unless a call fails they do. -/
def Undone (r : Host × Except CutoverError Unit) : Prop :=
  ∃ e, r.2 = .error e ∧ (e.undoFailures = [] → r.1 = ⟨wg0, base⟩) ∧
    ((∀ c ∈ (FirewallCommands.ofPlan plan).detach ++ (FirewallCommands.ofPlan plan).cleanup,
      succeeds fails .activate c = true) → e.undoFailures = [])

theorem mem_cleanup_of_stageCleanup {count : Nat} {c : FirewallCommand}
    (hc : c ∈ stageCleanup count) : c ∈ (FirewallCommands.ofPlan plan).cleanup := by
  rw [FirewallCommands.ofPlan_eq]
  rcases List.mem_append.mp hc with hfilter | hnat
  · split at hfilter
    · exact List.mem_append_left [flushChain .nat, removeChain .nat] hfilter
    · cases hfilter
  · split at hnat
    · exact List.mem_append_right [flushChain .filter, removeChain .filter] hnat
    · cases hnat

include hbase in
/-- The clean-up of the stage, as the last part of a failed `install`. -/
theorem run_cleanupStage_present {o : Owned} {count : Nat}
    (h : Present o (createdChains count) fun _ => false) :
    let r := Program.run (HostCall.semLingering obs fails lingers)
      ((FirewallCommands.ofPlan plan).cleanupStage count) (hostWith base plan wg0 o)
    (r.2 = [] → r.1 = ⟨wg0, base⟩) ∧
      ((∀ c ∈ (FirewallCommands.ofPlan plan).cleanup, succeeds fails .activate c = true) →
        r.2 = []) := by
  obtain ⟨o', hleads, ho'⟩ := leads_stageCleanup plan hbase h
  rw [cleanupStage_eq]
  refine ⟨fun hnil => ?_, fun hok => ?_⟩
  · rw [hleads.run_collecting obs lingers wg0 (succeeds_of_collecting hnil)]
    exact ho'.absent
  · have hissued : ∀ c ∈ stageCleanup count, succeeds fails .activate c = true :=
      fun c hc => hok c (mem_cleanup_of_stageCleanup plan hc)
    rw [hleads.run_collecting obs lingers wg0 hissued]

/-- The jumps: both are attached, or the detach commands of those that are lead
back. -/
theorem run_activate_present {o : Owned} (ho : Present o (fun _ => true) fun _ => false) :
    let r := Program.run (HostCall.semLingering obs fails lingers)
      (FirewallCommands.runCounting .activate 0 (FirewallCommands.ofPlan plan).activate)
      (hostWith base plan wg0 o)
    (∃ o' n, r = (hostWith base plan wg0 o', (n, none)) ∧
        Present o' (fun _ => true) (fun _ => true) ∧ ∀ t, has (base t) (hostChain t) = true) ∨
      ∃ o' n c, r = (hostWith base plan wg0 o', (n, some c)) ∧
        Leads base plan ((FirewallCommands.ofPlan plan).detach.drop
          ((FirewallCommands.ofPlan plan).detach.length - n)) o' o := by
  intro r
  obtain ⟨rs, hfilter⟩ := ho.eq_some (t := .filter) rfl
  obtain ⟨rs', hnat⟩ := ho.eq_some (t := .nat) rfl
  have hr : r = _ := run_runCounting_cons .activate 0 (insertJump plan .nat)
    [insertJump plan .filter] (hostWith base plan wg0 o)
  rw [run_insertJump obs fails lingers plan wg0 hnat] at hr
  cases hnatOk : has (base .nat) (hostChain .nat) &&
      succeeds fails .activate (insertJump plan .nat) with
  | false =>
      rw [hnatOk] at hr
      exact .inr ⟨o, 0, _, hr, .nil o⟩
  | true =>
      have hhas := (Bool.and_eq_true_iff.mp hnatOk).1
      let attached := Function.update o .nat ⟨some rs', true⟩
      have hfilter' : attached .filter = ⟨some rs, false⟩ := by
        simpa [attached] using hfilter
      rw [hnatOk, if_pos rfl, if_pos rfl, run_runCounting_cons,
        run_insertJump obs fails lingers plan wg0 hfilter'] at hr
      cases hfilterOk : has (base .filter) (hostChain .filter) &&
          succeeds fails .activate (insertJump plan .filter) with
      | false =>
          rw [hfilterOk] at hr
          have hnat' : attached .nat = ⟨some rs', true⟩ := by simp [attached]
          have hback : Function.update attached .nat ⟨some rs', false⟩ = o := by
            rw [Function.update_idem, ← hnat, Function.update_eq_self]
          have hdetach := leads_detach plan hnat' hhas
          rw [hback] at hdetach
          exact .inr ⟨attached, 1, _, hr, hdetach⟩
      | true =>
          rw [hfilterOk] at hr
          have hpresent := (ho.update .nat ⟨some rs', true⟩).update .filter ⟨some rs, true⟩
          refine .inl ⟨_, 2, hr, ⟨fun t => (hpresent.rules t).trans ?_,
            fun t => (hpresent.jumped t).trans ?_⟩, fun t => ?_⟩
          · cases t <;> rfl
          · cases t <;> rfl
          · cases t with
            | filter =>
                exact (Bool.and_eq_true_iff.mp hfilterOk).1
            | nat =>
                exact hhas

include hbase in
/-- `install` attaches both jumps, or it fails and its own undo is exact. -/
theorem run_install_cases :
    let r := Program.run (HostCall.semLingering obs fails lingers)
      (FirewallCommands.ofPlan plan).install (hostWith base plan wg0 (owned .absent .absent))
    (∃ o, r = (hostWith base plan wg0 o, .ok ()) ∧ Present o (fun _ => true) (fun _ => true) ∧
        ∀ t, has (base t) (hostChain t) = true) ∨
      Undone fails base plan wg0 r := by
  intro r
  obtain ⟨o, count, cause, hstage, ho, hcount⟩ :=
    run_stage_present obs fails lingers plan wg0 hbase
  have hcleanup := run_cleanupStage_present obs fails lingers plan wg0 hbase ho
  cases cause with
  | some c =>
      have hinstall := run_install_stage hstage
      refine .inr ⟨_, congrArg Prod.snd hinstall, fun hnil => ?_, fun hok => ?_⟩
      · exact (congrArg Prod.fst hinstall).trans (hcleanup.1 hnil)
      · exact hcleanup.2 fun c hc => hok c (List.mem_append_right _ hc)
  | none =>
      have hone : 1 < count := hcount rfl
      have hboth : Present o (fun _ => true) fun _ => false := by
        refine ⟨fun t => (ho.rules t).trans ?_, ho.jumped⟩
        cases t with
        | filter =>
            simpa [createdChains] using (by omega : 0 < count)
        | nat =>
            simpa [createdChains] using hone
      rcases run_activate_present obs fails lingers plan wg0 hboth with
        ⟨o', n, hactivate, ho', hhas⟩ | ⟨o', n, c, hactivate, hleads⟩
      · exact .inl ⟨o', run_install_ok hstage hactivate, ho', hhas⟩
      · have hinstall := run_install_activate hstage hactivate
        cases hdetach : (Program.run (HostCall.semLingering obs fails lingers)
            ((FirewallCommands.ofPlan plan).detachAttached n) (hostWith base plan wg0 o')).2 with
        | cons d ds =>
            simp only [hdetach, List.isEmpty_cons, Bool.false_eq_true, ite_false] at hinstall
            refine .inr ⟨_, congrArg Prod.snd hinstall, fun hnil => ?_, fun hok => ?_⟩
            · cases hnil
            · -- The detach commands that are issued succeed, so none is reported.
              have hissued := hleads.run_collecting obs lingers wg0 fun c hc =>
                hok c (List.mem_append_left _ (List.mem_of_mem_drop hc))
              exact absurd ((congrArg Prod.snd hissued).symm.trans hdetach) (by simp)
        | nil =>
            have hissued := hleads.run_collecting obs lingers wg0 (succeeds_of_collecting hdetach)
            have hdone : Program.run (HostCall.semLingering obs fails lingers)
                ((FirewallCommands.ofPlan plan).detachAttached n) (hostWith base plan wg0 o') =
                  (hostWith base plan wg0 o, []) := hissued
            simp only [hdone, List.isEmpty_nil, ite_true] at hinstall
            refine .inr ⟨_, congrArg Prod.snd hinstall, fun hnil => ?_, fun hok => ?_⟩
            · exact (congrArg Prod.fst hinstall).trans (hcleanup.1 hnil)
            · exact hcleanup.2 fun c hc => hok c (List.mem_append_right _ hc)

include hbase in
/-- `install` when no command fails and the host has the chains for the jumps. -/
theorem run_install_succeeds (hhas : ∀ t, has (base t) (hostChain t) = true)
    (hok : ∀ c ∈ (FirewallCommands.ofPlan plan).stage ++ (FirewallCommands.ofPlan plan).activate,
      succeeds fails .activate c = true) :
    Program.run (HostCall.semLingering obs fails lingers) (FirewallCommands.ofPlan plan).install
        (hostWith base plan wg0 (owned .absent .absent)) =
      (hostWith base plan wg0 (installed plan), .ok ()) := by
  have hinsert {o : Owned} {t : Table} {rs : List Rule} (ho : o t = ⟨some rs, false⟩) :
      (insertJump plan t).run (base.withOwned plan o) =
        some (base.withOwned plan (Function.update o t ⟨some rs, true⟩)) := by
    rw [insert_run plan ho, hhas t, if_pos rfl]
  have hchain : Leads base plan (FirewallCommands.ofPlan plan).stage (owned .absent .absent) _ :=
    .cons (create_run plan (hbase .filter) (t := .filter) rfl) <|
    .cons (create_run plan (hbase .nat) (t := .nat) rfl) <|
    .cons (append_run plan (hbase .filter) (t := .filter) rfl (r := plan.peerRule) rfl) <|
    .cons (append_run plan (hbase .filter) (t := .filter) rfl (r := plan.httpsRule) rfl) <|
    .cons (append_run plan (hbase .filter) (t := .filter) rfl
      (r := HostForwardPlan.dropRule) rfl) <|
    .cons (append_run plan (hbase .nat) (t := .nat) rfl (r := plan.snatRule) rfl) (.nil _)
  obtain ⟨o, hstage, hfilter, hnat⟩ : ∃ o,
      Leads base plan (FirewallCommands.ofPlan plan).stage (owned .absent .absent) o ∧
        o .filter = ⟨some (stagedRules plan .filter), false⟩ ∧
        o .nat = ⟨some (stagedRules plan .nat), false⟩ := ⟨_, hchain, rfl, rfl⟩
  have hfilter' : Function.update o .nat ⟨some (stagedRules plan .nat), true⟩ .filter =
      ⟨some (stagedRules plan .filter), false⟩ := by
    simpa using hfilter
  have hactivate : Leads base plan (FirewallCommands.ofPlan plan).activate o _ :=
    .cons (hinsert hnat) (.cons (hinsert hfilter') (.nil _))
  have hinstalled : Function.update (Function.update o .nat ⟨some (stagedRules plan .nat), true⟩)
      .filter ⟨some (stagedRules plan .filter), true⟩ = installed plan := by
    funext t
    cases t <;> rfl
  rw [hinstalled] at hactivate
  exact run_install_ok
    (hstage.run_counting (fun c hc => hok c (List.mem_append_left _ hc)) 0)
    (hactivate.run_counting (fun c hc => hok c (List.mem_append_right _ hc)) 0)

include hbase in
/-- `uninstall` of an installation whose commands do not fail. -/
theorem run_uninstall_present {o : Owned} (ho : Present o (fun _ => true) fun _ => true)
    (hhas : ∀ t, has (base t) (hostChain t) = true)
    (hok : ∀ c ∈ (FirewallCommands.ofPlan plan).detach ++ (FirewallCommands.ofPlan plan).cleanup,
      succeeds fails .rollback c = true) :
    Program.run (HostCall.semLingering obs fails lingers) (FirewallCommands.ofPlan plan).uninstall
        (hostWith base plan wg0 o) = (⟨wg0, base⟩, .ok ()) := by
  obtain ⟨rs, hfilter⟩ := ho.eq_some (t := .filter) rfl
  obtain ⟨rs', hnat⟩ := ho.eq_some (t := .nat) rfl
  have hnat' : Function.update o .filter ⟨some rs, false⟩ .nat = ⟨some rs', true⟩ := by
    simpa using hnat
  have hdetach : Leads base plan (FirewallCommands.ofPlan plan).detach o _ :=
    (leads_detach plan hfilter (hhas .filter)).append (leads_detach plan hnat' (hhas .nat))
  have hleft : Present (Function.update (Function.update o .filter ⟨some rs, false⟩) .nat
      ⟨some rs', false⟩) (fun _ => true) fun _ => false := by
    have hpresent := (ho.update .filter ⟨some rs, false⟩).update .nat ⟨some rs', false⟩
    refine ⟨fun t => (hpresent.rules t).trans ?_, fun t => (hpresent.jumped t).trans ?_⟩
    · cases t <;> rfl
    · cases t <;> rfl
  obtain ⟨o', hcleanup, ho'⟩ := leads_cleanup_both plan hbase hleft
  unfold FirewallCommands.uninstall
  rw [Program.run_bind, hdetach.run_counting fun c hc => hok c (List.mem_append_left _ hc)]
  simp only [Program.run_bind,
    hcleanup.run_counting fun c hc => hok c (List.mem_append_right _ hc), ho'.absent]
  rfl

end Loops

end Tables

end Undo

section Trace

/-- The call flushes or deletes the chain, or appends to it. -/
def HostCall.Alters (c : HostCall) (t : Table) (chain : String) : Prop :=
  c.cmd = .iptables ⟨t, .flush chain⟩ ∨ c.cmd = .iptables ⟨t, .remove chain⟩ ∨
    ∃ r, c.cmd = .iptables ⟨t, .append chain r⟩

/-- The chain was created: a `-N` for it was answered with success. -/
def Created (log : List (Sigma HostCall.Reply)) (t : Table) (chain : String) : Prop :=
  ∃ phase, ⟨⟨phase, .iptables ⟨t, .create chain⟩⟩, true⟩ ∈ log

/-- Only chains that were created are flushed, deleted or appended to. -/
def AltersCreated (log : List (Sigma HostCall.Reply)) (c : HostCall) : Prop :=
  ∀ t chain, c.Alters t chain → Created log t chain

theorem Created.append {log : List (Sigma HostCall.Reply)} {t : Table} {chain : String}
    (h : Created log t chain) (more : List (Sigma HostCall.Reply)) :
    Created (log ++ more) t chain := by
  obtain ⟨phase, hmem⟩ := h
  exact ⟨phase, List.mem_append_left _ hmem⟩

/-- A command that alters at most the agent's chain of its table. -/
def FirewallCommand.KeepsTo (c : FirewallCommand) (created : Table → Bool) : Prop :=
  ∀ phase t chain, HostCall.Alters ⟨phase, .iptables c⟩ t chain →
    created t = true ∧ chain = ownedChain t

/-- The chains of the agent that `created` names were created. -/
def OwnCreated (created : Table → Bool) (log : List (Sigma HostCall.Reply)) : Prop :=
  ∀ t, created t = true → Created log t (ownedChain t)

theorem OwnCreated.append {created : Table → Bool} {log : List (Sigma HostCall.Reply)}
    (h : OwnCreated created log) (more : List (Sigma HostCall.Reply)) :
    OwnCreated created (log ++ more) := fun t ht => (h t ht).append more

theorem FirewallCommand.KeepsTo.permitted {c : FirewallCommand} {created : Table → Bool}
    {log : List (Sigma HostCall.Reply)} (hc : c.KeepsTo created) (h : OwnCreated created log)
    (phase : CutoverPhase) : AltersCreated log ⟨phase, .iptables c⟩ := by
  intro t chain halters
  obtain ⟨ht, rfl⟩ := hc phase t chain halters
  exact h t ht

open Program FirewallCommands

/-- A loop over commands that keep to chains that were created. -/
theorem permitted_runCounting {created : Table → Bool} (phase : CutoverPhase)
    (cs : List FirewallCommand) (hcs : ∀ c ∈ cs, c.KeepsTo created) (n : Nat)
    {log : List (Sigma HostCall.Reply)} (h : OwnCreated created log) :
    Permitted AltersCreated (fun r log' => n ≤ r.1 ∧ OwnCreated created log')
      (runCounting phase n cs) log := by
  induction cs generalizing n log with
  | nil =>
      exact ⟨le_rfl, h⟩
  | cons c cs ih =>
      obtain ⟨hc, hrest⟩ := List.forall_mem_cons.mp hcs
      refine ⟨hc.permitted h phase, ?_⟩
      intro (r : Bool)
      cases r with
      | false =>
          exact ⟨le_rfl, h.append _⟩
      | true =>
          exact (ih hrest (n + 1) (h.append _)).mono fun a log' ha =>
            ⟨Nat.le_of_succ_le ha.1, ha.2⟩

theorem permitted_runCollecting {created : Table → Bool} (phase : CutoverPhase)
    (cs : List FirewallCommand) (hcs : ∀ c ∈ cs, c.KeepsTo created)
    {log : List (Sigma HostCall.Reply)} (h : OwnCreated created log) :
    Permitted AltersCreated (fun _ log' => OwnCreated created log')
      (runCollecting phase cs) log := by
  induction cs generalizing log with
  | nil =>
      exact h
  | cons c cs ih =>
      obtain ⟨hc, hrest⟩ := List.forall_mem_cons.mp hcs
      refine ⟨hc.permitted h phase, fun r => ?_⟩
      exact (ih hrest (h.append _)).bind fun failed log' hlog' => hlog'

section Commands

variable {created : Table → Bool} {t : Table}

/-- Commands that alter no chain keep to any. -/
theorem keepsTo_of_not_alters {c : FirewallCommand}
    (h : ∀ phase t chain, ¬ HostCall.Alters ⟨phase, .iptables c⟩ t chain) : c.KeepsTo created :=
  fun phase t chain halters => absurd halters (h phase t chain)

theorem keepsTo_createChain : (createChain t).KeepsTo created :=
  keepsTo_of_not_alters (by simp [HostCall.Alters, createChain])

theorem keepsTo_insertJump {plan : HostForwardPlan} : (insertJump plan t).KeepsTo created :=
  keepsTo_of_not_alters (by simp [HostCall.Alters, insertJump])

theorem keepsTo_deleteJump {plan : HostForwardPlan} : (deleteJump plan t).KeepsTo created :=
  keepsTo_of_not_alters (by simp [HostCall.Alters, deleteJump])

theorem keepsTo_appendRule (ht : created t = true) (r : Rule) :
    (appendRule t r).KeepsTo created := by
  rintro phase t' chain (h | h | ⟨r', h⟩)
  · cases h
  · cases h
  · cases h
    exact ⟨ht, rfl⟩

theorem keepsTo_flushChain (ht : created t = true) : (flushChain t).KeepsTo created := by
  rintro phase t' chain (h | h | ⟨r', h⟩)
  · cases h
    exact ⟨ht, rfl⟩
  · cases h
  · cases h

theorem keepsTo_removeChain (ht : created t = true) : (removeChain t).KeepsTo created := by
  rintro phase t' chain (h | h | ⟨r', h⟩)
  · cases h
  · cases h
    exact ⟨ht, rfl⟩
  · cases h

end Commands

variable (plan : HostForwardPlan)

/-- The stage: what its count says was created was created. -/
theorem permitted_stage :
    Permitted AltersCreated (fun r log => OwnCreated (createdChains r.1) log)
      (runCounting .activate 0 (ofPlan plan).stage) [] := by
  have hnone (log : List (Sigma HostCall.Reply)) : OwnCreated (fun _ => false) log :=
    fun t ht => by cases ht
  refine ⟨keepsTo_createChain.permitted (hnone _) .activate, ?_⟩
  intro (r : Bool)
  cases r with
  | false =>
      intro t ht
      cases t <;> cases ht
  | true =>
      refine ⟨keepsTo_createChain.permitted (hnone _) .activate, ?_⟩
      intro (r : Bool)
      have hfilter : Created [⟨⟨.activate, .iptables (createChain .filter)⟩, true⟩] .filter
          (ownedChain .filter) := ⟨.activate, List.mem_singleton.mpr rfl⟩
      cases r with
      | false =>
          intro t ht
          cases t with
          | filter =>
              exact hfilter.append _
          | nat =>
              cases ht
      | true =>
          have hboth : OwnCreated (fun _ => true)
              ([⟨⟨.activate, .iptables (createChain .filter)⟩, true⟩] ++
                [⟨⟨.activate, .iptables (createChain .nat)⟩, true⟩]) := by
            intro t _
            cases t with
            | filter =>
                exact hfilter.append _
            | nat =>
                exact ⟨.activate, List.mem_append_right _ (List.mem_singleton.mpr rfl)⟩
          have happends : ∀ c ∈ [appendRule .filter plan.peerRule,
              appendRule .filter plan.httpsRule, appendRule .filter HostForwardPlan.dropRule,
              appendRule .nat plan.snatRule], c.KeepsTo fun _ => true := by
            simp only [List.forall_mem_cons, List.not_mem_nil, false_imp_iff, implies_true]
            exact ⟨keepsTo_appendRule rfl _, keepsTo_appendRule rfl _, keepsTo_appendRule rfl _,
              keepsTo_appendRule rfl _, trivial⟩
          refine (permitted_runCounting .activate _ happends 2 hboth).mono ?_
          intro a log ha t _
          exact ha.2 t rfl

/-- The clean-up of a stage. -/
theorem permitted_cleanupStage (count : Nat) {log : List (Sigma HostCall.Reply)}
    (h : OwnCreated (createdChains count) log) :
    Permitted AltersCreated (fun _ _ => True) ((ofPlan plan).cleanupStage count) log := by
  rw [cleanupStage_eq]
  refine (permitted_runCollecting .activate _ ?_ h).mono fun _ _ _ => trivial
  intro c hc
  rcases List.mem_append.mp hc with hfilter | hnat
  · split at hfilter
    · rename_i hcount
      have ht : createdChains count .filter = true := by simpa [createdChains] using hcount
      rcases List.mem_pair.mp hfilter with rfl | rfl
      · exact keepsTo_flushChain ht
      · exact keepsTo_removeChain ht
    · cases hfilter
  · split at hnat
    · rename_i hcount
      have ht : createdChains count .nat = true := by simpa [createdChains] using hcount
      rcases List.mem_pair.mp hnat with rfl | rfl
      · exact keepsTo_flushChain ht
      · exact keepsTo_removeChain ht
    · cases hnat

/-- `install` and its clean-up, whatever the commands answer. -/
theorem permitted_install :
    Permitted AltersCreated (fun _ _ => True) (ofPlan plan).install [] := by
  refine (permitted_stage plan).bind ?_
  rintro ⟨count, cause⟩ log hlog
  cases cause with
  | some c =>
      exact (permitted_cleanupStage plan count hlog).bind fun _ _ _ => trivial
  | none =>
      have hjumps : ∀ c ∈ (ofPlan plan).activate, c.KeepsTo (createdChains count) := by
        intro c hc
        rcases List.mem_pair.mp hc with rfl | rfl
        · exact keepsTo_insertJump (t := .nat)
        · exact keepsTo_insertJump (t := .filter)
      have hdetach : ∀ c ∈ (ofPlan plan).detach, c.KeepsTo (createdChains count) := by
        intro c hc
        rcases List.mem_pair.mp hc with rfl | rfl
        · exact keepsTo_deleteJump (t := .filter)
        · exact keepsTo_deleteJump (t := .nat)
      refine (permitted_runCounting .activate _ hjumps 0 hlog).bind ?_
      rintro ⟨attached, cause⟩ log' ⟨-, hlog'⟩
      cases cause with
      | none =>
          trivial
      | some c =>
          refine (permitted_runCollecting .activate _
            (fun c hc => hdetach c (List.mem_of_mem_drop hc)) hlog').bind ?_
          intro failed log'' hlog''
          cases failed with
          | cons d ds =>
              trivial
          | nil =>
              exact (permitted_cleanupStage plan count hlog'').bind fun _ _ _ => trivial

end Trace

/-- The undo of an installation is exact, and only chains that it created are
flushed, deleted or appended to. -/
theorem install_undo_exact (obs : Observations) (fails lingers : HostCall → Bool)
    (plan : HostForwardPlan) (commands : FirewallCommands)
    (hplan : FirewallCommands.fromPlan plan = .ok commands) (host : Host) :
    let sem := HostCall.semLingering obs fails lingers
    let r := Program.run sem commands.install host
    let undo := commands.detach ++ commands.cleanup
    (host.firewall.WellFormed → host.firewall.LacksOwned →
      ((∀ t, has (host.firewall t) (hostChain t) = true) →
        (∀ c ∈ commands.stage ++ commands.activate, fails ⟨.activate, .iptables c⟩ = false) →
          r.2 = .ok ()) ∧
      (r.2 = .ok () → (∀ c ∈ undo, fails ⟨.rollback, .iptables c⟩ = false) →
        Program.run sem commands.uninstall r.1 = (host, .ok ())) ∧
      ∀ e, r.2 = .error e →
        (e.undoFailures = [] → r.1 = host) ∧
        ((∀ c ∈ undo, fails ⟨.activate, .iptables c⟩ = false) → e.undoFailures = [])) ∧
    ∀ before c after, (Program.run (Program.answered sem) commands.install (host, [])).1.2 =
        before ++ c :: after →
      ∀ t chain, c.1.Alters t chain → Created before t chain := by
  intro sem r undo
  have hcommands : commands = FirewallCommands.ofPlan plan :=
    HostCutoverBackend.firewall_eq ⟨plan, commands, "", "", hplan⟩
  subst hcommands
  have hsucceeds {phase : CutoverPhase} {cs : List FirewallCommand}
      (h : ∀ c ∈ cs, fails ⟨phase, .iptables c⟩ = false) :
      ∀ c ∈ cs, succeeds fails phase c = true := by
    intro c hc
    simp [succeeds, h c hc]
  refine ⟨fun hwf hlacks => ?_, fun before c after hlog => ?_⟩
  · obtain ⟨wg0, base⟩ := host
    have hbase := hlacks.unowned hwf
    have hhost : hostWith base plan wg0 (owned .absent .absent) = ⟨wg0, base⟩ :=
      present_absent.absent
    have hcases := run_install_cases obs fails lingers plan wg0 hbase
    rw [hhost] at hcases
    refine ⟨fun hhas hok => ?_, fun hr hok => ?_, fun e he => ?_⟩
    · have hrun := run_install_succeeds obs fails lingers plan wg0 hbase hhas (hsucceeds hok)
      rw [hhost] at hrun
      exact congrArg Prod.snd hrun
    · rcases hcases with ⟨o, hinstalled, ho, hhas⟩ | ⟨e, he, -, -⟩
      · rw [show r = _ from hinstalled]
        exact run_uninstall_present obs fails lingers plan wg0 hbase ho hhas (hsucceeds hok)
      · rw [show r.2 = _ from he] at hr
        cases hr
    · rcases hcases with ⟨o, hinstalled, -, -⟩ | ⟨e', he', hundo, htidy⟩
      · rw [show r = _ from hinstalled] at he
        cases he
      · rw [show r.2 = _ from he'] at he
        injection he with he
        subst he
        exact ⟨hundo, fun hok => htidy (hsucceeds hok)⟩
  · refine (permitted_install plan).of_answered (s := (host, [])) ?_ hlog
    intro before' c' after' hnil
    simp at hnil

open HostCutoverBackend in
/-- An append that fails and lingers, on a host with Docker's chains. -/
theorem install_undo_sample :
    FirewallCommands.fromPlan samplePlan = .ok (.ofPlan samplePlan) ∧
      sampleHost.firewall.WellFormed ∧ sampleHost.firewall.LacksOwned ∧
      (Program.run (HostCall.semLingering sampleObservations
        (fun c => c == ⟨.activate, .iptables (appendRule .filter samplePlan.httpsRule)⟩)
        fun _ => true) (FirewallCommands.ofPlan samplePlan).install sampleHost).1 = sampleHost := by
  have hplan : FirewallCommands.fromPlan samplePlan = .ok (.ofPlan samplePlan) := by decide
  have hwf : sampleHost.firewall.WellFormed := by
    intro t
    cases t <;> decide
  have hlacks : sampleHost.firewall.LacksOwned := by
    intro t
    cases t <;> decide
  have hundo := ((install_undo_exact sampleObservations
    (fun c => c == ⟨.activate, .iptables (appendRule .filter samplePlan.httpsRule)⟩)
    (fun _ => true) samplePlan _ hplan sampleHost).1 hwf hlacks).2.2 _ rfl
  exact ⟨hplan, hwf, hlacks, hundo.1 (hundo.2 (by decide))⟩

end HostAgent
end ZeroVpn
