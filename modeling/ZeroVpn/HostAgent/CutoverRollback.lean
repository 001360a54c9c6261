import ZeroVpn.HostAgent.Cutover

/-!
# What a rolled-back cutover leaves on the host

The undo of a cutover is in two places.  `install` cleans up after itself when
one of its commands fails; `rollback` undoes an `install` that succeeded and
does nothing about one that failed.  So a rollback that succeeds leaves a clean
host, unless a clean-up command of a failed `install` fails as well: then
chains of the agent stay, the backend does not remember them, and `rollback`
returns `Ok`.
-/

namespace ZeroVpn

open Library

namespace HostAgent

open Firewall Chain

/-- A call fails, without an effect, or is carried out. -/
theorem HostCall.sem_cases (obs : Observations) (fails : HostCall → Bool) (c : HostCall)
    (host : Host) :
    (fails c = true ∧ c.sem obs fails host = (host, c.cmd.failure)) ∨
      (fails c = false ∧ c.sem obs fails host = c.cmd.exec obs host) := by
  unfold HostCall.sem
  cases fails c with
  | true =>
      exact .inl ⟨rfl, rfl⟩
  | false =>
      exact .inr ⟨rfl, rfl⟩

namespace Backend

variable {α β : Type} (sem : (c : HostCall) → Host → Host × c.Reply)

/-- Execute a method; the state is the host and the fields of the backend. -/
def exec (p : Backend α) (w : Host × CutoverState) :
    (Host × CutoverState) × Except CutoverError α :=
  let r := Program.run sem (p.run.run w.2) w.1
  ((r.1, r.2.2), r.2.1)

variable (w : Host × CutoverState)

@[simp] theorem exec_pure (a : α) : exec sem (pure a) w = (w, .ok a) := rfl

@[simp] theorem exec_throw (e : CutoverError) :
    exec sem (throw e : Backend α) w = (w, .error e) := rfl

@[simp] theorem exec_get : exec sem (get : Backend CutoverState) w = (w, .ok w.2) := rfl

@[simp] theorem exec_modify (f : CutoverState → CutoverState) :
    exec sem (modify f : Backend PUnit) w = ((w.1, f w.2), .ok ()) := rfl

@[simp] theorem exec_ofProgram (p : HostProgram (Except CutoverError α)) :
    exec sem (ofProgram p) w =
      (((Program.run sem p w.1).1, w.2), (Program.run sem p w.1).2) := by
  simp only [exec, ofProgram, ExceptT.run_mk, StateT.run_lift, Program.run_bind]
  rfl

@[simp] theorem exec_check (c : Bool) (message : String) :
    exec sem (check c message) w = (w, if c then .ok () else .error (.check message)) := by
  cases c <;> rfl

theorem exec_bind (p : Backend α) (f : α → Backend β) :
    exec sem (p >>= f) w =
      match exec sem p w with
      | (w', .ok a) => exec sem (f a) w'
      | (w', .error e) => (w', .error e) := by
  simp only [exec, ExceptT.run_bind, StateT.run_bind, Program.run_bind]
  rcases Program.run sem (p.run.run w.2) w.1 with ⟨h, ⟨e | a⟩, b⟩ <;> rfl

/-- What both parts of a sequence keep, the sequence keeps. -/
theorem exec_bind_keeps {P : Host × CutoverState → Prop} {p : Backend α} {f : α → Backend β}
    {w : Host × CutoverState} (hp : P (exec sem p w).1)
    (hf : ∀ a w', P w' → P (exec sem (f a) w').1) : P (exec sem (p >>= f) w).1 := by
  rw [exec_bind]
  rcases h : exec sem p w with ⟨w', e | a⟩
  · rw [h] at hp
    exact hp
  · rw [h] at hp
    exact hf a w' hp

@[simp] theorem exec_runHost (phase : CutoverPhase) (cmd : HostCmd) :
    exec sem (runHost phase cmd) w =
      (((sem ⟨phase, cmd⟩ w.1).1, w.2),
        if cmd.isOk (sem ⟨phase, cmd⟩ w.1).2 then .ok () else .error (.command cmd)) := by
  unfold runHost
  rw [exec_ofProgram, Program.run_call, Program.run_ret]

theorem exec_outcome (p : Backend α) :
    exec sem (outcome p) w = ((exec sem p w).1, .ok (exec sem p w).2) := by
  simp only [exec, outcome, ExceptT.run_mk, StateT.run_bind, Program.run_bind]
  rfl

end Backend

section Install

variable {obs : Observations} {fails : HostCall → Bool}
variable {base : Firewall} {plan : HostForwardPlan}

/-- A host with the agent's chains and jumps. -/
def hostWith (base : Firewall) (plan : HostForwardPlan) (wg0 : Option Wg0) (o : Owned) : Host where
  wg0 := wg0
  firewall := base.withOwned plan o

/-- The command is carried out. -/
def succeeds (fails : HostCall → Bool) (phase : CutoverPhase) (c : FirewallCommand) : Bool :=
  !fails ⟨phase, .iptables c⟩

/-- A command that the system carries out, if it does not fail. -/
theorem run_runCommand {phase : CutoverPhase} {c : FirewallCommand} {wg0 : Option Wg0}
    {o o' : Owned} (h : c.run (base.withOwned plan o) = some (base.withOwned plan o')) :
    Program.run (HostCall.sem obs fails) (FirewallCommands.runCommand phase c)
        (hostWith base plan wg0 o) =
      if succeeds fails phase c then (hostWith base plan wg0 o', true)
      else (hostWith base plan wg0 o, false) := by
  unfold FirewallCommands.runCommand succeeds
  rw [Program.run_call, Program.run_ret]
  unfold HostCall.sem
  cases hfails : fails ⟨phase, .iptables c⟩ with
  | true =>
      rfl
  | false =>
      simp only [Bool.false_eq_true, Bool.not_false, ite_true, HostCmd.exec, hostWith, h]
      rfl

/-- A command that `iptables` refuses. -/
theorem run_runCommand_refused {phase : CutoverPhase} {c : FirewallCommand} {wg0 : Option Wg0}
    {o : Owned} (h : c.run (base.withOwned plan o) = none) :
    Program.run (HostCall.sem obs fails) (FirewallCommands.runCommand phase c)
        (hostWith base plan wg0 o) = (hostWith base plan wg0 o, false) := by
  unfold FirewallCommands.runCommand
  rw [Program.run_call, Program.run_ret]
  unfold HostCall.sem
  cases hfails : fails ⟨phase, .iptables c⟩ with
  | true =>
      rfl
  | false =>
      simp only [Bool.false_eq_true, HostCmd.exec, hostWith, h]
      rfl

theorem run_runCounting_cons {sem : (c : HostCall) → Host → Host × c.Reply}
    (phase : CutoverPhase) (n : Nat) (c : FirewallCommand) (cs : List FirewallCommand)
    (host : Host) :
    Program.run sem (FirewallCommands.runCounting phase n (c :: cs)) host =
      if (Program.run sem (FirewallCommands.runCommand phase c) host).2 then
        Program.run sem (FirewallCommands.runCounting phase (n + 1) cs)
          (Program.run sem (FirewallCommands.runCommand phase c) host).1
      else ((Program.run sem (FirewallCommands.runCommand phase c) host).1, (n, some c)) := by
  simp only [FirewallCommands.runCounting, Program.run_bind]
  split <;> rfl

theorem run_runCollecting_cons {sem : (c : HostCall) → Host → Host × c.Reply}
    (phase : CutoverPhase) (c : FirewallCommand) (cs : List FirewallCommand) (host : Host) :
    (Program.run sem (FirewallCommands.runCollecting phase (c :: cs)) host).1 =
      (Program.run sem (FirewallCommands.runCollecting phase cs)
        (Program.run sem (FirewallCommands.runCommand phase c) host).1).1 := by
  simp only [FirewallCommands.runCollecting, Program.run_bind]
  rfl

/-- What flushing and deleting the agent's chain leaves of it. -/
def afterCleanup (flushed removed : Bool) (rs : List Rule) : Option (List Rule) :=
  let left := if flushed then [] else rs
  if removed && left.isEmpty then none else some left

/-- The two clean-up commands of a table. -/
theorem run_cleanup (hbase : base.Clean) {phase : CutoverPhase} {t : Table} {wg0 : Option Wg0}
    {o : Owned} {rs : List Rule} (ho : o t = ⟨some rs, false⟩) (cs : List FirewallCommand) :
    (Program.run (HostCall.sem obs fails)
        (FirewallCommands.runCollecting phase (flushChain t :: removeChain t :: cs))
        (hostWith base plan wg0 o)).1 =
      (Program.run (HostCall.sem obs fails) (FirewallCommands.runCollecting phase cs)
        (hostWith base plan wg0 (Function.update o t
          ⟨afterCleanup (succeeds fails phase (flushChain t))
            (succeeds fails phase (removeChain t)) rs, false⟩))).1 := by
  let left := if succeeds fails phase (flushChain t) then [] else rs
  have hflush : (Program.run (HostCall.sem obs fails)
      (FirewallCommands.runCommand phase (flushChain t)) (hostWith base plan wg0 o)).1 =
        hostWith base plan wg0 (Function.update o t ⟨some left, false⟩) := by
    rw [run_runCommand (flush_run plan (hbase _ _) ho)]
    cases hok : succeeds fails phase (flushChain t) with
    | true =>
        simp [left, hok]
    | false =>
        simp [left, hok, ← ho]
  have hat : Function.update o t ⟨some left, false⟩ t = (⟨some left, false⟩ : OwnedTable) := by
    simp
  have hrun : (removeChain t).run (base.withOwned plan (Function.update o t ⟨some left, false⟩)) =
      if left = [] then some (base.withOwned plan (Function.update o t .absent)) else none := by
    simpa using remove_run plan (hbase _ _) hat
  have hend : afterCleanup (succeeds fails phase (flushChain t))
      (succeeds fails phase (removeChain t)) rs =
        if succeeds fails phase (removeChain t) && left.isEmpty then none else some left := rfl
  rw [run_runCollecting_cons, run_runCollecting_cons, hflush, hend]
  congr 2
  by_cases hempty : left = []
  · rw [if_pos hempty] at hrun
    rw [run_runCommand hrun, hempty]
    cases succeeds fails phase (removeChain t) <;> rfl
  · rw [if_neg hempty] at hrun
    rw [run_runCommand_refused hrun]
    simp [hempty]

/-- The rules of the agent's chains when all of them are staged. -/
def stagedRules (plan : HostForwardPlan) : Table → List Rule
  | .filter => [plan.peerRule, plan.httpsRule, HostForwardPlan.dropRule]
  | .nat => [plan.snatRule]

/-- The chains and the jumps of a plan. -/
def installed (plan : HostForwardPlan) : Owned :=
  owned ⟨some (stagedRules plan .filter), true⟩ ⟨some (stagedRules plan .nat), true⟩

/-- Only the NAT jump is attached. -/
def natAttached (plan : HostForwardPlan) : Owned :=
  owned ⟨some (stagedRules plan .filter), false⟩ ⟨some (stagedRules plan .nat), true⟩

/-- The clean-up that is needed when `staged` commands of the stage succeeded: the
`-X` of each chain that was created and the `-F` of each that has rules. -/
def tidyStage (ok : FirewallCommand → Bool) : (staged : Nat) → Bool
  | 0 => true
  | 1 => ok (removeChain .filter)
  | 2 => ok (removeChain .filter) && ok (removeChain .nat)
  | 3 | 4 | 5 => (ok (removeChain .filter) && ok (flushChain .filter)) && ok (removeChain .nat)
  | _ => (ok (removeChain .filter) && ok (flushChain .filter)) &&
      (ok (removeChain .nat) && ok (flushChain .nat))

/-- Every clean-up command that a failed `install` needs is carried out; when the
second jump failed, that includes the `-D` of the first.  `ok` says which
commands succeed, `has` which tables have the chain that is given the jump. -/
def installTidy (plan : HostForwardPlan) (ok : FirewallCommand → Bool) (has : Table → Bool) :
    Bool :=
  match (FirewallCommands.ofPlan plan).stage.findIdx? fun c => !ok c with
  | some staged => tidyStage ok staged
  | none =>
      if !(ok (insertJump plan .nat) && has .nat) then tidyStage ok 6
      else if !(ok (insertJump plan .filter) && has .filter) then
        ok (deleteJump plan .nat) && tidyStage ok 6
      else true

section Shape

variable {sem : (c : HostCall) → Host → Host × c.Reply} {commands : FirewallCommands}
variable {host host' host'' : Host} {staged attached : Nat} {c : FirewallCommand}

open FirewallCommands

/-- `install`, when a command of the stage fails. -/
theorem run_install_stage
    (hstage : Program.run sem (runCounting .activate 0 commands.stage) host =
      (host', (staged, some c))) :
    Program.run sem commands.install host =
      ((Program.run sem (commands.cleanupStage staged) host').1,
        .error (.staging c (Program.run sem (commands.cleanupStage staged) host').2)) := by
  unfold install
  rw [Program.run_bind, hstage]
  simp only [Program.run_bind]
  rfl

variable (hstage : Program.run sem (runCounting .activate 0 commands.stage) host =
  (host', (staged, none)))

include hstage in
/-- `install`, when a jump fails: the clean-up follows a detach that succeeds. -/
theorem run_install_activate
    (hactivate : Program.run sem (runCounting .activate 0 commands.activate) host' =
      (host'', (attached, some c))) :
    Program.run sem commands.install host =
      let detached := Program.run sem (commands.detachAttached attached) host''
      let cleaned := Program.run sem (commands.cleanupStage staged) detached.1
      if detached.2.isEmpty then (cleaned.1, .error (.activation c cleaned.2))
      else (detached.1, .error (.detach c detached.2)) := by
  unfold install
  rw [Program.run_bind, hstage]
  simp only [Program.run_bind, hactivate]
  cases hdetach : (Program.run sem (commands.detachAttached attached) host'').2 with
  | nil =>
      simp only [List.isEmpty_nil, Bool.not_true, Bool.false_eq_true, ite_false, ite_true,
        Program.run_bind]
      rfl
  | cons d ds =>
      rfl

include hstage in
theorem run_install_ok
    (hactivate : Program.run sem (runCounting .activate 0 commands.activate) host' =
      (host'', (attached, none))) :
    Program.run sem commands.install host = (host'', .ok ()) := by
  unfold install
  rw [Program.run_bind, hstage]
  simp only [Program.run_bind, hactivate]
  rfl

/-- An `uninstall` that succeeds gets through both of its loops. -/
theorem run_uninstall_ok (hok : (Program.run sem commands.uninstall host).2 = .ok ()) :
    let detached := Program.run sem (runCounting .rollback 0 commands.detach) host
    let cleaned := Program.run sem (runCounting .rollback 0 commands.cleanup) detached.1
    detached.2.2 = none ∧ cleaned.2.2 = none ∧
      (Program.run sem commands.uninstall host).1 = cleaned.1 := by
  intro detached cleaned
  unfold uninstall at hok ⊢
  rw [Program.run_bind] at hok ⊢
  rcases hdetached : Program.run sem (runCounting .rollback 0 commands.detach) host with
    ⟨h, n, _ | c⟩
  · rw [hdetached] at hok
    simp only [Program.run_bind] at hok ⊢
    rcases hcleaned : Program.run sem (runCounting .rollback 0 commands.cleanup) h with
      ⟨h', n', _ | c⟩
    · simp only [cleaned, detached, hdetached, hcleaned]
      exact ⟨trivial, trivial, rfl⟩
    · rw [hcleaned] at hok
      cases hok
  · rw [hdetached] at hok
    cases hok

end Shape

/-- One round of a loop that ends at the first failure. -/
theorem run_counting {c : FirewallCommand} {o o' : Owned} {wg0 : Option Wg0}
    (h : c.run (base.withOwned plan o) = some (base.withOwned plan o')) (phase : CutoverPhase)
    (n : Nat) (cs : List FirewallCommand) :
    Program.run (HostCall.sem obs fails) (FirewallCommands.runCounting phase n (c :: cs))
        (hostWith base plan wg0 o) =
      if succeeds fails phase c then
        Program.run (HostCall.sem obs fails) (FirewallCommands.runCounting phase (n + 1) cs)
          (hostWith base plan wg0 o')
      else (hostWith base plan wg0 o, (n, some c)) := by
  rw [run_runCounting_cons, run_runCommand h]
  cases succeeds fails phase c <;> rfl

variable (obs fails) in
/-- A loop whose commands lead from state to state ends before the first one
that fails. -/
theorem run_counting_chain (st : Nat → Owned) (wg0 : Option Wg0) (phase : CutoverPhase)
    (cs : List FirewallCommand) (n : Nat)
    (h : ∀ i c, cs[i]? = some c →
      c.run (base.withOwned plan (st (n + i))) = some (base.withOwned plan (st (n + i + 1)))) :
    Program.run (HostCall.sem obs fails) (FirewallCommands.runCounting phase n cs)
        (hostWith base plan wg0 (st n)) =
      match cs.findIdx? fun c => !succeeds fails phase c with
      | some k => (hostWith base plan wg0 (st (n + k)), (n + k, cs[k]?))
      | none => (hostWith base plan wg0 (st (n + cs.length)), (n + cs.length, none)) := by
  induction cs generalizing n with
  | nil =>
      rfl
  | cons c cs ih =>
      have htail : ∀ i c', cs[i]? = some c' → c'.run (base.withOwned plan (st (n + 1 + i))) =
          some (base.withOwned plan (st (n + 1 + i + 1))) := by
        intro i c' hc'
        have hnext := h (i + 1) c' (by simpa using hc')
        rwa [show n + (i + 1) = n + 1 + i by omega] at hnext
      have hhead : c.run (base.withOwned plan (st n)) = some (base.withOwned plan (st (n + 1))) :=
        h 0 c rfl
      rw [run_counting hhead, List.findIdx?_cons]
      cases succeeds fails phase c with
      | false =>
          rfl
      | true =>
          rw [if_pos rfl, ih (n + 1) htail]
          cases cs.findIdx? fun c => !succeeds fails phase c with
          | none =>
              simp [Nat.add_comm, Nat.add_left_comm]
          | some k =>
              simp [Nat.add_comm, Nat.add_left_comm]

/-- A loop that gets through ends in the last state. -/
theorem run_counting_done (st : Nat → Owned) {wg0 : Option Wg0} {phase : CutoverPhase}
    {cs : List FirewallCommand}
    (h : ∀ i c, cs[i]? = some c →
      c.run (base.withOwned plan (st i)) = some (base.withOwned plan (st (i + 1))))
    (hdone : (Program.run (HostCall.sem obs fails) (FirewallCommands.runCounting phase 0 cs)
      (hostWith base plan wg0 (st 0))).2.2 = none) :
    (Program.run (HostCall.sem obs fails) (FirewallCommands.runCounting phase 0 cs)
      (hostWith base plan wg0 (st 0))).1 = hostWith base plan wg0 (st cs.length) := by
  have hchain := run_counting_chain obs fails st wg0 phase cs 0 (by simpa using h)
  cases hfirst : cs.findIdx? fun c => !succeeds fails phase c with
  | some k =>
      have hk := (List.findIdx?_eq_some_iff_getElem.mp hfirst).1
      rw [hchain, hfirst] at hdone
      simp [List.getElem?_eq_getElem hk] at hdone
  | none =>
      rw [hchain, hfirst]
      simp

/-- A jump needs the chain of the host. -/
theorem run_counting_insert {t : Table} {o : Owned} {wg0 : Option Wg0} {rs : List Rule}
    (ho : o t = ⟨some rs, false⟩) (phase : CutoverPhase) (n : Nat) (cs : List FirewallCommand) :
    Program.run (HostCall.sem obs fails)
        (FirewallCommands.runCounting phase n (insertJump plan t :: cs))
        (hostWith base plan wg0 o) =
      if succeeds fails phase (insertJump plan t) && has (base t) (hostChain t) then
        Program.run (HostCall.sem obs fails) (FirewallCommands.runCounting phase (n + 1) cs)
          (hostWith base plan wg0 (Function.update o t ⟨some rs, true⟩))
      else (hostWith base plan wg0 o, (n, some (insertJump plan t))) := by
  have hrun : (insertJump plan t).run (base.withOwned plan o) =
      if has (base t) (hostChain t) then
        some (base.withOwned plan (Function.update o t ⟨some rs, true⟩))
      else none := insert_run plan ho
  cases hhas : has (base t) (hostChain t) with
  | true =>
      rw [hhas, if_pos rfl] at hrun
      rw [run_counting hrun, Bool.and_true]
  | false =>
      rw [hhas, if_neg Bool.false_ne_true] at hrun
      rw [run_runCounting_cons, run_runCommand_refused hrun, Bool.and_false]
      rfl

/-- What is left of the agent's chains: nothing when the clean-up was complete, a
chain otherwise. -/
def Leaves (o : Owned) (tidy : Bool) : Prop :=
  (tidy = true ∧ o = owned .absent .absent) ∨ (tidy = false ∧ ∃ t, (o t).rules ≠ none)

variable (plan) in
theorem clean_iff_of_leaves (hbase : base.Clean) {o : Owned} {tidy : Bool} (h : Leaves o tidy) :
    (hostWith base plan none o).Clean ↔ tidy = true := by
  rcases h with ⟨htidy, rfl⟩ | ⟨htidy, t, hrules⟩
  · refine ⟨fun _ => htidy, fun _ => ⟨rfl, ?_⟩⟩
    simpa only [hostWith, withOwned_absent] using hbase
  · rw [htidy]
    exact ⟨fun hclean => absurd (rules_of_clean hclean.2 t) hrules, fun h => by cases h⟩

theorem afterCleanup_isNone (flushed removed : Bool) (rs : List Rule) :
    (afterCleanup flushed removed rs).isNone = (removed && (flushed || rs.isEmpty)) := by
  cases flushed <;> cases removed <;> cases rs <;> rfl

/-- Without jumps it is the chains that count. -/
theorem leaves_chains (f n : Option (List Rule)) :
    Leaves (owned ⟨f, false⟩ ⟨n, false⟩) (f.isNone && n.isNone) := by
  cases f with
  | some rs =>
      exact .inr ⟨rfl, .filter, by simp⟩
  | none =>
      cases n with
      | some rs =>
          exact .inr ⟨rfl, .nat, by simp⟩
      | none =>
          exact .inl ⟨rfl, rfl⟩

section Chains

variable (obs fails plan) (hbase : base.Clean) (wg0 : Option Wg0)

/-- The chains before the `k`-th command of the stage. -/
def stagedChains (plan : HostForwardPlan) : Nat → Owned
  | 0 => owned .absent .absent
  | 1 => owned ⟨some [], false⟩ .absent
  | 2 => owned ⟨some [], false⟩ ⟨some [], false⟩
  | 3 => owned ⟨some [plan.peerRule], false⟩ ⟨some [], false⟩
  | 4 => owned ⟨some [plan.peerRule, plan.httpsRule], false⟩ ⟨some [], false⟩
  | 5 => owned ⟨some (stagedRules plan .filter), false⟩ ⟨some [], false⟩
  | _ => owned ⟨some (stagedRules plan .filter), false⟩ ⟨some (stagedRules plan .nat), false⟩

include hbase in
/-- Every command of the stage leads to the next chains. -/
theorem stage_step (k : Nat) (c : FirewallCommand)
    (hc : (FirewallCommands.ofPlan plan).stage[k]? = some c) :
    c.run (base.withOwned plan (stagedChains plan k)) =
      some (base.withOwned plan (stagedChains plan (k + 1))) := by
  rw [FirewallCommands.ofPlan_eq] at hc
  have created (t : Table) {o : Owned} (ho : o t = .absent) :=
    create_run plan (hbase _ _) (t := t) ho
  have appended (t : Table) (r : Rule) {rs : List Rule} {o : Owned} (ho : o t = ⟨some rs, false⟩)
      {v : String} {options : List String} (hr : r.target = .verdict v options) :=
    append_run plan (hbase _ _) ho hr
  match k, hc with
  | 0, rfl =>
      simpa [stagedChains] using created .filter (o := stagedChains plan 0) rfl
  | 1, rfl =>
      simpa [stagedChains] using created .nat (o := stagedChains plan 1) rfl
  | 2, rfl =>
      simpa [stagedChains] using appended .filter plan.peerRule (o := stagedChains plan 2) rfl rfl
  | 3, rfl =>
      simpa [stagedChains] using appended .filter plan.httpsRule (o := stagedChains plan 3) rfl rfl
  | 4, rfl =>
      simpa [stagedChains, stagedRules] using
        appended .filter HostForwardPlan.dropRule (o := stagedChains plan 4) rfl rfl
  | 5, rfl =>
      simpa [stagedChains, stagedRules] using
        appended .nat plan.snatRule (o := stagedChains plan 5) rfl rfl

include hbase in
/-- The clean-up of both chains. -/
theorem run_cleanup_both (rs rs' : List Rule) :
    ∃ o, (Program.run (HostCall.sem obs fails) (FirewallCommands.runCollecting .activate
          [flushChain .filter, removeChain .filter, flushChain .nat, removeChain .nat])
        (hostWith base plan wg0 (owned ⟨some rs, false⟩ ⟨some rs', false⟩))).1 =
          hostWith base plan wg0 o ∧
      Leaves o ((succeeds fails .activate (removeChain .filter) &&
          (succeeds fails .activate (flushChain .filter) || rs.isEmpty)) &&
        (succeeds fails .activate (removeChain .nat) &&
          (succeeds fails .activate (flushChain .nat) || rs'.isEmpty))) := by
  refine ⟨owned
    ⟨afterCleanup (succeeds fails .activate (flushChain .filter))
      (succeeds fails .activate (removeChain .filter)) rs, false⟩
    ⟨afterCleanup (succeeds fails .activate (flushChain .nat))
      (succeeds fails .activate (removeChain .nat)) rs', false⟩, ?_, ?_⟩
  · rw [run_cleanup hbase rfl, run_cleanup hbase (by simp; rfl)]
    simp [FirewallCommands.runCollecting]
  · rw [← afterCleanup_isNone, ← afterCleanup_isNone]
    exact leaves_chains _ _

include hbase in
/-- The clean-up of a stage of which `k` commands succeeded. -/
theorem run_cleanupStage (k : Nat) (hk : k ≤ 6) :
    ∃ o, (Program.run (HostCall.sem obs fails) ((FirewallCommands.ofPlan plan).cleanupStage k)
        (hostWith base plan wg0 (stagedChains plan k))).1 = hostWith base plan wg0 o ∧
      Leaves o (tidyStage (succeeds fails .activate) k) := by
  have both := run_cleanup_both obs fails plan hbase wg0
  match k, hk with
  | 0, _ =>
      exact ⟨_, rfl, .inl ⟨rfl, rfl⟩⟩
  | 1, _ =>
      refine ⟨_, run_cleanup hbase (show stagedChains plan 1 .filter = ⟨some [], false⟩ from rfl) [], ?_⟩
      have hleft := leaves_chains (afterCleanup (succeeds fails .activate (flushChain .filter))
        (succeeds fails .activate (removeChain .filter)) []) none
      simpa [afterCleanup_isNone, tidyStage, stagedChains, OwnedTable.absent] using hleft
  | 2, _ =>
      obtain ⟨o, hrun, hleft⟩ := both [] []
      exact ⟨o, hrun, by simpa [tidyStage] using hleft⟩
  | 3, _ =>
      obtain ⟨o, hrun, hleft⟩ := both [plan.peerRule] []
      exact ⟨o, hrun, by simpa [tidyStage] using hleft⟩
  | 4, _ =>
      obtain ⟨o, hrun, hleft⟩ := both [plan.peerRule, plan.httpsRule] []
      exact ⟨o, hrun, by simpa [tidyStage] using hleft⟩
  | 5, _ =>
      obtain ⟨o, hrun, hleft⟩ := both (stagedRules plan .filter) []
      exact ⟨o, hrun, by simpa [tidyStage, stagedRules] using hleft⟩
  | 6, _ =>
      obtain ⟨o, hrun, hleft⟩ := both (stagedRules plan .filter) (stagedRules plan .nat)
      exact ⟨o, hrun, by simpa [tidyStage, stagedRules] using hleft⟩

include hbase in
/-- The stage as a whole. -/
theorem run_stage :
    Program.run (HostCall.sem obs fails)
        (FirewallCommands.runCounting .activate 0 (FirewallCommands.ofPlan plan).stage)
        (hostWith base plan wg0 (owned .absent .absent)) =
      match (FirewallCommands.ofPlan plan).stage.findIdx? fun c => !succeeds fails .activate c with
      | some k => (hostWith base plan wg0 (stagedChains plan k),
          (k, (FirewallCommands.ofPlan plan).stage[k]?))
      | none => (hostWith base plan wg0 (stagedChains plan 6), (6, none)) := by
  have hchain := run_counting_chain obs fails (stagedChains plan) wg0 .activate
    (FirewallCommands.ofPlan plan).stage 0 (by simpa using stage_step plan hbase)
  have hlength : (FirewallCommands.ofPlan plan).stage.length = 6 := rfl
  simp only [hlength, Nat.zero_add] at hchain
  exact hchain

variable (base) in
/-- The jumps as a whole. -/
theorem run_activate :
    Program.run (HostCall.sem obs fails)
        (FirewallCommands.runCounting .activate 0 (FirewallCommands.ofPlan plan).activate)
        (hostWith base plan wg0 (stagedChains plan 6)) =
      if !(succeeds fails .activate (insertJump plan .nat) && has (base .nat) (hostChain .nat)) then
        (hostWith base plan wg0 (stagedChains plan 6), (0, some (insertJump plan .nat)))
      else if !(succeeds fails .activate (insertJump plan .filter) &&
          has (base .filter) (hostChain .filter)) then
        (hostWith base plan wg0 (natAttached plan), (1, some (insertJump plan .filter)))
      else (hostWith base plan wg0 (installed plan), (2, none)) := by
  have hnat : stagedChains plan 6 .nat = ⟨some (stagedRules plan .nat), false⟩ := rfl
  have hfilter : natAttached plan .filter = ⟨some (stagedRules plan .filter), false⟩ := rfl
  have hupdate : Function.update (stagedChains plan 6) .nat ⟨some (stagedRules plan .nat), true⟩ =
      natAttached plan := update_owned_nat _ _ _
  have hinstalled : Function.update (natAttached plan) .filter
      ⟨some (stagedRules plan .filter), true⟩ = installed plan := update_owned_filter _ _ _
  rw [FirewallCommands.ofPlan_eq, run_counting_insert hnat, hupdate, run_counting_insert hfilter,
    hinstalled]
  cases succeeds fails .activate (insertJump plan .nat) && has (base .nat) (hostChain .nat) with
  | false =>
      rfl
  | true =>
      cases succeeds fails .activate (insertJump plan .filter) &&
          has (base .filter) (hostChain .filter) with
      | false =>
          rfl
      | true =>
          rfl

/-- The NAT jump is detached when the other one failed. -/
theorem run_detachAttached (hhas : has (base .nat) (hostChain .nat) = true) :
    Program.run (HostCall.sem obs fails) ((FirewallCommands.ofPlan plan).detachAttached 1)
        (hostWith base plan wg0 (natAttached plan)) =
      if succeeds fails .activate (deleteJump plan .nat) then
        (hostWith base plan wg0 (stagedChains plan 6), [])
      else (hostWith base plan wg0 (natAttached plan), [deleteJump plan .nat]) := by
  have hnat : natAttached plan .nat = ⟨some (stagedRules plan .nat), true⟩ := rfl
  have hdelete : (deleteJump plan .nat).run (base.withOwned plan (natAttached plan)) =
      some (base.withOwned plan (stagedChains plan 6)) := by
    rw [delete_run plan hnat hhas]
    exact congrArg (fun o => some (base.withOwned plan o)) (update_owned_nat _ _ _)
  have hlist : (FirewallCommands.ofPlan plan).detachAttached 1 =
      FirewallCommands.runCollecting .activate [deleteJump plan .nat] := rfl
  rw [hlist]
  simp only [FirewallCommands.runCollecting, Program.run_bind, run_runCommand hdelete]
  cases succeeds fails .activate (deleteJump plan .nat) <;> rfl

include hbase in
/-- `install` succeeds, or what it leaves depends on its own clean-up. -/
theorem run_install :
    let r := Program.run (HostCall.sem obs fails) (FirewallCommands.ofPlan plan).install
      (hostWith base plan wg0 (owned .absent .absent))
    let tidy := installTidy plan (succeeds fails .activate) fun t => has (base t) (hostChain t)
    (r = (hostWith base plan wg0 (installed plan), .ok ()) ∧ tidy = true ∧
        ∀ t, has (base t) (hostChain t) = true) ∨
      ∃ e o, r = (hostWith base plan wg0 o, .error e) ∧ Leaves o tidy := by
  intro r tidy
  have hstage := run_stage obs fails plan hbase wg0
  cases hfirst : (FirewallCommands.ofPlan plan).stage.findIdx? fun c =>
      !succeeds fails .activate c with
  | some k =>
      have hk : k < (FirewallCommands.ofPlan plan).stage.length :=
        (List.findIdx?_eq_some_iff_getElem.mp hfirst).1
      rw [hfirst] at hstage
      simp only [List.getElem?_eq_getElem hk] at hstage
      obtain ⟨o, hrun, hleft⟩ := run_cleanupStage obs fails plan hbase wg0 k hk.le
      have hinstall := run_install_stage hstage
      rw [hrun] at hinstall
      refine .inr ⟨_, o, hinstall, ?_⟩
      simpa only [tidy, installTidy, hfirst] using hleft
  | none =>
      rw [hfirst] at hstage
      have hactivate := run_activate obs fails base plan wg0
      have htidy : tidy =
          if !(succeeds fails .activate (insertJump plan .nat) &&
              has (base .nat) (hostChain .nat)) then tidyStage (succeeds fails .activate) 6
          else if !(succeeds fails .activate (insertJump plan .filter) &&
              has (base .filter) (hostChain .filter)) then
            succeeds fails .activate (deleteJump plan .nat) &&
              tidyStage (succeeds fails .activate) 6
          else true := by
        simp only [tidy, installTidy, hfirst]
      obtain ⟨o, hcleanup, hleft⟩ := run_cleanupStage obs fails plan hbase wg0 6 le_rfl
      cases hnat : succeeds fails .activate (insertJump plan .nat) &&
          has (base .nat) (hostChain .nat) with
      | false =>
          rw [hnat] at hactivate htidy
          have hinstall := run_install_activate hstage hactivate
          refine .inr ⟨_, o, hinstall.trans (Prod.ext hcleanup rfl), ?_⟩
          rw [htidy]
          exact hleft
      | true =>
          rw [hnat] at hactivate htidy
          cases hfilter : succeeds fails .activate (insertJump plan .filter) &&
              has (base .filter) (hostChain .filter) with
          | false =>
              rw [hfilter] at hactivate htidy
              have hinstall := run_install_activate hstage hactivate
              rw [run_detachAttached obs fails plan wg0 (Bool.and_eq_true_iff.mp hnat).2]
                at hinstall
              cases hdelete : succeeds fails .activate (deleteJump plan .nat) with
              | false =>
                  rw [hdelete] at hinstall htidy
                  refine .inr ⟨_, natAttached plan, hinstall, .inr ⟨htidy, .nat, ?_⟩⟩
                  simp [natAttached]
              | true =>
                  rw [hdelete] at hinstall htidy
                  refine .inr ⟨_, o, hinstall.trans (Prod.ext hcleanup rfl), ?_⟩
                  rw [htidy]
                  exact hleft
          | true =>
              rw [hfilter] at hactivate htidy
              refine .inl ⟨run_install_ok hstage hactivate, htidy, ?_⟩
              rintro (_ | _)
              · exact (Bool.and_eq_true_iff.mp hfilter).2
              · exact (Bool.and_eq_true_iff.mp hnat).2

/-- The chains before the `k`-th command of `uninstall`. -/
def uninstallChains (plan : HostForwardPlan) : Nat → Owned
  | 0 => installed plan
  | 1 => natAttached plan
  | 2 => stagedChains plan 6
  | 3 => owned ⟨some [], false⟩ ⟨some (stagedRules plan .nat), false⟩
  | 4 => owned .absent ⟨some (stagedRules plan .nat), false⟩
  | 5 => owned .absent ⟨some [], false⟩
  | _ => owned .absent .absent

include hbase in
/-- Every command of `uninstall` leads to the next chains. -/
theorem uninstall_step (hhas : ∀ t, has (base t) (hostChain t) = true) (k : Nat)
    (c : FirewallCommand)
    (hc : ((FirewallCommands.ofPlan plan).detach ++ (FirewallCommands.ofPlan plan).cleanup)[k]? =
      some c) :
    c.run (base.withOwned plan (uninstallChains plan k)) =
      some (base.withOwned plan (uninstallChains plan (k + 1))) := by
  rw [FirewallCommands.ofPlan_eq] at hc
  match k, hc with
  | 0, rfl =>
      rw [delete_run plan (show uninstallChains plan 0 .filter = ⟨some _, true⟩ from rfl)
        (hhas .filter)]
      exact congrArg (fun o => some (base.withOwned plan o)) (update_owned_filter _ _ _)
  | 1, rfl =>
      rw [delete_run plan (show uninstallChains plan 1 .nat = ⟨some _, true⟩ from rfl) (hhas .nat)]
      exact congrArg (fun o => some (base.withOwned plan o)) (update_owned_nat _ _ _)
  | 2, rfl =>
      rw [flush_run plan (hbase _ _)
        (show uninstallChains plan 2 .filter = ⟨some _, false⟩ from rfl)]
      exact congrArg (fun o => some (base.withOwned plan o)) (update_owned_filter _ _ _)
  | 3, rfl =>
      rw [remove_run plan (hbase _ _)
        (show uninstallChains plan 3 .filter = ⟨some [], false⟩ from rfl),
        if_pos rfl]
      exact congrArg (fun o => some (base.withOwned plan o)) (update_owned_filter _ _ _)
  | 4, rfl =>
      rw [flush_run plan (hbase _ _)
        (show uninstallChains plan 4 .nat = ⟨some _, false⟩ from rfl)]
      exact congrArg (fun o => some (base.withOwned plan o)) (update_owned_nat _ _ _)
  | 5, rfl =>
      rw [remove_run plan (hbase _ _)
        (show uninstallChains plan 5 .nat = ⟨some [], false⟩ from rfl),
        if_pos rfl]
      exact congrArg (fun o => some (base.withOwned plan o)) (update_owned_nat _ _ _)

include hbase in
/-- An `uninstall` that succeeds takes everything of the agent away. -/
theorem run_uninstall (hhas : ∀ t, has (base t) (hostChain t) = true)
    (hok : (Program.run (HostCall.sem obs fails) (FirewallCommands.ofPlan plan).uninstall
      (hostWith base plan wg0 (installed plan))).2 = .ok ()) :
    (Program.run (HostCall.sem obs fails) (FirewallCommands.ofPlan plan).uninstall
      (hostWith base plan wg0 (installed plan))).1 =
        hostWith base plan wg0 (owned .absent .absent) := by
  have hstep := uninstall_step plan hbase hhas
  obtain ⟨hdetached, hcleaned, hend⟩ := run_uninstall_ok hok
  have hdetach : (Program.run (HostCall.sem obs fails)
      (FirewallCommands.runCounting .rollback 0 (FirewallCommands.ofPlan plan).detach)
      (hostWith base plan wg0 (installed plan))).1 =
        hostWith base plan wg0 (stagedChains plan 6) := by
    refine run_counting_done (uninstallChains plan) (fun i c hc => hstep i c ?_) hdetached
    rwa [List.getElem?_append_left (List.getElem?_eq_some_iff.mp hc).1]
  rw [hdetach] at hcleaned hend
  rw [hend]
  refine run_counting_done (fun i => uninstallChains plan (2 + i)) (fun i c hc => ?_) hcleaned
  refine hstep (2 + i) c ?_
  have hlength : (FirewallCommands.ofPlan plan).detach.length = 2 := rfl
  rwa [List.getElem?_append_right (by omega), hlength, Nat.add_sub_cancel_left]

end Chains

end Install

namespace HostCutoverBackend

open Backend

variable {obs : Observations} {fails : HostCall → Bool} {backend : HostCutoverBackend}

/-- Without anything installed, `rollback` has nothing to do. -/
theorem exec_rollback_unchanged (host : Host) (b : CutoverState)
    (hwg : b.wgActivationAttempted = false) (hfirewall : b.firewallInstalled = false) :
    exec (HostCall.sem obs fails) backend.rollback (host, b) =
      ((host, { b with staged := none }), .ok ()) := by
  simp [rollback, exec_bind, hwg, hfirewall]

/-- An installed firewall, and wg0 when it was created. -/
structure Active (base : Firewall) (plan : HostForwardPlan) (w : Host × CutoverState) : Prop where
  firewall : w.1.firewall = base.withOwned plan (installed plan)
  wg0 : w.2.wg0Created = w.1.wg0.isSome
  firewallInstalled : w.2.firewallInstalled = true
  wgActivationAttempted : w.2.wgActivationAttempted = true

section Active

variable {base : Firewall} {plan : HostForwardPlan} {w : Host × CutoverState}

/-- A command on an interface that exists. -/
theorem active_runHost (f : Wg0 → Wg0) {cmd : HostCmd}
    (hcmd : ∀ host, (cmd.exec obs host).1 = (host.onWg0 f).1)
    (hw : Active base plan w ∧ w.2.wg0Created = true) :
    Active base plan (exec (HostCall.sem obs fails) (runHost .activate cmd) w).1 ∧
      (exec (HostCall.sem obs fails) (runHost .activate cmd) w).1.2.wg0Created = true := by
  obtain ⟨hw, hcreated⟩ := hw
  obtain ⟨wg0, hwg0⟩ := Option.isSome_iff_exists.mp (hw.wg0 ▸ hcreated)
  rw [exec_runHost]
  refine ⟨⟨?_, ?_, hw.firewallInstalled, hw.wgActivationAttempted⟩, hcreated⟩
  · rcases HostCall.sem_cases obs fails ⟨.activate, cmd⟩ w.1 with ⟨-, h⟩ | ⟨-, h⟩
    · rw [h]
      exact hw.firewall
    · rw [h, hcmd]
      simp [Host.onWg0, hwg0, hw.firewall]
  · rcases HostCall.sem_cases obs fails ⟨.activate, cmd⟩ w.1 with ⟨-, h⟩ | ⟨-, h⟩
    · rw [h]
      exact hw.wg0
    · rw [h, hcmd]
      simp [Host.onWg0, hwg0, hcreated]

theorem active_activateWg0 (hw : Active base plan w) (config : SensitiveWgConfig) :
    Active base plan (exec (HostCall.sem obs fails) (activateWg0 config) w).1 := by
  -- the commands after `ip link add`
  have hrest : ∀ w, Active base plan w ∧ w.2.wg0Created = true →
      Active base plan (exec (HostCall.sem obs fails) (do
        runHost .activate .addressAdd
        runHost .activate (.setconf config)
        runHost .activate .linkUp) w).1 := by
    intro w hw
    refine (exec_bind_keeps _ (P := fun w => Active base plan w ∧ w.2.wg0Created = true)
      (active_runHost _ (fun _ => rfl) hw) fun _ w hw => ?_).1
    refine exec_bind_keeps _ (P := fun w => Active base plan w ∧ w.2.wg0Created = true)
      (active_runHost _ (fun _ => rfl) hw) fun _ w hw => ?_
    exact active_runHost _ (fun _ => rfl) hw
  unfold activateWg0
  rw [exec_bind, exec_runHost]
  rcases HostCall.sem_cases obs fails ⟨.activate, .linkAdd⟩ w.1 with ⟨-, h⟩ | ⟨-, h⟩
  · rw [h]
    exact hw
  · rw [h]
    cases hwg0 : w.1.wg0 with
    | some wg0 =>
        simp only [HostCmd.exec, hwg0]
        exact hw
    | none =>
        simp only [HostCmd.exec, hwg0]
        exact hrest ({ w.1 with wg0 := some ⟨false, none, false⟩ }, { w.2 with wg0Created := true })
          ⟨⟨hw.firewall, rfl, hw.firewallInstalled, hw.wgActivationAttempted⟩, rfl⟩

theorem active_verify (hw : Active base plan w) (candidate : DesiredState) :
    Active base plan (exec (HostCall.sem obs fails) (verify candidate) w).1 := by
  unfold verify
  refine exec_bind_keeps _ hw fun b w hw => ?_
  refine exec_bind_keeps _ (by simpa using hw) fun _ w hw => ?_
  refine exec_bind_keeps _ (by simpa using hw) fun _ w hw => ?_
  rw [exec_ofProgram, Program.run_call, Program.run_ret]
  rcases HostCall.sem_cases obs fails ⟨.verify, .wireguardState candidate⟩ w.1 with
    ⟨-, h⟩ | ⟨-, h⟩
  · rw [h]
    exact hw
  · rw [h]
    exact hw

variable (obs fails) in
theorem exec_removeWg0 (hw : Active base plan w)
    (hok : (exec (HostCall.sem obs fails) removeWg0 w).2 = .ok ()) :
    (exec (HostCall.sem obs fails) removeWg0 w).1.1 = hostWith base plan none (installed plan) ∧
      (exec (HostCall.sem obs fails) removeWg0 w).1.2.firewallInstalled = true := by
  obtain ⟨⟨wg0, firewall⟩, b⟩ := w
  obtain ⟨rfl, hcreated, hinstalled, -⟩ := hw
  unfold removeWg0 at hok ⊢
  rw [exec_bind, exec_get] at hok ⊢
  cases wg0 with
  | none =>
      replace hcreated : b.wg0Created = false := hcreated
      simp only [hcreated]
      exact ⟨rfl, hinstalled⟩
  | some wg0 =>
      replace hcreated : b.wg0Created = true := hcreated
      simp only [hcreated, ite_true, exec_bind, exec_ofProgram, Program.run_call,
        Program.run_ret] at hok ⊢
      rcases HostCall.sem_cases obs fails ⟨.rollback, .linkDelete⟩
          { wg0 := some wg0, firewall := base.withOwned plan (installed plan) } with
        ⟨-, h⟩ | ⟨-, h⟩
      · rw [h] at hok
        cases hok
      · rw [h]
        exact ⟨rfl, hinstalled⟩

/-- A rollback that succeeds undoes an installed firewall and a created wg0. -/
theorem exec_rollback_active (hbase : base.Clean)
    (hhas : ∀ t, has (base t) (hostChain t) = true)
    (hw : Active base backend.networkPlan w)
    (hok : (exec (HostCall.sem obs fails) backend.rollback w).2 = .ok ()) :
    (exec (HostCall.sem obs fails) backend.rollback w).1.1 = { wg0 := none, firewall := base } := by
  have hremoved := exec_removeWg0 obs fails hw
  have huninstall := run_uninstall obs fails backend.networkPlan hbase none hhas
  unfold rollback at hok ⊢
  simp only [exec_bind, exec_get, hw.wgActivationAttempted, ite_true] at hok ⊢
  rcases hremove : exec (HostCall.sem obs fails) removeWg0 w with ⟨⟨host, b⟩, e | u⟩
  · rw [hremove] at hok
    cases hok
  · rw [hremove] at hok hremoved
    obtain ⟨rfl, hinstalled⟩ := hremoved rfl
    simp only [exec_modify, show b.firewallInstalled = true from hinstalled, ite_true,
      exec_bind, exec_ofProgram, backend.firewall_eq] at hok ⊢
    rcases hrun : Program.run (HostCall.sem obs fails)
        (FirewallCommands.ofPlan backend.networkPlan).uninstall
        (hostWith base backend.networkPlan none (installed backend.networkPlan)) with
      ⟨host', e | u⟩
    · rw [hrun] at hok
      cases hok
    · rw [hrun] at huninstall
      obtain rfl : host' = _ := huninstall rfl
      simp only [hostWith, withOwned_absent]

end Active

section Checks

variable (obs fails backend)

/-- The checks of `snapshot` and of `activate`. -/
def checksPass (phase : CutoverPhase) (host : Host) : Bool :=
  (!fails ⟨phase, .cutoverReady backend.networkPlan⟩ &&
      (obs.cutoverReady backend.networkPlan host).isOk) &&
    ((!fails ⟨phase, .wg0Exists⟩ && obs.wg0Exists host == some false) &&
      (!fails ⟨phase, .iptablesSave⟩ && (obs.iptablesSave host).any fun text =>
        !(containsText text filterChain || containsText text natChain)))

/-- A method that changes nothing and succeeds when `c` holds. -/
def Checks (p : Backend Unit) (w : Host × CutoverState) (c : Bool) : Prop :=
  ∃ e, exec (HostCall.sem obs fails) p w = (w, if c then .ok () else .error e)

variable {obs fails}

theorem Checks.bind {p q : Backend Unit} {w : Host × CutoverState} {c d : Bool}
    (hp : Checks obs fails p w c) (hq : Checks obs fails q w d) :
    Checks obs fails (p >>= fun _ => q) w (c && d) := by
  obtain ⟨e, hp⟩ := hp
  obtain ⟨e', hq⟩ := hq
  unfold Checks
  rw [Backend.exec_bind, hp]
  cases c with
  | false =>
      exact ⟨e, rfl⟩
  | true =>
      exact ⟨e', hq⟩

/-- A method after a check. -/
theorem Checks.exec_bind {p q : Backend Unit} {w : Host × CutoverState} {c : Bool}
    (hp : Checks obs fails p w c) :
    ∃ e, exec (HostCall.sem obs fails) (p >>= fun _ => q) w =
      if c then exec (HostCall.sem obs fails) q w else (w, .error e) := by
  obtain ⟨e, hp⟩ := hp
  refine ⟨e, ?_⟩
  rw [Backend.exec_bind, hp]
  cases c <;> rfl

variable (obs fails)

theorem checks_requireCurrentNetworkPlan (phase : CutoverPhase) (w : Host × CutoverState) :
    Checks obs fails (backend.requireCurrentNetworkPlan phase) w
      (!fails ⟨phase, .cutoverReady backend.networkPlan⟩ &&
        (obs.cutoverReady backend.networkPlan w.1).isOk) := by
  unfold requireCurrentNetworkPlan Checks
  rw [exec_ofProgram, Program.run_call, Program.run_ret]
  rcases HostCall.sem_cases obs fails ⟨phase, .cutoverReady backend.networkPlan⟩ w.1 with
    ⟨hf, h⟩ | ⟨hf, h⟩
  · rw [h, hf]
    exact ⟨_, rfl⟩
  · rw [h, hf]
    simp only [HostCmd.exec]
    cases obs.cutoverReady backend.networkPlan w.1 with
    | error message =>
        exact ⟨_, rfl⟩
    | ok u =>
        exact ⟨.check "", rfl⟩

theorem checks_requireAbsentWg0 (phase : CutoverPhase) (w : Host × CutoverState) :
    Checks obs fails (requireAbsentWg0 phase) w
      (!fails ⟨phase, .wg0Exists⟩ && obs.wg0Exists w.1 == some false) := by
  unfold requireAbsentWg0 Checks
  rw [exec_ofProgram, Program.run_call, Program.run_ret]
  rcases HostCall.sem_cases obs fails ⟨phase, .wg0Exists⟩ w.1 with ⟨hf, h⟩ | ⟨hf, h⟩
  · rw [h, hf]
    exact ⟨_, rfl⟩
  · rw [h, hf]
    simp only [HostCmd.exec]
    rcases obs.wg0Exists w.1 with _ | _ | _
    · exact ⟨_, rfl⟩
    · exact ⟨.check "", rfl⟩
    · exact ⟨_, rfl⟩

theorem checks_requireAbsentOwnedFirewall (phase : CutoverPhase) (w : Host × CutoverState) :
    Checks obs fails (requireAbsentOwnedFirewall phase) w
      (!fails ⟨phase, .iptablesSave⟩ && (obs.iptablesSave w.1).any fun text =>
        !(containsText text filterChain || containsText text natChain)) := by
  unfold requireAbsentOwnedFirewall Checks
  rw [exec_ofProgram, Program.run_call, Program.run_ret]
  rcases HostCall.sem_cases obs fails ⟨phase, .iptablesSave⟩ w.1 with ⟨hf, h⟩ | ⟨hf, h⟩
  · rw [h, hf]
    exact ⟨_, rfl⟩
  · rw [h, hf]
    simp only [HostCmd.exec]
    rcases obs.iptablesSave w.1 with _ | text
    · exact ⟨_, rfl⟩
    · refine ⟨.check "VPN-owned firewall rules already exist", ?_⟩
      cases h1 : containsText text filterChain <;> cases h2 : containsText text natChain <;>
        simp [h1, h2]

/-- The checks as a whole. -/
theorem checks_all (phase : CutoverPhase) (w : Host × CutoverState) :
    Checks obs fails (do
      backend.requireCurrentNetworkPlan phase
      requireAbsentWg0 phase
      requireAbsentOwnedFirewall phase) w (checksPass obs fails backend phase w.1) :=
  (checks_requireCurrentNetworkPlan obs fails backend phase w).bind
    ((checks_requireAbsentWg0 obs fails phase w).bind
      (checks_requireAbsentOwnedFirewall obs fails phase w))

theorem checks_snapshot (host : Host) :
    Checks obs fails backend.snapshot (host, .new)
      (checksPass obs fails backend .snapshot host) := by
  obtain ⟨e, h⟩ := checks_all obs fails backend .snapshot (host, .new)
  refine ⟨e, ?_⟩
  rw [← h]
  unfold snapshot
  simp only [Backend.exec_bind, exec_get, exec_check, CutoverState.new, Bool.not_false,
    Bool.and_true, ite_true]

end Checks

section Rollback

variable (obs fails backend) (digest : DesiredState → String) (candidate : DesiredState)

/-- The attempt gets to the installation of the firewall: all checks pass and the
candidate can be staged. -/
def reachesInstall (host : Host) : Bool :=
  checksPass obs fails backend .snapshot host &&
    (candidate.serverPublicKey == backend.serverPublicKey &&
      (render digest candidate backend.serverPrivateKey).isOk) &&
    checksPass obs fails backend .activate host

/-- Every clean-up command that the installation needs when it fails is carried
out. -/
def cleansUp (host : Host) : Bool :=
  installTidy backend.networkPlan (succeeds fails .activate) fun t =>
    has (host.firewall t) (hostChain t)

/-- Whenever the rollback returns `Ok`, the host is clean. -/
def RollbackComplete (host : Host) : Prop :=
  let r := exec (HostCall.sem obs fails) (backend.applyRolledBack digest candidate) (host, .new)
  r.2 = .ok () → r.1.1.Clean

theorem exec_stage (host : Host) :
    (∃ config, (candidate.serverPublicKey == backend.serverPublicKey &&
          (render digest candidate backend.serverPrivateKey).isOk) = true ∧
        exec (HostCall.sem obs fails) (backend.stage digest candidate) (host, .new) =
          ((host, { CutoverState.new with staged := some config }), .ok ())) ∨
      ∃ e, (candidate.serverPublicKey == backend.serverPublicKey &&
          (render digest candidate backend.serverPrivateKey).isOk) = false ∧
        exec (HostCall.sem obs fails) (backend.stage digest candidate) (host, .new) =
          ((host, .new), .error e) := by
  unfold stage
  rw [Backend.exec_bind, exec_check]
  cases candidate.serverPublicKey == backend.serverPublicKey with
  | false =>
      exact .inr ⟨_, rfl, rfl⟩
  | true =>
      cases render digest candidate backend.serverPrivateKey with
      | error message =>
          exact .inr ⟨_, rfl, rfl⟩
      | ok config =>
          exact .inl ⟨config, rfl, rfl⟩

variable {digest candidate}

/-- `activate` stops at a check, fails to install the firewall, or gets through to
wg0. -/
theorem exec_activate (host : Host) (hclean : host.Clean) (config : SensitiveWgConfig) :
    let b := { CutoverState.new with staged := some config }
    let r := exec (HostCall.sem obs fails) backend.activate (host, b)
    (∃ e, checksPass obs fails backend .activate host = false ∧ r = ((host, b), .error e)) ∨
    (∃ e o, checksPass obs fails backend .activate host = true ∧
      r = ((hostWith host.firewall backend.networkPlan none o, b), .error e) ∧
      Leaves o (cleansUp fails backend host)) ∨
    (cleansUp fails backend host = true ∧
      (∀ t, has (host.firewall t) (hostChain t) = true) ∧
      Active host.firewall backend.networkPlan r.1) := by
  intro b r
  obtain ⟨hwg0, hfw⟩ := hclean
  have hhost : host = hostWith host.firewall backend.networkPlan none (owned .absent .absent) := by
    obtain ⟨wg0, firewall⟩ := host
    subst hwg0
    simp only [hostWith, withOwned_absent]
  obtain ⟨e, hchecks⟩ := (checks_all obs fails backend .activate (host, b)).exec_bind
    (q := do
      ofProgram backend.firewall.install
      modify fun b => { b with firewallInstalled := true, wgActivationAttempted := true }
      activateWg0 config)
  simp only [bind_assoc] at hchecks
  have hr := (show r = _ from rfl).trans hchecks
  cases hpass : checksPass obs fails backend .activate host with
  | false =>
      rw [hpass] at hr
      exact .inl ⟨e, rfl, hr⟩
  | true =>
      rw [hpass, if_pos rfl, Backend.exec_bind, exec_ofProgram, backend.firewall_eq] at hr
      rcases run_install obs fails backend.networkPlan hfw none with
        ⟨hinstall, htidy, hhas⟩ | ⟨e, o, hinstall, hleft⟩
      · rw [← hhost] at hinstall
        rw [hinstall] at hr
        refine .inr (.inr ⟨htidy, hhas, ?_⟩)
        have hactive : Active host.firewall backend.networkPlan
            (hostWith host.firewall backend.networkPlan none (installed backend.networkPlan),
              { b with firewallInstalled := true, wgActivationAttempted := true }) :=
          ⟨rfl, rfl, rfl, rfl⟩
        rw [hr]
        exact active_activateWg0 hactive config
      · rw [← hhost] at hinstall
        rw [hinstall] at hr
        exact .inr (.inl ⟨e, o, rfl, hr, hleft⟩)

/-- What an attempt leaves before its rollback: an unchanged host, the remains of
a failed installation, or an active cutover. -/
theorem attempt_cases (host : Host) (hclean : host.Clean) :
    let w := (exec (HostCall.sem obs fails) (do
      backend.stage digest candidate
      backend.activate
      verify candidate) (host, .new)).1
    let reached := (candidate.serverPublicKey == backend.serverPublicKey &&
      (render digest candidate backend.serverPrivateKey).isOk) &&
        checksPass obs fails backend .activate host
    (w.2.wgActivationAttempted = false ∧ w.2.firewallInstalled = false ∧
      ((reached = false ∧ w.1 = host) ∨
        (reached = true ∧ ∃ o, w.1 = hostWith host.firewall backend.networkPlan none o ∧
            Leaves o (cleansUp fails backend host)))) ∨
    (cleansUp fails backend host = true ∧
      (∀ t, has (host.firewall t) (hostChain t) = true) ∧
      Active host.firewall backend.networkPlan w) := by
  intro w reached
  rcases exec_stage obs fails backend digest candidate host with
    ⟨config, hstaged, hstage⟩ | ⟨e, hstaged, hstage⟩
  · have hw : w = (exec (HostCall.sem obs fails) (do
        backend.activate
        verify candidate) (host, { CutoverState.new with staged := some config })).1 := by
      simp only [w, Backend.exec_bind, hstage]
    have hreached : reached = checksPass obs fails backend .activate host := by
      simp only [reached, hstaged, Bool.true_and]
    rw [Backend.exec_bind] at hw
    rcases exec_activate obs fails backend host hclean config with
      ⟨e, hpass, h⟩ | ⟨e, o, hpass, h, hleft⟩ | ⟨htidy, hhas, hactive⟩
    · rw [h] at hw
      rw [hw, hreached]
      exact .inl ⟨rfl, rfl, .inl ⟨hpass, rfl⟩⟩
    · rw [h] at hw
      rw [hw, hreached]
      exact .inl ⟨rfl, rfl, .inr ⟨hpass, o, rfl, hleft⟩⟩
    · refine .inr ⟨htidy, hhas, ?_⟩
      rw [hw, ← Backend.exec_bind]
      exact exec_bind_keeps _ hactive fun _ w hw => active_verify hw candidate
  · have hw : w = (host, .new) := by
      simp only [w, Backend.exec_bind, hstage]
    have hreached : reached = false := by
      simp only [reached, hstaged, Bool.false_and]
    rw [hw]
    exact .inl ⟨rfl, rfl, .inl ⟨hreached, rfl⟩⟩

/-- What the rollback of an attempt finds. -/
theorem exec_applyRolledBack (host : Host) :
    ∃ e, exec (HostCall.sem obs fails) (backend.applyRolledBack digest candidate) (host, .new) =
      if checksPass obs fails backend .snapshot host then
        exec (HostCall.sem obs fails) backend.rollback
          (exec (HostCall.sem obs fails) (do
            backend.stage digest candidate
            backend.activate
            verify candidate) (host, .new)).1
      else ((host, .new), .error e) := by
  obtain ⟨e, h⟩ := (checks_snapshot obs fails backend host).exec_bind
    (q := do
      let _ ← outcome do
        backend.stage digest candidate
        backend.activate
        verify candidate
      backend.rollback)
  refine ⟨e, ?_⟩
  unfold applyRolledBack
  rw [h, Backend.exec_bind, exec_outcome]

/-- A rollback that returns `Ok` leaves a clean host exactly when the attempt did
not get to the installation of the firewall or the installation, if it failed,
cleaned up after itself. -/
theorem rollback_complete_iff (host : Host) (hclean : host.Clean) :
    RollbackComplete obs fails backend digest candidate host ↔
      (reachesInstall obs fails backend digest candidate host = true →
        cleansUp fails backend host = true) := by
  obtain ⟨e, hrun⟩ := exec_applyRolledBack obs fails backend host
  unfold RollbackComplete reachesInstall
  rw [hrun]
  cases hsnapshot : checksPass obs fails backend .snapshot host with
  | false =>
      simp
  | true =>
      rw [if_pos rfl, Bool.true_and]
      rcases attempt_cases obs fails backend host hclean with
        ⟨hwg, hfirewall, hleaves⟩ | ⟨htidy, hhas, hactive⟩
      · rw [exec_rollback_unchanged _ _ hwg hfirewall]
        rcases hleaves with ⟨hreached, hhost⟩ | ⟨hreached, o, hhost, htidy⟩
        · rw [hreached]
          simpa [hhost] using hclean
        · rw [hreached, hhost]
          have hiff := clean_iff_of_leaves backend.networkPlan hclean.2 htidy
          exact ⟨fun h _ => hiff.mp (h rfl), fun h _ => hiff.mpr (h rfl)⟩
      · refine ⟨fun _ _ => htidy, fun _ hok => ?_⟩
        rw [exec_rollback_active hclean.2 hhas hactive hok]
        exact ⟨rfl, hclean.2⟩

end Rollback

section Sample

/-- A plan for a published HTTPS service. -/
def samplePlan : HostForwardPlan where
  peerToPeerCidr := "10.0.0.0/22"
  httpsTarget := 0xac120002
  httpsBridge := "br-web"
  httpsSnatSource := 0xac120001
  dropOtherWgForward := true

def samplePrivateKey : String := "AQEBAQEBAQEBAQEBAQEBAQEBAQEBAQEBAQEBAQEBAQE="

def samplePublicKey : String := "AgICAgICAgICAgICAgICAgICAgICAgICAgICAgICAgI="

def sampleBackend : HostCutoverBackend where
  networkPlan := samplePlan
  firewall := .ofPlan samplePlan
  serverPrivateKey := samplePrivateKey
  serverPublicKey := samplePublicKey
  compiled := by decide

def sampleCandidate : DesiredState where
  revision := 1
  serverPublicKey := samplePublicKey
  peers := []

/-- A host with Docker's chains. -/
def sampleHost : Host where
  wg0 := none
  firewall
    | .filter => [⟨"FORWARD", [⟨[], .jump "DOCKER-USER"⟩]⟩, ⟨"DOCKER-USER", []⟩]
    | .nat => [⟨"POSTROUTING", []⟩]

/-- What the probes see there. -/
def sampleObservations : Observations where
  cutoverReady _ _ := .ok ()
  wg0Exists host := some host.wg0.isSome
  iptablesSave _ := some "*filter\n-A FORWARD -j DOCKER-USER\nCOMMIT\n*nat\nCOMMIT\n"
  wireguardState _ _ := .ok ()

theorem sampleHost_clean : sampleHost.Clean := by
  refine ⟨rfl, fun t t' => ?_⟩
  cases t <;> cases t' <;> (unfold Unowned; decide)

/-- The second chain cannot be created, and the first one cannot be deleted. -/
def sampleFailures (c : HostCall) : Bool :=
  c == ⟨.activate, .iptables (createChain .nat)⟩ ||
    c == ⟨.activate, .iptables (removeChain .filter)⟩

theorem rollback_leaves_chain :
    sampleHost.Clean ∧ ¬ RollbackComplete sampleObservations sampleFailures sampleBackend
      (fun _ => "") sampleCandidate sampleHost := by
  refine ⟨sampleHost_clean, fun h => ?_⟩
  have hclean := h (by decide)
  have hchain : has ((exec (HostCall.sem sampleObservations sampleFailures)
      (sampleBackend.applyRolledBack (fun _ => "") sampleCandidate)
      (sampleHost, .new)).1.1.firewall .filter) (ownedChain .filter) = true := by decide
  rw [(hclean.2 .filter .filter).not_has] at hchain
  cases hchain

theorem rollback_complete_sample :
    sampleHost.Clean ∧ RollbackComplete sampleObservations (fun _ => false) sampleBackend
      (fun _ => "") sampleCandidate sampleHost :=
  ⟨sampleHost_clean,
    (rollback_complete_iff sampleObservations (fun _ => false) sampleBackend sampleHost
      sampleHost_clean).mpr fun _ => by decide⟩

end Sample


end HostCutoverBackend

end HostAgent
end ZeroVpn
