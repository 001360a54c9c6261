import Mathlib.Data.List.Basic
import Mathlib.Logic.Function.Basic
import ZeroVpn.HostAgent.State

/-!
# The firewall commands of the host agent

`crates/zerovpn-host-agent/src/firewall_executor.rs`: the commands that
`FirewallCommands::from_plan` compiles from a forwarding plan, over a model of
the two `iptables` tables they touch.

A table is a list of chains of rules.  A command answers nothing when it is
refused: `-N` for a chain that exists; `-A`, `-I`, `-D` and `-F` for a chain
that does not; `-A` and `-I` for a jump to a chain that does not exist; `-D`
for a rule that is not there; `-X` for a chain that has rules or to which a
rule jumps.

The agent owns one chain in each table and one jump to it.  `withOwned` puts
chains and jumps into a firewall that has none, and every command of a plan is
described by what it does to that addition.
-/

namespace ZeroVpn
namespace HostAgent

inductive Table where
  | filter
  | nat
  deriving DecidableEq, Repr

inductive Target where
  /-- A built-in target or an extension, with its options. -/
  | verdict (name : String) (options : List String)
  | jump (chain : String)
  deriving DecidableEq, Repr

/-- A rule: the tokens of its match, and `-j`. -/
structure Rule where
  spec : List String
  target : Target
  deriving DecidableEq, Repr

structure Chain where
  name : String
  rules : List Rule
  deriving DecidableEq, Repr

namespace Chain

/-- The table has a chain of this name. -/
def has (chains : List Chain) (name : String) : Bool := chains.any fun c => c.name == name

/-- Change the rules of a chain. -/
def modify (chains : List Chain) (name : String) (f : List Rule → List Rule) : List Chain :=
  chains.map fun c => if c.name == name then { c with rules := f c.rules } else c

/-- A jump needs its chain. -/
def admits (chains : List Chain) (r : Rule) : Bool :=
  match r.target with
  | .verdict .. => true
  | .jump chain => has chains chain

/-- No rule jumps to the chain. -/
def unreferenced (chains : List Chain) (name : String) : Bool :=
  chains.all fun c => c.rules.all fun r => r.target != .jump name

end Chain

/-- The changes of a table. -/
inductive ChainOp where
  /-- `-N`. -/
  | create (chain : String)
  /-- `-A`. -/
  | append (chain : String) (rule : Rule)
  /-- `-I chain 1`. -/
  | insert (chain : String) (rule : Rule)
  /-- `-D`. -/
  | delete (chain : String) (rule : Rule)
  /-- `-F`. -/
  | flush (chain : String)
  /-- `-X`. -/
  | remove (chain : String)
  deriving DecidableEq, Repr

open Chain in
/-- What `iptables` does to the table. -/
def ChainOp.run (chains : List Chain) : ChainOp → Option (List Chain)
  | create name => if has chains name then none else some (chains ++ [⟨name, []⟩])
  | append name r =>
      if has chains name && admits chains r then some (modify chains name (· ++ [r])) else none
  | insert name r =>
      if has chains name && admits chains r then some (modify chains name (r :: ·)) else none
  | delete name r =>
      if chains.any (fun c => c.name == name && c.rules.contains r) then
        some (modify chains name (·.erase r))
      else none
  | flush name => if has chains name then some (modify chains name fun _ => []) else none
  | remove name =>
      if has chains name && (chains.all fun c => c.name != name || c.rules.isEmpty) &&
          unreferenced chains name then
        some (chains.filter fun c => c.name != name)
      else none

structure FirewallCommand where
  table : Table
  op : ChainOp
  deriving DecidableEq, Repr

/-- The chains of each table. -/
abbrev Firewall := Table → List Chain

/-- Run a command; nothing when `iptables` refuses it. -/
def FirewallCommand.run (c : FirewallCommand) (fw : Firewall) : Option Firewall :=
  (c.op.run (fw c.table)).map (Function.update fw c.table)

/-- `HostForwardPlan` of `policy.rs`. -/
structure HostForwardPlan where
  peerToPeerCidr : String
  httpsTarget : BitVec 32
  httpsBridge : String
  httpsSnatSource : BitVec 32
  dropOtherWgForward : Bool
  deriving DecidableEq, Repr

/-- `Display` of an `Ipv4Addr`. -/
def dotted (ip : BitVec 32) : String :=
  let octet (i : Nat) : String := toString ((ip.toNat >>> (8 * (3 - i))) % 256)
  octet 0 ++ "." ++ octet 1 ++ "." ++ octet 2 ++ "." ++ octet 3

def filterChain : String := "ZEROVPN-HOST-FWD"

def natChain : String := "ZEROVPN-HOST-NAT"

/-- The chain that the agent owns in a table. -/
def ownedChain : Table → String
  | .filter => filterChain
  | .nat => natChain

/-- The chain that is given the jump. -/
def hostChain : Table → String
  | .filter => "DOCKER-USER"
  | .nat => "POSTROUTING"

structure FirewallCommands where
  stage : List FirewallCommand
  activate : List FirewallCommand
  detach : List FirewallCommand
  cleanup : List FirewallCommand
  deriving DecidableEq, Repr

namespace HostForwardPlan

variable (plan : HostForwardPlan)

/-- `target` of `from_plan`. -/
def target : String := dotted plan.httpsTarget ++ "/32"

/-- The jumps, `filter_jump` and `nat_match`. -/
def jumpRule : Table → Rule
  | .filter => { spec := ["-i", "wg0"], target := .jump filterChain }
  | .nat =>
      { spec := ["-s", plan.peerToPeerCidr, "-d", plan.target, "-o", plan.httpsBridge,
          "-p", "tcp", "--dport", "443"]
        target := .jump natChain }

def peerRule : Rule where
  spec := ["-i", "wg0", "-o", "wg0", "-s", plan.peerToPeerCidr, "-d", plan.peerToPeerCidr]
  target := .verdict "ACCEPT" []

def httpsRule : Rule where
  spec := ["-i", "wg0", "-o", plan.httpsBridge, "-s", plan.peerToPeerCidr, "-d", plan.target,
    "-p", "tcp", "--dport", "443"]
  target := .verdict "ACCEPT" []

def dropRule : Rule where
  spec := ["-i", "wg0"]
  target := .verdict "DROP" []

def snatRule : Rule where
  spec := ["-s", plan.peerToPeerCidr, "-d", plan.target, "-o", plan.httpsBridge,
    "-p", "tcp", "--dport", "443"]
  target := .verdict "SNAT" ["--to-source", dotted plan.httpsSnatSource]

/-- The name of the bridge is fit for an argument. -/
def bridgeValid : Bool :=
  plan.httpsBridge != "" && plan.httpsBridge.utf8ByteSize ≤ 15 &&
    plan.httpsBridge.toList.all fun c =>
      c.isAlphanum || c == '-' || c == '_' || c == '.'

end HostForwardPlan

namespace FirewallCommands

/-- The commands of an accepted plan. -/
def ofPlan (plan : HostForwardPlan) : FirewallCommands where
  stage :=
    [⟨.filter, .create filterChain⟩,
     ⟨.nat, .create natChain⟩,
     ⟨.filter, .append filterChain plan.peerRule⟩,
     ⟨.filter, .append filterChain plan.httpsRule⟩,
     ⟨.filter, .append filterChain HostForwardPlan.dropRule⟩,
     ⟨.nat, .append natChain plan.snatRule⟩]
  activate :=
    [⟨.nat, .insert "POSTROUTING" (plan.jumpRule .nat)⟩,
     ⟨.filter, .insert "DOCKER-USER" (plan.jumpRule .filter)⟩]
  detach :=
    [⟨.filter, .delete "DOCKER-USER" (plan.jumpRule .filter)⟩,
     ⟨.nat, .delete "POSTROUTING" (plan.jumpRule .nat)⟩]
  cleanup :=
    [⟨.filter, .flush filterChain⟩,
     ⟨.filter, .remove filterChain⟩,
     ⟨.nat, .flush natChain⟩,
     ⟨.nat, .remove natChain⟩]

/-- `from_plan`. -/
def fromPlan (plan : HostForwardPlan) : Except String FirewallCommands := do
  ensure (plan.peerToPeerCidr == "10.0.0.0/22" && plan.dropOtherWgForward)
    "unsupported forwarding policy"
  ensure plan.bridgeValid "invalid bridge interface"
  pure (ofPlan plan)

end FirewallCommands

namespace Chain

theorem has_append (a b : List Chain) (n : String) :
    has (a ++ b) n = (has a n || has b n) := List.any_append

theorem has_modify (chains : List Chain) (m n : String) (f : List Rule → List Rule) :
    has (modify chains m f) n = has chains n := by
  unfold has modify
  rw [List.any_map]
  congr 1
  funext c
  by_cases hc : c.name = m
  · simp [hc]
  · simp [hc]

theorem modify_append (a b : List Chain) (n : String) (f : List Rule → List Rule) :
    modify (a ++ b) n f = modify a n f ++ modify b n f := List.map_append

/-- Only chains of the name change. -/
theorem modify_of_not_has {chains : List Chain} {n : String} (f : List Rule → List Rule)
    (h : has chains n = false) : modify chains n f = chains := by
  unfold modify
  conv_rhs => rw [← List.map_id chains]
  refine List.map_congr_left fun c hc => ?_
  have hname := List.any_eq_false.mp h c hc
  simp_all

theorem modify_modify (chains : List Chain) (n : String) (f g : List Rule → List Rule) :
    modify (modify chains n f) n g = modify chains n (g ∘ f) := by
  unfold modify
  rw [List.map_map]
  refine List.map_congr_left fun c _ => ?_
  by_cases hc : c.name = n
  · simp [hc]
  · simp [hc]

theorem admits_verdict (chains : List Chain) {r : Rule} {name : String} {options : List String}
    (h : r.target = .verdict name options) : admits chains r = true := by
  simp [admits, h]

theorem admits_jump (chains : List Chain) {r : Rule} {name : String} (h : r.target = .jump name) :
    admits chains r = has chains name := by
  simp [admits, h]

end Chain

open Chain

/-- What the agent has in a table: the rules of its chain, and the jump. -/
structure OwnedTable where
  rules : Option (List Rule)
  jumped : Bool
  deriving DecidableEq, Repr

/-- No chain of the name, and no jump to it. -/
def Unowned (name : String) (chains : List Chain) : Prop :=
  ∀ c ∈ chains, c.name ≠ name ∧ ∀ r ∈ c.rules, r.target ≠ .jump name

theorem Unowned.not_has {name : String} {chains : List Chain} (h : Unowned name chains) :
    has chains name = false := by
  refine List.any_eq_false.mpr fun c hc => ?_
  simpa using (h c hc).1

/-- A table with a chain of the agent at its end and, perhaps, the jump at the
head of a chain of the host. -/
def withTable (name host : String) (jump : Rule) (base : List Chain) (o : OwnedTable) :
    List Chain :=
  (if o.jumped then modify base host (jump :: ·) else base) ++
    (o.rules.map (Chain.mk name)).toList

section Table

variable {name host : String} {jump : Rule} {base : List Chain}
variable (hbase : Unowned name base)

include hbase in
theorem has_attached_name (jumped : Bool) :
    has (if jumped then modify base host (jump :: ·) else base) name = false := by
  cases jumped with
  | false =>
      exact hbase.not_has
  | true =>
      simpa only [has_modify, ite_true] using hbase.not_has

theorem has_withTable_some (rs : List Rule) (jumped : Bool) :
    has (withTable name host jump base ⟨some rs, jumped⟩) name = true := by
  unfold withTable
  rw [has_append]
  simp [has]

include hbase in
/-- A change of the agent's chain is a change of its rules. -/
theorem modify_withTable (rs : List Rule) (jumped : Bool) (f : List Rule → List Rule) :
    modify (withTable name host jump base ⟨some rs, jumped⟩) name f =
      withTable name host jump base ⟨some (f rs), jumped⟩ := by
  unfold withTable
  rw [modify_append, modify_of_not_has f (has_attached_name hbase jumped)]
  simp [Chain.modify]

include hbase in
theorem run_create (jumped : Bool) :
    ChainOp.run (withTable name host jump base ⟨none, jumped⟩) (.create name) =
      some (withTable name host jump base ⟨some [], jumped⟩) := by
  have hno : has (withTable name host jump base ⟨none, jumped⟩) name = false := by
    unfold withTable
    simpa using has_attached_name hbase jumped
  simp only [ChainOp.run]
  rw [hno]
  simp [withTable]

include hbase in
theorem run_append (rs : List Rule) (jumped : Bool) {r : Rule} {verdict : String}
    {options : List String} (hr : r.target = .verdict verdict options) :
    ChainOp.run (withTable name host jump base ⟨some rs, jumped⟩) (.append name r) =
      some (withTable name host jump base ⟨some (rs ++ [r]), jumped⟩) := by
  simp only [ChainOp.run]
  rw [has_withTable_some, modify_withTable hbase, admits_verdict _ hr]
  simp

include hbase in
theorem run_flush (rs : List Rule) (jumped : Bool) :
    ChainOp.run (withTable name host jump base ⟨some rs, jumped⟩) (.flush name) =
      some (withTable name host jump base ⟨some [], jumped⟩) := by
  simp only [ChainOp.run]
  rw [has_withTable_some, modify_withTable hbase]
  simp

include hbase in
/-- The chain goes when it is empty and the jump is gone. -/
theorem run_remove (rs : List Rule) :
    ChainOp.run (withTable name host jump base ⟨some rs, false⟩) (.remove name) =
      if rs = [] then some (withTable name host jump base ⟨none, false⟩) else none := by
  simp only [ChainOp.run]
  rw [has_withTable_some]
  by_cases hrs : rs = []
  · have hempty : ((withTable name host jump base ⟨some rs, false⟩).all fun c =>
        c.name != name || c.rules.isEmpty) = true := by
      refine List.all_eq_true.mpr fun c hc => ?_
      rcases List.mem_append.mp hc with hold | hnew
      · simp [(hbase c hold).1]
      · simp_all
    have hfree : unreferenced (withTable name host jump base ⟨some rs, false⟩) name = true := by
      refine List.all_eq_true.mpr fun c hc => List.all_eq_true.mpr fun r hr => ?_
      rcases List.mem_append.mp hc with hold | hnew
      · simpa using (hbase c hold).2 r hr
      · simp_all
    have hkept : (base.filter fun c => c.name != name) = base :=
      List.filter_eq_self.mpr fun c hc => by simpa using (hbase c hc).1
    rw [hempty, hfree, if_pos hrs]
    simp [withTable, hkept]
  · rw [if_neg hrs]
    have hfull : ((withTable name host jump base ⟨some rs, false⟩).all fun c =>
        c.name != name || c.rules.isEmpty) = false := by
      refine List.all_eq_false.mpr ⟨⟨name, rs⟩, ?_, ?_⟩
      · simp [withTable]
      · simpa using hrs
    rw [hfull]
    simp

section Jump

variable (hjump : jump.target = .jump name) (hhost : host ≠ name)

include hhost in
/-- A change of the host's chain leaves the agent's chain alone. -/
theorem modify_host_withTable (o : Option (List Rule)) (f : List Rule → List Rule)
    (chains : List Chain) :
    modify (chains ++ (o.map (Chain.mk name)).toList) host f =
      modify chains host f ++ (o.map (Chain.mk name)).toList := by
  rw [modify_append]
  cases o with
  | none =>
      rfl
  | some rs =>
      simp [Chain.modify, Ne.symm hhost]

include hjump hhost in
theorem run_insert (rs : List Rule) :
    ChainOp.run (withTable name host jump base ⟨some rs, false⟩) (.insert host jump) =
      if has base host then some (withTable name host jump base ⟨some rs, true⟩) else none := by
  have hhas : has (withTable name host jump base ⟨some rs, false⟩) host = has base host := by
    unfold withTable
    rw [has_append]
    simp [has, Ne.symm hhost]
  simp only [ChainOp.run]
  rw [hhas, admits_jump _ hjump, has_withTable_some]
  simp only [Bool.and_true]
  congr 2
  unfold withTable
  simpa using modify_host_withTable hhost (some rs) (jump :: ·) base

include hhost in
theorem run_delete (o : Option (List Rule)) (hhas : has base host = true) :
    ChainOp.run (withTable name host jump base ⟨o, true⟩) (.delete host jump) =
      some (withTable name host jump base ⟨o, false⟩) := by
  have hthere : ((withTable name host jump base ⟨o, true⟩).any fun c =>
      c.name == host && c.rules.contains jump) = true := by
    obtain ⟨c, hc, hname⟩ := List.any_eq_true.mp hhas
    refine List.any_eq_true.mpr ⟨{ c with rules := jump :: c.rules }, ?_, by simp_all⟩
    refine List.mem_append_left _ ?_
    exact List.mem_map.mpr ⟨c, hc, by simp_all⟩
  have herase : modify (withTable name host jump base ⟨o, true⟩) host (·.erase jump) =
      withTable name host jump base ⟨o, false⟩ := by
    unfold withTable
    rw [modify_host_withTable hhost]
    simp only [ite_true, modify_modify, Bool.false_eq_true, ite_false]
    congr 1
    unfold Chain.modify
    conv_rhs => rw [← List.map_id base]
    refine List.map_congr_left fun c _ => ?_
    simp
  simp only [ChainOp.run]
  rw [hthere, herase]
  simp

end Jump

end Table

section Commands

variable (plan : HostForwardPlan) (t : Table)

def createChain : FirewallCommand := ⟨t, .create (ownedChain t)⟩

def appendRule (r : Rule) : FirewallCommand := ⟨t, .append (ownedChain t) r⟩

def insertJump : FirewallCommand := ⟨t, .insert (hostChain t) (plan.jumpRule t)⟩

def deleteJump : FirewallCommand := ⟨t, .delete (hostChain t) (plan.jumpRule t)⟩

def flushChain : FirewallCommand := ⟨t, .flush (ownedChain t)⟩

def removeChain : FirewallCommand := ⟨t, .remove (ownedChain t)⟩

end Commands

/-- The commands of a plan, by table. -/
theorem FirewallCommands.ofPlan_eq (plan : HostForwardPlan) : ofPlan plan =
    { stage := [createChain .filter, createChain .nat, appendRule .filter plan.peerRule,
        appendRule .filter plan.httpsRule, appendRule .filter HostForwardPlan.dropRule,
        appendRule .nat plan.snatRule]
      activate := [insertJump plan .nat, insertJump plan .filter]
      detach := [deleteJump plan .filter, deleteJump plan .nat]
      cleanup := [flushChain .filter, removeChain .filter, flushChain .nat, removeChain .nat] } :=
  rfl

/-- What the agent has in each table. -/
abbrev Owned := Table → OwnedTable

/-- A chain and a jump in each table, or not. -/
def owned (f n : OwnedTable) : Owned
  | .filter => f
  | .nat => n

@[simp] theorem owned_filter (f n : OwnedTable) : owned f n .filter = f := rfl

@[simp] theorem owned_nat (f n : OwnedTable) : owned f n .nat = n := rfl

@[simp] theorem update_owned_filter (f n x : OwnedTable) :
    Function.update (owned f n) .filter x = owned x n := by
  funext t
  cases t <;> rfl

@[simp] theorem update_owned_nat (f n x : OwnedTable) :
    Function.update (owned f n) .nat x = owned f x := by
  funext t
  cases t <;> rfl

/-- Nothing of the agent is in the table. -/
def OwnedTable.absent : OwnedTable := ⟨none, false⟩

namespace Firewall

/-- No chain of the agent, no rule in one and no jump to one. -/
def Clean (fw : Firewall) : Prop := ∀ t t', Unowned (ownedChain t') (fw t)

/-- A firewall with the chains and jumps of the agent. -/
def withOwned (base : Firewall) (plan : HostForwardPlan) (o : Owned) : Firewall :=
  fun t => withTable (ownedChain t) (hostChain t) (plan.jumpRule t) (base t) (o t)

variable {base : Firewall} {plan : HostForwardPlan}

theorem withOwned_absent : base.withOwned plan (owned .absent .absent) = base := by
  funext t
  cases t <;> simp [withOwned, withTable, OwnedTable.absent]

/-- A chain of the agent is no clean firewall. -/
theorem rules_of_clean {o : Owned} (h : (base.withOwned plan o).Clean) (t : Table) :
    (o t).rules = none := by
  cases hrules : (o t).rules with
  | none =>
      rfl
  | some rs =>
      refine absurd rfl (h t t ⟨ownedChain t, rs⟩ ?_).1
      exact List.mem_append_right _ (by simp [hrules])

/-- A command that changes what the agent has in one table. -/
theorem run_withOwned {o : Owned} {t : Table} {op : ChainOp} {x : Option OwnedTable}
    (h : op.run (base.withOwned plan o t) =
      x.map (withTable (ownedChain t) (hostChain t) (plan.jumpRule t) (base t))) :
    FirewallCommand.run ⟨t, op⟩ (base.withOwned plan o) =
      x.map fun y => base.withOwned plan (Function.update o t y) := by
  unfold FirewallCommand.run
  rw [h, Option.map_map]
  congr 1
  funext y
  funext t'
  by_cases ht : t' = t
  · subst ht
    simp [withOwned]
  · simp [withOwned, ht]

theorem jumpRule_target (t : Table) : (plan.jumpRule t).target = .jump (ownedChain t) := by
  cases t <;> rfl

theorem hostChain_ne (t : Table) : hostChain t ≠ ownedChain t := by
  cases t <;> decide

section Commands

variable (plan) {o : Owned} {t : Table} {rs : List Rule} {jumped : Bool}
variable (hbase : Unowned (ownedChain t) (base t))

include hbase in
theorem create_run (h : o t = ⟨none, jumped⟩) :
    (createChain t).run (base.withOwned plan o) =
      some (base.withOwned plan (Function.update o t ⟨some [], jumped⟩)) := by
  refine run_withOwned (x := some ⟨some [], jumped⟩) ?_
  unfold withOwned
  rw [h]
  exact run_create hbase jumped

include hbase in
theorem append_run (h : o t = ⟨some rs, jumped⟩) {r : Rule} {verdict : String}
    {options : List String} (hr : r.target = .verdict verdict options) :
    (appendRule t r).run (base.withOwned plan o) =
      some (base.withOwned plan (Function.update o t ⟨some (rs ++ [r]), jumped⟩)) := by
  refine run_withOwned (x := some ⟨some (rs ++ [r]), jumped⟩) ?_
  unfold withOwned
  rw [h]
  exact run_append hbase rs jumped hr

theorem insert_run (h : o t = ⟨some rs, false⟩) :
    (insertJump plan t).run (base.withOwned plan o) =
      if has (base t) (hostChain t) then
        some (base.withOwned plan (Function.update o t ⟨some rs, true⟩))
      else none := by
  have hrun : (ChainOp.insert (hostChain t) (plan.jumpRule t)).run (base.withOwned plan o t) =
      (if has (base t) (hostChain t) then some (OwnedTable.mk (some rs) true) else none).map
        (withTable (ownedChain t) (hostChain t) (plan.jumpRule t) (base t)) := by
    unfold withOwned
    rw [h, run_insert (jumpRule_target t) (hostChain_ne t)]
    split <;> rfl
  refine (run_withOwned hrun).trans ?_
  split <;> rfl

theorem delete_run (h : o t = ⟨some rs, true⟩) (hhas : has (base t) (hostChain t) = true) :
    (deleteJump plan t).run (base.withOwned plan o) =
      some (base.withOwned plan (Function.update o t ⟨some rs, false⟩)) := by
  refine run_withOwned (x := some ⟨some rs, false⟩) ?_
  unfold withOwned
  rw [h]
  exact run_delete (hostChain_ne t) (some rs) hhas

include hbase in
theorem flush_run (h : o t = ⟨some rs, jumped⟩) :
    (flushChain t).run (base.withOwned plan o) =
      some (base.withOwned plan (Function.update o t ⟨some [], jumped⟩)) := by
  refine run_withOwned (x := some ⟨some [], jumped⟩) ?_
  unfold withOwned
  rw [h]
  exact run_flush hbase rs jumped

include hbase in
theorem remove_run (h : o t = ⟨some rs, false⟩) :
    (removeChain t).run (base.withOwned plan o) =
      if rs = [] then some (base.withOwned plan (Function.update o t .absent)) else none := by
  have hrun : (ChainOp.remove (ownedChain t)).run (base.withOwned plan o t) =
      (if rs = [] then some OwnedTable.absent else none).map
        (withTable (ownedChain t) (hostChain t) (plan.jumpRule t) (base t)) := by
    unfold withOwned
    rw [h, run_remove hbase]
    split <;> rfl
  refine (run_withOwned hrun).trans ?_
  split <;> rfl

end Commands

end Firewall

end HostAgent
end ZeroVpn
