import Mathlib.Data.List.Perm.Subperm
import Mathlib.Data.List.TakeWhile
import ZeroVpn.HostAgent.FirewallUndo

/-!
# The check of an installed firewall

`verify_installed` of `crates/zerovpn-host-agent/src/firewall_executor.rs`, as
`verify_restarted_host` of `recovery.rs` calls it: `snapshot` is the text that
`iptables-save` prints of the firewall, given by its lines, and the exact rules
are checked with `iptables -C`.

The counts and the presence of the rules do not say where the rules stand.  A
packet from wg0 is decided as after `install` exactly when nothing in front of
the jump in `DOCKER-USER` decides it otherwise and, in the agent's chain, the
rule that drops it does not stand in front of the one that accepts it.

How a rule matches a packet is a parameter `hits`, over its tokens.
-/

namespace ZeroVpn

open Library

namespace HostAgent

open Firewall Chain

section Save

abbrev Line := List Char

/-- The words of a rule, each after a blank. -/
def words (ws : List String) : Line := ws.flatMap fun w => ' ' :: w.toList

def Target.text : Target → List String
  | .verdict name options => name :: options
  | .jump chain => [chain]

/-- `-A chain … -j …`. -/
def ruleLine (chain : String) (r : Rule) : Line :=
  "-A ".toList ++ chain.toList ++ words (r.spec ++ "-j" :: r.target.text)

/-- What `iptables-save` prints besides the chains and rules of the two tables. -/
structure SaveNotes where
  /-- The policy and the counters of a chain. -/
  policy : Table → String → Line
  /-- Comments, and the other tables. -/
  others : List Line

/-- `:chain policy [counters]`. -/
def chainLine (notes : SaveNotes) (t : Table) (c : Chain) : Line :=
  ':' :: c.name.toList ++ ' ' :: notes.policy t c.name

def saveTable (notes : SaveNotes) (t : Table) (chains : List Chain) : List Line :=
  (match t with
    | .filter => "*filter".toList
    | .nat => "*nat".toList) ::
    chains.map (chainLine notes t) ++ chains.flatMap (fun c => c.rules.map (ruleLine c.name)) ++
      ["COMMIT".toList]

/-- The lines of `iptables-save`. -/
def Firewall.save (notes : SaveNotes) (fw : Firewall) : List Line :=
  saveTable notes .filter (fw .filter) ++ saveTable notes .nat (fw .nat) ++ notes.others

/-- `-C`. -/
def Firewall.check (fw : Firewall) (t : Table) (chain : String) (r : Rule) : Bool :=
  (fw t).any fun c => c.name == chain && c.rules.contains r

end Save

namespace FirewallCommands

/-- `line.contains`. -/
def lineContains (needle : String) (line : Line) : Bool := decide (needle.toList <:+: line)

/-- `line.starts_with`. -/
def lineStarts (start : String) (line : Line) : Bool := start.toList.isPrefixOf line

/-- `-C` in the place of `-A` or `-I`; `expect` for another command. -/
def checkCommand (run : Table → String → Rule → Bool) (c : FirewallCommand) : Except String Unit :=
  match c.op with
  | .append chain r | .insert chain r => ensure (run c.table chain r) "iptables command failed"
  | _ => .error "only append or insert rules after chain creation"

/-- `verify_installed`; `run` answers `-C`. -/
def verifyInstalled (commands : FirewallCommands) (run : Table → String → Rule → Bool)
    (snapshot : List Line) : Except String Unit := do
  ensure (snapshot.countP (lineContains ":ZEROVPN-HOST-FWD ") == 1 &&
      snapshot.countP (lineContains ":ZEROVPN-HOST-NAT ") == 1)
    "VPN-owned chains missing or duplicated"
  ensure (snapshot.countP (lineStarts "-A ZEROVPN-HOST-FWD ") == 3)
    "VPN forwarding chain has unexpected rules"
  ensure (snapshot.countP (lineStarts "-A ZEROVPN-HOST-NAT ") == 1)
    "VPN NAT chain has unexpected rules"
  ensure (snapshot.countP (fun line => lineStarts "-A DOCKER-USER " line &&
      lineContains "-j ZEROVPN-HOST-FWD" line) == 1)
    "VPN forwarding jump missing or duplicated"
  ensure (snapshot.countP (fun line => lineStarts "-A POSTROUTING " line &&
      lineContains "-j ZEROVPN-HOST-NAT" line) == 1)
    "VPN NAT jump missing or duplicated"
  (commands.stage.drop 2 ++ commands.activate).forM (checkCommand run)

end FirewallCommands

section Packets

/-- A target that ends the way of a packet, with its options. -/
abbrev Verdict := String × List String

def terminal (name : String) : Bool :=
  ["ACCEPT", "DROP", "REJECT", "QUEUE", "NFQUEUE"].contains name

/-- How a packet comes out of a list of rules. -/
inductive Passage where
  | decided (v : Verdict)
  /-- `-j RETURN`. -/
  | returned
  | through
  deriving DecidableEq, Repr

def Passage.verdict : Passage → Option Verdict
  | decided v => some v
  | returned | through => none

/-- The first rule that decides; `sub` is the verdict of a chain.  Other targets
(`LOG`, `MARK`) let the packet go on. -/
def pass (hits : List String → Bool) (sub : String → Option Verdict) : List Rule → Passage
  | [] => .through
  | r :: rs =>
      if hits r.spec then
        match r.target with
        | .verdict name options =>
            if name == "RETURN" then .returned
            else if terminal name then .decided (name, options)
            else pass hits sub rs
        | .jump chain =>
            match sub chain with
            | some v => .decided v
            | none => pass hits sub rs
      else pass hits sub rs

/-- The rules of a chain. -/
def chainRules (chains : List Chain) (name : String) : List Rule :=
  ((chains.find? fun c => c.name == name).map (·.rules)).getD []

/-- The verdict of a chain, with jumps nested at most `depth` deep. -/
def chainPass (hits : List String → Bool) (chains : List Chain) : Nat → String → Option Verdict
  | 0, _ => none
  | depth + 1, name => (pass hits (chainPass hits chains depth) (chainRules chains name)).verdict

variable {P : Type} (hits : List String → P → Bool)

/-- What a chain in `filter` makes of a packet.  `iptables` has no loops of jumps, so
they are not nested deeper than there are chains. -/
def Firewall.verdict (fw : Firewall) (chain : String) (p : P) : Option Verdict :=
  chainPass (hits · p) (fw .filter) ((fw .filter).length + 1) chain

/-- The plan: peer-to-peer traffic and HTTPS to the target, and nothing else. -/
def HostForwardPlan.verdict (plan : HostForwardPlan) (p : P) : Verdict :=
  if hits plan.peerRule.spec p || hits plan.httpsRule.spec p then ("ACCEPT", []) else ("DROP", [])

/-- The firewall without the agent's chains and the jumps to them. -/
def Firewall.strip (fw : Firewall) : Firewall := fun t =>
  ((fw t).filter fun c => c.name != ownedChain t).map fun c =>
    { c with rules := c.rules.filter fun r => r.target != .jump (ownedChain t) }

/-- The same unrelated rules, where `install` was just run. -/
def Firewall.reinstalled (obs : Observations) (plan : HostForwardPlan) (fw : Firewall) : Firewall :=
  (Program.run (fun (c : HostCall) host => c.cmd.exec obs host)
    (FirewallCommands.ofPlan plan).install ⟨none, fw.strip⟩).1.firewall

/-- Every packet from wg0 that reaches `DOCKER-USER` is decided as after `install`. -/
def DecidedAsInstalled (obs : Observations) (plan : HostForwardPlan) (fw : Firewall) : Prop :=
  ∀ p, hits ["-i", "wg0"] p = true →
    fw.verdict hits "DOCKER-USER" p = (fw.reinstalled obs plan).verdict hits "DOCKER-USER" p

/-- The rules of `DOCKER-USER` in front of the jump. -/
def Firewall.front (fw : Firewall) (plan : HostForwardPlan) : List Rule :=
  (chainRules (fw .filter) "DOCKER-USER").takeWhile (· != plan.jumpRule .filter)

/-- The rules of the agent's chain in front of the one that drops. -/
def Firewall.spared (fw : Firewall) : List Rule :=
  (chainRules (fw .filter) filterChain).takeWhile (· != HostForwardPlan.dropRule)

/-- For every packet from wg0: the rules in front of the jump decide it as the plan
does or let it through, and then a rule that accepts it stands in front of the one
that drops it. -/
def InPlace (plan : HostForwardPlan) (fw : Firewall) : Prop :=
  ∀ p, hits ["-i", "wg0"] p = true →
    match pass (hits · p) (chainPass (hits · p) (fw .filter) (fw .filter).length)
        (fw.front plan) with
    | .decided v => v = plan.verdict hits p
    | .returned => False
    | .through => (hits plan.peerRule.spec p || hits plan.httpsRule.spec p) = true →
        ∃ r ∈ fw.spared, hits r.spec p = true

end Packets

section Presence

variable {plan : HostForwardPlan} {fw : Firewall}

/-- What an accepted firewall is known to have. -/
theorem verifyInstalled_ok {run : Table → String → Rule → Bool} {snapshot : List Line}
    (h : (FirewallCommands.ofPlan plan).verifyInstalled run snapshot = .ok ()) :
    snapshot.countP (FirewallCommands.lineStarts "-A ZEROVPN-HOST-FWD ") = 3 ∧
      (∀ r ∈ stagedRules plan .filter, run .filter filterChain r = true) ∧
      ∀ t, run t (hostChain t) (plan.jumpRule t) = true := by
  unfold FirewallCommands.verifyInstalled at h
  simp only [bind_eq_ok, ensure_eq_ok, Bool.and_eq_true, beq_iff_eq, exists_const] at h
  obtain ⟨-, hcount, -, -, -, hchecks⟩ := h
  have hrules := forM_eq_ok.mp hchecks
  rw [FirewallCommands.ofPlan_eq] at hrules
  simp only [List.drop_succ_cons, List.drop_zero, List.cons_append, List.nil_append,
    List.forall_mem_cons, FirewallCommands.checkCommand, appendRule, insertJump,
    ensure_eq_ok] at hrules
  obtain ⟨hpeer, hhttps, hdrop, -, hnat, hfilter, -⟩ := hrules
  refine ⟨hcount, ?_, fun t => ?_⟩
  · simpa [stagedRules] using ⟨hpeer, hhttps, hdrop⟩
  · cases t with
    | filter =>
        exact hfilter
    | nat =>
        exact hnat

/-- The lines of the agent's chain are recognised. -/
theorem lineStarts_ruleLine (r : Rule) :
    FirewallCommands.lineStarts "-A ZEROVPN-HOST-FWD " (ruleLine filterChain r) = true := by
  have hstart : "-A ZEROVPN-HOST-FWD ".toList = "-A ".toList ++ filterChain.toList ++ [' '] := by
    decide
  have hwords : ∃ rest, words (r.spec ++ "-j" :: r.target.text) = [' '] ++ rest := by
    cases hspec : r.spec with
    | nil =>
        exact ⟨_, rfl⟩
    | cons w ws =>
        exact ⟨_, rfl⟩
  obtain ⟨rest, hrest⟩ := hwords
  unfold FirewallCommands.lineStarts ruleLine
  rw [hstart, hrest, List.isPrefixOf_iff_prefix, ← List.append_assoc]
  exact List.prefix_append _ _

/-- The rules of the agent's chain are among the lines that are counted. -/
theorem length_le_countP (notes : SaveNotes) {c : Chain} (hc : c ∈ fw .filter)
    (hname : c.name = filterChain) :
    c.rules.length ≤
      (fw.save notes).countP (FirewallCommands.lineStarts "-A ZEROVPN-HOST-FWD ") := by
  have hlines : (c.rules.map (ruleLine c.name)).Sublist (fw.save notes) := by
    have hflat : (c.rules.map (ruleLine c.name)).Sublist
        ((fw .filter).flatMap fun c => c.rules.map (ruleLine c.name)) := by
      rw [List.flatMap_def]
      exact List.sublist_flatten_of_mem (List.mem_map_of_mem hc)
    unfold Firewall.save saveTable
    refine hflat.trans ?_
    simp only [List.append_assoc, List.cons_append]
    exact ((List.sublist_append_left _ _).trans (List.sublist_append_right _ _)).trans
      (List.sublist_cons_self _ _)
  have hcount := hlines.countP_le (p := FirewallCommands.lineStarts "-A ZEROVPN-HOST-FWD ")
  have hall : (c.rules.map (ruleLine c.name)).countP
      (FirewallCommands.lineStarts "-A ZEROVPN-HOST-FWD ") = c.rules.length := by
    rw [hname, List.countP_map, List.countP_eq_length]
    exact fun r _ => lineStarts_ruleLine r
  omega

/-- Chains are told apart by their names. -/
theorem chainRules_of_mem {chains : List Chain} (hnodup : (chains.map (·.name)).Nodup) {c : Chain}
    (hc : c ∈ chains) : chainRules chains c.name = c.rules := by
  induction chains with
  | nil =>
      cases hc
  | cons d ds ih =>
      obtain ⟨hnew, hrest⟩ := List.nodup_cons.mp hnodup
      unfold chainRules
      rcases List.mem_cons.mp hc with rfl | hc
      · simp
      · have hne : d.name ≠ c.name := fun h => hnew (List.mem_map.mpr ⟨c, hc, h.symm⟩)
        rw [List.find?_cons_of_neg (by simpa using hne)]
        exact ih hrest hc

/-- A rule that `-C` finds. -/
theorem exists_of_check {t : Table} {chain : String} {r : Rule} (h : fw.check t chain r = true) :
    ∃ c ∈ fw t, c.name = chain ∧ r ∈ c.rules := by
  obtain ⟨c, hc, hcr⟩ := List.any_eq_true.mp h
  obtain ⟨hname, hr⟩ := Bool.and_eq_true_iff.mp hcr
  exact ⟨c, hc, by simpa using hname, by simpa using hr⟩

/-- The three rules of the plan differ. -/
theorem stagedRules_nodup : (stagedRules plan .filter).Nodup := by
  simp [stagedRules, HostForwardPlan.peerRule, HostForwardPlan.httpsRule,
    HostForwardPlan.dropRule]

/-- The agent's chain has the rules of the plan, in some order. -/
theorem ownedRules_perm {notes : SaveNotes} (hnodup : ((fw .filter).map (·.name)).Nodup)
    (hcount : (fw.save notes).countP (FirewallCommands.lineStarts "-A ZEROVPN-HOST-FWD ") = 3)
    (hrules : ∀ r ∈ stagedRules plan .filter, fw.check .filter filterChain r = true) :
    (stagedRules plan .filter).Perm (chainRules (fw .filter) filterChain) := by
  obtain ⟨c, hc, hname, -⟩ := exists_of_check (hrules plan.peerRule (by simp [stagedRules]))
  have hsubset : stagedRules plan .filter ⊆ chainRules (fw .filter) filterChain := by
    intro r hr
    obtain ⟨d, hd, hdname, hmem⟩ := exists_of_check (hrules r hr)
    rwa [← hdname, chainRules_of_mem hnodup hd]
  refine (List.subperm_of_subset stagedRules_nodup hsubset).perm_of_length_le ?_
  have hlength := length_le_countP notes hc hname
  rw [← hname, chainRules_of_mem hnodup hc]
  simpa [stagedRules] using hlength.trans hcount.le

end Presence

section Walks

variable {hits : List String → Bool} {sub : String → Option Verdict}

theorem pass_append (rs rs' : List Rule) :
    pass hits sub (rs ++ rs') =
      match pass hits sub rs with
      | .through => pass hits sub rs'
      | x => x := by
  induction rs with
  | nil =>
      rfl
  | cons r rs ih =>
      simp only [List.cons_append, pass, ih]
      split
      · split
        · split
          · rfl
          · split
            · rfl
            · rfl
        · split
          · rfl
          · rfl
      · rfl

/-- Rules that accept. -/
theorem pass_accepts {rs : List Rule} (h : ∀ r ∈ rs, r.target = .verdict "ACCEPT" []) :
    pass hits sub rs =
      if rs.any fun r => hits r.spec then .decided ("ACCEPT", []) else .through := by
  induction rs with
  | nil =>
      rfl
  | cons r rs ih =>
      obtain ⟨hr, hrest⟩ := List.forall_mem_cons.mp h
      simp only [pass, hr, ih hrest]
      by_cases hhits : hits r.spec = true
      · simp [hhits, terminal]
      · simp [hhits]

/-- A list is split at the first occurrence of a member. -/
theorem eq_takeWhile_append {r : Rule} {rs : List Rule} (h : r ∈ rs) :
    ∃ tail, rs = rs.takeWhile (· != r) ++ r :: tail := by
  induction rs with
  | nil =>
      cases h
  | cons r' rs ih =>
      by_cases hr : r' = r
      · subst hr
        exact ⟨rs, by simp⟩
      · obtain ⟨tail, htail⟩ := ih ((List.mem_cons.mp h).resolve_left (Ne.symm hr))
        refine ⟨tail, ?_⟩
        rw [List.takeWhile_cons_of_pos (by simpa using hr), List.cons_append, ← htail]

variable {plan : HostForwardPlan}

/-- The agent's chain decides every packet from wg0: it drops those that no rule in
front of the last one accepts. -/
theorem pass_owned (hwg0 : hits ["-i", "wg0"] = true) {rs : List Rule}
    (hperm : (stagedRules plan .filter).Perm rs) :
    pass hits sub rs = .decided
      (if (rs.takeWhile (· != HostForwardPlan.dropRule)).any fun r => hits r.spec then
        ("ACCEPT", [])
      else ("DROP", [])) := by
  have hdrop : HostForwardPlan.dropRule ∈ rs := hperm.subset (by simp [stagedRules])
  have haccepts : ∀ r ∈ rs.takeWhile (· != HostForwardPlan.dropRule),
      r.target = .verdict "ACCEPT" [] := by
    intro r hr
    have hne := List.mem_takeWhile_imp hr
    have hmem : r ∈ stagedRules plan .filter :=
      hperm.symm.subset ((List.takeWhile_sublist _).subset hr)
    simp only [stagedRules, List.mem_cons, List.not_mem_nil, or_false] at hmem
    rcases hmem with rfl | rfl | rfl
    · rfl
    · rfl
    · simp at hne
  have hlast (tail : List Rule) : pass hits sub (HostForwardPlan.dropRule :: tail) =
      .decided ("DROP", []) := by
    have hhits : hits HostForwardPlan.dropRule.spec = true := hwg0
    simp only [pass, hhits]
    rfl
  obtain ⟨tail, htail⟩ := eq_takeWhile_append hdrop
  rw [htail, pass_append, pass_accepts haccepts, hlast, ← htail]
  split
  · rename_i hany
    split at hany
    · cases hany
    · rename_i hnone
      rw [if_neg hnone]
  · split
    · rfl
    · rename_i hthrough hnone
      simp [hnone] at hthrough

end Walks

section Verdicts

variable {P : Type} {hits : List String → P → Bool} {p : P}
variable {plan : HostForwardPlan} {fw : Firewall}

/-- A packet from wg0 that gets to the jump is decided by the agent's chain. -/
theorem verdict_of_split {front tail : List Rule} {w : Verdict}
    (hrules : chainRules (fw .filter) "DOCKER-USER" = front ++ plan.jumpRule .filter :: tail)
    (hwg0 : hits ["-i", "wg0"] p = true)
    (hown : ∀ sub, pass (hits · p) sub (chainRules (fw .filter) filterChain) = .decided w) :
    fw.verdict hits "DOCKER-USER" p =
      match pass (hits · p) (chainPass (hits · p) (fw .filter) (fw .filter).length) front with
      | .decided v => some v
      | .returned => none
      | .through => some w := by
  have hne : fw .filter ≠ [] := by
    intro hnil
    rw [hnil] at hrules
    cases front <;> cases hrules
  obtain ⟨n, hn⟩ := Nat.exists_eq_succ_of_ne_zero (mt List.length_eq_zero_iff.mp hne)
  have hsub : chainPass (hits · p) (fw .filter) (fw .filter).length filterChain = some w := by
    rw [hn, chainPass, hown]
    rfl
  have hjump : pass (hits · p) (chainPass (hits · p) (fw .filter) (fw .filter).length)
      (plan.jumpRule .filter :: tail) = .decided w := by
    have hhits : hits (plan.jumpRule .filter).spec p = true := hwg0
    have htarget : (plan.jumpRule .filter).target = .jump filterChain := rfl
    simp only [pass, hhits, htarget, hsub, ite_true]
  unfold Firewall.verdict
  rw [chainPass, hrules, pass_append, hjump]
  cases pass (hits · p) (chainPass (hits · p) (fw .filter) (fw .filter).length) front with
  | decided v =>
      rfl
  | returned =>
      rfl
  | through =>
      rfl

theorem chainRules_append_of_has {a b : List Chain} {n : String} (h : has a n = true) :
    chainRules (a ++ b) n = chainRules a n := by
  obtain ⟨c, hc, hname⟩ := List.any_eq_true.mp h
  obtain ⟨d, hd⟩ := Option.isSome_iff_exists.mp
    ((List.find?_isSome (p := fun c : Chain => c.name == n)).mpr ⟨c, hc, hname⟩)
  unfold chainRules
  rw [List.find?_append, hd]
  rfl

theorem chainRules_append_of_not_has {a b : List Chain} {n : String} (h : has a n = false) :
    chainRules (a ++ b) n = chainRules b n := by
  have hnone : (a.find? fun c => c.name == n) = none :=
    List.find?_eq_none.mpr fun c hc => by simpa using List.any_eq_false.mp h c hc
  unfold chainRules
  rw [List.find?_append, hnone]
  rfl

/-- The head of a chain that is given a rule. -/
theorem chainRules_modify {chains : List Chain} {n : String} (h : has chains n = true)
    (f : List Rule → List Rule) : chainRules (modify chains n f) n = f (chainRules chains n) := by
  induction chains with
  | nil =>
      cases h
  | cons c cs ih =>
      unfold chainRules Chain.modify
      by_cases hc : c.name = n
      · simp [hc]
      · have hrest : has cs n = true := by
          simpa [has, hc] using h
        have hstep := ih hrest
        unfold chainRules Chain.modify at hstep
        simpa [hc] using hstep

/-- What remains has nothing of the agent. -/
theorem strip_unowned (fw : Firewall) (t : Table) : Unowned (ownedChain t) (fw.strip t) := by
  intro c hc
  obtain ⟨d, hd, rfl⟩ := List.mem_map.mp hc
  refine ⟨by simpa using (List.mem_filter.mp hd).2, ?_⟩
  intro r hr
  simpa using (List.mem_filter.mp hr).2

theorem has_strip {t : Table} {n : String} (hn : n ≠ ownedChain t) (h : has (fw t) n = true) :
    has (fw.strip t) n = true := by
  obtain ⟨c, hc, hname⟩ := List.any_eq_true.mp h
  have hname' : c.name = n := by simpa using hname
  refine List.any_eq_true.mpr ⟨_, List.mem_map.mpr ⟨c, List.mem_filter.mpr ⟨hc, ?_⟩, rfl⟩, hname⟩
  simpa [hname'] using hn

/-- The firewall where `install` was just run. -/
theorem reinstalled_eq (obs : Observations) (hhas : ∀ t, has (fw t) (hostChain t) = true) :
    fw.reinstalled obs plan = fw.strip.withOwned plan (installed plan) := by
  have hrun := run_install_succeeds obs (fun _ => false) (fun _ => false) plan none
    (strip_unowned fw) (fun t => has_strip (hostChain_ne t) (hhas t)) fun _ _ => rfl
  rw [show hostWith fw.strip plan none (owned .absent .absent) = ⟨none, fw.strip⟩ from
    present_absent.absent] at hrun
  exact congrArg (fun r : Host × Except CutoverError Unit => r.1.firewall) hrun

/-- After `install` a packet from wg0 is decided by the plan. -/
theorem verdict_reinstalled (obs : Observations) (hhas : ∀ t, has (fw t) (hostChain t) = true)
    (hwg0 : hits ["-i", "wg0"] p = true) :
    (fw.reinstalled obs plan).verdict hits "DOCKER-USER" p = some (plan.verdict hits p) := by
  have hhost : has (fw.strip .filter) "DOCKER-USER" = true :=
    has_strip (hostChain_ne .filter) (hhas .filter)
  have hfilter : fw.reinstalled obs plan .filter =
      modify (fw.strip .filter) "DOCKER-USER" (plan.jumpRule .filter :: ·) ++
        [⟨filterChain, stagedRules plan .filter⟩] := by
    rw [reinstalled_eq obs hhas]
    rfl
  have hjump : chainRules (fw.reinstalled obs plan .filter) "DOCKER-USER" =
      [] ++ plan.jumpRule .filter :: chainRules (fw.strip .filter) "DOCKER-USER" := by
    rw [hfilter, chainRules_append_of_has (by rw [has_modify, hhost]), chainRules_modify hhost]
    rfl
  have hown : chainRules (fw.reinstalled obs plan .filter) filterChain =
      stagedRules plan .filter := by
    have hnot : has (fw.strip .filter) filterChain = false := (strip_unowned fw .filter).not_has
    rw [hfilter, chainRules_append_of_not_has (by rw [has_modify, hnot])]
    rfl
  rw [verdict_of_split hjump hwg0 fun sub => by rw [hown]; exact pass_owned hwg0 (List.Perm.refl _)]
  simp [pass, HostForwardPlan.verdict, stagedRules, HostForwardPlan.peerRule,
    HostForwardPlan.httpsRule, HostForwardPlan.dropRule]

/-- The packets of an accepted firewall, one by one. -/
theorem decided_iff {notes : SaveNotes} {run : Table → String → Rule → Bool}
    (obs : Observations) (hnodup : ∀ t, ((fw t).map (·.name)).Nodup)
    (hrun : ∀ t chain r, run t chain r = true → fw.check t chain r = true)
    (hok : (FirewallCommands.ofPlan plan).verifyInstalled run (fw.save notes) = .ok ())
    (hwg0 : hits ["-i", "wg0"] p = true) :
    (fw.reinstalled obs plan).verdict hits "DOCKER-USER" p = some (plan.verdict hits p) ∧
      (fw.verdict hits "DOCKER-USER" p = (fw.reinstalled obs plan).verdict hits "DOCKER-USER" p ↔
        match pass (hits · p) (chainPass (hits · p) (fw .filter) (fw .filter).length)
            (fw.front plan) with
        | .decided v => v = plan.verdict hits p
        | .returned => False
        | .through => (hits plan.peerRule.spec p || hits plan.httpsRule.spec p) = true →
            ∃ r ∈ fw.spared, hits r.spec p = true) := by
  obtain ⟨hcount, hrules, hjumps⟩ := verifyInstalled_ok hok
  have hperm := ownedRules_perm (hnodup .filter) hcount fun r hr => hrun _ _ _ (hrules r hr)
  have hhas (t : Table) : has (fw t) (hostChain t) = true := by
    obtain ⟨c, hc, hname, -⟩ := exists_of_check (hrun _ _ _ (hjumps t))
    exact List.any_eq_true.mpr ⟨c, hc, by simpa using hname⟩
  have hjump : plan.jumpRule .filter ∈ chainRules (fw .filter) "DOCKER-USER" := by
    obtain ⟨c, hc, hname, hmem⟩ := exists_of_check (hrun _ _ _ (hjumps .filter))
    rwa [show "DOCKER-USER" = c.name from hname.symm, chainRules_of_mem (hnodup .filter) hc]
  obtain ⟨tail, htail⟩ := eq_takeWhile_append hjump
  have hfresh : (fw.reinstalled obs plan).verdict hits "DOCKER-USER" p =
      some (plan.verdict hits p) := verdict_reinstalled obs hhas hwg0
  refine ⟨hfresh, ?_⟩
  rw [hfresh, verdict_of_split htail hwg0 fun sub => pass_owned hwg0 hperm]
  unfold Firewall.front
  cases pass (hits · p) (chainPass (hits · p) (fw .filter) (fw .filter).length)
      ((chainRules (fw .filter) "DOCKER-USER").takeWhile (· != plan.jumpRule .filter)) with
  | decided v =>
      exact Option.some_inj
  | returned =>
      simp
  | through =>
      -- A rule in front of the one that drops is one of the two that accept.
      have hspared : (∃ r ∈ fw.spared, hits r.spec p = true) →
          (hits plan.peerRule.spec p || hits plan.httpsRule.spec p) = true := by
        rintro ⟨r, hr, hhits⟩
        have hne := List.mem_takeWhile_imp hr
        have hmem := hperm.symm.subset ((List.takeWhile_sublist _).subset hr)
        simp only [stagedRules, List.mem_cons, List.not_mem_nil, or_false] at hmem
        rcases hmem with rfl | rfl | rfl
        · rw [hhits, Bool.true_or]
        · rw [hhits, Bool.or_true]
        · simp at hne
      have hany : (fw.spared.any fun r => hits r.spec p) = true ↔
          ∃ r ∈ fw.spared, hits r.spec p = true := List.any_eq_true
      unfold HostForwardPlan.verdict
      change some (if (fw.spared.any fun r => hits r.spec p) = true then _ else _) = _ ↔ _
      rw [← hany] at hspared ⊢
      generalize (fw.spared.any fun r => hits r.spec p) = spared at hspared ⊢
      generalize (hits plan.peerRule.spec p || hits plan.httpsRule.spec p) = planned at hspared ⊢
      cases spared with
      | true =>
          simp [hspared rfl]
      | false =>
          cases planned <;> simp

end Verdicts

/-- The places that `install` gives the rules: the jump is the first rule of
`DOCKER-USER`, and both rules that accept stand in front of the one that drops. -/
theorem inPlace_of_order {P : Type} {hits : List String → P → Bool} {plan : HostForwardPlan}
    {fw : Firewall} (hfront : fw.front plan = []) (hpeer : plan.peerRule ∈ fw.spared)
    (hhttps : plan.httpsRule ∈ fw.spared) : InPlace hits plan fw := by
  intro p _
  rw [hfront]
  intro hplanned
  rcases Bool.or_eq_true_iff.mp hplanned with hhits | hhits
  · exact ⟨_, hpeer, hhits⟩
  · exact ⟨_, hhttps, hhits⟩

/-- In a firewall that `verify_installed` accepts, packets from wg0 are decided as
after `install` exactly when the rules are in their places. -/
theorem verify_sound_iff {P : Type} (hits : List String → P → Bool) (obs : Observations)
    (plan : HostForwardPlan) (commands : FirewallCommands)
    (hplan : FirewallCommands.fromPlan plan = .ok commands) (fw : Firewall) (notes : SaveNotes)
    (hnodup : ∀ t, ((fw t).map (·.name)).Nodup) (fails : Table → String → Rule → Bool)
    (hok : commands.verifyInstalled (fun t chain r => !fails t chain r && fw.check t chain r)
      (fw.save notes) = .ok ()) :
    (∀ p, hits ["-i", "wg0"] p = true →
      (fw.reinstalled obs plan).verdict hits "DOCKER-USER" p = some (plan.verdict hits p)) ∧
    (DecidedAsInstalled hits obs plan fw ↔ InPlace hits plan fw) := by
  have hcommands : commands = FirewallCommands.ofPlan plan :=
    HostCutoverBackend.firewall_eq ⟨plan, commands, "", "", hplan⟩
  subst hcommands
  have hdecided {p : P} (hwg0 : hits ["-i", "wg0"] p = true) :=
    decided_iff obs hnodup (fun t chain r h => (Bool.and_eq_true_iff.mp h).2) hok hwg0
  refine ⟨fun p hwg0 => (hdecided hwg0).1, fun h p hwg0 => ?_, fun h p hwg0 => ?_⟩
  · exact (hdecided hwg0).2.mp (h p hwg0)
  · exact (hdecided hwg0).2.mpr (h p hwg0)

section Sample

open HostCutoverBackend

structure Packet where
  inIface : String
  outIface : String
  src : BitVec 32
  dst : BitVec 32
  proto : String
  dport : Nat
  deriving DecidableEq, Repr

/-- The numbers in a text, `10.0.0.0/22`. -/
def numbers (text : List Char) : List Nat :=
  (text.foldl (fun acc c =>
    if c.isDigit then (acc.headD 0 * 10 + (c.toNat - '0'.toNat)) :: acc.tail else 0 :: acc)
    [0]).reverse

/-- The address is in the network. -/
def inNetwork (text : String) (ip : BitVec 32) : Bool :=
  match numbers text.toList with
  | [a, b, c, d, n] => ip.toNat >>> (32 - n) == (((a * 256 + b) * 256 + c) * 256 + d) >>> (32 - n)
  | _ => false

/-- The options of the plan's rules. -/
def hitsPacket : List String → Packet → Bool
  | [], _ => true
  | [_], _ => false
  | option :: value :: rest, p =>
      (if option == "-i" then p.inIface == value
        else if option == "-o" then p.outIface == value
        else if option == "-s" then inNetwork value p.src
        else if option == "-d" then inNetwork value p.dst
        else if option == "-p" then p.proto == value
        else option == "--dport" && toString p.dport == value) && hitsPacket rest p

/-- A firewall with the rules of the plan, the agent's chain in the given order. -/
def sampleInstalled (rules : List Rule) : Firewall
  | .filter => [⟨"FORWARD", [⟨[], .jump "DOCKER-USER"⟩]⟩,
      ⟨"DOCKER-USER", [samplePlan.jumpRule .filter, ⟨[], .verdict "RETURN" []⟩]⟩,
      ⟨filterChain, rules⟩]
  | .nat => [⟨"POSTROUTING", [samplePlan.jumpRule .nat]⟩, ⟨natChain, [samplePlan.snatRule]⟩]

def sampleNotes : SaveNotes where
  policy _ _ := "- [0:0]".toList
  others := ["# Completed".toList]

/-- The rule that drops was moved to the head of the chain. -/
def sampleReordered : Firewall :=
  sampleInstalled [HostForwardPlan.dropRule, samplePlan.peerRule, samplePlan.httpsRule]

/-- From one peer to another. -/
def samplePacket : Packet where
  inIface := "wg0"
  outIface := "wg0"
  src := 0x0a000002
  dst := 0x0a000003
  proto := "udp"
  dport := 53

theorem verify_accepts_reordered :
    (FirewallCommands.ofPlan samplePlan).verifyInstalled sampleReordered.check
        (sampleReordered.save sampleNotes) = .ok () ∧
      ¬ DecidedAsInstalled hitsPacket sampleObservations samplePlan sampleReordered := by
  refine ⟨by decide +kernel, fun h => ?_⟩
  have hdropped : sampleReordered.verdict hitsPacket "DOCKER-USER" samplePacket =
      some ("DROP", []) := by decide
  have haccepted : (sampleReordered.reinstalled sampleObservations samplePlan).verdict hitsPacket
      "DOCKER-USER" samplePacket = some ("ACCEPT", []) := by decide
  have hsame := h samplePacket (by decide)
  rw [hdropped, haccepted] at hsame
  exact absurd hsame (by decide)

/-- The rules in the order of `install`. -/
def sampleInPlace : Firewall := sampleInstalled (stagedRules samplePlan .filter)

theorem verify_sound_sample :
    (FirewallCommands.ofPlan samplePlan).verifyInstalled
        (fun t chain r => !false && sampleInPlace.check t chain r)
        (sampleInPlace.save sampleNotes) = .ok () ∧
      DecidedAsInstalled hitsPacket sampleObservations samplePlan sampleInPlace := by
  have hok : (FirewallCommands.ofPlan samplePlan).verifyInstalled
      (fun t chain r => !false && sampleInPlace.check t chain r)
      (sampleInPlace.save sampleNotes) = .ok () := by
    decide +kernel
  have hnodup (t : Table) : ((sampleInPlace t).map (·.name)).Nodup := by
    cases t <;> decide
  have hplaces : InPlace hitsPacket samplePlan sampleInPlace :=
    inPlace_of_order (by decide) (by decide) (by decide)
  exact ⟨hok, (verify_sound_iff hitsPacket sampleObservations samplePlan _ (by decide) _ sampleNotes
    hnodup (fun _ _ _ => false) hok).2.mpr hplaces⟩

end Sample

end HostAgent
end ZeroVpn
