import ZeroVpn.HostAgent.Apply
import ZeroVpn.HostAgent.Cutover

/-!
# The tunnel is never without its fence

`ApplyCoordinator::apply` and `restore_from_journal` over `HostCutoverBackend`,
with the host watched after every single command.  A wg0 that the agent created
is fenced by the jump of `DOCKER-USER` and by the last rule of the agent's
chain.

Only the order of the commands protects the host: `activate` adds wg0 after an
`install` that succeeded, and `rollback` leaves the firewall alone unless wg0 is
gone.  Two facts carry the proof.  While a fenced wg0 exists, `install` fails
at its first command, since the chain exists; and a backend that installed the
firewall knows whether it created wg0.
-/

namespace ZeroVpn

open Library

namespace HostAgent

open Chain

/-- `-i wg0 -j ZEROVPN-HOST-FWD`. -/
def fenceJump : Rule where
  spec := ["-i", "wg0"]
  target := .jump filterChain

/-- The jump of `DOCKER-USER` for wg0, and the drop that ends the agent's chain. -/
structure Fence (fw : Firewall) : Prop where
  jump : ∃ c ∈ fw .filter, c.name = "DOCKER-USER" ∧ fenceJump ∈ c.rules
  drop : ∃ c ∈ fw .filter, c.name = filterChain ∧
    c.rules.getLast? = some HostForwardPlan.dropRule

/-- The host under the commands of the agent.  What is watched is not part of
the program: whether wg0 is one that the agent created, and the host after every
command so far. -/
structure WatchedHost where
  host : Host
  created : Bool
  seen : List (Host × Bool)

/-- Is there a wg0 of the agent after a command? -/
def HostCmd.createdAfter (ok created : Bool) : HostCmd → Bool
  | linkAdd => ok || created
  | linkDelete => !ok && created
  | _ => created

/-- The meaning of a call.  Which calls fail and what the observations answer
depends on the number of calls before. -/
def HostCall.watched (obs : Nat → Observations) (fails : Nat → Bool) (c : HostCall)
    (w : WatchedHost) : WatchedHost × c.Reply :=
  let r := c.sem (obs w.seen.length) (fun _ => fails w.seen.length) w.host
  let created := c.cmd.createdAfter (c.cmd.isOk r.2) w.created
  ({ host := r.1, created := created, seen := w.seen ++ [(r.1, created)] }, r.2)

namespace HostCutoverBackend

variable (backend : HostCutoverBackend) (digest : DesiredState → String)
variable (obs : Nat → Observations) (fails : Nat → Bool)

/-- The text of an error. -/
def message : CutoverError → String
  | .check message => message
  | .command _ => "command failed"
  | .staging .. => "firewall staging failed"
  | .detach .. => "firewall activation failed; chains retained for operator recovery"
  | .activation .. => "firewall activation failed"
  | .uninstallDetach _ => "firewall detach failed; chains retained for operator recovery"
  | .uninstallCleanup _ => "firewall chain cleanup failed; operator recovery required"
  | .removal _ => "wg0 removal failed; firewall retained"

/-- Run a method on the watched host and the fields of the backend. -/
def method {α : Type} (p : Backend α) (s : WatchedHost × CutoverState) :
    (WatchedHost × CutoverState) × Except String α :=
  let r := Program.run (HostCall.watched obs fails) (p.run.run s.2) s.1
  ((r.1, r.2.2), r.2.1.mapError message)

/-- `HostCutoverBackend` as an implementation of the trait.  A new backend has
new fields. -/
def hostBackend : HostBackend (WatchedHost × CutoverState) Unit where
  new _ s := ((s.1, .new), .ok ())
  snapshot _ := method obs fails backend.snapshot
  stage _ candidate := method obs fails (backend.stage digest candidate)
  activate _ := method obs fails backend.activate
  verify _ candidate := method obs fails (verify candidate)
  rollback _ _ := method obs fails backend.rollback

end HostCutoverBackend

/-- What the agent does with a `HostCutoverBackend`. -/
inductive CutoverRequest where
  /-- `ApplyCoordinator::apply`. -/
  | apply (candidate : DesiredState)
  /-- `restore_from_journal`. -/
  | restore
  deriving DecidableEq, Repr

/-- A request, with the backend that is made for it and a flag for every call of
the state directory, the lock and the backend. -/
structure CutoverOp where
  backend : HostCutoverBackend
  request : CutoverRequest
  io : List Bool

section Runs

variable (digest : DesiredState → String) (obs : Nat → Observations) (fails : Nat → Bool)

/-- The state directory and the watched host. -/
abbrev CutoverSys := AgentSys (WatchedHost × CutoverState)

def CutoverRequest.program : CutoverRequest → Agent Unit Unit
  | apply candidate => do
      let _ ← HostAgent.apply digest (.cutover candidate.serverPublicKey) candidate
      pure ()
  | restore => do
      let _ ← restoreFromJournal
      pure ()

/-- A request by a new backend. -/
def CutoverOp.run (op : CutoverOp) (s : CutoverSys) : CutoverSys :=
  let calls : (c : AgentCmd Unit) → Bool → CutoverSys → CutoverSys × c.Reply :=
    AgentCmd.sem (op.backend.hostBackend digest obs fails) digest 0
  (Attempt.exec (Program.faulty calls) (op.request.program digest)
    ({ s with host := (s.host.1, .new) }, op.io)).1.1

/-- One request after another. -/
def runCutovers (ops : List CutoverOp) (s : CutoverSys) : CutoverSys :=
  ops.foldl (fun s op => op.run digest obs fails s) s

end Runs

/-- An agent that has created nothing yet, on any host. -/
def CutoverSys.start (journal : JournalFile) (host : Host) : CutoverSys where
  journal := journal
  lock := none
  host := ({ host := host, created := false, seen := [] }, .new)
  atRelease := fun _ => none

section Firewall

variable {fw fw' fw'' : Firewall} {chains chains' : List Chain} {name : String} {r : Rule}

/-- A rule that was appended ends its chain. -/
theorem append_ends (h : (ChainOp.append name r).run chains = some chains') :
    ∃ c ∈ chains', c.name = name ∧ c.rules.getLast? = some r := by
  simp only [ChainOp.run] at h
  split at h
  · next hadmitted =>
    have hhas : Chain.has chains name = true := (Bool.and_eq_true_iff.mp hadmitted).1
    obtain ⟨c, hc, hname⟩ := List.any_eq_true.mp hhas
    injection h with h
    subst h
    refine ⟨{ c with rules := c.rules ++ [r] }, ?_, by simpa using hname, by simp⟩
    exact List.mem_map.mpr ⟨c, hc, by simp_all⟩
  · cases h

/-- A rule that was inserted is in its chain, and no other chain changes. -/
theorem insert_keeps (h : (ChainOp.insert name r).run chains = some chains') :
    (∃ c ∈ chains', c.name = name ∧ r ∈ c.rules) ∧
      ∀ c ∈ chains, c.name ≠ name → c ∈ chains' := by
  simp only [ChainOp.run] at h
  split at h
  · next hadmitted =>
    have hhas : Chain.has chains name = true := (Bool.and_eq_true_iff.mp hadmitted).1
    obtain ⟨c, hc, hname⟩ := List.any_eq_true.mp hhas
    injection h with h
    subst h
    refine ⟨⟨{ c with rules := r :: c.rules }, ?_, by simpa using hname, by simp⟩, ?_⟩
    · exact List.mem_map.mpr ⟨c, hc, by simp_all⟩
    · intro c' hc' hne
      exact List.mem_map.mpr ⟨c', hc', by simp [hne]⟩
  · cases h

/-- A command of the other table. -/
theorem run_nat_filter {op : ChainOp} (h : FirewallCommand.run ⟨.nat, op⟩ fw = some fw') :
    fw' .filter = fw .filter := by
  obtain ⟨chains, _, rfl⟩ := Option.map_eq_some_iff.mp h
  simp

theorem run_filter {op : ChainOp} (h : FirewallCommand.run ⟨.filter, op⟩ fw = some fw') :
    op.run (fw .filter) = some (fw' .filter) := by
  obtain ⟨chains, hrun, rfl⟩ := Option.map_eq_some_iff.mp h
  simpa using hrun

/-- Commands that are all carried out. -/
def runAll : List FirewallCommand → Firewall → Option Firewall
  | [], fw => some fw
  | c :: cs, fw => (c.run fw).bind (runAll cs)

theorem runAll_append {cs ds : List FirewallCommand} :
    runAll (cs ++ ds) fw = (runAll cs fw).bind (runAll ds) := by
  induction cs generalizing fw with
  | nil =>
      rfl
  | cons c cs ih =>
      simp only [List.cons_append, runAll, Option.bind_assoc]
      congr 1
      funext fw'
      exact ih

/-- The commands of `install` fence the tunnel. -/
theorem fence_of_installed (plan : HostForwardPlan)
    (h : runAll ((FirewallCommands.ofPlan plan).stage ++ (FirewallCommands.ofPlan plan).activate)
      fw = some fw') : Fence fw' := by
  simp only [FirewallCommands.ofPlan, List.cons_append, List.nil_append, runAll,
    Option.bind_eq_some_iff, Option.some.injEq] at h
  obtain ⟨_, -, _, -, _, -, staged, -, dropped, hdrop, snat, hsnat, nat, hnat, filter, hjump, rfl⟩ :=
    h
  obtain ⟨c, hc, hname, hlast⟩ := append_ends (run_filter hdrop)
  rw [← run_nat_filter hsnat, ← run_nat_filter hnat] at hc
  obtain ⟨hattached, hkept⟩ := insert_keeps (run_filter hjump)
  refine ⟨hattached, c, hkept c hc ?_, hname, hlast⟩
  rw [hname]
  decide

/-- While the fence stands, its chain cannot be created. -/
theorem Fence.create_refused (h : Fence fw) : (createChain .filter).run fw = none := by
  obtain ⟨c, hc, hname, _⟩ := h.drop
  have hhas : Chain.has (fw .filter) filterChain = true :=
    List.any_eq_true.mpr ⟨c, hc, by simpa using hname⟩
  simp [FirewallCommand.run, createChain, ownedChain, ChainOp.run, hhas]

end Firewall

namespace WatchedHost

/-- Wherever the agent's wg0 existed, it was fenced. -/
structure Ok (w : WatchedHost) : Prop where
  fenced : w.created = true → Fence w.host.firewall
  seen : ∀ x ∈ w.seen, x.2 = true → Fence x.1.firewall

end WatchedHost

section Commands

variable {obs : Nat → Observations} {fails : Nat → Bool} {w : WatchedHost} {c : HostCall}

/-- Only `iptables` changes the firewall. -/
theorem HostCmd.exec_firewall {cmd : HostCmd} (h : ∀ f, cmd ≠ .iptables f) (o : Observations)
    (host : Host) : (cmd.exec o host).1.firewall = host.firewall := by
  have honWg0 (f : Wg0 → Wg0) : (host.onWg0 f).1.firewall = host.firewall := by
    unfold Host.onWg0
    split <;> rfl
  cases cmd with
  | iptables f =>
      exact absurd rfl (h f)
  | addressAdd | setconf _ | linkUp =>
      exact honWg0 _
  | linkAdd | linkDelete =>
      simp only [HostCmd.exec]
      split <;> rfl
  | cutoverReady _ | wg0Exists | iptablesSave | wireguardState _ =>
      rfl

variable (obs fails w c) in
/-- A call fails, without an effect, or is carried out. -/
theorem watched_cases :
    ((c.watched obs fails w).1.host = w.host ∧ (c.watched obs fails w).2 = c.cmd.failure) ∨
      ((c.watched obs fails w).1.host = (c.cmd.exec (obs w.seen.length) w.host).1 ∧
        (c.watched obs fails w).2 = (c.cmd.exec (obs w.seen.length) w.host).2) := by
  simp only [HostCall.watched, HostCall.sem]
  cases fails w.seen.length with
  | true =>
      exact .inl ⟨rfl, rfl⟩
  | false =>
      exact .inr ⟨rfl, rfl⟩

theorem watched_firewall (h : ∀ f, c.cmd ≠ .iptables f) :
    (c.watched obs fails w).1.host.firewall = w.host.firewall := by
  rcases watched_cases obs fails w c with ⟨hhost, _⟩ | ⟨hhost, _⟩
  · rw [hhost]
  · rw [hhost, HostCmd.exec_firewall h]

/-- Only `ip link add` creates a wg0. -/
theorem watched_created (h : c.cmd ≠ .linkAdd)
    (hcreated : (c.watched obs fails w).1.created = true) : w.created = true := by
  simp only [HostCall.watched] at hcreated
  cases hc : c.cmd <;> simp_all [HostCmd.createdAfter]

/-- A command that leaves a fence where there is a wg0 of the agent. -/
theorem WatchedHost.Ok.step (h : w.Ok)
    (hfence : (c.watched obs fails w).1.created = true →
      Fence (c.watched obs fails w).1.host.firewall) : (c.watched obs fails w).1.Ok := by
  refine ⟨hfence, ?_⟩
  intro x hx hcreated
  rcases List.mem_append.mp hx with hold | hnew
  · exact h.seen x hold hcreated
  · cases List.mem_singleton.mp hnew
    exact hfence hcreated

/-- The command does not touch the firewall and creates nothing. -/
def HostCmd.Quiet (cmd : HostCmd) : Prop := (∀ f, cmd ≠ .iptables f) ∧ cmd ≠ .linkAdd

theorem WatchedHost.Ok.quiet (h : w.Ok) (hc : c.cmd.Quiet) : (c.watched obs fails w).1.Ok := by
  refine h.step fun hcreated => ?_
  rw [watched_firewall hc.1]
  exact h.fenced (watched_created hc.2 hcreated)

/-- Without a wg0 of the agent the firewall is free. -/
def WatchedHost.Free (w : WatchedHost) : Prop := w.Ok ∧ w.created = false

theorem WatchedHost.Free.step (h : w.Free) (hc : c.cmd ≠ .linkAdd) :
    (c.watched obs fails w).1.Free := by
  have hcreated : (c.watched obs fails w).1.created = false :=
    Bool.eq_false_iff.mpr fun hnew => Bool.eq_false_iff.mp h.2 (watched_created hc hnew)
  exact ⟨h.1.step fun hnew => absurd hnew (by simp [hcreated]), hcreated⟩

end Commands

section Install

variable {obs : Nat → Observations} {fails : Nat → Bool} {w : WatchedHost}
variable {phase : CutoverPhase}

open FirewallCommands

/-- A program that only runs `iptables`. -/
def OnlyIptables {α : Type} (p : HostProgram α) : Prop :=
  Program.Calls (fun c : HostCall => ∃ f, c.cmd = .iptables f) p

theorem onlyIptables_command (c : FirewallCommand) : OnlyIptables (runCommand phase c) :=
  ⟨⟨c, rfl⟩, fun _ => trivial⟩

theorem onlyIptables_counting (cs : List FirewallCommand) (n : Nat) :
    OnlyIptables (runCounting phase n cs) := by
  induction cs generalizing n with
  | nil =>
      trivial
  | cons c cs ih =>
      refine (onlyIptables_command c).bind fun ok => ?_
      cases ok with
      | true =>
          exact ih (n + 1)
      | false =>
          trivial

theorem onlyIptables_collecting (cs : List FirewallCommand) :
    OnlyIptables (runCollecting phase cs) := by
  induction cs with
  | nil =>
      trivial
  | cons c cs ih =>
      exact (onlyIptables_command c).bind fun ok => ih.bind fun failed => trivial

theorem onlyIptables_install (commands : FirewallCommands) : OnlyIptables commands.install := by
  refine (onlyIptables_counting _ _).bind ?_
  rintro ⟨staged, cause | _⟩
  · refine (onlyIptables_counting _ _).bind ?_
    rintro ⟨attached, cause | _⟩
    · trivial
    · refine (onlyIptables_collecting _).bind fun detach => ?_
      split
      · trivial
      · exact (onlyIptables_collecting _).bind fun cleanup => trivial
  · exact (onlyIptables_collecting _).bind fun cleanup => trivial

theorem onlyIptables_uninstall (commands : FirewallCommands) :
    OnlyIptables commands.uninstall := by
  refine (onlyIptables_counting _ _).bind ?_
  rintro ⟨staged, cause | _⟩
  · refine (onlyIptables_counting _ _).bind ?_
    rintro ⟨attached, cause | _⟩ <;> trivial
  · trivial

theorem WatchedHost.Free.run {α : Type} (h : w.Free) {p : HostProgram α} (hp : OnlyIptables p) :
    (Program.run (HostCall.watched obs fails) p w).1.Free := by
  refine hp.run_keeps (fun c w hc hfree => hfree.step ?_) h
  obtain ⟨f, hf⟩ := hc
  rw [hf]
  exact HostCmd.noConfusion

/-- A command that is carried out is one that `iptables` accepted. -/
theorem runCommand_accepted {c : FirewallCommand}
    (h : (Program.run (HostCall.watched obs fails) (runCommand phase c) w).2 = true) :
    c.run w.host.firewall = some
      (Program.run (HostCall.watched obs fails) (runCommand phase c) w).1.host.firewall := by
  show c.run w.host.firewall =
    some (HostCall.watched obs fails ⟨phase, .iptables c⟩ w).1.host.firewall
  have hok : (HostCall.watched obs fails ⟨phase, .iptables c⟩ w).2 = true := h
  rcases watched_cases obs fails w ⟨phase, .iptables c⟩ with ⟨_, hreply⟩ | ⟨hhost, hreply⟩
  · rw [hreply] at hok
    cases hok
  · rw [hreply] at hok
    rw [hhost]
    simp only [HostCmd.exec] at hok ⊢
    cases hrun : c.run w.host.firewall with
    | none =>
        rw [hrun] at hok
        cases hok
    | some fw =>
        rfl

/-- A command that `iptables` refuses. -/
theorem watched_refused {c : FirewallCommand} (h : c.run w.host.firewall = none) :
    (HostCall.watched obs fails ⟨phase, .iptables c⟩ w).1.host = w.host := by
  rcases watched_cases obs fails w ⟨phase, .iptables c⟩ with ⟨hhost, _⟩ | ⟨hhost, _⟩
  · exact hhost
  · rw [hhost]
    simp only [HostCmd.exec, h]

/-- A loop that gets through has carried out all of its commands. -/
theorem runCounting_done (cs : List FirewallCommand) (n : Nat)
    (h : (Program.run (HostCall.watched obs fails) (runCounting phase n cs) w).2.2 = none) :
    runAll cs w.host.firewall = some
      (Program.run (HostCall.watched obs fails) (runCounting phase n cs) w).1.host.firewall := by
  induction cs generalizing n w with
  | nil =>
      rfl
  | cons c cs ih =>
      simp only [runCounting, Program.run_bind] at h ⊢
      cases hok : (Program.run (HostCall.watched obs fails) (runCommand phase c) w).2 with
      | false =>
          rw [hok] at h
          cases h
      | true =>
          rw [hok] at h
          rw [runAll, runCommand_accepted hok]
          exact ih (n + 1) h

/-- An `install` that succeeds has carried out both of its loops. -/
theorem install_runAll (plan : HostForwardPlan)
    (h : (Program.run (HostCall.watched obs fails) (ofPlan plan).install w).2 = .ok ()) :
    runAll ((ofPlan plan).stage ++ (ofPlan plan).activate) w.host.firewall =
      some (Program.run (HostCall.watched obs fails) (ofPlan plan).install w).1.host.firewall := by
  unfold install at h ⊢
  rw [Program.run_bind] at h ⊢
  rcases hstage : Program.run (HostCall.watched obs fails)
      (runCounting .activate 0 (ofPlan plan).stage) w with ⟨w₁, staged, _ | cause⟩
  · rw [hstage] at h
    simp only [Program.run_bind] at h ⊢
    rcases hactivate : Program.run (HostCall.watched obs fails)
        (runCounting .activate 0 (ofPlan plan).activate) w₁ with ⟨w₂, attached, _ | cause⟩
    · have hfirst := runCounting_done (ofPlan plan).stage 0 (by rw [hstage])
      have hsecond := runCounting_done (ofPlan plan).activate 0 (by rw [hactivate])
      rw [hstage] at hfirst
      rw [hactivate] at hsecond
      rw [runAll_append, hfirst]
      exact hsecond
    · rw [hactivate] at h
      simp only [Program.run_bind] at h
      split at h
      · cases h
      · rw [Program.run_bind] at h
        cases h
  · rw [hstage] at h
    simp only [Program.run_bind] at h
    cases h

theorem install_done (plan : HostForwardPlan)
    (h : (Program.run (HostCall.watched obs fails) (ofPlan plan).install w).2 = .ok ()) :
    Fence (Program.run (HostCall.watched obs fails) (ofPlan plan).install w).1.host.firewall :=
  fence_of_installed plan (install_runAll plan h)

/-- While the agent's wg0 exists, `install` fails at its first command. -/
theorem install_refused (plan : HostForwardPlan) (h : w.Ok) (hcreated : w.created = true) :
    ∃ e, Program.run (HostCall.watched obs fails) (ofPlan plan).install w =
      ((HostCall.watched obs fails ⟨.activate, .iptables (createChain .filter)⟩ w).1, .error e) := by
  have hrefused : (Program.run (HostCall.watched obs fails)
      (runCommand .activate (createChain .filter)) w).2 = false := by
    refine Bool.eq_false_iff.mpr fun hok => ?_
    have haccepted := runCommand_accepted hok
    rw [(h.fenced hcreated).create_refused] at haccepted
    cases haccepted
  have hstage : Program.run (HostCall.watched obs fails)
      (runCounting .activate 0 (ofPlan plan).stage) w =
        ((HostCall.watched obs fails ⟨.activate, .iptables (createChain .filter)⟩ w).1,
          (0, some (createChain .filter))) := by
    rw [FirewallCommands.ofPlan_eq]
    simp only [runCounting, Program.run_bind]
    rw [hrefused]
    rfl
  unfold install
  rw [Program.run_bind, hstage]
  exact ⟨_, rfl⟩

/-- `install` keeps the fence of a wg0 and fences the host when it succeeds; then
there was no wg0 of the agent. -/
theorem install_ok (plan : HostForwardPlan) (h : w.Ok) :
    (Program.run (HostCall.watched obs fails) (ofPlan plan).install w).1.Ok ∧
      ((Program.run (HostCall.watched obs fails) (ofPlan plan).install w).1.created = true →
        w.created = true) ∧
      ((Program.run (HostCall.watched obs fails) (ofPlan plan).install w).2 = .ok () →
        w.created = false ∧
        Fence (Program.run (HostCall.watched obs fails) (ofPlan plan).install w).1.host.firewall) := by
  cases hcreated : w.created with
  | false =>
      have hfree : (Program.run (HostCall.watched obs fails) (ofPlan plan).install w).1.Free :=
        WatchedHost.Free.run ⟨h, hcreated⟩ (onlyIptables_install _)
      refine ⟨hfree.1, fun hnew => ?_, fun hdone => ⟨rfl, install_done plan hdone⟩⟩
      rw [hfree.2] at hnew
      exact hnew
  | true =>
      have hfence := h.fenced hcreated
      obtain ⟨e, hrun⟩ : ∃ e, Program.run (HostCall.watched obs fails) (ofPlan plan).install w =
          (_, .error e) := install_refused plan h hcreated
      rw [hrun]
      refine ⟨h.step fun _ => ?_, fun _ => rfl, fun hdone => by cases hdone⟩
      rw [watched_refused hfence.create_refused]
      exact hfence

end Install

/-- The fence, and what the fields of the backend know about wg0. -/
structure Guarded (s : WatchedHost × CutoverState) : Prop where
  ok : s.1.Ok
  known : s.2.firewallInstalled = true → s.1.created = true → s.2.wg0Created = true
  attempted : s.2.wg0Created = true → s.2.wgActivationAttempted = true

/-- A new backend knows nothing and need not. -/
theorem guarded_new {w : WatchedHost} (h : w.Ok) : Guarded (w, .new) :=
  ⟨h, fun hinstalled => absurd hinstalled Bool.false_ne_true,
    fun hcreated => absurd hcreated Bool.false_ne_true⟩

namespace Backend

variable (sem : (c : HostCall) → WatchedHost → WatchedHost × c.Reply) {α β : Type}

/-- What a method establishes. -/
def wp (p : Backend α) (Q : WatchedHost × CutoverState → Except CutoverError α → Prop)
    (s : WatchedHost × CutoverState) : Prop :=
  let r := Program.run sem (p.run.run s.2) s.1
  Q (r.1, r.2.2) r.2.1

variable {sem} {s : WatchedHost × CutoverState}

theorem wp_pure {Q : WatchedHost × CutoverState → Except CutoverError α → Prop} {a : α} :
    wp sem (pure a) Q s ↔ Q s (.ok a) := Iff.rfl

theorem wp_throw {Q : WatchedHost × CutoverState → Except CutoverError α → Prop}
    {e : CutoverError} : wp sem (throw e) Q s ↔ Q s (.error e) := Iff.rfl

theorem wp_get_bind {Q : WatchedHost × CutoverState → Except CutoverError α → Prop}
    {f : CutoverState → Backend α} : wp sem (get >>= f) Q s ↔ wp sem (f s.2) Q s := Iff.rfl

theorem wp_modify_bind {Q : WatchedHost × CutoverState → Except CutoverError α → Prop}
    {g : CutoverState → CutoverState} {f : PUnit → Backend α} :
    wp sem (modify g >>= f) Q s ↔ wp sem (f ()) Q (s.1, g s.2) := Iff.rfl

theorem wp_ofProgram {Q : WatchedHost × CutoverState → Except CutoverError α → Prop}
    {p : HostProgram (Except CutoverError α)} :
    wp sem (ofProgram p) Q s ↔
      Q ((Program.run sem p s.1).1, s.2) (Program.run sem p s.1).2 := by
  simp only [wp, ofProgram, ExceptT.run_mk, StateT.run_lift, Program.run_bind]
  rfl

theorem wp_bind {Q : WatchedHost × CutoverState → Except CutoverError β → Prop}
    {p : Backend α} {f : α → Backend β} :
    wp sem (p >>= f) Q s ↔
      wp sem p (fun s' r =>
        match r with
        | .ok a => wp sem (f a) Q s'
        | .error e => Q s' (.error e)) s := by
  simp only [wp, ExceptT.run_bind, StateT.run_bind, Program.run_bind]
  rcases Program.run sem (p.run.run s.2) s.1 with ⟨w, ⟨e | a⟩, b⟩ <;> rfl

variable (sem) in
/-- A method that keeps the host guarded. -/
def Keeps (p : Backend α) : Prop := ∀ s, Guarded s → wp sem p (fun s' _ => Guarded s') s

theorem keeps_pure (a : α) : Keeps sem (pure a) := fun _ h => h

theorem keeps_throw (e : CutoverError) : Keeps sem (throw e : Backend α) := fun _ h => h

theorem keeps_get : Keeps sem get := fun _ h => h

theorem Keeps.bind {p : Backend α} {f : α → Backend β} (hp : Keeps sem p)
    (hf : ∀ a, Keeps sem (f a)) : Keeps sem (p >>= f) := by
  intro s h
  rw [wp_bind]
  have hfirst := hp s h
  unfold wp at hfirst ⊢
  rcases hrun : Program.run sem (p.run.run s.2) s.1 with ⟨w, (e | a), b⟩
  · rw [hrun] at hfirst
    exact hfirst
  · rw [hrun] at hfirst
    exact hf a _ hfirst

theorem keeps_check (c : Bool) (message : String) : Keeps sem (check c message) := by
  cases c with
  | true =>
      exact keeps_pure ()
  | false =>
      exact keeps_throw _

end Backend

namespace HostCutoverBackend

open Backend

variable {backend : HostCutoverBackend} {digest : DesiredState → String}
variable {obs : Nat → Observations} {fails : Nat → Bool}

/-- A quiet command. -/
theorem keeps_quiet {α : Type} {c : HostCall} (hc : c.cmd.Quiet)
    (f : c.Reply → Except CutoverError α) :
    Keeps (HostCall.watched obs fails)
      (ofProgram (Program.call c fun r => Program.ret (f r))) := by
  intro s h
  rw [wp_ofProgram]
  refine ⟨h.ok.quiet hc, fun hinstalled hcreated => ?_, h.attempted⟩
  exact h.known hinstalled (watched_created hc.2 hcreated)

theorem keeps_requireCurrentNetworkPlan (phase : CutoverPhase) :
    Keeps (HostCall.watched obs fails) (backend.requireCurrentNetworkPlan phase) :=
  keeps_quiet ⟨fun _ => HostCmd.noConfusion, HostCmd.noConfusion⟩ _

theorem keeps_requireAbsentWg0 (phase : CutoverPhase) :
    Keeps (HostCall.watched obs fails) (requireAbsentWg0 phase) :=
  keeps_quiet ⟨fun _ => HostCmd.noConfusion, HostCmd.noConfusion⟩ _

theorem keeps_requireAbsentOwnedFirewall (phase : CutoverPhase) :
    Keeps (HostCall.watched obs fails) (requireAbsentOwnedFirewall phase) :=
  keeps_quiet ⟨fun _ => HostCmd.noConfusion, HostCmd.noConfusion⟩ _

theorem keeps_snapshot : Keeps (HostCall.watched obs fails) backend.snapshot :=
  keeps_get.bind fun _ => (keeps_check _ _).bind fun _ =>
    (keeps_requireCurrentNetworkPlan _).bind fun _ => (keeps_requireAbsentWg0 _).bind fun _ =>
      keeps_requireAbsentOwnedFirewall _

theorem keeps_stage (candidate : DesiredState) :
    Keeps (HostCall.watched obs fails) (backend.stage digest candidate) := by
  refine (keeps_check _ _).bind fun _ => ?_
  split
  · exact keeps_throw _
  · intro s h
    exact ⟨h.ok, h.known, h.attempted⟩

theorem keeps_verify (candidate : DesiredState) :
    Keeps (HostCall.watched obs fails) (verify candidate) :=
  keeps_get.bind fun _ => (keeps_check _ _).bind fun _ => (keeps_check _ _).bind fun _ =>
    keeps_quiet ⟨fun _ => HostCmd.noConfusion, HostCmd.noConfusion⟩ _

/-- `ip link add` behind the fence. -/
theorem keeps_activateWg0 (config : SensitiveWgConfig) {s : WatchedHost × CutoverState}
    (h : s.1.Ok) (hfence : Fence s.1.host.firewall) (hfree : s.1.created = false)
    (hattempted : s.2.wgActivationAttempted = true) :
    wp (HostCall.watched obs fails) (activateWg0 config) (fun s' _ => Guarded s') s := by
  have hadded : (HostCall.watched obs fails ⟨.activate, .linkAdd⟩ s.1).1.Ok := by
    refine h.step fun _ => ?_
    rw [watched_firewall fun _ => HostCmd.noConfusion]
    exact hfence
  have hrest : Keeps (HostCall.watched obs fails) (do
      runHost .activate .addressAdd
      runHost .activate (.setconf config)
      runHost .activate .linkUp) :=
    (keeps_quiet ⟨fun _ => HostCmd.noConfusion, HostCmd.noConfusion⟩ _).bind fun _ =>
      (keeps_quiet ⟨fun _ => HostCmd.noConfusion, HostCmd.noConfusion⟩ _).bind fun _ =>
        keeps_quiet ⟨fun _ => HostCmd.noConfusion, HostCmd.noConfusion⟩ _
  unfold activateWg0
  rw [wp_bind, runHost, wp_ofProgram, Program.run_call, Program.run_ret]
  cases hok : HostCmd.linkAdd.isOk (HostCall.watched obs fails ⟨.activate, .linkAdd⟩ s.1).2 with
  | true =>
      refine wp_modify_bind.mpr (hrest _ ?_)
      exact ⟨hadded, fun _ _ => rfl, fun _ => hattempted⟩
  | false =>
      have hnone : (HostCall.watched obs fails ⟨.activate, .linkAdd⟩ s.1).1.created = false := by
        show (_ || s.1.created) = false
        rw [hfree, Bool.or_false]
        exact hok
      exact ⟨hadded, fun _ hcreated => absurd hcreated (Bool.eq_false_iff.mp hnone),
        fun _ => hattempted⟩

theorem keeps_activate : Keeps (HostCall.watched obs fails) backend.activate := by
  refine keeps_get.bind fun b => ?_
  split
  · exact keeps_throw _
  · next config _ =>
    refine (keeps_requireCurrentNetworkPlan _).bind fun _ => ?_
    refine (keeps_requireAbsentWg0 _).bind fun _ => ?_
    refine (keeps_requireAbsentOwnedFirewall _).bind fun _ => ?_
    intro s h
    obtain ⟨hok, hkept, hfresh⟩ : _ ∧ (_ → s.1.created = true) ∧ _ :=
      install_ok backend.networkPlan h.ok
    rw [wp_bind, wp_ofProgram, backend.firewall_eq]
    rcases hrun : Program.run (HostCall.watched obs fails)
        (FirewallCommands.ofPlan backend.networkPlan).install s.1 with ⟨w, (e | _)⟩
    · rw [hrun] at hok hkept
      exact ⟨hok, fun hinstalled hcreated => h.known hinstalled (hkept hcreated), h.attempted⟩
    · rw [hrun] at hok hkept hfresh
      obtain ⟨hfree, hfence⟩ := hfresh rfl
      refine wp_modify_bind.mpr (keeps_activateWg0 config hok hfence ?_ rfl)
      exact Bool.eq_false_iff.mpr fun hcreated => Bool.eq_false_iff.mp hfree (hkept hcreated)

/-- A `remove_wg0` that succeeds leaves no wg0 that the backend created. -/
theorem removeWg0_guarded {s : WatchedHost × CutoverState} (h : Guarded s) :
    wp (HostCall.watched obs fails) removeWg0
      (fun s' r => Guarded s' ∧ (r = .ok () → s'.2.wg0Created = false)) s := by
  unfold removeWg0
  rw [wp_get_bind]
  split
  · have hquiet : HostCmd.linkDelete.Quiet :=
      ⟨fun _ => HostCmd.noConfusion, HostCmd.noConfusion⟩
    have hkept : (HostCall.watched obs fails ⟨.rollback, .linkDelete⟩ s.1).1.Ok := h.ok.quiet hquiet
    rw [wp_bind, wp_ofProgram, Program.run_call, Program.run_ret]
    cases hok : HostCmd.linkDelete.isOk
        (HostCall.watched obs fails ⟨.rollback, .linkDelete⟩ s.1).2 with
    | true =>
        have hgone : (HostCall.watched obs fails ⟨.rollback, .linkDelete⟩ s.1).1.created = false := by
          show (!HostCmd.linkDelete.isOk
            (HostCall.watched obs fails ⟨.rollback, .linkDelete⟩ s.1).2 && s.1.created) = false
          rw [hok]
          rfl
        refine ⟨⟨hkept, fun _ hcreated => ?_, fun hnone => by cases hnone⟩, fun _ => rfl⟩
        exact absurd hcreated (Bool.eq_false_iff.mp hgone)
    | false =>
        refine ⟨⟨hkept, fun hinstalled hcreated => ?_, h.attempted⟩, fun hdone => by cases hdone⟩
        exact h.known hinstalled (watched_created hquiet.2 hcreated)
  · next hnone =>
    exact ⟨h, fun _ => Bool.eq_false_iff.mpr hnone⟩

/-- `rollback` after wg0. -/
theorem uninstall_guarded {s : WatchedHost × CutoverState} (h : Guarded s)
    (hcreated : s.2.wg0Created = false) :
    wp (HostCall.watched obs fails) (do
        if (← get).firewallInstalled then
          ofProgram backend.firewall.uninstall
          modify fun b => { b with firewallInstalled := false }
        modify fun b => { b with staged := none })
      (fun s' _ => Guarded s') s := by
  rw [wp_get_bind]
  split
  · next hinstalled =>
    have hfree : s.1.Free := by
      refine ⟨h.ok, Bool.eq_false_iff.mpr fun hexists => ?_⟩
      exact Bool.eq_false_iff.mp hcreated (h.known hinstalled hexists)
    have hkept : (Program.run (HostCall.watched obs fails) backend.firewall.uninstall s.1).1.Free :=
      hfree.run (onlyIptables_uninstall _)
    have hguarded (b : CutoverState) (hb : b.wg0Created = false) : Guarded
        ((Program.run (HostCall.watched obs fails) backend.firewall.uninstall s.1).1, b) :=
      ⟨hkept.1, fun _ hexists => absurd hexists (Bool.eq_false_iff.mp hkept.2),
        fun hmine => absurd hmine (Bool.eq_false_iff.mp hb)⟩
    rw [wp_bind, wp_ofProgram]
    cases (Program.run (HostCall.watched obs fails) backend.firewall.uninstall s.1).2 with
    | error e =>
        exact hguarded _ hcreated
    | ok _ =>
        exact hguarded _ hcreated
  · exact ⟨h.ok, h.known, h.attempted⟩

theorem keeps_rollback : Keeps (HostCall.watched obs fails) backend.rollback := by
  intro s h
  unfold rollback
  rw [wp_get_bind]
  split
  · rw [wp_bind]
    have hremoved : wp (HostCall.watched obs fails) removeWg0 _ s := removeWg0_guarded h
    unfold wp at hremoved ⊢
    rcases hrun : Program.run (HostCall.watched obs fails) (removeWg0.run.run s.2) s.1 with
      ⟨w, (e | _), b⟩
    · rw [hrun] at hremoved
      exact hremoved.1
    · rw [hrun] at hremoved
      obtain ⟨hguarded, hnone⟩ := hremoved
      refine uninstall_guarded (s := (w, { b with wgActivationAttempted := false }))
        ⟨hguarded.ok, hguarded.known, fun hmine => ?_⟩ (hnone rfl)
      exact absurd hmine (Bool.eq_false_iff.mp (hnone rfl))
  · next hidle =>
    exact uninstall_guarded h (Bool.eq_false_iff.mpr fun hmine => hidle (h.attempted hmine))

/-- A method that keeps the host guarded does so when the agent calls it. -/
theorem method_guarded {α : Type} {p : Backend α} (hp : Keeps (HostCall.watched obs fails) p)
    {s : WatchedHost × CutoverState} (h : Guarded s) : Guarded (method obs fails p s).1 := hp s h

end HostCutoverBackend

section Requests

variable {digest : DesiredState → String} {obs : Nat → Observations} {fails : Nat → Bool}

open HostCutoverBackend

/-- No call of the agent leaves the host unguarded. -/
theorem agentCmd_guarded (backend : HostCutoverBackend) (c : AgentCmd Unit) (ok : Bool)
    {s : CutoverSys} (h : Guarded s.host) :
    Guarded (c.sem (backend.hostBackend digest obs fails) digest 0 ok s).1.host := by
  cases c with
  | newBackend kind =>
      exact guarded_new h.ok
  | snapshot kind =>
      exact method_guarded keeps_snapshot h
  | stage kind candidate =>
      exact method_guarded (keeps_stage candidate) h
  | activate kind =>
      exact method_guarded keeps_activate h
  | verify kind candidate =>
      exact method_guarded (keeps_verify candidate) h
  | rollback kind saved =>
      exact method_guarded keeps_rollback h
  | acquireLock =>
      simp only [AgentCmd.sem]
      split <;> exact h
  | releaseLock | audit action revision d | writeTemporary applied | syncDirectory =>
      exact h
  | load site | persist applied =>
      cases ok <;> exact h

/-- A guarded host, whatever the flags of the calls to come. -/
def GuardedSys (t : CutoverSys × List Bool) : Prop := Guarded t.1.host

theorem cutoverOp_ok (op : CutoverOp) {s : CutoverSys} (h : s.host.1.Ok) :
    (op.run digest obs fails s).host.1.Ok := by
  have hrun : GuardedSys (Attempt.exec
      (Program.faulty (AgentCmd.sem (op.backend.hostBackend digest obs fails) digest 0))
      (op.request.program digest) ({ s with host := (s.host.1, .new) }, op.io)).1 := by
    refine (Program.calls_true (op.request.program digest).run).run_keeps ?_ (guarded_new h)
    intro c t _ ht
    exact agentCmd_guarded op.backend c _ ht
  exact hrun.ok

/-- After every single command of every apply and restore, whatever fails, a wg0
that the agent created is fenced. -/
theorem tunnel_never_without_fence (digest : DesiredState → String) (obs : Nat → Observations)
    (fails : Nat → Bool) (journal : JournalFile) (host : Host) (ops : List CutoverOp) :
    ∀ x ∈ (runCutovers digest obs fails ops (.start journal host)).host.1.seen,
      x.2 = true → Fence x.1.firewall := by
  have hrun : ∀ (ops : List CutoverOp) (s : CutoverSys), s.host.1.Ok →
      (runCutovers digest obs fails ops s).host.1.Ok := by
    intro ops
    induction ops with
    | nil =>
        exact fun s h => h
    | cons op ops ih =>
        exact fun s h => ih _ (cutoverOp_ok op h)
  refine (hrun ops _ ⟨fun hcreated => ?_, ?_⟩).seen
  · cases hcreated
  · intro x hx
    cases hx

/-- A backend for a bridge of Docker. -/
def dockerBackend : HostCutoverBackend where
  networkPlan := ⟨"10.0.0.0/22", 0xac120002, "br-web", 0xac120001, true⟩
  firewall := .ofPlan ⟨"10.0.0.0/22", 0xac120002, "br-web", 0xac120001, true⟩
  serverPrivateKey := "AQEBAQEBAQEBAQEBAQEBAQEBAQEBAQEBAQEBAQEBAQE="
  serverPublicKey := "AgICAgICAgICAgICAgICAgICAgICAgICAgICAgICAgI="
  compiled := by decide

/-- An apply of the bridge on a host with the chains of Docker. -/
def dockerApply (fails : Nat → Bool) : WatchedHost :=
  let agree : Observations := ⟨fun _ _ => .ok (), fun h => some h.wg0.isSome,
    fun _ => some "", fun _ _ => .ok ()⟩
  let docker : Host := ⟨none, fun
    | .filter => [⟨"DOCKER-USER", []⟩]
    | .nat => [⟨"POSTROUTING", []⟩]⟩
  (runCutovers (fun _ => "") (fun _ => agree) fails
    [⟨dockerBackend, .apply ⟨1, dockerBackend.serverPublicKey, []⟩, []⟩]
    (.start .missing docker)).host.1

/-- With a failure of the last `ip` command there was a wg0 for a while. -/
theorem docker_apply_fenced :
    ∃ x ∈ (dockerApply fun n => n == 17).seen, x.2 = true ∧ Fence x.1.firewall := by
  have hseen : (dockerApply fun n => n == 17).seen.any (fun x => x.2) = true := by
    decide
  obtain ⟨x, hx, hcreated⟩ := List.any_eq_true.mp hseen
  exact ⟨x, hx, hcreated, tunnel_never_without_fence _ _ _ _ _ _ x hx hcreated⟩

end Requests

end HostAgent
end ZeroVpn
