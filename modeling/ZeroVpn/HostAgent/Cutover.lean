import Mathlib.Data.List.Infix
import ZeroVpn.HostAgent.Firewall
import ZeroVpn.Library.Program

/-!
# The first cutover of the host

`HostCutoverBackend` of `crates/zerovpn-host-agent/src/host_cutover.rs` over
`CommandHostOperations` of `host_commands.rs`, with `install` and `uninstall`
of `firewall_executor.rs` and `render` of `wireguard_config.rs`.

The host is the interface wg0 and the firewall.  A method of the backend is a
program over the commands of the host; the flags of the backend and of
`CommandHostOperations` are its local state.  A command that fails has no
effect.  `require_first_cutover_ready` and `verify_wireguard_state` only read:
each is one call here, and what it answers is any function of the host.
-/

namespace ZeroVpn

open Library

namespace HostAgent

/-- The text of a `wg` configuration. -/
structure SensitiveWgConfig where
  text : String
  deriving DecidableEq, Repr

def listenPort : Nat := 51820

/-- The section of a peer. -/
def renderPeer (peer : DesiredPeer) : String :=
  "\n[Peer]\n" ++ "PublicKey = " ++ peer.publicKey ++ "\n" ++
    (match peer.presharedKey with
      | some psk => "PresharedKey = " ++ psk ++ "\n"
      | none => "") ++
    "AllowedIPs = " ++ dotted peer.vpnIp ++ "/32\n" ++
    "PersistentKeepalive = " ++ toString peer.persistentKeepalive ++ "\n"

/-- `render` of `wireguard_config.rs`. -/
def render (digest : DesiredState → String) (state : DesiredState) (serverPrivateKey : String) :
    Except String SensitiveWgConfig := do
  let _ ← state.validate digest (state.revision - 1)
  ensure (validKey serverPrivateKey) "invalid WireGuard key"
  ensure (state.serverPublicKey != "") "missing server identity"
  let peers := (state.peers.filter (·.enabled)).mergeSort fun a b =>
    decide (a.publicKey ≤ b.publicKey)
  pure ⟨"[Interface]\n" ++ "PrivateKey = " ++ serverPrivateKey ++ "\n" ++
    "ListenPort = " ++ toString listenPort ++ "\n" ++
    String.join (peers.map renderPeer)⟩

/-- The interface that the agent creates. -/
structure Wg0 where
  address : Bool
  config : Option SensitiveWgConfig
  up : Bool
  deriving DecidableEq, Repr

structure Host where
  wg0 : Option Wg0
  firewall : Firewall

/-- Neither wg0 nor anything of the agent in the firewall. -/
def Host.Clean (host : Host) : Prop := host.wg0 = none ∧ host.firewall.Clean

/-- The commands and observations of the host. -/
inductive HostCmd where
  | iptables (command : FirewallCommand)
  /-- `ip link add dev wg0 type wireguard`. -/
  | linkAdd
  /-- `ip address add 10.0.0.1/22 dev wg0`. -/
  | addressAdd
  /-- `wg setconf wg0 /dev/stdin`. -/
  | setconf (config : SensitiveWgConfig)
  /-- `ip link set dev wg0 up`. -/
  | linkUp
  /-- `ip link delete dev wg0`. -/
  | linkDelete
  /-- `require_first_cutover_ready`. -/
  | cutoverReady (expected : HostForwardPlan)
  | wg0Exists
  | iptablesSave
  /-- `verify_wireguard_state`. -/
  | wireguardState (state : DesiredState)
  deriving DecidableEq, Repr

/-- The answers; `false` and `none` are failures. -/
def HostCmd.Reply : HostCmd → Type
  | cutoverReady _ => Except String Unit
  | wg0Exists => Option Bool
  | iptablesSave => Option String
  | wireguardState _ => Except String Unit
  | _ => Bool

/-- The methods of the backend that issue commands.  None of them issues the
same command twice. -/
inductive CutoverPhase where
  | snapshot
  | activate
  | verify
  | rollback
  deriving DecidableEq, Repr

structure HostCall where
  phase : CutoverPhase
  cmd : HostCmd
  deriving DecidableEq, Repr

def HostCall.Reply (c : HostCall) : Type := c.cmd.Reply

/-- What the observations answer. -/
structure Observations where
  cutoverReady : HostForwardPlan → Host → Except String Unit
  wg0Exists : Host → Option Bool
  iptablesSave : Host → Option String
  wireguardState : DesiredState → Host → Except String Unit

/-- A command that changes wg0, if it exists. -/
def Host.onWg0 (host : Host) (f : Wg0 → Wg0) : Host × Bool :=
  match host.wg0 with
  | some wg0 => ({ host with wg0 := some (f wg0) }, true)
  | none => (host, false)

/-- The effect of a command that the system carries out. -/
def HostCmd.exec (obs : Observations) (host : Host) : (c : HostCmd) → Host × c.Reply
  | iptables command =>
      match command.run host.firewall with
      | some fw => ({ host with firewall := fw }, true)
      | none => (host, false)
  | linkAdd =>
      match host.wg0 with
      | some _ => (host, false)
      | none => ({ host with wg0 := some { address := false, config := none, up := false } }, true)
  | addressAdd => host.onWg0 fun w => { w with address := true }
  | setconf config => host.onWg0 fun w => { w with config := some config }
  | linkUp => host.onWg0 fun w => { w with up := true }
  | linkDelete =>
      match host.wg0 with
      | some _ => ({ host with wg0 := none }, true)
      | none => (host, false)
  | cutoverReady expected => (host, obs.cutoverReady expected host)
  | wg0Exists => (host, obs.wg0Exists host)
  | iptablesSave => (host, obs.iptablesSave host)
  | wireguardState state => (host, obs.wireguardState state host)

/-- The answer to a command that fails. -/
def HostCmd.failure : (c : HostCmd) → c.Reply
  | iptables _ | linkAdd | addressAdd | setconf _ | linkUp | linkDelete => false
  | cutoverReady _ | wireguardState _ => .error "command failed"
  | wg0Exists => none
  | iptablesSave => none

/-- The answer is that of a command that succeeds. -/
def HostCmd.isOk : (c : HostCmd) → c.Reply → Bool
  | iptables _, r | linkAdd, r | addressAdd, r | setconf _, r | linkUp, r | linkDelete, r => r
  | cutoverReady _, r | wireguardState _, r => (show Except String Unit from r).isOk
  | wg0Exists, r => (show Option Bool from r).isSome
  | iptablesSave, r => (show Option String from r).isSome

/-- The meaning of a call when `fails` says which calls fail. -/
def HostCall.sem (obs : Observations) (fails : HostCall → Bool) (c : HostCall) (host : Host) :
    Host × c.Reply :=
  if fails c then (host, c.cmd.failure) else c.cmd.exec obs host

inductive CutoverError where
  /-- A check of the backend or of an observation. -/
  | check (message : String)
  /-- "… command failed". -/
  | command (cmd : HostCmd)
  /-- "firewall staging failed; cleanup: …". -/
  | staging (cause : FirewallCommand) (cleanup : List FirewallCommand)
  /-- "firewall activation failed; detach failed: …; chains retained for operator
  recovery". -/
  | detach (cause : FirewallCommand) (detach : List FirewallCommand)
  /-- "firewall activation failed; cleanup: …". -/
  | activation (cause : FirewallCommand) (cleanup : List FirewallCommand)
  /-- "firewall detach failed; chains retained for operator recovery". -/
  | uninstallDetach (cause : FirewallCommand)
  /-- "firewall chain cleanup failed; operator recovery required". -/
  | uninstallCleanup (cause : FirewallCommand)
  /-- "wg0 removal failed; firewall retained". -/
  | removal (cause : HostCmd)
  deriving DecidableEq, Repr

/-- The fields that a cutover changes: those of `HostCutoverBackend` and
`wg0_created` of `CommandHostOperations`. -/
structure CutoverState where
  staged : Option SensitiveWgConfig
  firewallInstalled : Bool
  wgActivationAttempted : Bool
  wg0Created : Bool
  deriving DecidableEq, Repr

/-- A new backend. -/
def CutoverState.new : CutoverState where
  staged := none
  firewallInstalled := false
  wgActivationAttempted := false
  wg0Created := false

/-- Programs over the commands of the host. -/
abbrev HostProgram (α : Type) := Program HostCall HostCall.Reply α

/-- Methods of the backend. -/
abbrev Backend (α : Type) :=
  ExceptT CutoverError (StateT CutoverState (Program HostCall HostCall.Reply)) α

namespace FirewallCommands

variable (commands : FirewallCommands)

/-- `FirewallRunner::run`; `false` is an error. -/
def runCommand (phase : CutoverPhase) (c : FirewallCommand) : HostProgram Bool :=
  Program.call ⟨phase, .iptables c⟩ fun r => Program.ret (show Bool from r)

/-- A `for` loop that counts the commands that succeed and ends at the first
one that fails. -/
def runCounting (phase : CutoverPhase) :
    Nat → List FirewallCommand → HostProgram (Nat × Option FirewallCommand)
  | n, [] => pure (n, none)
  | n, c :: cs => do
      if ← runCommand phase c then
        runCounting phase (n + 1) cs
      else
        pure (n, some c)

/-- Run all commands; the answer is those that fail. -/
def runCollecting (phase : CutoverPhase) : List FirewallCommand → HostProgram (List FirewallCommand)
  | [] => pure []
  | c :: cs => do
      let ok ← runCommand phase c
      let failed ← runCollecting phase cs
      pure (if ok then failed else c :: failed)

/-- `detach_attached`. -/
def detachAttached (count : Nat) : HostProgram (List FirewallCommand) :=
  runCollecting .activate (commands.detach.drop (commands.detach.length - count))

/-- `cleanup_stage`: the chains that were created are flushed and deleted. -/
def cleanupStage (count : Nat) : HostProgram (List FirewallCommand) :=
  let filterExists := decide (0 < count)
  let natExists := decide (1 < count)
  runCollecting .activate
    ((commands.cleanup.zipIdx.filter fun c => if c.2 < 2 then filterExists else natExists).map
      Prod.fst)

/-- `install`. -/
def install : HostProgram (Except CutoverError Unit) := do
  match ← runCounting .activate 0 commands.stage with
  | (staged, some cause) =>
      let cleanup ← commands.cleanupStage staged
      pure (.error (.staging cause cleanup))
  | (staged, none) =>
      match ← runCounting .activate 0 commands.activate with
      | (attached, some cause) =>
          let detach ← commands.detachAttached attached
          if !detach.isEmpty then
            pure (.error (.detach cause detach))
          else
            let cleanup ← commands.cleanupStage staged
            pure (.error (.activation cause cleanup))
      | (_, none) => pure (.ok ())

/-- `uninstall`. -/
def uninstall : HostProgram (Except CutoverError Unit) := do
  match ← runCounting .rollback 0 commands.detach with
  | (_, some cause) => pure (.error (.uninstallDetach cause))
  | (_, none) =>
      match ← runCounting .rollback 0 commands.cleanup with
      | (_, some cause) => pure (.error (.uninstallCleanup cause))
      | (_, none) => pure (.ok ())

end FirewallCommands

namespace Backend

/-- `ensure!`. -/
def check (c : Bool) (message : String) : Backend Unit :=
  if c then pure () else throw (.check message)

/-- A part of a method that does not touch the fields. -/
def ofProgram {α : Type} (p : HostProgram (Except CutoverError α)) : Backend α :=
  ExceptT.mk (StateT.lift p)

/-- A command of `HostCommandRunner`. -/
def runHost (phase : CutoverPhase) (cmd : HostCmd) : Backend Unit :=
  ofProgram (Program.call ⟨phase, cmd⟩ fun r =>
    Program.ret (if cmd.isOk r then .ok () else .error (.command cmd)))

/-- Go on with the outcome of a method. -/
def outcome {α : Type} (p : Backend α) : Backend (Except CutoverError α) :=
  ExceptT.mk (p.run >>= fun r => pure (.ok r))

end Backend

/-- The needle is part of the text. -/
def containsText (text needle : String) : Bool := decide (needle.toList <:+: text.toList)

/-- A backend that could be constructed: the firewall commands are those of the
plan. -/
structure HostCutoverBackend where
  networkPlan : HostForwardPlan
  firewall : FirewallCommands
  serverPrivateKey : String
  serverPublicKey : String
  compiled : FirewallCommands.fromPlan networkPlan = .ok firewall

namespace HostCutoverBackend

theorem firewall_eq (backend : HostCutoverBackend) :
    backend.firewall = FirewallCommands.ofPlan backend.networkPlan := by
  have h := backend.compiled
  unfold FirewallCommands.fromPlan at h
  simp only [bind_eq_ok, pure_eq_ok] at h
  obtain ⟨_, _, _, _, h⟩ := h
  exact h.symm

open Backend

variable (backend : HostCutoverBackend) (digest : DesiredState → String)

/-- `require_current_network_plan`. -/
def requireCurrentNetworkPlan (phase : CutoverPhase) : Backend Unit :=
  ofProgram (Program.call ⟨phase, .cutoverReady backend.networkPlan⟩ fun r =>
    Program.ret ((show Except String Unit from r).mapError .check))

/-- `require_absent_wg0`. -/
def requireAbsentWg0 (phase : CutoverPhase) : Backend Unit :=
  ofProgram (Program.call ⟨phase, .wg0Exists⟩ fun r =>
    Program.ret (match (show Option Bool from r) with
      | none => .error (.command .wg0Exists)
      | some true => .error (.check "host wg0 already exists")
      | some false => .ok ()))

/-- `require_absent_owned_firewall`. -/
def requireAbsentOwnedFirewall (phase : CutoverPhase) : Backend Unit :=
  ofProgram (Program.call ⟨phase, .iptablesSave⟩ fun r =>
    Program.ret (match (show Option String from r) with
      | none => .error (.command .iptablesSave)
      | some text =>
          if containsText text filterChain || containsText text natChain then
            .error (.check "VPN-owned firewall rules already exist")
          else .ok ()))

/-- `activate_wg0`. -/
def activateWg0 (config : SensitiveWgConfig) : Backend Unit := do
  runHost .activate .linkAdd
  modify fun b => { b with wg0Created := true }
  runHost .activate .addressAdd
  runHost .activate (.setconf config)
  runHost .activate .linkUp

/-- `remove_wg0`, under the context of `rollback`. -/
def removeWg0 : Backend Unit := do
  if (← get).wg0Created then
    ofProgram (Program.call ⟨.rollback, .linkDelete⟩ fun r =>
      Program.ret (if HostCmd.linkDelete.isOk r then .ok () else .error (.removal .linkDelete)))
    modify fun b => { b with wg0Created := false }

def snapshot : Backend Unit := do
  let b ← get
  check (!b.firewallInstalled && !b.wgActivationAttempted) "cutover backend is not reusable"
  backend.requireCurrentNetworkPlan .snapshot
  requireAbsentWg0 .snapshot
  requireAbsentOwnedFirewall .snapshot

def stage (candidate : DesiredState) : Backend Unit := do
  check (candidate.serverPublicKey == backend.serverPublicKey)
    "server identity does not match verified key"
  match render digest candidate backend.serverPrivateKey with
  | .error message => throw (.check message)
  | .ok config => modify fun b => { b with staged := some config }

def activate : Backend Unit := do
  match (← get).staged with
  | none => throw (.check "candidate was not staged")
  | some config =>
      backend.requireCurrentNetworkPlan .activate
      requireAbsentWg0 .activate
      requireAbsentOwnedFirewall .activate
      ofProgram backend.firewall.install
      modify fun b => { b with firewallInstalled := true, wgActivationAttempted := true }
      activateWg0 config

def verify (candidate : DesiredState) : Backend Unit := do
  let b ← get
  check (b.firewallInstalled && b.wgActivationAttempted) "cutover was not activated"
  check b.wg0Created "agent has not created wg0"
  ofProgram (Program.call ⟨.verify, .wireguardState candidate⟩ fun r =>
    Program.ret ((show Except String Unit from r).mapError .check))

def rollback : Backend Unit := do
  if (← get).wgActivationAttempted then
    removeWg0
    modify fun b => { b with wgActivationAttempted := false }
  if (← get).firewallInstalled then
    ofProgram backend.firewall.uninstall
    modify fun b => { b with firewallInstalled := false }
  modify fun b => { b with staged := none }

/-- The methods that `ApplyCoordinator::apply` calls when it ends in
`rollback_failure`.  After a `verify` that succeeds the cause is an audit entry
or the journal. -/
def applyRolledBack (candidate : DesiredState) : Backend Unit := do
  backend.snapshot
  let _ ← outcome do
    backend.stage digest candidate
    backend.activate
    verify candidate
  backend.rollback

end HostCutoverBackend

end HostAgent
end ZeroVpn
