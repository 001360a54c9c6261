import ZeroVpn.HostAgent.FirewallVerify
import ZeroVpn.HostAgent.Preflight
import ZeroVpn.HostAgent.TunnelFence
import ZeroVpn.HostAgent.WgVerify

/-!
# The startup gate

`prepare_startup` of `crates/zerovpn-host-agent/src/startup.rs`, with
`verify_restarted_host` and `restore_from_journal` of `recovery.rs` and
`HostCutoverBackend`.

The gate reads the journal and looks for wg0.  A wg0 that exists is only
compared with the journal; a wg0 that is missing is restored by a cutover, which
may roll back.  Every call may fail, and a command that fails has no effect.
What the kernel prints about an interface is any function of the host.
-/

namespace ZeroVpn

open Library
open Library.Attempt (wp wp_bind wp_lift wp_pure wp_throw wp_outcome)

namespace HostAgent

open Preflight

/-- `parse_ipv4_route_get` of `policy.rs`. -/
def parseIpv4RouteGet (output : List Char) (target : BitVec 32) : Except String BridgeRoute := do
  let first ← expect "empty route output" (Text.lines output).head?
  let tokens := Text.words first
  let reported ← expect "route target missing" tokens.head?
  let address ← expect "invalid IPv4 address syntax" (Wire.readDotted reported)
  ensure (address == target) "route target mismatch"
  ensure (!tokens.contains "via".toList) "HTTPS target is not directly connected"
  let interface ← expect "route interface missing"
    (((Text.pairs tokens).find? fun pair => pair.1 == "dev".toList).map Prod.snd)
  let source ← expect "route source missing"
    (((Text.pairs tokens).find? fun pair => pair.1 == "src".toList).map Prod.snd)
  let sourceIp ← expect "invalid IPv4 address syntax" (Wire.readDotted source)
  pure { interface := String.ofList interface, sourceIp }

inductive StartupStatus where
  | noAppliedState
  | activeVerified
  | restored
  deriving DecidableEq, Repr

inductive StartupError where
  | failed (message : String)
  /-- An error of `restore_from_journal`. -/
  | restore (e : AgentError)
  deriving DecidableEq, Repr

/-- The calls of the gate. -/
inductive StartupCmd where
  | load
  | wg0Exists
  /-- `load_server_private_key`. -/
  | privateKey
  /-- `verify_server_identity`. -/
  | identity (key publicKey : String)
  | iptablesSave
  | routeGet (target : BitVec 32)
  /-- `verify_wireguard_state`. -/
  | wireguardState (state : DesiredState)
  /-- `verify_installed`. -/
  | verifyInstalled (commands : FirewallCommands) (snapshot : String)
  /-- A call of `restore_from_journal` with this backend. -/
  | restore (backend : HostCutoverBackend) (c : AgentCmd Unit)

/-- The answers. -/
def StartupCmd.Reply : StartupCmd → Type
  | load => Except String (Option AppliedState)
  | wg0Exists => Except String Bool
  | privateKey => Except String String
  | identity .. => Except String Unit
  | iptablesSave => Except String String
  | routeGet _ => Except String (List Char)
  | wireguardState _ => Except String Unit
  | verifyInstalled .. => Except String Unit
  | restore _ c => c.Reply

/-- What the gate reads.  The first argument of `output` and `cutoverReady` is the number of
commands before, so that any of these observations may fail. -/
structure StartupReads where
  privateKey : Except String String
  identity : String → String → Except String Unit
  iptablesSave : Host → String
  routeGet : BitVec 32 → Host → List Char
  output : Nat → Host → WgObservation → Except String (List Char)
  cutoverReady : Nat → HostForwardPlan → Host → Except String Unit
  /-- `iptables -C` fails on a rule that is there. -/
  checkFails : Table → String → Rule → Bool

namespace StartupReads

variable (reads : StartupReads)

/-- The observations of the cutover. -/
def observations (n : Nat) : Observations where
  cutoverReady := reads.cutoverReady n
  wg0Exists := fun host => some host.wg0.isSome
  iptablesSave := fun host => some (reads.iptablesSave host)
  wireguardState := fun state host => verifyWireguardState (reads.output n host) state

end StartupReads

section Semantics

variable (digest : DesiredState → String) (reads : StartupReads) (fails : Nat → Bool)

/-- The meaning of a call; the flag says whether it succeeds. -/
def StartupCmd.sem : (c : StartupCmd) → Bool → CutoverSys → CutoverSys × c.Reply
  | .load, true, s => (s, s.journal.load digest)
  | .load, false, s => (s, .error "read last-known-good")
  | .wg0Exists, true, s => (s, .ok s.host.1.host.wg0.isSome)
  | .wg0Exists, false, s => (s, .error "permission denied")
  | .privateKey, true, s => (s, reads.privateKey)
  | .privateKey, false, s => (s, .error "cannot open protected server key")
  | .identity key publicKey, true, s => (s, reads.identity key publicKey)
  | .identity .., false, s => (s, .error "wg pubkey failed")
  | .iptablesSave, true, s => (s, .ok (reads.iptablesSave s.host.1.host))
  | .iptablesSave, false, s => (s, .error "read-only iptables-save failed")
  | .routeGet target, true, s => (s, .ok (reads.routeGet target s.host.1.host))
  | .routeGet _, false, s => (s, .error "read-only ip failed")
  | .wireguardState state, true, s =>
      (s, verifyWireguardState (reads.output s.host.1.seen.length s.host.1.host) state)
  | .wireguardState _, false, s => (s, .error "wg observation failed")
  | .verifyInstalled commands snapshot, true, s =>
      (s, commands.verifyInstalled
        (fun t chain r => !reads.checkFails t chain r && s.host.1.host.firewall.check t chain r)
        (Text.lines snapshot.toList))
  | .verifyInstalled .., false, s => (s, .error "iptables command failed")
  | .restore backend c, ok, s =>
      c.sem (backend.hostBackend digest reads.observations fails) digest 0 ok s

end Semantics

/-- Programs of the gate. -/
abbrev Startup (α : Type) := Attempt StartupCmd StartupCmd.Reply StartupError α

section Programs

variable (digest : DesiredState → String)

/-- A call that answers with a result. -/
def askHost {α : Type} (c : StartupCmd) (f : c.Reply → Except String α) : Startup α :=
  Attempt.lift c fun r => (f r).mapError .failed

/-- `?` on a result. -/
def ofResult {α : Type} : Except String α → Startup α
  | .ok a => pure a
  | .error message => throw (.failed message)

/-- `verify_restarted_host`. -/
def verifyRestartedHost (applied : AppliedState) : Startup Unit := do
  let d ← ofResult (applied.state.validate digest (applied.state.revision - 1))
  ofResult (ensure (d == applied.digest) "applied journal digest mismatch")
  let present ← askHost .wg0Exists id
  ofResult (ensure present "host wg0 missing after restart")
  let snapshot ← askHost .iptablesSave id
  let facts ← ofResult (parseIptablesSave snapshot)
  let target ← ofResult (expect "HTTPS target missing" facts.httpsTarget)
  let output ← askHost (.routeGet target) id
  let route ← ofResult (parseIpv4RouteGet output target)
  let plan ← ofResult (compileHostForwarding facts route)
  askHost (.wireguardState applied.state) id
  let commands ← ofResult (FirewallCommands.fromPlan plan)
  askHost (.verifyInstalled commands snapshot) id

/-- The backend of a plan, if its firewall commands can be compiled. -/
def ofPlan (plan : HostForwardPlan) (privateKey publicKey : String) :
    Except String HostCutoverBackend :=
  match h : FirewallCommands.fromPlan plan with
  | .error message => .error message
  | .ok commands => .ok
      { networkPlan := plan
        firewall := commands
        serverPrivateKey := privateKey
        serverPublicKey := publicKey
        compiled := h }

/-- `HostCutoverBackend::new`. -/
def newCutoverBackend (facts : FirewallFacts) (route : BridgeRoute) (privateKey publicKey : String) :
    Startup HostCutoverBackend := do
  let plan ← ofResult (compileHostForwarding facts route)
  askHost (.identity privateKey publicKey) id
  ofResult (ofPlan plan privateKey publicKey)

/-- The calls of `restore_from_journal` as calls of the gate. -/
def ofRestore {α : Type} (backend : HostCutoverBackend) :
    Program (AgentCmd Unit) AgentCmd.Reply α → Program StartupCmd StartupCmd.Reply α
  | .ret a => .ret a
  | .call c k => .call (.restore backend c) fun r => ofRestore backend (k r)

/-- `restore_from_journal` with a new backend. -/
def restoreHost (backend : HostCutoverBackend) : Startup AppliedState := do
  Attempt.lift (.restore backend (.newBackend .restart)) fun r =>
    (show Except String Unit from r).mapError .failed
  ExceptT.mk (ofRestore backend (restoreFromJournal : Agent Unit AppliedState).run >>= fun r =>
    pure (r.mapError .restore))

/-- `prepare_startup`. -/
def prepareStartup : Startup StartupStatus := do
  match ← askHost .load id with
  | none => do
      let present ← askHost .wg0Exists id
      ofResult (ensure (!present) "host wg0 exists without an applied journal")
      pure .noAppliedState
  | some applied => do
      let privateKey ← askHost .privateKey id
      askHost (.identity privateKey applied.state.serverPublicKey) id
      let present ← askHost .wg0Exists id
      if present then do
        verifyRestartedHost digest applied
        pure .activeVerified
      else do
        let snapshot ← askHost .iptablesSave id
        let facts ← ofResult (parseIptablesSave snapshot)
        let target ← ofResult (expect "HTTPS target missing" facts.httpsTarget)
        let output ← askHost (.routeGet target) id
        let route ← ofResult (parseIpv4RouteGet output target)
        let backend ← newCutoverBackend facts route privateKey applied.state.serverPublicKey
        let _ ← restoreHost backend
        pure .restored

end Programs

section Interface

variable {obs : Nat → Observations} {fails : Nat → Bool} {w : WatchedHost} {c : HostCall}

/-- The command only looks at the host. -/
def HostCmd.Observes : HostCmd → Prop
  | cutoverReady _ | wg0Exists | iptablesSave | wireguardState _ => True
  | _ => False

theorem watched_observes (h : c.cmd.Observes) : (c.watched obs fails w).1.host = w.host := by
  rcases watched_cases obs fails w c with ⟨hhost, _⟩ | ⟨hhost, _⟩
  · exact hhost
  · rw [hhost]
    cases hc : c.cmd with
    | cutoverReady _ | wg0Exists | iptablesSave | wireguardState _ =>
        rfl
    | iptables _ | linkAdd | addressAdd | setconf _ | linkUp | linkDelete =>
        rw [hc] at h
        exact h.elim

/-- Only `ip link add` and `ip link delete` decide whether there is a wg0. -/
theorem watched_wg0 (hadd : c.cmd ≠ .linkAdd) (hdelete : c.cmd ≠ .linkDelete) :
    (c.watched obs fails w).1.host.wg0.isSome = w.host.wg0.isSome := by
  have honWg0 (f : Wg0 → Wg0) : (w.host.onWg0 f).1.wg0.isSome = w.host.wg0.isSome := by
    unfold Host.onWg0
    split
    · next hwg0 =>
      rw [hwg0]
      rfl
    · rfl
  rcases watched_cases obs fails w c with ⟨hhost, _⟩ | ⟨hhost, _⟩
  · rw [hhost]
  · rw [hhost]
    cases hc : c.cmd with
    | linkAdd =>
        exact absurd hc hadd
    | linkDelete =>
        exact absurd hc hdelete
    | addressAdd | setconf _ | linkUp =>
        exact honWg0 _
    | iptables command =>
        simp only [HostCmd.exec]
        split <;> rfl
    | cutoverReady _ | wg0Exists | iptablesSave | wireguardState _ =>
        rfl

variable (obs fails w) in
/-- `ip link add` makes a wg0 or leaves the host alone. -/
theorem watched_linkAdd (phase : CutoverPhase) :
    ((HostCall.watched obs fails ⟨phase, .linkAdd⟩ w).2 = true ∧
        (HostCall.watched obs fails ⟨phase, .linkAdd⟩ w).1.host.wg0.isSome = true) ∨
      ((HostCall.watched obs fails ⟨phase, .linkAdd⟩ w).2 = false ∧
        (HostCall.watched obs fails ⟨phase, .linkAdd⟩ w).1.host = w.host) := by
  rcases watched_cases obs fails w ⟨phase, .linkAdd⟩ with ⟨hhost, hreply⟩ | ⟨hhost, hreply⟩
  · exact .inr ⟨hreply, hhost⟩
  · rw [hhost, hreply]
    simp only [HostCmd.exec]
    split
    · exact .inr ⟨rfl, rfl⟩
    · exact .inl ⟨rfl, rfl⟩

theorem watched_linkDelete {phase : CutoverPhase}
    (h : (HostCall.watched obs fails ⟨phase, .linkDelete⟩ w).2 = true) :
    (HostCall.watched obs fails ⟨phase, .linkDelete⟩ w).1.host.wg0 = none := by
  rcases watched_cases obs fails w ⟨phase, .linkDelete⟩ with ⟨hhost, hreply⟩ | ⟨hhost, hreply⟩
  · rw [hreply] at h
    cases h
  · rw [hreply] at h
    rw [hhost]
    simp only [HostCmd.exec] at h ⊢
    split at h
    · rfl
    · cases h

/-- Is there a wg0? -/
def WatchedHost.Present (present : Bool) (w : WatchedHost) : Prop := w.host.wg0.isSome = present

theorem onlyIptables_wg0 {α : Type} {p : HostProgram α} (hp : OnlyIptables p) {present : Bool}
    (h : w.Present present) : (Program.run (HostCall.watched obs fails) p w).1.Present present := by
  refine hp.run_keeps ?_ h
  rintro c w' ⟨f, hf⟩ hkept
  have hadd : c.cmd ≠ .linkAdd := by
    rw [hf]
    exact HostCmd.noConfusion
  have hdelete : c.cmd ≠ .linkDelete := by
    rw [hf]
    exact HostCmd.noConfusion
  exact (watched_wg0 hadd hdelete).trans hkept

end Interface

namespace HostCutoverBackend

open Backend

variable {backend : HostCutoverBackend} {digest : DesiredState → String}
variable {obs : Nat → Observations} {fails : Nat → Bool} {α β : Type}

/-- Look at the host and go on. -/
theorem observe_then {c : HostCall} (hc : c.cmd.Observes) {f : c.Reply → Except CutoverError α}
    {k : α → Backend β} {Q : WatchedHost × CutoverState → Except CutoverError β → Prop}
    {s : WatchedHost × CutoverState}
    (hok : ∀ w a, w.host = s.1.host → Backend.wp (HostCall.watched obs fails) (k a) Q (w, s.2))
    (herror : ∀ w e, w.host = s.1.host → Q (w, s.2) (.error e)) :
    Backend.wp (HostCall.watched obs fails)
      (ofProgram (Program.call c fun r => Program.ret (f r)) >>= k) Q s := by
  have hhost : (HostCall.watched obs fails c s.1).1.host = s.1.host := watched_observes hc
  rw [Backend.wp_bind, wp_ofProgram, Program.run_call, Program.run_ret]
  cases hf : f (HostCall.watched obs fails c s.1).2 with
  | ok a =>
      exact hok _ a hhost
  | error e =>
      exact herror _ e hhost

/-- A look at the host at the end of a method. -/
theorem observe_last {c : HostCall} (hc : c.cmd.Observes) {f : c.Reply → Except CutoverError α}
    {Q : WatchedHost × CutoverState → Except CutoverError α → Prop}
    {s : WatchedHost × CutoverState}
    (h : ∀ w, w.host = s.1.host → Q (w, s.2) (f (HostCall.watched obs fails c s.1).2)) :
    Backend.wp (HostCall.watched obs fails)
      (ofProgram (Program.call c fun r => Program.ret (f r))) Q s := by
  rw [wp_ofProgram, Program.run_call, Program.run_ret]
  exact h _ (watched_observes hc)

theorem check_then {c : Bool} {message : String} {k : Unit → Backend β}
    {Q : WatchedHost × CutoverState → Except CutoverError β → Prop}
    {s : WatchedHost × CutoverState}
    (hok : c = true → Backend.wp (HostCall.watched obs fails) (k ()) Q s)
    (herror : Q s (.error (.check message))) :
    Backend.wp (HostCall.watched obs fails) (check c message >>= k) Q s := by
  cases c with
  | true =>
      exact hok rfl
  | false =>
      exact herror

/-- `snapshot` only looks at the host. -/
theorem snapshot_host (s : WatchedHost × CutoverState) :
    Backend.wp (HostCall.watched obs fails) backend.snapshot
      (fun s' _ => s'.1.host = s.1.host ∧ s'.2 = s.2) s := by
  refine wp_get_bind.mpr (check_then (fun _ => ?_) ⟨rfl, rfl⟩)
  refine observe_then (by trivial) (fun w _ hw => ?_) fun w _ hw => ⟨hw, rfl⟩
  refine observe_then (by trivial) (fun w' _ hw' => ?_) fun w' _ hw' => ⟨hw'.trans hw, rfl⟩
  exact observe_last (by trivial) fun w'' hw'' => ⟨hw''.trans (hw'.trans hw), rfl⟩

/-- `stage` changes nothing but the staged configuration. -/
theorem stage_host (candidate : DesiredState) (s : WatchedHost × CutoverState) :
    Backend.wp (HostCall.watched obs fails) (backend.stage digest candidate)
      (fun s' _ => s'.1 = s.1 ∧ ∃ staged, s'.2 = { s.2 with staged := staged }) s := by
  refine check_then (fun _ => ?_) ⟨rfl, s.2.staged, rfl⟩
  split
  · exact ⟨rfl, s.2.staged, rfl⟩
  · exact ⟨rfl, _, rfl⟩

/-- A wg0 is one that the backend created. -/
def OwnWg0 (s : WatchedHost × CutoverState) : Prop :=
  s.1.host.wg0.isSome = true → s.2.wg0Created = true ∧ s.2.wgActivationAttempted = true

theorem ownWg0_of_none {s : WatchedHost × CutoverState} (h : s.1.host.wg0 = none) : OwnWg0 s := by
  intro hsome
  rw [h] at hsome
  cases hsome

/-- The rule for a sequence whose first part is known. -/
theorem known_then {P : WatchedHost × CutoverState → Except CutoverError α → Prop}
    {Q : WatchedHost × CutoverState → Except CutoverError β → Prop} {p : Backend α}
    {k : α → Backend β} {s : WatchedHost × CutoverState}
    (hp : Backend.wp (HostCall.watched obs fails) p P s)
    (hok : ∀ s' a, P s' (.ok a) → Backend.wp (HostCall.watched obs fails) (k a) Q s')
    (herror : ∀ s' e, P s' (.error e) → Q s' (.error e)) :
    Backend.wp (HostCall.watched obs fails) (p >>= k) Q s := by
  rw [Backend.wp_bind]
  unfold Backend.wp at hp ⊢
  rcases hrun : Program.run (HostCall.watched obs fails) (p.run.run s.2) s.1 with ⟨w, (e | a), b⟩
  · rw [hrun] at hp
    exact herror _ e hp
  · rw [hrun] at hp
    exact hok _ a hp

/-- The backend created wg0 behind this firewall. -/
structure Up (fw : Firewall) (s : WatchedHost × CutoverState) : Prop where
  present : s.1.host.wg0.isSome = true
  created : s.2.wg0Created = true
  attempted : s.2.wgActivationAttempted = true
  firewall : s.1.host.firewall = fw

/-- The commands that configure wg0. -/
theorem up_runHost {fw : Firewall} {cmd : HostCmd} {phase : CutoverPhase}
    {s : WatchedHost × CutoverState} (h : Up fw s) (hadd : cmd ≠ .linkAdd)
    (hdelete : cmd ≠ .linkDelete) (hiptables : ∀ f, cmd ≠ .iptables f) :
    Backend.wp (HostCall.watched obs fails) (runHost phase cmd) (fun s' _ => Up fw s') s := by
  unfold runHost
  rw [wp_ofProgram]
  exact ⟨(watched_wg0 hadd hdelete).trans h.present, h.created, h.attempted,
    (watched_firewall hiptables).trans h.firewall⟩

theorem Up.own {fw : Firewall} {s : WatchedHost × CutoverState} (h : Up fw s) : OwnWg0 s :=
  fun _ => ⟨h.created, h.attempted⟩

/-- `activate_wg0` makes a wg0 of the backend or none, and leaves the firewall alone. -/
theorem activateWg0_own (config : SensitiveWgConfig) {s : WatchedHost × CutoverState}
    (hnone : s.1.host.wg0 = none) (hattempted : s.2.wgActivationAttempted = true) :
    Backend.wp (HostCall.watched obs fails) (activateWg0 config)
      (fun s' r => OwnWg0 s' ∧ (r = .ok () → Up s.1.host.firewall s')) s := by
  have hrest : ∀ s', Up s.1.host.firewall s' → Backend.wp (HostCall.watched obs fails) (do
      runHost .activate .addressAdd
      runHost .activate (.setconf config)
      runHost .activate .linkUp) (fun s'' _ => Up s.1.host.firewall s'') s' := by
    intro s' hup
    refine known_then (up_runHost hup HostCmd.noConfusion HostCmd.noConfusion
      fun _ => HostCmd.noConfusion) (fun s₁ _ h₁ => ?_) fun _ _ h => h
    refine known_then (up_runHost h₁ HostCmd.noConfusion HostCmd.noConfusion
      fun _ => HostCmd.noConfusion) (fun s₂ _ h₂ => ?_) fun _ _ h => h
    exact up_runHost h₂ HostCmd.noConfusion HostCmd.noConfusion fun _ => HostCmd.noConfusion
  unfold activateWg0
  rw [Backend.wp_bind, runHost, wp_ofProgram, Program.run_call, Program.run_ret]
  rcases watched_linkAdd obs fails s.1 .activate with ⟨hreply, hpresent⟩ | ⟨hreply, hhost⟩
  · have hok : HostCmd.linkAdd.isOk (HostCall.watched obs fails ⟨.activate, .linkAdd⟩ s.1).2 = true :=
      hreply
    rw [hok]
    refine wp_modify_bind.mpr ?_
    have hup := hrest ((HostCall.watched obs fails ⟨.activate, .linkAdd⟩ s.1).1,
      { s.2 with wg0Created := true })
      ⟨hpresent, rfl, hattempted, watched_firewall fun _ => HostCmd.noConfusion⟩
    exact ⟨hup.own, fun _ => hup⟩
  · have hok : HostCmd.linkAdd.isOk (HostCall.watched obs fails ⟨.activate, .linkAdd⟩ s.1).2 = false :=
      hreply
    rw [hok]
    refine ⟨ownWg0_of_none ?_, fun h => by cases h⟩
    rw [← hnone, ← hhost]

/-- `activate` makes a wg0 of the backend or none; if it succeeds the firewall was installed. -/
theorem activate_own {s : WatchedHost × CutoverState} (hnone : s.1.host.wg0 = none) :
    Backend.wp (HostCall.watched obs fails) backend.activate
      (fun s' r => OwnWg0 s' ∧ (r = .ok () → ∃ fw, Up fw s' ∧
        runAll ((FirewallCommands.ofPlan backend.networkPlan).stage ++
          (FirewallCommands.ofPlan backend.networkPlan).activate) s.1.host.firewall = some fw)) s := by
  have hidle : ∀ (w : WatchedHost) (b : CutoverState) (e : CutoverError), w.host = s.1.host →
      OwnWg0 (w, b) ∧ ((.error e : Except CutoverError Unit) = .ok () → ∃ fw, Up fw (w, b) ∧
        runAll ((FirewallCommands.ofPlan backend.networkPlan).stage ++
          (FirewallCommands.ofPlan backend.networkPlan).activate) s.1.host.firewall = some fw) := by
    intro w b e hw
    refine ⟨ownWg0_of_none ?_, fun h => by cases h⟩
    rw [← hnone, ← hw]
  refine wp_get_bind.mpr ?_
  cases s.2.staged with
  | none =>
      exact hidle s.1 s.2 _ rfl
  | some config =>
      refine observe_then (by trivial) (fun w _ hw => ?_) fun w e hw => hidle w s.2 e hw
      refine observe_then (by trivial) (fun w' _ hw' => ?_) fun w' e hw' =>
        hidle w' s.2 e (hw'.trans hw)
      refine observe_then (by trivial) (fun w'' _ hw'' => ?_) fun w'' e hw'' =>
        hidle w'' s.2 e (hw''.trans (hw'.trans hw))
      have hhost : w''.host = s.1.host := hw''.trans (hw'.trans hw)
      have habsent : w''.Present false := by
        unfold WatchedHost.Present
        rw [hhost, hnone]
        rfl
      have hkept : (Program.run (HostCall.watched obs fails)
          (FirewallCommands.ofPlan backend.networkPlan).install w'').1.Present false :=
        onlyIptables_wg0 (onlyIptables_install _) habsent
      rw [Backend.wp_bind, wp_ofProgram, backend.firewall_eq]
      rcases hrun : Program.run (HostCall.watched obs fails)
          (FirewallCommands.ofPlan backend.networkPlan).install w'' with ⟨w₁, (e | _)⟩
      · rw [hrun] at hkept
        exact ⟨ownWg0_of_none (by simpa [WatchedHost.Present] using hkept), fun h => by cases h⟩
      · rw [hrun] at hkept
        have hinstalled := install_runAll backend.networkPlan (by rw [hrun])
        rw [hrun, hhost] at hinstalled
        refine wp_modify_bind.mpr ?_
        have hactivated : Backend.wp (HostCall.watched obs fails) (activateWg0 config) _
            (w₁, { s.2 with firewallInstalled := true, wgActivationAttempted := true }) :=
          activateWg0_own config (by simpa [WatchedHost.Present] using hkept) rfl
        exact ⟨hactivated.1, fun hok => ⟨_, hactivated.2 hok, hinstalled⟩⟩

/-- `verify` only looks at the host. -/
theorem verify_host {reads : StartupReads} (candidate : DesiredState)
    (s : WatchedHost × CutoverState) :
    Backend.wp (HostCall.watched reads.observations fails) (verify candidate)
      (fun s' r => s'.1.host = s.1.host ∧ s'.2 = s.2 ∧ (r = .ok () →
        ∃ n, verifyWireguardState (reads.output n s.1.host) candidate = .ok ())) s := by
  refine wp_get_bind.mpr (check_then (fun _ => ?_) ⟨rfl, rfl, fun h => by cases h⟩)
  refine check_then (fun _ => ?_) ⟨rfl, rfl, fun h => by cases h⟩
  refine observe_last (by trivial) fun w hw => ⟨hw, rfl, fun hok => ?_⟩
  rcases watched_cases reads.observations fails s.1 ⟨.verify, .wireguardState candidate⟩ with
    ⟨_, hreply⟩ | ⟨_, hreply⟩
  · rw [hreply] at hok
    cases hok
  · rw [hreply] at hok
    refine ⟨s.1.seen.length, ?_⟩
    have hresult : (verifyWireguardState (reads.output s.1.seen.length s.1.host)
        candidate).mapError CutoverError.check = .ok () := hok
    cases hverify : verifyWireguardState (reads.output s.1.seen.length s.1.host) candidate with
    | ok _ =>
        rfl
    | error e =>
        rw [hverify] at hresult
        cases hresult

theorem none_of_own {s : WatchedHost × CutoverState} (h : OwnWg0 s)
    (hidle : s.2.wg0Created = false ∨ s.2.wgActivationAttempted = false) :
    s.1.host.wg0 = none := by
  cases hwg0 : s.1.host.wg0 with
  | none =>
      rfl
  | some wg0 =>
      obtain ⟨hcreated, hattempted⟩ := h (by rw [hwg0]; rfl)
      rcases hidle with hidle | hidle
      · rw [hcreated] at hidle
        cases hidle
      · rw [hattempted] at hidle
        cases hidle

/-- A `remove_wg0` that succeeds leaves no wg0. -/
theorem removeWg0_absent {s : WatchedHost × CutoverState} (h : OwnWg0 s) :
    Backend.wp (HostCall.watched obs fails) removeWg0
      (fun s' r => r = .ok () → s'.1.host.wg0 = none) s := by
  unfold removeWg0
  rw [wp_get_bind]
  cases hcreated : s.2.wg0Created with
  | false =>
      intro _
      exact none_of_own h (.inl hcreated)
  | true =>
      rw [if_pos rfl, Backend.wp_bind, wp_ofProgram, Program.run_call, Program.run_ret]
      cases hok : HostCmd.linkDelete.isOk
          (HostCall.watched obs fails ⟨.rollback, .linkDelete⟩ s.1).2 with
      | false =>
          intro hdone
          cases hdone
      | true =>
          intro _
          exact watched_linkDelete hok

/-- The rest of `rollback` does not touch wg0. -/
theorem uninstall_absent {s : WatchedHost × CutoverState} (h : s.1.host.wg0 = none) :
    Backend.wp (HostCall.watched obs fails) (do
        if (← get).firewallInstalled then
          ofProgram backend.firewall.uninstall
          modify fun b => { b with firewallInstalled := false }
        modify fun b => { b with staged := none })
      (fun s' _ => s'.1.host.wg0 = none) s := by
  rw [wp_get_bind]
  split
  · have habsent : s.1.Present false := by
      unfold WatchedHost.Present
      rw [h]
      rfl
    have hkept : (Program.run (HostCall.watched obs fails) backend.firewall.uninstall s.1).1.Present
        false := onlyIptables_wg0 (onlyIptables_uninstall _) habsent
    have hnone : (Program.run (HostCall.watched obs fails) backend.firewall.uninstall s.1).1.host.wg0 =
        none := by simpa [WatchedHost.Present] using hkept
    rw [Backend.wp_bind, wp_ofProgram]
    cases (Program.run (HostCall.watched obs fails) backend.firewall.uninstall s.1).2 with
    | error e =>
        exact hnone
    | ok _ =>
        exact hnone
  · exact h

/-- A `rollback` that succeeds leaves no wg0. -/
theorem rollback_absent {s : WatchedHost × CutoverState} (h : OwnWg0 s) :
    Backend.wp (HostCall.watched obs fails) backend.rollback
      (fun s' r => r = .ok () → s'.1.host.wg0 = none) s := by
  unfold rollback
  rw [wp_get_bind]
  cases hattempted : s.2.wgActivationAttempted with
  | false =>
      intro _
      exact uninstall_absent (none_of_own h (.inr hattempted))
  | true =>
      rw [if_pos rfl]
      refine known_then (removeWg0_absent h) (fun s' _ hgone => ?_) fun _ _ _ hdone => by cases hdone
      intro _
      exact uninstall_absent (s := (s'.1, { s'.2 with wgActivationAttempted := false })) (hgone rfl)

/-- How a method ends when the agent calls it. -/
theorem method_cases {p : Backend α} {s : WatchedHost × CutoverState}
    {Q : WatchedHost × CutoverState → Except CutoverError α → Prop}
    (hp : Backend.wp (HostCall.watched obs fails) p Q s) :
    (∃ a, (method obs fails p s).2 = .ok a ∧ Q (method obs fails p s).1 (.ok a)) ∨
      ∃ message e, (method obs fails p s).2 = .error message ∧
        Q (method obs fails p s).1 (.error e) := by
  unfold Backend.wp at hp
  unfold method
  rcases hrun : Program.run (HostCall.watched obs fails) (p.run.run s.2) s.1 with ⟨w, (e | a), b⟩
  · rw [hrun] at hp
    exact .inr ⟨_, e, rfl, hp⟩
  · rw [hrun] at hp
    exact .inl ⟨a, rfl, hp⟩

end HostCutoverBackend

section Restore

open HostCutoverBackend

variable {digest : DesiredState → String} {reads : StartupReads} {fails : Nat → Bool}
variable {backend : HostCutoverBackend} {journal : JournalFile} {host : Host}

variable (digest reads fails backend) in
/-- The calls of `restore_from_journal`. -/
abbrev restoreCalls (c : AgentCmd Unit) (t : CutoverSys × List Bool) :
    (CutoverSys × List Bool) × c.Reply :=
  Program.faulty (AgentCmd.sem (backend.hostBackend digest reads.observations fails) digest 0) c t

/-- The rules of the plan were installed in this firewall. -/
def RulesInstalled (plan : HostForwardPlan) (before after : Firewall) : Prop :=
  runAll ((FirewallCommands.ofPlan plan).stage ++ (FirewallCommands.ofPlan plan).activate)
    before = some after

variable (reads backend host) in
/-- The host serves the state: wg0 was verified, behind a firewall just installed. -/
structure Serves (state : DesiredState) (t : CutoverSys) : Prop where
  present : t.host.1.host.wg0.isSome = true
  verified : ∃ n, verifyWireguardState (reads.output n t.host.1.host) state = .ok ()
  installed : RulesInstalled backend.networkPlan host.firewall t.host.1.host.firewall

/-- `activate` and `verify`. -/
theorem activateVerify_serves {state : DesiredState} {s : CutoverSys} {flags : List Bool}
    (hhost : s.host.1.host = host) (hnone : host.wg0 = none) :
    wp (restoreCalls digest reads fails backend) (do
        Attempt.lift (.activate .restart) fun r => r.mapError AgentError.host
        Attempt.lift (.verify .restart state) fun r => r.mapError AgentError.host)
      (fun t r => t.1.journal = s.journal ∧ OwnWg0 t.1.host ∧
        (r = .ok () → Serves reads backend host state t.1)) (s, flags) := by
  have hactivated : Backend.wp (HostCall.watched reads.observations fails) backend.activate _
      s.host := activate_own (by rw [hhost, hnone])
  refine wp_bind (wp_lift ?_)
  simp only [restoreCalls, Program.faulty, AgentCmd.sem, onHost, hostBackend]
  rcases method_cases hactivated with ⟨_, hresult, hown, hup⟩ | ⟨m, e, hresult, hown, _⟩
  · rw [hresult]
    refine wp_lift ?_
    simp only [restoreCalls, Program.faulty, AgentCmd.sem, onHost, hostBackend]
    obtain ⟨fw, hup, hinstalled⟩ := hup rfl
    have hverified : Backend.wp (HostCall.watched reads.observations fails) (verify state) _
      (method reads.observations fails backend.activate s.host).1 := verify_host state _
    have hkeep : ∀ w, w.1.host = (method reads.observations fails backend.activate s.host).1.1.host →
        w.2 = (method reads.observations fails backend.activate s.host).1.2 → OwnWg0 w := by
      intro w hw hb
      unfold OwnWg0
      rw [hw, hb]
      exact hown
    rcases method_cases hverified with ⟨_, hverify, hw, hb, hchecked⟩ | ⟨m, e, hverify, hw, hb, _⟩
    · rw [hverify]
      refine ⟨trivial, hkeep _ hw hb, fun _ => ⟨?_, ?_, ?_⟩⟩
      · exact hw ▸ hup.present
      · exact hw ▸ hchecked rfl
      · rw [← hhost, RulesInstalled, hw, hup.firewall]
        exact hinstalled
    · rw [hverify]
      exact ⟨trivial, hkeep _ hw hb, fun h => by cases h⟩
  · rw [hresult]
    exact ⟨trivial, hown, fun h => by cases h⟩

theorem mutateHost_serves {state : DesiredState} {s : CutoverSys} {flags : List Bool}
    (hhost : s.host.1.host = host) (hnone : host.wg0 = none) :
    wp (restoreCalls digest reads fails backend) (mutateHost .restart state)
      (fun t r => t.1.journal = s.journal ∧ OwnWg0 t.1.host ∧
        (r = .ok () → Serves reads backend host state t.1)) (s, flags) := by
  have hstaged : Backend.wp (HostCall.watched reads.observations fails)
      (backend.stage digest state) _ s.host := stage_host state s.host
  refine wp_bind (wp_lift ?_)
  simp only [restoreCalls, Program.faulty, AgentCmd.sem, onHost, hostBackend]
  rcases method_cases hstaged with ⟨_, hresult, hw, _⟩ | ⟨m, e, hresult, hw, _⟩
  · rw [hresult]
    exact activateVerify_serves (s := { s with host := _ }) (by rw [hw, hhost]) hnone
  · rw [hresult]
    refine ⟨trivial, ownWg0_of_none ?_, fun h => by cases h⟩
    rw [hw, hhost, hnone]

variable (digest reads backend journal host) in
/-- What `restore_from_journal` leaves. -/
structure RestoreOutcome (t : CutoverSys) (r : Except AgentError AppliedState) : Prop where
  journal_eq : t.journal = journal
  serves : ∀ applied, r = .ok applied →
    journal.load digest = .ok (some applied) ∧ Serves reads backend host applied.state t
  absent : ∀ cause, r = .error (.restored cause) → t.host.1.host.wg0 = none

/-- An error before the host was changed, or one that keeps it. -/
theorem RestoreOutcome.of_error {t : CutoverSys} {e : AgentError} (h : t.journal = journal)
    (he : ∀ cause, e ≠ .restored cause) : RestoreOutcome digest reads backend journal host t (.error e) where
  journal_eq := h
  serves := fun _ heq => by cases heq
  absent := fun cause heq => absurd (Except.error.inj heq) (he cause)

theorem auditCall_then {α : Type} {action : String} {revision : Nat} {d : String}
    {k : Unit → Agent Unit α} {Q : CutoverSys × List Bool → Except AgentError α → Prop}
    {s : CutoverSys} {flags : List Bool}
    (hok : ∀ flags, wp (restoreCalls digest reads fails backend) (k ()) Q (s, flags))
    (herror : ∀ flags, Q (s, flags) (.error (.audit action))) :
    wp (restoreCalls digest reads fails backend) (audit action revision d >>= k) Q (s, flags) := by
  refine wp_bind (wp_lift ?_)
  cases flags with
  | nil =>
      exact hok _
  | cons ok flags =>
      cases ok with
      | true =>
          exact hok _
      | false =>
          exact herror _

theorem acquireCall_then {α : Type} {k : Unit → Agent Unit α}
    {Q : CutoverSys × List Bool → Except AgentError α → Prop} {s : CutoverSys} {flags : List Bool}
    (hok : ∀ flags, wp (restoreCalls digest reads fails backend) (k ()) Q
      ({ s with lock := some 0 }, flags))
    (herror : ∀ flags, Q (s, flags) (.error .lock)) :
    wp (restoreCalls digest reads fails backend) (io .acquireLock id .lock >>= k) Q (s, flags) := by
  refine wp_bind (wp_lift ?_)
  obtain ⟨journal, lock, host, atRelease⟩ := s
  cases lock with
  | none =>
      cases flags with
      | nil =>
          exact hok _
      | cons ok flags =>
          cases ok with
          | true =>
              exact hok _
          | false =>
              exact herror _
  | some holder =>
      cases flags with
      | nil =>
          exact herror _
      | cons ok flags =>
          cases ok with
          | true =>
              exact herror _
          | false =>
              exact herror _

theorem restoreLocked_outcome {s : CutoverSys} {flags : List Bool} (hjournal : s.journal = journal)
    (hhost : s.host.1.host = host) (hnone : host.wg0 = none) :
    wp (restoreCalls digest reads fails backend) restoreLocked
      (fun t r => RestoreOutcome digest reads backend journal host t.1 r) (s, flags) := by
  refine wp_bind (wp_lift ?_)
  cases hflag : flags.headD true with
  | false =>
      simp only [restoreCalls, Program.faulty, hflag, AgentCmd.sem]
      exact .of_error hjournal fun _ => AgentError.noConfusion
  | true =>
      simp only [restoreCalls, Program.faulty, hflag, AgentCmd.sem, hjournal]
      cases hload : journal.load digest with
      | error m =>
          exact .of_error hjournal fun _ => AgentError.noConfusion
      | ok previous =>
          cases previous with
          | none =>
              exact .of_error hjournal fun _ => AgentError.noConfusion
          | some applied =>
              refine auditCall_then (fun flags => ?_) fun flags =>
                .of_error hjournal fun _ => AgentError.noConfusion
              have hsnapshot : Backend.wp (HostCall.watched reads.observations fails)
                  backend.snapshot _ s.host := snapshot_host s.host
              refine wp_bind (wp_lift ?_)
              simp only [restoreCalls, Program.faulty, AgentCmd.sem, onHost, hostBackend]
              rcases method_cases hsnapshot with ⟨_, hresult, hw, _⟩ | ⟨m, e, hresult, hw, _⟩
              · rw [hresult]
                refine wp_bind (wp_outcome (Attempt.wp_mono (mutateHost_serves
                  (s := { s with host := _ }) (hw.trans hhost) hnone) ?_))
                rintro ⟨t, flags⟩ (e | _) ⟨hkept, hown, hserves⟩
                · have hrolled : Backend.wp (HostCall.watched reads.observations fails)
                      backend.rollback _ t.host := rollback_absent hown
                  refine wp_bind (wp_lift ?_)
                  simp only [restoreCalls, Program.faulty, AgentCmd.sem, onHost, hostBackend]
                  rcases method_cases hrolled with ⟨_, hresult, hgone⟩ | ⟨m, e', hresult, _⟩
                  · rw [hresult]
                    refine auditCall_then (fun flags => ?_) fun flags =>
                      .of_error (hkept.trans hjournal) fun _ => AgentError.noConfusion
                    exact ⟨hkept.trans hjournal, fun _ heq => (by cases heq), fun _ _ => hgone rfl⟩
                  · rw [hresult]
                    exact wp_bind (wp_lift
                      (.of_error (hkept.trans hjournal) fun _ => AgentError.noConfusion))
                · refine auditCall_then (fun flags => ?_) fun flags =>
                    .of_error (hkept.trans hjournal) fun _ => AgentError.noConfusion
                  refine ⟨hkept.trans hjournal, ?_, fun _ heq => by cases heq⟩
                  rintro applied' ⟨⟩
                  exact ⟨hload, hserves rfl⟩
              · rw [hresult]
                exact .of_error hjournal fun _ => AgentError.noConfusion

theorem restoreFromJournal_outcome {s : CutoverSys} {flags : List Bool}
    (hjournal : s.journal = journal) (hhost : s.host.1.host = host) (hnone : host.wg0 = none) :
    wp (restoreCalls digest reads fails backend) restoreFromJournal
      (fun t r => RestoreOutcome digest reads backend journal host t.1 r) (s, flags) := by
  refine acquireCall_then (fun flags => ?_) fun flags =>
    .of_error hjournal fun _ => AgentError.noConfusion
  refine wp_bind (wp_outcome (Attempt.wp_mono (restoreLocked_outcome
    (s := { s with lock := some 0 }) hjournal hhost hnone) ?_))
  rintro ⟨t, flags⟩ r houtcome
  refine wp_bind (wp_lift ?_)
  simp only [restoreCalls, Program.faulty, AgentCmd.sem]
  cases r with
  | error e =>
      exact ⟨houtcome.journal_eq, fun _ heq => (by cases heq), houtcome.absent⟩
  | ok applied =>
      refine ⟨houtcome.journal_eq, fun applied' heq => ?_, fun _ heq => (by cases heq)⟩
      obtain ⟨hload, hserves⟩ := houtcome.serves applied' heq
      exact ⟨hload, hserves.present, hserves.verified, hserves.installed⟩

end Restore

section Gate

variable {digest : DesiredState → String} {reads : StartupReads} {fails : Nat → Bool}
variable {journal : JournalFile} {host : Host}

variable (digest reads fails) in
/-- The calls of the gate. -/
abbrev startupCalls (c : StartupCmd) (t : CutoverSys × List Bool) :
    (CutoverSys × List Bool) × c.Reply :=
  Program.faulty (StartupCmd.sem digest reads fails) c t

variable {α β : Type} {Q : CutoverSys × List Bool → Except StartupError β → Prop}
variable {s : CutoverSys} {flags : List Bool}

/-- A call that only reads. -/
theorem askHost_then {c : StartupCmd} {f : c.Reply → Except String α} {k : α → Startup β}
    (hread : ∀ ok, (c.sem digest reads fails ok s).1 = s)
    (hok : ∀ ok a flags, f (c.sem digest reads fails ok s).2 = .ok a →
      wp (startupCalls digest reads fails) (k a) Q (s, flags))
    (herror : ∀ message flags, Q (s, flags) (.error (.failed message))) :
    wp (startupCalls digest reads fails) (askHost c f >>= k) Q (s, flags) := by
  have hstate : (startupCalls digest reads fails c (s, flags)).1 = (s, flags.tail) :=
    Prod.ext (hread _) rfl
  refine wp_bind (wp_lift ?_)
  rw [hstate]
  cases hf : f (startupCalls digest reads fails c (s, flags)).2 with
  | ok a =>
      exact hok _ a _ hf
  | error message =>
      exact herror message _

/-- A call that only reads, at the end of a program. -/
theorem askHost_last {c : StartupCmd} {f : c.Reply → Except String β}
    (hread : ∀ ok, (c.sem digest reads fails ok s).1 = s)
    (hok : ∀ ok a flags, f (c.sem digest reads fails ok s).2 = .ok a → Q (s, flags) (.ok a))
    (herror : ∀ message flags, Q (s, flags) (.error (.failed message))) :
    wp (startupCalls digest reads fails) (askHost c f) Q (s, flags) := by
  rw [← bind_pure (askHost c f)]
  exact askHost_then hread hok herror

theorem ofResult_then {x : Except String α} {k : α → Startup β} {t : CutoverSys × List Bool}
    (hok : ∀ a, x = .ok a → wp (startupCalls digest reads fails) (k a) Q t)
    (herror : ∀ message, Q t (.error (.failed message))) :
    wp (startupCalls digest reads fails) (ofResult x >>= k) Q t := by
  cases x with
  | ok a =>
      exact hok a rfl
  | error message =>
      exact herror message

/-- `restore_from_journal` runs as it does alone. -/
theorem run_ofRestore {backend : HostCutoverBackend} (p : Program (AgentCmd Unit) AgentCmd.Reply α)
    (t : CutoverSys × List Bool) :
    Program.run (startupCalls digest reads fails) (ofRestore backend p) t =
      Program.run (restoreCalls digest reads fails backend) p t := by
  induction p generalizing t with
  | ret a =>
      rfl
  | call c k ih =>
      exact ih _ _

variable (reads) in
/-- The forwarding plan of a host, as the agent reads it off. -/
def PlanOf (host : Host) (plan : HostForwardPlan) : Prop :=
  ∃ facts target route, parseIptablesSave (reads.iptablesSave host) = .ok facts ∧
    facts.httpsTarget = some target ∧
    parseIpv4RouteGet (reads.routeGet target host) target = .ok route ∧
    compileHostForwarding facts route = .ok plan

variable (reads) in
/-- The rules of the plan were found by `verify_installed`. -/
def RulesVerified (plan : HostForwardPlan) (host : Host) : Prop :=
  (FirewallCommands.ofPlan plan).verifyInstalled host.firewall.check
    (Text.lines (reads.iptablesSave host).toList) = .ok ()

/-- A check that fails now and then accepts no more than the firewall has. -/
theorem verifyInstalled_mono {commands : FirewallCommands} {run run' : Table → String → Rule → Bool}
    {snapshot : List Line} (hrun : ∀ t chain r, run t chain r = true → run' t chain r = true)
    (h : commands.verifyInstalled run snapshot = .ok ()) :
    commands.verifyInstalled run' snapshot = .ok () := by
  have hcheck : ∀ c, FirewallCommands.checkCommand run c = .ok () →
      FirewallCommands.checkCommand run' c = .ok () := by
    intro c hc
    unfold FirewallCommands.checkCommand at hc ⊢
    split at hc
    · rw [ensure_eq_ok] at hc ⊢
      exact hrun _ _ _ hc
    · rw [ensure_eq_ok] at hc ⊢
      exact hrun _ _ _ hc
    · cases hc
  unfold FirewallCommands.verifyInstalled at h ⊢
  simp only [bind_eq_ok, forM_eq_ok] at h ⊢
  obtain ⟨_, h₁, _, h₂, _, h₃, _, h₄, _, h₅, hrules⟩ := h
  exact ⟨_, h₁, _, h₂, _, h₃, _, h₄, _, h₅, fun c hc => hcheck c (hrules c hc)⟩

theorem fromPlan_eq_ok {plan : HostForwardPlan} {commands : FirewallCommands}
    (h : FirewallCommands.fromPlan plan = .ok commands) : commands = FirewallCommands.ofPlan plan := by
  unfold FirewallCommands.fromPlan at h
  simp only [bind_eq_ok, pure_eq_ok] at h
  obtain ⟨_, _, _, _, h⟩ := h
  exact h.symm

/-- The reads of the gate give the plan of the host. -/
theorem planOf_reads {okSave okRoute : Bool} {snapshot : String} {facts : FirewallFacts}
    {target : BitVec 32} {output : List Char} {route : BridgeRoute} {plan : HostForwardPlan}
    (hsnapshot : id (StartupCmd.sem digest reads fails .iptablesSave okSave s).2 = .ok snapshot)
    (hfacts : parseIptablesSave snapshot = .ok facts)
    (htarget : expect "HTTPS target missing" facts.httpsTarget = .ok target)
    (houtput : id (StartupCmd.sem digest reads fails (.routeGet target) okRoute s).2 = .ok output)
    (hroute : parseIpv4RouteGet output target = .ok route)
    (hcompiled : compileHostForwarding facts route = .ok plan) : PlanOf reads s.host.1.host plan := by
  cases okSave with
  | false =>
      cases hsnapshot
  | true =>
      cases hsnapshot
      cases okRoute with
      | false =>
          cases houtput
      | true =>
          cases houtput
          exact ⟨facts, target, route, hfacts, expect_eq_ok.mp htarget, hroute, hcompiled⟩

/-- `verify_restarted_host` reads, and accepts a wg0 that it verified with the rules. -/
theorem verifyRestartedHost_reads (applied : AppliedState) :
    wp (startupCalls digest reads fails) (verifyRestartedHost digest applied)
      (fun t r => t.1 = s ∧ (∀ e, r = .error e → ∃ message, e = .failed message) ∧ (r = .ok () →
        s.host.1.host.wg0.isSome = true ∧
        (∃ n, verifyWireguardState (reads.output n s.host.1.host) applied.state = .ok ()) ∧
        ∃ plan, PlanOf reads s.host.1.host plan ∧ RulesVerified reads plan s.host.1.host))
      (s, flags) := by
  have herror : ∀ (message : String) (P : Prop),
      (∀ e, (.error (.failed message) : Except StartupError Unit) = .error e →
        ∃ message, e = .failed message) ∧
      ((.error (.failed message) : Except StartupError Unit) = .ok () → P) :=
    fun message _ => ⟨fun e he => ⟨message, (Except.error.inj he).symm⟩, fun h => by cases h⟩
  refine ofResult_then (fun d _ => ?_) fun m => ⟨rfl, herror m _⟩
  refine ofResult_then (fun _ _ => ?_) fun m => ⟨rfl, herror m _⟩
  refine askHost_then (by rintro (_ | _) <;> rfl) (fun ok present flags hpresent => ?_)
    fun m _ => ⟨rfl, herror m _⟩
  refine ofResult_then (fun _ hensure => ?_) fun m => ⟨rfl, herror m _⟩
  refine askHost_then (by rintro (_ | _) <;> rfl) (fun ok' snapshot flags hsnapshot => ?_)
    fun m _ => ⟨rfl, herror m _⟩
  refine ofResult_then (fun facts hfacts => ?_) fun m => ⟨rfl, herror m _⟩
  refine ofResult_then (fun target htarget => ?_) fun m => ⟨rfl, herror m _⟩
  refine askHost_then (by rintro (_ | _) <;> rfl) (fun okRoute output flags houtput => ?_)
    fun m _ => ⟨rfl, herror m _⟩
  refine ofResult_then (fun route hroute => ?_) fun m => ⟨rfl, herror m _⟩
  refine ofResult_then (fun plan hcompiled => ?_) fun m => ⟨rfl, herror m _⟩
  refine askHost_then (by rintro (_ | _) <;> rfl) (fun okWg _ flags hverified => ?_)
    fun m _ => ⟨rfl, herror m _⟩
  refine ofResult_then (fun commands hplan => ?_) fun m => ⟨rfl, herror m _⟩
  refine askHost_last (by rintro (_ | _) <;> rfl) (fun okRules _ flags hrules => ?_)
    fun m _ => ⟨rfl, herror m _⟩
  refine ⟨rfl, fun _ h => (by cases h), fun _ => ⟨?_, ?_, plan, ?_, ?_⟩⟩
  · cases ok with
    | false =>
        cases hpresent
    | true =>
        cases hpresent
        exact ensure_eq_ok.mp hensure
  · cases okWg with
    | false =>
        cases hverified
    | true =>
        exact ⟨_, hverified⟩
  · exact planOf_reads hsnapshot hfacts htarget houtput hroute hcompiled
  · cases ok' with
    | false =>
        cases hsnapshot
    | true =>
        cases hsnapshot
        cases okRules with
        | false =>
            cases hrules
        | true =>
            rw [fromPlan_eq_ok hplan] at hrules
            refine verifyInstalled_mono ?_ hrules
            intro t chain r hr
            exact (Bool.and_eq_true_iff.mp hr).2

variable (digest reads journal host) in
/-- What the gate guarantees. -/
structure Gate (t : CutoverSys) (r : Except StartupError StartupStatus) : Prop where
  /-- The journal is never changed. -/
  journal_eq : t.journal = journal
  /-- An existing wg0, and all of its host, is left alone: no command is run. -/
  untouched : host.wg0.isSome = true → t.host.1.host = host ∧ t.host.1.seen = []
  /-- A gate that opens has nothing to serve, or serves the journal. -/
  opens : ∀ status, r = .ok status →
    (journal = .missing ∧ host.wg0 = none ∧ t.host.1.host.wg0 = none) ∨
    ∃ applied, journal.load digest = .ok (some applied) ∧ t.host.1.host.wg0.isSome = true ∧
      (∃ n, verifyWireguardState (reads.output n t.host.1.host) applied.state = .ok ()) ∧
      ∃ plan, PlanOf reads host plan ∧ (RulesVerified reads plan t.host.1.host ∨
        RulesInstalled plan host.firewall t.host.1.host.firewall)
  /-- "host state rolled back". -/
  rolledBack : ∀ cause, r = .error (.restore (.restored cause)) →
    host.wg0 = none ∧ t.host.1.host.wg0 = none

/-- An error of a call that only reads. -/
theorem Gate.of_failed {t : CutoverSys} {message : String} (hjournal : t.journal = journal)
    (huntouched : host.wg0.isSome = true → t.host.1.host = host ∧ t.host.1.seen = []) :
    Gate digest reads journal host t (.error (.failed message)) where
  journal_eq := hjournal
  untouched := huntouched
  opens := fun _ h => by cases h
  rolledBack := fun _ h => by cases h

theorem ofPlan_networkPlan {plan : HostForwardPlan} {privateKey publicKey : String}
    {backend : HostCutoverBackend} (h : ofPlan plan privateKey publicKey = .ok backend) :
    backend.networkPlan = plan := by
  unfold ofPlan at h
  split at h
  · cases h
  · cases h
    rfl

/-- `restore_from_journal` with a backend for the host. -/
theorem restoreHost_outcome {backend : HostCutoverBackend} (hjournal : s.journal = journal)
    (hhost : s.host.1.host = host) (hnone : host.wg0 = none) :
    wp (startupCalls digest reads fails) (restoreHost backend)
      (fun t r => ∃ x, r = x.mapError .restore ∧
        RestoreOutcome digest reads backend journal host t.1 x) (s, flags) := by
  refine wp_bind (wp_lift ?_)
  have hrestored : wp (restoreCalls digest reads fails backend) restoreFromJournal
      (fun t r => RestoreOutcome digest reads backend journal host t.1 r)
      ({ s with host := (s.host.1, .new) }, flags.tail) :=
    restoreFromJournal_outcome hjournal hhost hnone
  unfold wp at hrestored
  change wp _ (ExceptT.mk (ofRestore backend (restoreFromJournal : Agent Unit AppliedState).run >>=
    fun r => pure (r.mapError StartupError.restore))) _
    ({ s with host := (s.host.1, CutoverState.new) }, flags.tail)
  unfold wp Attempt.exec
  simp only [ExceptT.run_mk, Program.run_bind, run_ofRestore, Program.pure_eq, Program.run_ret]
  exact ⟨_, rfl, hrestored⟩

end Gate

end HostAgent
end ZeroVpn
