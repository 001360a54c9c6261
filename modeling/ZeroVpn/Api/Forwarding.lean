import ZeroVpn.Library.PacketFilter
import ZeroVpn.Library.Program
import ZeroVpn.Wg.IpAlloc

/-!
# The forwarding rules of the gateway

`ensure_peer_only_forwarding` of `crates/zerovpn-api/src/bootstrap.rs`, command
by command.  It flushes the four chains of the API, makes sure that the built-in
chains jump to them and appends the rules again: traffic between peers, the
host services, HTTPS, and a final `DROP` in each direction.

The commands work on the `filter` and the `nat` table.  The rows that the query
for the host services answers, and the address to which the HTTPS target
resolves, are arguments.
-/

namespace ZeroVpn

open Library

namespace Api

open Wg (IpAddr Ipv4Network)

/-- The enumeration `vpn_transport_protocol`. -/
inductive TransportProtocol where
  | tcp
  | udp
  deriving DecidableEq, Repr

/-- The protocol of a packet. -/
inductive IpProtocol where
  | tcp
  | udp
  | icmp
  | other (number : Nat)
  deriving DecidableEq, Repr

def TransportProtocol.ip : TransportProtocol → IpProtocol
  | tcp => .tcp
  | udp => .udp

/-- The connection state that `conntrack` gives a packet. -/
inductive CtState where
  | new
  | established
  | related
  | invalid
  deriving DecidableEq, Repr

/-- The argument of `-s` or `-d`. -/
inductive Endpoint where
  /-- A network, such as `ZEROVPN_WG__VPN_CIDR`. -/
  | network (cidr : Ipv4Network)
  /-- `{ip}/32`. -/
  | host (ip : IpAddr)
  deriving DecidableEq, Repr

/-- The address is one of the endpoint's. -/
def Endpoint.covers : Endpoint → BitVec 32 → Bool
  | network cidr, a => cidr.contains a
  | host ip, a => ip == .v4 a

/-- A packet that arrives at an interface; one without an output interface is
for the gateway itself. -/
structure Packet where
  input : String
  output : Option String
  source : BitVec 32
  destination : BitVec 32
  protocol : IpProtocol
  sport : Int
  dport : Int
  ctstate : CtState
  echoRequest : Bool
  deriving DecidableEq, Repr

/-- The match of a rule; an option that is not given matches every packet. -/
structure PacketMatch where
  /-- `-i`. -/
  input : Option String := none
  /-- `-o`. -/
  output : Option String := none
  /-- `-s`. -/
  source : Option Endpoint := none
  /-- `-d`. -/
  destination : Option Endpoint := none
  /-- `-p`. -/
  protocol : Option IpProtocol := none
  /-- `--sport`. -/
  sport : Option Int := none
  /-- `--dport`. -/
  dport : Option Int := none
  /-- `-m conntrack --ctstate`. -/
  ctstate : Option (List CtState) := none
  /-- `--icmp-type echo-request`. -/
  echoRequest : Bool := false
  deriving DecidableEq, Repr

def PacketMatch.hits (m : PacketMatch) (p : Packet) : Bool :=
  m.input.all (· == p.input) && m.output.all (fun o => p.output == some o) &&
    m.source.all (·.covers p.source) && m.destination.all (·.covers p.destination) &&
    m.protocol.all (· == p.protocol) && m.sport.all (· == p.sport) &&
    m.dport.all (· == p.dport) && m.ctstate.all (·.contains p.ctstate) &&
    (!m.echoRequest || p.echoRequest)

inductive FilterVerdict where
  | accept
  | drop
  deriving DecidableEq, Repr

inductive NatVerdict where
  | dnat (ip : BitVec 32) (port : Int)
  | masquerade
  deriving DecidableEq, Repr

abbrev FwRule := FilterRule PacketMatch FilterVerdict

abbrev NatRule := FilterRule PacketMatch NatVerdict

structure IpTables where
  filter : Chains PacketMatch FilterVerdict
  nat : Chains PacketMatch NatVerdict

/-- A command of `iptables`, for one of the two tables. -/
inductive IptCmd where
  | filter (c : ChainCmd PacketMatch FilterVerdict)
  | nat (c : ChainCmd PacketMatch NatVerdict)
  deriving DecidableEq, Repr

/-- The tables after a command; nothing when it is refused. -/
def IptCmd.run (fw : IpTables) : IptCmd → Option IpTables
  | filter c => (c.run fw.filter).map fun t => { fw with filter := t }
  | nat c => (c.run fw.nat).map fun t => { fw with nat := t }

/-- Programs that run `iptables` and look at its exit status. -/
abbrev IptProgram (α : Type) := Program IptCmd (fun _ => Bool) α

namespace Forwarding

/-- `CHAIN`. -/
def chain : String := "ZEROVPN-WG"

/-- `INPUT_CHAIN`. -/
def inputChain : String := "ZEROVPN-WG-IN"

/-- `DNAT_CHAIN`. -/
def dnatChain : String := "ZEROVPN-WG-DNAT"

/-- `SNAT_CHAIN`. -/
def snatChain : String := "ZEROVPN-WG-SNAT"

/-- `ZEROVPN_WG__HTTPS_TARGET`, and what `resolve_ipv4_target` makes of it. -/
inductive HttpsTarget where
  | unset
  | unresolved
  | resolved (target : BitVec 32)
  deriving DecidableEq, Repr

/-- What the function takes from the environment. -/
structure Env where
  /-- `ZEROVPN_WG__INTERFACE`. -/
  iface : String
  /-- `ZEROVPN_WG__VPN_CIDR`. -/
  vpnCidr : Ipv4Network
  httpsTarget : HttpsTarget
  deriving DecidableEq, Repr

/-- A row of the query. -/
structure HostRule where
  protocol : TransportProtocol
  gatewayIp : BitVec 32
  gatewayPort : Int
  backendIp : BitVec 32
  backendPort : Int
  allowAllPeers : Bool
  sourceIp : Option IpAddr
  deriving DecidableEq, Repr

/-- The loop's `source`; a row without one is skipped. -/
def HostRule.source (env : Env) (rule : HostRule) : Option Endpoint :=
  if rule.allowAllPeers then some (.network env.vpnCidr) else rule.sourceIp.map .host

section Rules

variable (env : Env)

/-- An unconditional jump. -/
def jumpTo {V : Type} (name : String) : FilterRule PacketMatch V where
  spec := {}
  target := .jump name

def acceptRule (spec : PacketMatch) : FwRule := ⟨spec, .verdict .accept⟩

def dropRule (spec : PacketMatch) : FwRule := ⟨spec, .verdict .drop⟩

def peersRule : FwRule :=
  acceptRule
    { input := some env.iface
      output := some env.iface
      source := some (.network env.vpnCidr)
      destination := some (.network env.vpnCidr) }

/-- `outbound`, of a host rule and of HTTPS. -/
def outboundRule (source : Endpoint) (target : BitVec 32) (protocol : TransportProtocol)
    (port : Int) : FwRule :=
  acceptRule
    { input := some env.iface
      source := some source
      destination := some (.host (.v4 target))
      protocol := some protocol.ip
      dport := some port
      ctstate := some [.new, .established] }

/-- `returning`. -/
def returningRule (source : Endpoint) (target : BitVec 32) (protocol : TransportProtocol)
    (port : Int) : FwRule :=
  acceptRule
    { output := some env.iface
      source := some (.host (.v4 target))
      destination := some source
      protocol := some protocol.ip
      sport := some port
      ctstate := some [.established] }

/-- `dnat`; the HTTPS rule has no source. -/
def dnatRule (source : Option Endpoint) (gateway : BitVec 32) (protocol : TransportProtocol)
    (gatewayPort : Int) (target : BitVec 32) (port : Int) : NatRule where
  spec :=
    { input := some env.iface
      source := source
      destination := some (.host (.v4 gateway))
      protocol := some protocol.ip
      dport := some gatewayPort }
  target := .verdict (.dnat target port)

/-- `snat`. -/
def snatRule (source : Endpoint) (target : BitVec 32) (protocol : TransportProtocol)
    (port : Int) : NatRule where
  spec :=
    { source := some source
      destination := some (.host (.v4 target))
      protocol := some protocol.ip
      dport := some port }
  target := .verdict .masquerade

def dropFromVpn : FwRule := dropRule { input := some env.iface }

def dropToVpn : FwRule := dropRule { output := some env.iface }

def pingRule : FwRule :=
  acceptRule { input := some env.iface, protocol := some .icmp, echoRequest := true }

/-- The rule that is removed as often as it is found. -/
def masqueradeRule : NatRule := ⟨{ output := some "eth0" }, .verdict .masquerade⟩

/-- The two forwarding rules of a source and a target. -/
def accessRules (source : Endpoint) (target : BitVec 32) (protocol : TransportProtocol)
    (port : Int) : List FwRule :=
  [outboundRule env source target protocol port, returningRule env source target protocol port]

/-- What a row adds to `ZEROVPN-WG`. -/
def hostRules (rule : HostRule) : List FwRule :=
  match rule.source env with
  | some source => accessRules env source rule.backendIp rule.protocol rule.backendPort
  | none => []

/-- What the HTTPS target adds to it. -/
def httpsRules : List FwRule :=
  match env.httpsTarget with
  | .resolved target => accessRules env (.network env.vpnCidr) target .tcp 443
  | .unresolved | .unset => []

/-- `ZEROVPN-WG` as it is meant to be. -/
def forwardRules (rows : List HostRule) : List FwRule :=
  peersRule env :: rows.flatMap (hostRules env) ++ httpsRules env ++
    [dropFromVpn env, dropToVpn env]

/-- `ZEROVPN-WG-IN` as it is meant to be. -/
def inputRules : List FwRule := [pingRule env, dropFromVpn env]

end Rules

section Commands

/-- `run("iptables", …)`. -/
def run (c : IptCmd) : IptProgram Bool := Program.call c fun ok => Program.ret ok

/-- `-A` to a chain of the filter table. -/
def appendTo (name : String) (r : FwRule) : IptProgram Bool := run (.filter (.append name r))

/-- `-A` to a chain of the `nat` table. -/
def appendNat (name : String) (r : NatRule) : IptProgram Bool := run (.nat (.append name r))

/-- A jump at the head of the host's chain if there is none. -/
def ensureJump {V : Type} (table : ChainCmd PacketMatch V → IptCmd) (host name : String) :
    IptProgram Unit := do
  if !(← run (table (.check host (jumpTo name)))) then
    let _ ← run (table (.insert host (jumpTo name)))

/-- `-N`, `-F` and the jump of a chain. -/
def attach {V : Type} (table : ChainCmd PacketMatch V → IptCmd) (host name : String) :
    IptProgram Unit := do
  let _ ← run (table (.create name))
  let _ ← run (table (.flush name))
  ensureJump table host name

/-- The four rules of a host rule or of HTTPS. -/
def installAccess (env : Env) (source : Endpoint) (target : BitVec 32)
    (protocol : TransportProtocol) (port : Int) (translate : NatRule) : IptProgram Bool := do
  let outbound ← appendTo chain (outboundRule env source target protocol port)
  let returning ← appendTo chain (returningRule env source target protocol port)
  let dnat ← appendNat dnatChain translate
  let snat ← appendNat snatChain (snatRule source target protocol port)
  pure (outbound && returning && dnat && snat)

/-- The loop over the rows; the result is `host_traffic`. -/
def hostTraffic (env : Env) : List HostRule → Bool → IptProgram Bool
  | [], ok => pure ok
  | rule :: rules, ok =>
      match rule.source env with
      | none => hostTraffic env rules ok
      | some source => do
          let done ← installAccess env source rule.backendIp rule.protocol rule.backendPort
            (dnatRule env (some source) rule.gatewayIp rule.protocol rule.gatewayPort
              rule.backendIp rule.backendPort)
          hostTraffic env rules (ok && done)

/-- `https_traffic`; the gateway is `10.0.0.1`. -/
def httpsTraffic (env : Env) : IptProgram Bool :=
  match env.httpsTarget with
  | .resolved target =>
      installAccess env (.network env.vpnCidr) target .tcp 443
        (dnatRule env none 0x0A000001#32 .tcp 443 target 443)
  | .unresolved => pure false
  | .unset => pure true

/-- The `while` loop at the end, for at most `rounds` rounds. -/
def clearMasquerade : (rounds : Nat) → IptProgram Unit
  | 0 => pure ()
  | rounds + 1 => do
      if ← run (.nat (.check "POSTROUTING" masqueradeRule)) then
        let _ ← run (.nat (.delete "POSTROUTING" masqueradeRule))
        clearMasquerade rounds

/-- The rules of `ZEROVPN-WG` and of the two `nat` chains. -/
def forwardTraffic (env : Env) (rows : List HostRule) : IptProgram Bool := do
  let peerTraffic ← appendTo chain (peersRule env)
  attach .nat "PREROUTING" dnatChain
  attach .nat "POSTROUTING" snatChain
  let hosts ← hostTraffic env rows true
  let https ← httpsTraffic env
  let dropFrom ← appendTo chain (dropFromVpn env)
  let dropTo ← appendTo chain (dropToVpn env)
  pure (peerTraffic && hosts && https && dropFrom && dropTo)

/-- `ensure_peer_only_forwarding`; the result is what the log line says. -/
def ensurePeerOnlyForwarding (env : Env) (rows : List HostRule) (rounds : Nat) :
    IptProgram Bool := do
  attach .filter "FORWARD" chain
  let forwarded ← forwardTraffic env rows
  attach .filter "INPUT" inputChain
  let pingGateway ← appendTo inputChain (pingRule env)
  let dropGateway ← appendTo inputChain (dropFromVpn env)
  clearMasquerade rounds
  pure (forwarded && pingGateway && dropGateway)

end Commands

/-- A command that is carried out, or refused without an effect. -/
def exec (c : IptCmd) (fw : IpTables) : IpTables × Bool :=
  match c.run fw with
  | some fw' => (fw', true)
  | none => (fw, false)

/-- A command leaves the filter chains it does not name. -/
theorem exec_filter_other {c : IptCmd} {name : String}
    (h : ∀ c', c = .filter c' → c'.chain ≠ name) (fw : IpTables) :
    (exec c fw).1.filter name = fw.filter name := by
  unfold exec
  cases hrun : c.run fw with
  | none =>
      rfl
  | some fw' =>
      cases c with
      | filter c' =>
          obtain ⟨t, ht, rfl⟩ := Option.map_eq_some_iff.mp hrun
          exact ChainCmd.run_other ht (Ne.symm (h c' rfl))
      | nat c' =>
          obtain ⟨t, ht, rfl⟩ := Option.map_eq_some_iff.mp hrun
          rfl

section Contents

/-- Where nothing fails, the program appends `rs` to `ZEROVPN-WG`. -/
def Appends {α : Type} (p : IptProgram α) (rs : List FwRule) : Prop :=
  ∀ fw rs₀, fw.filter chain = some rs₀ → (Program.run exec p fw).1.filter chain = some (rs₀ ++ rs)

variable {α β : Type} {rs rs' : List FwRule}

theorem appends_pure (a : α) : Appends (pure a : IptProgram α) [] := by
  intro fw rs₀ h
  rw [List.append_nil]
  exact h

theorem Appends.bind {p : IptProgram α} {f : α → IptProgram β} (hp : Appends p rs)
    (hf : ∀ a, Appends (f a) rs') : Appends (p >>= f) (rs ++ rs') := by
  intro fw rs₀ h
  rw [Program.run_bind, hf _ _ _ (hp fw rs₀ h), List.append_assoc]

/-- A sequence whose first part leaves the chain alone. -/
theorem Appends.after {p : IptProgram α} {f : α → IptProgram β} (hp : Appends p [])
    (hf : ∀ a, Appends (f a) rs) : Appends (p >>= f) rs := hp.bind hf

theorem appends_other {c : IptCmd} (h : ∀ c', c = .filter c' → c'.chain ≠ chain) :
    Appends (run c) [] := by
  intro fw rs₀ hfw
  rw [List.append_nil]
  exact (exec_filter_other h fw).trans hfw

theorem appends_appendTo {r : FwRule} {v : FilterVerdict} (hr : r.target = .verdict v) :
    Appends (appendTo chain r) [r] := by
  intro fw rs₀ hfw
  have hrun : (IptCmd.filter (.append chain r)).run fw =
      some { fw with filter := Function.update fw.filter chain (some (rs₀ ++ [r])) } := by
    simp only [IptCmd.run, ChainCmd.run_append hfw hr, Option.map_some]
  show (exec (.filter (.append chain r)) fw).1.filter chain = _
  simp only [exec, hrun, Function.update_self]

theorem appends_appendNat (name : String) (r : NatRule) : Appends (appendNat name r) [] :=
  appends_other fun _ h => by cases h

theorem appends_attachNat (host name : String) : Appends (attach .nat host name) [] := by
  have hother : ∀ c : ChainCmd PacketMatch NatVerdict, Appends (run (.nat c)) [] :=
    fun c => appends_other fun _ h => by cases h
  refine (hother _).after fun _ => (hother _).after fun _ => (hother _).after fun ok => ?_
  cases ok with
  | true =>
      exact appends_pure _
  | false =>
      exact (hother _).after fun _ => appends_pure _

theorem appends_installAccess (env : Env) (source : Endpoint) (target : BitVec 32)
    (protocol : TransportProtocol) (port : Int) (translate : NatRule) :
    Appends (installAccess env source target protocol port translate)
      (accessRules env source target protocol port) := by
  refine Appends.bind (appends_appendTo rfl) fun _ => ?_
  refine Appends.bind (appends_appendTo rfl) fun _ => ?_
  exact (appends_appendNat _ _).after fun _ => (appends_appendNat _ _).after fun _ =>
    appends_pure _

theorem appends_hostTraffic (env : Env) (rows : List HostRule) (ok : Bool) :
    Appends (hostTraffic env rows ok) (rows.flatMap (hostRules env)) := by
  induction rows generalizing ok with
  | nil =>
      exact appends_pure ok
  | cons rule rows ih =>
      simp only [hostTraffic, List.flatMap_cons, hostRules]
      cases rule.source env with
      | none =>
          exact ih ok
      | some source =>
          refine (appends_installAccess env source _ _ _ _).bind fun done => ?_
          exact ih (ok && done)

theorem appends_httpsTraffic (env : Env) : Appends (httpsTraffic env) (httpsRules env) := by
  unfold httpsTraffic httpsRules
  cases env.httpsTarget with
  | unset =>
      exact appends_pure true
  | unresolved =>
      exact appends_pure false
  | resolved target =>
      exact appends_installAccess env _ target _ _ _

theorem appends_forwardTraffic (env : Env) (rows : List HostRule) :
    Appends (forwardTraffic env rows) (forwardRules env rows) := by
  unfold forwardRules
  rw [List.cons_append, List.cons_append, List.append_assoc]
  refine Appends.bind (appends_appendTo rfl) fun _ => ?_
  refine (appends_attachNat _ _).after fun _ => (appends_attachNat _ _).after fun _ => ?_
  refine (appends_hostTraffic env rows true).bind fun _ => ?_
  refine (appends_httpsTraffic env).bind fun _ => ?_
  refine Appends.bind (appends_appendTo rfl) fun _ => ?_
  exact Appends.bind (appends_appendTo rfl) fun _ => appends_pure _

/-- The rest of the function leaves `ZEROVPN-WG` alone. -/
theorem appends_clearMasquerade (rounds : Nat) : Appends (clearMasquerade rounds) [] := by
  have hother : ∀ c : ChainCmd PacketMatch NatVerdict, Appends (run (.nat c)) [] :=
    fun c => appends_other fun _ h => by cases h
  induction rounds with
  | zero =>
      exact appends_pure ()
  | succ rounds ih =>
      refine (hother _).after fun found => ?_
      cases found with
      | true =>
          exact (hother _).after fun _ => ih
      | false =>
          exact appends_pure ()

theorem appends_attachInput : Appends (attach .filter "INPUT" inputChain) [] := by
  have hother : ∀ c : ChainCmd PacketMatch FilterVerdict, c.chain ≠ chain →
      Appends (run (.filter c)) [] := by
    intro c hc
    refine appends_other fun c' h => ?_
    injection h with h
    rwa [← h]
  refine (hother _ (by decide)).after fun _ => (hother _ (by decide)).after fun _ =>
    (hother _ (by decide)).after fun ok => ?_
  cases ok with
  | true =>
      exact appends_pure _
  | false =>
      exact (hother _ (by decide)).after fun _ => appends_pure _

/-- `-N` leaves a chain, new or old. -/
theorem exec_create (fw : IpTables) (name : String) :
    ∃ rs, (exec (.filter (.create name)) fw).1.filter name = some rs := by
  cases hchain : fw.filter name with
  | some rs =>
      refine ⟨rs, ?_⟩
      simp only [exec, IptCmd.run, ChainCmd.run_create_exists hchain, Option.map_none]
      exact hchain
  | none =>
      refine ⟨[], ?_⟩
      simp [exec, IptCmd.run, ChainCmd.run, hchain]

theorem exec_flush {fw : IpTables} {name : String} {rs : List FwRule}
    (h : fw.filter name = some rs) : (exec (.filter (.flush name)) fw).1.filter name = some [] := by
  simp only [exec, IptCmd.run, ChainCmd.run_flush h, Option.map_some, Function.update_self]

/-- After `-N` and `-F` the chain is there and empty; the jump is in another
chain. -/
theorem attach_empties (fw : IpTables) :
    (Program.run exec (attach .filter "FORWARD" chain) fw).1.filter chain = some [] := by
  have hjump : Appends (ensureJump .filter "FORWARD" chain) [] := by
    have hother : ∀ c : ChainCmd PacketMatch FilterVerdict, c.chain = "FORWARD" →
        Appends (run (.filter c)) [] := by
      intro c hc
      refine appends_other fun c' h => ?_
      injection h with h
      rw [← h, hc]
      decide
    refine (hother _ rfl).after fun ok => ?_
    cases ok with
    | true =>
        exact appends_pure _
    | false =>
        exact (hother _ rfl).after fun _ => appends_pure _
  obtain ⟨rs, hcreated⟩ := exec_create fw chain
  exact hjump _ [] (exec_flush hcreated)

/-- Where no command fails, the function leaves exactly the rules of its rows in
`ZEROVPN-WG`. -/
theorem ensurePeerOnlyForwarding_chain (env : Env) (rows : List HostRule) (rounds : Nat)
    (fw : IpTables) :
    (Program.run exec (ensurePeerOnlyForwarding env rows rounds) fw).1.filter chain =
      some (forwardRules env rows) := by
  have hrest : Appends (do
      let forwarded ← forwardTraffic env rows
      attach .filter "INPUT" inputChain
      let pingGateway ← appendTo inputChain (pingRule env)
      let dropGateway ← appendTo inputChain (dropFromVpn env)
      clearMasquerade rounds
      pure (forwarded && pingGateway && dropGateway)) (forwardRules env rows ++ []) := by
    have hinput : ∀ r, Appends (appendTo inputChain r) [] := by
      intro r
      refine appends_other fun c' h => ?_
      injection h with h
      rw [← h]
      show inputChain ≠ chain
      decide
    refine (appends_forwardTraffic env rows).bind fun _ => ?_
    refine appends_attachInput.after fun _ => (hinput _).after fun _ => (hinput _).after fun _ => ?_
    exact (appends_clearMasquerade rounds).after fun _ => appends_pure _
  unfold ensurePeerOnlyForwarding
  rw [Program.run_bind, hrest _ _ (attach_empties fw), List.nil_append, List.append_nil]

end Contents

end Forwarding

end Api
end ZeroVpn
