import Mathlib.Data.List.Forall2
import Mathlib.Data.Set.Function
import ZeroVpn.HostAgent.Apply
import ZeroVpn.HostAgent.Generation

/-!
# The socket of the host agent

`handle` and `execute` of `crates/zerovpn-host-agent/src/main.rs`, with
`token_matches` of `lib.rs`.  A connection carries one frame.  `handle` parses
it, checks the token (an apply needs a token of its own) and the version, and
then either runs `apply_state` or answers a request that only reads.

The parser of the frame and the hash function are parameters: `serde_json` and
SHA-256.  Of a dump the endpoints and allowed addresses of the peers are left
out.  A handler is a program over calls; what other connections do happens
between its calls.
-/

namespace ZeroVpn

open Library

namespace HostAgent

def protocolVersion : Nat := 2

def maxMessageBytes : Nat := 1024 * 1024

def interface : String := "wg0"

inductive Operation where
  | health
  | stateStatus
  | peerStats
  | validateState (state : DesiredState)
  | applyState (state : DesiredState)
  deriving DecidableEq, Repr

structure Request where
  version : Nat
  token : String
  operation : Operation
  deriving DecidableEq, Repr

inductive Response where
  | health (version : Nat) (interface : String) (interfaceGeneration : Option String)
      (peerCount : Nat) (appliedRevision : Option Nat) (appliedDigest : Option String)
  | stateStatus (version : Nat) (appliedRevision : Option Nat) (appliedDigest : Option String)
  | peerStats (version : Nat) (interface : String) (interfaceGeneration : Option String)
      (interfaceRxBytes interfaceTxBytes : Option Nat) (peers : List PeerStats)
  | validated (version : Nat) (revision : Nat) (digest : String)
  | applied (version : Nat) (revision : Nat) (digest : String)
  | error (version : Nat) (code : String)
  deriving DecidableEq, Repr

/-- `error`. -/
def errorResponse (code : String) : Response := .error protocolVersion code

/-- The hash of a token. -/
abbrev Sha256 := String → Vector UInt8 32

/-- `token_matches`: the differences of all bytes are collected. -/
def tokenMatches (sha256 : Sha256) (expected supplied : String) : Bool :=
  let a := sha256 expected
  let b := sha256 supplied
  (a.toList.zip b.toList).foldl (fun diff xy => diff ||| (xy.1 ^^^ xy.2)) 0 == 0

structure AgentTokens where
  read : String
  apply : Option String
  deriving DecidableEq, Repr

/-- `main` starts the agent only if the apply token differs from the read token. -/
def AgentTokens.accepted (sha256 : Sha256) (tokens : AgentTokens) : Bool :=
  match tokens.apply with
  | some t => !tokenMatches sha256 tokens.read t
  | none => true

/-- `read_until(b'\n')` of at most `limit` bytes. -/
def readUntil : (limit : Nat) → List UInt8 → List UInt8
  | 0, _ => []
  | _ + 1, [] => []
  | limit + 1, b :: bytes => if b = 10 then [b] else b :: readUntil limit bytes

/-- What a connection reads of the bytes that it receives. -/
def frameOf (received : List UInt8) : List UInt8 := readUntil (maxMessageBytes + 1) received

/-- What `handle` does with a frame. -/
inductive Dispatch where
  | respond (response : Response)
  | applyState (state : DesiredState)
  | execute (operation : Operation)
  deriving DecidableEq, Repr

section Admission

variable (sha256 : Sha256) (parse : List UInt8 → Option Request) (tokens : AgentTokens)

def Operation.isApplyState : Operation → Bool
  | applyState _ => true
  | _ => false

/-- The guards of `handle` on a request, in their order. -/
def dispatchRequest (request : Request) : Dispatch :=
  if request.operation.isApplyState && tokens.apply.isNone then
    .respond (errorResponse "apply_disabled")
  else if !tokenMatches sha256
      (if request.operation.isApplyState then tokens.apply.getD "" else tokens.read)
      request.token then
    .respond (errorResponse "unauthorized")
  else if request.version != protocolVersion then
    .respond (errorResponse "unsupported_version")
  else
    match request.operation with
    | .applyState state => .applyState state
    | operation => .execute operation

/-- The part of `handle` before the request is carried out; `inTime` says that the
frame was read without an error or a timeout. -/
def dispatchFrame (received : List UInt8) (inTime : Bool) : Dispatch :=
  let frame := frameOf received
  if inTime && decide (frame.length ≤ maxMessageBytes) && frame.getLast? == some 10 then
    match parse frame with
    | some request => dispatchRequest sha256 tokens request
    | none => .respond (errorResponse "invalid_request")
  else .respond (errorResponse "invalid_frame")

end Admission

/-- `wg show wg0 dump`. -/
inductive WgShow where
  | unavailable
  | failed
  /-- The output is not UTF-8, or has a line that cannot be parsed. -/
  | invalid
  /-- The key of the interface, unless it is no key, and the peers. -/
  | dump (publicKey : Option String) (peers : List PeerStats)

/-- The calls of a connection. -/
inductive SocketCmd (Snapshot : Type) where
  /-- A call of `apply_state`. -/
  | apply (c : AgentCmd Snapshot)
  | load
  | audit (action : String) (revision : Nat) (digest : String)
  /-- `InterfaceFingerprint::observe_host`. -/
  | observeHost (publicKey : String)
  | wgShow
  /-- `GenerationStore::observe`. -/
  | observeGeneration (fingerprint : InterfaceFingerprint)
  /-- The counters under `/sys/class/net`. -/
  | counters

def SocketCmd.Reply {Snapshot : Type} : SocketCmd Snapshot → Type
  | apply c => c.Reply
  | load => Except String (Option AppliedState)
  | audit .. => Bool
  | observeHost _ => Except String InterfaceFingerprint
  | wgShow => WgShow
  | observeGeneration _ => Except String String
  | counters => Option (Nat × Nat)

/-- The agent and its generation store. -/
structure SocketSys (B : Type) where
  agent : AgentSys B
  record : Option GenerationRecord

/-- What the reads of a host answer, and the next random generation. -/
structure HostReads (B : Type) where
  observeHost : B → String → Except String InterfaceFingerprint
  wgShow : B → WgShow
  counters : B → Option (Nat × Nat)
  draw : String

section Semantics

variable {B Snapshot : Type} (backend : HostBackend B Snapshot) (digest : DesiredState → String)
variable (reads : HostReads B)

/-- The meaning of a call of connection `i`; the flag says whether it succeeds. -/
def SocketCmd.sem (i : Nat) :
    (c : SocketCmd Snapshot) → Bool → SocketSys B → SocketSys B × c.Reply
  | .apply c, ok, s =>
      let r := c.sem backend digest i ok s.agent
      ({ s with agent := r.1 }, r.2)
  | .load, true, s => (s, s.agent.journal.load digest)
  | .load, false, s => (s, .error "read last-known-good")
  | .audit .., ok, s => (s, ok)
  | .observeHost publicKey, true, s => (s, reads.observeHost s.agent.host publicKey)
  | .observeHost _, false, s => (s, .error "invalid kernel boot ID")
  | .wgShow, true, s => (s, reads.wgShow s.agent.host)
  | .wgShow, false, s => (s, .unavailable)
  | .observeGeneration fingerprint, ok, s =>
      let r := GenerationStore.observe (fun _ => !ok) reads.draw s.record fingerprint
      ({ s with record := r.1 }, r.2)
  | .counters, true, s => (s, reads.counters s.agent.host)
  | .counters, false, s => (s, none)

end Semantics

/-- Programs of a connection that end with an error code. -/
abbrev Connection (Snapshot α : Type) :=
  Attempt (SocketCmd Snapshot) SocketCmd.Reply String α

section Programs

variable {Snapshot : Type} (digest : DesiredState → String)

/-- `state_store.load()`. -/
def loadJournal : Connection Snapshot (Option AppliedState) :=
  Attempt.lift .load fun r => r.mapError fun _ => "state_unavailable"

/-- `ValidateState`: the candidate is checked and the outcome audited. -/
def validateState (state : DesiredState) : Connection Snapshot Response := do
  let current ← loadJournal
  let prior := priorRevision current
  let d := digest state
  let result : Except String String :=
    if state.revision ≤ prior then .error "stale_revision"
    else if changesIdentity current state then .error "server_identity_change"
    else (state.validate digest prior).mapError fun _ => "invalid_state"
  let action := match result with
    | .ok _ => "validated"
    | .error "stale_revision" => "rejected_stale_revision"
    | .error "server_identity_change" => "rejected_server_identity_change"
    | .error _ => "rejected_invalid_state"
  Attempt.lift (.audit action state.revision d) fun r =>
    if (show Bool from r) then .ok () else .error "audit_unavailable"
  match result with
  | .ok d' => pure (.validated protocolVersion state.revision d')
  | .error code => throw code

/-- Go on only if the condition holds. -/
def require (c : Bool) (code : String) : Connection Snapshot Unit :=
  if c then pure () else throw code

/-- The fingerprint of the interface now. -/
def fingerprintNow (publicKey : String) : Connection Snapshot InterfaceFingerprint :=
  Attempt.lift (.observeHost publicKey) fun r => r.mapError fun _ => "generation_unavailable"

/-- The fingerprint before the dump, if a state has been applied. -/
def fingerprintBefore : Option AppliedState → Connection Snapshot (Option InterfaceFingerprint)
  | none => pure none
  | some applied => do
      let f ← fingerprintNow applied.state.serverPublicKey
      pure (some f)

/-- The dump. -/
def showDump : Connection Snapshot (Option String × List PeerStats) :=
  Attempt.lift .wgShow fun
    | .unavailable => .error "wg_unavailable"
    | .failed => .error "interface_unavailable"
    | .invalid => .error "invalid_wg_output"
    | .dump publicKey peers => .ok (publicKey, peers)

/-- The generation of the interface, if a state has been applied. -/
def interfaceGeneration (before : Option InterfaceFingerprint) (publicKey : Option String) :
    Option AppliedState → Connection Snapshot (Option String)
  | none => pure none
  | some applied =>
      match publicKey with
      | none => throw "invalid_wg_output"
      | some key => do
          require (key == applied.state.serverPublicKey) "server_identity_mismatch"
          let fingerprint ← fingerprintNow key
          require (before == some fingerprint) "interface_changed_during_sample"
          let g ← Attempt.lift (.observeGeneration fingerprint) fun r =>
            r.mapError fun _ => "generation_unavailable"
          pure (some g)

/-- The counters, and one more look at the interface. -/
def confirmSample (before : Option InterfaceFingerprint) (publicKey : Option String) :
    Option String → Connection Snapshot (Option (Nat × Nat))
  | none => pure none
  | some _ => do
      let counters ← Attempt.lift .counters Except.ok
      match publicKey with
      | none => throw "invalid_wg_output"
      | some key => do
          let after ← fingerprintNow key
          require (before == some after) "interface_changed_during_sample"
          pure counters

/-- What `Health` and `PeerStats` report. -/
structure Sample where
  applied : Option AppliedState
  generation : Option String
  counters : Option (Nat × Nat)
  peers : List PeerStats

/-- The sample of `execute`. -/
def sample : Connection Snapshot Sample := do
  let applied ← loadJournal
  let before ← fingerprintBefore applied
  let dump ← showDump
  let generation ← interfaceGeneration before dump.1 applied
  let counters ← confirmSample before dump.1 generation
  pure ⟨applied, generation, counters, dump.2⟩

/-- `execute`. -/
def execute : Operation → Connection Snapshot Response
  | .stateStatus => do
      let applied ← loadJournal
      pure (.stateStatus protocolVersion (applied.map (·.state.revision)) (applied.map (·.digest)))
  | .validateState state => validateState digest state
  | .health => do
      let s ← sample
      pure (.health protocolVersion interface s.generation s.peers.length
        (s.applied.map (·.state.revision)) (s.applied.map (·.digest)))
  | .peerStats => do
      let s ← sample
      pure (.peerStats protocolVersion interface s.generation (s.counters.map Prod.fst)
        (s.counters.map Prod.snd) s.peers)
  | .applyState _ => do
      let _ ← sample
      throw "unreachable"

/-- The calls of `apply_state` as calls of a connection. -/
def ofAgent {α : Type} : Program (AgentCmd Snapshot) AgentCmd.Reply α →
    Program (SocketCmd Snapshot) SocketCmd.Reply α
  | .ret a => .ret a
  | .call c k => .call (.apply c) fun r => ofAgent (k r)

/-- The program up to its first `calls` calls: a `timeout` drops the rest. -/
def within {α : Type} : (calls : Nat) → Program (SocketCmd Snapshot) SocketCmd.Reply α →
    Program (SocketCmd Snapshot) SocketCmd.Reply (Option α)
  | _, .ret a => .ret (some a)
  | 0, .call _ _ => .ret none
  | calls + 1, .call c k => .call c fun r => within calls (k r)

/-- The part of `handle` after the guards; `calls` says how far an `execute` gets
before its timeout. -/
def serve (calls : Nat) : Dispatch → Program (SocketCmd Snapshot) SocketCmd.Reply Response
  | .respond response => pure response
  | .applyState state => do
      match ← ofAgent (applyState digest state).run with
      | .ok outcome => pure (.applied protocolVersion outcome.state.revision outcome.digest)
      | .error _ => pure (errorResponse "apply_failed")
  | .execute operation => do
      match ← within calls (execute digest operation).run with
      | none => pure (errorResponse "operation_timeout")
      | some (.ok response) => pure response
      | some (.error code) => pure (errorResponse code)

/-- `handle`. -/
def handle (sha256 : Sha256) (parse : List UInt8 → Option Request) (tokens : AgentTokens)
    (received : List UInt8) (inTime : Bool) (calls : Nat) :
    Program (SocketCmd Snapshot) SocketCmd.Reply Response :=
  serve digest calls (dispatchFrame sha256 parse tokens received inTime)

end Programs

section Tokens

variable {sha256 : Sha256}

theorem foldl_or_eq_zero (xs : List (UInt8 × UInt8)) (diff : UInt8) :
    xs.foldl (fun diff xy => diff ||| (xy.1 ^^^ xy.2)) diff = 0 ↔
      diff = 0 ∧ ∀ xy ∈ xs, xy.1 = xy.2 := by
  induction xs generalizing diff with
  | nil =>
      simp
  | cons xy xs ih =>
      rw [List.foldl_cons, ih, UInt8.or_eq_zero_iff, UInt8.xor_eq_zero_iff, List.forall_mem_cons,
        and_assoc]

/-- Tokens match when their hashes are equal. -/
theorem tokenMatches_iff {expected supplied : String} :
    tokenMatches sha256 expected supplied = true ↔ sha256 expected = sha256 supplied := by
  have hbytes : (∀ xy ∈ (sha256 expected).toList.zip (sha256 supplied).toList, xy.1 = xy.2) ↔
      List.Forall₂ (· = ·) (sha256 expected).toList (sha256 supplied).toList := by
    rw [List.forall₂_iff_zip]
    exact ⟨fun h => ⟨by simp, fun hxy => h _ hxy⟩, fun h xy hxy => h.2 hxy⟩
  simp only [tokenMatches, beq_iff_eq, foldl_or_eq_zero, true_and]
  rw [hbytes, List.forall₂_eq_eq_eq, Vector.toList_inj]

end Tokens

section Admitted

variable {sha256 : Sha256} {parse : List UInt8 → Option Request} {tokens : AgentTokens}
variable {received : List UInt8} {inTime : Bool} {state : DesiredState}

/-- A request that reaches `apply_state` passed every guard. -/
theorem dispatchRequest_applyState {request : Request}
    (h : dispatchRequest sha256 tokens request = .applyState state) :
    request.version = protocolVersion ∧ request.operation = .applyState state ∧
      ∃ t, tokens.apply = some t ∧ sha256 t = sha256 request.token := by
  unfold dispatchRequest at h
  cases hoperation : request.operation with
  | applyState state' =>
      simp only [hoperation, Operation.isApplyState, Bool.true_and, if_true] at h
      cases happly : tokens.apply with
      | none =>
          rw [happly] at h
          cases h
      | some t =>
          simp only [happly, Option.isNone_some, Bool.false_eq_true, if_false,
            Option.getD_some] at h
          by_cases hmatches : tokenMatches sha256 t request.token = true
          · by_cases hversion : request.version = protocolVersion
            · simp only [hmatches, hversion, Bool.not_true, Bool.false_eq_true, if_false,
                bne_self_eq_false, Dispatch.applyState.injEq] at h
              exact ⟨hversion, by rw [h], t, rfl, tokenMatches_iff.mp hmatches⟩
            · simp [hmatches, hversion] at h
          · simp [hmatches] at h
  | health | stateStatus | peerStats | validateState _ =>
      simp only [hoperation, Operation.isApplyState, Bool.false_and, Bool.false_eq_true,
        if_false] at h
      repeat' split at h
      all_goals cases h

theorem dispatchFrame_applyState
    (h : dispatchFrame sha256 parse tokens received inTime = .applyState state) :
    ∃ request, parse (frameOf received) = some request ∧
      dispatchRequest sha256 tokens request = .applyState state := by
  simp only [dispatchFrame] at h
  split at h
  · cases hparse : parse (frameOf received) with
    | none =>
        rw [hparse] at h
        cases h
    | some request =>
        rw [hparse] at h
        exact ⟨request, rfl, h⟩
  · cases h

end Admitted

/-- The call is none of `apply_state`. -/
def SocketCmd.Reads {Snapshot : Type} : SocketCmd Snapshot → Prop
  | apply _ => False
  | _ => True

section Reads

variable {Snapshot : Type} {digest : DesiredState → String}

open Attempt

theorem loadJournal_reads : Issues SocketCmd.Reads (loadJournal : Connection Snapshot _) :=
  issues_lift trivial

theorem fingerprintNow_reads (publicKey : String) :
    Issues SocketCmd.Reads (fingerprintNow publicKey : Connection Snapshot _) :=
  issues_lift trivial

theorem validateState_reads (state : DesiredState) :
    Issues SocketCmd.Reads (validateState digest state : Connection Snapshot _) := by
  refine issues_bind loadJournal_reads fun current => ?_
  refine issues_bind (issues_lift trivial) fun _ => ?_
  split
  · exact issues_pure _
  · exact issues_throw _

theorem fingerprintBefore_reads (applied : Option AppliedState) :
    Issues SocketCmd.Reads (fingerprintBefore applied : Connection Snapshot _) := by
  cases applied with
  | none =>
      exact issues_pure _
  | some applied =>
      exact issues_bind (fingerprintNow_reads _) fun _ => issues_pure _

theorem require_reads (c : Bool) (code : String) :
    Issues SocketCmd.Reads (require c code : Connection Snapshot _) := by
  cases c with
  | true =>
      exact issues_pure _
  | false =>
      exact issues_throw _

theorem interfaceGeneration_reads (before : Option InterfaceFingerprint)
    (publicKey : Option String) (applied : Option AppliedState) :
    Issues SocketCmd.Reads (interfaceGeneration before publicKey applied :
      Connection Snapshot _) := by
  cases applied with
  | none =>
      exact issues_pure _
  | some applied =>
      cases publicKey with
      | none =>
          exact issues_throw _
      | some key =>
          refine issues_bind (require_reads _ _) fun _ => ?_
          refine issues_bind (fingerprintNow_reads _) fun f => ?_
          refine issues_bind (require_reads _ _) fun _ => ?_
          exact issues_bind (issues_lift trivial) fun _ => issues_pure _

theorem confirmSample_reads (before : Option InterfaceFingerprint) (publicKey : Option String)
    (generation : Option String) :
    Issues SocketCmd.Reads (confirmSample before publicKey generation :
      Connection Snapshot _) := by
  cases generation with
  | none =>
      exact issues_pure _
  | some g =>
      refine issues_bind (issues_lift trivial) fun counters => ?_
      cases publicKey with
      | none =>
          exact issues_throw _
      | some key =>
          refine issues_bind (fingerprintNow_reads _) fun after => ?_
          exact issues_bind (require_reads _ _) fun _ => issues_pure _

theorem sample_reads : Issues SocketCmd.Reads (sample : Connection Snapshot _) := by
  refine issues_bind loadJournal_reads fun applied => ?_
  refine issues_bind (fingerprintBefore_reads applied) fun before => ?_
  refine issues_bind (issues_lift trivial) fun dump => ?_
  refine issues_bind (interfaceGeneration_reads _ _ _) fun generation => ?_
  exact issues_bind (confirmSample_reads _ _ _) fun counters => issues_pure _

/-- No operation of `execute` calls `apply_state`. -/
theorem execute_reads (operation : Operation) :
    Issues SocketCmd.Reads (execute digest operation : Connection Snapshot _) := by
  cases operation with
  | stateStatus =>
      exact issues_bind loadJournal_reads fun _ => issues_pure _
  | validateState state =>
      exact validateState_reads state
  | health | peerStats =>
      exact issues_bind sample_reads fun _ => issues_pure _
  | applyState state =>
      exact issues_bind sample_reads fun _ => issues_throw _

theorem within_calls {α : Type} {P : SocketCmd Snapshot → Prop}
    {p : Program (SocketCmd Snapshot) SocketCmd.Reply α} (hp : Program.Calls P p) (calls : Nat) :
    Program.Calls P (within calls p) := by
  induction p generalizing calls with
  | ret a =>
      cases calls <;> trivial
  | call c k ih =>
      cases calls with
      | zero =>
          trivial
      | succ calls =>
          exact ⟨hp.1, fun r => ih r (hp.2 r) calls⟩

/-- Only an admitted `ApplyState` calls `apply_state`. -/
theorem serve_reads {dispatch : Dispatch} (h : ∀ state, dispatch ≠ .applyState state)
    (calls : Nat) : Program.Calls SocketCmd.Reads (serve digest calls dispatch :
      Program (SocketCmd Snapshot) _ _) := by
  cases dispatch with
  | respond response =>
      trivial
  | applyState state =>
      exact absurd rfl (h state)
  | execute operation =>
      refine (within_calls (execute_reads operation) calls).bind fun r => ?_
      split <;> trivial

end Reads

section Authority

variable {B Snapshot : Type} (backend : HostBackend B Snapshot) (digest : DesiredState → String)
variable (reads : HostReads B)

/-- No call of the connection changes the journal or the host: in whatever state
it is issued, whatever the calls before it were answered, and whether or not it
succeeds. -/
def LeavesHost (p : Program (SocketCmd Snapshot) SocketCmd.Reply Response) : Prop :=
  Program.Calls (fun c => ∀ i ok (s : SocketSys B),
    (c.sem backend digest reads i ok s).1.agent.journal = s.agent.journal ∧
      (c.sem backend digest reads i ok s).1.agent.host = s.agent.host) p

theorem leavesHost_of_reads {p : Program (SocketCmd Snapshot) SocketCmd.Reply Response}
    (hp : Program.Calls SocketCmd.Reads p) : LeavesHost backend digest reads p := by
  refine hp.mono fun c hc i ok s => ?_
  cases c with
  | apply c =>
      exact hc.elim
  | audit action revision d =>
      exact ⟨rfl, rfl⟩
  | observeGeneration fingerprint =>
      exact ⟨rfl, rfl⟩
  | load | observeHost publicKey | wgShow | counters =>
      cases ok <;> exact ⟨rfl, rfl⟩

/-- The frame is a request to apply, of the version of the agent and with its apply
token. -/
def Authorized (parse : List UInt8 → Option Request) (tokens : AgentTokens)
    (received : List UInt8) : Prop :=
  ∃ request state, parse (frameOf received) = some request ∧ request.version = 2 ∧
    request.operation = .applyState state ∧ tokens.apply = some request.token

/-- What a connection can change needs the apply token: without it, or without one
configured, nothing changes, and the read token does not reach `apply_state` of an
agent that `main` started. -/
theorem apply_needs_its_token (sha256 : Sha256) (parse : List UInt8 → Option Request)
    (tokens : AgentTokens) (received : List UInt8) (inTime : Bool) (calls : Nat)
    (hsha : ∀ request t, parse (frameOf received) = some request → tokens.apply = some t →
      Set.InjOn sha256 {t, request.token}) :
    (¬ Authorized parse tokens received →
        LeavesHost backend digest reads (handle digest sha256 parse tokens received inTime calls)) ∧
      (tokens.apply = none →
        LeavesHost backend digest reads (handle digest sha256 parse tokens received inTime calls)) ∧
      (tokens.accepted sha256 = true → ∀ request, parse (frameOf received) = some request →
        request.token = tokens.read →
        ∀ state, dispatchFrame sha256 parse tokens received inTime ≠ .applyState state) := by
  have hauthorized {state : DesiredState}
      (h : dispatchFrame sha256 parse tokens received inTime = .applyState state) :
      Authorized parse tokens received := by
    obtain ⟨request, hparse, hdispatch⟩ := dispatchFrame_applyState h
    obtain ⟨hversion, hoperation, t, happly, hhash⟩ := dispatchRequest_applyState hdispatch
    have htoken : t = request.token := hsha request t hparse happly (by simp) (by simp) hhash
    exact ⟨request, state, hparse, hversion, hoperation, by rw [happly, htoken]⟩
  have hleaves (h : ¬ Authorized parse tokens received) :
      LeavesHost backend digest reads (handle digest sha256 parse tokens received inTime calls) :=
    leavesHost_of_reads backend digest reads
      (serve_reads (fun state hdispatch => h (hauthorized hdispatch)) calls)
  refine ⟨hleaves, fun hnone => hleaves ?_, ?_⟩
  · rintro ⟨request, state, _, _, _, happly⟩
    rw [hnone] at happly
    cases happly
  · intro haccepted request hparse hread state hdispatch
    obtain ⟨request', hparse', hdispatch'⟩ := dispatchFrame_applyState hdispatch
    obtain ⟨_, _, t, happly, hhash⟩ := dispatchRequest_applyState hdispatch'
    rw [hparse] at hparse'
    cases hparse'
    have hsame : tokenMatches sha256 tokens.read t = true := by
      rw [tokenMatches_iff, ← hread, hhash]
    simp [AgentTokens.accepted, happly, hsame] at haccepted

end Authority

/-- A hash that tells short tokens apart. -/
def shortSha256 : Sha256 := fun token =>
  Vector.ofFn fun i => UInt8.ofNat (token.toList.getD i (Char.ofNat 0)).toNat

/-- The tokens of the agent's own test. -/
def testTokens : AgentTokens where
  read := "read-token"
  apply := some "apply-token"

/-- `{}` stands for a request to apply with the given token. -/
def testParse (token : String) (bytes : List UInt8) : Option Request :=
  if bytes = [123, 125, 10] then some ⟨2, token, .applyState ⟨1, "", []⟩⟩ else none

/-- A backend that does nothing. -/
def idleBackend : HostBackend Unit Unit where
  new _ _ := ((), .ok ())
  snapshot _ _ := ((), .ok ())
  stage _ _ _ := ((), .ok ())
  activate _ _ := ((), .ok ())
  verify _ _ _ := ((), .ok ())
  rollback _ _ _ := ((), .ok ())

def idleReads : HostReads Unit where
  observeHost _ _ := .error "invalid kernel boot ID"
  wgShow _ := .unavailable
  counters _ := none
  draw := ""

theorem apply_needs_its_token_sample :
    dispatchFrame shortSha256 (testParse "apply-token") testTokens [123, 125, 10, 7] true =
        .applyState ⟨1, "", []⟩ ∧
      LeavesHost idleBackend (fun _ => "") idleReads
        (handle (fun _ => "") shortSha256 (testParse "read-token") testTokens
          [123, 125, 10, 7] true 9) := by
  have hframe : testParse "read-token" (frameOf [123, 125, 10, 7]) =
      some ⟨2, "read-token", .applyState ⟨1, "", []⟩⟩ := by decide
  refine ⟨by decide, (apply_needs_its_token idleBackend (fun _ => "") idleReads shortSha256
    (testParse "read-token") testTokens _ true 9 ?_).1 ?_⟩
  · intro request t hparse happly
    rw [hframe] at hparse
    cases hparse
    cases happly
    rintro x (rfl | rfl) y (rfl | rfl) h
    · rfl
    · exact absurd h (by decide)
    · exact absurd h (by decide)
    · rfl
  · rintro ⟨request, state, hparse, _, _, happly⟩
    rw [hframe] at hparse
    cases hparse
    exact absurd happly (by decide)

end HostAgent
end ZeroVpn
