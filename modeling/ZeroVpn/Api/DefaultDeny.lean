import ZeroVpn.Api.Forwarding

/-!
# The default deny while the rules are rebuilt

`ensure_peer_only_forwarding` flushes `ZEROVPN-WG` and `ZEROVPN-WG-IN` and then
appends their rules one by one, the `DROP` last.  The jumps to the two chains
stay where they are, so a packet that arrives in between falls through to the
other rules of the host's chain and to its policy, which is `ACCEPT`.

`default_deny_iff` says exactly when no packet of the tunnel gets through that
way, for every pattern of failing commands: when each of the two flushes fails,
or the other rules of the host happen to drop everything that is not allowed.
-/

namespace ZeroVpn

open Library

namespace Api
namespace Forwarding

/-- The meaning of a command when `fails n c` says whether the command `c` fails
when it is issued after `n` others like it. -/
def faultySem (fails : Nat → IptCmd → Bool) (c : IptCmd) (s : IpTables × List IptCmd) :
    (IpTables × List IptCmd) × Bool :=
  if fails (s.2.count c) c then ((s.1, s.2 ++ [c]), false)
  else (((exec c s.1).1, s.2 ++ [c]), (exec c s.1).2)

/-- Where a packet of the tunnel is filtered. -/
inductive Hook where
  | forward
  | input
  deriving DecidableEq, Repr

/-- The built-in chain. -/
def Hook.host : Hook → String
  | forward => "FORWARD"
  | input => "INPUT"

/-- The chain of the API. -/
def Hook.owned : Hook → String
  | forward => chain
  | input => inputChain

theorem Hook.owned_ne_host (h h' : Hook) : h.owned ≠ h'.host := by
  cases h <;> cases h' <;> decide

theorem Hook.host_injective {h h' : Hook} (heq : h.host = h'.host) : h = h' := by
  revert heq
  cases h <;> cases h' <;> decide

theorem Hook.owned_injective {h h' : Hook} (heq : h.owned = h'.owned) : h = h' := by
  revert heq
  cases h <;> cases h' <;> decide

/-- A packet for the gateway itself passes `INPUT`, every other one `FORWARD`. -/
def hookOf (p : Packet) : Hook := if p.output.isSome then .forward else .input

/-- The chains accept the packet; their policy is `ACCEPT`. -/
def accepted (fw : IpTables) (p : Packet) : Bool :=
  chainVerdict (fun m => m.hits p) fw.filter 2 (hookOf p).host != some .drop

/-- The rule set of a run. -/
def ownRules (env : Env) (rows : List HostRule) : Hook → List FwRule
  | .forward => forwardRules env rows
  | .input => inputRules env

/-- The packet matches an allow rule of the rule set. -/
def Allowed (env : Env) (rows : List HostRule) (p : Packet) : Prop :=
  ∃ h, ∃ r ∈ ownRules env rows h, r.target = .verdict .accept ∧ r.spec.hits p = true

instance (env : Env) (rows : List HostRule) (p : Packet) : Decidable (Allowed env rows p) :=
  decidable_of_iff
    (∃ r ∈ forwardRules env rows ++ inputRules env,
      r.target = .verdict .accept ∧ r.spec.hits p = true) <| by
    constructor
    · rintro ⟨r, hr, hallow⟩
      rcases List.mem_append.mp hr with hr | hr
      · exact ⟨.forward, r, hr, hallow⟩
      · exact ⟨.input, r, hr, hallow⟩
    · rintro ⟨h, r, hr, hallow⟩
      refine ⟨r, List.mem_append.mpr ?_, hallow⟩
      cases h with
      | forward =>
          exact .inl hr
      | input =>
          exact .inr hr

/-- What a completed run leaves: the rule set in the two chains, and the jumps in
front of the other rules of the host, which decide on their own. -/
structure Deployed (env : Env) (rows : List HostRule) (rest : Hook → List FwRule)
    (fw : IpTables) : Prop where
  host : ∀ h, ∃ n, fw.filter h.host =
    some (List.replicate (n + 1) (jumpTo h.owned) ++ rest h)
  owned : ∀ h, fw.filter h.owned = some (ownRules env rows h)
  flat : ∀ h, Flat (rest h)

/-- The other rules of the host drop what is not allowed. -/
def Guarded (iface : String) (allowed : Packet → Prop) (rest : Hook → List FwRule)
    (h : Hook) : Prop :=
  ∀ p, p.input = iface → hookOf p = h → ¬allowed p →
    walk (fun m => m.hits p) (fun _ => none) (rest h) = some .drop

section Rules

theorem accessRules_flat (env : Env) (source : Endpoint) (target : BitVec 32)
    (protocol : TransportProtocol) (port : Int) :
    Flat (accessRules env source target protocol port) := by
  intro r hr
  simp only [accessRules, List.mem_cons, List.not_mem_nil, or_false] at hr
  rcases hr with rfl | rfl
  · exact ⟨_, rfl⟩
  · exact ⟨_, rfl⟩

theorem forwardRules_flat (env : Env) (rows : List HostRule) : Flat (forwardRules env rows) := by
  intro r hr
  simp only [forwardRules, List.cons_append, List.mem_cons, List.mem_append, List.mem_flatMap,
    List.not_mem_nil, or_false] at hr
  rcases hr with rfl | (⟨rule, _, hr⟩ | hr) | rfl | rfl
  · exact ⟨_, rfl⟩
  · unfold hostRules at hr
    split at hr
    · exact accessRules_flat _ _ _ _ _ r hr
    · cases hr
  · unfold httpsRules at hr
    split at hr
    · exact accessRules_flat _ _ _ _ _ r hr
    · cases hr
    · cases hr
  · exact ⟨_, rfl⟩
  · exact ⟨_, rfl⟩

theorem ownRules_flat (env : Env) (rows : List HostRule) (h : Hook) :
    Flat (ownRules env rows h) := by
  cases h with
  | forward =>
      exact forwardRules_flat env rows
  | input =>
      intro r hr
      simp only [ownRules, inputRules, List.mem_cons, List.not_mem_nil, or_false] at hr
      rcases hr with rfl | rfl
      · exact ⟨_, rfl⟩
      · exact ⟨_, rfl⟩

/-- Each rule set drops what arrives from the tunnel. -/
theorem dropFromVpn_mem (env : Env) (rows : List HostRule) (h : Hook) :
    dropFromVpn env ∈ ownRules env rows h := by
  cases h with
  | forward =>
      simp [ownRules, forwardRules]
  | input =>
      simp [ownRules, inputRules]

theorem dropFromVpn_hits {env : Env} {p : Packet} (hp : p.input = env.iface) :
    (dropFromVpn env).spec.hits p = true := by
  simp [dropFromVpn, dropRule, PacketMatch.hits, hp]

theorem jumpTo_hits (name : String) (p : Packet) :
    (jumpTo name : FwRule).spec.hits p = true := by
  simp [jumpTo, PacketMatch.hits]

end Rules

section Verdicts

variable {fw : IpTables} {h : Hook} {n : Nat} {rs rest : List FwRule}

/-- A packet meets the rules of the owned chain and then the rest of the host's. -/
theorem chainVerdict_host (p : Packet)
    (hhost : fw.filter h.host = some (List.replicate (n + 1) (jumpTo h.owned) ++ rest))
    (howned : fw.filter h.owned = some rs) (hrs : Flat rs) (hrest : Flat rest) :
    chainVerdict (fun m => m.hits p) fw.filter 2 h.host =
      (walk (fun m => m.hits p) (fun _ => none) rs).or
        (walk (fun m => m.hits p) (fun _ => none) rest) := by
  unfold chainVerdict
  rw [hhost, Option.getD_some, walk_jumps n rfl (jumpTo_hits h.owned p),
    hrest.walk_eq _ fun _ => none]
  unfold chainVerdict
  rw [howned, Option.getD_some, hrs.walk_eq _ fun _ => none]

end Verdicts

section Steps

variable (old new : Env) (oldRows newRows : List HostRule) (rest : Hook → List FwRule)

/-- Jumps and other rules are where they were, and the owned chains hold nothing
but old and new rules. -/
def Standing (fw : IpTables) : Prop :=
  ∀ h, (∃ n, fw.filter h.host = some (List.replicate (n + 1) (jumpTo h.owned) ++ rest h)) ∧
    ∃ rs, fw.filter h.owned = some rs ∧
      ∀ r ∈ rs, r ∈ ownRules old oldRows h ∨ r ∈ ownRules new newRows h

/-- The old rules are still at the head of the owned chain. -/
def Fenced (h : Hook) (fw : IpTables) : Prop :=
  ∃ extra, fw.filter h.owned = some (ownRules old oldRows h ++ extra)

/-- The commands of a run; `may` are the chains it flushes. -/
def OwnCmd (may : Hook → Prop) : IptCmd → Prop
  | .nat _ => True
  | .filter (.create name) => ∃ h : Hook, name = h.owned
  | .filter (.flush name) => ∃ h : Hook, may h ∧ name = h.owned
  | .filter (.check _ _) => True
  | .filter (.insert name r) => ∃ h : Hook, name = h.host ∧ r = jumpTo h.owned
  | .filter (.append name r) => ∃ h : Hook, name = h.owned ∧ r ∈ ownRules new newRows h
  | .filter (.delete _ _) => False

variable {old new oldRows newRows rest}
variable {may : Hook → Prop} {c : IptCmd} {fw fw' : IpTables}

/-- What a command of a run does to the filter table. -/
inductive Effect (new : Env) (newRows : List HostRule) (may : Hook → Prop) (fw fw' : IpTables) :
    Prop
  | quiet : fw'.filter = fw.filter → Effect new newRows may fw fw'
  | flushed (h : Hook) : may h → fw'.filter = Function.update fw.filter h.owned (some []) →
      Effect new newRows may fw fw'
  | jumped (h : Hook) (rs : List FwRule) : fw.filter h.host = some rs →
      fw'.filter = Function.update fw.filter h.host (some (jumpTo h.owned :: rs)) →
      Effect new newRows may fw fw'
  | appended (h : Hook) (r : FwRule) (rs : List FwRule) : fw.filter h.owned = some rs →
      r ∈ ownRules new newRows h →
      fw'.filter = Function.update fw.filter h.owned (some (rs ++ [r])) →
      Effect new newRows may fw fw'

theorem exec_effect (hc : OwnCmd new newRows may c)
    (hstanding : Standing old new oldRows newRows rest fw) :
    Effect new newRows may fw (exec c fw).1 := by
  have howned : ∀ h : Hook, ∃ rs, fw.filter h.owned = some rs := by
    intro h
    obtain ⟨_, rs, hrs, _⟩ := hstanding h
    exact ⟨rs, hrs⟩
  unfold exec
  cases hrun : c.run fw with
  | none =>
      exact .quiet rfl
  | some fw' =>
      cases c with
      | nat c =>
          obtain ⟨t, _, rfl⟩ := Option.map_eq_some_iff.mp hrun
          exact .quiet rfl
      | filter c =>
          obtain ⟨t, ht, rfl⟩ := Option.map_eq_some_iff.mp hrun
          cases c with
          | create name =>
              obtain ⟨h, rfl⟩ := hc
              obtain ⟨rs, hrs⟩ := howned h
              rw [ChainCmd.run_create_exists hrs] at ht
              cases ht
          | flush name =>
              obtain ⟨h, hmay, rfl⟩ := hc
              obtain ⟨rs, hrs⟩ := howned h
              rw [ChainCmd.run_flush hrs] at ht
              injection ht with ht
              exact .flushed h hmay ht.symm
          | check name r =>
              exact .quiet (ChainCmd.run_check_eq ht)
          | insert name r =>
              obtain ⟨h, rfl, rfl⟩ := hc
              obtain ⟨⟨n, hhost⟩, _⟩ := hstanding h
              simp only [ChainCmd.run, hhost] at ht
              split at ht
              · injection ht with ht
                exact .jumped h _ hhost ht.symm
              · cases ht
          | append name r =>
              obtain ⟨h, rfl, hr⟩ := hc
              obtain ⟨rs, hrs⟩ := howned h
              obtain ⟨v, hv⟩ := ownRules_flat new newRows h r hr
              rw [ChainCmd.run_append hrs hv] at ht
              injection ht with ht
              exact .appended h r rs hrs hr ht.symm
          | delete name r =>
              exact absurd hc (by simp [OwnCmd])

/-- Every command of a run keeps the shape of the table. -/
theorem Effect.standing (heffect : Effect new newRows may fw fw')
    (hstanding : Standing old new oldRows newRows rest fw) :
    Standing old new oldRows newRows rest fw' := by
  intro h'
  obtain ⟨⟨n, hhost⟩, rs', hrs', hown⟩ := hstanding h'
  cases heffect with
  | quiet heq =>
      rw [heq]
      exact ⟨⟨n, hhost⟩, rs', hrs', hown⟩
  | flushed h _ heq =>
      rw [heq, Function.update_of_ne (Ne.symm (h.owned_ne_host h'))]
      refine ⟨⟨n, hhost⟩, ?_⟩
      by_cases hh : h' = h
      · subst hh
        exact ⟨[], Function.update_self .., fun r hr => by cases hr⟩
      · rw [Function.update_of_ne fun hne => hh (Hook.owned_injective hne)]
        exact ⟨rs', hrs', hown⟩
  | jumped h rs hrs heq =>
      rw [heq, Function.update_of_ne (h'.owned_ne_host h)]
      refine ⟨?_, rs', hrs', hown⟩
      by_cases hh : h' = h
      · subst hh
        refine ⟨n + 1, ?_⟩
        rw [Function.update_self, ← Option.some.inj (hhost.symm.trans hrs), ← List.cons_append,
          ← List.replicate_succ]
      · rw [Function.update_of_ne fun hne => hh (Hook.host_injective hne)]
        exact ⟨n, hhost⟩
  | appended h r rs hrs hr heq =>
      rw [heq, Function.update_of_ne (Ne.symm (h.owned_ne_host h'))]
      refine ⟨⟨n, hhost⟩, ?_⟩
      by_cases hh : h' = h
      · subst hh
        refine ⟨rs ++ [r], Function.update_self .., ?_⟩
        intro r' hr'
        rcases List.mem_append.mp hr' with hold | hnew
        · exact hown r' (Option.some.inj (hrs'.symm.trans hrs) ▸ hold)
        · rw [List.mem_singleton.mp hnew]
          exact .inr hr
      · rw [Function.update_of_ne fun hne => hh (Hook.owned_injective hne)]
        exact ⟨rs', hrs', hown⟩

/-- Every command but the flush of a chain leaves the old rules at its head. -/
theorem Effect.fenced (heffect : Effect new newRows may fw fw') {h' : Hook} (hmay : ¬may h')
    (hfenced : Fenced old oldRows h' fw) : Fenced old oldRows h' fw' := by
  obtain ⟨extra, hextra⟩ := hfenced
  cases heffect with
  | quiet heq =>
      exact ⟨extra, by rw [heq, hextra]⟩
  | flushed h hh heq =>
      refine ⟨extra, ?_⟩
      rw [heq, Function.update_of_ne, hextra]
      intro hne
      exact hmay (Hook.owned_injective hne ▸ hh)
  | jumped h rs hrs heq =>
      refine ⟨extra, ?_⟩
      rw [heq, Function.update_of_ne (h'.owned_ne_host h), hextra]
  | appended h r rs hrs hr heq =>
      by_cases hh : h' = h
      · subst hh
        refine ⟨extra ++ [r], ?_⟩
        rw [heq, Function.update_self, ← Option.some.inj (hextra.symm.trans hrs),
          List.append_assoc]
      · refine ⟨extra, ?_⟩
        rw [heq, Function.update_of_ne (fun hne => hh (Hook.owned_injective hne)), hextra]

end Steps

section Classes

variable (new : Env) (newRows : List HostRule) {may : Hook → Prop}

open Program (Calls)

theorem calls_run (c : IptCmd) (hc : OwnCmd new newRows may c) :
    Calls (OwnCmd new newRows may) (run c) := ⟨hc, fun _ => trivial⟩

theorem calls_attachNat (host name : String) :
    Calls (OwnCmd new newRows may) (attach .nat host name) := by
  have hnat : ∀ c : ChainCmd PacketMatch NatVerdict,
      Calls (OwnCmd new newRows may) (run (.nat c)) := fun c => calls_run new newRows (.nat c) trivial
  refine (hnat _).bind fun _ => (hnat _).bind fun _ => (hnat _).bind fun ok => ?_
  cases ok with
  | true =>
      trivial
  | false =>
      exact (hnat _).bind fun _ => trivial

theorem calls_ensureJump (h : Hook) :
    Calls (OwnCmd new newRows may) (ensureJump .filter h.host h.owned) := by
  refine (calls_run new newRows (.filter (.check _ _)) trivial).bind fun ok => ?_
  cases ok with
  | true =>
      trivial
  | false =>
      exact (calls_run new newRows (.filter (.insert _ _)) ⟨h, rfl, rfl⟩).bind fun _ => trivial

theorem calls_attach (h : Hook) (hmay : may h) :
    Calls (OwnCmd new newRows may) (attach .filter h.host h.owned) := by
  refine (calls_run new newRows (.filter (.create h.owned)) ⟨h, rfl⟩).bind fun _ => ?_
  refine (calls_run new newRows (.filter (.flush h.owned)) ⟨h, hmay, rfl⟩).bind fun _ => ?_
  exact calls_ensureJump new newRows h

theorem calls_appendTo (h : Hook) {r : FwRule} (hr : r ∈ ownRules new newRows h) :
    Calls (OwnCmd new newRows may) (appendTo h.owned r) :=
  calls_run new newRows (.filter (.append _ _)) ⟨h, rfl, hr⟩

theorem calls_installAccess {source : Endpoint} {target : BitVec 32}
    {protocol : TransportProtocol} {port : Int} (translate : NatRule)
    (hrules : ∀ r ∈ accessRules new source target protocol port, r ∈ forwardRules new newRows) :
    Calls (OwnCmd new newRows may)
      (installAccess new source target protocol port translate) := by
  refine (calls_appendTo new newRows .forward (hrules _ (by simp [accessRules]))).bind fun _ => ?_
  refine (calls_appendTo new newRows .forward (hrules _ (by simp [accessRules]))).bind fun _ => ?_
  refine (calls_run new newRows (.nat _) trivial).bind fun _ => ?_
  exact (calls_run new newRows (.nat _) trivial).bind fun _ => trivial

theorem calls_hostTraffic (rows : List HostRule) (ok : Bool)
    (hrows : ∀ rule ∈ rows, ∀ r ∈ hostRules new rule, r ∈ forwardRules new newRows) :
    Calls (OwnCmd new newRows may) (hostTraffic new rows ok) := by
  induction rows generalizing ok with
  | nil =>
      trivial
  | cons rule rows ih =>
      have htail : ∀ rule' ∈ rows, ∀ r ∈ hostRules new rule', r ∈ forwardRules new newRows :=
        fun rule' hrule' => hrows rule' (List.mem_cons_of_mem _ hrule')
      have hhead := hrows rule (by simp)
      unfold hostRules at hhead
      unfold hostTraffic
      cases hsource : rule.source new with
      | none =>
          exact ih ok htail
      | some source =>
          rw [hsource] at hhead
          exact (calls_installAccess new newRows _ hhead).bind fun done => ih (ok && done) htail

theorem calls_httpsTraffic : Calls (OwnCmd new newRows may) (httpsTraffic new) := by
  have hrules : ∀ r ∈ httpsRules new, r ∈ forwardRules new newRows := by
    intro r hr
    simp [forwardRules, hr]
  unfold httpsRules at hrules
  unfold httpsTraffic
  cases htarget : new.httpsTarget with
  | unset =>
      trivial
  | unresolved =>
      trivial
  | resolved target =>
      rw [htarget] at hrules
      exact calls_installAccess new newRows _ hrules

theorem calls_forwardTraffic : Calls (OwnCmd new newRows may) (forwardTraffic new newRows) := by
  refine (calls_appendTo new newRows .forward (by simp [ownRules, forwardRules])).bind fun _ => ?_
  refine (calls_attachNat new newRows _ _).bind fun _ => ?_
  refine (calls_attachNat new newRows _ _).bind fun _ => ?_
  refine (calls_hostTraffic new newRows newRows true ?_).bind fun _ => ?_
  · intro rule hrule r hr
    have hmem : r ∈ newRows.flatMap (hostRules new) := List.mem_flatMap.mpr ⟨rule, hrule, hr⟩
    simp [forwardRules, hmem]
  refine (calls_httpsTraffic new newRows).bind fun _ => ?_
  refine (calls_appendTo new newRows .forward (by simp [ownRules, forwardRules])).bind fun _ => ?_
  exact (calls_appendTo new newRows .forward (by simp [ownRules, forwardRules])).bind
    fun _ => trivial

theorem calls_clearMasquerade (rounds : Nat) :
    Calls (OwnCmd new newRows may) (clearMasquerade rounds) := by
  induction rounds with
  | zero =>
      trivial
  | succ rounds ih =>
      refine (calls_run new newRows (.nat _) trivial).bind fun found => ?_
      cases found with
      | true =>
          exact (calls_run new newRows (.nat _) trivial).bind fun _ => ih
      | false =>
          trivial

/-- The end of the function, after the second flush. -/
theorem calls_inputTraffic (rounds : Nat) (forwarded : Bool) :
    Calls (OwnCmd new newRows may) (do
      let pingGateway ← appendTo inputChain (pingRule new)
      let dropGateway ← appendTo inputChain (dropFromVpn new)
      clearMasquerade rounds
      pure (forwarded && pingGateway && dropGateway)) := by
  refine (calls_appendTo new newRows .input (by simp [ownRules, inputRules])).bind fun _ => ?_
  refine (calls_appendTo new newRows .input (by simp [ownRules, inputRules])).bind fun _ => ?_
  exact (calls_clearMasquerade new newRows rounds).bind fun _ => trivial

end Classes

section Runs

variable {old new : Env} {oldRows newRows : List HostRule} {rest : Hook → List FwRule}
variable {fails : Nat → IptCmd → Bool} {may : Hook → Prop} {α : Type}

open Program (Calls Throughout Keeps throughout_bind)

/-- A command of a run, whether it fails or not. -/
theorem faultySem_effect {c : IptCmd} (hc : OwnCmd new newRows may c)
    {s : IpTables × List IptCmd} (hs : Standing old new oldRows newRows rest s.1) :
    Effect new newRows may s.1 (faultySem fails c s).1.1 := by
  unfold faultySem
  split
  · exact .quiet rfl
  · exact exec_effect hc hs

/-- A run keeps the shape of the table. -/
theorem keeps_standing (fails : Nat → IptCmd → Bool) {p : IptProgram α} (hp : Calls (OwnCmd new newRows may) p) :
    Keeps (faultySem fails) (fun t => Standing old new oldRows newRows rest t.1) p :=
  hp.keeps fun _ _ hc ht => (faultySem_effect hc ht).standing ht

/-- The chain of the hook has not been flushed yet, or not tried to. -/
def Unflushed (h : Hook) (s : IpTables × List IptCmd) : Prop :=
  s.2.count (.filter (.flush h.owned)) = 0

theorem unflushed_of_ownCmd {h : Hook} {c : IptCmd}
    (hc : OwnCmd new newRows may c) (hmay : ¬may h) {s : IpTables × List IptCmd} (hs : Unflushed h s) :
    Unflushed h (faultySem fails c s).1 := by
  have hcalls : (faultySem fails c s).1.2 = s.2 ++ [c] := by
    unfold faultySem
    split <;> rfl
  unfold Unflushed
  rw [hcalls, List.count_append, show s.2.count _ = 0 from hs, Nat.zero_add,
    List.count_singleton, if_neg]
  intro heq
  rw [beq_iff_eq] at heq
  subst heq
  obtain ⟨h', hh', howned⟩ := hc
  exact hmay (Hook.owned_injective howned ▸ hh')

/-- The part of a run that does not flush a chain. -/
theorem keeps_unflushed (fails : Nat → IptCmd → Bool) {h : Hook} {p : IptProgram α}
    (hp : Calls (OwnCmd new newRows may) p) (hmay : ¬may h) : Keeps (faultySem fails) (Unflushed h) p :=
  hp.keeps fun _ _ hc hs => unflushed_of_ownCmd hc hmay hs

theorem keeps_fenced (fails : Nat → IptCmd → Bool) {h : Hook} {p : IptProgram α}
    (hp : Calls (OwnCmd new newRows may) p) (hmay : ¬may h) :
    Keeps (faultySem fails) (fun t => Standing old new oldRows newRows rest t.1 ∧
      Fenced old oldRows h t.1) p := by
  refine hp.keeps fun c s hc hs => ?_
  have heffect : Effect new newRows may s.1 (faultySem fails c s).1.1 := faultySem_effect hc hs.1
  exact ⟨heffect.standing hs.1, heffect.fenced hmay hs.2⟩

/-- A flush that fails has no effect. -/
theorem faultySem_flush_fails {h : Hook} (hfails : fails 0 (.filter (.flush h.owned)) = true)
    {s : IpTables × List IptCmd} (hs : Unflushed h s) :
    (faultySem fails (.filter (.flush h.owned)) s).1.1 = s.1 := by
  unfold faultySem
  rw [show s.2.count _ = 0 from hs, if_pos hfails]

/-- A flush that succeeds leaves the chain empty. -/
theorem faultySem_flush_empties {h : Hook}
    (hfails : fails 0 (.filter (.flush h.owned)) = false) {s : IpTables × List IptCmd}
    (hs : Unflushed h s) (hstanding : Standing old new oldRows newRows rest s.1) :
    (faultySem fails (.filter (.flush h.owned)) s).1.1.filter h.owned = some [] := by
  obtain ⟨_, rs, hrs, _⟩ := hstanding h
  unfold faultySem
  rw [show s.2.count _ = 0 from hs, hfails]
  exact exec_flush hrs

variable {β : Type} {h : Hook} {before : IptProgram α} {after : α → IptProgram β}
variable (hbefore : Calls (OwnCmd new newRows (· ≠ h)) before)
variable {s : IpTables × List IptCmd}
variable (hstanding : Standing old new oldRows newRows rest s.1) (hfresh : Unflushed h s)

include hbefore hstanding hfresh

/-- If the flush of a chain fails, a run leaves the old rules at its head. -/
theorem fenced_throughout (hafter : ∀ a, Calls (OwnCmd new newRows (· ≠ h)) (after a))
    (hfails : fails 0 (.filter (.flush h.owned)) = true) (hfenced : Fenced old oldRows h s.1) :
    Throughout (faultySem fails)
      (fun t => Standing old new oldRows newRows rest t.1 ∧ Fenced old oldRows h t.1)
      (before >>= fun a => attach .filter h.host h.owned >>= fun _ => after a) s := by
  have hnot : ¬(fun h' => h' ≠ h) h := fun hne => hne rfl
  obtain ⟨hthrough, hend⟩ := keeps_fenced fails hbefore hnot s ⟨hstanding, hfenced⟩
  have hunflushed := (keeps_unflushed fails hbefore hnot s hfresh).2
  refine throughout_bind.mpr ⟨hthrough, ?_⟩
  generalize (Program.run (faultySem fails) before s).1 = t at hend hunflushed
  generalize (Program.run (faultySem fails) before s).2 = a
  -- the chain exists, so `-N` is refused; the flush fails
  have hcreate : OwnCmd new newRows (fun h' => h' ≠ h) (.filter (.create h.owned)) := ⟨h, rfl⟩
  have heffect : Effect new newRows (fun h' => h' ≠ h) t.1
      (faultySem fails (.filter (.create h.owned)) t).1.1 := faultySem_effect hcreate hend.1
  have hcreated := And.intro (heffect.standing hend.1) (heffect.fenced hnot hend.2)
  have hstill : Unflushed h (faultySem fails (.filter (.create h.owned)) t).1 :=
    unflushed_of_ownCmd hcreate hnot hunflushed
  have hquiet := faultySem_flush_fails hfails hstill
  have hflushed := hcreated
  rw [← hquiet] at hflushed
  refine ⟨hcreated, hflushed, ?_⟩
  have hrest : Calls (OwnCmd new newRows (· ≠ h))
      (ensureJump .filter h.host h.owned >>= fun _ => after a) :=
    (calls_ensureJump new newRows h).bind fun _ => hafter a
  exact (keeps_fenced fails hrest hnot _ hflushed).1

/-- If it succeeds, a run gets to a state in which the chain is empty. -/
theorem emptied_throughout {P : IpTables × List IptCmd → Prop}
    (hfails : fails 0 (.filter (.flush h.owned)) = false)
    (hthrough : Throughout (faultySem fails) P
      (before >>= fun a => attach .filter h.host h.owned >>= fun _ => after a) s) :
    ∃ t, P t ∧ Standing old new oldRows newRows rest t.1 ∧ t.1.filter h.owned = some [] := by
  have hnot : ¬(fun h' => h' ≠ h) h := fun hne => hne rfl
  have hend : Standing old new oldRows newRows rest
      (Program.run (faultySem fails) before s).1.1 := (keeps_standing fails hbefore s hstanding).2
  have hunflushed := (keeps_unflushed fails hbefore hnot s hfresh).2
  obtain ⟨_, hthrough⟩ := throughout_bind.mp hthrough
  generalize (Program.run (faultySem fails) before s).1 = t at hend hunflushed hthrough
  have hcreate : OwnCmd new newRows (fun h' => h' ≠ h) (.filter (.create h.owned)) := ⟨h, rfl⟩
  have hflush : OwnCmd new newRows (fun _ => True) (.filter (.flush h.owned)) := ⟨h, trivial, rfl⟩
  have hcreated : Standing old new oldRows newRows rest
      (faultySem fails (.filter (.create h.owned)) t).1.1 :=
    (faultySem_effect hcreate hend).standing hend
  have hflushed : Standing old new oldRows newRows rest (faultySem fails
      (.filter (.flush h.owned)) (faultySem fails (.filter (.create h.owned)) t).1).1.1 :=
    (faultySem_effect hflush hcreated).standing hcreated
  exact ⟨_, hthrough.2.1, hflushed,
    faultySem_flush_empties hfails (unflushed_of_ownCmd hcreate hnot hunflushed) hcreated⟩

end Runs

section Main

variable {old new : Env} {oldRows newRows : List HostRule} {rest : Hook → List FwRule}
variable {fw : IpTables}

/-- No packet of the tunnel is accepted unless an old or a new rule allows it. -/
def DefaultDeny (old new : Env) (oldRows newRows : List HostRule) (fw : IpTables) : Prop :=
  ∀ p, p.input = old.iface → accepted fw p = true →
    Allowed old oldRows p ∨ Allowed new newRows p

theorem Deployed.standing (h : Deployed old oldRows rest fw) :
    Standing old new oldRows newRows rest fw := fun hook =>
  ⟨h.host hook, _, h.owned hook, fun _ hr => .inl hr⟩

theorem Deployed.fenced (h : Deployed old oldRows rest fw) (hook : Hook) :
    Fenced old oldRows hook fw := ⟨[], by rw [List.append_nil, h.owned hook]⟩

/-- The old and the new rules decide on their own. -/
theorem standing_flat {h : Hook} {rs : List FwRule}
    (hrs : ∀ r ∈ rs, r ∈ ownRules old oldRows h ∨ r ∈ ownRules new newRows h) : Flat rs := by
  intro r hr
  rcases hrs r hr with hold | hnew
  · exact ownRules_flat old oldRows h r hold
  · exact ownRules_flat new newRows h r hnew

/-- Where the old rules are at the head of a chain, or the rest of the host's
rules drop what is not allowed, the default deny holds. -/
theorem Standing.allowed (hstanding : Standing old new oldRows newRows rest fw)
    (hflat : ∀ h, Flat (rest h)) {p : Packet} (hp : p.input = old.iface)
    (hguard : Fenced old oldRows (hookOf p) fw ∨
      Guarded old.iface (fun q => Allowed old oldRows q ∨ Allowed new newRows q) rest (hookOf p))
    (hacc : accepted fw p = true) : Allowed old oldRows p ∨ Allowed new newRows p := by
  obtain ⟨⟨n, hhost⟩, rs, hrs, hown⟩ := hstanding (hookOf p)
  have hflatrs := standing_flat hown
  have hverdict := chainVerdict_host p hhost hrs hflatrs (hflat _)
  unfold accepted at hacc
  rw [hverdict, bne_iff_ne] at hacc
  rcases hguard with ⟨extra, hextra⟩ | hguard
  · have hsplit := Option.some.inj (hrs.symm.trans hextra)
    rw [hsplit, walk_append, Option.or_assoc] at hacc
    have hsome : (walk (fun m : PacketMatch => m.hits p) (fun _ => none)
        (ownRules old oldRows (hookOf p))).isSome = true :=
      walk_isSome (dropFromVpn_mem old oldRows (hookOf p)) (dropFromVpn_hits hp) rfl
    obtain ⟨v, hv⟩ := Option.isSome_iff_exists.mp hsome
    rw [hv, Option.some_or] at hacc
    cases v with
    | drop =>
        exact absurd rfl hacc
    | accept =>
        obtain ⟨r, hr, htarget, hhits⟩ := (ownRules_flat old oldRows _).of_walk hv
        exact .inl ⟨_, r, hr, htarget, hhits⟩
  · cases hv : walk (fun m : PacketMatch => m.hits p) (fun _ => none) rs with
    | none =>
        rw [hv, Option.none_or] at hacc
        by_contra hnot
        exact hacc (hguard p hp rfl hnot)
    | some v =>
        rw [hv, Option.some_or] at hacc
        obtain ⟨r, hr, htarget, hhits⟩ := hflatrs.of_walk hv
        cases v with
        | drop =>
            exact absurd rfl hacc
        | accept =>
            rcases hown r hr with hold | hnew
            · exact .inl ⟨_, r, hold, htarget, hhits⟩
            · exact .inr ⟨_, r, hnew, htarget, hhits⟩

/-- An empty chain leaves the decision to the rest of the host's rules. -/
theorem Standing.guarded (hstanding : Standing old new oldRows newRows rest fw)
    (hflat : ∀ h, Flat (rest h)) {h : Hook} (hempty : fw.filter h.owned = some [])
    (hdeny : DefaultDeny old new oldRows newRows fw) :
    Guarded old.iface (fun q => Allowed old oldRows q ∨ Allowed new newRows q) rest h := by
  rintro p hp rfl hnot
  by_contra hdrop
  obtain ⟨⟨n, hhost⟩, _⟩ := hstanding (hookOf p)
  refine hnot (hdeny p hp ?_)
  unfold accepted
  rw [chainVerdict_host p hhost hempty (fun r hr => by cases hr) (hflat _), bne_iff_ne]
  simpa [walk] using hdrop

/-- The function, split at the flush of `ZEROVPN-WG`. -/
theorem ensurePeerOnlyForwarding_forward (env : Env) (rows : List HostRule) (rounds : Nat) :
    ensurePeerOnlyForwarding env rows rounds = ((pure () : IptProgram Unit) >>= fun _ =>
      attach .filter Hook.forward.host Hook.forward.owned >>= fun _ => do
        let forwarded ← forwardTraffic env rows
        attach .filter Hook.input.host Hook.input.owned
        let pingGateway ← appendTo inputChain (pingRule env)
        let dropGateway ← appendTo inputChain (dropFromVpn env)
        clearMasquerade rounds
        pure (forwarded && pingGateway && dropGateway)) := rfl

/-- The function, split at the flush of `ZEROVPN-WG-IN`. -/
theorem ensurePeerOnlyForwarding_input (env : Env) (rows : List HostRule) (rounds : Nat) :
    ensurePeerOnlyForwarding env rows rounds = ((do
        attach .filter Hook.forward.host Hook.forward.owned
        forwardTraffic env rows : IptProgram Bool) >>= fun forwarded =>
      attach .filter Hook.input.host Hook.input.owned >>= fun _ => do
        let pingGateway ← appendTo inputChain (pingRule env)
        let dropGateway ← appendTo inputChain (dropFromVpn env)
        clearMasquerade rounds
        pure (forwarded && pingGateway && dropGateway)) := by
  rw [bind_assoc]
  rfl

/-- The commands of the function, split at the flush of a chain. -/
theorem ensurePeerOnlyForwarding_split (h : Hook) (env : Env) (rows : List HostRule)
    (rounds : Nat) :
    ∃ (α : Type) (before : IptProgram α) (after : α → IptProgram Bool),
      Program.Calls (OwnCmd env rows (· ≠ h)) before ∧
      (∀ a, Program.Calls (OwnCmd env rows (· ≠ h)) (after a)) ∧
      ensurePeerOnlyForwarding env rows rounds =
        (before >>= fun a => attach .filter h.host h.owned >>= fun _ => after a) := by
  cases h with
  | forward =>
      refine ⟨_, _, _, ?_, fun _ => ?_, ensurePeerOnlyForwarding_forward env rows rounds⟩
      · trivial
      · refine (calls_forwardTraffic env rows).bind fun _ => ?_
        refine (calls_attach env rows .input (by decide)).bind fun _ => ?_
        exact calls_inputTraffic env rows rounds _
  | input =>
      refine ⟨_, _, _, ?_, fun _ => ?_, ensurePeerOnlyForwarding_input env rows rounds⟩
      · exact (calls_attach env rows .forward (by decide)).bind fun _ =>
          calls_forwardTraffic env rows
      · exact calls_inputTraffic env rows rounds _

/-- The whole function keeps the shape of the table. -/
theorem calls_ensurePeerOnlyForwarding (env : Env) (rows : List HostRule) (rounds : Nat) :
    Program.Calls (OwnCmd env rows fun _ => True) (ensurePeerOnlyForwarding env rows rounds) := by
  refine (calls_attach env rows .forward trivial).bind fun _ => ?_
  refine (calls_forwardTraffic env rows).bind fun _ => ?_
  refine (calls_attach env rows .input trivial).bind fun _ => ?_
  exact calls_inputTraffic env rows rounds _

/--
While the rules are rebuilt over those of a completed run, no packet of the
tunnel is accepted that neither rule set allows, after any single command,
exactly when for each of the two chains the flush fails or the other rules of
the host drop what is not allowed.
-/
theorem default_deny_iff (fails : Nat → IptCmd → Bool) (rounds : Nat)
    (hdeployed : Deployed old oldRows rest fw) :
    Program.Throughout (faultySem fails) (fun s => DefaultDeny old new oldRows newRows s.1)
        (ensurePeerOnlyForwarding new newRows rounds) (fw, []) ↔
      ∀ h : Hook, fails 0 (.filter (.flush h.owned)) = true ∨
        Guarded old.iface (fun p => Allowed old oldRows p ∨ Allowed new newRows p) rest h := by
  have hstanding : Standing old new oldRows newRows rest fw := hdeployed.standing
  have hfresh : ∀ h, Unflushed h ((fw, []) : IpTables × List IptCmd) := fun _ => rfl
  constructor
  · intro hdeny h
    cases hfails : fails 0 (.filter (.flush h.owned)) with
    | true =>
        exact .inl rfl
    | false =>
        obtain ⟨α, before, after, hbefore, _, hsplit⟩ :=
          ensurePeerOnlyForwarding_split h new newRows rounds
        rw [hsplit] at hdeny
        obtain ⟨t, hP, hshape, hempty⟩ :=
          emptied_throughout hbefore hstanding (hfresh h) hfails hdeny
        exact .inr (hshape.guarded hdeployed.flat hempty hP)
  · intro hcond
    have hshape := (keeps_standing fails (calls_ensurePeerOnlyForwarding new newRows rounds)
      (fw, []) hstanding).1
    have hguard : ∀ h, Program.Throughout (faultySem fails) (fun t =>
        Fenced old oldRows h t.1 ∨
          Guarded old.iface (fun p => Allowed old oldRows p ∨ Allowed new newRows p) rest h)
        (ensurePeerOnlyForwarding new newRows rounds) (fw, []) := by
      intro h
      obtain ⟨α, before, after, hbefore, hafter, hsplit⟩ :=
        ensurePeerOnlyForwarding_split h new newRows rounds
      rcases hcond h with hfails | hguarded
      · rw [hsplit]
        have hfenced := fenced_throughout hbefore hstanding (hfresh h) hafter hfails
          (hdeployed.fenced h)
        exact hfenced.mono fun t ht => .inl ht.2
      · exact hshape.mono fun t _ => .inr hguarded
    refine ((hshape.and (hguard .forward)).and (hguard .input)).mono ?_
    rintro t ⟨⟨hst, hforward⟩, hinput⟩ p hp hacc
    refine hst.allowed hdeployed.flat hp ?_ hacc
    cases hookOf p with
    | forward =>
        exact hforward
    | input =>
        exact hinput

def sampleEnv : Env where
  iface := "wg0"
  vpnCidr := ⟨0x0A000000#32, 22, by decide⟩
  httpsTarget := .unset

/-- The tables of a gateway without host services. -/
def sampleGateway : IpTables where
  filter
    | "FORWARD" => some [jumpTo chain]
    | "INPUT" => some [jumpTo inputChain]
    | "ZEROVPN-WG" => some (forwardRules sampleEnv [])
    | "ZEROVPN-WG-IN" => some (inputRules sampleEnv)
    | _ => none
  nat _ := none

theorem sampleGateway_deployed : Deployed sampleEnv [] (fun _ => []) sampleGateway where
  host h := ⟨0, by cases h <;> rfl⟩
  owned h := by cases h <;> rfl
  flat _ _ hr := by cases hr

/-- Nothing is suspended when both flushes fail. -/
theorem default_deny_sample :
    Deployed sampleEnv [] (fun _ => []) sampleGateway ∧
      Program.Throughout (faultySem fun _ c => c == .filter (.flush chain) ||
          c == .filter (.flush inputChain))
        (fun s => DefaultDeny sampleEnv sampleEnv [] [] s.1)
        (ensurePeerOnlyForwarding sampleEnv [] 1) (sampleGateway, []) := by
  refine ⟨sampleGateway_deployed, (default_deny_iff _ 1 sampleGateway_deployed).mpr fun h => ?_⟩
  left
  cases h <;> decide

/-- A packet from the tunnel to the network behind the gateway. -/
def sampleProbe : Packet where
  input := "wg0"
  output := some "eth0"
  source := 0x0A000002#32
  destination := 0xC0A80114#32
  protocol := .tcp
  sport := 40000
  dport := 22
  ctstate := .new
  echoRequest := false

/-- Every command succeeds; the flush of `ZEROVPN-WG` lets the packet through. -/
theorem rebuild_suspends_deny :
    Deployed sampleEnv [] (fun _ => []) sampleGateway ∧
      ¬Program.Throughout (faultySem fun _ _ => false)
        (fun s => DefaultDeny sampleEnv sampleEnv [] [] s.1)
        (ensurePeerOnlyForwarding sampleEnv [] 1) (sampleGateway, []) := by
  refine ⟨sampleGateway_deployed, fun h => ?_⟩
  have hallowed := h.2.1 sampleProbe rfl (by decide)
  revert hallowed
  decide

end Main

end Forwarding
end Api
end ZeroVpn
