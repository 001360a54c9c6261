import Mathlib.Data.List.Induction
import Mathlib.Tactic.Tauto
import ZeroVpn.HostAgent.Wire
import ZeroVpn.Library.Text

/-!
# The firewall preflight

`parse_iptables_save` and `require_host_activation_ready` of
`crates/zerovpn-host-agent/src/firewall_preflight.rs`, with
`compile_host_forwarding` of `policy.rs`.

A published rule is a DNAT rule of Docker for the HTTPS port in the `nat` table.
The facts keep the bridge of the last published rule and the address of the last
published rule that forwards to port 443.  These may be two rules.
-/

namespace ZeroVpn

open Library Library.Text

namespace HostAgent
namespace Preflight

structure FirewallFacts where
  inputAccept : Bool
  forwardDrop : Bool
  dockerUserHook : Bool
  oldContainerUdp51820Publish : Bool
  https443Publish : Bool
  httpsTarget : Option (BitVec 32)
  httpsBridge : Option String
  deriving DecidableEq, Repr

/-- The table that a line belongs to. -/
inductive Section where
  | filter
  | nat
  | other
  deriving DecidableEq, Repr

/-- The variables of the loop of `parse_iptables_save`. -/
structure Scan where
  position : Section
  facts : FirewallFacts
  sawFilter : Bool
  sawNat : Bool
  deriving DecidableEq, Repr

section Rules

variable (tokens : List (List Char))

/-- A window of two words. -/
def hasPair (a b : String) : Bool :=
  (pairs tokens).any fun pair => pair == (a.toList, b.toList)

def isDnat : Bool := hasPair tokens "-j" "DNAT"

/-- A rule that publishes the HTTPS port. -/
def isHttps : Bool := isDnat tokens && hasPair tokens "-p" "tcp" && hasPair tokens "--dport" "443"

/-- The word after the first `--to-destination`. -/
def destinationText : Option (List Char) :=
  ((pairs tokens).find? fun pair => pair.1 == "--to-destination".toList).map Prod.snd

/-- `destination`: the address and the port. -/
def destination : Option (List Char × List Char) :=
  (destinationText tokens).bind (rsplitOnce ':')

def bridge : Option String :=
  ((triples tokens).find? fun triple => triple.1 == "!".toList && triple.2.1 == "-i".toList).map
    fun triple => String.ofList triple.2.2

/-- The rule forwards to port 443. -/
def toHttps : Bool := (destination tokens).any fun d => d.2 == "443".toList

/-- The address of the destination, if it is one. -/
def target : Option (BitVec 32) := (destination tokens).bind fun d => Wire.readDotted d.1

end Rules

/-- A line of the `nat` table. -/
def scanNat (facts : FirewallFacts) (line : List Char) : FirewallFacts :=
  if startsWith "-A DOCKER " line then
    let tokens := Text.words line
    let facts := { facts with
      oldContainerUdp51820Publish := facts.oldContainerUdp51820Publish ||
        (isDnat tokens && hasPair tokens "-p" "udp" && hasPair tokens "--dport" "51820")
      https443Publish := facts.https443Publish || isHttps tokens }
    if isHttps tokens then
      let facts := if toHttps tokens then { facts with httpsTarget := target tokens } else facts
      { facts with httpsBridge := bridge tokens }
    else facts
  else facts

/-- A line of the `filter` table. -/
def scanFilter (facts : FirewallFacts) (line : List Char) : FirewallFacts :=
  { facts with
    inputAccept := facts.inputAccept || startsWith ":INPUT ACCEPT " line
    forwardDrop := facts.forwardDrop || startsWith ":FORWARD DROP " line
    dockerUserHook := facts.dockerUserHook || line == "-A FORWARD -j DOCKER-USER".toList }

/-- The lines that end a table or start one. -/
inductive Mark where
  | filter
  | nat
  | ending
  deriving DecidableEq, Repr

/-- The `match` on the line. -/
def markOf (line : List Char) : Option Mark :=
  if line = "*filter".toList then some .filter
  else if line = "*nat".toList then some .nat
  else if line = "COMMIT".toList || startsWith "*" line then some .ending
  else none

/-- One round of the loop. -/
def scanLine (scan : Scan) (line : List Char) : Scan :=
  match markOf line with
  | some .filter => { scan with position := .filter, sawFilter := true }
  | some .nat => { scan with position := .nat, sawNat := true }
  | some .ending => { scan with position := .other }
  | none =>
      match scan.position with
      | .filter => { scan with facts := scanFilter scan.facts line }
      | .nat => { scan with facts := scanNat scan.facts line }
      | .other => scan

def start : Scan where
  position := .other
  facts :=
    { inputAccept := false
      forwardDrop := false
      dockerUserHook := false
      oldContainerUdp51820Publish := false
      https443Publish := false
      httpsTarget := none
      httpsBridge := none }
  sawFilter := false
  sawNat := false

/-- The lines that the loop goes over. -/
def trimmedLines (snapshot : String) : List (List Char) :=
  (lines snapshot.toList).map trim

def parseIptablesSave (snapshot : String) : Except String FirewallFacts := do
  let scan := (trimmedLines snapshot).foldl scanLine start
  ensure (scan.sawFilter && scan.sawNat) "incomplete firewall snapshot"
  pure scan.facts

def requireHostActivationReady (facts : FirewallFacts) : Except String Unit := do
  ensure facts.inputAccept "host INPUT is not ACCEPT; local access needs a reviewed rule"
  ensure facts.forwardDrop "host FORWARD policy changed; review forwarding isolation"
  ensure facts.dockerUserHook "Docker user forwarding hook missing"
  ensure (!facts.oldContainerUdp51820Publish) "old container still owns published UDP 51820"
  ensure facts.https443Publish "existing HTTPS publish missing; review Traefik path"
  ensure (facts.httpsTarget.isSome && facts.httpsBridge.isSome) "HTTPS Docker target unresolved"

/-- `BridgeRoute`: what `ip route get` says of the target. -/
structure BridgeRoute where
  interface : String
  sourceIp : BitVec 32
  deriving DecidableEq, Repr

/-- `compile_host_forwarding`. -/
def compileHostForwarding (facts : FirewallFacts) (route : BridgeRoute) :
    Except String HostForwardPlan := do
  requireHostActivationReady facts
  let bridge := facts.httpsBridge.getD ""
  let target := facts.httpsTarget.getD 0
  ensure (route.interface == bridge) "HTTPS route does not use Docker's published bridge"
  ensure (decide (route.interface.utf8ByteSize ≤ 15) && route.interface != "" &&
      route.interface.toList.all fun c => c.isAlphanum || c == '-' || c == '_' || c == '.')
    "invalid Docker bridge interface name"
  ensure (route.sourceIp != target && route.sourceIp != 0 &&
      route.sourceIp.toNat >>> 24 != 127 &&
      !decide (224 ≤ route.sourceIp.toNat >>> 24 ∧ route.sourceIp.toNat >>> 24 ≤ 239))
    "invalid HTTPS SNAT source"
  pure
    { peerToPeerCidr := "10.0.0.0/22"
      httpsTarget := target
      httpsBridge := bridge
      httpsSnatSource := route.sourceIp
      dropOtherWgForward := true }

section Position

/-- The table after a line. -/
def nextSection (position : Section) (line : List Char) : Section :=
  match markOf line with
  | some .filter => .filter
  | some .nat => .nat
  | some .ending => .other
  | none => position

/-- A line after these lines is in the `nat` table: this table was opened and nothing has
ended it. -/
def InNat (before : List (List Char)) : Prop :=
  ∃ a opening b, before = a ++ opening :: b ∧ markOf opening = some .nat ∧
    ∀ line ∈ b, markOf line = none

theorem inNat_append (before : List (List Char)) (line : List Char) :
    InNat (before ++ [line]) ↔
      markOf line = some .nat ∨ markOf line = none ∧ InNat before := by
  constructor
  · rintro ⟨a, opening, b, heq, hopening, hb⟩
    rcases List.eq_nil_or_concat b with rfl | ⟨b', l, rfl⟩
    · have hline := (List.cons.inj (List.append_inj' heq rfl).2).1
      rw [hline]
      exact .inl hopening
    · rw [List.concat_eq_append, ← List.cons_append, ← List.append_assoc] at heq
      have hline := (List.cons.inj (List.append_inj' heq rfl).2).1
      rw [hline]
      refine .inr ⟨hb l (by simp), a, opening, b', (List.append_inj' heq rfl).1, hopening, ?_⟩
      intro l' hl'
      exact hb l' (by simp [hl'])
  · rintro (hmark | ⟨hmark, a, opening, b, rfl, hopening, hb⟩)
    · exact ⟨before, line, [], rfl, hmark, by simp⟩
    · refine ⟨a, opening, b ++ [line], by simp, hopening, ?_⟩
      intro l hl
      rcases List.mem_append.mp hl with hl | hl
      · exact hb l hl
      · rw [List.mem_singleton.mp hl]
        exact hmark

theorem foldl_nextSection_eq_nat (before : List (List Char)) :
    before.foldl nextSection .other = .nat ↔ InNat before := by
  induction before using List.reverseRecOn with
  | nil =>
      simp [InNat]
  | append_singleton before line ih =>
      rw [List.foldl_append, List.foldl_cons, List.foldl_nil, inNat_append, ← ih]
      unfold nextSection
      cases markOf line with
      | none =>
          simp
      | some mark =>
          cases mark <;> simp

end Position

section Published

/-- A rule of Docker that publishes the HTTPS port. -/
def isPublished (line : List Char) : Bool := startsWith "-A DOCKER " line && isHttps (Text.words line)

/-- The published rules of the `nat` tables, as words. -/
def publishedFrom : Section → List (List Char) → List (List (List Char))
  | _, [] => []
  | position, line :: rest =>
      if position = .nat ∧ isPublished line = true then
        Text.words line :: publishedFrom (nextSection position line) rest
      else publishedFrom (nextSection position line) rest

def published (snapshot : String) : List (List (List Char)) :=
  publishedFrom .other (trimmedLines snapshot)

theorem mem_publishedFrom {position : Section} {rest : List (List Char)} {rule : List (List Char)} :
    rule ∈ publishedFrom position rest ↔
      ∃ before line after, rest = before ++ line :: after ∧
        before.foldl nextSection position = .nat ∧ isPublished line = true ∧
        rule = Text.words line := by
  induction rest generalizing position with
  | nil =>
      simp [publishedFrom]
  | cons line rest ih =>
      have hsplit : (∃ before l after, line :: rest = before ++ l :: after ∧
          before.foldl nextSection position = .nat ∧ isPublished l = true ∧ rule = Text.words l) ↔
            (position = .nat ∧ isPublished line = true ∧ rule = Text.words line) ∨
              rule ∈ publishedFrom (nextSection position line) rest := by
        rw [ih]
        constructor
        · rintro ⟨before, l, after, heq, hnat, hpub, hrule⟩
          cases before with
          | nil =>
              cases heq
              exact .inl ⟨hnat, hpub, hrule⟩
          | cons b before =>
              cases heq
              exact .inr ⟨before, l, after, rfl, hnat, hpub, hrule⟩
        · rintro (⟨hnat, hpub, hrule⟩ | ⟨before, l, after, rfl, hnat, hpub, hrule⟩)
          · exact ⟨[], line, rest, rfl, hnat, hpub, hrule⟩
          · exact ⟨line :: before, l, after, rfl, hnat, hpub, hrule⟩
      rw [hsplit, publishedFrom]
      split
      · rename_i h
        rw [List.mem_cons]
        tauto
      · rename_i h
        tauto

/-- The last value that a list gives. -/
theorem foldl_last {α β : Type} (f : α → β) (b : β) (as : List α) :
    as.foldl (fun _ a => f a) b = as.getLast?.elim b f := by
  induction as using List.reverseRecOn with
  | nil =>
      rfl
  | append_singleton as a _ =>
      simp

theorem markOf_of_published {line : List Char} (h : isPublished line = true) :
    markOf line = none := by
  simp only [isPublished, startsWith, Bool.and_eq_true] at h
  obtain ⟨rest, hrest⟩ := List.isPrefixOf_iff_prefix.mp h.1
  -- the line starts with a dash, the marks do not
  have hhead : line.head? = some '-' := by
    rw [← hrest]
    rfl
  have hother : ∀ s : List Char, s.head? ≠ some '-' → line ≠ s := by
    rintro s hs rfl
    exact hs hhead
  have hstar : startsWith "*" line = false := by
    unfold startsWith
    rw [← hrest]
    rfl
  unfold markOf
  rw [if_neg (hother _ (by decide)), if_neg (hother _ (by decide)), hstar,
    decide_eq_false (hother _ (by decide))]
  rfl

/-- A round of the loop: the position moves, and a published rule sets the bridge and, if
it forwards to port 443, the target. -/
theorem scanLine_spec (scan : Scan) (line : List Char) :
    (scanLine scan line).position = nextSection scan.position line ∧
    (scanLine scan line).facts.httpsBridge =
      (if scan.position = .nat ∧ isPublished line = true then bridge (Text.words line)
        else scan.facts.httpsBridge) ∧
    (scanLine scan line).facts.httpsTarget =
      (if (scan.position = .nat ∧ isPublished line = true) ∧ toHttps (Text.words line) = true then
        target (Text.words line) else scan.facts.httpsTarget) := by
  cases hmark : markOf line with
  | some mark =>
      have hpub : ¬ isPublished line = true := by
        intro h
        rw [markOf_of_published h] at hmark
        cases hmark
      rw [if_neg fun h => hpub h.2, if_neg fun h => hpub h.1.2]
      unfold scanLine nextSection
      rw [hmark]
      cases mark <;> exact ⟨rfl, rfl, rfl⟩
  | none =>
      unfold scanLine nextSection
      simp only [hmark]
      cases hposition : scan.position with
      | filter =>
          simp [scanFilter]
      | other =>
          simp [hposition]
      | nat =>
          by_cases hdocker : startsWith "-A DOCKER " line = true
          · by_cases hhttps : isHttps (Text.words line) = true
            · by_cases hto : toHttps (Text.words line) = true
              · simp [scanNat, isPublished, hdocker, hhttps, hto]
              · simp [scanNat, isPublished, hdocker, hhttps, hto]
            · simp [scanNat, isPublished, hdocker, hhttps]
          · simp [scanNat, isPublished, hdocker]

theorem scan_facts (rest : List (List Char)) (scan : Scan) :
    (rest.foldl scanLine scan).facts.httpsBridge =
      (publishedFrom scan.position rest).foldl (fun _ rule => bridge rule)
        scan.facts.httpsBridge ∧
    (rest.foldl scanLine scan).facts.httpsTarget =
      ((publishedFrom scan.position rest).filter toHttps).foldl (fun _ rule => target rule)
        scan.facts.httpsTarget := by
  induction rest generalizing scan with
  | nil =>
      exact ⟨rfl, rfl⟩
  | cons line rest ih =>
      obtain ⟨hposition, hbridge, htarget⟩ := scanLine_spec scan line
      have hrest := ih (scanLine scan line)
      rw [hposition, hbridge, htarget] at hrest
      rw [List.foldl_cons, publishedFrom]
      by_cases hpub : scan.position = .nat ∧ isPublished line = true
      · by_cases hto : toHttps (Text.words line) = true
        · rw [if_pos hpub, if_pos ⟨hpub, hto⟩] at hrest
          rw [if_pos hpub, List.foldl_cons, List.filter_cons_of_pos hto, List.foldl_cons]
          exact hrest
        · rw [if_pos hpub, if_neg fun h => hto h.2] at hrest
          rw [if_pos hpub, List.foldl_cons, List.filter_cons_of_neg hto]
          exact hrest
      · rw [if_neg hpub, if_neg fun h => hpub h.1] at hrest
        rw [if_neg hpub]
        exact hrest

end Published

section Pairing

/-- The rule does not match packets from the bridge: it has `! -i` with its name. -/
def Excludes (rule : List (List Char)) (name : String) : Prop :=
  ("!".toList, "-i".toList, name.toList) ∈ triples rule

/-- The rule has `--to-destination` with the word. -/
def ForwardsTo (rule : List (List Char)) (word : List Char) : Prop :=
  ("--to-destination".toList, word) ∈ pairs rule

/-- One published rule in the `nat` table of the snapshot has the bridge and the target. -/
def PublishedPair (snapshot : String) (name : String) (ip : BitVec 32) : Prop :=
  ∃ before line after, trimmedLines snapshot = before ++ line :: after ∧ InNat before ∧
    isPublished line = true ∧ Excludes (Text.words line) name ∧
    ForwardsTo (Text.words line) (dotted ip ++ ":443").toList

/-- Some published rule has the bridge of the last published rule and the destination of the
last one that forwards to port 443. -/
def Agreeing (rules : List (List (List Char))) : Prop :=
  ∃ rule ∈ rules,
    (∃ name ∈ rules.getLast?.bind bridge, Excludes rule name) ∧
    (∃ word ∈ (rules.filter toHttps).getLast?.bind destinationText, ForwardsTo rule word)

instance (rule : List (List Char)) (name : String) : Decidable (Excludes rule name) :=
  inferInstanceAs (Decidable (_ ∈ triples rule))

instance (rule : List (List Char)) (word : List Char) : Decidable (ForwardsTo rule word) :=
  inferInstanceAs (Decidable (_ ∈ pairs rule))

instance (rules : List (List (List Char))) : Decidable (Agreeing rules) :=
  decidable_of_iff (∃ rule ∈ rules,
    (∃ name ∈ (rules.getLast?.bind bridge).toList, Excludes rule name) ∧
    (∃ word ∈ ((rules.filter toHttps).getLast?.bind destinationText).toList,
      ForwardsTo rule word)) (by simp only [Option.mem_toList]; rfl)

theorem parse_facts {snapshot : String} {facts : FirewallFacts}
    (h : parseIptablesSave snapshot = .ok facts) :
    facts.httpsBridge = (published snapshot).getLast?.bind bridge ∧
    facts.httpsTarget = ((published snapshot).filter toHttps).getLast?.bind target := by
  unfold parseIptablesSave at h
  simp only [bind_eq_ok, pure_eq_ok] at h
  obtain ⟨_, _, rfl⟩ := h
  obtain ⟨hbridge, htarget⟩ := scan_facts (trimmedLines snapshot) start
  have hstart : start.position = .other := rfl
  rw [hbridge, htarget, foldl_last, foldl_last, hstart]
  constructor
  · unfold published
    cases (publishedFrom .other (trimmedLines snapshot)).getLast? <;> rfl
  · unfold published
    cases ((publishedFrom .other (trimmedLines snapshot)).filter toHttps).getLast? <;> rfl

/-- The destination of a rule that forwards to port 443. -/
theorem destinationText_of_target {rule : List (List Char)} {ip : BitVec 32}
    (hto : toHttps rule = true) (htarget : target rule = some ip) :
    destinationText rule = some (dotted ip ++ ":443").toList := by
  unfold toHttps at hto
  unfold target at htarget
  cases hdestination : destination rule with
  | none =>
      rw [hdestination] at hto
      cases hto
  | some d =>
      obtain ⟨address, port⟩ := d
      rw [hdestination] at hto htarget
      have hport : port = "443".toList := by simpa using hto
      have haddress : address = (dotted ip).toList := Wire.eq_dotted_of_readDotted htarget
      unfold destination at hdestination
      obtain ⟨word, hword, hsplit⟩ := Option.bind_eq_some_iff.mp hdestination
      have htext := eq_of_rsplitOnce hsplit
      rw [hport, haddress] at htext
      rw [hword, htext, String.toList_append]
      rfl

theorem mem_published {snapshot : String} {rule : List (List Char)} :
    rule ∈ published snapshot ↔
      ∃ before line after, trimmedLines snapshot = before ++ line :: after ∧ InNat before ∧
        isPublished line = true ∧ rule = Text.words line := by
  unfold published
  rw [mem_publishedFrom]
  simp only [foldl_nextSection_eq_nat]

theorem publishedPair_iff_agreeing {snapshot : String} {facts : FirewallFacts} {name : String}
    {ip : BitVec 32} (hparse : parseIptablesSave snapshot = .ok facts)
    (hname : facts.httpsBridge = some name) (hip : facts.httpsTarget = some ip) :
    PublishedPair snapshot name ip ↔ Agreeing (published snapshot) := by
  obtain ⟨hbridge, htarget⟩ := parse_facts hparse
  rw [hbridge] at hname
  rw [htarget] at hip
  have hword : ((published snapshot).filter toHttps).getLast?.bind destinationText =
      some (dotted ip ++ ":443").toList := by
    obtain ⟨rule, hrule, hrip⟩ := Option.bind_eq_some_iff.mp hip
    have hto := (List.mem_filter.mp (List.mem_of_getLast? hrule)).2
    rw [hrule]
    exact destinationText_of_target hto hrip
  unfold Agreeing
  rw [hname, hword]
  simp only [Option.mem_def, Option.some.injEq, exists_eq_left']
  constructor
  · rintro ⟨before, line, after, hlines, hnat, hpub, hexcludes, hforwards⟩
    exact ⟨Text.words line, mem_published.mpr ⟨before, line, after, hlines, hnat, hpub, rfl⟩,
      hexcludes, hforwards⟩
  · rintro ⟨rule, hrule, hexcludes, hforwards⟩
    obtain ⟨before, line, after, hlines, hnat, hpub, rfl⟩ := mem_published.mp hrule
    exact ⟨before, line, after, hlines, hnat, hpub, hexcludes, hforwards⟩

theorem ready_facts {facts : FirewallFacts} (h : requireHostActivationReady facts = .ok ()) :
    ∃ name ip, facts.httpsBridge = some name ∧ facts.httpsTarget = some ip := by
  unfold requireHostActivationReady at h
  simp only [bind_eq_ok, ensure_eq_ok, Bool.and_eq_true, Option.isSome_iff_exists] at h
  obtain ⟨_, _, _, _, _, _, _, _, _, _, ⟨ip, hip⟩, name, hname⟩ := h
  exact ⟨name, ip, hname, hip⟩

theorem compileHostForwarding_eq_ok {facts : FirewallFacts} {route : BridgeRoute}
    {plan : HostForwardPlan} (h : compileHostForwarding facts route = .ok plan) :
    facts.httpsBridge = some plan.httpsBridge ∧ facts.httpsTarget = some plan.httpsTarget := by
  unfold compileHostForwarding at h
  simp only [bind_eq_ok, pure_eq_ok] at h
  obtain ⟨_, hready, _, _, _, _, _, _, rfl⟩ := h
  obtain ⟨name, ip, hname, hip⟩ := ready_facts hready
  rw [hname, hip]
  exact ⟨rfl, rfl⟩

/-- The facts and every plan that is compiled from them name the bridge and the target of one
published rule exactly if the snapshot pairs them. -/
theorem facts_published_pair_iff {snapshot : String} {facts : FirewallFacts}
    (hparse : parseIptablesSave snapshot = .ok facts)
    (hready : requireHostActivationReady facts = .ok ()) :
    ((∃ name ip, facts.httpsBridge = some name ∧ facts.httpsTarget = some ip ∧
        PublishedPair snapshot name ip) ↔ Agreeing (published snapshot)) ∧
    ∀ route plan, compileHostForwarding facts route = .ok plan →
      (PublishedPair snapshot plan.httpsBridge plan.httpsTarget ↔ Agreeing (published snapshot)) := by
  refine ⟨?_, ?_⟩
  · obtain ⟨name, ip, hname, hip⟩ := ready_facts hready
    rw [← publishedPair_iff_agreeing hparse hname hip, hname, hip]
    constructor
    · rintro ⟨_, _, ⟨⟩, ⟨⟩, hpair⟩
      exact hpair
    · intro hpair
      exact ⟨name, ip, rfl, rfl, hpair⟩
  · intro route plan hplan
    obtain ⟨hname, hip⟩ := compileHostForwarding_eq_ok hplan
    exact publishedPair_iff_agreeing hparse hname hip

/-- The `filter` table of a sample. -/
def sampleFilter : String :=
  "*filter\n:INPUT ACCEPT [0:0]\n:FORWARD DROP [0:0]\n-A FORWARD -j DOCKER-USER\nCOMMIT\n*nat\n"

def webRule : String :=
  "-A DOCKER ! -i br-web -p tcp -m tcp --dport 443 -j DNAT --to-destination 172.18.0.2:443\n"

/-- Another address of the host, with a service on another port. -/
def otherRule : String :=
  "-A DOCKER -d 192.0.2.7/32 ! -i br-alt -p tcp -m tcp --dport 443 -j DNAT --to-destination 172.20.0.2:8443\n"

def sampleFacts (bridge : String) : FirewallFacts where
  inputAccept := true
  forwardDrop := true
  dockerUserHook := true
  oldContainerUdp51820Publish := false
  https443Publish := true
  httpsTarget := some 0xac120002
  httpsBridge := some bridge

theorem facts_published_pair_sample :
    parseIptablesSave (sampleFilter ++ otherRule ++ webRule) = .ok (sampleFacts "br-web") ∧
    requireHostActivationReady (sampleFacts "br-web") = .ok () ∧
    ((∃ name ip, (sampleFacts "br-web").httpsBridge = some name ∧
        (sampleFacts "br-web").httpsTarget = some ip ∧
        PublishedPair (sampleFilter ++ otherRule ++ webRule) name ip) ↔
      Agreeing (published (sampleFilter ++ otherRule ++ webRule))) ∧
    Agreeing (published (sampleFilter ++ otherRule ++ webRule)) := by
  have hsample :
      parseIptablesSave (sampleFilter ++ otherRule ++ webRule) = .ok (sampleFacts "br-web") ∧
      requireHostActivationReady (sampleFacts "br-web") = .ok () ∧
      Agreeing (published (sampleFilter ++ otherRule ++ webRule)) := by
    unfold parseIptablesSave published trimmedLines
    simp only [String.toList_append]
    rw [toList_of_eq (s := sampleFilter) rfl, toList_of_eq (s := otherRule) rfl,
      toList_of_eq (s := webRule) rfl]
    decide
  obtain ⟨hparse, hready, hagree⟩ := hsample
  exact ⟨hparse, hready, (facts_published_pair_iff hparse hready).1, hagree⟩

/-- A rule for another port that comes last gives its bridge to the target of the first. -/
theorem later_rule_mixes_the_pair :
    ∃ snapshot facts, parseIptablesSave snapshot = .ok facts ∧
      requireHostActivationReady facts = .ok () ∧
      ¬ ∃ name ip, facts.httpsBridge = some name ∧ facts.httpsTarget = some ip ∧
        PublishedPair snapshot name ip := by
  have hsample :
      parseIptablesSave (sampleFilter ++ webRule ++ otherRule) = .ok (sampleFacts "br-alt") ∧
      requireHostActivationReady (sampleFacts "br-alt") = .ok () ∧
      ¬ Agreeing (published (sampleFilter ++ webRule ++ otherRule)) := by
    unfold parseIptablesSave published trimmedLines
    simp only [String.toList_append]
    rw [toList_of_eq (s := sampleFilter) rfl, toList_of_eq (s := otherRule) rfl,
      toList_of_eq (s := webRule) rfl]
    decide
  obtain ⟨hparse, hready, hdisagree⟩ := hsample
  refine ⟨_, _, hparse, hready, ?_⟩
  rintro ⟨name, ip, hname, hip, hpair⟩
  exact hdisagree ((publishedPair_iff_agreeing hparse hname hip).mp hpair)

end Pairing

end Preflight
end HostAgent
end ZeroVpn
