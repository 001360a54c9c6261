import ZeroVpn.HostAgent.Socket
import ZeroVpn.HostAgent.Wire

/-!
# The texts on the wire and in the journal

`serde_json::to_vec` and `from_slice` on the wire types, `DesiredState::digest`,
and `StateStore::load` and `record_applied` of
`crates/zerovpn-host-agent/src/state.rs` on the text of `last-known-good.json`.

The parser is any `Json.Reader`, UUIDs have any text form that can be parsed
back, and SHA-256 is any function from texts to 32 bytes.
-/

namespace ZeroVpn

open Library Library.Json

namespace HostAgent
namespace Wire

section Fits

theorem DesiredPeer.fits (p : DesiredPeer) : Fits 1 p.encode := by
  simp only [DesiredPeer.encode, DesiredPeer.fields, fits_obj, List.forall_mem_cons]
  exact ⟨fits_ofString _, fits_ofText _ _, fits_ofBool _, fits_option fits_ofString _,
    fits_ofUInt16 _, List.forall_mem_nil _⟩

theorem DesiredState.fits (s : DesiredState) : Fits 3 s.encode := by
  simp only [DesiredState.encode, DesiredState.fields, fits_obj, List.forall_mem_cons]
  exact ⟨fits_ofUInt64 _, fits_ofString _, fits_list DesiredPeer.fits s.peers,
    List.forall_mem_nil _⟩

theorem AppliedState.fits (a : AppliedState) : Fits 4 a.encode := by
  simp only [AppliedState.encode, AppliedState.fields, fits_obj, List.forall_mem_cons]
  exact ⟨a.state.fits, fits_ofString _, List.forall_mem_nil _⟩

theorem Operation.fits (o : Operation) : Fits 4 o.encode := by
  cases o with
  | validateState state =>
      simp only [Operation.encode, Operation.fields, Operation.state?, Option.map_some,
        Option.toList_some, List.map_cons, List.map_nil, fits_obj, List.forall_mem_cons]
      exact ⟨fits_str _ _, state.fits, List.forall_mem_nil _⟩
  | applyState state =>
      simp only [Operation.encode, Operation.fields, Operation.state?, Option.map_some,
        Option.toList_some, List.map_cons, List.map_nil, fits_obj, List.forall_mem_cons]
      exact ⟨fits_str _ _, state.fits, List.forall_mem_nil _⟩
  | _ =>
      simp [Operation.encode, Operation.fields, Operation.state?, fits_obj, fits_str]

theorem Request.fits (r : Request) : Fits 5 r.encode := by
  simp only [Request.encode, Request.fields, fits_obj, List.forall_mem_cons]
  exact ⟨fits_ofUInt16 _, fits_ofString _, r.operation.fits, List.forall_mem_nil _⟩

theorem PeerStats.fits (p : PeerStats) : Fits 1 p.encode := by
  simp only [PeerStats.encode, PeerStats.fields, fits_obj, List.forall_mem_cons]
  exact ⟨fits_ofString _, fits_option fits_ofString _, fits_ofString _, fits_ofInt64 _,
    fits_ofUInt64 _, fits_ofUInt64 _, List.forall_mem_nil _⟩

theorem Response.fits (uuid : TextForm (BitVec 128)) (r : Response) :
    Fits 3 (r.encode uuid) := by
  simp only [Response.encode, Response.fields, fits_obj, List.forall_mem_cons]
  refine ⟨fits_str _ _, ?_⟩
  cases r with
  | health version interface generation count revision digest =>
      simp only [Response.variantFields, List.forall_mem_cons]
      exact ⟨fits_ofUInt16 _, fits_ofString _, fits_option (fits_ofText uuid) _, fits_ofUInt64 _,
        fits_option fits_ofUInt64 _, fits_option fits_ofString _, List.forall_mem_nil _⟩
  | stateStatus version revision digest =>
      simp only [Response.variantFields, List.forall_mem_cons]
      exact ⟨fits_ofUInt16 _, fits_option fits_ofUInt64 _, fits_option fits_ofString _,
        List.forall_mem_nil _⟩
  | peerStats version interface generation rx tx peers =>
      simp only [Response.variantFields, List.forall_mem_cons]
      exact ⟨fits_ofUInt16 _, fits_ofString _, fits_option (fits_ofText uuid) _,
        fits_option fits_ofUInt64 _, fits_option fits_ofUInt64 _, fits_list PeerStats.fits peers,
        List.forall_mem_nil _⟩
  | validated version revision digest =>
      simp only [Response.variantFields, List.forall_mem_cons]
      exact ⟨fits_ofUInt16 _, fits_ofUInt64 _, fits_ofString _, List.forall_mem_nil _⟩
  | applied version revision digest =>
      simp only [Response.variantFields, List.forall_mem_cons]
      exact ⟨fits_ofUInt16 _, fits_ofUInt64 _, fits_ofString _, List.forall_mem_nil _⟩
  | error version code =>
      simp only [Response.variantFields, List.forall_mem_cons]
      exact ⟨fits_ofUInt16 _, fits_ofString _, List.forall_mem_nil _⟩

end Fits

section Texts

variable (uuid : TextForm (BitVec 128)) (reader : Reader)

/-- `serde_json::from_slice`. -/
def fromText {α : Type} (decode : Json → Option α) (s : String) : Option α :=
  (reader.read s).bind decode

variable {reader}

theorem fromText_text {α : Type} {decode : Json → Option α} {a : α} {d : Nat} {j : Json}
    (hfits : Fits d j) (hd : d ≤ 127) (hdecode : decode j = some a) :
    fromText reader decode (text j) = some a := by
  unfold fromText
  rw [reader.read_text j (hfits.mono hd), Option.bind_some, hdecode]

/-- Any number of defaulted fields is removed from a request. -/
theorem request_less (r : Request) (ds : List DesiredState.Default) :
    fromText reader Request.decode (text (removeAll (ds.map Request.place) r.encode)) =
      some (ds.foldl (fun r d => r.reset d) r) :=
  fromText_text (r.fits.removeAll _) (by decide)
    (Request.decode_short (removeAll_related (fun d _ _ h => Request.short_remove d h) ds
      r.short_encode))

theorem appliedState_less (a : AppliedState) (ds : List DesiredState.Default) :
    fromText reader AppliedState.decode (text (removeAll (ds.map AppliedState.place) a.encode)) =
      some (ds.foldl (fun a d => a.reset d) a) :=
  fromText_text (a.fits.removeAll _) (by decide)
    (AppliedState.decode_short (removeAll_related (fun d _ _ h => AppliedState.short_remove d h) ds
      a.short_encode))

/-- The defaulted fields of a response are at its top. -/
def Response.place (d : Response.Default) : List Step × String := ([], d.label)

theorem Response.short_remove (d : Response.Default) {r : Response} {j : Json}
    (h : (Response.defaults uuid).Short r j) :
    (Response.defaults uuid).Short (d.reset r) (modifyAt (place d).1 (remove (place d).2) j) := by
  have hat : modifyAt (place d).1 (remove (place d).2) j = remove d.label j := by
    rw [place, modifyAt]
  rw [hat]
  exact (Response.defaults uuid).short_remove d h

theorem response_less (r : Response) (ds : List Response.Default) :
    fromText reader (Response.decode uuid)
        (text (removeAll (ds.map Response.place) (r.encode uuid))) =
      some (ds.foldl (fun r d => d.reset r) r) := by
  have hshort : (Response.defaults uuid).Short (ds.foldl (fun r d => d.reset r) r)
      (removeAll (ds.map Response.place) (r.encode uuid)) :=
    removeAll_related (fun d _ _ h => Response.short_remove uuid d h) ds
      ((Response.defaults uuid).short_obj r)
  exact fromText_text ((r.fits uuid).removeAll _) (by decide) (Response.decode_short hshort)

end Texts

section Digest

variable (sha256 : Sha256)

/-- `format!("{digest:x}")`. -/
def hexBytes (bytes : Vector UInt8 32) : String :=
  String.ofList (bytes.toList.flatMap fun b => [hexDigit (b.toNat / 16), hexDigit (b.toNat % 16)])

theorem hexBytes_injective : Function.Injective hexBytes := by
  intro a b h
  have hchars := congrArg String.toList h
  simp only [hexBytes, String.toList_ofList] at hchars
  have hbyte : ∀ x y : UInt8, hexDigit (x.toNat / 16) = hexDigit (y.toNat / 16) →
      hexDigit (x.toNat % 16) = hexDigit (y.toNat % 16) → x = y := by
    intro x y hhigh hlow
    have hx : x.toNat < 256 := x.toNat_lt
    have hy : y.toNat < 256 := y.toNat_lt
    have h1 := congrArg hexValue hhigh
    have h2 := congrArg hexValue hlow
    rw [hexValue_hexDigit ⟨x.toNat / 16, by omega⟩, hexValue_hexDigit ⟨y.toNat / 16, by omega⟩,
      Option.some.injEq] at h1
    rw [hexValue_hexDigit ⟨x.toNat % 16, by omega⟩, hexValue_hexDigit ⟨y.toNat % 16, by omega⟩,
      Option.some.injEq] at h2
    simp only at h1 h2
    exact UInt8.toNat_inj.mp (by omega)
  have hlists : ∀ xs ys : List UInt8,
      (xs.flatMap fun b => [hexDigit (b.toNat / 16), hexDigit (b.toNat % 16)]) =
        (ys.flatMap fun b => [hexDigit (b.toNat / 16), hexDigit (b.toNat % 16)]) → xs = ys := by
    intro xs
    induction xs with
    | nil =>
        intro ys hys
        cases ys with
        | nil =>
            rfl
        | cons y ys =>
            cases hys
    | cons x xs ih =>
        intro ys hys
        cases ys with
        | nil =>
            cases hys
        | cons y ys =>
            simp only [List.flatMap_cons, List.cons_append, List.nil_append,
              List.cons.injEq] at hys
            obtain ⟨hhigh, hlow, htail⟩ := hys
            rw [hbyte x y hhigh hlow, ih ys htail]
  exact Vector.toList_inj.mp (hlists _ _ hchars)

/-- `DesiredState::digest`. -/
def DesiredState.digest (s : DesiredState) : String := hexBytes (sha256 (text s.encode))

/-- Two states with one digest are equal, unless their texts are a collision of the
hash function. -/
theorem digest_injective {a b : DesiredState}
    (hfree : sha256 (text a.encode) = sha256 (text b.encode) → text a.encode = text b.encode)
    (h : a.digest sha256 = b.digest sha256) : a = b := by
  have htext := hfree (hexBytes_injective h)
  have hread := congrArg reader.read htext
  rw [reader.read_text _ (a.fits.mono (by decide)), reader.read_text _ (b.fits.mono (by decide)),
    Option.some.injEq] at hread
  exact DesiredState.codec.encode_injective hread

end Digest

section Journal

/-- The path `last-known-good.json`. -/
inductive JournalPath where
  | missing
  /-- Something else than a private regular file, or a file that cannot be read. -/
  | unreadable
  | file (content : String)
  deriving DecidableEq, Repr

/-- How far `record_applied` gets with writing the file. -/
inductive WriteOutcome where
  /-- Some step up to the rename fails. -/
  | unwritten
  /-- The rename is done, but the directory cannot be synced. -/
  | unsynced
  | written
  deriving DecidableEq, Repr

/-- The state with numbers for machine integers. -/
def DesiredPeer.model (p : DesiredPeer) : HostAgent.DesiredPeer where
  publicKey := p.publicKey
  vpnIp := p.vpnIp
  enabled := p.enabled
  presharedKey := p.presharedKey
  persistentKeepalive := p.persistentKeepalive.toNat

def DesiredState.model (s : DesiredState) : HostAgent.DesiredState where
  revision := s.revision.toNat
  serverPublicKey := s.serverPublicKey
  peers := s.peers.map DesiredPeer.model

def AppliedState.model (a : AppliedState) : HostAgent.AppliedState where
  state := a.state.model
  digest := a.digest

variable (reader : Reader) (sha256 : Sha256)

/-- `validate`. -/
def DesiredState.validate (s : DesiredState) (appliedRevision : UInt64) :
    Except String String := do
  ensure (decide (appliedRevision < s.revision)) "stale_revision"
  s.model.validateContent
  pure (s.digest sha256)

/-- `saturating_sub`. -/
def saturatingSub (a b : UInt64) : UInt64 := if b ≤ a then a - b else 0

theorem toNat_saturatingSub (a b : UInt64) : (saturatingSub a b).toNat = a.toNat - b.toNat := by
  unfold saturatingSub
  split
  · rename_i h
    exact UInt64.toNat_sub_of_le a b h
  · rename_i h
    have hlt : a.toNat < b.toNat := by
      rw [UInt64.le_iff_toNat_le] at h
      omega
    rw [UInt64.toNat_zero]
    omega

variable {digest : HostAgent.DesiredState → String}

/-- Validation on the wire types is validation of the model. -/
theorem DesiredState.validate_model (hdigest : ∀ s : DesiredState, digest s.model = s.digest sha256)
    (s : DesiredState) (n : UInt64) :
    s.validate sha256 n = s.model.validate digest n.toNat := by
  unfold DesiredState.validate HostAgent.DesiredState.validate
  rw [hdigest]
  rfl

theorem DesiredState.validate_eq_ok {s : DesiredState} {n : UInt64} {d : String} :
    s.validate sha256 n = .ok d ↔
      n < s.revision ∧ s.model.validateContent = .ok () ∧ d = s.digest sha256 := by
  unfold DesiredState.validate
  simp only [bind_eq_ok, ensure_eq_ok, decide_eq_true_eq, pure_eq_ok]
  constructor
  · rintro ⟨_, hrev, _, hcontent, hdigest⟩
    exact ⟨hrev, hcontent, hdigest.symm⟩
  · rintro ⟨hrev, hcontent, hdigest⟩
    exact ⟨(), hrev, (), hcontent, hdigest.symm⟩

namespace JournalPath

/-- `StateStore::load`. -/
def load : JournalPath → Except String (Option AppliedState)
  | missing => .ok none
  | unreadable => .error "last-known-good"
  | file content =>
      match fromText reader AppliedState.decode content with
      | none => .error "last-known-good"
      | some applied => do
          let digest ← applied.state.validate sha256 (saturatingSub applied.state.revision 1)
          ensure (digest == applied.digest) "last-known-good digest mismatch"
          pure (some applied)

/-- `StateStore::record_applied`. -/
def recordApplied (path : JournalPath) (outcome : WriteOutcome) (candidate : DesiredState) :
    Except String AppliedState × JournalPath :=
  let admitted : Except String AppliedState := do
    let previous ← path.load reader sha256
    let priorRevision := previous.elim 0 fun a => a.state.revision
    let digest ← candidate.validate sha256 priorRevision
    pure { state := candidate, digest }
  match admitted with
  | .error e => (.error e, path)
  | .ok applied =>
      match outcome with
      | .unwritten => (.error "last-known-good not written", path)
      | .unsynced => (.error "state directory not synced", .file (text applied.encode))
      | .written => (.ok applied, .file (text applied.encode))

/-- The file of the model. -/
def model : JournalPath → JournalFile
  | missing => .missing
  | unreadable => .unreadable
  | file content =>
      match fromText reader AppliedState.decode content with
      | none => .unreadable
      | some applied => .holds applied.model

/-- Loading the text is loading the file of the model. -/
theorem load_model (hdigest : ∀ s : DesiredState, digest s.model = s.digest sha256)
    (path : JournalPath) :
    (path.load reader sha256).map (Option.map AppliedState.model) =
      (path.model reader).load digest := by
  cases path with
  | missing =>
      rfl
  | unreadable =>
      rfl
  | file content =>
      simp only [load, model]
      cases fromText reader AppliedState.decode content with
      | none =>
          rfl
      | some applied =>
          simp only [JournalFile.load, DesiredState.validate_model sha256 hdigest,
            toNat_saturatingSub]
          have hprior : applied.state.revision.toNat - (1 : UInt64).toNat =
              applied.model.state.revision - 1 := rfl
          rw [hprior]
          simp only [AppliedState.model]
          cases applied.state.model.validate digest (applied.state.model.revision - 1) with
          | error e =>
              rfl
          | ok d =>
              simp only [bind, Except.bind, ensure]
              split <;> rfl

/-- A valid state that was written with its digest is loaded. -/
theorem load_written {s : DesiredState} {n : UInt64} (hrev : n < s.revision)
    (hcontent : s.model.validateContent = .ok ()) :
    (file (text (AppliedState.mk s (s.digest sha256)).encode)).load reader sha256 =
      .ok (some ⟨s, s.digest sha256⟩) := by
  have hread : fromText reader AppliedState.decode
      (text (AppliedState.mk s (s.digest sha256)).encode) = some ⟨s, s.digest sha256⟩ :=
    appliedState_less ⟨s, s.digest sha256⟩ []
  have hless : saturatingSub s.revision 1 < s.revision := by
    rw [UInt64.lt_iff_toNat_lt] at hrev ⊢
    rw [toNat_saturatingSub, UInt64.toNat_one]
    omega
  have hvalidate : s.validate sha256 (saturatingSub s.revision 1) = .ok (s.digest sha256) :=
    (DesiredState.validate_eq_ok sha256).mpr ⟨hless, hcontent, rfl⟩
  simp only [load, hread, hvalidate, bind, Except.bind, ensure, BEq.rfl, if_true]
  rfl

theorem recordApplied_eq_ok {path : JournalPath} {outcome : WriteOutcome}
    {candidate : DesiredState} {applied : AppliedState}
    (h : (path.recordApplied reader sha256 outcome candidate).1 = .ok applied) :
    applied = ⟨candidate, candidate.digest sha256⟩ ∧
      candidate.model.validateContent = .ok () ∧ (∃ prior, prior < candidate.revision) ∧
      (path.recordApplied reader sha256 outcome candidate).2 = .file (text applied.encode) := by
  unfold recordApplied at h ⊢
  simp only at h ⊢
  split at h
  · cases h
  · rename_i a hadmitted
    simp only [bind_eq_ok, pure_eq_ok, DesiredState.validate_eq_ok] at hadmitted
    obtain ⟨previous, _, digest, ⟨hprior, hcontent, rfl⟩, rfl⟩ := hadmitted
    cases outcome with
    | unwritten =>
        cases h
    | unsynced =>
        cases h
    | written =>
        cases h
        exact ⟨rfl, hcontent, ⟨_, hprior⟩, rfl⟩

end JournalPath

end Journal

/-- Everything that goes over the socket or into the journal is read back as it was
written.  A defaulted field may be left out and is then read as its default.  What
`record_applied` accepts is loaded with its own digest, and digests tell states apart
as far as the hash function does. -/
theorem wire_and_journal_round_trip (uuid : TextForm (BitVec 128)) (reader : Reader)
    (sha256 : Sha256) :
    ((∀ r : Request, fromText reader Request.decode (text r.encode) = some r) ∧
      (∀ r : Response, fromText reader (Response.decode uuid) (text (r.encode uuid)) = some r) ∧
      (∀ a : AppliedState, fromText reader AppliedState.decode (text a.encode) = some a)) ∧
    ((∀ (r : Request) (ds : List DesiredState.Default),
        fromText reader Request.decode (text (removeAll (ds.map Request.place) r.encode)) =
          some (ds.foldl (fun r d => r.reset d) r)) ∧
      (∀ (r : Response) (ds : List Response.Default),
        fromText reader (Response.decode uuid)
            (text (removeAll (ds.map Response.place) (r.encode uuid))) =
          some (ds.foldl (fun r d => d.reset r) r)) ∧
      (∀ (a : AppliedState) (ds : List DesiredState.Default),
        fromText reader AppliedState.decode
            (text (removeAll (ds.map AppliedState.place) a.encode)) =
          some (ds.foldl (fun a d => a.reset d) a))) ∧
    (∀ (path : JournalPath) (outcome : WriteOutcome) (candidate : DesiredState)
        (applied : AppliedState),
      (path.recordApplied reader sha256 outcome candidate).1 = .ok applied →
        applied = ⟨candidate, candidate.digest sha256⟩ ∧
        (path.recordApplied reader sha256 outcome candidate).2.load reader sha256 =
          .ok (some ⟨candidate, candidate.digest sha256⟩)) ∧
    (∀ a b : DesiredState, a.digest sha256 = b.digest sha256 →
      (sha256 (text a.encode) = sha256 (text b.encode) → text a.encode = text b.encode) →
        a = b) := by
  refine ⟨⟨?_, ?_, ?_⟩, ⟨request_less, response_less uuid, appliedState_less⟩, ?_, ?_⟩
  · intro r
    exact request_less r []
  · intro r
    exact response_less uuid r []
  · intro a
    exact appliedState_less a []
  · intro path outcome candidate applied h
    obtain ⟨rfl, hcontent, ⟨prior, hprior⟩, hpath⟩ :=
      JournalPath.recordApplied_eq_ok reader sha256 h
    refine ⟨rfl, ?_⟩
    rw [hpath]
    exact JournalPath.load_written reader sha256 hprior hcontent
  · intro a b h hfree
    exact digest_injective sha256 hfree h

/-- The health response of an older agent. -/
example (uuid : TextForm (BitVec 128)) : fromText Json.reader (Response.decode uuid)
    "\x7b\"type\":\"health\",\"version\":2,\"interface\":\"wg0\",\"interface_generation\":null,\"peer_count\":0\x7d" =
      some (.health 2 "wg0" none 0 none none) := rfl

end Wire
end HostAgent
end ZeroVpn
