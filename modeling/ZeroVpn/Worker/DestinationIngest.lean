import ZeroVpn.Api.AddressRequests

/-!
# Whose flow it was

`crates/zerovpn-worker/src/destination_ingest.rs`: a flow that was captured is
looked up by its source address among the devices and then stored.

Both statements take the address as a text, which is how `sqlx` binds a `&str`,
and neither casts it, while the columns are of type `INET`.  The comment on the
filters in `session_events.rs` says what the database makes of that: the prepare
step fails with `operator does not exist: inet = text`.  The failures are only
logged, so no flow is ever stored.

A run interleaves the calls of any requests with flows.
-/

namespace ZeroVpn

open Library

namespace Worker

open Db (Uuid Device)
open Wg (IpAddr)
open Api (Sys Op addressSystem ApiCmd ApiError idle serveAll sampleDb sampleConfig sampleKey)

/-- A flow as it is reported; an address stands for its text. -/
structure FlowEvent where
  srcIp : IpAddr
  srcPort : Option Int
  dstIp : IpAddr
  dstPort : Option Int
  proto : Option String
  bytesIn : Int
  bytesOut : Int
  startedAt : Option Int
  deriving DecidableEq, Repr

/-- A row of `destination_ips`. -/
structure NewDestinationIp where
  deviceId : Option Uuid
  userId : Option Uuid
  srcIp : IpAddr
  srcPort : Option Int
  dstIp : IpAddr
  dstPort : Option Int
  proto : Option String
  bytesIn : Int
  bytesOut : Int
  startedAt : Int
  deriving DecidableEq, Repr

section Statements

/-- The types of the columns and of the bound parameters. -/
inductive SqlType where
  | uuid
  | inet
  | int
  | bigint
  | double
  | text
  | varchar
  | timestamptz
  deriving DecidableEq, Repr

/-- There is an operator `column = $n` for a parameter of this type. -/
def SqlType.comparesWith (column param : SqlType) : Bool := column == param

/-- A parameter of this type may be stored in the column; a text may be stored as a
`VARCHAR`, but not as an `INET`. -/
def SqlType.stores (column param : SqlType) : Bool :=
  column == param || (column == .varchar && param == .text)

/-- Why a statement cannot be prepared. -/
inductive PrepareError where
  /-- `operator does not exist` -/
  | undefinedOperator (column param : SqlType)
  /-- A column is of one type and its expression of another. -/
  | datatypeMismatch
  deriving DecidableEq, Repr

/-- The rows with an address. -/
def rowsWith (ip : IpAddr) (db : Db) : List Device :=
  db.devices.filter fun d => d.allocatedIp == ip

/-- The row that `LIMIT 1` leaves; without an order it may be any of them. -/
def pickedRow (pick : Nat) (ip : IpAddr) (db : Db) : Option Device :=
  (rowsWith ip db)[pick % (rowsWith ip db).length]?

/-- `WHERE allocated_ip = $1` with a `&str`. -/
def resolveDeviceByIp (pick : Nat) (ip : IpAddr) (db : Db) :
    Except PrepareError (Option (Uuid × Uuid)) :=
  if SqlType.comparesWith .inet .text then
    .ok ((pickedRow pick ip db).map fun d => (d.id, d.userId))
  else
    .error (.undefinedOperator .inet .text)

/-- The columns of `destination_ips::insert`, each with the type of its parameter. -/
def insertTypes : List (SqlType × SqlType) :=
  [(.uuid, .uuid), (.uuid, .uuid), (.inet, .text), (.int, .int), (.inet, .text), (.int, .int),
    (.text, .text), (.bigint, .bigint), (.bigint, .bigint), (.timestamptz, .timestamptz),
    (.double, .double), (.double, .double), (.varchar, .text), (.varchar, .text),
    (.varchar, .text)]

/-- `destination_ips::insert` -/
def insert (row : NewDestinationIp) (rows : List NewDestinationIp) :
    Except PrepareError (List NewDestinationIp) :=
  if insertTypes.all fun x => x.1.stores x.2 then .ok (rows ++ [row])
  else .error .datatypeMismatch

end Statements

/-- The row of a flow. -/
def FlowEvent.row (ev : FlowEvent) (now : Int) (owner : Option (Uuid × Uuid)) :
    NewDestinationIp where
  deviceId := owner.map Prod.fst
  userId := owner.map Prod.snd
  srcIp := ev.srcIp
  srcPort := ev.srcPort
  dstIp := ev.dstIp
  dstPort := ev.dstPort
  proto := ev.proto
  bytesIn := ev.bytesIn
  bytesOut := ev.bytesOut
  startedAt := ev.startedAt.getD now

/-- `handle_conn`, for one event; failures are only logged. -/
def handleEvent (now : Int) (pick : Nat) (ev : FlowEvent) (db : Db)
    (rows : List NewDestinationIp) : List NewDestinationIp :=
  let owner :=
    match resolveDeviceByIp pick ev.srcIp db with
    | .ok (some owner) => some owner
    | _ => none
  match insert (ev.row now owner) rows with
  | .ok rows' => rows'
  | .error _ => rows

/-- The requests of the API in flight, and the flows stored so far. -/
structure IngestState where
  api : Pool Sys Op ApiCmd ApiCmd.Reply (Except ApiError Unit)
  destinations : List NewDestinationIp

inductive IngestEvent where
  | api (e : PoolEvent Op (Api.Bootstrap.Config × List Bool))
  | flow (ev : FlowEvent) (now : Int) (pick : Nat)

/-- A flow was captured. -/
def IngestEvent.isFlow : IngestEvent → Bool
  | .api _ => false
  | .flow .. => true

def IngestState.db (s : IngestState) : Db := s.api.shared.db

def ingestStep (s : IngestState) : IngestEvent → IngestState
  | .api e => { s with api := poolStep addressSystem s.api e }
  | .flow ev now pick =>
      { s with destinations := handleEvent now pick ev s.db s.destinations }

/-- A flow is stored with the live device of its source address, and without one if
there is none. -/
def Attributed (s : IngestState) : IngestEvent → Prop
  | .api _ => True
  | .flow ev now pick =>
      let after := (ingestStep s (.flow ev now pick)).destinations
      (∀ d ∈ s.db.devices, d.live = true → d.allocatedIp = ev.srcIp →
        after = s.destinations ++ [ev.row now (some (d.id, d.userId))]) ∧
      ((∀ d ∈ s.db.devices, d.live = true → d.allocatedIp ≠ ev.srcIp) →
        after = s.destinations ++ [ev.row now none])

instance (s : IngestState) (e : IngestEvent) : Decidable (Attributed s e) :=
  match e with
  | .api _ => .isTrue trivial
  | .flow .. => inferInstanceAs (Decidable (_ ∧ _))

/-- The lookup cannot be prepared: every flow is taken for one without a device. -/
theorem resolveDeviceByIp_eq (pick : Nat) (ip : IpAddr) (db : Db) :
    resolveDeviceByIp pick ip db = .error (.undefinedOperator .inet .text) := rfl

/-- Nor can the insert, which has the same texts. -/
theorem insert_eq (row : NewDestinationIp) (rows : List NewDestinationIp) :
    insert row rows = .error .datatypeMismatch := rfl

/-- A flow leaves nothing behind. -/
theorem handleEvent_eq (now : Int) (pick : Nat) (ev : FlowEvent) (db : Db)
    (rows : List NewDestinationIp) : handleEvent now pick ev db rows = rows := by
  simp only [handleEvent, resolveDeviceByIp_eq, insert_eq]

/-- One row more is wanted in any case. -/
theorem not_attributed (s : IngestState) (ev : FlowEvent) (now : Int) (pick : Nat) :
    ¬Attributed s (.flow ev now pick) := by
  rintro ⟨hlive, hnone⟩
  simp only [ingestStep, handleEvent_eq, List.self_eq_append_right, List.cons_ne_nil] at hlive hnone
  exact hnone fun d hd hdlive hip => hlive d hd hdlive hip

/--
In every interleaving of requests and flows, no flow is stored with the live device
of its source address, nor without one if there is none.
-/
theorem flows_never_attributed (s : IngestState) (es : List IngestEvent) :
    Along ingestStep (fun s e => e.isFlow = true → ¬Attributed s e) s es := by
  induction es generalizing s with
  | nil =>
      trivial
  | cons e es ih =>
      refine ⟨fun hflow => ?_, ih (ingestStep s e)⟩
      cases e with
      | api e =>
          cases hflow
      | flow ev now pick =>
          exact not_attributed s ev now pick

/-- A server that has just been started, with its two users. -/
def sampleIngest : IngestState := ⟨idle sampleDb, []⟩

/-- A flow from the first address that is given out. -/
def sampleFlow : FlowEvent where
  srcIp := .v4 0x0A000002#32
  srcPort := some 5678
  dstIp := .v4 0x01010101#32
  dstPort := some 443
  proto := some "tcp"
  bytesIn := 10
  bytesOut := 20
  startedAt := none

/-- The flow of a device that was just created is not stored. -/
theorem flow_of_live_device_is_lost :
    ¬Along ingestStep Attributed sampleIngest
      ((PoolEvent.restart (sampleConfig, []) ::
          serveAll 0 [Op.create 2 ⟨"laptop", none, none⟩ ⟨20, "private", sampleKey⟩]).map
          IngestEvent.api ++
        [IngestEvent.flow sampleFlow 0 0]) := by
  decide

end Worker
end ZeroVpn
