import ZeroVpn.Api.Connections

/-!
# Whom a list of connections shows

The list of a user hides the identity of a device behind an address that is not
one of the user's own.  An address is unique among the live devices of one server
only, and the index of devices goes by the address alone: where a device of
another user has the same address on another server, the index may hold that
device, and the address is the user's own.

`connection_list_noninterference_iff` says when nothing is shown: the index takes
the last device in the order of the owners' ids, so that a user whose id no other
one exceeds is always found first.
-/

namespace ZeroVpn

open Library Library.Text

namespace Api
namespace Connections

open Db (Uuid Device)
open Wg (IpAddr)

section Order

variable {α : Type} {r : α → α → Prop} [DecidableRel r] {p : α → Bool} {a x : α} {l : List α}

theorem filter_orderedInsert (htrans : ∀ a b c, r a b → r b c → r a c) (hl : l.Pairwise r) :
    (l.orderedInsert r a).filter p =
      if p a then (l.filter p).orderedInsert r a else l.filter p := by
  induction l with
  | nil =>
      cases hp : p a with
      | true =>
          simp [hp]
      | false =>
          simp [hp]
  | cons b l ih =>
      rw [List.pairwise_cons] at hl
      rw [List.orderedInsert_cons]
      by_cases hab : r a b
      · rw [if_pos hab]
        cases hp : p a with
        | false =>
            rw [List.filter_cons_of_neg (by simp [hp]), if_neg Bool.false_ne_true]
        | true =>
            rw [List.filter_cons_of_pos hp, if_pos rfl]
            -- the inserted element stays in front of whatever is left of the list
            cases hrest : (b :: l).filter p with
            | nil =>
                rfl
            | cons y rest =>
                have hy : y ∈ b :: l := (List.mem_filter.mp (hrest ▸ List.mem_cons_self)).1
                have hay : r a y := by
                  rcases List.mem_cons.mp hy with rfl | hmem
                  · exact hab
                  · exact htrans a b y hab (hl.1 y hmem)
                rw [List.orderedInsert_cons, if_pos hay]
      · rw [if_neg hab]
        cases hpb : p b with
        | true =>
            rw [List.filter_cons_of_pos hpb, List.filter_cons_of_pos hpb, ih hl.2]
            split
            · rw [List.orderedInsert_cons, if_neg hab]
            · rfl
        | false =>
            rw [List.filter_cons_of_neg (by simp [hpb]), List.filter_cons_of_neg (by simp [hpb]),
              ih hl.2]

/-- Sorting and selecting commute. -/
theorem filter_insertionSort [Std.Total r] [IsTrans α r] (l : List α) :
    (l.insertionSort r).filter p = (l.filter p).insertionSort r := by
  induction l with
  | nil =>
      rfl
  | cons a l ih =>
      rw [List.insertionSort_cons,
        filter_orderedInsert (fun a b c => IsTrans.trans a b c) (l.pairwise_insertionSort r), ih]
      cases hp : p a with
      | true =>
          rw [if_pos rfl, List.filter_cons_of_pos hp, List.insertionSort_cons]
      | false =>
          rw [if_neg Bool.false_ne_true, List.filter_cons_of_neg (by simp [hp])]

theorem getLast?_filter (hlast : l.getLast? = some x) (hx : p x = true) :
    (l.filter p).getLast? = some x := by
  obtain ⟨front, rfl⟩ := List.getLast?_eq_some_iff.mp hlast
  rw [List.filter_append, List.filter_cons_of_pos hx, List.filter_nil, List.getLast?_append]
  rfl

end Order

section Rows

/-- The rows of the table. -/
def tableRows (text : List Char) : List FlowRow := ((lines text).foldl addRow ([], [])).2

/-- The rows of the source that serves the request. -/
def servedRows (r : Reads) : List FlowRow :=
  let fromBinary := (r.conntrack.map tableRows).getD []
  if !fromBinary.isEmpty then fromBinary
  else
    let fromProcfs := (r.procfs.map tableRows).getD []
    if !fromProcfs.isEmpty then fromProcfs
    else
      ((r.destinations.getD []).filter fun x => x.1 != x.2.2.1).map
        fun (src, sport, dst, dport, proto) => ⟨src, sport, dst, dport, proto.getD "tcp".toList⟩

variable {mkEndpoint : List Char → Endpoint}

theorem foldl_addLine_rows (ls : List (List Char)) (seen : List (List Char))
    (rows : List FlowRow) :
    ls.foldl (addLine mkEndpoint) (seen, rows.map (FlowRow.flow mkEndpoint)) =
      ((ls.foldl addRow (seen, rows)).1,
        (ls.foldl addRow (seen, rows)).2.map (FlowRow.flow mkEndpoint)) := by
  induction ls generalizing seen rows with
  | nil =>
      rfl
  | cons l ls ih =>
      rw [List.foldl_cons, List.foldl_cons]
      cases hl : parseLine l with
      | none =>
          simp only [addLine, addRow, hl]
          exact ih seen rows
      | some r =>
          simp only [addLine, addRow, hl]
          split
          · exact ih seen rows
          · have hmap : rows.map (FlowRow.flow mkEndpoint) ++ [r.flow mkEndpoint] =
                (rows ++ [r]).map (FlowRow.flow mkEndpoint) := by
              simp
            rw [hmap]
            exact ih _ _

theorem parseConntrack_rows (text : List Char) :
    parseConntrack text mkEndpoint = (tableRows text).map (FlowRow.flow mkEndpoint) :=
  congrArg Prod.snd (foldl_addLine_rows (lines text) [] [])

/-- Which rows are served does not depend on the devices. -/
theorem collectFlows_rows (display : IpAddr → List Char) (createdAt : String → Int) (r : Reads)
    (db : Db) :
    collectFlows display createdAt r db =
      (servedRows r).map (FlowRow.flow fun ip => endpointFor ip
        (buildIpIndex display (if r.allOk then listAllActive createdAt db else []))) := by
  have hmap : ∀ (text : Option (List Char)) (mk : List Char → Endpoint),
      (text.map fun t => parseConntrack t mk).getD [] =
        ((text.map tableRows).getD []).map (FlowRow.flow mk) := by
    intro text mk
    cases text with
    | none =>
        rfl
    | some t =>
        exact parseConntrack_rows t
  unfold collectFlows servedRows
  simp only [hmap, List.isEmpty_map]
  split
  · rfl
  · split
    · rfl
    · unfold readDestinationIpsFallback
      cases r.destinations with
      | none =>
          rfl
      | some rows =>
          rw [Option.getD_some, List.map_map]
          rfl

end Rows

section Holders

variable {display : IpAddr → List Char} {createdAt : String → Int} {db : Db} {ip : List Char}
  {d : Device}

/-- The order of `list_all_active`. -/
def OwnerOrder (createdAt : String → Int) (d e : Device) : Prop :=
  d.userId < e.userId ∨ (d.userId = e.userId ∧ createdAt d.publicKey ≤ createdAt e.publicKey)

instance (createdAt : String → Int) : DecidableRel (OwnerOrder createdAt) := fun d e =>
  inferInstanceAs (Decidable (d.userId < e.userId ∨ _))

instance (createdAt : String → Int) : Std.Total (OwnerOrder createdAt) where
  total d e := by
    rcases Nat.lt_trichotomy d.userId.toNat e.userId.toNat with hlt | heq | hgt
    · exact Or.inl (Or.inl hlt)
    · have hid := BitVec.eq_of_toNat_eq heq
      rcases Int.le_total (createdAt d.publicKey) (createdAt e.publicKey) with hle | hle
      · exact Or.inl (Or.inr ⟨hid, hle⟩)
      · exact Or.inr (Or.inr ⟨hid.symm, hle⟩)
    · exact Or.inr (Or.inl hgt)

instance (createdAt : String → Int) : IsTrans Device (OwnerOrder createdAt) where
  trans d e f := by
    rintro (hde | ⟨hde, hle⟩) (hef | ⟨hef, hle'⟩)
    · exact Or.inl (BitVec.lt_trans hde hef)
    · exact Or.inl (hef ▸ hde)
    · exact Or.inl (hde ▸ hef)
    · exact Or.inr ⟨hde.trans hef, Int.le_trans hle hle'⟩

theorem OwnerOrder.userId_le {e : Device} (h : OwnerOrder createdAt d e) :
    d.userId ≤ e.userId := by
  rcases h with hlt | ⟨heq, _⟩
  · exact BitVec.le_of_lt hlt
  · exact heq ▸ BitVec.le_refl _

/-- The live device has the address. -/
def holds (display : IpAddr → List Char) (ip : List Char) (d : Device) : Bool :=
  d.live && ipOf display d == ip

/-- The device that the index has for an address. -/
def indexed (display : IpAddr → List Char) (createdAt : String → Int) (db : Db)
    (ip : List Char) : Option Device :=
  ((db.devices.filter (holds display ip)).insertionSort (OwnerOrder createdAt)).getLast?

theorem buildIpIndex_eq (ds : List Device) (ip : List Char) :
    buildIpIndex display ds ip =
      ((ds.filter fun d => ipOf display d == ip).getLast?).map fun d => ⟨d.id, d.userId, d.name⟩ := by
  unfold buildIpIndex
  induction ds using List.reverseRecOn with
  | nil =>
      rfl
  | append_singleton ds d ih =>
      rw [List.foldl_append, List.foldl_cons, List.foldl_nil, List.filter_append]
      by_cases hd : ipOf display d = ip
      · rw [hd, Function.update_self, List.filter_cons_of_pos (by simp [hd]), List.filter_nil,
          List.getLast?_append]
        rfl
      · rw [Function.update_of_ne (Ne.symm hd), List.filter_cons_of_neg (by simpa using hd),
          List.filter_nil, List.append_nil]
        exact ih

theorem buildIpIndex_active :
    buildIpIndex display (listAllActive createdAt db) ip =
      (indexed display createdAt db ip).map fun d => ⟨d.id, d.userId, d.name⟩ := by
  have hfilter : (listAllActive createdAt db).filter (fun d => ipOf display d == ip) =
      (db.devices.filter (holds display ip)).insertionSort (OwnerOrder createdAt) := by
    refine (@filter_insertionSort Device (OwnerOrder createdAt) _ _ _ _ _).trans ?_
    rw [List.filter_filter]
    refine congrArg _ (List.filter_congr fun d _ => Bool.and_comm _ _)
  rw [buildIpIndex_eq, hfilter]
  rfl

theorem mem_of_indexed (h : indexed display createdAt db ip = some d) :
    d ∈ db.devices ∧ holds display ip d = true := by
  have hmem := List.mem_of_getLast? h
  rw [List.mem_insertionSort] at hmem
  exact List.mem_filter.mp hmem

/-- The index has the holder whose owner's id is the greatest. -/
theorem le_of_indexed {e : Device} (h : indexed display createdAt db ip = some d)
    (he : e ∈ db.devices) (hip : holds display ip e = true) : e.userId ≤ d.userId := by
  obtain ⟨front, hfront⟩ := List.getLast?_eq_some_iff.mp h
  have hsorted := List.pairwise_insertionSort (OwnerOrder createdAt)
    (db.devices.filter (holds display ip))
  have hmem : e ∈ (db.devices.filter (holds display ip)).insertionSort (OwnerOrder createdAt) :=
    (List.mem_insertionSort _).mpr (List.mem_filter.mpr ⟨he, hip⟩)
  rw [hfront] at hsorted hmem
  rcases List.mem_append.mp hmem with hbefore | hlast
  · exact ((List.pairwise_append.mp hsorted).2.2 e hbefore d (by simp)).userId_le
  · rw [List.mem_singleton.mp hlast]
    exact BitVec.le_refl _

theorem indexed_of_mem {e : Device} (he : e ∈ db.devices) (hip : holds display ip e = true) :
    ∃ d, indexed display createdAt db ip = some d := by
  have hmem : e ∈ (db.devices.filter (holds display ip)).insertionSort (OwnerOrder createdAt) :=
    (List.mem_insertionSort _).mpr (List.mem_filter.mpr ⟨he, hip⟩)
  exact ⟨_, List.getLast?_eq_some_getLast (List.ne_nil_of_mem hmem)⟩

/-- If the index has a device of the user, it is the last of the user's own holders. -/
theorem indexed_own {userId : Uuid} (h : indexed display createdAt db ip = some d)
    (hown : d.userId = userId) :
    some d = ((db.devices.filter fun e => holds display ip e && e.userId == userId).insertionSort
      (OwnerOrder createdAt)).getLast? := by
  have hlast := getLast?_filter (p := fun e => e.userId == userId) h (by simpa using hown)
  rw [filter_insertionSort, List.filter_filter] at hlast
  rw [← hlast]
  refine congrArg (fun l => (List.insertionSort (OwnerOrder createdAt) l).getLast?) ?_
  exact List.filter_congr fun e _ => Bool.and_comm _ _

end Holders

section Outside

/-- A device of another user may have another name, id and owner. -/
def SameDevice (userId : Uuid) (d d' : Device) : Prop :=
  d' = d ∨ (d.userId ≠ userId ∧ d'.userId ≠ userId ∧
    d' = { d with id := d'.id, name := d'.name, userId := d'.userId })

/-- Two databases that differ only in the names, ids and owners of devices that do
not belong to the user, and in tables that name devices by their ids. -/
structure SameOutside (userId : Uuid) (db db' : Db) : Prop where
  users : db'.users = db.users
  servers : db'.servers = db.servers
  devices : List.Forall₂ (SameDevice userId) db.devices db'.devices

variable {display : IpAddr → List Char} {createdAt : String → Int} {userId : Uuid} {db db' : Db}
  {ip : List Char} {d d' : Device}

theorem SameDevice.holds_eq (h : SameDevice userId d d') :
    holds display ip d' = holds display ip d := by
  rcases h with rfl | ⟨_, _, heq⟩
  · rfl
  · rw [heq]
    rfl

theorem SameDevice.owner_iff (h : SameDevice userId d d') :
    d'.userId = userId ↔ d.userId = userId := by
  rcases h with rfl | ⟨hne, hne', _⟩
  · exact Iff.rfl
  · exact ⟨fun h => absurd h hne', fun h => absurd h hne⟩

/-- The rows of the user are the same. -/
theorem filter_own {ds ds' : List Device} (h : List.Forall₂ (SameDevice userId) ds ds')
    {p : Device → Bool} (hp : ∀ d, p d = true → d.userId = userId) :
    ds'.filter p = ds.filter p := by
  induction h with
  | nil =>
      rfl
  | @cons d d' ds ds' hd hrest ih =>
      rcases hd with rfl | ⟨hne, hne', _⟩
      · cases hpd : p d' with
        | true =>
            rw [List.filter_cons_of_pos hpd, List.filter_cons_of_pos hpd, ih]
        | false =>
            rw [List.filter_cons_of_neg (by simp [hpd]), List.filter_cons_of_neg (by simp [hpd]), ih]
      · rw [List.filter_cons_of_neg fun h => hne' (hp _ h),
          List.filter_cons_of_neg fun h => hne (hp _ h), ih]

theorem exists_holder {ds ds' : List Device} (h : List.Forall₂ (SameDevice userId) ds ds')
    (hd : d' ∈ ds') : ∃ d ∈ ds, SameDevice userId d d' := by
  induction h with
  | nil =>
      cases hd
  | cons hfirst hrest ih =>
      rcases List.mem_cons.mp hd with rfl | hmem
      · exact ⟨_, List.mem_cons_self, hfirst⟩
      · obtain ⟨d, hds, hsame⟩ := ih hmem
        exact ⟨d, List.mem_cons_of_mem _ hds, hsame⟩

theorem exists_holder' {ds ds' : List Device} (h : List.Forall₂ (SameDevice userId) ds ds')
    (hd : d ∈ ds) : ∃ d' ∈ ds', SameDevice userId d d' := by
  induction h with
  | nil =>
      cases hd
  | cons hfirst hrest ih =>
      rcases List.mem_cons.mp hd with rfl | hmem
      · exact ⟨_, List.mem_cons_self, hfirst⟩
      · obtain ⟨d', hds, hsame⟩ := ih hmem
        exact ⟨d', List.mem_cons_of_mem _ hds, hsame⟩

/-- The same addresses are in the index. -/
theorem indexed_isSome (h : SameOutside userId db db') :
    (indexed display createdAt db' ip).isSome = (indexed display createdAt db ip).isSome := by
  rw [Bool.eq_iff_iff, Option.isSome_iff_exists, Option.isSome_iff_exists]
  constructor
  · rintro ⟨d', hd'⟩
    obtain ⟨hmem, hip⟩ := mem_of_indexed hd'
    obtain ⟨d, hd, hsame⟩ := exists_holder h.devices hmem
    exact indexed_of_mem hd (hsame.holds_eq ▸ hip)
  · rintro ⟨d, hd⟩
    obtain ⟨hmem, hip⟩ := mem_of_indexed hd
    obtain ⟨d', hd', hsame⟩ := exists_holder' h.devices hmem
    exact indexed_of_mem hd' (hsame.holds_eq.trans hip)

/-- An address of the user is found under the same device in both databases if it is
found under a device of the user in both. -/
theorem indexed_congr (h : SameOutside userId db db')
    (hown : ∀ e, indexed display createdAt db ip = some e → e.userId = userId)
    (hown' : ∀ e, indexed display createdAt db' ip = some e → e.userId = userId) :
    indexed display createdAt db' ip = indexed display createdAt db ip := by
  have hsome := @indexed_isSome display createdAt userId db db' ip h
  cases hd : indexed display createdAt db ip with
  | none =>
      rw [hd, Option.isSome_none] at hsome
      exact Option.isNone_iff_eq_none.mp (by simpa using hsome)
  | some d =>
      rw [hd, Option.isSome_some] at hsome
      obtain ⟨d', hd'⟩ := Option.isSome_iff_exists.mp hsome
      have hrows := filter_own h.devices
        (p := fun e => holds display ip e && e.userId == userId) (by simp)
      rw [hd', indexed_own hd' (hown' d' hd'), indexed_own hd (hown d hd), hrows]

end Outside

section Lists

variable {display : IpAddr → List Char} {createdAt : String → Int} {r : Reads} {userId : Uuid}
  {db db' : Db} {ip : List Char} {d d' : Device}

/-- The addresses of the caller. -/
def ownIps (display : IpAddr → List Char) (r : Reads) (userId : Uuid) (db : Db) :
    List (List Char) :=
  (if r.ownOk then Db.Devices.listForUser userId db else []).map (ipOf display)

/-- The index of a request. -/
def indexOf (display : IpAddr → List Char) (createdAt : String → Int) (r : Reads) (db : Db) :
    List Char → Option PeerInfo :=
  buildIpIndex display (if r.allOk then listAllActive createdAt db else [])

/-- A row as the caller sees it. -/
def maskedFlow (own : List (List Char)) (index : List Char → Option PeerInfo) (row : FlowRow) :
    Flow where
  source := mask own (endpointFor row.src index)
  target := mask own (endpointFor row.dst index)
  sourcePort := row.sport
  targetPort := row.dport
  protocol := row.proto

theorem endpointFor_ip (ip : List Char) (index : List Char → Option PeerInfo) :
    (endpointFor ip index).ip = ip := by
  unfold endpointFor
  split
  · rfl
  · rfl

theorem listForUser_rows :
    listForUser display createdAt r userId db =
      ((servedRows r).filter fun row => (ownIps display r userId db).contains row.src ||
        (ownIps display r userId db).contains row.dst).map
          (maskedFlow (ownIps display r userId db) (indexOf display createdAt r db)) := by
  simp only [listForUser, collectFlows_rows, List.filter_map, List.map_map]
  refine congrArg₂ List.map rfl (List.filter_congr ?_)
  intro row _
  simp only [Function.comp_apply, FlowRow.flow, endpointFor_ip]
  rfl

theorem mem_ownIps :
    ip ∈ ownIps display r userId db ↔
      r.ownOk = true ∧ ∃ d ∈ db.devices, d.userId = userId ∧ holds display ip d = true := by
  unfold ownIps
  cases r.ownOk with
  | false =>
      simp
  | true =>
      simp only [if_true, List.mem_map, Db.Devices.listForUser, List.mem_filter, Bool.and_eq_true,
        beq_iff_eq, holds, true_and]
      constructor
      · rintro ⟨d, ⟨hd, hown, hlive⟩, hip⟩
        exact ⟨d, hd, hown, hlive, hip⟩
      · rintro ⟨d, hd, hown, hlive, hip⟩
        exact ⟨d, ⟨hd, hown, hlive⟩, hip⟩

theorem ownIps_congr (h : SameOutside userId db db') :
    ownIps display r userId db' = ownIps display r userId db := by
  unfold ownIps Db.Devices.listForUser
  rw [filter_own h.devices]
  intro d hd
  simp only [Bool.and_eq_true, beq_iff_eq] at hd
  exact hd.1

/-- Outside of the caller's addresses only their presence in the index is seen. -/
theorem mask_congr {own : List (List Char)} {index index' : List Char → Option PeerInfo}
    (hsome : (index' ip).isSome = (index ip).isSome) (hown : ip ∈ own → index' ip = index ip) :
    mask own (endpointFor ip index') = mask own (endpointFor ip index) := by
  by_cases hip : ip ∈ own
  · unfold endpointFor
    rw [hown hip]
  · cases hindex : index ip with
    | none =>
        rw [hindex, Option.isSome_none, Option.isSome_eq_false_iff,
          Option.isNone_iff_eq_none] at hsome
        unfold endpointFor
        rw [hindex, hsome]
    | some peer =>
        rw [hindex, Option.isSome_some] at hsome
        obtain ⟨peer', hpeer'⟩ := Option.isSome_iff_exists.mp hsome
        simp [mask, endpointFor, hindex, hpeer', hip]

/-- The name behind an address of the caller. -/
theorem mask_own {own : List (List Char)} {index : List Char → Option PeerInfo} {peer : PeerInfo}
    (hip : ip ∈ own) (hindex : index ip = some peer) :
    (mask own (endpointFor ip index)).name = peer.name := by
  simp [mask, endpointFor, hindex, hip]

end Lists

section Main

variable {display : IpAddr → List Char} {createdAt : String → Int} {r : Reads} {userId : Uuid}
  {db db' : Db} {ip : List Char}

/-- No row is served with an address that the user shares with another one, or no
other user's id is greater. -/
def Unexposed (display : IpAddr → List Char) (r : Reads) (userId : Uuid) (db : Db) : Prop :=
  r.allOk = false ∨ r.ownOk = false ∨ (∀ u ∈ db.users, u.id ≤ userId) ∨
    ∀ row ∈ servedRows r, ∀ ip ∈ [row.src, row.dst],
      ∀ d ∈ db.devices, d.userId = userId → holds display ip d = true →
        ∀ e ∈ db.devices, holds display ip e = true → e.userId = userId

/-- Then an address of the user is found under a device of the user. -/
theorem indexed_userId (h : SameOutside userId db db')
    (hexposed : (∀ u ∈ db.users, u.id ≤ userId) ∨
      ∀ e ∈ db.devices, holds display ip e = true → e.userId = userId)
    {d : Device} (hd : d ∈ db.devices) (hown : d.userId = userId)
    (hip : holds display ip d = true) :
    ∀ e, indexed display createdAt db' ip = some e → e.userId = userId := by
  intro e he
  obtain ⟨hmem, hholds⟩ := mem_of_indexed he
  rcases hexposed with hgreatest | hunshared
  · -- the user's own holder is in both databases
    obtain ⟨d', hd', hsame⟩ := exists_holder' h.devices hd
    have hle := le_of_indexed he hd' (hsame.holds_eq.trans hip)
    rw [hsame.owner_iff.mpr hown] at hle
    have huser := db'.valid.devices_user e hmem
    rw [h.users] at huser
    obtain ⟨u, hu, hid⟩ := List.mem_map.mp huser
    exact BitVec.le_antisymm (hid ▸ hgreatest u hu) hle
  · obtain ⟨e₀, he₀, hsame⟩ := exists_holder h.devices hmem
    exact hsame.owner_iff.mpr (hunshared e₀ he₀ (hsame.holds_eq ▸ hholds))

theorem same_refl (userId : Uuid) (db : Db) : SameOutside userId db db := by
  refine ⟨rfl, rfl, ?_⟩
  induction db.devices with
  | nil =>
      exact List.Forall₂.nil
  | cons d ds ih =>
      exact List.Forall₂.cons (Or.inl rfl) ih

/-- Where nothing is exposed the list does not depend on the other users' devices. -/
theorem listForUser_congr (h : SameOutside userId db db')
    (hexposed : Unexposed display r userId db) :
    listForUser display createdAt r userId db' = listForUser display createdAt r userId db := by
  rw [listForUser_rows, listForUser_rows, ownIps_congr h]
  refine List.map_congr_left ?_
  intro row hrow
  have hserved := (List.mem_filter.mp hrow).1
  have hview : ∀ ip ∈ [row.src, row.dst],
      mask (ownIps display r userId db) (endpointFor ip (indexOf display createdAt r db')) =
        mask (ownIps display r userId db) (endpointFor ip (indexOf display createdAt r db)) := by
    intro ip hip
    unfold indexOf
    cases hall : r.allOk with
    | false =>
        rfl
    | true =>
        simp only [if_true]
        refine mask_congr ?_ ?_
        · rw [buildIpIndex_active, buildIpIndex_active, Option.isSome_map, Option.isSome_map]
          exact indexed_isSome h
        · intro hown
          obtain ⟨hownOk, d, hd, howner, hholds⟩ := mem_ownIps.mp hown
          have hcases : (∀ u ∈ db.users, u.id ≤ userId) ∨
              ∀ e ∈ db.devices, holds display ip e = true → e.userId = userId := by
            rcases hexposed with hfail | hfail | hgreatest | hunshared
            · rw [hall] at hfail
              cases hfail
            · rw [hownOk] at hfail
              cases hfail
            · exact Or.inl hgreatest
            · exact Or.inr (hunshared row hserved ip hip d hd howner hholds)
          rw [buildIpIndex_active, buildIpIndex_active,
            indexed_congr h (indexed_userId (same_refl userId db) hcases hd howner hholds)
              (indexed_userId h hcases hd howner hholds)]
  unfold maskedFlow
  rw [hview row.src (by simp), hview row.dst (by simp)]

/-- The devices of the others under one owner and one name. -/
def handedOver (userId w : Uuid) (name : String) (t : Db.Tables) : Db.Tables :=
  { t with
    devices := updateWhere (fun d => d.userId != userId)
      (fun d => { d with userId := w, name := name }) t.devices }

theorem handedOver_valid {w : Uuid} (hw : w ∈ db.users.map Db.User.id) (name : String) :
    (handedOver userId w name db.toTables).Valid := by
  have hv := db.valid
  have hid : (handedOver userId w name db.toTables).devices.map Device.id =
      db.devices.map Device.id := by
    refine map_updateWhere ?_ _
    exact fun _ => rfl
  have hkey : (handedOver userId w name db.toTables).devices.map Device.publicKey =
      db.devices.map Device.publicKey := by
    refine map_updateWhere ?_ _
    exact fun _ => rfl
  have haddress : ((handedOver userId w name db.toTables).devices.filter Device.live).map
      (fun d => (d.serverId, d.allocatedIp)) =
      (db.devices.filter Device.live).map fun d => (d.serverId, d.allocatedIp) := by
    refine filter_map_updateWhere ?_ ?_
    · exact fun _ _ _ => rfl
    · exact fun _ _ _ => rfl
  exact
    { hv with
      devices_id := by
        rw [hid]
        exact hv.devices_id
      devices_publicKey := by
        rw [hkey]
        exact hv.devices_publicKey
      devices_address := by
        rw [haddress]
        exact hv.devices_address
      devices_user := forall_updateWhere hv.devices_user fun _ _ _ _ => hw
      devices_server := forall_updateWhere hv.devices_server fun _ _ _ h => h
      devices_range := forall_updateWhere hv.devices_range fun _ _ _ h => h
      checkpoints_fk := by
        rw [hid]
        exact hv.checkpoints_fk }

def handedOverDb (userId : Uuid) (db : Db) {w : Uuid} (hw : w ∈ db.users.map Db.User.id)
    (name : String) : Db where
  toTables := handedOver userId w name db.toTables
  valid := handedOver_valid hw name

theorem handedOver_same {w : Uuid} (hw : w ∈ db.users.map Db.User.id) (hne : w ≠ userId)
    (name : String) : SameOutside userId db (handedOverDb userId db hw name) := by
  refine ⟨rfl, rfl, ?_⟩
  simp only [handedOverDb, handedOver, updateWhere]
  induction db.devices with
  | nil =>
      exact List.Forall₂.nil
  | cons d ds ih =>
      refine List.Forall₂.cons ?_ ih
      dsimp only
      by_cases hown : d.userId = userId
      · rw [if_neg (by simpa using hown)]
        exact Or.inl rfl
      · rw [if_pos (by simpa using hown)]
        exact Or.inr ⟨hown, hne, rfl⟩

/-- A device of another user that now has a greater owner is found first. -/
theorem handedOver_indexed (createdAt : String → Int) {w : Uuid} (hw : w ∈ db.users.map Db.User.id) (hlt : userId < w)
    (name : String) {e : Device} (he : e ∈ db.devices) (hother : e.userId ≠ userId)
    (hip : holds display ip e = true) :
    ∃ d, indexed display createdAt (handedOverDb userId db hw name) ip = some d ∧
      d.name = name := by
  have hmem : ({ e with userId := w, name := name } : Device) ∈
      (handedOverDb userId db hw name).devices :=
    mem_updateWhere_of_pos he (by simpa using hother)
  obtain ⟨d, hd⟩ := @indexed_of_mem display createdAt (handedOverDb userId db hw name) ip _ hmem hip
  refine ⟨d, hd, ?_⟩
  have hle := le_of_indexed hd hmem hip
  obtain ⟨d₀, _, hd₀⟩ := mem_updateWhere.mp (mem_of_indexed hd).1
  by_cases hown : d₀.userId = userId
  · rw [if_neg (by simpa using hown)] at hd₀
    rw [hd₀, hown] at hle
    exact absurd hlt (BitVec.not_lt.mpr hle)
  · rw [if_pos (by simpa using hown)] at hd₀
    rw [hd₀]

/--
The list of a user stays the same however the devices of the others are named,
numbered and owned, exactly if one of the two queries fails, or no other user's id is
greater, or no row is served with an address that a live device of the user and a
live device of another user both have.
-/
theorem connection_list_noninterference_iff (display : IpAddr → List Char)
    (createdAt : String → Int) (r : Reads) (userId : Uuid) (db : Db) :
    (∀ db', SameOutside userId db db' →
        listForUser display createdAt r userId db' = listForUser display createdAt r userId db) ↔
      Unexposed display r userId db := by
  constructor
  · intro hsame
    by_contra hexposed
    simp only [Unexposed, not_or, Bool.not_eq_false, not_forall, BitVec.not_le] at hexposed
    obtain ⟨hall, hown, ⟨u, hu, hlt⟩, row, hrow, ip, hip, d, hd, howner, hholds, e, he, heholds,
      hother⟩ := hexposed
    have hw : u.id ∈ db.users.map Db.User.id := List.mem_map_of_mem hu
    have hne : u.id ≠ userId := fun heq => absurd (heq ▸ hlt) (BitVec.lt_irrefl _)
    -- two databases in which the address is found under two names
    have hipOwn : ip ∈ ownIps display r userId db := mem_ownIps.mpr ⟨hown, d, hd, howner, hholds⟩
    have hkept : row ∈ (servedRows r).filter fun row =>
        (ownIps display r userId db).contains row.src ||
          (ownIps display r userId db).contains row.dst := by
      refine List.mem_filter.mpr ⟨hrow, ?_⟩
      simp only [List.mem_cons, List.not_mem_nil, or_false] at hip
      rcases hip with rfl | rfl
      · simp [hipOwn]
      · simp [hipOwn]
    have hname : ∀ name, (mask (ownIps display r userId db)
        (endpointFor ip (indexOf display createdAt r db))).name = name := by
      intro name
      have hother := handedOver_same hw hne name
      have hlist := hsame _ hother
      rw [listForUser_rows, listForUser_rows, ownIps_congr hother, List.map_inj_left] at hlist
      have hflow := hlist row hkept
      have hend : mask (ownIps display r userId db)
          (endpointFor ip (indexOf display createdAt r (handedOverDb userId db hw name))) =
          mask (ownIps display r userId db)
            (endpointFor ip (indexOf display createdAt r db)) := by
        simp only [List.mem_cons, List.not_mem_nil, or_false] at hip
        rcases hip with rfl | rfl
        · exact congrArg Flow.source hflow
        · exact congrArg Flow.target hflow
      rw [← hend]
      obtain ⟨f, hindexed, hf⟩ := handedOver_indexed createdAt hw hlt name he ‹_› heholds
      have hindex : indexOf display createdAt r (handedOverDb userId db hw name) ip =
          some ⟨f.id, f.userId, f.name⟩ := by
        unfold indexOf
        rw [if_pos hall, buildIpIndex_active, hindexed, Option.map_some]
      rw [mask_own hipOwn hindex]
      exact hf
    have hab := (hname "a").symm.trans (hname "b")
    exact absurd hab (by decide)
  · intro hexposed db' h
    exact listForUser_congr h hexposed

end Main

section Sample

/-- Two users with a device each, on two servers with the same network. -/
def twoNetworks (name : String) : Db.Tables where
  users :=
    [ { id := 2, email := .address "user@vpn.test", role := .user, status := .active
        deletedAt := none, deviceLimit := 5, monthlyByteCap := none
        currentMonthBytes := 0, quotaResetsAt := none },
      { id := 3, email := .address "other@vpn.test", role := .user, status := .active
        deletedAt := none, deviceLimit := 5, monthlyByteCap := none
        currentMonthBytes := 0, quotaResetsAt := none } ]
  servers :=
    [ { id := 10, name := "main", publicKey := "server", isActive := true
        privateKeyEncrypted := none, cidr := .v4 ⟨0x0A000000#32, 22, Wg.Network.slash22⟩
        persistentKeepalive := 25, createdAt := 0 },
      { id := 11, name := "second", publicKey := "server2", isActive := true
        privateKeyEncrypted := none, cidr := .v4 ⟨0x0A000000#32, 22, Wg.Network.slash22⟩
        persistentKeepalive := 25, createdAt := 0 } ]
  devices :=
    [ { id := 20, userId := 2, serverId := 10, name := "laptop", publicKey := "key"
        presharedKeyEncrypted := none, allocatedIp := .v4 0x0A000002#32
        status := .active, privateKeyEncrypted := none, monthlyByteCap := none
        currentMonthBytes := 0, quotaResetsAt := none, autoPaused := false
        lifetimeRxBytes := 0, lifetimeTxBytes := 0 },
      { id := 21, userId := 3, serverId := 11, name := name, publicKey := "key2"
        presharedKeyEncrypted := none, allocatedIp := .v4 0x0A000002#32
        status := .active, privateKeyEncrypted := none, monthlyByteCap := none
        currentMonthBytes := 0, quotaResetsAt := none, autoPaused := false
        lifetimeRxBytes := 0, lifetimeTxBytes := 0 } ]
  checkpoints := []
  serverUsage := []
  samples := []

def phoneDb : Db where
  toTables := twoNetworks "phone"
  valid := by decide +kernel

def tabletDb : Db where
  toTables := twoNetworks "tablet"
  valid := by decide +kernel

/-- The dotted form of an IPv4 address. -/
def sampleDisplay : IpAddr → List Char
  | .v4 a => (HostAgent.dotted a).toList
  | .v6 _ => []

/-- One flow of the first user. -/
def sampleReads : Reads where
  conntrack := some
    "tcp      6 100 ESTABLISHED src=10.0.0.2 dst=1.1.1.1 sport=5678 dport=443\n".toList
  procfs := none
  destinations := none
  allOk := true
  ownOk := true

/-- The first user sees the name of the other one's device. -/
theorem other_device_is_shown :
    SameOutside 2 phoneDb tabletDb ∧
      (listForUser sampleDisplay (fun _ => 0) sampleReads 2 phoneDb).map
          (fun f => (f.source.name, f.source.userId)) = [("phone", some 3)] ∧
      listForUser sampleDisplay (fun _ => 0) sampleReads 2 tabletDb ≠
        listForUser sampleDisplay (fun _ => 0) sampleReads 2 phoneDb := by
  refine ⟨⟨rfl, rfl, ?_⟩, by decide +kernel, by decide +kernel⟩
  exact .cons (Or.inl rfl) (.cons (Or.inr ⟨by decide, by decide, rfl⟩) .nil)

end Sample

end Connections
end Api
end ZeroVpn
