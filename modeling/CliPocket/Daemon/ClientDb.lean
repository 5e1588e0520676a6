import CliPocket.Proto.Terminal
import Mathlib.Data.List.AList
import Mathlib.Data.List.Sort

/-!
# The client database

The paired clients and the revoked ids: the state behind the lock, how it is built from the two files and what the
files say for a state.

- `DbState.Keyed`: records are stored under their own id (`fromFiles_keyed`, `inserted_keyed`);
- `mem_clientsFile`, `fromFiles_lookup`: a file and the state it belongs to name the same records.
-/

namespace CliPocket

/-! ## Records and errors -/

structure PublicKey where
  bytes : List UInt8
  length_eq : bytes.length = 32
  deriving DecidableEq

/-- The key whose bytes are all `b`. -/
def PublicKey.splat (b : UInt8) : PublicKey := ⟨List.replicate 32 b, List.length_replicate⟩

structure ClientRecord where
  clientId : ClientId
  publicKey : PublicKey
  pairedAt : Nat
  deriving DecidableEq

inductive DaemonError
  | io
  | config (message : String)
  | identity (message : String)
  | clientDb (message : String)
  | crypto
  | transport
  | proto
  | revoked (client : String)
  | notPaired (key : String)
  | internal (message : String)
  deriving DecidableEq

/-! ## The state -/

/-- `by_id`, `by_public` and the set `revoked`. -/
structure DbState where
  byId : AList fun _ : ClientId => ClientRecord := ∅
  byPublic : AList fun _ : PublicKey => ClientId := ∅
  revoked : List ClientId := []

/-- `HashSet::insert`. -/
def insertId (ids : List ClientId) (id : ClientId) : List ClientId := if id ∈ ids then ids else id :: ids

/-- `collect` into a `HashSet`. -/
def collectIds (ids : List ClientId) : List ClientId := ids.foldl insertId []

/-- Equality of sets. -/
def sameIds (a b : List ClientId) : Bool := a.all (· ∈ b) && b.all (· ∈ a)

/-- The order of `sort_by_key` on `(paired_at, client_id)`. -/
def recordLe (a b : ClientRecord) : Prop :=
  a.pairedAt < b.pairedAt ∨ a.pairedAt = b.pairedAt ∧ a.clientId.uuid.bytes ≤ b.clientId.uuid.bytes

instance : DecidableRel recordLe := fun _ _ => inferInstanceAs (Decidable (_ ∨ _))

def idLe (a b : ClientId) : Prop := a.uuid.bytes ≤ b.uuid.bytes

instance : DecidableRel idLe := fun _ _ => inferInstanceAs (Decidable (_ ≤ _))

namespace DbState

def checkNewRecord (s : DbState) (record : ClientRecord) : Except DaemonError Unit :=
  if record.clientId ∈ s.byId then
    .error (.clientDb ("duplicate client_id " ++ record.clientId.uuid.display))
  else if record.publicKey ∈ s.byPublic then .error (.clientDb "duplicate public_key")
  else .ok ()

/-- Both insertions of a record. -/
def inserted (s : DbState) (record : ClientRecord) : DbState :=
  { s with
    byPublic := s.byPublic.insert record.publicKey record.clientId
    byId := s.byId.insert record.clientId record }

def withAdded (s : DbState) (record : ClientRecord) : Except DaemonError DbState := do
  s.checkNewRecord record
  .ok (s.inserted record)

def withRevoked (s : DbState) (id : ClientId) : Option DbState :=
  if id ∈ s.revoked then none else some { s with revoked := insertId s.revoked id }

def fromFiles (clients : List ClientRecord) (revoked : List ClientId) : Except DaemonError DbState :=
  clients.foldlM withAdded { revoked := collectIds revoked }

def clientsFile (s : DbState) : List ClientRecord :=
  (s.byId.entries.map Sigma.snd).insertionSort recordLe

def revokedFile (s : DbState) : List ClientId := s.revoked.insertionSort idLe

def lookupById (s : DbState) (id : ClientId) : Option ClientRecord := s.byId.lookup id

def lookupByPublic (s : DbState) (key : PublicKey) : Option ClientRecord := (s.byPublic.lookup key).bind s.lookupById

/-- `ClientDb::list`. -/
def list (s : DbState) : List ClientRecord := s.clientsFile

def isRevoked (s : DbState) (id : ClientId) : Bool := id ∈ s.revoked

end DbState

/-! ## Revoked ids -/

theorem mem_insertId {ids : List ClientId} {id x : ClientId} : x ∈ insertId ids id ↔ x = id ∨ x ∈ ids := by
  unfold insertId
  split
  · next h =>
    constructor
    · exact Or.inr
    · rintro (rfl | hx)
      · exact h
      · exact hx
  · exact List.mem_cons

theorem mem_foldl_insertId : ∀ {ids acc : List ClientId} {x : ClientId},
    x ∈ ids.foldl insertId acc ↔ x ∈ acc ∨ x ∈ ids
  | [], acc, x => by simp
  | id :: ids, acc, x => by
    rw [List.foldl_cons, mem_foldl_insertId, mem_insertId, List.mem_cons, or_assoc, or_left_comm]

theorem mem_collectIds {ids : List ClientId} {x : ClientId} : x ∈ collectIds ids ↔ x ∈ ids := by
  rw [collectIds, mem_foldl_insertId]
  simp

namespace DbState

theorem withRevoked_eq_some {s t : DbState} {id : ClientId} (h : s.withRevoked id = some t) :
    id ∉ s.revoked ∧ t = { s with revoked := insertId s.revoked id } := by
  unfold withRevoked at h
  split at h
  · cases h
  · next hid => exact ⟨hid, (Option.some.inj h).symm⟩

theorem mem_revokedFile {s : DbState} {id : ClientId} : id ∈ s.revokedFile ↔ id ∈ s.revoked :=
  List.mem_insertionSort idLe

/-! ## Records -/

/-- Every record is stored under its own id. -/
def Keyed (s : DbState) : Prop := ∀ id record, s.byId.lookup id = some record → record.clientId = id

theorem withAdded_eq_ok {s t : DbState} {record : ClientRecord} (h : s.withAdded record = .ok t) :
    record.clientId ∉ s.byId ∧ record.publicKey ∉ s.byPublic ∧ t = s.inserted record := by
  unfold withAdded checkNewRecord at h
  split_ifs at h with hid hkey
  · cases h
  · cases h
  · cases h
    exact ⟨hid, hkey, rfl⟩

theorem inserted_keyed {s : DbState} (h : s.Keyed) (record : ClientRecord) : (s.inserted record).Keyed := by
  intro id r hr
  by_cases hid : id = record.clientId
  · subst hid
    rw [inserted, AList.lookup_insert] at hr
    rw [Option.some.inj hr]
  · rw [inserted, AList.lookup_insert_ne hid] at hr
    exact h id r hr

/-- A record that is there stays, and the new one is there. -/
theorem lookup_inserted {s : DbState} (record r : ClientRecord) (hid : record.clientId ∉ s.byId) :
    (s.inserted record).byId.lookup r.clientId = some r ↔ s.byId.lookup r.clientId = some r ∨ r = record := by
  by_cases hr : r.clientId = record.clientId
  · have hnone : s.byId.lookup r.clientId = none := by
      rw [AList.lookup_eq_none, hr]
      exact hid
    rw [inserted, hnone, hr, AList.lookup_insert]
    simp [eq_comm]
  · rw [inserted, AList.lookup_insert_ne hr]
    constructor
    · exact Or.inl
    · rintro (h | rfl)
      · exact h
      · exact absurd rfl hr

theorem mem_clientsFile {s : DbState} (h : s.Keyed) {r : ClientRecord} :
    r ∈ s.clientsFile ↔ s.byId.lookup r.clientId = some r := by
  rw [clientsFile, List.mem_insertionSort, List.mem_map]
  constructor
  · rintro ⟨⟨id, record⟩, hm, rfl⟩
    have hl : s.byId.lookup id = some record := AList.mem_lookup_iff.mpr hm
    rw [h id record hl]
    exact hl
  · intro hl
    exact ⟨⟨r.clientId, r⟩, AList.mem_lookup_iff.mp hl, rfl⟩

/-- The loop of `from_files`. -/
theorem foldlM_withAdded : ∀ {clients : List ClientRecord} {s t : DbState}, s.Keyed →
    clients.foldlM withAdded s = .ok t →
    t.Keyed ∧ t.revoked = s.revoked ∧
      ∀ r, t.byId.lookup r.clientId = some r ↔ s.byId.lookup r.clientId = some r ∨ r ∈ clients
  | [], s, t, hk, h => by
    cases h
    exact ⟨hk, rfl, fun r => by simp⟩
  | record :: clients, s, t, hk, h => by
    rw [List.foldlM_cons] at h
    cases hm : s.withAdded record with
    | error e =>
      rw [hm] at h
      cases h
    | ok m =>
      rw [hm] at h
      obtain ⟨hid, _, rfl⟩ := withAdded_eq_ok hm
      obtain ⟨hkt, hrev, hlook⟩ := foldlM_withAdded (inserted_keyed hk record) h
      refine ⟨hkt, hrev, fun r => ?_⟩
      rw [hlook, lookup_inserted record r hid, List.mem_cons, or_assoc]

theorem empty_keyed (revoked : List ClientId) : Keyed { revoked := revoked } := by
  intro id r h
  cases h

/-- **What a state built from the files holds.** -/
theorem fromFiles_eq_ok {clients : List ClientRecord} {revoked : List ClientId} {s : DbState}
    (h : fromFiles clients revoked = .ok s) :
    s.Keyed ∧ (∀ r, s.byId.lookup r.clientId = some r ↔ r ∈ clients) ∧ ∀ id, id ∈ s.revoked ↔ id ∈ revoked := by
  obtain ⟨hk, hrev, hlook⟩ := foldlM_withAdded (empty_keyed _) h
  refine ⟨hk, fun r => ?_, fun id => ?_⟩
  · rw [hlook]
    simp
  · rw [hrev]
    exact mem_collectIds

end DbState

end CliPocket
