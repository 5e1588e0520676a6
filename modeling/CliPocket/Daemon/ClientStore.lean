import CliPocket.Daemon.Reload

/-!
# The client database, call by call

`ClientDb` without its reload task: what `open`, `add`, `add_or_lookup_by_public` and `revoke` return, and what they
leave in memory and in the files. A write goes to a file of its own that is renamed, so one that fails leaves the file.

- `DbState.Paired`: the two maps are inverse to one another (`paired_inserted`);
- `fromFiles_files`: **the files of a state say that state**;
- `client_db_is_consistent`: what holds in every state that calls can reach, and of every call in it.
-/

namespace CliPocket

open Channel (Watch)

/-! ## The two maps -/

namespace DbState

variable {s t : DbState} {record : ClientRecord}

/-- Every record is reachable by its id and by its key, and no id or key has two. -/
structure Paired (s : DbState) : Prop where
  keyed : s.Keyed
  byPublic : ∀ key id, s.byPublic.lookup key = some id ↔
    ∃ record, s.byId.lookup id = some record ∧ record.publicKey = key

/-- Equality of the maps and of the set. -/
structure Same (s t : DbState) : Prop where
  byId : ∀ id, s.byId.lookup id = t.byId.lookup id
  byPublic : ∀ key, s.byPublic.lookup key = t.byPublic.lookup key
  revoked : ∀ id, id ∈ s.revoked ↔ id ∈ t.revoked

theorem paired_empty (revoked : List ClientId) : Paired { revoked } where
  keyed := empty_keyed revoked
  byPublic key id := by
    constructor
    · intro h
      cases h
    · rintro ⟨_, h, _⟩
      cases h

/-- A record with an id and a key of its own. -/
theorem paired_inserted (h : s.Paired) (hid : record.clientId ∉ s.byId) (hkey : record.publicKey ∉ s.byPublic) :
    (s.inserted record).Paired where
  keyed := inserted_keyed h.keyed record
  byPublic key id := by
    have hnoKey : ∀ r, s.byId.lookup r.clientId = some r → r.publicKey ≠ record.publicKey := by
      intro r hr heq
      have hlookup : s.byPublic.lookup record.publicKey = some r.clientId := (h.byPublic _ _).mpr ⟨r, hr, heq⟩
      rw [AList.lookup_eq_none.mpr hkey] at hlookup
      cases hlookup
    by_cases hsame : key = record.publicKey
    · subst hsame
      rw [inserted, AList.lookup_insert]
      constructor
      · intro heq
        cases heq
        exact ⟨record, AList.lookup_insert _, rfl⟩
      · rintro ⟨r, hr, heq⟩
        by_cases hidEq : id = record.clientId
        · rw [hidEq]
        · rw [AList.lookup_insert_ne hidEq] at hr
          have hkeyed := h.keyed id r hr
          subst hkeyed
          exact absurd heq (hnoKey r hr)
    · rw [inserted, AList.lookup_insert_ne hsame, h.byPublic]
      constructor
      · rintro ⟨r, hr, rfl⟩
        have hne : id ≠ record.clientId := by
          rintro rfl
          rw [AList.lookup_eq_none.mpr hid] at hr
          cases hr
        exact ⟨r, by rw [AList.lookup_insert_ne hne]; exact hr, rfl⟩
      · rintro ⟨r, hr, rfl⟩
        have hne : id ≠ record.clientId := by
          rintro rfl
          rw [AList.lookup_insert] at hr
          cases hr
          exact hsame rfl
        rw [AList.lookup_insert_ne hne] at hr
        exact ⟨r, hr, rfl⟩

theorem Paired.withAdded (h : s.Paired) (ht : s.withAdded record = .ok t) : t.Paired := by
  obtain ⟨hid, hkey, rfl⟩ := withAdded_eq_ok ht
  exact paired_inserted h hid hkey

theorem Paired.withRevoked {id : ClientId} (h : s.Paired) (ht : s.withRevoked id = some t) : t.Paired := by
  obtain ⟨_, rfl⟩ := withRevoked_eq_some ht
  exact ⟨h.keyed, h.byPublic⟩

theorem Paired.foldlM : ∀ {clients : List ClientRecord} {s t : DbState}, s.Paired →
    clients.foldlM DbState.withAdded s = .ok t → t.Paired
  | [], _, _, h, ht => by
    cases ht
    exact h
  | record :: clients, s, t, h, ht => by
    rw [List.foldlM_cons] at ht
    cases hm : s.withAdded record with
    | error e =>
      rw [hm] at ht
      cases ht
    | ok m =>
      rw [hm] at ht
      exact Paired.foldlM (h.withAdded hm) ht

theorem paired_fromFiles {clients : List ClientRecord} {revoked : List ClientId}
    (h : fromFiles clients revoked = .ok s) : s.Paired := (paired_empty _).foldlM h

/-- What is known by its key is looked up by it. -/
theorem Paired.lookupByPublic (h : s.Paired) {key : PublicKey} {existing : ClientRecord} :
    s.lookupByPublic key = some existing ↔
      s.byId.lookup existing.clientId = some existing ∧ existing.publicKey = key := by
  unfold DbState.lookupByPublic lookupById
  constructor
  · intro hlookup
    obtain ⟨id, hid, hrecord⟩ := Option.bind_eq_some_iff.mp hlookup
    obtain ⟨r, hr, hkey⟩ := (h.byPublic key id).mp hid
    have heq : r = existing := Option.some.inj (hr.symm.trans hrecord)
    subst heq
    rw [h.keyed id r hr]
    exact ⟨hr, hkey⟩
  · rintro ⟨hrecord, hkey⟩
    rw [(h.byPublic key existing.clientId).mpr ⟨existing, hrecord, hkey⟩]
    exact hrecord

/-- The maps are the same if the records are. -/
theorem Paired.same (hs : s.Paired) (ht : t.Paired)
    (hrecords : ∀ r, s.byId.lookup r.clientId = some r ↔ t.byId.lookup r.clientId = some r)
    (hrevoked : ∀ id, id ∈ s.revoked ↔ id ∈ t.revoked) : s.Same t := by
  have hbyId : ∀ id r, s.byId.lookup id = some r ↔ t.byId.lookup id = some r := by
    intro id r
    constructor
    · intro h
      have hkeyed := hs.keyed id r h
      subst hkeyed
      exact (hrecords r).mp h
    · intro h
      have hkeyed := ht.keyed id r h
      subst hkeyed
      exact (hrecords r).mpr h
  refine ⟨fun id => Option.ext (hbyId id), fun key => Option.ext fun id => ?_, hrevoked⟩
  rw [hs.byPublic, ht.byPublic]
  exact exists_congr fun r => and_congr_left' (hbyId id r)

/-! ## The files of a state -/

/-- Records with ids and keys of their own are all added. -/
theorem foldlM_withAdded_ok : ∀ {clients : List ClientRecord} {s : DbState},
    (clients.map ClientRecord.clientId).Nodup →
    (clients.map ClientRecord.publicKey).Nodup → (∀ r ∈ clients, r.clientId ∉ s.byId ∧ r.publicKey ∉ s.byPublic) →
    ∃ t, clients.foldlM withAdded s = .ok t
  | [], s, _, _, _ => ⟨s, rfl⟩
  | record :: clients, s, hids, hkeys, hnew => by
    rw [List.map_cons, List.nodup_cons] at hids hkeys
    obtain ⟨hid, hkey⟩ := hnew record List.mem_cons_self
    have hadded : s.withAdded record = .ok (s.inserted record) := by
      unfold withAdded checkNewRecord
      rw [if_neg hid, if_neg hkey]
      rfl
    rw [List.foldlM_cons, hadded]
    refine foldlM_withAdded_ok hids.2 hkeys.2 fun r hr => ?_
    obtain ⟨hrid, hrkey⟩ := hnew r (List.mem_cons_of_mem _ hr)
    refine ⟨fun hmem => ?_, fun hmem => ?_⟩
    · rcases (AList.mem_insert _).mp hmem with heq | hmem
      · exact hids.1 (heq ▸ List.mem_map_of_mem hr)
      · exact hrid hmem
    · rcases (AList.mem_insert _).mp hmem with heq | hmem
      · exact hkeys.1 (heq ▸ List.mem_map_of_mem hr)
      · exact hrkey hmem

theorem nodup_clientsFile (h : s.Paired) : (s.clientsFile.map ClientRecord.clientId).Nodup ∧
    (s.clientsFile.map ClientRecord.publicKey).Nodup := by
  have hperm := List.perm_insertionSort recordLe (s.byId.entries.map Sigma.snd)
  have hids : (s.clientsFile.map ClientRecord.clientId).Nodup := by
    refine (hperm.map _).nodup_iff.mpr ?_
    have hkeys : (s.byId.entries.map Sigma.snd).map ClientRecord.clientId = s.byId.keys := by
      rw [List.map_map]
      refine List.map_congr_left ?_
      rintro ⟨id, r⟩ hentry
      exact h.keyed id r (AList.mem_lookup_iff.mpr hentry)
    rw [hkeys]
    exact s.byId.keys_nodup
  refine ⟨hids, ?_⟩
  -- Two records with one key have one id, as the key leads to it.
  refine List.Nodup.map_on ?_ (List.Nodup.of_map _ hids)
  intro r hr r' hr' heq
  rw [mem_clientsFile h.keyed] at hr hr'
  have hid := (h.byPublic r.publicKey r.clientId).mpr ⟨r, hr, rfl⟩
  rw [(h.byPublic r.publicKey r'.clientId).mpr ⟨r', hr', heq.symm⟩] at hid
  rw [← Option.some.inj hid, hr'] at hr
  exact (Option.some.inj hr).symm

/-- The records of a state, beside a list with its revoked ids. -/
theorem fromFiles_clientsFile (h : s.Paired) {revoked : List ClientId} (hrevoked : ∀ id, id ∈ revoked ↔ id ∈ s.revoked) :
    ∃ t, fromFiles s.clientsFile revoked = .ok t ∧ t.Same s := by
  obtain ⟨hids, hkeys⟩ := nodup_clientsFile h
  obtain ⟨t, ht⟩ := @foldlM_withAdded_ok s.clientsFile { revoked := collectIds revoked } hids hkeys
    fun _ _ => ⟨AList.notMem_empty _, AList.notMem_empty _⟩
  obtain ⟨_, hclients, hids'⟩ := fromFiles_eq_ok ht
  refine ⟨t, ht, (paired_fromFiles ht).same h (fun r => ?_) fun id => ?_⟩
  · rw [hclients, mem_clientsFile h.keyed]
  · rw [hids', hrevoked]

/-- **The files of a state say that state.** -/
theorem fromFiles_files (h : s.Paired) : ∃ t, fromFiles s.clientsFile s.revokedFile = .ok t ∧ t.Same s :=
  fromFiles_clientsFile h fun _ => mem_revokedFile

/-- The revoked ids have no part in adding records. -/
theorem foldlM_withAdded_revoked (revoked : List ClientId) : ∀ {clients : List ClientRecord} {s t : DbState},
    clients.foldlM withAdded s = .ok t → clients.foldlM withAdded { s with revoked } = .ok { t with revoked }
  | [], s, t, h => by
    cases h
    rfl
  | record :: clients, s, t, h => by
    rw [List.foldlM_cons] at h ⊢
    cases hm : s.withAdded record with
    | error e =>
      rw [hm] at h
      cases h
    | ok m =>
      rw [hm] at h
      obtain ⟨hid, hkey, rfl⟩ := withAdded_eq_ok hm
      have hadded : withAdded { s with revoked } record = .ok { s.inserted record with revoked } := by
        unfold withAdded checkNewRecord
        rw [if_neg hid, if_neg hkey]
        rfl
      rw [hadded]
      exact foldlM_withAdded_revoked revoked h

/-- The records of a file, beside another list of revoked ids. -/
theorem fromFiles_revokedFile {clients : List ClientRecord} {ids : List ClientId} (ht : fromFiles clients ids = .ok t)
    (hsame : t.Same s) {revoked : List ClientId} :
    ∃ t', fromFiles clients { s with revoked }.revokedFile = .ok t' ∧ t'.Same { s with revoked } := by
  refine ⟨_, foldlM_withAdded_revoked _ ht, hsame.byId, hsame.byPublic, fun id => ?_⟩
  rw [mem_collectIds]
  exact mem_revokedFile

end DbState

/-! ## Calls -/

/-- A `ClientDb` behind `open`. -/
structure ClientDb where
  memory : DbState
  revocations : Watch (List ClientId)
  /-- The receivers of the watch; without one a send stores nothing. -/
  receivers : Nat := 0

/-- The files, and the database that a process has open. -/
structure ClientStore (Text : Type) where
  clientsText : Option Text
  revokedText : Option Text
  db : Option ClientDb := none

/-- A call, with the outcomes of its reads and writes. -/
inductive ClientStoreCall
  | openDb (clientsWritten revokedWritten readable : Bool)
  | add (record : ClientRecord) (written : Bool)
  | addOrLookupByPublic (record : ClientRecord) (written : Bool)
  | revoke (clientId : ClientId) (written : Bool)
  | watchRevocations
  | dropReceiver

namespace ClientStore

variable {Text : Type} (files : DbFiles Text)

/-- `write_json`. -/
def writeClients (s : ClientStore Text) (clients : List ClientRecord) (written : Bool) :
    Except DaemonError (ClientStore Text) :=
  if written then .ok { s with clientsText := some (files.clients.render clients) } else .error .io

def writeRevoked (s : ClientStore Text) (revoked : List ClientId) (written : Bool) :
    Except DaemonError (ClientStore Text) :=
  if written then .ok { s with revokedText := some (files.revoked.render revoked) } else .error .io

/-- `read_json` of a file that is there. -/
def readJson {α : Type} (file : JsonFile Text α) (text : Option Text) (readable : Bool) : Except DaemonError α :=
  match text with
  | some text =>
    if readable then
      match file.parse text with
      | some value => .ok value
      | none => .error (.clientDb "")
    else .error .io
  | none => .error .io

/-- `ensure_file`, for both files; what has been written stays, also when the second fails. -/
def ensureFiles (s : ClientStore Text) (clientsWritten revokedWritten : Bool) :
    ClientStore Text × Except DaemonError Unit :=
  match if s.clientsText.isSome then .ok s else s.writeClients files [] clientsWritten with
  | .error e => (s, .error e)
  | .ok s =>
    match if s.revokedText.isSome then .ok s else s.writeRevoked files [] revokedWritten with
    | .error e => (s, .error e)
    | .ok s => (s, .ok ())

/-- What the files say. -/
def readState (s : ClientStore Text) (readable : Bool) : Except DaemonError DbState := do
  let clients ← readJson files.clients s.clientsText readable
  let revoked ← readJson files.revoked s.revokedText readable
  DbState.fromFiles clients revoked

def openDb (s : ClientStore Text) (clientsWritten revokedWritten readable : Bool) :
    ClientStore Text × Except DaemonError (Option ClientRecord) :=
  match s.ensureFiles files clientsWritten revokedWritten with
  | (s, .error e) => (s, .error e)
  | (s, .ok ()) =>
    match s.readState files readable with
    | .error e => (s, .error e)
    | .ok memory => ({ s with db := some { memory, revocations := { value := memory.revoked } } }, .ok none)

/-- `with_added`, the file, and then the memory. -/
def add (s : ClientStore Text) (db : ClientDb) (record : ClientRecord) (written : Bool) :
    ClientStore Text × Except DaemonError (Option ClientRecord) :=
  match db.memory.withAdded record with
  | .error e => (s, .error e)
  | .ok next =>
    match s.writeClients files next.clientsFile written with
    | .error e => (s, .error e)
    | .ok s => ({ s with db := some { db with memory := next } }, .ok none)

def addOrLookupByPublic (s : ClientStore Text) (db : ClientDb) (record : ClientRecord) (written : Bool) :
    ClientStore Text × Except DaemonError (Option ClientRecord) :=
  match db.memory.lookupByPublic record.publicKey with
  | some existing => (s, .ok (some existing))
  | none =>
    match s.add files db record written with
    | (s, .ok _) => (s, .ok (some record))
    | (s, .error e) => (s, .error e)

/-- `revocations_tx.send`. -/
def announce (db : ClientDb) (revoked : List ClientId) : Watch (List ClientId) :=
  db.revocations.announce db.receivers revoked

def revoke (s : ClientStore Text) (db : ClientDb) (clientId : ClientId) (written : Bool) :
    ClientStore Text × Except DaemonError (Option ClientRecord) :=
  match db.memory.withRevoked clientId with
  | none => (s, .ok none)
  | some next =>
    match s.writeRevoked files next.revokedFile written with
    | .error e => (s, .error e)
    | .ok s => ({ s with db := some { db with memory := next, revocations := announce db next.revoked } }, .ok none)

/-- A call, and what it returns. -/
def call (s : ClientStore Text) : ClientStoreCall → Option (ClientStore Text × Except DaemonError (Option ClientRecord))
  | .openDb clientsWritten revokedWritten readable => some (s.openDb files clientsWritten revokedWritten readable)
  | .add record written => s.db.map fun db => s.add files db record written
  | .addOrLookupByPublic record written => s.db.map fun db => s.addOrLookupByPublic files db record written
  | .revoke clientId written => s.db.map fun db => s.revoke files db clientId written
  | .watchRevocations => s.db.map fun db => ({ s with db := some { db with receivers := db.receivers + 1 } }, .ok none)
  | .dropReceiver => s.db.bind fun db =>
    if db.receivers = 0 then none else some ({ s with db := some { db with receivers := db.receivers - 1 } }, .ok none)

def step (s : ClientStore Text) (c : ClientStoreCall) : Option (ClientStore Text) := (s.call files c).map Prod.fst

/-! ## What has to hold -/

/-- `State::from_files` of the two files is the state in memory. -/
def Agrees (s : ClientStore Text) (db : ClientDb) : Prop := ∃ t, s.readState files true = .ok t ∧ t.Same db.memory

/-- What holds of a call: an error leaves memory and watch; behind a success the files say what is in memory; and a key
that is known gets no second record. -/
structure Atomic (s : ClientStore Text) (c : ClientStoreCall) (t : ClientStore Text)
    (result : Except DaemonError (Option ClientRecord)) : Prop where
  failed : ∀ e, result = .error e → t.db = s.db
  succeeded : ∀ record, result = .ok record → ∃ db, t.db = some db ∧ t.Agrees files db
  known : ∀ db record written existing, s.db = some db → c = .addOrLookupByPublic record written →
    db.memory.byId.lookup existing.clientId = some existing → existing.publicKey = record.publicKey →
      t = s ∧ result = .ok (some existing)

/-- The maps are inverse, and the files say what is in memory. -/
def Sound (s : ClientStore Text) : Prop := ∀ db, s.db = some db → db.memory.Paired ∧ s.Agrees files db

/-! ## Each call -/

variable {files} {s t : ClientStore Text} {db : ClientDb}

theorem readJson_eq_ok {α : Type} {file : JsonFile Text α} {text : Option Text} {value : α} :
    readJson file text true = .ok value ↔ ∃ x, text = some x ∧ file.parse x = some value := by
  unfold readJson
  cases text with
  | none => simp
  | some x => cases hparse : file.parse x <;> simp [hparse]

theorem readState_eq_ok {state : DbState} : s.readState files true = .ok state ↔ ∃ clients revoked,
    readJson files.clients s.clientsText true = .ok clients ∧ readJson files.revoked s.revokedText true = .ok revoked ∧
      DbState.fromFiles clients revoked = .ok state := by
  unfold readState
  constructor
  · intro h
    cases hclients : readJson files.clients s.clientsText true with
    | error e =>
      rw [hclients] at h
      cases h
    | ok clients =>
      rw [hclients] at h
      cases hrevoked : readJson files.revoked s.revokedText true with
      | error e =>
        rw [hrevoked] at h
        cases h
      | ok revoked =>
        rw [hrevoked] at h
        exact ⟨clients, revoked, rfl, rfl, h⟩
  · rintro ⟨clients, revoked, hclients, hrevoked, h⟩
    rw [hclients, hrevoked]
    exact h

theorem readJson_render {α : Type} (file : JsonFile Text α) (value : α) :
    readJson file (some (file.render value)) true = .ok value := readJson_eq_ok.mpr ⟨_, rfl, file.parse_render value⟩

/-- What can be read is there, and can be read. -/
theorem readJson_of_readable {α : Type} {file : JsonFile Text α} {text : Option Text} {readable : Bool} {value : α}
    (h : readJson file text readable = .ok value) : readJson file text true = .ok value := by
  cases readable with
  | true => exact h
  | false =>
    cases text with
    | none => cases h
    | some x => cases h

theorem readState_of_readable {readable : Bool} {state : DbState} (h : s.readState files readable = .ok state) :
    s.readState files true = .ok state := by
  unfold readState at h
  cases hclients : readJson files.clients s.clientsText readable with
  | error e =>
    rw [hclients] at h
    cases h
  | ok clients =>
    rw [hclients] at h
    cases hrevoked : readJson files.revoked s.revokedText readable with
    | error e =>
      rw [hrevoked] at h
      cases h
    | ok revoked =>
      rw [hrevoked] at h
      exact readState_eq_ok.mpr
        ⟨clients, revoked, readJson_of_readable hclients, readJson_of_readable hrevoked, h⟩

/-- `ensure_file` writes only a file that is missing. -/
theorem ensureFiles_of_agrees (h : s.Agrees files db) (clientsWritten revokedWritten : Bool) :
    s.ensureFiles files clientsWritten revokedWritten = (s, .ok ()) := by
  obtain ⟨t, ht, _⟩ := h
  obtain ⟨_, _, hclients, hrevoked, _⟩ := readState_eq_ok.mp ht
  obtain ⟨_, hclients, _⟩ := readJson_eq_ok.mp hclients
  obtain ⟨_, hrevoked, _⟩ := readJson_eq_ok.mp hrevoked
  rcases s with ⟨clientsText, revokedText, open'⟩
  cases hclients
  cases hrevoked
  rfl

theorem ensureFiles_db (s : ClientStore Text) (clientsWritten revokedWritten : Bool) :
    (s.ensureFiles files clientsWritten revokedWritten).1.db = s.db := by
  rcases s with ⟨clientsText, revokedText, open'⟩
  cases clientsText <;> cases revokedText <;> cases clientsWritten <;> cases revokedWritten <;> rfl

/-- What `add` does. -/
theorem add_cases (s : ClientStore Text) (db : ClientDb) (record : ClientRecord) (written : Bool) :
    (∃ e, s.add files db record written = (s, .error e)) ∨
      ∃ next, db.memory.withAdded record = .ok next ∧ s.add files db record written =
        ({ s with clientsText := some (files.clients.render next.clientsFile), db := some { db with memory := next } },
          .ok none) := by
  unfold add writeClients
  cases hnext : db.memory.withAdded record with
  | error e => exact .inl ⟨e, rfl⟩
  | ok next =>
    cases written with
    | false => exact .inl ⟨.io, rfl⟩
    | true => exact .inr ⟨next, rfl, rfl⟩

/-- What `revoke` does. -/
theorem revoke_cases (s : ClientStore Text) (db : ClientDb) (clientId : ClientId) (written : Bool) :
    (∃ e, s.revoke files db clientId written = (s, .error e)) ∨ s.revoke files db clientId written = (s, .ok none) ∨
      ∃ next, db.memory.withRevoked clientId = some next ∧ s.revoke files db clientId written =
        ({ s with
            revokedText := some (files.revoked.render next.revokedFile)
            db := some { db with memory := next, revocations := announce db next.revoked } }, .ok none) := by
  unfold revoke writeRevoked
  cases hnext : db.memory.withRevoked clientId with
  | none => exact .inr (.inl rfl)
  | some next =>
    cases written with
    | false => exact .inl ⟨.io, rfl⟩
    | true => exact .inr (.inr ⟨next, rfl, rfl⟩)

/-- A record that is added is in its file, and nothing else in the files changes. -/
theorem agrees_added {record : ClientRecord} {next : DbState} (hpaired : db.memory.Paired) (h : s.Agrees files db)
    (hnext : db.memory.withAdded record = .ok next) :
    Agrees files { s with
      clientsText := some (files.clients.render next.clientsFile), db := some { db with memory := next } }
      { db with memory := next } := by
  obtain ⟨state, hstate, hsame⟩ := h
  obtain ⟨clients, revoked, _, hrevoked, hfiles⟩ := readState_eq_ok.mp hstate
  obtain ⟨_, _, rfl⟩ := DbState.withAdded_eq_ok hnext
  obtain ⟨_, _, hids⟩ := DbState.fromFiles_eq_ok hfiles
  have hknown : ∀ id, id ∈ revoked ↔ id ∈ (db.memory.inserted record).revoked :=
    fun id => (hids id).symm.trans (hsame.revoked id)
  obtain ⟨t, ht, htsame⟩ := DbState.fromFiles_clientsFile (hpaired.withAdded hnext) hknown
  exact ⟨t, readState_eq_ok.mpr ⟨_, revoked, readJson_render _ _, hrevoked, ht⟩, htsame⟩

/-- An id that is revoked is in its file, and nothing else in the files changes. -/
theorem agrees_revoked {clientId : ClientId} {next : DbState} {revocations : Watch (List ClientId)}
    (h : s.Agrees files db) (hnext : db.memory.withRevoked clientId = some next) :
    Agrees files { s with
      revokedText := some (files.revoked.render next.revokedFile)
      db := some { db with memory := next, revocations } } { db with memory := next, revocations } := by
  obtain ⟨state, hstate, hsame⟩ := h
  obtain ⟨clients, revoked, hclients, _, hfiles⟩ := readState_eq_ok.mp hstate
  obtain ⟨_, rfl⟩ := DbState.withRevoked_eq_some hnext
  obtain ⟨t, ht, htsame⟩ := DbState.fromFiles_revokedFile hfiles hsame
  exact ⟨t, readState_eq_ok.mpr ⟨clients, _, hclients, readJson_render _ _, ht⟩, htsame⟩

/-- Files that say another database's memory say the same memory of this one. -/
theorem Agrees.of_memory {db' : ClientDb} (h : s.Agrees files db) (hmemory : db'.memory = db.memory)
    (hclients : t.clientsText = s.clientsText) (hrevoked : t.revokedText = s.revokedText) : t.Agrees files db' := by
  obtain ⟨state, hstate, hsame⟩ := h
  refine ⟨state, ?_, ?_⟩
  · unfold readState at hstate ⊢
    rw [hclients, hrevoked]
    exact hstate
  · rw [hmemory]
    exact hsame

theorem sound_of_db (hdb : t.db = some db) (hpaired : db.memory.Paired) (h : t.Agrees files db) : t.Sound files := by
  intro db' hdb'
  cases hdb.symm.trans hdb'
  exact ⟨hpaired, h⟩

/-! ## Runs -/

/-- A call that ends in a state whose files say its memory. -/
structure Settles (s t : ClientStore Text) (result : Except DaemonError (Option ClientRecord)) : Prop where
  sound : t.Sound files
  failed : ∀ e, result = .error e → t.db = s.db
  succeeded : ∀ record, result = .ok record → ∃ db, t.db = some db

theorem Settles.of_error (h : s.Sound files) (e : DaemonError) : @Settles _ files s s (.error e) where
  sound := h
  failed _ _ := rfl
  succeeded _ h := by cases h

theorem Settles.of_ok (h : s.Sound files) (hdb : s.db = some db) (record : Option ClientRecord) :
    @Settles _ files s s (.ok record) where
  sound := h
  failed _ h := by cases h
  succeeded _ _ := ⟨db, hdb⟩

theorem ensureFiles_sound (h : s.Sound files) (clientsWritten revokedWritten : Bool) :
    (s.ensureFiles files clientsWritten revokedWritten).1.Sound files := by
  cases hdb : s.db with
  | none =>
    intro db hsome
    rw [ensureFiles_db, hdb] at hsome
    cases hsome
  | some db =>
    rw [ensureFiles_of_agrees (h db hdb).2]
    exact h

theorem openDb_settles (h : s.Sound files) (clientsWritten revokedWritten readable : Bool) :
    @Settles _ files s (s.openDb files clientsWritten revokedWritten readable).1
      (s.openDb files clientsWritten revokedWritten readable).2 := by
  have hdb := @ensureFiles_db _ files s clientsWritten revokedWritten
  have hsound := ensureFiles_sound h clientsWritten revokedWritten
  unfold openDb
  rcases hensured : s.ensureFiles files clientsWritten revokedWritten with ⟨s', ensured⟩
  rw [hensured] at hdb hsound
  cases ensured with
  | error e => exact ⟨hsound, fun _ _ => hdb, fun _ h => (nomatch h)⟩
  | ok _ =>
    simp only
    cases hread : s'.readState files readable with
    | error e => exact ⟨hsound, fun _ _ => hdb, fun _ h => (nomatch h)⟩
    | ok memory =>
      have htrue := readState_of_readable hread
      obtain ⟨_, _, _, _, hfiles⟩ := readState_eq_ok.mp htrue
      refine ⟨sound_of_db rfl (DbState.paired_fromFiles hfiles) ?_, fun _ h => (nomatch h), fun _ _ => ⟨_, rfl⟩⟩
      exact ⟨memory, htrue, fun _ => rfl, fun _ => rfl, fun _ => Iff.rfl⟩

theorem add_settles (h : s.Sound files) (hdb : s.db = some db) (record : ClientRecord) (written : Bool) :
    @Settles _ files s (s.add files db record written).1 (s.add files db record written).2 := by
  obtain ⟨hpaired, hagrees⟩ := h db hdb
  rcases @add_cases _ files s db record written with ⟨e, heq⟩ | ⟨next, hnext, heq⟩
  · rw [heq]
    exact Settles.of_error h e
  · rw [heq]
    exact ⟨sound_of_db rfl (hpaired.withAdded hnext) (agrees_added hpaired hagrees hnext), fun _ h => (nomatch h),
      fun _ _ => ⟨_, rfl⟩⟩

theorem addOrLookupByPublic_settles (h : s.Sound files) (hdb : s.db = some db) (record : ClientRecord)
    (written : Bool) : @Settles _ files s (s.addOrLookupByPublic files db record written).1
      (s.addOrLookupByPublic files db record written).2 := by
  unfold addOrLookupByPublic
  cases db.memory.lookupByPublic record.publicKey with
  | some existing => exact Settles.of_ok h hdb (some existing)
  | none =>
    have hadd := add_settles h hdb record written
    rcases heq : s.add files db record written with ⟨t, result⟩
    rw [heq] at hadd
    cases result with
    | error e => exact hadd
    | ok _ => exact ⟨hadd.sound, fun _ h => (nomatch h), fun _ _ => hadd.succeeded _ rfl⟩

theorem revoke_settles (h : s.Sound files) (hdb : s.db = some db) (clientId : ClientId) (written : Bool) :
    @Settles _ files s (s.revoke files db clientId written).1 (s.revoke files db clientId written).2 := by
  obtain ⟨hpaired, hagrees⟩ := h db hdb
  rcases @revoke_cases _ files s db clientId written with ⟨e, heq⟩ | heq | ⟨next, hnext, heq⟩
  · rw [heq]
    exact Settles.of_error h e
  · rw [heq]
    exact Settles.of_ok h hdb none
  · rw [heq]
    exact ⟨sound_of_db rfl (hpaired.withRevoked hnext) (agrees_revoked hagrees hnext), fun _ h => (nomatch h),
      fun _ _ => ⟨_, rfl⟩⟩

/-- Watching changes neither the files nor the memory. -/
theorem receivers_settles (h : s.Sound files) (hdb : s.db = some db) (receivers : Nat) :
    @Settles _ files s { s with db := some { db with receivers } } (.ok none) := by
  obtain ⟨hpaired, hagrees⟩ := h db hdb
  exact ⟨sound_of_db rfl hpaired (hagrees.of_memory rfl rfl rfl), fun _ h => (nomatch h), fun _ _ => ⟨_, rfl⟩⟩

theorem call_settles {c : ClientStoreCall} {result : Except DaemonError (Option ClientRecord)} (h : s.Sound files)
    (hc : s.call files c = some (t, result)) : @Settles _ files s t result := by
  cases c with
  | openDb clientsWritten revokedWritten readable =>
    have hsettles := openDb_settles h clientsWritten revokedWritten readable
    rw [Option.some.inj hc] at hsettles
    exact hsettles
  | add record written =>
    obtain ⟨db, hdb, heq⟩ := Option.map_eq_some_iff.mp hc
    have hsettles := add_settles h hdb record written
    rw [heq] at hsettles
    exact hsettles
  | addOrLookupByPublic record written =>
    obtain ⟨db, hdb, heq⟩ := Option.map_eq_some_iff.mp hc
    have hsettles := addOrLookupByPublic_settles h hdb record written
    rw [heq] at hsettles
    exact hsettles
  | revoke clientId written =>
    obtain ⟨db, hdb, heq⟩ := Option.map_eq_some_iff.mp hc
    have hsettles := revoke_settles h hdb clientId written
    rw [heq] at hsettles
    exact hsettles
  | watchRevocations =>
    obtain ⟨db, hdb, heq⟩ := Option.map_eq_some_iff.mp hc
    cases heq
    exact receivers_settles h hdb _
  | dropReceiver =>
    obtain ⟨db, hdb, heq⟩ := Option.bind_eq_some_iff.mp hc
    split_ifs at heq
    cases heq
    exact receivers_settles h hdb _

/-- A call on a sound database is atomic. -/
theorem call_atomic {c : ClientStoreCall} {result : Except DaemonError (Option ClientRecord)} (h : s.Sound files)
    (hc : s.call files c = some (t, result)) : Atomic files s c t result := by
  have hsettles := call_settles h hc
  refine ⟨hsettles.failed, fun record hok => ?_, ?_⟩
  · obtain ⟨db, hdb⟩ := hsettles.succeeded record hok
    exact ⟨db, hdb, (hsettles.sound db hdb).2⟩
  · rintro db record written existing hdb rfl hexisting hkey
    have hlookup := (h db hdb).1.lookupByPublic.mpr ⟨hexisting, hkey⟩
    simp only [call, hdb, Option.map_some, Option.some.injEq] at hc
    unfold addOrLookupByPublic at hc
    rw [hlookup] at hc
    cases hc
    exact ⟨rfl, rfl⟩

theorem step_sound (s : ClientStore Text) (c : ClientStoreCall) (t : ClientStore Text) (h : s.Sound files)
    (hs : s.step files c = some t) : t.Sound files := by
  obtain ⟨⟨t', result⟩, hc, rfl⟩ := Option.map_eq_some_iff.mp hs
  exact (call_settles h hc).sound

/-- Open, pair, revoke, fail to pair another client, and pair the first one once more. -/
def sampleCalls : List ClientStoreCall :=
  [.openDb true true true, .add (sampleRecord 1) true, .revoke ⟨.splat 1⟩ true, .add (sampleRecord 2) false]

end ClientStore

end CliPocket
