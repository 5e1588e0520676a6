import CliPocket.Client.Session
import CliPocket.Lib.Base64
import CliPocket.Lib.PrettyJson
import CliPocket.Lib.Utf8
import CliPocket.Lib.Wire
import Std.Data.ExtTreeMap

/-!
# The store of a native client

`FileKvStore`: a map in memory, and `store.json` with the whole map in it, which every update writes anew. Memory is
changed before the file is written.

- `FileKvStore.together_iff`: when memory and file go on together over one call;
- `keeps_together_iff`: **exactly when they do over a run**.
-/

namespace CliPocket

/-- `mem`. -/
abbrev KvMap := Std.ExtTreeMap String (List UInt8)

/-- `Disk`: keys and values in base64. -/
abbrev Disk := Std.ExtTreeMap String String

/-- JSON of `Disk`, and back. -/
structure DiskJson (Text : Type) where
  render : Disk → Text
  parse : Text → Except String Disk
  parse_render : ∀ disk, parse (render disk) = .ok disk

def encodeValue (value : List UInt8) : String := String.ofList (Base64.encode value)

def decodeValue (value : String) : Option (List UInt8) := Base64.decode value.toList

/-- `decode(v).unwrap_or_default()`, for each entry. -/
def Disk.toMap (disk : Disk) : KvMap := disk.map fun _ value => (decodeValue value).getD []

def KvMap.toDisk (mem : KvMap) : Disk := mem.map fun _ value => encodeValue value

/-- Where a flush ends. -/
inductive Flush
  | done
  | notSerialized (error : String)
  | notWritten (error : String)
  | notRenamed (error : String)
  deriving DecidableEq

def Flush.result : Flush → Except ClientError Unit
  | .done => .ok ()
  | .notSerialized e => .error (.identity ("serialize store: " ++ e))
  | .notWritten e => .error (.identity ("write store.tmp: " ++ e))
  | .notRenamed e => .error (.identity ("rename store.tmp: " ++ e))

structure FileKvStore (Text : Type) where
  file : Option Text
  mem : KvMap

inductive KvCall
  | put (key : String) (value : List UInt8) (flush : Flush)
  | delete (key : String) (flush : Flush)
  | get (key : String)

namespace FileKvStore

variable {Text : Type} (json : DiskJson Text)

/-- `open_at`, with what creating the directory and reading the file end with. -/
def openAt (file : Option Text) (created read : Except String Unit) : Except ClientError (FileKvStore Text) := do
  created.mapError fun e => .identity ("create_dir_all: " ++ e)
  match file with
  | none => .ok { file, mem := ∅ }
  | some text => do
    read.mapError fun e => .identity ("read store.json: " ++ e)
    let disk ← (json.parse text).mapError fun e => .identity ("parse store.json: " ++ e)
    .ok { file, mem := disk.toMap }

/-- `flush`: a temporary file, and then its name. -/
def flush (s : FileKvStore Text) (outcome : Flush) : FileKvStore Text × Except ClientError Unit :=
  match outcome with
  | .done => ({ s with file := some (json.render s.mem.toDisk) }, .ok ())
  | outcome => (s, outcome.result)

def get (s : FileKvStore Text) (key : String) : Option (List UInt8) := s.mem[key]?

def put (s : FileKvStore Text) (key : String) (value : List UInt8) (outcome : Flush) :
    FileKvStore Text × Except ClientError Unit :=
  flush json { s with mem := s.mem.insert key value } outcome

def delete (s : FileKvStore Text) (key : String) (outcome : Flush) : FileKvStore Text × Except ClientError Unit :=
  flush json { s with mem := s.mem.erase key } outcome

/-- The store behind a call. -/
def after (s : FileKvStore Text) : KvCall → FileKvStore Text
  | .put key value outcome => (s.put json key value outcome).1
  | .delete key outcome => (s.delete json key outcome).1
  | .get _ => s

/-- The store behind some calls. -/
def afterAll (s : FileKvStore Text) (calls : List KvCall) : FileKvStore Text := calls.foldl (after json) s

end FileKvStore

/-! ## What has to hold -/

/-- What a call is to change: nothing, if it returns an error. -/
def KvCall.applied (mem : KvMap) : KvCall → KvMap
  | .put key value .done => mem.insert key value
  | .delete key .done => mem.erase key
  | _ => mem

def KvCall.appliedAll (mem : KvMap) (calls : List KvCall) : KvMap := calls.foldl KvCall.applied mem

namespace FileKvStore

variable {Text : Type} (json : DiskJson Text)

/-- What a store holds that is opened again. -/
def reopened (s : FileKvStore Text) : Except ClientError KvMap := do
  let s ← openAt json s.file (.ok ()) (.ok ())
  .ok s.mem

/-- An entry whose base64 is malformed is left out when the file is opened. -/
def DropsMalformed (file : Option Text) : Prop :=
  ∀ (text : Text) (disk : Disk) (mem : KvMap), file = some text → json.parse text = .ok disk →
    reopened json { file, mem := ∅ } = .ok mem → ∀ (key value : String), disk[key]? = some value →
      decodeValue value = none → mem[key]? = none

/-- Memory and file both hold what the calls that have succeeded have put there. -/
structure Together (s : FileKvStore Text) (mem : KvMap) : Prop where
  memory : ∀ key, s.get key = mem[key]?
  disk : reopened json s = .ok mem
  malformed : DropsMalformed json s.file

/-- So it is behind any calls on a store that has held `mem`. -/
def KeepsTogether (s : FileKvStore Text) (mem : KvMap) (calls : List KvCall) : Prop :=
  ∀ first rest, calls = first ++ rest → Together json (s.afterAll json first) (KvCall.appliedAll mem first)

/-- A call whose flush fails has nothing to change. -/
def Settles (mem : KvMap) : KvCall → Prop
  | .put key value outcome => outcome = .done ∨ mem[key]? = some value
  | .delete key outcome => outcome = .done ∨ mem[key]? = none
  | .get _ => True

/-- So it is with each of some calls. -/
def SettlesAll : KvMap → List KvCall → Prop
  | _, [] => True
  | mem, c :: calls => Settles mem c ∧ SettlesAll (c.applied mem) calls

/-- Every value in the file is base64. -/
def WellEncoded (file : Option Text) : Prop :=
  ∀ (text : Text) (disk : Disk), file = some text → json.parse text = .ok disk →
    ∀ (key value : String), disk[key]? = some value → decodeValue value ≠ none

end FileKvStore

/-! ## Maps and their files -/

theorem decodeValue_encodeValue (value : List UInt8) : decodeValue (encodeValue value) = some value := by
  unfold decodeValue encodeValue
  rw [String.toList_ofList, Base64.decode_encode]

theorem KvMap.getElem?_toDisk (mem : KvMap) (key : String) : mem.toDisk[key]? = mem[key]?.map encodeValue := by
  unfold KvMap.toDisk
  rw [Std.ExtTreeMap.getElem?_map]

theorem Disk.getElem?_toMap (disk : Disk) (key : String) :
    disk.toMap[key]? = disk[key]?.map fun value => (decodeValue value).getD [] := by
  unfold Disk.toMap
  rw [Std.ExtTreeMap.getElem?_map]

/-- A map can be read from its file. -/
theorem toMap_toDisk (mem : KvMap) : mem.toDisk.toMap = mem := by
  refine Std.ExtTreeMap.ext_getElem? fun key => ?_
  rw [Disk.getElem?_toMap, KvMap.getElem?_toDisk]
  cases mem[key]? with
  | none => rfl
  | some value => simp [decodeValue_encodeValue]

theorem insert_of_getElem? {mem : KvMap} {key : String} {value : List UInt8} (h : mem[key]? = some value) :
    mem.insert key value = mem := by
  refine Std.ExtTreeMap.ext_getElem? fun k => ?_
  rw [Std.ExtTreeMap.getElem?_insert]
  split
  · next heq =>
    rw [← Std.LawfulEqCmp.compare_eq_iff_eq.mp heq, h]
  · rfl

theorem erase_of_getElem? {mem : KvMap} {key : String} (h : mem[key]? = none) : mem.erase key = mem := by
  refine Std.ExtTreeMap.ext_getElem? fun k => ?_
  rw [Std.ExtTreeMap.getElem?_erase]
  split
  · next heq =>
    rw [← Std.LawfulEqCmp.compare_eq_iff_eq.mp heq, h]
  · rfl

namespace FileKvStore

variable {Text : Type} {json : DiskJson Text} {s : FileKvStore Text} {mem : KvMap} {c : KvCall}

/-! ## One call -/

/-- The file that a flush writes. -/
theorem reopened_rendered (mem mem' : KvMap) :
    reopened json { file := some (json.render mem.toDisk), mem := mem' } = .ok mem := by
  unfold reopened openAt
  simp only [Except.mapError, json.parse_render]
  show Except.ok mem.toDisk.toMap = _
  rw [toMap_toDisk]

theorem dropsMalformed_rendered (mem : KvMap) : DropsMalformed json (some (json.render mem.toDisk)) := by
  rintro text disk mem' htext hparse _ key value hvalue hmalformed
  cases htext
  rw [json.parse_render] at hparse
  cases hparse
  rw [KvMap.getElem?_toDisk] at hvalue
  obtain ⟨v, _, rfl⟩ := Option.map_eq_some_iff.mp hvalue
  rw [decodeValue_encodeValue] at hmalformed
  cases hmalformed

/-- A flush that succeeds brings the file up to memory. -/
theorem together_flushed (file : Option Text) (mem : KvMap) :
    Together json (flush json { file, mem } .done).1 mem where
  memory _ := rfl
  disk := reopened_rendered mem mem
  malformed := dropsMalformed_rendered mem

theorem flush_failed {outcome : Flush} (h : outcome ≠ .done) (s : FileKvStore Text) : (s.flush json outcome).1 = s := by
  cases outcome with
  | done => exact absurd rfl h
  | notSerialized | notWritten | notRenamed => rfl

theorem Together.mem_eq (h : Together json s mem) : s.mem = mem := Std.ExtTreeMap.ext_getElem? h.memory

/-- A call whose flush fails is to change nothing. -/
theorem applied_put_failed {outcome : Flush} (h : outcome ≠ .done) (key : String) (value : List UInt8) :
    KvCall.applied mem (.put key value outcome) = mem := by
  cases outcome with
  | done => exact absurd rfl h
  | notSerialized | notWritten | notRenamed => rfl

theorem applied_delete_failed {outcome : Flush} (h : outcome ≠ .done) (key : String) :
    KvCall.applied mem (.delete key outcome) = mem := by
  cases outcome with
  | done => exact absurd rfl h
  | notSerialized | notWritten | notRenamed => rfl

/-- **One call**: memory and file go on together exactly if a flush that fails has had nothing to do. -/
theorem together_iff (h : Together json s mem) (c : KvCall) :
    Together json (s.after json c) (c.applied mem) ↔ Settles mem c := by
  have hmem := h.mem_eq
  subst hmem
  cases c with
  | put key value outcome =>
    by_cases hdone : outcome = .done
    · subst hdone
      exact iff_of_true (together_flushed s.file (s.mem.insert key value)) (.inl rfl)
    · have hafter : s.after json (.put key value outcome) = { s with mem := s.mem.insert key value } :=
        flush_failed hdone _
      rw [hafter, applied_put_failed hdone]
      constructor
      · intro htogether
        have hget : (s.mem.insert key value)[key]? = s.mem[key]? := htogether.memory key
        rw [Std.ExtTreeMap.getElem?_insert_self] at hget
        exact .inr hget.symm
      · rintro (hdone' | hsame)
        · exact absurd hdone' hdone
        · rw [insert_of_getElem? hsame]
          exact h
  | delete key outcome =>
    by_cases hdone : outcome = .done
    · subst hdone
      exact iff_of_true (together_flushed s.file (s.mem.erase key)) (.inl rfl)
    · have hafter : s.after json (.delete key outcome) = { s with mem := s.mem.erase key } := flush_failed hdone _
      rw [hafter, applied_delete_failed hdone]
      constructor
      · intro htogether
        have hget : (s.mem.erase key)[key]? = s.mem[key]? := htogether.memory key
        rw [Std.ExtTreeMap.getElem?_erase_self] at hget
        exact .inr hget.symm
      · rintro (hdone' | hsame)
        · exact absurd hdone' hdone
        · rw [erase_of_getElem? hsame]
          exact h
  | get key => exact iff_of_true h trivial

/-! ## Runs -/

theorem keepsTogether_nil : KeepsTogether json s mem [] ↔ Together json s mem := by
  constructor
  · intro h
    exact h [] [] rfl
  · intro h first rest heq
    rw [(List.append_eq_nil_iff.mp heq.symm).1]
    exact h

theorem keepsTogether_cons {calls : List KvCall} : KeepsTogether json s mem (c :: calls) ↔
    Together json s mem ∧ KeepsTogether json (s.after json c) (c.applied mem) calls := by
  constructor
  · intro h
    exact ⟨h [] _ rfl, fun first rest heq => h (c :: first) rest (congrArg (c :: ·) heq)⟩
  · rintro ⟨h, hrest⟩ first rest heq
    cases first with
    | nil => exact h
    | cons d first =>
      cases heq
      exact hrest first rest rfl

/-- Calls on a store whose memory and file are together. -/
theorem keepsTogether_iff_settlesAll : ∀ {calls : List KvCall} {s : FileKvStore Text} {mem : KvMap},
    Together json s mem → (KeepsTogether json s mem calls ↔ SettlesAll mem calls)
  | [], _, _, h => by
    rw [keepsTogether_nil]
    exact iff_of_true h trivial
  | c :: calls, s, mem, h => by
    rw [keepsTogether_cons, SettlesAll, ← together_iff h c]
    constructor
    · rintro ⟨_, hrest⟩
      have hnext : Together json (s.after json c) (c.applied mem) := hrest [] _ rfl
      exact ⟨hnext, (keepsTogether_iff_settlesAll hnext).mp hrest⟩
    · rintro ⟨hnext, hrest⟩
      exact ⟨h, (keepsTogether_iff_settlesAll hnext).mpr hrest⟩

/-- A store that has been opened holds what its file says. -/
theorem reopened_of_openAt {file : Option Text} {created read : Except String Unit}
    (h : openAt json file created read = .ok s) : s.file = file ∧ reopened json { file, mem := ∅ } = .ok s.mem := by
  obtain ⟨_, _, hfile⟩ := Wire.bind_eq_ok.mp h
  cases file with
  | none =>
    cases hfile
    exact ⟨rfl, rfl⟩
  | some text =>
    obtain ⟨_, _, hread⟩ := Wire.bind_eq_ok.mp hfile
    obtain ⟨disk, hparse, hstore⟩ := Wire.bind_eq_ok.mp hread
    cases hstore
    refine ⟨rfl, ?_⟩
    unfold reopened openAt
    simp only [Except.mapError, Wire.mapError_eq_ok.mp hparse]
    rfl

/-- An entry that is not base64 is opened as an empty value. -/
theorem dropsMalformed_iff {file : Option Text} (h : reopened json { file, mem := ∅ } = .ok mem) :
    DropsMalformed json file ↔ WellEncoded json file := by
  constructor
  · intro hdrops text disk hfile hparse key value hvalue hmalformed
    have hnone := hdrops text disk mem hfile hparse h key value hvalue hmalformed
    have hmem : mem = disk.toMap := by
      subst hfile
      unfold reopened openAt at h
      simp only [Except.mapError, hparse] at h
      exact (Except.ok.inj h).symm
    rw [hmem, Disk.getElem?_toMap, hvalue] at hnone
    cases hnone
  · intro hencoded text disk mem' hfile hparse _ key value hvalue hmalformed
    exact absurd hmalformed (hencoded text disk hfile hparse key value hvalue)

/-- A store that has just been opened. -/
theorem together_of_openAt {file : Option Text} {created read : Except String Unit}
    (h : openAt json file created read = .ok s) : Together json s s.mem ↔ WellEncoded json file := by
  obtain ⟨hfile, hreopened⟩ := reopened_of_openAt h
  rw [← dropsMalformed_iff hreopened]
  constructor
  · intro htogether
    rw [← hfile]
    exact htogether.malformed
  · intro hdrops
    refine ⟨fun _ => rfl, ?_, ?_⟩
    · rw [← hfile] at hreopened
      exact hreopened
    · rw [hfile]
      exact hdrops

/-- **Memory and file go together over a run exactly if every value in the file that was opened is base64, and every
flush that fails has had nothing to do.** -/
theorem keeps_together_iff (json : DiskJson Text) (file : Option Text) (created read : Except String Unit)
    (calls : List KvCall) :
    (∀ s, openAt json file created read = .ok s → KeepsTogether json s s.mem calls) ↔
      ∀ s, openAt json file created read = .ok s → WellEncoded json file ∧ SettlesAll s.mem calls := by
  refine forall_congr' fun s => forall_congr' fun hopen => ?_
  constructor
  · intro hkeeps
    have hstart : Together json s s.mem := hkeeps [] calls rfl
    exact ⟨(together_of_openAt hopen).mp hstart, (keepsTogether_iff_settlesAll hstart).mp hkeeps⟩
  · rintro ⟨hencoded, hsettles⟩
    exact (keepsTogether_iff_settlesAll ((together_of_openAt hopen).mpr hencoded)).mpr hsettles

end FileKvStore

/-! ## `store.json` -/

def Disk.toValue (disk : Disk) : Json.Value :=
  .object [("entries".toList, .object (disk.toList.map fun (key, value) => (key.toList, .string value.toList)))]

def textEntry : List Char × Json.Value → Option (String × String)
  | (key, .string value) => some (String.ofList key, String.ofList value)
  | _ => none

/-- Of two entries with one key the later one counts. -/
def Disk.ofValue (value : Json.Value) : Option Disk :=
  match value.member "entries" with
  | some (.object members) => (members.mapM textEntry).map fun entries => Std.ExtTreeMap.ofList entries
  | _ => none

theorem textEntry_text (key value : String) : textEntry (key.toList, .string value.toList) = some (key, value) := by
  show some (String.ofList key.toList, String.ofList value.toList) = _
  rw [String.ofList_toList, String.ofList_toList]

theorem mapM_textEntry : ∀ entries : List (String × String),
    (entries.map fun (key, value) => (key.toList, Json.Value.string value.toList)).mapM textEntry = some entries
  | [] => rfl
  | (key, value) :: entries => by
    rw [List.map_cons, List.mapM_cons, textEntry_text, mapM_textEntry entries]
    rfl

/-- The entries of a map make it up. -/
theorem Disk.ofList_toList (disk : Disk) : (Std.ExtTreeMap.ofList disk.toList : Disk) = disk := by
  refine Std.ExtTreeMap.ext_getElem? fun key => ?_
  cases hvalue : disk[key]? with
  | some value =>
    exact Std.ExtTreeMap.getElem?_ofList_of_mem Std.ReflCmp.compare_self Std.ExtTreeMap.distinct_keys_toList
      (Std.ExtTreeMap.mem_toList_iff_getElem?_eq_some.mpr hvalue)
  | none =>
    refine Std.ExtTreeMap.getElem?_ofList_of_contains_eq_false (Bool.eq_false_iff.mpr fun hcontains => ?_)
    obtain ⟨⟨key', value⟩, hmem, rfl⟩ := List.mem_map.mp (List.contains_iff_mem.mp hcontains)
    rw [Std.ExtTreeMap.mem_toList_iff_getElem?_eq_some.mp hmem] at hvalue
    cases hvalue

theorem Disk.ofValue_toValue (disk : Disk) : Disk.ofValue disk.toValue = some disk := by
  unfold Disk.ofValue Disk.toValue
  have hmember : ∀ value, (Json.Value.object [("entries".toList, value)]).member "entries" = some value := by
    intro value
    simp [Json.Value.member]
  rw [hmember]
  dsimp only
  rw [mapM_textEntry]
  exact congrArg some (Disk.ofList_toList disk)

/-- `serde_json`, but for the texts of its errors. -/
def storeJson : DiskJson (List UInt8) where
  render disk := Utf8.encode (String.ofList (disk.toValue.pretty 0))
  parse bytes :=
    match ((Utf8.fromUtf8 bytes).bind fun text => Json.parse text.toList).bind Disk.ofValue with
    | some disk => .ok disk
    | none => .error "not a store"
  parse_render disk := by
    rw [Utf8.fromUtf8_encode, Option.bind_some, String.toList_ofList, Json.parse_pretty, Option.bind_some,
      Disk.ofValue_toValue]

def oneEntry : KvMap := (∅ : KvMap).insert "a" [1]

/-- A file with one entry, which is not base64. -/
def malformedDisk : Disk := (∅ : Disk).insert "a" "!"

namespace FileKvStore

/-- A store with one entry. A put that changes nothing may fail, others are written. -/
theorem keeps_together_sample :
    KeepsTogether storeJson { file := some (storeJson.render oneEntry.toDisk), mem := oneEntry } oneEntry
      [.put "a" [1] (.notWritten "disk full"), .put "b" [2, 3] .done, .delete "a" .done] := by
  have hopen : openAt storeJson (some (storeJson.render oneEntry.toDisk)) (.ok ()) (.ok ()) =
      .ok { file := some (storeJson.render oneEntry.toDisk), mem := oneEntry } := by
    unfold openAt
    simp only [Except.mapError, storeJson.parse_render]
    show Except.ok (FileKvStore.mk _ oneEntry.toDisk.toMap) = _
    rw [toMap_toDisk]
  refine (keeps_together_iff storeJson (some (storeJson.render oneEntry.toDisk)) (.ok ()) (.ok ())
    [.put "a" [1] (.notWritten "disk full"), .put "b" [2, 3] .done, .delete "a" .done]).mpr ?_ _ hopen
  intro s hs
  cases hopen.symm.trans hs
  refine ⟨(dropsMalformed_iff (reopened_of_openAt hopen).2).mp (dropsMalformed_rendered oneEntry), ?_⟩
  exact ⟨.inr Std.ExtTreeMap.getElem?_insert_self, .inl rfl, .inl rfl, trivial⟩

/-- A put fails and can be read all the same; and an entry that is not base64 is there with no bytes. -/
theorem failed_put_stays :
    (∃ s, openAt storeJson none (.ok ()) (.ok ()) = .ok s ∧
      ¬KeepsTogether storeJson s s.mem [.put "a" [1] (.notWritten "disk full")]) ∧
      ∃ s, openAt storeJson (some (storeJson.render malformedDisk)) (.ok ()) (.ok ()) = .ok s ∧
        ¬KeepsTogether storeJson s s.mem [] := by
  constructor
  · refine ⟨{ file := none, mem := ∅ }, rfl, fun hkeeps => ?_⟩
    have hget := (hkeeps [.put "a" [1] (.notWritten "disk full")] [] rfl).memory "a"
    change ((∅ : KvMap).insert "a" [1])["a"]? = (∅ : KvMap)["a"]? at hget
    rw [Std.ExtTreeMap.getElem?_insert_self, Std.ExtTreeMap.getElem?_empty] at hget
    cases hget
  · have hopen : openAt storeJson (some (storeJson.render malformedDisk)) (.ok ()) (.ok ()) =
        .ok { file := some (storeJson.render malformedDisk), mem := malformedDisk.toMap } := by
      unfold openAt
      simp only [Except.mapError, storeJson.parse_render]
      rfl
    refine ⟨_, hopen, fun hkeeps => ?_⟩
    have hencoded := (together_of_openAt hopen).mp (hkeeps [] [] rfl)
    exact hencoded _ malformedDisk rfl (storeJson.parse_render _) "a" "!" Std.ExtTreeMap.getElem?_insert_self (by decide)

end FileKvStore

end CliPocket
