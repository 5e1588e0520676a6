import CliPocket.Client.Session
import CliPocket.Lib.Text
import Mathlib.Data.List.Sort

/-!
# The workspace of the front end

What is shown of a connection: its state, its terminals, and which of them is on screen.

- `WorkspaceState` with its operations: a list replaces the table of terminals, a new terminal is added to it;
- `mem_syncTerminalList`: **a terminal that is not in the list is not in the table.**
-/

namespace CliPocket.App

inductive ConnectionState
  | idle
  | connecting
  | connected
  | failed
  deriving DecidableEq

/-- A terminal as the bridge passes it on. -/
structure TerminalInfoRecord where
  terminal : String
  cols : Nat
  rows : Nat
  createdAtUnixMs : Nat
  label : Option String
  attachedClients : Nat
  deriving DecidableEq

/-- `serialize_terminal_info`. -/
def serializeTerminalInfo (info : TerminalInfo) : TerminalInfoRecord where
  terminal := info.terminal.uuid.display
  cols := info.cols
  rows := info.rows
  createdAtUnixMs := info.createdAtUnixMs
  label := info.label
  attachedClients := info.attachedClients

structure TerminalSummary where
  id : String
  title : String
  cols : Nat
  rows : Nat
  createdAtUnixMs : Nat
  attachedClients : Nat
  deriving DecidableEq

structure WorkspaceState where
  connectionState : ConnectionState := .idle
  activeConnectionServerId : Option String := none
  terminals : List TerminalSummary := []
  activeSessionId : Option String := none
  lastError : Option String := none
  deriving DecidableEq

/-- The white space of a script's `trim`. -/
def isTrimmed (c : Char) : Bool := c.toNat == 0xfeff || (Text.isWhitespace c && c.toNat != 0x85)

def trimLabel (label : String) : String := String.ofList (Text.dropEndWhile isTrimmed (label.toList.dropWhile isTrimmed))

def terminalTitle (info : TerminalInfoRecord) (index : Nat) : String :=
  let numbered := "Terminal " ++ toString (index + 1)
  match info.label with
  | some label => if trimLabel label = "" then numbered else trimLabel label
  | none => numbered

def toSummary (info : TerminalInfoRecord) (index : Nat) : TerminalSummary where
  id := info.terminal
  title := terminalTitle info index
  cols := info.cols
  rows := info.rows
  createdAtUnixMs := info.createdAtUnixMs
  attachedClients := info.attachedClients

/-- The order of a list. Identifiers have the digits of a UUID, in whose order `localeCompare` puts them. -/
def Older (left right : TerminalInfoRecord) : Prop :=
  left.createdAtUnixMs < right.createdAtUnixMs ∨
    (left.createdAtUnixMs = right.createdAtUnixMs ∧ left.terminal ≤ right.terminal)

instance : DecidableRel Older := fun left right =>
  inferInstanceAs (Decidable (left.createdAtUnixMs < right.createdAtUnixMs ∨
    (left.createdAtUnixMs = right.createdAtUnixMs ∧ left.terminal ≤ right.terminal)))

namespace WorkspaceState

variable {w : WorkspaceState}

/-! ## Operations -/

def markConnected (w : WorkspaceState) : WorkspaceState := { w with connectionState := .connected, lastError := none }

def markDisconnected (w : WorkspaceState) (willRetry : Bool) (reason : Option String) : WorkspaceState where
  connectionState := if willRetry then .connecting else .idle
  activeConnectionServerId := if willRetry then w.activeConnectionServerId else none
  lastError := reason

def markConnectionFailed (_ : WorkspaceState) (message : String) : WorkspaceState where
  connectionState := .failed
  lastError := some message

def syncTerminalList (w : WorkspaceState) (terminals : List TerminalInfoRecord) : WorkspaceState :=
  let next := (terminals.insertionSort Older).mapIdx fun index terminal => toSummary terminal index
  let nextActive := match w.activeSessionId with
    | some id => if next.any fun terminal => terminal.id = id then some id else next.head?.map TerminalSummary.id
    | none => none
  { w with terminals := next, activeSessionId := nextActive }

def upsertTerminal (w : WorkspaceState) (terminal : TerminalInfoRecord) : WorkspaceState :=
  match w.terminals.findIdx? fun entry => entry.id = terminal.terminal with
  | some existingIndex =>
    { w with terminals := w.terminals.mapIdx fun index entry =>
        if index = existingIndex then toSummary terminal index else entry }
  | none => { w with terminals := w.terminals ++ [toSummary terminal w.terminals.length] }

def updateTerminalSize (w : WorkspaceState) (terminalId : String) (cols rows : Nat) : WorkspaceState :=
  { w with terminals := w.terminals.map fun terminal =>
      if terminal.id = terminalId then { terminal with cols, rows } else terminal }

def removeTerminal (w : WorkspaceState) (terminalId : String) : WorkspaceState :=
  let terminals := w.terminals.filter fun terminal => terminal.id ≠ terminalId
  { w with
    terminals
    activeSessionId :=
      if w.activeSessionId = some terminalId then terminals.head?.map TerminalSummary.id else w.activeSessionId }

def setActiveSessionId (w : WorkspaceState) (terminalId : Option String) : WorkspaceState :=
  { w with activeSessionId := terminalId }

/-! ## The table of terminals -/

/-- The terminal is in the table. -/
def Shows (w : WorkspaceState) (id : String) : Prop := id ∈ w.terminals.map TerminalSummary.id

instance (w : WorkspaceState) (id : String) : Decidable (w.Shows id) := inferInstanceAs (Decidable (id ∈ _))

theorem map_id_mapIdx : ∀ (terminals : List TerminalInfoRecord) (f : Nat → Nat),
    (terminals.mapIdx fun index terminal => toSummary terminal (f index)).map TerminalSummary.id =
      terminals.map TerminalInfoRecord.terminal
  | [], _ => rfl
  | terminal :: terminals, f => by
    rw [List.mapIdx_cons, List.map_cons, List.map_cons]
    exact congrArg _ (map_id_mapIdx terminals fun index => f (index + 1))

/-- **The list replaces the table.** -/
theorem mem_syncTerminalList (w : WorkspaceState) (terminals : List TerminalInfoRecord) (id : String) :
    (w.syncTerminalList terminals).Shows id ↔ id ∈ terminals.map TerminalInfoRecord.terminal := by
  unfold Shows syncTerminalList
  dsimp only
  rw [map_id_mapIdx _ fun index => index]
  exact ((List.perm_insertionSort Older terminals).map _).mem_iff

/-- A terminal that is on screen stays there exactly if the list has it. -/
theorem active_syncTerminalList (terminals : List TerminalInfoRecord) {id : String} (hactive : w.activeSessionId = some id) :
    (w.syncTerminalList terminals).activeSessionId = some id ↔ id ∈ terminals.map TerminalInfoRecord.terminal := by
  have hshows := mem_syncTerminalList w terminals id
  unfold Shows at hshows
  have hany : ((w.syncTerminalList terminals).terminals.any fun terminal => terminal.id = id) = true ↔
      id ∈ terminals.map TerminalInfoRecord.terminal := by
    rw [← hshows, List.any_eq_true, List.mem_map]
    simp only [decide_eq_true_eq]
  have hnext : (w.syncTerminalList terminals).activeSessionId =
      if (w.syncTerminalList terminals).terminals.any (fun terminal => terminal.id = id) then some id
      else (w.syncTerminalList terminals).terminals.head?.map TerminalSummary.id := by
    unfold syncTerminalList
    rw [hactive]
  rw [hnext, ← hany]
  split
  · next h => exact ⟨fun _ => h, fun _ => rfl⟩
  · next h =>
    refine ⟨fun hhead => ?_, fun h' => absurd h' h⟩
    obtain ⟨terminal, hterminal, hid⟩ := Option.map_eq_some_iff.mp hhead
    exact List.any_eq_true.mpr ⟨terminal, List.mem_of_head? hterminal, decide_eq_true hid⟩

end WorkspaceState

end CliPocket.App
