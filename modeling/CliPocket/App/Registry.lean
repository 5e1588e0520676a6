import CliPocket.Lib.Steps
import Mathlib.Data.List.DropRight

/-!
# The registry of the terminal on screen

The front end shows one terminal. Its registry opens it on the connection, passes its output on to the controller that
draws it, and loads older pages of it; what waits for an answer goes on when the answer is there.

- `Registry`: the registry's fields, with the calls it has made on the controller;
- `Continuation`: what is left of a function that waits, with the generations it was started under;
- `Registry.resume`: it goes on;
- `Screen.step`: a call on the registry, or a promise that settles.
-/

namespace CliPocket.App

/-- What has been thrown: its message, when it is an `Error`. -/
abbrev Thrown := Option String

/-! ## The records -/

inductive Phase
  | idle
  | opening
  | ready
  | loadingHistory
  | failed
  | detached
  deriving DecidableEq

/-- `seq` is where the output ends in the terminal's stream. -/
structure BufferedLiveOutput where
  seq : Nat
  chunk : String
  connectionGeneration : Nat
  deriving DecidableEq

structure LoadedRange where
  startSeq : Option Nat
  endSeq : Option Nat
  deriving DecidableEq

structure SessionState where
  phase : Phase
  error : Option String
  /-- Promises, by the order they were made in. -/
  pendingOpen : Option Nat
  pendingHistory : Option Nat
  liveBuffer : List BufferedLiveOutput
  loadedRange : LoadedRange
  historyExhausted : Bool
  terminalGeneration : Nat
  deriving DecidableEq

def createState : SessionState where
  phase := .idle
  error := none
  pendingOpen := none
  pendingHistory := none
  liveBuffer := []
  loadedRange := { startSeq := none, endSeq := none }
  historyExhausted := false
  terminalGeneration := 0

structure TerminalHistoryPage where
  terminalId : String
  startSeq : Nat
  endSeq : Nat
  bytesB64 : String
  hasMore : Bool
  deriving DecidableEq

/-- The fields of an object, as far as they are there and have the type that is looked for. -/
structure OpenAckValue where
  /-- `info.terminal`, when `info` is an object. -/
  info : Option (Option String)
  startSeq : Option Nat
  endSeq : Option Nat
  renderBytesB64 : Option String
  hasMoreHistory : Option Bool

structure TerminalOpenAck where
  terminal : String
  startSeq : Nat
  endSeq : Nat
  renderBytesB64 : String
  hasMoreHistory : Bool

/-- `none` is a value that is no object. -/
def parseTerminalOpenAck : Option OpenAckValue → Option TerminalOpenAck
  | some ⟨some (some terminal), some startSeq, some endSeq, some renderBytesB64, some hasMoreHistory⟩ =>
    if endSeq < startSeq then none else some { terminal, startSeq, endSeq, renderBytesB64, hasMoreHistory }
  | _ => none

/-- What the registry calls on the controller. -/
inductive ControllerCall
  | reset
  | setActiveTerminal (terminalId : String)
  | renderSnapshot (terminalId snapshot : String) (startSeq : Nat)
  | appendActiveOutput (terminalId chunk : String) (seq : Nat)
  | prependHistoryPage (page : TerminalHistoryPage)
  deriving DecidableEq

/-- `controller` and `inlineErrors` are what it has called and reported so far. -/
structure Registry where
  selectedTerminalId : Option String := none
  connectionGeneration : Option Nat := none
  state : SessionState := createState
  controller : List ControllerCall := []
  inlineErrors : List String := []
  deriving DecidableEq

/-! ## What waits -/

/-- What a function of the registry waits for. -/
inductive Await
  | openTerminal
  /-- `open` is through: its hook is left. -/
  | openFinally
  | readHistory
  | prependHistoryPage (page : TerminalHistoryPage)
  | applyHistoryPage (outcome : Except Thrown Unit)
  | historyFinally

/-- `activation` is the activation it belongs to, which the code does not keep. -/
structure Continuation where
  await : Await
  terminalId : String
  connectionGeneration : Option Nat
  terminalGeneration : Nat
  activation : Nat

/-- How a promise settles; `resumed` is one that the registry settles itself. -/
inductive Outcome
  | opened (result : Except Thrown (Option OpenAckValue))
  | read (result : Except Thrown TerminalHistoryPage)
  | prepended (result : Except Thrown Unit)
  | resumed

namespace Registry

/-! ## Output -/

def bufferLiveOutput (buffer : List BufferedLiveOutput) (output : BufferedLiveOutput) : List BufferedLiveOutput :=
  let later := fun buffered : BufferedLiveOutput => decide (output.seq < buffered.seq)
  buffer.rdropWhile later ++ [output] ++ buffer.rtakeWhile later

def appendActiveOutput (r : Registry) (terminalId chunk : String) (seq : Nat) : Registry :=
  { r with controller := r.controller ++ [.appendActiveOutput terminalId chunk seq] }

/-- Output for another terminal, or of another connection, is passed over. -/
def accepts (r : Registry) (terminalId : String) (connectionGeneration : Nat) : Bool :=
  r.selectedTerminalId = some terminalId && r.connectionGeneration = some connectionGeneration

def applyOutput (r : Registry) (terminalId : String) (seq : Nat) (chunk : String) (connectionGeneration : Nat) :
    Registry :=
  if r.accepts terminalId connectionGeneration then
    match r.state.phase with
    | .opening | .loadingHistory =>
      { r with
        state := { r.state with liveBuffer := bufferLiveOutput r.state.liveBuffer { seq, chunk, connectionGeneration } } }
    | _ => r.appendActiveOutput terminalId chunk seq
  else r

def replayBufferedOutput (r : Registry) (connectionGeneration : Option Nat) : Registry :=
  let replay := r.state.liveBuffer.filter fun output => some output.connectionGeneration = connectionGeneration
  { r with
    state := { r.state with liveBuffer := [] }
    controller := r.controller ++ replay.map fun output =>
      .appendActiveOutput (r.selectedTerminalId.getD "") output.chunk output.seq }

/-! ## The calls that end an activation -/

def disconnect (r : Registry) (connectionGeneration : Nat) : Registry :=
  { r with
    connectionGeneration := some connectionGeneration
    state := { createState with
      phase := .detached, terminalGeneration := createState.terminalGeneration + 1 }
    controller := r.controller ++ [.reset] }

def removeTerminal (r : Registry) (terminalId : String) : Registry :=
  if r.selectedTerminalId = some terminalId then
    { r with selectedTerminalId := none, state := createState, controller := r.controller ++ [.reset] }
  else r

/-! ## What goes on after an answer -/

def isCurrent (r : Registry) (c : Continuation) : Bool :=
  r.connectionGeneration = c.connectionGeneration && r.state.terminalGeneration = c.terminalGeneration

/-- `open` has caught an error. -/
def openFailed (r : Registry) (c : Continuation) (error : Thrown) : Registry :=
  if r.isCurrent c then
    { r with state := { r.state with phase := .failed, error := some (error.getD "failed to open terminal") } }
  else r

variable (decodeBase64Bytes : String → Except Thrown String)

def opened (r : Registry) (c : Continuation) : Except Thrown (Option OpenAckValue) → Registry
  | .error e => r.openFailed c e
  | .ok attachAck =>
    if r.isCurrent c then
      match parseTerminalOpenAck attachAck with
      | none => r.openFailed c (some "invalid terminal open ack")
      | some parsed =>
        let r := { r with
          state := { r.state with
            loadedRange := { startSeq := some parsed.startSeq, endSeq := some parsed.endSeq }
            historyExhausted := !parsed.hasMoreHistory } }
        match decodeBase64Bytes parsed.renderBytesB64 with
        | .error e => r.openFailed c e
        | .ok snapshot =>
          replayBufferedOutput
            { r with
              state := { r.state with phase := .ready }
              controller := r.controller ++ [.renderSnapshot c.terminalId snapshot parsed.startSeq] }
            c.connectionGeneration
    else r

def openFinally (r : Registry) (c : Continuation) : Registry :=
  if r.isCurrent c then { r with state := { r.state with pendingOpen := none } } else r

/-- `loadHistoryPage` has caught an error. -/
def historyFailed (r : Registry) (c : Continuation) (error : Thrown) : Registry :=
  if r.isCurrent c then { r with inlineErrors := r.inlineErrors ++ [error.getD "failed to load history"] } else r

/-- `loadHistoryPage` is about to return. -/
def historyReturns (r : Registry) (c : Continuation) : Registry :=
  if r.isCurrent c then
    replayBufferedOutput { r with state := { r.state with phase := .ready } } c.connectionGeneration
  else r

/-- The end of `applyHistoryPage`. -/
def historyApplied (r : Registry) (page : TerminalHistoryPage) : Registry :=
  { r with
    state := { r.state with
      loadedRange := { r.state.loadedRange with startSeq := some page.startSeq }
      historyExhausted := !page.hasMore } }

def historyRead (r : Registry) (c : Continuation) : Except Thrown TerminalHistoryPage → Registry × Await
  | .error e => ((r.historyFailed c e).historyReturns c, .historyFinally)
  | .ok page =>
    if r.isCurrent c && r.selectedTerminalId = some page.terminalId then
      if page.bytesB64.length > 0 then
        ({ r with controller := r.controller ++ [.prependHistoryPage page] }, .prependHistoryPage page)
      else (r.historyApplied page, .applyHistoryPage (.ok ()))
    else (r.historyReturns c, .historyFinally)

def prepended (r : Registry) (c : Continuation) (page : TerminalHistoryPage) : Except Thrown Unit → Registry
  | .error _ => r
  | .ok () => if r.isCurrent c then r.historyApplied page else r

def loaded (r : Registry) (c : Continuation) : Except Thrown Unit → Registry
  | .error e => (r.historyFailed c e).historyReturns c
  | .ok () => r.historyReturns c

def historyFinally (r : Registry) (c : Continuation) : Registry :=
  if r.isCurrent c then { r with state := { r.state with pendingHistory := none } } else r

/-- The continuation goes on, up to what it waits for next. -/
def resume (r : Registry) (c : Continuation) (outcome : Outcome) : Option (Registry × Option Await) :=
  match c.await, outcome with
  | .openTerminal, .opened result => some (r.opened decodeBase64Bytes c result, some .openFinally)
  | .openFinally, .resumed => some (r.openFinally c, none)
  | .readHistory, .read result => some ((r.historyRead c result).1, some (r.historyRead c result).2)
  | .prependHistoryPage page, .prepended result =>
    some (r.prepended c page result, some (.applyHistoryPage result))
  | .applyHistoryPage result, .resumed => some (r.loaded c result, some .historyFinally)
  | .historyFinally, .resumed => some (r.historyFinally c, none)
  | _, _ => none

/-- The end of the snapshot that `opened` renders. -/
def renders (r : Registry) (c : Continuation) : Outcome → Option Nat
  | .opened (.ok attachAck) =>
    match r.isCurrent c, parseTerminalOpenAck attachAck with
    | true, some parsed =>
      match decodeBase64Bytes parsed.renderBytesB64 with
      | .ok _ => some parsed.endSeq
      | .error _ => none
    | _, _ => none
  | _ => none

end Registry

/-! ## Steps -/

/-- How the latest activation has ended. -/
inductive Ending
  | removed
  | disconnected
  deriving DecidableEq

/-- The registry and what waits. The code does not keep the last four: `received` is every output that has come in, with
its terminal, `rendered` the end of the snapshot that the latest activation shows. -/
structure Screen where
  registry : Registry := {}
  /-- Whether there is a session to ask. -/
  session : Bool := false
  pending : List Continuation := []
  /-- Promises made so far. -/
  promises : Nat := 0
  activations : Nat := 0
  ended : Option Ending := none
  received : List (String × BufferedLiveOutput) := []
  rendered : Option Nat := none

inductive Move
  | attach (session : Bool)
  | setSelectedTerminal (terminalId : Option String)
  | connect (connectionGeneration : Nat)
  | disconnect (connectionGeneration : Nat)
  | removeTerminal (terminalId : String)
  | retryActive
  | loadOlderHistoryActive
  | applyOutput (terminalId : String) (seq : Nat) (chunk : String) (connectionGeneration : Nat)
  | settle (i : Nat) (outcome : Outcome)

namespace Screen

def activateSelectedTerminal (s : Screen) : Screen :=
  match s.registry.selectedTerminalId, s.registry.connectionGeneration with
  | some terminalId, some connectionGeneration =>
    let terminalGeneration := createState.terminalGeneration + 1
    { s with
      registry := { s.registry with
        state := { createState with
          phase := .opening, historyExhausted := false, terminalGeneration, pendingOpen := some s.promises }
        controller := s.registry.controller ++ [.reset, .setActiveTerminal terminalId] }
      pending := s.pending ++ [{
        -- without a session `open` returns at once
        await := if s.session then .openTerminal else .openFinally
        terminalId
        connectionGeneration := some connectionGeneration
        terminalGeneration
        activation := s.activations + 1 }]
      promises := s.promises + 1
      activations := s.activations + 1
      ended := none
      rendered := none }
  | _, _ => s

def loadOlderHistoryActive (s : Screen) : Screen :=
  match s.registry.selectedTerminalId, s.registry.state.loadedRange.startSeq with
  | some terminalId, some before =>
    if s.registry.state.pendingOpen.isNone && s.registry.state.pendingHistory.isNone &&
        s.registry.state.phase = .ready && !s.registry.state.historyExhausted && before > 0 && s.session then
      { s with
        registry := { s.registry with
          state := { s.registry.state with phase := .loadingHistory, pendingHistory := some s.promises } }
        pending := s.pending ++ [{
          -- without a connection `loadHistoryPage` returns at once
          await := if s.registry.connectionGeneration.isSome then .readHistory else .historyFinally
          terminalId
          connectionGeneration := s.registry.connectionGeneration
          terminalGeneration := s.registry.state.terminalGeneration
          activation := s.activations }]
        promises := s.promises + 1 }
    else s
  | _, _ => s

variable (decodeBase64Bytes : String → Except Thrown String)

def settle (s : Screen) (i : Nat) (outcome : Outcome) : Option Screen :=
  s.pending[i]?.bind fun c =>
    (s.registry.resume decodeBase64Bytes c outcome).map fun (registry, await) =>
      { s with
        registry
        pending := match await with
          | some await => s.pending.set i { c with await }
          | none => s.pending.eraseIdx i
        rendered := (s.registry.renders decodeBase64Bytes c outcome).or s.rendered }

def step (s : Screen) : Move → Option Screen
  | .attach session => some { s with session }
  | .setSelectedTerminal terminalId =>
    if s.registry.selectedTerminalId = terminalId then some s
    else some { s with registry := { s.registry with selectedTerminalId := terminalId } }.activateSelectedTerminal
  | .connect connectionGeneration =>
    some { s with
      registry := { s.registry with connectionGeneration := some connectionGeneration } }.activateSelectedTerminal
  | .disconnect connectionGeneration =>
    some { s with
      registry := s.registry.disconnect connectionGeneration
      ended := s.ended.or (some .disconnected)
      rendered := none }
  | .removeTerminal terminalId =>
    if s.registry.selectedTerminalId = some terminalId then
      some { s with
        registry := s.registry.removeTerminal terminalId, ended := some .removed, rendered := none }
    else some s
  | .retryActive => some s.activateSelectedTerminal
  | .loadOlderHistoryActive => some s.loadOlderHistoryActive
  | .applyOutput terminalId seq chunk connectionGeneration =>
    some { s with
      registry := s.registry.applyOutput terminalId seq chunk connectionGeneration
      received := s.received ++ [(terminalId, { seq, chunk, connectionGeneration })] }
  | .settle i outcome => s.settle decodeBase64Bytes i outcome

end Screen

end CliPocket.App
