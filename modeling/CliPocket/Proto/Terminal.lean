import Mathlib.Data.List.Basic

/-!
# Identifiers and terminal records

Identifiers are newtypes over UUIDs. Request and stream identifiers are `u32`, sequence numbers `u64`: natural
numbers, with the saturation written out where the code counts.
-/

namespace CliPocket

/-- Sixteen bytes. -/
structure Uuid where
  bytes : List UInt8
  length_eq : bytes.length = 16
  deriving DecidableEq

namespace Uuid

/-- The UUID whose sixteen bytes are all `b`. -/
def splat (b : UInt8) : Uuid := ⟨List.replicate 16 b, List.length_replicate⟩

/-- `Uuid::from_slice`. -/
def fromSlice (bytes : List UInt8) : Option Uuid :=
  if h : bytes.length = 16 then some ⟨bytes, h⟩ else none

theorem fromSlice_eq_some {bytes : List UInt8} {u : Uuid} : fromSlice bytes = some u ↔ bytes = u.bytes := by
  unfold fromSlice
  constructor
  · intro h
    split at h
    · cases h
      rfl
    · cases h
  · rintro rfl
    rw [dif_pos u.length_eq]

/-- A byte as two lower-case hexadecimal digits. -/
def hexByte (b : UInt8) : String := String.ofList [Nat.digitChar (b.toNat / 16), Nat.digitChar (b.toNat % 16)]

/-- `Display`: the hyphenated form. -/
def display (u : Uuid) : String :=
  let hex (lo hi : Nat) : String := String.join (((u.bytes.take hi).drop lo).map hexByte)
  hex 0 4 ++ "-" ++ hex 4 6 ++ "-" ++ hex 6 8 ++ "-" ++ hex 8 10 ++ "-" ++ hex 10 16

end Uuid

structure TerminalId where
  uuid : Uuid
  deriving DecidableEq

structure SessionId where
  uuid : Uuid
  deriving DecidableEq

structure ServerId where
  uuid : Uuid
  deriving DecidableEq

structure ClientId where
  uuid : Uuid
  deriving DecidableEq

structure PairId where
  uuid : Uuid
  deriving DecidableEq

abbrev RequestId := Nat

abbrev StreamId := Nat

abbrev StreamSeq := Nat

structure TerminalCreateParams where
  cols : Nat
  rows : Nat
  cwd : Option String
  cmd : List String
  env : List (String × String)
  deriving DecidableEq

structure ServerConfig where
  scrollbackBytes : Nat
  deriving DecidableEq

structure TerminalInfo where
  terminal : TerminalId
  cols : Nat
  rows : Nat
  createdAtUnixMs : Nat
  label : Option String
  attachedClients : Nat
  deriving DecidableEq

inductive KillSignal
  | term
  | hup
  | kill
  deriving DecidableEq

end CliPocket
