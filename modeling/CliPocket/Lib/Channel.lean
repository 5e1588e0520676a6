import Mathlib.Data.List.Basic

/-!
# Channels between tasks

The two channels of an asynchronous runtime that carry no time of their own.

- `Watch`: a value with a version; a receiver knows the version it has seen, and a value that was current when it
  subscribed counts as seen; a send stores nothing while there is no receiver (`announce`);
- `Mpsc`: a bounded queue whose receiver may go away. An awaited send on a full queue is not enabled.
-/

namespace Channel

/-! ## Watch -/

structure Watch (α : Type*) where
  value : α
  version : Nat := 0
  deriving DecidableEq

namespace Watch

variable {α : Type*}

def send (w : Watch α) (a : α) : Watch α := { value := a, version := w.version + 1 }

/-- A send while there are `receivers`: without one it fails, and nothing is stored. -/
def announce (w : Watch α) (receivers : Nat) (a : α) : Watch α := if receivers = 0 then w else w.send a

/-- The version a new receiver has seen. -/
def subscribe (w : Watch α) : Nat := w.version

/-- `changed` is ready for a receiver that has seen `seen`. -/
def changed (w : Watch α) (seen : Nat) : Prop := seen ≠ w.version

instance (w : Watch α) (seen : Nat) : Decidable (w.changed seen) := inferInstanceAs (Decidable (_ ≠ _))

theorem announce_of_pos {receivers : Nat} (w : Watch α) (h : 0 < receivers) (a : α) :
    w.announce receivers a = w.send a := if_neg (Nat.ne_of_gt h)

theorem version_le_announce (w : Watch α) (receivers : Nat) (a : α) : w.version ≤ (w.announce receivers a).version := by
  unfold announce
  split
  · exact Nat.le_refl _
  · exact Nat.le_succ _

theorem changed_send {w : Watch α} {seen : Nat} (h : seen ≤ w.version) (a : α) : (w.send a).changed seen := by
  show seen ≠ w.version + 1
  omega

end Watch

/-! ## Bounded queues -/

structure Mpsc (α : Type*) where
  capacity : Nat
  queue : List α := []
  closed : Bool := false
  deriving DecidableEq

/-- What becomes of an attempt to send. -/
inductive Sent (α : Type*)
  | sent (channel : Mpsc α)
  | full
  | closed

namespace Mpsc

variable {α : Type*}

/-- An attempt to send: the message is queued, or there is no room, or there is no receiver. -/
def send (c : Mpsc α) (a : α) : Sent α :=
  if c.closed then .closed
  else if c.queue.length < c.capacity then .sent { c with queue := c.queue ++ [a] }
  else .full

/-- The next message. -/
def recv (c : Mpsc α) : Option (α × Mpsc α) :=
  match c.queue with
  | [] => none
  | a :: rest => some (a, { c with queue := rest })

theorem send_eq_sent {c c' : Mpsc α} {a : α} :
    c.send a = .sent c' ↔ c.closed = false ∧ c.queue.length < c.capacity ∧ c' = { c with queue := c.queue ++ [a] } := by
  unfold send
  cases c.closed with
  | true => simp
  | false =>
    by_cases hroom : c.queue.length < c.capacity
    · simp [hroom, eq_comm]
    · simp [hroom]

theorem send_of_room {c : Mpsc α} (hopen : c.closed = false) (hroom : c.queue.length < c.capacity) (a : α) :
    c.send a = .sent { c with queue := c.queue ++ [a] } := send_eq_sent.mpr ⟨hopen, hroom, rfl⟩

theorem send_eq_closed {c : Mpsc α} {a : α} : c.send a = .closed ↔ c.closed = true := by
  unfold send
  cases c.closed with
  | true => simp
  | false => by_cases hroom : c.queue.length < c.capacity <;> simp [hroom]

end Mpsc

end Channel
