import Mathlib.Data.List.Infix

/-!
# A link with one message in hand

A party reads messages from its peer and passes each on into a queue before it reads the next; between the two it has
the message in hand. What has been queued is a prefix of what has been sent (`Link.inOrder`), as long as nothing is
read without being taken in hand, or nothing is queued any more.

- `Link sent queued isOpen live inHand`: the invariant; `isOpen` says that the queue still takes messages, `live` that
  what is read is still passed on;
- `Link.take`, `Link.pass`, `Link.ignore`, `Link.lose`: its steps.
-/

namespace Fifo

variable {α : Type*} {sent sent' queued : List α} {isOpen isOpen' live live' : Prop} {inHand inHand' : α → Prop} {x : α}

structure Link (sent queued : List α) (isOpen live : Prop) (inHand : α → Prop) : Prop where
  inOrder : queued <+: sent
  next : isOpen → ∀ x, inHand x → queued ++ [x] <+: sent ∧ (live → sent = queued ++ [x])
  idle : isOpen → live → (∀ x, ¬inHand x) → sent = queued

theorem Link.mono (h : Link sent queued isOpen live inHand) (hopen : isOpen' → isOpen) (hlive : live' → live)
    (hhand : ∀ x, inHand' x ↔ inHand x) : Link sent queued isOpen' live' inHand' where
  inOrder := h.inOrder
  next ho x hx := ⟨(h.next (hopen ho) x ((hhand x).mp hx)).1, fun hl => (h.next (hopen ho) x ((hhand x).mp hx)).2 (hlive hl)⟩
  idle ho hl hx := h.idle (hopen ho) (hlive hl) fun x hin => hx x ((hhand x).mpr hin)

/-- Nothing has been sent yet. -/
theorem Link.start (h : Link sent queued isOpen live inHand) (hsent : sent = []) (hopen : isOpen' → isOpen)
    (hhand : ∀ x, inHand' x ↔ inHand x) : Link sent queued isOpen' live' inHand' where
  inOrder := h.inOrder
  next ho x hx := by
    have hnext := (h.next (hopen ho) x ((hhand x).mp hx)).1
    rw [hsent] at hnext
    simp at hnext
  idle _ _ _ := by
    have hprefix := h.inOrder
    rw [hsent, List.prefix_nil] at hprefix
    rw [hsent, hprefix]

/-- The next message is taken in hand. -/
theorem Link.take (h : Link sent queued isOpen live inHand) (hnone : ∀ y, ¬inHand y) (hlive : live)
    (hopen : isOpen' → isOpen) (hhand : ∀ y, inHand' y ↔ y = x) : Link (sent ++ [x]) queued isOpen' live' inHand' where
  inOrder := h.inOrder.trans (List.prefix_append _ _)
  next ho y hy := by
    rw [(hhand y).mp hy, h.idle (hopen ho) hlive hnone]
    exact ⟨List.prefix_rfl, fun _ => rfl⟩
  idle _ _ hy := absurd ((hhand x).mpr rfl) (hy x)

/-- What is in hand is queued. -/
theorem Link.pass (h : Link sent queued isOpen live inHand) (hopen : isOpen) (hx : inHand x) (hlive : live' → live)
    (hnone : ∀ y, ¬inHand' y) : Link sent (queued ++ [x]) isOpen' live' inHand' where
  inOrder := (h.next hopen x hx).1
  next _ y hy := absurd hy (hnone y)
  idle _ hl _ := (h.next hopen x hx).2 (hlive hl)

/-- What is sent now is not passed on. -/
theorem Link.ignore (h : Link sent queued isOpen live inHand) (hsent : sent <+: sent') (hdead : ¬live')
    (hopen : isOpen' → isOpen) (hhand : ∀ x, inHand' x ↔ inHand x) : Link sent' queued isOpen' live' inHand' where
  inOrder := h.inOrder.trans hsent
  next ho x hx := ⟨(h.next (hopen ho) x ((hhand x).mp hx)).1.trans hsent, fun hl => absurd hl hdead⟩
  idle _ hl _ := absurd hl hdead

/-- The queue takes nothing any more. -/
theorem Link.lose (h : Link sent queued isOpen live inHand) (hsent : sent <+: sent') (hclosed : ¬isOpen') :
    Link sent' queued isOpen' live' inHand' where
  inOrder := h.inOrder.trans hsent
  next ho := absurd ho hclosed
  idle ho := absurd ho hclosed

end Fifo
