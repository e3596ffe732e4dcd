import SerialBridge.Event

/-! # Fanning events out

A hub keeps the last envelopes published, as many as the least power of two that
is not below the capacity asked for.  A subscription has a place in the stream of
envelopes and looks at one after another (`Hub.next`).  One that fell further
behind than the hub keeps is told how many it missed, and goes on with the oldest
envelope there is.

Events are received in two ways, by asking for one that is there already
(`receive?`) and by waiting for one (`receive`).  Both look on until they come to
an envelope for their client; they differ in what they say when there is none.
After the hub is closed what is kept can still be received.
-/

namespace SerialBridge

/-- The envelopes that are kept for subscribers. -/
structure Hub where
  /-- How many envelopes there is room for. -/
  size : Nat
  /-- The envelopes kept, oldest first. -/
  kept : List Envelope := []
  /-- How many were ever published. -/
  total : Nat := 0
  /-- Whether no more will come. -/
  closed : Bool := false
  /-- No envelope is dropped as long as there is room. -/
  length_kept : kept.length = min size total := by simp
  deriving DecidableEq, Repr

/-- One client's place in the stream of envelopes. -/
structure Subscription where
  /-- The client. -/
  client : ClientId
  /-- How many envelopes were published before the next one it looks at. -/
  position : Nat
  deriving DecidableEq, Repr

/-- What a subscription finds that looks at the next envelope. -/
inductive Delivery where
  /-- The envelope. -/
  | envelope (e : Envelope)
  /-- So many envelopes that it missed are not kept any more. -/
  | lagged (missed : Nat)
  /-- Nothing yet. -/
  | empty
  /-- Nothing ever again. -/
  | closed
  deriving DecidableEq, Repr

/-- What a subscriber gets that waits for an event. -/
inductive Receipt where
  /-- An event. -/
  | event (e : Event)
  /-- Nothing yet. -/
  | pending
  /-- Nothing ever again. -/
  | closed
  deriving DecidableEq, Repr

namespace Hub

/-- The usual capacity. -/
def defaultCapacity : Nat := 256

/-- The least power of two that is not below a capacity. -/
def roomFor (capacity : Nat) : Nat :=
  1 <<< (2 * capacity - 1).log2

/-- A hub for a capacity; there is none for the capacity zero. -/
def ofCapacity? (capacity : Nat) : Option Hub :=
  if capacity = 0 then none else some { size := roomFor capacity }

/-- Publishes an envelope, unless the hub is closed; the oldest one makes room for
it. -/
def publish (h : Hub) (e : Envelope) : Hub :=
  if h.closed then h
  else
    let all := h.kept ++ [e]
    { h with
      kept := all.drop (all.length - h.size)
      total := h.total + 1
      length_kept := by
        have hkept := h.length_kept
        simp only [all, List.length_drop, List.length_append, List.length_singleton]
        omega }

/-- A subscription to what is published from now on. -/
def subscribe (h : Hub) (client : ClientId) : Subscription :=
  ⟨client, h.total⟩

/-- How many envelopes were published before the oldest one kept. -/
def oldest (h : Hub) : Nat :=
  h.total - h.size

/-- Looks at the next envelope. -/
def next (h : Hub) (s : Subscription) : Delivery × Subscription :=
  if s.position < h.oldest then
    (.lagged (h.oldest - s.position), { s with position := h.oldest })
  else
    match h.kept[s.position - h.oldest]? with
    | some e => (.envelope e, { s with position := s.position + 1 })
    | none => (if h.closed then .closed else .empty, s)

/-- A subscription that finds an envelope has one envelope less to look at. -/
theorem left_of_envelope {h : Hub} {s s' : Subscription} {e : Envelope}
    (hnext : h.next s = (.envelope e, s')) : h.total - s'.position < h.total - s.position := by
  rw [next] at hnext
  split at hnext
  · cases hnext
  · rename_i hkept
    split at hnext
    · rename_i e' he
      cases hnext
      have hlt : s.position - h.oldest < h.kept.length := (List.getElem?_eq_some_iff.mp he).1
      have hlength := h.length_kept
      rw [oldest] at hkept hlt
      dsimp only
      omega
    · cases hclosed : h.closed <;> rw [hclosed] at hnext <;> cases hnext

/-- A subscription that lagged has those envelopes less to look at that it missed. -/
theorem left_of_lagged {h : Hub} {s s' : Subscription} {missed : Nat}
    (hnext : h.next s = (.lagged missed, s')) : h.total - s'.position < h.total - s.position := by
  rw [next] at hnext
  split at hnext
  · rename_i hbehind
    cases hnext
    rw [oldest] at hbehind ⊢
    dsimp only
    omega
  · split at hnext
    · cases hnext
    · cases hclosed : h.closed <;> rw [hclosed] at hnext <;> cases hnext

/-- The next event for a subscription, if one is there already, and the subscription
after it. -/
def receive? (h : Hub) (s : Subscription) : Option Event × Subscription :=
  match _hnext : h.next s with
  | (.envelope e, s') =>
    if e.target.includes s'.client then (some e.event, s') else receive? h s'
  | (.lagged _, s') => receive? h s'
  | (.empty, s') | (.closed, s') => (none, s')
termination_by h.total - s.position
decreasing_by
  · exact left_of_envelope _hnext
  · exact left_of_lagged _hnext

/-- What a subscription gets that waits for its next event. -/
def receive (h : Hub) (s : Subscription) : Receipt × Subscription :=
  match _hnext : h.next s with
  | (.envelope e, s') =>
    if e.target.includes s'.client then (.event e.event, s') else receive h s'
  | (.lagged _, s') => receive h s'
  | (.empty, s') => (.pending, s')
  | (.closed, s') => (.closed, s')
termination_by h.total - s.position
decreasing_by
  · exact left_of_envelope _hnext
  · exact left_of_lagged _hnext

/-- A subscription that receives an event has less to look at. -/
theorem left_of_receive? {h : Hub} {s s' : Subscription} {e : Event}
    (hreceive : h.receive? s = (some e, s')) :
    h.total - s'.position < h.total - s.position := by
  fun_induction receive? h s with
  | case1 s envelope s₁ hnext hincludes =>
    cases hreceive
    exact left_of_envelope hnext
  | case2 s envelope s₁ hnext hincludes ih =>
    exact Nat.lt_trans (ih hreceive) (left_of_envelope hnext)
  | case3 s s₁ missed hnext ih => exact Nat.lt_trans (ih hreceive) (left_of_lagged hnext)
  | case4 | case5 => cases hreceive

/-- All events that are there for a subscription, received one after another, and the
subscription after them. -/
def drain (h : Hub) (s : Subscription) : List Event × Subscription :=
  match _hreceive : h.receive? s with
  | (none, s') => ([], s')
  | (some e, s') =>
    let (es, s'') := drain h s'
    (e :: es, s'')
termination_by h.total - s.position
decreasing_by exact left_of_receive? _hreceive

/-- Closes the hub. -/
def close (h : Hub) : Hub :=
  { h with closed := true }

end Hub

end SerialBridge
