import Mathlib.Algebra.Group.Nat.Defs
import SerialBridge.Event.Hub

/-! # Reading from a hub

The envelopes published form one list, of which a hub keeps the last (`Hub.Keeps`), and a
subscription is a place in this list.

Reading passes over what is for others, so what a reading finds is settled by the list alone:
the first envelope for the client from the place of the subscription on or, where that is no
longer kept, from the oldest place that is (`Hub.receive?_cases`).  Draining repeats this
until the end of the list (`Hub.drain_eq`).  Waiting is another loop over the same looks; it
differs from asking only in what is said when nothing was found (`Hub.receive_eq`).
-/

namespace SerialBridge

/-! ## Whom an envelope is for -/

namespace Envelope

/-- The envelope is for everyone, or for just this client. -/
def IsFor (e : Envelope) (client : ClientId) : Prop :=
  e.target = .all ∨ e.target = .client client

instance (e : Envelope) (client : ClientId) : Decidable (e.IsFor client) :=
  inferInstanceAs (Decidable (_ ∨ _))

theorem includes_iff (e : Envelope) (client : ClientId) :
    e.target.includes client = true ↔ e.IsFor client := by
  rw [IsFor]
  cases e.target <;> simp [Target.includes]

/-- The events for a client among some envelopes. -/
def eventsFor (client : ClientId) (es : List Envelope) : List Event :=
  (es.filter (fun e => e.IsFor client)).map (·.event)

theorem eventsFor_append (client : ClientId) (es es' : List Envelope) :
    eventsFor client (es ++ es') = eventsFor client es ++ eventsFor client es' := by
  rw [eventsFor, List.filter_append, List.map_append, eventsFor, eventsFor]

theorem eventsFor_of_others {client : ClientId} {es : List Envelope}
    (hes : ∀ e ∈ es, ¬ e.IsFor client) : eventsFor client es = [] := by
  rw [eventsFor, List.filter_eq_nil_iff.mpr fun e he => by simpa using hes e he, List.map_nil]

theorem eventsFor_singleton {client : ClientId} {e : Envelope} (he : e.IsFor client) :
    eventsFor client [e] = [e.event] := by
  rw [eventsFor, List.filter_cons_of_pos (by simpa using he), List.filter_nil, List.map_singleton]

theorem eventsFor_sublist (client : ClientId) {es es' : List Envelope} (h : es.Sublist es') :
    (eventsFor client es).Sublist (eventsFor client es') :=
  (h.filter _).map _

end Envelope

open Envelope (eventsFor)

/-- What a list holds from a place on falls into what it holds up to a later place and what
it holds from there on. -/
theorem drop_eq_append {α : Type} {m n : Nat} (h : m ≤ n) (l : List α) :
    l.drop m = (l.take n).drop m ++ l.drop n := by
  have hrest : l.drop n = (l.drop m).drop (n - m) := by
    rw [List.drop_drop, Nat.add_sub_cancel' h]
  rw [List.drop_take, hrest, List.take_append_drop]

namespace Hub

/-! ## How much a hub keeps -/

/-- A number is the least power of two that is not below another. -/
def LeastPowerOfTwo (n capacity : Nat) : Prop :=
  (∃ k, n = 2 ^ k) ∧ capacity ≤ n ∧ ∀ k, capacity ≤ 2 ^ k → n ≤ 2 ^ k

theorem leastPowerOfTwo_roomFor {capacity : Nat} (hpos : 0 < capacity) :
    LeastPowerOfTwo (roomFor capacity) capacity := by
  have hne : 2 * capacity - 1 ≠ 0 := by omega
  rw [roomFor, Nat.one_shiftLeft]
  refine ⟨⟨_, rfl⟩, ?_, fun k hk => ?_⟩
  · have hlt : 2 * capacity - 1 < 2 ^ ((2 * capacity - 1).log2 + 1) := Nat.lt_log2_self
    rw [Nat.pow_succ] at hlt
    omega
  · have hlt : 2 * capacity - 1 < 2 ^ (k + 1) := by
      rw [Nat.pow_succ]
      omega
    exact Nat.pow_le_pow_right (by decide) (Nat.lt_succ_iff.mp ((Nat.log2_lt hne).mpr hlt))

/-- A hub keeps the last of the envelopes published. -/
structure Keeps (h : Hub) (published : List Envelope) : Prop where
  total_eq : h.total = published.length
  kept_eq : h.kept = published.drop h.oldest

theorem keeps_publish {h : Hub} {published : List Envelope} (hk : h.Keeps published)
    (hopen : h.closed = false) (e : Envelope) : (h.publish e).Keeps (published ++ [e]) := by
  have hold : h.oldest ≤ published.length := hk.total_eq ▸ Nat.sub_le _ _
  constructor
  · rw [publish, if_neg (by simp [hopen])]
    simp only [List.length_append, List.length_singleton, hk.total_eq]
  · rw [publish, if_neg (by simp [hopen])]
    simp only [oldest]
    rw [hk.kept_eq, ← List.drop_append_of_le_length hold, List.drop_drop, List.length_drop,
      List.length_append, List.length_singleton]
    congr 1
    have htotal := hk.total_eq
    rw [oldest] at hold ⊢
    omega

/-! ## Reading -/

/-- The place where a subscription goes on: its own, or the oldest one kept. -/
def start (h : Hub) (s : Subscription) : Nat :=
  max s.position h.oldest

variable {h : Hub} {published : List Envelope} {s : Subscription}

theorem next_of_behind (hbehind : s.position < h.oldest) :
    h.next s = (.lagged (h.oldest - s.position), { s with position := h.oldest }) := by
  rw [next, if_pos hbehind]

theorem next_of_kept (hk : h.Keeps published) (hkept : h.oldest ≤ s.position) {e : Envelope}
    (he : published[s.position]? = some e) :
    h.next s = (.envelope e, { s with position := s.position + 1 }) := by
  have hget : h.kept[s.position - h.oldest]? = some e := by
    rw [hk.kept_eq, List.getElem?_drop, Nat.add_sub_cancel' hkept, he]
  rw [next, if_neg (Nat.not_lt.mpr hkept), hget]

theorem next_of_end (hk : h.Keeps published) (hkept : h.oldest ≤ s.position)
    (hend : published.length ≤ s.position) :
    h.next s = (if h.closed then .closed else .empty, s) := by
  have hget : h.kept[s.position - h.oldest]? = none := by
    rw [hk.kept_eq, List.getElem?_drop, Nat.add_sub_cancel' hkept, List.getElem?_eq_none hend]
  rw [next, if_neg (Nat.not_lt.mpr hkept), hget]

section Looks

variable {s' : Subscription} {e : Envelope}

theorem receive?_of_envelope (hnext : h.next s = (.envelope e, s')) :
    h.receive? s = if e.IsFor s'.client then (some e.event, s') else h.receive? s' := by
  rw [receive?]
  split <;> rename_i heq <;> rw [hnext] at heq <;> cases heq
  simp only [e.includes_iff]

theorem receive_of_envelope (hnext : h.next s = (.envelope e, s')) :
    h.receive s = if e.IsFor s'.client then (.event e.event, s') else h.receive s' := by
  rw [receive]
  split <;> rename_i heq <;> rw [hnext] at heq <;> cases heq
  simp only [e.includes_iff]

theorem receive?_of_lagged {missed : Nat} (hnext : h.next s = (.lagged missed, s')) :
    h.receive? s = h.receive? s' := by
  rw [receive?]
  split <;> rename_i heq <;> rw [hnext] at heq <;> cases heq
  rfl

theorem receive_of_lagged {missed : Nat} (hnext : h.next s = (.lagged missed, s')) :
    h.receive s = h.receive s' := by
  rw [receive]
  split <;> rename_i heq <;> rw [hnext] at heq <;> cases heq
  rfl

theorem receive?_of_nothing (hnext : h.next s = (if h.closed then .closed else .empty, s')) :
    h.receive? s = (none, s') := by
  rw [receive?]
  split <;> rename_i heq <;> rw [hnext] at heq <;> cases hclosed : h.closed <;>
    rw [hclosed] at heq <;> cases heq <;> rfl

theorem receive_of_nothing (hnext : h.next s = (if h.closed then .closed else .empty, s')) :
    h.receive s = (if h.closed then .closed else .pending, s') := by
  rw [receive]
  split <;> rename_i heq <;> rw [hnext] at heq <;> cases hclosed : h.closed <;>
    rw [hclosed] at heq <;> cases heq <;> rfl

end Looks

/-- What is found at a place that is kept. -/
theorem receive?_cases_of_kept (hk : h.Keeps published) (hkept : h.oldest ≤ s.position)
    (hs : s.position ≤ published.length) :
    (∃ skipped e,
      published.drop s.position =
        skipped ++ e :: published.drop (s.position + skipped.length + 1) ∧
      (∀ e' ∈ skipped, ¬ e'.IsFor s.client) ∧ e.IsFor s.client ∧
      h.receive? s = (some e.event, ⟨s.client, s.position + skipped.length + 1⟩)) ∨
    ((∀ e ∈ published.drop s.position, ¬ e.IsFor s.client) ∧
      h.receive? s = (none, ⟨s.client, published.length⟩)) := by
  -- by induction on what there is to look at
  induction hleft : published.drop s.position generalizing s with
  | nil =>
    have hend : published.length ≤ s.position := List.drop_eq_nil_iff.mp hleft
    refine .inr ⟨fun e he => (nomatch he), ?_⟩
    rw [receive?_of_nothing (next_of_end hk hkept hend), ← Nat.le_antisymm hs hend]
  | cons e rest ih =>
    have he : published[s.position]? = some e := by rw [← List.head?_drop, hleft, List.head?_cons]
    have hrest : published.drop (s.position + 1) = rest := by
      rw [← List.tail_drop, hleft, List.tail_cons]
    have hlt : s.position < published.length := (List.getElem?_eq_some_iff.mp he).1
    rw [receive?_of_envelope (next_of_kept hk hkept he)]
    by_cases hfor : e.IsFor s.client
    · refine .inl ⟨[], e, congrArg (e :: ·) hrest.symm, fun e' he' => (nomatch he'), hfor, ?_⟩
      rw [if_pos hfor]
      rfl
    · rw [if_neg hfor]
      have hlater : h.oldest ≤ s.position + 1 := Nat.le_succ_of_le hkept
      rcases ih (s := { s with position := s.position + 1 }) hlater hlt hrest with
        ⟨skipped, e₁, hsplit, hskipped, hfor₁, heq⟩ | ⟨hothers, heq⟩
      · have hplace : s.position + (e :: skipped).length + 1 =
            s.position + 1 + skipped.length + 1 := by
          rw [List.length_cons]
          omega
        refine .inl ⟨e :: skipped, e₁, ?_, List.forall_mem_cons.mpr ⟨hfor, hskipped⟩, hfor₁, ?_⟩
        · rw [hplace]
          exact congrArg (e :: ·) hsplit
        · rw [hplace, heq]
      · exact .inr ⟨List.forall_mem_cons.mpr ⟨hfor, hothers⟩, heq⟩

theorem oldest_le_length (hk : h.Keeps published) : h.oldest ≤ published.length :=
  hk.total_eq ▸ Nat.sub_le _ _

/-- **What is found.**  A reading goes on to the first envelope for the client and, where
there is none, to the end. -/
theorem receive?_cases (hk : h.Keeps published) (hs : s.position ≤ published.length) :
    (∃ skipped e,
      published.drop (h.start s) = skipped ++ e :: published.drop (h.start s + skipped.length + 1) ∧
      (∀ e' ∈ skipped, ¬ e'.IsFor s.client) ∧ e.IsFor s.client ∧
      h.receive? s = (some e.event, ⟨s.client, h.start s + skipped.length + 1⟩)) ∨
    ((∀ e ∈ published.drop (h.start s), ¬ e.IsFor s.client) ∧
      h.receive? s = (none, ⟨s.client, published.length⟩)) := by
  by_cases hbehind : s.position < h.oldest
  · rw [start, Nat.max_eq_right (Nat.le_of_lt hbehind),
      receive?_of_lagged (next_of_behind hbehind)]
    exact receive?_cases_of_kept (s := { s with position := h.oldest }) hk (Nat.le_refl _)
      (oldest_le_length hk)
  · rw [start, Nat.max_eq_left (Nat.not_lt.mp hbehind)]
    exact receive?_cases_of_kept hk (Nat.not_lt.mp hbehind) hs

/-- A reading with a certain result passed over one stretch of the envelopes published, in
which there is just what it found. -/
structure Reads (h : Hub) (published : List Envelope) (s : Subscription) (found : Option Event)
    (s' : Subscription) : Prop where
  client_eq : s'.client = s.client
  start_le : h.start s ≤ s'.position
  le_length : s'.position ≤ published.length
  passed : eventsFor s.client ((published.take s'.position).drop (h.start s)) = found.toList
  at_end : found = none → s'.position = published.length

theorem start_le_length (hk : h.Keeps published) (hs : s.position ≤ published.length) :
    h.start s ≤ published.length :=
  Nat.max_le.mpr ⟨hs, oldest_le_length hk⟩

theorem reads_receive? (hk : h.Keeps published) (hs : s.position ≤ published.length) :
    h.Reads published s (h.receive? s).1 (h.receive? s).2 := by
  rcases receive?_cases hk hs with ⟨skipped, e, hsplit, hskipped, hfor, heq⟩ | ⟨hothers, heq⟩
  · have hlength := congrArg List.length hsplit
    simp only [List.length_append, List.length_cons, List.length_drop] at hlength
    have hend : h.start s + skipped.length + 1 ≤ published.length := by omega
    rw [heq]
    refine ⟨rfl, Nat.le_add_right_of_le (Nat.le_add_right _ _), hend, ?_, fun h => nomatch h⟩
    have hstretch : (published.take (h.start s + skipped.length + 1)).drop (h.start s) =
        skipped ++ [e] := by
      rw [List.drop_take, hsplit, Nat.add_assoc, Nat.add_sub_cancel_left,
        List.take_length_add_append, List.take_one, List.head?_cons, Option.toList_some]
    dsimp only
    rw [hstretch, Envelope.eventsFor_append, Envelope.eventsFor_of_others hskipped,
      Envelope.eventsFor_singleton hfor]
    rfl
  · rw [heq]
    refine ⟨rfl, start_le_length hk hs, Nat.le_refl _, ?_, fun _ => rfl⟩
    dsimp only
    rw [List.take_length, Envelope.eventsFor_of_others hothers]
    rfl

/-! ## Draining -/

theorem drain_of_none {s' : Subscription} (hreceive : h.receive? s = (none, s')) :
    h.drain s = ([], s') := by
  rw [drain]
  split <;> rename_i heq <;> rw [hreceive] at heq <;> cases heq
  rfl

theorem drain_of_some {s' : Subscription} {e : Event} (hreceive : h.receive? s = (some e, s')) :
    h.drain s = (e :: (h.drain s').1, (h.drain s').2) := by
  rw [drain]
  split <;> rename_i heq <;> rw [hreceive] at heq <;> cases heq
  rfl

/-- **What is drained** are the events for the client from where the subscription goes on. -/
theorem drain_eq (hk : h.Keeps published) (hs : s.position ≤ published.length) :
    h.drain s =
      (eventsFor s.client (published.drop (h.start s)), ⟨s.client, published.length⟩) := by
  induction hn : h.total - s.position using Nat.strongRecOn generalizing s with
  | ind n ih =>
    have hreads := reads_receive? hk hs
    rcases hreceive : h.receive? s with ⟨_ | e, ⟨client, place⟩⟩ <;> rw [hreceive] at hreads
    · obtain rfl : client = s.client := hreads.client_eq
      obtain rfl : place = published.length := hreads.at_end rfl
      have hpassed : eventsFor s.client (published.drop (h.start s)) = [] := by
        simpa using hreads.passed
      rw [drain_of_none hreceive, hpassed]
    · obtain rfl : client = s.client := hreads.client_eq
      have hless : h.total - place < n := hn ▸ left_of_receive? hreceive
      have hplace : h.start ⟨s.client, place⟩ = place :=
        Nat.max_eq_left (Nat.le_trans (Nat.le_max_right _ _) hreads.start_le)
      have hrest := ih _ hless (s := ⟨s.client, place⟩) hreads.le_length rfl
      rw [drain_of_some hreceive, hrest, hplace, drop_eq_append hreads.start_le,
        Envelope.eventsFor_append, hreads.passed]
      rfl

/-! ## Waiting -/

/-- What is said to who waits and for whom there is nothing. -/
def nothing (h : Hub) : Receipt :=
  if h.closed then .closed else .pending

/-- What a subscription gets that waits, in place of what one gets that asks. -/
def awaited (h : Hub) : Option Event × Subscription → Receipt × Subscription
  | (some e, s) => (.event e, s)
  | (none, s) => (h.nothing, s)

theorem next_cases (h : Hub) (s : Subscription) :
    (∃ missed s', h.next s = (.lagged missed, s')) ∨ (∃ e s', h.next s = (.envelope e, s')) ∨
      h.next s = (if h.closed then .closed else .empty, s) := by
  rw [next]
  split
  · exact .inl ⟨_, _, rfl⟩
  · split
    · exact .inr (.inl ⟨_, _, rfl⟩)
    · exact .inr (.inr rfl)

/-- **Waiting finds what asking finds**, in every state. -/
theorem receive_eq (h : Hub) (s : Subscription) : h.receive s = h.awaited (h.receive? s) := by
  induction hn : h.total - s.position using Nat.strongRecOn generalizing s with
  | ind n ih =>
    rcases h.next_cases s with ⟨missed, s', hnext⟩ | ⟨e, s', hnext⟩ | hnext
    · rw [receive_of_lagged hnext, receive?_of_lagged hnext]
      exact ih _ (hn ▸ left_of_lagged hnext) s' rfl
    · rw [receive_of_envelope hnext, receive?_of_envelope hnext]
      split
      · rfl
      · exact ih _ (hn ▸ left_of_envelope hnext) s' rfl
    · rw [receive_of_nothing hnext, receive?_of_nothing hnext]
      rfl

/-- What a subscription gets that waits so many times. -/
def receipts (h : Hub) (s : Subscription) : Nat → List Receipt
  | 0 => []
  | n + 1 => (h.receive s).1 :: h.receipts (h.receive s).2 n

/-- Who waits gets the events there are, one after another, and only then is told that there
are no more. -/
theorem receipts_eq (hk : h.Keeps published) (hs : s.position ≤ published.length) (n : Nat) :
    h.receipts s n = ((h.drain s).1.map Receipt.event ++ List.replicate n h.nothing).take n := by
  induction n generalizing s with
  | zero => rfl
  | succ n ih =>
    have hreads := reads_receive? hk hs
    have hrest := ih hreads.le_length
    rcases hreceive : h.receive? s with ⟨_ | e, s'⟩ <;> rw [hreceive] at hreads hrest
    · have hempty : (h.drain s').1 = [] := by
        have hplace : published.length ≤ h.start s' :=
          Nat.le_trans (Nat.le_of_eq (hreads.at_end rfl).symm) (Nat.le_max_left _ _)
        rw [drain_eq hk hreads.le_length, List.drop_eq_nil_of_le hplace]
        rfl
      rw [hempty, List.map_nil, List.nil_append] at hrest
      rw [receipts, receive_eq, hreceive, drain_of_none hreceive]
      exact congrArg (h.nothing :: ·) hrest
    · have hsame : ∀ rs : List Receipt, (rs ++ List.replicate (n + 1) h.nothing).take n =
          (rs ++ List.replicate n h.nothing).take n := by
        intro rs
        rw [List.replicate_succ', ← List.append_assoc, List.take_append_of_le_length]
        simp
      rw [receipts, receive_eq, hreceive, drain_of_some hreceive, List.map_cons, List.cons_append,
        List.take_succ_cons, hsame]
      exact congrArg (Receipt.event e :: ·) hrest

end Hub

end SerialBridge
