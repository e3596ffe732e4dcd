import Mathlib.Logic.Function.Basic
import SerialBridge.Proofs.Fanout

/-! # The audience of a hub

Clients subscribe and unsubscribe, envelopes are published, and subscriptions are read from,
in any order (`Audience.run`).  Each subscription is kept together with what it received since
it was made.

After every move the hub keeps the last of what was published (`Hub.Keeps`), and what a
subscription received is to be found in the same order among what was published from its
beginning up to its place (`Reader.Sound`).  The result says what it still gets, in whatever
way it is read (`deliveries_are_exact`): what it received and what can be drained make up the
events for its client, none of them twice, and all of them as long as it never was too far
behind.
-/

namespace SerialBridge

open Envelope (eventsFor)

/-- The last envelopes of some, so many as are given. -/
def latest (n : Nat) (es : List Envelope) : List Envelope :=
  es.drop (es.length - n)

/-- A subscription and what came of it. -/
structure Reader where
  /-- The subscription. -/
  subscription : Subscription
  /-- How many envelopes were published before it was made. -/
  since : Nat
  /-- The events received, in order. -/
  received : List Event := []
  /-- How many envelopes were dropped before it came to them. -/
  missed : Nat := 0
  deriving DecidableEq

namespace Reader

/-- A reader after a reading with a certain result. -/
def after (r : Reader) (h : Hub) (found : Option Event) (s' : Subscription) : Reader :=
  { r with
    subscription := s'
    received := r.received ++ found.toList
    missed := r.missed + (h.oldest - r.subscription.position) }

/-- What a reader received was published for its client since it subscribed; and this is all
there was up to its place, unless it missed something. -/
structure Sound (r : Reader) (published : List Envelope) : Prop where
  since_le : r.since ≤ r.subscription.position
  le_length : r.subscription.position ≤ published.length
  once : r.received.Sublist (eventsFor r.subscription.client
    ((published.take r.subscription.position).drop r.since))
  whole : r.missed = 0 → r.received = eventsFor r.subscription.client
    ((published.take r.subscription.position).drop r.since)

variable {r : Reader} {h : Hub} {published : List Envelope}

theorem sound_publish (hr : r.Sound published) (e : Envelope) : r.Sound (published ++ [e]) where
  since_le := hr.since_le
  le_length := by
    rw [List.length_append]
    exact Nat.le_add_right_of_le hr.le_length
  once := by
    rw [List.take_append_of_le_length hr.le_length]
    exact hr.once
  whole := by
    rw [List.take_append_of_le_length hr.le_length]
    exact hr.whole

/-- What was published up to the place after a reading: what was up to the place before it,
what was dropped, and what the reading passed over. -/
theorem stretches (hr : r.Sound published) {found : Option Event} {s' : Subscription}
    (hreads : h.Reads published r.subscription found s') :
    (published.take s'.position).drop r.since =
      (published.take r.subscription.position).drop r.since ++
        (published.take (h.start r.subscription)).drop r.subscription.position ++
        (published.take s'.position).drop (h.start r.subscription) := by
  have hplace : r.subscription.position ≤ h.start r.subscription := Nat.le_max_left _ _
  have hstart : (published.take s'.position).take (h.start r.subscription) =
      published.take (h.start r.subscription) := by
    rw [List.take_take, Nat.min_eq_left hreads.start_le]
  have hposition : (published.take s'.position).take r.subscription.position =
      published.take r.subscription.position := by
    rw [List.take_take, Nat.min_eq_left (Nat.le_trans hplace hreads.start_le)]
  rw [drop_eq_append hr.since_le, hposition, drop_eq_append hplace (published.take s'.position),
    hstart, List.append_assoc]

theorem sound_after (hr : r.Sound published) {found : Option Event} {s' : Subscription}
    (hreads : h.Reads published r.subscription found s') :
    (r.after h found s').Sound published := by
  have hplace : r.subscription.position ≤ h.start r.subscription := Nat.le_max_left _ _
  have hevents : eventsFor r.subscription.client ((published.take s'.position).drop r.since) =
      eventsFor r.subscription.client
          ((published.take r.subscription.position).drop r.since) ++
        eventsFor r.subscription.client
          ((published.take (h.start r.subscription)).drop r.subscription.position) ++
        found.toList := by
    rw [stretches hr hreads, Envelope.eventsFor_append, Envelope.eventsFor_append, hreads.passed]
  refine ⟨Nat.le_trans hr.since_le (Nat.le_trans hplace hreads.start_le), hreads.le_length, ?_,
    fun hmissed => ?_⟩ <;> simp only [after, hreads.client_eq, hevents]
  · exact (hr.once.trans (List.sublist_append_left _ _)).append (List.Sublist.refl _)
  · -- nothing was dropped, so the reading went on where the one before it ended
    have hzero : r.missed = 0 ∧ h.oldest - r.subscription.position = 0 :=
      Nat.add_eq_zero_iff.mp hmissed
    have hsame : h.start r.subscription = r.subscription.position :=
      Nat.max_eq_left (Nat.sub_eq_zero_iff_le.mp hzero.2)
    have hnone : (published.take r.subscription.position).drop r.subscription.position = [] :=
      List.drop_eq_nil_of_le (List.length_take_le _ _)
    rw [hr.whole hzero.1, hsame, hnone]
    simp only [eventsFor, List.filter_nil, List.map_nil, List.append_nil]

end Reader

/-- What a receipt brings. -/
def Receipt.event? : Receipt → Option Event
  | .event e => some e
  | .pending | .closed => none

/-- What is found by waiting. -/
def Hub.waitFor (h : Hub) (s : Subscription) : Option Event × Subscription :=
  ((h.receive s).1.event?, (h.receive s).2)

theorem Hub.waitFor_eq (h : Hub) (s : Subscription) : h.waitFor s = h.receive? s := by
  rw [waitFor, receive_eq]
  obtain ⟨_ | e, s'⟩ := h.receive? s
  · cases hclosed : h.closed <;> simp [awaited, nothing, hclosed, Receipt.event?]
  · rfl

/-- A hub, those who read from it, and everything that was published. -/
structure Audience where
  /-- The hub. -/
  hub : Hub
  /-- The subscriptions there are. -/
  readers : Nat → Option Reader
  /-- The envelopes published, in order. -/
  published : List Envelope

/-- What can be done with a hub and the subscriptions to it. -/
inductive Move where
  /-- A client subscribes, under some number. -/
  | subscribe (n : Nat) (client : ClientId)
  /-- A subscription is dropped. -/
  | unsubscribe (n : Nat)
  /-- An event is published for everyone. -/
  | broadcast (event : Event)
  /-- An event is published for one client. -/
  | reply (client : ClientId) (event : Event)
  /-- A subscription is asked for its next event. -/
  | tryReceive (n : Nat)
  /-- A subscription waits for its next event. -/
  | receive (n : Nat)
  /-- The hub is closed. -/
  | close
  deriving DecidableEq

namespace Audience

/-- A hub that nobody has used. -/
def new (hub : Hub) : Audience where
  hub := hub
  readers := fun _ => none
  published := []

/-- The audience after an envelope is published; nothing is on a closed hub. -/
def publish (a : Audience) (e : Envelope) : Audience :=
  if a.hub.closed then a
  else { a with hub := a.hub.publish e, published := a.published ++ [e] }

/-- The audience after a subscription, if there is one under a number, has read. -/
def read (a : Audience) (n : Nat) (reading : Subscription → Option Event × Subscription) :
    Audience :=
  match a.readers n with
  | none => a
  | some r =>
    let (found, s') := reading r.subscription
    { a with readers := Function.update a.readers n (some (r.after a.hub found s')) }

/-- The audience after a move. -/
def act (a : Audience) : Move → Audience
  | .subscribe n client =>
    let r : Reader := { subscription := a.hub.subscribe client, since := a.published.length }
    { a with readers := Function.update a.readers n (some r) }
  | .unsubscribe n => { a with readers := Function.update a.readers n none }
  | .broadcast event => a.publish (.broadcast event)
  | .reply client event => a.publish (.reply client event)
  | .tryReceive n => a.read n a.hub.receive?
  | .receive n => a.read n a.hub.waitFor
  | .close => { a with hub := a.hub.close }

/-- The audience after some moves. -/
def run (a : Audience) (moves : List Move) : Audience :=
  moves.foldl act a

/-! ## The invariant -/

/-- What holds after every move. -/
structure Sound (size : Nat) (a : Audience) : Prop where
  size_eq : a.hub.size = size
  keeps : a.hub.Keeps a.published
  readers_sound : ∀ n r, a.readers n = some r → r.Sound a.published

variable {a : Audience} {size : Nat}

theorem sound_publish (ha : a.Sound size) (e : Envelope) : (a.publish e).Sound size := by
  cases hclosed : a.hub.closed with
  | true =>
    rw [publish, if_pos hclosed]
    exact ha
  | false =>
    rw [publish, if_neg (by simp [hclosed])]
    refine ⟨?_, Hub.keeps_publish ha.keeps hclosed e, fun n r hr => ?_⟩
    · rw [Hub.publish, if_neg (by simp [hclosed])]
      exact ha.size_eq
    · exact Reader.sound_publish (ha.readers_sound n r hr) e

/-- A change of one subscription. -/
theorem sound_update (ha : a.Sound size) (n : Nat) {r? : Option Reader}
    (hr : ∀ r, r? = some r → r.Sound a.published) :
    Sound size { a with readers := Function.update a.readers n r? } where
  size_eq := ha.size_eq
  keeps := ha.keeps
  readers_sound := fun m r hm => by
    by_cases hmn : m = n
    · rw [hmn] at hm
      exact hr r (by simpa using hm)
    · exact ha.readers_sound m r (by simpa [hmn] using hm)

theorem sound_read (ha : a.Sound size) (n : Nat)
    {reading : Subscription → Option Event × Subscription}
    (hreading : ∀ s, s.position ≤ a.published.length →
      a.hub.Reads a.published s (reading s).1 (reading s).2) : (a.read n reading).Sound size := by
  rw [read]
  split
  · exact ha
  · rename_i r hr
    have hsound := ha.readers_sound n r hr
    refine sound_update ha n fun r' hr' => ?_
    cases hr'
    exact Reader.sound_after hsound (hreading r.subscription hsound.le_length)

theorem sound_act (ha : a.Sound size) (move : Move) : (a.act move).Sound size := by
  cases move with
  | subscribe n client =>
    refine sound_update ha n fun r hr => ?_
    cases hr
    have hplace : a.hub.total = a.published.length := ha.keeps.total_eq
    have hnone : (a.published.take a.hub.total).drop a.published.length = [] := by
      rw [hplace, List.take_length, List.drop_length]
    refine ⟨Nat.le_of_eq hplace.symm, Nat.le_of_eq hplace, List.nil_sublist _, fun _ => ?_⟩
    change [] = eventsFor client ((a.published.take a.hub.total).drop a.published.length)
    rw [hnone]
    rfl
  | unsubscribe n => exact sound_update ha n fun r hr => nomatch hr
  | broadcast event => exact sound_publish ha _
  | reply client event => exact sound_publish ha _
  | tryReceive n => exact sound_read ha n fun s hs => Hub.reads_receive? ha.keeps hs
  | receive n =>
    change (a.read n a.hub.waitFor).Sound size
    refine sound_read ha n fun s hs => ?_
    rw [Hub.waitFor_eq]
    exact Hub.reads_receive? ha.keeps hs
  | close => exact ⟨ha.size_eq, ⟨ha.keeps.total_eq, ha.keeps.kept_eq⟩, ha.readers_sound⟩

theorem sound_run (ha : a.Sound size) (moves : List Move) : (a.run moves).Sound size := by
  induction moves generalizing a with
  | nil => exact ha
  | cons move moves ih => exact ih (sound_act ha move)

/-! ## The result -/

/-- How many envelopes were published that a reader has not passed yet. -/
def behind (a : Audience) (r : Reader) : Nat :=
  a.published.length - r.subscription.position

/-- The events that a reader gets that reads until nothing is found. -/
def drained (a : Audience) (r : Reader) : List Event :=
  (a.hub.drain r.subscription).1

/-- What a reader of a hub for a capacity gets. -/
structure Serves (capacity : Nat) (a : Audience) (r : Reader) : Prop where
  /-- Draining brings the events for its client among the last envelopes, as far as it is
  behind and the hub keeps them, and leads to the end. -/
  drain_eq : a.hub.drain r.subscription =
    (eventsFor r.subscription.client (latest (min (a.behind r) a.hub.size) a.published),
      ⟨r.subscription.client, a.published.length⟩)
  /-- Nothing is lost within the capacity. -/
  within : a.behind r ≤ capacity → a.drained r =
    eventsFor r.subscription.client (a.published.drop r.subscription.position)
  /-- From its beginning on, nothing comes twice or out of order. -/
  once : (r.received ++ a.drained r).Sublist
    (eventsFor r.subscription.client (a.published.drop r.since))
  /-- From its beginning on, all comes that was not dropped before. -/
  whole : r.missed = 0 → a.behind r ≤ a.hub.size → r.received ++ a.drained r =
    eventsFor r.subscription.client (a.published.drop r.since)
  /-- A single reading passes over one stretch, with just what it found in it. -/
  reads : a.hub.Reads a.published r.subscription (a.hub.receive? r.subscription).1
    (a.hub.receive? r.subscription).2
  /-- Waiting finds what asking finds. -/
  receive_eq : a.hub.receive r.subscription = a.hub.awaited (a.hub.receive? r.subscription)
  /-- Waiting again and again brings what can be drained and only then says that there is
  nothing, on a closed hub for good. -/
  receipts_eq : ∀ n, a.hub.receipts r.subscription n =
    ((a.drained r).map Receipt.event ++ List.replicate n a.hub.nothing).take n

/-- What a hub keeps of the envelopes that a reader has not passed. -/
theorem latest_eq (ha : a.Sound size) {r : Reader} (hr : r.Sound a.published) :
    latest (min (a.behind r) a.hub.size) a.published =
      a.published.drop (a.hub.start r.subscription) := by
  have hplace := hr.le_length
  have htotal := ha.keeps.total_eq
  rw [latest, behind, Hub.start, Hub.oldest, htotal]
  congr 1
  omega

theorem start_of_behind_le (ha : a.Sound size) {r : Reader} (hbehind : a.behind r ≤ a.hub.size) :
    a.hub.start r.subscription = r.subscription.position := by
  have htotal := ha.keeps.total_eq
  rw [behind] at hbehind
  rw [Hub.start, Hub.oldest, htotal]
  omega

theorem serves (ha : a.Sound size) {n : Nat} {r : Reader} (hn : a.readers n = some r)
    {capacity : Nat} (hcapacity : capacity ≤ a.hub.size) : a.Serves capacity r := by
  have hr := ha.readers_sound n r hn
  have hdrain := Hub.drain_eq ha.keeps hr.le_length
  have hdrained : a.drained r =
      eventsFor r.subscription.client (a.published.drop (a.hub.start r.subscription)) :=
    congrArg Prod.fst hdrain
  have hsince := drop_eq_append hr.since_le a.published
  refine ⟨?_, fun hbehind => ?_, ?_, fun hmissed hbehind => ?_,
    Hub.reads_receive? ha.keeps hr.le_length, a.hub.receive_eq _,
    Hub.receipts_eq ha.keeps hr.le_length⟩
  · rw [latest_eq ha hr, hdrain]
  · rw [hdrained, start_of_behind_le ha (Nat.le_trans hbehind hcapacity)]
  · have hrest : (a.published.drop (a.hub.start r.subscription)).Sublist
        (a.published.drop r.subscription.position) :=
      List.drop_sublist_drop_left _ (Nat.le_max_left _ _)
    rw [hsince, Envelope.eventsFor_append, hdrained]
    exact hr.once.append (Envelope.eventsFor_sublist _ hrest)
  · rw [hsince, Envelope.eventsFor_append, hdrained, start_of_behind_le ha hbehind,
      hr.whole hmissed]

/-- **Who gets what.**  A hub for a capacity keeps as many envelopes as the least power of two
that is not below it.  Whatever was done with it, each subscription is read exactly: it gets
the events for its client, in order and none of them twice, from its place on or, where it is
further behind than that, from the oldest envelope kept; whether it asks or waits; and what is
there to be read comes before a closed hub says that there is nothing more. -/
theorem deliveries_are_exact {capacity : Nat} (hpos : 0 < capacity) :
    ∃ hub, Hub.ofCapacity? capacity = some hub ∧ Hub.LeastPowerOfTwo hub.size capacity ∧
      ∀ (moves : List Move) (n : Nat) (r : Reader),
        let a := (new hub).run moves
        a.hub.size = hub.size ∧ (a.readers n = some r → a.Serves capacity r) := by
  have hroom := Hub.leastPowerOfTwo_roomFor hpos
  refine ⟨{ size := Hub.roomFor capacity }, ?_, hroom, fun moves n r => ?_⟩
  · rw [Hub.ofCapacity?, if_neg (Nat.ne_of_gt hpos)]
  · have hnew : (new { size := Hub.roomFor capacity }).Sound (Hub.roomFor capacity) :=
      ⟨rfl, ⟨rfl, List.drop_nil.symm⟩, fun n r hr => absurd hr (Option.some_ne_none r).symm⟩
    have ha := sound_run hnew moves
    have hcapacity : capacity ≤ ((new { size := Hub.roomFor capacity }).run moves).hub.size :=
      Nat.le_trans hroom.2.1 (Nat.le_of_eq ha.size_eq.symm)
    exact ⟨ha.size_eq, fun hn => serves ha hn hcapacity⟩

/-- Two clients. -/
def alice : ClientId := ⟨1⟩

/-- The other one of the two. -/
def bob : ClientId := ⟨2⟩

/-- One of them falls behind what the hub keeps, the other one reads on. -/
def busyMoves : List Move :=
  [.subscribe 0 alice, .subscribe 1 bob, .reply alice (.log "a"), .broadcast (.log "b"),
    .tryReceive 1, .reply bob (.log "c"), .reply alice (.log "d"), .broadcast (.log "e"),
    .receive 1, .close]

/-- For a capacity of three there is room for four; the first subscription is five behind and
gets what is left for it, the second one all. -/
theorem deliveries_are_exact_busy :
    0 < 3 ∧ ∃ hub, Hub.ofCapacity? 3 = some hub ∧
      let a := (new hub).run busyMoves
      ∃ r, a.readers 0 = some r ∧ a.behind r = 5 ∧
        a.drained r = [.log "b", .log "d", .log "e"] ∧
        a.hub.receipts r.subscription 4 =
          [.event (.log "b"), .event (.log "d"), .event (.log "e"), .closed] := by
  obtain ⟨hub, hhub, -, hserves⟩ := deliveries_are_exact (by decide : 0 < 3)
  cases hhub
  have hserved := (hserves busyMoves 0 { subscription := ⟨alice, 0⟩, since := 0 }).2 rfl
  have hdrained := (congrArg Prod.fst hserved.drain_eq).trans
    (rfl : _ = [Event.log "b", Event.log "d", Event.log "e"])
  refine ⟨by decide, _, rfl, _, rfl, rfl, hdrained, ?_⟩
  exact (hserved.receipts_eq 4).trans (by rw [Audience.drained, hdrained]; rfl)

end Audience

end SerialBridge
