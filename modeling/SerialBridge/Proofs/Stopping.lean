import Mathlib.Data.List.Nodup
import SerialBridge.Proofs.Tally

/-! # Asking an upload to stop

An upload is asked to stop in three ways (`StopOrder`): whatever upload is under way is to stop, a
client requests just that, or the upload is named by its number.  A number means one upload for
ever.  So an order that comes late, when its upload has ended, changes nothing
(`act_stop_of_notHeld`), whoever holds the engine by then.

An upload that was asked to stop is *halted*.  It may hold the engine for a while, and be set
running, but it writes nothing any more (`halted_act`).  What it does next is to end: a request to
stop is looked at before the frame that is due and before the link, so the upload is cancelled with
the counts it has (`halted_run`), also when its link is gone.

Orders can come at any time, in particular while an upload waits between two frames; then it does
not wait any longer (`settle_of_stopped`).  An upload that has not been set running keeps the order
in mind and ends with its first look (`ends_start`).
-/

namespace SerialBridge

theorem Upload.stopped_self {u : Upload} (h : u.stopped = true) :
    { u with stopped := true } = u := by
  rw [← h]

namespace Bridge

/-! ## Halted uploads -/

/-- If the upload of a number holds the engine, it was asked to stop. -/
def Halted (b : Bridge) (id : Nat) : Prop :=
  ∀ u, b.engine.active = some u → u.id = id → u.stopped = true

theorem halted_stop (b : Bridge) (id : Nat) : (b.act (.stop id)).Halted id := by
  intro v hv hid
  change (b.engine.stop id).active = some v at hv
  rw [Engine.stop, Engine.modify, Option.map_eq_some_iff] at hv
  obtain ⟨u, -, rfl⟩ := hv
  by_cases hu : u.id = id
  · rw [if_pos hu]
  · rw [if_neg hu] at hid
    exact absurd hid hu

/-- **Nothing is written for a halted upload**, and it stays halted. -/
theorem halted_act {b : Bridge} {id : Nat} (hid : id < b.engine.nextId) (hb : b.Halted id)
    (a : Action) :
    (b.act a).Halted id ∧ (b.act a).link.writtenFor id = b.link.writtenFor id := by
  refine ⟨fun v hv hvid => ?_, ?_⟩
  · cases onward_act hv with
    | same hactive => exact hb v hactive hvid
    | begun client payload announced hnew =>
      rw [hnew] at hvid
      exact absurd hvid (Nat.ne_of_gt hid)
    | launched u h hactive _ hlaunched =>
      rw [hlaunched] at hvid ⊢
      exact hb u hactive hvid
    | sent u frame rest h due next hactive _ _ hsent =>
      rw [hsent] at hvid ⊢
      exact hb u hactive hvid
    | stopped u _ hstopped => rw [hstopped]
  · rcases b.transmissions_act a with heq | ⟨t, heq, hauthor⟩
    · exact Link.writtenFor_congr heq id
    · refine Link.writtenFor_cons_of_ne heq fun hupload => ?_
      rcases hauthor with hline | ⟨rfl, u, hactive, hauthor⟩
      · rw [hline] at hupload
        cases hupload
      · -- a stopped upload ends without a look at the link
        rw [hauthor] at hupload
        cases hupload
        have hstopped := hb u hactive rfl
        rcases b.proceed_cases with hsame | ⟨v, h, hv, hsame⟩
        · rw [act, hsame] at heq
          exact absurd heq.symm (List.cons_ne_self _ _)
        · rw [hactive] at hv
          cases hv
          obtain ⟨published, hends⟩ := b.stepUpload_of_stopped hstopped h
          rw [act, hsame, hends] at heq
          exact absurd heq.symm (List.cons_ne_self _ _)

theorem writtenFor_run_of_halted {b : Bridge} {id : Nat} (hid : id < b.engine.nextId)
    (hb : b.Halted id) (later : List Action) :
    (b.run later).link.writtenFor id = b.link.writtenFor id := by
  induction later generalizing b with
  | nil => rfl
  | cons a later ih =>
    obtain ⟨hhalted, hwritten⟩ := halted_act hid hb a
    have hlt := Nat.lt_of_lt_of_le hid (nextId_le_of_change (b.change_act a))
    rw [run_cons, ih hlt hhalted, hwritten]

/-- A halted upload that runs goes on waiting, or ends with the counts it has. -/
theorem running_act_of_stopped {b : Bridge} {u : Upload} {h due : Nat} (hr : Running b u h due)
    (hstopped : u.stopped = true) {a : Action} (hproceed : a ≠ .proceed) :
    Running (b.act a) u h due := by
  by_cases hstop : a = .stop u.id
  · have hagain := running_stop hr
    rw [Upload.stopped_self hstopped] at hagain
    rwa [hstop]
  · exact running_act hr hproceed hstop

theorem ended_proceed_of_stopped {b : Bridge} {u : Upload} {h due : Nat} (hr : Running b u h due)
    (hstopped : u.stopped = true) :
    Ended b.proceed u.id u.plan h (.cancelled u.bytesSent u.framesSent) := by
  rcases running_proceed hr with ⟨-, hwait⟩ | ⟨-, he⟩ | ⟨hnot, -⟩
  · rw [if_pos hstopped] at hwait
    exact absurd hwait (Nat.not_lt_zero _)
  · exact he
  · rw [hstopped] at hnot
    cases hnot

theorem ended_run {b : Bridge} {id h : Nat} {plan : Plan} {outcome : Outcome}
    (he : Ended b id plan h outcome) (later : List Action) :
    Ended (b.run later) id plan h outcome :=
  run_keeps (P := fun b => Ended b id plan h outcome) (fun _ a h => ended_act h a) he later

/-- **What becomes of a halted upload that runs**: it ends as soon as it gets its turn, and until
then nothing happens to it. -/
theorem halted_run {b : Bridge} {u : Upload} {h due : Nat} (hr : Running b u h due)
    (hstopped : u.stopped = true) (later : List Action) :
    (.proceed ∈ later →
      Ended (b.run later) u.id u.plan h (.cancelled u.bytesSent u.framesSent)) ∧
    (.proceed ∉ later → Running (b.run later) u h due) := by
  induction later generalizing b with
  | nil => exact ⟨fun hmem => (nomatch hmem), fun _ => hr⟩
  | cons a later ih =>
    by_cases hproceed : a = .proceed
    · subst hproceed
      exact ⟨fun _ => ended_run (ended_proceed_of_stopped hr hstopped) later,
        fun hnot => absurd List.mem_cons_self hnot⟩
    · have hnext := ih (running_act_of_stopped hr hstopped hproceed)
      refine ⟨fun hmem => hnext.1 ?_, fun hnot => hnext.2 fun hmem => ?_⟩
      · exact (List.mem_cons.mp hmem).resolve_left (Ne.symm hproceed)
      · exact hnot (List.mem_cons_of_mem a hmem)

theorem claimed_run_of_stopped {b : Bridge} {u : Upload} (hc : Claimed b u)
    (hstopped : u.stopped = true) {later : List Action} (hlaunch : .launch u.id ∉ later)
    (hdrop : .drop u.id ∉ later) : Claimed (b.run later) u := by
  induction later generalizing b with
  | nil => exact hc
  | cons a later ih =>
    rw [List.mem_cons, not_or] at hlaunch hdrop
    refine ih ?_ hlaunch.2 hdrop.2
    by_cases ha : a.Concerns u.id
    · cases a with
      | stop k =>
        obtain rfl : k = u.id := ha
        have hagain := claimed_stop hc
        rwa [Upload.stopped_self hstopped] at hagain
      | launch k =>
        obtain rfl : k = u.id := ha
        exact absurd rfl hlaunch.1
      | drop k =>
        obtain rfl : k = u.id := ha
        exact absurd rfl hdrop.1
      | link | publish | begin | proceed | pass => exact ha.elim
    · exact claimed_act hc ha

/-! ## Ending at once -/

theorem workFor_of_not_running {b : Bridge} (hnone : b.running? = none) (n time : Nat) :
    workFor n time b = b := by
  cases n with
  | zero => rfl
  | succ n => rw [workFor, hnone]

theorem running?_of_free {b : Bridge} (hfree : b.engine.active = none) : b.running? = none := by
  rw [running?, hfree, Option.bind_none]

/-- An upload that has not been set running has nothing to do. -/
theorem settle_of_not_started {b : Bridge} {u : Upload} (hactive : b.engine.active = some u)
    (hstage : u.stage = .claimed) : b.settle = b := by
  refine workFor_of_not_running ?_ _ _
  rw [running?, hactive, Option.bind_some]
  simp only [hstage]

theorem settle_of_claimed {b : Bridge} {u : Upload} (hc : Claimed b u) : b.settle = b :=
  settle_of_not_started hc.active_eq hc.stage_eq

/-- An upload that runs and was asked to stop has one thing to do, which is to end. -/
theorem settle_eq_endUpload {b : Bridge} {u : Upload} {h due : Nat}
    (hactive : b.engine.active = some u) (hstage : u.stage = .running h due)
    (hstopped : u.stopped = true) :
    b.settle = b.endUpload u (.cancelled u.bytesSent u.framesSent) := by
  have hrunning : b.running? = some (u, h, 0) := by
    rw [running?_of_stage hactive hstage, if_pos hstopped]
  have hproceed : b.proceed = b.endUpload u (.cancelled u.bytesSent u.framesSent) := by
    rw [proceed_of_running hactive hstage, if_pos hstopped, if_pos (Nat.zero_le _), stepUpload,
      if_pos hstopped]
  have hfree : (b.endUpload u (.cancelled u.bytesSent u.framesSent)).running? = none := by
    obtain ⟨published, hends⟩ := b.endUpload_eq u (.cancelled u.bytesSent u.framesSent)
    rw [hends, finish_of_active hactive]
    exact running?_of_free rfl
  rw [settle, work, workFor_succ_of_past hrunning (Nat.zero_le _) (Nat.zero_le _), act, hproceed]
  exact workFor_of_not_running hfree _ _

/-- An upload was cancelled with so many frames and bytes, without a look at the link and without
delay, and the engine is free. -/
structure EndsAt (before after : Bridge) (id frames bytes : Nat) : Prop where
  outcome_eq : after.engine.outcome? id = some (.cancelled bytes frames)
  free : after.engine.isActive = false
  link_eq : after.link = before.link
  clock_eq : after.clock = before.clock

/-- **A halted upload that runs does not wait for its next frame.** -/
theorem settle_of_stopped {b : Bridge} {u : Upload} {h due : Nat} (hr : Running b u h due)
    (hstopped : u.stopped = true) : EndsAt b b.settle u.id u.framesSent u.bytesSent := by
  obtain ⟨published, hends⟩ := b.endUpload_eq u (.cancelled u.bytesSent u.framesSent)
  rw [finish_of_active hr.active_eq] at hends
  rw [settle_eq_endUpload hr.active_eq hr.stage_eq hstopped, hends]
  refine ⟨?_, rfl, rfl, rfl⟩
  rw [Engine.outcome?, List.lookup_cons, beq_self_eq_true]

/-- An upload that was halted before it is set running ends with its first look. -/
theorem ends_start {b : Bridge} {u : Upload} (hc : Claimed b u) (hstopped : u.stopped = true)
    {h : Nat} (hcurrent : b.link.current = some h) : EndsAt b (b.start u.id) u.id 0 0 := by
  have hends := settle_of_stopped (running_launch hc hcurrent) hstopped
  constructor
  · have houtcome := hends.outcome_eq
    dsimp only at houtcome
    rwa [hc.framesSent_eq, hc.bytesSent_eq] at houtcome
  · exact hends.free
  · exact hends.link_eq.trans (b.link_launch u.id)
  · exact hends.clock_eq.trans (b.clock_launch u.id)

/-! ## The ways to ask -/

/-- A way to ask an upload to stop. -/
inductive StopOrder where
  /-- Whatever upload is under way is to stop. -/
  | current
  /-- A client requests that. -/
  | request (client : ClientId)
  /-- The upload is named. -/
  | named
  deriving DecidableEq, Repr

/-- The bridge after the upload of a number, which is under way, was asked to stop. -/
def stopBy (b : Bridge) (id : Nat) : StopOrder → Bridge
  | .current => b.cancel.1
  | .request client => b.dispatch client .stopTransfer
  | .named => b.stop id

/-- Every order comes to the same; a client is told besides. -/
theorem stopBy_eq {b : Bridge} {u : Upload} (hactive : b.engine.active = some u)
    (order : StopOrder) :
    ∃ told : List Envelope, b.stopBy u.id order =
      ((b.act (.stop u.id)).run (told.map .publish)).settle := by
  cases order with
  | current =>
    refine ⟨[], ?_⟩
    rw [stopBy, cancel, Engine.cancel, hactive]
    rfl
  | request client =>
    refine ⟨[.reply client (.log "Stopping transmission...")], ?_⟩
    change b.stopUpload client = _
    rw [stopUpload, Engine.cancel, hactive]
    rfl
  | named => exact ⟨[], rfl⟩

/-- Publishing takes no time and leaves the link alone. -/
theorem link_run_publish (b : Bridge) (told : List Envelope) :
    (b.run (told.map .publish)).link = b.link ∧ (b.run (told.map .publish)).clock = b.clock := by
  induction told generalizing b with
  | nil => exact ⟨rfl, rfl⟩
  | cons e told ih => exact ih (b.publish e)

/-- **An upload that runs ends with the order**, whichever it is. -/
theorem ends_stopBy {b : Bridge} {u : Upload} {h due : Nat} (hr : Running b u h due)
    (order : StopOrder) : EndsAt b (b.stopBy u.id order) u.id u.framesSent u.bytesSent := by
  obtain ⟨told, heq⟩ := stopBy_eq hr.active_eq order
  have hquiet : .proceed ∉ told.map Action.publish := by simp
  have hr' := (halted_run (running_stop hr) rfl (told.map .publish)).2 hquiet
  have hends := settle_of_stopped hr' rfl
  obtain ⟨hlink, hclock⟩ := (b.act (.stop u.id)).link_run_publish told
  rw [heq]
  exact ⟨hends.outcome_eq, hends.free, hends.link_eq.trans hlink, hends.clock_eq.trans hclock⟩

/-- An upload that waits to be set running goes on waiting, halted. -/
theorem claimed_stopBy {b : Bridge} {u : Upload} (hc : Claimed b u) (order : StopOrder) :
    Claimed (b.stopBy u.id order) { u with stopped := true } := by
  obtain ⟨told, heq⟩ := stopBy_eq hc.active_eq order
  have hc' : Claimed ((b.act (.stop u.id)).run (told.map .publish)) { u with stopped := true } :=
    claimed_run_of_stopped (claimed_stop hc) rfl (by simp) (by simp)
  rw [heq, settle_of_claimed hc']
  exact hc'

/-- What is asked of an upload that does not hold the engine is asked of nobody. -/
theorem act_stop_of_notHeld {b : Bridge} {id : Nat} (hnot : b.NotHeld id) :
    b.act (.stop id) = b := by
  have hsame : b.engine.stop id = b.engine := by
    rw [Engine.stop, Engine.modify]
    cases hactive : b.engine.active with
    | none => rw [Option.map_none, ← hactive]
    | some u => rw [Option.map_some, if_neg (hnot u hactive), ← hactive]
  rw [act, hsame]

end Bridge

namespace Sessions

theorem Kept.cancel_iff {s : Sessions} (hs : Kept s) :
    s.bridge.cancel.2 = true ↔ s.live ≠ [] := by
  rw [← hs.active_iff, Bridge.cancel, Engine.cancel, Engine.isActive]
  cases s.bridge.engine.active <;> simp

/-- An upload that is not live does not hold the engine. -/
theorem Kept.notHeld_of_not_live {s : Sessions} (hs : Kept s) {u : Upload} (hu : u ∈ s.begun)
    (hnot : u ∉ s.live) : s.bridge.NotHeld u.id := by
  intro v hv hid
  obtain ⟨w, hsame, hw⟩ := hs.held.exists_mem hv
  have hbegun : w ∈ s.begun := by
    refine hs.known w ?_
    rw [List.mem_append] at hw ⊢
    exact hw.imp_right fun hw => (List.mem_filter.mp hw).1
  -- no two uploads that were begun have one number
  have hdistinct : (s.begun.map (·.id)).Nodup :=
    List.pairwise_map.mpr (hs.falling.imp Nat.ne_of_gt)
  have heq : w = u := List.inj_on_of_nodup_map hdistinct hbegun hu (hsame.1.symm.trans hid)
  exact hnot (heq ▸ hw)

/-- An upload that is live has a number that was given out. -/
theorem Kept.id_lt_of_live {s : Sessions} (hs : Kept s) {u : Upload} (hu : u ∈ s.live) :
    u.id < s.bridge.engine.nextId := by
  refine hs.begun_lt u (hs.known u ?_)
  rw [live, List.mem_append] at hu
  rw [List.mem_append]
  exact hu.imp_right fun hu => (List.mem_filter.mp hu).1

/-- What is shown of an upload that runs are the counts with which it runs. -/
theorem Accounted.exists_running {s : Sessions} (hs : Accounted s) {u : Upload}
    (hu : u ∈ s.running) :
    ∃ v h due handle, v.id = u.id ∧ s.bridge.Running v h due ∧ Shows s u handle v.progress := by
  have hlive : u ∈ s.live := List.mem_append_right _ hu
  obtain ⟨handle, p, hp⟩ := hs.exists_shows hlive
  obtain ⟨t, ht, rfl⟩ := List.mem_map.mp (List.mem_filter.mp hu).1
  obtain ⟨h, hover⟩ := t.exists_runsOver
  rcases hs.started t ht h hover with ⟨v, due, hid, -, hr⟩ | ⟨outcome, he⟩
  · have hsame := hp.progress_eq
    rw [Engine.progress?, hr.active_eq, Option.map_some] at hsame
    cases hsame
    exact ⟨v, h, due, handle, hid, hr, hp⟩
  · have hnone := hs.outcome_of_live hlive
    rw [he.outcome_eq] at hnone
    cases hnone

/-- What asking uploads to stop comes to, in one state. -/
structure Obeys (s : Sessions) : Prop where
  /-- Whoever asks is told whether an upload is live. -/
  cancel_iff : s.bridge.cancel.2 = true ↔ s.live ≠ []
  /-- Whatever happens after an order, nothing is written for the upload any more. -/
  nothing_more : ∀ u ∈ s.live, ∀ later order,
    ((s.bridge.stopBy u.id order).run later).link.writtenFor u.id =
      s.bridge.link.writtenFor u.id
  /-- The same if the order has been given and the upload has not had its turn yet. -/
  nothing_more_pending : ∀ u ∈ s.live, ∀ later,
    ((s.bridge.act (.stop u.id)).run later).link.writtenFor u.id =
      s.bridge.link.writtenFor u.id
  /-- An upload that runs is cancelled at once, with just what was written for it so far.  It may
  also be late to notice, and other things happen first. -/
  running_ends : ∀ u ∈ s.running, ∃ handle p, Shows s u handle p ∧
    (∀ order, s.bridge.EndsAt (s.bridge.stopBy u.id order) u.id p.framesSent p.bytesSent) ∧
    ∀ later, .proceed ∈ later →
      ((s.bridge.act (.stop u.id)).run later).engine.outcome? u.id =
        some (.cancelled p.bytesSent p.framesSent)
  /-- An upload that has not been set running ends when it is, if a link is open then. -/
  unrun_ends : ∀ u ∈ s.unrun, ∀ order later, .launch u.id ∉ later → .drop u.id ∉ later →
    let b := (s.bridge.stopBy u.id order).run later
    b.link.isOpen = true → b.EndsAt (b.start u.id) u.id 0 0
  /-- An order that comes too late for its upload leaves everything as it is. -/
  late : ∀ u ∈ s.begun, u ∉ s.live →
    s.bridge.act (.stop u.id) = s.bridge ∧ s.bridge.stop u.id = s.bridge.settle

theorem Accounted.running_ends {s : Sessions} (hs : Accounted s) {u : Upload}
    (hu : u ∈ s.running) : ∃ handle p, Shows s u handle p ∧
    (∀ order, s.bridge.EndsAt (s.bridge.stopBy u.id order) u.id p.framesSent p.bytesSent) ∧
    ∀ later, .proceed ∈ later →
      ((s.bridge.act (.stop u.id)).run later).engine.outcome? u.id =
        some (.cancelled p.bytesSent p.framesSent) := by
  obtain ⟨v, h, due, handle, hid, hr, hshows⟩ := hs.exists_running hu
  rw [← hid]
  refine ⟨handle, v.progress, hshows, Bridge.ends_stopBy hr, fun later hproceed => ?_⟩
  exact ((Bridge.halted_run (Bridge.running_stop hr) rfl later).1 hproceed).outcome_eq

theorem Accounted.unrun_ends {s : Sessions} (hs : Accounted s) {u : Upload} (hu : u ∈ s.unrun)
    (order : Bridge.StopOrder) {later : List Bridge.Action} (hlaunch : .launch u.id ∉ later)
    (hdrop : .drop u.id ∉ later) :
    let b := (s.bridge.stopBy u.id order).run later
    b.link.isOpen = true → b.EndsAt (b.start u.id) u.id 0 0 := by
  obtain ⟨v, ⟨hid, -, -⟩, hc⟩ := hs.unrun u hu
  rw [← hid] at hlaunch hdrop ⊢
  intro b hopen
  obtain ⟨h, hcurrent⟩ := Option.isSome_iff_exists.mp hopen
  have hwaits : b.Claimed { v with stopped := true } :=
    Bridge.claimed_run_of_stopped (Bridge.claimed_stopBy hc order) rfl hlaunch hdrop
  exact Bridge.ends_start (u := { v with stopped := true }) hwaits rfl hcurrent

/-- The upload that is live is the one that is asked. -/
theorem Accounted.nothing_more {s : Sessions} (hs : Accounted s) {u : Upload} (hu : u ∈ s.live)
    (later : List Bridge.Action) :
    ((s.bridge.act (.stop u.id)).run later).link.writtenFor u.id =
      s.bridge.link.writtenFor u.id := by
  have hlt : u.id < (s.bridge.act (.stop u.id)).engine.nextId :=
    Nat.lt_of_lt_of_le (hs.kept.id_lt_of_live hu)
      (Bridge.nextId_le_of_change (s.bridge.change_act (.stop u.id)))
  exact Bridge.writtenFor_run_of_halted hlt (s.bridge.halted_stop u.id) later

theorem Accounted.nothing_more_stopBy {s : Sessions} (hs : Accounted s) {u : Upload}
    (hu : u ∈ s.live) (later : List Bridge.Action) (order : Bridge.StopOrder) :
    ((s.bridge.stopBy u.id order).run later).link.writtenFor u.id =
      s.bridge.link.writtenFor u.id := by
  rcases hs.kept.live_cases with ⟨-, hnone⟩ | ⟨v, w, hactive, hsame, hone⟩
  · rw [hnone] at hu
    cases hu
  · rw [hone, List.mem_singleton] at hu
    have hid : v.id = u.id := by rw [hu, hsame.1]
    obtain ⟨told, heq⟩ := Bridge.stopBy_eq hactive order
    obtain ⟨rest, -, hrest⟩ :=
      ((s.bridge.act (.stop v.id)).run (told.map .publish)).reaches_settle
    have hlive : u ∈ s.live := by
      rw [hone, hu]
      exact List.mem_singleton_self w
    rw [← hid, heq, ← hrest, ← Bridge.run_append, ← Bridge.run_append, hid]
    exact hs.nothing_more hlive _

/-- **Stopping works**, in every run: whoever asks, and whenever, the upload under way writes
nothing more and ends as cancelled with what it has sent, and no other upload is touched. -/
theorem uploads_obey_stop_orders (settings : Settings) (bench : Bench)
    (actions : List Bridge.Action) : Obeys ((new settings bench).run actions) := by
  have hs : Accounted ((new settings bench).run actions) :=
    accounted_run (accounted_new settings bench) actions
  exact
    { cancel_iff := hs.kept.cancel_iff
      nothing_more := fun u hu later order => hs.nothing_more_stopBy hu later order
      nothing_more_pending := fun u hu later => hs.nothing_more hu later
      running_ends := fun u hu => hs.running_ends hu
      unrun_ends := fun u hu order later hlaunch hdrop => hs.unrun_ends hu order hlaunch hdrop
      late := fun u hu hnot => by
        have hsame := Bridge.act_stop_of_notHeld (hs.kept.notHeld_of_not_live hu hnot)
        exact ⟨hsame, congrArg Bridge.settle hsame⟩ }

/-- One upload has ended, a second one waits between its two chunks, and the link is closed. -/
def pausing : List Bridge.Action :=
  Bridge.opening ++ [.begin ⟨0⟩ [0x61] true, .launch 1, .proceed,
    .begin ⟨1⟩ [0x61, 0x62, 0x63, 0x64, 0x65] true, .launch 2, .proceed, .link .clear trivial]

/-- The second upload, as it was begun. -/
def pausedUpload : Upload where
  id := 2
  client := ⟨1⟩
  plan := .build [0x61, 0x62, 0x63, 0x64, 0x65] Bridge.pacedSettings.transfer
  announced := true

/-- A late order for the first upload changes nothing, and a client that stops the second one finds
it cancelled after one chunk, although there is no link any more. -/
theorem paused_upload_is_cancelled :
    let s := (new Bridge.pacedSettings {}).run pausing
    pausedUpload ∈ s.running ∧ s.bridge.link.isOpen = false ∧
      s.bridge.act (.stop 1) = s.bridge ∧
      (s.bridge.dispatch ⟨0⟩ .stopTransfer).engine.outcome? 2 = some (.cancelled 3 1) := by
  intro s
  have hrunning : pausedUpload ∈ s.running := by decide
  have hobeys := uploads_obey_stop_orders Bridge.pacedSettings {} pausing
  obtain ⟨handle, p, hp, hends, -⟩ := hobeys.running_ends pausedUpload hrunning
  have hcounts : p.framesSent = 1 ∧ p.bytesSent = 3 := by
    have hprogress := hp.progress_eq
    cases hprogress
    decide
  have hlate := hobeys.late
    { id := 1
      client := ⟨0⟩
      plan := .build [0x61] Bridge.pacedSettings.transfer
      announced := true }
    (by decide) (by decide)
  have houtcome := (hends (.request ⟨0⟩)).outcome_eq
  rw [hcounts.1, hcounts.2] at houtcome
  exact ⟨hrunning, by decide, hlate.1, houtcome⟩

end Sessions

end SerialBridge
