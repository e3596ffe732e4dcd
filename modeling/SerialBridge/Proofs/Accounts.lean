import SerialBridge.Proofs.Books
import SerialBridge.Proofs.Planning

/-! # The account of an upload

An upload that was begun waits until it is set running (`Claimed`).  Then it runs over the
handle that was current (`Running`): what was written for it are the first frames of its
plan, each once and in order, all whole and all through that handle, and its own counts say
how many they are (`Carried`).  When it ends, the outcome that is kept tells the same
(`Truthful`), and the account is closed for ever (`ended_act`).

What the upload does next is in `running_proceed`; every other action leaves it as it is,
save that it can be asked to stop.
-/

namespace SerialBridge

/-- What was written for an upload, most recent first, are the first frames of its plan,
written whole through one handle, and they have so many payload bytes. -/
structure Carried (plan : Plan) (h k bytes : Nat) (ts : List Transmission) : Prop where
  le_length : k ≤ plan.frames.length
  frames_eq : (ts.map (·.frame)).reverse = plan.frames.take k
  bytes_eq : bytes = Plan.bytesOf (plan.frames.take k)
  handle_eq : ∀ t ∈ ts, t.handle = h
  error_eq : ∀ t ∈ ts, t.error = none

theorem carried_nil (plan : Plan) (h : Nat) : Carried plan h 0 0 [] where
  le_length := Nat.zero_le _
  frames_eq := rfl
  bytes_eq := rfl
  handle_eq := fun _ ht => nomatch ht
  error_eq := fun _ ht => nomatch ht

/-- One more frame went out whole. -/
theorem Carried.cons {plan : Plan} {h k bytes : Nat} {ts : List Transmission}
    (hc : Carried plan h k bytes ts) {t : Transmission} (hframe : plan.frames[k]? = some t.frame)
    (hhandle : t.handle = h) (herror : t.error = none) :
    Carried plan h (k + 1) (bytes + t.frame.payloadLength) (t :: ts) where
  le_length := (List.getElem?_eq_some_iff.mp hframe).1
  frames_eq := by
    rw [List.map_cons, List.reverse_cons, hc.frames_eq, List.take_add_one, hframe,
      Option.toList_some]
  bytes_eq := by
    rw [List.take_add_one, hframe, Option.toList_some, ← Plan.length_flatMap_body,
      List.flatMap_append, List.length_append, Plan.length_flatMap_body, ← hc.bytes_eq,
      List.flatMap_singleton, Frame.length_body]
  handle_eq := List.forall_mem_cons.mpr ⟨hhandle, hc.handle_eq⟩
  error_eq := List.forall_mem_cons.mpr ⟨herror, hc.error_eq⟩

/-- An outcome tells what was written for the upload: so many frames went out whole.  A
failed upload may have left a part of one more on the wire. -/
def Truthful (plan : Plan) (h : Nat) : Outcome → List Transmission → Prop
  | .skipped, _ => False
  | .completed bytes k, ts => k = plan.frames.length ∧ Carried plan h k bytes ts
  | .cancelled bytes k, ts => k < plan.frames.length ∧ Carried plan h k bytes ts
  | .failed _ bytes k, ts => k < plan.frames.length ∧
    (Carried plan h k bytes ts ∨
      ∃ t rest, ts = t :: rest ∧ t.handle = h ∧ t.error ≠ none ∧
        plan.frames[k]? = some t.frame ∧ Carried plan h k bytes rest)

namespace Bridge

/-! ## Where an upload stands -/

/-- An upload holds the engine and has not been set running. -/
structure Claimed (b : Bridge) (u : Upload) : Prop where
  active_eq : b.engine.active = some u
  id_lt : u.id < b.engine.nextId
  stage_eq : u.stage = .claimed
  pending_eq : u.pending = u.plan.frames
  frames_ne : u.plan.frames ≠ []
  framesSent_eq : u.framesSent = 0
  bytesSent_eq : u.bytesSent = 0
  outcome_eq : b.engine.outcome? u.id = none
  written_eq : b.link.writtenFor u.id = []

/-- An upload runs over a handle, and its next frame is due at a time. -/
structure Running (b : Bridge) (u : Upload) (h due : Nat) : Prop where
  active_eq : b.engine.active = some u
  id_lt : u.id < b.engine.nextId
  stage_eq : u.stage = .running h due
  due_le : due ≤ b.clock + b.engine.settings.frameDelayMs.toNat
  pending_eq : u.pending = u.plan.frames.drop u.framesSent
  framesSent_lt : u.framesSent < u.plan.frames.length
  outcome_eq : b.engine.outcome? u.id = none
  carried : Carried u.plan h u.framesSent u.bytesSent (b.link.writtenFor u.id)

/-- An upload has ended, and its outcome tells what was written for it. -/
structure Ended (b : Bridge) (id : Nat) (plan : Plan) (h : Nat) (outcome : Outcome) : Prop where
  notHeld : b.NotHeld id
  id_lt : id < b.engine.nextId
  outcome_eq : b.engine.outcome? id = some outcome
  truthful : Truthful plan h outcome (b.link.writtenFor id)

/-- The account of an upload that has ended is closed. -/
theorem ended_act {b : Bridge} {id h : Nat} {plan : Plan} {outcome : Outcome}
    (he : Ended b id plan h outcome) (a : Action) : Ended (b.act a) id plan h outcome := by
  obtain ⟨hnot, houtcome, hwritten⟩ := act_of_not_held he.id_lt he.notHeld a
  refine ⟨hnot, ?_, houtcome.trans he.outcome_eq, ?_⟩
  · exact Nat.lt_of_lt_of_le he.id_lt (nextId_le_of_change (b.change_act a))
  · rw [hwritten]
    exact he.truthful

/-- An upload that holds the engine ends with an outcome that is true. -/
theorem ended_of_finish {b b' : Bridge} {u : Upload} {h : Nat} {outcome : Outcome}
    (hactive : b.engine.active = some u) (hid : u.id < b.engine.nextId)
    (hengine : b'.engine = b.engine.finish u.id outcome)
    (htrue : Truthful u.plan h outcome (b'.link.writtenFor u.id)) :
    Ended b' u.id u.plan h outcome := by
  rw [finish_of_active hactive] at hengine
  refine ⟨?_, ?_, ?_, htrue⟩
  · intro v hv
    rw [hengine] at hv
    cases hv
  · rw [hengine]
    exact hid
  · rw [hengine, Engine.outcome?, List.lookup_cons, beq_self_eq_true]

/-! ## Being begun and set running -/

theorem claimed_act {b : Bridge} {u : Upload} (hc : Claimed b u) {a : Action}
    (ha : ¬ a.Concerns u.id) : Claimed (b.act a) u := by
  have hsame : (b.act a).engine = b.engine ∧
      (b.act a).link.writtenFor u.id = b.link.writtenFor u.id := by
    by_cases hproceed : a = .proceed
    · subst hproceed
      have hnot : b.proceed = b := by
        refine proceed_of_not_running fun v h due hv hstage => ?_
        rw [hc.active_eq] at hv
        cases hv
        rw [hc.stage_eq] at hstage
        cases hstage
      rw [act, hnot]
      exact ⟨rfl, rfl⟩
    · exact act_of_not_concerned hc.active_eq ha hproceed
  constructor
  · rw [hsame.1]
    exact hc.active_eq
  · rw [hsame.1]
    exact hc.id_lt
  · exact hc.stage_eq
  · exact hc.pending_eq
  · exact hc.frames_ne
  · exact hc.framesSent_eq
  · exact hc.bytesSent_eq
  · rw [hsame.1]
    exact hc.outcome_eq
  · rw [hsame.2]
    exact hc.written_eq

/-- An upload that is set running over the current handle has its first frame due. -/
theorem running_launch {b : Bridge} {u : Upload} (hc : Claimed b u) {h : Nat}
    (hcurrent : b.link.current = some h) :
    Running (b.launch u.id) { u with stage := .running h b.clock } h b.clock := by
  rcases b.launch_cases u.id with
    ⟨-, hnot⟩ | ⟨v, published, hv, hid, -, ⟨hnone, -⟩ | ⟨h', hh', heq⟩⟩
  · exact absurd hc.stage_eq (hnot u hc.active_eq rfl)
  · rw [hcurrent] at hnone
    cases hnone
  · rw [hc.active_eq] at hv
    cases hv
    rw [hcurrent] at hh'
    cases hh'
    rw [heq]
    constructor
    · rfl
    · exact hc.id_lt
    · rfl
    · exact Nat.le_add_right _ _
    · change u.pending = u.plan.frames.drop u.framesSent
      rw [hc.pending_eq, hc.framesSent_eq, List.drop_zero]
    · change u.framesSent < u.plan.frames.length
      rw [hc.framesSent_eq]
      exact List.length_pos_iff.mpr hc.frames_ne
    · exact hc.outcome_eq
    · change Carried u.plan h u.framesSent u.bytesSent (b.link.writtenFor u.id)
      rw [hc.framesSent_eq, hc.bytesSent_eq, hc.written_eq]
      exact carried_nil u.plan h

/-- An upload that is set running without a link ends at once. -/
theorem ended_launch {b : Bridge} {u : Upload} (hc : Claimed b u) (h : Nat)
    (hcurrent : b.link.current = none) :
    Ended (b.launch u.id) u.id u.plan h (.failed .closed 0 0) := by
  rcases b.launch_cases u.id with
    ⟨-, hnot⟩ | ⟨v, published, hv, hid, -, ⟨-, heq⟩ | ⟨h', hh', -⟩⟩
  · exact absurd hc.stage_eq (hnot u hc.active_eq rfl)
  · rw [heq]
    refine ended_of_finish hc.active_eq hc.id_lt rfl ?_
    change Truthful u.plan h (.failed .closed 0 0) (b.link.writtenFor u.id)
    rw [hc.written_eq]
    exact ⟨List.length_pos_iff.mpr hc.frames_ne, .inl (carried_nil u.plan h)⟩
  · rw [hcurrent] at hh'
    cases hh'

/-! ## Running -/

/-- Time does not go back, and the pace is never changed. -/
theorem clock_le_act (b : Bridge) (a : Action) :
    b.clock ≤ (b.act a).clock ∧ (b.act a).engine.settings = b.engine.settings := by
  constructor
  · cases a with
    | link | publish | begin | stop | drop => exact Nat.le_refl _
    | pass ms => exact Nat.le_add_right _ _
    | launch id => exact Nat.le_of_eq (b.clock_launch id).symm
    | proceed => exact Nat.le_of_eq b.clock_proceed.symm
  · exact settings_of_change (b.change_act a)

/-- An upload that runs stays as it is unless it goes on or is asked to stop. -/
theorem running_act {b : Bridge} {u : Upload} {h due : Nat} (hr : Running b u h due) {a : Action}
    (hproceed : a ≠ .proceed) (hstop : a ≠ .stop u.id) : Running (b.act a) u h due := by
  have hsame : (b.act a).engine = b.engine ∧
      (b.act a).link.writtenFor u.id = b.link.writtenFor u.id := by
    by_cases ha : a.Concerns u.id
    · cases a with
      | launch k =>
        obtain rfl : k = u.id := ha
        rcases b.launch_cases u.id with ⟨heq, -⟩ | ⟨v, _, hv, -, hclaimed, -⟩
        · rw [act, heq]
          exact ⟨rfl, rfl⟩
        · rw [hr.active_eq] at hv
          cases hv
          rw [hr.stage_eq] at hclaimed
          cases hclaimed
      | drop k =>
        have hkeep : b.engine.drop k = b.engine := by
          have hstage : (u.stage == .claimed) = false := by
            rw [hr.stage_eq]
            rfl
          rw [Engine.drop, hr.active_eq, Option.any_some, hstage, Bool.and_false,
            if_neg Bool.false_ne_true]
        exact ⟨hkeep, rfl⟩
      | stop k =>
        obtain rfl : k = u.id := ha
        exact absurd rfl hstop
      | link | publish | begin | proceed | pass => exact ha.elim
    · exact act_of_not_concerned hr.active_eq ha hproceed
  constructor
  · rw [hsame.1]
    exact hr.active_eq
  · rw [hsame.1]
    exact hr.id_lt
  · exact hr.stage_eq
  · have hdue := hr.due_le
    have hclock := (b.clock_le_act a).1
    rw [hsame.1]
    omega
  · exact hr.pending_eq
  · exact hr.framesSent_lt
  · rw [hsame.1]
    exact hr.outcome_eq
  · rw [hsame.2]
    exact hr.carried

/-- An upload that is asked to stop goes on running until its next thing is due, which is at
once. -/
theorem running_stop {b : Bridge} {u : Upload} {h due : Nat} (hr : Running b u h due) :
    Running (b.act (.stop u.id)) { u with stopped := true } h due := by
  constructor
  · change (b.engine.stop u.id).active = _
    rw [Engine.stop, Engine.modify, hr.active_eq, Option.map_some, if_pos rfl]
  · exact hr.id_lt
  · exact hr.stage_eq
  · exact hr.due_le
  · exact hr.pending_eq
  · exact hr.framesSent_lt
  · exact hr.outcome_eq
  · exact hr.carried

/-- An upload that writes the next frame of its plan fails with the write, or the frame was
the last one and it is complete, or it runs on. -/
theorem running_write {b : Bridge} {u : Upload} {h due : Nat} (hr : Running b u h due)
    (hstopped : u.stopped = false) :
    (∃ frame reason, u.plan.frames[u.framesSent]? = some frame ∧
      (b.link.writeOn (.upload u.id) h frame).2 = .error reason ∧
      Ended (b.stepUpload u h) u.id u.plan h (.failed reason u.bytesSent u.framesSent)) ∨
    (u.framesSent + 1 = u.plan.frames.length ∧
      ∃ bytes, Ended (b.stepUpload u h) u.id u.plan h (.completed bytes u.plan.frames.length)) ∨
    ∃ v, v.id = u.id ∧ v.plan = u.plan ∧ v.stopped = false ∧ v.framesSent = u.framesSent + 1 ∧
      Running (b.stepUpload u h) v h (b.clock + b.engine.settings.frameDelayMs.toNat) := by
  obtain ⟨frame, hframe, hpending⟩ : ∃ frame, u.plan.frames[u.framesSent]? = some frame ∧
      u.pending = frame :: u.plan.frames.drop (u.framesSent + 1) := by
    refine ⟨_, List.getElem?_eq_getElem hr.framesSent_lt, ?_⟩
    rw [hr.pending_eq, List.drop_eq_getElem_cons hr.framesSent_lt]
  have hwritten := b.link.transmissions_writeOn (.upload u.id) h frame
  -- a frame that goes out whole is one more frame carried
  have hcarried : ∀ link, link = (b.link.writeOn (.upload u.id) h frame).1 →
      (b.link.writeOn (.upload u.id) h frame).2 = .ok () →
      Carried u.plan h (u.framesSent + 1) (u.bytesSent + frame.payloadLength)
        (link.writtenFor u.id) := by
    rintro _ rfl hok
    rcases hwritten with ⟨⟨e, he⟩, -⟩ | ⟨t, hauthor, hhandle, ht, hmore, hiff⟩
    · rw [hok] at he
      cases he
    · rw [Link.writtenFor_cons hmore hauthor, ← ht]
      exact hr.carried.cons (ht ▸ hframe) hhandle (hiff.mp hok)
  rcases stepUpload_of_pending hr.active_eq hstopped hpending h with
    ⟨reason, published, herror, heq⟩ | ⟨published, hok, hrest, heq⟩ | ⟨hok, hrest, heq⟩
  · refine .inl ⟨frame, reason, hframe, herror, ?_⟩
    refine ended_of_finish hr.active_eq hr.id_lt (congrArg engine heq) ?_
    rw [heq]
    refine ⟨hr.framesSent_lt, ?_⟩
    rcases hwritten with ⟨-, hsame⟩ | ⟨t, hauthor, hhandle, ht, hmore, hiff⟩
    · refine .inl ?_
      rw [Link.writtenFor_congr hsame]
      exact hr.carried
    · refine .inr ⟨t, _, Link.writtenFor_cons hmore hauthor, hhandle, ?_, ?_, hr.carried⟩
      · intro hnone
        rw [hiff.mpr hnone] at herror
        cases herror
      · rw [ht]
        exact hframe
  · have hlast : u.framesSent + 1 = u.plan.frames.length :=
      Nat.le_antisymm hr.framesSent_lt (List.drop_eq_nil_iff.mp hrest)
    refine .inr (.inl ⟨hlast, u.bytesSent + frame.payloadLength, ?_⟩)
    rw [← hlast]
    refine ended_of_finish hr.active_eq hr.id_lt (congrArg engine heq) ?_
    exact ⟨hlast, hcarried _ (congrArg link heq) hok⟩
  · have hlt : u.framesSent + 1 < u.plan.frames.length :=
      Nat.lt_of_not_le fun hle => hrest (List.drop_eq_nil_iff.mpr hle)
    refine .inr (.inr ⟨u.advance frame (u.plan.frames.drop (u.framesSent + 1)) h
      (b.clock + b.engine.settings.frameDelayMs.toNat), rfl, rfl, hstopped, rfl, ?_⟩)
    rw [heq]
    exact ⟨rfl, hr.id_lt, rfl, Nat.le_refl _, rfl, hlt, hr.outcome_eq, hcarried _ rfl hok⟩

/-- **What an upload that runs does next**: it waits until that is due, or it was stopped and
ends, or it writes. -/
theorem running_proceed {b : Bridge} {u : Upload} {h due : Nat} (hr : Running b u h due) :
    (b.proceed = b ∧ b.clock < if u.stopped then 0 else due) ∨
    (u.stopped = true ∧
      Ended b.proceed u.id u.plan h (.cancelled u.bytesSent u.framesSent)) ∨
    (u.stopped = false ∧ due ≤ b.clock ∧ b.proceed = b.stepUpload u h) := by
  have hproceed := proceed_of_running hr.active_eq hr.stage_eq
  rcases Nat.lt_or_ge b.clock (if u.stopped then 0 else due) with hwait | hdue
  · rw [if_neg (Nat.not_le.mpr hwait)] at hproceed
    exact .inl ⟨hproceed, hwait⟩
  · rw [if_pos hdue] at hproceed
    rw [hproceed]
    cases hstopped : u.stopped with
    | true =>
      obtain ⟨published, heq⟩ := b.stepUpload_of_stopped hstopped h
      refine .inr (.inl ⟨rfl, ended_of_finish hr.active_eq hr.id_lt (congrArg engine heq) ?_⟩)
      rw [heq]
      exact ⟨hr.framesSent_lt, hr.carried⟩
    | false =>
      rw [hstopped, if_neg Bool.false_ne_true] at hdue
      exact .inr (.inr ⟨rfl, hdue, rfl⟩)

/-- An upload was set running over a handle: it runs still, or has ended. -/
def Launched (b : Bridge) (id : Nat) (plan : Plan) (h : Nat) : Prop :=
  (∃ u due, u.id = id ∧ u.plan = plan ∧ Running b u h due) ∨ ∃ outcome, Ended b id plan h outcome

theorem launched_act {b : Bridge} {id h : Nat} {plan : Plan} (hl : Launched b id plan h)
    (a : Action) : Launched (b.act a) id plan h := by
  rcases hl with ⟨u, due, rfl, rfl, hr⟩ | ⟨outcome, he⟩
  · by_cases hstop : a = .stop u.id
    · rw [hstop]
      exact .inl ⟨{ u with stopped := true }, due, rfl, rfl, running_stop hr⟩
    by_cases hproceed : a = .proceed
    · rw [hproceed, act]
      rcases running_proceed hr with ⟨hwait, -⟩ | ⟨-, he⟩ | ⟨hstopped, -, hwrite⟩
      · rw [hwait]
        exact .inl ⟨u, due, rfl, rfl, hr⟩
      · exact .inr ⟨_, he⟩
      · rw [hwrite]
        rcases running_write hr hstopped with
          ⟨_, _, -, -, he⟩ | ⟨-, _, he⟩ | ⟨v, hid, hplan, -, -, hr'⟩
        · exact .inr ⟨_, he⟩
        · exact .inr ⟨_, he⟩
        · exact .inl ⟨v, _, hid, hplan, hr'⟩
    · exact .inl ⟨u, due, rfl, rfl, running_act hr hproceed hstop⟩
  · exact .inr ⟨outcome, ended_act he a⟩

end Bridge

end SerialBridge
