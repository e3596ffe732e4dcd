import SerialBridge.Proofs.Accounts
import SerialBridge.Proofs.Wire

/-! # Delivery of uploads

An upload that is begun and set running over the current link, that nobody stops and whose
link nobody replaces, goes out whole as long as its device accepts what is written
(`upload_delivers_payload`).  Clients may write lines between its frames, the reader may
read, other uploads may be asked for and refused, devices may come and go: none of it
matters.

Two invariants carry this.  The link stays ready (`Link.Ready`), so that no write fails; and
the upload stays on course (`Bridge.OnCourse`), so that it runs, or is complete.  With time
enough for all its frames it is complete (`ended_workFor`), its account says that all frames
of its plan went out, and the plan carries the payload.
-/

namespace SerialBridge

namespace Link

/-! ## A link that no write fails on -/

/-- A handle is current, and the device behind it accepts all that is written. -/
structure Ready (l : Link) (h d : Nat) : Prop where
  sound : l.Sound
  current_eq : l.current = some h
  port : ∃ path, l.portOf h = some (path, d)
  accepting : ∃ faults, l.bench.faultsOf d = some faults ∧ faults.Accepting

/-- The step neither replaces the link nor makes a device fail. -/
def Step.Spares (d : Nat) : Step → Prop
  | .clear | .openPort .. => False
  | .surround (.configure k faults) => k = d → faults.Accepting
  | _ => True

/-- A device that accepts everything takes every frame that is given to it. -/
theorem written_of_accepting {l : Link} {d : Nat}
    (hd : ∃ faults, l.bench.faultsOf d = some faults ∧ faults.Accepting) {device : Device}
    (hdevice : l.bench.devices[d]? = some device) (bytes : Bytes) :
    (device.writeAll bytes).2 = ⟨bytes, none⟩ ∧ (device.writeAll bytes).1.faults.Accepting := by
  obtain ⟨faults, hfaults, haccepting⟩ := hd
  rw [Bench.faultsOf, hdevice, Option.map_some] at hfaults
  cases hfaults
  exact ⟨Device.writeAll_of_accepting haccepting bytes,
    Device.accepting_writeAll haccepting bytes⟩

theorem writeOn_of_ready {l : Link} {h d : Nat} (hl : Ready l h d) (author : Author)
    (frame : Frame) : (l.writeOn author h frame).2 = .ok () := by
  obtain ⟨path, hport⟩ := hl.port
  have hopen : l.openAt h = true := (hl.sound.openAt_iff h).mpr hl.current_eq
  rcases l.writeOn_cases author h frame with
    ⟨-, hnone⟩ | ⟨handle, device, hh, -, hdevice, -, hresult⟩
  · obtain ⟨faults, hfaults, -⟩ := hl.accepting
    rw [Bench.faultsOf, hnone path d hopen hport] at hfaults
    cases hfaults
  · rw [portOf_of_handle hh] at hport
    cases hport
    rw [hresult, (written_of_accepting hl.accepting hdevice _).1]

theorem accepting_step {l : Link} {d : Nat}
    (hd : ∃ faults, l.bench.faultsOf d = some faults ∧ faults.Accepting) {s : Step}
    (hs : s.Spares d) : ∃ faults, (l.step s).bench.faultsOf d = some faults ∧ faults.Accepting := by
  cases s with
  | clear | openPort => exact hs.elim
  | countLines n => exact hd
  | readLines now k =>
    obtain ⟨bench, handles, heq, hfaults, -⟩ := l.readLines_cases now k
    rw [step, heq]
    dsimp only
    rw [hfaults d]
    exact hd
  | surround change =>
    obtain ⟨faults, hfaults, haccepting⟩ := hd
    have hchange := Bench.faultsOf_change hfaults change
    cases change with
    | plug | unplug | attach | detach | feed => exact ⟨faults, hchange, haccepting⟩
    | configure k f =>
      dsimp only at hchange
      split at hchange
      · rename_i hk
        exact ⟨f, hchange, hs hk⟩
      · exact ⟨faults, hchange, haccepting⟩
  | writeOn author k frame =>
    rcases l.writeOn_cases author k frame with
      ⟨heq, -⟩ | ⟨handle, device, -, -, hdevice, hlink, -⟩
    · rw [step, heq]
      exact hd
    · rw [step, hlink, withTransmission]
      dsimp only
      by_cases hk : handle.device = d
      · rw [hk] at hdevice ⊢
        have haccepting := (written_of_accepting hd hdevice frame.encode).2
        exact ⟨_, Bench.faultsOf_modify_self hdevice _, haccepting⟩
      · rw [Bench.faultsOf_modify_of_ne hk]
        exact hd

/-- **A link stays ready** while it is not replaced and its device goes on accepting. -/
theorem ready_step {l : Link} {h d : Nat} (hl : Ready l h d) {s : Step} (hs : s.Spares d) :
    Ready (l.step s) h d where
  sound := sound_step hl.sound s
  current_eq := by
    cases s with
    | clear | openPort => exact hs.elim
    | surround | countLines => exact hl.current_eq
    | writeOn author k frame =>
      rcases l.writeOn_cases author k frame with ⟨heq, -⟩ | ⟨_, _, -, -, -, hlink, -⟩
      · rw [step, heq]
        exact hl.current_eq
      · rw [step, hlink]
        exact hl.current_eq
    | readLines now k =>
      obtain ⟨bench, handles, heq, -, -⟩ := l.readLines_cases now k
      rw [step, heq]
      exact hl.current_eq
  port := by
    obtain ⟨path, hport⟩ := hl.port
    exact ⟨path, portOf_step hport s⟩
  accepting := accepting_step hl.accepting hs

/-! ## Lines of their own -/

/-- Where a device stood when the frames of an upload were written to it: each of them began
a line. -/
structure Aligned (l : Link) (id d : Nat) : Prop where
  now : AtLineStart (l.receivedBy d)
  before : ∀ later t earlier, l.transmissions = later ++ t :: earlier →
    t.author = .upload id → AtLineStart (sentBy (earlier.filter (·.device == d)))

theorem aligned_congr {l l' : Link} {id d : Nat} (hl : Aligned l id d)
    (h : l'.transmissions = l.transmissions) : Aligned l' id d where
  now := by
    rw [receivedBy, h]
    exact hl.now
  before := by
    rw [h]
    exact hl.before

/-- A whole frame leaves the device at the start of a line. -/
theorem aligned_cons {l l' : Link} {id d : Nat} (hl : Aligned l id d) {t : Transmission}
    (h : l'.transmissions = t :: l.transmissions)
    (hwhole : t.device = d → t.accepted = t.frame.encode) : Aligned l' id d where
  now := by
    rw [receivedBy, h]
    by_cases hd : t.device = d
    · have hmatch : (t.device == d) = true := beq_iff_eq.mpr hd
      rw [List.filter_cons, if_pos hmatch, sentBy_cons, hwhole hd]
      refine .inr ?_
      rw [List.getLast?_append, t.frame.getLast?_encode]
      rfl
    · have hmatch : ¬ (t.device == d) = true := fun he => hd (beq_iff_eq.mp he)
      rw [List.filter_cons, if_neg hmatch]
      exact hl.now
  before := by
    rw [h]
    intro later t' earlier heq hauthor
    cases later with
    | nil =>
      cases heq
      exact hl.now
    | cons t'' later =>
      obtain ⟨-, heq⟩ := List.cons.inj heq
      exact hl.before later t' earlier heq hauthor

/-- Whatever is written while a device accepts everything is written in whole frames. -/
theorem aligned_step {l : Link} {id h d : Nat} (hl : Aligned l id d) (hready : Ready l h d)
    (s : Step) : Aligned (l.step s) id d := by
  rcases l.transmissions_step s with heq | ⟨author, k, frame, -, rfl, -, -, -⟩
  · exact aligned_congr hl heq
  · rcases l.writeOn_cases author k frame with
      ⟨heq, -⟩ | ⟨handle, device, -, -, hdevice, hlink, -⟩
    · rw [step, heq]
      exact hl
    · rw [step, hlink]
      refine aligned_cons hl rfl ?_
      rintro rfl
      dsimp only
      rw [(written_of_accepting hready.accepting hdevice frame.encode).1]

end Link

namespace Bridge

/-! ## An upload on its course -/

/-- The action neither stops an upload nor keeps its device from receiving. -/
def Action.Spares (id d : Nat) : Action → Prop
  | .link step _ => step.Spares d
  | .stop k => k ≠ id
  | _ => True

theorem spares_of_serves {kind : RequestKind} (hstop : kind ≠ .stopTransfer)
    (hreconnect : kind ≠ .reconnect) {a : Action} (ha : a.Serves kind) (id d : Nat) :
    a.Spares id d := by
  cases a with
  | publish | begin | launch | drop | proceed | pass => trivial
  | stop => exact absurd ha hstop
  | link step others =>
    cases step with
    | clear | openPort => exact absurd ha hreconnect
    | writeOn => trivial
    | surround | readLines | countLines => exact ha.elim

theorem spares_of_ofTime {a : Action} (ha : a.OfTime) (id d : Nat) : a.Spares id d := by
  cases a with
  | proceed | pass => trivial
  | link | publish | begin | launch | stop | drop => exact ha.elim

/-- An upload that was set running and is spared: it runs, or all of its frames went out. -/
def OnCourse (b : Bridge) (id : Nat) (plan : Plan) (h : Nat) : Prop :=
  (∃ u due, u.id = id ∧ u.plan = plan ∧ u.stopped = false ∧ Running b u h due) ∨
    ∃ bytes, Ended b id plan h (.completed bytes plan.frames.length)

theorem ready_act {b : Bridge} {id h d : Nat} (hready : b.link.Ready h d) {a : Action}
    (ha : a.Spares id d) : (b.act a).link.Ready h d := by
  rcases b.link_act a with heq | ⟨step, heq, ⟨others, rfl⟩ | ⟨_, _, _, -, -, rfl⟩⟩ <;> rw [heq]
  · exact hready
  · exact Link.ready_step hready ha
  · exact Link.ready_step hready trivial

theorem aligned_act {b : Bridge} {id h d : Nat} (hl : b.link.Aligned id d)
    (hready : b.link.Ready h d) (a : Action) : (b.act a).link.Aligned id d := by
  rcases b.link_act a with heq | ⟨step, heq, -⟩ <;> rw [heq]
  · exact hl
  · exact Link.aligned_step hl hready step

/-- A write of an upload on a ready link does not fail. -/
theorem running_write_of_ready {b : Bridge} {u : Upload} {h due d : Nat}
    (hr : Running b u h due) (hstopped : u.stopped = false) (hready : b.link.Ready h d) :
    (∃ bytes, Ended (b.stepUpload u h) u.id u.plan h (.completed bytes u.plan.frames.length)) ∨
    ∃ v, v.id = u.id ∧ v.plan = u.plan ∧ v.stopped = false ∧ v.framesSent = u.framesSent + 1 ∧
      Running (b.stepUpload u h) v h (b.clock + b.engine.settings.frameDelayMs.toNat) := by
  rcases running_write hr hstopped with ⟨frame, reason, -, herror, -⟩ | ⟨-, he⟩ | hv
  · rw [Link.writeOn_of_ready hready] at herror
    cases herror
  · exact .inl he
  · exact .inr hv

/-- **An upload stays on its course** while it is spared. -/
theorem onCourse_act {b : Bridge} {id h d : Nat} {plan : Plan} (ho : OnCourse b id plan h)
    (hready : b.link.Ready h d) {a : Action} (ha : a.Spares id d) :
    OnCourse (b.act a) id plan h := by
  rcases ho with ⟨u, due, rfl, rfl, hstopped, hr⟩ | ⟨bytes, he⟩
  · by_cases hproceed : a = .proceed
    · rw [hproceed, act]
      rcases running_proceed hr with ⟨hwait, -⟩ | ⟨htrue, -⟩ | ⟨-, -, hwrite⟩
      · rw [hwait]
        exact .inl ⟨u, due, rfl, rfl, hstopped, hr⟩
      · rw [hstopped] at htrue
        cases htrue
      · rw [hwrite]
        rcases running_write_of_ready hr hstopped hready with he | ⟨v, hid, hplan, hs, -, hr'⟩
        · exact .inr he
        · exact .inl ⟨v, _, hid, hplan, hs, hr'⟩
    · have hstop : a ≠ .stop u.id := by
        rintro rfl
        exact ha rfl
      exact .inl ⟨u, due, rfl, rfl, hstopped, running_act hr hproceed hstop⟩
  · exact .inr ⟨bytes, ended_act he a⟩

/-- A run that spares an upload keeps it on its course, over a link that stays ready. -/
theorem onCourse_run {b : Bridge} {id h d : Nat} {plan : Plan} (ho : OnCourse b id plan h)
    (hready : b.link.Ready h d) {actions : List Action} (hspares : ∀ a ∈ actions, a.Spares id d) :
    OnCourse (b.run actions) id plan h ∧ (b.run actions).link.Ready h d :=
  run_preserves (P := fun b => OnCourse b id plan h ∧ b.link.Ready h d)
    (fun _ _ ha hb => ⟨onCourse_act hb.1 hb.2 ha, ready_act hb.2 ha⟩) ⟨ho, hready⟩ hspares

theorem aligned_run {b : Bridge} {id h d : Nat} (hl : b.link.Aligned id d)
    (hready : b.link.Ready h d) {actions : List Action} (hspares : ∀ a ∈ actions, a.Spares id d) :
    (b.run actions).link.Aligned id d :=
  (run_preserves (P := fun b => b.link.Aligned id d ∧ b.link.Ready h d)
    (fun _ a ha hb => ⟨aligned_act hb.1 hb.2 a, ready_act hb.2 ha⟩) ⟨hl, hready⟩ hspares).1

/-! ## Coming to the end -/

theorem ended_reaches {P : Action → Prop} {b b' : Bridge} (hreach : Reaches P b b') {id h : Nat}
    {plan : Plan} {outcome : Outcome} (he : Ended b id plan h outcome) :
    Ended b' id plan h outcome := by
  obtain ⟨actions, -, rfl⟩ := hreach
  exact run_keeps (P := fun b => Ended b id plan h outcome) (fun _ a he => ended_act he a) he
    actions

/-- **With time enough an upload comes to its end.**  Each step of the work writes a frame and
takes no more than the delay between two frames. -/
theorem ended_workFor (n : Nat) {b : Bridge} {u : Upload} {h due d time : Nat}
    (hr : Running b u h due) (hstopped : u.stopped = false) (hready : b.link.Ready h d)
    (hn : u.plan.frames.length - u.framesSent ≤ n)
    (htime : max b.clock due + (u.plan.frames.length - u.framesSent - 1) *
      b.engine.settings.frameDelayMs.toNat ≤ time) :
    ∃ bytes, Ended (workFor n time b) u.id u.plan h (.completed bytes u.plan.frames.length) := by
  induction n generalizing b u due with
  | zero =>
    have hlt := hr.framesSent_lt
    omega
  | succ n ih =>
    have hrunning : b.running? = some (u, h, due) := by
      rw [running?_of_stage hr.active_eq hr.stage_eq, hstopped]
      rfl
    have hdue : due ≤ time := by omega
    rw [workFor_succ_of_due hrunning hdue]
    -- the moment at which the next frame is written
    obtain ⟨now, hnow⟩ : ∃ now, now = b.act (.pass (due - b.clock)) := ⟨_, rfl⟩
    rw [← hnow]
    have hr' : Running now u h due := by
      rw [hnow]
      exact running_act hr (fun h => nomatch h) (fun h => nomatch h)
    have hready' : now.link.Ready h d := by
      rw [hnow]
      exact hready
    have hclock : now.clock = b.clock + (due - b.clock) := by
      rw [hnow]
      rfl
    have hsettings : now.engine.settings = b.engine.settings := by
      rw [hnow]
      rfl
    have hstep : now.act .proceed = now.stepUpload u h := by
      have hreached : due ≤ now.clock := by omega
      rw [act, proceed_of_running hr'.active_eq hr'.stage_eq, hstopped,
        if_neg Bool.false_ne_true, if_pos hreached]
    rw [hstep]
    have hclock' := clock_stepUpload hr'.active_eq h
    rcases running_write_of_ready hr' hstopped hready' with
      ⟨bytes, he⟩ | ⟨v, hid, hplan, hs, hsent, hv⟩
    · have hle : (now.stepUpload u h).clock ≤ time := by omega
      exact ⟨bytes, ended_reaches (reaches_workFor n hle).1 he⟩
    · have hready'' : (now.stepUpload u h).link.Ready h d := by
        rcases link_stepUpload hr'.active_eq h with heq | ⟨frame, heq⟩ <;> rw [heq]
        · exact hready'
        · exact Link.ready_step hready' trivial
      have hsettings' := settings_of_change (change_stepUpload hr'.active_eq h)
      rw [← hid, ← hplan]
      refine ih hv hs hready'' ?_ ?_
      · rw [hplan, hsent]
        omega
      · -- one frame fewer is left, and one delay has been waited
        have hlt := hv.framesSent_lt
        rw [hplan, hsent] at hlt
        have hmore : u.plan.frames.length - u.framesSent - 1 =
            u.plan.frames.length - (u.framesSent + 1) - 1 + 1 := by omega
        rw [hmore, Nat.succ_mul] at htime
        rw [hplan, hsent, hsettings', hsettings]
        omega

/-- An upload on its course is complete once time for all its frames has passed. -/
theorem ended_advance {b : Bridge} {id h d ms : Nat} {plan : Plan} (ho : OnCourse b id plan h)
    (hready : b.link.Ready h d)
    (hms : plan.frames.length * b.engine.settings.frameDelayMs.toNat ≤ ms) :
    ∃ bytes, Ended (b.advance ms) id plan h (.completed bytes plan.frames.length) := by
  rcases ho with ⟨u, due, rfl, rfl, hstopped, hr⟩ | ⟨bytes, he⟩
  · have hn : u.plan.frames.length - u.framesSent ≤
        (b.engine.active.map (·.pending.length)).getD 0 + 1 := by
      rw [hr.active_eq, Option.map_some, Option.getD_some, hr.pending_eq, List.length_drop]
      omega
    have htime : max b.clock due + (u.plan.frames.length - u.framesSent - 1) *
        b.engine.settings.frameDelayMs.toNat ≤ b.clock + ms := by
      have hdue := hr.due_le
      have hlt := hr.framesSent_lt
      have hrest : (u.plan.frames.length - u.framesSent - 1 + 1) *
          b.engine.settings.frameDelayMs.toNat ≤
            u.plan.frames.length * b.engine.settings.frameDelayMs.toNat :=
        Nat.mul_le_mul_right _ (by omega)
      rw [Nat.succ_mul] at hrest
      omega
    obtain ⟨bytes, he⟩ := ended_workFor _ hr hstopped hready hn htime
    exact ⟨bytes, he.notHeld, he.id_lt, he.outcome_eq, he.truthful⟩
  · exact ⟨bytes, ended_reaches (b.reaches_advance ms) he⟩

/-! ## What was delivered -/

/-- Frames that were written whole were taken whole, in their order. -/
theorem sentBy_of_carried {l : Link} (hsound : l.Sound) {ts : List Transmission}
    (hts : ∀ t ∈ ts, t ∈ l.transmissions) {plan : Plan} {h k bytes : Nat}
    (hcarried : Carried plan h k bytes ts) :
    Link.sentBy ts = (plan.frames.take k).flatMap Frame.encode ∧
      ∀ t ∈ ts, t.accepted = t.frame.encode := by
  have hwhole : ∀ t ∈ ts, t.accepted = t.frame.encode := fun t ht =>
    (hsound.accepted_sound t (hts t ht)).accepted_eq (hcarried.error_eq t ht)
  refine ⟨?_, hwhole⟩
  rw [Link.sentBy, ← hcarried.frames_eq, ← List.map_reverse, List.flatMap_map, List.flatMap_def,
    List.flatMap_def]
  congr 1
  exact List.map_congr_left fun t ht => hwhole t (List.mem_reverse.mp ht)

/-- A completed upload was written whole, frame by frame, through its handle. -/
theorem sentBy_of_completed {b : Bridge} {id h bytes : Nat} {plan : Plan}
    (he : Ended b id plan h (.completed bytes plan.frames.length)) (hsound : b.link.Sound) :
    Link.sentBy (b.link.writtenFor id) = plan.frames.flatMap Frame.encode ∧
      bytes = plan.payloadLength ∧
      ∀ t ∈ b.link.writtenFor id, t.handle = h ∧ t.accepted = t.frame.encode := by
  obtain ⟨-, hcarried⟩ := he.truthful
  obtain ⟨hsent, hwhole⟩ :=
    sentBy_of_carried hsound (fun t ht => (List.mem_filter.mp ht).1) hcarried
  rw [List.take_length] at hsent
  refine ⟨hsent, ?_, fun t ht => ⟨hcarried.handle_eq t ht, hwhole t ht⟩⟩
  rw [hcarried.bytes_eq, List.take_length, Plan.payloadLength]

/-- What a new upload is, and that it claims the engine. -/
theorem claimed_begin {b : Bridge} (hb : Numbered b) {client : ClientId} {payload : Bytes}
    {announced : Bool} {u : Upload}
    (hbegin : (b.begin client payload announced).2 = .ok (some u)) :
    Claimed (b.begin client payload announced).1 u ∧ u.stopped = false ∧
      u.plan = .build payload b.engine.settings := by
  rcases hstate : b.begin client payload announced with ⟨b', result⟩
  rw [hstate] at hbegin
  dsimp only at hbegin ⊢
  subst hbegin
  rw [begin, Engine.begin] at hstate
  cases payload with
  | nil => cases hstate
  | cons x payload =>
    rw [List.isEmpty_cons, if_neg Bool.false_ne_true] at hstate
    cases hactive : b.engine.active with
    | some v =>
      rw [hactive] at hstate
      cases hstate
    | none =>
      rw [hactive] at hstate
      cases hstate
      refine ⟨?_, rfl, rfl⟩
      constructor
      · rfl
      · exact Nat.lt_succ_self _
      · rfl
      · rfl
      · exact Plan.frames_build_ne_nil _ _ (List.cons_ne_nil _ _)
      · rfl
      · rfl
      · exact outcome?_of_nextId_le hb (Nat.le_refl _)
      · exact writtenFor_of_nextId_le hb (Nat.le_refl _)

/-- Being set running over a ready link puts an upload on its course. -/
theorem ended_of_claimed {b : Bridge} {u : Upload} {h d ms : Nat} (hc : Claimed b u)
    (hstopped : u.stopped = false) (hready : b.link.Ready h d) {after : List Action}
    (hafter : ∀ a ∈ after, a.Spares u.id d)
    (hms : u.plan.frames.length * b.engine.settings.frameDelayMs.toNat ≤ ms) :
    let ended := ((b.launch u.id).run after).advance ms
    (∃ bytes, Ended ended u.id u.plan h (.completed bytes u.plan.frames.length)) ∧
      ended.link.Ready h d ∧
      (AtLineStart (b.link.receivedBy d) → ended.link.Aligned u.id d) := by
  intro ended
  have hlink := b.link_launch u.id
  have hready' : (b.launch u.id).link.Ready h d := by rwa [hlink]
  have ho : OnCourse (b.launch u.id) u.id u.plan h :=
    .inl ⟨{ u with stage := .running h b.clock }, b.clock, rfl, rfl, hstopped,
      running_launch hc hready.current_eq⟩
  obtain ⟨ho', hready''⟩ := onCourse_run ho hready' hafter
  have hsettings : ((b.launch u.id).run after).engine.settings = b.engine.settings :=
    (settings_run _ _).trans (settings_of_change (b.change_act (.launch u.id)))
  rw [← hsettings] at hms
  obtain ⟨times, htimes, heq⟩ := ((b.launch u.id).run after).reaches_advance ms
  have hspares : ∀ a ∈ times, a.Spares u.id d := fun a ha => spares_of_ofTime (htimes a ha) u.id d
  refine ⟨ended_advance ho' hready'' hms, ?_, fun hstart => ?_⟩
  · change (((b.launch u.id).run after).advance ms).link.Ready h d
    rw [← heq]
    exact (onCourse_run ho' hready'' hspares).2
  -- nothing was written for the upload before it was set running
  · have hl : (b.launch u.id).link.Aligned u.id d := by
      rw [hlink]
      refine ⟨hstart, fun later t earlier htransmissions hauthor => ?_⟩
      have hmem : t ∈ b.link.writtenFor u.id := by
        refine List.mem_filter.mpr ⟨?_, beq_iff_eq.mpr hauthor⟩
        rw [htransmissions]
        exact List.mem_append_right _ List.mem_cons_self
      rw [hc.written_eq] at hmem
      cases hmem
    change (((b.launch u.id).run after).advance ms).link.Aligned u.id d
    rw [← heq]
    exact aligned_run (aligned_run hl hready' hafter) hready'' hspares

/-- **An upload delivers its payload.**  In every state that can be reached, let a client
begin an upload, and let it be set running later over the link that is current then, whose
device accepts what is written.  If it is spared from then on, and has time for its frames,
it is completed, whatever else happens.  The device puts the payload together from the lines
it received for the upload, or the front of the payload up to the ceiling in the single-shot
mode, and the outcome says how long that is.  All went through the one handle in whole
frames, each of them a line of its own. -/
theorem upload_delivers_payload (settings : Settings) (bench : Bench)
    (before during after : List Action) (client : ClientId) (payload : Bytes) (announced : Bool)
    (u : Upload) (h d ms : Nat) :
    let idle := (new settings bench).run before
    let begun := (idle.begin client payload announced).1.run during
    let ended := ((begun.launch u.id).run after).advance ms
    let delivered := payloadOf (Link.sentBy (ended.link.writtenFor u.id))
    (idle.begin client payload announced).2 = .ok (some u) →
    carriageReturn ∉ payload → ¬ placeholder <:+: payload →
    (∀ a ∈ during, ¬ a.Concerns u.id) →
    begun.link.current = some h →
    (∃ path, begun.link.portOf h = some (path, d)) →
    (∃ faults, begun.link.bench.faultsOf d = some faults ∧ faults.Accepting) →
    (∀ a ∈ after, a.Spares u.id d) →
    u.plan.frames.length * settings.transfer.frameDelayMs.toNat ≤ ms →
    ended.engine.outcome? u.id =
        some (.completed delivered.length u.plan.frames.length) ∧
      delivered = (if settings.transfer.mode = .singleShot then
        payload.take settings.transfer.blobCeiling.toNat else payload) ∧
      (∀ t ∈ ended.link.writtenFor u.id,
        t.handle = h ∧ t.device = d ∧ t.accepted = t.frame.encode) ∧
      (AtLineStart (begun.link.receivedBy d) → ended.link.Aligned u.id d) := by
  intro idle begun ended delivered hbegin hcr hmark hduring hcurrent hport haccepting hafter hms
  have hnumbered : Numbered idle := numbered_run (numbered_new settings bench) before
  have hsound : idle.link.Sound :=
    sound_link_run (b := new settings bench) (Link.sound_new bench) before
  have hsound' : begun.link.Sound :=
    sound_link_run (b := (idle.begin client payload announced).1) hsound during
  obtain ⟨hclaimed, hstopped, hplan⟩ := claimed_begin hnumbered hbegin
  have hclaimed' : Claimed begun u :=
    run_preserves (P := fun b => Claimed b u) (fun _ _ ha hc => claimed_act hc ha) hclaimed hduring
  have hsettings : idle.engine.settings = settings.transfer := settings_run _ before
  have hsettings' : begun.engine.settings = settings.transfer :=
    (settings_run _ during).trans
      ((settings_of_change (idle.change_act (.begin client payload announced))).trans hsettings)
  rw [hsettings] at hplan
  rw [← hsettings'] at hms
  obtain ⟨⟨bytes, he⟩, hready, haligned⟩ :=
    ended_of_claimed hclaimed' hstopped ⟨hsound', hcurrent, hport, haccepting⟩ hafter hms
  obtain ⟨hsent, hbytes, hwritten⟩ := sentBy_of_completed he hready.sound
  -- all frames of the plan went out whole, and the device reads their bodies back
  have hdelivered : delivered = u.plan.body := by
    change payloadOf (Link.sentBy (ended.link.writtenFor u.id)) = u.plan.body
    rw [hsent, hplan, Plan.payloadOf_build payload settings.transfer hcr hmark]
  refine ⟨?_, ?_, ?_, haligned⟩
  · rw [hdelivered, Plan.length_body, ← hbytes]
    exact he.outcome_eq
  · rw [hdelivered, hplan, Plan.body_build_eq payload settings.transfer hcr]
  · intro t ht
    obtain ⟨hhandle, haccepted⟩ := hwritten t ht
    obtain ⟨path, hpath⟩ := hready.port
    obtain ⟨path', hpath'⟩ := hready.sound.portOf_transmission t (List.mem_filter.mp ht).1
    rw [hhandle, hpath] at hpath'
    cases hpath'
    exact ⟨hhandle, rfl, haccepted⟩

/-- Chunks of three bytes, ten milliseconds apart. -/
def pacedSettings : Settings :=
  { transfer := { mode := .paced, chunkSize := 3, frameDelayMs := 10 } }

/-- A port is opened whose device takes a byte at a time. -/
def opening : List Action :=
  [.link (.surround (.plug "p" { maxWrite := some 1 })) trivial,
    .link (.openPort ["p"] 0) trivial]

/-- Two lines of six bytes go out in three chunks, with a client's line among them. -/
theorem upload_delivers_two_lines :
    let begun := ((new pacedSettings {}).run opening).begin ⟨0⟩
      [0x61, lineFeed, 0x62, 0x63, 0x64, 0x65] true
    let ended := (((begun.1.run [.pass 5]).launch 1).run
      [.proceed, .link (.writeOn .line 0 (.message "x")) trivial]).advance 30
    ended.engine.outcome? 1 = some (.completed 6 3) ∧
      payloadOf (Link.sentBy (ended.link.writtenFor 1)) =
        [0x61, lineFeed, 0x62, 0x63, 0x64, 0x65] := by
  have haccepting : ({ maxWrite := some 1 } : Faults).Accepting :=
    ⟨fun _ hstep => (nomatch hstep), rfl, rfl, by decide⟩
  obtain ⟨houtcome, hdelivered, -, -⟩ :=
    upload_delivers_payload pacedSettings {} opening [.pass 5]
      [.proceed, .link (.writeOn .line 0 (.message "x")) trivial] ⟨0⟩
      [0x61, lineFeed, 0x62, 0x63, 0x64, 0x65] true
      { id := 1
        client := ⟨0⟩
        plan := .build [0x61, lineFeed, 0x62, 0x63, 0x64, 0x65] pacedSettings.transfer
        announced := true } 0 0 30
      rfl (by decide) (by decide) (by simp [Action.Concerns]) rfl ⟨"p", rfl⟩
      ⟨_, rfl, haccepting⟩ (by simp [Action.Spares, Link.Step.Spares]) (by decide)
  rw [hdelivered] at houtcome
  exact ⟨houtcome, hdelivered⟩

end Bridge

end SerialBridge
