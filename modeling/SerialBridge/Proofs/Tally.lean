import SerialBridge.Proofs.Delivery
import SerialBridge.Proofs.Sessions

/-! # What is told of an upload

Callers are told of an upload in two ways: by its progress, as long as it holds the engine, and
by its outcome once it has run.  Both name a number of frames and a number of payload bytes.
Here these numbers are held against the wire: the frames written whole on behalf of the upload
are so many of its plan from the front, and they carry so many bytes (`Tally`).  An outcome
tells also what else went out: nothing, or a front of the next frame if a write failed
(`Tells`).

The invariant (`Accounted`) follows every upload from the moment it is begun: it is `Claimed`
until it is set running and `Launched` from then on, over the handle that was current at that
moment.  It holds in every run (`accounted_run`), so it does not matter what happens to link,
devices and other clients on the way, nor when the upload is asked to stop.
-/

namespace SerialBridge

namespace Plan

theorem bytesOf_append (front rest : List Frame) :
    bytesOf (front ++ rest) = bytesOf front + bytesOf rest := by
  rw [← length_flatMap_body, ← length_flatMap_body, ← length_flatMap_body, List.flatMap_append,
    List.length_append]

/-- More frames carry more bytes. -/
theorem bytesOf_take_le (frames : List Frame) {k k' : Nat} (h : k ≤ k') :
    bytesOf (frames.take k) ≤ bytesOf (frames.take k') := by
  obtain ⟨rest, hrest⟩ := List.take_prefix_take_left h (l := frames)
  rw [← hrest, bytesOf_append]
  exact Nat.le_add_right _ _

end Plan

namespace Link

/-- The writes on behalf of an upload that succeeded, in order. -/
def wholeFor (l : Link) (id : Nat) : List Transmission :=
  (l.writtenFor id).reverse.filter (·.error.isNone)

/-- The bytes that devices took on behalf of an upload. -/
def sentFor (l : Link) (id : Nat) : Bytes :=
  sentBy (l.writtenFor id)

end Link

/-- The frames written whole for an upload are the first ones of its plan, each once and in
order, they carry so many bytes, and all was written through one handle. -/
structure Tally (l : Link) (u : Upload) (handle : Option Nat) (k bytes : Nat) : Prop where
  le_length : k ≤ u.plan.frames.length
  frames_eq : (l.wholeFor u.id).map (·.frame) = u.plan.frames.take k
  bytes_eq : bytes = Plan.bytesOf (u.plan.frames.take k)
  handle_eq : ∀ t ∈ l.writtenFor u.id, handle = some t.handle

/-- An outcome tells what was written for an upload. -/
def Tells (l : Link) (u : Upload) (handle : Option Nat) : Outcome → Prop
  | .skipped => False
  | .completed bytes k => Tally l u handle k bytes ∧ k = u.plan.frames.length ∧
    l.sentFor u.id = u.plan.frames.flatMap Frame.encode
  | .cancelled bytes k => Tally l u handle k bytes ∧ k < u.plan.frames.length ∧
    l.sentFor u.id = (u.plan.frames.take k).flatMap Frame.encode
  | .failed _ bytes k => Tally l u handle k bytes ∧
    ∃ frame part, u.plan.frames[k]? = some frame ∧ part <+: frame.encode ∧
      l.sentFor u.id = (u.plan.frames.take k).flatMap Frame.encode ++ part

namespace Started

/-- An upload runs over a handle, if it runs over any. -/
def RunsOver (t : Started) (h : Nat) : Prop :=
  t.handle = none ∨ t.handle = some h

theorem exists_runsOver (t : Started) : ∃ h, t.RunsOver h := by
  cases hhandle : t.handle with
  | none => exact ⟨0, .inl hhandle⟩
  | some h => exact ⟨h, .inr hhandle⟩

end Started

namespace Bridge

/-! ## From the account to the tally -/

/-- What was written through every handle in question was written through the one there is. -/
theorem handle_of_runsOver {s : Started} {ts : List Transmission}
    (hts : ∀ h, s.RunsOver h → ∀ t ∈ ts, t.handle = h) :
    ∀ t ∈ ts, s.handle = some t.handle := by
  intro t ht
  cases hhandle : s.handle with
  | none =>
    have hzero := hts 0 (.inl hhandle) t ht
    have hone := hts 1 (.inl hhandle) t ht
    omega
  | some h => exact congrArg some (hts h (.inr hhandle) t ht).symm

theorem handle_of_truthful {plan : Plan} {h : Nat} {outcome : Outcome} {ts : List Transmission}
    (ht : Truthful plan h outcome ts) : ∀ t ∈ ts, t.handle = h := by
  cases outcome with
  | skipped => exact ht.elim
  | completed | cancelled => exact ht.2.handle_eq
  | failed reason bytes k =>
    obtain ⟨-, hcarried | ⟨t, rest, rfl, hhandle, -, -, hcarried⟩⟩ := ht
    · exact hcarried.handle_eq
    · exact List.forall_mem_cons.mpr ⟨hhandle, hcarried.handle_eq⟩

theorem tally_of_carried {l : Link} {u : Upload} {handle : Option Nat} {h k bytes : Nat}
    {whole : List Transmission} (hcarried : Carried u.plan h k bytes whole)
    (hwhole : l.wholeFor u.id = whole.reverse)
    (hhandle : ∀ t ∈ l.writtenFor u.id, handle = some t.handle) : Tally l u handle k bytes where
  le_length := hcarried.le_length
  frames_eq := by rw [hwhole, List.map_reverse, hcarried.frames_eq]
  bytes_eq := hcarried.bytes_eq
  handle_eq := hhandle

theorem wholeFor_of_carried {l : Link} {id : Nat} {plan : Plan} {h k bytes : Nat}
    (hcarried : Carried plan h k bytes (l.writtenFor id)) :
    l.wholeFor id = (l.writtenFor id).reverse := by
  rw [Link.wholeFor, List.filter_eq_self]
  intro t ht
  rw [hcarried.error_eq t (List.mem_reverse.mp ht)]
  rfl

/-- A write that failed is not among the whole ones. -/
theorem wholeFor_of_torn {l : Link} {id : Nat} {t : Transmission} {rest : List Transmission}
    (hts : l.writtenFor id = t :: rest) (herror : t.error ≠ none) {plan : Plan} {h k bytes : Nat}
    (hcarried : Carried plan h k bytes rest) : l.wholeFor id = rest.reverse := by
  have hnot : t.error.isNone = false := by
    rw [← Bool.not_eq_true, Option.isNone_iff_eq_none]
    exact herror
  have hrest : rest.reverse.filter (·.error.isNone) = rest.reverse := by
    rw [List.filter_eq_self]
    intro t' ht'
    rw [hcarried.error_eq t' (List.mem_reverse.mp ht')]
    rfl
  rw [Link.wholeFor, hts, List.reverse_cons, List.filter_append, hrest]
  simp [hnot]

/-- An outcome that is true of every handle in question tells what was written. -/
theorem tells_of_truthful {l : Link} (hsound : l.Sound) {s : Started} {outcome : Outcome}
    (htrue : ∀ h, s.RunsOver h →
      Truthful s.upload.plan h outcome (l.writtenFor s.upload.id)) :
    Tells l s.upload s.handle outcome := by
  have hhandle := handle_of_runsOver fun h hh => handle_of_truthful (htrue h hh)
  have hmem : ∀ t ∈ l.writtenFor s.upload.id, t ∈ l.transmissions :=
    fun t ht => (List.mem_filter.mp ht).1
  obtain ⟨h, hover⟩ := s.exists_runsOver
  have ht := htrue h hover
  cases outcome with
  | skipped => exact ht.elim
  | completed bytes k =>
    obtain ⟨rfl, hcarried⟩ := ht
    have hsent := (sentBy_of_carried hsound hmem hcarried).1
    rw [List.take_length] at hsent
    exact ⟨tally_of_carried hcarried (wholeFor_of_carried hcarried) hhandle, rfl, hsent⟩
  | cancelled bytes k =>
    obtain ⟨hlt, hcarried⟩ := ht
    exact ⟨tally_of_carried hcarried (wholeFor_of_carried hcarried) hhandle, hlt,
      (sentBy_of_carried hsound hmem hcarried).1⟩
  | failed reason bytes k =>
    obtain ⟨hlt, hcarried | ⟨t, rest, hts, -, herror, hframe, hcarried⟩⟩ := ht
    · refine ⟨tally_of_carried hcarried (wholeFor_of_carried hcarried) hhandle,
        _, [], List.getElem?_eq_getElem hlt, List.nil_prefix, ?_⟩
      rw [List.append_nil]
      exact (sentBy_of_carried hsound hmem hcarried).1
    · rw [hts, List.forall_mem_cons] at hmem
      refine ⟨tally_of_carried hcarried (wholeFor_of_torn hts herror hcarried) hhandle,
        t.frame, t.accepted, hframe, (hsound.accepted_sound t hmem.1).accepted_front, ?_⟩
      rw [Link.sentFor, hts, Link.sentBy_cons, (sentBy_of_carried hsound hmem.2 hcarried).1]

/-- An upload that waits to be set running can be asked to stop. -/
theorem claimed_stop {b : Bridge} {u : Upload} (hc : Claimed b u) :
    Claimed (b.act (.stop u.id)) { u with stopped := true } := by
  constructor
  · change (b.engine.stop u.id).active = _
    rw [Engine.stop, Engine.modify, hc.active_eq, Option.map_some, if_pos rfl]
  · exact hc.id_lt
  · exact hc.stage_eq
  · exact hc.pending_eq
  · exact hc.frames_ne
  · exact hc.framesSent_eq
  · exact hc.bytesSent_eq
  · exact hc.outcome_eq
  · exact hc.written_eq

end Bridge

namespace Sessions

/-! ## The invariant -/

/-- Every upload that callers have begun and not given up is accounted for. -/
structure Accounted (s : Sessions) : Prop where
  kept : Kept s
  sound : s.bridge.link.Sound
  unrun : ∀ u ∈ s.unrun, ∃ v, v.Continues u ∧ s.bridge.Claimed v
  started : ∀ t ∈ s.started, ∀ h, t.RunsOver h →
    s.bridge.Launched t.upload.id t.upload.plan h

theorem accounted_new (settings : Settings) (bench : Bench) :
    Accounted (new settings bench) where
  kept := kept_new settings bench
  sound := Link.sound_new bench
  unrun := fun _ hu => nomatch hu
  started := fun _ ht => nomatch ht

/-- An upload goes on waiting unless it is set running or given up. -/
theorem claimed_of_unrun {s : Sessions} (hs : Accounted s) {a : Bridge.Action} {u : Upload}
    (hu : u ∈ s.unrun) (hkeep : u ∈ (s.act a).unrun) :
    ∃ v, v.Continues u ∧ (s.bridge.act a).Claimed v := by
  obtain ⟨v, hsame, hclaimed⟩ := hs.unrun u hu
  by_cases ha : a.Concerns v.id
  · cases a with
    | stop k =>
      obtain rfl : k = v.id := ha
      exact ⟨{ v with stopped := true }, hsame, Bridge.claimed_stop hclaimed⟩
    | launch k | drop k =>
      obtain rfl : k = v.id := ha
      have hne := (List.mem_filter.mp hkeep).2
      rw [hsame.1, bne_self_eq_false] at hne
      cases hne
    | link | publish | begin | proceed | pass => exact ha.elim
  · exact ⟨v, hsame, Bridge.claimed_act hclaimed ha⟩

/-- An upload that is set running is launched over the current handle, or has failed. -/
theorem launched_of_unrun {s : Sessions} (hs : Accounted s) {u : Upload} (hu : u ∈ s.unrun)
    {h : Nat} (hover : (⟨u, s.bridge.link.current⟩ : Started).RunsOver h) :
    (s.bridge.launch u.id).Launched u.id u.plan h := by
  obtain ⟨v, ⟨hid, -, hplan⟩, hclaimed⟩ := hs.unrun u hu
  rw [← hid, ← hplan]
  cases hcurrent : s.bridge.link.current with
  | none => exact .inr ⟨_, Bridge.ended_launch hclaimed h hcurrent⟩
  | some h' =>
    have hsame : h' = h := by
      rcases hover with hnone | hsome
      · rw [hcurrent] at hnone
        cases hnone
      · rw [hcurrent] at hsome
        exact Option.some_inj.mp hsome
    subst hsame
    exact .inl ⟨{ v with stage := .running h' s.bridge.clock }, _, rfl, rfl,
      Bridge.running_launch hclaimed hcurrent⟩

theorem unrun_act {s : Sessions} (hs : Accounted s) (a : Bridge.Action) :
    ∀ u ∈ (s.act a).unrun, ∃ v, v.Continues u ∧ (s.bridge.act a).Claimed v := by
  intro u hu
  cases a with
  | link | publish | proceed | stop | pass => exact claimed_of_unrun hs hu hu
  | launch | drop => exact claimed_of_unrun hs (List.mem_filter.mp hu).1 hu
  | begin client payload announced =>
    by_cases hold : u ∈ s.unrun
    · exact claimed_of_unrun hs hold hu
    · have hbegin : (s.bridge.begin client payload announced).2 = .ok (some u) := by
        rw [act] at hu
        dsimp only at hu
        split at hu
        · rename_i w hw
          rcases List.mem_cons.mp hu with rfl | hu
          · exact hw
          · exact absurd hu hold
        · exact absurd hu hold
        · exact absurd hu hold
      exact ⟨u, ⟨rfl, rfl, rfl⟩, (Bridge.claimed_begin hs.kept.numbered hbegin).1⟩

theorem started_act {s : Sessions} (hs : Accounted s) (a : Bridge.Action) :
    ∀ t ∈ (s.act a).started, ∀ h, t.RunsOver h →
      (s.bridge.act a).Launched t.upload.id t.upload.plan h := by
  intro t ht h hover
  by_cases hold : t ∈ s.started
  · exact Bridge.launched_act (hs.started t hold h hover) a
  · cases a with
    | link | publish | proceed | stop | drop | pass => exact absurd ht hold
    | begin client payload announced =>
      rcases s.act_begin_cases client payload announced with heq | ⟨-, heq⟩ <;>
        rw [heq] at ht <;> exact absurd ht hold
    | launch id =>
      rcases List.mem_append.mp ht with hnew | hnew
      · obtain ⟨u, hu, rfl⟩ := List.mem_map.mp hnew
        obtain ⟨hunrun, hid⟩ := List.mem_filter.mp hu
        obtain rfl : u.id = id := beq_iff_eq.mp hid
        exact launched_of_unrun hs hunrun hover
      · exact absurd hnew hold

theorem accounted_act {s : Sessions} (hs : Accounted s) (a : Bridge.Action) :
    Accounted (s.act a) where
  kept := kept_act hs.kept a
  sound := by
    rw [bridge_act]
    exact Bridge.sound_link_act hs.sound a
  unrun := by
    rw [bridge_act]
    exact unrun_act hs a
  started := by
    rw [bridge_act]
    exact started_act hs a

/-- Every upload is accounted for in every run. -/
theorem accounted_run {s : Sessions} (hs : Accounted s) (actions : List Bridge.Action) :
    Accounted (s.run actions) := by
  induction actions generalizing s with
  | nil => exact hs
  | cons a actions ih => exact ih (accounted_act hs a)

/-! ## What is told -/

/-- An upload of which an outcome is told has run, and the outcome is true. -/
theorem Accounted.tells {s : Sessions} (hs : Accounted s) {t : Started} (ht : t ∈ s.started)
    {outcome : Outcome} (houtcome : s.bridge.engine.outcome? t.upload.id = some outcome) :
    Tells s.bridge.link t.upload t.handle outcome := by
  refine Bridge.tells_of_truthful hs.sound fun h hover => ?_
  rcases hs.started t ht h hover with ⟨v, due, hid, -, hr⟩ | ⟨outcome', he⟩
  · have hnone := hr.outcome_eq
    rw [hid, houtcome] at hnone
    cases hnone
  · have hsame := he.outcome_eq
    rw [houtcome] at hsame
    cases hsame
    exact he.truthful

theorem Accounted.outcome_of_live {s : Sessions} (hs : Accounted s) {u : Upload}
    (hu : u ∈ s.live) : s.bridge.engine.outcome? u.id = none := by
  rcases List.mem_append.mp hu with hu | hu
  · obtain ⟨v, hsame, hclaimed⟩ := hs.unrun u hu
    rw [← hsame.1]
    exact hclaimed.outcome_eq
  · exact Option.isNone_iff_eq_none.mp (List.mem_filter.mp hu).2

/-- The progress of an upload tells what was written. -/
structure Shows (s : Sessions) (u : Upload) (handle : Option Nat) (p : Progress) : Prop where
  progress_eq : s.bridge.engine.progress? = some p
  tally : Tally s.bridge.link u handle p.framesSent p.bytesSent
  sent_eq : s.bridge.link.sentFor u.id = (u.plan.frames.take p.framesSent).flatMap Frame.encode
  frames_le : p.framesSent ≤ p.totalFrames
  bytes_le : p.bytesSent ≤ p.totalBytes

/-- The counts of an upload that carried frames tell so. -/
theorem shows_of_carried {s : Sessions} (hsound : s.bridge.link.Sound) {u v : Upload}
    (hactive : s.bridge.engine.active = some v) (hplan : v.plan = u.plan) {h : Nat}
    (hcarried : Carried u.plan h v.framesSent v.bytesSent (s.bridge.link.writtenFor u.id))
    {handle : Option Nat}
    (hhandle : ∀ t ∈ s.bridge.link.writtenFor u.id, handle = some t.handle) :
    Shows s u handle v.progress where
  progress_eq := by rw [Engine.progress?, hactive, Option.map_some]
  tally := Bridge.tally_of_carried hcarried (Bridge.wholeFor_of_carried hcarried) hhandle
  sent_eq :=
    (Bridge.sentBy_of_carried hsound (fun _ ht => (List.mem_filter.mp ht).1) hcarried).1
  frames_le := by
    change v.framesSent ≤ v.plan.frames.length
    rw [hplan]
    exact hcarried.le_length
  bytes_le := by
    change v.bytesSent ≤ Plan.bytesOf v.plan.frames
    have hle := Plan.bytesOf_take_le u.plan.frames hcarried.le_length
    rwa [List.take_length, ← hcarried.bytes_eq, ← hplan] at hle

theorem Accounted.shows_of_started {s : Sessions} (hs : Accounted s) {t : Started}
    (ht : t ∈ s.started) (hlive : t.upload ∈ s.live) : ∃ p, Shows s t.upload t.handle p := by
  have houtcome := hs.outcome_of_live hlive
  have hrunning : ∀ h, t.RunsOver h → ∃ v due, v.id = t.upload.id ∧ v.plan = t.upload.plan ∧
      s.bridge.Running v h due := by
    intro h hover
    rcases hs.started t ht h hover with hr | ⟨outcome, he⟩
    · exact hr
    · have hsome := he.outcome_eq
      rw [houtcome] at hsome
      cases hsome
  have hhandle : ∀ w ∈ s.bridge.link.writtenFor t.upload.id, t.handle = some w.handle := by
    refine Bridge.handle_of_runsOver fun h hover => ?_
    obtain ⟨v, due, hid, -, hr⟩ := hrunning h hover
    rw [← hid]
    exact hr.carried.handle_eq
  obtain ⟨h, hover⟩ := t.exists_runsOver
  obtain ⟨v, due, hid, hplan, hr⟩ := hrunning h hover
  have hcarried := hr.carried
  rw [hid, hplan] at hcarried
  exact ⟨v.progress, shows_of_carried hs.sound hr.active_eq hplan hcarried hhandle⟩

theorem Accounted.shows_of_unrun {s : Sessions} (hs : Accounted s) {u : Upload}
    (hu : u ∈ s.unrun) : ∃ p, Shows s u none p ∧ p.framesSent = 0 := by
  obtain ⟨v, ⟨hid, -, hplan⟩, hc⟩ := hs.unrun u hu
  have hnothing := hc.written_eq
  rw [hid] at hnothing
  have hcarried : Carried u.plan 0 v.framesSent v.bytesSent
      (s.bridge.link.writtenFor u.id) := by
    rw [hnothing, hc.framesSent_eq, hc.bytesSent_eq]
    exact carried_nil u.plan 0
  refine ⟨v.progress, shows_of_carried hs.sound hc.active_eq hplan hcarried ?_, hc.framesSent_eq⟩
  rw [hnothing]
  exact fun t ht => nomatch ht

/-- What is shown of a live upload. -/
theorem Accounted.exists_shows {s : Sessions} (hs : Accounted s) {u : Upload}
    (hu : u ∈ s.live) : ∃ handle p, Shows s u handle p := by
  rcases List.mem_append.mp hu with hunrun | hrunning
  · obtain ⟨p, hp, -⟩ := hs.shows_of_unrun hunrun
    exact ⟨none, p, hp⟩
  · obtain ⟨t, ht, rfl⟩ := List.mem_map.mp (List.mem_filter.mp hrunning).1
    obtain ⟨p, hp⟩ := hs.shows_of_started ht hu
    exact ⟨t.handle, p, hp⟩

/-! ## Nothing is taken back -/

/-- What was written stays written. -/
theorem wholeFor_run (b : Bridge) (actions : List Bridge.Action) (id : Nat) :
    b.link.wholeFor id <+: (b.run actions).link.wholeFor id := by
  have hsuffix : b.link.transmissions <:+ (b.run actions).link.transmissions := by
    refine Bridge.run_keeps (P := fun b' => b.link.transmissions <:+ b'.link.transmissions)
      (fun b' a h => h.trans ?_) List.suffix_rfl actions
    rcases b'.transmissions_act a with heq | ⟨t, heq, -⟩
    · exact ⟨[], heq.symm⟩
    · exact ⟨[t], heq.symm⟩
  exact (List.reverse_prefix.mpr (hsuffix.filter _)).filter _

theorem Shows.length_wholeFor {s : Sessions} {u : Upload} {handle : Option Nat} {p : Progress}
    (hp : Shows s u handle p) : (s.bridge.link.wholeFor u.id).length = p.framesSent := by
  rw [← List.length_map (·.frame), hp.tally.frames_eq, List.length_take]
  exact Nat.min_eq_left hp.tally.le_length

/-- Progress never goes back. -/
theorem progress_le_run {s : Sessions} (hs : Accounted s) {later : List Bridge.Action}
    {u : Upload} (hu : u ∈ s.live) (hlater : u ∈ (s.run later).live) {p p' : Progress}
    (hp : s.bridge.engine.progress? = some p)
    (hp' : (s.run later).bridge.engine.progress? = some p') :
    p.framesSent ≤ p'.framesSent ∧ p.bytesSent ≤ p'.bytesSent := by
  obtain ⟨handle, q, hq⟩ := hs.exists_shows hu
  obtain ⟨handle', q', hq'⟩ := (accounted_run hs later).exists_shows hlater
  obtain rfl : p = q := Option.some_inj.mp (hp.symm.trans hq.progress_eq)
  obtain rfl : p' = q' := Option.some_inj.mp (hp'.symm.trans hq'.progress_eq)
  have hframes : p.framesSent ≤ p'.framesSent := by
    rw [← hq.length_wholeFor, ← hq'.length_wholeFor, bridge_run]
    exact (wholeFor_run s.bridge later u.id).length_le
  refine ⟨hframes, ?_⟩
  rw [hq.tally.bytes_eq, hq'.tally.bytes_eq]
  exact Plan.bytesOf_take_le _ hframes

/-- **What is told of an upload is true**, in every run.  Its outcome and, as long as it holds
the engine, its progress tell how many frames of its plan were written whole and how many bytes
they carry, all through the handle that was current when it was set running; progress only
grows. -/
theorem accounts_are_true (settings : Settings) (bench : Bench)
    (actions later : List Bridge.Action) :
    let s := (new settings bench).run actions
    (∀ t ∈ s.started, ∀ outcome, s.bridge.engine.outcome? t.upload.id = some outcome →
      Tells s.bridge.link t.upload t.handle outcome) ∧
    (∀ t ∈ s.started, t.upload ∈ s.live → ∃ p, Shows s t.upload t.handle p) ∧
    (∀ u ∈ s.unrun, ∃ p, Shows s u none p ∧ p.framesSent = 0) ∧
    ∀ u ∈ s.live, u ∈ (s.run later).live → ∀ p p', s.bridge.engine.progress? = some p →
      (s.run later).bridge.engine.progress? = some p' →
      p.framesSent ≤ p'.framesSent ∧ p.bytesSent ≤ p'.bytesSent := by
  intro s
  have hs : Accounted s := accounted_run (accounted_new settings bench) actions
  exact ⟨fun t ht outcome => hs.tells ht, fun t ht => hs.shows_of_started ht,
    fun u hu => hs.shows_of_unrun hu, fun u hu hlater p p' => progress_le_run hs hu hlater⟩

/-- The second of two chunks is torn after three bytes. -/
def tearing : List Bridge.Action :=
  [.link (.surround (.plug "p" { script := [.take 9, .take 3, .fail (.system 5)] })) trivial,
    .link (.openPort ["p"] 0) trivial,
    .begin ⟨0⟩ [0x61, 0x62, 0x63, 0x64, 0x65] true, .launch 1, .proceed, .pass 10, .proceed]

theorem torn_upload_tells_one_frame :
    let s := (new Bridge.pacedSettings {}).run tearing
    s.bridge.engine.outcome? 1 = some (.failed (.ofIo (.system 5)) 3 1) ∧
      (s.bridge.link.wholeFor 1).map (·.frame) = [.chunk [0x61, 0x62, 0x63]] := by
  intro s
  have houtcome : s.bridge.engine.outcome? 1 = some (.failed (.ofIo (.system 5)) 3 1) := by decide
  have htells := (accounts_are_true Bridge.pacedSettings {} tearing []).1
    ⟨{ id := 1
       client := ⟨0⟩
       plan := .build [0x61, 0x62, 0x63, 0x64, 0x65] Bridge.pacedSettings.transfer
       announced := true }, some 0⟩ (by decide) _ houtcome
  exact ⟨houtcome, htells.1.frames_eq⟩

end Sessions

end SerialBridge
