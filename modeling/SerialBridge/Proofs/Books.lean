import SerialBridge.Proofs.Actions

/-! # The books of the uploads

The engine's books change in few ways (`Engine.Change`): a new upload claims the free
engine, the one that holds it goes on, or it gives the engine back, ended or given up.  On
the wire an action writes one frame at most, for a client or for the upload that holds the
engine.

Numbers are given out once.  Everything that bears the number of an upload, in the books or
on the wire, came after the upload was begun (`Numbered`), and an upload that does not hold
the engine is over: no action changes what is known of it (`act_of_not_held`).
-/

namespace SerialBridge

/-- How an upload ended, if it has. -/
def Engine.outcome? (e : Engine) (id : Nat) : Option Outcome :=
  e.ended.lookup id

/-- What was written on behalf of an upload, most recent first. -/
def Link.writtenFor (l : Link) (id : Nat) : List Transmission :=
  l.transmissions.filter (·.author == .upload id)

theorem Link.writtenFor_congr {l l' : Link} (h : l'.transmissions = l.transmissions) (id : Nat) :
    l'.writtenFor id = l.writtenFor id := by
  rw [writtenFor, h, writtenFor]

theorem Link.writtenFor_cons {l l' : Link} {t : Transmission}
    (h : l'.transmissions = t :: l.transmissions) {id : Nat} (hauthor : t.author = .upload id) :
    l'.writtenFor id = t :: l.writtenFor id := by
  have hauthor : (t.author == .upload id) = true := beq_iff_eq.mpr hauthor
  rw [writtenFor, h, writtenFor, List.filter_cons, if_pos hauthor]

theorem Link.writtenFor_cons_of_ne {l l' : Link} {t : Transmission}
    (h : l'.transmissions = t :: l.transmissions) {id : Nat} (hauthor : t.author ≠ .upload id) :
    l'.writtenFor id = l.writtenFor id := by
  have hauthor : ¬ (t.author == .upload id) = true := fun he => hauthor (beq_iff_eq.mp he)
  rw [writtenFor, h, writtenFor, List.filter_cons, if_neg hauthor]

namespace Bridge

theorem change_finish {e : Engine} {u : Upload} (h : e.active = some u) (outcome : Outcome) :
    e.Change (e.finish u.id outcome) := by
  rw [finish_of_active h]
  exact .ended u h outcome

/-- What the engine's own operations do to the books. -/
theorem change_begin (e : Engine) (client : ClientId) (payload : Bytes) (announced : Bool) :
    e.Change (e.begin client payload announced).1 := by
  rw [Engine.begin]
  split
  · exact .same
  · cases hactive : e.active with
    | some u => exact .same
    | none => exact .begun _ hactive rfl

theorem change_stop (e : Engine) (id : Nat) : e.Change (e.stop id) := by
  rw [Engine.stop, Engine.modify]
  cases hactive : e.active with
  | none =>
    rw [Option.map_none, ← hactive]
    exact .same
  | some u =>
    rw [Option.map_some]
    refine .went u _ hactive ?_ ?_ <;> split <;> rfl

theorem change_drop (e : Engine) (id : Nat) : e.Change (e.drop id) := by
  rw [Engine.drop]
  split
  · rw [Engine.release]
    cases hactive : e.active with
    | none =>
      rw [Option.filter_none, ← hactive]
      exact .same
    | some u =>
      rw [Option.filter_some]
      split
      · rw [← hactive]
        exact .same
      · exact .dropped u hactive
  · exact .same

/-- **How an action changes the books.** -/
theorem change_act (b : Bridge) (a : Action) : b.engine.Change (b.act a).engine := by
  cases a with
  | link | publish | pass => exact .same
  | begin client payload announced => exact change_begin b.engine client payload announced
  | launch id =>
    rw [act]
    rcases b.launch_cases id with ⟨heq, -⟩ | ⟨u, _, hactive, rfl, -, ⟨-, heq⟩ | ⟨h, -, heq⟩⟩
    · rw [heq]
      exact .same
    · rw [heq]
      exact change_finish hactive _
    · rw [heq]
      exact .went u _ hactive rfl rfl
  | proceed =>
    rw [act]
    rcases b.proceed_cases with heq | ⟨u, h, hactive, heq⟩ <;> rw [heq]
    · exact .same
    · exact change_stepUpload hactive h
  | stop id => exact change_stop b.engine id
  | drop id => exact change_drop b.engine id

/-- Where a frame that an action writes comes from: it is the one that a client has the action
write, or the first one left of the upload that holds the engine. -/
inductive Source (b : Bridge) (a : Action) (t : Transmission) : Prop where
  | line (h : Nat) (others : (Link.Step.writeOn .line h t.frame).ForOthers)
    (haction : a = .link (.writeOn .line h t.frame) others) (hauthor : t.author = .line)
  | upload (u : Upload) (rest : List Frame) (haction : a = .proceed)
    (hactive : b.engine.active = some u) (hpending : u.pending = t.frame :: rest)
    (hauthor : t.author = .upload u.id)

/-- **What an action writes**: at most one frame, for a client or for the upload that holds
the engine. -/
theorem written_act (b : Bridge) (a : Action) :
    (b.act a).link.transmissions = b.link.transmissions ∨
      ∃ t, (b.act a).link.transmissions = t :: b.link.transmissions ∧ Source b a t := by
  rw [link_act_eq]
  cases hstep : b.linkStep? a with
  | none => exact .inl rfl
  | some step =>
    change (b.link.step step).transmissions = _ ∨ ∃ t, (b.link.step step).transmissions = _ ∧ _
    rcases b.link.transmissions_step step with
      hsame | ⟨author, h, frame, t, rfl, rfl, rfl, hmore⟩
    · exact .inl hsame
    refine .inr ⟨t, hmore, ?_⟩
    rcases linkStep?_cases hstep with
      ⟨others, haction⟩ | ⟨haction, u, k, frame, rest, hactive, hpending, hwrite⟩
    · cases hauthor : t.author with
      | line =>
        rw [hauthor] at others
        simp only [hauthor] at haction
        exact .line h others haction hauthor
      | upload id =>
        rw [hauthor] at others
        exact others.elim
    · obtain ⟨hauthor, -, rfl⟩ := Link.Step.writeOn.inj hwrite
      exact .upload u rest haction hactive hpending hauthor

theorem transmissions_act (b : Bridge) (a : Action) :
    (b.act a).link.transmissions = b.link.transmissions ∨
      ∃ t, (b.act a).link.transmissions = t :: b.link.transmissions ∧
        (t.author = .line ∨
          a = .proceed ∧ ∃ u, b.engine.active = some u ∧ t.author = .upload u.id) := by
  rcases b.written_act a with hsame | ⟨t, hmore, hsource⟩
  · exact .inl hsame
  · refine .inr ⟨t, hmore, ?_⟩
    cases hsource with
    | line h others haction hauthor => exact .inl hauthor
    | upload u rest haction hactive _ hauthor => exact .inr ⟨haction, u, hactive, hauthor⟩

/-! ## Numbers -/

/-- Numbers in use, in the books and on the wire, lie below the next one. -/
structure Numbered (b : Bridge) : Prop where
  active_lt : ∀ u, b.engine.active = some u → u.id < b.engine.nextId
  ended_lt : ∀ e ∈ b.engine.ended, e.1 < b.engine.nextId
  author_lt : ∀ t ∈ b.link.transmissions, ∀ id, t.author = .upload id → id < b.engine.nextId

theorem numbered_new (settings : Settings) (bench : Bench) : Numbered (new settings bench) where
  active_lt := fun _ hu => nomatch hu
  ended_lt := fun _ he => nomatch he
  author_lt := fun _ ht => nomatch ht

theorem nextId_le_of_change {e e' : Engine} (h : e.Change e') : e.nextId ≤ e'.nextId := by
  cases h with
  | begun => exact Nat.le_succ _
  | same | went | dropped | ended => exact Nat.le_refl _

theorem settings_of_change {e e' : Engine} (h : e.Change e') : e'.settings = e.settings := by
  cases h <;> rfl

theorem numbered_act {b : Bridge} (hb : Numbered b) (a : Action) : Numbered (b.act a) where
  active_lt := by
    have hactive := hb.active_lt
    have hchange := b.change_act a
    generalize (b.act a).engine = e at hchange ⊢
    intro v hv
    cases hchange with
    | same => exact hactive v hv
    | begun u free fresh =>
      cases hv
      rw [fresh]
      exact Nat.lt_succ_self _
    | went u v held hid =>
      cases hv
      rw [hid]
      exact hactive u held
    | dropped | ended => cases hv
  ended_lt := by
    have hchange := b.change_act a
    generalize (b.act a).engine = e at hchange ⊢
    intro x hx
    cases hchange with
    | same | went | dropped => exact hb.ended_lt x hx
    | begun => exact Nat.lt_succ_of_lt (hb.ended_lt x hx)
    | ended u held outcome =>
      rcases List.mem_cons.mp hx with rfl | hx
      · exact hb.active_lt u held
      · exact hb.ended_lt x hx
  author_lt := by
    have hle := nextId_le_of_change (b.change_act a)
    intro t ht id hid
    refine Nat.lt_of_lt_of_le ?_ hle
    rcases b.transmissions_act a with heq | ⟨t', heq, hauthor⟩
    · exact hb.author_lt t (heq ▸ ht) id hid
    · rw [heq] at ht
      rcases List.mem_cons.mp ht with rfl | ht
      · rcases hauthor with hline | ⟨-, u, hu, hupload⟩
        · rw [hline] at hid
          cases hid
        · rw [hupload] at hid
          cases hid
          exact hb.active_lt u hu
      · exact hb.author_lt t ht id hid

theorem numbered_run {b : Bridge} (hb : Numbered b) (actions : List Action) :
    Numbered (b.run actions) :=
  run_keeps (P := Numbered) (fun _ a h => numbered_act h a) hb actions

theorem settings_run (b : Bridge) (actions : List Action) :
    (b.run actions).engine.settings = b.engine.settings :=
  run_keeps (P := fun b' => b'.engine.settings = b.engine.settings)
    (fun b' a h => (settings_of_change (b'.change_act a)).trans h) rfl actions

/-- Nothing is known of an upload that is yet to be begun. -/
theorem outcome?_of_nextId_le {b : Bridge} (hb : Numbered b) {id : Nat}
    (hid : b.engine.nextId ≤ id) : b.engine.outcome? id = none := by
  rw [Engine.outcome?, List.lookup_eq_none_iff]
  intro e he
  have hlt := hb.ended_lt e he
  simp only [bne_iff_ne]
  omega

theorem writtenFor_of_nextId_le {b : Bridge} (hb : Numbered b) {id : Nat}
    (hid : b.engine.nextId ≤ id) : b.link.writtenFor id = [] := by
  rw [Link.writtenFor, List.filter_eq_nil_iff]
  intro t ht heq
  have hlt := hb.author_lt t ht id (beq_iff_eq.mp heq)
  omega

/-! ## What other actions do not touch -/

/-- An upload does not hold the engine. -/
def NotHeld (b : Bridge) (id : Nat) : Prop :=
  ∀ u, b.engine.active = some u → u.id ≠ id

/-- **An upload that does not hold the engine is over**: whatever happens, it never holds
the engine again, nothing more is written for it, and how it ended stays known. -/
theorem act_of_not_held {b : Bridge} {id : Nat} (hid : id < b.engine.nextId)
    (hnot : b.NotHeld id) (a : Action) :
    (b.act a).NotHeld id ∧ (b.act a).engine.outcome? id = b.engine.outcome? id ∧
      (b.act a).link.writtenFor id = b.link.writtenFor id := by
  have hbooks : (b.act a).NotHeld id ∧ (b.act a).engine.outcome? id = b.engine.outcome? id := by
    have hchange := b.change_act a
    rw [NotHeld]
    generalize (b.act a).engine = e at hchange ⊢
    cases hchange with
    | same => exact ⟨hnot, rfl⟩
    -- the new upload has a number that was not in use
    | begun u free fresh =>
      refine ⟨fun v hv heq => ?_, rfl⟩
      cases hv
      omega
    | went u v held hsame =>
      refine ⟨fun w hw => ?_, rfl⟩
      cases hw
      rw [hsame]
      exact hnot u held
    | dropped => exact ⟨fun v hv => (nomatch hv), rfl⟩
    | ended u held outcome =>
      refine ⟨fun v hv => (nomatch hv), ?_⟩
      have hne : (id == u.id) = false := beq_false_of_ne (hnot u held).symm
      rw [Engine.outcome?, List.lookup_cons, hne]
      rfl
  refine ⟨hbooks.1, hbooks.2, ?_⟩
  rcases b.transmissions_act a with heq | ⟨t, heq, hauthor⟩
  · exact Link.writtenFor_congr heq id
  · refine Link.writtenFor_cons_of_ne heq fun h => ?_
    rcases hauthor with hline | ⟨-, u, hu, hupload⟩
    · rw [hline] at h
      cases h
    · rw [hupload] at h
      cases h
      exact hnot u hu rfl

/-- The action is meant for an upload. -/
def Action.Concerns (id : Nat) : Action → Prop
  | .launch k | .stop k | .drop k => k = id
  | _ => False

/-- While an upload holds the engine, actions that are not meant for it leave the books as
they are, and only going on writes for it. -/
theorem act_of_not_concerned {b : Bridge} {u : Upload} (hactive : b.engine.active = some u)
    {a : Action} (ha : ¬ a.Concerns u.id) (hproceed : a ≠ .proceed) :
    (b.act a).engine = b.engine ∧ (b.act a).link.writtenFor u.id = b.link.writtenFor u.id := by
  refine ⟨?_, ?_⟩
  · cases a with
    | link | publish | pass => rfl
    | begin client payload announced =>
      change (b.engine.begin client payload announced).1 = b.engine
      rw [Engine.begin, hactive]
      split <;> rfl
    | launch id =>
      rw [act]
      rcases b.launch_cases id with ⟨heq, -⟩ | ⟨v, _, hv, hid, -, -⟩
      · rw [heq]
      · rw [hactive] at hv
        cases hv
        exact absurd hid.symm ha
    | proceed => exact absurd rfl hproceed
    | stop id =>
      change b.engine.stop id = b.engine
      have hne : u.id ≠ id := fun h => ha h.symm
      rw [Engine.stop, Engine.modify, hactive, Option.map_some, if_neg hne, ← hactive]
    | drop id =>
      change b.engine.drop id = b.engine
      have hne : (u.id == id) = false := beq_false_of_ne fun h => ha h.symm
      rw [Engine.drop, hactive, Option.any_some, hne, Bool.false_and, if_neg Bool.false_ne_true]
  · rcases b.transmissions_act a with heq | ⟨t, heq, hline | ⟨h, -⟩⟩
    · exact Link.writtenFor_congr heq u.id
    · refine Link.writtenFor_cons_of_ne heq fun h => ?_
      rw [hline] at h
      cases h
    · exact absurd h hproceed

end Bridge

end SerialBridge
