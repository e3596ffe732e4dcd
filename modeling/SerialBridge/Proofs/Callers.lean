import Mathlib.Logic.Function.Basic
import SerialBridge.Proofs.Wire

/-! # Callers that share a link

Any number of callers use one link at the same time.  What they do falls apart into turns,
and in each turn one of them has the link to itself: it opens or closes it, does one half
of a reconnect, or writes a frame through the handle it holds.  Taking the current handle
is a turn of its own, so that anything can happen between the taking and the write, and so
is each half of a reconnect: between them the link can be opened, closed and reconnected by
others, whose halves overlap with these.

Between turns the current handle is open and no other, and a caller whose handle was
discarded since it took it is refused: nothing it writes reaches any device
(`reconnect_spares_new_port`).
-/

namespace SerialBridge

/-- A link and those who use it. -/
structure Shared where
  /-- The link. -/
  link : Link
  /-- The handle that each caller took last, if the link was open then. -/
  taken : Nat → Option Nat
  /-- What each caller in the pause of a reconnect is about to open. -/
  settling : Nat → Option (List String × UInt32)

/-- What happens between two moments at which nobody has the link to itself. -/
inductive Turn where
  /-- Someone opens the link. -/
  | openPort (candidates : List String) (baudRate : UInt32)
  /-- Someone closes the link. -/
  | close
  /-- A caller drops the link and starts to wait. -/
  | beginReconnect (caller : Nat) (candidates : List String) (baudRate : UInt32)
  /-- A caller has waited and opens the link. -/
  | endReconnect (caller : Nat)
  /-- A caller takes the current handle. -/
  | take (caller : Nat)
  /-- A caller writes a frame through the handle it has. -/
  | write (caller : Nat) (author : Author) (frame : Frame)
  /-- Someone reads through a handle, at a time. -/
  | read (now handle : Nat)
  /-- The surroundings do something. -/
  | surround (change : Bench.Change)
  deriving DecidableEq, Repr

namespace Shared

/-- A link that nobody has used yet. -/
def new (bench : Bench) : Shared where
  link := { bench }
  taken := fun _ => none
  settling := fun _ => none

/-- A caller writes a frame through the handle it has. -/
def write (s : Shared) (caller : Nat) (author : Author) (frame : Frame) :
    Shared × Except LinkError Unit :=
  match s.taken caller with
  | none => (s, .error .closed)
  | some h =>
    let (link, result) := s.link.writeOn author h frame
    ({ s with link }, result)

/-- A caller that is in the pause of a reconnect ends it. -/
def endReconnect (s : Shared) (caller : Nat) : Shared :=
  match s.settling caller with
  | none => s
  | some (candidates, baudRate) =>
    { s with
      link := (s.link.openPort candidates baudRate).1
      settling := Function.update s.settling caller none }

/-- The state after a turn. -/
def turn (s : Shared) : Turn → Shared
  | .openPort candidates baudRate => { s with link := (s.link.openPort candidates baudRate).1 }
  | .close => { s with link := s.link.close }
  | .beginReconnect caller candidates baudRate =>
    { s with
      link := s.link.clear
      settling := Function.update s.settling caller (some (candidates, baudRate)) }
  | .endReconnect caller => s.endReconnect caller
  | .take caller => { s with taken := Function.update s.taken caller s.link.current }
  | .write caller author frame => (s.write caller author frame).1
  | .read now handle => { s with link := (s.link.readLines now handle).1 }
  | .surround change => { s with link := s.link.step (.surround change) }

/-- The state after some turns. -/
def run (s : Shared) (turns : List Turn) : Shared :=
  turns.foldl turn s

theorem run_append (s : Shared) (first later : List Turn) :
    s.run (first ++ later) = (s.run first).run later :=
  List.foldl_append

/-- The turn discards the handle that is current. -/
def Discards (s : Shared) : Turn → Prop
  | .openPort .. | .close | .beginReconnect .. => True
  | .endReconnect caller => (s.settling caller).isSome
  | .take _ | .write .. | .read .. | .surround _ => False

/-! ## What a turn does to the link -/

/-- A turn is one step of the link, or none. -/
theorem exists_steps_turn (s : Shared) (t : Turn) :
    ∃ steps, (s.turn t).link = s.link.run steps := by
  cases t with
  | openPort candidates baudRate => exact ⟨[.openPort candidates baudRate], rfl⟩
  | close => exact ⟨[.clear], rfl⟩
  | beginReconnect caller candidates baudRate => exact ⟨[.clear], rfl⟩
  | endReconnect caller =>
    rw [turn, endReconnect]
    cases s.settling caller with
    | none => exact ⟨[], rfl⟩
    | some port => exact ⟨[.openPort port.1 port.2], rfl⟩
  | take caller => exact ⟨[], rfl⟩
  | write caller author frame =>
    rw [turn, write]
    cases s.taken caller with
    | none => exact ⟨[], rfl⟩
    | some h => exact ⟨[.writeOn author h frame], rfl⟩
  | read now handle => exact ⟨[.readLines now handle], rfl⟩
  | surround change => exact ⟨[.surround change], rfl⟩

theorem exists_steps_run (s : Shared) (turns : List Turn) :
    ∃ steps, (s.run turns).link = s.link.run steps := by
  induction turns generalizing s with
  | nil => exact ⟨[], rfl⟩
  | cons t turns ih =>
    obtain ⟨first, hfirst⟩ := s.exists_steps_turn t
    obtain ⟨later, hlater⟩ := ih (s.turn t)
    refine ⟨first ++ later, ?_⟩
    rw [Link.run_append, ← hfirst]
    exact hlater

theorem sound_link {s : Shared} (hs : s.link.Sound) (turns : List Turn) :
    (s.run turns).link.Sound := by
  obtain ⟨steps, heq⟩ := s.exists_steps_run turns
  rw [heq]
  exact Link.sound_run hs steps

theorem portOf_link {s : Shared} {h : Nat} {port : String × Nat}
    (hp : s.link.portOf h = some port) (turns : List Turn) :
    (s.run turns).link.portOf h = some port := by
  obtain ⟨steps, heq⟩ := s.exists_steps_run turns
  rw [heq]
  exact Link.portOf_run hp steps

theorem openAt_link {s : Shared} {h : Nat} {port : String × Nat}
    (hp : s.link.portOf h = some port) (hc : s.link.openAt h = false) (turns : List Turn) :
    (s.run turns).link.openAt h = false := by
  obtain ⟨steps, heq⟩ := s.exists_steps_run turns
  rw [heq]
  exact Link.openAt_run hp hc steps

/-- After a turn that discards the current handle, none of the handles there were is open. -/
theorem openAt_turn_of_discards {s : Shared} (hs : s.link.Sound) {t : Turn} (ht : s.Discards t)
    {h : Nat} {port : String × Nat} (hp : s.link.portOf h = some port) :
    (s.turn t).link.openAt h = false := by
  have hclear := Link.openAt_clear_of_sound hs h
  cases t with
  | openPort candidates baudRate => exact (Link.openAt_openPort hp candidates baudRate).trans hclear
  | close | beginReconnect => exact hclear
  | endReconnect caller =>
    obtain ⟨⟨candidates, baudRate⟩, hsettling⟩ := Option.isSome_iff_exists.mp ht
    rw [turn, endReconnect, hsettling]
    exact (Link.openAt_openPort hp candidates baudRate).trans hclear
  | take | write | read | surround => exact ht.elim

/-- A caller keeps its handle until it takes another. -/
theorem taken_run {s : Shared} {caller : Nat} {turns : List Turn} (h : .take caller ∉ turns) :
    (s.run turns).taken caller = s.taken caller := by
  induction turns generalizing s with
  | nil => rfl
  | cons t turns ih =>
    obtain ⟨hne, hrest⟩ := List.ne_and_not_mem_of_not_mem_cons h
    have hturn : (s.turn t).taken caller = s.taken caller := by
      cases t with
      | openPort | close | beginReconnect | read | surround => rfl
      | endReconnect =>
        rw [turn, endReconnect]
        split <;> rfl
      | take other =>
        have hother : caller ≠ other := fun he => hne (congrArg Turn.take he)
        exact Function.update_of_ne hother _ _
      | write =>
        rw [turn, write]
        split <;> rfl
    exact (ih hrest).trans hturn

/-! ## Writing -/

/-- A write through a closed handle is refused and changes nothing. -/
theorem write_of_closed {s : Shared} {caller : Nat}
    (hc : ∀ h, s.taken caller = some h → s.link.openAt h = false) (author : Author)
    (frame : Frame) : s.write caller author frame = (s, .error .closed) := by
  rw [write]
  cases htaken : s.taken caller with
  | none => rfl
  | some h =>
    rcases s.link.writeOn_cases author h frame with ⟨heq, -⟩ | ⟨handle, device, hh, hopen, -⟩
    · dsimp only
      rw [heq]
    · have hclosed := hc h htaken
      rw [Link.openAt_of_handle hh, hopen] at hclosed
      cases hclosed

/-- A write adds to the wire of no handle but the caller's. -/
theorem sentThrough_write {s : Shared} {caller h : Nat} (hne : s.taken caller ≠ some h)
    (author : Author) (frame : Frame) :
    (s.write caller author frame).1.link.sentThrough h = s.link.sentThrough h := by
  rw [write]
  cases htaken : s.taken caller with
  | none => rfl
  | some k =>
    rw [htaken] at hne
    rcases s.link.writeOn_cases author k frame with ⟨heq, -⟩ | ⟨handle, device, -, -, -, heq, -⟩
    · dsimp only
      rw [heq]
    · dsimp only
      rw [heq]
      exact Link.sentThrough_withTransmission_of_ne (fun he => hne (congrArg some he)) _

/-- A write reaches no device but the one behind the caller's handle. -/
theorem device_write {s : Shared} {caller d : Nat}
    (hne : ∀ h path, s.taken caller = some h → s.link.portOf h ≠ some (path, d))
    (author : Author) (frame : Frame) :
    (s.write caller author frame).1.link.receivedBy d = s.link.receivedBy d ∧
      (s.write caller author frame).1.link.bench.devices[d]? = s.link.bench.devices[d]? := by
  rw [write]
  cases htaken : s.taken caller with
  | none => exact ⟨rfl, rfl⟩
  | some k =>
    rcases s.link.writeOn_cases author k frame with ⟨heq, -⟩ | ⟨handle, device, hh, -, -, heq, -⟩
    · dsimp only
      rw [heq]
      exact ⟨rfl, rfl⟩
    · have hdevice : handle.device ≠ d := by
        rintro rfl
        exact hne k handle.path htaken (Link.portOf_of_handle hh)
      dsimp only
      rw [heq]
      refine ⟨Link.receivedBy_withTransmission_of_ne hdevice _, ?_⟩
      exact List.getElem?_modify_ne _ _ hdevice

/-- A caller that has taken the current handle is refused once that handle is discarded. -/
theorem write_of_discarded {s : Shared} (hs : s.link.Sound) {caller : Nat}
    {between after : List Turn} {t : Turn}
    (ht : (s.run (.take caller :: between)).Discards t) (hbetween : .take caller ∉ between)
    (hafter : .take caller ∉ after) (author : Author) (frame : Frame) :
    (s.run (.take caller :: between ++ t :: after)).write caller author frame =
      (s.run (.take caller :: between ++ t :: after), .error .closed) := by
  have hne : .take caller ∉ t :: after := by
    rintro (_ | hmem)
    · exact ht
    · exact hafter ‹_›
  have htaken : (s.run (.take caller :: between ++ t :: after)).taken caller = s.link.current := by
    rw [run_append, taken_run hne]
    exact (taken_run hbetween).trans (Function.update_self _ _ _)
  refine write_of_closed (fun h hh => ?_) author frame
  -- what the caller took was open then, and the discarding turn closed it for good
  rw [htaken] at hh
  obtain ⟨handle, hhandle, -⟩ := Link.exists_handle_of_openAt ((hs.openAt_iff h).mpr hh)
  have hp := portOf_link (Link.portOf_of_handle hhandle) (.take caller :: between)
  have hclosed := openAt_turn_of_discards (sound_link hs _) ht hp
  rw [run_append]
  exact openAt_link (portOf_link hp [t]) hclosed after

/-- **Reconnecting spares the new port.**  After any turns of any callers, the open handle is
the current one and no other; a handle once closed is never open again; a write moves bytes
through the caller's handle only, to the device behind it; and when the handle was discarded
after the caller took it, the write is refused and leaves everything as it was. -/
theorem reconnect_spares_new_port (bench : Bench) (turns : List Turn) :
    let s := (new bench).run turns
    (∀ h, s.link.openAt h = true ↔ s.link.current = some h) ∧
    (∀ later h port, s.link.portOf h = some port → s.link.openAt h = false →
      (s.run later).link.openAt h = false) ∧
    (∀ caller author frame,
      (∀ h, s.taken caller ≠ some h →
        (s.write caller author frame).1.link.sentThrough h = s.link.sentThrough h) ∧
      (∀ d, (∀ h path, s.taken caller = some h → s.link.portOf h ≠ some (path, d)) →
        (s.write caller author frame).1.link.receivedBy d = s.link.receivedBy d ∧
        (s.write caller author frame).1.link.bench.devices[d]? = s.link.bench.devices[d]?)) ∧
    (∀ caller author frame between t after,
      (s.run (.take caller :: between)).Discards t →
      .take caller ∉ between → .take caller ∉ after →
      (s.run (.take caller :: between ++ t :: after)).write caller author frame =
        (s.run (.take caller :: between ++ t :: after), .error .closed)) := by
  intro s
  have hs : s.link.Sound := sound_link (Link.sound_new bench) turns
  refine ⟨hs.openAt_iff, ?_, ?_, ?_⟩
  · intro later h port hp hc
    exact openAt_link hp hc later
  · intro caller author frame
    exact ⟨fun h hne => sentThrough_write hne author frame,
      fun d hne => device_write hne author frame⟩
  · intro caller author frame between t after ht hbetween hafter
    exact write_of_discarded hs ht hbetween hafter author frame

/-- A port, opened. -/
def openedOnce : List Turn :=
  [.surround (.plug "p" {}), .openPort ["p"] 0]

/-- The first caller is in the pause of a reconnect when the second one begins another, and
both end it before the third one writes. -/
theorem overlapping_reconnects_spare_new_port :
    let s := (new {}).run (openedOnce ++ .take 3 ::
      [.beginReconnect 1 ["p"] 0, .beginReconnect 2 ["p"] 0] ++
        .endReconnect 1 :: [.endReconnect 2])
    s.taken 3 = some 0 ∧ s.link.current = some 2 ∧
      s.write 3 .line (.message "abc") = (s, .error .closed) := by
  refine ⟨rfl, rfl, ?_⟩
  have hspared := (reconnect_spares_new_port {} openedOnce).2.2.2 3 .line (.message "abc")
    [.beginReconnect 1 ["p"] 0, .beginReconnect 2 ["p"] 0] (.endReconnect 1) [.endReconnect 2]
    rfl (by decide) (by decide)
  exact hspared

end Shared

end SerialBridge
