import Mathlib.Data.List.Forall2
import Px4Firmware.Px4io.Driver

/-!
# Px4Firmware.Px4io.Fidelity

**What the IO board believes.** Each command frame carries all that has been requested: the board
should be allowed to arm exactly when the last request about that allowed it, and each channel
should have the value requested last. What has not been requested is whatever the memory of the
driver object contained, and a value that does not fit into 16 bits is truncated.

`command_fidelity` says that these are the only ways to be wrong.
-/

namespace Px4Firmware.Px4io

open Px4Firmware.Lib

/-! ### The requests -/

/-- What has been requested last, if anything. -/
structure Requested where
  arm : Option Bool
  value : Fin outputChannels → Option Nat

/-- Nothing has been requested. -/
def Requested.nothing : Requested where
  arm := none
  value _ := none

/-- A write requests the values of its channels, unless there are too many of them. -/
def Requested.write (buffer : List UInt8) (r : Requested) : Requested :=
  if outputChannels < buffer.length / 2 then r
  else
    { r with value := fun i =>
        if i.val < buffer.length / 2 then some (wordAt buffer (2 * i)).toNat else r.value i }

/-- What an ioctl requests. -/
def Requested.ioctl (r : Requested) : Ioctl → Requested
  | .arm => { r with arm := some true }
  | .disarm => { r with arm := some false }
  | .set channel arg =>
      { r with value := fun i => if i.val = channel then some arg.toNat else r.value i }
  | _ => r

/-- What has been requested, and what had been when each of the frames under way was sent. -/
structure Watch where
  requested : Requested
  sent : List Requested

/-- Watch the requests and the frames. -/
def Watch.next (w : Watch) (b : Boards) (e : Boards.Event) (_ : Boards) : Watch :=
  match e with
  | .write buffer => { w with requested := w.requested.write buffer }
  | .ioctl command => { w with requested := w.requested.ioctl command }
  | .update => if b.driver.sendNeeded then { w with sent := w.sent ++ [w.requested] } else w
  | .handle => { w with sent := w.sent.tail }
  | _ => w

/-- The two boards, watched. -/
def watchedBoards (memory : NextCommand) : LTS (Boards × Watch) Boards.Event :=
  (boards memory).observe ⟨.nothing, []⟩ Watch.next

/-- The start. -/
def startWatched (memory : NextCommand) : Boards × Watch := (.start memory, ⟨.nothing, []⟩)

/-! ### The law and its condition -/

/-- The IO board believes what was requested. -/
def Believes (io : SysState) (r : Requested) : Prop :=
  (io.armOk = true ↔ r.arm = some true) ∧
    ∀ i v, r.value i = some v → (io.fmuChannelData.get i).toNat = v

/-- The law: when the IO board has handled a frame, it believes what had been requested when the
frame was sent. -/
def Faithful (p : Boards × Watch) (e : Boards.Event) (q : Boards × Watch) : Prop :=
  e = .handle → ∀ r ∈ p.2.sent.head?, Believes q.1.io r

/-- The condition: when a frame is handled that was sent before any request to arm or disarm, the
memory of the driver object had a zero in place of `arm_ok`, and the values that had been requested
fit into 16 bits. -/
def CommandCareful (memory : NextCommand) (p : Boards × Watch) (e : Boards.Event) : Prop :=
  e = .handle → ∀ r ∈ p.2.sent.head?,
    (r.arm = none → memory.armOk = 0) ∧ ∀ i v, r.value i = some v → v < 65536

/-! ### The bytes of a command -/

@[simp] theorem wordBytes_length (w : UInt16) : (wordBytes w).length = 2 := digits_length 2 w.toNat

theorem ofDigits_wordBytes (w : UInt16) : UInt16.ofNat (ofDigits (wordBytes w)) = w := by
  have hlt : w.toNat % 256 ^ 2 = w.toNat := Nat.mod_eq_of_lt w.toNat_lt
  rw [wordBytes, ofDigits_digits, hlt, UInt16.ofNat_toNat]

theorem servoBytes_length (c : NextCommand) :
    (c.servoCommand.toList.flatMap wordBytes).length = 2 * outputChannels := by
  rw [length_flatMap_of_length wordBytes_length, Vector.length_toList]

theorem bytes_length (c : NextCommand) : c.bytes.length = sizeofCommand := by
  have hwords := servoBytes_length c
  simp only [NextCommand.bytes, List.length_append, hwords, wordBytes_length, Vector.length_toList,
    List.length_singleton]
  rfl

theorem wordAt_bytes (c : NextCommand) (i : Fin outputChannels) :
    wordAt c.bytes (2 + 2 * i) = c.servoCommand.get i := by
  have hi : i.val < c.servoCommand.toList.length := by simp
  have htake := take_drop_flatMap wordBytes_length hi (c.relayState.toList ++ [c.armOk])
  have hdrop : c.bytes.drop (2 + 2 * i) = (c.servoCommand.toList.flatMap wordBytes ++
      (c.relayState.toList ++ [c.armOk])).drop (2 * i) := by
    rw [← List.drop_drop, NextCommand.bytes, List.drop_left' (wordBytes_length _)]
  rw [wordAt, hdrop, htake, ofDigits_wordBytes]
  exact Vector.getElem_toList hi

theorem armOk_bytes (c : NextCommand) :
    boolAt c.bytes (2 + 2 * outputChannels + relayChannels) = decide (c.armOk ≠ 0) := by
  have hwords := servoBytes_length c
  have hlast : c.bytes[2 + 2 * outputChannels + relayChannels]? = some c.armOk := by
    rw [NextCommand.bytes, List.getElem?_append_right (by simp), List.getElem?_append_right (by
      simp [hwords]), List.getElem?_append_right (by simp [hwords])]
    simp [hwords]
  rw [boolAt, List.getD_eq_getElem?_getD, hlast]
  rfl

/-- What the IO board takes from a frame of the driver. -/
theorem commsHandleFrame_bytes (c : NextCommand) (s : SysState) :
    (commsHandleFrame c.bytes s).armOk = decide (c.armOk ≠ 0) ∧
      (commsHandleFrame c.bytes s).fmuChannelData = c.servoCommand := by
  have hservo : Vector.ofFn (fun i : Fin outputChannels => wordAt c.bytes (2 + 2 * i)) =
      c.servoCommand := by
    apply Vector.ext
    intro i hi
    rw [Vector.getElem_ofFn]
    exact wordAt_bytes c ⟨i, hi⟩
  unfold commsHandleFrame toCommand
  rw [if_pos (bytes_length c)]
  simp only [hservo, armOk_bytes]
  split <;> exact ⟨rfl, rfl⟩

/-! ### The command and the requests -/

/-- The command holds what has been requested, and otherwise what the memory contained. -/
structure Holds (memory : NextCommand) (r : Requested) (c : NextCommand) : Prop where
  armOk : c.armOk = match r.arm with
    | none => memory.armOk
    | some arm => if arm then 1 else 0
  servo : ∀ i, c.servoCommand.get i = match r.value i with
    | none => memory.servoCommand.get i
    | some v => UInt16.ofNat v

variable {memory c : NextCommand} {r : Requested}

/-- The IO board believes what was requested exactly when the command is careful. -/
theorem believes_iff (h : Holds memory r c) (s : SysState) :
    Believes (commsHandleFrame c.bytes s) r ↔
      (r.arm = none → memory.armOk = 0) ∧ ∀ i v, r.value i = some v → v < 65536 := by
  obtain ⟨harm, hservo⟩ := commsHandleFrame_bytes c s
  unfold Believes
  rw [harm, hservo, decide_eq_true_iff, h.armOk]
  refine and_congr ?_ (forall_congr' fun i => forall_congr' fun v => forall_congr' fun hv => ?_)
  · cases r.arm with
    | none => simp
    | some arm => cases arm <;> simp
  · rw [h.servo i, hv]
    show (UInt16.ofNat v).toNat = v ↔ _
    rw [UInt16.toNat_ofNat']
    exact Nat.mod_eq_iff_lt (by decide)

theorem Holds.start : Holds memory .nothing (Driver.new memory).nextCommand :=
  ⟨rfl, fun _ => rfl⟩

theorem Holds.write {d : Driver} (h : Holds memory r d.nextCommand) (buffer : List UInt8) :
    Holds memory (r.write buffer) (d.write buffer).2.nextCommand := by
  unfold Requested.write Driver.write
  dsimp only
  split
  · exact h
  · refine ⟨h.armOk, fun i => ?_⟩
    dsimp only
    refine (Vector.getElem_ofFn i.isLt).trans ?_
    by_cases hi : i.val < buffer.length / 2
    · simp only [if_pos hi, UInt16.ofNat_toNat]
    · simp only [if_neg hi]
      exact h.servo i

theorem Holds.ioctl {d : Driver} (h : Holds memory r d.nextCommand) (command : Ioctl) :
    Holds memory (r.ioctl command) (d.ioctl command).2.nextCommand := by
  cases command with
  | arm => exact ⟨rfl, h.servo⟩
  | disarm => exact ⟨rfl, h.servo⟩
  | set channel arg =>
      simp only [Driver.ioctl, Requested.ioctl]
      by_cases hchannel : channel < outputChannels
      · rw [if_pos hchannel]
        refine ⟨h.armOk, fun i => ?_⟩
        refine (Vector.getElem_setIfInBounds i.isLt).trans ?_
        simp only
        by_cases hi : i.val = channel
        · rw [if_pos hi.symm, if_pos hi]
          rfl
        · rw [if_neg (Ne.symm hi), if_neg hi]
          exact h.servo i
      · rw [if_neg hchannel]
        refine ⟨h.armOk, fun i => ?_⟩
        have hi : i.val ≠ channel := fun hi => hchannel (hi ▸ i.isLt)
        simp only [if_neg hi]
        exact h.servo i
  | get channel =>
      simp only [Driver.ioctl]
      split
      · split <;> exact h
      · exact h
  | other => exact h

theorem foldl_rxCallback_nextCommand (frames : List (List UInt8)) (d : Driver) :
    (frames.foldl Driver.rxCallback d).nextCommand = d.nextCommand := by
  induction frames generalizing d with
  | nil => rfl
  | cons frame frames ih =>
      rw [List.foldl_cons, ih]
      unfold Driver.rxCallback
      split <;> rfl

theorem poll_nextCommand (result : PollResult) (d : Driver) :
    (d.poll result).nextCommand = d.nextCommand := by
  cases result with
  | error => rfl
  | timeout => rfl
  | received frames => exact foldl_rxCallback_nextCommand frames d

/-! ### The frames under way -/

/-- The frame of a command that held what had been requested. -/
def FrameOf (memory : NextCommand) (frame : List UInt8) (r : Requested) : Prop :=
  ∃ c : NextCommand, frame = c.bytes ∧ Holds memory r c

/-- The invariant: the command of the driver and those under way hold what was requested. -/
structure CommandInv (memory : NextCommand) (p : Boards × Watch) : Prop where
  holds : Holds memory p.2.requested p.1.driver.nextCommand
  frames : List.Forall₂ (FrameOf memory) p.1.link p.2.sent

/-- **The step lemma**: a step keeps the invariant, and it obeys the law exactly when it is careful.
-/
theorem command_step {p q : Boards × Watch} {e : Boards.Event} (h : CommandInv memory p)
    (hstep : (watchedBoards memory).step p e q) :
    CommandInv memory q ∧ (Faithful p e q ↔ CommandCareful memory p e) := by
  obtain ⟨b, w⟩ := p
  obtain ⟨b', w'⟩ := q
  obtain ⟨hnext, hwatch⟩ := hstep
  obtain rfl : w' = w.next b e b' := hwatch
  have hnext : b.next e = some b' := hnext
  have hother (hne : e ≠ .handle) :
      Faithful (b, w) e (b', w.next b e b') ↔ CommandCareful memory (b, w) e :=
    ⟨fun _ he => absurd he hne, fun _ he => absurd he hne⟩
  cases e with
  | write buffer =>
      cases hnext
      exact ⟨⟨h.holds.write buffer, h.frames⟩, hother nofun⟩
  | ioctl command =>
      cases hnext
      exact ⟨⟨h.holds.ioctl command, h.frames⟩, hother nofun⟩
  | poll result =>
      simp only [Boards.next] at hnext
      split at hnext
      · cases hnext
      · cases hnext
        refine ⟨⟨?_, h.frames⟩, hother nofun⟩
        dsimp only
        rw [poll_nextCommand]
        exact h.holds
  | update =>
      simp only [Boards.next, Driver.update] at hnext
      split at hnext
      · cases hnext
        refine ⟨?_, hother nofun⟩
        simp only [Watch.next]
        by_cases hsend : b.driver.sendNeeded = true
        · simp only [if_pos hsend]
          refine ⟨h.holds, List.rel_append h.frames (.cons ?_ .nil)⟩
          exact ⟨b.driver.nextCommand, rfl, h.holds⟩
        · simp only [if_neg hsend]
          refine ⟨h.holds, ?_⟩
          simpa using h.frames
      · cases hnext
  | handle =>
      simp only [Boards.next] at hnext
      split at hnext
      · cases hnext
      · next frame link hlink =>
          cases hnext
          have hframes : List.Forall₂ (FrameOf memory) b.link w.sent := h.frames
          rw [hlink] at hframes
          cases hsent : w.sent with
          | nil =>
              rw [hsent] at hframes
              cases hframes
          | cons r sent =>
              rw [hsent] at hframes
              obtain ⟨⟨c, rfl, hc⟩, hrest⟩ := List.forall₂_cons.mp hframes
              refine ⟨⟨h.holds, ?_⟩, ?_⟩
              · simp only [Watch.next, hsent, List.tail_cons]
                exact hrest
              · simp only [Faithful, CommandCareful, hsent, List.head?_cons, Option.mem_some_iff,
                  forall_eq', true_implies]
                exact believes_iff hc b.io
  | button pressed =>
      cases hnext
      exact ⟨⟨h.holds, h.frames⟩, hother nofun⟩
  | rcInput message =>
      cases hnext
      exact ⟨⟨h.holds, h.frames⟩, hother nofun⟩
  | mixer =>
      cases hnext
      exact ⟨⟨h.holds, h.frames⟩, hother nofun⟩

theorem CommandInv.reachable {p : Boards × Watch} (h : (watchedBoards memory).Reachable p) :
    CommandInv memory p := by
  refine h.invariant ?_ ?_
  · rintro ⟨b, w⟩ ⟨rfl, rfl⟩
    exact ⟨Holds.start, .nil⟩
  · intro p e q hp hstep
    exact (command_step hp hstep).1

/-- **Command fidelity.** In every run of the two boards, with any contents of the memory of the
driver, the IO board believes what was requested whenever it has handled a frame, exactly when every
frame that it handles meets the condition. -/
theorem command_fidelity (memory : NextCommand) {es : List Boards.Event} {p : Boards × Watch} :
    ((watchedBoards memory).obeying Faithful).Run (startWatched memory) es p ↔
      ((watchedBoards memory).restrict (CommandCareful memory)).Run (startWatched memory) es p := by
  refine LTS.run_obeying_iff ?_ ⟨rfl, rfl⟩
  intro p e q hp hstep
  exact (command_step (CommandInv.reachable hp.of_restrict) hstep).2

/-- Memory that is not zero where the command says that the board may arm. -/
def usedMemory : NextCommand where
  f2iMagic := 0
  servoCommand := .replicate outputChannels 0
  relayState := .replicate relayChannels 0
  armOk := 1

/-- The next state, watched. -/
def nextWatched (p : Boards × Watch) (e : Boards.Event) : Option (Boards × Watch) :=
  (p.1.next e).map fun b => (b, p.2.next p.1 e b)

theorem step_of_nextWatched {p q : Boards × Watch} {e : Boards.Event}
    (h : nextWatched p e = some q) :
    (watchedBoards memory).step p e q := by
  obtain ⟨b, hb, rfl⟩ := Option.map_eq_some_iff.mp h
  exact ⟨hb, rfl⟩

/-- The driver sends its first command before any request, and the IO board may arm. -/
theorem arms_without_request :
    ¬ ∀ p e q, (watchedBoards usedMemory).Reachable p → (watchedBoards usedMemory).step p e q →
      Faithful p e q := by
  intro hlaw
  let start : Boards × Watch := startWatched usedMemory
  have hsome : ([.poll .timeout, .update].foldlM nextWatched start).isSome = true := by decide
  let p := ([.poll .timeout, .update].foldlM nextWatched start).get hsome
  have hreach : (watchedBoards usedMemory).Reachable p :=
    ⟨start, _, ⟨rfl, rfl⟩,
      LTS.Run.of_foldlM (fun _ _ _ => step_of_nextWatched) (Option.some_get hsome).symm⟩
  have hsome' : (nextWatched p .handle).isSome = true := rfl
  let q := (nextWatched p .handle).get hsome'
  have hstep : (watchedBoards usedMemory).step p .handle q :=
    step_of_nextWatched (Option.some_get hsome').symm
  -- Nothing had been requested when the frame was sent.
  have hsent : p.2.sent.head? = some Requested.nothing := rfl
  have harmed : q.1.io.armOk = true := rfl
  exact nomatch (hlaw p .handle q hreach hstep rfl _ hsent).1.mp harmed

end Px4Firmware.Px4io
