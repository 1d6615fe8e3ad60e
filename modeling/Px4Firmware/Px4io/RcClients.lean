import Px4Firmware.Px4io.Validation

/-!
# Px4Firmware.Px4io.RcClients

**The RC data of the IO board on the FMU** (`px4io/driver/px4io.cpp`). A report is for two kinds of
clients: those that get the channels one by one from the driver, and those that read the device for
RC inputs, where they are percentages.

The driver never fills the array that the first kind gets the channels from; and the device returns
twice the size, and keeps the channels that a later report does not have. `rc_data_arrives_iff` says
when the clients still get what they should, and `Forwarded.percent_iff` when the values are right.
-/

namespace Px4Firmware.Px4io

open Px4Firmware.Lib

/-! ### The code -/

/-- `sizeof(rc_input_t)`. -/
def sizeofRcInput : Nat := 1

/-- `sizeof(servo_position_t)`. -/
def sizeofServoPosition : Nat := 2

/-- `PX4IO_RC::read`: the size it returns, and what it has put into the buffer. -/
def Px4ioRc.read (buflen : Nat) (rc : Px4ioRc) : Except Px4ioError (Nat × List UInt8) :=
  let channels := buflen / sizeofRcInput
  if inputChannels < channels then .error .eio
  -- The size is that of another type.
  else .ok (channels * sizeofServoPosition, rc.input.values.toList.take channels)

/-- `class PX4IO` with its `_rc` and its own array of channels. -/
structure ClientDriver where
  driver : Driver
  rc : Px4ioRc
  rcChannel : Vector UInt16 inputChannels

namespace ClientDriver

/-- The driver in memory with these contents. The constructor does not touch the array. -/
def new (memory : NextCommand) (rcChannel : Vector UInt16 inputChannels) : ClientDriver where
  driver := .new memory
  rc := .new
  rcChannel := rcChannel

/-- `PX4IO::ioctl`, with the value that a get has stored. -/
def ioctl (command : Ioctl) (d : ClientDriver) :
    Except Px4ioError (Option UInt16) × ClientDriver :=
  let (status, driver) := d.driver.ioctl command
  let value := match command with
    -- Nothing ever fills the array.
    | .get channel => d.rcChannel[channel]?
    | _ => none
  (status.map fun _ => value, { d with driver := driver })

/-- `PX4IO::rx_callback`, unless the assertion fails. -/
def receive (buffer : List UInt8) (d : ClientDriver) : Option ClientDriver :=
  match rxCallback buffer { driver := d.driver, rc := some d.rc } with
  | .ok { driver, rc := some rc } => some { d with driver := driver, rc := rc }
  | _ => none

/-- A frame from the IO board, or a request of a client. -/
inductive Event
  | receive (buffer : List UInt8)
  | ioctl (command : Ioctl)
  | write (buffer : List UInt8)
  | read (buflen : Nat)

/-- The next state. -/
def next (d : ClientDriver) : Event → Option ClientDriver
  | .receive buffer => d.receive buffer
  | .ioctl command => some (d.ioctl command).2
  | .write buffer => some { d with driver := (d.driver.write buffer).2 }
  | .read _ => some d

end ClientDriver

/-- The report of a frame, if it has the length of one. -/
def received (buffer : List UInt8) : Option Report :=
  if buffer.length ≠ sizeofReport then none else some (toReport buffer)

/-- The channels of a report. -/
def Report.channels (rep : Report) : List UInt16 := rep.rcChannel.toList.take rep.channelCount.toNat

/-- The driver as a transition system, with the reports that it has received. -/
def clientDriver (memory : NextCommand) (rcChannel : Vector UInt16 inputChannels) :
    LTS (ClientDriver × List Report) ClientDriver.Event :=
  LTS.observe
    { init := fun d => d = .new memory rcChannel
      step := fun d e d' => d.next e = some d' }
    [] fun reports _ e _ =>
      match e with
      | .receive buffer => reports ++ (received buffer).toList
      | _ => reports

/-! ### The law -/

/-- The channels of the latest report. -/
def latestChannels (reports : List Report) : List UInt16 :=
  (reports.getLast?.map Report.channels).getD []

/-- A channel in the latest report that has it. -/
def lastSeen (reports : List Report) (i : Nat) : Option UInt16 :=
  reports.reverse.findSome? fun rep => rep.channels[i]?

/-- The law: a get returns the channel of the latest report, if it has it; a read returns the size
of what was asked for, and stores the percentages of the latest report, and zeros behind. -/
structure Arrives (p : ClientDriver × List Report) (e : ClientDriver.Event)
    (_ : ClientDriver × List Report) : Prop where
  get : ∀ i < inputChannels, e = .ioctl (.get i) →
    (p.1.ioctl (.get i)).1 = (latestChannels p.2)[i]?.elim (.error .erange) (.ok ∘ some)
  size : ∀ k ≤ inputChannels, e = .read (k * sizeofRcInput) →
    ∃ values, p.1.rc.read (k * sizeofRcInput) = .ok (k * sizeofRcInput, values)
  values : ∀ k ≤ inputChannels, e = .read (k * sizeofRcInput) →
    ∀ size values, p.1.rc.read (k * sizeofRcInput) = .ok (size, values) →
      values = (List.range k).map fun i => ((latestChannels p.2)[i]?.map toPercent).getD 0

/-- The condition: only channels are got that the latest report does not have, and no channels are
read, or too many. -/
def Missed (p : ClientDriver × List Report) : ClientDriver.Event → Prop
  | .ioctl (.get i) => i < inputChannels → (latestChannels p.2).length ≤ i
  | .read buflen => buflen = 0 ∨ inputChannels < buflen
  | _ => True

/-! ### The invariant -/

theorem lastSeen_snoc (reports : List Report) (rep : Report) (i : Nat) :
    lastSeen (reports ++ [rep]) i = rep.channels[i]?.or (lastSeen reports i) := by
  simp only [lastSeen, List.reverse_append, List.reverse_singleton, List.singleton_append,
    List.findSome?_cons]
  cases rep.channels[i]? <;> rfl

theorem latestChannels_snoc (reports : List Report) (rep : Report) :
    latestChannels (reports ++ [rep]) = rep.channels := by
  simp [latestChannels]

/-- What the latest report has is seen last. -/
theorem lastSeen_of_latest {reports : List Report} {i : Nat} {value : UInt16}
    (h : (latestChannels reports)[i]? = some value) : lastSeen reports i = some value := by
  rcases List.eq_nil_or_concat reports with rfl | ⟨before, rep, rfl⟩
  · cases h
  · rw [List.concat_eq_append] at h ⊢
    rw [latestChannels_snoc] at h
    rw [lastSeen_snoc, h, Option.some_or]

theorem toPercent_eq_zero_iff {position : UInt16} : toPercent position = 0 ↔ position < 1010 := by
  have hlimit : position < 1010 ↔ position.toNat < 1010 := UInt16.lt_iff_toNat_lt
  rw [toPercent, hlimit]
  split
  next hlow =>
    have hlow : position.toNat < 1000 := hlow
    simp only [true_iff]
    omega
  next hlow =>
    have hlow : ¬position.toNat < 1000 := hlow
    split
    next hhigh =>
      have hhigh : 2000 < position.toNat := hhigh
      simp only [show (100 : UInt8) ≠ 0 from by decide, false_iff]
      omega
    next hhigh =>
      have hhigh : ¬2000 < position.toNat := hhigh
      have hle : (1000 : UInt16) ≤ position := by
        rw [UInt16.le_iff_toNat_le]
        exact Nat.le_of_not_lt hlow
      have hvalue : ((position - 1000) / 10).toUInt8.toNat = (position.toNat - 1000) / 10 := by
        rw [UInt16.toNat_toUInt8, UInt16.toNat_div, UInt16.toNat_sub_of_le _ _ hle,
          show (1000 : UInt16).toNat = 1000 from rfl, show (10 : UInt16).toNat = 10 from rfl]
        omega
      rw [← UInt8.toNat_inj, hvalue, show (0 : UInt8).toNat = 0 from rfl]
      omega

/-- The invariant: the device has every channel as it was seen last, and the driver has none. -/
structure Forwarded (p : ClientDriver × List Report) : Prop where
  counted : p.1.driver.rcChannelCount = 0
  values : ∀ i (h : i < rcInputMaxChannels),
    p.1.rc.input.values[i] = ((lastSeen p.2 i).map toPercent).getD 0
  lengths : ∀ rep ∈ p.2, rep.channelCount.toNat ≤ inputChannels

/-- A channel of a report that has it. -/
theorem Report.getElem?_channels {rep : Report} (h : rep.channelCount.toNat ≤ inputChannels)
    (i : Nat) : rep.channels[i]? =
      if i < rep.channelCount.toNat then some (rep.rcChannel.toList.getD i 0) else none := by
  rw [Report.channels, List.getElem?_take]
  split
  next hi =>
    have hlt : i < rep.rcChannel.toList.length := by
      rw [Vector.length_toList]
      exact Nat.lt_of_lt_of_le hi h
    rw [List.getElem?_eq_getElem hlt, List.getD_eq_getElem _ _ hlt]
  next => rfl

theorem ioctl_rcChannelCount (d : Driver) (command : Ioctl) :
    (d.ioctl command).2.rcChannelCount = d.rcChannelCount := by
  cases command with
  | set channel arg =>
      simp only [Driver.ioctl]
      split <;> rfl
  | get channel =>
      simp only [Driver.ioctl]
      split
      · split <;> rfl
      · rfl
  | _ => rfl

theorem write_rcChannelCount (d : Driver) (buffer : List UInt8) :
    (d.write buffer).2.rcChannelCount = d.rcChannelCount := by
  unfold Driver.write
  dsimp only
  split <;> rfl

/-- What `set_channels` does to the values. -/
theorem setChannels_values {count : Nat} {data : Vector UInt16 inputChannels} {rc rc' : Px4ioRc}
    (h : setChannels count data rc = .ok rc') :
    count ≤ inputChannels ∧ ∀ i (hi : i < rcInputMaxChannels), rc'.input.values[i] =
      if i < count then toPercent (data.toList.getD i 0) else rc.input.values[i] := by
  unfold setChannels at h
  split at h
  next => cases h
  next hcount =>
    have hcount : count ≤ inputChannels := Decidable.not_not.1 hcount
    rw [copyElements_eq toPercent data rc.input.values hcount
      (Nat.le_trans hcount (by decide))] at h
    cases h
    refine ⟨hcount, fun i hi => ?_⟩
    dsimp only
    rw [Vector.getElem_ofFn]
    by_cases hlt : i < count
    · have hdata : i < data.toList.length := by
        rw [Vector.length_toList]
        exact Nat.lt_of_lt_of_le hlt hcount
      rw [dif_pos hlt, if_pos hlt, List.getD_eq_getElem _ _ hdata]
      rfl
    · rw [dif_neg hlt, if_neg hlt]
      rfl

/-- **A report.** -/
theorem Forwarded.receive {d d' : ClientDriver} {reports : List Report} {buffer : List UInt8}
    (h : Forwarded (d, reports)) (hnext : d.receive buffer = some d') :
    Forwarded (d', reports ++ (received buffer).toList) := by
  unfold ClientDriver.receive rxCallback at hnext
  by_cases hlength : buffer.length ≠ sizeofReport
  · have hnone : received buffer = none := if_pos hlength
    rw [if_pos hlength] at hnext
    cases hnext
    rw [hnone, Option.toList_none, List.append_nil]
    exact h
  · have hsome : received buffer = some (toReport buffer) := if_neg hlength
    rw [if_neg hlength] at hnext
    dsimp only at hnext
    generalize toReport buffer = rep at hsome hnext
    cases hset : setChannels rep.channelCount.toNat rep.rcChannel d.rc with
    | error fault =>
        rw [hset] at hnext
        cases hnext
    | ok rc =>
        rw [hset] at hnext
        cases hnext
        obtain ⟨hcount, hvalues⟩ := setChannels_values hset
        rw [hsome, Option.toList_some]
        refine ⟨h.counted, fun i hi => ?_, fun rep' hrep' => ?_⟩
        · dsimp only
          rw [hvalues i hi, lastSeen_snoc, Report.getElem?_channels hcount, h.values i hi]
          split <;> rfl
        · rcases List.mem_append.1 hrep' with hmem | hmem
          · exact h.lengths rep' hmem
          · rw [List.mem_singleton.1 hmem]
            exact hcount

/-- **A step** keeps the invariant. -/
theorem Forwarded.step {memory : NextCommand} {rcChannel : Vector UInt16 inputChannels}
    {p q : ClientDriver × List Report} {e : ClientDriver.Event} (h : Forwarded p)
    (hstep : (clientDriver memory rcChannel).step p e q) : Forwarded q := by
  obtain ⟨d, reports⟩ := p
  obtain ⟨d', reports'⟩ := q
  obtain ⟨hnext, hreports⟩ := hstep
  dsimp only at hnext hreports
  subst hreports
  cases e with
  | receive buffer => exact h.receive hnext
  | ioctl command =>
      cases hnext
      exact ⟨(ioctl_rcChannelCount d.driver command).trans h.counted, h.values, h.lengths⟩
  | write buffer =>
      cases hnext
      exact ⟨(write_rcChannelCount d.driver buffer).trans h.counted, h.values, h.lengths⟩
  | read buflen =>
      cases hnext
      exact h

theorem forwarded_of_reachable {memory : NextCommand} {rcChannel : Vector UInt16 inputChannels}
    {p : ClientDriver × List Report} (h : (clientDriver memory rcChannel).Reachable p) :
    Forwarded p := by
  refine h.invariant ?_ fun p e q hp hstep => hp.step hstep
  rintro ⟨d, reports⟩ ⟨rfl, rfl⟩
  refine ⟨rfl, fun i hi => ?_, fun rep hrep => by cases hrep⟩
  exact Vector.getElem_replicate hi

/-! ### The clients -/

/-- **A get** returns no channel, so it is right for those that the latest report does not have. -/
theorem Forwarded.get_iff {p : ClientDriver × List Report} (h : Forwarded p) {i : Nat}
    (hi : i < inputChannels) :
    (p.1.ioctl (.get i)).1 = (latestChannels p.2)[i]?.elim (.error .erange) (.ok ∘ some) ↔
      (latestChannels p.2).length ≤ i := by
  have herror : (p.1.ioctl (.get i)).1 = .error .erange := by
    simp only [ClientDriver.ioctl, Driver.ioctl, if_pos hi, h.counted, if_pos (Nat.zero_le i)]
    rfl
  rw [herror, ← List.getElem?_eq_none_iff]
  cases (latestChannels p.2)[i]? with
  | none => simp
  | some value => simp

/-- What a read returns. -/
theorem read_eq {rc : Px4ioRc} {k : Nat} (hk : k ≤ inputChannels) :
    rc.read (k * sizeofRcInput) = .ok (k * sizeofServoPosition, rc.input.values.toList.take k) := by
  have hchannels : k * sizeofRcInput / sizeofRcInput = k := Nat.mul_div_cancel k (by decide)
  simp only [Px4ioRc.read, hchannels, if_neg (Nat.not_lt.2 hk)]

/-- **The values of a read** are right exactly when each channel that the latest report does not
have was at zero in the last one that had it. -/
theorem Forwarded.percent_iff {p : ClientDriver × List Report} (h : Forwarded p) {k : Nat}
    (hk : k ≤ inputChannels) :
    (p.1.rc.input.values.toList.take k =
        (List.range k).map fun i => ((latestChannels p.2)[i]?.map toPercent).getD 0) ↔
      ∀ i < k, (latestChannels p.2).length ≤ i →
        ∀ value, lastSeen p.2 i = some value → value < 1010 := by
  have hmany : ∀ i < k, i < rcInputMaxChannels := fun i hi =>
    Nat.lt_of_lt_of_le (Nat.lt_of_lt_of_le hi hk) (by decide)
  -- The device has all channels as they were seen last.
  have hvalues : p.1.rc.input.values.toList.take k =
      (List.range k).map fun i => ((lastSeen p.2 i).map toPercent).getD 0 := by
    refine List.ext_getElem ?_ fun i hi hi' => ?_
    · simp only [List.length_take, Vector.length_toList, List.length_map, List.length_range]
      exact Nat.min_eq_left (Nat.le_trans hk (by decide))
    · have hlt : i < k := by simpa using hi'
      rw [List.getElem_take, Vector.getElem_toList, List.getElem_map, List.getElem_range]
      exact h.values i (hmany i hlt)
  rw [hvalues, List.map_inj_left]
  simp only [List.mem_range]
  refine forall₂_congr fun i hi => ?_
  cases hlatest : (latestChannels p.2)[i]? with
  | some value =>
      have hlt := (List.getElem?_eq_some_iff.1 hlatest).1
      rw [lastSeen_of_latest hlatest, eq_self, true_iff]
      intro hle
      omega
  | none =>
      rw [forall_prop_of_true (List.getElem?_eq_none_iff.1 hlatest)]
      cases hseen : lastSeen p.2 i with
      | none => simp
      | some value =>
          simp only [Option.map_some, Option.getD_some, Option.map_none, Option.getD_none,
            toPercent_eq_zero_iff, Option.some.injEq, forall_eq']

/-- **A read** returns the size of twice as many channels. -/
theorem size_iff {rc : Px4ioRc} {k : Nat} (hk : k ≤ inputChannels) :
    (∃ values, rc.read (k * sizeofRcInput) = .ok (k * sizeofRcInput, values)) ↔ k = 0 := by
  rw [read_eq hk]
  constructor
  · intro hsize
    obtain ⟨values, hsize⟩ := hsize
    have hequal : k * 2 = k * 1 := congrArg Prod.fst (Except.ok.inj hsize)
    omega
  · intro hzero
    subst hzero
    exact ⟨_, rfl⟩

theorem eq_zero_of_missed {p : ClientDriver × List Report} {k : Nat} (hk : k ≤ inputChannels)
    (h : Missed p (.read (k * sizeofRcInput))) : k = 0 := by
  have hzero : k * 1 = 0 ∨ 12 < k * 1 := h
  have hle : k ≤ 12 := hk
  omega

/-- **A step** obeys the law exactly when it asks for nothing that the code gets wrong. -/
theorem Forwarded.arrives_iff {p q : ClientDriver × List Report} {e : ClientDriver.Event}
    (h : Forwarded p) : Arrives p e q ↔ Missed p e := by
  constructor
  · intro harrives
    cases e with
    | receive buffer => exact trivial
    | ioctl command =>
        cases command with
        | get i => exact fun hi => (h.get_iff hi).1 (harrives.get i hi rfl)
        | _ => exact trivial
    | write buffer => exact trivial
    | read buflen =>
        rcases Nat.lt_or_ge inputChannels buflen with hmany | hk
        · exact .inr hmany
        · left
          have hread : ClientDriver.Event.read buflen = .read (buflen * sizeofRcInput) := by
            rw [sizeofRcInput, Nat.mul_one]
          exact (size_iff hk).1 (harrives.size buflen hk hread)
  · intro hmissed
    refine ⟨fun i hi he => ?_, fun k hk he => ?_, fun k hk he size values hread => ?_⟩
    · subst he
      exact (h.get_iff hi).2 (hmissed hi)
    · subst he
      exact (size_iff hk).2 (eq_zero_of_missed hk hmissed)
    · subst he
      obtain rfl := eq_zero_of_missed hk hmissed
      rw [read_eq hk] at hread
      have hvalues : _ = values := congrArg Prod.snd (Except.ok.inj hread)
      rw [← hvalues]
      exact (h.percent_iff hk).2 fun i hi => absurd hi (Nat.not_lt_zero i)

theorem run_arrives_iff {memory : NextCommand} {rcChannel : Vector UInt16 inputChannels}
    {events : List ClientDriver.Event} {q : ClientDriver × List Report} :
    ((clientDriver memory rcChannel).obeying Arrives).Run (.new memory rcChannel, []) events q ↔
      ((clientDriver memory rcChannel).restrict Missed).Run (.new memory rcChannel, []) events q :=
  LTS.run_obeying_iff (P := Arrives) (C := Missed)
    (fun _ _ _ hreach _ => (forwarded_of_reachable hreach.of_restrict).arrives_iff)
    ⟨rfl, rfl⟩

/-- **The RC data of the IO board** arrives in the runs of reports and requests in which no client
gets a channel that the latest report has, and none reads any channels. -/
theorem rc_data_arrives_iff (memory : NextCommand) (rcChannel : Vector UInt16 inputChannels)
    (events : List ClientDriver.Event) (q : ClientDriver × List Report) :
    ((clientDriver memory rcChannel).obeying Arrives).Run (.new memory rcChannel, []) events q ↔
      ((clientDriver memory rcChannel).restrict Missed).Run (.new memory rcChannel, []) events q :=
  run_arrives_iff

/-! ### A run -/

/-- The bytes of a report with these channels. -/
def reportBytes (channels : List UInt16) : List UInt8 :=
  [0x70, 0x75] ++ channels.flatMap wordBytes ++
    List.replicate (2 * inputChannels - 2 * channels.length) 0 ++ [0, UInt8.ofNat channels.length]

/-- Memory that is zero. -/
def zeroMemory : NextCommand := ⟨0, .replicate outputChannels 0, .replicate relayChannels 0, 0⟩

def zeroChannels : Vector UInt16 inputChannels := .replicate inputChannels 0

/-- A driver in it. -/
def start₀ : ClientDriver × List Report := (.new zeroMemory zeroChannels, [])

/-- A report with two channels, one with one, a read of two channels and a get of the first. -/
def lostEvents : List ClientDriver.Event :=
  [.receive (reportBytes [1500, 1600]), .receive (reportBytes [1300]), .read 2] ++
    [.ioctl (.get 0)]

/-- The get is out of range; and the read returns a size of four, and the second channel of the
older report. -/
theorem rc_data_lost :
    ∃ q, (clientDriver zeroMemory zeroChannels).Run start₀ lostEvents q ∧
      (q.1.ioctl (.get 0)).1 = .error .erange ∧ q.1.rc.read 2 = .ok (4, [30, 60]) ∧
      ¬((clientDriver zeroMemory zeroChannels).obeying Arrives).Run start₀ lostEvents q := by
  have hrun : (clientDriver zeroMemory zeroChannels).Run start₀ lostEvents _ :=
    .cons (t := (_, _)) ⟨rfl, rfl⟩ (.cons (t := (_, _)) ⟨rfl, rfl⟩
      (.cons (t := (_, _)) ⟨rfl, rfl⟩ (.cons (t := (_, _)) ⟨rfl, rfl⟩ (.nil _))))
  refine ⟨_, hrun, rfl, rfl, fun hlaw => ?_⟩
  obtain ⟨p, -, hmissed, -, hreports⟩ := LTS.Run.exists_of_snoc (run_arrives_iff.1 hlaw)
  have hlength : (latestChannels p.2).length ≤ 0 := hmissed (by decide)
  have hlatest : (latestChannels p.2).length = 1 := by
    have hsame : p.2 = _ := hreports.symm
    rw [hsame]
    rfl
  omega

end Px4Firmware.Px4io
