import Px4Firmware.Uploader.Truthful

/-!
# Px4Firmware.Uploader.Compare

`PX4IO_Uploader::compare`, which is to say whether the board has the firmware of the file already by
reading back its first vectors.

It does neither thing it is for (`compare_never`). `identical` is set when the vectors differ, since
`memcmp` is zero for equal memory, and the acknowledgement that the bootloader sends after the data
is not read. `verify`, which sends the same commands, does read it. The command after a comparison
takes it for its own: an erasure succeeds then before the board has answered it
(`erase_after_compare`).
-/

namespace Px4Firmware.Uploader

open Px4Firmware.Lib

/-! ### The function -/

/-- `sizeof(file_vectors)`, and `sizeof(fw_vectors)`. -/
def vectorsSize : Nat := 60

/-- The bytes of `file_vectors`. -/
abbrev Vectors := { bytes : List UInt8 // bytes.length = vectorsSize }

/-- `read(_fw_fd, &file_vectors[0], sizeof(file_vectors))`: what is read comes over what is there.
Whether there is enough, or anything at all, is not looked at. -/
def readVectors (env : Env) (fileVectors : Vectors) : Exec (List UInt8) :=
  tryCatch
    (do
      let fileBuf ← readFirmware env
      return fileBuf ++ fileVectors.val.drop fileBuf.length)
    fun
      | .failed _ => return fileVectors.val
      | stop => throw stop

/-- `recv`, for a buffer. -/
def recvBytes : Nat → Exec (List UInt8)
  | 0 => return []
  | count + 1 => do
      let c ← recv
      let p ← recvBytes count
      return c :: p

/-- `compare`: the value of `identical`. What `file_vectors` holds at first is not known. -/
def compare (env : Env) (fileVectors : Vectors) : Exec Bool := do
  rewind
  let fileVectors ← readVectors env fileVectors
  send protoChipVerify
  send protoEoc
  getSync
  send protoReadMulti
  send (UInt8.ofNat vectorsSize)
  send protoEoc
  let fwVectors ← recvBytes vectorsSize
  -- `memcmp(...) ? true : false`; no `get_sync` follows.
  return fileVectors ≠ fwVectors

/-! ### What it hears -/

section

variable {env : Env} {s t : Px4ioUploader}

/-- What can be heard next is heard. -/
theorem Heard.of_input {ios : List Io} {input : List (Option UInt8)}
    (h : s.input = received ios ++ input) :
    Heard s ios { s with input := input, log := s.log ++ ios } := ⟨h, rfl⟩

theorem recvBytes_eq_ok {count : Nat} {p : List UInt8} :
    recvBytes count s = .ok p t ↔ p.length = count ∧ Heard s (p.map .rx) t := by
  induction count generalizing s t p with
  | zero =>
      rw [List.length_eq_zero_iff]
      constructor
      · intro h
        obtain ⟨rfl, rfl⟩ := pure_eq_ok.mp h
        exact ⟨rfl, heard_nil.mpr rfl⟩
      · intro h
        obtain ⟨rfl, hheard⟩ := h
        exact pure_eq_ok.mpr ⟨rfl, (heard_nil.mp hheard).symm⟩
  | succ count ih =>
      rw [recvBytes]
      simp only [bind_eq_ok, recv_eq_ok, ih, pure_eq_ok]
      constructor
      · intro h
        obtain ⟨c, u, hc, q, v, ⟨rfl, hq⟩, rfl, rfl⟩ := h
        exact ⟨rfl, heard_cons.mpr ⟨u, hc, hq⟩⟩
      · intro h
        obtain ⟨hlength, hheard⟩ := h
        cases p with
        | nil => cases hlength
        | cons c q =>
            obtain ⟨u, hc, hq⟩ := heard_cons.mp hheard
            exact ⟨c, u, hc, q, t, ⟨Nat.succ.inj hlength, hq⟩, rfl, rfl⟩

/-- The read does not fail, whatever the file does, and leaves all but the position alone. What is
read comes first. -/
theorem readVectors_wp (env : Env) (s : Px4ioUploader) (fileVectors : Vectors) :
    wp (readVectors env fileVectors)
      (fun vectors t => t = { s with rest := t.rest, reads := s.reads + 1 } ∧
        ∀ more, env.read s.reads = .gives more → vectors = s.rest.take (readSize more)
          ++ fileVectors.val.drop (s.rest.take (readSize more)).length) s := by
  show outcome (readVectors env fileVectors) _ (fun _ _ => False) s
  unfold readVectors readFirmware
  rw [outcome_tryCatch, outcome_bind, outcome_bind, outcome_get]
  cases hread : env.read s.reads with
  | gives more =>
      refine ⟨rfl, fun more' hmore => ?_⟩
      obtain rfl : more = more' := Read.gives.inj hmore
      rfl
  | fails errno =>
      refine ⟨rfl, fun more hmore => ?_⟩
      cases hmore

/-- What is heard in a comparison. -/
def comparison (fwVectors : List UInt8) : List Io :=
  exchange [protoChipVerify, protoEoc] acknowledged ++
    exchange [protoReadMulti, UInt8.ofNat vectorsSize, protoEoc] fwVectors

/-- A comparison that hears the vectors of the board. -/
theorem compare_eq_ok {fileVectors : Vectors} {vectors fwVectors : List UInt8} {u : Px4ioUploader}
    (hread : readVectors env fileVectors { s with rest := s.firmware } = .ok vectors u)
    (hlength : fwVectors.length = vectorsSize) (hheard : Heard u (comparison fwVectors) t) :
    compare env fileVectors s = .ok (decide (vectors ≠ fwVectors)) t := by
  have hanswer : exchange [] fwVectors = fwVectors.map .rx := rfl
  simp only [comparison, exchange_cons, heard_append, heard_tx_cons, hanswer,
    ← getSync_eq_ok] at hheard
  obtain ⟨v, ⟨u₁, h₁, u₂, h₂, hsync⟩, v₁, h₃, v₂, h₄, v₃, h₅, hvectors⟩ := hheard
  have hrecv := recvBytes_eq_ok.mpr ⟨hlength, hvectors⟩
  refine seq_eq_ok.mpr ⟨_, rfl, bind_eq_ok.mpr ⟨_, _, hread, ?_⟩⟩
  simp only [seq_eq_ok]
  exact ⟨u₁, h₁, u₂, h₂, v, hsync, v₁, h₃, v₂, h₄, v₃, h₅, bind_eq_ok.mpr ⟨_, _, hrecv, rfl⟩⟩

end

/-! ### The law -/

section

variable (env : Env) (fileVectors : Vectors) (s : Px4ioUploader) (memory : Nat → UInt8)
  (next : List (Option UInt8))

/-- The first vectors of the firmware in the board. -/
def boardVectors : List UInt8 := (List.range vectorsSize).map memory

/-- What a bootloader answers to the commands of a comparison: the acknowledgement of the first, and
the data and the acknowledgement of the second. -/
def answers : List UInt8 := acknowledged ++ boardVectors memory ++ acknowledged

/-- A comparison: it says whether the first vectors are the same, and what can be heard then are the
answers to the next commands. -/
def Compares : Prop :=
  ∃ identical t, compare env fileVectors s = .ok identical t ∧
    (identical = true ↔ s.firmware.take vectorsSize = boardVectors memory) ∧ t.input = next

variable {s memory next}

/-- With a bootloader that answers, the comparison ends before the last acknowledgement. -/
theorem compare_run (hanswers : s.input = (answers memory).map some ++ next) :
    ∃ vectors t, compare env fileVectors s = .ok (decide (vectors ≠ boardVectors memory)) t ∧
      t.input = acknowledged.map some ++ next ∧
      ∀ more, env.read s.reads = .gives more → vectors = s.firmware.take (readSize more)
        ++ fileVectors.val.drop (s.firmware.take (readSize more)).length := by
  obtain ⟨vectors, u, hread, hu, hvectors⟩ :=
    wp_iff.mp (readVectors_wp env { s with rest := s.firmware } fileVectors)
  have hlength : (boardVectors memory).length = vectorsSize := by simp [boardVectors]
  have hinput : u.input = received (comparison (boardVectors memory))
      ++ (acknowledged.map some ++ next) := by
    rw [hu, comparison, received_append, received_exchange, received_exchange]
    simpa [answers] using hanswers
  exact ⟨vectors, _, compare_eq_ok hread hlength (.of_input hinput), rfl, hvectors⟩

/-- The last acknowledgement is too much. -/
theorem not_compares (hanswers : s.input = (answers memory).map some ++ next) :
    ¬ Compares env fileVectors s memory next := by
  obtain ⟨vectors, t, hrun, hleft, -⟩ := compare_run env fileVectors hanswers
  intro hcompares
  obtain ⟨identical, t', hrun', -, hnext⟩ := hcompares
  obtain ⟨rfl, rfl⟩ := EStateM.Result.ok.inj (hrun.symm.trans hrun')
  rw [hleft] at hnext
  have hlength := congrArg List.length hnext
  simp [acknowledged] at hlength
  omega

/-- **A comparison is never one.** Whatever the memory of the board and the file are, with a
bootloader that answers, the acknowledgement of the last command is left for the next one to hear;
and where the read gives the vectors of the file, `identical` says that they are different. -/
theorem compare_never (hfile : vectorsSize ≤ s.firmware.length)
    (hanswers : s.input = (answers memory).map some ++ next) :
    ¬ Compares env fileVectors s memory next ∧
      ∃ identical t, compare env fileVectors s = .ok identical t ∧
        t.input = acknowledged.map some ++ next ∧
        ∀ more, env.read s.reads = .gives more → vectorsSize ≤ more + 1 →
          (identical = true ↔ s.firmware.take vectorsSize ≠ boardVectors memory) := by
  obtain ⟨vectors, t, hrun, hleft, hvectors⟩ := compare_run env fileVectors hanswers
  refine ⟨not_compares env fileVectors hanswers, _, t, hrun, hleft, fun more hread hmore => ?_⟩
  have hsize : readSize more = vectorsSize := Nat.min_eq_right hmore
  have hlength : (s.firmware.take vectorsSize).length = vectorsSize :=
    List.length_take_of_le hfile
  have hall : vectors = s.firmware.take vectorsSize := by
    rw [hvectors more hread, hsize, hlength,
      List.drop_eq_nil_of_le (Nat.le_of_eq fileVectors.property), List.append_nil]
  rw [decide_eq_true_iff, hall]

/-- The command after a comparison: an erasure succeeds, and what the board answers to it has not
been heard. -/
theorem erase_after_compare (hanswers : s.input = (answers memory).map some ++ next) :
    wp (compare env fileVectors) (fun _ t => wp erase (fun _ u => u.input = next) t) s := by
  obtain ⟨vectors, t, hrun, hleft, -⟩ := compare_run env fileVectors hanswers
  have hinput : t.input
      = received (exchange [protoChipErase, protoEoc] acknowledged) ++ next := by
    rw [received_exchange, hleft]
  exact (wp_of_ok hrun).mpr ((wp_of_ok (erase_eq_ok.mpr (.of_input hinput))).mpr rfl)

end

/-! ### Erased flash -/

/-- A file of erased flash, and a board that has nothing else, which answers the next command. -/
def erasedUploader : Px4ioUploader where
  input := (answers fun _ => 0xff).map some ++ acknowledged.map some
  log := []
  firmware := List.replicate vectorsSize 0xff
  rest := []
  reads := 0

/-- The files can be read. -/
def readingEnv : Env where
  openPort := none
  file := fun _ => none
  read := fun _ => .gives 100

/-- The memory of `file_vectors` at first. -/
def zeroVectors : Vectors := ⟨List.replicate vectorsSize 0, List.length_replicate⟩

theorem compare_never_erased :
    ¬ Compares readingEnv zeroVectors erasedUploader (fun _ => 0xff) (acknowledged.map some) ∧
      ∃ identical t, compare readingEnv zeroVectors erasedUploader = .ok identical t ∧
        t.input = acknowledged.map some ++ acknowledged.map some ∧
        ∀ more, readingEnv.read erasedUploader.reads = .gives more → vectorsSize ≤ more + 1 →
          (identical = true ↔
            erasedUploader.firmware.take vectorsSize ≠ boardVectors fun _ => 0xff) :=
  compare_never readingEnv zeroVectors (Nat.le_of_eq List.length_replicate.symm) rfl

/-- Vectors that are the same are reported to be different, and the answer to the next command is
not what can be heard next. -/
theorem erased_differs :
    (∃ t, compare readingEnv zeroVectors erasedUploader = .ok false t) ∧
      erasedUploader.firmware.take vectorsSize = (boardVectors fun _ => 0xff) ∧
      ¬ Compares readingEnv zeroVectors erasedUploader (fun _ => 0xff) (acknowledged.map some) :=
  ⟨⟨_, rfl⟩, rfl, not_compares readingEnv zeroVectors rfl⟩

end Px4Firmware.Uploader
