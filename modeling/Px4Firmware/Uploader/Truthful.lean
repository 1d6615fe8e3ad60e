import Px4Firmware.Uploader.Protocol

/-!
# Px4Firmware.Uploader.Truthful

**The firmware upload is truthful.** `upload` returns `OK` exactly when the conversation with the
bootloader is a complete one (`conversation`): it acknowledges the synchronisation, the erasure,
every chunk of the firmware that is programmed, the start of the verification and every chunk that
is read back, in this order, and what is read back is the firmware (`upload_truthful`). Otherwise it
returns an error code, or it stops at the assertion about the length of a chunk, so a file whose
length is not a multiple of four is not uploaded and no error is returned (`upload_one_byte`).

A function that ends normally has heard exactly one thing from the board, apart from what `drain`
discards. `Heard` says what has passed over the port between two states; every function has one
lemma that says when it ends normally in these terms, and the loops follow by induction on their
fuel.
-/

namespace Px4Firmware.Uploader

open Px4Firmware.Lib

/-! ### Conversations -/

/-- What the polls of the port have given. -/
def received (ios : List Io) : List (Option UInt8) :=
  ios.filterMap fun
    | .tx _ => none
    | .rx c => some (some c)
    | .timeout => some none

/-- A command and the answer to it. -/
def exchange (command answer : List UInt8) : List Io := command.map .tx ++ answer.map .rx

/-- The acknowledgement. -/
def acknowledged : List UInt8 := [protoInsync, protoOk]

/-- A synchronisation, after what is discarded. -/
def synchronised (discarded : List UInt8) : List Io :=
  discarded.map .rx ++ .timeout ::
    exchange (List.replicate (progMultiMax + 6) 0 ++ [protoGetSync, protoEoc]) acknowledged

/-- A chunk is programmed. -/
def programmedChunk (chunk : List UInt8) : List Io :=
  exchange ([protoProgMulti, UInt8.ofNat chunk.length] ++ chunk ++ [protoEoc]) acknowledged

/-- A chunk is read back. -/
def verifiedChunk (chunk : List UInt8) : List Io :=
  exchange [protoReadMulti, UInt8.ofNat chunk.length, protoEoc] (chunk ++ acknowledged)

/-- A complete upload. -/
def conversation (discarded : List UInt8) (programmed verified : List (List UInt8)) : List Io :=
  synchronised discarded ++ exchange [protoChipErase, protoEoc] acknowledged ++
    programmed.flatMap programmedChunk ++ exchange [protoChipVerify, protoEoc] acknowledged ++
    verified.flatMap verifiedChunk ++ exchange [protoReboot, protoEoc] []

/-! ### What has passed over the port -/

/-- Between `s` and `t` exactly this has passed over the port, and nothing else has happened. -/
def Heard (s : Px4ioUploader) (ios : List Io) (t : Px4ioUploader) : Prop :=
  s.input = received ios ++ t.input ∧ t = { s with input := t.input, log := s.log ++ ios }

section

variable {s t u : Px4ioUploader} {ios ios' : List Io}

theorem received_append : received (ios ++ ios') = received ios ++ received ios' :=
  List.filterMap_append ..

theorem heard_nil : Heard s [] t ↔ t = s := by
  constructor
  · rintro ⟨hinput, ht⟩
    rw [ht, ← show s.input = t.input from hinput, List.append_nil]
  · rintro rfl
    refine ⟨rfl, ?_⟩
    rw [List.append_nil]

/-- The order of what is heard. -/
theorem heard_append : Heard s (ios ++ ios') u ↔ ∃ t, Heard s ios t ∧ Heard t ios' u := by
  constructor
  · rintro ⟨hinput, hu⟩
    refine ⟨{ s with input := received ios' ++ u.input, log := s.log ++ ios }, ⟨?_, rfl⟩, rfl, ?_⟩
    · rw [hinput, received_append, List.append_assoc]
    · rw [hu, List.append_assoc]
  · rintro ⟨t, ⟨hs, ht⟩, ht', hu⟩
    refine ⟨?_, ?_⟩
    · rw [hs, ht', received_append, List.append_assoc]
    · rw [hu, ht, List.append_assoc]

theorem heard_cons {io : Io} : Heard s (io :: ios) u ↔ ∃ t, Heard s [io] t ∧ Heard t ios u :=
  show Heard s ([io] ++ ios) u ↔ _ from heard_append

theorem Heard.firmware (h : Heard s ios t) : t.firmware = s.firmware := by rw [h.2]

theorem Heard.rest (h : Heard s ios t) : t.rest = s.rest := by rw [h.2]

theorem Heard.reads (h : Heard s ios t) : t.reads = s.reads := by rw [h.2]

/-- The position in the file and the port have nothing to do with each other. -/
theorem Heard.seek (h : Heard s ios t) (rest : List UInt8) (reads : Nat) :
    Heard { s with rest := rest, reads := reads } ios { t with rest := rest, reads := reads } := by
  refine ⟨h.1, ?_⟩
  rw [h.2]

/-- The firmware file and the port have nothing to do with each other. -/
theorem Heard.load (h : Heard s ios t) (firmware : List UInt8) :
    Heard { s with firmware := firmware } ios { t with firmware := firmware } := by
  refine ⟨h.1, ?_⟩
  rw [h.2]

/-! ### The functions on the port -/

theorem recv_eq_ok {c : UInt8} : recv s = .ok c t ↔ Heard s [.rx c] t := by
  unfold recv Heard
  rw [bind_eq_ok]
  constructor
  · rintro ⟨_, _, ⟨⟩, h⟩
    cases hinput : s.input with
    | nil =>
        rw [hinput] at h
        cases h
    | cons next input =>
        rw [hinput] at h
        cases next with
        | none => cases h
        | some c' =>
            cases h
            exact ⟨rfl, rfl⟩
  · rintro ⟨hinput, ht⟩
    refine ⟨s, s, rfl, ?_⟩
    rw [hinput, ht]
    rfl

theorem send_eq_ok {c : UInt8} : send c s = .ok () t ↔ Heard s [.tx c] t := by
  constructor
  · rintro ⟨⟩
    exact ⟨rfl, rfl⟩
  · rintro ⟨hinput, ht⟩
    have hsame : s.input = t.input := hinput
    rw [ht, ← hsame]
    rfl

theorem pure_eq_ok_iff_heard : (pure () : Exec Unit) s = .ok () t ↔ Heard s [] t := by
  rw [pure_eq_ok, heard_nil]
  exact ⟨fun h => h.2.symm, fun h => ⟨rfl, h.symm⟩⟩

theorem sendBytes_eq_ok {p : List UInt8} : sendBytes p s = .ok () t ↔ Heard s (p.map .tx) t := by
  induction p generalizing s with
  | nil =>
      exact pure_eq_ok_iff_heard
  | cons c p ih =>
      show (send c >>= fun _ => sendBytes p) s = .ok () t ↔ _
      rw [seq_eq_ok, List.map_cons, heard_cons]
      simp only [send_eq_ok, ih]

theorem getSync_eq_ok : getSync s = .ok () t ↔ Heard s (exchange [] acknowledged) t := by
  unfold getSync exchange acknowledged
  simp only [bind_eq_ok, recv_eq_ok, List.map_nil, List.nil_append, List.map_cons]
  constructor
  · rintro ⟨c₀, u, h₀, c₁, v, h₁, h⟩
    split at h
    · cases h
    · next hsync =>
        cases h
        rw [not_or, Decidable.not_not, Decidable.not_not] at hsync
        obtain ⟨rfl, rfl⟩ := hsync
        exact heard_cons.mpr ⟨u, h₀, h₁⟩
  · intro h
    obtain ⟨u, h₀, h₁⟩ := heard_cons.mp h
    exact ⟨_, u, h₀, _, t, h₁, rfl⟩

/-- A byte that is sent comes before all the rest. -/
theorem heard_tx_cons {c : UInt8} :
    Heard s (.tx c :: ios) u ↔ ∃ t, send c s = .ok () t ∧ Heard t ios u := by
  simp only [send_eq_ok]
  exact heard_cons

theorem heard_exchange_append {p command answer : List UInt8} :
    Heard s (exchange (p ++ command) answer) u ↔
      ∃ t, sendBytes p s = .ok () t ∧ Heard t (exchange command answer) u := by
  simp only [sendBytes_eq_ok]
  unfold exchange
  rw [List.map_append, List.append_assoc]
  exact heard_append

theorem exchange_cons {c : UInt8} {command answer : List UInt8} :
    exchange (c :: command) answer = .tx c :: exchange command answer := rfl

theorem received_map_tx (p : List UInt8) : received (p.map .tx) = [] := by
  induction p with
  | nil => rfl
  | cons c p ih => exact ih

theorem received_map_rx (p : List UInt8) : received (p.map .rx) = p.map some := by
  induction p with
  | nil => rfl
  | cons c p ih => exact congrArg (some c :: ·) ih

theorem received_exchange (command answer : List UInt8) :
    received (exchange command answer) = answer.map some := by
  unfold exchange
  rw [received_append, received_map_tx, received_map_rx, List.nil_append]

/-! ### The phases without a file -/

theorem drainLoop_append (discarded : List UInt8) (input : List (Option UInt8)) :
    drainLoop (discarded.map some ++ none :: input) = (discarded, input) := by
  induction discarded with
  | nil => rfl
  | cons c discarded ih =>
      rw [List.map_cons, List.cons_append]
      unfold drainLoop
      rw [ih]

/-- If there is anything left, draining has stopped at a timeout. -/
theorem drainLoop_eq {input : List (Option UInt8)} (h : (drainLoop input).2 ≠ []) :
    input = (drainLoop input).1.map some ++ none :: (drainLoop input).2 := by
  induction input with
  | nil => exact absurd rfl h
  | cons next input ih =>
      cases next with
      | none => rfl
      | some c => exact congrArg (some c :: ·) (ih h)

theorem drain_eq_ok (h : t.input ≠ []) :
    drain s = .ok () t ↔ ∃ discarded : List UInt8, Heard s (discarded.map .rx ++ [.timeout]) t := by
  constructor
  · rintro ⟨⟩
    refine ⟨(drainLoop s.input).1, ?_, rfl⟩
    rw [received_append, received_map_rx, List.append_assoc]
    exact drainLoop_eq h
  · rintro ⟨discarded, hinput, ht⟩
    rw [received_append, received_map_rx, List.append_assoc] at hinput
    have hloop : drainLoop s.input = (discarded, t.input) := by
      rw [hinput]
      exact drainLoop_append discarded t.input
    rw [ht]
    unfold drain
    show EStateM.Result.ok _ _ = _
    dsimp only
    rw [hloop]

theorem sync_eq_ok : sync s = .ok () t ↔ ∃ discarded, Heard s (synchronised discarded) t := by
  have hsent : sync s = .ok () t ↔ ∃ u, drain s = .ok () u ∧
      Heard u (exchange (List.replicate (progMultiMax + 6) 0 ++ [protoGetSync, protoEoc])
        acknowledged) t := by
    unfold sync
    simp only [seq_eq_ok, getSync_eq_ok, heard_exchange_append, exchange_cons, heard_tx_cons]
  rw [hsent]
  constructor
  · rintro ⟨u, hdrain, hsync⟩
    have hmore : u.input ≠ [] := by
      rw [hsync.1, received_exchange]
      exact List.cons_ne_nil _ _
    obtain ⟨discarded, hdiscarded⟩ := (drain_eq_ok hmore).mp hdrain
    refine ⟨discarded, ?_⟩
    unfold synchronised
    rw [← List.singleton_append, ← List.append_assoc]
    exact heard_append.mpr ⟨u, hdiscarded, hsync⟩
  · rintro ⟨discarded, h⟩
    unfold synchronised at h
    rw [← List.singleton_append, ← List.append_assoc] at h
    obtain ⟨u, hdiscarded, hsync⟩ := heard_append.mp h
    have hmore : u.input ≠ [] := by
      rw [hsync.1, received_exchange]
      exact List.cons_ne_nil _ _
    exact ⟨u, (drain_eq_ok hmore).mpr ⟨discarded, hdiscarded⟩, hsync⟩

theorem erase_eq_ok :
    erase s = .ok () t ↔ Heard s (exchange [protoChipErase, protoEoc] acknowledged) t := by
  unfold erase
  simp only [seq_eq_ok, getSync_eq_ok, exchange_cons, heard_tx_cons]

theorem reboot_eq_ok : reboot s = .ok () t ↔ Heard s (exchange [protoReboot, protoEoc] []) t := by
  unfold reboot
  simp only [seq_eq_ok, exchange_cons, heard_tx_cons]
  have hnil : ∀ {u : Px4ioUploader}, Heard u (exchange [] []) t ↔ t = u := heard_nil
  simp only [hnil, exists_eq_right']

theorem compareBytes_eq_ok {fileBuf : List UInt8} :
    compareBytes fileBuf s = .ok () t ↔ Heard s (fileBuf.map .rx) t := by
  induction fileBuf generalizing s with
  | nil =>
      exact pure_eq_ok_iff_heard
  | cons b fileBuf ih =>
      unfold compareBytes
      rw [bind_eq_ok, List.map_cons, heard_cons]
      simp only [recv_eq_ok]
      constructor
      · rintro ⟨c, u, hrecv, h⟩
        split at h
        · cases h
        · next hsame =>
            rw [Decidable.not_not] at hsame
            subst hsame
            exact ⟨u, hrecv, ih.mp h⟩
      · rintro ⟨u, hrecv, h⟩
        refine ⟨b, u, hrecv, ?_⟩
        rw [if_neg (not_not_intro rfl)]
        exact ih.mpr h

theorem programChunk_eq_ok {chunk : List UInt8} :
    programChunk chunk s = .ok () t ↔ Heard s (programmedChunk chunk) t := by
  unfold programChunk programmedChunk
  simp only [seq_eq_ok, getSync_eq_ok, List.cons_append, List.nil_append, exchange_cons,
    heard_tx_cons, heard_exchange_append]

theorem verifyChunk_eq_ok {chunk : List UInt8} :
    verifyChunk chunk s = .ok () t ↔ Heard s (verifiedChunk chunk) t := by
  have hanswer : exchange [] (chunk ++ acknowledged) =
      chunk.map .rx ++ exchange [] acknowledged := by
    unfold exchange
    rw [List.map_append]
    rfl
  unfold verifyChunk verifiedChunk
  simp only [seq_eq_ok, getSync_eq_ok, compareBytes_eq_ok, exchange_cons, heard_tx_cons, hanswer,
    heard_append]

end

/-! ### The loops over the file -/

section

variable {env : Env} {s t : Px4ioUploader}

theorem assert_eq_ok {c : Prop} [Decidable c] : assert c s = .ok () t ↔ c ∧ t = s := by
  unfold assert
  by_cases h : c
  · rw [if_neg (not_not_intro h)]
    simp [h, eq_comm]
  · rw [if_pos h]
    simp [h]

theorem readFirmware_eq_ok {chunk : List UInt8} :
    readFirmware env s = .ok chunk t ↔ ∃ more, env.read s.reads = .gives more ∧
      chunk = s.rest.take (readSize more) ∧
      t = { s with rest := s.rest.drop (readSize more), reads := s.reads + 1 } := by
  unfold readFirmware
  rw [bind_eq_ok]
  constructor
  · rintro ⟨_, _, ⟨⟩, h⟩
    cases hread : env.read s.reads with
    | gives more =>
        rw [hread] at h
        cases h
        exact ⟨more, rfl, rfl, rfl⟩
    | fails errno =>
        rw [hread] at h
        cases h
  · rintro ⟨more, hread, rfl, rfl⟩
    refine ⟨s, s, rfl, ?_⟩
    rw [hread]
    rfl

/-- How the reads divide what is left of the file into chunks: as long as there is something left
each one gives a chunk whose length the code accepts, and one more read finds the end. -/
def ReadsAs (env : Env) : Nat → List UInt8 → List (List UInt8) → Prop
  | reads, rest, [] => (∃ more, env.read reads = .gives more) ∧ rest = []
  | reads, rest, chunk :: chunks => ∃ more, env.read reads = .gives more ∧
      chunk = rest.take (readSize more) ∧ chunk ≠ [] ∧ chunk.length % 4 = 0 ∧
      ReadsAs env (reads + 1) (rest.drop (readSize more)) chunks

/-- The chunks are the file. -/
theorem ReadsAs.flatten {reads : Nat} {rest : List UInt8} {chunks : List (List UInt8)}
    (h : ReadsAs env reads rest chunks) : chunks.flatten = rest := by
  induction chunks generalizing reads rest with
  | nil => exact h.2.symm
  | cons chunk chunks ih =>
      obtain ⟨more, -, rfl, -, -, hchunks⟩ := h
      rw [List.flatten_cons, ih hchunks, List.take_append_drop]

theorem readSize_pos (more : Nat) : 0 < readSize more := by
  unfold readSize progMultiMax
  omega

/-- Only the end of the file gives nothing. -/
theorem take_readSize_eq_nil {rest : List UInt8} {more : Nat} :
    rest.take (readSize more) = [] ↔ rest = [] := by
  rw [List.take_eq_nil_iff, or_iff_right (Nat.ne_of_gt (readSize_pos more))]

/-- A read that gives something leaves less of the file. -/
theorem length_drop_lt {rest : List UInt8} {more fuel : Nat}
    (hchunk : rest.take (readSize more) ≠ []) (hfuel : rest.length < fuel + 1) :
    (rest.drop (readSize more)).length < fuel := by
  have hrest : 0 < rest.length := List.length_pos_iff.mpr (mt take_readSize_eq_nil.mpr hchunk)
  have hsize := readSize_pos more
  rw [List.length_drop]
  omega

/-- A loop over the file ends normally when everything that is heard in it is what its body says
about the chunks. -/
theorem forChunks_eq_ok (body : List UInt8 → Exec Unit) {spoken : List UInt8 → List Io}
    (hbody : ∀ chunk s t, body chunk s = .ok () t ↔ Heard s (spoken chunk) t) {fuel : Nat}
    (hfuel : s.rest.length < fuel) :
    forChunks env body fuel s = .ok () t ↔ ∃ chunks, ReadsAs env s.reads s.rest chunks ∧
      Heard { s with rest := [], reads := s.reads + chunks.length + 1 }
        (chunks.flatMap spoken) t := by
  induction fuel generalizing s with
  | zero => exact absurd hfuel (Nat.not_lt_zero _)
  | succ fuel ih =>
      unfold forChunks
      simp only [bind_eq_ok, readFirmware_eq_ok]
      constructor
      · rintro ⟨chunk, u, ⟨more, hread, rfl, rfl⟩, h⟩
        split at h
        · next hchunk =>
            simp only [seq_eq_ok, assert_eq_ok, hbody] at h
            obtain ⟨_, ⟨haligned, rfl⟩, u, hheard, hloop⟩ := h
            have hrest : u.rest = s.rest.drop (readSize more) := hheard.rest
            have hreads : u.reads = s.reads + 1 := hheard.reads
            rw [ih (by rw [hrest]; exact length_drop_lt hchunk hfuel), hrest, hreads] at hloop
            obtain ⟨chunks, hchunks, hrecur⟩ := hloop
            refine ⟨_ :: chunks, ⟨more, hread, rfl, hchunk, haligned, hchunks⟩, ?_⟩
            rw [List.length_cons, ← Nat.add_assoc, Nat.add_right_comm s.reads]
            exact heard_append.mpr ⟨_, hheard.seek _ _, hrecur⟩
        · next hchunk =>
            rw [Decidable.not_not, take_readSize_eq_nil] at hchunk
            obtain ⟨-, rfl⟩ := pure_eq_ok.mp h
            refine ⟨[], ⟨⟨more, hread⟩, hchunk⟩, heard_nil.mpr ?_⟩
            rw [hchunk, List.drop_nil]
            rfl
      · rintro ⟨chunks, hchunks, hheard⟩
        cases chunks with
        | nil =>
            obtain ⟨⟨more, hread⟩, hrest⟩ := hchunks
            refine ⟨_, _, ⟨more, hread, rfl, rfl⟩, ?_⟩
            rw [hrest, List.take_nil, List.drop_nil, if_neg (not_not_intro rfl), pure_eq_ok]
            exact ⟨rfl, (heard_nil.mp hheard).symm⟩
        | cons chunk chunks =>
            obtain ⟨more, hread, rfl, hchunk, haligned, hchunks⟩ := hchunks
            obtain ⟨u, hfirst, hrecur⟩ := heard_append.mp hheard
            have hdealt := hfirst.seek (s.rest.drop (readSize more)) (s.reads + 1)
            refine ⟨_, _, ⟨more, hread, rfl, rfl⟩, ?_⟩
            rw [if_pos hchunk]
            simp only [seq_eq_ok, assert_eq_ok, hbody]
            refine ⟨_, ⟨haligned, rfl⟩, _, hdealt, ?_⟩
            rw [ih (length_drop_lt hchunk hfuel)]
            refine ⟨chunks, hchunks, ?_⟩
            have hreads : u.reads = s.reads + (chunks.length + 1) + 1 := hfirst.reads
            have hrest : u.rest = [] := hfirst.rest
            rw [show s.reads + 1 + chunks.length + 1 = u.reads by omega, ← hrest]
            exact hrecur

end

/-! ### The whole upload -/

section

variable {env : Env} {s t : Px4ioUploader}

theorem program_eq_ok :
    program env s = .ok () t ↔ ∃ chunks, ReadsAs env s.reads s.firmware chunks ∧
      Heard { s with rest := [], reads := s.reads + chunks.length + 1 }
        (chunks.flatMap programmedChunk) t :=
  forChunks_eq_ok (s := { s with rest := s.firmware }) programChunk
    (fun _ _ _ => programChunk_eq_ok) (Nat.lt_succ_self _)

theorem verify_eq_ok :
    verify env s = .ok () t ↔ ∃ chunks, ReadsAs env s.reads s.firmware chunks ∧
      Heard { s with rest := [], reads := s.reads + chunks.length + 1 }
        (exchange [protoChipVerify, protoEoc] acknowledged ++ chunks.flatMap verifiedChunk) t := by
  have hstart : verify env s = .ok () t ↔ ∃ u, Heard { s with rest := s.firmware }
      (exchange [protoChipVerify, protoEoc] acknowledged) u ∧
      forChunks env verifyChunk (u.firmware.length + 1) u = .ok () t := by
    unfold verify rewind
    simp only [seq_eq_ok, get_bind_eq_ok, modify_eq_ok, getSync_eq_ok, exchange_cons,
      heard_tx_cons]
    constructor
    · rintro ⟨_, rfl, a, hcommand, b, heoc, u, hsync, hloop⟩
      exact ⟨u, ⟨a, hcommand, b, heoc, hsync⟩, hloop⟩
    · rintro ⟨u, ⟨a, hcommand, b, heoc, hsync⟩, hloop⟩
      exact ⟨_, rfl, a, hcommand, b, heoc, u, hsync, hloop⟩
  rw [hstart]
  constructor
  · rintro ⟨u, hheard, hloop⟩
    have hfirmware : u.firmware = s.firmware := hheard.firmware
    have hrest : u.rest = s.firmware := hheard.rest
    have hreads : u.reads = s.reads := hheard.reads
    have hfuel : u.rest.length < u.firmware.length + 1 := by
      rw [hfirmware, hrest]
      exact Nat.lt_succ_self _
    rw [forChunks_eq_ok verifyChunk (fun _ _ _ => verifyChunk_eq_ok) hfuel, hrest, hreads] at hloop
    obtain ⟨chunks, hchunks, hverified⟩ := hloop
    exact ⟨chunks, hchunks, heard_append.mpr ⟨_, hheard.seek _ _, hverified⟩⟩
  · rintro ⟨chunks, hchunks, hheard⟩
    obtain ⟨u, hstarted, hverified⟩ := heard_append.mp hheard
    have hrest : u.rest = [] := hstarted.rest
    have hreads : u.reads = s.reads + chunks.length + 1 := hstarted.reads
    refine ⟨_, hstarted.seek s.firmware s.reads, ?_⟩
    rw [forChunks_eq_ok verifyChunk fun _ _ _ => verifyChunk_eq_ok]
    · refine ⟨chunks, hchunks, ?_⟩
      rw [← hrest, ← hreads]
      exact hverified
    · have hfirmware : u.firmware = s.firmware := hstarted.firmware
      rw [hfirmware]
      exact Nat.lt_succ_self _

theorem openPort_eq_ok : openPort env s = .ok () t ↔ env.openPort = none ∧ t = s := by
  unfold openPort
  cases env.openPort with
  | none =>
      rw [pure_eq_ok]
      exact ⟨fun h => ⟨rfl, h.2.symm⟩, fun h => ⟨rfl, h.2.symm⟩⟩
  | some errno =>
      constructor
      · intro h
        cases h
      · rintro ⟨⟨⟩, -⟩

theorem openFirmware_eq_ok {filenames : List String} :
    openFirmware env filenames s = .ok () t ↔ ∃ file, filenames.findSome? env.file = some file ∧
      t = { s with firmware := file, rest := file } := by
  unfold openFirmware
  cases filenames.findSome? env.file with
  | none =>
      constructor
      · intro h
        cases h
      · rintro ⟨_, ⟨⟩, -⟩
  | some file =>
      simp only [modify_eq_ok]
      constructor
      · rintro rfl
        exact ⟨file, rfl, rfl⟩
      · rintro ⟨_, ⟨⟩, rfl⟩
        rfl

/-- What handles a failed synchronisation fails itself. -/
theorem findBootloader_eq_ok : findBootloader s = .ok () t ↔ sync s = .ok () t := by
  show EStateM.tryCatch sync _ s = _ ↔ _
  unfold EStateM.tryCatch
  cases sync s with
  | ok a u => rfl
  | error stop u =>
      cases stop with
      | failed ret => exact ⟨nofun, nofun⟩
      | assertion => exact ⟨nofun, nofun⟩
      | fuel => exact ⟨nofun, nofun⟩

/-- An upload ends normally when a complete conversation is heard. -/
theorem upload_eq_ok {filenames : List String} :
    upload env filenames s = .ok () t ↔ env.openPort = none ∧ ∃ file discarded programmed verified,
      filenames.findSome? env.file = some file ∧ ReadsAs env s.reads file programmed ∧
      ReadsAs env (s.reads + programmed.length + 1) file verified ∧
      Heard { s with firmware := file, rest := [],
                     reads := s.reads + programmed.length + 1 + verified.length + 1 }
        (conversation discarded programmed verified) t := by
  unfold upload conversation
  simp only [seq_eq_ok, openPort_eq_ok, findBootloader_eq_ok, sync_eq_ok, openFirmware_eq_ok,
    erase_eq_ok, program_eq_ok, verify_eq_ok, reboot_eq_ok, heard_append, List.append_assoc]
  constructor
  · rintro ⟨s, ⟨hport, rfl⟩, u, ⟨discarded, hsync⟩, _, ⟨file, hfile, rfl⟩, v, herase, w,
      ⟨programmed, hprogrammed, hprogram⟩, x, ⟨verified, hverified, y, hstart, hverify⟩, hreboot⟩
    have hreads : v.reads = s.reads := herase.reads.trans hsync.reads
    have hfirmware : v.firmware = file := herase.firmware
    have hreads' : w.reads = v.reads + programmed.length + 1 := hprogram.reads
    have hfirmware' : w.firmware = v.firmware := hprogram.firmware
    rw [hreads, hfirmware] at hprogrammed
    rw [hreads', hfirmware', hreads, hfirmware] at hverified
    refine ⟨hport, file, discarded, programmed, verified, hfile, hprogrammed, hverified, ?_⟩
    rw [hreads', hreads] at hstart
    exact ⟨_, (hsync.load file).seek _ _, _, herase.seek _ _, _, hprogram.seek _ _, _, hstart, _,
      hverify, hreboot⟩
  · rintro ⟨hport, file, discarded, programmed, verified, hfile, hprogrammed, hverified, u, hsync,
      v, herase, w, hprogram, x, hstart, y, hverify, hreboot⟩
    have hread : w = { w with firmware := file, rest := [],
                              reads := s.reads + programmed.length + 1 + verified.length + 1 } := by
      rw [hprogram.2, herase.2, hsync.2]
    rw [hread] at hstart
    exact ⟨s, ⟨hport, rfl⟩, _, ⟨discarded, (hsync.load s.firmware).seek s.rest s.reads⟩, _,
      ⟨file, hfile, rfl⟩, _, (herase.load file).seek file s.reads, _,
      ⟨programmed, hprogrammed, (hprogram.load file).seek _ _⟩, _,
      ⟨verified, hverified, x, hstart, hverify⟩, hreboot⟩

end

/-! ### Uploads that are not complete -/

/-- A function on the port leaves the file alone, and when it does not end normally it returns an
error code. -/
def OnPort {α : Type} (x : Exec α) : Prop :=
  ∀ s, outcome x (fun _ t => t.firmware = s.firmware ∧ t.rest = s.rest)
    (fun stop _ => ∃ ret, stop = .failed ret) s

namespace OnPort

theorem bind {α β : Type} {x : Exec α} {f : α → Exec β} (hx : OnPort x) (hf : ∀ a, OnPort (f a)) :
    OnPort (x >>= f) := by
  intro s
  rw [Lib.outcome_bind]
  refine (hx s).mono (fun a t ht => (hf a t).mono (fun _ u hu => ?_) fun _ _ h => h) fun _ _ h => h
  exact ⟨hu.1.trans ht.1, hu.2.trans ht.2⟩

/-- What comes after a function on the port starts with the same file. -/
theorem outcome_bind {α β : Type} {x : Exec α} {f : α → Exec β} {Q : β → Px4ioUploader → Prop}
    {E : Stop → Px4ioUploader → Prop} {s : Px4ioUploader} (hx : OnPort x)
    (hf : ∀ a t, t.firmware = s.firmware → t.rest = s.rest → outcome (f a) Q E t)
    (hE : ∀ ret t, E (.failed ret) t) : outcome (x >>= f) Q E s := by
  rw [Lib.outcome_bind]
  refine (hx s).mono (fun a t ht => hf a t ht.1 ht.2) ?_
  rintro _ t ⟨ret, rfl⟩
  exact hE ret t

theorem pure {α : Type} (a : α) : OnPort (Pure.pure a : Exec α) := fun _ => ⟨rfl, rfl⟩

theorem fail {α : Type} (ret : ErrorCode) : OnPort (Uploader.fail ret : Exec α) :=
  fun _ => ⟨ret, rfl⟩

theorem ite {α : Type} {c : Prop} [Decidable c] {x y : Exec α} (hx : OnPort x) (hy : OnPort y) :
    OnPort (if c then x else y) := by
  by_cases h : c
  · rw [if_pos h]
    exact hx
  · rw [if_neg h]
    exact hy

theorem recv : OnPort Uploader.recv := by
  intro s
  unfold Uploader.recv
  rw [Lib.outcome_bind, outcome_get]
  cases s.input with
  | nil => exact ⟨etimedout, rfl⟩
  | cons next input =>
      cases next with
      | none => exact ⟨etimedout, rfl⟩
      | some c => exact ⟨rfl, rfl⟩

theorem send (c : UInt8) : OnPort (Uploader.send c) := fun _ => ⟨rfl, rfl⟩

theorem sendBytes (p : List UInt8) : OnPort (Uploader.sendBytes p) := by
  induction p with
  | nil => exact pure ()
  | cons c p ih => exact (send c).bind fun _ => ih

theorem getSync : OnPort Uploader.getSync :=
  recv.bind fun _ => recv.bind fun _ => (fail eio).ite (pure ())

theorem drain : OnPort Uploader.drain := fun _ => ⟨rfl, rfl⟩

theorem sync : OnPort Uploader.sync :=
  drain.bind fun _ => (sendBytes _).bind fun _ => (send _).bind fun _ => (send _).bind fun _ =>
    getSync

theorem findBootloader : OnPort Uploader.findBootloader := by
  intro s
  unfold Uploader.findBootloader
  rw [outcome_tryCatch]
  refine (sync s).mono (fun _ _ h => h) ?_
  rintro _ _ ⟨ret, rfl⟩
  exact ⟨eio, rfl⟩

theorem erase : OnPort Uploader.erase := (send _).bind fun _ => (send _).bind fun _ => getSync

theorem reboot : OnPort Uploader.reboot := (send _).bind fun _ => send _

theorem programChunk (fileBuf : List UInt8) : OnPort (Uploader.programChunk fileBuf) :=
  (send _).bind fun _ => (send _).bind fun _ => (sendBytes _).bind fun _ => (send _).bind fun _ =>
    getSync

theorem compareBytes (fileBuf : List UInt8) : OnPort (Uploader.compareBytes fileBuf) := by
  induction fileBuf with
  | nil => exact pure ()
  | cons b fileBuf ih => exact recv.bind fun _ => (fail einval).ite ih

theorem verifyChunk (fileBuf : List UInt8) : OnPort (Uploader.verifyChunk fileBuf) :=
  (send _).bind fun _ => (send _).bind fun _ => (send _).bind fun _ =>
    (compareBytes fileBuf).bind fun _ => getSync

end OnPort

/-- A read of the file gives a number of bytes that the code does not accept. -/
def Unaligned (env : Env) (file : List UInt8) : Prop :=
  ∃ reads more rest, rest <:+ file ∧ env.read reads = .gives more ∧
    (rest.take (readSize more)).length % 4 ≠ 0

/-- How an upload stops when it does not end normally. -/
def Stops (env : Env) (file : List UInt8) (stop : Stop) : Prop :=
  (∃ ret, stop = .failed ret) ∨ stop = .assertion ∧ Unaligned env file

section

variable {env : Env} {s : Px4ioUploader}

theorem forChunks_stops {body : List UInt8 → Exec Unit} (hbody : ∀ chunk, OnPort (body chunk))
    {fuel : Nat} (hfuel : s.rest.length < fuel) (hrest : s.rest <:+ s.firmware) :
    outcome (forChunks env body fuel) (fun _ t => t.firmware = s.firmware)
      (fun stop _ => Stops env s.firmware stop) s := by
  induction fuel generalizing s with
  | zero => exact absurd hfuel (Nat.not_lt_zero _)
  | succ fuel ih =>
      have hread : outcome (readFirmware env) (fun chunk t => ∃ more,
          env.read s.reads = .gives more ∧ chunk = s.rest.take (readSize more) ∧
            t.firmware = s.firmware ∧ t.rest = s.rest.drop (readSize more))
          (fun stop _ => ∃ ret, stop = .failed ret) s := by
        unfold readFirmware
        rw [outcome_bind, outcome_get]
        cases hgives : env.read s.reads with
        | gives more => exact ⟨more, rfl, rfl, rfl, rfl⟩
        | fails errno => exact ⟨errno.neg, rfl⟩
      unfold forChunks
      rw [outcome_bind]
      refine hread.mono ?_ fun _ _ => .inl
      rintro _ t ⟨more, hgives, rfl, hfirmware, hdrop⟩
      rw [outcome_ite]
      refine ⟨fun hchunk => ?_, fun _ => hfirmware⟩
      unfold assert
      rw [outcome_bind, outcome_ite]
      refine ⟨fun hunaligned => .inr ⟨rfl, _, more, _, hrest, hgives, hunaligned⟩, fun _ => ?_⟩
      refine (hbody _).outcome_bind (fun _ u hu hurest => ?_) fun ret _ => .inl ⟨ret, rfl⟩
      rw [hfirmware] at hu
      rw [hdrop] at hurest
      have hsuffix : u.rest <:+ u.firmware := by
        rw [hu, hurest]
        exact (List.drop_suffix _ _).trans hrest
      have hless : u.rest.length < fuel := by
        rw [hurest]
        exact length_drop_lt hchunk hfuel
      have hrecur := ih hless hsuffix
      rw [hu] at hrecur
      exact hrecur

theorem program_stops :
    outcome (program env) (fun _ t => t.firmware = s.firmware)
      (fun stop _ => Stops env s.firmware stop) s :=
  forChunks_stops (s := { s with rest := s.firmware }) OnPort.programChunk (Nat.lt_succ_self _)
    (List.suffix_refl _)

theorem verify_stops :
    outcome (verify env) (fun _ _ => True) (fun stop _ => Stops env s.firmware stop) s := by
  have hfailed : ∀ ret (t : Px4ioUploader), Stops env s.firmware (.failed ret) :=
    fun ret _ => .inl ⟨ret, rfl⟩
  unfold verify rewind
  rw [outcome_bind, outcome_modify]
  refine (OnPort.send _).outcome_bind (fun _ t ht htrest => ?_) hfailed
  refine (OnPort.send _).outcome_bind (fun _ u hu hurest => ?_) hfailed
  refine OnPort.getSync.outcome_bind (fun _ v hv hvrest => ?_) hfailed
  have hfirmware : v.firmware = s.firmware := hv.trans (hu.trans ht)
  have hread : v.rest = s.firmware := hvrest.trans (hurest.trans htrest)
  rw [outcome_bind, outcome_get, ← hfirmware]
  refine (forChunks_stops OnPort.verifyChunk ?_ ?_).mono (fun _ _ _ => trivial) fun _ _ h => h
  · rw [hfirmware, hread]
    exact Nat.lt_succ_self _
  · simpa only [hfirmware, hread] using List.suffix_refl s.firmware

/-- An upload always returns, except when a read gives a number of bytes it does not accept. -/
theorem upload_stops {filenames : List String} :
    outcome (upload env filenames) (fun _ _ => True) (fun stop _ => (∃ ret, stop = .failed ret) ∨
      stop = .assertion ∧ ∃ file, filenames.findSome? env.file = some file ∧ Unaligned env file)
      s := by
  unfold upload
  rw [outcome_bind]
  unfold openPort
  cases env.openPort with
  | some errno => exact .inl ⟨errno.neg, rfl⟩
  | none =>
      rw [outcome_pure]
      refine OnPort.findBootloader.outcome_bind (fun _ t _ _ => ?_) fun ret _ => .inl ⟨ret, rfl⟩
      rw [outcome_bind]
      unfold openFirmware
      cases hfile : filenames.findSome? env.file with
      | none => exact .inl ⟨enoent, rfl⟩
      | some file =>
          rw [outcome_modify]
          have hstops : ∀ stop (u : Px4ioUploader), Stops env file stop →
              (∃ ret, stop = .failed ret) ∨
              stop = .assertion ∧ ∃ file', some file = some file' ∧ Unaligned env file' :=
            fun _ _ h => h.imp_right fun h => ⟨h.1, file, rfl, h.2⟩
          refine OnPort.erase.outcome_bind (fun _ u hu _ => ?_) fun ret _ => .inl ⟨ret, rfl⟩
          have hfirmware : u.firmware = file := hu
          rw [outcome_bind]
          refine program_stops.mono (fun _ v hv => ?_) ?_
          · have hsame : v.firmware = file := hv.trans hfirmware
            rw [outcome_bind]
            refine verify_stops.mono (fun _ w _ => ?_) ?_
            · exact (OnPort.reboot w).mono (fun _ _ _ => trivial) fun _ _ => .inl
            · rw [hsame]
              exact hstops
          · rw [hfirmware]
            exact hstops

end

theorem returned_eq_zero {r : EStateM.Result Stop Px4ioUploader Unit} :
    returned r = some 0 ↔ ∃ t, r = .ok () t := by
  cases r with
  | ok a t => exact ⟨fun _ => ⟨t, rfl⟩, fun _ => rfl⟩
  | error stop t =>
      refine ⟨fun h => ?_, nofun⟩
      cases stop with
      | failed ret => exact absurd (Option.some.inj h) ret.property
      | assertion => cases h
      | fuel => cases h

/-- An upload returns `OK` exactly when the board has acknowledged the synchronisation, the erasure,
every chunk of the whole file, the start of the verification and every chunk that is read back, and
what is read back is the file. Otherwise it returns an error code, or it stops at the assertion
about the length of a chunk. -/
theorem upload_truthful (env : Env) (filenames : List String) (s : Px4ioUploader) :
    (returned (upload env filenames s) = some 0 ↔
      env.openPort = none ∧ ∃ file discarded programmed verified,
        filenames.findSome? env.file = some file ∧
        ReadsAs env s.reads file programmed ∧
        ReadsAs env (s.reads + programmed.length + 1) file verified ∧
        programmed.flatten = file ∧ verified.flatten = file ∧
        s.input = received (conversation discarded programmed verified) ++
          (after (upload env filenames) s).input ∧
        (after (upload env filenames) s).log =
          s.log ++ conversation discarded programmed verified) ∧
    (returned (upload env filenames s) = some 0 ∨
      (∃ ret, ret ≠ 0 ∧ returned (upload env filenames s) = some ret) ∨
      (∃ t, upload env filenames s = .error .assertion t) ∧
        ∃ file, filenames.findSome? env.file = some file ∧ Unaligned env file) := by
  constructor
  · rw [returned_eq_zero]
    constructor
    · rintro ⟨t, ht⟩
      have hafter : after (upload env filenames) s = t := by
        unfold after
        rw [ht]
      rw [hafter]
      obtain ⟨hport, file, discarded, programmed, verified, hfile, hprogrammed, hverified,
        hheard⟩ := upload_eq_ok.mp ht
      refine ⟨hport, file, discarded, programmed, verified, hfile, hprogrammed, hverified,
        hprogrammed.flatten, hverified.flatten, hheard.1, ?_⟩
      rw [hheard.2]
    · rintro ⟨hport, file, discarded, programmed, verified, hfile, hprogrammed, hverified, -, -,
        hinput, -⟩
      generalize (after (upload env filenames) s).input = input at hinput
      exact ⟨{ input := input, log := s.log ++ conversation discarded programmed verified,
               firmware := file, rest := [],
               reads := s.reads + programmed.length + 1 + verified.length + 1 },
        upload_eq_ok.mpr ⟨hport, file, discarded, programmed, verified, hfile, hprogrammed,
          hverified, hinput, rfl⟩⟩
  · have hstops : outcome (upload env filenames) _ _ s := upload_stops
    unfold outcome at hstops
    cases hupload : upload env filenames s with
    | ok a t => exact .inl rfl
    | error stop t =>
        rw [hupload] at hstops
        rcases hstops with ⟨ret, rfl⟩ | ⟨rfl, hunaligned⟩
        · exact .inr (.inl ⟨ret.val, ret.property, rfl⟩)
        · exact .inr (.inr ⟨⟨t, rfl⟩, hunaligned⟩)

/-- A file that can be opened, read in one go, and a board that acknowledges everything. -/
def exampleEnv (file : List UInt8) : Env where
  openPort := none
  file := fun _ => some file
  read := fun _ => .gives 59

/-- The port and no file. -/
def connected (input : List (Option UInt8)) : Px4ioUploader where
  input := input
  log := []
  firmware := []
  rest := []
  reads := 0

example : returned (upload (exampleEnv [1, 2, 3, 4]) ["px4io.bin"]
    (connected (received (conversation [] [[1, 2, 3, 4]] [[1, 2, 3, 4]])))) = some 0 := by rfl

/-- A file of one byte: an upload that the board answers well does not return. -/
theorem upload_one_byte :
    ¬ (returned (upload (exampleEnv [1]) ["px4io.bin"]
        (connected (received (conversation [] [[1]] [[1]])))) = some 0 ∨
      ∃ ret, ret ≠ 0 ∧ returned (upload (exampleEnv [1]) ["px4io.bin"]
        (connected (received (conversation [] [[1]] [[1]])))) = some ret) := by
  have hnone : returned (upload (exampleEnv [1]) ["px4io.bin"]
      (connected (received (conversation [] [[1]] [[1]])))) = none := rfl
  rw [hnone]
  rintro (h | ⟨ret, -, h⟩)
  · cases h
  · cases h

end Px4Firmware.Uploader
