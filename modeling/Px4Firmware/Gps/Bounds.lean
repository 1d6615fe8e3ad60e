import Mathlib.Tactic.SplitIfs
import Px4Firmware.Lib.Transition
import Px4Firmware.Gps.Ubx

/-!
# Px4Firmware.Gps.Bounds

**The stores of the UBX decoder.** The decoder counts the bytes of a payload, and the reader counts
the bytes of a call. The reader flushes a full buffer, but its count starts anew with every call,
while the decoder's goes on: a payload that is longer than the buffer and that a poll timeout splits
runs over the end of the buffer. The number of channels of `NAV-SVINFO` is not checked either.

`stores_inBounds` says when all stores stay in their arrays: in a run in which no call returns
inside of a payload that does not fit, and no `NAV-SVINFO` with more than twenty channels is
accepted. Each step that does not meet the condition leads to a store out of bounds.
-/

namespace Px4Firmware.Gps

open Px4Firmware.Lib

/-! ### The system -/

/-- The decoder is as `ubx_decode_init` leaves it. -/
def Driver.Fresh (d : Driver) : Prop := d.decodeInit = d

/-- What happens next: a byte is read, or the call returns without a message. -/
inductive Event
  | byte (b : UInt8)
  | returns

section

variable (conv : Conversions) (clock : Nat → UInt64)

/-- The next state. -/
def Reader.next (r : Reader) : Event → Reader
  | .byte b => r.readByte conv clock b
  | .returns => r.returns

/-- The reader as a transition system. It starts with a fresh decoder, before any store. -/
def reader : LTS Reader Event where
  init r := r.driver.Fresh ∧ r.driver.stores = [] ∧ r.rxCount = 0
  step r e r' := r' = r.next conv clock e

end

/-- The law: every store has hit its array. -/
def Reader.InBounds (r : Reader) : Prop := ∀ store ∈ r.driver.stores, store.inBounds

/-- The longest payload that fits, with its checksum, into the buffer. -/
def longestPayload : Nat := ubxBufferSize - 2

/-- The condition on a step: no call returns inside of a payload that does not fit, and no byte
completes a correct `NAV-SVINFO` with more channels than there are slots. -/
def Reader.Careful (r : Reader) : Event → Prop
  | .byte b =>
      let d := r.flush.driver.receive b
      r.flush.driver.state.decodeState = .gotLength2 → d.complete = true →
        d.state.messageId = some .navSvinfo → d.checksumOk .navSvinfo = true →
          (d.byteAt 4).toNat ≤ satelliteSlots
  | .returns =>
      r.driver.state.decodeState = .gotLength2 →
        longestPayload < r.driver.state.payloadSize.toNat → r.driver.state.rxCount.toInt ≤ 0

/-! ### The parser, by what it does to counts and stores -/

/-- In these states the message id is known. -/
def DecodeState.hasId : DecodeState → Bool
  | gotMessageId => true
  | gotLength1 => true
  | gotLength2 => true
  | _ => false

/-- The decoder between messages or in a header: nothing is counted yet. -/
structure Driver.Idle (d : Driver) : Prop where
  count : d.state.rxCount = 0
  id : d.state.decodeState.hasId = true → d.state.messageId.isSome = true

theorem idle_decodeInit (d : Driver) : d.decodeInit.Idle := ⟨rfl, fun h => by cases h⟩

section

variable (conv : Conversions) (clock : Nat → UInt64)

/-- A byte of a header: no message is complete, nothing is stored or counted. -/
theorem ubxParse_header {d : Driver} (h : d.state.decodeState ≠ .gotLength2) (hidle : d.Idle)
    (b : UInt8) :
    (d.ubxParse conv clock b).1 = 0 ∧ (d.ubxParse conv clock b).2.stores = d.stores ∧
      (d.ubxParse conv clock b).2.Idle := by
  obtain ⟨hcount, hid⟩ := hidle
  unfold Driver.ubxParse
  -- A byte that is out of place starts the decoder anew.
  cases hstate : d.state.decodeState with
  | uninit =>
      refine ⟨rfl, ?_⟩
      dsimp only
      split_ifs
      · exact ⟨rfl, hcount, fun h => by cases h⟩
      · exact ⟨rfl, hcount, hid⟩
  | gotSync1 =>
      refine ⟨rfl, ?_⟩
      dsimp only
      split_ifs
      · exact ⟨rfl, hcount, fun h => by cases h⟩
      · exact ⟨rfl, idle_decodeInit d⟩
  | gotSync2 =>
      refine ⟨rfl, ?_⟩
      dsimp only
      split_ifs
      · exact ⟨rfl, hcount, fun h => by cases h⟩
      · exact ⟨rfl, hcount, fun h => by cases h⟩
      · exact ⟨rfl, idle_decodeInit _⟩
  | gotClass =>
      dsimp only
      cases messageIdOf (d.checksum b).state.messageClass b with
      | some id => exact ⟨rfl, rfl, hcount, fun _ => rfl⟩
      | none => exact ⟨rfl, rfl, idle_decodeInit _⟩
  | gotMessageId =>
      rw [hstate] at hid
      exact ⟨rfl, rfl, hcount, fun _ => hid rfl⟩
  | gotLength1 =>
      rw [hstate] at hid
      exact ⟨rfl, rfl, hcount, fun _ => hid rfl⟩
  | gotLength2 => exact absurd hstate h

/-- A byte that is received keeps everything but the checksum, the buffer and the stores. -/
theorem receive_state (d : Driver) (b : UInt8) :
    (d.receive b).state.rxCount = d.state.rxCount ∧
      (d.receive b).state.payloadSize = d.state.payloadSize ∧
      (d.receive b).state.messageId = d.state.messageId ∧
      (d.receive b).state.decodeState = d.state.decodeState ∧
      (d.receive b).stores = d.stores ++ [.rxBuffer d.state.rxCount.toInt] := by
  unfold Driver.receive
  dsimp only
  split_ifs <;> exact ⟨rfl, rfl, rfl, rfl, rfl⟩

theorem foldl_storeSatellite (f : Driver → Nat → Satellite) (l : List Nat) (d : Driver) :
    (l.foldl (fun d i => d.storeSatellite i (f d i)) d).stores =
      d.stores ++ l.map .satellite := by
  induction l generalizing d with
  | nil => simp
  | cons i l ih =>
      rw [List.foldl_cons, ih]
      simp [Driver.storeSatellite]

/-- The stores of a message: only `NAV-SVINFO` stores into the satellite arrays, as many channels as
it says and the rest of the slots. -/
theorem storeFields_stores (d : Driver) (id : MessageId) :
    (d.storeFields conv id).stores = d.stores ++
      if id = .navSvinfo then
        (List.range (d.byteAt 4).toNat).map .satellite ++
          (List.range' (d.byteAt 4).toNat (satelliteSlots - (d.byteAt 4).toNat)).map .satellite
      else [] := by
  cases id with
  | navSvinfo =>
      rw [if_pos rfl, ← List.append_assoc]
      have hchannels := foldl_storeSatellite
        (fun d i => readSatellite conv d.byteAt (8 + i * 12)) (List.range (d.byteAt 4).toNat) d
      rw [← hchannels]
      exact foldl_storeSatellite (fun _ _ => .zero) _ _
  | _ =>
      rw [if_neg (by decide), List.append_nil]
      rfl

/-- Stamping a message stores nothing. -/
theorem stamp_stores (d : Driver) (id : MessageId) :
    ((d.stamp clock id).decodeInit).stores = d.stores := rfl

/-- A byte before the end of the message. -/
theorem parsePayload_of_incomplete {d : Driver}
    (h : d.state.rxCount.toInt < d.state.payloadSize.toNat + 1) (b : UInt8) :
    d.parsePayload conv clock b = (0, (d.receive b).countByte) := by
  obtain ⟨hcount, hsize, -, -, -⟩ := receive_state d b
  have hincomplete : (d.receive b).complete = false := by
    unfold Driver.complete
    rw [hcount, hsize]
    exact decide_eq_false (by omega)
  unfold Driver.parsePayload
  simp only [hincomplete]
  rfl

/-- The last byte of the message. -/
theorem parsePayload_of_complete {d : Driver} {id : MessageId}
    (h : d.state.payloadSize.toNat + 1 ≤ d.state.rxCount.toInt) (hid : d.state.messageId = some id)
    (b : UInt8) :
    d.parsePayload conv clock b =
      if (d.receive b).checksumOk id then
        (1, (((d.receive b).storeFields conv id).stamp clock id).decodeInit)
      else
        (0, (d.receive b).decodeInit) := by
  obtain ⟨hcount, hsize, hmessage, -, -⟩ := receive_state d b
  have hcomplete : (d.receive b).complete = true := by
    unfold Driver.complete
    rw [hcount, hsize]
    exact decide_eq_true h
  unfold Driver.parsePayload
  simp only [hcomplete, if_true]
  rw [hmessage, hid]

/-- No store is forgotten when a message is complete. -/
theorem mem_parsePayload_stores {d : Driver} {b : UInt8} {store : Store}
    (h : store ∈ (d.receive b).stores) : store ∈ (d.parsePayload conv clock b).2.stores := by
  unfold Driver.parsePayload
  dsimp only
  split
  · split
    · next id _ =>
        split
        · show store ∈ ((d.receive b).storeFields conv id).stores
          rw [storeFields_stores]
          exact List.mem_append_left _ h
        · exact h
    · exact h
  · exact h

/-- A byte of a payload is stored at the decoder's count. -/
theorem store_mem_parsePayload {d : Driver} {index : Int} (h : d.state.rxCount.toInt = index)
    (b : UInt8) : .rxBuffer index ∈ (d.parsePayload conv clock b).2.stores := by
  obtain ⟨-, -, -, -, hreceived⟩ := receive_state d b
  refine mem_parsePayload_stores conv clock ?_
  rw [hreceived, h]
  exact List.mem_append_right _ (List.mem_singleton_self _)

end

theorem toInt_succ {x : Int16} (hnonneg : 0 ≤ x.toInt) (hlt : x.toInt < 32767) :
    (x + 1).toInt = x.toInt + 1 := by
  rw [Int16.toInt_add, Int.bmod_eq_of_le] <;> simp <;> omega

/-! ### The invariant -/

/-- The decoder inside of a payload, when the call has counted so many bytes. A payload that fits
bounds the decoder's count itself; for one that does not, the count is at most that of the call. -/
structure InPayload (d : Driver) (counted : Nat) : Prop where
  id : d.state.messageId.isSome = true
  nonneg : 0 ≤ d.state.rxCount.toInt
  short : d.state.payloadSize.toNat ≤ longestPayload →
    d.state.rxCount.toInt ≤ d.state.payloadSize.toNat + 1
  long : longestPayload < d.state.payloadSize.toNat → d.state.rxCount.toInt ≤ counted

/-- What holds between two bytes. -/
structure BoundsInv (r : Reader) : Prop where
  counted : r.rxCount ≤ ubxBufferSize
  idle : r.driver.state.decodeState ≠ .gotLength2 → r.driver.Idle
  payload : r.driver.state.decodeState = .gotLength2 → InPayload r.driver r.rxCount
  stores : r.InBounds

/-- The first byte of a payload. -/
theorem Driver.Idle.inPayload {d : Driver} (h : d.Idle) (hstate : d.state.decodeState = .gotLength2)
    (counted : Nat) : InPayload d counted := by
  have hzero : d.state.rxCount.toInt = 0 := by
    rw [h.count]
    rfl
  refine ⟨h.id (by rw [hstate]; rfl), ?_, ?_, ?_⟩
  · omega
  · intro _
    omega
  · intro _
    omega

/-- While a call is not full, the next store into the buffer hits it. -/
theorem InPayload.count_lt {d : Driver} {counted : Nat} (h : InPayload d counted)
    (hcounted : counted < ubxBufferSize) : d.state.rxCount.toInt < ubxBufferSize := by
  rcases Nat.lt_or_ge longestPayload d.state.payloadSize.toNat with hlong | hshort
  · have hcount := h.long hlong
    omega
  · have hcount := h.short hshort
    unfold longestPayload ubxBufferSize at *
    omega

/-- What a byte leaves behind: the next state of the decoder, with the same alternative as before,
and the stores. -/
structure Parsed (p : Nat × Driver) (counted : Nat) : Prop where
  idle : p.2.state.decodeState ≠ .gotLength2 → p.2.Idle
  payload : p.2.state.decodeState = .gotLength2 → p.1 = 0 ∧ InPayload p.2 counted
  stores : ∀ store ∈ p.2.stores, store.inBounds

section

variable (conv : Conversions) (clock : Nat → UInt64)

/-- The buffer's store of a byte of a payload. -/
theorem InPayload.receive {d : Driver} {counted : Nat} (h : InPayload d counted)
    (hcounted : counted < ubxBufferSize) (hstores : ∀ store ∈ d.stores, store.inBounds)
    (b : UInt8) : ∀ store ∈ (d.receive b).stores, store.inBounds := by
  intro store hmem
  rw [(receive_state d b).2.2.2.2, List.mem_append, List.mem_singleton] at hmem
  rcases hmem with hold | rfl
  · exact hstores store hold
  · exact ⟨h.nonneg, h.count_lt hcounted⟩

/-- A byte of a payload before the last one. -/
theorem InPayload.count {d : Driver} {counted : Nat} (h : InPayload d counted)
    (hcounted : counted < ubxBufferSize)
    (hless : d.state.rxCount.toInt < d.state.payloadSize.toNat + 1) (b : UInt8) :
    InPayload (d.receive b).countByte (counted + 1) := by
  obtain ⟨hcount, hsize, hmessage, -, -⟩ := receive_state d b
  have hnonneg := h.nonneg
  have hlt := h.count_lt hcounted
  have hsucc : (d.receive b).countByte.state.rxCount.toInt = d.state.rxCount.toInt + 1 := by
    show ((d.receive b).state.rxCount + 1).toInt = _
    rw [hcount]
    exact toInt_succ hnonneg (by unfold ubxBufferSize at hlt; omega)
  have hsize' : (d.receive b).countByte.state.payloadSize = d.state.payloadSize := hsize
  refine ⟨?_, ?_, ?_, ?_⟩
  · show (d.receive b).state.messageId.isSome = true
    rw [hmessage]
    exact h.id
  · rw [hsucc]
    omega
  · rw [hsucc, hsize']
    intro _
    omega
  · rw [hsucc, hsize']
    intro hlong
    have hcall := h.long hlong
    omega

/-- The stores of the fields of a message, with no more channels than slots. -/
theorem storeFields_inBounds {d : Driver} {id : MessageId}
    (hstores : ∀ store ∈ d.stores, store.inBounds)
    (hchannels : id = .navSvinfo → (d.byteAt 4).toNat ≤ satelliteSlots) :
    ∀ store ∈ (d.storeFields conv id).stores, store.inBounds := by
  intro store hmem
  rw [storeFields_stores, List.mem_append] at hmem
  rcases hmem with hold | hnew
  · exact hstores store hold
  · split_ifs at hnew with hsvinfo
    · have hle := hchannels hsvinfo
      simp only [List.mem_append, List.mem_map, List.mem_range, List.mem_range'_1] at hnew
      rcases hnew with ⟨i, hi, rfl⟩ | ⟨i, hi, rfl⟩
      · exact Nat.lt_of_lt_of_le hi hle
      · show i < satelliteSlots
        omega
    · cases hnew

/-- A byte of a payload. -/
theorem InPayload.parse {d : Driver} {counted : Nat} (h : InPayload d counted)
    (hcounted : counted < ubxBufferSize) (hstate : d.state.decodeState = .gotLength2)
    (hstores : ∀ store ∈ d.stores, store.inBounds) (b : UInt8)
    (hcareful : (d.receive b).complete = true → (d.receive b).state.messageId = some .navSvinfo →
      (d.receive b).checksumOk .navSvinfo = true →
        ((d.receive b).byteAt 4).toNat ≤ satelliteSlots) :
    Parsed (d.parsePayload conv clock b) (counted + 1) := by
  obtain ⟨hcount, hsize, hmessage, hkeep, -⟩ := receive_state d b
  have hbuffer := h.receive hcounted hstores b
  by_cases hless : d.state.rxCount.toInt < d.state.payloadSize.toNat + 1
  · rw [parsePayload_of_incomplete conv clock hless]
    exact ⟨fun hne => absurd (hkeep.trans hstate) hne,
      fun _ => ⟨rfl, h.count hcounted hless b⟩, hbuffer⟩
  -- The last byte: whether the checksum is right or not, the decoder is idle after it.
  · have hdone : (d.state.payloadSize.toNat : Int) + 1 ≤ d.state.rxCount.toInt :=
      Int.not_lt.mp hless
    obtain ⟨id, hid⟩ := Option.isSome_iff_exists.mp h.id
    rw [parsePayload_of_complete conv clock hdone hid]
    by_cases hok : (d.receive b).checksumOk id = true
    · rw [if_pos hok]
      refine ⟨fun _ => idle_decodeInit _, (fun heq => by cases heq), ?_⟩
      have hfields : ∀ store ∈ ((d.receive b).storeFields conv id).stores, store.inBounds := by
        refine storeFields_inBounds conv hbuffer fun hsvinfo => ?_
        subst hsvinfo
        have hcomplete : (d.receive b).complete = true := by
          unfold Driver.complete
          rw [hcount, hsize]
          exact decide_eq_true hdone
        exact hcareful hcomplete (hmessage.trans hid) hok
      exact hfields
    · rw [if_neg hok]
      exact ⟨fun _ => idle_decodeInit _, (fun heq => by cases heq), hbuffer⟩

/-- A byte in any state of the decoder. -/
theorem parse_inv {d : Driver} {counted : Nat}
    (hidle : d.state.decodeState ≠ .gotLength2 → d.Idle)
    (hpayload : d.state.decodeState = .gotLength2 →
      InPayload d counted ∧ counted < ubxBufferSize)
    (hstores : ∀ store ∈ d.stores, store.inBounds) (b : UInt8)
    (hcareful : d.state.decodeState = .gotLength2 → (d.receive b).complete = true →
      (d.receive b).state.messageId = some .navSvinfo →
        (d.receive b).checksumOk .navSvinfo = true →
          ((d.receive b).byteAt 4).toNat ≤ satelliteSlots) :
    Parsed (d.ubxParse conv clock b) (counted + 1) := by
  by_cases hstate : d.state.decodeState = .gotLength2
  · obtain ⟨h, hcounted⟩ := hpayload hstate
    have hparse : d.ubxParse conv clock b = d.parsePayload conv clock b := by
      unfold Driver.ubxParse
      rw [hstate]
    rw [hparse]
    exact h.parse conv clock hcounted hstate hstores b (hcareful hstate)
  · obtain ⟨hret, hsame, hnext⟩ := ubxParse_header conv clock hstate (hidle hstate) b
    refine ⟨fun _ => hnext, fun heq => ⟨hret, hnext.inPayload heq _⟩, ?_⟩
    rw [hsame]
    exact hstores

/-! ### Along a run -/

/-- A byte, with the flush before it. -/
theorem BoundsInv.byte {r : Reader} (h : BoundsInv r) {b : UInt8}
    (hcareful : r.Careful (.byte b)) : BoundsInv (r.readByte conv clock b) := by
  have hparsed : Parsed (r.flush.driver.ubxParse conv clock b) r.flush.rxCount ∧
      r.flush.rxCount ≤ ubxBufferSize := by
    unfold Reader.Careful at hcareful
    dsimp only at hcareful
    unfold Reader.flush at hcareful ⊢
    by_cases hfull : ubxBufferSize ≤ r.rxCount
    · rw [if_pos hfull] at hcareful ⊢
      -- The flush resets the decoder, so the byte is parsed outside of a payload.
      have hne : r.driver.decodeInit.state.decodeState ≠ .gotLength2 := fun heq => by cases heq
      obtain ⟨hret, hsame, hnext⟩ :=
        ubxParse_header conv clock hne (idle_decodeInit r.driver) b
      refine ⟨⟨fun _ => hnext, fun heq => ⟨hret, hnext.inPayload heq _⟩, ?_⟩, Nat.zero_le _⟩
      rw [hsame]
      exact h.stores
    · rw [if_neg hfull] at hcareful ⊢
      have hroom : r.rxCount < ubxBufferSize := Nat.lt_of_not_le hfull
      exact ⟨parse_inv conv clock h.idle (fun hstate => ⟨h.payload hstate, hroom⟩) h.stores b
        hcareful, hroom⟩
  obtain ⟨hparsed, hcounted⟩ := hparsed
  unfold Reader.readByte
  refine ⟨?_, hparsed.idle, ?_, hparsed.stores⟩
  · dsimp only
    split_ifs
    · exact Nat.zero_le _
    · exact hcounted
  · intro hstate
    obtain ⟨hret, hin⟩ := hparsed.payload hstate
    dsimp only
    rw [hret, if_neg (Nat.lt_irrefl 0)]
    exact hin

/-- The end of a call: only the count of a payload that does not fit depends on the call. -/
theorem BoundsInv.returns {r : Reader} (h : BoundsInv r) (hcareful : r.Careful .returns) :
    BoundsInv r.returns := by
  refine ⟨Nat.zero_le _, h.idle, ?_, h.stores⟩
  intro hstate
  have hin := h.payload hstate
  exact ⟨hin.id, hin.nonneg, hin.short, fun hlong => hcareful hstate hlong⟩

/-- **The step lemma.** -/
theorem BoundsInv.next {r : Reader} (h : BoundsInv r) {e : Event} (hcareful : r.Careful e) :
    BoundsInv (r.next conv clock e) := by
  cases e with
  | byte b => exact h.byte conv clock hcareful
  | returns => exact h.returns hcareful

theorem BoundsInv.reachable {r : Reader}
    (h : ((reader conv clock).restrict Reader.Careful).Reachable r) : BoundsInv r := by
  refine h.invariant ?_ ?_
  · intro r hinit
    obtain ⟨hfresh, hstores, hcount⟩ := hinit
    have hidle : r.driver.Idle := by
      rw [← show r.driver.decodeInit = r.driver from hfresh]
      exact idle_decodeInit r.driver
    refine ⟨?_, fun _ => hidle, fun hstate => hidle.inPayload hstate _, ?_⟩
    · rw [hcount]
      exact Nat.zero_le _
    · intro store hmem
      rw [hstores] at hmem
      cases hmem
  · intro r e r' hr hstep
    obtain ⟨hcareful, hnext⟩ := hstep
    rw [show r' = r.next conv clock e from hnext]
    exact hr.next conv clock hcareful

/-! ### A careless step leads to a store out of bounds -/

/-- Reading on in a payload that does not fit, before the call is full. -/
theorem readByte_long {r : Reader} (hstate : r.driver.state.decodeState = .gotLength2)
    (hlong : longestPayload < r.driver.state.payloadSize.toNat)
    (hnonneg : 0 ≤ r.driver.state.rxCount.toInt)
    (hcount : r.driver.state.rxCount.toInt < ubxBufferSize) (hroom : r.rxCount < ubxBufferSize)
    (b : UInt8) :
    let r' := r.readByte conv clock b
    r'.driver.state.decodeState = .gotLength2 ∧
      r'.driver.state.payloadSize = r.driver.state.payloadSize ∧
      r'.driver.state.rxCount.toInt = r.driver.state.rxCount.toInt + 1 ∧
      r'.rxCount = r.rxCount + 1 := by
  have hflush : r.flush = { r with rxCount := r.rxCount + 1 } :=
    if_neg (Nat.not_le_of_lt hroom)
  have hparse : r.driver.ubxParse conv clock b = (0, (r.driver.receive b).countByte) := by
    unfold Driver.ubxParse
    rw [hstate]
    refine parsePayload_of_incomplete conv clock ?_ b
    unfold longestPayload ubxBufferSize at hlong
    unfold ubxBufferSize at hcount
    omega
  obtain ⟨hsame, hsize, -, hkeep, -⟩ := receive_state r.driver b
  intro r'
  have hr' : r' = { driver := (r.driver.receive b).countByte, rxCount := r.rxCount + 1 } := by
    show r.readByte conv clock b = _
    unfold Reader.readByte
    rw [hflush]
    dsimp only
    rw [hparse]
    rfl
  rw [hr']
  refine ⟨hkeep.trans hstate, hsize, ?_, rfl⟩
  show ((r.driver.receive b).state.rxCount + 1).toInt = _
  rw [hsame]
  exact toInt_succ hnonneg (by unfold ubxBufferSize at hcount; omega)

/-- A call that starts inside of a payload that does not fit runs over the end of the buffer. -/
theorem breaks_of_long {r : Reader} (k : Nat)
    (hstate : r.driver.state.decodeState = .gotLength2)
    (hlong : longestPayload < r.driver.state.payloadSize.toNat)
    (hnonneg : 0 ≤ r.driver.state.rxCount.toInt)
    (hcount : r.driver.state.rxCount.toInt + k = ubxBufferSize)
    (hroom : r.rxCount + k < ubxBufferSize) :
    ∃ es r', (reader conv clock).Run r es r' ∧ ¬ r'.InBounds := by
  induction k generalizing r with
  | zero =>
      -- The next byte is stored behind the buffer.
      have hat : r.driver.state.rxCount.toInt = ubxBufferSize := by omega
      refine ⟨[.byte 0], _, .cons rfl (.nil _), ?_⟩
      intro hbounds
      have hflush : r.flush = { r with rxCount := r.rxCount + 1 } :=
        if_neg (Nat.not_le_of_lt hroom)
      have hmem : Store.rxBuffer ubxBufferSize ∈
          (r.next conv clock (.byte 0)).driver.stores := by
        have hparse : r.driver.ubxParse conv clock 0 = r.driver.parsePayload conv clock 0 := by
          unfold Driver.ubxParse
          rw [hstate]
        show _ ∈ (r.flush.driver.ubxParse conv clock 0).2.stores
        rw [hflush]
        dsimp only
        rw [hparse]
        exact store_mem_parsePayload conv clock hat 0
      have hlt := (hbounds _ hmem).2
      exact absurd hlt (by decide)
  | succ k ih =>
      have hroom' : r.rxCount < ubxBufferSize := by omega
      obtain ⟨hstate', hsize, hcount', hcall⟩ :=
        readByte_long conv clock hstate hlong hnonneg (by omega) hroom' 0
      obtain ⟨es, r', hrun, hbad⟩ := ih hstate' (by rw [hsize]; exact hlong) (by omega) (by omega)
        (by omega)
      exact ⟨.byte 0 :: es, r', .cons rfl hrun, hbad⟩

/-- A correct `NAV-SVINFO` with more channels than slots stores behind the satellite arrays. -/
theorem satellite_mem_parsePayload {d : Driver} {b : UInt8}
    (hcomplete : (d.receive b).complete = true)
    (hid : (d.receive b).state.messageId = some .navSvinfo)
    (hok : (d.receive b).checksumOk .navSvinfo = true)
    (hchannels : satelliteSlots < ((d.receive b).byteAt 4).toNat) :
    .satellite satelliteSlots ∈ (d.parsePayload conv clock b).2.stores := by
  obtain ⟨hcount, hsize, hmessage, -, -⟩ := receive_state d b
  have hdone : (d.state.payloadSize.toNat : Int) + 1 ≤ d.state.rxCount.toInt := by
    unfold Driver.complete at hcomplete
    rw [hcount, hsize] at hcomplete
    exact of_decide_eq_true hcomplete
  rw [parsePayload_of_complete conv clock hdone (hmessage.symm.trans hid), if_pos hok]
  have hstored : .satellite satelliteSlots ∈
      ((d.receive b).storeFields conv .navSvinfo).stores := by
    rw [storeFields_stores, if_pos rfl, List.mem_append, List.mem_append]
    refine .inr (.inl (List.mem_map.mpr ⟨satelliteSlots, ?_, rfl⟩))
    exact List.mem_range.mpr hchannels
  rw [← stamp_stores clock _ .navSvinfo] at hstored
  exact hstored

/-- A careless byte breaks the law itself. -/
theorem breaks_byte {r : Reader} {b : UInt8} (hcareless : ¬ r.Careful (.byte b)) :
    ¬ (r.next conv clock (.byte b)).InBounds := by
  unfold Reader.Careful at hcareless
  dsimp only at hcareless
  obtain ⟨hstate, hcareless⟩ := Classical.not_imp.mp hcareless
  obtain ⟨hcomplete, hcareless⟩ := Classical.not_imp.mp hcareless
  obtain ⟨hid, hcareless⟩ := Classical.not_imp.mp hcareless
  obtain ⟨hok, hcareless⟩ := Classical.not_imp.mp hcareless
  have hchannels := Nat.lt_of_not_le hcareless
  intro hbounds
  have hparse : r.flush.driver.ubxParse conv clock b =
      r.flush.driver.parsePayload conv clock b := by
    unfold Driver.ubxParse
    rw [hstate]
  have hmem : Store.satellite satelliteSlots ∈
      (r.next conv clock (.byte b)).driver.stores := by
    show _ ∈ (r.flush.driver.ubxParse conv clock b).2.stores
    rw [hparse]
    exact satellite_mem_parsePayload conv clock hcomplete hid hok hchannels
  exact Nat.lt_irrefl _ (hbounds _ hmem)

/-- A careless return leaves a payload behind that the next calls do not flush in time. -/
theorem BoundsInv.breaks_returns {r : Reader} (h : BoundsInv r)
    (hcareless : ¬ r.Careful .returns) :
    ∃ es r', (reader conv clock).Run r.returns es r' ∧ ¬ r'.InBounds := by
  unfold Reader.Careful at hcareless
  dsimp only at hcareless
  obtain ⟨hstate, hcareless⟩ := Classical.not_imp.mp hcareless
  obtain ⟨hlong, hcareless⟩ := Classical.not_imp.mp hcareless
  have hpos := Int.lt_of_not_ge hcareless
  have hcall := (h.payload hstate).long hlong
  have hcounted := h.counted
  unfold ubxBufferSize at hcounted
  refine breaks_of_long conv clock (1000 - r.driver.state.rxCount.toInt).toNat hstate hlong
    (Int.le_of_lt hpos) ?_ ?_
  · show r.driver.state.rxCount.toInt + _ = _
    unfold ubxBufferSize
    omega
  · show 0 + _ < _
    unfold ubxBufferSize
    omega

/-- **Every store hits its array, as long as the steps are careful.** Each careless step, where such
a run can take one, is followed by a store out of bounds in some further run. -/
theorem stores_inBounds {r : Reader}
    (h : ((reader conv clock).restrict Reader.Careful).Reachable r) :
    r.InBounds ∧ ∀ e r', (reader conv clock).step r e r' → ¬ r.Careful e →
      ∃ es r'', (reader conv clock).Run r' es r'' ∧ ¬ r''.InBounds := by
  have hinv := BoundsInv.reachable conv clock h
  refine ⟨hinv.stores, ?_⟩
  intro e r' hstep hcareless
  rw [show r' = r.next conv clock e from hstep]
  cases e with
  | byte b => exact ⟨[], _, .nil _, breaks_byte conv clock hcareless⟩
  | returns => exact hinv.breaks_returns conv clock hcareless

end

/-! ### Runs on fixed inputs -/

/-- Conversions in whole numbers. No date is converted here. -/
def Conversions.whole : Conversions where
  mktime _ _ _ _ _ _ := 0
  microseconds x := UInt64.ofInt (x.toInt / 1000)
  azimuth x := UInt8.ofInt (x.toInt * 255 / 360)
  heading x := UInt16.ofInt (x.toInt / 1000)

/-- The driver when the app starts. -/
def Driver.start : Driver where
  state :=
    { ckA := 0
      ckB := 0
      decodeState := .uninit
      printErrors := false
      rxCount := 0
      payloadSize := 0
      messageClass := .unknown
      messageId := none
      lastMessageTimestamps := .replicate 7 0 }
  rxBuffer := .replicate ubxBufferSize 0
  position :=
    { timestamp := 0
      counter := 0
      timeGpsUsec := 0
      lat := 0
      lon := 0
      alt := 0
      counterPosValid := 0
      eph := 0
      epv := 0
      vel := 0
      cog := 0
      fixType := 0
      satellitesVisible := 0
      satellites := .replicate satelliteSlots .zero
      satelliteInfoAvailable := 0 }
  clockReads := 0
  stores := []

theorem start_fresh : Driver.start.Fresh := rfl

/-- The reader when the app starts. -/
def Reader.start : Reader := { driver := .start, rxCount := 0 }

theorem reader_init (conv : Conversions) (clock : Nat → UInt64) :
    (reader conv clock).init .start := ⟨start_fresh, rfl, rfl⟩

instance (r : Reader) (e : Event) : Decidable (r.Careful e) := by
  cases e <;> unfold Reader.Careful <;> infer_instance

/-- The next state after a careful step. -/
def Reader.nextCareful (r : Reader) (e : Event) : Option Reader :=
  if r.Careful e then some (r.next .whole (fun _ => 0) e) else none

/-- An `RXM-SVSI` with six satellites, which a call returns in the middle of. -/
def svsiEvents : List Event :=
  ([0xb5, 0x62, 0x02, 0x20, 0x07, 0x00, 0, 0, 0, 0, 0, 0] : List UInt8).map .byte ++
    [.returns] ++ ([6, 0x2f, 0x9b] : List UInt8).map .byte

theorem stores_inBounds_svsi :
    ∃ r, r.driver.position.satellitesVisible = 6 ∧ r.driver.stores.length = 9 ∧
      r.InBounds ∧ ∀ e r', (reader .whole fun _ => 0).step r e r' → ¬ r.Careful e →
        ∃ es r'', (reader .whole fun _ => 0).Run r' es r'' ∧ ¬ r''.InBounds := by
  have hsome : (svsiEvents.foldlM Reader.nextCareful .start).any (fun r =>
      r.driver.position.satellitesVisible == 6 && r.driver.stores.length == 9) = true := by
    decide +kernel
  obtain ⟨r, hr, hfields⟩ := (Option.any_eq_true _ _).mp hsome
  obtain ⟨hvisible, hlength⟩ := Bool.and_eq_true_iff.mp hfields
  have hrun : ((reader .whole fun _ => 0).restrict Reader.Careful).Run .start svsiEvents r := by
    refine LTS.Run.of_foldlM ?_ hr
    intro s e t hnext
    unfold Reader.nextCareful at hnext
    split_ifs at hnext with hcareful
    exact ⟨hcareful, (Option.some.inj hnext).symm⟩
  exact ⟨r, eq_of_beq hvisible, eq_of_beq hlength,
    stores_inBounds .whole (fun _ => 0) ⟨.start, svsiEvents, reader_init .whole (fun _ => 0), hrun⟩⟩

/-- A `NAV-SVINFO` that says it has twenty-one channels, with a correct checksum. -/
def svinfoEvents : List Event :=
  ([0xb5, 0x62, 0x01, 0x30, 0x08, 0x00, 0, 0, 0, 0, 21, 0, 0, 0, 0x4e, 0xc0] :
    List UInt8).map .byte

/-- It reaches a store behind the satellite arrays. -/
theorem satellite_overrun :
    ¬ ∀ (conv : Conversions) (clock : Nat → UInt64) (r : Reader),
      (reader conv clock).Reachable r → r.InBounds := by
  intro hall
  have hsome : (svinfoEvents.foldlM (fun r e => some (r.next .whole (fun _ => 0) e))
      Reader.start).any (fun r => r.driver.stores.contains (.satellite 20)) = true := by
    decide +kernel
  obtain ⟨r, hr, hcontains⟩ := (Option.any_eq_true _ _).mp hsome
  have hrun : (reader .whole fun _ => 0).Run .start svinfoEvents r :=
    LTS.Run.of_foldlM (fun s e t hnext => (Option.some.inj hnext).symm) hr
  have hbounds := hall _ _ r ⟨.start, svinfoEvents, reader_init _ _, hrun⟩
  have hmem : Store.satellite 20 ∈ r.driver.stores := List.contains_iff_mem.mp hcontains
  exact absurd (hbounds _ hmem) (by decide)

end Px4Firmware.Gps
