import Px4Firmware.Mavlink.Addressing
import Px4Firmware.Param.History

/-!
# Px4Firmware.Mavlink.Parameters

**Parameters over the link** (`mavlink_parameters.c`). PARAM_SET sets a parameter and sends it back,
PARAM_REQUEST_READ sends one, PARAM_REQUEST_LIST queues all of them. A value goes through a field
of four bytes; how many bytes are copied is decided in the parameter store, by the type of the
parameter.

The functions note what they access: the entries of the table, and the bytes copied from and to the
field. `bounded_iff` says when all of this stays inside: if none of the parameters that the message
is about is a structure of more than four bytes.
-/

namespace Px4Firmware.Mavlink

open Px4Firmware.Lib Px4Firmware.Param

/-! ### Messages -/

/-- `MAVLINK_MSG_PARAM_VALUE_FIELD_PARAM_ID_LEN`. -/
def paramIdLen : Nat := 16

/-- `char param_id[16]`. -/
structure ParamId where
  bytes : List UInt8
  length : bytes.length = paramIdLen

/-- The local name buffer of the handlers, as a string: `strncpy` and a terminator. -/
def ParamId.name (id : ParamId) : List UInt8 := id.bytes.takeWhile (· ≠ 0)

/-- `strncpy` of a name to a `param_id`, which is filled up with zeros. -/
def strncpyParamId (name : List UInt8) : List UInt8 :=
  (name ++ List.replicate paramIdLen 0).take paramIdLen

/-- `mavlink_param_set_t`. The value is the word that is transmitted. -/
structure SetMessage where
  paramValue : UInt32
  targetSystem : UInt8
  targetComponent : UInt8
  paramId : ParamId
  paramType : UInt8

/-- `mavlink_param_request_read_t`. -/
structure RequestRead where
  paramIndex : Int16
  targetSystem : UInt8
  targetComponent : UInt8
  paramId : ParamId

/-- The messages about parameters. -/
inductive PmMessage
  | paramRequestList
  | paramSet (mavlinkParamSet : SetMessage)
  | paramRequestRead (mavlinkParamRequestRead : RequestRead)

/-- `MAVLINK_TYPE_INT32_T`. -/
def mavlinkTypeInt32 : UInt8 := 6

/-- `MAVLINK_TYPE_FLOAT`. -/
def mavlinkTypeFloat : UInt8 := 9

/-- What is sent: PARAM_VALUE, or a string for the ground station. -/
inductive PmOutput
  | paramValue (paramId : List UInt8) (value : UInt32) (type : UInt8) (count index : UInt16)
  | gcsString (string : List UInt8)

/-! ### The interface -/

/-- What the interface accesses: an entry of the table, and the bytes that are copied from a
parameter to the value field, or from there to a parameter. -/
inductive PmAccess
  | entry (param : ParamT)
  | get (param : ParamT) (size : Nat)
  | set (param : ParamT) (size : Nat)
deriving DecidableEq

/-- The size of the value field: of `val_buf`, and of `param_value`. -/
def valueSize : Nat := 4

/-- The access stays inside. -/
def PmAccess.Inside (env : Env) : PmAccess → Prop
  | entry param => param < paramCount env
  | get _ size => size ≤ valueSize
  | set _ size => size ≤ valueSize

/-- What the interface works on. Of the stack it has what `val_buf` holds before anything is copied
to it, and the bytes behind a received PARAM_SET. -/
structure Pm where
  system : MavlinkSystem
  store : Store
  queueIndex : UInt32
  uninitialized : UInt32
  stack : List UInt8
  sent : List PmOutput
  accesses : List PmAccess

namespace Pm

def note (accesses : List PmAccess) (m : Pm) : Pm := { m with accesses := m.accesses ++ accesses }

def send (output : PmOutput) (m : Pm) : Pm := { m with sent := m.sent ++ [output] }

end Pm

section

variable (env : Env)

/-- `param_for_index`. -/
def paramForIndex (index : UInt32) : ParamT :=
  if index.toNat < paramCount env then index.toNat else paramInvalid

/-- `param_get_index`. -/
def paramGetIndex (param : ParamT) : Int :=
  if handleInRange env param then param else -1

/-- The entries that the loop of `param_find` compares: up to the one with this name, or all. -/
def searched (name : List UInt8) : List PmAccess :=
  let last := min (paramFind env name + 1) (paramCount env)
  (List.range last).map .entry

/-- The float `val_buf` after a copy of these bytes to it. The bytes that have no room there are
stored behind it. -/
def Pm.valBuf (m : Pm) (bytes : List UInt8) : UInt32 :=
  env.endian.word32
    ((bytes ++ (env.endian.bytes32 m.uninitialized).drop bytes.length).take valueSize)

/-- `mavlink_pm_send_param`. -/
def Pm.sendParam (param : ParamT) (m : Pm) : Int × Pm :=
  if param = paramInvalid then
    (1, m)
  else
    let m := m.note [.entry param]
    let nameBuf := strncpyParamId ((paramName env param).getD [])
    let mavlinkType := match paramType env param with
      | .int32 => mavlinkTypeInt32
      | .float => mavlinkTypeFloat
      | _ => mavlinkTypeFloat
    -- the value is copied whatever its type
    match paramGet env param true m.store with
    | none => (-1, m)
    | some bytes =>
        let m := m.note [.get param (paramSize env param)]
        (0, m.send (.paramValue nameBuf (m.valBuf env bytes) mavlinkType
          (UInt16.ofNat (paramCount env)) (UInt16.ofInt (paramGetIndex env param))))

/-- `mavlink_pm_send_param_for_index`. -/
def Pm.sendParamForIndex (index : UInt16) (m : Pm) : Int × Pm :=
  m.sendParam env (paramForIndex env index.toUInt32)

/-- `mavlink_pm_send_param_for_name`. -/
def Pm.sendParamForName (name : List UInt8) (m : Pm) : Int × Pm :=
  (m.note (searched env name)).sendParam env (paramFind env name)

/-- `mavlink_pm_queued_send`. -/
def Pm.queuedSend (m : Pm) : Int × Pm :=
  if m.queueIndex.toNat < paramCount env then
    let m := (m.sendParam env (paramForIndex env m.queueIndex)).2
    (0, { m with queueIndex := m.queueIndex + 1 })
  else
    (1, m)

/-- `mavlink_pm_start_queued_send`. -/
def Pm.startQueuedSend (m : Pm) : Pm := { m with queueIndex := 0 }

/-- What is in memory from `param_value` on: the rest of the message, and the stack. -/
def SetMessage.memory (set : SetMessage) (stack : List UInt8) : List UInt8 :=
  env.endian.bytes32 set.paramValue ++
    set.targetSystem :: set.targetComponent :: set.paramId.bytes ++ set.paramType :: stack

/-- `param_set` of the value field, which is copied unless the parameter cannot be set. -/
def Pm.setParam (param : ParamT) (set : SetMessage) (m : Pm) : Pm :=
  let m := m.note [.entry param]
  let (result, store) := Param.paramSet env param (set.memory env m.stack) m.store
  let m := if result = 0 then m.note [.set param (paramSize env param)] else m
  { m with store := store }

/-- `mavlink_pm_message_handler`. -/
def Pm.messageHandler (m : Pm) (msg : PmMessage) : Pm :=
  match msg with
  | .paramRequestList =>
      m.startQueuedSend.send (.gcsString "[mavlink pm] sending list".toUTF8.toList)
  | .paramSet set =>
      if m.system.isTarget set.targetSystem set.targetComponent then
        let name := set.paramId.name
        let param := paramFind env name
        let m := m.note (searched env name)
        if param = paramInvalid then
          m.send (.gcsString ("[mavlink pm] unknown: ".toUTF8.toList ++ name))
        else
          ((m.setParam env param set).sendParam env param).2
      else
        m
  | .paramRequestRead read =>
      if m.system.isTarget read.targetSystem read.targetComponent then
        if read.paramIndex = -1 then
          (m.sendParamForName env read.paramId.name).2
        else
          (m.sendParamForIndex env read.paramIndex.toUInt16).2
      else
        m

/-- Send what is queued, until there is nothing left. -/
def Pm.sendQueue : Nat → Pm → Pm
  | 0, m => m
  | calls + 1, m =>
      match m.queuedSend env with
      | (0, m) => Pm.sendQueue calls m
      | (_, m) => m

/-- What follows from a message: a list of the parameters is sent once it is requested. -/
def Pm.answer (m : Pm) (msg : PmMessage) : Pm :=
  match msg with
  | .paramRequestList => (m.messageHandler env msg).sendQueue env (paramCount env + 1)
  | _ => m.messageHandler env msg

/-! ### The law and its condition -/

/-- The parameters that a message is about. -/
def PmMessage.params (system : MavlinkSystem) : PmMessage → List ParamT
  | .paramRequestList => List.range (paramCount env)
  | .paramSet set =>
      if system.isTarget set.targetSystem set.targetComponent then
        [paramFind env set.paramId.name]
      else
        []
  | .paramRequestRead read =>
      if system.isTarget read.targetSystem read.targetComponent then
        if read.paramIndex = -1 then [paramFind env read.paramId.name]
        else [paramForIndex env read.paramIndex.toUInt16.toUInt32]
      else
        []

/-- The value of a parameter has room in the value field: it is no larger structure. -/
def Fits (param : ParamT) : Prop :=
  ∀ size, paramType env param = .struct size → size.val ≤ valueSize

/-- A store is another one with one scalar set: its entry is written, no other entry and none of
the structures is, and it reads the new value. -/
structure OnlySets (param : ParamT) (val : UInt32) (s t : Store) : Prop where
  written : Written param val false s t
  memory : t.memory = s.memory
  value : paramGet env param true t = some (env.endian.bytes32 val)

/-- The law for a message: what follows from it stays inside, and a PARAM_SET for this system that
names a scalar sets this parameter, and only this, to the value. -/
structure Bounded (m : Pm) (msg : PmMessage) : Prop where
  inside : ∀ a ∈ (({ m with accesses := [] } : Pm).answer env msg).accesses, a.Inside env
  sets : ∀ set, msg = .paramSet set →
    m.system.isTarget set.targetSystem set.targetComponent = true →
    Scalar env (paramFind env set.paramId.name) →
      OnlySets env (paramFind env set.paramId.name) set.paramValue m.store (m.answer env msg).store

/-! ### Sending -/

theorem lt_of_paramFind {name : List UInt8} (h : paramFind env name ≠ paramInvalid) :
    paramFind env name < paramCount env := by
  unfold paramFind at h ⊢
  cases hfind : env.table.info.findIdx? fun info => info.name = name with
  | none => simp [hfind] at h
  | some i => exact (List.findIdx?_eq_some_iff_findIdx_eq.mp hfind).1

theorem lt_of_paramForIndex {index : UInt32} (h : paramForIndex env index ≠ paramInvalid) :
    paramForIndex env index < paramCount env := by
  unfold paramForIndex at h ⊢
  split at h
  · next hlt => rwa [if_pos hlt]
  · exact absurd rfl h

/-- What sending a parameter accesses. -/
def sends (param : ParamT) : List PmAccess :=
  if param = paramInvalid then [] else [.entry param, .get param (paramSize env param)]

theorem sendParam_accesses (param : ParamT) (m : Pm) :
    (m.sendParam env param).2.accesses = m.accesses ++ sends env param := by
  unfold Pm.sendParam sends
  split
  · simp
  · simp [paramGet, Pm.note, Pm.send]

theorem sendParam_frame (param : ParamT) (m : Pm) :
    (m.sendParam env param).2.store = m.store ∧
      (m.sendParam env param).2.queueIndex = m.queueIndex := by
  unfold Pm.sendParam
  split
  · exact ⟨rfl, rfl⟩
  · exact ⟨rfl, rfl⟩

theorem paramSize_le_iff (param : ParamT) : paramSize env param ≤ valueSize ↔ Fits env param := by
  unfold paramSize Fits
  cases paramType env param <;> simp [valueSize]

/-- Sending stays inside exactly if the value has room. -/
theorem sends_inside_iff {param : ParamT} (h : param ≠ paramInvalid → param < paramCount env) :
    (∀ a ∈ sends env param, a.Inside env) ↔ Fits env param := by
  rw [← paramSize_le_iff]
  unfold sends
  split
  · next hinvalid =>
      subst hinvalid
      have hnone : env.table.info[paramInvalid]? = none :=
        List.getElem?_eq_none_iff.mpr env.table.fits
      simp [paramSize, paramType, hnone]
  · next hvalid => simp [PmAccess.Inside, h hvalid]

theorem searched_inside (name : List UInt8) : ∀ a ∈ searched env name, a.Inside env := by
  intro a ha
  obtain ⟨i, hi, rfl⟩ := List.mem_map.mp ha
  exact Nat.lt_of_lt_of_le (List.mem_range.mp hi) (Nat.min_le_right _ _)

/-- The queue sends the parameters from its index on. -/
theorem sendQueue_accesses (calls : Nat) (m : Pm) :
    (m.sendQueue env calls).accesses = m.accesses ++
      (List.range' m.queueIndex.toNat (min calls (paramCount env - m.queueIndex.toNat))).flatMap
        (sends env) := by
  induction calls generalizing m with
  | zero => simp [Pm.sendQueue]
  | succ calls ih =>
      by_cases hlt : m.queueIndex.toNat < paramCount env
      · have hnext : (m.queueIndex + 1).toNat = m.queueIndex.toNat + 1 := by
          have hfits := env.table.fits
          rw [UInt32.toNat_add]
          apply Nat.mod_eq_of_lt
          simp only [paramCount, paramInvalid, UInt32.reduceToNat] at *
          omega
        have hcalls : min (calls + 1) (paramCount env - m.queueIndex.toNat) =
            min calls (paramCount env - (m.queueIndex.toNat + 1)) + 1 := by omega
        have hindex : paramForIndex env m.queueIndex = m.queueIndex.toNat := if_pos hlt
        rw [Pm.sendQueue, Pm.queuedSend, if_pos hlt]
        simp only
        rw [ih]
        simp only [(sendParam_frame env _ m).2]
        rw [hnext, hcalls, List.range'_succ, List.flatMap_cons, hindex, sendParam_accesses,
          List.append_assoc]
      · have hnone : paramCount env - m.queueIndex.toNat = 0 := by omega
        rw [Pm.sendQueue, Pm.queuedSend, if_neg hlt, hnone]
        simp

/-! ### Setting -/

theorem set_inside_iff (param : ParamT) :
    (PmAccess.set param (paramSize env param)).Inside env ↔ Fits env param :=
  paramSize_le_iff env param

/-- Setting a parameter copies to it, or fails before that. -/
theorem setParam_accesses (param : ParamT) (set : SetMessage) (m : Pm) :
    (m.setParam env param set).accesses = m.accesses ++ [.entry param] ∨
      (m.setParam env param set).accesses =
        m.accesses ++ [.entry param, .set param (paramSize env param)] := by
  unfold Pm.setParam
  simp only
  split
  · exact .inr (by simp [Pm.note])
  · exact .inl rfl

/-- Setting a scalar sets it to the value that is transmitted. -/
theorem setParam_onlySets {param : ParamT} (hparam : Scalar env param) (set : SetMessage) {m : Pm}
    (hs : Sorted m.store) :
    OnlySets env param set.paramValue m.store (m.setParam env param set).store := by
  have hstore : (m.setParam env param set).store =
      (paramSetInternal env param (set.memory env m.stack) false m.store).2 := rfl
  have hword : env.endian.word32 ((set.memory env m.stack).take 4) = set.paramValue := by
    rw [SetMessage.memory, List.append_assoc, List.take_left' (Endian.bytes32_length _ _),
      Endian.word32_bytes32]
  have hends := paramSetInternal_ends env hs param (set.memory env m.stack) false
  rw [← hstore, (paramSetInternal_scalar hs hparam (set.memory env m.stack) false).1] at hends
  cases hends with
  | overwritten htype => exact absurd htype (hparam.ne_struct _)
  | allocated htype => exact absurd htype (hparam.ne_struct _)
  | scalar _ hmemory _ hwritten =>
      rw [hword] at hwritten
      refine ⟨hwritten, hmemory, ?_⟩
      rw [paramGet_scalar hparam, hwritten.entry]
      rfl

/-! ### Messages -/

theorem messageHandler_set {m : Pm} {set : SetMessage}
    (htarget : m.system.isTarget set.targetSystem set.targetComponent = true)
    (hparam : paramFind env set.paramId.name ≠ paramInvalid) :
    m.messageHandler env (.paramSet set) =
      ((m.note (searched env set.paramId.name)).setParam env (paramFind env set.paramId.name) set
        |>.sendParam env (paramFind env set.paramId.name)).2 := by
  simp only [Pm.messageHandler, if_pos htarget, if_neg hparam]

/-- The queue that a request for the list starts sends every parameter. -/
theorem requestList_inside_iff {m : Pm} (hnone : m.accesses = []) :
    (∀ a ∈ (m.answer env .paramRequestList).accesses, a.Inside env) ↔
      ∀ param ∈ PmMessage.paramRequestList.params env m.system, Fits env param := by
  have haccesses : (m.answer env .paramRequestList).accesses =
      (List.range (paramCount env)).flatMap (sends env) := by
    rw [Pm.answer, sendQueue_accesses]
    simp [Pm.messageHandler, Pm.startQueuedSend, Pm.send, hnone, List.range_eq_range']
  rw [haccesses, PmMessage.params]
  constructor
  · intro hinside param hparam
    refine (sends_inside_iff env fun _ => List.mem_range.mp hparam).mp fun a ha => ?_
    exact hinside a (List.mem_flatMap.mpr ⟨param, hparam, ha⟩)
  · intro hfits a ha
    obtain ⟨param, hparam, ha⟩ := List.mem_flatMap.mp ha
    exact (sends_inside_iff env fun _ => List.mem_range.mp hparam).mpr (hfits param hparam) a ha

/-- A PARAM_SET for this system copies to the parameter that it names, if there is one, and sends
it. -/
theorem paramSet_inside_iff {m : Pm} (hnone : m.accesses = []) (set : SetMessage) :
    (∀ a ∈ (m.answer env (.paramSet set)).accesses, a.Inside env) ↔
      ∀ param ∈ (PmMessage.paramSet set).params env m.system, Fits env param := by
  rw [PmMessage.params]
  by_cases htarget : m.system.isTarget set.targetSystem set.targetComponent = true
  · have hsends := @sends_inside_iff env (paramFind env set.paramId.name)
      (lt_of_paramFind env)
    have hsearched := searched_inside env set.paramId.name
    rw [if_pos htarget]
    simp only [List.mem_singleton, forall_eq]
    rw [← hsends]
    by_cases hparam : paramFind env set.paramId.name = paramInvalid
    · simp only [Pm.answer, Pm.messageHandler, if_pos htarget, if_pos hparam, Pm.note, Pm.send,
        hnone, sends, List.nil_append]
      simpa using hsearched
    · have hentry : PmAccess.Inside env (.entry (paramFind env set.paramId.name)) :=
        lt_of_paramFind env hparam
      have hcopy := set_inside_iff env (paramFind env set.paramId.name)
      simp only [Pm.answer]
      rw [messageHandler_set env htarget hparam, sendParam_accesses, hsends]
      -- the copy to the parameter, if there is one, is as large as the one back
      obtain haccesses | haccesses := setParam_accesses env (paramFind env set.paramId.name) set
        (m.note (searched env set.paramId.name))
      · rw [haccesses, Pm.note, hnone]
        simp only [List.nil_append, List.forall_mem_append, List.forall_mem_singleton, hsends]
        exact ⟨fun h => h.2, fun h => ⟨⟨hsearched, hentry⟩, h⟩⟩
      · rw [haccesses, Pm.note, hnone]
        simp only [List.nil_append, List.forall_mem_append, List.forall_mem_cons, hsends, hcopy]
        exact ⟨fun h => h.2, fun h => ⟨⟨hsearched, hentry, h, by simp⟩, h⟩⟩
  · rw [if_neg htarget]
    simp [Pm.answer, Pm.messageHandler, htarget, hnone]

/-- A PARAM_REQUEST_READ for this system sends the parameter that it names, or that it has the index
of. -/
theorem requestRead_inside_iff {m : Pm} (hnone : m.accesses = []) (read : RequestRead) :
    (∀ a ∈ (m.answer env (.paramRequestRead read)).accesses, a.Inside env) ↔
      ∀ param ∈ (PmMessage.paramRequestRead read).params env m.system, Fits env param := by
  rw [PmMessage.params]
  by_cases htarget : m.system.isTarget read.targetSystem read.targetComponent = true
  · rw [if_pos htarget]
    simp only [Pm.answer, Pm.messageHandler, if_pos htarget]
    by_cases hindex : read.paramIndex = -1
    · rw [if_pos hindex, if_pos hindex, Pm.sendParamForName, sendParam_accesses, Pm.note, hnone]
      simp only [List.nil_append, List.forall_mem_append, List.mem_singleton, forall_eq,
        sends_inside_iff env (lt_of_paramFind env)]
      exact ⟨fun h => h.2, fun h => ⟨searched_inside env read.paramId.name, h⟩⟩
    · rw [if_neg hindex, if_neg hindex, Pm.sendParamForIndex, sendParam_accesses, hnone]
      simp only [List.nil_append, List.mem_singleton, forall_eq,
        sends_inside_iff env (lt_of_paramForIndex env)]
  · rw [if_neg htarget]
    simp [Pm.answer, Pm.messageHandler, htarget, hnone]

/-- What follows from a message stays inside exactly if the parameters that it is about have
room. -/
theorem answer_inside_iff {m : Pm} (hnone : m.accesses = []) (msg : PmMessage) :
    (∀ a ∈ (m.answer env msg).accesses, a.Inside env) ↔
      ∀ param ∈ msg.params env m.system, Fits env param := by
  cases msg with
  | paramRequestList => exact requestList_inside_iff env hnone
  | paramSet set => exact paramSet_inside_iff env hnone set
  | paramRequestRead read => exact requestRead_inside_iff env hnone read

/-- **Access to parameters is bounded** exactly for the messages that are not about a structure of
more than four bytes. In any case, a PARAM_SET sets a scalar that it names. -/
theorem bounded_iff {m : Pm} (hs : Sorted m.store) (msg : PmMessage) :
    Bounded env m msg ↔ ∀ param ∈ msg.params env m.system, Fits env param := by
  constructor
  · rintro ⟨hinside, -⟩
    exact (answer_inside_iff env (m := { m with accesses := [] }) rfl msg).mp hinside
  · intro hfits
    refine ⟨(answer_inside_iff env (m := { m with accesses := [] }) rfl msg).mpr hfits, ?_⟩
    rintro set rfl htarget hparam
    have hvalid : paramFind env set.paramId.name ≠ paramInvalid := by
      intro hinvalid
      have hlt : paramFind env set.paramId.name < paramCount env := of_decide_eq_true hparam.inRange
      rw [hinvalid] at hlt
      exact absurd hlt (Nat.not_lt.mpr env.table.fits)
    simp only [Pm.answer]
    rw [messageHandler_set env htarget hvalid, (sendParam_frame env _ _).1]
    exact setParam_onlySets env hparam set hs

end

/-- Two parameters: an integer, and a structure of twelve bytes. -/
def linkEnv : Env where
  table :=
    { info :=
        [{ name := [80], type := .int32, val := 0, noNul := by decide },
          { name := [81], type := .struct ⟨12, by decide⟩, val := 0, noNul := by decide }]
      fits := by decide }
  endian := .little
  widen _ := 0
  narrow _ := 0
  malloc _ := none
  behind _ _ := []
  write _ _ := true

/-- The interface before any message. -/
def startPm : Pm where
  system := { sysid := 100, compid := 50 }
  store := { values := none, memory := fun _ => [], mallocs := 0, changes := 0 }
  queueIndex := 0
  uninitialized := 0
  stack := []
  sent := []
  accesses := []

/-- A name of one letter. -/
def letterId (letter : UInt8) : ParamId where
  bytes := letter :: List.replicate 15 0
  length := by simp [paramIdLen]

/-- A PARAM_SET of a parameter with such a name. -/
def setLetter (letter : UInt8) : PmMessage :=
  .paramSet
    { paramValue := 7, targetSystem := 100, targetComponent := 50, paramId := letterId letter
      paramType := 6 }

theorem sorted_startPm : Sorted startPm.store := by
  simp [Sorted, SortedByKey, startPm, Store.array]

/-- The integer can be set. -/
theorem bounded_integer : Bounded linkEnv startPm (setLetter 80) := by
  refine (bounded_iff linkEnv sorted_startPm (setLetter 80)).mpr ?_
  have hparams : (setLetter 80).params linkEnv startPm.system = [0] := by decide
  rw [hparams]
  simp [Fits, paramType, linkEnv]

/-- A list sends twelve bytes of the structure. -/
theorem list_copies_structure :
    ¬ ∀ (env : Env) (m : Pm) (msg : PmMessage), Sorted m.store → Bounded env m msg := by
  intro hbounded
  have hinside := (hbounded linkEnv startPm .paramRequestList sorted_startPm).inside
  exact absurd (hinside (.get 1 12) (by decide)) (by simp [PmAccess.Inside, valueSize])

end Px4Firmware.Mavlink
