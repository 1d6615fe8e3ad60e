import Mathlib.Logic.Function.Basic
import Mathlib.Tactic.SplitIfs

/-!
# Px4Firmware.Uorb.Node

One topic of `uORB/uORB.cpp`: the device node (`ORBDevNode` with what it has of `CDev`),
what a subscriber's file keeps, and the file operations on them. The functions take the
node and, where they use it, the data of the subscriber, and return them changed; finding
both from a file descriptor is left to `Uorb.Api`.
-/

namespace Px4Firmware.Uorb

/-- Error codes. `unchanged` is `ERROR` with `errno` left as it was; `fault` is no error code:
the code would follow a pointer that leads nowhere. -/
inductive Errno
  | ebadf | ebusy | eexist | einval | eio
  | emfile | enametoolong | enoent | enomem | enosys | enotty
  | unchanged
  | fault
deriving DecidableEq

/-- `struct orb_metadata`. A topic is identified by its name. -/
structure OrbMetadata where
  oName : String
  oSize : Nat
deriving DecidableEq

/-- A topic structure in the memory of a caller: `o_size` bytes. -/
def TopicData (metadata : OrbMetadata) : Type :=
  { bytes : List UInt8 // bytes.length = metadata.oSize }

/-- The open file that a file descriptor stands for. Descriptors are not used again. -/
abbrev Fd := Nat

/-- The access a file is opened for. -/
inductive OFlags
  | none
  | rdonly
  | wronly
deriving DecidableEq

/-- What an operation can fail to get. `retry` tells the second `open` of `node_open` from
the first. -/
inductive Alloc
  | file (retry : Bool)
  | subscriberData (retry : Bool)
  | masterFile
  | name
  | node
  | inode
  | data
deriving DecidableEq

/-- The surroundings of an operation: who runs it and when, what can be allocated, and what
newly allocated memory holds. -/
structure Ctx where
  pid : Nat
  interruptContext : Bool
  now : UInt64
  alloc : Alloc → Bool
  fresh : Nat → UInt8

/-! ### Subscribers -/

/-- `ORBDevNode::SubscriberData`. Of `update_call`, the deadline is kept, which is zero when
the call is not pending. -/
structure SubscriberData where
  generation : UInt32
  updateInterval : UInt32
  updateCall : UInt64
  updateReported : Bool
deriving DecidableEq

namespace SubscriberData

/-- `hrt_called(&sd->update_call)`. -/
def hrtCalled (sd : SubscriberData) : Bool := sd.updateCall = 0

/-- `ORBDevNode::appears_updated`, for the current generation of the node. -/
def appearsUpdated (now : UInt64) (generation : UInt32) (sd : SubscriberData) :
    Bool × SubscriberData :=
  if sd.generation = generation then
    (false, sd)
  else if sd.updateInterval = 0 then
    (true, sd)
  else if sd.updateReported then
    (true, sd)
  else if sd.hrtCalled then
    -- the interval timer is started again
    (true, { sd with
      updateCall := now + sd.updateInterval.toUInt64
      updateReported := true })
  else
    (false, sd)

/-- Checking does not collect the update. -/
@[simp] theorem appearsUpdated_generation (now : UInt64) (generation : UInt32)
    (sd : SubscriberData) :
    (sd.appearsUpdated now generation).2.generation = sd.generation := by
  unfold appearsUpdated
  split_ifs <;> rfl

@[simp] theorem appearsUpdated_interval (now : UInt64) (generation : UInt32)
    (sd : SubscriberData) :
    (sd.appearsUpdated now generation).2.updateInterval = sd.updateInterval := by
  unfold appearsUpdated
  split_ifs <;> rfl

/-- Checking changes nothing, or starts the interval timer and reports the update. -/
theorem appearsUpdated_cases (now : UInt64) (generation : UInt32) (sd : SubscriberData) :
    (sd.appearsUpdated now generation).2 = sd ∨
      sd.generation ≠ generation ∧ sd.updateReported = false ∧ sd.updateCall = 0 ∧
        (sd.appearsUpdated now generation).2 = { sd with
          updateCall := now + sd.updateInterval.toUInt64
          updateReported := true } := by
  unfold appearsUpdated
  split_ifs with hgeneration hunlimited hreported hcalled
  · exact .inl rfl
  · exact .inl rfl
  · exact .inl rfl
  · exact .inr ⟨hgeneration, Bool.eq_false_iff.mpr hreported, of_decide_eq_true hcalled, rfl⟩
  · exact .inl rfl

/-- Checking again says the same, and does nothing. -/
theorem appearsUpdated_twice (now : UInt64) (generation : UInt32) (sd : SubscriberData) :
    (sd.appearsUpdated now generation).2.appearsUpdated now generation =
      sd.appearsUpdated now generation := by
  by_cases hgeneration : sd.generation = generation
  · simp [appearsUpdated, hgeneration]
  by_cases hunlimited : sd.updateInterval = 0
  · simp [appearsUpdated, hgeneration, hunlimited]
  by_cases hreported : sd.updateReported = true
  · simp [appearsUpdated, hgeneration, hunlimited, hreported]
  by_cases hcalled : sd.hrtCalled = true
  · simp [appearsUpdated, hgeneration, hunlimited, hreported, hcalled]
  · simp [appearsUpdated, hgeneration, hunlimited, hreported, hcalled]

/-- Without a rate limit, checking compares the generations and changes nothing. -/
theorem appearsUpdated_unlimited {sd : SubscriberData} (h : sd.updateInterval = 0) (now : UInt64)
    (generation : UInt32) :
    sd.appearsUpdated now generation = (decide (sd.generation ≠ generation), sd) := by
  unfold appearsUpdated
  by_cases hgen : sd.generation = generation
  · simp [hgen]
  · simp [hgen, h]

end SubscriberData

/-! ### The node -/

/-- `struct pollfd`, as far as it is used: the file it is about, whether `POLLIN` is asked for
and whether it is reported. -/
structure PollFd where
  id : Nat
  priv : Fd
  events : Bool
  revents : Bool
deriving DecidableEq

/-- `CDev::_max_pollwaiters`. -/
def maxPollwaiters : Nat := 8

/-- `ORBDevNode`. -/
structure OrbDevNode where
  metadata : OrbMetadata
  data : Option (List UInt8)
  lastUpdate : UInt64
  generation : UInt32
  publisher : Nat
  openCount : Nat
  pollset : List (Option PollFd)
deriving DecidableEq

namespace OrbDevNode

/-- The constructor. -/
def new (metadata : OrbMetadata) : OrbDevNode where
  metadata := metadata
  data := none
  lastUpdate := 0
  generation := 0
  publisher := 0
  openCount := 0
  pollset := List.replicate maxPollwaiters none

/-- `CDev::open`. `open_first` never declines. -/
def cdevOpen (node : OrbDevNode) : OrbDevNode := { node with openCount := node.openCount + 1 }

/-- `CDev::close`. -/
def cdevClose (node : OrbDevNode) : Except Errno Unit × OrbDevNode :=
  if 0 < node.openCount then
    (.ok (), { node with openCount := node.openCount - 1 })
  else
    (.error .ebadf, node)

/-- `ORBDevNode::open`: the node and the private data of the new file. -/
def «open» (ctx : Ctx) (retry : Bool) (oflags : OFlags) (node : OrbDevNode) :
    Except Errno (OrbDevNode × Option SubscriberData) :=
  match oflags with
  | .wronly =>
      if node.publisher = 0 then
        .ok (cdevOpen { node with publisher := ctx.pid }, none)
      else
        .error .ebusy
  | .rdonly =>
      if ctx.alloc (.subscriberData retry) then
        .ok (cdevOpen node, some
          { generation := node.generation
            updateInterval := 0
            updateCall := 0
            updateReported := false })
      else
        .error .enomem
  | .none => .error .einval

/-- `ORBDevNode::close`. The data of a subscriber goes with its file. -/
def close (ctx : Ctx) (node : OrbDevNode) : Except Errno Unit × OrbDevNode :=
  cdevClose (if ctx.pid = node.publisher then { node with publisher := 0 } else node)

/-- `ORBDevNode::read`: the result, what is copied into the buffer, and the data of the
subscriber. `wanted` says that the buffer is not null. -/
def read (wanted : Bool) (buflen : Nat) (node : OrbDevNode) (sd : SubscriberData) :
    Except Errno (Nat × Option (List UInt8)) × SubscriberData :=
  match node.data with
  | none => (.ok (0, none), sd)
  | some data =>
      if buflen ≠ node.metadata.oSize then
        (.error .eio, sd)
      else
        (.ok (node.metadata.oSize, if wanted then some data else none),
          { sd with generation := node.generation, updateReported := false })

/-- The allocation at the start of `ORBDevNode::write`. Interrupt handlers do not allocate. -/
def allocate (ctx : Ctx) (node : OrbDevNode) : OrbDevNode :=
  match node.data with
  | some _ => node
  | none =>
      if !ctx.interruptContext && ctx.alloc .data then
        { node with data := some ((List.range node.metadata.oSize).map ctx.fresh) }
      else
        node

/-- `ORBDevNode::write` up to the notification of the poll waiters. The buffer is as long as
`buflen` says. -/
def write (ctx : Ctx) (buffer : List UInt8) (node : OrbDevNode) :
    Except Errno Nat × OrbDevNode :=
  let node := node.allocate ctx
  if node.data = none then
    (.error .enomem, node)
  else if node.metadata.oSize ≠ buffer.length then
    (.error .eio, node)
  else
    (.ok node.metadata.oSize,
      { node with
        data := some buffer
        lastUpdate := ctx.now
        generation := node.generation + 1 })

/-! ### Poll waiters -/

/-- `CDev::store_poll_waiter`: the first free slot is taken. -/
def storePollWaiter (fds : PollFd) : List (Option PollFd) → Option (List (Option PollFd))
  | [] => none
  | none :: slots => some (some fds :: slots)
  | some other :: slots => (storePollWaiter fds slots).map (some other :: ·)

/-- `CDev::remove_poll_waiter`: the first slot with this waiter is freed. -/
def removePollWaiter (id : Nat) : List (Option PollFd) → Option (List (Option PollFd))
  | [] => none
  | none :: slots => (removePollWaiter id slots).map (none :: ·)
  | some other :: slots =>
      if other.id = id then some (none :: slots)
      else (removePollWaiter id slots).map (some other :: ·)

/-! ### What the operations leave alone -/

/-- Nothing that a subscriber can see of the topic is different. -/
structure Same (node node' : OrbDevNode) : Prop where
  metadata : node'.metadata = node.metadata
  generation : node'.generation = node.generation
  data : ∀ d, node.data = some d → node'.data = some d

theorem Same.refl (node : OrbDevNode) : node.Same node := ⟨rfl, rfl, fun _ h => h⟩

theorem Same.trans {a b c : OrbDevNode} (h : a.Same b) (h' : b.Same c) : a.Same c :=
  ⟨h'.metadata.trans h.metadata, h'.generation.trans h.generation,
    fun d hd => h'.data d (h.data d hd)⟩

theorem close_same (ctx : Ctx) (node : OrbDevNode) : node.Same (node.close ctx).2 := by
  unfold close cdevClose
  split_ifs <;> exact ⟨rfl, rfl, fun _ h => h⟩

theorem allocate_same (ctx : Ctx) (node : OrbDevNode) : node.Same (node.allocate ctx) := by
  unfold allocate
  cases hdata : node.data with
  | some d => exact .refl node
  | none =>
      split_ifs
      · exact ⟨rfl, rfl, fun d hd => by simp [hdata] at hd⟩
      · exact .refl node

/-- A new subscriber has seen everything there is. -/
theorem open_ok {ctx : Ctx} {retry : Bool} {oflags : OFlags} {node node' : OrbDevNode}
    {priv : Option SubscriberData}
    (h : node.open ctx retry oflags = .ok (node', priv)) :
    node.Same node' ∧ (oflags = .rdonly ∨ priv = none) ∧
      ∀ sd, priv = some sd → sd.generation = node.generation := by
  unfold OrbDevNode.open at h
  cases oflags with
  | none => simp at h
  | wronly =>
      simp only at h
      split_ifs at h
      simp only [Except.ok.injEq, Prod.mk.injEq] at h
      obtain ⟨rfl, rfl⟩ := h
      exact ⟨⟨rfl, rfl, fun _ h => h⟩, .inr rfl, nofun⟩
  | rdonly =>
      simp only at h
      split_ifs at h
      simp only [Except.ok.injEq, Prod.mk.injEq] at h
      obtain ⟨rfl, rfl⟩ := h
      refine ⟨⟨rfl, rfl, fun _ h => h⟩, .inl rfl, ?_⟩
      rintro sd ⟨⟩
      rfl

/-- A failed write leaves the topic as it is for its subscribers. -/
theorem write_error {ctx : Ctx} {buffer : List UInt8} {node node' : OrbDevNode} {e : Errno}
    (h : node.write ctx buffer = (.error e, node')) : node.Same node' := by
  unfold write at h
  simp only at h
  split_ifs at h
  · obtain ⟨-, rfl⟩ := Prod.mk.inj h
    exact allocate_same ctx node
  · obtain ⟨-, rfl⟩ := Prod.mk.inj h
    exact allocate_same ctx node
  · exact nomatch (Prod.mk.inj h).1

/-- A write that succeeds is one new generation with the data written. -/
theorem write_ok {ctx : Ctx} {buffer : List UInt8} {node node' : OrbDevNode} {n : Nat}
    (h : node.write ctx buffer = (.ok n, node')) :
    n = node.metadata.oSize ∧ node'.metadata = node.metadata ∧ node'.data = some buffer ∧
      node'.generation = node.generation + 1 := by
  have hsame := allocate_same ctx node
  unfold write at h
  simp only at h
  split_ifs at h
  · exact nomatch (Prod.mk.inj h).1
  · exact nomatch (Prod.mk.inj h).1
  · obtain ⟨hn, rfl⟩ := Prod.mk.inj h
    cases hn
    exact ⟨congrArg OrbMetadata.oSize hsame.metadata, hsame.metadata, rfl,
      congrArg (· + 1) hsame.generation⟩

/-- A read of what is there returns it and marks it as seen. -/
theorem read_of_data {node : OrbDevNode} {data : List UInt8} (h : node.data = some data)
    (wanted : Bool) (sd : SubscriberData) :
    node.read wanted node.metadata.oSize sd =
      (.ok (node.metadata.oSize, if wanted then some data else none),
        { sd with generation := node.generation, updateReported := false }) := by
  unfold read
  simp [h]

/-- A read either leaves the subscriber where it is, and then it fails or finds nothing, or
moves it to the generation of the node. -/
theorem read_generation (wanted : Bool) (buflen : Nat) (node : OrbDevNode) (sd : SubscriberData) :
    (node.read wanted buflen sd).2.generation = sd.generation ∧
        ((∃ e, (node.read wanted buflen sd).1 = .error e) ∨ node.data = none) ∨
      (node.read wanted buflen sd).2.generation = node.generation ∧
        ∃ copied, (node.read wanted buflen sd).1 = .ok (buflen, copied) := by
  unfold read
  cases hdata : node.data with
  | none => exact .inl ⟨rfl, .inr rfl⟩
  | some data =>
      by_cases hlen : buflen = node.metadata.oSize
      · simp [hlen]
      · simp [hlen]

/-- A read leaves the interval timer alone. -/
theorem read_updateCall (wanted : Bool) (buflen : Nat) (node : OrbDevNode) (sd : SubscriberData) :
    (node.read wanted buflen sd).2.updateCall = sd.updateCall := by
  unfold read
  cases node.data with
  | none => rfl
  | some data =>
      by_cases hlen : buflen = node.metadata.oSize
      · simp [hlen]
      · simp [hlen]

end OrbDevNode

end Px4Firmware.Uorb
