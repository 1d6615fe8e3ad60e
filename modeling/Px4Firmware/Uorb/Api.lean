import Px4Firmware.Lib.Hoare
import Px4Firmware.Uorb.Node

/-!
# Px4Firmware.Uorb.Api

The device files of uORB and the library functions on top of them (`orb_advertise`,
`orb_publish`, `orb_subscribe`, `orb_copy`, `orb_check` and the rest of `uORB/uORB.cpp`).

The state is the registered device files, by their path, and the open files. A pointer to a
node, such as an advertiser's handle, is the path of the node: nodes are never removed. What
`open`, `close`, `read` and `ioctl` do before and after they call the driver is that of NuttX.
-/

namespace Px4Firmware.Uorb

open Px4Firmware.Lib

/-- The path of a device file. -/
abbrev Path := String

/-- A registered device: the master control device or a topic. -/
inductive Inode
  | master
  | node (n : OrbDevNode)

/-- `struct file`. The private data of a subscriber's file is its `SubscriberData`. -/
structure File where
  path : Path
  oflags : OFlags
  priv : Option SubscriberData

/-- The devices and the open files. -/
structure Devices where
  inodes : Path → Option Inode
  files : Fd → Option File
  nextFd : Fd

/-- A program on the devices and files. An error leaves the state as it is by then. -/
abbrev Exec := EStateM Errno Devices

/-- The result of a driver function. -/
def ofExcept {α : Type} : Except Errno α → Exec α
  | .ok a => pure a
  | .error e => throw e

/-- Fail with this error unless the condition holds. -/
def require (c : Bool) (e : Errno) : Exec Unit := if c then pure () else throw e

/-! ### Device files -/

/-- `enum Flavor`. -/
inductive Flavor
  | pubsub
  | param

/-- `TOPIC_MASTER_DEVICE_PATH`. -/
def topicMasterDevicePath : Path := "/obj/_obj_"

/-- `orb_maxpath`. -/
def orbMaxpath : Nat := 64

/-- `node_mkpath`. -/
def nodeMkpath (f : Flavor) (metadata : OrbMetadata) : Except Errno Path :=
  let path := match f with
    | .pubsub => "/obj/" ++ metadata.oName
    | .param => "/param/" ++ metadata.oName
  if orbMaxpath ≤ path.utf8ByteSize then .error .enametoolong else .ok path

namespace Devices

/-- The devices after `uorb start`. -/
def started : Devices where
  inodes := Function.update (fun _ => none) topicMasterDevicePath (some .master)
  files _ := none
  nextFd := 0

/-- Register a topic, or change it. -/
def setNode (path : Path) (n : OrbDevNode) (s : Devices) : Devices :=
  { s with inodes := Function.update s.inodes path (some (.node n)) }

/-- Give an open file other private data. -/
def setPriv (fd : Fd) (file : File) (sd : SubscriberData) (s : Devices) : Devices :=
  { s with files := Function.update s.files fd (some { file with priv := some sd }) }

/-- A new open file. -/
def addFile (file : File) (s : Devices) : Devices :=
  { s with files := Function.update s.files s.nextFd (some file), nextFd := s.nextFd + 1 }

/-- Forget an open file. -/
def removeFile (fd : Fd) (s : Devices) : Devices :=
  { s with files := Function.update s.files fd none }

end Devices

/-- The topic at a path. -/
def getNode (path : Path) : Exec OrbDevNode := do
  match (← get).inodes path with
  | some (.node n) => return n
  | _ => throw .fault

/-- `filp_to_sd`. The file of a publisher has no private data. -/
def filpToSd (file : File) : Exec SubscriberData :=
  match file.priv with
  | some sd => pure sd
  | none => throw .fault

/-! ### `poll_notify` -/

/-- `ORBDevNode::poll_notify_one`, for the files and the waiter. -/
def pollNotifyOne (now : UInt64) (generation : UInt32) (fds : PollFd)
    (files : Fd → Option File) : PollFd × (Fd → Option File) :=
  match files fds.priv with
  | some { path, oflags, priv := some sd } =>
      let (updated, sd) := sd.appearsUpdated now generation
      (if updated then { fds with revents := fds.revents || fds.events } else fds,
        Function.update files fds.priv (some { path, oflags, priv := some sd }))
  -- polling ends before the file is closed
  | _ => (fds, files)

/-- The loop of `CDev::poll_notify`. -/
def pollNotifyAll (now : UInt64) (generation : UInt32) :
    List (Option PollFd) → (Fd → Option File) → List (Option PollFd) × (Fd → Option File)
  | [], files => ([], files)
  | none :: slots, files =>
      let (slots, files) := pollNotifyAll now generation slots files
      (none :: slots, files)
  | some fds :: slots, files =>
      let (fds, files) := pollNotifyOne now generation fds files
      let (slots, files) := pollNotifyAll now generation slots files
      (some fds :: slots, files)

/-- `CDev::poll_notify`, on the node at a path. -/
def pollNotify (ctx : Ctx) (path : Path) : Exec Unit := do
  let n ← getNode path
  let (pollset, files) := pollNotifyAll ctx.now n.generation n.pollset (← get).files
  modify fun s => { s.setNode path { n with pollset := pollset } with files := files }

/-! ### The file operations -/

/-- `open`. -/
def openFile (ctx : Ctx) (retry : Bool) (path : Path) (oflags : OFlags) : Exec Fd := do
  match (← get).inodes path with
  | none => throw .enoent
  | some .master =>
      require (ctx.alloc (.file retry)) .emfile
      modifyGet fun s => (s.nextFd, s.addFile { path, oflags, priv := none })
  | some (.node n) =>
      require (ctx.alloc (.file retry)) .emfile
      let (n, priv) ← ofExcept (n.open ctx retry oflags)
      modifyGet fun s => (s.nextFd, (s.setNode path n).addFile { path, oflags, priv })

/-- `close`. -/
def closeFile (ctx : Ctx) (fd : Fd) : Exec Unit := do
  match (← get).files fd with
  | none => throw .ebadf
  | some file =>
      modify (Devices.removeFile fd)
      match (← get).inodes file.path with
      | some (.node n) =>
          let (ret, n) := n.close ctx
          modify (Devices.setNode file.path n)
          ofExcept ret
      | _ => pure ()

/-- `close`, where the result is not looked at. -/
def closeQuietly (ctx : Ctx) (fd : Fd) : Exec Unit :=
  tryCatch (closeFile ctx fd) fun _ => pure ()

/-- `read`: the result and what is copied into the buffer. -/
def readFile (fd : Fd) (wanted : Bool) (buflen : Nat) : Exec (Nat × Option (List UInt8)) := do
  match (← get).files fd with
  | none => throw .ebadf
  | some file =>
      require (file.oflags = .rdonly) .ebadf
      match (← get).inodes file.path with
      | some (.node n) =>
          let sd ← filpToSd file
          let (ret, sd) := n.read wanted buflen sd
          modify (Devices.setPriv fd file sd)
          ofExcept ret
      | _ => throw .enosys

/-- `write` on a node, with no file. -/
def write (ctx : Ctx) (path : Path) (buffer : List UInt8) : Exec Nat := do
  let n ← getNode path
  let (ret, n) := n.write ctx buffer
  modify (Devices.setNode path n)
  let len ← ofExcept ret
  pollNotify ctx path
  return len

/-- `ioctl`, with what the driver does for a topic. Nothing is done, and no error is
reported, for a file that is not open. -/
def ioctl {α : Type} (fd : Fd) (driver : File → OrbDevNode → Exec α) : Exec (Option α) := do
  match (← get).files fd with
  | none => return none
  | some file =>
      match (← get).inodes file.path with
      | some (.node n) => some <$> driver file n
      | _ => throw .enotty

/-- `ORBIOCLASTUPDATE`. -/
def orbioclastupdate (fd : Fd) : Exec (Option UInt64) :=
  ioctl fd fun _ n => pure n.lastUpdate

/-- `ORBIOCUPDATED`. -/
def orbiocupdated (ctx : Ctx) (fd : Fd) : Exec (Option Bool) :=
  ioctl fd fun file n => do
    let sd ← filpToSd file
    let (updated, sd) := sd.appearsUpdated ctx.now n.generation
    modify (Devices.setPriv fd file sd)
    return updated

/-- `ORBIOCSETINTERVAL`. -/
def orbiocsetinterval (fd : Fd) (arg : UInt32) : Exec (Option Unit) :=
  ioctl fd fun file _ => do
    let sd ← filpToSd file
    modify (Devices.setPriv fd file { sd with updateInterval := arg })

/-- `ORBIOCGADVERTISER`. -/
def orbiocgadvertiser (fd : Fd) : Exec (Option Path) :=
  ioctl fd fun file _ => pure file.path

/-- `ORBIOCADVERTISE`: `ORBDevMaster::ioctl`. -/
def orbiocadvertise (ctx : Ctx) (metadata : OrbMetadata) : Exec Unit := do
  let path ← ofExcept (nodeMkpath .pubsub metadata)
  require (ctx.alloc .name) .enomem
  require (ctx.alloc .node) .enomem
  -- `init` registers the device
  require ((← get).inodes path).isNone .eexist
  require (ctx.alloc .inode) .enomem
  modify (Devices.setNode path (.new metadata))

/-- `CDev::poll`: a waiter is stored and looked at at once, or it is removed. -/
def poll (ctx : Ctx) (fd : Fd) (id : Nat) (events setup : Bool) : Exec (Option Unit) :=
  ioctl fd fun file n => do
    if setup then
      let sd ← filpToSd file
      let (updated, sd) := sd.appearsUpdated ctx.now n.generation
      match OrbDevNode.storePollWaiter { id, priv := fd, events, revents := events && updated }
          n.pollset with
      | none => throw .enomem
      | some pollset =>
          modify fun s => (s.setNode file.path { n with pollset := pollset }).setPriv fd file sd
    else
      match OrbDevNode.removePollWaiter id n.pollset with
      | none => throw .einval
      | some pollset => modify (Devices.setNode file.path { n with pollset := pollset })

/-- The interval timer of a subscriber expires: `hrt_call_invoke` clears the deadline and
calls `ORBDevNode::update_deferred`. -/
def updateDeferred (ctx : Ctx) (fd : Fd) : Exec Unit := do
  match (← get).files fd with
  | none => throw .fault
  | some file =>
      let sd ← filpToSd file
      require (sd.updateCall ≠ 0) .fault
      modify (Devices.setPriv fd file { sd with updateCall := 0 })
      pollNotify ctx file.path

/-! ### The library functions -/

/-- `node_advertise`. It is no error if the node exists already. The file of the master device
is closed again at once. -/
def nodeAdvertise (ctx : Ctx) (metadata : OrbMetadata) : Exec Unit := do
  require ((← get).inodes topicMasterDevicePath).isSome .enoent
  require (ctx.alloc .masterFile) .emfile
  tryCatch (orbiocadvertise ctx metadata) fun errno =>
    if errno = .eexist then pure () else throw errno

/-- `node_open`. -/
def nodeOpen (ctx : Ctx) (f : Flavor) (metadata : Option OrbMetadata) (data advertiser : Bool) :
    Exec Fd := do
  match metadata with
  | none => throw .enoent
  | some metadata =>
      require (!(advertiser && !data)) .einval
      let path ← ofExcept (nodeMkpath f metadata)
      let oflags : OFlags := if advertiser then .wronly else .rdonly
      tryCatch (openFile ctx false path oflags) fun _ =>
        tryCatch (nodeAdvertise ctx metadata >>= fun _ => openFile ctx true path oflags) fun _ =>
          throw .eio

/-- `orb_publish`: `ORBDevNode::publish`. -/
def orbPublish (ctx : Ctx) (metadata : OrbMetadata) (handle : Path) (data : TopicData metadata) :
    Exec Unit := do
  let n ← getNode handle
  require (n.metadata = metadata) .einval
  let ret ← tryCatch (write ctx handle data.val) fun _ => throw .unchanged
  require (ret = metadata.oSize) .eio

/-- `orb_advertise`. The file of the publisher is only open while its handle is asked for. -/
def orbAdvertise (ctx : Ctx) (metadata : OrbMetadata) (data : Option (TopicData metadata)) :
    Exec Path := do
  let fd ← nodeOpen ctx .pubsub (some metadata) data.isSome true
  let advertiser ← tryCatch (orbiocgadvertiser fd) fun errno => do
    closeQuietly ctx fd
    throw errno
  closeQuietly ctx fd
  match advertiser, data with
  | some advertiser, some data =>
      orbPublish ctx metadata advertiser data
      return advertiser
  | _, _ => throw .fault

/-- `orb_subscribe`. -/
def orbSubscribe (ctx : Ctx) (metadata : Option OrbMetadata) : Exec Fd :=
  nodeOpen ctx .pubsub metadata false false

/-- `orb_unsubscribe`. -/
def orbUnsubscribe (ctx : Ctx) (handle : Fd) : Exec Unit := closeFile ctx handle

/-- `orb_copy`: what is copied into the buffer. -/
def orbCopy (metadata : OrbMetadata) (handle : Fd) (wanted : Bool) :
    Exec (Option (List UInt8)) := do
  let (ret, copied) ← readFile handle wanted metadata.oSize
  require (ret = metadata.oSize) .eio
  return copied

/-- `orb_check`. -/
def orbCheck (ctx : Ctx) (handle : Fd) : Exec (Option Bool) := orbiocupdated ctx handle

/-- `orb_stat`. -/
def orbStat (handle : Fd) : Exec (Option UInt64) := orbioclastupdate handle

/-- `orb_set_interval`, in milliseconds. -/
def orbSetInterval (handle : Fd) (interval : UInt32) : Exec (Option Unit) :=
  orbiocsetinterval handle (interval * 1000)

end Px4Firmware.Uorb
