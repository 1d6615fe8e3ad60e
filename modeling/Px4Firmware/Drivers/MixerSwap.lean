import Px4Firmware.Lib.Transition

/-!
# Px4Firmware.Drivers.MixerSwap

**The mixers of the FMU driver, between two tasks.** One task makes requests (`FMUServo::ioctl`),
which delete the group of mixers, make a new one and fill it. The task of the driver
(`FMUServo::task_main`) tests the pointer to the group, follows it and visits the mixers. Nothing
keeps the two apart, so the statements of the one come between those of the other.

The loop has to be away from what is deleted, a group that has been deleted must not be tested for
before the pointer is null, a group must not be used while it is filled, and a mixer must not be
left before its own pointer is set. Then the loop meets neither deleted mixers nor unfinished groups
(`swap_safe`).
-/

namespace Px4Firmware.Drivers.MixerSwap

open Px4Firmware.Lib

/-! ### The memory that is shared -/

/-- The request that loads the mixers of a group. A group for simple mixers has none. -/
inductive Load
  | none
  | inProgress
  | complete
  | failed
  deriving DecidableEq

/-- A `MixerGroup`. Its mixers are numbered as they are added: so many have been added, `first` is
the number of `_first` (which is null when there is no such mixer), and so many have been deleted.
The last mixer is settled when its `_next` is null. -/
structure Group where
  added : Nat
  first : Nat
  discarded : Nat
  settled : Bool
  deleted : Bool
  load : Load

/-- A group without mixers. -/
def newGroup (load : Load) : Group where
  added := 0
  first := 0
  discarded := 0
  settled := true
  deleted := false
  load := load

/-- The request is in progress, or has failed. -/
def Group.unready (group : Group) : Bool := group.load = .inProgress || group.load = .failed

/-- A mixer: its group, and its number there. -/
abbrev MixerRef := Nat × Nat

/-- `_first`. -/
def Group.firstMixer (group : Group) (g : Nat) : Option MixerRef :=
  if group.first < group.added then some (g, group.first) else none

/-- `_next` of a mixer. The constructor leaves it as the memory had it, and memory that has been
freed can hold anything. -/
def Group.nextMixer (group : Group) (mixer : MixerRef) (junk : Option MixerRef) : Option MixerRef :=
  if mixer.2 < group.discarded then junk
  else if mixer.2 + 1 < group.added then some (mixer.1, mixer.2 + 1)
  else if group.settled then none
  else junk

/-- `*mpp = mixer`, for the end of the list. -/
def Group.link (group : Group) : Group :=
  { group with added := group.added + 1, settled := false }

/-- Why a group is deleted: for a reset, before another one is loaded, or as it cannot be loaded. -/
inductive Purpose
  | reset
  | replace
  | failed
  deriving DecidableEq

/-- The next statement of the task that makes the requests: the loop of the destructor, the deletion
of a mixer that it has taken out, `_mixers = nullptr`, a new group to be loaded, the loop of
`load_from_file`, `_next = nullptr` for a mixer that is linked, the test, a new group and the
addition of `MIXERIOCADDSIMPLE`. -/
inductive Request
  | idle
  | destroy (g : Nat) (purpose : Purpose)
  | discard (g : Nat) (purpose : Purpose)
  | nullify (purpose : Purpose)
  | create
  | load (g : Nat)
  | settle (g : Nat) (loading : Bool)
  | test
  | createEmpty
  | add
  deriving DecidableEq

/-- A `MIXERIOCLOADFILE` has made its group, and is in progress or has failed. -/
def Request.loading : Request → Bool
  | .destroy _ purpose => purpose = .failed
  | .discard _ purpose => purpose = .failed
  | .nullify purpose => purpose = .failed
  | .load _ => true
  | .settle _ loading => loading
  | _ => false

/-- The task of the driver: between two updates, after its test, in the loop of `MixerGroup::mix` of
a group, before and after the call of a mixer, and before it uses the outputs. It remembers whether
the group has been unready. It is astray once it has followed the null pointer. -/
inductive Loop
  | idle
  | tested
  | mixing (g : Nat) (mixer : Option MixerRef) (index : Nat) (unready : Bool)
  | visited (g : Nat) (mixer : MixerRef) (index : Nat) (unready : Bool)
  | mixed (g : Nat) (unready : Bool)
  | astray
  deriving DecidableEq

/-- The groups that have been allocated, `_mixers`, and the two tasks. -/
structure Fmu where
  groups : Nat → Group
  allocated : Nat
  mixers : Option Nat
  request : Request
  loop : Loop

/-- A request changes a group and goes on. -/
def Fmu.modify (s : Fmu) (g : Nat) (f : Group → Group) (request : Request) : Fmu :=
  { s with
    groups := fun h => if h = g then f (s.groups h) else s.groups h
    request := request }

/-- `_mixers = new MixerGroup(..)`. -/
def Fmu.allocate (s : Fmu) (load : Load) (request : Request) : Fmu :=
  { s with
    groups := fun h => if h = s.allocated then newGroup load else s.groups h
    allocated := s.allocated + 1
    mixers := some s.allocated
    request := request }

/-! ### The statements -/

/-- The statements of the requests. A simple mixer passes its check or not, and a file is at its end
or cannot be loaded. -/
inductive Statement
  | reset
  | addSimple (passes : Bool)
  | loadFile
  | takeOut
  | discard
  | free
  | nullify
  | create
  | test
  | link
  | settle
  | loaded (ok : Bool)
  deriving DecidableEq

/-- `FMUServo::ioctl`, with the destructor of `MixerGroup`, `add_mixer` and `load_from_file`. -/
def ioctl (s : Fmu) : Statement → Option Fmu
  | .reset => match s.request with
      | .idle => match s.mixers with
          | some g => some { s with request := .destroy g .reset }
          | none => some s
      | _ => none
  | .addSimple passes => match s.request with
      | .idle => some (if passes then { s with request := .test } else s)
      | _ => none
  | .loadFile => match s.request with
      | .idle => match s.mixers with
          | some g => some { s with request := .destroy g .replace }
          | none => some { s with request := .create }
      | _ => none
  | .takeOut => match s.request with
      | .destroy g purpose =>
          if (s.groups g).first < (s.groups g).added then
            some (s.modify g (fun group => { group with first := group.first + 1 })
              (.discard g purpose))
          else none
      | _ => none
  | .discard => match s.request with
      | .discard g purpose =>
          some (s.modify g (fun group => { group with discarded := group.discarded + 1 })
            (.destroy g purpose))
      | _ => none
  | .free => match s.request with
      | .destroy g purpose =>
          if (s.groups g).first < (s.groups g).added then none
          else some (s.modify g (fun group => { group with deleted := true }) (.nullify purpose))
      | _ => none
  | .nullify => match s.request with
      | .nullify purpose =>
          some { s with
            mixers := none
            request := if purpose = .replace then .create else .idle }
      | _ => none
  | .create => match s.request with
      | .create => some (s.allocate .inProgress (.load s.allocated))
      | .createEmpty => some (s.allocate .none .add)
      | _ => none
  | .test => match s.request with
      | .test => some { s with request := if s.mixers.isNone then .createEmpty else .add }
      | _ => none
  | .link => match s.request with
      | .load g => some (s.modify g Group.link (.settle g true))
      | .add => s.mixers.map fun g => s.modify g Group.link (.settle g false)
      | _ => none
  | .settle => match s.request with
      | .settle g loading =>
          some (s.modify g (fun group => { group with settled := true })
            (if loading then .load g else .idle))
      | _ => none
  | .loaded ok => match s.request with
      | .load g =>
          if ok then some (s.modify g (fun group => { group with load := .complete }) .idle)
          else s.mixers.map fun h =>
            s.modify g (fun group => { group with load := .failed }) (.destroy h .failed)
      | _ => none

/-- The steps of the loop. A mixer writes some outputs, and a pointer that is not set is
anything. -/
inductive LoopStep
  | test
  | start
  | visit (count : Nat)
  | advance (junk : Option MixerRef)
  | finish
  | use
  deriving DecidableEq

/-- An update in `FMUServo::task_main`, with `MixerGroup::mix`. -/
def taskMain (space : Nat) (s : Fmu) : LoopStep → Option Fmu
  | .test => match s.loop with
      | .idle => some { s with loop := if s.mixers.isSome then .tested else .idle }
      | _ => none
  | .start => match s.loop with
      | .tested => match s.mixers with
          | some g => some { s with
              loop := .mixing g ((s.groups g).firstMixer g) 0 (s.groups g).unready }
          | none => some { s with loop := .astray }
      | _ => none
  | .visit count => match s.loop with
      | .mixing g (some mixer) index unready =>
          if index < space then
            some { s with
              loop := .visited g mixer (index + count) (unready || (s.groups g).unready) }
          else none
      | _ => none
  | .advance junk => match s.loop with
      | .visited g mixer index unready =>
          some { s with
            loop := .mixing g ((s.groups mixer.1).nextMixer mixer junk) index unready }
      | _ => none
  | .finish => match s.loop with
      | .mixing g mixer index unready =>
          if mixer.isSome ∧ index < space then none
          else some { s with loop := .mixed g unready }
      | _ => none
  | .use => match s.loop with
      | .mixed _ _ => some { s with loop := .idle }
      | _ => none

/-- A statement of the one task or a step of the other. -/
inductive Event
  | request (statement : Statement)
  | loop (step : LoopStep)
  deriving DecidableEq

def next (space : Nat) (s : Fmu) : Event → Option Fmu
  | .request statement => ioctl s statement
  | .loop step => taskMain space s step

/-- A driver without mixers. -/
def start : Fmu where
  groups _ := newGroup .none
  allocated := 0
  mixers := none
  request := .idle
  loop := .idle

/-- The two tasks, in a mode with so many outputs. -/
def fmu (space : Nat) : LTS Fmu Event where
  init s := s = start
  step s e t := next space s e = some t

/-! ### The law and the condition -/

/-- `mix` is called on a group and on mixers that have not been deleted, and what is used has been
computed by a group that was loaded. -/
def Law (s : Fmu) (e : Event) (_ : Fmu) : Prop :=
  match e, s.loop with
  | .loop .start, _ => ∃ g ∈ s.mixers, (s.groups g).deleted = false
  | .loop (.visit _), .mixing _ (some mixer) _ _ => (s.groups mixer.1).discarded ≤ mixer.2
  | .loop .use, .mixed g unready => unready = false ∧ (s.groups g).unready = false
  | _, _ => True

/-- The mixer that the loop is at, as long as there is space for outputs. -/
def Loop.mixer (space : Nat) : Loop → Option MixerRef
  | .mixing _ mixer index _ => if index < space then mixer else none
  | .visited _ mixer index _ => if index < space then some mixer else none
  | _ => none

theorem mem_mixer_mixing {space g index : Nat} {mixer : Option MixerRef} {unready : Bool}
    {ref : MixerRef} :
    ref ∈ (Loop.mixing g mixer index unready).mixer space ↔ index < space ∧ ref ∈ mixer := by
  simp [Loop.mixer]

theorem mem_mixer_visited {space g index : Nat} {mixer : MixerRef} {unready : Bool}
    {ref : MixerRef} :
    ref ∈ (Loop.visited g mixer index unready).mixer space ↔ index < space ∧ ref = mixer := by
  simp [Loop.mixer, eq_comm]

/-- The steps that do not get in the way of the other task:

* a mixer is deleted when the loop is behind it, in another group or out of space;
* a group is deleted when the loop is not about to follow the pointer;
* the pointer is tested when it is not that to a deleted group, and followed when the group is not
  being loaded, or deleted because it could not be;
* a mixer is left when its pointer is set, or there is no more space. -/
def careful (space : Nat) (s : Fmu) : Event → Bool
  | .request .discard => match s.request, s.loop.mixer space with
      | .discard g _, some mixer => mixer.1 ≠ g || (s.groups g).discarded < mixer.2
      | _, _ => true
  | .request .free => s.loop ≠ .tested
  | .loop .test => match s.request with
      | .nullify _ => false
      | _ => true
  | .loop .start => !s.request.loading
  | .loop (.advance _) => match s.loop.mixer space with
      | some mixer => (s.groups mixer.1).settled || mixer.2 + 1 < (s.groups mixer.1).added
      | none => true
  | _ => true

/-- The runs all of whose steps are careful. -/
def carefulFmu (space : Nat) : LTS Fmu Event :=
  (fmu space).restrict fun s e => careful space s e = true

/-! ### Changing a group -/

section

variable {s : Fmu} {g h : Nat} {f : Group → Group} {load : Load} {request : Request}

@[simp] theorem groups_modify_self : (s.modify g f request).groups g = f (s.groups g) := if_pos rfl

@[simp] theorem groups_modify_of_ne (hne : h ≠ g) : (s.modify g f request).groups h = s.groups h :=
  if_neg hne

@[simp] theorem groups_allocate_self :
    (s.allocate load request).groups s.allocated = newGroup load := if_pos rfl

@[simp] theorem groups_allocate_of_ne (hne : h ≠ s.allocated) :
    (s.allocate load request).groups h = s.groups h := if_neg hne

end

/-! ### The list of mixers -/

section

variable {group : Group} {g : Nat} {mixer ref : MixerRef} {junk : Option MixerRef}

theorem mem_firstMixer :
    ref ∈ group.firstMixer g ↔ group.first < group.added ∧ (g, group.first) = ref := by
  simp [Group.firstMixer]

/-- The next mixer of one that is alive, when it is not the last one or its pointer is set. -/
theorem mem_nextMixer (halive : group.discarded ≤ mixer.2)
    (hset : group.settled = true ∨ mixer.2 + 1 < group.added)
    (href : ref ∈ group.nextMixer mixer junk) : ref = (mixer.1, mixer.2 + 1) := by
  unfold Group.nextMixer at href
  rw [if_neg (Nat.not_lt.2 halive)] at href
  split at href
  next => exact (Option.some.inj href).symm
  next hlast =>
    rw [if_pos (hset.resolve_right hlast)] at href
    cases href

end

/-! ### What careful steps keep -/

/-- What holds at a statement of the requests. The group that the pointer leads to is alive until
the pointer is about to become null, and ready unless it is being loaded or could not be. -/
def Stands (s : Fmu) : Request → Prop
  | .idle | .test | .add => ∀ g ∈ s.mixers,
      (s.groups g).deleted = false ∧ (s.groups g).unready = false
  | .destroy g purpose => s.mixers = some g ∧ (s.groups g).deleted = false ∧
      (purpose = .failed ∨ (s.groups g).unready = false)
  | .discard g purpose => s.mixers = some g ∧ (s.groups g).deleted = false ∧
      (purpose = .failed ∨ (s.groups g).unready = false) ∧
      (s.groups g).discarded < (s.groups g).first
  | .nullify _ => True
  | .create | .createEmpty => s.mixers = none
  | .load g => s.mixers = some g ∧ (s.groups g).deleted = false ∧ (s.groups g).load = .inProgress
  | .settle g loading => s.mixers = some g ∧ (s.groups g).deleted = false ∧
      if loading then (s.groups g).load = .inProgress else (s.groups g).unready = false

/-- What holds of the requests. No mixer is deleted before it is taken out. -/
structure RequestInv (s : Fmu) : Prop where
  bound : ∀ g ∈ s.mixers, g < s.allocated
  first : ∀ g, (s.groups g).discarded ≤ (s.groups g).first
  stands : Stands s s.request

/-- A group that the loop can be in: it is ready, and has always been. -/
def Usable (s : Fmu) (g : Nat) (unready : Bool) : Prop :=
  g < s.allocated ∧ unready = false ∧ (s.groups g).unready = false

/-- What holds of the loop: it has tested a pointer that will not be null, or it is in a group that
is ready and at a mixer that is not deleted. -/
def LoopInv (space : Nat) (s : Fmu) : Prop :=
  match s.loop with
  | .idle => True
  | .tested => s.mixers.isSome ∧ ∀ purpose, s.request ≠ .nullify purpose
  | .mixing g _ _ unready | .visited g _ _ unready => Usable s g unready ∧
      ∀ mixer ∈ s.loop.mixer space, mixer.1 = g ∧ (s.groups g).discarded ≤ mixer.2
  | .mixed g unready => Usable s g unready
  | .astray => False

theorem LoopInv.tested {space : Nat} {s : Fmu} (h : LoopInv space s) (hloop : s.loop = .tested) :
    s.mixers.isSome ∧ ∀ purpose, s.request ≠ .nullify purpose := by
  unfold LoopInv at h
  rw [hloop] at h
  exact h

/-- The loop does not notice what leaves its group alone. -/
theorem LoopInv.congr {space : Nat} {s t : Fmu} (h : LoopInv space s) (hloop : t.loop = s.loop)
    (htested : s.loop = .tested → t.mixers.isSome ∧ ∀ purpose, t.request ≠ .nullify purpose)
    (hallocated : s.allocated ≤ t.allocated)
    (hready : ∀ g < s.allocated, (s.groups g).unready = false → (t.groups g).unready = false)
    (hdiscarded : ∀ g < s.allocated, ∀ mixer ∈ s.loop.mixer space, mixer.1 = g →
      (s.groups g).discarded ≤ mixer.2 → (t.groups g).discarded ≤ mixer.2) : LoopInv space t := by
  have husable : ∀ g unready, Usable s g unready → Usable t g unready := by
    rintro g unready ⟨hg, hunready, hgroup⟩
    exact ⟨Nat.lt_of_lt_of_le hg hallocated, hunready, hready g hg hgroup⟩
  unfold LoopInv at h ⊢
  rw [hloop]
  cases hat : s.loop with
  | idle => trivial
  | tested => exact htested hat
  | mixing g mixer index unready | visited g mixer index unready =>
      rw [hat] at h hdiscarded
      refine ⟨husable g unready h.1, fun ref href => ?_⟩
      obtain ⟨hgroup, hle⟩ := h.2 ref href
      exact ⟨hgroup, hdiscarded g h.1.1 ref href hgroup hle⟩
  | mixed g unready =>
      rw [hat] at h
      exact husable g unready h
  | astray =>
      rw [hat] at h
      exact h

/-- The group that the pointer leads to. -/
theorem RequestInv.fit {s : Fmu} (h : RequestInv s) {g : Nat} (hg : s.mixers = some g)
    (hnullify : ∀ purpose, s.request ≠ .nullify purpose) :
    (s.groups g).deleted = false ∧
      (s.request.loading = false → (s.groups g).unready = false) := by
  have hstands := h.stands
  cases hrequest : s.request with
  | idle | test | add =>
      rw [hrequest] at hstands
      obtain ⟨hlive, hready⟩ := hstands g hg
      exact ⟨hlive, fun _ => hready⟩
  | destroy g' purpose =>
      rw [hrequest] at hstands
      obtain ⟨hmixers, hlive, hready⟩ := hstands
      obtain rfl : g' = g := Option.some.inj (hmixers.symm.trans hg)
      refine ⟨hlive, fun hloading => hready.resolve_left ?_⟩
      exact of_decide_eq_false hloading
  | discard g' purpose =>
      rw [hrequest] at hstands
      obtain ⟨hmixers, hlive, hready, -⟩ := hstands
      obtain rfl : g' = g := Option.some.inj (hmixers.symm.trans hg)
      refine ⟨hlive, fun hloading => hready.resolve_left ?_⟩
      exact of_decide_eq_false hloading
  | nullify purpose => exact absurd hrequest (hnullify purpose)
  | create | createEmpty =>
      rw [hrequest] at hstands
      cases hg.symm.trans hstands
  | load g' =>
      rw [hrequest] at hstands
      obtain ⟨hmixers, hlive, -⟩ := hstands
      obtain rfl : g' = g := Option.some.inj (hmixers.symm.trans hg)
      exact ⟨hlive, fun hloading => by cases hloading⟩
  | settle g' loading =>
      rw [hrequest] at hstands
      obtain ⟨hmixers, hlive, hready⟩ := hstands
      obtain rfl : g' = g := Option.some.inj (hmixers.symm.trans hg)
      refine ⟨hlive, fun hloading => ?_⟩
      rw [show loading = false from hloading] at hready
      exact hready

/-- What a statement of the requests can do. -/
inductive Does (s : Fmu) : Statement → Fmu → Prop
  | stay {statement : Statement} : Does s statement s
  | request {statement : Statement} {r : Request} : s.request = .idle ∨ s.request = .test →
      Stands s r → r.loading = false → (∀ purpose, r ≠ .nullify purpose) →
      Does s statement { s with request := r }
  | takeOut {g : Nat} {purpose : Purpose} : s.request = .destroy g purpose →
      (s.groups g).first < (s.groups g).added →
      Does s .takeOut (s.modify g (fun group => { group with first := group.first + 1 })
        (.discard g purpose))
  | discard {g : Nat} {purpose : Purpose} : s.request = .discard g purpose →
      Does s .discard (s.modify g (fun group => { group with discarded := group.discarded + 1 })
        (.destroy g purpose))
  | free {g : Nat} {purpose : Purpose} : s.request = .destroy g purpose →
      Does s .free (s.modify g (fun group => { group with deleted := true }) (.nullify purpose))
  | nullify {purpose : Purpose} : s.request = .nullify purpose →
      Does s .nullify { s with
        mixers := none
        request := if purpose = .replace then .create else .idle }
  | create {load : Load} {request : Request} :
      (load = .inProgress ∧ request = .load s.allocated) ∨ (load = .none ∧ request = .add) →
      Does s .create (s.allocate load request)
  | link {g : Nat} {loading : Bool} :
      s.request = (if loading then .load g else .add) → s.mixers = some g →
      Does s .link (s.modify g Group.link (.settle g loading))
  | settle {g : Nat} {loading : Bool} : s.request = .settle g loading →
      Does s .settle (s.modify g (fun group => { group with settled := true })
        (if loading then .load g else .idle))
  | loaded {g : Nat} : s.request = .load g → s.mixers = some g →
      Does s (.loaded true) (s.modify g (fun group => { group with load := .complete }) .idle)
  | failed {g : Nat} : s.request = .load g → s.mixers = some g →
      Does s (.loaded false) (s.modify g (fun group => { group with load := .failed })
        (.destroy g .failed))

section

variable {s t : Fmu}

/-- A group is deleted for a reset, if there is one. -/
theorem RequestInv.does_reset (h : RequestInv s) (hstep : ioctl s .reset = some t) :
    Does s .reset t := by
  have hstands := h.stands
  unfold ioctl at hstep
  dsimp only at hstep
  split at hstep
  next hrequest =>
    rw [hrequest] at hstands
    split at hstep
    next g hg =>
      cases hstep
      obtain ⟨hlive, hready⟩ := hstands g hg
      exact .request (.inl hrequest) ⟨hg, hlive, .inr hready⟩ rfl (by simp)
    next =>
      cases hstep
      exact .stay
  next => cases hstep

/-- A simple mixer is added only if it passes its check. -/
theorem RequestInv.does_addSimple (h : RequestInv s) {passes : Bool}
    (hstep : ioctl s (.addSimple passes) = some t) : Does s (.addSimple passes) t := by
  have hstands := h.stands
  unfold ioctl at hstep
  dsimp only at hstep
  split at hstep
  next hrequest =>
    rw [hrequest] at hstands
    cases hstep
    cases passes with
    | true => exact .request (.inl hrequest) hstands rfl (by simp)
    | false => exact .stay
  next => cases hstep

/-- A group is deleted before another one is loaded. -/
theorem RequestInv.does_loadFile (h : RequestInv s) (hstep : ioctl s .loadFile = some t) :
    Does s .loadFile t := by
  have hstands := h.stands
  unfold ioctl at hstep
  dsimp only at hstep
  split at hstep
  next hrequest =>
    rw [hrequest] at hstands
    split at hstep
    next g hg =>
      cases hstep
      obtain ⟨hlive, hready⟩ := hstands g hg
      exact .request (.inl hrequest) ⟨hg, hlive, .inr hready⟩ rfl (by simp)
    next hg =>
      cases hstep
      exact .request (.inl hrequest) hg rfl (by simp)
  next => cases hstep

/-- A group is made for a simple mixer, if there is none. -/
theorem RequestInv.does_test (h : RequestInv s) (hstep : ioctl s .test = some t) :
    Does s .test t := by
  have hstands := h.stands
  unfold ioctl at hstep
  dsimp only at hstep
  split at hstep
  next hrequest =>
    rw [hrequest] at hstands
    cases hstep
    split
    next hnone =>
      exact .request (.inr hrequest) (Option.isNone_iff_eq_none.1 hnone) rfl (by simp)
    next => exact .request (.inr hrequest) hstands rfl (by simp)
  next => cases hstep

/-- The destructor takes the mixers out, one by one. -/
theorem does_takeOut (hstep : ioctl s .takeOut = some t) : Does s .takeOut t := by
  unfold ioctl at hstep
  dsimp only at hstep
  split at hstep
  next g purpose hrequest =>
    split at hstep
    next hfirst =>
      cases hstep
      exact .takeOut hrequest hfirst
    next => cases hstep
  next => cases hstep

/-- The group itself is deleted when there are no more of them. -/
theorem does_free (hstep : ioctl s .free = some t) : Does s .free t := by
  unfold ioctl at hstep
  dsimp only at hstep
  split at hstep
  next g purpose hrequest =>
    split at hstep
    next => cases hstep
    next =>
      cases hstep
      exact .free hrequest
  next => cases hstep

/-- A new group is one to be loaded, or one for a simple mixer. -/
theorem does_create (hstep : ioctl s .create = some t) : Does s .create t := by
  unfold ioctl at hstep
  dsimp only at hstep
  split at hstep
  next hrequest =>
    cases hstep
    exact .create (.inl ⟨rfl, rfl⟩)
  next hrequest =>
    cases hstep
    exact .create (.inr ⟨rfl, rfl⟩)
  next => cases hstep

/-- A mixer is linked to the group that the pointer leads to. -/
theorem RequestInv.does_link (h : RequestInv s) (hstep : ioctl s .link = some t) :
    Does s .link t := by
  have hstands := h.stands
  unfold ioctl at hstep
  dsimp only at hstep
  split at hstep
  next g hrequest =>
    rw [hrequest] at hstands
    cases hstep
    exact @Does.link s g true hrequest hstands.1
  next hrequest =>
    obtain ⟨g, hg, rfl⟩ := Option.map_eq_some_iff.1 hstep
    exact @Does.link s g false hrequest hg
  next => cases hstep

/-- The group that could not be loaded is the one that is deleted. -/
theorem RequestInv.does_loaded (h : RequestInv s) {ok : Bool}
    (hstep : ioctl s (.loaded ok) = some t) : Does s (.loaded ok) t := by
  have hstands := h.stands
  unfold ioctl at hstep
  dsimp only at hstep
  split at hstep
  next g hrequest =>
    rw [hrequest] at hstands
    cases ok with
    | true =>
        cases hstep
        exact .loaded hrequest hstands.1
    | false =>
        obtain ⟨h, hh, rfl⟩ := Option.map_eq_some_iff.1 hstep
        obtain rfl : h = g := Option.some.inj (hh.symm.trans hstands.1)
        exact .failed hrequest hh
  next => cases hstep

theorem RequestInv.does (h : RequestInv s) {statement : Statement}
    (hstep : ioctl s statement = some t) : Does s statement t := by
  cases statement with
  | reset => exact h.does_reset hstep
  | addSimple passes => exact h.does_addSimple hstep
  | loadFile => exact h.does_loadFile hstep
  | takeOut => exact does_takeOut hstep
  | discard =>
      unfold ioctl at hstep
      dsimp only at hstep
      split at hstep
      next g purpose hrequest =>
        cases hstep
        exact .discard hrequest
      next => cases hstep
  | free => exact does_free hstep
  | nullify =>
      unfold ioctl at hstep
      dsimp only at hstep
      split at hstep
      next purpose hrequest =>
        cases hstep
        exact .nullify hrequest
      next => cases hstep
  | create => exact does_create hstep
  | test => exact h.does_test hstep
  | link => exact h.does_link hstep
  | settle =>
      unfold ioctl at hstep
      dsimp only at hstep
      split at hstep
      next g loading hrequest =>
        cases hstep
        exact .settle hrequest
      next => cases hstep
  | loaded ok => exact h.does_loaded hstep

end

/-- A request that changes a group and leaves no mixer deleted before it is taken out. -/
theorem RequestInv.modify {s : Fmu} (h : RequestInv s) {g : Nat} {f : Group → Group}
    {request : Request} (hf : (f (s.groups g)).discarded ≤ (f (s.groups g)).first)
    (hstands : Stands (s.modify g f request) request) : RequestInv (s.modify g f request) := by
  refine ⟨h.bound, fun k => ?_, hstands⟩
  by_cases hk : k = g
  · subst hk
    rw [groups_modify_self]
    exact hf
  · rw [groups_modify_of_ne hk]
    exact h.first k

/-- **The requests** keep what holds of them. -/
theorem RequestInv.ioctl {s t : Fmu} (h : RequestInv s) {statement : Statement}
    (hstep : ioctl s statement = some t) : RequestInv t := by
  have hstands := h.stands
  cases h.does hstep with
  | stay => exact h
  | request _ hr => exact ⟨h.bound, h.first, hr⟩
  | @takeOut g purpose hrequest =>
      rw [hrequest] at hstands
      obtain ⟨hg, hlive, hready⟩ := hstands
      refine h.modify (Nat.le_succ_of_le (h.first g)) ⟨hg, ?_⟩
      rw [groups_modify_self]
      exact ⟨hlive, hready, Nat.lt_succ_of_le (h.first g)⟩
  | @discard g purpose hrequest =>
      rw [hrequest] at hstands
      obtain ⟨hg, hlive, hready, hlt⟩ := hstands
      refine h.modify hlt ⟨hg, ?_⟩
      rw [groups_modify_self]
      exact ⟨hlive, hready⟩
  | @free g purpose hrequest => exact h.modify (h.first g) trivial
  | @nullify purpose hrequest =>
      refine ⟨fun g hg => (by cases hg), h.first, ?_⟩
      dsimp only
      split
      · rfl
      · intro g hg
        cases hg
  | @create load request hcreate =>
      refine ⟨?_, fun k => ?_, ?_⟩
      · intro g hg
        cases hg
        exact Nat.lt_succ_self _
      · by_cases hk : k = s.allocated
        · subst hk
          rw [groups_allocate_self]
          exact Nat.le_refl 0
        · rw [groups_allocate_of_ne hk]
          exact h.first k
      · rcases hcreate with ⟨rfl, rfl⟩ | ⟨rfl, rfl⟩
        · refine ⟨rfl, ?_⟩
          rw [groups_allocate_self]
          exact ⟨rfl, rfl⟩
        · intro g hg
          cases hg
          rw [groups_allocate_self]
          exact ⟨rfl, rfl⟩
  | @link g loading hrequest hg =>
      refine h.modify (h.first g) ⟨hg, ?_⟩
      rw [groups_modify_self]
      rw [hrequest] at hstands
      cases loading with
      | true => exact hstands.2
      | false => exact hstands g hg
  | @settle g loading hrequest =>
      rw [hrequest] at hstands
      obtain ⟨hg, hlive, hfilling⟩ := hstands
      refine h.modify (h.first g) ?_
      cases loading with
      | true =>
          refine ⟨hg, ?_⟩
          rw [groups_modify_self]
          exact ⟨hlive, hfilling⟩
      | false =>
          intro k hk
          obtain rfl : g = k := Option.some.inj (hg.symm.trans hk)
          rw [groups_modify_self]
          exact ⟨hlive, hfilling⟩
  | @loaded g hrequest hg =>
      rw [hrequest] at hstands
      refine h.modify (h.first g) ?_
      intro k hk
      obtain rfl : g = k := Option.some.inj (hg.symm.trans hk)
      rw [groups_modify_self]
      exact ⟨hstands.2.1, rfl⟩
  | @failed g hrequest hg =>
      rw [hrequest] at hstands
      refine h.modify (h.first g) ⟨hg, ?_⟩
      rw [groups_modify_self]
      exact ⟨hstands.2.1, .inl rfl⟩

/-- The loop does not notice a change of a group that leaves it ready and its mixers alive. -/
theorem LoopInv.modify {space : Nat} {s : Fmu} (h : LoopInv space s) {g : Nat}
    {f : Group → Group} {request : Request}
    (hrequest : s.loop = .tested → ∀ purpose, request ≠ .nullify purpose)
    (hready : (s.groups g).unready = false → (f (s.groups g)).unready = false)
    (hdiscarded : ∀ mixer ∈ s.loop.mixer space, mixer.1 = g →
      (s.groups g).discarded ≤ mixer.2 → (f (s.groups g)).discarded ≤ mixer.2) :
    LoopInv space (s.modify g f request) := by
  refine LoopInv.congr h rfl ?_ (Nat.le_refl _) ?_ ?_
  · intro htested
    exact ⟨(h.tested htested).1, hrequest htested⟩
  · intro k _ hk
    by_cases hkg : k = g
    · subst hkg
      rw [groups_modify_self]
      exact hready hk
    · rw [groups_modify_of_ne hkg]
      exact hk
  · intro k _ mixer hmixer hgroup hle
    by_cases hkg : k = g
    · subst hkg
      rw [groups_modify_self]
      exact hdiscarded mixer hmixer hgroup hle
    · rw [groups_modify_of_ne hkg]
      exact hle

/-- **The requests**, when they are careful, keep what holds of the loop. -/
theorem LoopInv.ioctl {space : Nat} {s t : Fmu} (h : LoopInv space s) (hinv : RequestInv s)
    {statement : Statement}
    (hcareful : careful space s (.request statement) = true) (hstep : ioctl s statement = some t) :
    LoopInv space t := by
  have hstands := hinv.stands
  cases hinv.does hstep with
  | stay => exact h
  | request _ hr hloading hnullify =>
      refine LoopInv.congr h rfl ?_ (Nat.le_refl _) (fun _ _ hready => hready)
        (fun _ _ _ _ _ hle => hle)
      intro htested
      exact ⟨(h.tested htested).1, hnullify⟩
  | takeOut hrequest => exact h.modify (by simp) id (fun _ _ _ hle => hle)
  | @discard g purpose hrequest =>
      refine h.modify (by simp) id ?_
      intro mixer hmixer hgroup hle
      unfold careful at hcareful
      dsimp only at hcareful
      rw [hrequest, Option.mem_def.1 hmixer] at hcareful
      simp only [hgroup, ne_eq, not_true_eq_false, decide_false, Bool.false_or,
        decide_eq_true_eq] at hcareful
      exact hcareful
  | @free g purpose hrequest =>
      refine h.modify ?_ id (fun _ _ _ hle => hle)
      intro htested
      exact absurd htested (of_decide_eq_true hcareful)
  | @nullify purpose hrequest =>
      refine LoopInv.congr h rfl ?_ (Nat.le_refl _) (fun _ _ hready => hready)
        (fun _ _ _ _ _ hle => hle)
      intro htested
      exact absurd hrequest ((h.tested htested).2 purpose)
  | @create load request hcreate =>
      refine LoopInv.congr h rfl ?_ (Nat.le_succ _) ?_ ?_
      · intro _
        rcases hcreate with ⟨rfl, rfl⟩ | ⟨rfl, rfl⟩
        · exact ⟨rfl, by simp [Fmu.allocate]⟩
        · exact ⟨rfl, by simp [Fmu.allocate]⟩
      · intro g hg hready
        rw [groups_allocate_of_ne (Nat.ne_of_lt hg)]
        exact hready
      · intro g hg mixer _ _ hle
        rw [groups_allocate_of_ne (Nat.ne_of_lt hg)]
        exact hle
  | link hrequest hg => exact h.modify (by simp) id (fun _ _ _ hle => hle)
  | @settle g loading hrequest =>
      refine h.modify ?_ id (fun _ _ _ hle => hle)
      cases loading <;> simp
  | loaded hrequest hg => exact h.modify (by simp) (fun _ => rfl) (fun _ _ _ hle => hle)
  | @failed g hrequest hg =>
      rw [hrequest] at hstands
      refine h.modify (by simp) ?_ (fun _ _ _ hle => hle)
      intro hready
      unfold Group.unready at hready
      rw [hstands.2.2] at hready
      cases hready

/-! ### The loop -/

section

variable {space : Nat} {s t : Fmu}

/-- The loop changes nothing else. -/
theorem RequestInv.taskMain (h : RequestInv s) {step : LoopStep}
    (hstep : taskMain space s step = some t) : RequestInv t := by
  have hkeep : t = { s with loop := t.loop } := by
    cases step <;>
    · unfold MixerSwap.taskMain at hstep
      dsimp only at hstep
      repeat' split at hstep
      all_goals cases hstep
      all_goals rfl
  rw [hkeep]
  exact ⟨h.bound, h.first, h.stands⟩

/-- The pointer is tested when it is not about to become null. -/
theorem LoopInv.test (hcareful : careful space s (.loop .test) = true)
    (hstep : taskMain space s .test = some t) : LoopInv space t := by
  unfold MixerSwap.taskMain at hstep
  dsimp only at hstep
  split at hstep
  next =>
    cases hstep
    unfold LoopInv
    dsimp only
    by_cases hsome : s.mixers.isSome = true
    · rw [if_pos hsome]
      refine ⟨hsome, fun purpose hrequest => ?_⟩
      unfold careful at hcareful
      dsimp only at hcareful
      rw [hrequest] at hcareful
      cases hcareful
    · rw [if_neg hsome]
      trivial
  next => cases hstep

/-- The pointer that has been tested leads to a group that is alive and ready, and the loop begins
at its first mixer. -/
theorem LoopInv.start (h : LoopInv space s) (hinv : RequestInv s)
    (hcareful : careful space s (.loop .start) = true)
    (hstep : MixerSwap.taskMain space s .start = some t) :
    Law s (.loop .start) t ∧ LoopInv space t := by
  unfold LoopInv at h
  unfold MixerSwap.taskMain at hstep
  dsimp only at hstep
  split at hstep
  next hloop =>
    rw [hloop] at h
    obtain ⟨hsome, hnullify⟩ := h
    split at hstep
    next g hg =>
      cases hstep
      obtain ⟨hlive, hready⟩ := hinv.fit hg hnullify
      have hloading : s.request.loading = false := by
        unfold careful at hcareful
        simpa using hcareful
      refine ⟨⟨g, hg, hlive⟩, ⟨hinv.bound g hg, hready hloading, hready hloading⟩, ?_⟩
      intro mixer hat
      obtain ⟨-, hmixer⟩ := mem_mixer_mixing.1 hat
      obtain ⟨-, rfl⟩ := mem_firstMixer.1 hmixer
      exact ⟨rfl, hinv.first g⟩
    next hnone =>
      rw [hnone] at hsome
      cases hsome
  next => cases hstep

/-- A mixer that is visited is alive. -/
theorem LoopInv.visit (h : LoopInv space s) {count : Nat}
    (hstep : MixerSwap.taskMain space s (.visit count) = some t) :
    Law s (.loop (.visit count)) t ∧ LoopInv space t := by
  unfold LoopInv at h
  unfold MixerSwap.taskMain at hstep
  dsimp only at hstep
  split at hstep
  next g mixer index unready hloop =>
    rw [hloop] at h
    obtain ⟨⟨hg, hunready, hready⟩, hat⟩ := h
    split at hstep
    next hspace =>
      cases hstep
      obtain ⟨hgroup, halive⟩ := hat mixer (mem_mixer_mixing.2 ⟨hspace, rfl⟩)
      refine ⟨?_, ⟨hg, ?_, hready⟩, ?_⟩
      · unfold Law
        rw [hloop]
        change (s.groups mixer.1).discarded ≤ mixer.2
        rw [hgroup]
        exact halive
      · rw [hunready, hready]
        rfl
      · intro ref href
        obtain ⟨-, rfl⟩ := mem_mixer_visited.1 href
        exact ⟨hgroup, halive⟩
    next => cases hstep
  next => cases hstep

/-- A mixer is left for the next one of its group when its own pointer is set. -/
theorem LoopInv.advance (h : LoopInv space s) {junk : Option MixerRef}
    (hcareful : careful space s (.loop (.advance junk)) = true)
    (hstep : MixerSwap.taskMain space s (.advance junk) = some t) : LoopInv space t := by
  unfold LoopInv at h
  unfold MixerSwap.taskMain at hstep
  dsimp only at hstep
  split at hstep
  next g mixer index unready hloop =>
    rw [hloop] at h
    obtain ⟨husable, hat⟩ := h
    cases hstep
    refine ⟨husable, ?_⟩
    intro ref hnext
    obtain ⟨hspace, href⟩ := mem_mixer_mixing.1 hnext
    obtain ⟨hgroup, halive⟩ := hat mixer (mem_mixer_visited.2 ⟨hspace, rfl⟩)
    simp only [careful, hloop, Loop.mixer, if_pos hspace, Bool.or_eq_true,
      decide_eq_true_eq] at hcareful
    rw [hgroup] at href hcareful
    obtain rfl := mem_nextMixer halive hcareful href
    exact ⟨hgroup, Nat.le_succ_of_le halive⟩
  next => cases hstep

theorem LoopInv.finish (h : LoopInv space s)
    (hstep : MixerSwap.taskMain space s .finish = some t) : LoopInv space t := by
  unfold LoopInv at h
  unfold MixerSwap.taskMain at hstep
  dsimp only at hstep
  split at hstep
  next g mixer index unready hloop =>
    rw [hloop] at h
    split at hstep
    next => cases hstep
    next =>
      cases hstep
      exact h.1
  next => cases hstep

/-- The outputs that are used are those of a group that has always been ready. -/
theorem LoopInv.use (h : LoopInv space s)
    (hstep : MixerSwap.taskMain space s .use = some t) :
    Law s (.loop .use) t ∧ LoopInv space t := by
  unfold LoopInv at h
  unfold MixerSwap.taskMain at hstep
  dsimp only at hstep
  split at hstep
  next g unready hloop =>
    rw [hloop] at h
    cases hstep
    refine ⟨?_, trivial⟩
    unfold Law
    rw [hloop]
    exact h.2
  next => cases hstep

/-- **The loop**, when it is careful, obeys the law and keeps what holds of it and of the requests.
-/
theorem LoopInv.taskMain (h : LoopInv space s) (hinv : RequestInv s) {step : LoopStep}
    (hcareful : careful space s (.loop step) = true) (hstep : taskMain space s step = some t) :
    Law s (.loop step) t ∧ RequestInv t ∧ LoopInv space t := by
  have hkeep := hinv.taskMain hstep
  cases step with
  | test => exact ⟨trivial, hkeep, LoopInv.test hcareful hstep⟩
  | start =>
      obtain ⟨hlaw, hnext⟩ := h.start hinv hcareful hstep
      exact ⟨hlaw, hkeep, hnext⟩
  | visit count =>
      obtain ⟨hlaw, hnext⟩ := h.visit hstep
      exact ⟨hlaw, hkeep, hnext⟩
  | advance junk => exact ⟨trivial, hkeep, h.advance hcareful hstep⟩
  | finish => exact ⟨trivial, hkeep, h.finish hstep⟩
  | use =>
      obtain ⟨hlaw, hnext⟩ := h.use hstep
      exact ⟨hlaw, hkeep, hnext⟩

end

/-! ### Over a run -/

theorem reachable_inv {space : Nat} {s : Fmu} (h : (carefulFmu space).Reachable s) :
    RequestInv s ∧ LoopInv space s := by
  refine LTS.Reachable.invariant (I := fun s => RequestInv s ∧ LoopInv space s) ?_ ?_ h
  · intro s hs
    rw [show s = start from hs]
    refine ⟨⟨fun g hg => (by cases hg), fun _ => Nat.le_refl 0, ?_⟩, trivial⟩
    intro g hg
    cases hg
  · rintro s e t ⟨hinv, hloop⟩ ⟨hcareful, hstep⟩
    cases e with
    | request statement => exact ⟨hinv.ioctl hstep, hloop.ioctl hinv hcareful hstep⟩
    | loop step => exact (hloop.taskMain hinv hcareful hstep).2

/-- **Mixers can be replaced in flight**: in a run all of whose steps are careful, every step obeys
the law. -/
theorem swap_safe {space : Nat} {s t : Fmu} {e : Event} (hreach : (carefulFmu space).Reachable s)
    (hstep : (carefulFmu space).step s e t) : Law s e t := by
  obtain ⟨hinv, hloop⟩ := reachable_inv hreach
  cases e with
  | request statement => exact trivial
  | loop step => exact (hloop.taskMain hinv hstep.1 hstep.2).1

/-! ### Runs -/

/-- A file with two mixers is loaded. -/
def loadTwo : List Event :=
  [.request .loadFile, .request .create, .request .link, .request .settle, .request .link,
    .request .settle, .request (.loaded true)]

/-- The loop comes to the second mixer while a third one is added. -/
def addThird : List Event :=
  [.loop .test, .loop .start, .request (.addSimple true), .loop (.visit 1), .request .test,
    .loop (.advance none), .request .link, .loop (.visit 1), .loop (.advance none),
    .request .settle, .loop (.visit 1), .loop (.advance none), .loop .finish]

/-- The outputs of the three mixers are used. -/
theorem swap_safe_third :
    ∃ s t, (carefulFmu 4).Run start (loadTwo ++ addThird) s ∧
      next 4 s (.loop .use) = some t ∧ Law s (.loop .use) t := by
  have huse : ((loadTwo ++ addThird).foldlM (fun s e => if careful 4 s e then next 4 s e else none)
      start).any (fun s => (next 4 s (.loop .use)).isSome) = true := by decide +kernel
  obtain ⟨s, hs, hsome⟩ := (Option.any_eq_true _ _).1 huse
  obtain ⟨t, ht⟩ := Option.isSome_iff_exists.1 hsome
  have hrun : (carefulFmu 4).Run start (loadTwo ++ addThird) s :=
    LTS.Run.restrict_of_foldlM (fun _ _ _ h => h) hs
  exact ⟨s, t, hrun, ht, swap_safe ⟨start, _, rfl, hrun⟩ ⟨rfl, ht⟩⟩

/-- The group is deleted after the loop has tested the pointer. -/
def resetTested : List Event :=
  [.loop .test, .request .reset, .request .takeOut, .request .discard, .request .takeOut,
    .request .discard, .request .free]

/-- The loop calls `mix` on the deleted group. -/
theorem not_swap_safe : ¬ ∀ (space : Nat) (s t : Fmu) (e : Event), (fmu space).Reachable s →
    (fmu space).step s e t → Law s e t := by
  intro h
  have hend : ((loadTwo ++ resetTested).foldlM (next 4) start).any (fun s =>
      (next 4 s (.loop .start)).isSome && s.mixers == some 0 && (s.groups 0).deleted) = true := by
    decide +kernel
  obtain ⟨s, hs, hend⟩ := (Option.any_eq_true _ _).1 hend
  simp only [Bool.and_eq_true, beq_iff_eq] at hend
  obtain ⟨⟨hsome, hmixers⟩, hdeleted⟩ := hend
  obtain ⟨t, ht⟩ := Option.isSome_iff_exists.1 hsome
  have hreach : (fmu 4).Reachable s := ⟨start, _, rfl, .of_foldlM (fun _ _ _ h => h) hs⟩
  obtain ⟨g, hg, hlive⟩ := h 4 s t (.loop .start) hreach ht
  obtain rfl : 0 = g := Option.some.inj (hmixers.symm.trans hg)
  rw [hdeleted] at hlive
  cases hlive

end Px4Firmware.Drivers.MixerSwap
