import Px4Firmware.Bson.Access
import Px4Firmware.Param.Import

/-!
# Px4Firmware.Param.Accesses

**What an import does to the file and to memory.** The functions that import, over the decoder that
notes its accesses: they return what `param_import` and `param_load` return, and end, whatever the
file holds, with a log without an access out of bounds (`import_accesses`).
-/

namespace Px4Firmware.Param

open Px4Firmware.Lib
open Px4Firmware.Bson

section

variable (env : Env)

/-- The data of a `BSON_BINDATA` node in `param_import_callback`. -/
def watchedBindata (param : ParamT) (w : Watched) (mallocs : Nat) : NodeAction × Watched × Nat :=
  if w.decoder.node.subtype ≠ bsonBinBinary then
    (.reject, w, mallocs)
  else if bsonDecoderDataPending w.decoder ≠ paramSize env param then
    (.reject, w, mallocs)
  else
    match env.malloc mallocs with
    | none => (.reject, w, mallocs + 1)
    | some _ =>
        -- the buffer has been allocated with the size of the parameter
        match Decode.bsonDecoderCopyData (paramSize env param) w with
        | .error _ w => (.reject, w, mallocs + 1)
        | .ok data w => (.set param data, w, mallocs + 1)

/-- `param_import_callback` up to `param_set_internal`. -/
def watchedNode (w : Watched) (mallocs : Nat) : NodeAction × Watched × Nat :=
  if w.decoder.node.type = bsonEoo then
    (.finish, w, mallocs)
  else
    let param := paramFind env w.decoder.node.name
    if param = paramInvalid then
      (.ignore, w, mallocs)
    else if w.decoder.node.type = bsonInt then
      if paramType env param ≠ .int32 then (.reject, w, mallocs)
      else (.set param (env.endian.bytes32 w.decoder.node.i), w, mallocs)
    else if w.decoder.node.type = bsonDouble then
      if paramType env param ≠ .float then (.reject, w, mallocs)
      else (.set param (env.endian.bytes32 (env.narrow w.decoder.node.d)), w, mallocs)
    else if w.decoder.node.type = bsonBindata then
      watchedBindata env param w mallocs
    else
      (.reject, w, mallocs)

/-- `param_import_callback`. -/
def watchedCallback (markSaved : Bool) (w : Watched) (s : Store) : Int × Watched × Store :=
  let (action, w, mallocs) := watchedNode env w s.mallocs
  let s := { s with mallocs := mallocs }
  match action with
  | .finish => (0, w, s)
  | .ignore => (1, w, s)
  | .reject => (-1, w, s)
  | .set param val =>
      let (result, s) := paramSetInternal env param val markSaved s
      (if result = 0 then 1 else -1, w, s)

/-- The loop of `param_import_internal`. -/
def watchedLoop (markSaved : Bool) : Nat → Watched → Store → Option (Int × Watched × Store)
  | 0, _, _ => none
  | fuel + 1, w, s =>
      let (result, w, s) := Decode.bsonDecoderNext env.endian (watchedCallback env markSaved) w s
      if 0 < result then watchedLoop markSaved fuel w s else some (result, w, s)

/-- `param_import_internal`, on a file with these bytes. -/
def watchedImport (markSaved : Bool) (stream : List UInt8) (s : Store) :
    Option (Int × Watched × Store) :=
  match Decode.bsonDecoderInit env.endian { decoder := Decoder.new stream, log := [] } with
  | .ok _ w => watchedLoop env markSaved (stream.length + 1) w s
  | .error _ w => some (-1, w, s)

end

/-- An import that has noted its accesses. Zero is returned only after the end of a document that is
in no other. -/
structure ImportAccesses (result : Int) (log : List Access) : Prop where
  stored : ∀ index b, .store index b ∈ log → index < bsonMaxname
  copied : ∀ type pending room, .copy type pending room ∈ log →
    type = bsonBindata ∧ pending.toNat < 0x80000000 ∧ pending.toNat ≤ room
  quiet : log.Pairwise fun before after => before = .kill → ∀ wanted, after ≠ .read wanted
  ended : result = 0 → .node bsonEoo 1 ∈ log

variable {env : Env}

/-- The action and the calls of `malloc` are those of the pure functions, and so is the decoder,
unless the node is rejected. -/
structure Follows (r : NodeAction × Watched × Nat) (r' : NodeAction × Decoder × Nat) : Prop where
  action : r.1 = r'.1
  mallocs : r.2.2 = r'.2.2
  settled : Settled r.2.1
  decoder : r.1 ≠ .reject → r.2.1.decoder = r'.2.1

theorem Follows.same {w : Watched} (hw : Settled w) (action : NodeAction) (k : Nat) :
    Follows (action, w, k) (action, w.decoder, k) :=
  ⟨rfl, rfl, hw, fun _ => rfl⟩

/-- The size of a parameter is not negative as a signed number. -/
theorem paramSize_lt (param : ParamT) : paramSize env param < 0x80000000 := by
  unfold paramSize
  cases paramType env param with
  | int32 => decide
  | float => decide
  | unknown => decide
  | struct size => exact Nat.lt_trans size.isLt (by decide)

theorem watchedBindata_follows {w : Watched} (hw : Settled w)
    (htype : w.decoder.node.type = bsonBindata) (param : ParamT) (k : Nat) :
    Follows (watchedBindata env param w k) (importBindata env param w.decoder k) := by
  unfold watchedBindata importBindata
  split_ifs with hsubtype hsize
  · exact .same hw .reject k
  · exact .same hw .reject k
  · cases env.malloc k with
    | none => exact .same hw .reject (k + 1)
    | some p =>
        simp only
        -- The length has been compared with the size of the parameter.
        have hpending : w.decoder.pending.toNat = paramSize env param := not_not.mp hsize
        have hfine : (Access.copy w.decoder.node.type w.decoder.pending
            (paramSize env param)).Fine :=
          ⟨htype, hpending ▸ paramSize_lt param, Nat.le_of_eq hpending⟩
        have hcopy := bsonDecoderCopyData_watched hw hfine
        unfold outcome at hcopy
        cases hrun : Decode.bsonDecoderCopyData (paramSize env param) w with
        | ok data w' =>
            rw [hrun] at hcopy
            obtain ⟨hsettled, hdata⟩ := hcopy
            rw [hdata]
            exact ⟨rfl, rfl, hsettled, fun _ => rfl⟩
        | error err w' =>
            rw [hrun] at hcopy
            obtain ⟨hsettled, hdata⟩ := hcopy
            cases hres : bsonDecoderCopyData w.decoder with
            | mk data decoder =>
                rw [hres] at hdata
                obtain rfl : data = none := hdata
                exact ⟨rfl, rfl, hsettled, fun h => absurd rfl h⟩

theorem watchedNode_follows (env : Env) {w : Watched} (hw : Settled w) (k : Nat) :
    Follows (watchedNode env w k) (importNode env w.decoder k) := by
  unfold watchedNode importNode
  simp only
  split_ifs with heoo hparam hint htype hdouble htype hbindata
  · exact .same hw .finish k
  · exact .same hw .ignore k
  · exact .same hw .reject k
  · exact .same hw _ k
  · exact .same hw .reject k
  · exact .same hw _ k
  · exact watchedBindata_follows hw hbindata _ k
  · exact .same hw .reject k

theorem watchedBindata_unfinished (param : ParamT) (w : Watched) (k : Nat) :
    (watchedBindata env param w k).1 ≠ .finish := by
  unfold watchedBindata
  split_ifs
  · nofun
  · nofun
  · cases env.malloc k with
    | none => nofun
    | some p =>
        simp only
        split <;> nofun

/-- Nothing but the end of the document finishes an import, and it is left alone. -/
theorem watchedNode_finish {w : Watched} {k : Nat} (h : (watchedNode env w k).1 = .finish) :
    w.decoder.node.type = bsonEoo ∧ (watchedNode env w k).2.1 = w := by
  unfold watchedNode at h ⊢
  simp only at h ⊢
  split_ifs at h ⊢ with heoo
  · exact ⟨heoo, rfl⟩
  · exact absurd h (watchedBindata_unfinished _ w k)

theorem watchedNode_eoo {w : Watched} (heoo : w.decoder.node.type = bsonEoo) (k : Nat) :
    (watchedNode env w k).1 = .finish := by
  unfold watchedNode
  rw [if_pos heoo]

/-- Copying changes nothing of a node. -/
theorem importNode_node (env : Env) (decoder : Decoder) (k : Nat) :
    (importNode env decoder k).2.1.nesting = decoder.nesting ∧
      (importNode env decoder k).2.1.node = decoder.node := by
  have hcopy : (bsonDecoderCopyData decoder).2.nesting = decoder.nesting ∧
      (bsonDecoderCopyData decoder).2.node = decoder.node := by
    unfold bsonDecoderCopyData
    cases decoder.fd with
    | none => exact ⟨rfl, rfl⟩
    | some stream =>
        simp only
        split_ifs
        · exact ⟨rfl, rfl⟩
        · split <;> exact ⟨rfl, rfl⟩
  rcases importNode_cases env decoder with ⟨action, h⟩ | ⟨param, h⟩
  · rw [h]
    exact ⟨rfl, rfl⟩
  · rw [h]
    unfold importBindata
    split_ifs
    · exact ⟨rfl, rfl⟩
    · exact ⟨rfl, rfl⟩
    · cases env.malloc k with
      | none => exact ⟨rfl, rfl⟩
      | some p =>
          simp only
          split <;> simpa only [*] using hcopy

/-! ### The run of an import -/

/-- The decoder is between two nodes of a document that is in no other. -/
def Inside (decoder : Decoder) : Prop := decoder.nesting = 1 ∧ decoder.node.type ≠ bsonEoo

/-- What the callback returns, and where it leaves the decoder: after a node, or at the end of the
document, or anywhere if it returns an error. -/
structure CallbackSpec (w : Watched) (r : Int × Watched × Store) (q : Int × Decoder × Store) :
    Prop where
  result : r.1 = q.1
  store : r.2.2 = q.2.2
  settled : Settled r.2.1
  next : 0 < r.1 → r.2.1.decoder = q.2.1 ∧ q.2.1.nesting = w.decoder.nesting ∧
    q.2.1.node.type ≠ bsonEoo
  ended : r.1 = 0 → w.decoder.node.type = bsonEoo ∧ r.2.1 = w

theorem watchedCallback_spec (env : Env) (markSaved : Bool) {w : Watched} (hw : Settled w)
    (s : Store) :
    CallbackSpec w (watchedCallback env markSaved w s)
      (paramImportCallback env markSaved w.decoder s) := by
  have hfollows := watchedNode_follows env hw s.mallocs
  obtain ⟨hnesting, hnode⟩ := importNode_node env w.decoder s.mallocs
  have hnext : (watchedNode env w s.mallocs).1 ≠ .reject →
      (watchedNode env w s.mallocs).1 ≠ .finish →
        (watchedNode env w s.mallocs).2.1.decoder = (importNode env w.decoder s.mallocs).2.1 ∧
          (importNode env w.decoder s.mallocs).2.1.nesting = w.decoder.nesting ∧
          (importNode env w.decoder s.mallocs).2.1.node.type ≠ bsonEoo := by
    intro hreject hfinish
    refine ⟨hfollows.decoder hreject, hnesting, ?_⟩
    rw [hnode]
    exact fun heoo => hfinish (watchedNode_eoo heoo s.mallocs)
  have haction := hfollows.action
  have hone : (1 : Int) ≠ 0 := by decide
  have hminus : (-1 : Int) ≠ 0 := by decide
  have hnegative : ¬ 0 < (-1 : Int) := by decide
  unfold watchedCallback paramImportCallback
  simp only
  rw [← haction, ← hfollows.mallocs]
  cases hcase : (watchedNode env w s.mallocs).1 with
  | finish =>
      exact ⟨rfl, rfl, hfollows.settled, fun h => absurd h (lt_irrefl 0),
        fun _ => watchedNode_finish hcase⟩
  | ignore =>
      rw [hcase] at hnext
      exact ⟨rfl, rfl, hfollows.settled, fun _ => hnext (by simp) (by simp), fun h => absurd h hone⟩
  | reject =>
      exact ⟨rfl, rfl, hfollows.settled, fun h => absurd h hnegative, fun h => absurd h hminus⟩
  | set param val =>
      rw [hcase] at hnext
      refine ⟨rfl, rfl, hfollows.settled, fun _ => hnext (by simp) (by simp), fun h => ?_⟩
      simp only at h
      split_ifs at h
      exact absurd h hone

/-- **The loop of an import** ends with the result and the store of the pure loop, and its accesses
are as they should be. -/
theorem watchedLoop_spec {markSaved : Bool} {fuel : Nat} {w : Watched} {s t : Store} {result : Int}
    (hw : Settled w) (hinside : Inside w.decoder)
    (h : importLoop env (paramImportCallback env markSaved) fuel w.decoder s = some (result, t)) :
    ∃ w', watchedLoop env markSaved fuel w s = some (result, w', t) ∧ Settled w' ∧
      (result = 0 → .node bsonEoo 1 ∈ w'.log) := by
  induction fuel generalizing w s with
  | zero => cases h
  | succ fuel ih =>
      simp only [importLoop] at h
      simp only [watchedLoop]
      have hpop : popNesting w.decoder = 1 := by
        unfold popNesting
        rw [if_neg hinside.2]
        exact hinside.1
      rcases bsonDecoderNext_watched (e := env.endian) (watchedCallback env markSaved)
        (paramImportCallback env markSaved) hw s with
        ⟨w', decoder, hsettled, hwatched, hpure⟩ | ⟨heoo, -⟩ |
        ⟨w', hsettled, hnesting, hnoted, hwatched, hpure⟩
      · rw [hpure] at h
        rw [hwatched]
        obtain ⟨rfl, rfl⟩ := Prod.mk.inj (Option.some.inj h)
        exact ⟨w', rfl, hsettled, fun hzero => absurd hzero (by simp)⟩
      · exact absurd heoo hinside.2
      · have hspec := watchedCallback_spec env markSaved hsettled s
        rw [hpure] at h
        rw [hwatched, hspec.result, hspec.store]
        rw [hpop] at hnesting
        by_cases hpositive : 0 < (paramImportCallback env markSaved w'.decoder s).1
        · obtain ⟨hdecoder, hsame, htype⟩ := hspec.next (hspec.result ▸ hpositive)
          rw [if_pos hpositive] at h ⊢
          rw [← hdecoder] at h hsame htype
          exact ih hspec.settled ⟨hsame.trans hnesting, htype⟩ h
        · rw [if_neg hpositive] at h ⊢
          obtain ⟨hresult, rfl⟩ := Prod.mk.inj (Option.some.inj h)
          refine ⟨_, by rw [hresult], hspec.settled, fun hzero => ?_⟩
          obtain ⟨heoo, hleft⟩ := hspec.ended (by rw [hspec.result, hresult, hzero])
          rw [hleft, ← hnesting, ← heoo]
          exact hnoted

/-- An import that notes its accesses ends as the pure one does. -/
theorem watchedImport_spec {markSaved : Bool} {stream : List UInt8} {s t : Store} {result : Int}
    (h : importInternal env (paramImportCallback env markSaved) stream s = some (result, t)) :
    ∃ w, watchedImport env markSaved stream s = some (result, w, t) ∧
      ImportAccesses result w.log := by
  have haccesses : ∀ w : Watched, Settled w → (result = 0 → .node bsonEoo 1 ∈ w.log) →
      ImportAccesses result w.log := by
    intro w hw hended
    exact ⟨fun index b hmem => hw.careful.fine (.store index b) hmem,
      fun type pending room hmem => hw.careful.fine (.copy type pending room) hmem,
      hw.careful.quiet, hended⟩
  have hinit := bsonDecoderInit_watched (e := env.endian) stream
  unfold outcome at hinit
  unfold watchedImport
  unfold importInternal at h
  cases hrun : Decode.bsonDecoderInit env.endian { decoder := Decoder.new stream, log := [] } with
  | ok u w =>
      rw [hrun] at hinit
      obtain ⟨hsettled, hpure⟩ := hinit
      rw [hpure] at h
      have hinside : Inside w.decoder := by
        have hundefined : bsonUndefined ≠ bsonEoo := by decide
        unfold bsonDecoderInit at hpure
        simp only at hpure
        split at hpure
        · rw [← (Prod.mk.inj hpure).2]
          exact ⟨rfl, hundefined⟩
        · exact nomatch (Prod.mk.inj hpure).1
      obtain ⟨w', hloop, hsettled', hended⟩ := watchedLoop_spec hsettled hinside h
      exact ⟨w', hloop, haccesses w' hsettled' hended⟩
  | error err w =>
      rw [hrun] at hinit
      obtain ⟨hsettled, hpure⟩ := hinit
      cases hpair : bsonDecoderInit env.endian stream with
      | mk r decoder =>
          rw [hpair] at hpure h
          obtain rfl : r = -1 := hpure
          obtain ⟨rfl, rfl⟩ := Prod.mk.inj (Option.some.inj h)
          exact ⟨w, rfl, haccesses w hsettled nofun⟩

/-- **Imports.** Whatever the file and the store hold, `param_import` and `param_load` return, and
on the way every byte of a name is stored below `BSON_MAXNAME`, no length but that of a
`BSON_BINDATA` node that fits its buffer leads to a copy, nothing is read after the decoder has
failed, and zero is returned only after the end of the top-level document. -/
theorem import_accesses (env : Env) (stream : List UInt8) (s : Store) :
    (∃ result w t, paramImport env stream s = some (result, t) ∧
        watchedImport env false stream s = some (result, w, t) ∧ ImportAccesses result w.log) ∧
      ∃ result w t, paramLoad env stream s = some (result, t) ∧
        watchedImport env true stream (paramResetAll s) = some (result, w, t) ∧
        ImportAccesses result w.log := by
  constructor
  · obtain ⟨⟨result, t⟩, himport⟩ : ∃ r, paramImport env stream s = some r :=
      paramImport_ends stream s
    obtain ⟨w, hwatched, haccesses⟩ := watchedImport_spec himport
    exact ⟨result, w, t, himport, hwatched, haccesses⟩
  · obtain ⟨⟨result, t⟩, hload⟩ : ∃ r, paramLoad env stream s = some r := paramLoad_ends stream s
    obtain ⟨w, hwatched, haccesses⟩ := watchedImport_spec hload
    exact ⟨result, w, t, hload, hwatched, haccesses⟩

end Px4Firmware.Param
