import Px4Firmware.Bson.RoundTrip
import Px4Firmware.Param.File

/-!
# Px4Firmware.Param.Import

How an import runs, for any callback: it comes to an end (`importInternal_ends`), and two callbacks
that answer alike take it to the same result (`importInternal_rel`). For the callback of the
parameter store: what it asks for does not depend on the store as long as memory can be allocated,
so that the settings an import makes are a function of the file (`importedSets`).
-/

namespace Px4Firmware.Param

open Px4Firmware.Lib
open Px4Firmware.Bson

variable {env : Env} {σ τ : Type}

/-! ### Any callback -/

/-- A callback that only reads from the stream. -/
def Shrinks (callback : Decoder → σ → Int × Decoder × σ) : Prop :=
  ∀ decoder priv, (callback decoder priv).2.1.left ≤ decoder.left

/-- With more fuel than bytes, the loop comes to an end. -/
theorem importLoop_ends {callback : Decoder → σ → Int × Decoder × σ} (hcallback : Shrinks callback)
    {fuel : Nat} {decoder : Decoder} (hfuel : decoder.left < fuel) (priv : σ) :
    ∃ r, importLoop env callback fuel decoder priv = some r := by
  induction fuel generalizing decoder priv with
  | zero => exact absurd hfuel (Nat.not_lt_zero _)
  | succ fuel ih =>
      rcases bsonDecoderNext_cases (e := env.endian) callback decoder priv with
        ⟨result, decoder', hle, hnext⟩ | ⟨decoder', hlt, hnext⟩
      · refine ⟨(result, priv), ?_⟩
        simp only [importLoop, hnext]
        exact if_neg (Int.not_lt.mpr hle)
      · simp only [importLoop, hnext]
        by_cases hpos : 0 < (callback decoder' priv).1
        · rw [if_pos hpos]
          have hleft := Nat.lt_of_le_of_lt (hcallback decoder' priv) hlt
          exact ih (Nat.lt_of_lt_of_le hleft (Nat.le_of_lt_succ hfuel)) _
        · rw [if_neg hpos]
          exact ⟨_, rfl⟩

theorem left_bsonDecoderInit (e : Endian) (stream : List UInt8) :
    (bsonDecoderInit e stream).2.left ≤ stream.length := by
  unfold bsonDecoderInit
  simp only
  split
  · rename_i w rest hread
    exact readInt32_length hread
  · exact Nat.zero_le _

/-- **An import ends**, whatever is in the file. -/
theorem importInternal_ends {callback : Decoder → σ → Int × Decoder × σ}
    (hcallback : Shrinks callback) (stream : List UInt8) (priv : σ) :
    ∃ r, importInternal env callback stream priv = some r := by
  have hleft := left_bsonDecoderInit env.endian stream
  unfold importInternal
  split
  · rename_i decoder hinit
    rw [hinit] at hleft
    exact importLoop_ends hcallback (Nat.lt_succ_of_le hleft) priv
  · exact ⟨_, rfl⟩

/-- Two callbacks that give the same answer and leave the same decoder, from related data to
related data. -/
def Alike (R : σ → τ → Prop) (callback : Decoder → σ → Int × Decoder × σ)
    (callback' : Decoder → τ → Int × Decoder × τ) : Prop :=
  ∀ decoder s t, R s t → (callback decoder s).1 = (callback' decoder t).1 ∧
    (callback decoder s).2.1 = (callback' decoder t).2.1 ∧
    R (callback decoder s).2.2 (callback' decoder t).2.2

section

variable {R : σ → τ → Prop} {callback : Decoder → σ → Int × Decoder × σ}
  {callback' : Decoder → τ → Int × Decoder × τ}

theorem bsonDecoderNext_rel {e : Endian} (halike : Alike R callback callback') :
    Alike R (bsonDecoderNext e callback) (bsonDecoderNext e callback') := by
  intro decoder s t hR
  unfold bsonDecoderNext
  cases decoder.fd with
  | none => exact ⟨rfl, rfl, hR⟩
  | some stream =>
      simp only
      split_ifs
      · exact ⟨rfl, rfl, hR⟩
      · split
        · exact ⟨rfl, rfl, hR⟩
        · exact halike _ s t hR

theorem importLoop_rel (halike : Alike R callback callback') {fuel : Nat} {decoder : Decoder}
    {s s' : σ} {t : τ} {result : Int} (hR : R s t)
    (h : importLoop env callback fuel decoder s = some (result, s')) :
    ∃ t', importLoop env callback' fuel decoder t = some (result, t') ∧ R s' t' := by
  induction fuel generalizing decoder s t with
  | zero => exact nomatch h
  | succ fuel ih =>
      obtain ⟨hresult, hdecoder, hR'⟩ := bsonDecoderNext_rel halike decoder s t hR
      simp only [importLoop] at h ⊢
      rw [← hresult, ← hdecoder]
      split_ifs at h ⊢
      · exact ih hR' h
      · obtain ⟨rfl, rfl⟩ := Prod.mk.inj (Option.some.inj h)
        exact ⟨_, rfl, hR'⟩

theorem importInternal_rel (halike : Alike R callback callback') {stream : List UInt8}
    {s s' : σ} {t : τ} {result : Int} (hR : R s t)
    (h : importInternal env callback stream s = some (result, s')) :
    ∃ t', importInternal env callback' stream t = some (result, t') ∧ R s' t' := by
  unfold importInternal at h ⊢
  split at h
  · exact importLoop_rel halike hR h
  · obtain ⟨rfl, rfl⟩ := Prod.mk.inj (Option.some.inj h)
    exact ⟨t, rfl, hR⟩

end

/-! ### The callback of the store -/

/-- Only the data of a `BSON_BINDATA` node is read by the callback, and needs memory. -/
theorem importNode_cases (env : Env) (decoder : Decoder) :
    (∃ action, ∀ k, importNode env decoder k = (action, decoder, k)) ∨
      ∃ param, ∀ k, importNode env decoder k = importBindata env param decoder k := by
  unfold importNode
  simp only
  by_cases heoo : decoder.node.type = bsonEoo
  · exact .inl ⟨.finish, fun _ => if_pos heoo⟩
  simp only [if_neg heoo]
  by_cases hparam : paramFind env decoder.node.name = paramInvalid
  · exact .inl ⟨.ignore, fun _ => if_pos hparam⟩
  simp only [if_neg hparam]
  by_cases hint : decoder.node.type = bsonInt
  · simp only [if_pos hint]
    by_cases htype : paramType env (paramFind env decoder.node.name) = .int32
    · exact .inl ⟨_, fun _ => if_neg (not_not.mpr htype)⟩
    · exact .inl ⟨_, fun _ => if_pos htype⟩
  simp only [if_neg hint]
  by_cases hdouble : decoder.node.type = bsonDouble
  · simp only [if_pos hdouble]
    by_cases htype : paramType env (paramFind env decoder.node.name) = .float
    · exact .inl ⟨_, fun _ => if_neg (not_not.mpr htype)⟩
    · exact .inl ⟨_, fun _ => if_pos htype⟩
  simp only [if_neg hdouble]
  by_cases hbindata : decoder.node.type = bsonBindata
  · exact .inr ⟨paramFind env decoder.node.name, fun _ => if_pos hbindata⟩
  · exact .inl ⟨.reject, fun _ => if_neg hbindata⟩

theorem left_importBindata (param : ParamT) (decoder : Decoder) (mallocs : Nat) :
    (importBindata env param decoder mallocs).2.1.left ≤ decoder.left := by
  have hcopy := left_bsonDecoderCopyData decoder
  unfold importBindata
  split_ifs
  · exact Nat.le_refl _
  · exact Nat.le_refl _
  · cases env.malloc mallocs with
    | none => exact Nat.le_refl _
    | some p =>
        simp only
        split <;> simpa only [*] using hcopy

theorem left_importNode (env : Env) (decoder : Decoder) (mallocs : Nat) :
    (importNode env decoder mallocs).2.1.left ≤ decoder.left := by
  rcases importNode_cases env decoder with ⟨action, h⟩ | ⟨param, h⟩
  · rw [h]
  · rw [h]
    exact left_importBindata param decoder mallocs

theorem shrinks_paramImportCallback (markSaved : Bool) :
    Shrinks (paramImportCallback env markSaved) := by
  intro decoder s
  have hleft := left_importNode env decoder s.mallocs
  unfold paramImportCallback
  simp only
  split <;> exact hleft

/-- `param_import` and `param_load` return. -/
theorem paramImport_ends (stream : List UInt8) (s : Store) :
    ∃ r, paramImport env stream s = some r :=
  importInternal_ends (shrinks_paramImportCallback false) stream s

theorem paramLoad_ends (stream : List UInt8) (s : Store) : ∃ r, paramLoad env stream s = some r :=
  importInternal_ends (shrinks_paramImportCallback true) stream (paramResetAll s)

/-- Memory can always be allocated. -/
def Allocates (env : Env) : Prop := ∀ k, (env.malloc k).isSome

/-- What a node asks for does not depend on what has been allocated before. -/
theorem importNode_mallocs (halloc : Allocates env) (decoder : Decoder) (k k' : Nat) :
    (importNode env decoder k).1 = (importNode env decoder k').1 ∧
      (importNode env decoder k).2.1 = (importNode env decoder k').2.1 := by
  rcases importNode_cases env decoder with ⟨action, h⟩ | ⟨param, h⟩
  · rw [h, h]
    exact ⟨rfl, rfl⟩
  · obtain ⟨p, hp⟩ := Option.isSome_iff_exists.mp (halloc k)
    obtain ⟨p', hp'⟩ := Option.isSome_iff_exists.mp (halloc k')
    rw [h, h]
    unfold importBindata
    simp only [hp, hp']
    split_ifs
    · exact ⟨rfl, rfl⟩
    · exact ⟨rfl, rfl⟩
    · split <;> exact ⟨rfl, rfl⟩

theorem paramSetInternal_result {s : Store} (hs : Sorted s) (halloc : Allocates env)
    (param : ParamT) (val : List UInt8) (markSaved : Bool) :
    (paramSetInternal env param val markSaved s).1 =
      if paramType env param = .unknown then -1 else 0 := by
  obtain ⟨i, hi⟩ := paramFindChanged_enterChanged hs param
  unfold paramSetInternal
  by_cases htype : paramType env param = .unknown
  · rw [if_pos htype]
    by_cases hrange : handleInRange env param = true
    · rw [if_pos hrange]
      simp only [hi, htype]
    · rw [if_neg hrange]
  · rw [if_neg htype, if_pos (handleInRange_of_type htype)]
    simp only [hi]
    cases hcases : paramType env param with
    | int32 => rfl
    | float => rfl
    | unknown => exact absurd hcases htype
    | struct size =>
        obtain ⟨p, hp⟩ := Option.isSome_iff_exists.mp (halloc (enterChanged param s).mallocs)
        simp only [setStruct, hp]
        split_ifs <;> rfl

/-- A callback that notes the settings that succeed, and otherwise answers as that of the store
does. -/
def noteCallback (env : Env) (decoder : Decoder) (noted : List (ParamT × List UInt8)) :
    Int × Decoder × List (ParamT × List UInt8) :=
  let (action, decoder, _) := importNode env decoder 0
  match action with
  | .finish => (0, decoder, noted)
  | .ignore => (1, decoder, noted)
  | .reject => (-1, decoder, noted)
  | .set param val =>
      if paramType env param = .unknown then (-1, decoder, noted)
      else (1, decoder, noted ++ [(param, val)])

/-- The parameters that are set from a file, with the bytes of their values. -/
def importedSets (env : Env) (stream : List UInt8) : List (ParamT × List UInt8) :=
  match importInternal env (noteCallback env) stream [] with
  | some (_, noted) => noted
  | none => []

end Px4Firmware.Param
