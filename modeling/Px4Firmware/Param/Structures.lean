import Px4Firmware.Param.History

/-!
# Px4Firmware.Param.Structures

**Structure parameters as values.** `param_set` copies a structure from the buffer of the caller to
a block of its own, where it stays until the next set or reset (`Stored`). `param_get` and
`param_export` do not read it there: `param_get_value_ptr` follows the pointer for the type
`PARAM_TYPE_STRUCT` only, that is for structures of size zero, and points to the pointer itself for
the others. What they give is the address of the structure and what lies behind it. So no structure
of some size is like a value, after any history: not wherever `malloc` puts it, and whatever the
memory holds (`structure_values`).
-/

namespace Px4Firmware.Param

open Px4Firmware.Lib
open Px4Firmware.Bson

/-! ### The caller and the store -/

/-- The store, and the buffer from which the caller sets structures. -/
structure Caller where
  store : Store
  buffer : List UInt8

/-- The caller changes its buffer, sets a parameter from it or resets one. -/
inductive StructOp
  | write (bytes : List UInt8)
  | set (param : ParamT)
  | reset (param : ParamT)

/-- What a step of the caller does. -/
def StructOp.apply (env : Env) : StructOp → Caller → Caller
  | .write bytes, c => { c with buffer := bytes }
  | .set param, c => { c with store := (paramSet env param c.buffer c.store).2 }
  | .reset param, c => { c with store := paramReset env param c.store }

/-- The bytes of the last set since the last reset. -/
abbrev LastSet := ParamT → Option (List UInt8)

/-- A set that succeeds sets a parameter to what is in the buffer at that time. -/
def noteLast (env : Env) (last : LastSet) (c : Caller) : StructOp → LastSet
  | .write _ => last
  | .set param =>
      if (paramSet env param c.buffer c.store).1 = 0 then
        Function.update last param (some (c.buffer.take (paramSize env param)))
      else last
  | .reset param => Function.update last param none

/-- The histories of sets and resets, with the bytes of the last sets. The memory of the defaults
is given. -/
def structures (env : Env) (image : UInt32 → List UInt8) : LTS (Caller × LastSet) StructOp :=
  LTS.observe
    { init := fun c => c.store.values = none ∧ c.store.memory = image
      step := fun c op c' => op.apply env c = c' }
    (fun _ => none) fun last c op _ => noteLast env last c op

/-- The bytes of a structure: those of the last set, or of the default. -/
def structureBytes (env : Env) (image : UInt32 → List UInt8) (last : LastSet) (param : ParamT)
    (size : Nat) : List UInt8 :=
  (last param).getD ((image (paramDefault env param)).take size)

/-- What is known of `malloc`. A block is not at the null pointer, not where another block is that
has not been freed, and not where the program has the default of a structure. None of the blocks
is ever freed. -/
structure FreshMalloc (env : Env) : Prop where
  nonnull : ∀ k, env.malloc k ≠ some 0
  distinct : ∀ k k' p, env.malloc k = some p → env.malloc k' = some p → k = k'
  apart : ∀ k param size, paramType env param = .struct size →
    env.malloc k ≠ some (paramDefault env param)

/-! ### Where the structures are -/

/-- Every structure that has been set has a block of its own, with the bytes of the last set. -/
structure Stored (env : Env) (image : UInt32 → List UInt8) (s : Store) (last : LastSet) :
    Prop where
  sorted : Sorted s
  image : ∀ q size, paramType env q = .struct size →
    s.memory (paramDefault env q) = image (paramDefault env q)
  used : ∀ q size, paramType env q = .struct size → pointer q s ≠ 0 →
    ∃ k, k < s.mallocs ∧ env.malloc k = some (pointer q s)
  apart : ∀ q q' size size', paramType env q = .struct size → paramType env q' = .struct size' →
    q ≠ q' → pointer q s ≠ 0 → pointer q s ≠ pointer q' s
  unset : ∀ q size, paramType env q = .struct size → pointer q s = 0 → last q = none
  set : ∀ q size, paramType env q = .struct size → pointer q s ≠ 0 →
    last q = some ((s.memory (pointer q s)).take size)

section

variable {env : Env} {image : UInt32 → List UInt8} {s t : Store} {last : LastSet}

/-- What does not touch the structures. -/
theorem Stored.of_same (h : Stored env image s last) (ht : Sorted t) (hmemory : t.memory = s.memory)
    (hmallocs : s.mallocs ≤ t.mallocs)
    (hpointer : ∀ q size, paramType env q = .struct size → pointer q t = pointer q s) :
    Stored env image t last where
  sorted := ht
  image q size hq := by
    rw [hmemory]
    exact h.image q size hq
  used q size hq hne := by
    rw [hpointer q size hq] at hne ⊢
    obtain ⟨k, hk, hmalloc⟩ := h.used q size hq hne
    exact ⟨k, Nat.lt_of_lt_of_le hk hmallocs, hmalloc⟩
  apart q q' size size' hq hq' hqq' hne := by
    rw [hpointer q size hq] at hne ⊢
    rw [hpointer q' size' hq']
    exact h.apart q q' size size' hq hq' hqq' hne
  unset q size hq hnull := by
    rw [hpointer q size hq] at hnull
    exact h.unset q size hq hnull
  set q size hq hne := by
    rw [hpointer q size hq] at hne ⊢
    rw [hmemory]
    exact h.set q size hq hne

/-- What is noted of a parameter that is not a structure does not matter. -/
theorem Stored.of_last (h : Stored env image s last) {param : ParamT}
    (hparam : ∀ size, paramType env param ≠ .struct size) (bytes : Option (List UInt8)) :
    Stored env image s (Function.update last param bytes) where
  sorted := h.sorted
  image := h.image
  used := h.used
  apart := h.apart
  unset q size hq hnull := by
    have hne : q ≠ param := fun hqp => hparam size (hqp ▸ hq)
    rw [Function.update_of_ne hne]
    exact h.unset q size hq hnull
  set q size hq hpointer := by
    have hne : q ≠ param := fun hqp => hparam size (hqp ▸ hq)
    rw [Function.update_of_ne hne]
    exact h.set q size hq hpointer

/-- A structure is written to its block, which may be new. -/
theorem Stored.write (h : Stored env image s last) {param : ParamT} {size : Fin 16385} {p : UInt32}
    {val : List UInt8} (htype : paramType env param = .struct size)
    (hwritten : Written param p false s t)
    (hmemory : t.memory = Function.update s.memory p (val.take size)) (hne : p ≠ 0)
    (hmallocs : s.mallocs ≤ t.mallocs) (hblock : ∃ k, k < t.mallocs ∧ env.malloc k = some p)
    (hdefault : ∀ q size, paramType env q = .struct size → p ≠ paramDefault env q)
    (hothers : ∀ q size, paramType env q = .struct size → q ≠ param → pointer q s ≠ p) :
    Stored env image t (Function.update last param (some (val.take size))) where
  sorted := hwritten.sorted
  image q size' hq := by
    rw [hmemory, Function.update_of_ne (Ne.symm (hdefault q size' hq))]
    exact h.image q size' hq
  used q size' hq hpointer := by
    by_cases hqp : q = param
    · rw [hqp, hwritten.pointer]
      exact hblock
    · rw [pointer_of_changed (hwritten.others q hqp)] at hpointer ⊢
      obtain ⟨k, hk, hmalloc⟩ := h.used q size' hq hpointer
      exact ⟨k, Nat.lt_of_lt_of_le hk hmallocs, hmalloc⟩
  apart q q' size₁ size₂ hq hq' hqq' hpointer := by
    by_cases hqp : q = param
    · have hq'p : q' ≠ param := fun h => hqq' (hqp.trans h.symm)
      rw [hqp, hwritten.pointer, pointer_of_changed (hwritten.others q' hq'p)]
      exact (hothers q' size₂ hq' hq'p).symm
    · rw [pointer_of_changed (hwritten.others q hqp)] at hpointer ⊢
      by_cases hq'p : q' = param
      · rw [hq'p, hwritten.pointer]
        exact hothers q size₁ hq hqp
      · rw [pointer_of_changed (hwritten.others q' hq'p)]
        exact h.apart q q' size₁ size₂ hq hq' hqq' hpointer
  unset q size' hq hnull := by
    by_cases hqp : q = param
    · rw [hqp, hwritten.pointer] at hnull
      exact absurd hnull hne
    · rw [pointer_of_changed (hwritten.others q hqp)] at hnull
      rw [Function.update_of_ne hqp]
      exact h.unset q size' hq hnull
  set q size' hq hpointer := by
    by_cases hqp : q = param
    · obtain rfl : size' = size := by
        rw [hqp] at hq
        exact ParamType.struct.inj (hq.symm.trans htype)
      rw [hqp, hwritten.pointer, Function.update_self, hmemory, Function.update_self,
        List.take_take, Nat.min_self]
    · rw [pointer_of_changed (hwritten.others q hqp)] at hpointer ⊢
      rw [Function.update_of_ne hqp, hmemory, Function.update_of_ne (hothers q size' hq hqp)]
      exact h.set q size' hq hpointer

/-- A set that succeeds is noted, and one that fails changes no structure. -/
theorem Stored.set_ends (hmalloc : FreshMalloc env) (h : Stored env image s last) {param : ParamT}
    {val : List UInt8} {result : Int} (hends : SetEnds env param val false s result t) :
    Stored env image t (if result = 0 then
      Function.update last param (some (val.take (paramSize env param))) else last) := by
  have hsorted := hends.sorted h.sorted
  cases hends with
  | outOfRange _ harray hmemory hmallocs =>
      exact h.of_same hsorted hmemory (Nat.le_of_eq hmallocs.symm)
        fun q _ _ => pointer_of_changed (changed_of_array harray q)
  | untyped _ _ harray hmemory hmallocs =>
      exact h.of_same hsorted hmemory (Nat.le_of_eq hmallocs.symm)
        fun q _ _ => pointer_of_entered h.sorted harray q
  | noMemory _ _ _ harray hmemory hmallocs =>
      exact h.of_same hsorted hmemory (Nat.le_of_lt (Nat.lt_of_lt_of_eq (Nat.lt_succ_self _)
        hmallocs.symm)) fun q _ _ => pointer_of_entered h.sorted harray q
  | scalar hscalar hmemory hmallocs hwritten =>
      refine (h.of_same hsorted hmemory (Nat.le_of_eq hmallocs.symm) ?_).of_last hscalar.ne_struct _
      intro q size hq
      have hne : q ≠ param := fun hqp => hscalar.ne_struct size (hqp ▸ hq)
      exact pointer_of_changed (hwritten.others q hne)
  | overwritten htype hpointer hmemory hmallocs hwritten =>
      rw [if_pos rfl, paramSize_struct htype]
      obtain ⟨k, hk, hblock⟩ := h.used param _ htype hpointer
      refine h.write htype hwritten hmemory hpointer (Nat.le_of_eq hmallocs.symm)
        ⟨k, hmallocs ▸ hk, hblock⟩ ?_ ?_
      · intro q size hq heq
        exact hmalloc.apart k q size hq (heq ▸ hblock)
      · intro q size hq hne heq
        exact h.apart param q _ size htype hq (Ne.symm hne) hpointer heq.symm
  | allocated htype hnull hblock hmemory hmallocs hwritten =>
      have hlt : s.mallocs < s.mallocs + 1 := Nat.lt_succ_self _
      rw [if_pos rfl, paramSize_struct htype]
      refine h.write htype hwritten hmemory (fun hp => hmalloc.nonnull _ (hp ▸ hblock))
        (Nat.le_of_lt (hmallocs ▸ hlt)) ⟨s.mallocs, hmallocs ▸ hlt, hblock⟩ ?_ ?_
      · intro q size hq heq
        exact hmalloc.apart _ q size hq (heq ▸ hblock)
      · intro q size hq _ heq
        -- the other block has been allocated before
        have hp : pointer q s ≠ 0 := fun hnull' => hmalloc.nonnull _ (by rw [hblock, ← heq, hnull'])
        obtain ⟨k, hk, hmalloc'⟩ := h.used q size hq hp
        exact absurd (hmalloc.distinct k s.mallocs _ hmalloc' (heq ▸ hblock)) (Nat.ne_of_lt hk)

/-- A reset takes the block away. -/
theorem Stored.reset (h : Stored env image s last) (param : ParamT) :
    Stored env image (paramReset env param s) (Function.update last param none) := by
  by_cases hrange : handleInRange env param = true
  · obtain ⟨hsorted, hreset⟩ := paramReset_spec env h.sorted hrange
    have hmemory : (paramReset env param s).memory = s.memory := by
      unfold paramReset
      rw [if_pos hrange]
      cases paramFindChanged param s <;> rfl
    have hmallocs : (paramReset env param s).mallocs = s.mallocs := by
      unfold paramReset
      rw [if_pos hrange]
      cases paramFindChanged param s <;> rfl
    have hself : pointer param (paramReset env param s) = 0 := by
      unfold pointer
      rw [hreset param, if_pos rfl]
      rfl
    have hother : ∀ q, q ≠ param → pointer q (paramReset env param s) = pointer q s := by
      intro q hq
      refine pointer_of_changed ?_
      rw [hreset q, if_neg hq]
    have hset : ∀ q, pointer q (paramReset env param s) ≠ 0 →
        q ≠ param ∧ pointer q (paramReset env param s) = pointer q s := by
      intro q hne
      have hq : q ≠ param := fun hqp => hne (hqp ▸ hself)
      exact ⟨hq, hother q hq⟩
    refine ⟨hsorted, ?_, ?_, ?_, ?_, ?_⟩
    · intro q size hq
      rw [hmemory]
      exact h.image q size hq
    · intro q size hq hne
      obtain ⟨-, hsame⟩ := hset q hne
      rw [hsame] at hne ⊢
      rw [hmallocs]
      exact h.used q size hq hne
    · intro q q' size size' hq hq' hqq' hne
      obtain ⟨-, hsame⟩ := hset q hne
      by_cases hq'p : q' = param
      · rw [hq'p, hself]
        exact hne
      · rw [hsame] at hne ⊢
        rw [hother q' hq'p]
        exact h.apart q q' size size' hq hq' hqq' hne
    · intro q size hq hnull
      by_cases hqp : q = param
      · rw [hqp, Function.update_self]
      · rw [hother q hqp] at hnull
        rw [Function.update_of_ne hqp]
        exact h.unset q size hq hnull
    · intro q size hq hne
      obtain ⟨hqp, hsame⟩ := hset q hne
      rw [hsame] at hne ⊢
      rw [Function.update_of_ne hqp, hmemory]
      exact h.set q size hq hne
  · have hstruct : ∀ size, paramType env param ≠ .struct size := fun size hsize =>
      hrange (handleInRange_of_type (hsize ▸ nofun))
    rw [show paramReset env param s = s from if_neg hrange]
    exact h.of_last hstruct none

theorem stored_of_reachable (hmalloc : FreshMalloc env) {p : Caller × LastSet}
    (h : (structures env image).Reachable p) : Stored env image p.1.store p.2 := by
  refine h.invariant (I := fun p => Stored env image p.1.store p.2) ?_ ?_
  · rintro ⟨⟨s, buffer⟩, last⟩ ⟨⟨hinit, rfl⟩, rfl⟩
    have hnull : ∀ q, pointer q s = 0 := by
      intro q
      unfold pointer
      rw [changed_of_values_none hinit q]
      rfl
    have hwellFormed : WellFormed env s := .of_values_none hinit
    exact ⟨hwellFormed.sorted, fun _ _ _ => rfl, fun q _ _ hne => absurd (hnull q) hne,
      fun q _ _ _ _ _ _ hne => absurd (hnull q) hne, fun _ _ _ _ => rfl,
      fun q _ _ hne => absurd (hnull q) hne⟩
  · rintro ⟨⟨s, buffer⟩, last⟩ op ⟨c, last'⟩ hs ⟨hstep, hlast⟩
    obtain rfl : op.apply env ⟨s, buffer⟩ = c := hstep
    obtain rfl : last' = noteLast env last ⟨s, buffer⟩ op := hlast
    cases op with
    | write bytes => exact hs
    | set param =>
        exact hs.set_ends hmalloc (paramSetInternal_ends env hs.sorted param buffer false)
    | reset param => exact hs.reset param

end

/-! ### What is read -/

/-- The value of a parameter, which is the pointer of a structure. -/
def paramWord (env : Env) (param : ParamT) (s : Store) : ParamValue :=
  ((changed param s).map ParamWbuf.val).getD (paramDefault env param)

/-- **The structure is like a value**: it is got and exported as the bytes of the last set, or of
the default. -/
structure ValueLike (env : Env) (s : Store) (param : ParamT) (size : Nat) (bytes : List UInt8) :
    Prop where
  get : paramGet env param true s = some bytes
  node : changed param s ≠ none → exportedNode env s param =
    payloadNode env.endian ((paramName env param).getD []) bsonBinBinary size bytes

/-- The same program, with its blocks at other addresses and other memory behind its values. -/
def Env.placed (env : Env) (malloc : Nat → Option UInt32)
    (behind : List ParamWbuf → ParamT → List UInt8) : Env :=
  { env with malloc := malloc, behind := behind }

/-- The law: after the steps of the caller the structure is like a value, wherever `malloc` puts the
blocks, whatever lies behind the values, and whatever the defaults hold. -/
def LikeValue (env : Env) (param : ParamT) (size : Nat) (ops : List StructOp) : Prop :=
  ∀ malloc behind image, FreshMalloc (env.placed malloc behind) →
    ∀ start c last, (structures (env.placed malloc behind) image).init start →
      (structures (env.placed malloc behind) image).Run start ops (c, last) →
        ValueLike (env.placed malloc behind) c.store param size
          (structureBytes (env.placed malloc behind) image last param size)

section

variable {env : Env} {image : UInt32 → List UInt8} {s : Store} {last : LastSet} {param : ParamT}
  {size : Fin 16385}

/-- A structure of some size is read where its pointer is. -/
theorem paramGetValuePtr_struct (htype : paramType env param = .struct size) (hsize : size ≠ 0)
    (s : Store) : paramGetValuePtr env param s =
      some (env.endian.bytes32 (paramWord env param s) ++ env.behind s.array param) := by
  cases hinfo : env.table.info[param]? with
  | none =>
      rw [paramType, hinfo] at htype
      exact nomatch htype
  | some info =>
      rw [paramType_eq hinfo] at htype
      have hfollow : info.type ≠ .struct 0 := by
        rw [htype]
        exact fun h => hsize (ParamType.struct.inj h)
      unfold paramGetValuePtr paramWord paramDefault
      rw [hinfo]
      simp only [if_neg hfollow]
      cases changed param s <;> rfl

/-- A structure that is like a value begins like its address. -/
theorem ValueLike.head_eq (htype : paramType env param = .struct size) (hsize : size ≠ 0)
    {bytes : List UInt8} (h : ValueLike env s param size (bytes.take size)) :
    bytes.head? = (env.endian.bytes32 (paramWord env param s)).head? := by
  have hpos : 0 < (size : Nat) := Nat.pos_of_ne_zero fun hzero => hsize (Fin.ext hzero)
  have hget : paramGet env param true s = some
      ((env.endian.bytes32 (paramWord env param s) ++ env.behind s.array param).take size) := by
    unfold paramGet
    rw [if_pos rfl, paramGetValuePtr_struct htype hsize, paramSize_struct htype]
    rfl
  have hhead := congrArg List.head? (Option.some.inj (h.get.symm.trans hget))
  have hword : env.endian.bytes32 (paramWord env param s) ≠ [] := by
    intro hnil
    have hlength := env.endian.bytes32_length (paramWord env param s)
    rw [hnil] at hlength
    cases hlength
  rwa [List.head?_take, List.head?_take, if_neg (Nat.ne_of_gt hpos), if_neg (Nat.ne_of_gt hpos),
    List.head?_append_of_ne_nil _ hword] at hhead

/-- An entry without a block: the value is the null pointer, or the default. -/
theorem paramWord_of_null (h : pointer param s = 0) :
    paramWord env param s = 0 ∨ paramWord env param s = paramDefault env param := by
  unfold pointer at h
  unfold paramWord
  cases hchanged : changed param s with
  | none => exact .inr rfl
  | some w =>
      rw [hchanged] at h
      exact .inl h

theorem paramWord_of_entry (h : changed param s ≠ none) :
    paramWord env param s = pointer param s := by
  obtain ⟨w, hw⟩ := Option.ne_none_iff_exists'.mp h
  unfold paramWord pointer
  rw [hw]
  rfl

/-- The caller can always go on. -/
theorem exists_run (env : Env) (image : UInt32 → List UInt8) (ops : List StructOp)
    (p : Caller × LastSet) : ∃ q, (structures env image).Run p ops q := by
  induction ops generalizing p with
  | nil => exact ⟨p, .nil p⟩
  | cons op ops ih =>
      obtain ⟨q, hrun⟩ := ih (op.apply env p.1, noteLast env p.2 p.1 op)
      exact ⟨q, .cons ⟨rfl, rfl⟩ hrun⟩

theorem exists_other_byte (x y : UInt8) : ∃ b : UInt8, b ≠ x ∧ b ≠ y := by
  by_cases h₀ : (0 : UInt8) ≠ x ∧ (0 : UInt8) ≠ y
  · exact ⟨0, h₀⟩
  by_cases h₁ : (1 : UInt8) ≠ x ∧ (1 : UInt8) ≠ y
  · exact ⟨1, h₁⟩
  · exact ⟨2, by grind⟩

/-- After any history there are addresses and memory with which the structure is not like a value.
-/
theorem not_likeValue (htype : paramType env param = .struct size) (hsize : size ≠ 0)
    (ops : List StructOp) : ¬ LikeValue env param size ops := by
  intro hlaw
  let first (w : ParamValue) : UInt8 := ((env.endian.bytes32 w).head?).getD 0
  obtain ⟨b, hnull, hdefault⟩ := exists_other_byte (first 0) (first (paramDefault env param))
  -- There is no block for the structure, so that it has its default.
  let env' : Env := env.placed (fun _ => none) fun _ _ => []
  let image : UInt32 → List UInt8 := fun _ => List.replicate 16384 b
  have hmalloc : FreshMalloc env' := by
    refine ⟨fun _ => nofun, fun _ _ _ hp => ?_, fun _ _ _ _ => nofun⟩
    cases hp
  let start : Caller × LastSet :=
    (⟨{ values := none, memory := image, mallocs := 0, changes := 0 }, []⟩, fun _ => none)
  have hinit : (structures env' image).init start := ⟨⟨rfl, rfl⟩, rfl⟩
  obtain ⟨⟨c, last⟩, hrun⟩ := exists_run env' image ops start
  have hstored : Stored env' image c.store last :=
    stored_of_reachable hmalloc ⟨start, ops, hinit, hrun⟩
  have hpointer : pointer param c.store = 0 := by
    by_contra hne
    obtain ⟨k, -, hblock⟩ := hstored.used param size htype hne
    cases hblock
  have hvalue := hlaw _ _ image hmalloc start c last hinit hrun
  unfold structureBytes at hvalue
  rw [hstored.unset param size htype hpointer] at hvalue
  have htype' : paramType env' param = .struct size := htype
  have hhead : some b = (env.endian.bytes32 (paramWord env' param c.store)).head? :=
    hvalue.head_eq htype' hsize
  rcases paramWord_of_null hpointer with hword | hword
  · rw [hword] at hhead
    exact hnull (congrArg (Option.getD · 0) hhead)
  · rw [hword] at hhead
    exact hdefault (congrArg (Option.getD · 0) hhead)

/-- With any addresses and any memory, a structure that has been set is lost, unless it begins like
the address of its block. -/
theorem set_lost (hs : Sorted s) (htype : paramType env param = .struct size) (hsize : size ≠ 0)
    {bytes : List UInt8} (hhead : bytes.head? ≠
      (env.endian.bytes32 (pointer param (paramSet env param bytes s).2)).head?) :
    ¬ ValueLike env (paramSet env param bytes s).2 param size (bytes.take size) := by
  intro hvalue
  have hends := paramSetInternal_ends env hs param bytes false
  have hentry : changed param (paramSet env param bytes s).2 ≠ none :=
    hends.entry hs (handleInRange_of_type (htype ▸ nofun))
  have hsame := hvalue.head_eq htype hsize
  rw [paramWord_of_entry hentry] at hsame
  exact hhead hsame

/-- **No structure is like a value.** For every structure parameter of some size and after every
history of sets and resets, with any changes of the buffer of the caller, there are addresses and
contents of the memory with which it is not got or not exported as the bytes of its last set, or of
its default. Whatever these are, every set that succeeds is lost, unless the structure begins like
the address of its block. An export that succeeds consists of the nodes meant here. -/
theorem structure_values (htype : paramType env param = .struct size) (hsize : size ≠ 0) :
    (∀ ops, ¬ LikeValue env param size ops) ∧
    ∀ image c last, FreshMalloc env → (structures env image).Reachable (c, last) →
      (∀ bytes, (paramSet env param bytes c.store).1 = 0 →
        bytes.head? ≠
          (env.endian.bytes32 (pointer param (paramSet env param bytes c.store).2)).head? →
        ¬ ValueLike env (paramSet env param bytes c.store).2 param size (bytes.take size)) ∧
      ∀ onlyUnsaved t bytes, paramExport env onlyUnsaved c.store = (0, t, bytes) →
        bytes = env.endian.bytes32 0 ++ ((c.store.array.filter (selected onlyUnsaved)).flatMap
          (fun w => exportedNode env c.store w.param) ++ [bsonEoo]) := by
  refine ⟨not_likeValue htype hsize, fun image c last hmalloc h => ?_⟩
  have hstored : Stored env image c.store last := stored_of_reachable hmalloc h
  refine ⟨fun bytes _ hhead => set_lost hstored.sorted htype hsize hhead, ?_⟩
  intro onlyUnsaved t bytes hexport
  exact paramExport_nodes hstored.sorted hexport

end

/-- One parameter, a structure of four bytes, on a little-endian machine with memory for sixteen
blocks. -/
def structEnv : Env where
  table := structTable ⟨4, by decide⟩
  endian := .little
  widen f := f.toUInt64 <<< 32
  narrow d := (d >>> 32).toUInt32
  malloc k := if k < 16 then some (UInt32.ofNat (0x20000000 + 64 * k)) else none
  behind _ _ := []
  write _ _ := true

theorem structEnv_malloc : FreshMalloc structEnv := by
  have hblock : ∀ k p, structEnv.malloc k = some p → k < 16 ∧ p.toNat = 0x20000000 + 64 * k := by
    intro k p hp
    simp only [structEnv] at hp
    split_ifs at hp with hk
    cases hp
    refine ⟨hk, ?_⟩
    rw [UInt32.toNat_ofNat']
    omega
  refine ⟨?_, ?_, ?_⟩
  · intro k hnull
    obtain ⟨-, hp⟩ := hblock k 0 hnull
    rw [UInt32.toNat_zero] at hp
    omega
  · intro k k' p hk hk'
    obtain ⟨-, hp⟩ := hblock k p hk
    obtain ⟨-, hp'⟩ := hblock k' p hk'
    omega
  · intro k param size htype hdefault
    obtain ⟨-, hp⟩ := hblock k _ hdefault
    -- the default of the only parameter is below the blocks
    cases param with
    | zero =>
        have hval : (paramDefault structEnv 0).toNat = 0x08001000 := rfl
        rw [hval] at hp
        omega
    | succ param => exact nomatch htype

/-- The store when the program starts, with the default of the structure. -/
def structStart : Store where
  values := none
  memory p := if p = 0x08001000 then [5, 6, 7, 8] else []
  mallocs := 0
  changes := 0

/-- The caller has set the structure to these bytes. -/
def structSet (bytes : List UInt8) : Caller where
  store := (paramSet structEnv 0 bytes structStart).2
  buffer := bytes

theorem reachable_structSet (bytes : List UInt8) :
    (structures structEnv structStart.memory).Reachable
      (structSet bytes, Function.update (fun _ => none) 0 (some (bytes.take 4))) := by
  have hstart : (structures structEnv structStart.memory).Reachable
      (⟨structStart, []⟩, fun _ => none) := .of_init ⟨⟨rfl, rfl⟩, rfl⟩
  have hwrite : (structures structEnv structStart.memory).Reachable
      (⟨structStart, bytes⟩, fun _ => none) := hstart.step (e := .write bytes) ⟨rfl, rfl⟩
  exact hwrite.step (e := .set 0) ⟨rfl, rfl⟩

/-- Four bytes are set, in any memory; and in this one, twice, and exported. -/
theorem structure_values_four :
    ¬ LikeValue structEnv 0 (4 : Fin 16385) [.write [1, 2, 3, 4], .set 0] ∧
      ¬ ValueLike structEnv (paramSet structEnv 0 [1, 2, 3, 4] (structSet [9, 9, 9, 9]).store).2 0
        (4 : Fin 16385) [1, 2, 3, 4] ∧
      ∀ t bytes, paramExport structEnv false (structSet [9, 9, 9, 9]).store = (0, t, bytes) →
        bytes = [0, 0, 0, 0] ++ (exportedNode structEnv (structSet [9, 9, 9, 9]).store 0 ++
          [bsonEoo]) := by
  have htype : paramType structEnv 0 = .struct 4 := rfl
  obtain ⟨hnever, hmemory⟩ := structure_values htype (by decide)
  obtain ⟨hlost, hexport⟩ :=
    hmemory _ (structSet [9, 9, 9, 9]) _ structEnv_malloc (reachable_structSet [9, 9, 9, 9])
  refine ⟨hnever _, hlost [1, 2, 3, 4] rfl (by decide), fun t bytes h => ?_⟩
  exact (hexport false t bytes h).trans rfl

/-- A structure is got as its address. -/
theorem structure_got_as_address :
    ¬ ∀ (env : Env) (image : UInt32 → List UInt8) (c : Caller) (last : LastSet) (param : ParamT)
      (size : Fin 16385), FreshMalloc env → (structures env image).Reachable (c, last) →
        paramType env param = .struct size → size ≠ 0 →
          ValueLike env c.store param size (structureBytes env image last param size) := by
  intro hclaim
  have hvalue := hclaim structEnv structStart.memory (structSet [1, 2, 3, 4]) _ 0 4 structEnv_malloc
    (reachable_structSet [1, 2, 3, 4]) rfl (by decide)
  have hgot : paramGet structEnv 0 true (structSet [1, 2, 3, 4]).store = some [0, 0, 0, 32] := rfl
  have hbytes := Option.some.inj (hgot.symm.trans hvalue.get)
  exact absurd hbytes (by decide)

end Px4Firmware.Param
