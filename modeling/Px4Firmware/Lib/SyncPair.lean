import Mathlib.Algebra.Group.Nat.Even
import Px4Firmware.Lib.Stretch

/-!
# Px4Firmware.Lib.SyncPair

**Hunting for a pair of symbols.** A decoder of frames waits for the pair that each frame begins
with. Many decoders that have the first symbol of the pair and then get another one than the second
start anew, without a look at whether this one is itself the first of a pair (`Hunts`).

`Hunts.feed_garbage` says where such a decoder is after symbols without the pair: it has half of a
pair if and only if they end in an odd number of first symbols in a row. After an even number, what
follows is read as by a fresh decoder (`Hunts.feed_append_of_even`). After an odd number, the first
symbol of a frame is lost, and the decoder does not get as deep into the frame as the frame is long
(`Hunts.even_of_depth`).
-/

namespace Px4Firmware.Lib

variable {σ β ρ : Type*}

/-- The symbols are parsed one after the other: what was returned for each, and the state. -/
def feed (parse : β → σ → ρ × σ) : List β → σ → List ρ × σ
  | [], s => ([], s)
  | b :: bs, s =>
      let (returned, s) := parse b s
      let (rest, s) := feed parse bs s
      (returned :: rest, s)

section

variable (parse : β → σ → ρ × σ)

theorem feed_cons (b : β) (bs : List β) (s : σ) :
    feed parse (b :: bs) s =
      ((parse b s).1 :: (feed parse bs (parse b s).2).1, (feed parse bs (parse b s).2).2) := rfl

theorem feed_append (bs cs : List β) (s : σ) :
    feed parse (bs ++ cs) s =
      ((feed parse bs s).1 ++ (feed parse cs (feed parse bs s).2).1,
        (feed parse cs (feed parse bs s).2).2) := by
  induction bs generalizing s with
  | nil => rfl
  | cons b bs ih => rw [List.cons_append, feed_cons, feed_cons, ih, List.cons_append]

/-- What holds of the symbols received so far, when each of the next ones keeps it and is quiet. -/
theorem feed_receives {P : List β → σ → Prop} {quiet : ρ} (bound : Nat)
    (hstep : ∀ {received s}, P received s → received.length < bound → ∀ b,
      (parse b s).1 = quiet ∧ P (received ++ [b]) (parse b s).2)
    (bs : List β) {received : List β} {s : σ} (h : P received s)
    (hbound : received.length + bs.length ≤ bound) :
    (feed parse bs s).1 = List.replicate bs.length quiet ∧
      P (received ++ bs) (feed parse bs s).2 := by
  induction bs generalizing received s with
  | nil =>
      rw [List.append_nil]
      exact ⟨rfl, h⟩
  | cons b bs ih =>
      rw [List.length_cons] at hbound
      obtain ⟨hquiet, hnext⟩ := hstep h (by omega) b
      obtain ⟨hrest, hdone⟩ := ih hnext (by rw [List.length_append, List.length_singleton]; omega)
      rw [List.append_assoc, List.singleton_append] at hdone
      rw [feed_cons, hquiet, hrest]
      exact ⟨rfl, hdone⟩

end

/-! ### Depth -/

/-- The depth of a state counts symbols of a frame: one symbol makes it at most one deeper. -/
structure Deepens (parse : β → σ → ρ × σ) (inv : σ → Prop) (depth : σ → Nat) : Prop where
  keeps : ∀ b s, inv s → inv (parse b s).2
  step : ∀ b s, inv s → depth (parse b s).2 ≤ depth s + 1

variable {parse : β → σ → ρ × σ} {inv : σ → Prop} {depth : σ → Nat}

theorem Deepens.feed (h : Deepens parse inv depth) (bs : List β) {s : σ} (hs : inv s) :
    depth (feed parse bs s).2 ≤ depth s + bs.length := by
  induction bs generalizing s with
  | nil => exact Nat.le_refl _
  | cons b bs ih =>
      have hrest := ih (h.keeps b s hs)
      have hstep := h.step b s hs
      rw [feed_cons, List.length_cons]
      dsimp only
      omega

/-! ### Hunting -/

/-- The decoder hunts for the pair: from the fresh state, and from the one that has half of it. -/
structure Hunts (parse : β → σ → ρ × σ) (quiet : ρ) (first second : β) (fresh half : σ) :
    Prop where
  ne : first ≠ second
  fresh_first : parse first fresh = (quiet, half)
  fresh_other : ∀ b, b ≠ first → parse b fresh = (quiet, fresh)
  half_other : ∀ b, b ≠ second → parse b half = (quiet, fresh)

namespace Hunts

variable [DecidableEq β] {quiet : ρ} {first second : β} {fresh half : σ} {l : List β}

/-- **Symbols without the pair.** The decoder has half of a pair if and only if the number of first
symbols at the end is odd. -/
theorem feed_garbage (h : Hunts parse quiet first second fresh half)
    (hl : ¬ [first, second] <:+: l) :
    feed parse l fresh = (List.replicate l.length quiet,
      if Even (trailing (· = first) l) then fresh else half) := by
  induction l using List.reverseRecOn with
  | nil => rfl
  | append_singleton l x ih =>
      have hinit : ¬ [first, second] <:+: l :=
        fun hin => hl (hin.trans (List.prefix_append l [x]).isInfix)
      rw [feed_append, ih hinit, trailing_concat, List.length_append, List.length_singleton,
        List.replicate_succ', feed_cons]
      dsimp only
      have hcount : (decide (x = first) = true) = (x = first) := decide_eq_true_eq
      simp only [hcount]
      by_cases heven : Even (trailing (· = first) l)
      · rw [if_pos heven]
        by_cases hx : x = first
        · have hodd : ¬ Even (trailing (· = first) l + 1) := by
            rw [Nat.even_add_one]
            exact not_not_intro heven
          rw [if_pos hx, if_neg hodd, hx, h.fresh_first]
          rfl
        · rw [if_neg hx, if_pos Even.zero, h.fresh_other x hx]
          rfl
      · -- The list ends in a first symbol, so that this one is not the second of a pair.
        have hother : x ≠ second := by
          rintro rfl
          obtain ⟨l', y, rfl, hy⟩ := exists_concat_of_trailing
            (fun hzero => heven (by rw [hzero]; exact Even.zero))
          refine hl ⟨l', [], ?_⟩
          rw [of_decide_eq_true hy]
          simp
        rw [if_neg heven, h.half_other x hother]
        by_cases hx : x = first
        · rw [if_pos hx, if_pos (Nat.even_add_one.mpr heven)]
          rfl
        · rw [if_neg hx, if_pos Even.zero]
          rfl

/-- After an even number of first symbols, what follows is read by a fresh decoder. -/
theorem feed_append_of_even (h : Hunts parse quiet first second fresh half)
    (hl : ¬ [first, second] <:+: l) (heven : Even (trailing (· = first) l)) (bs : List β) :
    feed parse (l ++ bs) fresh =
      (List.replicate l.length quiet ++ (feed parse bs fresh).1, (feed parse bs fresh).2) := by
  rw [feed_append, h.feed_garbage hl, if_pos heven]

/-- **After an odd number**, the first symbol of what follows is lost: the decoder does not get as
deep as it is long. -/
theorem even_of_depth (h : Hunts parse quiet first second fresh half)
    (hdeepens : Deepens parse inv depth) (hinv : inv fresh) (hzero : depth fresh = 0)
    (hl : ¬ [first, second] <:+: l) (bs : List β)
    (hdeep : (first :: bs).length ≤ depth (feed parse (l ++ first :: bs) fresh).2) :
    Even (trailing (· = first) l) := by
  by_contra hodd
  rw [feed_append, h.feed_garbage hl, if_neg hodd, feed_cons, h.half_other first h.ne] at hdeep
  have hdepth := hdeepens.feed bs hinv
  rw [List.length_cons] at hdeep
  dsimp only at hdeep
  omega

end Hunts

end Px4Firmware.Lib
