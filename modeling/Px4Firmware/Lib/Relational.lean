import Px4Firmware.Lib.Hoare

/-!
# Px4Firmware.Lib.Relational

**Two runs side by side.** `Relates E R R' x y` says that the programs `x` and `y` of `EStateM`,
started in states that `R` relates, end alike: both normally, with the same result and in states
that `R'` relates, or both with the same error, in states that `E` relates.

With `x` and `y` the same program this is what the program does not see: of two states that differ
in what it does not look at it makes two such states.
-/

namespace Px4Firmware.Lib

variable {ε σ α β : Type}

/-- Two programs end alike. -/
def EndsAlike (E R : σ → σ → Prop) (x y : EStateM ε σ α) (s t : σ) : Prop :=
  outcome x (fun a s' => outcome y (fun b t' => a = b ∧ R s' t') (fun _ _ => False) t)
    (fun e s' => outcome y (fun _ _ => False) (fun d t' => e = d ∧ E s' t') t) s

/-- From related states two programs end alike. -/
def Relates (E R R' : σ → σ → Prop) (x y : EStateM ε σ α) : Prop :=
  ∀ s t, R s t → EndsAlike E R' x y s t

variable {E R R' R'' : σ → σ → Prop}

/-- The states in which the programs end are related, whichever way they end. -/
theorem EndsAlike.after {x y : EStateM ε σ α} {s t : σ} (h : EndsAlike E R x y s t) :
    R (after x s) (after y t) ∨ E (after x s) (after y t) := by
  unfold EndsAlike outcome at h
  unfold Lib.after
  cases hx : x s with
  | ok a s' =>
      rw [hx] at h
      cases hy : y t with
      | ok b t' => rw [hy] at h; exact .inl h.2
      | error d t' => rw [hy] at h; exact h.elim
  | error e s' =>
      rw [hx] at h
      cases hy : y t with
      | ok b t' => rw [hy] at h; exact h.elim
      | error d t' => rw [hy] at h; exact .inr h.2

namespace Relates

theorem pure (a : α) : Relates E R R (Pure.pure a : EStateM ε σ α) (Pure.pure a) :=
  fun _ _ h => ⟨rfl, h⟩

theorem throw (hE : ∀ s t, R s t → E s t) (e : ε) :
    Relates E R R' (MonadExcept.throw e : EStateM ε σ α) (MonadExcept.throw e) :=
  fun s t h => ⟨rfl, hE s t h⟩

theorem modify {f g : σ → σ} (h : ∀ s t, R s t → R' (f s) (g t)) :
    Relates E R R' (modify f : EStateM ε σ Unit) (modify g) :=
  fun s t hst => ⟨rfl, h s t hst⟩

/-- One after the other. -/
theorem bind {x y : EStateM ε σ α} {f g : α → EStateM ε σ β} (hx : Relates E R R' x y)
    (hf : ∀ a, Relates E R' R'' (f a) (g a)) : Relates E R R'' (x >>= f) (y >>= g) := by
  intro s t h
  have hends := hx s t h
  unfold EndsAlike outcome at hends
  unfold EndsAlike
  simp only [outcome_bind]
  unfold outcome
  cases hxs : x s with
  | ok a s' =>
      rw [hxs] at hends
      cases hyt : y t with
      | ok b t' =>
          rw [hyt] at hends
          obtain ⟨rfl, hst⟩ := hends
          exact hf a s' t' hst
      | error d t' => rw [hyt] at hends; exact hends.elim
  | error e s' =>
      rw [hxs] at hends
      cases hyt : y t with
      | ok b t' => rw [hyt] at hends; exact hends.elim
      | error d t' => rw [hyt] at hends; exact hends

theorem ite {c : Prop} [Decidable c] {x x' y y' : EStateM ε σ α} (hx : Relates E R R' x x')
    (hy : Relates E R R' y y') :
    Relates E R R' (if c then x else y) (if c then x' else y') := by
  by_cases h : c
  · rw [if_pos h, if_pos h]
    exact hx
  · rw [if_neg h, if_neg h]
    exact hy

theorem dite {c : Prop} [Decidable c] {x x' : c → EStateM ε σ α} {y y' : ¬ c → EStateM ε σ α}
    (hx : ∀ h, Relates E R R' (x h) (x' h)) (hy : ∀ h, Relates E R R' (y h) (y' h)) :
    Relates E R R' (if h : c then x h else y h) (if h : c then x' h else y' h) := by
  by_cases h : c
  · rw [dif_pos h, dif_pos h]
    exact hx h
  · rw [dif_neg h, dif_neg h]
    exact hy h

/-- Two loops over one list, round by round. -/
theorem forM {f g : α → EStateM ε σ PUnit} (h : ∀ a, Relates E R R (f a) (g a)) (as : List α) :
    Relates E R R (as.forM f) (as.forM g) := by
  induction as with
  | nil => exact .pure _
  | cons a as ih => exact .bind (h a) fun _ => ih

end Relates

end Px4Firmware.Lib
