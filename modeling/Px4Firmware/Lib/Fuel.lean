/-!
# Px4Firmware.Lib.Fuel

**Computations with fuel.** A function that walks a linked structure takes fuel and returns `none`
when it runs out. `fueled fuel bound P r` says that the result `r` is `none` only if the fuel was
not more than the bound, and satisfies `P` otherwise. The rules are those of a partial program with
a postcondition: consequence, sequence, and what follows for a result that is there.
-/

namespace Px4Firmware.Lib

universe u v

variable {α : Type u} {β : Type v} {fuel bound bound' : Nat} {P : α → Prop}

/-- The computation ran out of fuel, which was not more than the bound, or its result satisfies the
postcondition. -/
def fueled (fuel bound : Nat) (P : α → Prop) : Option α → Prop
  | none => fuel ≤ bound
  | some a => P a

/-- The rule of consequence. -/
theorem fueled.mono {Q : α → Prop} {r : Option α} (h : fueled fuel bound P r)
    (hbound : bound ≤ bound') (hPQ : ∀ a, P a → Q a) : fueled fuel bound' Q r := by
  cases r with
  | none => exact Nat.le_trans h hbound
  | some a => exact hPQ a h

/-- Two things that are true of the same result. -/
theorem fueled.and {Q : α → Prop} {r : Option α} (h : fueled fuel bound P r)
    (h' : fueled fuel bound Q r) : fueled fuel bound (fun a => P a ∧ Q a) r := by
  cases r with
  | none => exact h
  | some a => exact ⟨h, h'⟩

/-- The rule of sequence. -/
theorem fueled.bind {Q : β → Prop} {r : Option α} {f : α → Option β} (h : fueled fuel bound P r)
    (hf : ∀ a, P a → fueled fuel bound Q (f a)) : fueled fuel bound Q (r.bind f) := by
  cases r with
  | none => exact h
  | some a => exact hf a h

/-- What is true of a result. -/
theorem fueled.some {r : Option α} {a : α} (h : fueled fuel bound P r) (hr : r = some a) : P a := by
  subst hr
  exact h

/-- With more fuel than the bound there is a result. -/
theorem fueled.exists_some {r : Option α} (h : fueled (bound + 1) bound P r) :
    ∃ a, r = .some a ∧ P a := by
  cases r with
  | none => exact absurd h (Nat.not_succ_le_self bound)
  | some a => exact ⟨a, rfl, h⟩

/-! ### The result does not depend on the fuel -/

/-- With any two amounts of fuel that are enough, the result is the same. -/
def FuelFree (f : Nat → Option α) : Prop :=
  ∀ ⦃fuel fuel' : Nat⦄ ⦃a b : α⦄, f fuel = some a → f fuel' = some b → a = b

theorem FuelFree.const (r : Option α) : FuelFree fun _ => r := by
  intro _ _ a b ha hb
  exact Option.some.inj (ha.symm.trans hb)

theorem FuelFree.bind {f : Nat → Option α} {g : α → Nat → Option β} (hf : FuelFree f)
    (hg : ∀ a, FuelFree (g a)) : FuelFree fun fuel => (f fuel).bind fun a => g a fuel := by
  intro fuel fuel' b b' hb hb'
  obtain ⟨a, ha, hrest⟩ := Option.bind_eq_some_iff.mp hb
  obtain ⟨a', ha', hrest'⟩ := Option.bind_eq_some_iff.mp hb'
  obtain rfl := hf ha ha'
  exact hg a hrest hrest'

/-- The rule of the loop: with each unit of fuel it ends, or goes on from another state. -/
theorem FuelFree.loop {σ : Type v} {f : Nat → σ → Option α} (hzero : ∀ s, f 0 s = none)
    (hsucc : ∀ s, (∃ r, ∀ fuel, f (fuel + 1) s = r) ∨ ∃ s', ∀ fuel, f (fuel + 1) s = f fuel s')
    (s : σ) : FuelFree fun fuel => f fuel s := by
  intro fuel fuel' a b ha hb
  induction fuel generalizing fuel' s with
  | zero => exact nomatch (hzero s).symm.trans ha
  | succ fuel ih =>
      cases fuel' with
      | zero => exact nomatch (hzero s).symm.trans hb
      | succ fuel' =>
          dsimp only at ha hb
          rcases hsucc s with ⟨r, hend⟩ | ⟨s', hnext⟩
          · rw [hend] at ha hb
            exact Option.some.inj (ha.symm.trans hb)
          · rw [hnext] at ha hb
            exact ih s' ha hb

end Px4Firmware.Lib
