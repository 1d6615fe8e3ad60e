/-!
# Px4Firmware.Lib.Purge

**Events that must not matter.** A deterministic machine is a function `step`. Some of its events
are to be ignored, which depends on the state in which they arrive. `purge` leaves them out of a
sequence of events; where they leave the state alone, a run ends as its purged one does, so that
two runs that differ in such events only end in the same state.

* `Along step P s es` — in the run of `es` from `s`, each event arrives in a state with `P`;
* `purge step ignored s es` — the events of this run that are not to be ignored.
-/

namespace Px4Firmware.Lib

universe u v

variable {σ : Type u} {ε : Type v} (step : σ → ε → σ)

/-- Each event of the run arrives in a state with this property. -/
def Along (P : σ → ε → Prop) : σ → List ε → Prop
  | _, [] => True
  | s, e :: es => P s e ∧ Along P (step s e) es

instance Along.decidable (P : σ → ε → Prop) [∀ s e, Decidable (P s e)] :
    ∀ s es, Decidable (Along step P s es)
  | _, [] => inferInstanceAs (Decidable True)
  | s, e :: es =>
      have := Along.decidable P (step s e) es
      inferInstanceAs (Decidable (P s e ∧ Along step P (step s e) es))

/-- The events of the run that are not to be ignored. -/
def purge (ignored : σ → ε → Bool) : σ → List ε → List ε
  | _, [] => []
  | s, e :: es =>
      if ignored s e = true then purge ignored (step s e) es
      else e :: purge ignored (step s e) es

variable {step}

theorem Along.mono {P Q : σ → ε → Prop} (h : ∀ s e, P s e → Q s e) {s : σ} {es : List ε}
    (hes : Along step P s es) : Along step Q s es := by
  induction es generalizing s with
  | nil => trivial
  | cons e es ih => exact ⟨h s e hes.1, ih hes.2⟩

/-- **The purge rule.** Where the ignored events leave the state alone, they can be left out. -/
theorem foldl_purge {ignored : σ → ε → Bool} {s : σ} {es : List ε}
    (h : Along step (fun s e => ignored s e = true → step s e = s) s es) :
    (purge step ignored s es).foldl step s = es.foldl step s := by
  induction es generalizing s with
  | nil => rfl
  | cons e es ih =>
      obtain ⟨hstep, hrest⟩ := h
      unfold purge
      split
      · next hignored =>
          rw [List.foldl_cons, hstep hignored]
          rw [hstep hignored] at hrest
          exact ih hrest
      · rw [List.foldl_cons, List.foldl_cons]
        exact ih hrest

/-- Two runs with the same purged events end in the same state. -/
theorem foldl_eq_of_purge_eq {ignored : σ → ε → Bool} {s : σ} {es fs : List ε}
    (hes : Along step (fun s e => ignored s e = true → step s e = s) s es)
    (hfs : Along step (fun s e => ignored s e = true → step s e = s) s fs)
    (h : purge step ignored s es = purge step ignored s fs) :
    es.foldl step s = fs.foldl step s := by
  rw [← foldl_purge hes, h, foldl_purge hfs]

end Px4Firmware.Lib
