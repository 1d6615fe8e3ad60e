/-!
# Px4Firmware.Lib.Transition

**Labelled transition systems**, the common shape of the reactive components of
this development: an initial-state predicate and a step relation labelled by
events. Nothing here depends on a particular component.

* `LTS.Run m s es t` — the events `es` lead from `s` to `t`;
* `LTS.Reachable m s` — some run from an initial state ends in `s`;
* `LTS.restrict` — keep only the steps that meet a condition on the state before
  the step and on the event, so that "every run whose steps all meet the
  condition" is a run of the restricted system;
* `LTS.obeying` — keep only the steps that obey a law; `run_obeying_iff` compares
  the two;
* `LTS.observe` — thread a ghost component that watches the steps and never
  influences them;
* `LTS.Run.simulates` — a system whose steps are steps of another, or nothing there,
  has no other runs.

A safety property is proved once as a step lemma and lifted by `Run.invariant` or
`Reachable.invariant`.
-/

namespace Px4Firmware.Lib

universe u v w x

/-- A labelled transition system over states `σ` and events `ε`. -/
structure LTS (σ : Type u) (ε : Type v) where
  /-- The states a run may start in. -/
  init : σ → Prop
  /-- `step s e t`: the event `e` can take `s` to `t`. -/
  step : σ → ε → σ → Prop

namespace LTS

variable {σ : Type u} {ε : Type v} {γ : Type w}

/-- Finitely many steps, with the events they are labelled by. -/
inductive Run (m : LTS σ ε) : σ → List ε → σ → Prop
  | nil (s : σ) : Run m s [] s
  | cons {s t u : σ} {e : ε} {es : List ε} :
      m.step s e t → Run m t es u → Run m s (e :: es) u

/-- A state that some run from an initial state ends in. -/
def Reachable (m : LTS σ ε) (s : σ) : Prop := ∃ s₀ es, m.init s₀ ∧ m.Run s₀ es s

variable {m : LTS σ ε}

theorem Run.append {s t u : σ} {es fs : List ε} (h : m.Run s es t) (h' : m.Run t fs u) :
    m.Run s (es ++ fs) u := by
  induction h with
  | nil => exact h'
  | cons hstep _ ih => exact .cons hstep (ih h')

theorem Run.snoc {s t u : σ} {es : List ε} {e : ε} (h : m.Run s es t) (h' : m.step t e u) :
    m.Run s (es ++ [e]) u :=
  h.append (.cons h' (.nil u))

/-- The last step of a run. -/
theorem Run.exists_of_snoc {s t : σ} {es : List ε} {e : ε} (h : m.Run s (es ++ [e]) t) :
    ∃ u, m.Run s es u ∧ m.step u e t := by
  induction es generalizing s with
  | nil =>
      cases h with
      | cons hstep hrest =>
          cases hrest
          exact ⟨s, .nil s, hstep⟩
  | cons e' es ih =>
      cases h with
      | cons hstep hrest =>
          obtain ⟨u, hrun, hlast⟩ := ih hrest
          exact ⟨u, .cons hstep hrun, hlast⟩

/-- A run of a system whose steps contain a partial function, by evaluating the function. -/
theorem Run.of_foldlM {next : σ → ε → Option σ} (hnext : ∀ s e t, next s e = some t → m.step s e t)
    {s t : σ} {es : List ε} (h : es.foldlM next s = some t) : m.Run s es t := by
  induction es generalizing s with
  | nil =>
      cases h
      exact .nil _
  | cons e es ih =>
      rw [List.foldlM_cons] at h
      obtain ⟨u, hu, hrest⟩ := Option.bind_eq_some_iff.mp h
      exact .cons (hnext s e u hu) (ih hrest)

/-- What every step preserves, every run preserves. -/
theorem Run.invariant {I : σ → Prop} (hstep : ∀ s e t, I s → m.step s e t → I t)
    {s t : σ} {es : List ε} (h : m.Run s es t) (hs : I s) : I t := by
  induction h with
  | nil => exact hs
  | cons h₁ _ ih => exact ih (hstep _ _ _ hs h₁)

/-- **The invariant rule.** A property of the initial states that every step
preserves holds of every reachable state. -/
theorem Reachable.invariant {I : σ → Prop} (hinit : ∀ s, m.init s → I s)
    (hstep : ∀ s e t, I s → m.step s e t → I t) {s : σ} (h : m.Reachable s) : I s := by
  obtain ⟨s₀, es, h₀, hrun⟩ := h
  exact hrun.invariant hstep (hinit s₀ h₀)

/-- Where an event has one outcome, the events of a run have one outcome. -/
theorem Run.unique (hstep : ∀ s e t t', m.step s e t → m.step s e t' → t = t') {s t t' : σ}
    {es : List ε} (h : m.Run s es t) (h' : m.Run s es t') : t = t' := by
  induction h with
  | nil =>
      cases h'
      rfl
  | cons h₁ _ ih =>
      cases h' with
      | cons h₁' hrest =>
          obtain rfl := hstep _ _ _ _ h₁ h₁'
          exact ih hrest

/-- What no step brings about, no run brings about. -/
theorem Run.invariant_back {P : σ → Prop} (hback : ∀ s e t, m.step s e t → P t → P s) {s t : σ}
    {es : List ε} (h : m.Run s es t) (ht : P t) : P s := by
  induction h with
  | nil => exact ht
  | cons hstep _ ih => exact hback _ _ _ hstep (ih ht)

/-- **A property that is never regained** holds at the end of a run exactly when every event was
careful, where careful events keep an invariant and the others lose the property. -/
theorem Run.forall_iff {I P : σ → Prop} {C : ε → Prop} (hP : ∀ s, I s → P s)
    (hkeep : ∀ s e t, I s → m.step s e t → C e → I t)
    (hlose : ∀ s e t, I s → m.step s e t → ¬ C e → ¬ P t)
    (hback : ∀ s e t, m.step s e t → P t → P s) {s t : σ} {es : List ε} (h : m.Run s es t)
    (hs : I s) : P t ↔ ∀ e ∈ es, C e := by
  induction h with
  | nil s => exact ⟨fun _ _ => nofun, fun _ => hP s hs⟩
  | @cons s t u e es hstep hrun ih =>
      by_cases hcareful : C e
      · rw [ih (hkeep s e t hs hstep hcareful), List.forall_mem_cons]
        exact ⟨fun h => ⟨hcareful, h⟩, And.right⟩
      · refine ⟨fun hu => ?_, fun h => absurd (h e List.mem_cons_self) hcareful⟩
        have ht : P t := hrun.invariant_back hback hu
        exact absurd ht (hlose s e t hs hstep hcareful)

theorem Reachable.of_init {s : σ} (h : m.init s) : m.Reachable s := ⟨s, [], h, .nil s⟩

theorem Reachable.step {s t : σ} {e : ε} (h : m.Reachable s) (h' : m.step s e t) :
    m.Reachable t := by
  obtain ⟨s₀, es, h₀, hrun⟩ := h
  exact ⟨s₀, es ++ [e], h₀, hrun.snoc h'⟩

/-! ### Restriction -/

/-- The steps that meet a condition. -/
def restrict (m : LTS σ ε) (C : σ → ε → Prop) : LTS σ ε where
  init := m.init
  step s e t := C s e ∧ m.step s e t

/-- A run of careful steps, by evaluating the function and the condition. -/
theorem Run.restrict_of_foldlM {next : σ → ε → Option σ} {C : σ → ε → Prop}
    [∀ s e, Decidable (C s e)] (hnext : ∀ s e t, next s e = some t → m.step s e t) {s t : σ}
    {es : List ε} (h : es.foldlM (fun s e => if C s e then next s e else none) s = some t) :
    (m.restrict C).Run s es t := by
  refine Run.of_foldlM ?_ h
  intro s e t hst
  by_cases hcareful : C s e
  · rw [if_pos hcareful] at hst
    exact ⟨hcareful, hnext s e t hst⟩
  · rw [if_neg hcareful] at hst
    cases hst

theorem Run.of_restrict {C : σ → ε → Prop} {s t : σ} {es : List ε}
    (h : (m.restrict C).Run s es t) : m.Run s es t := by
  induction h with
  | nil => exact .nil _
  | cons hstep _ ih => exact .cons hstep.2 ih

/-- A run of careful events. -/
theorem Run.restrict_of_forall {C : ε → Prop} {s t : σ} {es : List ε} (h : m.Run s es t)
    (hcareful : ∀ e ∈ es, C e) : (m.restrict fun _ e => C e).Run s es t := by
  induction h with
  | nil => exact .nil _
  | cons hstep _ ih =>
      rw [List.forall_mem_cons] at hcareful
      exact .cons ⟨hcareful.1, hstep⟩ (ih hcareful.2)

theorem Reachable.of_restrict {C : σ → ε → Prop} {s : σ} (h : (m.restrict C).Reachable s) :
    m.Reachable s := by
  obtain ⟨s₀, es, h₀, hrun⟩ := h
  exact ⟨s₀, es, h₀, hrun.of_restrict⟩

/-- The steps that obey a law about the states before and after. -/
def obeying (m : LTS σ ε) (P : σ → ε → σ → Prop) : LTS σ ε where
  init := m.init
  step s e t := m.step s e t ∧ P s e t

theorem Run.of_obeying {P : σ → ε → σ → Prop} {s t : σ} {es : List ε}
    (h : (m.obeying P).Run s es t) : m.Run s es t := by
  induction h with
  | nil => exact .nil _
  | cons hstep _ ih => exact .cons hstep.1 ih

/-- **A condition of a law.** Where careful steps from the states that careful runs reach obey the
law, careful runs obey it. -/
theorem Run.obeying_of_restrict {C : σ → ε → Prop} {P : σ → ε → σ → Prop}
    (h : ∀ s e t, (m.restrict C).Reachable s → m.step s e t → C s e → P s e t) {s t : σ}
    {es : List ε} (hs : (m.restrict C).Reachable s) (hrun : (m.restrict C).Run s es t) :
    (m.obeying P).Run s es t := by
  induction hrun with
  | nil => exact .nil _
  | cons hstep _ ih =>
      have hlaw := h _ _ _ hs hstep.2 hstep.1
      exact .cons ⟨hstep.2, hlaw⟩ (ih (hs.step hstep))

/-- **The exact condition of a law.** Where the steps from the states that careful runs reach obey
the law exactly when they are careful, the runs that obey it are the careful runs. -/
theorem run_obeying_iff {C : σ → ε → Prop} {P : σ → ε → σ → Prop}
    (h : ∀ s e t, (m.restrict C).Reachable s → m.step s e t → (P s e t ↔ C s e)) {s t : σ}
    {es : List ε} (hs : m.init s) : (m.obeying P).Run s es t ↔ (m.restrict C).Run s es t := by
  replace hs : (m.restrict C).Reachable s := Reachable.of_init hs
  constructor
  · intro hrun
    induction hrun with
    | nil => exact .nil _
    | cons hstep _ ih =>
        have hcareful := (h _ _ _ hs hstep.1).mp hstep.2
        exact .cons ⟨hcareful, hstep.1⟩ (ih (hs.step ⟨hcareful, hstep.1⟩))
  · intro hrun
    exact hrun.obeying_of_restrict (fun s e t hreach hstep => (h s e t hreach hstep).mpr) hs

/-! ### Observation -/

/-- A component that watches the steps: `watch g s e t` is its value after the step. -/
def observe (m : LTS σ ε) (start : γ) (watch : γ → σ → ε → σ → γ) : LTS (σ × γ) ε where
  init p := m.init p.1 ∧ p.2 = start
  step p e q := m.step p.1 e q.1 ∧ q.2 = watch p.2 p.1 e q.1

variable {start : γ} {watch : γ → σ → ε → σ → γ}

theorem Run.observe {s t : σ} {es : List ε} (h : m.Run s es t) (g : γ) :
    ∃ g', (m.observe start watch).Run (s, g) es (t, g') := by
  induction h generalizing g with
  | nil s => exact ⟨g, .nil (s, g)⟩
  | cons hstep _ ih =>
      obtain ⟨g', hrun⟩ := ih (watch g _ _ _)
      exact ⟨g', .cons ⟨hstep, rfl⟩ hrun⟩

theorem Run.unobserve {p q : σ × γ} {es : List ε} (h : (m.observe start watch).Run p es q) :
    m.Run p.1 es q.1 := by
  induction h with
  | nil => exact .nil _
  | cons hstep _ ih => exact .cons hstep.1 ih

/-- **Watching changes nothing**: the states that are reached are the same. -/
theorem reachable_observe_iff {s : σ} :
    (∃ g, (m.observe start watch).Reachable (s, g)) ↔ m.Reachable s := by
  constructor
  · rintro ⟨g, p₀, es, ⟨hinit, -⟩, hrun⟩
    exact ⟨p₀.1, es, hinit, hrun.unobserve⟩
  · rintro ⟨s₀, es, hinit, hrun⟩
    obtain ⟨g, hrun'⟩ := hrun.observe start
    exact ⟨g, (s₀, start), es, ⟨hinit, rfl⟩, hrun'⟩

/-! ### Simulation -/

/-- **Forward simulation.** When a step between states that are related to those of `n` is a step of
`n`, or an event that `n` does not see and that keeps the relation, a run is a run of `n`. -/
theorem Run.simulates {τ : Type w} {δ : Type x} {n : LTS τ δ} {R : σ → τ → Prop}
    (label : ε → Option δ)
    (hseen : ∀ s e s' t d, R s t → m.step s e s' → label e = some d → ∃ t', R s' t' ∧ n.step t d t')
    (hunseen : ∀ s e s' t, R s t → m.step s e s' → label e = none → R s' t)
    {s s' : σ} {es : List ε} (h : m.Run s es s') {t : τ} (hR : R s t) :
    ∃ t', R s' t' ∧ n.Run t (es.filterMap label) t' := by
  induction h generalizing t with
  | nil => exact ⟨t, hR, .nil t⟩
  | @cons _ _ _ e _ hstep _ ih =>
      cases hlabel : label e with
      | none =>
          rw [List.filterMap_cons_none hlabel]
          exact ih (hunseen _ _ _ _ hR hstep hlabel)
      | some d =>
          obtain ⟨t₁, hR₁, hstep₁⟩ := hseen _ _ _ _ _ hR hstep hlabel
          obtain ⟨t', hR', hrun⟩ := ih hR₁
          rw [List.filterMap_cons_some hlabel]
          exact ⟨t', hR', .cons hstep₁ hrun⟩

end LTS

end Px4Firmware.Lib
