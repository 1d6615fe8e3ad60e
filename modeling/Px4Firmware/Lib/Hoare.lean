/-!
# Px4Firmware.Lib.Hoare

**Weakest preconditions** for programs in `EStateM`, the monad in which the
stateful components of this development are written.

`wp x Q s` says that the program `x`, run from `s`, ends normally in a state and
with a result that satisfy `Q`; a program that throws satisfies no postcondition.
The rules for the primitives are equivalences and simp lemmas, so `simp` turns
`wp` of a program into the conditions on its state; `wp.mono` is the rule of
consequence and `wp_forM_range` the rule for counting loops.

For programs whose errors are answers, `outcome x Q E s` has a second postcondition `E`
for the runs that throw. `Preserves I x` says that `x` keeps an invariant, whatever it returns.
-/

namespace Px4Firmware.Lib

variable {ε σ α β : Type}

/-- The program ends normally and in the postcondition. -/
def wp (x : EStateM ε σ α) (Q : α → σ → Prop) (s : σ) : Prop :=
  match x s with
  | .ok a t => Q a t
  | .error _ _ => False

theorem wp_iff {x : EStateM ε σ α} {Q : α → σ → Prop} {s : σ} :
    wp x Q s ↔ ∃ a t, x s = .ok a t ∧ Q a t := by
  unfold wp
  cases x s with
  | ok a t => exact ⟨fun h => ⟨a, t, rfl, h⟩, by rintro ⟨_, _, ⟨⟩, h⟩; exact h⟩
  | error e t => exact ⟨False.elim, by rintro ⟨_, _, ⟨⟩, _⟩⟩

theorem wp_of_ok {x : EStateM ε σ α} {Q : α → σ → Prop} {s t : σ} {a : α} (h : x s = .ok a t) :
    wp x Q s ↔ Q a t := by
  unfold wp
  rw [h]

/-- The rule of consequence. -/
theorem wp.mono {x : EStateM ε σ α} {P Q : α → σ → Prop} {s : σ} (h : wp x P s)
    (hPQ : ∀ a t, P a t → Q a t) : wp x Q s := by
  obtain ⟨a, t, hrun, hP⟩ := wp_iff.mp h
  exact (wp_of_ok hrun).mpr (hPQ a t hP)

/-- Two things that are true of the same run. -/
theorem wp.and {x : EStateM ε σ α} {P Q : α → σ → Prop} {s : σ} (h : wp x P s) (h' : wp x Q s) :
    wp x (fun a t => P a t ∧ Q a t) s := by
  obtain ⟨a, t, hrun, hP⟩ := wp_iff.mp h
  exact (wp_of_ok hrun).mpr ⟨hP, (wp_of_ok hrun).mp h'⟩

/-- Does the program end normally? A test that can be evaluated. -/
def ends (x : EStateM ε σ α) (s : σ) : Bool :=
  match x s with
  | .ok _ _ => true
  | .error _ _ => false

theorem wp.ends {x : EStateM ε σ α} {Q : α → σ → Prop} {s : σ} (h : wp x Q s) :
    ends x s = true := by
  obtain ⟨a, t, hrun, -⟩ := wp_iff.mp h
  unfold Lib.ends
  rw [hrun]

/-- The state a program ends in. -/
def after (x : EStateM ε σ α) (s : σ) : σ :=
  match x s with
  | .ok _ t => t
  | .error _ t => t

theorem wp.after_eq {x : EStateM ε σ α} {s t : σ} (h : wp x (fun _ u => u = t) s) :
    after x s = t := by
  obtain ⟨a, u, hrun, rfl⟩ := wp_iff.mp h
  unfold after
  rw [hrun]

theorem ends_iff {x : EStateM ε σ Unit} {s : σ} : ends x s = true ↔ x s = .ok () (after x s) := by
  unfold ends after
  cases x s with
  | ok a t => simp
  | error e t => simp

/-! ### The primitives -/

@[simp] theorem wp_pure (a : α) (Q : α → σ → Prop) (s : σ) :
    wp (pure a : EStateM ε σ α) Q s ↔ Q a s := Iff.rfl

@[simp] theorem wp_bind (x : EStateM ε σ α) (f : α → EStateM ε σ β) (Q : β → σ → Prop) (s : σ) :
    wp (x >>= f) Q s ↔ wp x (fun a t => wp (f a) Q t) s := by
  show (match EStateM.bind x f s with | .ok a t => Q a t | .error _ _ => False) ↔ _
  unfold EStateM.bind wp
  cases x s with
  | ok a t => rfl
  | error e t => rfl

@[simp] theorem wp_get (Q : σ → σ → Prop) (s : σ) : wp (get : EStateM ε σ σ) Q s ↔ Q s s := Iff.rfl

@[simp] theorem wp_modify (f : σ → σ) (Q : Unit → σ → Prop) (s : σ) :
    wp (modify f : EStateM ε σ Unit) Q s ↔ Q () (f s) := Iff.rfl

@[simp] theorem wp_ite (c : Prop) [Decidable c] (x y : EStateM ε σ α) (Q : α → σ → Prop) (s : σ) :
    wp (if c then x else y) Q s ↔ (c → wp x Q s) ∧ (¬ c → wp y Q s) := by
  by_cases h : c
  · simp [h]
  · simp [h]

/-- A guard that throws when it fails: it has to hold. -/
theorem wp_dite_throw {c : Prop} [Decidable c] (x : c → EStateM ε σ α) (e : ε) (Q : α → σ → Prop)
    (s : σ) : wp (if h : c then x h else throw e) Q s ↔ ∃ h : c, wp (x h) Q s := by
  by_cases h : c
  · rw [dif_pos h]
    exact ⟨fun hq => ⟨h, hq⟩, fun ⟨_, hq⟩ => hq⟩
  · rw [dif_neg h]
    exact ⟨False.elim, fun ⟨h', _⟩ => h h'⟩

/-! ### Runs that end normally -/

section

variable {s t : σ}

@[simp] theorem pure_eq_ok {a b : α} : (pure a : EStateM ε σ α) s = .ok b t ↔ a = b ∧ s = t := by
  show EStateM.Result.ok a s = .ok b t ↔ _
  rw [EStateM.Result.ok.injEq]

@[simp] theorem throw_ne_ok {e : ε} {b : α} : (throw e : EStateM ε σ α) s ≠ .ok b t := nofun

/-- A sequence ends normally when both parts do. -/
@[simp] theorem bind_eq_ok {x : EStateM ε σ α} {f : α → EStateM ε σ β} {b : β} :
    (x >>= f) s = .ok b t ↔ ∃ a u, x s = .ok a u ∧ f a u = .ok b t := by
  show EStateM.bind x f s = _ ↔ _
  unfold EStateM.bind
  cases x s with
  | ok a u =>
      constructor
      · intro h
        exact ⟨a, u, rfl, h⟩
      · rintro ⟨_, _, ⟨⟩, h⟩
        exact h
  | error e u =>
      constructor
      · intro h
        cases h
      · rintro ⟨_, _, ⟨⟩, _⟩

/-- A sequence whose first part has no result. -/
theorem seq_eq_ok {x : EStateM ε σ Unit} {f : Unit → EStateM ε σ β} {b : β} :
    (x >>= f) s = .ok b t ↔ ∃ u, x s = .ok () u ∧ f () u = .ok b t := by
  rw [bind_eq_ok]
  exact ⟨fun ⟨(), u, h⟩ => ⟨u, h⟩, fun ⟨u, h⟩ => ⟨(), u, h⟩⟩

/-- Reading the state. -/
theorem get_bind_eq_ok {f : σ → EStateM ε σ β} {b : β} :
    (get >>= f) s = .ok b t ↔ f s s = .ok b t := Iff.rfl

/-- Changing the state. -/
theorem modify_eq_ok {f : σ → σ} : (modify f : EStateM ε σ Unit) s = .ok () t ↔ t = f s := by
  constructor
  · rintro ⟨⟩
    rfl
  · rintro rfl
    rfl

end

/-! ### Loops -/

/-- The rule for `for i in [0, n)`: the invariant holds with `0` before the loop, and
each round takes it from `i` to `i + 1`. -/
theorem wp_forM_range {f : Nat → EStateM ε σ Unit} (I : Nat → σ → Prop) {n : Nat} {s : σ}
    (hround : ∀ i, i < n → ∀ t, I i t → wp (f i) (fun _ u => I (i + 1) u) t) (hs : I 0 s) :
    wp ((List.range n).forM f) (fun _ t => I n t) s := by
  induction n with
  | zero => simpa using hs
  | succ n ih =>
      have hprefix := ih fun i hi => hround i (Nat.lt_succ_of_lt hi)
      rw [List.range_succ]
      have happ : (List.range n ++ [n]).forM f = (List.range n).forM f >>= fun _ => f n := by
        simp
      rw [happ, wp_bind]
      exact hprefix.mono fun _ t ht => hround n (Nat.lt_succ_self n) t ht

/-! ### Errors as answers -/

/-- The program ends normally and in `Q`, or throws and ends in `E`. -/
def outcome (x : EStateM ε σ α) (Q : α → σ → Prop) (E : ε → σ → Prop) (s : σ) : Prop :=
  match x s with
  | .ok a t => Q a t
  | .error e t => E e t

section

variable {Q : α → σ → Prop} {E : ε → σ → Prop} {s : σ}

/-- The rule of consequence. -/
theorem outcome.mono {x : EStateM ε σ α} {P : α → σ → Prop} {D : ε → σ → Prop}
    (h : outcome x P D s) (hPQ : ∀ a t, P a t → Q a t) (hDE : ∀ e t, D e t → E e t) :
    outcome x Q E s := by
  unfold outcome at h ⊢
  cases hx : x s with
  | ok a t => rw [hx] at h; exact hPQ a t h
  | error e t => rw [hx] at h; exact hDE e t h

/-- Two things that are true of the same run. -/
theorem outcome.and {x : EStateM ε σ α} {P : α → σ → Prop} {D : ε → σ → Prop}
    (h : outcome x P D s) (h' : outcome x Q E s) :
    outcome x (fun a t => P a t ∧ Q a t) (fun e t => D e t ∧ E e t) s := by
  unfold outcome at h h' ⊢
  cases hx : x s with
  | ok a t => rw [hx] at h h'; exact ⟨h, h'⟩
  | error e t => rw [hx] at h h'; exact ⟨h, h'⟩

theorem outcome_of_ok {x : EStateM ε σ α} {t : σ} {a : α} (h : x s = .ok a t) :
    outcome x Q E s ↔ Q a t := by
  unfold outcome
  rw [h]

/-- Where a program ends that ends normally. -/
theorem outcome_ok (x : EStateM ε σ α) (s : σ) :
    outcome x (fun a t => x s = .ok a t) (fun _ _ => True) s := by
  unfold outcome
  cases hx : x s with
  | ok a t => rfl
  | error e t => trivial

/-- What is true after either end is true. -/
theorem outcome.elim {x : EStateM ε σ α} {p : Prop}
    (h : outcome x (fun _ _ => p) (fun _ _ => p) s) : p := by
  unfold outcome at h
  cases hx : x s with
  | ok a t => rw [hx] at h; exact h
  | error e t => rw [hx] at h; exact h

@[simp] theorem outcome_pure (a : α) : outcome (pure a : EStateM ε σ α) Q E s ↔ Q a s := Iff.rfl

@[simp] theorem outcome_throw (e : ε) : outcome (throw e : EStateM ε σ α) Q E s ↔ E e s := Iff.rfl

@[simp] theorem outcome_get {Q : σ → σ → Prop} :
    outcome (get : EStateM ε σ σ) Q E s ↔ Q s s := Iff.rfl

@[simp] theorem outcome_modify {Q : Unit → σ → Prop} (f : σ → σ) :
    outcome (modify f : EStateM ε σ Unit) Q E s ↔ Q () (f s) := Iff.rfl

@[simp] theorem outcome_bind {Q : β → σ → Prop} (x : EStateM ε σ α) (f : α → EStateM ε σ β) :
    outcome (x >>= f) Q E s ↔ outcome x (fun a t => outcome (f a) Q E t) E s := by
  show (match EStateM.bind x f s with | .ok a t => Q a t | .error e t => E e t) ↔ _
  unfold EStateM.bind outcome
  cases x s with
  | ok a t => rfl
  | error e t => rfl

@[simp] theorem outcome_map {Q : β → σ → Prop} (f : α → β) (x : EStateM ε σ α) :
    outcome (f <$> x) Q E s ↔ outcome x (fun a t => Q (f a) t) E s := by
  show (match EStateM.map f x s with | .ok a t => Q a t | .error e t => E e t) ↔ _
  unfold EStateM.map outcome
  cases x s with
  | ok a t => rfl
  | error e t => rfl

@[simp] theorem outcome_modifyGet (f : σ → α × σ) :
    outcome (modifyGet f : EStateM ε σ α) Q E s ↔ Q (f s).1 (f s).2 := Iff.rfl

/-- The handler starts in the state in which the program has thrown. -/
@[simp] theorem outcome_tryCatch (x : EStateM ε σ α) (f : ε → EStateM ε σ α) :
    outcome (tryCatch x f) Q E s ↔ outcome x Q (fun e t => outcome (f e) Q E t) s := by
  show (match EStateM.tryCatch x f s with | .ok a t => Q a t | .error e t => E e t) ↔ _
  unfold EStateM.tryCatch outcome
  cases x s with
  | ok a t => rfl
  | error e t => rfl

@[simp] theorem outcome_ite (c : Prop) [Decidable c] (x y : EStateM ε σ α) :
    outcome (if c then x else y) Q E s ↔ (c → outcome x Q E s) ∧ (¬ c → outcome y Q E s) := by
  by_cases h : c
  · simp [h]
  · simp [h]

end

/-! ### Invariants -/

/-- The state in which the program ends, if it ends normally. -/
def completes (x : EStateM ε σ α) (s : σ) : Option σ :=
  match x s with
  | .ok _ t => some t
  | .error _ _ => none

theorem completes_of_ok {x : EStateM ε σ α} {s t : σ} {a : α} (h : x s = .ok a t) :
    completes x s = some t := by
  unfold completes
  rw [h]

theorem completes_eq_some {x : EStateM ε σ Unit} {s t : σ} :
    completes x s = some t ↔ x s = .ok () t := by
  unfold completes
  cases x s with
  | ok a u => simp
  | error e u => simp

theorem outcome.of_completes {x : EStateM ε σ α} {P : σ → Prop} {E : ε → σ → Prop} {s t : σ}
    (h : outcome x (fun _ t => P t) E s) (ht : completes x s = some t) : P t := by
  unfold outcome at h
  unfold completes at ht
  cases hx : x s with
  | ok a u =>
      rw [hx] at h ht
      cases ht
      exact h
  | error e u =>
      rw [hx] at ht
      cases ht

/-- The end of a program whose result is not used. -/
theorem outcome.of_discard {x : EStateM ε σ α} {P : σ → Prop} {E : ε → σ → Prop} {s t : σ}
    (h : outcome x (fun _ t => P t) E s) (ht : Functor.discard x s = .ok () t) : P t := by
  have hdiscard : outcome (Functor.discard x) (fun _ t => P t) E s := by
    show outcome (Function.const α () <$> x) _ _ s
    rw [outcome_map]
    exact h
  exact (outcome_of_ok ht).mp hdiscard

/-- The program keeps the invariant, if it ends normally. -/
def Preserves (I : σ → Prop) (x : EStateM ε σ α) : Prop :=
  ∀ s, I s → outcome x (fun _ t => I t) (fun _ _ => True) s

namespace Preserves

variable {I : σ → Prop}

theorem of_ok {x : EStateM ε σ α} (h : Preserves I x) {s t : σ} {a : α} (hs : I s)
    (hrun : x s = .ok a t) : I t :=
  (h s hs).of_completes (completes_of_ok hrun)

theorem pure (a : α) : Preserves I (Pure.pure a : EStateM ε σ α) := fun _ hs => hs

theorem bind {x : EStateM ε σ α} {f : α → EStateM ε σ β} (hx : Preserves I x)
    (hf : ∀ a, Preserves I (f a)) : Preserves I (x >>= f) := by
  intro s hs
  rw [outcome_bind]
  exact (hx s hs).mono (fun a t ht => hf a t ht) fun _ _ _ => trivial

/-- A program that starts with reading the state: the rest may know what it is. -/
theorem get_bind {f : σ → EStateM ε σ β}
    (hf : ∀ s, I s → outcome (f s) (fun _ t => I t) (fun _ _ => True) s) :
    Preserves I (MonadState.get >>= f) := by
  intro s hs
  rw [outcome_bind]
  exact hf s hs

theorem ite {c : Prop} [Decidable c] {x y : EStateM ε σ α} (hx : Preserves I x)
    (hy : Preserves I y) : Preserves I (if c then x else y) := by
  by_cases h : c
  · rw [if_pos h]
    exact hx
  · rw [if_neg h]
    exact hy

theorem discard {x : EStateM ε σ α} (hx : Preserves I x) : Preserves I (Functor.discard x) := by
  intro s hs
  show outcome (Function.const α () <$> x) _ _ s
  rw [outcome_map]
  exact hx s hs

end Preserves

end Px4Firmware.Lib
