import Mathlib

/-!
# Run

Runs of a deterministic step function over a list of inputs: conditions that
every step of a run meets in the state it is taken in, and the induction
rules that carry an invariant along.
-/

namespace Run

variable {σ ι : Type} (step : σ → ι → σ)

/-- The state a run ends in. -/
def final (s : σ) (inputs : List ι) : σ :=
  inputs.foldl step s

/-- Every step of the run meets `P`, in the state it is taken in. -/
def Along (P : σ → ι → Prop) : σ → List ι → Prop
  | _, [] => True
  | s, i :: inputs => P s i ∧ Along P (step s i) inputs

instance decidableAlong (P : σ → ι → Prop) [∀ s i, Decidable (P s i)] :
    ∀ s inputs, Decidable (Along step P s inputs)
  | _, [] => isTrue trivial
  | s, i :: inputs =>
      haveI := decidableAlong P (step s i) inputs
      inferInstanceAs (Decidable (P s i ∧ Along step P (step s i) inputs))

/-- Every state the run meets, the first and the last included, satisfies `I`. -/
def Throughout (I : σ → Prop) (s : σ) (inputs : List ι) : Prop :=
  I s ∧ Along step (fun s i => I (step s i)) s inputs

variable {step}

theorem final_cons (s : σ) (i : ι) (inputs : List ι) :
    final step s (i :: inputs) = final step (step s i) inputs :=
  rfl

theorem final_singleton (s : σ) (i : ι) : final step s [i] = step s i :=
  rfl

theorem Along.mono {P Q : σ → ι → Prop} (h : ∀ s i, P s i → Q s i) {s : σ} {inputs : List ι}
    (hrun : Along step P s inputs) : Along step Q s inputs := by
  induction inputs generalizing s with
  | nil => trivial
  | cons i inputs ih => exact ⟨h s i hrun.1, ih hrun.2⟩

theorem along_of_forall {P : σ → ι → Prop} {inputs : List ι} (h : ∀ i ∈ inputs, ∀ s, P s i) (s : σ) :
    Along step P s inputs := by
  induction inputs generalizing s with
  | nil => trivial
  | cons i inputs ih =>
      exact ⟨h i List.mem_cons_self s, ih (fun j hj => h j (List.mem_cons_of_mem _ hj)) _⟩

theorem along_append {P : σ → ι → Prop} {s : σ} {first second : List ι} :
    Along step P s (first ++ second) ↔
      Along step P s first ∧ Along step P (final step s first) second := by
  induction first generalizing s with
  | nil => simp [Along, final]
  | cons i first ih =>
      rw [List.cons_append, Along, Along, ih, and_assoc]
      rfl

theorem final_append (s : σ) (first second : List ι) :
    final step s (first ++ second) = final step (final step s first) second :=
  List.foldl_append

theorem along_and {P Q : σ → ι → Prop} {s : σ} {inputs : List ι} :
    Along step (fun s i => P s i ∧ Q s i) s inputs ↔
      Along step P s inputs ∧ Along step Q s inputs := by
  induction inputs generalizing s with
  | nil => simp [Along]
  | cons i inputs ih =>
      simp only [Along, ih]
      tauto

theorem Throughout.cons_iff {I : σ → Prop} {s : σ} {i : ι} {inputs : List ι} :
    Throughout step I s (i :: inputs) ↔ I s ∧ Throughout step I (step s i) inputs :=
  Iff.rfl

theorem Throughout.final {I : σ → Prop} {s : σ} {inputs : List ι}
    (h : Throughout step I s inputs) : I (final step s inputs) := by
  induction inputs generalizing s with
  | nil => exact h.1
  | cons i inputs ih => exact ih (Throughout.cons_iff.mp h).2

theorem Throughout.mono {I J : σ → Prop} (h : ∀ s, I s → J s) {s : σ} {inputs : List ι}
    (hrun : Throughout step I s inputs) : Throughout step J s inputs :=
  ⟨h s hrun.1, hrun.2.mono fun s i => h (step s i)⟩

/-- What holds of every step from a state of the invariant holds along a run
that keeps it. -/
theorem along_of_throughout {I : σ → Prop} {P : σ → ι → Prop} (h : ∀ s i, I s → P s i) {s : σ}
    {inputs : List ι} (hrun : Throughout step I s inputs) : Along step P s inputs := by
  induction inputs generalizing s with
  | nil => trivial
  | cons i inputs ih => exact ⟨h s i hrun.1, ih (Throughout.cons_iff.mp hrun).2⟩

/-- An invariant kept by every step that meets `P` holds along a run whose
steps all meet `P`. -/
theorem throughout_of_along {I : σ → Prop} {P : σ → ι → Prop}
    (hstep : ∀ s i, I s → P s i → I (step s i)) {s : σ} {inputs : List ι} (hs : I s)
    (hrun : Along step P s inputs) : Throughout step I s inputs := by
  induction inputs generalizing s with
  | nil => exact ⟨hs, trivial⟩
  | cons i inputs ih => exact ⟨hs, ih (hstep s i hs hrun.1) hrun.2⟩

/-- An invariant kept by every step holds throughout every run. -/
theorem throughout_of_step {I : σ → Prop} (hstep : ∀ s i, I s → I (step s i)) {s : σ} (hs : I s)
    (inputs : List ι) : Throughout step I s inputs := by
  induction inputs generalizing s with
  | nil => exact ⟨hs, trivial⟩
  | cons i inputs ih => exact ⟨hs, ih (hstep s i hs)⟩

/-- When, from a state of the invariant and under the assumption `A`, one
step goes right (`Q`, which keeps the invariant) exactly under `C`, then a
whole run goes right exactly when each of its steps meets `C`. -/
theorem along_iff {I : σ → Prop} {A Q C : σ → ι → Prop}
    (hkeep : ∀ s i, I s → A s i → Q s i → I (step s i))
    (hiff : ∀ s i, I s → A s i → (Q s i ↔ C s i)) {s : σ} {inputs : List ι}
    (hs : I s) (hrun : Along step A s inputs) :
    Along step Q s inputs ↔ Along step C s inputs := by
  induction inputs generalizing s with
  | nil => exact Iff.rfl
  | cons i inputs ih =>
      have hhead := hiff s i hs hrun.1
      have htail : Q s i → (Along step Q (step s i) inputs ↔ Along step C (step s i) inputs) :=
        fun hq => ih (hkeep s i hs hrun.1 hq) hrun.2
      constructor
      · intro h
        exact ⟨hhead.mp h.1, (htail h.1).mp h.2⟩
      · intro h
        exact ⟨hhead.mpr h.1, (htail (hhead.mpr h.1)).mpr h.2⟩

/-- When, from a state of the invariant, a state is good after a step exactly
if it was good before and the step meets `C`, then the last state is good
exactly when the first is and each step of the run meets `C`. -/
theorem final_iff_along {I Q : σ → Prop} {C : σ → ι → Prop}
    (hkeep : ∀ s i, I s → I (step s i)) (hiff : ∀ s i, I s → (Q (step s i) ↔ Q s ∧ C s i)) {s : σ}
    {inputs : List ι} (hs : I s) : Q (final step s inputs) ↔ Q s ∧ Along step C s inputs := by
  induction inputs generalizing s with
  | nil => simp [final, Along]
  | cons i inputs ih => rw [final_cons, ih (hkeep s i hs), hiff s i hs, Along, and_assoc]

end Run
