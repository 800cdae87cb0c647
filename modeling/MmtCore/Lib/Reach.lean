import Mathlib.Logic.Function.Basic

/-!
# Runs of a deterministic machine

A machine is a step function `step : σ → ε → σ` over states `σ` and inputs `ε`.  Two views of
its runs are kept side by side: `run`, which folds a list of inputs and can be evaluated, and
`Reach`, the states a run arrives at when every step taken meets a condition `D` on the state
before it and the input.  Safety properties are proved once, through `Reach.invariant`.
-/

namespace MmtCore.Lib

universe u v

variable {σ : Type u} {ε : Type v}

/-- The state after the inputs `es`, in order. -/
def run (step : σ → ε → σ) (s : σ) (es : List ε) : σ :=
  es.foldl step s

section

variable (step : σ → ε → σ) (s : σ)

@[simp] theorem run_nil : run step s [] = s := rfl

@[simp] theorem run_cons (e : ε) (es : List ε) :
    run step s (e :: es) = run step (step s e) es := rfl

theorem run_append (es fs : List ε) : run step s (es ++ fs) = run step (run step s es) fs :=
  List.foldl_append ..

end

/-- The states reached from `s₀` by runs each of whose steps meets `D`. -/
inductive Reach (step : σ → ε → σ) (D : σ → ε → Prop) (s₀ : σ) : σ → Prop
  | start : Reach step D s₀ s₀
  | next {s : σ} (e : ε) : Reach step D s₀ s → D s e → Reach step D s₀ (step s e)

variable {step : σ → ε → σ} {D : σ → ε → Prop} {s₀ s : σ}
variable {I : σ → Prop} {D' : σ → ε → Prop} {es : List ε}

/-- An invariant that holds at the start and is kept by every admissible step holds in every
state reached. -/
theorem Reach.invariant (h0 : I s₀) (hstep : ∀ s e, I s → D s e → I (step s e))
    (h : Reach step D s₀ s) : I s := by
  induction h with
  | start => exact h0
  | next e _ hD ih => exact hstep _ e ih hD

theorem Reach.trans {s₁ : σ} (h₁ : Reach step D s₀ s₁) (h₂ : Reach step D s₁ s) :
    Reach step D s₀ s := by
  induction h₂ with
  | start => exact h₁
  | next e _ hD ih => exact ih.next e hD

theorem Reach.mono (himp : ∀ s e, D s e → D' s e) (h : Reach step D s₀ s) : Reach step D' s₀ s := by
  induction h with
  | start => exact .start
  | next e _ hD ih => exact ih.next e (himp _ e hD)

/-- With no condition on the steps, every run is a reach. -/
theorem reach_run (step : σ → ε → σ) (s₀ : σ) (es : List ε) :
    Reach step (fun _ _ => True) s₀ (run step s₀ es) := by
  induction es generalizing s₀ with
  | nil => exact .start
  | cons e es ih => exact (Reach.start.next e trivial).trans (ih (step s₀ e))

/-- Every step of the run over `es` meets the condition on the state before it. -/
def Meets (step : σ → ε → σ) (D : σ → ε → Prop) : σ → List ε → Prop
  | _, [] => True
  | s, e :: es => D s e ∧ Meets step D (step s e) es

instance Meets.decidable [hD : ∀ s e, Decidable (D s e)] :
    ∀ (s : σ) (es : List ε), Decidable (Meets step D s es)
  | _, [] => inferInstanceAs (Decidable True)
  | s, e :: es => @instDecidableAnd _ _ (hD s e) (Meets.decidable (step s e) es)

theorem Meets.reach (h : Meets step D s₀ es) : Reach step D s₀ (run step s₀ es) := by
  induction es generalizing s₀ with
  | nil => exact .start
  | cons e es ih => exact (Reach.start.next e h.1).trans (ih h.2)

/-- The end of a run, from the state the beginning leads to. -/
theorem Meets.of_append {fs : List ε} (h : Meets step D s₀ (es ++ fs)) :
    Meets step D (run step s₀ es) fs := by
  induction es generalizing s₀ with
  | nil => exact h
  | cons e es ih => exact ih h.2

theorem Meets.congr (hiff : ∀ s e, D s e ↔ D' s e) : Meets step D s₀ es ↔ Meets step D' s₀ es := by
  induction es generalizing s₀ with
  | nil => exact Iff.rfl
  | cons e es ih => exact and_congr (hiff s₀ e) ih

theorem Meets.and (h : Meets step D s₀ es) (h' : Meets step D' s₀ es) :
    Meets step (fun s e => D s e ∧ D' s e) s₀ es := by
  induction es generalizing s₀ with
  | nil => trivial
  | cons e es ih => exact ⟨⟨h.1, h'.1⟩, ih h.2 h'.2⟩

/-- What an invariant and the condition imply at one step, they imply along the run. -/
theorem Meets.imp (hstep : ∀ s e, I s → D s e → D' s e ∧ I (step s e)) (h : Meets step D s₀ es)
    (h0 : I s₀) : Meets step D' s₀ es := by
  induction es generalizing s₀ with
  | nil => trivial
  | cons e es ih =>
    obtain ⟨hD', hI⟩ := hstep s₀ e h0 h.1
    exact ⟨hD', ih h.2 hI⟩

/-- An invariant that every step keeps is kept along a run. -/
theorem run_invariant (hstep : ∀ s e, I s → I (step s e)) (es : List ε) (h : I s₀) :
    I (run step s₀ es) := by
  induction es generalizing s₀ with
  | nil => exact h
  | cons e es ih => exact ih (hstep _ e h)

/-- A machine simulates another along a run whose steps meet the condition. -/
theorem Meets.simulates {τ : Type*} {abs : τ → ε → τ} {P : τ → σ → Prop}
    (hstep : ∀ t s e, P t s → D s e → P (abs t e) (step s e)) {t₀ : τ} (hm : Meets step D s₀ es)
    (h : P t₀ s₀) : P (run abs t₀ es) (run step s₀ es) := by
  induction es generalizing t₀ s₀ with
  | nil => exact h
  | cons e es ih => exact ih hm.2 (hstep _ _ e h hm.1)

/-! ## Steps and the steps before them

Properties of a run that relate each step to the earlier ones, such as that nothing is done twice.
A step is the state it is taken in with its input. -/

section

variable {step : σ → ε → σ} {P Q : List (σ × ε) → σ → ε → Prop}
  {past : List (σ × ε)} {s : σ} {es : List ε}

/-- Every step of the run over `es` stands in `P` to the steps before it. -/
def Throughout (step : σ → ε → σ) (P : List (σ × ε) → σ → ε → Prop) :
    List (σ × ε) → σ → List ε → Prop
  | _, _, [] => True
  | past, s, e :: es => P past s e ∧ Throughout step P (past ++ [(s, e)]) (step s e) es

/-- What the earlier steps and an invariant imply at one step, they imply along the run. -/
theorem Throughout.mono {I : σ → Prop} (hstep : ∀ s e, I s → I (step s e))
    (himp : ∀ past s e, (∀ p ∈ past, I p.1) → I s → P past s e → Q past s e)
    (hpast : ∀ p ∈ past, I p.1) (hs : I s) (h : Throughout step P past s es) :
    Throughout step Q past s es := by
  induction es generalizing past s with
  | nil => trivial
  | cons e es ih =>
    refine ⟨himp past s e hpast hs h.1, ih ?_ (hstep s e hs) h.2⟩
    grind

/-- A step of the run, with the steps before it. -/
theorem Throughout.at {es₁ es₂ : List ε} {e : ε}
    (h : Throughout step P past s (es₁ ++ e :: es₂)) :
    ∃ past', (past <+: past') ∧ P past' (run step s es₁) e ∧
      (∀ e₀ es₀, es₁ = es₀ ++ [e₀] → (run step s es₀, e₀) ∈ past') := by
  induction es₁ generalizing past s with
  | nil => exact ⟨past, List.prefix_refl past, h.1, by simp⟩
  | cons x es₁ ih =>
    obtain ⟨past', hpre, hP, hlast⟩ := ih h.2
    refine ⟨past', (List.prefix_append past _).trans hpre, hP, ?_⟩
    intro e₀ es₀ heq
    cases es₀ with
    | nil =>
      obtain ⟨rfl, rfl⟩ := heq
      exact hpre.subset (by simp)
    | cons y es₀ =>
      simp_all

end

/-! ## Machines that may stop

A step `step : σ → ε → Option σ` that has no next state ends the run.  As for a total machine there
are two views: `runOk`, which evaluates, and `ReachOk`, the states that runs arrive at when every
step taken meets a condition `D` on the state before it and the input. -/

section

/-- The state after the inputs, if no step stops. -/
def runOk (step : σ → ε → Option σ) : σ → List ε → Option σ
  | s, [] => some s
  | s, e :: es => (step s e).bind fun s' => runOk step s' es

/-- The states reached from `s₀` by runs each of whose steps meets `D` and does not stop. -/
inductive ReachOk (step : σ → ε → Option σ) (D : σ → ε → Prop) (s₀ : σ) : σ → Prop
  | start : ReachOk step D s₀ s₀
  | next {s s' : σ} (e : ε) : ReachOk step D s₀ s → D s e → step s e = some s' →
    ReachOk step D s₀ s'

variable {step : σ → ε → Option σ} {D : σ → ε → Prop} {s₀ s : σ}

/-- An invariant that holds at the start and is kept by every admissible step holds in every
state reached. -/
theorem ReachOk.invariant {I : σ → Prop} (h0 : I s₀)
    (hstep : ∀ s e s', I s → D s e → step s e = some s' → I s') (h : ReachOk step D s₀ s) :
    I s := by
  induction h with
  | start => exact h0
  | next e _ hD hs ih => exact hstep _ e _ ih hD hs

theorem ReachOk.trans {s₁ : σ} (h₁ : ReachOk step D s₀ s₁) (h₂ : ReachOk step D s₁ s) :
    ReachOk step D s₀ s := by
  induction h₂ with
  | start => exact h₁
  | next e _ hD hs ih => exact ih.next e hD hs

/-- Every step of the run over `es` meets the condition on the state before it. -/
def MeetsOk (step : σ → ε → Option σ) (D : σ → ε → Prop) : σ → List ε → Prop
  | _, [] => True
  | s, e :: es => D s e ∧ ∀ s' ∈ step s e, MeetsOk step D s' es

theorem MeetsOk.reach {es : List ε} (h : MeetsOk step D s₀ es)
    (hrun : runOk step s₀ es = some s) : ReachOk step D s₀ s := by
  induction es generalizing s₀ with
  | nil =>
    cases hrun
    exact .start
  | cons e es ih =>
    obtain ⟨s', hs', hrest⟩ := Option.bind_eq_some_iff.1 hrun
    exact (ReachOk.start.next e h.1 hs').trans (ih (h.2 s' hs') hrest)

end

end MmtCore.Lib
