import Mathlib.Data.List.Basic

/-!
# Run — finite runs of a labelled step relation

`Run Step s es s'`: from `s` the events `es` lead to `s'`.  `Run.safe` is the induction over runs: an
invariant that every step keeps holds at the end, and what every step from an invariant state guarantees
about its event holds of all events.  `Run.simulates` carries a run over to the steps that simulate its own.
`Run.lastWritten` is about a register: at the end of a run it holds what was written to it last.
-/

variable {σ ε α : Type*}

inductive Run (Step : σ → ε → σ → Prop) : σ → List ε → σ → Prop
  | nil (s : σ) : Run Step s [] s
  | cons {s s' s'' : σ} {e : ε} {es : List ε} (first : Step s e s') (rest : Run Step s' es s'') :
      Run Step s (e :: es) s''

/-- The last value that the events write, or else `a`. -/
inductive LastWritten (Writes : ε → α → Prop) (a : α) : List ε → α → Prop
  | initial {es : List ε} (h : ∀ e ∈ es, ∀ b, ¬ Writes e b) : LastWritten Writes a es a
  | last {before after : List ε} {e : ε} {b : α} (h : Writes e b) (hafter : ∀ e ∈ after, ∀ c, ¬ Writes e c) :
      LastWritten Writes a (before ++ e :: after) b

namespace Run

variable {Step : σ → ε → σ → Prop} {s s' s'' : σ} {es es' : List ε}

theorem safe {Inv : σ → Prop} {P : ε → Prop}
    (hstep : ∀ s e s', Inv s → Step s e s' → Inv s' ∧ P e) (hrun : Run Step s es s') (hs : Inv s) :
    Inv s' ∧ ∀ e ∈ es, P e := by
  induction hrun with
  | nil s => exact ⟨hs, by simp⟩
  | cons first rest ih =>
    obtain ⟨hnext, he⟩ := hstep _ _ _ hs first
    obtain ⟨hlast, hes⟩ := ih hnext
    exact ⟨hlast, List.forall_mem_cons.mpr ⟨he, hes⟩⟩

theorem concat {e : ε} (hrun : Run Step s es s') (hlast : Step s' e s'') : Run Step s (es ++ [e]) s'' := by
  induction hrun with
  | nil s => exact .cons hlast (.nil _)
  | cons first rest ih => exact .cons first (ih hlast)

/-- A run comes through the state before each of its events. -/
theorem split {e : ε} (hrun : Run Step s (es ++ e :: es') s'') :
    ∃ t t', Run Step s es t ∧ Step t e t' ∧ Run Step t' es' s'' := by
  induction es generalizing s with
  | nil =>
    cases hrun with
    | cons first rest => exact ⟨s, _, .nil s, first, rest⟩
  | cons e' es ih =>
    cases hrun with
    | cons first rest =>
      obtain ⟨t, t', hbefore, hstep, hafter⟩ := ih rest
      exact ⟨t, t', .cons first hbefore, hstep, hafter⟩

/-- **A register**: each step writes what its event says, or leaves it alone and the event says nothing. -/
theorem lastWritten {Writes : ε → α → Prop} {get : σ → α}
    (hstep : ∀ s e s', Step s e s' → Writes e (get s') ∨ get s' = get s ∧ ∀ b, ¬ Writes e b)
    (hrun : Run Step s es s') : LastWritten Writes (get s) es (get s') := by
  induction hrun with
  | nil s => exact .initial (by simp)
  | @cons s s' s'' e es first rest ih =>
    generalize hend : get s'' = b at ih
    cases ih with
    | last hwrites hafter =>
      rw [← List.cons_append]
      exact .last hwrites hafter
    | initial hnone =>
      rcases hstep _ _ _ first with hwrites | ⟨hsame, hnot⟩
      · rw [← List.nil_append (e :: es)]
        exact .last hwrites hnone
      · rw [hsame]
        exact .initial (List.forall_mem_cons.mpr ⟨hnot, hnone⟩)

/-- **Simulation**: a run is a run of the steps that simulate its steps. -/
theorem simulates {τ δ : Type*} {Step' : τ → δ → τ → Prop} {abs : σ → τ} {see : ε → δ}
    (hstep : ∀ s e s', Step s e s' → Step' (abs s) (see e) (abs s')) (hrun : Run Step s es s') :
    Run Step' (abs s) (es.map see) (abs s') := by
  induction hrun with
  | nil s => exact .nil _
  | cons first rest ih => exact .cons (hstep _ _ _ first) ih

end Run
