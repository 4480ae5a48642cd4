import Mathlib.Data.List.Basic

/-!
# Runs of a state machine

A machine is a step function over events.  `Meets P s es` says that every step of
the run over `es` from `s` is taken in a state that satisfies the condition `P` for
its event; an invariant that such steps keep holds wherever such a run leads.
-/

namespace Run

variable {σ ε : Type*} {step : σ → ε → σ}

/-- Every step of the run meets the condition. -/
def Meets (step : σ → ε → σ) (P : σ → ε → Prop) : σ → List ε → Prop
  | _, [] => True
  | s, e :: es => P s e ∧ Meets step P (step s e) es

instance Meets.decidable {P : σ → ε → Prop} [∀ s e, Decidable (P s e)] :
    ∀ s es, Decidable (Meets step P s es)
  | _, [] => isTrue trivial
  | s, e :: es =>
      @instDecidableAnd (P s e) (Meets step P (step s e) es) _ (Meets.decidable (step s e) es)

theorem Meets.mono {P Q : σ → ε → Prop} (hPQ : ∀ s e, P s e → Q s e) :
    ∀ {es : List ε} {s : σ}, Meets step P s es → Meets step Q s es := by
  intro es
  induction es with
  | nil => exact fun _ => trivial
  | cons e es ih => exact fun h => ⟨hPQ _ _ h.1, ih h.2⟩

/-- A condition that every step meets. -/
theorem Meets.of_forall {P : σ → ε → Prop} (h : ∀ s e, P s e) :
    ∀ (es : List ε) (s : σ), Meets step P s es := by
  intro es
  induction es with
  | nil => exact fun _ => trivial
  | cons e es ih => exact fun s => ⟨h s e, ih _⟩

/-- What holds of every event may be added to the condition. -/
theorem Meets.and_of_forall {P : σ → ε → Prop} {Q : ε → Prop} :
    ∀ {es : List ε} {s : σ}, Meets step P s es → (∀ e ∈ es, Q e) →
      Meets step (fun s e => P s e ∧ Q e) s es := by
  intro es
  induction es with
  | nil => exact fun _ _ => trivial
  | cons e es ih =>
    intro s h hQ
    exact ⟨⟨h.1, hQ e List.mem_cons_self⟩, ih h.2 fun e' he' => hQ e' (List.mem_cons_of_mem _ he')⟩

/-- A run behind a run. -/
theorem Meets.append_iff {P : σ → ε → Prop} : ∀ {es es' : List ε} {s : σ},
    Meets step P s (es ++ es') ↔ Meets step P s es ∧ Meets step P (es.foldl step s) es' := by
  intro es
  induction es with
  | nil => exact fun {_ _} => (iff_of_eq (true_and _)).symm
  | cons e es ih => exact fun {_ _} => (and_congr_right fun _ => ih).trans and_assoc.symm

/-- **The rule of invariants**, for runs whose steps meet a condition. -/
theorem Meets.invariant {P : σ → ε → Prop} {I : σ → Prop}
    (hI : ∀ s e, I s → P s e → I (step s e)) :
    ∀ {es : List ε} {s : σ}, I s → Meets step P s es → I (es.foldl step s) := by
  intro es
  induction es with
  | nil => exact fun h _ => h
  | cons e es ih => exact fun h hm => ih (hI _ _ h hm.1) hm.2

/-- Two conditions that come to the same, wherever a run leads. -/
theorem Meets.iff_of_invariant {P P' Q : σ → ε → Prop} {J : σ → Prop}
    (hJ : ∀ s e, J s → Q s e → J (step s e)) (hP : ∀ s e, J s → Q s e → (P s e ↔ P' s e)) :
    ∀ {es : List ε} {s : σ}, J s → Meets step Q s es →
      (Meets step P s es ↔ Meets step P' s es) := by
  intro es
  induction es with
  | nil => exact fun _ _ => Iff.rfl
  | cons e es ih => exact fun hs hQ => and_congr (hP _ e hs hQ.1) (ih (hJ _ e hs hQ.1) hQ.2)

/-- **When a property holds all along a run**: if a step keeps it exactly when the step meets a
condition, then a run keeps it exactly when all of its steps do.  `Q` is what is known of the
steps anyway, and `J` what they keep where the property holds. -/
theorem Meets.always_iff {P Q : σ → ε → Prop} {I J : σ → Prop}
    (hJ : ∀ s e, J s → I s → Q s e → J (step s e))
    (hI : ∀ s e, J s → I s → Q s e → (I (step s e) ↔ P s e)) :
    ∀ {es : List ε} {s : σ}, J s → I s → Meets step Q s es →
      ((∀ done, done <+: es → I (done.foldl step s)) ↔ Meets step P s es) := by
  intro es
  induction es with
  | nil =>
    intro s _ hs _
    refine ⟨fun _ => trivial, fun _ done hdone => ?_⟩
    rw [List.prefix_nil.mp hdone]
    exact hs
  | cons e es ih =>
    intro s hJs hs hQ
    have hfirst := hI s e hJs hs hQ.1
    have hJ' := hJ s e hJs hs hQ.1
    constructor
    · intro h
      have hkept : I (step s e) := h [e] (List.prefix_cons_inj e |>.mpr List.nil_prefix)
      refine ⟨hfirst.mp hkept, (ih hJ' hkept hQ.2).mp ?_⟩
      exact fun done hdone => h (e :: done) ((List.prefix_cons_inj e).mpr hdone)
    · rintro ⟨hPs, hrest⟩ done hdone
      cases done with
      | nil => exact hs
      | cons e' done =>
        obtain ⟨rfl, htail⟩ := List.cons_prefix_cons.mp hdone
        exact (ih hJ' (hfirst.mpr hPs) hQ.2).mpr hrest done htail

end Run
