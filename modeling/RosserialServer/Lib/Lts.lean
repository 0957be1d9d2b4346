import Mathlib.Data.List.Basic

/-!
# Guarded step functions and their runs

A system is a *guarded, executable* step function `step : σ → ε → Option σ`:
`step s e` is `some s'` when the event `e` is enabled in `s`, and `none`
otherwise. A run is the list of the events it takes.

Two kinds of statement are made about runs.

* **Safety**, about every state a run passes through: `exec_invariant`.
* **Inevitability**, about where runs end: `Inevitably step P s` says that every
  run from `s` is finite and that it can stop only in a state satisfying `P`. It
  is proved from an invariant and a measure that every step lowers.
-/

namespace Lts

variable {σ ε : Type*} (step : σ → ε → Option σ)

/-- Follow a list of events; `none` when one of them is not enabled. -/
def exec : σ → List ε → Option σ
  | s, [] => some s
  | s, e :: es => (step s e).bind fun s' => exec s' es

/-- No event is enabled. -/
def Stuck (s : σ) : Prop := ∀ e, step s e = none

/-- Every state the run passes through, the first and the last included, satisfies `P`. -/
def Visits (P : σ → Prop) : σ → List ε → Prop
  | s, [] => P s
  | s, e :: es => P s ∧ ∀ s', step s e = some s' → Visits P s' es

/-- Every step the run takes satisfies `Q`, of the state before it and its event. -/
def Takes (Q : σ → ε → Prop) : σ → List ε → Prop
  | _, [] => True
  | s, e :: es => Q s e ∧ ∀ s', step s e = some s' → Takes Q s' es

variable {step}

@[simp] theorem exec_nil (s : σ) : exec step s [] = some s := rfl

theorem exec_cons {s s' : σ} {e : ε} {es : List ε} :
    exec step s (e :: es) = some s' ↔ ∃ t, step s e = some t ∧ exec step t es = some s' := by
  simp [exec, Option.bind_eq_some_iff]

/-- A run goes on with one more event. -/
theorem exec_snoc {s t s' : σ} {e : ε} {es : List ε} (hx : exec step s es = some t)
    (hs : step t e = some s') : exec step s (es ++ [e]) = some s' := by
  induction es generalizing s with
  | nil =>
      obtain rfl := Option.some.inj hx
      exact exec_cons.mpr ⟨s', hs, rfl⟩
  | cons e' es ih =>
      obtain ⟨u, hu, hr⟩ := exec_cons.mp hx
      exact exec_cons.mpr ⟨u, hu, ih hr⟩

/-- The last event of a run, and where it was before. -/
theorem exec_last {s s' : σ} {e : ε} {es : List ε} (hx : exec step s (es ++ [e]) = some s') :
    ∃ t, exec step s es = some t ∧ step t e = some s' := by
  induction es generalizing s with
  | nil =>
      obtain ⟨t, hs, hr⟩ := exec_cons.mp hx
      obtain rfl := Option.some.inj hr
      exact ⟨s, rfl, hs⟩
  | cons e' es ih =>
      obtain ⟨u, hu, hr⟩ := exec_cons.mp hx
      obtain ⟨t, ht, hs⟩ := ih hr
      exact ⟨t, exec_cons.mpr ⟨u, hu, ht⟩, hs⟩

/-- A system in which every event is always enabled can follow any list of events. -/
theorem exec_total (h : ∀ s e, ∃ s', step s e = some s') (es : List ε) (s : σ) :
    ∃ s', exec step s es = some s' := by
  induction es generalizing s with
  | nil => exact ⟨s, rfl⟩
  | cons e es ih =>
      obtain ⟨t, ht⟩ := h s e
      obtain ⟨s', hs'⟩ := ih t
      exact ⟨s', exec_cons.mpr ⟨t, ht, hs'⟩⟩

/-- **The invariant rule.** What every step preserves, every run preserves. -/
theorem exec_invariant {I : σ → Prop}
    (hstep : ∀ s e s', I s → step s e = some s' → I s') :
    ∀ {es : List ε} {s s' : σ}, I s → exec step s es = some s' → I s'
  | [], s, s', hI, h => by
      simp only [exec_nil, Option.some.injEq] at h
      exact h ▸ hI
  | e :: es, s, s', hI, h => by
      obtain ⟨t, ht, hr⟩ := exec_cons.mp h
      exact exec_invariant hstep (hstep s e t hI ht) hr

/-- **The history rule.** As the invariant rule, for an invariant about the events taken so far. -/
theorem exec_history {I : List ε → σ → Prop} {Q : ε → Prop}
    (hstep : ∀ past s e s', I past s → Q e → step s e = some s' → I (past ++ [e]) s') :
    ∀ {es past : List ε} {s s' : σ}, (∀ e ∈ es, Q e) → I past s → exec step s es = some s' →
      I (past ++ es) s'
  | [], past, s, s', _, hI, h => by
      simp only [exec_nil, Option.some.injEq] at h
      rw [List.append_nil]
      exact h ▸ hI
  | e :: es, past, s, s', hQ, hI, h => by
      obtain ⟨t, ht, hr⟩ := exec_cons.mp h
      have hnext := hstep past s e t hI (hQ e (by simp)) ht
      have hrest := exec_history hstep (fun x hx => hQ x (by simp [hx])) hnext hr
      rwa [List.append_assoc] at hrest

/-- A condition on the steps of a run, one step on. -/
theorem takes_cons {Q : σ → ε → Prop} {s t : σ} {e : ε} {es : List ε} (hs : step s e = some t) :
    Takes step Q s (e :: es) ↔ Q s e ∧ Takes step Q t es := by
  simp only [Takes, hs, Option.some.injEq, forall_eq']

/-- A condition on events alone is one on the list of them. -/
theorem takes_iff_forall {Q : ε → Prop} {es : List ε} {s s' : σ} (hx : exec step s es = some s') :
    Takes step (fun _ e => Q e) s es ↔ ∀ e ∈ es, Q e := by
  induction es generalizing s with
  | nil => simp [Takes]
  | cons e es ih =>
      obtain ⟨t, ht, hr⟩ := exec_cons.mp hx
      simp only [takes_cons ht, List.mem_cons, forall_eq_or_imp, ih hr]

/-- What no step can regain held all along, if it holds at the end. -/
theorem exec_backward {K : σ → Prop} (hback : ∀ s e s', step s e = some s' → K s' → K s)
    {es : List ε} {s s' : σ} (hx : exec step s es = some s') (hK : K s') : K s := by
  induction es generalizing s with
  | nil =>
      simp only [exec_nil, Option.some.injEq] at hx
      exact hx ▸ hK
  | cons e es ih =>
      obtain ⟨t, ht, hr⟩ := exec_cons.mp hx
      exact hback s e t ht (ih hr)

theorem Visits.here {P : σ → Prop} {s : σ} {es : List ε} (h : Visits step P s es) : P s := by
  cases es with
  | nil => exact h
  | cons e es => exact h.1

/-- If each step that satisfies `Q` keeps `P`, a run all of whose steps do stays in `P`. -/
theorem visits_of_takes {I P : σ → Prop} {Q : σ → ε → Prop}
    (hinv : ∀ s e s', I s → step s e = some s' → I s')
    (hstep : ∀ s e s', I s → P s → Q s e → step s e = some s' → P s') :
    ∀ {es : List ε} {s : σ}, I s → P s → Takes step Q s es → Visits step P s es
  | [], _, _, hP, _ => hP
  | e :: es, s, hI, hP, h => by
      refine ⟨hP, ?_⟩
      intro u hu
      exact visits_of_takes hinv hstep (hinv s e u hI hu) (hstep s e u hI hP h.1 hu) (h.2 u hu)

/--
**The stepwise rule.** If each step keeps `P` exactly when it satisfies `Q`, a run that
starts in `P` stays in it exactly when all its steps satisfy `Q`. `I` is an invariant of
the run, and `K` a property of its last state that no later state can regain.
-/
theorem visits_iff_takes {I P K : σ → Prop} {Q : σ → ε → Prop}
    (hinv : ∀ s e s', I s → step s e = some s' → I s')
    (hback : ∀ s e s', step s e = some s' → K s' → K s)
    (hstep : ∀ s e s', I s → P s → K s' → step s e = some s' → (P s' ↔ Q s e)) :
    ∀ {es : List ε} {s s' : σ}, I s → P s → exec step s es = some s' → K s' →
      (Visits step P s es ↔ Takes step Q s es)
  | [], s, s', _, hP, _, _ => by simp only [Visits, Takes, hP]
  | e :: es, s, s', hI, hP, hx, hK => by
      obtain ⟨t, ht, hr⟩ := exec_cons.mp hx
      have hone : ∀ u, step s e = some u → u = t := by
        intro u hu
        rw [ht] at hu
        exact (Option.some.inj hu).symm
      -- `K` at the end of the run is all that is known of the states in between
      have hPt := hstep s e t hI hP (exec_backward hback hr hK) ht
      have hIt := hinv s e t hI ht
      constructor
      · intro h
        have hP' : P t := (h.2 t ht).here
        refine ⟨hPt.mp hP', ?_⟩
        intro u hu
        rw [hone u hu]
        exact (visits_iff_takes hinv hback hstep hIt hP' hr hK).mp (h.2 t ht)
      · intro h
        have hP' : P t := hPt.mpr h.1
        refine ⟨hP, ?_⟩
        intro u hu
        rw [hone u hu]
        exact (visits_iff_takes hinv hback hstep hIt hP' hr hK).mpr (h.2 t ht)

/--
The stepwise rule for a property of states together with one of steps: if from every state
in `P` a step has `C` and leads to `P` exactly when it satisfies `Q`, so does a run.
-/
theorem visits_takes_iff {P : σ → Prop} {C Q : σ → ε → Prop}
    (hstep : ∀ s e, P s → ((C s e ∧ ∀ s', step s e = some s' → P s') ↔ Q s e)) :
    ∀ {es : List ε} {s : σ}, P s →
      (Visits step P s es ∧ Takes step C s es ↔ Takes step Q s es)
  | [], _, hP => ⟨fun _ => trivial, fun _ => ⟨hP, trivial⟩⟩
  | e :: es, s, hP => by
      constructor
      · intro ⟨⟨_, hvisits⟩, hC, htakes⟩
        refine ⟨(hstep s e hP).mp ⟨hC, fun s' hs' => (hvisits s' hs').here⟩, ?_⟩
        intro s' hs'
        exact (visits_takes_iff hstep (hvisits s' hs').here).mp ⟨hvisits s' hs', htakes s' hs'⟩
      · intro ⟨hQ, hrest⟩
        obtain ⟨hC, hnext⟩ := (hstep s e hP).mpr hQ
        refine ⟨⟨hP, ?_⟩, hC, ?_⟩
        · intro s' hs'
          exact ((visits_takes_iff hstep (hnext s' hs')).mpr (hrest s' hs')).1
        · intro s' hs'
          exact ((visits_takes_iff hstep (hnext s' hs')).mpr (hrest s' hs')).2

/-- A run of a restricted system is a run of the system. -/
theorem exec_mono {step' : σ → ε → Option σ}
    (h : ∀ s e s', step s e = some s' → step' s e = some s') {es : List ε} {s s' : σ}
    (hx : exec step s es = some s') : exec step' s es = some s' := by
  induction es generalizing s with
  | nil => exact hx
  | cons e es ih =>
      obtain ⟨t, ht, hr⟩ := exec_cons.mp hx
      exact exec_cons.mpr ⟨t, h s e t ht, ih hr⟩

/-- A run of events that a restricted system leaves alone is a run of it. -/
theorem exec_restrict {step' : σ → ε → Option σ} {Q : ε → Prop}
    (h : ∀ s e, Q e → step' s e = step s e) {es : List ε} {s s' : σ} (hQ : ∀ e ∈ es, Q e)
    (hx : exec step s es = some s') : exec step' s es = some s' := by
  induction es generalizing s with
  | nil => exact hx
  | cons e es ih =>
      obtain ⟨t, ht, hr⟩ := exec_cons.mp hx
      refine exec_cons.mpr ⟨t, ?_, ih (fun x hm => hQ x (List.mem_cons_of_mem e hm)) hr⟩
      rw [h s e (hQ e List.mem_cons_self)]
      exact ht

/-- Every run from `s` is finite, and it can stop only in a state satisfying `P`. -/
inductive Inevitably (step : σ → ε → Option σ) (P : σ → Prop) : σ → Prop where
  | stop {s : σ} : Stuck step s → P s → Inevitably step P s
  | next {s : σ} : (∃ e s', step s e = some s') →
      (∀ e s', step s e = some s' → Inevitably step P s') → Inevitably step P s

namespace Inevitably

variable {P Q : σ → Prop}

theorem mono (h : ∀ s, P s → Q s) {s : σ} (hs : Inevitably step P s) :
    Inevitably step Q s := by
  induction hs with
  | stop hst hp => exact .stop hst (h _ hp)
  | next hex _ ih => exact .next hex ih

/-- What every step preserves holds at the end, too. -/
theorem keep {I : σ → Prop} (hinv : ∀ s e s', I s → step s e = some s' → I s') {s : σ}
    (hs : Inevitably step P s) (hI : I s) : Inevitably step (fun s => P s ∧ I s) s := by
  induction hs with
  | stop hst hp => exact .stop hst ⟨hp, hI⟩
  | next hex _ ih => exact .next hex fun e s' h => ih e s' h (hinv _ e s' hI h)

/-- **The measure rule.** -/
theorem of_measure {I : σ → Prop} (μ : σ → Nat)
    (hinv : ∀ s e s', I s → step s e = some s' → I s')
    (hμ : ∀ s e s', I s → step s e = some s' → μ s' < μ s)
    (hstop : ∀ s, I s → Stuck step s → P s) (s : σ) (hs : I s) : Inevitably step P s := by
  induction hk : μ s using Nat.strongRecOn generalizing s with
  | ind k ih =>
      subst hk
      by_cases hst : Stuck step s
      · exact .stop hst (hstop s hs hst)
      · -- some event is enabled, and every one of them lowers the measure
        have hex : ∃ e s', step s e = some s' := by
          simp only [Stuck, not_forall] at hst
          obtain ⟨e, he⟩ := hst
          exact ⟨e, Option.ne_none_iff_exists'.mp he⟩
        exact .next hex fun e s' h => ih (μ s') (hμ s e s' hs h) s' (hinv s e s' hs h) rfl

/-- Two inevitable outcomes meet in one final state. -/
theorem meet {s : σ} (hp : Inevitably step P s) (hq : Inevitably step Q s) :
    ∃ s', P s' ∧ Q s' := by
  induction hp with
  | @stop s hst hp =>
      cases hq with
      | stop _ hq => exact ⟨s, hp, hq⟩
      | next hex _ =>
          obtain ⟨e, s', h⟩ := hex
          exact absurd h (by simp [hst e])
  | next hex _ ih =>
      obtain ⟨e, s', h⟩ := hex
      cases hq with
      | stop hst _ => exact absurd h (by simp [hst e])
      | next _ hnext => exact ih e s' h (hnext e s' h)

end Inevitably

end Lts
