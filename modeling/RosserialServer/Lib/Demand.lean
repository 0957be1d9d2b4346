import Mathlib.Data.List.Basic

/-!
# Readers that ask for exact amounts

A demand machine is a reader that, in every state, either has stopped or waits
for an exact, positive number of symbols. Fed with that many symbols of a flat
stream it moves on.

* `Eats s l t`: from `s` the machine consumes exactly `l` and is then in `t`.
* `Halts s l t rest`: fed with the whole of `l`, it ends in `t` with `rest`
  unread, because `t` has stopped or waits for more than is left.

The machine is deterministic in the strong sense that matters to a buffered
implementation: where it halts depends on the flat stream only (`halts_unique`),
it always halts somewhere (`halts_exists`), and of two runs along one stream one is the
beginning of the other (`Eats.comparable`).
-/

/-- A reader that asks for exact, positive amounts of input. -/
structure Demand (σ α : Type*) where
  /-- How many symbols the state waits for; `none` once it has stopped. -/
  need : σ → Option Nat
  /-- The state after receiving that many symbols. -/
  feed : σ → List α → σ
  /-- A waiting state waits for something. -/
  need_pos : ∀ s n, need s = some n → 0 < n

namespace Demand

variable {σ α : Type*} (M : Demand σ α)

/-- From `s` the machine consumes exactly `l` and reaches `t`. -/
inductive Eats : σ → List α → σ → Prop where
  | refl (s : σ) : Eats s [] s
  | tail {s t : σ} {l chunk : List α} :
      Eats s l t → M.need t = some chunk.length → Eats s (l ++ chunk) (M.feed t chunk)

/-- `rest` does not let the machine move on from `s`. -/
def Starved (s : σ) (rest : List α) : Prop := ∀ n, M.need s = some n → rest.length < n

/-- Fed with all of `l`, the machine ends in `t` with `rest` unread. -/
def Halts (s : σ) (l : List α) (t : σ) (rest : List α) : Prop :=
  ∃ used, l = used ++ rest ∧ M.Eats s used t ∧ M.Starved t rest

variable {M}

theorem Eats.single {s : σ} {chunk : List α} (h : M.need s = some chunk.length) :
    M.Eats s chunk (M.feed s chunk) := Eats.tail (Eats.refl s) h

theorem Eats.trans {s t u : σ} {l₁ l₂ : List α} (h₁ : M.Eats s l₁ t) (h₂ : M.Eats t l₂ u) :
    M.Eats s (l₁ ++ l₂) u := by
  induction h₂ with
  | refl => rw [List.append_nil]; exact h₁
  | tail _ hn ih => rw [← List.append_assoc]; exact Eats.tail ih hn

theorem Eats.head {s u : σ} {chunk l : List α} (h : M.need s = some chunk.length)
    (hr : M.Eats (M.feed s chunk) l u) : M.Eats s (chunk ++ l) u :=
  (Eats.single h).trans hr

/-- The first move of a machine that consumes something. -/
theorem Eats.cases_head {s t : σ} {l : List α} (h : M.Eats s l t) :
    (l = [] ∧ t = s) ∨ ∃ chunk rest, l = chunk ++ rest ∧ M.need s = some chunk.length
      ∧ M.Eats (M.feed s chunk) rest t := by
  induction h with
  | refl => exact Or.inl ⟨rfl, rfl⟩
  | @tail t l chunk _ hn ih =>
      rcases ih with ⟨rfl, rfl⟩ | ⟨c, rest, rfl, hc, hr⟩
      · exact Or.inr ⟨chunk, [], by simp, hn, Eats.refl _⟩
      · exact Or.inr ⟨c, rest ++ chunk, by simp, hc, Eats.tail hr hn⟩

/-- The last move of it. -/
theorem Eats.cases_tail {s t : σ} {l : List α} (h : M.Eats s l t) :
    (l = [] ∧ t = s) ∨ ∃ before chunk u, l = before ++ chunk ∧ M.Eats s before u
      ∧ M.need u = some chunk.length ∧ t = M.feed u chunk := by
  cases h with
  | refl => exact Or.inl ⟨rfl, rfl⟩
  | tail hbefore hn => exact Or.inr ⟨_, _, _, rfl, hbefore, hn, rfl⟩

/-- What every move keeps to, a run keeps to. -/
theorem Eats.relates {R : σ → σ → Prop} (hrefl : ∀ s, R s s)
    (htrans : ∀ s t u, R s t → R t u → R s u)
    (hfeed : ∀ s chunk, M.need s = some chunk.length → R s (M.feed s chunk)) {s t : σ} {l : List α}
    (h : M.Eats s l t) : R s t := by
  induction h with
  | refl => exact hrefl _
  | tail _ hn ih => exact htrans _ _ _ ih (hfeed _ _ hn)

/-- **Two runs along one stream: one is ahead of the other, or they are level.** -/
theorem Eats.comparable {s t t' : σ} {l l' rest rest' : List α} (h : M.Eats s l t)
    (h' : M.Eats s l' t') (heq : l ++ rest = l' ++ rest') :
    (∃ more, l' = l ++ more ∧ M.Eats t more t') ∨ ∃ more, l = l' ++ more ∧ M.Eats t' more t := by
  induction hk : l.length using Nat.strongRecOn generalizing s l l' with
  | ind k ih =>
      subst hk
      rcases h.cases_head with ⟨rfl, rfl⟩ | ⟨c, r, rfl, hn, hr⟩
      · exact Or.inl ⟨l', rfl, h'⟩
      · rcases h'.cases_head with ⟨rfl, rfl⟩ | ⟨c', r', rfl, hn', hr'⟩
        · exact Or.inr ⟨c ++ r, rfl, h⟩
        · -- both take the same first chunk
          have hcc : c.length = c'.length := by
            rw [hn] at hn'
            exact Option.some.inj hn'
          rw [List.append_assoc, List.append_assoc] at heq
          obtain ⟨rfl, hrest⟩ := List.append_inj heq hcc
          have hpos := M.need_pos s _ hn
          have hshort : r.length < (c ++ r).length := by
            rw [List.length_append]
            omega
          rcases ih r.length hshort hr hr' hrest rfl with ⟨more, rfl, hm⟩ | ⟨more, rfl, hm⟩
          · exact Or.inl ⟨more, (List.append_assoc _ _ _).symm, hm⟩
          · exact Or.inr ⟨more, (List.append_assoc _ _ _).symm, hm⟩

/-- **A machine that starves is not behind any other run along its stream.** -/
theorem Eats.reached {s t t' : σ} {l l' rest rest' : List α} (h : M.Eats s l t)
    (hst : M.Starved t rest) (h' : M.Eats s l' t') (heq : l ++ rest = l' ++ rest') :
    ∃ more, l = l' ++ more ∧ M.Eats t' more t := by
  rcases h.comparable h' heq with ⟨more, rfl, hm⟩ | hahead
  · rcases hm.cases_head with ⟨rfl, rfl⟩ | ⟨chunk, next, rfl, hn, -⟩
    · exact ⟨[], by simp, Eats.refl _⟩
    · -- the other run got a chunk that this one would have got, too
      have hshort := hst _ hn
      rw [List.append_assoc] at heq
      have hrest := List.append_cancel_left heq
      rw [hrest, List.length_append, List.length_append] at hshort
      omega
  · exact hahead

/-- A run that has consumed nothing has not moved. -/
theorem Eats.of_nil {s t : σ} (h : M.Eats s [] t) : t = s := by
  rcases h.cases_head with ⟨-, hsame⟩ | ⟨chunk, rest, hnil, hn, -⟩
  · exact hsame
  · have hpos := M.need_pos s _ hn
    rw [(List.append_eq_nil_iff.mp hnil.symm).1, List.length_nil] at hpos
    omega

theorem Halts.refl {s : σ} {l : List α} (h : M.Starved s l) : M.Halts s l s l :=
  ⟨[], rfl, Eats.refl s, h⟩

theorem Eats.halts {s t u : σ} {used l rest : List α} (h : M.Eats s used t)
    (hh : M.Halts t l u rest) : M.Halts s (used ++ l) u rest := by
  obtain ⟨used', rfl, he, hst⟩ := hh
  exact ⟨used ++ used', by simp, h.trans he, hst⟩

/-- The machine halts on every stream. -/
theorem halts_exists (s : σ) (l : List α) : ∃ t rest, M.Halts s l t rest := by
  induction hk : l.length using Nat.strongRecOn generalizing s l with
  | ind k ih =>
      subst hk
      by_cases hst : M.Starved s l
      · exact ⟨s, l, Halts.refl hst⟩
      · simp only [Starved, not_forall, Nat.not_lt] at hst
        obtain ⟨n, hn, hle⟩ := hst
        -- a request is for something, so the stream gets shorter
        have hpos := M.need_pos s n hn
        obtain ⟨t, rest, hh⟩ := ih (l.drop n).length (by simp; omega) (M.feed s (l.take n))
          (l.drop n) rfl
        have hlen : (l.take n).length = n := by simp [hle]
        have := (Eats.single (by rw [hlen]; exact hn)).halts hh
        rw [List.take_append_drop] at this
        exact ⟨t, rest, this⟩

/-- **Where the machine halts is a function of the flat stream.** -/
theorem halts_unique {s t t' : σ} {l rest rest' : List α} (h : M.Halts s l t rest)
    (h' : M.Halts s l t' rest') : t = t' ∧ rest = rest' := by
  induction hk : l.length using Nat.strongRecOn generalizing s l with
  | ind k ih =>
      subst hk
      obtain ⟨used, hl, he, hst⟩ := h
      obtain ⟨used', hl', he', hst'⟩ := h'
      rcases he.cases_head with ⟨rfl, rfl⟩ | ⟨c, r, rfl, hn, hr⟩
      · -- the first run never moves, so the second cannot either
        rcases he'.cases_head with ⟨rfl, rfl⟩ | ⟨c', r', rfl, hn', _⟩
        · exact ⟨rfl, by simpa using hl.symm.trans hl'⟩
        · have := hst _ hn'
          have hlen := congrArg List.length (hl.symm.trans hl')
          simp only [List.nil_append, List.length_append] at hlen
          omega
      · rcases he'.cases_head with ⟨rfl, rfl⟩ | ⟨c', r', rfl, hn', hr'⟩
        · -- the second run never moves, though the first could
          have := hst' _ hn
          have hlen := congrArg List.length (hl.symm.trans hl')
          simp only [List.nil_append, List.length_append] at hlen
          omega
        · -- both take the same first chunk
          have hcc : c.length = c'.length := by
            rw [hn] at hn'; exact Option.some.inj hn'
          have heq := hl.symm.trans hl'
          simp only [List.append_assoc] at heq
          obtain ⟨rfl, hrest⟩ := List.append_inj heq hcc
          have hpos := M.need_pos s _ hn
          exact ih (r ++ rest).length (by subst hl; simp; omega) ⟨r, rfl, hr, hst⟩
            ⟨r', hrest, hr', hst'⟩ rfl

end Demand
