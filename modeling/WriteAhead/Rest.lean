/-!
# Running to rest

A system at rest has no step to take. `runToRest` takes the next step of a system again and again,
at most a given number of times, and collects what the steps yield. Its result is reached by steps
of the system (`runToRest_induction`), and it is at rest unless every step was used up
(`next_runToRest_eq_none`).
-/

namespace WriteAhead

variable {σ ε : Type}

/-- Takes the next step again and again, at most `fuel` times, and adds what the steps yield to
`yields`. -/
def collectToRest (next : σ → Option (σ × List ε)) : Nat → σ → Array ε → σ × Array ε
  | 0, s, yields => (s, yields)
  | fuel + 1, s, yields =>
    match next s with
    | none => (s, yields)
    | some (s', es) => collectToRest next fuel s' (yields ++ es.toArray)

/-- Takes the next step again and again, at most `fuel` times, and collects what the steps yield. -/
def runToRest (next : σ → Option (σ × List ε)) (fuel : Nat) (s : σ) : σ × List ε :=
  let (r, yields) := collectToRest next fuel s #[]
  (r, yields.toList)

/-- What was yielded before stays in front of what `collectToRest` adds. -/
theorem collectToRest_eq_append (next : σ → Option (σ × List ε)) (fuel : Nat) (s : σ)
    (yields : Array ε) :
    collectToRest next fuel s yields =
      ((collectToRest next fuel s #[]).1, yields ++ (collectToRest next fuel s #[]).2) := by
  induction fuel generalizing s yields with
  | zero => simp [collectToRest]
  | succ fuel ih =>
    simp only [collectToRest]
    split
    · simp
    · rename_i s' es _
      -- Both sides go on with the yields of this step, one of them from none.
      rw [ih s' (yields ++ es.toArray), ih s' (#[] ++ es.toArray)]
      simp [Array.append_assoc]

/-- Without fuel `runToRest` takes no step. -/
@[simp] theorem runToRest_zero (next : σ → Option (σ × List ε)) (s : σ) :
    runToRest next 0 s = (s, []) := rfl

/-- A system at rest stays as it is under `runToRest`, whatever the fuel. -/
theorem runToRest_eq_of_none {next : σ → Option (σ × List ε)} {s : σ} (h : next s = none)
    (fuel : Nat) : runToRest next fuel s = (s, []) := by
  cases fuel <;> simp [runToRest, collectToRest, h]

/-- A `runToRest` takes the first step and goes on from there. -/
theorem runToRest_succ {next : σ → Option (σ × List ε)} {s s' : σ} {es : List ε}
    (h : next s = some (s', es)) (fuel : Nat) :
    runToRest next (fuel + 1) s =
      ((runToRest next fuel s').1, es ++ (runToRest next fuel s').2) := by
  simp only [runToRest, collectToRest, h]
  rw [collectToRest_eq_append next fuel s' (#[] ++ es.toArray)]
  simp

/-- What every step keeps of a system and of all that it has yielded, `motive`, is kept by
`runToRest`. -/
theorem runToRest_induction {next : σ → Option (σ × List ε)} {motive : σ → List ε → Prop}
    (step : ∀ s yields s' es, motive s yields → next s = some (s', es) → motive s' (yields ++ es))
    (fuel : Nat) {s : σ} {yields : List ε} (h : motive s yields) :
    motive (runToRest next fuel s).1 (yields ++ (runToRest next fuel s).2) := by
  induction fuel generalizing s yields with
  | zero => simpa using h
  | succ fuel ih =>
    match hs : next s with
    | none => simpa [runToRest_eq_of_none hs] using h
    | some (s', es) =>
      rw [runToRest_succ hs, ← List.append_assoc]
      exact ih (step s yields s' es h hs)

/-- A measure `μ` that falls with each step bounds the steps to rest: with so much fuel, `runToRest`
ends where there is no `next` step. -/
theorem next_runToRest_eq_none {next : σ → Option (σ × List ε)} {p : σ → Prop} {μ : σ → Nat}
    (falls : ∀ s s' es, p s → next s = some (s', es) → p s' ∧ μ s' < μ s) {fuel : Nat} {s : σ}
    (hp : p s) (h : μ s ≤ fuel) : next (runToRest next fuel s).1 = none := by
  induction fuel generalizing s with
  | zero =>
    match hs : next s with
    | none => rfl
    | some (s', es) =>
      have := (falls s s' es hp hs).2
      omega
  | succ fuel ih =>
    match hs : next s with
    | none => rw [runToRest_eq_of_none hs, hs]
    | some (s', es) =>
      rw [runToRest_succ hs]
      obtain ⟨hp', hlt⟩ := falls s s' es hp hs
      exact ih hp' (by omega)

end WriteAhead
