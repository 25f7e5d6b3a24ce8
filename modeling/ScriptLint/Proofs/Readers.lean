import ScriptLint.Toml.Reader

/-!
Repeated readers. Main statements: `Reader.loop_induction`, what holds of every run of a loop that
gives a result, and `Reader.loop_of_more`, `Reader.loop_of_done`, how a run goes on and how it ends.
-/

namespace ScriptLint.Toml.Reader

variable {σ β : Type} {step : σ → Reader (σ ⊕ β)} {state next : σ} {s s' rest : List Char}
  {result : β}

theorem loop_of_done (h : step state s = some (.inr result, rest)) :
    loop step state s = some (result, rest) := by
  rw [loop, h]

theorem loop_of_more (h : step state s = some (.inl next, s')) (hl : s'.length < s.length) :
    loop step state s = loop step next s' := by
  rw [loop, h]
  simp only [hl, if_true]

/-- What holds at the last step of a loop, and of a step whenever it holds of the run after that
step, holds of the whole run. -/
theorem loop_induction {motive : σ → List Char → Prop}
    (done : ∀ {state s}, step state s = some (.inr result, rest) → motive state s)
    (more : ∀ {state s next s'}, step state s = some (.inl next, s') → motive next s' →
      motive state s)
    (h : loop step state s = some (result, rest)) : motive state s := by
  fun_induction loop step state s with
  | case1 state s hs => cases h
  | case2 state s r rest' hs =>
    cases h
    exact done hs
  | case3 state s next s' hs hl ih => exact more hs (ih h)
  | case4 state s next s' hs hl => cases h

/-- What every step keeps, and every last step turns into another fact, holds of the results of a
loop. -/
theorem loop_invariant {P : σ → Prop} {Q : β → Prop}
    (done : ∀ {state s result rest}, P state → step state s = some (.inr result, rest) → Q result)
    (more : ∀ {state s next s'}, P state → step state s = some (.inl next, s') → P next)
    (h : loop step state s = some (result, rest)) (hP : P state) : Q result := by
  revert hP
  refine loop_induction (motive := fun state _ => P state → Q result) ?_ ?_ h
  · intro state s hs hP
    exact done hP hs
  · intro state s next s' hs ih hP
    exact ih (more hP hs)

end ScriptLint.Toml.Reader
