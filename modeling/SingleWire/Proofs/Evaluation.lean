import SingleWire.Search.Pass

/-!
What a run leaves, without its events: the value and the state below. Each way of putting programs
together has one equation here, so that later proofs never open a program.
-/

namespace SingleWire

variable {I J : Interface} {σ τ ε α β : Type}

namespace Program

def eval (handle : Handler I σ) (program : Program I α) (state : σ) : α × σ :=
  ((program.run handle state).value, (program.run handle state).state)

@[simp] theorem eval_done (handle : Handler I σ) (value : α) (state : σ) :
    eval handle (done value) state = (value, state) := rfl

@[simp] theorem eval_ask (handle : Handler I σ) (request : I.Request)
    (next : I.Reply request → Program I α) (state : σ) :
    eval handle (ask request next) state =
      eval handle (next (handle request state).1) (handle request state).2 := rfl

@[simp] theorem eval_note (handle : Handler I σ) (event : Event) (rest : Program I α) (state : σ) :
    eval handle (note event rest) state = eval handle rest state := rfl

@[simp] theorem eval_bind (handle : Handler I σ) (program : Program I α)
    (next : α → Program I β) (state : σ) :
    eval handle (program.bind next) state =
      eval handle (next (eval handle program state).1) (eval handle program state).2 := by
  simp only [eval, run_bind]

@[simp] theorem eval_map (handle : Handler I σ) (change : α → β) (program : Program I α) (state : σ) :
    eval handle (change <$> program) state =
      (change (eval handle program state).1, (eval handle program state).2) := by
  simp only [map_eq_pure_bind, bind_eq_bind, eval_bind, pure_eq_done, eval_done]

theorem eval_through (carry : (request : I.Request) → Program J (I.Reply request))
    (handle : Handler J σ) (program : Program I α) (state : σ) :
    eval handle (program.through carry) state = eval (carried carry handle) program state :=
  Prod.ext (run_through carry handle program state).1 (run_through carry handle program state).2

theorem eval_keeps (handle : Handler I σ) (keeps : σ → Prop)
    (step : ∀ request state, keeps state → keeps (handle request state).2)
    (program : Program I α) (state : σ) (start : keeps state) :
    keeps (eval handle program state).2 :=
  run_keeps handle keeps step program state start

/-- Two layers whose states stay related give the same replies, so no program tells them apart. -/
theorem eval_simulates (handle : Handler I σ) (other : Handler I τ) (related : σ → τ → Prop)
    (step : ∀ request state image, related state image →
      (handle request state).1 = (other request image).1 ∧
        related (handle request state).2 (other request image).2)
    (program : Program I α) (state : σ) (image : τ) (start : related state image) :
    (eval handle program state).1 = (eval other program image).1 ∧
      related (eval handle program state).2 (eval other program image).2 := by
  induction program generalizing state image with
  | done value => exact ⟨rfl, start⟩
  | ask request next ih =>
      obtain ⟨same, after⟩ := step request state image start
      simp only [eval_ask, same]
      exact ih _ _ _ after
  | note event rest ih => exact ih state image start

end Program

namespace Task

def eval (handle : Handler I σ) (task : Task I ε α) (state : σ) : Except (BusError ε) α × σ :=
  Program.eval handle task.run state

@[simp] theorem eval_pure (handle : Handler I σ) (value : α) (state : σ) :
    eval handle (pure value : Task I ε α) state = (.ok value, state) := rfl

@[simp] theorem eval_throw (handle : Handler I σ) (error : BusError ε) (state : σ) :
    eval handle (throw error : Task I ε α) state = (.error error, state) := rfl

@[simp] theorem eval_emit (handle : Handler I σ) (event : Event) (state : σ) :
    eval handle (emit event : Task I ε Unit) state = (.ok (), state) := rfl

theorem eval_bind (handle : Handler I σ) (task : Task I ε α) (next : α → Task I ε β) (state : σ) :
    eval handle (task >>= next) state =
      match eval handle task state with
      | (.ok value, after) => eval handle (next value) after
      | (.error error, after) => (.error error, after) := by
  simp only [eval, ExceptT.run_bind, Program.bind_eq_bind, Program.eval_bind]
  rcases Program.eval handle task.run state with ⟨outcome, after⟩
  cases outcome <;> rfl

theorem eval_map (handle : Handler I σ) (change : α → β) (task : Task I ε α) (state : σ) :
    eval handle (change <$> task) state =
      ((eval handle task state).1.map change, (eval handle task state).2) := by
  rw [map_eq_pure_bind, eval_bind]
  rcases eval handle task state with ⟨outcome, after⟩
  cases outcome <;> rfl

end Task

namespace Search

variable {handle : Handler (Bus.interface ε) σ} {state : State} {bus : σ}

def eval (handle : Handler (Bus.interface ε) σ) (task : SearchTask ε α) (state : State) (bus : σ) :
    Except (BusError ε) α × State × σ :=
  let outcome := Program.eval handle (task.run.run state) bus
  (outcome.1.1, outcome.1.2, outcome.2)

@[simp] theorem eval_pure (value : α) :
    eval handle (pure value : SearchTask ε α) state bus = (.ok value, state, bus) := rfl

@[simp] theorem eval_throw (error : BusError ε) :
    eval handle (throw error : SearchTask ε α) state bus = (.error error, state, bus) := rfl

@[simp] theorem eval_emit (event : Event) :
    eval handle (emit event) state bus = (.ok (), state, bus) := rfl

@[simp] theorem eval_get :
    eval handle (get : SearchTask ε State) state bus = (.ok state, state, bus) := rfl

@[simp] theorem eval_set (after : State) :
    eval handle (set after : SearchTask ε PUnit) state bus = (.ok (), after, bus) := rfl

@[simp] theorem eval_modify (change : State → State) :
    eval handle (modify change : SearchTask ε PUnit) state bus = (.ok (), change state, bus) := rfl

theorem eval_bind (task : SearchTask ε α) (next : α → SearchTask ε β) :
    eval handle (task >>= next) state bus =
      match eval handle task state bus with
      | (.ok value, after, line) => eval handle (next value) after line
      | (.error error, after, line) => (.error error, after, line) := by
  simp only [eval, ExceptT.run_bind, StateT.run_bind, Program.bind_eq_bind, Program.eval_bind]
  rcases Program.eval handle (task.run.run state) bus with ⟨⟨outcome, after⟩, line⟩
  cases outcome <;> rfl

theorem eval_map (change : α → β) (task : SearchTask ε α) :
    eval handle (change <$> task) state bus =
      ((eval handle task state bus).1.map change, (eval handle task state bus).2) := by
  rw [map_eq_pure_bind, eval_bind]
  rcases eval handle task state bus with ⟨outcome, after, line⟩
  cases outcome <;> rfl

theorem eval_attempt (task : SearchTask ε α) :
    eval handle (attempt task) state bus =
      (.ok (eval handle task state bus).1, (eval handle task state bus).2) := by
  simp only [eval, attempt, ExceptT.run_lift, StateT.run_map, Program.eval_map]

theorem eval_onBus (task : Task (Bus.interface ε) ε α) :
    eval handle (onBus task) state bus =
      ((Task.eval handle task bus).1, state, (Task.eval handle task bus).2) := by
  simp only [eval, onBus, Task.eval, ExceptT.run_mk]
  simp

end Search

end SingleWire
