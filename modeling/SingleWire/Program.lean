import SingleWire.Event

/-!
Programs that talk to a layer below them. A program is a tree: it is done with a value, asks for
one thing and goes on with the reply, or notes an event. A handler answers the requests of one
interface out of a state; a program for one interface becomes a program for another by giving each
request its meaning there. `run_bind` and `run_through` say that running goes through both.
-/

namespace SingleWire

/-- The requests that a layer answers, and what it replies to each. -/
structure Interface where
  Request : Type
  Reply : Request → Type

inductive Program (interface : Interface) (α : Type) where
  | done (value : α)
  | ask (request : interface.Request) (next : interface.Reply request → Program interface α)
  | note (event : Event) (rest : Program interface α)

/-- What a run leaves: its value, the state of the layer below, and the events in order. -/
structure Outcome (σ α : Type) where
  value : α
  state : σ
  events : List Event

abbrev Handler (interface : Interface) (σ : Type) :=
  (request : interface.Request) → σ → interface.Reply request × σ

namespace Program

variable {I J : Interface} {σ α β γ : Type}

def bind : Program I α → (α → Program I β) → Program I β
  | done value, next => next value
  | ask request proceed, next => ask request fun reply => (proceed reply).bind next
  | note event rest, next => note event (rest.bind next)

instance : Monad (Program I) where
  pure := done
  bind := bind

def perform (request : I.Request) : Program I (I.Reply request) :=
  ask request done

def emit (event : Event) : Program I Unit :=
  note event (done ())

def run (handle : Handler I σ) : Program I α → σ → Outcome σ α
  | done value, state => ⟨value, state, []⟩
  | ask request next, state =>
      match handle request state with
      | (reply, after) => run handle (next reply) after
  | note event rest, state =>
      match run handle rest state with
      | ⟨value, after, events⟩ => ⟨value, after, event :: events⟩

/-- The same program with each request carried out by a program of the layer below. -/
def through (carry : (request : I.Request) → Program J (I.Reply request)) :
    Program I α → Program J α
  | done value => done value
  | ask request next => (carry request).bind fun reply => (next reply).through carry
  | note event rest => note event (rest.through carry)

@[simp] theorem pure_eq_done (value : α) : (pure value : Program I α) = done value := rfl

@[simp] theorem bind_eq_bind (program : Program I α) (next : α → Program I β) :
    program >>= next = program.bind next := rfl

theorem bind_done (program : Program I α) : program.bind done = program := by
  induction program with
  | done value => rfl
  | ask request next ih => simp [bind, ih]
  | note event rest ih => simp [bind, ih]

theorem bind_assoc (program : Program I α) (first : α → Program I β) (second : β → Program I γ) :
    (program.bind first).bind second = program.bind fun value => (first value).bind second := by
  induction program with
  | done value => rfl
  | ask request next ih => simp [bind, ih]
  | note event rest ih => simp [bind, ih]

instance : LawfulMonad (Program I) := .mk' (Program I)
  bind_done
  (fun _ _ => rfl)
  bind_assoc

theorem run_bind (handle : Handler I σ) (program : Program I α) (next : α → Program I β) (state : σ) :
    (program.bind next).run handle state =
      let first := program.run handle state
      let second := (next first.value).run handle first.state
      ⟨second.value, second.state, first.events ++ second.events⟩ := by
  induction program generalizing state with
  | done value => rfl
  | ask request proceed ih => exact ih _ _
  | note event rest ih =>
      simp only [bind, run, ih, List.cons_append]

/-- The handler that answers each request by running what it is carried out by. The events of those
runs are left out. -/
def carried (carry : (request : I.Request) → Program J (I.Reply request)) (handle : Handler J σ) :
    Handler I σ := fun request state =>
  let outcome := (carry request).run handle state
  (outcome.value, outcome.state)

theorem run_through (carry : (request : I.Request) → Program J (I.Reply request))
    (handle : Handler J σ) (program : Program I α) (state : σ) :
    ((program.through carry).run handle state).value =
        (program.run (carried carry handle) state).value ∧
      ((program.through carry).run handle state).state =
        (program.run (carried carry handle) state).state := by
  induction program generalizing state with
  | done value => exact ⟨rfl, rfl⟩
  | ask request next ih =>
      simp only [through, run_bind, run, carried]
      exact ih _ _
  | note event rest ih => exact ih state

theorem run_keeps (handle : Handler I σ) (keeps : σ → Prop)
    (step : ∀ request state, keeps state → keeps (handle request state).2)
    (program : Program I α) (state : σ) (start : keeps state) :
    keeps (program.run handle state).state := by
  induction program generalizing state with
  | done value => exact start
  | ask request next ih => exact ih _ _ (step request state start)
  | note event rest ih => exact ih state start

end Program

end SingleWire
