import SingleWire.Proofs.Faults
import SingleWire.Proofs.Search.Composition

/-!
What a run leads to, whichever calls fail. Started where one thing holds of the layer, a task that
succeeds leads to another, and a task that fails leaves the layer safe. Each way of putting tasks
together has one rule.
-/

namespace SingleWire

variable {I : Interface} {σ ε α β : Type} {safe before : σ → Prop}

namespace Handler

variable {failure : (request : I.Request) → Option (ε → I.Reply request)} {handle : Handler I σ}
  {request : I.Request}

theorem faulty_cases {fail : ε → I.Reply request} (fails : failure request = some fail)
    (faulty : Faulty ε σ) :
    ∃ made, handle.faulty failure request faulty =
        ((handle request faulty.layer).1, ⟨(handle request faulty.layer).2, faulty.plan, made⟩) ∨
      ∃ fault, handle.faulty failure request faulty =
        (fail fault, ⟨faulty.layer, faulty.plan, made⟩) := by
  refine ⟨faulty.made + 1, ?_⟩
  rw [Handler.faulty, fails]
  dsimp only
  cases faulty.plan.lookup faulty.made with
  | none => exact .inl rfl
  | some fault => exact .inr ⟨fault, rfl⟩

end Handler

namespace Task

variable {handle : Handler I (Faulty ε σ)} {after : α → σ → Prop} {result : β → σ → Prop}
  {task : Task I ε α}

def Leads (handle : Handler I (Faulty ε σ)) (safe before : σ → Prop) (task : Task I ε α)
    (after : α → σ → Prop) : Prop :=
  ∀ faulty : Faulty ε σ, before faulty.layer →
    match eval handle task faulty with
    | (.ok value, left) => after value left.layer
    | (.error _, left) => safe left.layer

theorem leads_pure {value : α} (holds : ∀ layer, before layer → after value layer) :
    Leads handle safe before (pure value) after :=
  fun faulty start => holds faulty.layer start

theorem leads_throw {error : BusError ε} (secure : ∀ layer, before layer → safe layer) :
    Leads handle safe before (throw error) after :=
  fun faulty start => secure faulty.layer start

theorem leads_emit (event : Event) : Leads handle safe before (emit event) fun _ => before :=
  fun _ start => start

theorem Leads.bind {next : α → Task I ε β} (first : Leads handle safe before task after)
    (rest : ∀ value, Leads handle safe (after value) (next value) result) :
    Leads handle safe before (task >>= next) result := by
  intro faulty start
  have led := first faulty start
  rw [eval_bind]
  rcases ended : eval handle task faulty with ⟨error | value, left⟩
  · rw [ended] at led
    exact led
  · rw [ended] at led
    exact rest value left led

theorem Leads.mono {weaker : α → σ → Prop} (leads : Leads handle safe before task after)
    (implies : ∀ value layer, after value layer → weaker value layer) :
    Leads handle safe before task weaker := by
  intro faulty start
  have led := leads faulty start
  rcases ended : eval handle task faulty with ⟨error | value, left⟩
  · rw [ended] at led
    exact led
  · rw [ended] at led
    exact implies value left.layer led

/-- A call that fails leaves the layer as it was before the call. -/
theorem leads_call {failure : (request : I.Request) → Option (ε → I.Reply request)}
    {handle : Handler I σ} {request : I.Request} {fail : ε → I.Reply request}
    {finish : I.Reply request → Except (BusError ε) α} (fails : failure request = some fail)
    (tells : ∀ fault, finish (fail fault) = .error (.line fault))
    (secure : ∀ layer, before layer → safe layer)
    (holds : ∀ layer, before layer → ∃ value, finish (handle request layer).1 = .ok value ∧
      after value (handle request layer).2) :
    Leads (handle.faulty failure) safe before
      (ExceptT.mk (.ask request fun reply => .done (finish reply))) after := by
  intro faulty start
  have asked : eval (handle.faulty failure)
      (ExceptT.mk (.ask request fun reply => .done (finish reply)) : Task I ε α) faulty =
      (finish (handle.faulty failure request faulty).1, (handle.faulty failure request faulty).2) :=
    rfl
  rw [asked]
  obtain ⟨made, reached | ⟨fault, failed⟩⟩ := @Handler.faulty_cases _ _ _ failure handle _ _ fails faulty
  · obtain ⟨value, answered, reaches⟩ := holds faulty.layer start
    rw [reached, answered]
    exact reaches
  · rw [failed, tells fault]
    exact secure faulty.layer start

end Task

namespace Search

variable {handle : Handler (Bus.interface ε) (Faulty ε σ)} {after : α → σ → Prop}
  {result : β → σ → Prop} {task : SearchTask ε α}

def Leads (handle : Handler (Bus.interface ε) (Faulty ε σ)) (safe before : σ → Prop)
    (task : SearchTask ε α) (after : α → σ → Prop) : Prop :=
  ∀ (state : State) (faulty : Faulty ε σ), before faulty.layer →
    match eval handle task state faulty with
    | (.ok value, _, left) => after value left.layer
    | (.error _, _, left) => safe left.layer

theorem leads_pure {value : α} (holds : ∀ layer, before layer → after value layer) :
    Leads handle safe before (pure value) after :=
  fun _ faulty start => holds faulty.layer start

theorem leads_throw {error : BusError ε} (secure : ∀ layer, before layer → safe layer) :
    Leads handle safe before (throw error) after :=
  fun _ faulty start => secure faulty.layer start

theorem leads_emit (event : Event) : Leads handle safe before (emit event) fun _ => before :=
  fun _ _ start => start

theorem leads_get : Leads handle safe before (get : SearchTask ε State) fun _ => before :=
  fun _ _ start => start

theorem leads_set (left : State) :
    Leads handle safe before (set left : SearchTask ε PUnit) fun _ => before :=
  fun _ _ start => start

theorem leads_modify (change : State → State) :
    Leads handle safe before (modify change : SearchTask ε PUnit) fun _ => before :=
  fun _ _ start => start

theorem leads_onBus {task : Task (Bus.interface ε) ε α}
    (leads : task.Leads handle safe before after) : Leads handle safe before (onBus task) after := by
  intro state faulty start
  have led := leads faulty start
  rw [eval_onBus]
  rcases ended : Task.eval handle task faulty with ⟨error | value, left⟩
  · rw [ended] at led
    exact led
  · rw [ended] at led
    exact led

theorem Leads.bind {next : α → SearchTask ε β} (first : Leads handle safe before task after)
    (rest : ∀ value, Leads handle safe (after value) (next value) result) :
    Leads handle safe before (task >>= next) result := by
  intro state faulty start
  have led := first state faulty start
  rw [eval_bind]
  rcases ended : eval handle task state faulty with ⟨error | value, middle, left⟩
  · rw [ended] at led
    exact led
  · rw [ended] at led
    exact rest value middle left led

def Keeps (handle : Handler (Bus.interface ε) (Faulty ε σ)) (safe : σ → Prop)
    (task : SearchTask ε α) : Prop :=
  Leads handle safe safe task fun _ => safe

theorem composes_keeps : Composes fun _ task => Keeps handle safe task where
  pure _ := leads_pure fun _ start => start
  throw _ := leads_throw fun _ start => start
  emit event := leads_emit event
  get := leads_get
  set state := leads_set state
  modify change := leads_modify change
  bind first rest := Leads.bind first rest
  attempt {α task} keeps := by
    intro state faulty start
    have led := keeps state faulty start
    rw [eval_attempt]
    rcases ended : eval handle task state faulty with ⟨error | value, left⟩
    · rw [ended] at led
      exact led
    · rw [ended] at led
      exact led

end Search

end SingleWire
