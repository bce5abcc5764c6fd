import SingleWire.Search.Operation

namespace SingleWire.Search

variable {ε α β : Type}

structure Composes (property : (α : Type) → SearchTask ε α → Prop) : Prop where
  pure {α : Type} (value : α) : property α (pure value)
  throw {α : Type} (error : BusError ε) : property α (throw error)
  emit (event : Event) : property Unit (emit event)
  get : property State get
  set (state : State) : property PUnit (set state)
  modify (change : State → State) : property PUnit (modify change)
  bind {α β : Type} {task : SearchTask ε α} {next : α → SearchTask ε β} (first : property α task)
    (rest : ∀ value, property β (next value)) : property β (task >>= next)
  attempt {α : Type} {task : SearchTask ε α} (holds : property α task) :
    property (Except (BusError ε) α) (attempt task)

namespace Composes

variable {property : (α : Type) → SearchTask ε α → Prop} (composes : Composes property)
include composes

theorem map {task : SearchTask ε α} (holds : property α task) (change : α → β) :
    property β (change <$> task) := by
  rw [map_eq_pure_bind]
  exact composes.bind holds fun value => composes.pure (change value)

theorem foldlM {step : β → α → SearchTask ε β} (holds : ∀ value element, property β (step value element))
    (elements : List α) (start : β) : property β (elements.foldlM step start) := by
  induction elements generalizing start with
  | nil => exact composes.pure start
  | cons element rest ih => exact composes.bind (holds start element) ih

theorem pass_of_onBus (presence : property Unit (onBus Bus.demandPresence))
    (command : ∀ kind : Kind, property Unit (onBus (Bus.writeByte kind.command)))
    (triplet : ∀ direction, property Triplet (onBus (Bus.triplet direction))) :
    property Rom pass := by
  have visits : ∀ last index, property Nat (visit last index) := by
    intro last index
    refine composes.bind composes.get fun state => composes.bind (triplet _) fun answer => ?_
    split
    · exact composes.throw _
    · exact composes.bind (composes.set _) fun _ => composes.pure _
  refine composes.bind presence fun _ => composes.bind composes.get fun start =>
    composes.bind (command start.kind) fun _ =>
      composes.bind (composes.foldlM visits (List.range 64) 0) fun last => ?_
  exact composes.bind (composes.modify _) fun _ => composes.bind composes.get fun state =>
    composes.bind (composes.emit _) fun _ => composes.pure _

theorem judge (rom : Rom) : property (Option Rom) (judge rom) := by
  refine composes.bind composes.get fun state => ?_
  split
  · exact composes.bind (composes.set _) fun _ => composes.pure _
  split
  · exact composes.bind (composes.emit _) fun _ => composes.throw _
  split
  · exact composes.bind (composes.set _) fun _ => composes.pure _
  · exact composes.bind (composes.emit _) fun _ => composes.pure _

section

variable (passes : property Rom pass)
include passes

theorem next : property (Option Rom) next := by
  refine composes.bind composes.get fun state => ?_
  split
  · exact composes.pure none
  refine composes.bind (composes.attempt passes) fun outcome => ?_
  split
  · exact composes.judge _
  · exact composes.bind (composes.emit _) fun _ =>
      composes.bind (composes.modify _) fun _ => composes.pure _
  · exact composes.bind (composes.emit _) fun _ =>
      composes.bind (composes.modify _) fun _ => composes.pure _
  · exact composes.throw _

theorem verify (rom : Rom) : property Bool (verify rom) := by
  refine composes.bind (composes.modify _) fun _ =>
    composes.bind (composes.attempt (composes.next passes)) fun outcome =>
      composes.bind (composes.modify _) fun _ => ?_
  split
  · exact composes.pure _
  · exact composes.throw _

theorem collect (count room : Nat) (found : List Rom) :
    property (Option (List Rom)) (collect count room found) := by
  induction count generalizing room found with
  | zero => cases room <;> exact composes.pure _
  | succ count ih =>
      cases room with
      | zero => exact composes.pure _
      | succ room =>
          refine composes.bind (composes.attempt (composes.next passes)) fun outcome => ?_
          split
          · exact ih _ _
          · exact composes.pure _
          · exact ih _ _
          · exact composes.throw _

theorem operation (operation : Operation) : property Answer operation.task := by
  cases operation with
  | next => exact composes.map (composes.next passes) _
  | verify rom => exact composes.map (composes.verify passes rom) _
  | enumerate capacity =>
      exact composes.map (composes.bind (composes.modify _) fun _ =>
        composes.collect passes passLimit capacity []) _
  | target _ | skipFamily | reset => exact composes.map (composes.modify _) _

end

end Composes

end SingleWire.Search
