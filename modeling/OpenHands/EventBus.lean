/-
# The event bus: the stream with its queue of deliveries

`EventStream.add_event` puts the event on a queue, from which the subscribers get the
events one by one in the order of their ids.  An `EventBus` is an event log with the events
not yet delivered to the controller.

While the controller handles an event, other threads add events of their own: the user, the
runtime, the memory.  `arrivals` says which ones come in before each `add_event` of the
controller, so that a run covers every interleaving.
-/
import OpenHands.EventLog

namespace OpenHands

/-- The event stream with the queue of a subscriber and the events that other threads are
about to add. -/
structure EventBus where
  log : EventLog
  queue : List Event := []
  arrivals : List (List (Event × EventSource)) := []

namespace EventBus

/-- The event under the next id is on the stream and in the queue. -/
def put (bus : EventBus) (event : Event) (source : EventSource) : EventBus :=
  { bus with
    log := bus.log.addEvent event source
    queue := bus.queue ++ [{ event with id := bus.log.curId, source := some source }] }

/-- Another thread adds an event.  An observation names an event that is on the stream
already; nothing can answer an event that is not there yet. -/
def receive (bus : EventBus) (arrival : Event × EventSource) : EventBus :=
  if arrival.1.cause.all (· < bus.log.curId) then bus.put arrival.1 arrival.2 else bus

/-- The other threads have their turn. -/
def arrive (bus : EventBus) : EventBus :=
  match bus.arrivals with
  | [] => bus
  | batch :: arrivals => batch.foldl receive { bus with arrivals := arrivals }

/-- `add_event` of the controller: the bus, and the event with the id it got. -/
def addEvent (bus : EventBus) (event : Event) (source : EventSource) : EventBus × Event :=
  let bus := bus.arrive
  (bus.put event source, { event with id := bus.log.curId, source := some source })

/-! ## What every addition keeps -/

/-- One bus comes from another by adding events. -/
structure Advances (bus bus' : EventBus) : Prop where
  mem_queue : ∀ e ∈ bus.queue, e ∈ bus'.queue
  curId_le : bus.log.curId ≤ bus'.log.curId

/-- The queue is in the order of the ids, all of them taken, and an observation comes
behind the event it answers. -/
structure WellFormed (bus : EventBus) : Prop where
  sorted : bus.queue.Pairwise (fun a b => a.id < b.id)
  lt_curId : ∀ e ∈ bus.queue, e.id < bus.log.curId
  cause_lt : ∀ e ∈ bus.queue, ∀ i ∈ e.cause, i < e.id

theorem Advances.refl (bus : EventBus) : bus.Advances bus :=
  ⟨fun _ he => he, le_refl _⟩

theorem Advances.trans {a b c : EventBus} (h : a.Advances b) (h' : b.Advances c) :
    a.Advances c :=
  ⟨fun e he => h'.mem_queue e (h.mem_queue e he), le_trans h.curId_le h'.curId_le⟩

theorem advances_put (bus : EventBus) (event : Event) (source : EventSource) :
    bus.Advances (bus.put event source) := by
  refine ⟨fun e he => List.mem_append_left _ he, ?_⟩
  show bus.log.curId ≤ bus.log.curId + 1
  omega

/-- An event that answers an earlier one or none keeps the order of the queue. -/
theorem WellFormed.put {bus : EventBus} (h : bus.WellFormed) {event : Event}
    (hcause : ∀ i ∈ event.cause, i < bus.log.curId) (source : EventSource) :
    (bus.put event source).WellFormed where
  sorted := pairwise_concat h.sorted h.lt_curId
  lt_curId := by
    intro e he
    show e.id < bus.log.curId + 1
    rcases List.mem_append.mp he with he | he
    · have := h.lt_curId e he
      omega
    · rw [List.mem_singleton.mp he]
      exact Int.lt_succ _
  cause_lt := by
    intro e he
    rcases List.mem_append.mp he with he | he
    · exact h.cause_lt e he
    · rw [List.mem_singleton.mp he]
      exact hcause

theorem advances_receive (bus : EventBus) (arrival : Event × EventSource) :
    bus.Advances (bus.receive arrival) := by
  unfold receive
  split_ifs
  · exact advances_put bus _ _
  · exact .refl bus

theorem WellFormed.receive {bus : EventBus} (h : bus.WellFormed)
    (arrival : Event × EventSource) : (bus.receive arrival).WellFormed := by
  unfold EventBus.receive
  split_ifs with hcause
  · refine h.put ?_ _
    intro i hi
    rw [Option.mem_def.mp hi] at hcause
    simpa using hcause
  · exact h

/-- A turn of the other threads adds events, and keeps the order. -/
theorem foldl_receive (batch : List (Event × EventSource)) :
    ∀ bus : EventBus, bus.Advances (batch.foldl receive bus) ∧
      (bus.WellFormed → (batch.foldl receive bus).WellFormed) := by
  induction batch with
  | nil => exact fun bus => ⟨.refl bus, id⟩
  | cons arrival batch ih =>
    intro bus
    obtain ⟨hadvances, hwellFormed⟩ := ih (bus.receive arrival)
    exact ⟨(advances_receive bus arrival).trans hadvances,
      fun h => hwellFormed (h.receive arrival)⟩

theorem advances_arrive (bus : EventBus) : bus.Advances bus.arrive := by
  unfold arrive
  cases harrivals : bus.arrivals with
  | nil => exact .refl bus
  | cons batch arrivals =>
    obtain ⟨hmem, hle⟩ := (foldl_receive batch { bus with arrivals := arrivals }).1
    exact ⟨hmem, hle⟩

theorem WellFormed.arrive {bus : EventBus} (h : bus.WellFormed) : bus.arrive.WellFormed := by
  unfold EventBus.arrive
  cases harrivals : bus.arrivals with
  | nil => exact h
  | cons batch arrivals =>
    exact (foldl_receive batch { bus with arrivals := arrivals }).2
      ⟨h.sorted, h.lt_curId, h.cause_lt⟩

theorem advances_addEvent (bus : EventBus) (event : Event) (source : EventSource) :
    bus.Advances (bus.addEvent event source).1 :=
  bus.advances_arrive.trans (advances_put bus.arrive event source)

theorem WellFormed.addEvent {bus : EventBus} (h : bus.WellFormed) {event : Event}
    (hcause : ∀ i ∈ event.cause, i < bus.log.curId) (source : EventSource) :
    (bus.addEvent event source).1.WellFormed :=
  h.arrive.put (fun i hi => lt_of_lt_of_le (hcause i hi) bus.advances_arrive.curId_le) source

/-- The id of the event is new and taken afterwards. -/
theorem id_addEvent (bus : EventBus) (event : Event) (source : EventSource) :
    bus.log.curId ≤ (bus.addEvent event source).2.id ∧
      (bus.addEvent event source).2.id < (bus.addEvent event source).1.log.curId :=
  ⟨bus.advances_arrive.curId_le, Int.lt_succ _⟩

/-- The event is in the queue. -/
theorem mem_queue_addEvent (bus : EventBus) (event : Event) (source : EventSource) :
    (bus.addEvent event source).2 ∈ (bus.addEvent event source).1.queue :=
  List.mem_append_right _ (List.mem_singleton_self _)

end EventBus

end OpenHands
