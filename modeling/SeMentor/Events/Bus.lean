import Mathlib.Data.List.Induction
import SeMentor.Lib.Json
import SeMentor.Security.Redaction

set_option autoImplicit false

/- `events/bus.py` keeps every published event for replay, and `observability/logging.py` keeps
log events. Both put payloads through a sanitiser of their own first. -/
namespace SeMentor.Events

open Paths (Str isSpace)
open Redaction Json

-- What a payload holds besides texts: numbers, flags and `None`.
variable {σ : Type}

abbrev Payload (σ : Type) : Type := List (Str × Json σ Str)

mutual

/-- `_sanitize` of the event bus: lists are handed back as they are. -/
def sanitize : Json σ Str → Json σ Str
  | .scalar value => .scalar value
  | .text value => .text (redactText value)
  | .list items => .list items
  | .dict fields => .dict (sanitizeFields fields)

def sanitizeFields : List (Str × Json σ Str) → List (Str × Json σ Str)
  | [] => []
  | (key, value) :: rest => (key, sanitize value) :: sanitizeFields rest

end

/-- The cut the log sanitiser makes in a text that is still long after redaction. -/
def truncated (text : Str) : Str :=
  if text.length ≤ 600 then text
  else ((text.take 587).reverse.dropWhile isSpace).reverse ++ "\n[truncated]".toList

mutual

/-- `_sanitize_value` of the log. -/
def sanitizeValue : Json σ Str → Json σ Str
  | .scalar value => .scalar value
  | .text value => .text (truncated (redactText value))
  | .list items => .list (sanitizeItems items)
  | .dict fields => .dict (sanitizeValues fields)

def sanitizeItems : List (Json σ Str) → List (Json σ Str)
  | [] => []
  | item :: rest => sanitizeValue item :: sanitizeItems rest

def sanitizeValues : List (Str × Json σ Str) → List (Str × Json σ Str)
  | [] => []
  | (key, value) :: rest => (key, sanitizeValue value) :: sanitizeValues rest

end

structure Event (σ : Type) where
  eventId : Nat
  taskId : Str
  eventType : Str
  payload : Payload σ

structure EventBus (σ : Type) where
  events : List (Event σ)
  nextId : Nat

def EventBus.new : EventBus σ := ⟨[], 1⟩

structure Publication (σ : Type) where
  taskId : Str
  eventType : Str
  payload : Payload σ

/-- `publish` -/
def EventBus.publish (bus : EventBus σ) (call : Publication σ) : Event σ × EventBus σ :=
  let event := ⟨bus.nextId, call.taskId, call.eventType, sanitizeFields call.payload⟩
  (event, ⟨bus.events ++ [event], bus.nextId + 1⟩)

/-- `replay` -/
def EventBus.replay (bus : EventBus σ) (taskId : Str) (lastEventId : Option Int) : List (Event σ) :=
  let since := lastEventId.getD 0
  bus.events.filter fun event => event.taskId = taskId ∧ since < event.eventId

def EventBus.publishAll (bus : EventBus σ) (calls : List (Publication σ)) : EventBus σ :=
  calls.foldl (fun bus call => (bus.publish call).2) bus

theorem publishAll_append (bus : EventBus σ) (calls later : List (Publication σ)) :
    bus.publishAll (calls ++ later) = (bus.publishAll calls).publishAll later := by
  simp only [EventBus.publishAll, List.foldl_append]

/-- Events are numbered in the order they were published in. -/
structure Numbered (bus : EventBus σ) (calls : List (Publication σ)) : Prop where
  next : bus.nextId = calls.length + 1
  events : ∀ event, event ∈ bus.events ↔ ∃ position call, calls[position]? = some call ∧
    event = ⟨position + 1, call.taskId, call.eventType, sanitizeFields call.payload⟩

theorem Numbered.publish {bus : EventBus σ} {calls : List (Publication σ)}
    (numbered : Numbered bus calls) (call : Publication σ) :
    Numbered (bus.publish call).2 (calls ++ [call]) where
  next := by
    have next := numbered.next
    simp only [EventBus.publish, List.length_append, List.length_singleton]
    omega
  events := by
    intro event
    simp only [EventBus.publish, List.mem_append, numbered.events, List.mem_singleton]
    constructor
    · rintro (⟨position, earlier, found, rfl⟩ | rfl)
      · have old : position < calls.length := (List.getElem?_eq_some_iff.mp found).1
        exact ⟨position, earlier, (List.getElem?_append_left old).trans found, rfl⟩
      · refine ⟨calls.length, call, List.getElem?_concat_length, ?_⟩
        rw [numbered.next]
    · rintro ⟨position, other, found, rfl⟩
      rcases Nat.lt_trichotomy position calls.length with old | rfl | beyond
      · rw [List.getElem?_append_left old] at found
        exact Or.inl ⟨position, other, found, rfl⟩
      · rw [List.getElem?_concat_length] at found
        cases found
        exact Or.inr (by rw [numbered.next])
      · rw [List.getElem?_eq_none (by simp; omega)] at found
        cases found

theorem numbered_publishAll (calls : List (Publication σ)) :
    Numbered (EventBus.new.publishAll calls) calls := by
  induction calls using List.reverseRecOn with
  | nil => exact ⟨rfl, by simp [EventBus.publishAll, EventBus.new]⟩
  | append_singleton earlier call ih =>
      rw [publishAll_append]
      exact ih.publish call

/-- The event of a call. -/
def eventOf (position : Nat) (call : Publication σ) : Event σ :=
  ⟨position + 1, call.taskId, call.eventType, sanitizeFields call.payload⟩

theorem eventOf_replayed {calls : List (Publication σ)} {position : Nat} {call : Publication σ}
    (made : calls[position]? = some call) :
    eventOf position call ∈ (EventBus.new.publishAll calls).replay call.taskId none := by
  have numbered := numbered_publishAll calls
  simp only [EventBus.replay, List.mem_filter, numbered.events, decide_eq_true_eq]
  refine ⟨⟨position, call, made, rfl⟩, rfl, ?_⟩
  simp only [eventOf, Option.getD_none]
  omega

/-- What is replayed under the number of a call is that call's event. -/
theorem replayed_eq {calls : List (Publication σ)} {position : Nat} {call : Publication σ}
    (made : calls[position]? = some call) {event : Event σ} {taskId : Str}
    {lastEventId : Option Int}
    (replayed : event ∈ (EventBus.new.publishAll calls).replay taskId lastEventId)
    (number : event.eventId = position + 1) : event = eventOf position call := by
  have numbered := numbered_publishAll calls
  simp only [EventBus.replay, List.mem_filter, numbered.events] at replayed
  obtain ⟨⟨found_at, found, same, rfl⟩, _⟩ := replayed
  have here : found_at = position := by
    dsimp only at number
    omega
  subst here
  rw [made] at same
  cases same
  rfl

end SeMentor.Events
