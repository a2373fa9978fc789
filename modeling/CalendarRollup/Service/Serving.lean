import CalendarRollup.Event

/-! Answering events that come line by line. A reader starts a handler for each event and does not
wait for it; handlers hand their answers to a queue of limited length, and a writer takes them from
there in order. Whoever may put an answer into the queue holds a sender of it. The writer ends where
the queue is empty and no sender is left, and what is sent after that is lost. -/
namespace CalendarRollup

abbrev Handler := InboundEvent → OutboundEvent

structure Serving where
  unread : List String
  /-- The number of lines that have been read. -/
  taken : Nat
  /-- Whether the reader is at work. It keeps a sender until it ends. -/
  reading : Bool
  /-- An answer that the reader itself has to hand over before it reads on, with a sender. -/
  held : Option String
  /-- The events that are handled, with the places of their lines. Each handler has a sender. -/
  running : List (Nat × InboundEvent)
  /-- Answers of handlers that wait for a place in the queue. -/
  finished : List String
  queue : List String
  senders : Nat
  written : List String
  /-- Whether the writer is at work. -/
  writing : Bool
  deriving Repr

namespace Serving
variable [Complaints]

def start (lines : List String) : Serving where
  unread := lines
  taken := 0
  reading := true
  held := none
  running := []
  finished := []
  queue := []
  senders := 1
  written := []
  writing := true

/-- The answers that fit into the queue. -/
def capacity : Nat := 64

inductive Label where
  | read
  | handOver
  | complete (index : Nat)
  | enqueue (index : Nat)
  | write
  /-- The reader ends with the lines. -/
  | close
  /-- The writer ends. -/
  | finish
  deriving DecidableEq, Repr

/-- A line is taken: a blank one is passed over, and one that is no event is answered by the
reader. -/
def take (s : Serving) (line : String) (rest : List String) : Serving :=
  let next := { s with unread := rest, taken := s.taken + 1 }
  if Text.isAllBlank line then next
  else match InboundEvent.parse? line with
    | some event =>
      { next with running := s.running ++ [(s.taken, event)], senders := s.senders + 1 }
    | none =>
      { next with held := some (OutboundEvent.unreadable line).render, senders := s.senders + 1 }

/-- Puts an answer into the queue, if there is room, and lets its sender go. Nobody takes it from
there once the writer has ended. -/
def send (s : Serving) (line : String) : Option Serving :=
  if !s.writing then some { s with senders := s.senders - 1 }
  else if s.queue.length < capacity then
    some { s with queue := s.queue ++ [line], senders := s.senders - 1 }
  else none

/-- The serving after what happens. `handlers` tells what the event of the line at each place is
answered with. -/
def step (handlers : Nat → Handler) (s : Serving) : Label → Option Serving
  | .read =>
    match s.held, s.unread with
    | none, line :: rest => some (s.take line rest)
    | _, _ => none
  | .handOver => do
    let line ← s.held
    { s with held := none }.send line
  | .complete index => do
    let (place, event) ← s.running[index]?
    some { s with
      running := s.running.eraseIdx index
      finished := s.finished ++ [(handlers place event).render] }
  | .enqueue index => do
    let line ← s.finished[index]?
    { s with finished := s.finished.eraseIdx index }.send line
  | .write =>
    match s.writing, s.queue with
    | true, line :: rest => some { s with queue := rest, written := s.written ++ [line] }
    | _, _ => none
  | .close =>
    match s.reading, s.held, s.unread with
    | true, none, [] => some { s with reading := false, senders := s.senders - 1 }
    | _, _, _ => none
  | .finish =>
    if s.writing && s.queue.isEmpty && s.senders == 0 then some { s with writing := false }
    else none

/-- Reader and writer have ended. -/
def isOver (s : Serving) : Bool := !s.reading && !s.writing

/-- The steps in the order in which they are tried when each line is answered before the next one is
read. -/
def eager : List Label := [.write, .enqueue 0, .complete 0, .handOver, .read, .close, .finish]

/-- Takes the first of the eager steps that can be taken, up to a number of times. -/
def run (handlers : Nat → Handler) : Nat → Serving → Serving
  | 0, s => s
  | steps + 1, s =>
    match eager.findSome? (s.step handlers) with
    | some s => run handlers steps s
    | none => s

/-- The answers to some lines. No line takes more than four steps, and the ends of reader and writer
are one step each. -/
def answers (handler : Handler) (lines : List String) : List String :=
  (run (fun _ => handler) (4 * lines.length + 2) (start lines)).written

end Serving
end CalendarRollup
