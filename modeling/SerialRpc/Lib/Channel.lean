import SerialRpc.Lib.Mealy
import Mathlib.Data.List.ReduceOption

/-!
# `SerialRpc.Lib.Channel`: a stream in flight is a queue of messages

A machine reads a stream and puts messages out, at most one at each input. What of the stream is
still on its way is then a queue: the messages that the machine will put out over it, one after the
other.

* `messages` are the messages of a stream, `messages_append` says how two streams add up.
* `Conveys` relates a stream in flight to its queue, and to the state the machine will be in behind
  it. `Conveys.send` adds to the end of both, `Conveys.receive` takes from the front of both.
* `Conveys.drained`: where nothing is in flight, nothing is in the queue.
-/

set_option autoImplicit false

namespace Mealy

variable {σ τ ι μ : Type*} (M : Mealy σ ι (Option μ))

/-- The messages of a stream. -/
def messages (s : σ) (is : List ι) : List μ := (M.outputs s is).reduceOption

/-- No inputs report nothing. -/
@[simp] theorem messages_nil (s : σ) : M.messages s [] = [] := rfl

/-- The messages of two streams, one behind the other. -/
theorem messages_append (s : σ) (is js : List ι) :
    M.messages s (is ++ js) = M.messages s is ++ M.messages (M.final s is) js := by
  rw [messages, outputs_append, List.reduceOption_append]
  rfl

/-- A part that is read first, and the rest. -/
theorem messages_take_drop (s : σ) (is : List ι) (n : Nat) :
    M.messages s (is.take n) ++ M.messages (M.final s (is.take n)) (is.drop n)
      = M.messages s is := by
  rw [← messages_append, List.take_append_drop]

/-- A stretch of inputs in two parts. -/
theorem final_take_drop (s : σ) (is : List ι) (n : Nat) :
    M.final (M.final s (is.take n)) (is.drop n) = M.final s is := by
  rw [← final_append, List.take_append_drop]

/-- A message was put out at some input. -/
theorem mem_messages {s : σ} {is : List ι} {m : μ} :
    m ∈ M.messages s is ↔ some m ∈ M.outputs s is := List.reduceOption_mem_iff

/-- Machines that say the same put out the same messages. -/
theorem Simulation.messages {M : Mealy σ ι (Option μ)} {N : Mealy τ ι (Option μ)}
    {R : σ → τ → Prop} (h : Simulation M N R id) {s : σ} {t : τ} (hR : R s t) (is : List ι) :
    M.messages s is = N.messages t is := by
  rw [Mealy.messages, h.outputs hR is, List.map_id]
  rfl

/-! ### Streams in flight -/

/-- `flight` is on its way to the machine in the state `reader`. Its messages are `queue`, and the
machine will be in the state `ahead` behind it. -/
structure Conveys (reader : σ) (flight : List ι) (queue : List μ) (ahead : σ) : Prop where
  queue : M.messages reader flight = queue
  ahead : M.final reader flight = ahead

variable {M} {reader ahead : σ} {flight : List ι} {queue : List μ}

/-- Nothing is in flight. -/
theorem Conveys.idle (s : σ) : M.Conveys s [] [] s := ⟨rfl, rfl⟩

/-- More is sent. -/
theorem Conveys.send (h : M.Conveys reader flight queue ahead) (is : List ι) :
    M.Conveys reader (flight ++ is) (queue ++ M.messages ahead is) (M.final ahead is) where
  queue := by rw [messages_append, h.queue, h.ahead]
  ahead := by rw [final_append, h.ahead]

/-- The first part of the stream is read: these are the first messages of the queue. -/
theorem Conveys.receive (h : M.Conveys reader flight queue ahead) (n : Nat) :
    ∃ rest, queue = M.messages reader (flight.take n) ++ rest ∧
      M.Conveys (M.final reader (flight.take n)) (flight.drop n) rest ahead := by
  refine ⟨M.messages (M.final reader (flight.take n)) (flight.drop n), ?_, rfl, ?_⟩
  · rw [messages_take_drop, h.queue]
  · rw [final_take_drop, h.ahead]

/-- Without a stream there is no queue. -/
theorem Conveys.drained (h : M.Conveys reader [] queue ahead) : queue = [] ∧ reader = ahead :=
  ⟨h.queue.symm, h.ahead⟩

end Mealy
