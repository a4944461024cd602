import ServiceSteward.OutputReader
import ServiceSteward.Pumps
/-!
# Capture — both pipes of a JVM in one channel

`capture_output` starts one `spawn_reader` for stdout and one for stderr; both send to one bounded channel, which the
supervisor takes the lines from.  **However the readers and the supervisor take turns, the lines of each pipe arrive in
order, and a channel that is disconnected has delivered them all** (`output_arrives`).
-/
namespace Jss
namespace Log

open Interleaving (Machine Threads)
open Protocol (ReadResult)
open Pumps (itemsOf produce produced)

/-- What the loop of `spawn_reader` sends for a read before the next one, and the line that it carries over. -/
def decodeRead (line : Bytes) : ReadResult → List Bytes × Option Bytes
  | .ok [] => (lastLine line, none)
  | .ok buffer => ((readBuffer buffer.length line buffer).1, some (readBuffer buffer.length line buffer).2)
  | .error .interrupted => ([], some line)
  | .error _ => (lastLine line, none)

/-- The capacity of the channel. -/
def outputCapacity : Nat := 1024

/-- `capture_output`, with the supervisor. -/
def captureOutput (choices : List (Nat × Pumps.Answer ReadResult)) :
    Threads (Pumps.Channel Bytes) (Pumps.Task Bytes ReadResult Bytes) :=
  (Pumps.pumps decodeRead outputCapacity 2).run (Pumps.start 2 []) choices

/-- A pipe was read to its end. -/
def PipeEnded (reads : List ReadResult) : Prop :=
  ∃ read ∈ reads, read = .ok [] ∨ ∃ kind, kind ≠ .interrupted ∧ read = .error kind

/-! ## The readers -/

/-- What the rest of the loop sends. -/
def linesAfter (state : Option Bytes) (reads : List ReadResult) : List Bytes :=
  match state with
  | none => []
  | some line => readLines line (buffersOf reads)

theorem linesAfter_cons (line : Bytes) (read : ReadResult) (reads : List ReadResult) :
    linesAfter (some line) (read :: reads) = (decodeRead line read).1 ++ linesAfter (decodeRead line read).2 reads := by
  match read with
  | .ok [] => simp [linesAfter, decodeRead, buffersOf, readLines, lastLine]
  | .ok (b :: buffer) => rfl
  | .error .interrupted => rfl
  | .error .wouldBlock | .error .timedOut | .error .addrInUse | .error .notFound | .error .other =>
    simp [linesAfter, decodeRead, buffersOf, readLines, lastLine]

/-- **What was sent and what is still to come are the records of the pipe.** -/
theorem produced_lines : ∀ (reads more : List ReadResult),
    (produced decodeRead [] reads).1 ++ linesAfter (produced decodeRead [] reads).2 more =
      recordsOf (reads ++ more) := by
  intro reads
  induction reads using List.reverseRecOn with
  | nil => exact fun _ => rfl
  | append_singleton reads read ih =>
    intro more
    rw [List.append_assoc, List.singleton_append, ← ih (read :: more), Pumps.produced_append]
    unfold produce
    cases hstate : (produced decodeRead [] reads).2 with
    | none => rw [hstate]; rfl
    | some line =>
      dsimp only
      rw [linesAfter_cons, List.append_assoc]

/-- A reader that is done has read its pipe to the end. -/
theorem pipeEnded_of_produced : ∀ (reads : List ReadResult),
    (produced decodeRead [] reads).2 = none → PipeEnded reads := by
  intro reads
  induction reads using List.reverseRecOn with
  | nil => exact fun h => by cases h
  | append_singleton reads read ih =>
    intro h
    rw [Pumps.produced_append] at h
    unfold produce at h
    cases hstate : (produced decodeRead [] reads).2 with
    | none =>
      obtain ⟨read', hmem, hread⟩ := ih hstate
      exact ⟨read', List.mem_append_left _ hmem, hread⟩
    | some line =>
      rw [hstate] at h
      refine ⟨read, List.mem_append_right _ (List.mem_singleton_self _), ?_⟩
      match read, h with
      | .ok [], _ => exact .inl rfl
      | .error .wouldBlock, _ => exact .inr ⟨_, by decide, rfl⟩
      | .error .timedOut, _ => exact .inr ⟨_, by decide, rfl⟩
      | .error .addrInUse, _ => exact .inr ⟨_, by decide, rfl⟩
      | .error .notFound, _ => exact .inr ⟨_, by decide, rfl⟩
      | .error .other, _ => exact .inr ⟨_, by decide, rfl⟩

/-! ## The supervisor -/

/-- **The output arrives in order and whole**: under every interleaving of the two readers and the supervisor, and
however their reads return, the channel holds at most 1024 lines; every line that the supervisor has is of one of the
two pipes, and those of a pipe are the first of its records; and once the channel is disconnected, both pipes were read
to their ends, and the lines of each are all of its records, which joined are its stream without line ends. -/
theorem output_arrives (choices : List (Nat × Pumps.Answer ReadResult)) :
    let c := captureOutput choices
    c.shared.queue.length ≤ outputCapacity ∧ (∀ line ∈ c.shared.received, line.1 < 2) ∧
    ∀ pipe < 2, ∃ reader, c.tasks[pipe]? = some (.producer reader) ∧
      (∀ more, itemsOf pipe c.shared.received <+: recordsOf (reader.history ++ more)) ∧
      (c.shared.disconnected = true → PipeEnded reader.history ∧
        itemsOf pipe c.shared.received = recordsOf reader.history ∧
        WithoutLineEnds (streamOf reader.history) (itemsOf pipe c.shared.received).flatten) := by
  have h := Pumps.delivered decodeRead outputCapacity 2 [] choices
  refine ⟨h.room, h.known, fun pipe hpipe => ?_⟩
  obtain ⟨reader, htask, hprefix, hall⟩ := h.each pipe hpipe
  refine ⟨reader, htask, fun more => ?_, fun hended => ?_⟩
  · rw [← produced_lines]
    exact hprefix.trans (List.prefix_append _ _)
  · obtain ⟨hitems, hdone⟩ := hall hended
    have hrecords := produced_lines reader.history []
    rw [hdone, List.append_nil] at hrecords
    have hsame : itemsOf pipe (captureOutput choices).shared.received = recordsOf reader.history := by
      rw [← hrecords]
      exact hitems.trans (List.append_nil _).symm
    refine ⟨pipeEnded_of_produced _ hdone, hsame, ?_⟩
    obtain ⟨sent, last, hemitted, hshort, hlines⟩ := recordsOf_eq reader.history
    rw [hsame, hlines, List.flatten_append, lastLine_flatten]
    exact (emitted_keeps (streamOf reader.history) (by decide) List.not_mem_nil hemitted).2

/-- One line of stdout, and both pipes end. -/
example : (captureOutput [(0, .read (.ok [97, 10])), (0, .proceed), (2, .proceed), (0, .read (.ok [])), (0, .proceed),
    (1, .read (.ok [])), (1, .proceed), (2, .proceed)]).shared.disconnected = true := by decide +kernel

end Log
end Jss
