import NimbleServer.Model.PlainServer

/-!
# `NimbleServer.Proofs.CircularBuffer`: the circular buffer as a bounded queue

Both pools of the server keep their free slots in a circular buffer of 64 octets. What the
buffer is for is a queue: octets come out in the order in which they went in.
`queueCalls` is that queue, a plain list with a bound, and `runCalls` are the same calls on
the buffer.

`runCalls_eq_queueCalls` says that the two agree on every sequence of calls, also on where
they stop. What the calls return is then a fact about lists: as long as no write finds 64
octets and no read finds none, everything read so far followed by the queue is everything
written so far (`queueCalls_of_staysWithin`).
-/

set_option autoImplicit false

namespace NimbleServer

open NimbleServer.Lib

/-! ### Sequences of calls -/

/-- A call on an initialised buffer. -/
inductive BufferCall
  | write (data : UInt8)
  | read
deriving DecidableEq

/-- The calls one after the other: the octets read, oldest first, and the buffer after
them. -/
def runCalls (list : FreeList) : List BufferCall → CircularBuffer →
    Result (List UInt8 × CircularBuffer)
  | [], self => pure ([], self)
  | .write data :: calls, self => do
    let self ← nimbleServerCircularBufferWrite list self data
    runCalls list calls self
  | .read :: calls, self => do
    let (data, self) ← nimbleServerCircularBufferRead list self
    let (octets, self) ← runCalls list calls self
    return (data :: octets, self)

/-- The octets that the calls write, in order. -/
def writtenOctets : List BufferCall → List UInt8
  | [] => []
  | .write data :: calls => data :: writtenOctets calls
  | .read :: calls => writtenOctets calls

/-- The number of reads. -/
def readCount : List BufferCall → Nat
  | [] => 0
  | .write _ :: calls => readCount calls
  | .read :: calls => readCount calls + 1

/-- With `stored` octets before the first call, no write happens at 64 stored octets and no
read at 0. -/
def StaysWithin : (stored : Nat) → List BufferCall → Prop
  | _, [] => True
  | stored, .write _ :: calls =>
    stored ≠ NIMBLE_SERVER_CIRCULAR_BUFFER_SIZE ∧ StaysWithin (stored + 1) calls
  | stored, .read :: calls => stored ≠ 0 ∧ StaysWithin (stored - 1) calls

/-! ### The queue -/

/-- The calls on a queue that holds at most 64 octets. A write to a full queue and a read from
an empty one stop. -/
def queueCalls : List BufferCall → (queue : List UInt8) → Option (List UInt8 × List UInt8)
  | [], queue => some ([], queue)
  | .write data :: calls, queue =>
    if queue.length = NIMBLE_SERVER_CIRCULAR_BUFFER_SIZE then none
    else queueCalls calls (queue ++ [data])
  | .read :: _, [] => none
  | .read :: calls, front :: queue =>
    (queueCalls calls queue).map fun result => (front :: result.1, result.2)

/-- The buffer does what the queue does, and stops where the queue stops. Induction on the
calls. -/
theorem runCalls_eq_queueCalls (list : FreeList) (calls : List BufferCall) :
    ∀ self : CircularBuffer,
      (runCalls list calls self).toOption.map (fun result => (result.1, result.2.toList))
        = queueCalls calls self.toList := by
  induction calls with
  | nil => exact fun self => rfl
  | cons call calls ih =>
    intro self
    cases call with
    | write data =>
      show _ = if self.toList.length = _ then none else _
      rw [Ring.length_toList]
      simp only [runCalls, nimbleServerCircularBufferWrite]
      -- The tests of the buffer are those of the queue on its length.
      cases hfull : self.isFull with
      | true =>
        rw [if_pos (self.isFull_iff.mp hfull)]
        rfl
      | false =>
        have hne : self.count ≠ NIMBLE_SERVER_CIRCULAR_BUFFER_SIZE :=
          Nat.ne_of_lt (self.count_lt hfull)
        rw [if_neg hne, ← Ring.toList_push self data hfull]
        exact ih (self.push data)
    | read =>
      simp only [runCalls, nimbleServerCircularBufferRead]
      cases hempty : self.isEmpty with
      | true =>
        have hnil : self.toList = [] := by
          rw [List.eq_nil_iff_length_eq_zero, Ring.length_toList]
          exact self.isEmpty_iff.mp hempty
        rw [hnil]
        rfl
      | false =>
        rw [Ring.toList_pop self hempty]
        show _ = (queueCalls calls self.pop.toList).map _
        rw [← ih self.pop]
        show Option.map _ (Except.toOption (runCalls list calls self.pop >>= _)) = _
        -- The octet is put in front of those of the later calls, also if they stop.
        cases runCalls list calls self.pop with
        | error fault => rfl
        | ok result => rfl

/-- Within the bounds the queue does not stop. What was read, followed by what is queued, is
what was queued before followed by what was written. Induction on the calls. -/
theorem queueCalls_of_staysWithin (calls : List BufferCall) :
    ∀ queue : List UInt8, StaysWithin queue.length calls →
      ∃ octets rest, queueCalls calls queue = some (octets, rest) ∧
        octets ++ rest = queue ++ writtenOctets calls ∧ octets.length = readCount calls := by
  induction calls with
  | nil =>
    intro queue _
    exact ⟨[], queue, rfl, (List.append_nil queue).symm, rfl⟩
  | cons call calls ih =>
    intro queue hwithin
    cases call with
    | write data =>
      obtain ⟨hroom, hwithin⟩ := hwithin
      have hlength : (queue ++ [data]).length = queue.length + 1 := List.length_append
      -- The written octet is at the end of the queue for the rest of the calls.
      obtain ⟨octets, rest, hcalls, hsplit, hreads⟩ :=
        ih (queue ++ [data]) (hlength ▸ hwithin)
      refine ⟨octets, rest, ?_, ?_, hreads⟩
      · rw [queueCalls, if_neg hroom, hcalls]
      · rw [hsplit, List.append_assoc]
        rfl
    | read =>
      obtain ⟨hstored, hwithin⟩ := hwithin
      cases queue with
      | nil => exact absurd rfl hstored
      | cons front queue =>
        obtain ⟨octets, rest, hcalls, hsplit, hreads⟩ := ih queue hwithin
        refine ⟨front :: octets, rest, ?_, ?_, ?_⟩
        · rw [queueCalls, hcalls]
          rfl
        · rw [List.cons_append, hsplit]
          rfl
        · rw [List.length_cons, hreads]
          rfl

/-! ### The calls after `nimbleServerCircularBufferInit` -/

/-- Any calls after `nimbleServerCircularBufferInit` that keep within the bounds reach no fatal
branch. The `k`-th read returns the `k`-th octet written, the count is the number of writes
minus the number of reads, and the two tests hold exactly at 0 and at 64. -/
theorem circularBuffer_refines_fifo (list : FreeList) (memory : CircularBuffer)
    (calls : List BufferCall) (hwithin : StaysWithin 0 calls) :
    ∃ octets self,
      runCalls list calls (nimbleServerCircularBufferInit memory) = .ok (octets, self) ∧
      octets.length = readCount calls ∧
      (∀ k, k < readCount calls → octets[k]? = (writtenOctets calls)[k]?) ∧
      readCount calls ≤ (writtenOctets calls).length ∧
      nimbleServerCircularBufferCount self
        = (writtenOctets calls).length - readCount calls ∧
      (nimbleServerCircularBufferIsEmpty self = true ↔
        (writtenOctets calls).length - readCount calls = 0) ∧
      (nimbleServerCircularBufferIsFull self = true ↔
        (writtenOctets calls).length - readCount calls
          = NIMBLE_SERVER_CIRCULAR_BUFFER_SIZE) := by
  have hempty : (nimbleServerCircularBufferInit memory).toList = [] := Ring.toList_clear _ _
  obtain ⟨octets, rest, hqueue, hsplit, hreads⟩ := queueCalls_of_staysWithin calls [] hwithin
  have hrun := runCalls_eq_queueCalls list calls (nimbleServerCircularBufferInit memory)
  rw [hempty, hqueue] at hrun
  cases hcalls : runCalls list calls (nimbleServerCircularBufferInit memory) with
  -- The queue does not stop, so the buffer does not either.
  | error fault =>
    rw [hcalls] at hrun
    cases hrun
  | ok result =>
    obtain ⟨octets', self⟩ := result
    rw [hcalls] at hrun
    have hrun : some (octets', self.toList) = some (octets, rest) := hrun
    cases hrun
    rw [List.nil_append] at hsplit
    have hlength := congrArg List.length hsplit
    rw [List.length_append, hreads, Ring.length_toList] at hlength
    have hcount : self.count = (writtenOctets calls).length - readCount calls := by omega
    refine ⟨octets, self, rfl, hreads, ?_, by omega, hcount, ?_, ?_⟩
    · intro k hk
      rw [← hsplit, List.getElem?_append_left (by omega)]
    · rw [← hcount]
      exact self.isEmpty_iff
    · rw [← hcount]
      exact self.isFull_iff

/-- Three octets are written and two are read. -/
theorem circularBuffer_refines_fifo_threeWrites :
    StaysWithin 0 [.write 7, .write 8, .read, .write 9, .read] ∧
      ∃ octets self, runCalls .participants [.write 7, .write 8, .read, .write 9, .read]
        (nimbleServerCircularBufferInit zeroBuffer) = .ok (octets, self) ∧
      octets[0]? = some 7 ∧ octets[1]? = some 8 ∧ nimbleServerCircularBufferCount self = 1 := by
  have hwithin : StaysWithin 0 [.write 7, .write 8, .read, .write 9, .read] := by
    simp [StaysWithin]
  obtain ⟨octets, self, hcalls, -, hread, -, hcount, -, -⟩ :=
    circularBuffer_refines_fifo .participants zeroBuffer _ hwithin
  exact ⟨hwithin, octets, self, hcalls, hread 0 (by decide), hread 1 (by decide), hcount⟩

end NimbleServer
