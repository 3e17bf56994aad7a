/-
What the calls of `waitForEvent` make of a stream of events.

The data in the buffer and the rest of the stream together are the bytes of the
events to come.  A call takes one event off them.  It takes more where the read
for the rest of a name brings more than was missing.
-/

import Cdnalizerd.EventReader
import Cdnalizerd.Library.Runs

namespace Cdnalizerd

open Library ByteBuffer Runs

/-! ### Frames -/

namespace EventFrame

variable (frame : EventFrame)

theorem length_bytes : frame.bytes.length = sizeofEvent + frame.len := by
  unfold bytes len sizeofEvent
  simp only [List.length_append, length_wordBytes, List.length_replicate]
  omega

theorem len_le : frame.len ≤ nameMax + 1 :=
  frame.short

theorem words_bytes (rest : Bytes) :
    word (frame.bytes ++ rest) 0 = frame.wd.toUInt32 ∧
      word (frame.bytes ++ rest) 4 = frame.mask ∧
      word (frame.bytes ++ rest) 8 = frame.cookie ∧
      word (frame.bytes ++ rest) 12 = UInt32.ofNat frame.len := by
  unfold bytes
  simp only [List.append_assoc]
  refine ⟨word_wordBytes_append _ _, ?_, ?_, ?_⟩
  · exact (word_append_of_length (length_wordBytes _) _ 0).trans (word_wordBytes_append _ _)
  · exact (word_append_of_length (length_wordBytes _) _ 4).trans
      ((word_append_of_length (length_wordBytes _) _ 0).trans (word_wordBytes_append _ _))
  · exact (word_append_of_length (length_wordBytes _) _ 8).trans
      ((word_append_of_length (length_wordBytes _) _ 4).trans
        ((word_append_of_length (length_wordBytes _) _ 0).trans (word_wordBytes_append _ _)))

theorem drop_bytes (rest : Bytes) :
    (frame.bytes ++ rest).drop sizeofEvent =
      frame.name ++ (List.replicate frame.padding 0 ++ rest) := by
  have split : frame.bytes ++ rest =
      (wordBytes frame.wd.toUInt32 ++ (wordBytes frame.mask ++ (wordBytes frame.cookie ++
        wordBytes (UInt32.ofNat frame.len)))) ++
        (frame.name ++ (List.replicate frame.padding 0 ++ rest)) := by
    unfold bytes
    simp only [List.append_assoc]
  rw [split]
  apply List.drop_left'
  simp only [List.length_append, length_wordBytes]
  rfl

theorem padding_pos (longer : frame.len ≠ 0) : 0 < frame.padding := by
  by_cases empty : frame.name = []
  · unfold len at longer
    rw [empty, List.length_nil] at longer
    omega
  · exact frame.padded empty

theorem takeWhile_name (named : frame.len ≠ 0) (rest : Bytes) :
    (frame.name ++ (List.replicate frame.padding 0 ++ rest)).takeWhile (fun byte => byte != 0) =
      frame.name := by
  obtain ⟨more, padding⟩ :=
    Nat.exists_eq_succ_of_ne_zero (Nat.pos_iff_ne_zero.mp (frame.padding_pos named))
  rw [List.takeWhile_append_of_pos, padding, List.replicate_succ, List.cons_append,
    List.takeWhile_cons_of_neg, List.append_nil]
  · decide
  · intro byte member
    apply bne_iff_ne.mpr
    intro same
    exact frame.noNul (same ▸ member)

end EventFrame

/-! ### Reads -/

namespace EventReader

variable {reader next : EventReader} {frame : EventFrame} {rest : Bytes}

def pending (reader : EventReader) : Bytes :=
  reader.buffer.take reader.dataEnd ++ reader.stream

structure Within (reader : EventReader) : Prop where
  sized : reader.buffer.length = bufferSize
  ended : reader.dataEnd ≤ bufferSize

theorem readCount_bounds {asked space available : Nat} (surplus : Nat) (offered : asked ≤ space)
    (there : asked ≤ available) :
    asked ≤ readCount asked space available surplus ∧
      readCount asked space available surplus ≤ space ∧
      readCount asked space available surplus ≤ available := by
  unfold readCount
  omega

theorem Within.length_pending (within : reader.Within) :
    reader.pending.length = reader.dataEnd + reader.stream.length := by
  unfold pending
  rw [List.length_append, List.length_take, within.sized, Nat.min_eq_left within.ended]

theorem asyncRead_of_le (asked surplus : Nat) (within : reader.Within)
    (offered : asked ≤ bufferSize - reader.dataEnd) (there : asked ≤ reader.stream.length) :
    ∃ count, count = readCount asked (bufferSize - reader.dataEnd) reader.stream.length surplus ∧
      asked ≤ count ∧ reader.dataEnd + count ≤ bufferSize ∧ count ≤ reader.stream.length ∧
      reader.asyncRead asked surplus = .ok ({ reader with
        buffer := overwrite reader.buffer reader.dataEnd (reader.stream.take count)
        stream := reader.stream.drop count }, count) := by
  have bounds := readCount_bounds surplus offered there
  have ended := within.ended
  refine ⟨_, rfl, bounds.1, by omega, bounds.2.2, ?_⟩
  have enough : ¬ reader.stream.length < min asked (bufferSize - reader.dataEnd) := by omega
  unfold asyncRead
  rw [if_neg enough]

theorem take_overwrite_append_drop (within : reader.Within) {count : Nat}
    (fits : reader.dataEnd + count ≤ bufferSize) (there : count ≤ reader.stream.length) :
    (overwrite reader.buffer reader.dataEnd (reader.stream.take count)).length = bufferSize ∧
      (overwrite reader.buffer reader.dataEnd (reader.stream.take count)).take
        (reader.dataEnd + count) ++ reader.stream.drop count = reader.pending := by
  have length : (reader.stream.take count).length = count := by
    rw [List.length_take, Nat.min_eq_left there]
  have room : reader.dataEnd + (reader.stream.take count).length ≤ reader.buffer.length := by
    rw [length, within.sized]
    exact fits
  have read := take_overwrite room
  rw [length] at read
  constructor
  · rw [length_overwrite room, within.sized]
  · rw [read, List.append_assoc, List.take_append_drop]
    rfl

theorem readHeader_of_le (surplus : Nat) (within : reader.Within)
    (enough : sizeofEvent ≤ reader.pending.length) :
    ∃ next, reader.readHeader surplus = .ok next ∧ next.Within ∧ sizeofEvent ≤ next.dataEnd ∧
      next.pending = reader.pending := by
  unfold readHeader
  by_cases short : reader.dataEnd < sizeofEvent
  · rw [within.length_pending] at enough
    have ended := within.ended
    have large : sizeofEvent ≤ bufferSize := by decide
    obtain ⟨count, _counted, asked, fits, there, read⟩ := asyncRead_of_le
      (sizeofEvent - reader.dataEnd) surplus within (by omega) (by omega)
    obtain ⟨sized, same⟩ := take_overwrite_append_drop within fits there
    rw [if_pos short, read]
    refine ⟨_, rfl, ⟨sized, fits⟩, ?_, same⟩
    dsimp only
    omega
  · rw [if_neg short]
    exact ⟨reader, rfl, within, Nat.le_of_not_lt short, rfl⟩

/-! ### The event at the start of the buffer -/

theorem take_pending (within : reader.Within) {count : Nat} (held : count ≤ reader.dataEnd) :
    reader.pending.take count = reader.buffer.take count := by
  unfold pending
  rw [List.take_append_of_le_length, List.take_take, Nat.min_eq_left held]
  rw [List.length_take, within.sized, Nat.min_eq_left within.ended]
  exact held

theorem toNat_ofNat_len (frame : EventFrame) : (UInt32.ofNat frame.len).toNat = frame.len := by
  have short := frame.len_le
  unfold nameMax at short
  rw [UInt32.toNat_ofNat']
  omega

theorem len_of_take (held : reader.buffer.take sizeofEvent = (frame.bytes ++ rest).take sizeofEvent) :
    reader.len = frame.len := by
  unfold len
  rw [word_congr held (Nat.le_refl _), (frame.words_bytes rest).2.2.2, toNat_ofNat_len]

theorem event_of_take (held : reader.buffer.take (sizeofEvent + frame.len) = frame.bytes) :
    reader.event = .ok frame.event := by
  have split := List.take_append_drop (sizeofEvent + frame.len) reader.buffer
  rw [held] at split
  have words := frame.words_bytes (reader.buffer.drop (sizeofEvent + frame.len))
  have behind := frame.drop_bytes (reader.buffer.drop (sizeofEvent + frame.len))
  rw [split] at words behind
  have length : reader.len = frame.len := by
    unfold len
    rw [words.2.2.2, toNat_ofNat_len]
  have short := frame.len_le
  unfold nameMax at short
  have small : ¬ 2 ^ 31 ≤ frame.len := by omega
  unfold event
  rw [length, if_neg small, words.1, words.2.1, words.2.2.1]
  by_cases nameless : frame.len = 0
  · have empty : frame.name = [] := by
      apply List.eq_nil_of_length_eq_zero
      unfold EventFrame.len at nameless
      omega
    rw [if_pos nameless]
    unfold EventFrame.event
    rw [empty]
    rfl
  · have longer : frame.name.length ≠ (frame.name ++ (List.replicate frame.padding 0 ++
        reader.buffer.drop (sizeofEvent + frame.len))).length := by
      have padded := frame.padding_pos nameless
      rw [List.length_append, List.length_append, List.length_replicate]
      omega
    rw [if_neg nameless, behind]
    dsimp only
    rw [frame.takeWhile_name nameless, if_neg longer]
    rfl

/-! ### One call -/

/-- How many bytes more than were missing of its name the second read brings. -/
def nameExcess (reader : EventReader) (surplus : Nat) : Nat :=
  if reader.dataEnd < sizeofEvent + reader.len then
    readCount reader.missing (bufferSize - reader.dataEnd) reader.stream.length surplus -
      reader.missing
  else 0

def excess (reader : EventReader) (surplus : Surplus) : Nat :=
  match reader.readHeader surplus.header with
  | .ok reader => reader.nameExcess surplus.name
  | .error _failure => 0

theorem excess_of_name_zero {surplus : Surplus} (none : surplus.name = 0) (reader : EventReader) :
    reader.excess surplus = 0 := by
  unfold excess
  cases reader.readHeader surplus.header with
  | error failure => rfl
  | ok filled =>
      dsimp only
      unfold nameExcess readCount
      rw [none]
      split
      · omega
      · rfl

theorem stream_of_short (within : reader.Within) (split : reader.pending = frame.bytes ++ rest)
    {count : Nat} (more : sizeofEvent + frame.len ≤ reader.dataEnd + count) :
    reader.stream.drop count = rest.drop (reader.dataEnd + count - (sizeofEvent + frame.len)) := by
  have length : (reader.buffer.take reader.dataEnd).length = reader.dataEnd := by
    rw [List.length_take, within.sized, Nat.min_eq_left within.ended]
  have shorter : (frame.bytes ++ rest).drop (reader.dataEnd + count) =
      rest.drop (reader.dataEnd + count - (sizeofEvent + frame.len)) := by
    rw [List.drop_append, frame.length_bytes, List.drop_eq_nil_of_le, List.nil_append]
    rw [frame.length_bytes]
    exact more
  rw [← shorter, ← split, ← List.drop_drop]
  unfold pending
  rw [List.drop_left' length]

/-- With the second read done the event is in the buffer, and what the read
brought beyond it is not counted. -/
theorem readName_of_pending (surplus : Nat) (within : reader.Within)
    (header : sizeofEvent ≤ reader.dataEnd) (split : reader.pending = frame.bytes ++ rest) :
    ∃ next, reader.readName surplus = .ok next ∧ next.Within ∧
      next.buffer.take (sizeofEvent + frame.len) = frame.bytes ∧
      (sizeofEvent + frame.len ≤ next.dataEnd → next.pending = frame.bytes ++ rest ∧
        reader.nameExcess surplus = 0) ∧
      (next.dataEnd < sizeofEvent + frame.len →
        next.stream = rest.drop (reader.nameExcess surplus)) := by
  have held := (take_pending within header).symm
  rw [split] at held
  have length := len_of_take held
  have whole : (frame.bytes ++ rest).take (sizeofEvent + frame.len) = frame.bytes :=
    List.take_left' frame.length_bytes
  unfold readName nameExcess missing
  rw [length]
  by_cases short : reader.dataEnd < sizeofEvent + frame.len
  · have ended := within.ended
    have fitting := frame.len_le
    have size : bufferSize = sizeofEvent + (nameMax + 1) := rfl
    have total := within.length_pending
    rw [split, List.length_append, frame.length_bytes] at total
    obtain ⟨count, counted, asked, fits, there, read⟩ := asyncRead_of_le
      (sizeofEvent + frame.len - reader.dataEnd) surplus within (by omega) (by omega)
    obtain ⟨sized, same⟩ := take_overwrite_append_drop within fits there
    rw [if_pos short, if_pos short, read, ← counted]
    refine ⟨_, rfl, ⟨sized, ended⟩, ?_, ?_, ?_⟩
    · have taken := congrArg (List.take (sizeofEvent + frame.len)) same
      rw [split, whole, List.take_append_of_le_length, List.take_take,
        Nat.min_eq_left (by omega)] at taken
      · exact taken
      · rw [List.length_take, sized]
        omega
    · intro longer
      exact absurd longer (Nat.not_le.mpr short)
    · intro _shorter
      dsimp only
      rw [stream_of_short within split (by omega)]
      congr 1
      omega
  · rw [if_neg short, if_neg short]
    have long := Nat.le_of_not_lt short
    refine ⟨reader, rfl, within, ?_, fun _longer => ⟨split, rfl⟩, fun shorter => absurd shorter short⟩
    rw [← take_pending within long, split, whole]

theorem shift_of_take (left : Bytes) (within : reader.Within)
    (held : reader.buffer.take (sizeofEvent + frame.len) = frame.bytes)
    (longer : sizeofEvent + frame.len ≤ reader.dataEnd → reader.pending = frame.bytes ++ left)
    (shorter : reader.dataEnd < sizeofEvent + frame.len → reader.stream = left) :
    reader.shift.Within ∧ reader.shift.pending = left := by
  have header : reader.buffer.take sizeofEvent = (frame.bytes ++ []).take sizeofEvent := by
    rw [List.append_nil, ← held, List.take_take, Nat.min_eq_left (Nat.le_add_right _ _)]
  have length := len_of_take header
  have ended := within.ended
  unfold shift
  rw [length]
  by_cases more : sizeofEvent + frame.len < reader.dataEnd
  · rw [if_pos more]
    have size : ((reader.buffer.take reader.dataEnd).drop (sizeofEvent + frame.len)).length =
        reader.dataEnd - (sizeofEvent + frame.len) := by
      rw [List.length_drop, List.length_take, within.sized, Nat.min_eq_left ended]
    have room : 0 + ((reader.buffer.take reader.dataEnd).drop (sizeofEvent + frame.len)).length ≤
        reader.buffer.length := by
      rw [size, within.sized]
      omega
    have moved := take_overwrite room
    rw [size, Nat.zero_add, List.take_zero, List.nil_append] at moved
    refine ⟨⟨?_, ?_⟩, ?_⟩
    · exact (length_overwrite room).trans within.sized
    · dsimp only
      omega
    · unfold pending
      dsimp only
      rw [moved]
      have dropped := congrArg (List.drop (sizeofEvent + frame.len)) (longer (Nat.le_of_lt more))
      rw [List.drop_left' frame.length_bytes] at dropped
      rw [← dropped]
      unfold pending
      rw [List.drop_append_of_le_length]
      rw [List.length_take, within.sized, Nat.min_eq_left ended]
      exact Nat.le_of_lt more
  · rw [if_neg more]
    refine ⟨⟨within.sized, Nat.zero_le _⟩, ?_⟩
    change reader.buffer.take 0 ++ reader.stream = left
    rw [List.take_zero, List.nil_append]
    by_cases short : reader.dataEnd < sizeofEvent + frame.len
    · exact shorter short
    · have exact_end : reader.dataEnd = sizeofEvent + frame.len := by omega
      have split := longer (by omega)
      unfold pending at split
      rw [exact_end, held] at split
      exact List.append_cancel_left split

/-- A call returns the event in front and takes it off, with the excess of the
second read. -/
theorem waitForEvent_of_pending (surplus : Surplus) (within : reader.Within)
    (split : reader.pending = frame.bytes ++ rest) :
    ∃ next, reader.waitForEvent surplus = .ok (frame.event, next) ∧ next.Within ∧
      next.pending = rest.drop (reader.excess surplus) := by
  have enough : sizeofEvent ≤ reader.pending.length := by
    rw [split, List.length_append, frame.length_bytes]
    omega
  obtain ⟨filled, readFirst, filledWithin, header, same⟩ :=
    readHeader_of_le surplus.header within enough
  obtain ⟨named, readSecond, namedWithin, held, longer, shorter⟩ :=
    readName_of_pending surplus.name filledWithin header (same.trans split)
  have passed : ¬ (filled.dataEnd < sizeofEvent ∨ bufferSize < filled.dataEnd) := by
    have ended := filledWithin.ended
    omega
  have counted : reader.excess surplus = filled.nameExcess surplus.name := by
    unfold excess
    rw [readFirst]
  obtain ⟨shiftedWithin, left⟩ := shift_of_take
    (rest.drop (reader.excess surplus)) namedWithin held
    (by
      intro long
      obtain ⟨kept, none⟩ := longer long
      rw [kept, counted, none, List.drop_zero])
    (by
      intro short
      rw [shorter short, counted])
  refine ⟨named.shift, ?_, shiftedWithin, left⟩
  unfold waitForEvent
  rw [readFirst]
  change (if _ then _ else _) = _
  rw [if_neg passed, readSecond]
  change named.event >>= _ = _
  rw [event_of_take held]
  rfl

/-! ### Runs of calls -/

theorem blocked_of_pending_nil (surplus : Surplus) (within : reader.Within)
    (nothing : reader.pending = []) : reader.waitForEvent surplus = .error .blocked := by
  have total := within.length_pending
  rw [nothing, List.length_nil] at total
  have ended : reader.dataEnd = 0 := by omega
  have short : reader.dataEnd < sizeofEvent := by
    rw [ended]
    decide
  have waits : reader.stream.length <
      min (sizeofEvent - reader.dataEnd) (bufferSize - reader.dataEnd) := by
    unfold bufferSize
    omega
  unfold waitForEvent readHeader
  rw [if_pos short]
  unfold asyncRead
  rw [if_pos waits]
  rfl

-- Irreducible, as a run on a given buffer would else be unfolded byte by byte.
@[irreducible] def step (reader : EventReader) (surplus : Surplus) : Option EventReader :=
  (reader.waitForEvent surplus).toOption.map Prod.snd

theorem no_excess_of_name_zero {calls : List Surplus}
    (none : ∀ surplus ∈ calls, surplus.name = 0) (reader : EventReader) :
    Along step (fun reader surplus _next => reader.excess surplus = 0) reader calls :=
  along_of_forall (fun surplus member reader _next =>
    excess_of_name_zero (none surplus member) reader) reader

/-- The calls return the events in order and then wait for more, and the end of
the data is in the buffer before, during and after each. -/
def ReadsInOrder : EventReader → List EventFrame → List Surplus → Prop
  | reader, _frames, [] => reader.Within
  | reader, [], surplus :: _calls =>
      reader.Within ∧ reader.waitForEvent surplus = .error .blocked
  | reader, frame :: frames, surplus :: calls =>
      reader.Within ∧ (∃ filled, reader.readHeader surplus.header = .ok filled ∧ filled.Within) ∧
        ∃ next, reader.waitForEvent surplus = .ok (frame.event, next) ∧
          ReadsInOrder next frames calls

theorem readsInOrder_of_pending {frames : List EventFrame} {calls : List Surplus}
    (within : reader.Within) (split : reader.pending = frames.flatMap EventFrame.bytes)
    (counted : Along step (fun reader surplus _next => reader.excess surplus = 0) reader calls) :
    ReadsInOrder reader frames calls := by
  induction calls generalizing reader frames with
  | nil =>
      unfold ReadsInOrder
      exact within
  | cons surplus calls ih =>
      cases frames with
      | nil => exact ⟨within, blocked_of_pending_nil surplus within split⟩
      | cons frame frames =>
          rw [List.flatMap_cons] at split
          obtain ⟨next, returned, nextWithin, left⟩ :=
            waitForEvent_of_pending surplus within split
          have enough : sizeofEvent ≤ reader.pending.length := by
            rw [split, List.length_append, frame.length_bytes]
            omega
          obtain ⟨filled, readFirst, filledWithin, _header, _same⟩ :=
            readHeader_of_le surplus.header within enough
          have stepped : step reader surplus = some next := by
            unfold step
            rw [returned]
            rfl
          unfold Along at counted
          rw [stepped] at counted
          rw [counted.1, List.drop_zero] at left
          exact ⟨within, ⟨filled, readFirst, filledWithin⟩, next, returned,
            ih nextWithin left counted.2⟩

/-- An instance whose buffer still has whatever its memory had. -/
def start (buffer : Bytes) (frames : List EventFrame) : EventReader where
  buffer := buffer
  stream := frames.flatMap EventFrame.bytes

theorem pending_start (buffer : Bytes) (frames : List EventFrame) :
    (start buffer frames).pending = frames.flatMap EventFrame.bytes := rfl

theorem start_within {buffer : Bytes} (sized : buffer.length = bufferSize)
    (frames : List EventFrame) : (start buffer frames).Within :=
  ⟨sized, Nat.zero_le _⟩

/-- In every run of calls in which no second read brings more than was missing,
the events are returned in order. -/
theorem readsInOrder_of_no_excess {buffer : Bytes} (sized : buffer.length = bufferSize)
    (frames : List EventFrame) (calls : List Surplus)
    (counted : Along step (fun reader surplus _next => reader.excess surplus = 0)
      (start buffer frames) calls) :
    ReadsInOrder (start buffer frames) frames calls :=
  readsInOrder_of_pending (start_within sized frames) (pending_start buffer frames) counted

/-! ### A read that brings the next event -/

def closedFrame : EventFrame where
  wd := 1
  mask := 8
  cookie := 0
  name := [97]
  padding := 15
  noNul := by decide
  padded _named := by decide
  short := by decide

def ignoredFrame : EventFrame where
  wd := 1
  mask := 32768
  cookie := 0
  name := []
  padding := 0
  noNul := List.not_mem_nil
  padded named := (named rfl).elim
  short := by decide

def sampleBuffer : Bytes :=
  List.replicate bufferSize 0

theorem sampleBuffer_sized : sampleBuffer.length = bufferSize :=
  List.length_replicate

theorem readsInOrder_sample :
    ReadsInOrder (start sampleBuffer [closedFrame, ignoredFrame]) [closedFrame, ignoredFrame]
      [⟨0, 0⟩, ⟨0, 0⟩] := by
  refine readsInOrder_of_no_excess sampleBuffer_sized _ _ (no_excess_of_name_zero ?_ _)
  intro surplus member
  simp only [List.mem_cons, List.not_mem_nil, or_false, or_self] at member
  rw [member]

theorem second_read_loses_event :
    ¬ ReadsInOrder (start sampleBuffer [closedFrame, ignoredFrame]) [closedFrame, ignoredFrame]
      [⟨0, 16⟩, ⟨0, 0⟩] := by
  intro inOrder
  obtain ⟨within, _filled, next, returned, _nextWithin, _nextFilled, last, returnedLast, _rest⟩ :=
    inOrder
  have split : (start sampleBuffer [closedFrame, ignoredFrame]).pending =
      closedFrame.bytes ++ ignoredFrame.bytes := by
    rw [pending_start, List.flatMap_cons, List.flatMap_singleton]
  obtain ⟨other, returnedOther, otherWithin, left⟩ :=
    waitForEvent_of_pending ⟨0, 16⟩ within split
  have lost : (start sampleBuffer [closedFrame, ignoredFrame]).excess ⟨0, 16⟩ = 16 := by
    decide
  have short : ignoredFrame.bytes.drop 16 = [] := by decide
  rw [lost, short] at left
  obtain rfl : next = other := congrArg Prod.snd (Except.ok.inj (returned.symm.trans returnedOther))
  rw [blocked_of_pending_nil _ otherWithin left] at returnedLast
  cases returnedLast

end EventReader

end Cdnalizerd
