/-
Reading events from the descriptor of an inotify instance: `waitForEvent`.

A read may end anywhere behind what was asked for.  What it brings beyond an
event is kept in the buffer for the next call, unless the read was the second
one of the call, whose count is not looked at.
-/

import Cdnalizerd.Basic
import Cdnalizerd.Library.ByteBuffer

namespace Cdnalizerd

open Library ByteBuffer

def sizeofEvent : Nat := 16

def nameMax : Nat := 255

def bufferSize : Nat := sizeofEvent + nameMax + 1

inductive WaitFailure where
  /-- The stream has too few bytes for a read to complete. -/
  | blocked
  | assertion
  /-- `std::length_error` from `reserve`. -/
  | lengthError
  /-- A read of memory behind the buffer. -/
  | outOfBounds
deriving DecidableEq

structure ReadEvent where
  wd : Int32
  mask : UInt32
  cookie : UInt32
  name : Bytes
deriving DecidableEq

/-- The buffer, the offset of `buffer_data_end` in it, and what is still to be read. -/
structure EventReader where
  buffer : Bytes
  dataEnd : Nat := 0
  stream : Bytes

/-- How many bytes more than asked for the two reads of a call bring, as far as
there are so many and there is space. -/
structure Surplus where
  header : Nat
  name : Nat

def readCount (asked space available surplus : Nat) : Nat :=
  min (asked + surplus) (min space available)

namespace EventReader

/-- `async_read` of at least `asked` bytes to the end of the data, which stays where it is. -/
def asyncRead (reader : EventReader) (asked surplus : Nat) :
    Except WaitFailure (EventReader × Nat) :=
  let space := bufferSize - reader.dataEnd
  if reader.stream.length < min asked space then .error .blocked
  else
    let count := readCount asked space reader.stream.length surplus
    .ok ({ reader with
      buffer := overwrite reader.buffer reader.dataEnd (reader.stream.take count)
      stream := reader.stream.drop count }, count)

/-- The first read, where the data is shorter than a header. -/
def readHeader (reader : EventReader) (surplus : Nat) : Except WaitFailure EventReader :=
  if reader.dataEnd < sizeofEvent then do
    let (reader, bytesRead) ← reader.asyncRead (sizeofEvent - reader.dataEnd) surplus
    return { reader with dataEnd := reader.dataEnd + bytesRead }
  else return reader

def len (reader : EventReader) : Nat :=
  (word reader.buffer 12).toNat

def missing (reader : EventReader) : Nat :=
  sizeofEvent + reader.len - reader.dataEnd

/-- The second read, which does not move the end of the data. -/
def readName (reader : EventReader) (surplus : Nat) : Except WaitFailure EventReader :=
  if reader.dataEnd < sizeofEvent + reader.len then do
    let (reader, _bytesRead) ← reader.asyncRead reader.missing surplus
    return reader
  else return reader

/-- The constructor of `Event`, on the event at the start of the buffer. -/
def event (reader : EventReader) : Except WaitFailure ReadEvent := do
  let name ←
    if 2 ^ 31 ≤ reader.len then .error .lengthError
    else if reader.len = 0 then .ok []
    else
      -- `namePtr < namePtr + nameLen` moves along with `namePtr`, so only a NUL ends the name.
      let behind := reader.buffer.drop sizeofEvent
      let name := behind.takeWhile (fun byte => byte != 0)
      if name.length = behind.length then .error .outOfBounds else .ok name
  return {
    wd := (word reader.buffer 0).toInt32
    mask := word reader.buffer 4
    cookie := word reader.buffer 8
    name := name }

/-- What follows the event is moved to the start of the buffer. -/
def shift (reader : EventReader) : EventReader :=
  let start := sizeofEvent + reader.len
  if start < reader.dataEnd then
    { reader with
      buffer := overwrite reader.buffer 0 ((reader.buffer.take reader.dataEnd).drop start)
      dataEnd := reader.dataEnd - start }
  else { reader with dataEnd := 0 }

def waitForEvent (reader : EventReader) (surplus : Surplus) :
    Except WaitFailure (ReadEvent × EventReader) := do
  let reader ← reader.readHeader surplus.header
  if reader.dataEnd < sizeofEvent ∨ bufferSize < reader.dataEnd then .error .assertion
  else
    let reader ← reader.readName surplus.name
    let event ← reader.event
    return (event, reader.shift)

end EventReader

/-! ### The stream -/

/-- An event as the kernel writes it. A name is padded with at least one NUL. -/
structure EventFrame where
  wd : Int32
  mask : UInt32
  cookie : UInt32
  name : Bytes
  padding : Nat
  noNul : 0 ∉ name
  padded : name ≠ [] → 0 < padding
  short : name.length + padding ≤ nameMax + 1

namespace EventFrame

def len (frame : EventFrame) : Nat :=
  frame.name.length + frame.padding

def bytes (frame : EventFrame) : Bytes :=
  wordBytes frame.wd.toUInt32 ++ (wordBytes frame.mask ++ (wordBytes frame.cookie ++
    (wordBytes (UInt32.ofNat frame.len) ++ (frame.name ++ List.replicate frame.padding 0))))

def event (frame : EventFrame) : ReadEvent where
  wd := frame.wd
  mask := frame.mask
  cookie := frame.cookie
  name := frame.name

end EventFrame

end Cdnalizerd
