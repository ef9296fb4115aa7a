/-
  ZeroLGR.Wal.Log — `WriteAheadLog` and the operating system under it.

  The functions of engine/src/wal.cpp in its POSIX variant.  A file is a size
  and its bytes; a `MAP_SHARED` mapping shows the bytes of the file, so a log
  holds the one image.  The operating system answers every call: `OsReply` says
  which of them report success during one member function.

    • `FileImage`, `ftruncate`, `mmap` — files and the calls on them,
    • `WriteAheadLog`, `load`, `store` — the object; a memory access outside
      the mapping or behind the end of the file is not allowed,
    • `construct`, `grow`, `append`, `flushAsync`, `replay` — the member
      functions.

  `size_t` is exact below `2 ^ 64` (`wrap64`).  Sequence numbers are plain
  naturals: a frame takes at least twelve bytes of a file of less than
  `2 ^ 63`.  The offsets inside `replay` are plain naturals too: they are at
  most `mapped_size_` plus a 32-bit frame size.
-/
import ZeroLGR.Lib.Emit
import ZeroLGR.Wal.Crc32

namespace ZeroLGR.Wal

/-! ## §1. Sizes. -/

/-- `size_t` arithmetic. -/
def wrap64 (n : Nat) : Nat := n % 2 ^ 64

/-- `~n` on a `size_t`. -/
def not64 (n : Nat) : Nat := 2 ^ 64 - 1 - n

/-- `page_size()`: `sysconf(_SC_PAGESIZE)` is a power of two. -/
structure PageSize where
  bytes : Nat
  pow_two : ∃ k, k < 32 ∧ bytes = 2 ^ k

/-- The usual page size. -/
def page4096 : PageSize := ⟨4096, 12, by decide, by decide⟩

/-- `align_to_page`. -/
def alignToPage (ps : PageSize) (size : Nat) : Nat :=
  wrap64 (size + ps.bytes - 1) &&& not64 (ps.bytes - 1)

/-! ## §2. Files, and the calls on them. -/

/-- The content of a file: behind its end there is nothing, which reads as
zero when the file is made longer. -/
structure FileImage where
  size : Nat
  byte : Nat → UInt8
  zero_beyond : ∀ i, size ≤ i → byte i = 0

/-- A file that `open(..., O_CREAT)` has just created. -/
def FileImage.empty : FileImage := ⟨0, fun _ => 0, fun _ _ => rfl⟩

/-- Cut the file to `n` bytes, or extend it with zeros. -/
def FileImage.resize (f : FileImage) (n : Nat) : FileImage where
  size := n
  byte := fun i => if i < n then f.byte i else 0
  zero_beyond := fun _ hi => if_neg (by omega)

/-- Overwrite bytes inside the file. -/
def FileImage.overwrite (f : FileImage) (off : Nat) (bs : Bytes)
    (h : off + bs.length ≤ f.size) : FileImage where
  size := f.size
  byte := Bytes.writeAt f.byte off bs
  zero_beyond := by
    intro i hi
    rw [Bytes.writeAt_of_ge _ (by omega), f.zero_beyond i hi]

/-- Which calls report success while one member function runs. -/
structure OsReply where
  openOk : Bool
  ftruncateOk : Bool
  mmapOk : Bool
  msyncOk : Bool

/-- Every call succeeds. -/
def OsReply.ok : OsReply := ⟨true, true, true, true⟩

/-- `ftruncate(fd, static_cast<off_t>(size))`: a size from `2 ^ 63` on is a
negative `off_t`, which is refused. -/
def ftruncate (os : OsReply) (f : FileImage) (size : Nat) : Option FileImage :=
  if os.ftruncateOk = true ∧ size < 2 ^ 63 then some (f.resize size) else none

/-- `mmap(nullptr, size, ...) != MAP_FAILED`: a mapping of length zero is refused. -/
def mmap (os : OsReply) (size : Nat) : Bool := os.mmapOk && decide (0 < size)

/-- One call of `msync`. -/
structure Msync where
  offset : Nat
  length : Nat
  blocking : Bool
  ok : Bool
  deriving Repr, DecidableEq

/-! ## §3. The object. -/

/-- `WriteAheadLog`.  `mapped` is `mapped_ptr_ != nullptr`, `file` the file
behind `fd_`; `msyncs` records the calls of `msync` so far, oldest first. -/
structure WriteAheadLog where
  pageSize : PageSize
  path : String
  file : FileImage
  mapped : Bool
  mappedSize : Nat
  writeOffset : Nat
  sequence : Nat
  msyncs : List Msync

/-- How a member function ends: it returns, throws a `std::runtime_error`,
accesses memory it must not access, or never ends. -/
inductive Outcome (α : Type*) where
  | returned (value : α)
  | threw (what : String)
  | crashed
  | hung
  deriving Repr, DecidableEq

/-- The bytes `[off, off + n)` of the mapping may be accessed. -/
def WriteAheadLog.accessible (w : WriteAheadLog) (off n : Nat) : Prop :=
  w.mapped = true ∧ off + n ≤ w.mappedSize ∧ off + n ≤ w.file.size

instance (w : WriteAheadLog) (off n : Nat) : Decidable (w.accessible off n) :=
  inferInstanceAs (Decidable (_ ∧ _))

/-- Read from `mapped_ptr_ + off`. -/
def WriteAheadLog.load (w : WriteAheadLog) (off n : Nat) : Option Bytes :=
  if w.accessible off n then some (Bytes.readAt w.file.byte off n) else none

/-- `std::memcpy(mapped_ptr_ + off, ...)`. -/
def WriteAheadLog.store (w : WriteAheadLog) (off : Nat) (bs : Bytes) : Option WriteAheadLog :=
  if h : w.accessible off bs.length then
    some { w with file := w.file.overwrite off bs h.2.2 }
  else none

/-- The four bytes of a `uint32_t` in memory. -/
def le32 (v : UInt32) : Bytes := Bytes.toLE 4 v.toNat

/-- `std::memcpy(&v, mapped_ptr_ + off, 4)`. -/
def WriteAheadLog.loadU32 (w : WriteAheadLog) (off : Nat) : Option UInt32 :=
  (w.load off 4).map (fun bs => UInt32.ofNat (Bytes.ofLE bs))

/-- `WAL_MAGIC` of engine/include/types.hpp. -/
def WAL_MAGIC : UInt32 := 0xDEAD1E7C

/-! ## §4. Opening and closing. -/

/-- `open_and_map`: what it throws, or nothing, and the file it leaves. -/
def openAndMap (os : OsReply) (path : String) (disk : FileImage) (size : Nat) :
    Except String Unit × FileImage :=
  if os.openOk = true then
    match ftruncate os disk size with
    | none => (.error "WriteAheadLog: ftruncate() failed", disk)
    | some file =>
        if mmap os size then (.ok (), file) else (.error "WriteAheadLog: mmap() failed", file)
  else (.error ("WriteAheadLog: open() failed for " ++ path), disk)

/-- The size the constructor gives the file. -/
def initialSizeAligned (ps : PageSize) (initialSize : Nat) : Nat :=
  alignToPage ps (max initialSize ps.bytes)

/-- `WriteAheadLog::WriteAheadLog(path, initial_size)` on the file `disk`. -/
def construct (ps : PageSize) (os : OsReply) (path : String) (disk : FileImage)
    (initialSize : Nat) : Outcome WriteAheadLog × FileImage :=
  match openAndMap os path disk (initialSizeAligned ps initialSize) with
  | (.error what, file) => (.threw what, file)
  | (.ok (), file) =>
      (.returned
        { pageSize := ps, path := path, file := file, mapped := true
          mappedSize := initialSizeAligned ps initialSize
          writeOffset := 0, sequence := 0, msyncs := [] }, file)

/-- `~WriteAheadLog`: the bytes of the closed mapping are in the file. -/
def WriteAheadLog.close (w : WriteAheadLog) : FileImage := w.file

/-- `sync_range`. -/
def WriteAheadLog.syncRange (os : OsReply) (w : WriteAheadLog) (offset length : Nat)
    (blocking : Bool) : WriteAheadLog :=
  if w.mapped = true then
    let alignedOffset := offset &&& not64 (w.pageSize.bytes - 1)
    let alignedLength := length + (offset - alignedOffset)
    { w with msyncs := w.msyncs ++ [⟨alignedOffset, alignedLength, blocking, os.msyncOk⟩] }
  else w

/-- `grow`: unmap, resize the file, map again. -/
def WriteAheadLog.grow (os : OsReply) (w : WriteAheadLog) (newSize : Nat) :
    Except String Unit × WriteAheadLog :=
  let size := alignToPage w.pageSize newSize
  let unmapped := { w with mapped := false }
  match ftruncate os unmapped.file size with
  | none => (.error "WriteAheadLog: ftruncate() failed during grow", unmapped)
  | some file =>
      if mmap os size then
        (.ok (), { unmapped with file := file, mapped := true, mappedSize := size })
      else (.error "WriteAheadLog: mmap() failed during grow", { unmapped with file := file })

/-! ## §5. `append` and `flush_async`. -/

/-- `frame_size` of `append`. -/
def frameSize (data : Bytes) : Nat := wrap64 (4 + 4 + data.length + 4)

/-- The first part of `append`: grow the file if the frame does not fit. -/
def WriteAheadLog.reserve (os : OsReply) (w : WriteAheadLog) (size : Nat) :
    Except String Unit × WriteAheadLog :=
  if wrap64 (w.writeOffset + size) > w.mappedSize then
    w.grow os (max (wrap64 (w.mappedSize * 2))
      (wrap64 (w.writeOffset + size + w.pageSize.bytes)))
  else (.ok (), w)

/-- The four copies of `append`: magic, data size, data, checksum. -/
def WriteAheadLog.writeFrame (w : WriteAheadLog) (data : Bytes) : Option WriteAheadLog :=
  (w.store w.writeOffset (le32 WAL_MAGIC)).bind fun w₁ =>
  (w₁.store (w.writeOffset + 4) (le32 (UInt32.ofNat data.length))).bind fun w₂ =>
  (w₂.store (w.writeOffset + 8) data).bind fun w₃ =>
  w₃.store (w.writeOffset + 8 + data.length) (le32 (computeCrc32 data))

/-- The last part of `append`: sync, then advance the offset and the sequence. -/
def WriteAheadLog.commitFrame (os : OsReply) (w : WriteAheadLog) (size : Nat) : WriteAheadLog :=
  let synced := w.syncRange os w.writeOffset size true
  { synced with writeOffset := wrap64 (synced.writeOffset + size), sequence := synced.sequence + 1 }

/-- `WriteAheadLog::append`. -/
def WriteAheadLog.append (os : OsReply) (w : WriteAheadLog) (data : Bytes) :
    Outcome Nat × WriteAheadLog :=
  match w.reserve os (frameSize data) with
  | (.error what, w₁) => (.threw what, w₁)
  | (.ok (), w₁) =>
      match w₁.writeFrame data with
      | none => (.crashed, w₁)
      | some w₂ =>
          let w₃ := w₂.commitFrame os (frameSize data)
          (.returned w₃.sequence, w₃)

/-- `WriteAheadLog::flush_async`. -/
def WriteAheadLog.flushAsync (os : OsReply) (w : WriteAheadLog) : WriteAheadLog :=
  if 0 < w.writeOffset then w.syncRange os 0 w.writeOffset false else w

/-! ## §6. `replay`. -/

/-- The local variables `offset` and `replayed` of the loop. -/
structure ReplayPos where
  offset : Nat
  replayed : Nat
  deriving Repr, DecidableEq

/-- `4 + 4 + data_size + 4`: a `uint32_t`, because `data_size` is one. -/
def replayFrameSize (dataSize : UInt32) : UInt32 := 4 + 4 + dataSize + 4

/-- The rest of an iteration, once `data_size` is read: the bounds check, the
checksum, and the callback, which is handed the sequence number and the data. -/
def WriteAheadLog.replayFrame (w : WriteAheadLog) (pos : ReplayPos) (dataSize : UInt32) :
    Emit.Next (Nat × Bytes) ReplayPos :=
  if pos.offset + (replayFrameSize dataSize).toNat > w.mappedSize then .stop else
  match w.loadU32 (pos.offset + 8 + dataSize.toNat) with
  | none => .fault
  | some storedCrc =>
    match w.load (pos.offset + 8) dataSize.toNat with
    | none => .fault
    | some data =>
      if storedCrc ≠ computeCrc32 data then .stop
      else .emit (pos.replayed + 1, data)
        ⟨pos.offset + (replayFrameSize dataSize).toNat, pos.replayed + 1⟩

/-- One iteration of the loop. -/
def WriteAheadLog.replayNext (w : WriteAheadLog) (pos : ReplayPos) :
    Emit.Next (Nat × Bytes) ReplayPos :=
  if pos.offset + 12 ≤ w.mappedSize then
    match w.loadU32 pos.offset with
    | none => .fault
    | some magic =>
      if magic ≠ WAL_MAGIC then .stop else
      match w.loadU32 (pos.offset + 4) with
      | none => .fault
      | some dataSize => w.replayFrame pos dataSize
  else .stop

/-- What a call of `replay` does: how it ends, what the callback was called
with, and the object it leaves. -/
structure Replay where
  outcome : Outcome Nat
  delivered : List (Nat × Bytes)
  log : WriteAheadLog

/-- `WriteAheadLog::replay`.  An iteration that goes on without moving the
offset goes on forever, so `mapped_size_ + 1` iterations tell a loop that ends
from one that does not (`Emit.scan_terminates`). -/
def WriteAheadLog.replay (w : WriteAheadLog) : Replay :=
  if w.mapped = true then
    let r := Emit.scan w.replayNext (w.mappedSize + 1) ⟨0, 0⟩
    match r.status with
    | .stopped =>
        ⟨.returned r.state.replayed, r.emitted,
          { w with writeOffset := r.state.offset, sequence := r.state.replayed }⟩
    | .faulted => ⟨.crashed, r.emitted, w⟩
    | .running => ⟨.hung, r.emitted, w⟩
  else ⟨.returned 0, [], w⟩

end ZeroLGR.Wal
