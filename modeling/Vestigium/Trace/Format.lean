/-
  THE TRACE FORMAT — `crates/trace/src/format.rs` and what `bincode` 1.3.3 makes of its derives.

  `bincode`'s default rules: integers are fixed-width little-endian, a sequence is its length as a
  `u64` followed by its elements, a `Vec<u8>` is such a sequence, tuples and structs are their
  fields in order, an `enum` is its variant index as a `u32` followed by the variant's fields.
  Reading past the end of the input and an unknown variant index are errors.

  Three facts for each reader: it reads what the writer wrote (`reads_…`), it accepts nothing else
  (`delimited_…`), and what it does not accept it reports as an error of `bincode` (`failsWith_…`).
-/
import Vestigium.Lib.Codec
import Vestigium.Lib.Delimited
import Vestigium.Vmm.Machine

namespace Vestigium

open Codec

/-- Intercepted non-deterministic events. -/
inductive EventType where
  /-- System call results and the memory they modified. -/
  | syscall (rax : U64) (memoryWrites : Vec (U64 × Vec U8))
  /-- The cycle count returned by RDTSC. -/
  | rdtsc (rax rdx : U64)
  /-- The values returned by CPUID. -/
  | cpuid (eax ebx ecx edx : U32)
  /-- A thread context switch. -/
  | contextSwitch (nextThreadId : U32)
deriving DecidableEq

/-- A recorded event and its place in the execution. -/
structure TraceEvent where
  /-- "The retired instruction count at the time of interception." -/
  instructionCount : U64
  event : EventType
deriving DecidableEq

/-- `matches!(event, EventType::Cpuid { .. })`. -/
def EventType.isCpuid : EventType → Bool
  | .cpuid _ _ _ _ => true
  | _ => false

/-- `matches!(event, EventType::Rdtsc { .. })`. -/
def EventType.isRdtsc : EventType → Bool
  | .rdtsc _ _ => true
  | _ => false

/-! ## Writing -/

/-- A `Vec<u8>`. -/
def putByteVec : Vec U8 → Bytes := putVec fun b => [b]

/-- One `(gpa, data)` pair of a syscall's memory writes. -/
def putMemoryWrite (w : U64 × Vec U8) : Bytes := putWord 8 w.1 ++ putByteVec w.2

def putEventType : EventType → Bytes
  | .syscall rax ws => putWord 4 (0 : U32) ++ (putWord 8 rax ++ putVec putMemoryWrite ws)
  | .rdtsc rax rdx => putWord 4 (1 : U32) ++ (putWord 8 rax ++ putWord 8 rdx)
  | .cpuid eax ebx ecx edx =>
    putWord 4 (2 : U32) ++ (putWord 4 eax ++ (putWord 4 ebx ++ (putWord 4 ecx ++ putWord 4 edx)))
  | .contextSwitch tid => putWord 4 (3 : U32) ++ putWord 4 tid

def putTraceEvent (e : TraceEvent) : Bytes := putWord 8 e.instructionCount ++ putEventType e.event

/-! ## Reading -/

def eof : Fail := .bincode "io error: unexpected end of file"

def readU8 : Reader Fail U8 := readWord eof 1 8
def readU32 : Reader Fail U32 := readWord eof 4 32
def readU64 : Reader Fail U64 := readWord eof 8 64

/-- `Vec::<u8>::deserialize`. -/
def readByteVec : Reader Fail (Vec U8) := readVec eof readU8

def readMemoryWrite : Reader Fail (U64 × Vec U8) := do
  let gpa ← readU64
  let data ← readByteVec
  return (gpa, data)

def readEventType : Reader Fail EventType := do
  let tag ← readU32
  if tag = 0 then do
    let rax ← readU64
    let ws ← readVec eof readMemoryWrite
    return .syscall rax ws
  else if tag = 1 then do
    let rax ← readU64
    let rdx ← readU64
    return .rdtsc rax rdx
  else if tag = 2 then do
    let eax ← readU32
    let ebx ← readU32
    let ecx ← readU32
    let edx ← readU32
    return .cpuid eax ebx ecx edx
  else if tag = 3 then do
    let tid ← readU32
    return .contextSwitch tid
  else throw (.bincode "invalid value: expected variant index 0 <= i < 4")

def readTraceEvent : Reader Fail TraceEvent := do
  let count ← readU64
  let event ← readEventType
  return ⟨count, event⟩

/-! ## The reader reads what the writer wrote -/

theorem reads_u8 (b : U8) : Reads readU8 [b] b := by
  have h := reads_readWord eof (n := 1) (by decide) b
  have hb : putWord 1 b = [b] := by simp [putWord, toLE]
  rwa [hb] at h

theorem reads_u32 (x : U32) : Reads readU32 (putWord 4 x) x := reads_readWord eof (by decide) x

theorem reads_u64 (x : U64) : Reads readU64 (putWord 8 x) x := reads_readWord eof (by decide) x

theorem reads_byteVec (v : Vec U8) : Reads readByteVec (putByteVec v) v :=
  reads_vec eof fun b _ => reads_u8 b

theorem reads_memoryWrite (w : U64 × Vec U8) : Reads readMemoryWrite (putMemoryWrite w) w :=
  reads_bind (reads_u64 w.1) (reads_map (reads_byteVec w.2))

/-- One case for each variant; the tag just read selects the branch. -/
theorem reads_eventType : ∀ e : EventType, Reads readEventType (putEventType e) e
  | .syscall rax _ =>
    reads_bind (reads_u32 0)
      (reads_bind (reads_u64 rax) (reads_map (reads_vec eof fun w _ => reads_memoryWrite w)))
  | .rdtsc rax rdx =>
    reads_bind (reads_u32 1) (reads_bind (reads_u64 rax) (reads_map (reads_u64 rdx)))
  | .cpuid eax ebx ecx edx =>
    reads_bind (reads_u32 2) (reads_bind (reads_u32 eax) (reads_bind (reads_u32 ebx)
      (reads_bind (reads_u32 ecx) (reads_map (reads_u32 edx)))))
  | .contextSwitch tid => reads_bind (reads_u32 3) (reads_map (reads_u32 tid))

theorem reads_traceEvent (e : TraceEvent) : Reads readTraceEvent (putTraceEvent e) e :=
  reads_bind (reads_u64 e.instructionCount) (reads_map (reads_eventType e.event))

/-! ## The reader accepts nothing else -/

theorem delimited_u8 : Delimited eof readU8 fun bs b => bs = [b] := by
  refine (delimited_readWord (by decide)).imp ?_
  rintro _ b rfl
  simp [putWord, toLE]

theorem delimited_u32 : Delimited eof readU32 fun bs x => bs = putWord 4 x :=
  delimited_readWord (by decide)

theorem delimited_u64 : Delimited eof readU64 fun bs x => bs = putWord 8 x :=
  delimited_readWord (by decide)

theorem delimited_byteVec : Delimited eof readByteVec fun bs v => bs = putByteVec v :=
  delimited_readVec delimited_u8

theorem delimited_memoryWrite : Delimited eof readMemoryWrite fun bs w => bs = putMemoryWrite w := by
  refine (delimited_u64.bind fun gpa => delimited_byteVec.map fun data => (gpa, data)).imp ?_
  rintro _ w ⟨_, gpa, _, rfl, rfl, data, rfl, rfl⟩
  rfl

/-- One case for each tag; behind an unknown one nothing is accepted. -/
theorem delimited_eventType : Delimited eof readEventType fun bs e => bs = putEventType e := by
  refine (delimited_u32.bind (S := fun tag bs e => putWord 4 tag ++ bs = putEventType e)
    fun tag => ?_).imp ?_
  · refine delimited_ite ?_ fun _ => delimited_ite ?_ fun _ => delimited_ite ?_ fun _ =>
      delimited_ite ?_ fun _ => delimited_throw _ _
    · rintro rfl
      refine (delimited_u64.bind fun rax => (delimited_readVec delimited_memoryWrite).map
        fun ws => EventType.syscall rax ws).imp ?_
      rintro _ e ⟨_, rax, _, rfl, rfl, ws, rfl, rfl⟩
      rfl
    · rintro rfl
      refine (delimited_u64.bind fun rax => delimited_u64.map fun rdx =>
        EventType.rdtsc rax rdx).imp ?_
      rintro _ e ⟨_, rax, _, rfl, rfl, rdx, rfl, rfl⟩
      rfl
    · rintro rfl
      refine (delimited_u32.bind fun eax => delimited_u32.bind fun ebx => delimited_u32.bind
        fun ecx => delimited_u32.map fun edx => EventType.cpuid eax ebx ecx edx).imp ?_
      rintro _ e ⟨_, eax, _, rfl, rfl, _, ebx, _, rfl, rfl, _, ecx, _, rfl, rfl, edx, rfl, rfl⟩
      rfl
    · rintro rfl
      refine (delimited_u32.map fun tid => EventType.contextSwitch tid).imp ?_
      rintro _ e ⟨tid, rfl, rfl⟩
      rfl
  · rintro _ e ⟨_, tag, bs, rfl, rfl, hbs⟩
    exact hbs

theorem delimited_traceEvent : Delimited eof readTraceEvent fun bs e => bs = putTraceEvent e := by
  refine (delimited_u64.bind fun count => delimited_eventType.map fun event =>
    TraceEvent.mk count event).imp ?_
  rintro _ e ⟨_, count, _, rfl, rfl, event, rfl, rfl⟩
  rfl

/-! ## What it does not accept, it reports -/

/-- An error that `bincode::deserialize` returns. -/
def Fail.IsBincode (e : Fail) : Prop := ∃ msg, e = .bincode msg

theorem isBincode_eof : Fail.IsBincode eof := ⟨_, rfl⟩

theorem failsWith_u32 : FailsWith Fail.IsBincode readU32 := failsWith_readWord isBincode_eof 4 32

theorem failsWith_u64 : FailsWith Fail.IsBincode readU64 := failsWith_readWord isBincode_eof 8 64

theorem failsWith_byteVec : FailsWith Fail.IsBincode readByteVec :=
  failsWith_readVec isBincode_eof (failsWith_readWord isBincode_eof 1 8)

theorem failsWith_memoryWrite : FailsWith Fail.IsBincode readMemoryWrite :=
  failsWith_u64.bind fun _ => failsWith_byteVec.map _

theorem failsWith_eventType : FailsWith Fail.IsBincode readEventType := by
  refine failsWith_u32.bind fun tag => failsWith_ite ?_ (failsWith_ite ?_ (failsWith_ite ?_
    (failsWith_ite ?_ (failsWith_throw ⟨_, rfl⟩))))
  · exact failsWith_u64.bind fun _ =>
      (failsWith_readVec isBincode_eof failsWith_memoryWrite).map _
  · exact failsWith_u64.bind fun _ => failsWith_u64.map _
  · exact failsWith_u32.bind fun _ => failsWith_u32.bind fun _ => failsWith_u32.bind fun _ =>
      failsWith_u32.map _
  · exact failsWith_u32.map _

theorem failsWith_traceEvent : FailsWith Fail.IsBincode readTraceEvent :=
  failsWith_u64.bind fun _ => failsWith_eventType.map _

end Vestigium
