/-
  THE TWO PAYLOADS — `target_app/src/main.rs` and `crates/test_target/src/main.rs`.

  `target_app` is there to be raced: two "threads" increment one counter, each reading it before it
  yields and writing it afterwards, "unsynchronized … for data race simulation".  But the yield is a
  VMCALL that the engines log and step over, and the slices of the two threads follow one another in
  one flow of control.  So the schedule is always the same, and no update is ever lost
  (`target_app_schedule`).

  `test_target` tests that RDTSC and CPUID are answered as the recorder answers them.
-/
import Vestigium.Payload.Program

namespace Vestigium.Payload

open Vestigium.Labelled

/-! ## `target_app` -/

/-- `sched_yield`, and what comes after it: hypercall 1. -/
def schedYield (threadId : U64) (next : Program) : Program := .vmcall 0x1 threadId next

/-- `execute_slice`, with `COUNTER` before it, and what comes after it with `COUNTER` then. -/
def executeSlice (threadId counter : U64) (next : U64 → Program) : Program :=
  let temp := counter
  schedYield threadId (next (temp + 1))

/-- `n` times around the loop of `_start`. -/
def rounds : Nat → U64 → (U64 → Program) → Program
  | 0, counter, next => next counter
  | n + 1, counter, next =>
    executeSlice 0 counter fun counter => executeSlice 1 counter fun counter => rounds n counter next

/-- `_start` with a loop of `n` rounds: the counter goes to the hypervisor in RAX. -/
def startOf (n : Nat) : Program := rounds n 0 fun finalVal => .hlt (some finalVal)

/-- `_start`. -/
def start : Program := startOf 100

/-- The threads that yield, in `n` rounds. -/
def threads : Nat → List U64
  | 0 => []
  | n + 1 => 0 :: 1 :: threads n

/-- What a recording of them has in its trace. -/
def schedule (n : Nat) : List EventType :=
  (threads n).map fun tid => .contextSwitch (tid.setWidth 32)

theorem length_threads (n : Nat) : (threads n).length = 2 * n := by
  induction n with
  | zero => rfl
  | succ n ih =>
    rw [threads, List.length_cons, List.length_cons, ih]
    omega

/-- **No update is lost**: each slice finds in the counter what the slice before it has put there. -/
theorem rounds_eq (n : Nat) (counter : U64) (next : U64 → Program) :
    rounds n counter next = yields (threads n) (next (counter + BitVec.ofNat 64 (2 * n))) := by
  induction n generalizing counter with
  | zero =>
    rw [rounds, threads]
    simp [yields]
  | succ n ih =>
    have hcount : counter + 1 + 1 + BitVec.ofNat 64 (2 * n) =
        counter + BitVec.ofNat 64 (2 * (n + 1)) := by
      rw [Nat.mul_add, BitVec.ofNat_add, BitVec.add_assoc, BitVec.add_assoc, ← BitVec.add_assoc 1 1,
        BitVec.add_comm (1 + 1)]
      rfl
    rw [rounds, executeSlice, executeSlice, ih, hcount]
    rfl

theorem startOf_eq (n : Nat) :
    startOf n = yields (threads n) (.hlt (some (BitVec.ofNat 64 (2 * n)))) := by
  rw [startOf, rounds_eq, show (0 : U64) = 0#64 from rfl, BitVec.zero_add]

variable {w : Whp} {vcpu : Vcpu} {eng : ReplayEngine} {At : Program → Machine → Prop} {m : Machine}

/-- **The race that is none.**  Wherever `target_app` is hosted, with a loop of any length `n`,

    * recording it, with whatever answers, ends after `2 n` events: thread 0 and thread 1 yield in
      turn, numbered from `0` on, and the counter printed is `2 n`, every increment counted;
    * a trace replays without a word iff it is a beginning of that one schedule. -/
theorem target_app_schedule (heng : eng.activeVcpu = .ok vcpu) (hp : VmRunner.PreciseExits w vcpu)
    (h : Hosts w vcpu At) {n : Nat} (hm : At (startOf n) m) :
    (∀ sim, ∃ stop, (∀ fuel, 2 * n < fuel → RecordEngine.run w sim vcpu fuel m = .ok stop) ∧
      stop.state.logger.events = numbered (schedule n) ∧
      stop.line = .guestHalted (BitVec.ofNat 64 (2 * n))) ∧
    ∀ events passes, (∃ m', eng.replayEvents w (passes + 1) events m =
        .ok (m', List.replicate events.length none)) ↔ events.map (·.event) <+: schedule n := by
  constructor
  · intro sim
    obtain ⟨stop, hrun, hevents, rax, hline, hrax⟩ := h.recorded hm sim
    obtain ⟨hlog, hresult⟩ := events_yields sim (threads n) (some (BitVec.ofNat 64 (2 * n))) 0
    rw [startOf_eq] at hrun hevents hrax
    rw [hlog] at hrun hevents
    rw [hresult] at hrax
    refine ⟨stop, fun fuel hfuel => hrun fuel ?_, hevents, ?_⟩
    · rwa [List.length_map, length_threads]
    · rw [hline, hrax _ rfl]
  · intro events passes
    rw [h.replays_iff heng hp hm, startOf_eq]
    exact path_yields_iff

/-- `_start` itself: two hundred events, and two hundred in RAX. -/
theorem target_app_schedule_sample : ∃ stop,
    RecordEngine.run (scripted (threads 100) 200) simulated ⟨0⟩ 201 scriptedMachine = .ok stop ∧
      stop.state.logger.events.length = 200 ∧ stop.line = .guestHalted 200 := by
  have hstart : Reading (threads 100) 200 start scriptedMachine := by
    rw [start, startOf_eq]
    exact scripted_reading (threads 100) 200
  obtain ⟨stop, hrun, hevents, hline⟩ := (target_app_schedule
    (ReplayEngine.activeVcpu_registerVcpu 0 ⟨0⟩) (scripted_precise (threads 100) 200)
    (scripted_hosts 200 (by rw [length_threads]; decide)) hstart).1 simulated
  refine ⟨stop, hrun 201 (by decide), ?_, hline⟩
  rw [hevents, length_numbered, schedule, List.length_map, length_threads]

/-! ## `test_target` -/

/-- `result`: what the payload makes of RAX after RDTSC and EAX after CPUID. -/
def testResult (rax : U64) (cpuidEax : U32) : U64 :=
  if cpuidEax = 0xAAAAAAAA ∧ rax = 0x1000 then 0x42 else 0xDEAD

/-- `_start` of `test_target`.  `result` goes to `black_box` and is in no register that the source
    names when it halts. -/
def testTarget : Program := .rdtsc fun _ _ => .cpuid 0 fun _ _ _ _ => .hlt none

/-- A recording of `test_target` has two events; they carry what `result` is computed from, and the
    recorder's own answers make it `0x42`. -/
theorem test_target_recorded (h : Hosts w vcpu At) (hm : At testTarget m) :
    ∃ stop, (∀ fuel, 2 < fuel → RecordEngine.run w simulated vcpu fuel m = .ok stop) ∧
      ∃ rax rdx eax ebx ecx edx, stop.state.logger.events =
        [⟨0, .rdtsc rax rdx⟩, ⟨1, .cpuid eax ebx ecx edx⟩] ∧ testResult rax eax = 0x42 := by
  obtain ⟨stop, hrun, hevents, -⟩ := h.recorded hm simulated
  exact ⟨stop, hrun, _, _, _, _, _, _, hevents, by decide⟩

end Vestigium.Payload
