import NetTester.Sound

namespace NetTester

/-- A `HandlerMemory` with the address of its storage. -/
structure HandlerMemory where
  storage : Nat
  inUse : Bool

/-- A call of a `HandlerMemory`: the size that is asked for, or the pointer that is given back. -/
inductive HandlerMemoryCall
  | allocate (size : Nat)
  | deallocate (pointer : Nat)

namespace HandlerMemory

def storageSize : Nat := 1024

def create (storage : Nat) : HandlerMemory := ⟨storage, false⟩

/-- The assertion that the memory is free to use. -/
def isFree (memory : HandlerMemory) : Bool := !memory.inUse

/-- The pointer it returns. A failed assertion ends the process. -/
def allocate (size : Nat) (memory : HandlerMemory) : Option Nat :=
  if memory.isFree = true ∧ size ≤ storageSize then some memory.storage else none

def deallocate (pointer : Nat) (memory : HandlerMemory) : Option HandlerMemory :=
  if pointer = memory.storage then some { memory with inUse := false } else none

def step (memory : HandlerMemory) : HandlerMemoryCall → Option HandlerMemory
  | .allocate size => (memory.allocate size).map fun _ => memory
  | .deallocate pointer => memory.deallocate pointer

end HandlerMemory

namespace HandlerMemoryCall

/-- The size fits the storage, and the pointer came from it. -/
def Fits (storage : Nat) : HandlerMemoryCall → Prop
  | .allocate size => size ≤ HandlerMemory.storageSize
  | .deallocate pointer => pointer = storage

/-- The allocations that are outstanding after a call. -/
def count (outstanding : Nat) : HandlerMemoryCall → Nat
  | .allocate _ => outstanding + 1
  | .deallocate _ => outstanding - 1

def outstanding (calls : List HandlerMemoryCall) : Nat := calls.foldl count 0

end HandlerMemoryCall

open HandlerMemoryCall

/-- No call sets the flag, so that the assertion never fails. -/
theorem HandlerMemory.run_fits {storage : Nat} {calls : List HandlerMemoryCall}
    (fits : ∀ call ∈ calls, call.Fits storage) :
    Machine.run HandlerMemory.step (.create storage) calls = some (.create storage) := by
  induction calls with
  | nil => rfl
  | cons call calls ih =>
    have fit := fits call (List.mem_cons_self ..)
    refine Machine.run_cons_iff.mpr ⟨.create storage, ?_, ih fun c member =>
      fits c (List.mem_cons_of_mem _ member)⟩
    cases call with
    | allocate size => simp [HandlerMemory.step, HandlerMemory.allocate, HandlerMemory.create,
        HandlerMemory.isFree, show size ≤ HandlerMemory.storageSize from fit]
    | deallocate pointer => simp [HandlerMemory.step, HandlerMemory.deallocate,
        HandlerMemory.create, show pointer = storage from fit]

/-- The guard of every allocation agrees with what is outstanding exactly when nothing ever is. -/
theorem allocate_guarded_iff {storage : Nat} {calls : List HandlerMemoryCall}
    (fits : ∀ call ∈ calls, call.Fits storage) :
    (∀ before size after, calls = before ++ .allocate size :: after →
      ∃ memory, Machine.run HandlerMemory.step (.create storage) before = some memory ∧
        (memory.isFree = true ↔ outstanding before = 0)) ↔
    ∀ before size after, calls = before ++ .allocate size :: after → outstanding before = 0 := by
  have reach : ∀ before size after, calls = before ++ .allocate size :: after →
      Machine.run HandlerMemory.step (.create storage) before = some (.create storage) := by
    rintro before size after rfl
    exact HandlerMemory.run_fits fun call member => fits call (List.mem_append_left _ member)
  constructor
  · intro guarded before size after split
    obtain ⟨memory, reach', guard⟩ := guarded before size after split
    cases (reach before size after split).symm.trans reach'
    exact guard.mp rfl
  · intro exclusive before size after split
    exact ⟨_, reach before size after split, by simp [exclusive before size after split,
      HandlerMemory.create, HandlerMemory.isFree]⟩

/-- The memory of an operation is free again when its handler starts the next one. -/
theorem allocate_guarded_reuse : ∃ memory,
    Machine.run HandlerMemory.step (.create 0) [.allocate 1024, .deallocate 0] = some memory ∧
      (memory.isFree = true ↔ outstanding [.allocate 1024, .deallocate 0] = 0) := by
  have fits : ∀ call ∈ ([.allocate 1024, .deallocate 0, .allocate 8] : List HandlerMemoryCall),
      call.Fits 0 := by
    simp [Fits, HandlerMemory.storageSize]
  refine (allocate_guarded_iff fits).mpr ?_ [.allocate 1024, .deallocate 0] 8 [] rfl
  intro before size after split
  match before, split with
  | [], _ => rfl
  | [_, _], split =>
    simp only [List.cons_append, List.cons.injEq] at split
    rw [← split.1, ← split.2.1]
    rfl
  | [_, _, .allocate _], split => simp at split

/-- Two allocations of one memory: the second one passes the assertion as well. -/
theorem storage_shared : ¬∀ (storage : Nat) (calls : List HandlerMemoryCall)
    (_ : ∀ call ∈ calls, call.Fits storage) (before after : List HandlerMemoryCall) (size : Nat)
    (_ : calls = before ++ .allocate size :: after),
    ∃ memory, Machine.run HandlerMemory.step (.create storage) before = some memory ∧
      (memory.isFree = true ↔ outstanding before = 0) := by
  intro claim
  obtain ⟨memory, reach, guard⟩ := claim 0 [.allocate 8, .allocate 8]
    (by simp [Fits, HandlerMemory.storageSize]) [.allocate 8] [] 8 rfl
  cases (HandlerMemory.run_fits (by simp [Fits, HandlerMemory.storageSize])).symm.trans reach
  exact absurd (guard.mp rfl) (by decide)

/-- The memories of a session. -/
inductive MemoryName
  | sendHandlerMemory
  | receiveHandlerMemory
  | sendThrottle
  | receiveThrottle
deriving DecidableEq

/-- The operations whose handlers were made with a memory, and that have not been released. The
receives of data and the probe for the end of the stream share one. -/
def Session.backed (s : Session) : MemoryName → Nat
  | .sendHandlerMemory => s.sends.length
  | .receiveHandlerMemory => s.receives.length
  | .sendThrottle => s.sendThrottle.waits.length
  | .receiveThrottle => s.receiveThrottle.waits.length

/-- Every memory of a session backs at most one operation. -/
theorem backs_one {c : SessionConfiguration} (accepted : Accepted c) {draws : Nat → Nat}
    {now : Nat} {events : List (Nat × Event)} {s : Session}
    (reach : Session.Reaches c draws now events s) (memory : MemoryName) : s.backed memory ≤ 1 := by
  obtain ⟨sound, _, _⟩ := Sound.of_reaches accepted reach
  cases memory with
  | sendHandlerMemory => exact sound.tidy.sends
  | receiveHandlerMemory => exact sound.tidy.receives
  | sendThrottle => exact sound.tidy.sendWaits
  | receiveThrottle => exact sound.tidy.receiveWaits

theorem backs_one_waiting : ∃ s, Session.Reaches
    (defaultConfiguration "127.0.0.1:1234" ⟨1, .iec, by decide⟩) (fun _ => 0) 0
    [(0, .complete (.opened 0 none)), (0, .invoke (.onConnect 0))] s ∧
    s.backed .receiveThrottle = 1 ∧ ∀ memory, s.backed memory ≤ 1 := by
  refine Machine.exists_run (fun s => s.backed .receiveThrottle) (b := 1) rfl ?_
  intro s reach waiting
  exact ⟨waiting, backs_one (accepted_default _ (by decide)) reach⟩

end NetTester
