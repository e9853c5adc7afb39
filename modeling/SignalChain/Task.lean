import SignalChain.Journal

/-!
# Tasks

A task runs on a thread of its own, with a stack whose size is given in KiB. A size that does not
fit the word in bytes keeps the task from starting. So does the operating system when it refuses the
thread, and then its cause is logged.
-/

namespace SignalChain

/-- How the operating system answers when it is asked for a thread by name, with a stack of so many
bytes: with the cause if it refuses the thread. -/
abbrev Threads := String → UInt64 → Option String

/-- No thread is refused. -/
def Threads.unlimited : Threads := fun _ _ => none

/-- A task: its name and the size of its stack. -/
structure Task where
  name : String
  stackKb : UInt64
  deriving DecidableEq

namespace Task

/-- What starting a task comes to. -/
inductive Launch where
  /-- The size of the stack in bytes is too great for its word. -/
  | overflow
  /-- The operating system refuses the thread. -/
  | refused (cause : String)
  /-- The task runs, with a stack of so many bytes. -/
  | running (stackBytes : UInt64)
  deriving DecidableEq

/-- The size of the stack in bytes, if the word holds it. -/
def stackBytes? (t : Task) : Option UInt64 :=
  if t.stackKb.toNat * 1024 < UInt64.size then some (t.stackKb * 1024) else none

/-- Ask for a thread for a task. Without a size of the stack, nothing is asked for. -/
def launch (t : Task) (threads : Threads) : Launch :=
  match t.stackBytes? with
  | none => .overflow
  | some bytes =>
    match threads t.name bytes with
    | some cause => .refused cause
    | none => .running bytes

/-- Start a task. -/
def start (t : Task) (threads : Threads := Threads.unlimited) : Except Fault Unit :=
  match t.launch threads with
  | .running _ => .ok ()
  | .overflow | .refused _ => .error (.spawn t.name)

/-- What starting a task logs. -/
def startLines (t : Task) (threads : Threads := Threads.unlimited) : List LogLine :=
  let kb := toString t.stackKb.toNat
  let announcement : LogLine := ⟨.info, "Spawning '" ++ t.name ++ "' (stack=" ++ kb ++ "KB)"⟩
  match t.launch threads with
  | .running _ => [announcement]
  | .overflow =>
    [announcement, ⟨.error, "task: stack of " ++ kb ++ " KB for '" ++ t.name ++ "' overflows"⟩]
  | .refused cause =>
    [announcement, ⟨.error, "task: spawn '" ++ t.name ++ "' failed: " ++ cause⟩]

variable {t : Task} {threads : Threads}

/-- Only a size that does not fit its word is too great for it. -/
theorem launch_eq_overflow_iff : t.launch threads = .overflow ↔ t.stackBytes? = none := by
  unfold launch
  cases t.stackBytes? with
  | none => simp
  | some bytes => cases hanswer : threads t.name bytes <;> simp [hanswer]

/-- A task starts if the size of its stack fits the word and the operating system does not refuse a
thread with a stack of this size. -/
theorem start_eq_ok_iff :
    t.start threads = .ok () ↔ ∃ bytes, t.stackBytes? = some bytes ∧ threads t.name bytes = none := by
  unfold start launch
  cases t.stackBytes? with
  | none => simp
  | some bytes => cases hanswer : threads t.name bytes <;> simp [hanswer]

end Task

end SignalChain
