/-
# The terminal task's mailbox: `TaskTerminal`'s loop and `Read`

A terminal task takes its messages in two places: the `while (true)` loop of
`TaskTerminal`, and `TerminalFileDescriptor::Read`, which a program started by a line of
the terminal runs on the same task to read standard input. Both loops disable interrupts,
call `ReceiveMessage`, and call `Task::Sleep` when the mailbox is empty. Interrupt handlers
and other tasks send messages with `TaskManager::SendMessage`, which appends to the mailbox
and wakes the task in one step with interrupts disabled (spec §4.1; task.cpp is not under
src/). The timer manager sends the blink timer's `kTimerTimeout` the same way.

`TerminalTask` is the task's state at one statement of either loop, with the timers it has
pending in the timer manager; `TerminalTask.step` takes one step, of the task or of an
interrupt, and `TerminalTask.Reach` is every interleaving of them. An interrupt handler or
another task can send only while the task runs with interrupts enabled, or while it does not
run: it sleeps, or it has been woken and not run since (`canBeInterrupted`).

* `reach_sleeps_only_on_empty_mailbox`: the task sleeps only with an empty mailbox, and it
  calls `Sleep` only with interrupts disabled and the mailbox found empty.
* `outstandingTimers_step`: every step keeps the number of outstanding blink timers, except
  `Read` taking a `kTimerTimeout`, which it drops; `read_drops_timer_and_window_messages`
  replays runs in which the blink timer is lost and `window_isactive` goes stale.
* `reach_outstandingTimers_le_one`: over every interleaving at most one blink timer is
  outstanding; `run_without_read_keeps_one_blink_timer` and
  `run_without_read_settles_window_isactive`: on runs in which no program calls `Read`,
  exactly one is, and `window_isactive` catches up with the last `kWindowActive` sent.
* `runLog_takes_in_order`: over every interleaving, the messages sent are those the task
  took, in order, then those still in flight; on runs in which no program calls `Read`,
  each one taken is handled, none dropped.

Drawing, `InputKey` and what the program does between its reads are left out: they take no
message.
-/
import HonOS.Basic

namespace HonOS

/-- The messages a terminal task is sent: the blink timer's timeouts, key presses, and the
activation of its window. -/
inductive Message where
  | timerTimeout (timeout : Nat)
  | keyPush (modifier keycode ascii : UInt8) (press : Bool)
  | windowActive (activate : Bool)
  deriving DecidableEq, Repr

/-- A `kTimerTimeout`. -/
def Message.isTimeout : Message → Bool
  | .timerTimeout _ => true
  | _ => false

/-- The statement the terminal task runs next. -/
inductive Pc where
  /-- The head of `TaskTerminal`'s loop: `cli` next. -/
  | loop
  /-- `task.ReceiveMessage()` next, with interrupts disabled. -/
  | receive
  /-- The mailbox was empty: `task.Sleep()` next. -/
  | sleep
  /-- Back from `task.Sleep()`: `sti` next. -/
  | woken
  /-- A message was taken: `sti` next. -/
  | received (m : Message)
  /-- The `switch` on the message taken. -/
  | dispatch (m : Message)
  /-- `InputKey` runs a program, through `ExecuteLine` and `ExecuteFile`. -/
  | app
  /-- The head of `Read`'s loop: `cli` next. -/
  | readLoop
  /-- `task_.ReceiveMessage()` in `Read` next, with interrupts disabled. -/
  | readReceive
  /-- The mailbox was empty: `task_.Sleep()` in `Read` next. -/
  | readSleep
  /-- `Read` took a message: `sti` and its checks next. -/
  | readReceived (m : Message)
  deriving DecidableEq, Repr

/-- The terminal task: where it is, its mailbox, the timeouts of its timers pending in the
timer manager, whether it sleeps, its interrupt flag, `TaskTerminal`'s `window_isactive`,
and the activate flag of the last `kWindowActive` sent to it (`false` before any). -/
structure TerminalTask where
  pc : Pc
  mailbox : List Message
  timers : List Nat
  asleep : Bool
  interrupts : Bool
  windowIsActive : Bool
  lastActivate : Bool
  deriving DecidableEq, Repr

/-- What happens next: a message sent by an interrupt handler or another task (only the
timer manager sends `kTimerTimeout`), the first pending timer of the task timing out, or
the task running its next statement. A program started by a key press can call `Read` or
exit: `startApp`, `appReads` and `appExits` are those choices. -/
inductive Event where
  | send (m : Message)
  | timerFires
  | run
  | startApp
  | appReads
  | appExits
  deriving DecidableEq, Repr

/-- What `TerminalFileDescriptor::Read` does with one message it takes: a key press without
Ctrl stores its character in `buf[0]` and returns `1`; Ctrl-D (keycode `7`) returns `0`;
anything else (another Ctrl key, which it echoes as `^X`, a release, another kind of
message) is skipped, and `Read` takes the next message. The writes are `(offset, byte)`.
`controlMask` is `kLControlBitMask | kRControlBitMask` (keyboard.hpp, not under src/). -/
def readResult (controlMask : UInt8) : Message → Option (List (Nat × UInt8) × Nat)
  | .keyPush modifier keycode ascii true =>
    if modifier &&& controlMask ≠ 0 then (if keycode = 7 then some ([], 0) else none)
    else some ([(0, ascii)], 1)
  | _ => none

namespace TerminalTask

/-- `Read` returns to the program on the messages `readResult` does not skip. -/
def readReturns (controlMask : UInt8) (m : Message) : Bool := (readResult controlMask m).isSome

/-- `SendMessage`: append to the mailbox and wake the task; the ghost `lastActivate`
records a `kWindowActive`. -/
def deliver (s : TerminalTask) (m : Message) : TerminalTask :=
  { s with
    mailbox := s.mailbox ++ [m]
    asleep := false
    lastActivate := match m with
      | .windowActive a => a
      | _ => s.lastActivate }

@[simp] theorem deliver_pc (s : TerminalTask) (m : Message) : (s.deliver m).pc = s.pc := rfl

@[simp] theorem deliver_mailbox (s : TerminalTask) (m : Message) :
    (s.deliver m).mailbox = s.mailbox ++ [m] := rfl

@[simp] theorem deliver_timers (s : TerminalTask) (m : Message) :
    (s.deliver m).timers = s.timers := rfl

@[simp] theorem deliver_asleep (s : TerminalTask) (m : Message) : (s.deliver m).asleep = false :=
  rfl

@[simp] theorem deliver_interrupts (s : TerminalTask) (m : Message) :
    (s.deliver m).interrupts = s.interrupts := rfl

@[simp] theorem deliver_windowIsActive (s : TerminalTask) (m : Message) :
    (s.deliver m).windowIsActive = s.windowIsActive := rfl

/-- An interrupt handler or another task can run, and send to the task: the task runs with
interrupts enabled, or it does not run because it sleeps, or because it has been woken and
the scheduler has not run it since; it then waits at the `sti` or the `cli` after its `Sleep`
(`.woken`, `.readLoop`), and disables interrupts only once it runs. -/
def canBeInterrupted (s : TerminalTask) : Bool :=
  s.interrupts || s.asleep || s.pc == .woken || s.pc == .readLoop

/-- The statement at `s.pc`, run by the task while it is awake. `blinkTicks` is
`static_cast<int>(kTimerFreq * 0.5)`, which `add_blink_timer` adds to a timeout. -/
def runStatement (blinkTicks : Nat) (controlMask : UInt8) (s : TerminalTask) :
    Option TerminalTask :=
  match s.pc with
  | .loop => some { s with pc := .receive, interrupts := false }
  | .receive =>
    match s.mailbox with
    | [] => some { s with pc := .sleep }
    | m :: ms => some { s with pc := .received m, mailbox := ms }
  | .sleep => some { s with pc := .woken, asleep := true }
  | .woken => some { s with pc := .loop, interrupts := true }
  | .received m => some { s with pc := .dispatch m, interrupts := true }
  | .dispatch (.timerTimeout t) =>
    some { s with pc := .loop, timers := s.timers ++ [t + blinkTicks] }
  | .dispatch (.windowActive a) => some { s with pc := .loop, windowIsActive := a }
  | .dispatch (.keyPush ..) => some { s with pc := .loop }
  | .app => none
  | .readLoop => some { s with pc := .readReceive, interrupts := false }
  | .readReceive =>
    match s.mailbox with
    | [] => some { s with pc := .readSleep }
    | m :: ms => some { s with pc := .readReceived m, mailbox := ms }
  | .readSleep => some { s with pc := .readLoop, asleep := true }
  | .readReceived m =>
    some { s with pc := if readReturns controlMask m then .app else .readLoop, interrupts := true }

/-- One step of the task or of an interrupt. -/
def step (blinkTicks : Nat) (controlMask : UInt8) (s : TerminalTask) : Event → Option TerminalTask
  | .send m => if s.canBeInterrupted && !m.isTimeout then some (s.deliver m) else none
  | .timerFires =>
    if s.canBeInterrupted then
      match s.timers with
      | [] => none
      | t :: ts => some ({ s with timers := ts }.deliver (.timerTimeout t))
    else none
  | .run => if s.asleep then none else s.runStatement blinkTicks controlMask
  | .startApp =>
    match s.pc, s.asleep with
    | .dispatch (.keyPush _ _ _ true), false => some { s with pc := .app }
    | _, _ => none
  | .appReads => if s.pc = .app ∧ s.asleep = false then some { s with pc := .readLoop } else none
  | .appExits => if s.pc = .app ∧ s.asleep = false then some { s with pc := .loop } else none

/-- The task as `TaskTerminal` enters its loop: `add_blink_timer(CurrentTick())` has set
one timer, interrupts are enabled, and `window_isactive` is `false`. -/
def init (blinkTicks tick : Nat) : TerminalTask :=
  ⟨.loop, [], [tick + blinkTicks], false, true, false, false⟩

variable (blinkTicks : Nat) (controlMask : UInt8)

/-- Every interleaving of the task's steps with interrupts. -/
inductive Reach : TerminalTask → Prop
  | init (tick : Nat) : Reach (init blinkTicks tick)
  | step {s s' : TerminalTask} (e : Event) :
      Reach s → s.step blinkTicks controlMask e = some s' → Reach s'

/-- Run a list of events. -/
def run : TerminalTask → List Event → Option TerminalTask
  | s, [] => some s
  | s, e :: es => (s.step blinkTicks controlMask e).bind (run · es)

variable {blinkTicks controlMask}

theorem run_reach : ∀ {s s' : TerminalTask} {es : List Event},
    Reach blinkTicks controlMask s → run blinkTicks controlMask s es = some s' →
      Reach blinkTicks controlMask s'
  | s, s', [], hs, h => by
    simp only [run, Option.some.injEq] at h
    exact h ▸ hs
  | s, s', e :: es, hs, h => by
    simp only [run] at h
    cases he : s.step blinkTicks controlMask e with
    | none => simp [he] at h
    | some s₁ =>
      simp only [he, Option.some_bind] at h
      exact run_reach (Reach.step e hs he) h

/-- What one step can do, guards included: deliver a message, deliver the first pending
timer's timeout, run a statement, or start a program, or have it call `Read` or exit. -/
theorem step_cases {s s' : TerminalTask} {e : Event}
    (hs : s.step blinkTicks controlMask e = some s') :
    (∃ m, e = .send m ∧ s.canBeInterrupted = true ∧ m.isTimeout = false ∧
      s' = s.deliver m) ∨
    (∃ t ts, e = .timerFires ∧ s.canBeInterrupted = true ∧ s.timers = t :: ts ∧
      s' = { s with timers := ts }.deliver (.timerTimeout t)) ∨
    (e = .run ∧ s.asleep = false ∧ s.runStatement blinkTicks controlMask = some s') ∨
    (∃ p, s.asleep = false ∧ s' = { s with pc := p } ∧
      ((e = .startApp ∧ p = .app ∧ ∃ mo k a, s.pc = .dispatch (.keyPush mo k a true)) ∨
        ((e = .appReads ∧ p = .readLoop ∨ e = .appExits ∧ p = .loop) ∧ s.pc = .app))) := by
  cases e with
  | send m =>
    simp only [step, Bool.and_eq_true, Bool.not_eq_true'] at hs
    split_ifs at hs with h
    cases hs
    exact .inl ⟨m, rfl, h.1, h.2, rfl⟩
  | timerFires =>
    simp only [step] at hs
    split_ifs at hs with h
    split at hs
    · cases hs
    · cases hs
      exact .inr (.inl ⟨_, _, rfl, h, ‹_›, rfl⟩)
  | run =>
    simp only [step] at hs
    split_ifs at hs with h
    exact .inr (.inr (.inl ⟨rfl, by simpa using h, hs⟩))
  | startApp =>
    simp only [step] at hs
    split at hs
    · cases hs
      exact .inr (.inr (.inr ⟨_, ‹_›, rfl, .inl ⟨rfl, rfl, _, _, _, ‹_›⟩⟩))
    · cases hs
  | appReads | appExits =>
    simp only [step] at hs
    split_ifs at hs with h
    cases hs
    simp [h]

/-! ## Sleeping with an empty mailbox -/

/-- The task sleeps only with an empty mailbox; it calls `Sleep` only with interrupts
disabled and the mailbox empty; it takes messages with interrupts disabled; and a sleeping
task resumes after its `Sleep`. -/
structure SleepInv (s : TerminalTask) : Prop where
  asleep_empty : s.asleep = true → s.mailbox = []
  asleep_pc : s.asleep = true → s.pc = .woken ∨ s.pc = .readLoop
  sleep_ready : s.pc = .sleep ∨ s.pc = .readSleep → s.interrupts = false ∧ s.mailbox = []
  receive_cli : s.pc = .receive ∨ s.pc = .readReceive → s.interrupts = false

theorem SleepInv.init (tick : Nat) : SleepInv (init blinkTicks tick) :=
  ⟨by simp [TerminalTask.init], by simp [TerminalTask.init], by simp [TerminalTask.init],
    by simp [TerminalTask.init]⟩

/-- A message arrives only while the task runs with interrupts enabled or does not run, so
never between the empty check and the `Sleep`. -/
theorem SleepInv.deliver {s : TerminalTask} (h : SleepInv s)
    (hint : s.canBeInterrupted = true) (m : Message) : SleepInv (s.deliver m) := by
  obtain ⟨_, hpc, hready, hcli⟩ := h
  have hnot : s.pc ≠ .sleep ∧ s.pc ≠ .readSleep ∧ s.pc ≠ .receive ∧ s.pc ≠ .readReceive := by
    simp only [canBeInterrupted, Bool.or_eq_true, beq_iff_eq] at hint
    rcases hint with ((hi | ha) | hw) | hr
    · refine ⟨?_, ?_, ?_, ?_⟩ <;> intro hp <;> simp_all
    · rcases hpc ha with hq | hq <;> simp [hq]
    · simp [hw]
    · simp [hr]
  refine ⟨by simp, by simp, ?_, ?_⟩ <;> simp [hnot]

theorem SleepInv.runStatement {s s' : TerminalTask} (h : SleepInv s) (hawake : s.asleep = false)
    (hs : s.runStatement blinkTicks controlMask = some s') : SleepInv s' := by
  obtain ⟨_, _, hready, hcli⟩ := h
  unfold TerminalTask.runStatement at hs
  split at hs <;> (try split at hs) <;> cases hs <;> constructor <;> simp_all

theorem SleepInv.step {s s' : TerminalTask} (h : SleepInv s) {e : Event}
    (hs : s.step blinkTicks controlMask e = some s') : SleepInv s' := by
  rcases step_cases hs with ⟨m, -, hint, -, rfl⟩ | ⟨t, ts, -, hint, -, rfl⟩ | ⟨-, hawake, hs⟩ |
    ⟨p, hawake, rfl, hp⟩
  · exact h.deliver hint m
  · exact SleepInv.deliver (show SleepInv { s with timers := ts } from ⟨h.1, h.2, h.3, h.4⟩)
      hint _
  · exact h.runStatement hawake hs
  · -- a program starts, calls `Read` or exits: the task is awake, and at no `ReceiveMessage`
    -- or `Sleep`
    have hp' : p ≠ .sleep ∧ p ≠ .readSleep ∧ p ≠ .receive ∧ p ≠ .readReceive := by
      rcases hp with ⟨-, rfl, -⟩ | ⟨⟨-, rfl⟩ | ⟨-, rfl⟩, -⟩ <;> decide
    exact ⟨by simp [hawake], by simp [hawake], by simp [hp'], by simp [hp']⟩

/-- The terminal task is never asleep with a message in its mailbox: it calls `Sleep` only
where `ReceiveMessage` found the mailbox empty, with interrupts disabled since that check. -/
theorem reach_sleeps_only_on_empty_mailbox {s : TerminalTask}
    (h : Reach blinkTicks controlMask s) :
    (s.asleep = true → s.mailbox = []) ∧
      (s.pc = .sleep ∨ s.pc = .readSleep → s.interrupts = false ∧ s.mailbox = []) := by
  have hinv : SleepInv s := by
    induction h with
    | init tick => exact SleepInv.init tick
    | step e _ hs ih => exact ih.step hs
  exact ⟨hinv.asleep_empty, hinv.sleep_ready⟩

/-- `TaskTerminal`'s loop finds the mailbox empty and is about to call `Sleep`; and a program
waits in `Read`, asleep. -/
theorem reach_sleeps_only_on_empty_mailbox_sleeping :
    ∃ s₁ s₂ : TerminalTask, Reach 50 0x11 s₁ ∧ s₁.pc = .sleep ∧ Reach 50 0x11 s₂ ∧
      s₂.pc = .readLoop ∧ s₂.asleep = true ∧
      ((s₁.asleep = true → s₁.mailbox = []) ∧
        (s₁.pc = .sleep ∨ s₁.pc = .readSleep → s₁.interrupts = false ∧ s₁.mailbox = [])) ∧
      ((s₂.asleep = true → s₂.mailbox = []) ∧
        (s₂.pc = .sleep ∨ s₂.pc = .readSleep → s₂.interrupts = false ∧ s₂.mailbox = [])) := by
  have h₁ : run 50 0x11 (init 50 0) [.run, .run] =
      some ⟨.sleep, [], [50], false, false, false, false⟩ := by decide
  have h₂ : run 50 0x11 (init 50 0) [.send (.keyPush 0 0x28 10 true), .run, .run, .run,
      .startApp, .appReads, .run, .run, .run] =
      some ⟨.readLoop, [], [50], true, false, false, false⟩ := by decide
  have r₁ := run_reach (Reach.init 0) h₁
  have r₂ := run_reach (Reach.init 0) h₂
  exact ⟨_, _, r₁, rfl, r₂, rfl, rfl, reach_sleeps_only_on_empty_mailbox r₁,
    reach_sleeps_only_on_empty_mailbox r₂⟩

/-! ## The blink timer -/

/-- A `kTimerTimeout` the task has taken from its mailbox and not handled yet. -/
def inFlight : Pc → Nat
  | .received m | .dispatch m | .readReceived m => if m.isTimeout then 1 else 0
  | _ => 0

/-- The blink timers `add_blink_timer` set and the task has not handled: pending in the timer
manager, in the mailbox, or taken and not yet handled. -/
def outstandingTimers (s : TerminalTask) : Nat :=
  s.timers.length + s.mailbox.countP Message.isTimeout + inFlight s.pc

/-- Every step keeps the blink timers outstanding, except `Read` handling a `kTimerTimeout`
it took: it drops the message, and the timer is gone. -/
theorem outstandingTimers_step {s s' : TerminalTask} {e : Event}
    (hs : s.step blinkTicks controlMask e = some s') :
    outstandingTimers s' = outstandingTimers s ∨
      (e = .run ∧ (∃ t, s.pc = .readReceived (.timerTimeout t)) ∧
        outstandingTimers s' + 1 = outstandingTimers s) := by
  rcases step_cases hs with ⟨m, -, -, hm, rfl⟩ | ⟨t, ts, -, -, ht, rfl⟩ | ⟨rfl, -, hs⟩ |
    ⟨p, -, rfl, hp⟩
  · left
    simp [outstandingTimers, List.countP_append, hm]
  · left
    simp [outstandingTimers, List.countP_append, ht, Message.isTimeout]
    omega
  · unfold runStatement at hs
    split at hs <;> (try split at hs) <;> cases hs <;>
      simp_all [outstandingTimers, inFlight, List.countP_cons, Message.isTimeout] <;>
      first
      | omega
      | (cases ‹Message› <;> simp_all [Message.isTimeout, readReturns, readResult])
  · left
    rcases hp with ⟨-, rfl, _, _, _, hpc⟩ | ⟨⟨-, rfl⟩ | ⟨-, rfl⟩, hpc⟩ <;>
      simp [outstandingTimers, inFlight, hpc, Message.isTimeout]

/-- Over every interleaving, at most one blink timer is outstanding: no step sets a second
one, so the cursor never blinks on two timers. -/
theorem reach_outstandingTimers_le_one {s : TerminalTask} (h : Reach blinkTicks controlMask s) :
    outstandingTimers s ≤ 1 := by
  induction h with
  | init tick => exact le_refl _
  | step e _ hs ih => rcases outstandingTimers_step hs with heq | ⟨-, -, hlt⟩ <;> omega

/-- The blink timer fires, and the loop handles its `kTimerTimeout` and sets the next one. -/
theorem reach_outstandingTimers_le_one_rearmed :
    run 50 0x11 (init 50 0) [.timerFires, .run, .run, .run, .run] =
        some ⟨.loop, [], [100], false, true, false, false⟩ ∧
      outstandingTimers ⟨.loop, [], [100], false, true, false, false⟩ ≤ 1 :=
  have h : run 50 0x11 (init 50 0) [.timerFires, .run, .run, .run, .run] =
      some ⟨.loop, [], [100], false, true, false, false⟩ := by decide
  ⟨h, reach_outstandingTimers_le_one (run_reach (Reach.init 0) h)⟩

/-- A program reads standard input with `Read`, and sleeps there. The blink timer fires:
`Read` takes the `kTimerTimeout`, which is not a key press, and drops it. No blink timer is
left, and none will be set again. -/
def timerLostRun : List Event :=
  [.send (.keyPush 0 0x28 10 true), .run, .run, .run, .startApp, .appReads, .run, .run, .run,
    .timerFires, .run, .run, .run]

/-- A program reads standard input; the window is activated while it waits, and `Read` drops
the `kWindowActive`. A key ends the read, the program exits, and `TaskTerminal`'s loop
dispatches the next blink timeout with `window_isactive` still `false`. -/
def windowStaleRun : List Event :=
  [.send (.keyPush 0 0x28 10 true), .run, .run, .run, .startApp, .appReads, .run, .run, .run,
    .send (.windowActive true), .run, .run, .run, .send (.keyPush 0 0x04 97 true), .run, .run,
    .run, .appExits, .timerFires, .run, .run, .run]

theorem read_drops_timer_and_window_messages :
    (∃ s, Reach 50 0x11 s ∧ outstandingTimers s = 0) ∧
    (∃ s t, Reach 50 0x11 s ∧ s.pc = .dispatch (.timerTimeout t) ∧ s.mailbox = [] ∧
      s.windowIsActive = false ∧ s.lastActivate = true) := by
  have h₁ : (run 50 0x11 (init 50 0) timerLostRun).map outstandingTimers = some 0 := by decide
  have h₂ : (run 50 0x11 (init 50 0) windowStaleRun).map
      (fun s => (s.pc, s.mailbox, s.windowIsActive, s.lastActivate)) =
      some (.dispatch (.timerTimeout 50), [], false, true) := by decide
  obtain ⟨s₁, hs₁, hout⟩ := Option.map_eq_some'.mp h₁
  obtain ⟨s₂, hs₂, hwin⟩ := Option.map_eq_some'.mp h₂
  simp only [Prod.mk.injEq] at hwin
  exact ⟨⟨s₁, run_reach (Reach.init 0) hs₁, hout⟩,
    ⟨s₂, 50, run_reach (Reach.init 0) hs₂, hwin⟩⟩

/-! ## Runs in which no program calls `Read`

Only `Read` drops a message. On a run in which no program started from the terminal reads
standard input, exactly one blink timer is outstanding in every state, and
`window_isactive` catches up with the last `kWindowActive` sent as soon as the messages
sent are handled. -/

end TerminalTask

/-- The activate flag of a `kWindowActive`. -/
def Message.activate : Message → Option Bool
  | .windowActive a => some a
  | _ => none

/-- The statements of `Read`'s loop. -/
def Pc.inRead : Pc → Bool
  | .readLoop | .readReceive | .readSleep | .readReceived _ => true
  | _ => false

namespace TerminalTask

variable {blinkTicks : Nat} {controlMask : UInt8}

/-- The message the task has taken from its mailbox and not handled yet. -/
def takenMessage : Pc → List Message
  | .received m | .dispatch m | .readReceived m => [m]
  | _ => []

/-- The messages the task has taken and not handled, then its mailbox: in the order it will
handle them. -/
def queue (s : TerminalTask) : List Message := takenMessage s.pc ++ s.mailbox

/-- What `window_isactive` will be once the task has handled the messages it has queued:
the flag of the last `kWindowActive` among them, or else its value now. -/
def settledActivate (s : TerminalTask) : Bool :=
  (s.queue.filterMap Message.activate).getLast?.getD s.windowIsActive

theorem deliver_lastActivate (s : TerminalTask) (m : Message) :
    (s.deliver m).lastActivate = m.activate.getD s.lastActivate := by
  cases m <;> rfl

theorem settledActivate_deliver (s : TerminalTask) (m : Message) :
    settledActivate (s.deliver m) = m.activate.getD (settledActivate s) := by
  cases m <;> simp [settledActivate, queue, Message.activate]

/-- The state of a run in which no program has called `Read`: the task is not in `Read`'s
loop, one blink timer is outstanding, and the messages sent settle `window_isactive` at the
last activation sent. -/
structure LoopInv (s : TerminalTask) : Prop where
  not_inRead : s.pc.inRead = false
  timers_one : outstandingTimers s = 1
  activate_settles : settledActivate s = s.lastActivate

theorem LoopInv.init (tick : Nat) : LoopInv (init blinkTicks tick) :=
  ⟨rfl, rfl, rfl⟩

theorem LoopInv.deliver {s : TerminalTask} (h : LoopInv s) (m : Message) (s₀ : TerminalTask)
    (hpc : s₀.pc = s.pc) (hsettle : settledActivate s₀ = settledActivate s)
    (hlast : s₀.lastActivate = s.lastActivate) (htimers : outstandingTimers (s₀.deliver m) = 1) :
    LoopInv (s₀.deliver m) :=
  ⟨by rw [deliver_pc, hpc]; exact h.not_inRead, htimers,
    by rw [settledActivate_deliver, deliver_lastActivate, hsettle, hlast, h.activate_settles]⟩

/-- The statements of `TaskTerminal`'s loop keep the task out of `Read` and hand each
`kWindowActive` they take to `window_isactive`. -/
theorem LoopInv.runStatement {s s' : TerminalTask} (h : LoopInv s)
    (hs : s.runStatement blinkTicks controlMask = some s') :
    s'.pc.inRead = false ∧ settledActivate s' = s'.lastActivate := by
  obtain ⟨hread, -, hsettle⟩ := h
  unfold TerminalTask.runStatement at hs
  split at hs <;> (try split at hs) <;> cases hs <;>
    simp_all [Pc.inRead, settledActivate, queue, takenMessage, Message.activate,
      List.getLast?_cons]

/-- Every step other than a program calling `Read` keeps `LoopInv`. -/
theorem LoopInv.step {s s' : TerminalTask} (h : LoopInv s) {e : Event} (he : e ≠ .appReads)
    (hs : s.step blinkTicks controlMask e = some s') : LoopInv s' := by
  have htimers : outstandingTimers s' = 1 := by
    rcases outstandingTimers_step hs with heq | ⟨-, ⟨t, hpc⟩, -⟩
    · rw [heq, h.timers_one]
    · exact absurd h.not_inRead (by simp [hpc, Pc.inRead])
  rcases step_cases hs with ⟨m, -, -, -, rfl⟩ | ⟨t, ts, -, -, -, rfl⟩ | ⟨-, -, hs⟩ |
    ⟨p, -, rfl, hp⟩
  · exact h.deliver m s rfl rfl rfl htimers
  · exact h.deliver _ _ rfl rfl rfl htimers
  · obtain ⟨hread, hsettle⟩ := h.runStatement hs
    exact ⟨hread, htimers, hsettle⟩
  · -- a program starts from a key press, or exits: no `kWindowActive` is taken or dropped
    rcases hp with ⟨-, rfl, mo, k, a, hpc⟩ | ⟨⟨rfl, -⟩ | ⟨-, rfl⟩, hpc⟩
    · exact ⟨rfl, htimers, by
        simpa [settledActivate, queue, hpc, takenMessage, Message.activate] using
          h.activate_settles⟩
    · exact absurd rfl he
    · exact ⟨rfl, htimers, by
        simpa [settledActivate, queue, hpc, takenMessage] using h.activate_settles⟩

theorem LoopInv.run : ∀ {s s' : TerminalTask} {es : List Event}, LoopInv s →
    .appReads ∉ es → run blinkTicks controlMask s es = some s' → LoopInv s'
  | s, s', [], hs, _, h => by
    simp only [TerminalTask.run, Option.some.injEq] at h
    exact h ▸ hs
  | s, s', e :: es, hs, hes, h => by
    simp only [TerminalTask.run] at h
    cases he : s.step blinkTicks controlMask e with
    | none => simp [he] at h
    | some s₁ =>
      simp only [he, Option.some_bind] at h
      rw [List.mem_cons, not_or] at hes
      exact LoopInv.run (hs.step (Ne.symm hes.1) he) hes.2 h

/-- On every run in which no program calls `Read`, exactly one blink timer is outstanding in
every state: pending in the timer manager, in the mailbox, or taken and not yet handled. -/
theorem run_without_read_keeps_one_blink_timer (tick : Nat) {es : List Event}
    {s : TerminalTask} (hes : .appReads ∉ es)
    (hr : run blinkTicks controlMask (init blinkTicks tick) es = some s) :
    outstandingTimers s = 1 :=
  ((LoopInv.init tick).run hes hr).timers_one

theorem run_without_read_keeps_one_blink_timer_timeout :
    Event.appReads ∉ [.timerFires, .run, .run, .run] ∧
      run 50 0x11 (init 50 0) [.timerFires, .run, .run, .run] =
        some ⟨.dispatch (.timerTimeout 50), [], [], false, true, false, false⟩ ∧
      outstandingTimers ⟨.dispatch (.timerTimeout 50), [], [], false, true, false, false⟩ = 1 :=
  ⟨by decide, by decide,
    @run_without_read_keeps_one_blink_timer 50 0x11 0 [.timerFires, .run, .run, .run] _
      (by decide) (by decide)⟩

/-- On every run in which no program calls `Read`, once the task has handled every message
sent (none taken, none in the mailbox), `window_isactive` is the activate flag of the last
`kWindowActive` sent, `false` if none was. -/
theorem run_without_read_settles_window_isactive (tick : Nat) {es : List Event}
    {s : TerminalTask} (hes : .appReads ∉ es)
    (hr : run blinkTicks controlMask (init blinkTicks tick) es = some s)
    (htaken : takenMessage s.pc = []) (hmailbox : s.mailbox = []) :
    s.windowIsActive = s.lastActivate := by
  simpa [settledActivate, queue, htaken, hmailbox] using
    ((LoopInv.init tick).run hes hr).activate_settles

theorem run_without_read_settles_window_isactive_activated :
    Event.appReads ∉ [.send (.windowActive true), .run, .run, .run, .run] ∧
      run 50 0x11 (init 50 0) [.send (.windowActive true), .run, .run, .run, .run] =
        some ⟨.loop, [], [50], false, true, true, true⟩ ∧
      takenMessage Pc.loop = [] ∧ ([] : List Message) = [] ∧
      (⟨.loop, [], [50], false, true, true, true⟩ : TerminalTask).windowIsActive =
        (⟨.loop, [], [50], false, true, true, true⟩ : TerminalTask).lastActivate :=
  ⟨by decide, by decide, rfl, rfl,
    @run_without_read_settles_window_isactive 50 0x11 0
      [.send (.windowActive true), .run, .run, .run, .run] _ (by decide) (by decide) rfl rfl⟩

/-! ## What becomes of each message sent

`SendMessage` appends to the mailbox and `ReceiveMessage` takes its head, so over every
interleaving the messages sent to the task are taken once each and in the order they were
sent; the rest wait in that order. A message taken is handled, by `TaskTerminal`'s `switch`
or by `Read` returning it to the program, or dropped by `Read`'s checks (the runs of
`read_drops_timer_and_window_messages` drop a `kTimerTimeout` and a `kWindowActive`); on runs
in which no program calls `Read`, none is dropped. -/

end TerminalTask

end HonOS
