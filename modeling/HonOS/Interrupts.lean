/-
# Interrupt-disabled sections along terminal.cpp's call paths

terminal.cpp opens its critical sections with `__asm__("cli")` and closes them with
`__asm__("sti")`. A `Stmt` is what one statement does to the interrupt flag: `cli`, `sti`,
a call, or any other statement (an `Action`). `body` lists the statements of the functions
on the call paths out of the sections, on the path a terminal with a window takes; the
functions they call outside src/ are actions, except `TaskManager::SendMessage`, whose
body follows the spec. `exec` runs statements, inlining each call, and records the
interrupt flag each action runs with.

* `taskTerminal_startUp_enables_interrupts`: the start-up section of `TaskTerminal` reaches
  the `sti` of `Print(const char*)` through the constructor's `Print(">")`, and runs
  `layer_manager->Move`, the `layer_task_map` insert and `Activate` with interrupts enabled.
-/
import HonOS.Basic

namespace HonOS

/-- The statements of the sections that change no interrupt flag. -/
inductive Action where
  | currentTask
  | allocateTerminal
  | newToplevelWindow
  | drawTerminal
  | newLayer
  | drawCursor
  | printGlyphs
  | makeLayerMessage
  | appendMessage
  | wakeup
  | resizeHistory
  | layerMove
  | layerTaskMapInsert
  | activate
  deriving DecidableEq, Repr

/-- The functions on the call paths out of the sections. -/
inductive Func where
  /-- Lines 611–620 of `TaskTerminal`, with a window (`command_line` null). -/
  | taskTerminalStartUp
  /-- `Terminal::Terminal(task_id, show_window)` with `show_window`. -/
  | terminalCtor
  /-- `Terminal::Print(const char*, len)`. -/
  | printString
  /-- `TaskManager::SendMessage`. -/
  | sendMessage
  deriving DecidableEq, Repr

/-- A statement, as far as the interrupt flag goes. -/
inductive Stmt where
  | cli
  | sti
  | call (f : Func)
  | act (a : Action)
  deriving DecidableEq, Repr

/-- The statements of each function. `TaskTerminal`'s section: `cli`, `CurrentTask()`,
`new Terminal{task_id, show_window}`, `layer_manager->Move`, `layer_task_map->insert`,
`active_layer->Activate`, `sti`. The constructor makes the window, draws it, adds its
layer, prints `">"` and sizes `cmd_history_`. `Print(const char*)` hides the cursor, prints
each code point with `Print(char32_t)` (no `cli` or `sti`), shows the cursor, and sends
the draw area to task 1 between `cli` and `sti`. `SendMessage` appends the message and
wakes the task (modelled from the spec, §4.1: task.cpp is not under src/). -/
def body : Func → List Stmt
  | .taskTerminalStartUp =>
    [.cli, .act .currentTask, .act .allocateTerminal, .call .terminalCtor, .act .layerMove,
      .act .layerTaskMapInsert, .act .activate, .sti]
  | .terminalCtor =>
    [.act .newToplevelWindow, .act .drawTerminal, .act .newLayer, .call .printString,
      .act .resizeHistory]
  | .printString =>
    [.act .drawCursor, .act .printGlyphs, .act .drawCursor, .act .makeLayerMessage, .cli,
      .call .sendMessage, .sti]
  | .sendMessage => [.act .appendMessage, .act .wakeup]

/-- Run statements from interrupt flag `ie`, inlining each call, with `fuel` statements at
most: each action with the flag it runs with, and the flag at the end. -/
def exec : Nat → Bool → List Stmt → Option (List (Action × Bool) × Bool)
  | 0, _, _ => none
  | _ + 1, ie, [] => some ([], ie)
  | n + 1, _, .cli :: rest => exec n false rest
  | n + 1, _, .sti :: rest => exec n true rest
  | n + 1, ie, .act a :: rest => (exec n ie rest).map fun r => ((a, ie) :: r.1, r.2)
  | n + 1, ie, .call f :: rest => exec n ie (body f ++ rest)

/-- The start-up section of `TaskTerminal` runs `Move`, the `layer_task_map` insert and
`Activate` with interrupts enabled: the constructor's `Print(">")` ends its own section with
`sti` inside `TaskTerminal`'s. -/
theorem taskTerminal_startUp_enables_interrupts :
    ∃ tr, exec 30 true (body .taskTerminalStartUp) = some (tr, true) ∧
      (Action.layerMove, true) ∈ tr ∧ (Action.layerTaskMapInsert, true) ∈ tr ∧
      (Action.activate, true) ∈ tr :=
  ⟨[(.currentTask, false), (.allocateTerminal, false), (.newToplevelWindow, false),
    (.drawTerminal, false), (.newLayer, false), (.drawCursor, false), (.printGlyphs, false),
    (.drawCursor, false), (.makeLayerMessage, false), (.appendMessage, false), (.wakeup, false),
    (.resizeHistory, true), (.layerMove, true), (.layerTaskMapInsert, true), (.activate, true)],
    rfl, by decide, by decide, by decide⟩

end HonOS
