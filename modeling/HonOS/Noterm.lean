/-
# `noterm`: the new task reads its command line from the parent's buffer

`ExecuteLine`'s `noterm` starts a task running `TaskTerminal` with `first_arg`, a pointer
into the parent terminal's `linebuf_`, as its `data`. The new task reads the C string
there, `command_line`, only when the scheduler first runs it, and feeds its characters and
a `'\n'` to its own terminal's `InputKey`. Until then the parent task keeps handling keys,
and each key it types rewrites `linebuf_` from index `0`.

`Shell` is the parent terminal with the tasks its `noterm` lines started; `Shell.Reach` lets
the parent's key presses and the first runs of the started tasks interleave in any order
(the run queue starts them in the order they were woken).

* `Shell.Reach.child_feeds_argument`: a task that runs right after the Enter that started
  it feeds the text after `noterm ` on the line.
* `noterm_child_feeds_rewritten_line` replays another interleaving: the parent runs
  `noterm ab` and types eight characters before the new task runs, and the task feeds `xb`
  instead of `ab`.
-/
import HonOS.LineEditor

namespace HonOS

/-- The keys `TaskTerminal(task_id, data)` feeds to its terminal's `InputKey` before its
message loop: the characters of the C string `command_line` at index `data` of the parent's
`linebuf_`, then `'\n'`; none when `command_line` is null. -/
def commandLineKeys (linebuf : List UInt8) : Option Nat → Option (List UInt8)
  | none => some []
  | some j => (cstr? (linebuf.drop j)).map (· ++ [10])

/-- The parent terminal task with the tasks its `noterm` lines started. -/
structure Shell where
  parent : Terminal
  /-- The started tasks the scheduler has not run yet: each one's `command_line`, with the
  line the parent executed to start it. -/
  waiting : List (Option Nat × List UInt8)
  /-- The started tasks that have run: each one's line, with the keys it fed to `InputKey`. -/
  fed : List (List UInt8 × List UInt8)
  deriving DecidableEq, Repr

namespace Shell

variable (cfg : TermConfig) (isHankaku : UInt32 → Bool)

/-- The parent handles a key; the tasks the line it ends starts join the run queue. -/
def parentKey (env : LineEnv) (s : Shell) (modifier keycode c : UInt8) : Option Shell :=
  (s.parent.inputKey cfg isHankaku env modifier keycode c).map fun (t', spawned) =>
    ⟨t', s.waiting ++ spawned.map (·, s.parent.linebuf.take s.parent.linebufIndex.toNat), s.fed⟩

/-- The first started task that has not run yet runs, and feeds its command line. -/
def childRuns (s : Shell) : Option Shell :=
  match s.waiting with
  | [] => none
  | (data, line) :: rest =>
    (commandLineKeys s.parent.linebuf data).map fun keys =>
      ⟨s.parent, rest, s.fed ++ [(line, keys)]⟩

/-- The runs of the parent and the tasks it starts, in any interleaving. -/
inductive Reach : Shell → Prop
  | init (env : LineEnv) : Reach ⟨Terminal.fresh cfg isHankaku env true, [], []⟩
  | parentKey {s s' : Shell} (env : LineEnv) (modifier keycode c : UInt8) :
      Reach s → s.parentKey cfg isHankaku env modifier keycode c = some s' → Reach s'
  | childRuns {s s' : Shell} : Reach s → s.childRuns = some s' → Reach s'

/-- One step of a schedule: the parent handles a key press, or a started task runs. -/
inductive Event where
  | key (c : UInt8)
  | child

/-- Run a schedule of the parent's key presses (with no modifier and keycode `0`, as
`TaskTerminal` passes typed characters) and of the started tasks. -/
def run (env : LineEnv) : Shell → List Event → Option Shell
  | s, [] => some s
  | s, .key c :: rest => (s.parentKey cfg isHankaku env 0 0 c).bind (run env · rest)
  | s, .child :: rest => s.childRuns.bind (run env · rest)

variable {cfg isHankaku}

theorem run_reach (env : LineEnv) :
    ∀ {s s' : Shell} {l : List Event}, Reach cfg isHankaku s →
      run cfg isHankaku env s l = some s' → Reach cfg isHankaku s'
  | s, s', [], hs, h => by
    simp only [run, Option.some.injEq] at h
    exact h ▸ hs
  | s, s', .key c :: rest, hs, h => by
    simp only [run] at h
    cases hk : s.parentKey cfg isHankaku env 0 0 c with
    | none => simp [hk] at h
    | some s₁ =>
      simp only [hk, Option.some_bind] at h
      exact run_reach env (Reach.parentKey env 0 0 c hs hk) h
  | s, s', .child :: rest, hs, h => by
    simp only [run] at h
    cases hc : s.childRuns with
    | none => simp [hc] at h
    | some s₁ =>
      simp only [hc, Option.some_bind] at h
      exact run_reach env (Reach.childRuns hs hc) h

/-- The parent is a terminal its own key presses reach: the started tasks leave it as it is. -/
theorem Reach.terminalReach {s : Shell} (h : Reach cfg isHankaku s) :
    ∃ entered, Terminal.Reach cfg isHankaku s.parent entered := by
  induction h with
  | init env => exact ⟨[], .fresh env⟩
  | parentKey env modifier keycode c _ hk ih =>
    obtain ⟨entered, he⟩ := ih
    obtain ⟨_, ht, rfl⟩ := Option.map_eq_some'.mp hk
    exact ⟨_, he.inputKey env modifier keycode c ht⟩
  | childRuns _ hc ih =>
    unfold Shell.childRuns at hc
    split at hc
    · cases hc
    · obtain ⟨_, -, rfl⟩ := Option.map_eq_some'.mp hc
      exact ih

end Shell

namespace Terminal

variable {cfg : TermConfig} {t : Terminal} {entered : List (List UInt8)} {arg : List UInt8}

/-- Enter on a line `noterm arg` starts one task with `first_arg = 7`, and leaves the line
buffer with the C string `arg` at index `7`. -/
theorem EditorInv.enter_noterm (isHankaku : UInt32 → Bool) (h : EditorInv cfg t entered)
    (hline : t.linebuf.take t.linebufIndex.toNat = ascii "noterm " ++ arg) (env : LineEnv)
    (modifier keycode : UInt8) :
    ∃ t', t.inputKey cfg isHankaku env modifier keycode 10 = some (t', [some 7]) ∧
      commandLineKeys t'.linebuf (some 7) = some (arg ++ [10]) := by
  obtain ⟨t₁, -, -, hbuf, heq⟩ := h.endLine isHankaku env modifier keycode
  have h0 : 0 ∉ arg := fun h0 => h.line.prefix_no_nul (hline ▸ List.mem_append_right _ h0)
  have hbuf' : t₁.linebuf =
      ascii "noterm" ++ 32 :: (arg ++ 0 :: t.linebuf.drop (t.linebufIndex.toNat + 1)) := by
    rw [hbuf, hline]; rfl
  rw [heq, executeLine_of_space cfg isHankaku env t₁ hbuf' (by decide) (by decide),
    cstr?_append_zero h0]
  refine ⟨_, by rw [Option.map_some', Option.map_some', runCommand_noterm]; rfl, ?_⟩
  simp [commandLineKeys, show ∀ X : List UInt8, (ascii "noterm" ++ 0 :: X).drop 7 = X from
    fun _ => rfl, cstr?_append_zero h0]

end Terminal

namespace Shell

variable {cfg : TermConfig} {isHankaku : UInt32 → Bool} {s : Shell} {arg : List UInt8}

/-- When the task a `noterm arg` line starts is the first to run after the parent's Enter,
before the parent handles another key, it feeds `arg` and a `'\n'`: the text after
`noterm ` on the line. -/
theorem Reach.child_feeds_argument (hs : Reach cfg isHankaku s) (hw : s.waiting = [])
    (hline : s.parent.linebuf.take s.parent.linebufIndex.toNat = ascii "noterm " ++ arg)
    (env : LineEnv) (modifier keycode : UInt8) :
    ∃ s₁ s₂, s.parentKey cfg isHankaku env modifier keycode 10 = some s₁ ∧
      s₁.childRuns = some s₂ ∧ s₂.fed = s.fed ++ [(ascii "noterm " ++ arg, arg ++ [10])] := by
  obtain ⟨entered, he⟩ := hs.terminalReach
  obtain ⟨t', ht, hkeys⟩ := he.editorInv.enter_noterm isHankaku hline env modifier keycode
  exact ⟨⟨t', [(some 7, ascii "noterm " ++ arg)], s.fed⟩, ⟨t', [], _⟩,
    by simp [Shell.parentKey, ht, hw, hline], by simp [Shell.childRuns, hkeys], rfl⟩

set_option maxRecDepth 4000 in
theorem Reach.child_feeds_argument_typed :
    ∃ s, Reach exampleConfig asciiHankaku s ∧ s.waiting = [] ∧
      s.parent.linebuf.take s.parent.linebufIndex.toNat = ascii "noterm " ++ ascii "a" ∧
      ∃ s₁ s₂, s.parentKey exampleConfig asciiHankaku asciiEnv 0 0x28 10 = some s₁ ∧
        s₁.childRuns = some s₂ ∧
        s₂.fed = s.fed ++ [(ascii "noterm " ++ ascii "a", ascii "a" ++ [10])] := by
  have hrun : (run exampleConfig asciiHankaku asciiEnv
      ⟨Terminal.fresh exampleConfig asciiHankaku asciiEnv true, [], []⟩
      ((ascii "noterm a").map .key)).map
      (fun s => (s.waiting, s.parent.linebuf.take s.parent.linebufIndex.toNat)) =
      some ([], ascii "noterm " ++ ascii "a") := by decide
  obtain ⟨s, hs, heq⟩ := Option.map_eq_some'.mp hrun
  simp only [Prod.mk.injEq] at heq
  have hr := run_reach asciiEnv (Reach.init asciiEnv) hs
  exact ⟨s, hr, heq.1, heq.2, Reach.child_feeds_argument hr heq.1 heq.2 asciiEnv 0 0x28⟩

end Shell

/-- The parent types `noterm ab` and Enter, then eight more characters before the task it
started first runs. The task was meant to feed `ab` and a new line: it reads `command_line`
at index `7` of `linebuf_`, where the parent's typing has put `x` over `a`, and feeds `xb`. -/
def notermSchedule : List Shell.Event :=
  (ascii "noterm ab\nxxxxxxxx").map .key ++ [.child]

set_option maxRecDepth 8000 in
theorem noterm_child_feeds_rewritten_line :
    ∃ s, Shell.Reach exampleConfig asciiHankaku s ∧
      s.fed = [(ascii "noterm ab", ascii "xb\n")] ∧
      (ascii "noterm ab").drop 7 ++ [10] ≠ ascii "xb\n" := by
  have hrun : (Shell.run exampleConfig asciiHankaku asciiEnv
      ⟨Terminal.fresh exampleConfig asciiHankaku asciiEnv true, [], []⟩ notermSchedule).map
      Shell.fed = some [(ascii "noterm ab", ascii "xb\n")] := by decide
  obtain ⟨s, hs, hfed⟩ := Option.map_eq_some'.mp hrun
  exact ⟨s, Shell.run_reach asciiEnv (Shell.Reach.init asciiEnv) hs, hfed, by decide⟩

end HonOS
