/-
# The terminal: cursor, line buffer and command history

The state a `Terminal` keeps between key presses and the member functions that change it:
`Print(char32_t)`, `HistoryUpDown`, `ExecuteLine` and `InputKey`, with the constructor.
Drawing (`DrawCursor`, `FillRectangle`, `WriteAscii`, `Scroll1`'s move) changes pixels,
not this state, and is left out.

`linebuf_` and the entries of `cmd_history_` are `char` arrays of `kLineMax` bytes; an
access outside an array, or a C-string function that runs off one, is undefined
behaviour, and the operations that can do either return `Option`, `none` for it.

terminal.hpp and font.cpp are not under src/: `kRows`, `kColumns` and `kLineMax` are the
fields of a `TermConfig`, `IsHankaku` is a parameter, and what the commands print through
`Print(const char*)` (its bytes decoded by `ConvertUTF8To32`) comes from a `LineEnv`.
-/
import HonOS.Basic

namespace HonOS

/-! ## Configuration and state -/

/-- The constants of terminal.hpp: rows and columns of the text area and the size of the
line buffer. A full-width glyph needs two columns and the cursor a row. -/
structure TermConfig where
  kRows : Nat
  kColumns : Nat
  kLineMax : Nat
  one_le_kRows : 1 ≤ kRows
  two_le_kColumns : 2 ≤ kColumns
  one_le_kLineMax : 1 ≤ kLineMax

/-- `Vector2D<int>`. -/
structure Vector2D where
  x : Int
  y : Int
  deriving DecidableEq, Repr

/-- The members of `Terminal` that key presses change. -/
@[ext] structure Terminal where
  cursor : Vector2D
  linebuf : List UInt8
  linebufIndex : Int
  cmdHistory : List (List UInt8)
  cmdHistoryIndex : Int
  showWindow : Bool
  deriving DecidableEq, Repr

/-- What the commands of `ExecuteLine` print through `Print(const char*)`: `decode` is
`ConvertUTF8To32` applied along a string, and `output` the code points printed by the
commands that report on PCI, the file system or memory, or run a program, given the
command and its argument. -/
structure LineEnv where
  decode : List UInt8 → List UInt32
  output : List UInt8 → Option (List UInt8) → List UInt32

/-! ## C strings in `char` arrays -/

/-- The bytes of a string literal. -/
def ascii (s : String) : List UInt8 := s.toList.map Char.toUInt8

/-- `strlen` on an array: the index of its first NUL, `none` when it has none and
`strlen` reads past its end. -/
def strlen? : List UInt8 → Option Nat
  | [] => none
  | c :: cs => if c = 0 then some 0 else (strlen? cs).map (· + 1)

/-- The C string an array holds, `none` when it is not NUL-terminated. -/
def cstr? (a : List UInt8) : Option (List UInt8) := (strlen? a).map a.take

/-- `strchr(&a[0], c)` for `c ≠ 0`: the index of the first `c` before the first NUL, or
`some none` for the null pointer when the NUL comes first. -/
def strchr? : List UInt8 → UInt8 → Option (Option Nat)
  | [], _ => none
  | x :: xs, c => if x = c then some (some 0) else if x = 0 then some none
    else (strchr? xs c).map (·.map (· + 1))

/-- `strcpy(&dst[0], src)`: the string and its NUL over the front of `dst`. -/
def strcpy? (dst src : List UInt8) : Option (List UInt8) :=
  (strlen? src).bind fun n => if n < dst.length then some (src.take n ++ 0 :: dst.drop (n + 1))
    else none

/-- `a[i] = v`. -/
def arraySet? (a : List UInt8) (i : Int) (v : UInt8) : Option (List UInt8) :=
  if 0 ≤ i ∧ i < a.length then some (a.set i.toNat v) else none

/-- An `int` converted to `size_t`. -/
def toSizeT (i : Int) : Nat := (i % 2 ^ 64).toNat

/-! ### A NUL-terminated array is a string, its NUL and the rest -/

theorem strlen?_append_zero {s : List UInt8} (h : 0 ∉ s) (r : List UInt8) :
    strlen? (s ++ 0 :: r) = some s.length := by
  induction s with
  | nil => simp [strlen?]
  | cons c s ih =>
    simp only [List.mem_cons, not_or] at h
    simp [strlen?, Ne.symm h.1, ih h.2]

theorem strlen?_eq_some_iff {a : List UInt8} {n : Nat} :
    strlen? a = some n ↔ ∃ s r, a = s ++ 0 :: r ∧ 0 ∉ s ∧ s.length = n := by
  constructor
  · intro h
    induction a generalizing n with
    | nil => simp [strlen?] at h
    | cons c a ih =>
      by_cases hc : c = 0
      · simp only [strlen?, hc, if_true, Option.some.injEq] at h
        exact ⟨[], a, by simp [hc], by simp, h⟩
      · simp only [strlen?, hc, if_false, Option.map_eq_some'] at h
        obtain ⟨m, hm, rfl⟩ := h
        obtain ⟨s, r, rfl, hs, rfl⟩ := ih hm
        exact ⟨c :: s, r, rfl, by simp [Ne.symm hc, hs], rfl⟩
  · rintro ⟨s, r, rfl, hs, rfl⟩
    exact strlen?_append_zero hs r

theorem cstr?_append_zero {s : List UInt8} (h : 0 ∉ s) (r : List UInt8) :
    cstr? (s ++ 0 :: r) = some s := by
  simp [cstr?, strlen?_append_zero h]

theorem cstr?_eq_some_iff {a s : List UInt8} : cstr? a = some s ↔ 0 ∉ s ∧ ∃ r, a = s ++ 0 :: r := by
  constructor
  · intro h
    obtain ⟨n, hn, rfl⟩ := Option.map_eq_some'.mp h
    obtain ⟨s, r, rfl, hs, rfl⟩ := strlen?_eq_some_iff.mp hn
    simpa using hs
  · rintro ⟨hs, r, rfl⟩
    exact cstr?_append_zero hs r

/-- An array with a NUL holds a C string: the bytes before its first NUL. -/
theorem exists_cstr?_of_mem {a : List UInt8} (h : 0 ∈ a) :
    ∃ s r, a = s ++ 0 :: r ∧ 0 ∉ s ∧ cstr? a = some s := by
  induction a with
  | nil => simp at h
  | cons c a ih =>
    by_cases hc : c = 0
    · subst hc
      exact ⟨[], a, rfl, by simp, by simp [cstr?, strlen?]⟩
    · obtain ⟨s, r, rfl, hs, -⟩ := ih ((List.mem_cons.mp h).resolve_left (Ne.symm hc))
      exact ⟨c :: s, r, rfl, by simp [Ne.symm hc, hs],
        @cstr?_append_zero (c :: s) (by simp [Ne.symm hc, hs]) r⟩

theorem strcpy?_append_zero {dst s : List UInt8} (h : 0 ∉ s) (r : List UInt8)
    (hlen : s.length < dst.length) :
    strcpy? dst (s ++ 0 :: r) = some (s ++ 0 :: dst.drop (s.length + 1)) := by
  simp [strcpy?, strlen?_append_zero h, hlen]

theorem strchr?_append_cons {s : List UInt8} {c : UInt8} (hc : c ∉ s) (h0 : 0 ∉ s)
    (r : List UInt8) : strchr? (s ++ c :: r) c = some (some s.length) := by
  induction s with
  | nil => simp [strchr?]
  | cons x s ih =>
    simp only [List.mem_cons, not_or] at hc h0
    simp [strchr?, Ne.symm hc.1, Ne.symm h0.1, ih hc.2 h0.2]

theorem strchr?_append_zero {s : List UInt8} {c : UInt8} (hc : c ∉ s) (h0 : 0 ∉ s)
    (hc0 : c ≠ 0) (r : List UInt8) : strchr? (s ++ 0 :: r) c = some none := by
  induction s with
  | nil => simp [strchr?, Ne.symm hc0]
  | cons x s ih =>
    simp only [List.mem_cons, not_or] at hc h0
    simp [strchr?, Ne.symm hc.1, Ne.symm h0.1, ih hc.2 h0.2]

/-- `strchr` on an array with a NUL returns the first `c` when it comes before the first
NUL, and the null pointer otherwise. -/
theorem strchr?_cases {a : List UInt8} {c : UInt8} (h : 0 ∈ a) (hc : c ≠ 0) :
    (∃ s r, a = s ++ c :: r ∧ c ∉ s ∧ 0 ∉ s ∧ strchr? a c = some (some s.length)) ∨
    (∃ s r, a = s ++ 0 :: r ∧ c ∉ s ∧ 0 ∉ s ∧ strchr? a c = some none) := by
  induction a with
  | nil => simp at h
  | cons x a ih =>
    by_cases hx : x = c
    · exact .inl ⟨[], a, by simp [hx], by simp, by simp, by simp [strchr?, hx]⟩
    by_cases h0 : x = 0
    · exact .inr ⟨[], a, by simp [h0], by simp, by simp, by simp [strchr?, hx, h0, Ne.symm hc]⟩
    have ht : 0 ∈ a := by simpa [Ne.symm h0] using h
    rcases ih ht with ⟨s, r, rfl, hcs, h0s, he⟩ | ⟨s, r, rfl, hcs, h0s, he⟩
    · exact .inl ⟨x :: s, r, rfl, by simp [Ne.symm hx, hcs], by simp [Ne.symm h0, h0s],
        by simp [strchr?, hx, h0, he]⟩
    · exact .inr ⟨x :: s, r, rfl, by simp [Ne.symm hx, hcs], by simp [Ne.symm h0, h0s],
        by simp [strchr?, hx, h0, he]⟩

theorem toSizeT_of_nonneg {i : Int} (h0 : 0 ≤ i) (h : i < 2 ^ 64) : toSizeT i = i.toNat := by
  rw [toSizeT, Int.emod_eq_of_lt h0 h]

/-- Writing at index `i` and keeping the first `i + 1` bytes: the first `i`, then the byte
written. -/
theorem take_set_succ {a : List UInt8} {i : Nat} (h : i < a.length) (v : UInt8) :
    (a.set i v).take (i + 1) = a.take i ++ [v] := by
  rw [List.set_eq_take_append_cons_drop, if_pos h, List.take_append_eq_append_take]
  simp [Nat.min_eq_left h.le, Nat.add_sub_cancel_left]

theorem arraySet?_of_lt {a : List UInt8} {i : Int} (h0 : 0 ≤ i) (h : i < a.length) (v : UInt8) :
    arraySet? a i v = some (a.set i.toNat v) := by
  simp [arraySet?, h0, h]

namespace Terminal

variable (cfg : TermConfig) (isHankaku : UInt32 → Bool)

/-! ## `Print(char32_t)` -/

/-- The lambda `newline` of `Print`, which `InputKey` also spells out for `'\n'`: column
`0` of the next row, or of the last row after `Scroll1` when the cursor is on it. -/
def newline (t : Terminal) : Terminal :=
  { t with cursor := ⟨0, if t.cursor.y < cfg.kRows - 1 then t.cursor.y + 1 else t.cursor.y⟩ }

/-- Where `Print(char32_t)` writes a glyph: the cursor, after a new line when a half-width
glyph finds it at `kColumns` or a full-width one at `kColumns - 1` or beyond. -/
def wrapFor (t : Terminal) (c : UInt32) : Terminal :=
  if isHankaku c then (if t.cursor.x = cfg.kColumns then t.newline cfg else t)
  else (if t.cursor.x ≥ cfg.kColumns - 1 then t.newline cfg else t)

/-- `Print(char32_t c)`: nothing without a window; `'\n'` starts a new line; a glyph is
written at `wrapFor` and the cursor moves past it, one column or two. -/
def printChar (t : Terminal) (c : UInt32) : Terminal :=
  if !t.showWindow then t
  else if c = 10 then t.newline cfg
  else
    let t := t.wrapFor cfg isHankaku c
    { t with cursor := { t.cursor with x := t.cursor.x + if isHankaku c then 1 else 2 } }

/-- `Print(const char*)` once its bytes are decoded: `Print(char32_t)` for each code
point. -/
def printString (t : Terminal) (cs : List UInt32) : Terminal := cs.foldl (printChar cfg isHankaku) t

/-- `Print(char32_t)` moves the cursor and changes nothing else. -/
theorem printChar_eq (t : Terminal) (c : UInt32) :
    t.printChar cfg isHankaku c = { t with cursor := (t.printChar cfg isHankaku c).cursor } := by
  unfold printChar wrapFor newline
  split_ifs <;> rfl

@[simp] theorem printChar_linebuf (t : Terminal) (c : UInt32) :
    (t.printChar cfg isHankaku c).linebuf = t.linebuf := by
  rw [printChar_eq]

@[simp] theorem printChar_linebufIndex (t : Terminal) (c : UInt32) :
    (t.printChar cfg isHankaku c).linebufIndex = t.linebufIndex := by
  rw [printChar_eq]

@[simp] theorem printChar_cmdHistory (t : Terminal) (c : UInt32) :
    (t.printChar cfg isHankaku c).cmdHistory = t.cmdHistory := by
  rw [printChar_eq]

@[simp] theorem printChar_cmdHistoryIndex (t : Terminal) (c : UInt32) :
    (t.printChar cfg isHankaku c).cmdHistoryIndex = t.cmdHistoryIndex := by
  rw [printChar_eq]

@[simp] theorem printChar_showWindow (t : Terminal) (c : UInt32) :
    (t.printChar cfg isHankaku c).showWindow = t.showWindow := by
  rw [printChar_eq]

@[simp] theorem printString_nil (t : Terminal) : t.printString cfg isHankaku [] = t := rfl

@[simp] theorem printString_cons (t : Terminal) (c : UInt32) (cs : List UInt32) :
    t.printString cfg isHankaku (c :: cs) =
      (t.printChar cfg isHankaku c).printString cfg isHankaku cs :=
  rfl

@[simp] theorem printString_linebuf (t : Terminal) (cs : List UInt32) :
    (t.printString cfg isHankaku cs).linebuf = t.linebuf := by
  induction cs generalizing t <;> simp [*]

@[simp] theorem printString_linebufIndex (t : Terminal) (cs : List UInt32) :
    (t.printString cfg isHankaku cs).linebufIndex = t.linebufIndex := by
  induction cs generalizing t <;> simp [*]

@[simp] theorem printString_cmdHistory (t : Terminal) (cs : List UInt32) :
    (t.printString cfg isHankaku cs).cmdHistory = t.cmdHistory := by
  induction cs generalizing t <;> simp [*]

@[simp] theorem printString_cmdHistoryIndex (t : Terminal) (cs : List UInt32) :
    (t.printString cfg isHankaku cs).cmdHistoryIndex = t.cmdHistoryIndex := by
  induction cs generalizing t <;> simp [*]

@[simp] theorem printString_showWindow (t : Terminal) (cs : List UInt32) :
    (t.printString cfg isHankaku cs).showWindow = t.showWindow := by
  induction cs generalizing t <;> simp [*]

/-! ## History -/

/-- The first block of `HistoryUpDown(direction)`: `cmd_history_index_` one entry older
(`1`) or newer (`-1`), where `cmd_history_` has one. -/
def historyIndex (t : Terminal) (direction : Int) : Int :=
  if direction = -1 ∧ t.cmdHistoryIndex ≥ 0 then t.cmdHistoryIndex - 1
  else if direction = 1 ∧ toSizeT (t.cmdHistoryIndex + 1) < t.cmdHistory.length then
    t.cmdHistoryIndex + 1
  else t.cmdHistoryIndex

/-- `HistoryUpDown(direction)`: move `cmd_history_index_` (`historyIndex`), copy that entry
(or `""` at `-1`) into `linebuf_`, and put the cursor after it. -/
def historyUpDown (t : Terminal) (direction : Int) : Option Terminal :=
  let index := t.historyIndex direction
  let history? := if index ≥ 0 then t.cmdHistory[index.toNat]? else some [0]
  history?.bind fun history =>
    (strcpy? t.linebuf history).bind fun linebuf =>
      (strlen? history).map fun (n : Nat) =>
        { t with
          cmdHistoryIndex := index
          linebuf := linebuf
          linebufIndex := n
          cursor := { t.cursor with x := n + 1 } }

/-! ## `ExecuteLine` -/

/-- The `if` chain of `ExecuteLine` on the command and its argument, with the tasks it
starts: `echo` prints the argument and a new line, `clear` moves the cursor to the top
row, `noterm` starts a task whose argument is `first_arg` (an index into `linebuf_`, or
the null pointer), and any other non-empty command prints what the environment says. -/
def runCommand (env : LineEnv) (t : Terminal) (command : List UInt8) (firstArg : Option Nat)
    (arg : Option (List UInt8)) : Terminal × List (Option Nat) :=
  if command = ascii "echo" then
    let t := match arg with
      | some a => t.printString cfg isHankaku (env.decode a)
      | none => t
    (t.printString cfg isHankaku (env.decode (ascii "\n")), [])
  else if command = ascii "clear" then ({ t with cursor := { t.cursor with y := 0 } }, [])
  else if command = ascii "noterm" then (t, [firstArg])
  else if command ≠ [] then (t.printString cfg isHankaku (env.output command arg), [])
  else (t, [])

/-- `ExecuteLine`: cut the line at its first space, writing a NUL there, into the command
and the argument that starts after it, then run the command. -/
def executeLine (env : LineEnv) (t : Terminal) : Option (Terminal × List (Option Nat)) :=
  (strchr? t.linebuf 32).bind fun space =>
    let linebuf := match space with
      | some j => t.linebuf.set j 0
      | none => t.linebuf
    let firstArg := space.map (· + 1)
    (cstr? linebuf).bind fun command =>
      (match firstArg with
        | some j => (cstr? (linebuf.drop j)).map some
        | none => some none).map fun arg =>
      runCommand cfg isHankaku env { t with linebuf := linebuf } command firstArg arg

/-! ## `InputKey` -/

/-- `InputKey(modifier, keycode, ascii)`, with the tasks the line it ends starts. `'\n'`
ends the line: NUL-terminate it, push it to the front of the history (dropping the
oldest entry) when it is not empty, start a new line, run it, and print the prompt.
`'\b'` moves the cursor back and shortens the line. Another character is appended while
the cursor is left of the last column and the line has room. The down and up arrows
(`0x51`, `0x52`) walk the history. On a terminal without a window (the one `noterm`
starts), `'\n'` and the arrows are undefined: `InputKey` reads `window_->InnerSize()` after
the line, the prompt's `Print(const char*)` reads it too, and `HistoryUpDown` draws through
`window_->Writer()`, with `window_` null; the model returns `none` there. -/
def inputKey (env : LineEnv) (t : Terminal) (_modifier keycode c : UInt8) :
    Option (Terminal × List (Option Nat)) :=
  if c = 10 then
    if !t.showWindow then none
    else
      (arraySet? t.linebuf t.linebufIndex 0).bind fun linebuf =>
        (if t.linebufIndex > 0 then
          (if t.cmdHistory = [] then none else some (linebuf :: t.cmdHistory.dropLast))
        else some t.cmdHistory).bind fun cmdHistory =>
          let t := newline cfg { t with
            linebuf := linebuf
            cmdHistory := cmdHistory
            linebufIndex := 0
            cmdHistoryIndex := -1 }
          (t.executeLine cfg isHankaku env).map fun r =>
            (r.1.printString cfg isHankaku (env.decode (ascii ">")), r.2)
  else if c = 8 then
    if t.cursor.x > 0 then
      some ({ t with
        cursor := { t.cursor with x := t.cursor.x - 1 }
        linebufIndex := if t.linebufIndex > 0 then t.linebufIndex - 1 else t.linebufIndex }, [])
    else some (t, [])
  else if c ≠ 0 then
    if t.cursor.x < cfg.kColumns - 1 ∧ t.linebufIndex < cfg.kLineMax - 1 then
      (arraySet? t.linebuf t.linebufIndex c).map fun linebuf =>
        ({ t with
          linebuf := linebuf
          linebufIndex := t.linebufIndex + 1
          cursor := { t.cursor with x := t.cursor.x + 1 } }, [])
    else some (t, [])
  else if keycode = 0x51 then
    if !t.showWindow then none else (t.historyUpDown (-1)).map (·, [])
  else if keycode = 0x52 then
    if !t.showWindow then none else (t.historyUpDown 1).map (·, [])
  else some (t, [])

/-- A terminal as the constructor leaves it: the member initialisers of terminal.hpp (not
under src/; `linebuf_` zeroed, `linebuf_index_` `0`, `cmd_history_index_` `-1`, cursor at
the origin), the prompt printed when it has a window, and eight empty history entries
from `cmd_history_.resize(8)`. -/
def fresh (env : LineEnv) (showWindow : Bool) : Terminal :=
  let t : Terminal := ⟨⟨0, 0⟩, List.replicate cfg.kLineMax 0, 0,
    List.replicate 8 (List.replicate cfg.kLineMax 0), -1, showWindow⟩
  if showWindow then t.printString cfg isHankaku (env.decode (ascii ">")) else t

end Terminal

/-! ## A terminal to run -/

/-- A text area of 15 rows of 60 columns with 128-byte lines. -/
def exampleConfig : TermConfig := ⟨15, 60, 128, by decide, by decide, by decide⟩

/-- A font whose ASCII code points are half-width and all others full-width. -/
def asciiHankaku (c : UInt32) : Bool := c < 0x80

/-- An environment that decodes ASCII strings and whose other commands print nothing. -/
def asciiEnv : LineEnv := ⟨fun s => s.map UInt8.toUInt32, fun _ _ => []⟩

end HonOS
