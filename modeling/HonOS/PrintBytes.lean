/-
# `Print(s, len)` and the terminal's file descriptor

`Terminal::Print(const char* s, std::optional<size_t> len)` decodes UTF-8 with
`ConvertUTF8To32` and prints each code point, until it reads a NUL or its index reaches
`len`. `TerminalFileDescriptor::Write(buf, len)` is `Print(buf, len)`;
`TerminalFileDescriptor::Read(buf, len)` waits for a key press and stores its character in
`buf[0]`, as `readResult` (with the terminal task's model) says for each message it takes.

The buffer is the memory from `s` on, `Nat → UInt8`: its bytes past `len` are whatever lies
there. `printLoop` runs the `while` loop from an index, with a number of turns, and
returns the code points it prints and the offsets it reads.

* `printLoop_stuck`: on a byte that cannot start a UTF-8 sequence, `ConvertUTF8To32` reports
  `0` bytes and the loop never moves on; `print_loops_on_continuation_byte` runs it on
  `"\x80"`.
* `printLoop_terminates`: when every byte before `len` starts a sequence, the loop ends
  within `len + 1` turns.
* `printLoop_reads_past_len`: the loop tests `s[i]` before `i < len`, so on a buffer with no
  NUL in `[0, len)` it always reads `s[i]` for some `i ≥ len`;
  `fd_write_reads_and_read_writes_past_len` takes `len = 0`, where `Read` also writes
  `buf[0]` and returns `1`.
-/
import HonOS.TaskTerminal

namespace HonOS

/-! ## UTF-8 decoding -/

/-- `CountUTF8Size(c)` (font.cpp, not under src/): the length of the UTF-8 sequence a lead
byte starts, `0` for a byte that starts none (`0x80`–`0xbf`, `0xf8`–`0xff`), which the `cat`
loop of `ExecuteLine` handles (its `u8_remain` is then `-1`). -/
def countUTF8Size (c : UInt8) : Nat :=
  if c < 0x80 then 1
  else if 0xc0 ≤ c ∧ c < 0xe0 then 2
  else if 0xe0 ≤ c ∧ c < 0xf0 then 3
  else if 0xf0 ≤ c ∧ c < 0xf8 then 4
  else 0

/-- `ConvertUTF8To32(u8)` (font.cpp, not under src/): the code point of the sequence at `u8`
and its length, the `CountUTF8Size` of its lead byte; code point `0` and length `0` when the
lead byte starts no sequence (the `cat` loop prints `□` for code point `0`). -/
def convertUTF8To32 (u8 : Nat → UInt8) : UInt32 × Nat :=
  match countUTF8Size (u8 0) with
  | 1 => ((u8 0).toUInt32, 1)
  | 2 => (((u8 0).toUInt32 &&& 0x1f) <<< 6 ||| ((u8 1).toUInt32 &&& 0x3f), 2)
  | 3 => (((u8 0).toUInt32 &&& 0x0f) <<< 12 ||| ((u8 1).toUInt32 &&& 0x3f) <<< 6 |||
      ((u8 2).toUInt32 &&& 0x3f), 3)
  | 4 => (((u8 0).toUInt32 &&& 0x07) <<< 18 ||| ((u8 1).toUInt32 &&& 0x3f) <<< 12 |||
      ((u8 2).toUInt32 &&& 0x3f) <<< 6 ||| ((u8 3).toUInt32 &&& 0x3f), 4)
  | _ => (0, 0)

/-- The bytes `ConvertUTF8To32` reads: the lead byte, and the rest of its sequence. -/
def convertReads (c : UInt8) : Nat := max 1 (countUTF8Size c)

/-- The length `ConvertUTF8To32` reports is `CountUTF8Size` of the lead byte. -/
theorem convertUTF8To32_snd (u8 : Nat → UInt8) :
    (convertUTF8To32 u8).2 = countUTF8Size (u8 0) := by
  have : countUTF8Size (u8 0) ≤ 4 := by unfold countUTF8Size; split_ifs <;> omega
  unfold convertUTF8To32
  generalize countUTF8Size (u8 0) = n at this ⊢
  interval_cases n <;> rfl

/-- `ConvertUTF8To32` reads only the lead byte and the rest of its sequence. -/
theorem convertUTF8To32_congr {u8 u8' : Nat → UInt8}
    (h : ∀ j < convertReads (u8 0), u8 j = u8' j) : convertUTF8To32 u8 = convertUTF8To32 u8' := by
  have h0 : u8 0 = u8' 0 := h 0 (lt_max_of_lt_left Nat.one_pos)
  unfold convertUTF8To32
  rw [← h0]
  unfold convertReads at h
  split
  · rfl
  · rw [h 1 (by omega)]
  · rw [h 1 (by omega), h 2 (by omega)]
  · rw [h 1 (by omega), h 2 (by omega), h 3 (by omega)]
  · rfl

/-! ## The loop of `Print(s, len)` -/

/-- The `while (s[i] && i < len_)` loop of `Print(s, len)` from index `i`, with `fuel` turns:
the code points it prints and the offsets of `s` it reads, `none` when the turns run out.
`len_` is `len`, or `SIZE_MAX` when `len` is empty. -/
def printLoop (s : Nat → UInt8) (len : Nat) : Nat → Nat → Option (List UInt32 × List Nat)
  | 0, _ => none
  | fuel + 1, i =>
    if s i ≠ 0 ∧ i < len then
      let r := convertUTF8To32 fun j => s (i + j)
      (printLoop s len fuel (i + r.2)).map fun out =>
        (r.1 :: out.1, i :: (List.range (convertReads (s i))).map (i + ·) ++ out.2)
    else some ([], [i])

section Loop

variable {s : Nat → UInt8} {len : Nat}

/-- A byte that starts no UTF-8 sequence, before the end: the loop prints code point `0`
and stays at the same index for as many turns as it is given. -/
theorem printLoop_stuck {i : Nat} (h0 : s i ≠ 0) (hi : i < len)
    (hc : countUTF8Size (s i) = 0) : ∀ fuel, printLoop s len fuel i = none
  | 0 => rfl
  | fuel + 1 => by
    have hstay : (convertUTF8To32 fun j => s (i + j)).2 = 0 := by
      rw [convertUTF8To32_snd]
      exact hc
    simp only [printLoop, if_pos (And.intro h0 hi), hstay, Nat.add_zero,
      printLoop_stuck h0 hi hc fuel, Option.map_none']

/-- `Print("\x80", 1)`: the continuation byte `0x80` starts no sequence, `ConvertUTF8To32`
reports `0` bytes for it, and the loop uses up every number of turns it is given. -/
theorem print_loops_on_continuation_byte :
    (convertUTF8To32 fun j => [0x80].getD j 0).2 = 0 ∧
      ∀ fuel, printLoop (fun j => [0x80].getD j 0) 1 fuel 0 = none :=
  ⟨rfl, printLoop_stuck (by decide) (by decide) (by decide)⟩

/-- When every byte before `len` that is not a NUL starts a sequence, the loop ends within
`len - i + 1` turns from `i`: each turn moves `i` forward. -/
theorem printLoop_terminates (hvalid : ∀ j < len, s j ≠ 0 → 0 < countUTF8Size (s j)) :
    ∀ fuel i, len - i < fuel → (printLoop s len fuel i).isSome
  | 0, _, h => absurd h (Nat.not_lt_zero _)
  | fuel + 1, i, h => by
    simp only [printLoop]
    split
    · rename_i hg
      have hstep : 0 < (convertUTF8To32 fun j => s (i + j)).2 := by
        rw [convertUTF8To32_snd]
        exact hvalid i hg.2 hg.1
      simpa using printLoop_terminates hvalid fuel _ (by omega)
    · rfl

theorem printLoop_terminates_hi :
    (∀ j < 2, [0x68, 0x69].getD j (0 : UInt8) ≠ 0 → 0 < countUTF8Size ([0x68, 0x69].getD j 0)) ∧
      ∀ fuel i, 2 - i < fuel → (printLoop (fun j => [0x68, 0x69].getD j 0) 2 fuel i).isSome :=
  ⟨by decide, printLoop_terminates (by decide)⟩

/-- The loop tests `s[i]` before `i < len`: on a buffer with no NUL in `[0, len)` it ends
only after reading some `s[i]` with `i ≥ len`. -/
theorem printLoop_reads_past_len (hnul : ∀ j < len, s j ≠ 0) :
    ∀ fuel i {out : List UInt32 × List Nat}, printLoop s len fuel i = some out →
      ∃ r ∈ out.2, len ≤ r
  | 0, _, _, h => by simp [printLoop] at h
  | fuel + 1, i, out, h => by
    simp only [printLoop] at h
    split at h
    · obtain ⟨out', h', rfl⟩ := Option.map_eq_some'.mp h
      obtain ⟨r, hr, hle⟩ := printLoop_reads_past_len hnul fuel _ h'
      exact ⟨r, by simp [hr], hle⟩
    · rename_i hg
      obtain rfl := Option.some.inj h
      refine ⟨i, List.mem_singleton_self i, ?_⟩
      by_contra hlt
      exact hg ⟨hnul i (by omega), by omega⟩

end Loop

/-! ## `TerminalFileDescriptor` -/

/-- `TerminalFileDescriptor::Write(buf, len)`: `Print(buf, len)`, with `fuel` turns of its
loop; the offsets of `buf` it reads, and `len`, which it returns. -/
def fdWrite (buf : Nat → UInt8) (len fuel : Nat) : Option (List Nat × Nat) :=
  (printLoop buf len fuel 0).map fun out => (out.2, len)

/-- `TerminalFileDescriptor::Read(buf, len)` on the messages the task will receive, in
order: the writes to `buf` and the value returned by the first message it returns on;
`none` while it waits. `len` is not read, as the source's comment says. -/
def fdRead (controlMask : UInt8) (_len : Nat) : List Message → Option (List (Nat × UInt8) × Nat)
  | [] => none
  | m :: ms =>
    match readResult controlMask m with
    | some r => some r
    | none => fdRead controlMask _len ms

/-- `Write(buf, 0)` reads `buf[0]` whatever the buffer holds, and `Read(buf, 0)` stores a
typed `a` in `buf[0]` and returns `1`. -/
theorem fd_write_reads_and_read_writes_past_len :
    (∀ (buf : Nat → UInt8) (fuel : Nat), fdWrite buf 0 (fuel + 1) = some ([0], 0)) ∧
      fdRead 0x11 0 [.keyPush 0 0x04 97 true] = some ([(0, 97)], 1) :=
  ⟨fun buf fuel => by simp [fdWrite, printLoop], rfl⟩

end HonOS
