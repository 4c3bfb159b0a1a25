/-
# `MakeArgVector`

The argument vector of a program, as `MakeArgVector` builds it in the frame `ExecuteFile`
maps for it: `argv[0]` is the command; the argument string is cut at runs of white space
into `argv[1]`, `argv[2]`, …; each string is copied, with its NUL, into `argbuf` right
after the previous one, and `argv[i]` points at its copy. A push that finds `argv` or
`argbuf` full stops the construction with `kFull`.

The argument string is the C string `first_arg` (a list of bytes, without its NUL).

* `makeArgVector_layout`: `MakeArgVector` pushes the command and the words of the argument
  string (`argStrings`, maximal runs of non-space bytes) one after another, each at the
  offset after the strings before it, and stops at the first string for which `argv` or
  `argbuf` is full; it reports `kSuccess` exactly when it pushed them all.
* `makeArgVector_copies_past_argbuf`: the check before a push only asks for one free byte,
  so a string longer than the room left is copied past the end of `argbuf`;
  `makeArgVector_in_frame`: at the sizes `ExecuteFile` passes, the strings of a line of the
  terminal never come near that end, and only a full `argv` stops the pushes.
* `makeArgVector_fits`: when every string fits, all are pushed, inside `argbuf`.
* `makeArgVector_argv_reads_back`: a program that reads `argv[j]` as a C string from the
  memory the copies wrote reads the `j`-th string pushed, whole.
-/
import HonOS.Basic

namespace HonOS

/-- `isspace` in the C locale: space, `\t`, `\n`, `\v`, `\f` and `\r`. -/
def isspace (c : UInt8) : Bool := c == 32 || (9 ≤ c && c ≤ 13)

/-- What `MakeArgVector` has built: `argc`, `argbuf_index`, the offsets into `argbuf`
stored in `argv[0, argc)`, and each string copied into `argbuf` with its offset. -/
structure ArgVector where
  argc : Int
  argbufIndex : Int
  argv : List Int
  copies : List (Int × List UInt8)
  deriving DecidableEq, Repr

/-- The lambda `push_to_argv`: `kFull` when `argc ≥ argv_len` or
`argbuf_index ≥ argbuf_len`; otherwise `argv[argc] = &argbuf[argbuf_index]`, `s` and its NUL
are copied there, and `argbuf_index` moves past them. -/
def pushToArgv (argvLen argbufLen : Int) (av : ArgVector) (s : List UInt8) :
    WithError ArgVector :=
  if av.argc ≥ argvLen ∨ av.argbufIndex ≥ argbufLen then ⟨av, .kFull⟩
  else
    ⟨⟨av.argc + 1, av.argbufIndex + s.length + 1, av.argv ++ [av.argbufIndex],
      av.copies ++ [(av.argbufIndex, s ++ [0])]⟩, .kSuccess⟩

/-- The `while (true)` loop of `MakeArgVector` on the rest `p` of the argument string,
with `fuel` turns left: skip white space; stop at the end of the string; cut the next
argument at the white space or NUL that follows it (writing a NUL there) and push it; stop
after a push that fails or that reached the end, and otherwise go on after the cut. Every
turn that goes on consumes at least two bytes, so `p.length + 1` turns are enough. -/
def argLoop (argvLen argbufLen : Int) : Nat → ArgVector → List UInt8 → WithError ArgVector
  | 0, av, _ => ⟨av, .kSuccess⟩
  | fuel + 1, av, p =>
    match p.dropWhile isspace with
    | [] => ⟨av, .kSuccess⟩
    | q =>
      let r := pushToArgv argvLen argbufLen av (q.takeWhile (! isspace ·))
      if r.error.isErr then r
      else
        match q.dropWhile (! isspace ·) with
        | [] => r
        | _ :: rest => argLoop argvLen argbufLen fuel r.value rest

/-- `MakeArgVector(command, first_arg, argv, argv_len, argbuf, argbuf_len)`. -/
def makeArgVector (command : List UInt8) (firstArg : Option (List UInt8))
    (argvLen argbufLen : Int) : WithError ArgVector :=
  let r := pushToArgv argvLen argbufLen ⟨0, 0, [], []⟩ command
  if r.error.isErr then r
  else
    match firstArg with
    | none => r
    | some p => argLoop argvLen argbufLen (p.length + 1) r.value p

/-! ## The strings pushed -/

/-- The words of an argument string: its maximal runs of bytes that are not white space. -/
def argWords (p : List UInt8) : List (List UInt8) := (p.splitOnP isspace).filter (· ≠ [])

/-- The strings `MakeArgVector` is to push: the command, then the words of `first_arg`. -/
def argStrings (command : List UInt8) (firstArg : Option (List UInt8)) : List (List UInt8) :=
  command :: (firstArg.map argWords).getD []

/-- The offset in `argbuf` of the `j`-th string: past the first `j` strings and their NULs. -/
def argOffset (W : List (List UInt8)) (j : Nat) : Int :=
  (((W.take j).map fun w => w.length + 1).sum : Nat)

/-- `MakeArgVector` stops before the `j`-th string of `W`: there is none, or `argv` is full,
or `argbuf` has no byte left at the string's offset. -/
def ArgStop (argvLen argbufLen : Int) (W : List (List UInt8)) (j : Nat) : Prop :=
  j = W.length ∨ argvLen ≤ j ∨ argbufLen ≤ argOffset W j

/-- The vector with the first `k` strings of `W` pushed, each with its NUL at its offset. -/
def argLayout (W : List (List UInt8)) (k : Nat) : ArgVector :=
  ⟨k, argOffset W k, (List.range k).map (argOffset W),
    (List.range k).map fun j => (argOffset W j, W.getD j [] ++ [0])⟩

/-- Push each string in turn until a push fails. -/
def pushAll (argvLen argbufLen : Int) : ArgVector → List (List UInt8) → WithError ArgVector
  | av, [] => ⟨av, .kSuccess⟩
  | av, s :: ss =>
    let r := pushToArgv argvLen argbufLen av s
    if r.error.isErr then r else pushAll argvLen argbufLen r.value ss

/-! ### The words -/

theorem argWords_cons_space {c : UInt8} (hc : isspace c = true) (p : List UInt8) :
    argWords (c :: p) = argWords p := by
  simp [argWords, hc]

theorem argWords_dropWhile (p : List UInt8) : argWords (p.dropWhile isspace) = argWords p := by
  induction p with
  | nil => rfl
  | cons c p ih =>
    by_cases hc : isspace c = true
    · rw [List.dropWhile_cons_of_pos hc, ih, argWords_cons_space hc]
    · rw [List.dropWhile_cons_of_neg hc]

/-- A word alone. -/
theorem argWords_of_word {t : List UInt8} (ht : ∀ x ∈ t, isspace x = false) (hne : t ≠ []) :
    argWords t = [t] := by
  rw [argWords, List.splitOnP_eq_single _ _ (by simpa using ht)]
  simp [hne]

/-- A word, a space, and the rest. -/
theorem argWords_word_space {t : List UInt8} (ht : ∀ x ∈ t, isspace x = false) (hne : t ≠ [])
    {s : UInt8} (hs : isspace s = true) (r : List UInt8) :
    argWords (t ++ s :: r) = t :: argWords r := by
  rw [argWords, List.splitOnP_first _ _ (by simpa using ht) s hs]
  simp [hne, argWords]

example : argWords [32, 97, 98, 9, 10, 99, 32] = [[97, 98], [99]] := by decide

/-- Each word takes its bytes and one NUL, and has at least one byte: the words of `p` with
their NULs take at most `2 * p.length` bytes. -/
theorem sum_argWords_le (p : List UInt8) :
    ((argWords p).map fun w => w.length + 1).sum ≤ 2 * p.length := by
  induction p with
  | nil => simp [argWords]
  | cons x xs ih =>
    rw [argWords] at ih ⊢
    rw [List.splitOnP_cons]
    split
    · simpa [List.filter_cons] using ih.trans (Nat.le_add_right _ 2)
    · obtain ⟨h, t, ht⟩ := List.exists_cons_of_ne_nil (List.splitOnP_ne_nil isspace xs)
      rw [ht] at ih ⊢
      by_cases hh : h = [] <;> simp [List.filter_cons, hh] at ih ⊢ <;> omega

/-- Pushing one string is one `push_to_argv`. -/
theorem pushAll_singleton (argvLen argbufLen : Int) (av : ArgVector) (s : List UInt8) :
    pushAll argvLen argbufLen av [s] = pushToArgv argvLen argbufLen av s := by
  simp only [pushAll]
  split
  · rfl
  · rename_i herr
    simp only [Bool.not_eq_true, Error.isErr_eq_false] at herr
    rw [← herr]

/-- The tokenizer loop of `MakeArgVector`, with enough turns, pushes the words of the rest
of the argument string. -/
theorem argLoop_eq_pushAll (argvLen argbufLen : Int) :
    ∀ (fuel : Nat) (av : ArgVector) (p : List UInt8), p.length < fuel →
      argLoop argvLen argbufLen fuel av p = pushAll argvLen argbufLen av (argWords p)
  | 0, _, _, h => absurd h (Nat.not_lt_zero _)
  | fuel + 1, av, p, h => by
    have hlen : (p.dropWhile isspace).length ≤ p.length := by
      simpa using List.IsSuffix.length_le (List.dropWhile_suffix isspace)
    have hhead := List.head_dropWhile_not isspace p
    rw [← argWords_dropWhile]
    unfold argLoop
    generalize p.dropWhile isspace = q at hlen hhead ⊢
    cases q with
    | nil => rfl
    | cons c q =>
      -- the rest starts with a word `t`, which ends at the end or at a space
      have hc : isspace c = false := hhead (List.cons_ne_nil c q)
      set t := (c :: q).takeWhile (! isspace ·)
      have ht : ∀ x ∈ t, isspace x = false := fun x hx => by
        simpa using List.mem_takeWhile_imp hx
      have htne : t ≠ [] := by simp [t, List.takeWhile_cons, hc]
      have hsplit : t ++ (c :: q).dropWhile (! isspace ·) = c :: q :=
        List.takeWhile_append_dropWhile _ _
      dsimp only
      cases hrest : (c :: q).dropWhile (! isspace ·) with
      | nil =>
        have hw : argWords (c :: q) = [t] := by
          rw [← hsplit, hrest, List.append_nil]
          exact argWords_of_word ht htne
        rw [hw, pushAll_singleton]
        exact ite_self _
      | cons s rest =>
        have hs : isspace s = true := by
          simpa [hrest] using List.head_dropWhile_not (! isspace ·) (c :: q) (by simp [hrest])
        rw [hrest] at hsplit
        have hlt : rest.length < fuel := by
          have hl := congrArg List.length hsplit
          have := List.length_pos.mpr htne
          simp only [List.length_append, List.length_cons] at hl hlen
          omega
        have hw : argWords (c :: q) = t :: argWords rest := by
          rw [← hsplit]
          exact argWords_word_space ht htne hs rest
        rw [hw]
        simp only [pushAll, argLoop_eq_pushAll argvLen argbufLen fuel _ rest hlt]

/-- `MakeArgVector` pushes `argStrings` in turn. -/
theorem makeArgVector_eq_pushAll (command : List UInt8) (firstArg : Option (List UInt8))
    (argvLen argbufLen : Int) :
    makeArgVector command firstArg argvLen argbufLen =
      pushAll argvLen argbufLen ⟨0, 0, [], []⟩ (argStrings command firstArg) := by
  cases firstArg with
  | none => simp [makeArgVector, argStrings, pushAll_singleton]
  | some p =>
    simp only [makeArgVector, argStrings, Option.map_some', Option.getD_some, pushAll,
      argLoop_eq_pushAll argvLen argbufLen _ _ p (Nat.lt_succ_self _)]

/-! ### The layout -/

section Layout

variable (argvLen argbufLen : Int) {W : List (List UInt8)}

@[simp] theorem argOffset_zero (W : List (List UInt8)) : argOffset W 0 = 0 := by
  simp [argOffset]

/-- All the strings with their NULs. -/
theorem argOffset_length (W : List (List UInt8)) :
    argOffset W W.length = ((W.map fun w => w.length + 1).sum : Nat) := by
  simp [argOffset]

theorem argOffset_succ {n : Nat} (hn : n < W.length) :
    argOffset W (n + 1) = argOffset W n + W[n].length + 1 := by
  simp only [argOffset, List.take_succ, List.getElem?_eq_getElem hn, Option.toList_some,
    List.map_append, List.sum_append, List.map_cons, List.map_nil, List.sum_cons, List.sum_nil]
  push_cast
  ring

/-- Each string ends before the next one starts: the copies do not overlap. -/
theorem argOffset_add_le {j j' : Nat} (hj : j < j') (hj' : j' ≤ W.length) :
    argOffset W j + (W.getD j []).length + 1 ≤ argOffset W j' := by
  induction j', hj using Nat.le_induction with
  | base => rw [argOffset_succ (by omega), List.getD_eq_getElem _ _ (by omega)]
  | succ j' _ ih =>
    rw [argOffset_succ (by omega)]
    have := ih (by omega)
    omega

/-- One push onto the layout of the first `n` strings: `kFull` when `argv` or `argbuf` is
full, and the layout of the first `n + 1` otherwise. -/
theorem pushToArgv_argLayout {n : Nat} (hn : n < W.length) :
    pushToArgv argvLen argbufLen (argLayout W n) W[n] =
      if argvLen ≤ n ∨ argbufLen ≤ argOffset W n then ⟨argLayout W n, .kFull⟩
      else ⟨argLayout W (n + 1), .kSuccess⟩ := by
  unfold pushToArgv
  simp only [argLayout, ge_iff_le]
  split_ifs
  · rfl
  · simp only [WithError.mk.injEq, and_true, ArgVector.mk.injEq, List.range_succ,
      List.map_append, List.map_cons, List.map_nil, argOffset_succ hn,
      List.getD_eq_getElem _ _ hn]
    exact (Nat.cast_succ n).symm

/-- Pushing the strings from the `n`-th on, after the first `n`: the pushes stop at the
first `k` at which `ArgStop` holds, with the layout of the first `k` strings. -/
theorem pushAll_argLayout (W : List (List UInt8)) (n : Nat) (hn : n ≤ W.length)
    (hpre : ∀ j < n, ¬ ArgStop argvLen argbufLen W j) :
    ∃ k, n ≤ k ∧ ArgStop argvLen argbufLen W k ∧ (∀ j < k, ¬ ArgStop argvLen argbufLen W j) ∧
      pushAll argvLen argbufLen (argLayout W n) (W.drop n) =
        ⟨argLayout W k, if k = W.length then .kSuccess else .kFull⟩ := by
  rcases Nat.lt_or_ge n W.length with hlt | hge
  · rw [List.drop_eq_getElem_cons hlt]
    simp only [pushAll, pushToArgv_argLayout argvLen argbufLen hlt]
    by_cases hstop : argvLen ≤ n ∨ argbufLen ≤ argOffset W n
    · refine ⟨n, le_rfl, .inr hstop, hpre, ?_⟩
      simp [hstop, Error.isErr, Nat.ne_of_lt hlt]
    · obtain ⟨k, hk, hks, hmin, h⟩ := pushAll_argLayout W (n + 1) hlt fun j hj => by
        rcases Nat.lt_succ_iff_lt_or_eq.mp hj with hj | rfl
        · exact hpre j hj
        · rintro (h | h)
          · exact absurd h (Nat.ne_of_lt hlt)
          · exact hstop h
      exact ⟨k, by omega, hks, hmin, by simpa [hstop, Error.isErr] using h⟩
  · obtain rfl : n = W.length := le_antisymm hn hge
    exact ⟨W.length, le_rfl, .inl rfl, hpre, by simp [pushAll]⟩
termination_by W.length - n

/-- The pushes stop by the last string at the latest. -/
theorem le_length_of_not_argStop {k : Nat} (hmin : ∀ j < k, ¬ ArgStop argvLen argbufLen W j) :
    k ≤ W.length :=
  Nat.le_of_not_lt fun hlt => hmin W.length hlt (.inl rfl)

end Layout

/-- `MakeArgVector(command, first_arg, argv, argv_len, argbuf, argbuf_len)` pushes the
command and then the words of `first_arg` (`argStrings`) until the first `k` at which
there is no string left, `argv_len` entries are taken, or the string would start at or past
`argbuf_len`: `argv[j]` is the offset of the `j`-th string and `argbuf` holds that string
and its NUL there, for every `j < k`; `argc` is `k`, and the error is `kSuccess` exactly
when every string was pushed, `kFull` otherwise. -/
theorem makeArgVector_layout (command : List UInt8) (firstArg : Option (List UInt8))
    (argvLen argbufLen : Int) :
    ∃ k, ArgStop argvLen argbufLen (argStrings command firstArg) k ∧
      (∀ j < k, ¬ ArgStop argvLen argbufLen (argStrings command firstArg) j) ∧
      makeArgVector command firstArg argvLen argbufLen =
        ⟨argLayout (argStrings command firstArg) k,
          if k = (argStrings command firstArg).length then .kSuccess else .kFull⟩ := by
  obtain ⟨k, -, hk, hmin, h⟩ := pushAll_argLayout argvLen argbufLen
    (argStrings command firstArg) 0 (Nat.zero_le _) fun _ h => absurd h (Nat.not_lt_zero _)
  exact ⟨k, hk, hmin, by rw [makeArgVector_eq_pushAll, ← h]; rfl⟩

/-- `push_to_argv` only checks that `argbuf_index < argbuf_len`: a 6-byte command goes
into a 4-byte `argbuf`, and its copy with its NUL covers offsets `0` to `6`. -/
theorem makeArgVector_copies_past_argbuf :
    (makeArgVector [97, 98, 99, 100, 101, 102] none 32 4).error = .kSuccess ∧
      ∃ c ∈ (makeArgVector [97, 98, 99, 100, 101, 102] none 32 4).value.copies,
        (4 : Int) < c.1 + c.2.length := by
  decide

/-- At the sizes `ExecuteFile` passes, `argv_len = 32` and `argbuf_len = 4096 - 8 * 32`
(`3840`), and for a command and an argument string that take fewer than `3840` bytes with the
argument counted twice, as a line of the terminal does: `MakeArgVector` writes only
`argv[0, 32)` and `argbuf[0, 3840)`, and it reports `kFull` only when all 32 entries of
`argv` are taken, never because `argbuf` ran out. -/
theorem makeArgVector_in_frame (command : List UInt8) (firstArg : Option (List UInt8))
    (hlen : command.length + 2 * (firstArg.map List.length).getD 0 < 4096 - 8 * 32) :
    (makeArgVector command firstArg 32 (4096 - 8 * 32)).value.argv.length ≤ 32 ∧
      (∀ c ∈ (makeArgVector command firstArg 32 (4096 - 8 * 32)).value.copies,
        0 ≤ c.1 ∧ c.1 + c.2.length ≤ 4096 - 8 * 32) ∧
      ((makeArgVector command firstArg 32 (4096 - 8 * 32)).error = .kFull →
        (makeArgVector command firstArg 32 (4096 - 8 * 32)).value.argv.length = 32) := by
  set W := argStrings command firstArg
  have htotal : argOffset W W.length < 4096 - 8 * 32 + 1 := by
    rw [argOffset_length]
    cases firstArg with
    | none => simp only [W, argStrings, Option.map_none', Option.getD_none] at hlen ⊢; simp; omega
    | some p =>
      have := sum_argWords_le p
      simp only [W, argStrings, Option.map_some', Option.getD_some] at hlen ⊢
      simp only [List.map_cons, List.sum_cons]
      omega
  obtain ⟨k, -, hstop, hmin, h⟩ := pushAll_argLayout 32 (4096 - 8 * 32) W 0 (Nat.zero_le _)
    fun _ h => absurd h (Nat.not_lt_zero _)
  have hkW := le_length_of_not_argStop _ _ hmin
  have hk32 : k ≤ 32 := Nat.le_of_not_lt fun hlt => hmin 32 hlt (.inr (.inl le_rfl))
  have hm : makeArgVector command firstArg 32 (4096 - 8 * 32) =
      ⟨argLayout W k, if k = W.length then .kSuccess else .kFull⟩ := by
    rw [makeArgVector_eq_pushAll]
    exact h
  have hlen_argv : (argLayout W k).argv.length = k := by simp [argLayout]
  rw [hm]
  refine ⟨by rw [hlen_argv]; exact hk32, fun c hc => ?_, fun hfull => ?_⟩
  · obtain ⟨j, hj, rfl⟩ := List.mem_map.mp hc
    have hj' : j < W.length := by have := List.mem_range.mp hj; omega
    have hend := argOffset_add_le (W := W) hj' le_rfl
    have h0 : 0 ≤ argOffset W j := Int.natCast_nonneg _
    simp only [List.length_append, List.length_singleton, Nat.cast_add, Nat.cast_one]
    omega
  · have hne : k ≠ W.length := fun he => by simp [he] at hfull
    rw [hlen_argv]
    rcases hstop with hk | hk | hk
    · exact absurd hk hne
    · omega
    · have := argOffset_add_le (W := W) (show k < W.length by omega) le_rfl
      omega

/-- The line `ls / -l`: its command and the words of its argument land inside the frame. -/
theorem makeArgVector_in_frame_ls :
    [108, 115].length + 2 * ((some [47, 32, 45, 108]).map List.length).getD 0 < 4096 - 8 * 32 ∧
      ((makeArgVector [108, 115] (some [47, 32, 45, 108]) 32 (4096 - 8 * 32)).value.argv.length ≤
          32 ∧
        (∀ c ∈ (makeArgVector [108, 115] (some [47, 32, 45, 108]) 32 (4096 - 8 * 32)).value.copies,
          0 ≤ c.1 ∧ c.1 + c.2.length ≤ 4096 - 8 * 32) ∧
        ((makeArgVector [108, 115] (some [47, 32, 45, 108]) 32 (4096 - 8 * 32)).error = .kFull →
          (makeArgVector [108, 115] (some [47, 32, 45, 108]) 32 (4096 - 8 * 32)).value.argv.length =
            32)) :=
  ⟨by decide, makeArgVector_in_frame _ _ (by decide)⟩

/-- When the strings with their NULs fit in `argbuf` and `argv` has an entry for each,
`MakeArgVector` pushes them all, reports `kSuccess`, and copies nothing outside `argbuf`. -/
theorem makeArgVector_fits (command : List UInt8) (firstArg : Option (List UInt8))
    (argvLen argbufLen : Int) (hv : ((argStrings command firstArg).length : Int) ≤ argvLen)
    (hb : argOffset (argStrings command firstArg) (argStrings command firstArg).length ≤
      argbufLen) :
    (makeArgVector command firstArg argvLen argbufLen).error = .kSuccess ∧
      (makeArgVector command firstArg argvLen argbufLen).value.argc =
        (argStrings command firstArg).length ∧
      ∀ c ∈ (makeArgVector command firstArg argvLen argbufLen).value.copies,
        0 ≤ c.1 ∧ c.1 + c.2.length ≤ argbufLen := by
  set W := argStrings command firstArg
  obtain ⟨k, -, hstop, hmin, h⟩ := pushAll_argLayout argvLen argbufLen W 0 (Nat.zero_le _)
    fun _ h => absurd h (Nat.not_lt_zero _)
  have hk : k = W.length := by
    have hle := le_length_of_not_argStop _ _ hmin
    rcases hstop with hk | hk | hk
    · exact hk
    · omega
    · by_contra hne
      have := argOffset_add_le (W := W) (show k < W.length by omega) le_rfl
      omega
  have hm : makeArgVector command firstArg argvLen argbufLen =
      ⟨argLayout W W.length, .kSuccess⟩ := by
    rw [makeArgVector_eq_pushAll]
    exact h.trans (by rw [hk, if_pos rfl])
  rw [hm]
  refine ⟨rfl, by simp [argLayout], fun c hc => ?_⟩
  obtain ⟨j, hj, rfl⟩ := List.mem_map.mp hc
  have hj' : j < W.length := List.mem_range.mp hj
  have hend := argOffset_add_le (W := W) hj' le_rfl
  have h0 : 0 ≤ argOffset W j := Int.natCast_nonneg _
  simp only [List.length_append, List.length_singleton, Nat.cast_add, Nat.cast_one]
  omega

theorem makeArgVector_fits_ls :
    ((argStrings [108, 115] (some [32, 47])).length : Int) ≤ 32 ∧
      argOffset (argStrings [108, 115] (some [32, 47]))
          (argStrings [108, 115] (some [32, 47])).length ≤ 1024 ∧
      ((makeArgVector [108, 115] (some [32, 47]) 32 1024).error = .kSuccess ∧
        (makeArgVector [108, 115] (some [32, 47]) 32 1024).value.argc =
          (argStrings [108, 115] (some [32, 47])).length ∧
        ∀ c ∈ (makeArgVector [108, 115] (some [32, 47]) 32 1024).value.copies,
          0 ≤ c.1 ∧ c.1 + c.2.length ≤ 1024) :=
  ⟨by decide, by decide, makeArgVector_fits _ _ 32 1024 (by decide) (by decide)⟩

/-! ## What the program reads from `argv` -/

/-- `strcpy` of a string, with its NUL, at an offset of `argbuf`, whose bytes were `mem`. -/
def writeCopy (mem : Int → UInt8) (c : Int × List UInt8) : Int → UInt8 :=
  fun a => if c.1 ≤ a ∧ a < c.1 + c.2.length then c.2.getD (a - c.1).toNat 0 else mem a

/-- `argbuf` after the copies `MakeArgVector` made, in order, over the bytes `mem` it held. -/
def writeCopies (mem : Int → UInt8) (copies : List (Int × List UInt8)) : Int → UInt8 :=
  copies.foldl writeCopy mem

/-- A program reading the C string at offset `a` of `argbuf`, reading at most `n` bytes: the
bytes before the first NUL, `none` when it finds none. -/
def readCString (mem : Int → UInt8) : Int → Nat → Option (List UInt8)
  | _, 0 => none
  | a, n + 1 => if mem a = 0 then some [] else (readCString mem (a + 1) n).map (mem a :: ·)

/-- The words of an argument string are made of its bytes. -/
theorem subset_of_mem_splitOnP (q : UInt8 → Bool) :
    ∀ (xs : List UInt8), ∀ w ∈ xs.splitOnP q, w ⊆ xs
  | [] => by simp
  | x :: xs => by
    have ih := subset_of_mem_splitOnP q xs
    rw [List.splitOnP_cons]
    split
    · intro w hw
      rcases List.mem_cons.mp hw with rfl | hw
      · exact List.nil_subset _
      · exact (ih w hw).trans (List.subset_cons_self x xs)
    · obtain ⟨h, t, ht⟩ := List.exists_cons_of_ne_nil (List.splitOnP_ne_nil q xs)
      rw [ht] at ih ⊢
      intro w hw
      rcases List.mem_cons.mp hw with rfl | hw
      · exact List.cons_subset_cons x (ih h (List.mem_cons_self h t))
      · exact (ih w (List.mem_cons_of_mem h hw)).trans (List.subset_cons_self x xs)

/-- The strings pushed hold no NUL when the command and the argument are C strings. -/
theorem zero_not_mem_argStrings {command : List UInt8} {firstArg : Option (List UInt8)}
    (hc : 0 ∉ command) (ha : ∀ p ∈ firstArg, 0 ∉ p) :
    ∀ w ∈ argStrings command firstArg, 0 ∉ w := by
  intro w hw
  rcases List.mem_cons.mp hw with rfl | hw
  · exact hc
  · cases firstArg with
    | none => simp at hw
    | some p =>
      simp only [Option.map_some', Option.getD_some, argWords, List.mem_filter] at hw
      exact fun h0 => ha p rfl (subset_of_mem_splitOnP isspace p w hw.1 h0)

/-- A C string laid out with its NUL from `a` on is read back whole. -/
theorem readCString_of_bytes {mem : Int → UInt8} {s : List UInt8} (h0 : 0 ∉ s) :
    ∀ a : Int, (∀ i ≤ s.length, mem (a + i) = (s ++ [0]).getD i 0) →
      readCString mem a (s.length + 1) = some s := by
  induction s with
  | nil =>
    intro a h
    simp [readCString, by simpa using h 0 le_rfl]
  | cons c s ih =>
    intro a h
    have hc : mem a = c := by simpa using h 0 (Nat.zero_le _)
    have hrest := ih (fun h' => h0 (List.mem_cons_of_mem c h')) (a + 1) fun i hi => by
      simpa [add_assoc, add_comm (1 : Int)] using h (i + 1) (by simp; omega)
    have hne : c ≠ 0 := fun h' => h0 (h' ▸ List.mem_cons_self c s)
    show readCString mem a ((s.length + 1) + 1) = some (c :: s)
    rw [readCString, hc, if_neg hne, hrest]
    rfl

/-- In the `argbuf` of the layout of the first `k` strings, the `j`-th string and its NUL
are at its offset: the later copies start past them. -/
theorem writeCopies_argLayout (mem : Int → UInt8) {W : List (List UInt8)} :
    ∀ {k : Nat}, k ≤ W.length → ∀ {j : Nat}, j < k → ∀ {a : Int}, argOffset W j ≤ a →
      a ≤ argOffset W j + (W.getD j []).length →
      writeCopies mem (argLayout W k).copies a =
        (W.getD j [] ++ [0]).getD (a - argOffset W j).toNat 0
  | 0, _, _, hj, _, _, _ => absurd hj (Nat.not_lt_zero _)
  | k + 1, hk, j, hj, a, ha, ha' => by
    simp only [argLayout, List.range_succ, List.map_append, List.map_cons, List.map_nil,
      writeCopies, List.foldl_append, List.foldl_cons, List.foldl_nil]
    rcases Nat.lt_succ_iff_lt_or_eq.mp hj with hj | rfl
    · have hnext := argOffset_add_le (W := W) hj (by omega)
      rw [writeCopy, if_neg (by omega)]
      exact writeCopies_argLayout mem (by omega) hj ha ha'
    · rw [writeCopy, if_pos (by simp only [List.length_append, List.length_singleton]; omega)]

/-- A program reading `argv[j]` as a C string, for each `j < argc`, reads the `j`-th
string pushed: the command, then the words of `first_arg`, each whole and with nothing of
the next, whatever `argbuf` held before. -/
theorem makeArgVector_argv_reads_back (command : List UInt8) (firstArg : Option (List UInt8))
    (argvLen argbufLen : Int) (hc : 0 ∉ command) (ha : ∀ p ∈ firstArg, 0 ∉ p)
    (mem : Int → UInt8) :
    (makeArgVector command firstArg argvLen argbufLen).value.argc =
        (makeArgVector command firstArg argvLen argbufLen).value.argv.length ∧
      ∀ j < (makeArgVector command firstArg argvLen argbufLen).value.argv.length,
        readCString
            (writeCopies mem (makeArgVector command firstArg argvLen argbufLen).value.copies)
          ((makeArgVector command firstArg argvLen argbufLen).value.argv.getD j 0)
          (((argStrings command firstArg).getD j []).length + 1) =
        some ((argStrings command firstArg).getD j []) := by
  set W := argStrings command firstArg
  obtain ⟨k, -, -, hmin, h⟩ := pushAll_argLayout argvLen argbufLen W 0 (Nat.zero_le _)
    fun _ h => absurd h (Nat.not_lt_zero _)
  have hk := le_length_of_not_argStop _ _ hmin
  have hv : (makeArgVector command firstArg argvLen argbufLen).value = argLayout W k := by
    rw [makeArgVector_eq_pushAll]
    exact congrArg WithError.value h
  have hlen : (argLayout W k).argv.length = k := by simp [argLayout]
  rw [hv]
  refine ⟨by simp [argLayout], fun j hj => ?_⟩
  have hjk : j < k := hlen ▸ hj
  have hoff : (argLayout W k).argv.getD j 0 = argOffset W j := by simp [argLayout, hjk]
  have hW : 0 ∉ W.getD j [] := zero_not_mem_argStrings hc ha _
    (List.getD_eq_getElem W [] (show j < W.length by omega) ▸ List.getElem_mem _)
  rw [hoff]
  refine readCString_of_bytes hW _ fun i hi => ?_
  rw [writeCopies_argLayout mem hk hjk (by omega) (by omega)]
  congr 1
  omega

theorem makeArgVector_argv_reads_back_ls :
    (0 : UInt8) ∉ [108, 115] ∧ (∀ p ∈ some [32, 47, 32, 97], (0 : UInt8) ∉ p) ∧
      ((makeArgVector [108, 115] (some [32, 47, 32, 97]) 32 1024).value.argc =
          (makeArgVector [108, 115] (some [32, 47, 32, 97]) 32 1024).value.argv.length ∧
        ∀ j < (makeArgVector [108, 115] (some [32, 47, 32, 97]) 32 1024).value.argv.length,
          readCString (writeCopies (fun _ => 0xff)
              (makeArgVector [108, 115] (some [32, 47, 32, 97]) 32 1024).value.copies)
            ((makeArgVector [108, 115] (some [32, 47, 32, 97]) 32 1024).value.argv.getD j 0)
            (((argStrings [108, 115] (some [32, 47, 32, 97])).getD j []).length + 1) =
          some ((argStrings [108, 115] (some [32, 47, 32, 97])).getD j [])) :=
  ⟨by decide, by decide,
    makeArgVector_argv_reads_back _ _ 32 1024 (by decide) (by decide) fun _ => 0xff⟩

end HonOS
