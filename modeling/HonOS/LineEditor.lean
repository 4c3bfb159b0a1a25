/-
# The line editor stays in bounds

The states a `Terminal` with a window reaches from its constructor through `InputKey`
calls, with `ExecuteLine` run on each `'\n'` and whatever its commands print, keep two
invariants:

* `LineInv`: `cmd_history_` holds eight NUL-terminated entries of `kLineMax` bytes, the last
  eight non-empty lines entered, newest first, then empty strings; `cmd_history_index_` is in
  `[-1, 7]`; `linebuf_index_` is in `[0, kLineMax - 1]` with no NUL before it. Every array
  access and C-string call of `InputKey`, `HistoryUpDown` and `ExecuteLine` then stays in
  bounds: `inputKey` never returns `none`.
* `CursorInv`: the cursor is in the text grid, so `Print(char32_t)` writes every glyph
  inside it (`GlyphInGrid`).

Both come from `EditorInv`, which adds what ties the line to the cursor: the typed line is
no longer than the cursor column, and every line entered is shorter than `kColumns`, so a
line `HistoryUpDown` brings back leaves the cursor in the grid.

Main results: `reach_lineInv_inputKey_isSome`, `reach_cursor_in_grid`, and
`Reach.pressUp_recalls_entered`: right after a line is entered, `n` up arrows bring back the
`n`-th most recent non-empty line; `Reach.backspace_undoes_type`: `'\b'` right after a
typed character brings the line, the cursor and the history back.
-/
import HonOS.Terminal

namespace HonOS

namespace Terminal

variable (cfg : TermConfig) (isHankaku : UInt32 → Bool)

/-! ## The history the lines make -/

/-- What `cmd_history_` holds, as C strings, after the non-empty lines `lines` (newest
first): the first eight of them, then empty strings. -/
def historyView (lines : List (List UInt8)) : List (List UInt8) :=
  (lines ++ List.replicate 8 []).take 8

theorem length_historyView (lines : List (List UInt8)) : (historyView lines).length = 8 := by
  simp [historyView]

/-- Pushing a line to the front drops the oldest entry. -/
theorem historyView_cons (l : List UInt8) (lines : List (List UInt8)) :
    historyView (l :: lines) = l :: (historyView lines).dropLast := by
  simp only [historyView, List.cons_append, List.take_succ_cons, List.dropLast_eq_take,
    List.take_take, List.length_take, List.length_append, List.length_replicate]
  congr 2
  omega

/-- The first eight entries are the first eight lines, or empty. -/
theorem historyView_getD (lines : List (List UInt8)) {m : Nat} (hm : m < 8) :
    (historyView lines).getD m [] = lines.getD m [] := by
  rw [historyView, List.getD_eq_getElem?_getD, List.getD_eq_getElem?_getD,
    List.getElem?_take_of_lt hm]
  rcases lt_or_ge m lines.length with h | h
  · rw [List.getElem?_append_left h]
  · rw [List.getElem?_append_right h, List.getElem?_eq_none h, List.getElem?_replicate]
    split <;> rfl

theorem mem_historyView {ℓ : List UInt8} {lines : List (List UInt8)}
    (h : ℓ ∈ historyView lines) : ℓ ∈ lines ∨ ℓ = [] := by
  simpa [List.mem_replicate] using List.mem_of_mem_take h

/-! ## The invariants -/

/-- The invariant of `linebuf_` and `cmd_history_` after the lines `entered` (newest first,
each as `linebuf_[0, linebuf_index_)` was at its `'\n'`). -/
structure LineInv (t : Terminal) (entered : List (List UInt8)) : Prop where
  linebuf_length : t.linebuf.length = cfg.kLineMax
  entry_length : ∀ e ∈ t.cmdHistory, e.length = cfg.kLineMax
  history : t.cmdHistory.map cstr? = (historyView (entered.filter (· ≠ []))).map some
  historyIndex_ge : -1 ≤ t.cmdHistoryIndex
  historyIndex_le : t.cmdHistoryIndex ≤ 7
  linebufIndex_nonneg : 0 ≤ t.linebufIndex
  linebufIndex_le : t.linebufIndex ≤ cfg.kLineMax - 1
  prefix_no_nul : 0 ∉ t.linebuf.take t.linebufIndex.toNat

/-- The cursor is in the text grid. -/
structure CursorInv (t : Terminal) : Prop where
  x_nonneg : 0 ≤ t.cursor.x
  x_le : t.cursor.x ≤ cfg.kColumns
  y_nonneg : 0 ≤ t.cursor.y
  y_le : t.cursor.y ≤ cfg.kRows - 1

/-- A glyph `c` written at the cursor of `t` lies in the grid: a half-width one starts at a
column below `kColumns`, a full-width one at a column at most `kColumns - 2`. -/
def GlyphInGrid (t : Terminal) (c : UInt32) : Prop :=
  0 ≤ t.cursor.x ∧
    (if isHankaku c then t.cursor.x < cfg.kColumns else t.cursor.x ≤ cfg.kColumns - 2) ∧
    0 ≤ t.cursor.y ∧ t.cursor.y ≤ cfg.kRows - 1

instance (t : Terminal) (c : UInt32) : Decidable (GlyphInGrid cfg isHankaku t c) :=
  inferInstanceAs (Decidable (_ ∧ _))

/-- What ties the line to the cursor, on top of `LineInv` and `CursorInv`: the typed line
is no longer than the cursor column, and every line entered is shorter than `kColumns`; and
the terminal has a window, as every terminal that receives key messages does. -/
structure EditorInv (t : Terminal) (entered : List (List UInt8)) : Prop where
  line : LineInv cfg t entered
  cursor : CursorInv cfg t
  linebufIndex_le_x : t.linebufIndex ≤ t.cursor.x
  linebufIndex_lt : t.linebufIndex < cfg.kColumns
  entered_lt : ∀ l ∈ entered, l.length < cfg.kColumns
  window : t.showWindow = true

/-! ## `Print` keeps the cursor in the grid -/

section Print

variable {cfg}
variable {t : Terminal}

theorem CursorInv.newline (h : CursorInv cfg t) : CursorInv cfg (t.newline cfg) := by
  obtain ⟨_, _, _, _⟩ := h
  unfold Terminal.newline
  split_ifs <;> constructor <;> dsimp only <;> omega

/-- From a cursor in the grid, `Print(char32_t)` writes its glyph in the grid. -/
theorem CursorInv.wrapFor (h : CursorInv cfg t) (c : UInt32) :
    GlyphInGrid cfg isHankaku (t.wrapFor cfg isHankaku c) c := by
  have hn := h.newline
  obtain ⟨_, _, _, _⟩ := h
  have := cfg.two_le_kColumns
  unfold Terminal.wrapFor GlyphInGrid
  split_ifs <;> first
    | exact ⟨hn.x_nonneg, by simp [Terminal.newline]; omega, hn.y_nonneg, hn.y_le⟩
    | exact ⟨‹_›, by omega, ‹_›, ‹_›⟩

theorem CursorInv.printChar (h : CursorInv cfg t) (c : UInt32) :
    CursorInv cfg (t.printChar cfg isHankaku c) := by
  have hg : GlyphInGrid cfg isHankaku (t.wrapFor cfg isHankaku c) c := h.wrapFor isHankaku c
  obtain ⟨_, hx, _, _⟩ := hg
  unfold Terminal.printChar
  split_ifs with hw h10 hk
  · exact h
  · exact h.newline
  · rw [if_pos hk] at hx
    constructor <;> dsimp only <;> omega
  · rw [if_neg hk] at hx
    constructor <;> dsimp only <;> omega

theorem CursorInv.printString (h : CursorInv cfg t) (cs : List UInt32) :
    CursorInv cfg (t.printString cfg isHankaku cs) := by
  induction cs generalizing t with
  | nil => exact h
  | cons c cs ih => exact ih (h.printChar isHankaku c)

end Print

/-! ## `ExecuteLine` changes the line buffer and the cursor -/

section ExecuteLine

theorem runCommand_spec (env : LineEnv) (t : Terminal) (command : List UInt8)
    (firstArg : Option Nat) (arg : Option (List UInt8)) :
    (runCommand cfg isHankaku env t command firstArg arg).1 =
        { t with cursor := (runCommand cfg isHankaku env t command firstArg arg).1.cursor } ∧
      (CursorInv cfg t →
        CursorInv cfg (runCommand cfg isHankaku env t command firstArg arg).1) := by
  unfold runCommand
  split_ifs
  · cases arg <;> dsimp only <;> exact ⟨Terminal.ext (by simp) (by simp) (by simp) (by simp)
      (by simp) (by simp), fun h => by first | exact h.printString isHankaku _ |
        exact (h.printString isHankaku _).printString isHankaku _⟩
  · refine ⟨rfl, fun ⟨_, _, _, _⟩ => ?_⟩
    have := cfg.one_le_kRows
    constructor <;> dsimp only <;> omega
  · exact ⟨rfl, id⟩
  · exact ⟨Terminal.ext (by simp) (by simp) (by simp) (by simp) (by simp) (by simp),
      fun h => h.printString isHankaku _⟩
  · exact ⟨rfl, id⟩

/-- `ExecuteLine` on a line with a space: the command before it, the argument after it. -/
theorem executeLine_of_space (env : LineEnv) (t : Terminal) {cmd rest : List UInt8}
    (hbuf : t.linebuf = cmd ++ 32 :: rest) (h32 : 32 ∉ cmd) (h0 : 0 ∉ cmd) :
    t.executeLine cfg isHankaku env = (cstr? rest).map fun a =>
      runCommand cfg isHankaku env { t with linebuf := cmd ++ 0 :: rest } cmd
        (some (cmd.length + 1)) (some a) := by
  have hset : t.linebuf.set cmd.length 0 = cmd ++ 0 :: rest := by simp [hbuf]
  simp [executeLine, hbuf ▸ strchr?_append_cons h32 h0 rest, hset, cstr?_append_zero h0]
  rfl

/-- `ExecuteLine` on a line with no space: the whole line is the command, and `first_arg`
is null. -/
theorem executeLine_of_no_space (env : LineEnv) (t : Terminal) {cmd rest : List UInt8}
    (hbuf : t.linebuf = cmd ++ 0 :: rest) (h32 : 32 ∉ cmd) (h0 : 0 ∉ cmd) :
    t.executeLine cfg isHankaku env = some (runCommand cfg isHankaku env t cmd none none) := by
  simp [executeLine, hbuf, strchr?_append_zero h32 h0 (by decide), cstr?_append_zero h0]
  rw [← hbuf]

/-- `clear` and `noterm` leave the line buffer and the cursor's column as they are. -/
theorem runCommand_noterm (env : LineEnv) (t : Terminal) (firstArg : Option Nat)
    (arg : Option (List UInt8)) :
    runCommand cfg isHankaku env t (ascii "noterm") firstArg arg = (t, [firstArg]) := by
  unfold runCommand
  rw [if_neg (by decide), if_neg (by decide), if_pos rfl]

/-- On a line buffer that holds a NUL, `ExecuteLine` returns, and changes only the line
buffer (keeping its size) and the cursor (keeping it in the grid). -/
theorem executeLine_spec (env : LineEnv) (t : Terminal) (h0 : 0 ∈ t.linebuf) :
    ∃ r L, t.executeLine cfg isHankaku env = some r ∧ L.length = t.linebuf.length ∧
      r.1 = { t with linebuf := L, cursor := r.1.cursor } ∧
      (CursorInv cfg t → CursorInv cfg r.1) := by
  rcases strchr?_cases h0 (by decide : (32 : UInt8) ≠ 0) with
    ⟨s, r, hbuf, h32, hs0, -⟩ | ⟨s, r, hbuf, -, hs0, hch⟩
  · -- a space at `s.length`: the argument is the C string after it
    have hr0 : 0 ∈ r := by
      have : (0 : UInt8) ∈ s ++ 32 :: r := hbuf ▸ h0
      simpa [hs0] using this
    obtain ⟨a, -, -, -, ha⟩ := exists_cstr?_of_mem hr0
    obtain ⟨hcur, hinv⟩ := runCommand_spec cfg isHankaku env { t with linebuf := s ++ 0 :: r }
      s (some (s.length + 1)) (some a)
    refine ⟨_, s ++ 0 :: r, ?_, by simp [hbuf], hcur, fun h => hinv ⟨h.1, h.2, h.3, h.4⟩⟩
    rw [executeLine_of_space cfg isHankaku env t hbuf h32 hs0, ha, Option.map_some']
  · -- no space before the NUL: no argument
    obtain ⟨hcur, hinv⟩ := runCommand_spec cfg isHankaku env t s none none
    have hc : cstr? t.linebuf = some s := hbuf ▸ cstr?_append_zero hs0 r
    refine ⟨_, t.linebuf, ?_, rfl, hcur, hinv⟩
    simp [executeLine, hch, hc]

end ExecuteLine

/-! ## `InputKey` keeps the invariants -/

section Steps

variable {cfg}
variable {t : Terminal} {entered : List (List UInt8)}

theorem LineInv.length_cmdHistory (h : LineInv cfg t entered) : t.cmdHistory.length = 8 := by
  simpa [length_historyView] using congrArg List.length h.history

/-- An entry of the history is a line entered, or the empty string, and its NUL. -/
theorem LineInv.getElem?_cmdHistory (h : LineInv cfg t entered) {n : Nat} (hn : n < 8) :
    ∃ ℓ r, t.cmdHistory[n]? = some (ℓ ++ 0 :: r) ∧ 0 ∉ ℓ ∧ ℓ.length < cfg.kLineMax ∧
      (ℓ ∈ entered ∨ ℓ = []) := by
  have hlen := h.length_cmdHistory
  have hget : t.cmdHistory[n]? = some t.cmdHistory[n] := List.getElem?_eq_getElem (by omega)
  have hview := congrArg (·[n]?) h.history
  simp only [List.getElem?_map, hget, Option.map_some] at hview
  obtain ⟨ℓ, hℓ, hc⟩ := Option.map_eq_some'.mp hview.symm
  obtain ⟨h0, r, he⟩ := cstr?_eq_some_iff.mp hc.symm
  have hel := h.entry_length _ (List.getElem_mem (by omega : n < t.cmdHistory.length))
  rw [he] at hel
  refine ⟨ℓ, r, he ▸ hget, h0, by simp at hel; omega, ?_⟩
  rcases mem_historyView (List.getElem?_mem hℓ) with hm | hm
  · exact .inl (List.mem_of_mem_filter hm)
  · exact .inr hm

/-- The line pushed at a `'\n'` goes to the front of the history when it is not empty. -/
theorem LineInv.push (h : LineInv cfg t entered) {L s : List UInt8}
    (hL : L.length = cfg.kLineMax) (hs : cstr? L = some s) (hpos : t.linebufIndex > 0 ↔ s ≠ []) :
    ∃ H, (if t.linebufIndex > 0 then
        (if t.cmdHistory = [] then none else some (L :: t.cmdHistory.dropLast))
      else some t.cmdHistory) = some H ∧
      H.map cstr? = (historyView ((s :: entered).filter (· ≠ []))).map some ∧
      ∀ e ∈ H, e.length = cfg.kLineMax := by
  by_cases hp : t.linebufIndex > 0
  · have hne : t.cmdHistory ≠ [] := by
      intro he
      simpa [he] using h.length_cmdHistory
    refine ⟨L :: t.cmdHistory.dropLast, by simp [hp, hne], ?_, ?_⟩
    · simp [List.filter_cons, hpos.mp hp, historyView_cons, hs, h.history]
    · intro e he
      rcases List.mem_cons.mp he with rfl | he
      · exact hL
      · exact h.entry_length e (List.dropLast_subset _ he)
  · have hs0 : s = [] := by simpa [hp] using hpos.not
    exact ⟨t.cmdHistory, by simp [hp], by simpa [hs0] using h.history, h.entry_length⟩

theorem EditorInv.historyUpDown (h : EditorInv cfg t entered) (direction : Int) :
    ∃ t', t.historyUpDown direction = some t' ∧ EditorInv cfg t' entered := by
  obtain ⟨hl, hc, -, -, hent, hw⟩ := h
  have hidx : -1 ≤ t.historyIndex direction ∧ t.historyIndex direction ≤ 7 := by
    have h8 := hl.length_cmdHistory
    have := hl.historyIndex_ge
    have := hl.historyIndex_le
    have hs : toSizeT (t.cmdHistoryIndex + 1) = (t.cmdHistoryIndex + 1).toNat :=
      toSizeT_of_nonneg (by omega) (by omega)
    unfold historyIndex
    split_ifs <;> omega
  obtain ⟨ℓ, r, hget, h0, hlen, hmem⟩ : ∃ ℓ r,
      (if t.historyIndex direction ≥ 0 then t.cmdHistory[(t.historyIndex direction).toNat]?
        else some [0]) = some (ℓ ++ 0 :: r) ∧ 0 ∉ ℓ ∧ ℓ.length < cfg.kLineMax ∧
        (ℓ ∈ entered ∨ ℓ = []) := by
    split_ifs
    · exact hl.getElem?_cmdHistory (by omega)
    · exact ⟨[], [], rfl, by simp, cfg.one_le_kLineMax, .inr rfl⟩
  have hcol : ℓ.length < cfg.kColumns := by
    rcases hmem with hm | rfl
    · exact hent ℓ hm
    · have := cfg.two_le_kColumns
      simp only [List.length_nil]
      omega
  have hbuf := hl.linebuf_length
  refine ⟨{ t with
    cmdHistoryIndex := t.historyIndex direction
    linebuf := ℓ ++ 0 :: t.linebuf.drop (ℓ.length + 1)
    linebufIndex := ℓ.length
    cursor := { t.cursor with x := ℓ.length + 1 } }, ?_, ?_⟩
  · simp only [Terminal.historyUpDown, hget, Option.some_bind,
      strcpy?_append_zero h0 r (by omega : ℓ.length < t.linebuf.length), strlen?_append_zero h0,
      Option.map_some']
  · obtain ⟨_, _, _, _⟩ := hc
    refine ⟨⟨by simp; omega, hl.entry_length, hl.history, hidx.1, hidx.2, ?_, ?_,
      by simpa using h0⟩, ⟨?_, ?_, ‹_›, ‹_›⟩, ?_, ?_, hent, hw⟩ <;> dsimp only <;> omega

/-- `LineInv` reads only the line buffer, its index and the history. -/
theorem LineInv.of_eq {t' : Terminal} (h : LineInv cfg t entered) (hb : t'.linebuf = t.linebuf)
    (hi : t'.linebufIndex = t.linebufIndex) (hh : t'.cmdHistory = t.cmdHistory)
    (hhi : t'.cmdHistoryIndex = t.cmdHistoryIndex) : LineInv cfg t' entered :=
  ⟨hb ▸ h.1, hh ▸ h.2, hh ▸ h.3, hhi ▸ h.4, hhi ▸ h.5, hi ▸ h.6, hi ▸ h.7, hb ▸ hi ▸ h.8⟩

/-- While the line is empty, `EditorInv` asks of a new cursor only that it is in the grid. -/
theorem EditorInv.of_cursor {t' : Terminal} (h : EditorInv cfg t entered)
    (h0 : t.linebufIndex = 0) (hc : CursorInv cfg t') (hb : t'.linebuf = t.linebuf)
    (hi : t'.linebufIndex = t.linebufIndex) (hh : t'.cmdHistory = t.cmdHistory)
    (hhi : t'.cmdHistoryIndex = t.cmdHistoryIndex) (hw : t'.showWindow = t.showWindow) :
    EditorInv cfg t' entered :=
  ⟨h.line.of_eq hb hi hh hhi, hc, by rw [hi, h0]; exact hc.x_nonneg, hi ▸ h.linebufIndex_lt,
    h.entered_lt, hw.trans h.window⟩

/-- Printing keeps the invariant while the line is empty, as it is whenever `InputKey` and
the constructor print. -/
theorem EditorInv.printString (h : EditorInv cfg t entered) (h0 : t.linebufIndex = 0)
    (cs : List UInt32) : EditorInv cfg (t.printString cfg isHankaku cs) entered :=
  h.of_cursor h0 (h.cursor.printString isHankaku cs) (by simp) (by simp) (by simp) (by simp)
    (by simp)

/-- The new line of a `'\n'` keeps the invariant while the line is empty. -/
theorem EditorInv.newline (h : EditorInv cfg t entered) (h0 : t.linebufIndex = 0) :
    EditorInv cfg (t.newline cfg) entered :=
  h.of_cursor h0 h.cursor.newline rfl rfl rfl rfl rfl

/-- `ExecuteLine` on an empty line buffer index (as `InputKey` calls it) returns and keeps
the invariant. -/
theorem EditorInv.executeLine (h : EditorInv cfg t entered) (h0 : t.linebufIndex = 0)
    (env : LineEnv) (hnul : 0 ∈ t.linebuf) :
    ∃ r, t.executeLine cfg isHankaku env = some r ∧ r.1.linebufIndex = 0 ∧
      EditorInv cfg r.1 entered := by
  obtain ⟨r, L, hr, hL, hr1, hrc⟩ := executeLine_spec cfg isHankaku env t hnul
  obtain ⟨hl, hc, -, hic, hent, hw⟩ := h
  have hc' := hrc hc
  refine ⟨r, hr, ?_⟩
  rw [hr1] at hc' ⊢
  exact ⟨h0, ⟨hL.trans hl.1, hl.2, hl.3, hl.4, hl.5, hl.6, hl.7, by simp [h0]⟩, hc',
    by simpa [h0] using hc'.x_nonneg, hic, hent, hw⟩

/-- A `'\n'` NUL-terminates the line, pushes it to the history when it is not empty and
starts a new line: the terminal `ExecuteLine` then runs on keeps the invariant with the line
pushed to `entered`. -/
theorem EditorInv.endLine (h : EditorInv cfg t entered) (env : LineEnv) (modifier keycode : UInt8) :
    ∃ t₁, EditorInv cfg t₁ (t.linebuf.take t.linebufIndex.toNat :: entered) ∧
      t₁.linebufIndex = 0 ∧
      t₁.linebuf =
        t.linebuf.take t.linebufIndex.toNat ++ 0 :: t.linebuf.drop (t.linebufIndex.toNat + 1) ∧
      t.inputKey cfg isHankaku env modifier keycode 10 = (t₁.executeLine cfg isHankaku env).map
        fun r => (r.1.printString cfg isHankaku (env.decode (ascii ">")), r.2) := by
  obtain ⟨hl, hc, -, hic, hent, hw⟩ := h
  have hi : (t.linebufIndex.toNat : Int) = t.linebufIndex :=
    Int.toNat_of_nonneg hl.linebufIndex_nonneg
  have hlen := hl.linebuf_length
  have hlt : t.linebufIndex.toNat < t.linebuf.length := by
    have := hl.linebufIndex_le; omega
  set s := t.linebuf.take t.linebufIndex.toNat with hs
  set L := s ++ 0 :: t.linebuf.drop (t.linebufIndex.toNat + 1) with hL
  have harr : arraySet? t.linebuf t.linebufIndex 0 = some L := by
    rw [arraySet?_of_lt hl.linebufIndex_nonneg (by omega), List.set_eq_take_append_cons_drop,
      if_pos hlt]
  have hslen : s.length = t.linebufIndex.toNat := by simp [hs]; omega
  have hLlen : L.length = cfg.kLineMax := by simp [hL, hslen]; omega
  have hpos : t.linebufIndex > 0 ↔ s ≠ [] := by
    rw [ne_eq, ← List.length_eq_zero, hslen]; omega
  obtain ⟨H, hH, hHview, hHlen⟩ := hl.push hLlen (cstr?_append_zero hl.prefix_no_nul _) hpos
  -- `linebuf_[linebuf_index_] = 0`, the history push, `linebuf_index_ = 0`,
  -- `cmd_history_index_ = -1`
  have h₁ : EditorInv cfg { t with
      linebuf := L
      cmdHistory := H
      linebufIndex := 0
      cmdHistoryIndex := -1 } (s :: entered) := by
    have := cfg.one_le_kLineMax
    refine ⟨⟨hLlen, hHlen, hHview, by simp, by simp, le_rfl, by simp; omega, by simp⟩,
      ⟨hc.1, hc.2, hc.3, hc.4⟩, hc.x_nonneg, by simp; omega, ?_, hw⟩
    intro l hl
    rcases List.mem_cons.mp hl with rfl | hl
    · omega
    · exact hent l hl
  exact ⟨_, h₁.newline rfl, rfl, rfl, by simp [Terminal.inputKey, harr, hH, hw]⟩

/-- A `'\n'` returns, and keeps the invariant with the line it ends pushed to `entered`. -/
theorem EditorInv.enter (h : EditorInv cfg t entered) (env : LineEnv) (modifier keycode : UInt8) :
    ∃ r, t.inputKey cfg isHankaku env modifier keycode 10 = some r ∧
      EditorInv cfg r.1 (t.linebuf.take t.linebufIndex.toNat :: entered) := by
  obtain ⟨t₁, h₁, h0, hbuf, heq⟩ := h.endLine isHankaku env modifier keycode
  obtain ⟨r, hr, hr0, hinv⟩ := h₁.executeLine isHankaku h0 env (by simp [hbuf])
  exact ⟨_, by rw [heq, hr, Option.map_some'], hinv.printString isHankaku hr0 _⟩

theorem EditorInv.backspace (h : EditorInv cfg t entered) (hx : t.cursor.x > 0) :
    EditorInv cfg { t with
      cursor := { t.cursor with x := t.cursor.x - 1 }
      linebufIndex := if t.linebufIndex > 0 then t.linebufIndex - 1 else t.linebufIndex }
      entered := by
  obtain ⟨hl, ⟨_, _, _, _⟩, hix, hic, hent, hw⟩ := h
  have := hl.linebufIndex_nonneg
  have hle : (if t.linebufIndex > 0 then t.linebufIndex - 1 else t.linebufIndex).toNat ≤
      t.linebufIndex.toNat := by split_ifs <;> omega
  have hpre : 0 ∉ t.linebuf.take
      (if t.linebufIndex > 0 then t.linebufIndex - 1 else t.linebufIndex).toNat := by
    rw [← Nat.min_eq_left hle, ← List.take_take]
    exact fun hm => hl.prefix_no_nul (List.mem_of_mem_take hm)
  have := hl.linebufIndex_le
  refine ⟨⟨hl.1, hl.2, hl.3, hl.4, hl.5, ?_, ?_, hpre⟩, ⟨?_, ?_, ‹_›, ‹_›⟩, ?_, ?_, hent, hw⟩ <;>
    dsimp only <;> (try split_ifs) <;> omega

theorem EditorInv.type (h : EditorInv cfg t entered) {c : UInt8} (hc : c ≠ 0)
    (hx : t.cursor.x < cfg.kColumns - 1) (hi : t.linebufIndex < cfg.kLineMax - 1) :
    ∃ L, arraySet? t.linebuf t.linebufIndex c = some L ∧
      EditorInv cfg { t with
        linebuf := L
        linebufIndex := t.linebufIndex + 1
        cursor := { t.cursor with x := t.cursor.x + 1 } } entered := by
  obtain ⟨hl, ⟨_, _, _, _⟩, hix, hic, hent, hw⟩ := h
  have := hl.linebufIndex_nonneg
  have hlen := hl.linebuf_length
  have hlt : t.linebufIndex.toNat < t.linebuf.length := by omega
  refine ⟨_, arraySet?_of_lt hl.linebufIndex_nonneg (by omega) c, ?_⟩
  have hpre : 0 ∉ (t.linebuf.set t.linebufIndex.toNat c).take (t.linebufIndex + 1).toNat := by
    rw [show (t.linebufIndex + 1).toNat = t.linebufIndex.toNat + 1 by omega, take_set_succ hlt]
    simp [Ne.symm hc, hl.prefix_no_nul]
  refine ⟨⟨by simpa using hlen, hl.2, hl.3, hl.4, hl.5, ?_, ?_, hpre⟩, ⟨?_, ?_, ‹_›, ‹_›⟩, ?_, ?_,
    hent, hw⟩ <;> dsimp only <;> omega

/-- `InputKey` returns from every state of the invariant, and keeps it, with the line a
`'\n'` ends pushed to `entered`. -/
theorem EditorInv.inputKey (h : EditorInv cfg t entered) (env : LineEnv)
    (modifier keycode c : UInt8) :
    ∃ r, t.inputKey cfg isHankaku env modifier keycode c = some r ∧
      EditorInv cfg r.1
        (if c = 10 then t.linebuf.take t.linebufIndex.toNat :: entered else entered) := by
  by_cases h10 : c = 10
  · subst h10
    exact h.enter isHankaku env modifier keycode
  rw [if_neg h10]
  by_cases h8 : c = 8
  · subst h8
    by_cases hx : t.cursor.x > 0
    · exact ⟨_, by simp [Terminal.inputKey, hx]; rfl, h.backspace hx⟩
    · exact ⟨(t, []), by simp [Terminal.inputKey, hx], h⟩
  by_cases h0 : c = 0
  · subst h0
    by_cases k51 : keycode = 0x51
    · obtain ⟨t', ht', h'⟩ := h.historyUpDown (-1)
      exact ⟨(t', []), by simp [Terminal.inputKey, k51, ht', h.window], h'⟩
    by_cases k52 : keycode = 0x52
    · obtain ⟨t', ht', h'⟩ := h.historyUpDown 1
      exact ⟨(t', []), by simp [Terminal.inputKey, k51, k52, ht', h.window], h'⟩
    · exact ⟨(t, []), by simp [Terminal.inputKey, k51, k52], h⟩
  by_cases hg : t.cursor.x < cfg.kColumns - 1 ∧ t.linebufIndex < cfg.kLineMax - 1
  · obtain ⟨L, hL, h'⟩ := h.type h0 hg.1 hg.2
    exact ⟨_, by simp [Terminal.inputKey, h10, h8, h0, hg, hL]; rfl, h'⟩
  · exact ⟨(t, []), by simp [Terminal.inputKey, h10, h8, h0, hg], h⟩

end Steps

/-! ## Every reachable state -/

/-- The states a terminal with a window reaches from its constructor through `InputKey`
calls, each with its own environment, with the lines entered so far (newest first):
`linebuf_[0, linebuf_index_)` at each `'\n'`, as it was before `ExecuteLine` cut it. Only a
terminal with a window gets key messages: the one `noterm` starts has no layer to be
active, and its first `'\n'` is undefined. -/
inductive Reach : Terminal → List (List UInt8) → Prop
  | fresh (env : LineEnv) : Reach (Terminal.fresh cfg isHankaku env true) []
  | inputKey {t t' : Terminal} {entered : List (List UInt8)} {spawned : List (Option Nat)}
      (env : LineEnv) (modifier keycode c : UInt8) :
      Reach t entered → t.inputKey cfg isHankaku env modifier keycode c = some (t', spawned) →
      Reach t' (if c = 10 then t.linebuf.take t.linebufIndex.toNat :: entered else entered)

/-- Keys typed from `t`, each passed with no modifier and keycode `0`, as `TaskTerminal`
passes the characters of a command line; `none` if a call fails. -/
def typeKeys (env : LineEnv) : Terminal → List UInt8 → Option Terminal
  | t, [] => some t
  | t, c :: cs => (t.inputKey cfg isHankaku env 0 0 c).bind fun r => typeKeys env r.1 cs

/-- Keys pressed from `t`, each passed as `typeKeys` passes it, with the lines entered before
them extended, newest first, by the lines their `'\n'`s enter; `none` if a call fails. -/
def runKeys (env : LineEnv) :
    Terminal → List (List UInt8) → List UInt8 → Option (Terminal × List (List UInt8))
  | t, entered, [] => some (t, entered)
  | t, entered, c :: cs => (t.inputKey cfg isHankaku env 0 0 c).bind fun r =>
    runKeys env r.1 (if c = 10 then t.linebuf.take t.linebufIndex.toNat :: entered else entered) cs

variable {cfg}

theorem EditorInv.fresh (env : LineEnv) :
    EditorInv cfg (Terminal.fresh cfg isHankaku env true) [] := by
  have hz : cstr? (List.replicate cfg.kLineMax (0 : UInt8)) = some [] := by
    obtain ⟨n, hn⟩ : ∃ n, cfg.kLineMax = n + 1 := ⟨cfg.kLineMax - 1, by
      have := cfg.one_le_kLineMax; omega⟩
    rw [hn, List.replicate_succ]
    simp [cstr?, strlen?]
  have := cfg.one_le_kLineMax
  have := cfg.one_le_kRows
  have := cfg.two_le_kColumns
  have h : EditorInv cfg ⟨⟨0, 0⟩, List.replicate cfg.kLineMax 0, 0,
      List.replicate 8 (List.replicate cfg.kLineMax 0), -1, true⟩ [] :=
    ⟨⟨by simp, by simp [List.mem_replicate], by simp [historyView, hz], by simp, by simp,
      Int.le_refl 0, by simp; omega, by simp⟩,
      ⟨Int.le_refl 0, by dsimp only; omega, Int.le_refl 0, by dsimp only; omega⟩,
      Int.le_refl 0, by simp; omega, by simp, rfl⟩
  exact h.printString isHankaku rfl _

variable {isHankaku}

theorem Reach.editorInv {t : Terminal} {entered : List (List UInt8)}
    (h : Reach cfg isHankaku t entered) : EditorInv cfg t entered := by
  induction h with
  | fresh env => exact EditorInv.fresh isHankaku env
  | inputKey env modifier keycode c _ hstep ih =>
    obtain ⟨r, hr, hinv⟩ := ih.inputKey isHankaku env modifier keycode c
    obtain rfl := Option.some.inj (hstep.symm.trans hr)
    exact hinv

/-- Keys pressed from a reachable state lead to reachable states, with the lines they
enter. -/
theorem Reach.runKeys {env : LineEnv} :
    ∀ {t t' : Terminal} {entered entered' : List (List UInt8)} {cs : List UInt8},
      Reach cfg isHankaku t entered → runKeys cfg isHankaku env t entered cs = some (t', entered') →
        Reach cfg isHankaku t' entered'
  | _, _, _, _, [], h, ht => by
    simp only [Terminal.runKeys, Option.some.injEq, Prod.mk.injEq] at ht
    obtain ⟨rfl, rfl⟩ := ht
    exact h
  | _, _, _, _, c :: _, h, ht => by
    simp only [Terminal.runKeys, Option.bind_eq_some] at ht
    obtain ⟨r, hr, ht⟩ := ht
    exact Reach.runKeys (Reach.inputKey env 0 0 c h hr) ht

set_option maxRecDepth 2000 in
/-- `echo a`, `clear` and `echo b`, each ended with `'\n'`, typed on a fresh terminal: three
lines entered, and the history index back at `-1`. -/
theorem reach_echo_clear_echo :
    ∃ t, Reach exampleConfig asciiHankaku t [ascii "echo b", ascii "clear", ascii "echo a"] ∧
      t.cmdHistoryIndex = -1 := by
  have hrun : (runKeys exampleConfig asciiHankaku asciiEnv
      (Terminal.fresh exampleConfig asciiHankaku asciiEnv true) [] (ascii "echo a\nclear\necho b\n")).map
      (fun r => (r.2, r.1.cmdHistoryIndex)) =
      some ([ascii "echo b", ascii "clear", ascii "echo a"], -1) := by decide
  obtain ⟨⟨t, entered⟩, ht, he⟩ := Option.map_eq_some'.mp hrun
  simp only [Prod.mk.injEq] at he
  obtain ⟨rfl, hidx⟩ := he
  exact ⟨t, Reach.runKeys (Reach.fresh asciiEnv) ht, hidx⟩

/-- The history and line buffer invariant holds in every reachable state, and from each
one `InputKey` (with the `HistoryUpDown` and `ExecuteLine` it calls) stays in bounds. -/
theorem reach_lineInv_inputKey_isSome {t : Terminal} {entered : List (List UInt8)}
    (h : Reach cfg isHankaku t entered) :
    LineInv cfg t entered ∧ ∀ env modifier keycode c,
      (t.inputKey cfg isHankaku env modifier keycode c).isSome := by
  have hinv := h.editorInv
  refine ⟨hinv.line, fun env modifier keycode c => ?_⟩
  obtain ⟨r, hr, -⟩ := hinv.inputKey isHankaku env modifier keycode c
  simp [hr]

theorem reach_lineInv_inputKey_isSome_entered :
    ∃ t, Reach exampleConfig asciiHankaku t [ascii "echo b", ascii "clear", ascii "echo a"] ∧
      (LineInv exampleConfig t [ascii "echo b", ascii "clear", ascii "echo a"] ∧
        ∀ env modifier keycode c,
          (t.inputKey exampleConfig asciiHankaku env modifier keycode c).isSome) := by
  obtain ⟨t, ht, -⟩ := reach_echo_clear_echo
  exact ⟨t, ht, reach_lineInv_inputKey_isSome ht⟩

/-- The cursor is in the text grid in every reachable state, and from a cursor in the grid
`Print(char32_t)` writes its glyph in the grid and leaves the cursor in it, so every glyph
printed along a run lies in the grid. -/
theorem reach_cursor_in_grid :
    (∀ t entered, Reach cfg isHankaku t entered → CursorInv cfg t) ∧
    ∀ t c, CursorInv cfg t →
      GlyphInGrid cfg isHankaku (t.wrapFor cfg isHankaku c) c ∧
        CursorInv cfg (t.printChar cfg isHankaku c) :=
  ⟨fun _ _ h => h.editorInv.cursor, fun _ c h => ⟨h.wrapFor isHankaku c, h.printChar isHankaku c⟩⟩

/-! ## The lines `ExecuteLine` gets -/

/-- Typed keys other than `'\n'` keep a state reachable, with the same lines entered. -/
theorem Reach.typeKeys {env : LineEnv} :
    ∀ {t t' : Terminal} {entered : List (List UInt8)} {cs : List UInt8},
      Reach cfg isHankaku t entered → (∀ c ∈ cs, c ≠ 10) →
        typeKeys cfg isHankaku env t cs = some t' → Reach cfg isHankaku t' entered
  | _, _, _, [], h, _, ht => by
    obtain rfl := Option.some.inj ht
    exact h
  | t, _, entered, c :: cs, h, hcs, ht => by
    simp only [Terminal.typeKeys, Option.bind_eq_some] at ht
    obtain ⟨r, hr, ht⟩ := ht
    have h' := Reach.inputKey env 0 0 c h hr
    rw [if_neg (hcs c (List.mem_cons_self c cs))] at h'
    exact Reach.typeKeys h' (fun c' hc' => hcs c' (List.mem_cons_of_mem c hc')) ht

variable (isHankaku) in
/-- Printable keys, while the line and the row have room for them, are appended to the
line: every such line can be typed. -/
theorem EditorInv.typeKeys {t : Terminal} {entered : List (List UInt8)}
    (h : EditorInv cfg t entered) (env : LineEnv) (cs : List UInt8)
    (hcs : ∀ c ∈ cs, c ≠ 0 ∧ c ≠ 8 ∧ c ≠ 10) (hx : t.cursor.x + cs.length < cfg.kColumns)
    (hi : t.linebufIndex + cs.length < cfg.kLineMax) :
    ∃ t', typeKeys cfg isHankaku env t cs = some t' ∧ EditorInv cfg t' entered ∧
      t'.cursor.x = t.cursor.x + cs.length ∧ t'.linebufIndex = t.linebufIndex + cs.length ∧
      t'.linebuf.take t'.linebufIndex.toNat = t.linebuf.take t.linebufIndex.toNat ++ cs := by
  induction cs generalizing t with
  | nil => exact ⟨t, rfl, h, by simp, by simp, by simp⟩
  | cons c cs ih =>
    obtain ⟨hc0, hc8, hc10⟩ := hcs c (List.mem_cons_self c cs)
    simp only [List.length_cons, Nat.cast_add, Nat.cast_one] at hx hi
    have hgx : t.cursor.x < cfg.kColumns - 1 := by omega
    have hgi : t.linebufIndex < cfg.kLineMax - 1 := by omega
    obtain ⟨L, hL, h₁⟩ := h.type hc0 hgx hgi
    have hkey : t.inputKey cfg isHankaku env 0 0 c = some ({ t with
        linebuf := L
        linebufIndex := t.linebufIndex + 1
        cursor := { t.cursor with x := t.cursor.x + 1 } }, []) := by
      simp [Terminal.inputKey, hc10, hc8, hc0, hgx, hgi, hL]
    obtain ⟨t', ht', hinv, hx', hi', hline⟩ := ih h₁
      (fun c' hc' => hcs c' (List.mem_cons_of_mem c hc')) (by dsimp only; omega)
      (by dsimp only; omega)
    refine ⟨t', by simp [Terminal.typeKeys, hkey, ht'], hinv,
      by rw [hx']; simp only [List.length_cons]; push_cast; ring,
      by rw [hi']; simp only [List.length_cons]; push_cast; ring, ?_⟩
    have hnn := h.line.linebufIndex_nonneg
    have hlt : t.linebufIndex.toNat < t.linebuf.length := by
      have := h.line.linebufIndex_le; have := h.line.linebuf_length; omega
    have hLset : L = t.linebuf.set t.linebufIndex.toNat c :=
      Option.some.inj (hL.symm.trans (arraySet?_of_lt hnn (by omega) c))
    rw [hline]
    simp only [hLset, show (t.linebufIndex + 1).toNat = t.linebufIndex.toNat + 1 by omega,
      take_set_succ hlt, List.append_assoc, List.singleton_append]

variable (isHankaku) in
/-- A line typed on an empty line and ended with `'\n'`: `ExecuteLine` runs on the typed
characters followed by a NUL, whatever the environment. -/
theorem EditorInv.typeLine {t : Terminal} {entered : List (List UInt8)}
    (h : EditorInv cfg t entered) (h0 : t.linebufIndex = 0) (env₀ : LineEnv) (cs : List UInt8)
    (hcs : ∀ c ∈ cs, c ≠ 0 ∧ c ≠ 8 ∧ c ≠ 10) (hx : t.cursor.x + cs.length < cfg.kColumns)
    (hi : cs.length < cfg.kLineMax) :
    ∃ t', Terminal.typeKeys cfg isHankaku env₀ t cs = some t' ∧ ∃ rest, ∀ env, ∃ t₁ : Terminal,
      t'.inputKey cfg isHankaku env 0 0 10 = (t₁.executeLine cfg isHankaku env).map (fun r =>
        (r.1.printString cfg isHankaku (env.decode (ascii ">")), r.2)) ∧
      t₁.linebuf = cs ++ 0 :: rest := by
  obtain ⟨t', ht, hinv, -, -, hline⟩ :=
    h.typeKeys isHankaku env₀ cs hcs hx (by rw [h0]; omega)
  refine ⟨t', ht, t'.linebuf.drop (t'.linebufIndex.toNat + 1), fun env => ?_⟩
  obtain ⟨t₁, -, -, hbuf, heq⟩ := hinv.endLine isHankaku env 0 0
  rw [hline, h0] at hbuf
  exact ⟨t₁, heq, hbuf⟩

/-- The message `sprintf(s, "no such file: %s\n", first_arg)` writes into the 64-byte `s`
of the `cat` branch when `fat::FindFile` finds nothing, before its NUL. -/
def catNotFoundMessage (firstArg : List UInt8) : List UInt8 :=
  ascii "no such file: " ++ firstArg ++ ascii "\n"

/-- Two lines a fresh terminal with a window passes to `ExecuteLine`, for any environment:
`cat`, on which `ExecuteLine` runs `cat` with a null `first_arg` (which the `cat` branch
passes to `fat::FindFile` and to `"%s"`), and `cat` with a 49-byte argument, 53 typed
characters, well inside `kColumns` and `kLineMax`, whose `"no such file: "` message is 64
characters long. -/
theorem executeLine_cat_null_or_overlong_argument :
    (∃ t, Reach exampleConfig asciiHankaku t [] ∧ ∀ env, ∃ t₁ : Terminal,
      t.inputKey exampleConfig asciiHankaku env 0 0 10 =
        (t₁.executeLine exampleConfig asciiHankaku env).map (fun r =>
          (r.1.printString exampleConfig asciiHankaku (env.decode (ascii ">")), r.2)) ∧
      t₁.executeLine exampleConfig asciiHankaku env =
        some (runCommand exampleConfig asciiHankaku env t₁ (ascii "cat") none none)) ∧
    (∃ t a, Reach exampleConfig asciiHankaku t [] ∧ 63 < (catNotFoundMessage a).length ∧
      ∀ env, ∃ t₁ t₂ : Terminal,
      t.inputKey exampleConfig asciiHankaku env 0 0 10 =
        (t₁.executeLine exampleConfig asciiHankaku env).map (fun r =>
          (r.1.printString exampleConfig asciiHankaku (env.decode (ascii ">")), r.2)) ∧
      t₁.executeLine exampleConfig asciiHankaku env =
        some (runCommand exampleConfig asciiHankaku env t₂ (ascii "cat") (some 4) (some a))) := by
  have hf : Reach exampleConfig asciiHankaku
      (Terminal.fresh exampleConfig asciiHankaku asciiEnv true) [] := .fresh asciiEnv
  have hfx : (Terminal.fresh exampleConfig asciiHankaku asciiEnv true).cursor.x = 1 := by decide
  have hfi : (Terminal.fresh exampleConfig asciiHankaku asciiEnv true).linebufIndex = 0 := by
    decide
  constructor
  · obtain ⟨t, ht, rest, hline⟩ := hf.editorInv.typeLine asciiHankaku hfi asciiEnv
      (ascii "cat") (by decide) (by rw [hfx]; decide) (by decide)
    refine ⟨t, hf.typeKeys (by decide) ht, fun env => ?_⟩
    obtain ⟨t₁, heq, hbuf⟩ := hline env
    exact ⟨t₁, heq, executeLine_of_no_space exampleConfig asciiHankaku env t₁ hbuf
      (by decide) (by decide)⟩
  · obtain ⟨t, ht, rest, hline⟩ := hf.editorInv.typeLine asciiHankaku hfi asciiEnv
      (ascii "cat " ++ List.replicate 49 97) (by decide) (by rw [hfx]; decide) (by decide)
    refine ⟨t, List.replicate 49 97, hf.typeKeys (by decide) ht, by decide, fun env => ?_⟩
    obtain ⟨t₁, heq, hbuf⟩ := hline env
    have hbuf' : t₁.linebuf = ascii "cat" ++ 32 :: (List.replicate 49 97 ++ 0 :: rest) := by
      rw [hbuf]; rfl
    refine ⟨t₁, { t₁ with linebuf := ascii "cat" ++ 0 :: (List.replicate 49 97 ++ 0 :: rest) },
      heq, ?_⟩
    rw [executeLine_of_space exampleConfig asciiHankaku env t₁ hbuf' (by decide) (by decide),
      cstr?_append_zero (by decide)]
    rfl

/-! ## What the arrows recall -/

variable (cfg isHankaku) in
/-- The up arrow pressed `n` times, as `TaskTerminal` passes it: keycode `0x52` and no
character. -/
def pressUp (env : LineEnv) : Nat → Terminal → Option Terminal
  | 0, t => some t
  | n + 1, t => (t.inputKey cfg isHankaku env 0 0x52 0).bind fun r => pressUp env n r.1

section Recall

variable {t : Terminal} {entered : List (List UInt8)}

/-- The entry at `n` of `cmd_history_` holds the `n`-th line of the history the lines
entered make, with its NUL. -/
theorem LineInv.cmdHistory_entry (h : LineInv cfg t entered) {n : Nat} (hn : n < 8) :
    ∃ r, t.cmdHistory[n]? =
        some ((historyView (entered.filter (· ≠ []))).getD n [] ++ 0 :: r) ∧
      0 ∉ (historyView (entered.filter (· ≠ []))).getD n [] ∧
      ((historyView (entered.filter (· ≠ []))).getD n []).length < cfg.kLineMax := by
  obtain ⟨ℓ, r, hget, h0, hlen, -⟩ := h.getElem?_cmdHistory hn
  have hview := congrArg (·[n]?) h.history
  simp only [List.getElem?_map, hget, Option.map_some', cstr?_append_zero h0] at hview
  have hℓ : (historyView (entered.filter (· ≠ []))).getD n [] = ℓ := by
    obtain ⟨ℓ', hℓ', he⟩ := Option.map_eq_some'.mp hview.symm
    rw [List.getD_eq_getElem?_getD, hℓ', Option.getD_some, Option.some.inj he]
  exact ⟨r, hℓ ▸ hget, hℓ ▸ h0, hℓ ▸ hlen⟩

/-- The up arrow moves `cmd_history_index_` one entry older, up to the eighth. -/
theorem LineInv.historyIndex_up (h : LineInv cfg t entered) :
    t.historyIndex 1 = min (t.cmdHistoryIndex + 1) 7 := by
  have h8 := h.length_cmdHistory
  have := h.historyIndex_ge
  have := h.historyIndex_le
  have hs : toSizeT (t.cmdHistoryIndex + 1) = (t.cmdHistoryIndex + 1).toNat :=
    toSizeT_of_nonneg (by omega) (by omega)
  rw [historyIndex, if_neg fun h' => absurd h'.1 (by decide), hs, h8]
  by_cases hlt : (t.cmdHistoryIndex + 1).toNat < 8
  · rw [if_pos ⟨rfl, hlt⟩]
    omega
  · rw [if_neg fun h' => hlt h'.2]
    omega

/-- `HistoryUpDown` puts in the line the entry of the history at the index it moves to, or
the empty line at `-1`. -/
theorem EditorInv.historyUpDown_line (h : EditorInv cfg t entered) {direction : Int}
    {t' : Terminal} (ht : t.historyUpDown direction = some t') :
    EditorInv cfg t' entered ∧ t'.cmdHistoryIndex = t.historyIndex direction ∧
      t'.linebuf.take t'.linebufIndex.toNat =
        if 0 ≤ t.historyIndex direction then
          (historyView (entered.filter (· ≠ []))).getD (t.historyIndex direction).toNat []
        else [] := by
  obtain ⟨t₁, ht₁, hinv⟩ := h.historyUpDown direction
  obtain rfl : t₁ = t' := Option.some.inj (ht₁.symm.trans ht)
  have hle := hinv.line.historyIndex_le
  unfold Terminal.historyUpDown at ht
  simp only [Option.bind_eq_some, Option.map_eq_some'] at ht
  obtain ⟨history, hh, L, hL, n, hn, rfl⟩ := ht
  refine ⟨hinv, rfl, ?_⟩
  dsimp only at hle ⊢
  split_ifs at hh ⊢ with hpos
  · obtain ⟨r, hget, h0, hlen⟩ :=
      h.line.cmdHistory_entry (show (t.historyIndex direction).toNat < 8 by omega)
    obtain rfl := Option.some.inj (hget.symm.trans hh)
    obtain rfl := Option.some.inj ((strlen?_append_zero h0 r).symm.trans hn)
    obtain rfl := Option.some.inj ((strcpy?_append_zero h0 r
      (by have := h.line.linebuf_length; omega)).symm.trans hL)
    simp
  · obtain rfl := Option.some.inj hh
    cases hn
    rfl

variable (env : LineEnv)

/-- Each up arrow loads the next older entry of the history into the line, up to the
eighth. -/
theorem EditorInv.pressUp_recalls (h : EditorInv cfg t entered) :
    ∀ n, ∃ t', pressUp cfg isHankaku env n t = some t' ∧ EditorInv cfg t' entered ∧
      t'.cmdHistoryIndex = min (t.cmdHistoryIndex + n) 7 ∧
      (0 < n → t'.linebuf.take t'.linebufIndex.toNat =
        (historyView (entered.filter (· ≠ []))).getD (min (t.cmdHistoryIndex + n) 7).toNat []) := by
  intro n
  induction n generalizing t with
  | zero =>
    have := h.line.historyIndex_le
    exact ⟨t, rfl, h, by simp; omega, by omega⟩
  | succ n ih =>
    have hkey : t.inputKey cfg isHankaku env 0 0x52 0 = (t.historyUpDown 1).map (·, []) := by
      simp [Terminal.inputKey, h.window]
    have hup := h.line.historyIndex_up
    have hge := h.line.historyIndex_ge
    obtain ⟨t₁, ht₁, -⟩ := h.historyUpDown 1
    obtain ⟨h₁, hidx₁, hline₁⟩ := h.historyUpDown_line ht₁
    obtain ⟨t', ht', h', hidx', hline'⟩ := ih h₁
    have hidx : min (t₁.cmdHistoryIndex + n) 7 = min (t.cmdHistoryIndex + ↑(n + 1)) 7 := by
      rw [hidx₁, hup]
      omega
    refine ⟨t', by simp [pressUp, hkey, ht₁, ht'], h', hidx' ▸ hidx, fun _ => ?_⟩
    cases n with
    | zero =>
      obtain rfl : t₁ = t' := Option.some.inj ht'
      rw [hline₁, if_pos (by rw [hup]; omega), hup]
      simp
    | succ n => rw [hline' (by omega), hidx]

/-- On every reachable terminal right after a line is entered (`cmd_history_index_` at
`-1`), `n > 0` up arrows load into the line the `n`-th most recent non-empty line entered,
the eighth for `n > 8`, or the empty line when fewer were entered. -/
theorem Reach.pressUp_recalls_entered (hr : Reach cfg isHankaku t entered)
    (h1 : t.cmdHistoryIndex = -1) {n : Nat} (hn : 0 < n) :
    ∃ t', pressUp cfg isHankaku env n t = some t' ∧
      t'.linebuf.take t'.linebufIndex.toNat = (entered.filter (· ≠ [])).getD (min n 8 - 1) [] := by
  obtain ⟨t', ht', -, -, hline⟩ := hr.editorInv.pressUp_recalls env n
  refine ⟨t', ht', ?_⟩
  rw [hline hn, h1, show (min (-1 + (n : Int)) 7).toNat = min n 8 - 1 by omega,
    historyView_getD _ (by omega)]

/-- After `echo a`, `clear` and `echo b`, two up arrows bring back `clear`. -/
theorem Reach.pressUp_recalls_entered_clear :
    ∃ t, Reach exampleConfig asciiHankaku t [ascii "echo b", ascii "clear", ascii "echo a"] ∧
      t.cmdHistoryIndex = -1 ∧ 0 < 2 ∧
      ([ascii "echo b", ascii "clear", ascii "echo a"].filter (· ≠ [])).getD (min 2 8 - 1) [] =
        ascii "clear" ∧
      ∃ t', pressUp exampleConfig asciiHankaku asciiEnv 2 t = some t' ∧
        t'.linebuf.take t'.linebufIndex.toNat =
          ([ascii "echo b", ascii "clear", ascii "echo a"].filter (· ≠ [])).getD (min 2 8 - 1) [] := by
  obtain ⟨t, ht, hidx⟩ := reach_echo_clear_echo
  exact ⟨t, ht, hidx, by decide, by decide,
    Reach.pressUp_recalls_entered asciiEnv ht hidx (by decide)⟩

end Recall

/-! ## `'\b'` takes back a typed character -/

/-- On every reachable terminal with room on the line and on the row, a typed character
(not NUL, `'\b'` or `'\n'`) followed by `'\b'` brings back the cursor, `linebuf_index_`,
the typed line, and the history as they were. -/
theorem Reach.backspace_undoes_type {t : Terminal} {entered : List (List UInt8)}
    (hr : Reach cfg isHankaku t entered) (env : LineEnv)
    (modifier keycode modifier' keycode' : UInt8) {c : UInt8} (h0 : c ≠ 0) (h8 : c ≠ 8)
    (h10 : c ≠ 10) (hx : t.cursor.x < cfg.kColumns - 1) (hi : t.linebufIndex < cfg.kLineMax - 1) :
    ∃ t₁ t₂, t.inputKey cfg isHankaku env modifier keycode c = some (t₁, []) ∧
      t₁.inputKey cfg isHankaku env modifier' keycode' 8 = some (t₂, []) ∧
      t₂.cursor = t.cursor ∧ t₂.linebufIndex = t.linebufIndex ∧
      t₂.linebuf.take t₂.linebufIndex.toNat = t.linebuf.take t.linebufIndex.toNat ∧
      t₂.cmdHistory = t.cmdHistory ∧ t₂.cmdHistoryIndex = t.cmdHistoryIndex := by
  have h := hr.editorInv
  have hx0 := h.cursor.x_nonneg
  have hi0 := h.line.linebufIndex_nonneg
  have hset := arraySet?_of_lt hi0 (by rw [h.line.linebuf_length]; omega) c
  have h₁ : t.inputKey cfg isHankaku env modifier keycode c = some ({ t with
      linebuf := t.linebuf.set t.linebufIndex.toNat c
      linebufIndex := t.linebufIndex + 1
      cursor := { t.cursor with x := t.cursor.x + 1 } }, []) := by
    simp [Terminal.inputKey, h0, h8, h10, hx, hi, hset]
  have hx1 : t.cursor.x + 1 > 0 := by omega
  have hi1 : t.linebufIndex + 1 > 0 := by omega
  refine ⟨_, { t with linebuf := t.linebuf.set t.linebufIndex.toNat c }, h₁,
    by simp [Terminal.inputKey, hx1, hi1], rfl, rfl, ?_, rfl, rfl⟩
  rw [List.set_take]
  exact List.set_eq_of_length_le (by simp)

theorem Reach.backspace_undoes_type_fresh :
    (97 : UInt8) ≠ 0 ∧ (97 : UInt8) ≠ 8 ∧ (97 : UInt8) ≠ 10 ∧
      (Terminal.fresh exampleConfig asciiHankaku asciiEnv true).cursor.x <
        exampleConfig.kColumns - 1 ∧
      (Terminal.fresh exampleConfig asciiHankaku asciiEnv true).linebufIndex <
        exampleConfig.kLineMax - 1 ∧
      ∃ t₁ t₂, (Terminal.fresh exampleConfig asciiHankaku asciiEnv true).inputKey exampleConfig
          asciiHankaku asciiEnv 0 0x04 97 = some (t₁, []) ∧
        t₁.inputKey exampleConfig asciiHankaku asciiEnv 0 0x2a 8 = some (t₂, []) ∧
        t₂.cursor = (Terminal.fresh exampleConfig asciiHankaku asciiEnv true).cursor ∧
        t₂.linebufIndex = (Terminal.fresh exampleConfig asciiHankaku asciiEnv true).linebufIndex ∧
        t₂.linebuf.take t₂.linebufIndex.toNat =
          (Terminal.fresh exampleConfig asciiHankaku asciiEnv true).linebuf.take
            (Terminal.fresh exampleConfig asciiHankaku asciiEnv true).linebufIndex.toNat ∧
        t₂.cmdHistory = (Terminal.fresh exampleConfig asciiHankaku asciiEnv true).cmdHistory ∧
        t₂.cmdHistoryIndex =
          (Terminal.fresh exampleConfig asciiHankaku asciiEnv true).cmdHistoryIndex :=
  ⟨by decide, by decide, by decide, by decide, by decide,
    Reach.backspace_undoes_type (Reach.fresh asciiEnv) asciiEnv 0 0x04 0 0x2a (by decide)
      (by decide) (by decide) (by decide) (by decide)⟩

end Terminal

end HonOS
