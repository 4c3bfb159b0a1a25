/-
# What the terminal draws, and the rectangle it reports

A call that draws into the terminal's window also names a rectangle of it for task 1 to
copy to the screen: `Print(s, len)` sends one in a `DrawArea` message, and `InputKey`
returns one. What a call draws is a list of `DrawOp`s, folded left over the window's
pixels by `paintAll`: `FillRectangle`, a glyph (`WriteAscii`, `WriteUnicode`, each character
of `WriteString`) and `Window::Move`.

window.hpp, window.cpp and font.cpp are not under src/: `ToplevelWindow::kTopLeftMargin`
is MikanOS's `{4, 24}`, `InnerSize()` is the size the constructor asks for less the frame
(`kMarginX`, `kMarginY`), and which pixels of a glyph are lit is a parameter `font`.

* `paintAll_outside`: a call whose operations all lie in a rectangle changes no pixel
  outside it.
* `inputKeyDraws_within`: for every key but `'\n'` and the arrows, `InputKey`'s rectangle
  holds everything it draws; `Reach.inputKey_changes_only_its_rect`: on every reachable
  terminal such a call returns and changes no pixel outside its rectangle.
* `paintAll_blinkCursor`: `BlinkCursor` paints exactly the rectangle it returns.
* `printDraws_changes_only_its_rect`: `Print(s, len)` that neither scrolls nor starts or
  ends with the cursor at column `kColumns` changes no pixel outside its `DrawArea`.
* `printDraws_scroll_copies_row_above`: `Print("\n")` on the last row moves the whole text
  area up by one row, while its rectangle starts at the cursor's row; each pixel of the row
  above takes the colour of the pixel below it.
* `inputKeyDraws_history_blackens_cursor`: from column `0`, the arrows' `HistoryUpDown`
  reports the row from column `1` on, while `DrawCursor(false)` paints the cursor at column
  `0` black; `inputKey_history_changes_pixel_outside_rect` reaches column `0` with `'\b'`,
  whose `DrawCursor(true)` leaves the cursor white there
  (`inputKeyDraws_backspace_whitens_cursor`).
-/
import HonOS.LineEditor

namespace HonOS

/-! ## Pixels, rectangles and drawing -/

/-- `ToplevelWindow::kTopLeftMargin` (window.hpp, not under src/): where the inner area of
a window starts. -/
def kTopLeftMargin : Int × Int := (4, 24)

/-- `Rectangle<int>`: a position and a size. -/
structure Rect where
  x : Int
  y : Int
  w : Int
  h : Int
  deriving DecidableEq, Repr

/-- The pixels of a rectangle. -/
def Rect.contains (r : Rect) (p : Int × Int) : Prop :=
  r.x ≤ p.1 ∧ p.1 < r.x + r.w ∧ r.y ≤ p.2 ∧ p.2 < r.y + r.h

instance (r : Rect) (p : Int × Int) : Decidable (r.contains p) :=
  inferInstanceAs (Decidable (_ ∧ _))

/-- `a` lies in `b`. -/
def Rect.Sub (a b : Rect) : Prop :=
  b.x ≤ a.x ∧ a.x + a.w ≤ b.x + b.w ∧ b.y ≤ a.y ∧ a.y + a.h ≤ b.y + b.h

instance (a b : Rect) : Decidable (a.Sub b) := inferInstanceAs (Decidable (_ ∧ _))

theorem Rect.Sub.contains {a b : Rect} (h : a.Sub b) {p : Int × Int} (hp : a.contains p) :
    b.contains p := by
  unfold Rect.Sub Rect.contains at *
  omega

/-- One drawing operation: `FillRectangle` with a colour; a glyph, which writes white the
pixels of its rectangle that the font lights; `Window::Move`, which copies the rectangle
`src` to the rectangle `dst` of the same size. -/
inductive DrawOp
  | fill (r : Rect) (color : UInt32)
  | glyph (r : Rect) (c : UInt32)
  | move (dst src : Rect)
  deriving DecidableEq, Repr

/-- The rectangle an operation writes. -/
def DrawOp.target : DrawOp → Rect
  | .fill r _ => r
  | .glyph r _ => r
  | .move dst _ => dst

/-- The window's pixels after one operation; `font c (dx, dy)` says whether pixel
`(dx, dy)` of the glyph of `c` is lit. -/
def DrawOp.paint (font : UInt32 → Int × Int → Bool) (s : Int × Int → UInt32) :
    DrawOp → Int × Int → UInt32
  | .fill r color => fun p => if r.contains p then color else s p
  | .glyph r c => fun p =>
    if r.contains p ∧ font c (p.1 - r.x, p.2 - r.y) = true then 0xffffff else s p
  | .move dst src => fun p =>
    if dst.contains p then s (p.1 - dst.x + src.x, p.2 - dst.y + src.y) else s p

/-- The window's pixels after a list of operations. -/
def paintAll (font : UInt32 → Int × Int → Bool) (s : Int × Int → UInt32)
    (ops : List DrawOp) : Int × Int → UInt32 :=
  ops.foldl (DrawOp.paint font) s

/-- Every operation writes inside `r`. -/
def Within (ops : List DrawOp) (r : Rect) : Prop := ∀ op ∈ ops, op.target.Sub r

section Paint

variable {font : UInt32 → Int × Int → Bool} {p : Int × Int}

theorem DrawOp.paint_of_not_contains {op : DrawOp} (h : ¬ op.target.contains p)
    (s : Int × Int → UInt32) : op.paint font s p = s p := by
  cases op <;> simp_all [DrawOp.paint, DrawOp.target]

@[simp] theorem paintAll_nil (s : Int × Int → UInt32) : paintAll font s [] = s := rfl

theorem paintAll_append (s : Int × Int → UInt32) (ops ops' : List DrawOp) :
    paintAll font s (ops ++ ops') = paintAll font (paintAll font s ops) ops' :=
  List.foldl_append _ _ _ _

/-- A pixel that no operation writes keeps its colour. -/
theorem paintAll_of_not_contains :
    ∀ (ops : List DrawOp) (s : Int × Int → UInt32), (∀ op ∈ ops, ¬ op.target.contains p) →
      paintAll font s ops p = s p
  | [], _, _ => rfl
  | op :: ops, s, h => by
    have hop := h op (List.mem_cons_self op ops)
    calc paintAll font s (op :: ops) p = op.paint font s p :=
          paintAll_of_not_contains ops _ fun o ho => h o (List.mem_cons_of_mem op ho)
      _ = s p := DrawOp.paint_of_not_contains hop s

/-- A call that writes only inside `r` leaves every pixel outside `r` as it was. -/
theorem paintAll_outside {ops : List DrawOp} {r : Rect} (h : Within ops r)
    (hp : ¬ r.contains p) (s : Int × Int → UInt32) : paintAll font s ops p = s p :=
  paintAll_of_not_contains ops s fun op hop hc => hp ((h op hop).contains hc)

theorem Within.append {ops ops' : List DrawOp} {r : Rect} (h : Within ops r)
    (h' : Within ops' r) : Within (ops ++ ops') r := by
  intro op hop
  rcases List.mem_append.mp hop with hop | hop
  · exact h op hop
  · exact h' op hop

theorem Within.mono {ops : List DrawOp} {r r' : Rect} (h : Within ops r) (hr : r.Sub r') :
    Within ops r' := fun op hop => by
  have := h op hop
  unfold Rect.Sub at *
  omega

theorem Rect.not_contains_of_lt_x {r : Rect} (h : p.1 < r.x) : ¬ r.contains p :=
  fun hp => absurd hp.1 (not_le.mpr h)

/-- The last fill over a pixel sets its colour. -/
theorem paintAll_fill_append {r : Rect} (hp : r.contains p) (color : UInt32)
    (s : Int × Int → UInt32) (ops rest : List DrawOp)
    (hrest : ∀ op ∈ rest, ¬ op.target.contains p) :
    paintAll font s (ops ++ .fill r color :: rest) p = color := by
  rw [paintAll_append]
  show paintAll font ((DrawOp.fill r color).paint font _) rest p = color
  rw [paintAll_of_not_contains rest _ hrest]
  simp [DrawOp.paint, hp]

end Paint

/-! ## What the terminal draws -/

namespace Terminal

variable (cfg : TermConfig) (isHankaku : UInt32 → Bool)

/-- `CalcCursorPos()`: the top left pixel of the cursor's cell. -/
def calcCursorPos (t : Terminal) : Int × Int :=
  (kTopLeftMargin.1 + 4 + 8 * t.cursor.x, kTopLeftMargin.2 + 4 + 16 * t.cursor.y)

/-- `window_->InnerSize()`: the constructor's `kColumns * 8 + 8` by `kRows * 16 + 8`. -/
def innerSize : Int × Int := (cfg.kColumns * 8 + 8, cfg.kRows * 16 + 8)

/-- The cell-sized rectangle at the cursor, `w` pixels wide. -/
def cursorRect (t : Terminal) (w h : Int) : Rect :=
  ⟨(calcCursorPos t).1, (calcCursorPos t).2, w, h⟩

/-- `DrawCursor(visible)`: a white or black 7×15 block at the cursor, with a window. -/
def drawCursor (t : Terminal) (visible : Bool) : List DrawOp :=
  if t.showWindow then [.fill (cursorRect t 7 15) (if visible then 0xffffff else 0)] else []

/-- `Scroll1()`: move the text area below its first row up by a row, then clear the
cursor's row. -/
def scroll1 (t : Terminal) : List DrawOp :=
  [.move ⟨kTopLeftMargin.1 + 4, kTopLeftMargin.2 + 4, 8 * cfg.kColumns, 16 * (cfg.kRows - 1)⟩
      ⟨kTopLeftMargin.1 + 4, kTopLeftMargin.2 + 4 + 16, 8 * cfg.kColumns,
        16 * (cfg.kRows - 1)⟩,
    .fill ⟨kTopLeftMargin.1 + 4, kTopLeftMargin.2 + 4 + 16 * t.cursor.y, 8 * cfg.kColumns, 16⟩
      0]

/-- What the `newline` lambda draws: `Scroll1` on the last row. -/
def newlineDraws (t : Terminal) : List DrawOp :=
  if t.cursor.y < cfg.kRows - 1 then [] else scroll1 cfg t

/-- `BlinkCursor()`, from `cursor_visible_ = visible`: the flag it leaves, what it draws,
and the rectangle it returns, the 7×15 block at the cursor. -/
def blinkCursor (t : Terminal) (visible : Bool) : Bool × List DrawOp × Rect :=
  (!visible, drawCursor t !visible, ⟨(calcCursorPos t).1, (calcCursorPos t).2, 7, 15⟩)

/-- What `Print(char32_t c)` draws: a new line first when the glyph does not fit, then the
glyph at the cursor, 8 or 16 pixels wide. -/
def printCharDraws (t : Terminal) (c : UInt32) : List DrawOp :=
  if !t.showWindow then []
  else if c = 10 then newlineDraws cfg t
  else if isHankaku c then
    (if t.cursor.x = cfg.kColumns then newlineDraws cfg t else []) ++
      [.glyph (cursorRect (t.wrapFor cfg isHankaku c) 8 16) c]
  else
    (if t.cursor.x ≥ cfg.kColumns - 1 then newlineDraws cfg t else []) ++
      [.glyph (cursorRect (t.wrapFor cfg isHankaku c) 16 16) c]

/-- What the loop of `Print(s, len)` draws: `Print(char32_t)` after `Print(char32_t)`. -/
def printStringDraws : Terminal → List UInt32 → List DrawOp
  | _, [] => []
  | t, c :: cs => printCharDraws cfg isHankaku t c ++
      printStringDraws (t.printChar cfg isHankaku c) cs

/-- `Print(s, len)` on the code points it decodes: what it draws, and the rectangle of its
`DrawArea` message, the inner area's width from the cursor's row before to its row after. -/
def printDraws (t : Terminal) (cs : List UInt32) : List DrawOp × Rect :=
  let t' := t.printString cfg isHankaku cs
  (drawCursor t false ++ printStringDraws cfg isHankaku t cs ++ drawCursor t' true,
    ⟨kTopLeftMargin.1, (calcCursorPos t).2, (innerSize cfg).1,
      (calcCursorPos t').2 - (calcCursorPos t).2 + 16⟩)

/-- What a command of `ExecuteLine` draws (`runCommand`): the `Print` calls of `echo` and
of the other commands, and `clear`'s `FillRectangle` of the text area. -/
def runCommandDraws (env : LineEnv) (t : Terminal) (command : List UInt8)
    (arg : Option (List UInt8)) : List DrawOp :=
  if command = ascii "echo" then
    match arg with
    | some a => (printDraws cfg isHankaku t (env.decode a)).1 ++
        (printDraws cfg isHankaku (t.printString cfg isHankaku (env.decode a))
          (env.decode (ascii "\n"))).1
    | none => (printDraws cfg isHankaku t (env.decode (ascii "\n"))).1
  else if command = ascii "clear" then
    if t.showWindow then
      [.fill ⟨kTopLeftMargin.1 + 4, kTopLeftMargin.2 + 4, 8 * cfg.kColumns, 16 * cfg.kRows⟩ 0]
    else []
  else if command = ascii "noterm" then []
  else if command ≠ [] then (printDraws cfg isHankaku t (env.output command arg)).1
  else []

/-- What `ExecuteLine` draws: the command it cuts from the line, as `executeLine` does. -/
def executeLineDraws (env : LineEnv) (t : Terminal) : Option (List DrawOp) :=
  (strchr? t.linebuf 32).bind fun space =>
    let linebuf := match space with
      | some j => t.linebuf.set j 0
      | none => t.linebuf
    (cstr? linebuf).bind fun command =>
      (match space.map (· + 1) with
        | some j => (cstr? (linebuf.drop j)).map some
        | none => some none).map fun arg =>
      runCommandDraws cfg isHankaku env { t with linebuf := linebuf } command arg

/-- `WriteString(writer, pos, s, color)`: a glyph 8 pixels wide for each character. -/
def writeString : Int × Int → List UInt8 → List DrawOp
  | _, [] => []
  | p, c :: cs => .glyph ⟨p.1, p.2, 8, 16⟩ c.toUInt32 :: writeString (p.1 + 8, p.2) cs

/-- What `HistoryUpDown` draws from `t`, given the state `t'` it leaves: the row from
column `1` filled black and the history entry written there; and the rectangle it
returns, that row from column `1`. -/
def historyDraws (t t' : Terminal) : List DrawOp × Rect :=
  let area := cursorRect { t with cursor := { t.cursor with x := 1 } } (8 * (cfg.kColumns - 1)) 16
  (.fill area 0 :: writeString (area.x, area.y) (t'.linebuf.take t'.linebufIndex.toNat), area)

/-- What `InputKey(modifier, keycode, ascii)` draws and the rectangle it returns, for the
branches of `inputKey`: `DrawCursor(false)` at the start, `DrawCursor(true)` at the end,
and between them `'\n'`'s new line, `ExecuteLine` and prompt, `'\b'`'s black cell, a typed
character's glyph, or `HistoryUpDown`. The rectangle is two cells at the cursor, moved to
the new cursor by `'\b'`, the inner area for `'\n'`, and `HistoryUpDown`'s for the arrows.
Without a window, `'\n'` and the arrows are undefined, as for `inputKey`. -/
def inputKeyDraws (env : LineEnv) (t : Terminal) (_modifier keycode c : UInt8) :
    Option (List DrawOp × Rect) :=
  let finish := fun (ops : List DrawOp) (t' : Terminal) (r : Rect) =>
    (drawCursor t false ++ ops ++ drawCursor t' true, r)
  if c = 10 then
    if !t.showWindow then none
    else
      (arraySet? t.linebuf t.linebufIndex 0).bind fun linebuf =>
        (if t.linebufIndex > 0 then
          (if t.cmdHistory = [] then none else some (linebuf :: t.cmdHistory.dropLast))
        else some t.cmdHistory).bind fun cmdHistory =>
          let t₀ := { t with
            linebuf := linebuf
            cmdHistory := cmdHistory
            linebufIndex := 0
            cmdHistoryIndex := -1 }
          let t₁ := newline cfg t₀
          (t₁.executeLine cfg isHankaku env).bind fun r =>
            (executeLineDraws cfg isHankaku env t₁).map fun ops =>
              finish (newlineDraws cfg t₀ ++ ops ++
                  (printDraws cfg isHankaku r.1 (env.decode (ascii ">"))).1)
                (r.1.printString cfg isHankaku (env.decode (ascii ">")))
                ⟨kTopLeftMargin.1, kTopLeftMargin.2, (innerSize cfg).1, (innerSize cfg).2⟩
  else if c = 8 then
    if t.cursor.x > 0 then
      let t' := { t with cursor := { t.cursor with x := t.cursor.x - 1 } }
      some (finish (if t.showWindow then [.fill (cursorRect t' 8 16) 0] else []) t'
        (cursorRect t' 16 16))
    else some (finish [] t (cursorRect t 16 16))
  else if c ≠ 0 then
    if t.cursor.x < cfg.kColumns - 1 ∧ t.linebufIndex < cfg.kLineMax - 1 then
      (arraySet? t.linebuf t.linebufIndex c).map fun _ =>
        finish (if t.showWindow then [.glyph (cursorRect t 8 16) c.toUInt32] else [])
          { t with cursor := { t.cursor with x := t.cursor.x + 1 } } (cursorRect t 16 16)
    else some (finish [] t (cursorRect t 16 16))
  else if keycode = 0x51 then
    if !t.showWindow then none
    else (t.historyUpDown (-1)).map fun t' =>
      finish (historyDraws cfg t t').1 t' (historyDraws cfg t t').2
  else if keycode = 0x52 then
    if !t.showWindow then none
    else (t.historyUpDown 1).map fun t' =>
      finish (historyDraws cfg t t').1 t' (historyDraws cfg t t').2
  else some (finish [] t (cursorRect t 16 16))

/-! ## Which pixels a call changes -/

section Rectangles

variable {cfg isHankaku}

theorem within_drawCursor {t : Terminal} {r : Rect} (h : (cursorRect t 7 15).Sub r)
    (visible : Bool) : Within (drawCursor t visible) r := by
  unfold drawCursor
  split <;> simp [Within, DrawOp.target, h]

theorem within_ite_singleton {b : Bool} {op : DrawOp} {r : Rect} (h : op.target.Sub r) :
    Within (if b then [op] else []) r := by
  split <;> simp [Within, h]

/-- A call that erases the cursor at `t`, draws `ops` and draws the cursor at `t'`. -/
theorem within_finish {t t' : Terminal} {ops : List DrawOp} {r : Rect}
    (hoff : (cursorRect t 7 15).Sub r) (hops : Within ops r) (hon : (cursorRect t' 7 15).Sub r) :
    Within (drawCursor t false ++ ops ++ drawCursor t' true) r :=
  ((within_drawCursor hoff _).append hops).append (within_drawCursor hon _)

/-- A call that only erases and redraws the cursor draws inside the two cells at it. -/
theorem within_drawCursor_twice (t : Terminal) :
    Within (drawCursor t false ++ [] ++ drawCursor t true) (cursorRect t 16 16) :=
  within_finish (by simp [Rect.Sub, cursorRect]) (by simp [Within])
    (by simp [Rect.Sub, cursorRect])

/-- `BlinkCursor` paints its rectangle, white when it shows the cursor and black when it
hides it, with a window, and changes no other pixel. -/
theorem paintAll_blinkCursor (font : UInt32 → Int × Int → Bool) (s : Int × Int → UInt32)
    (t : Terminal) (visible : Bool) (p : Int × Int) :
    paintAll font s (blinkCursor t visible).2.1 p =
      if t.showWindow ∧ (blinkCursor t visible).2.2.contains p then
        (if visible then 0 else 0xffffff)
      else s p := by
  by_cases hw : t.showWindow <;> cases visible <;>
    simp [blinkCursor, drawCursor, paintAll, DrawOp.paint, cursorRect, hw]

/-- The glyphs of `WriteString` lie right of where it starts. -/
theorem writeString_x_le :
    ∀ (q : Int × Int) (s : List UInt8), ∀ op ∈ writeString q s, q.1 ≤ op.target.x
  | _, [] => by simp [writeString]
  | q, c :: cs => by
    simp only [writeString, List.mem_cons, forall_eq_or_imp]
    refine ⟨le_refl _, fun op hop => ?_⟩
    have := writeString_x_le (q.1 + 8, q.2) cs op hop
    dsimp only at this
    omega

/-- `HistoryUpDown` leaves the cursor past the entry it copies, on the same row. -/
theorem historyUpDown_cursor {t t' : Terminal} {direction : Int}
    (h : t.historyUpDown direction = some t') :
    1 ≤ t'.cursor.x ∧ t'.cursor.y = t.cursor.y ∧ t'.showWindow = t.showWindow := by
  unfold historyUpDown at h
  simp only [Option.bind_eq_some, Option.map_eq_some'] at h
  obtain ⟨_, _, _, _, n, _, rfl⟩ := h
  exact ⟨by dsimp only; omega, rfl, rfl⟩

/-- For every key but `'\n'` and the arrows, `InputKey` draws only inside the rectangle it
returns, the two cells at the cursor (at the new cursor after `'\b'`), so it changes no
pixel outside it (`paintAll_outside`). -/
theorem inputKeyDraws_within (env : LineEnv) (t : Terminal) (modifier keycode c : UInt8)
    (h10 : c ≠ 10) (harrow : c = 0 → keycode ≠ 0x51 ∧ keycode ≠ 0x52)
    {ops : List DrawOp} {r : Rect}
    (h : t.inputKeyDraws cfg isHankaku env modifier keycode c = some (ops, r)) :
    Within ops r := by
  unfold inputKeyDraws at h
  rw [if_neg h10] at h
  by_cases h8 : c = 8
  · rw [if_pos h8] at h
    by_cases hx : t.cursor.x > 0
    · rw [if_pos hx] at h
      cases h
      refine within_finish ?_ (within_ite_singleton ?_) ?_ <;>
        simp only [Rect.Sub, cursorRect, calcCursorPos, DrawOp.target] <;> omega
    · rw [if_neg hx] at h
      cases h
      exact within_drawCursor_twice t
  · rw [if_neg h8] at h
    by_cases hc : c ≠ 0
    · rw [if_pos hc] at h
      split at h
      · obtain ⟨-, -, h⟩ := Option.map_eq_some'.mp h
        cases h
        refine within_finish ?_ (within_ite_singleton ?_) ?_ <;>
          simp only [Rect.Sub, cursorRect, calcCursorPos, DrawOp.target] <;> omega
      · cases h
        exact within_drawCursor_twice t
    · obtain ⟨h51, h52⟩ := harrow (not_not.mp hc)
      rw [if_neg hc, if_neg h51, if_neg h52] at h
      cases h
      exact within_drawCursor_twice t

/-- On every reachable terminal and for every key but `'\n'` and the arrows, `InputKey`
draws and returns a rectangle, and changes no pixel outside it, whatever the font and the
window's pixels: task 1 copies to the screen every pixel the call changed. -/
theorem Reach.inputKey_changes_only_its_rect {t : Terminal} {entered : List (List UInt8)}
    (hr : Reach cfg isHankaku t entered) (env : LineEnv) (modifier keycode c : UInt8)
    (h10 : c ≠ 10) (harrow : c = 0 → keycode ≠ 0x51 ∧ keycode ≠ 0x52) :
    ∃ ops r, t.inputKeyDraws cfg isHankaku env modifier keycode c = some (ops, r) ∧
      ∀ font s p, ¬ r.contains p → paintAll font s ops p = s p := by
  have hsome : (t.inputKeyDraws cfg isHankaku env modifier keycode c).isSome := by
    have hline := hr.editorInv.line
    unfold inputKeyDraws
    rw [if_neg h10]
    by_cases h8 : c = 8
    · rw [if_pos h8]
      split <;> rfl
    · rw [if_neg h8]
      by_cases hc : c ≠ 0
      · rw [if_pos hc]
        split
        · rename_i hg
          rw [arraySet?_of_lt hline.linebufIndex_nonneg (by rw [hline.linebuf_length]; omega)]
          rfl
        · rfl
      · obtain ⟨h51, h52⟩ := harrow (not_not.mp hc)
        rw [if_neg hc, if_neg h51, if_neg h52]
        rfl
  obtain ⟨⟨ops, r⟩, h⟩ := Option.isSome_iff_exists.mp hsome
  exact ⟨ops, r, h, fun font s _ hp =>
    paintAll_outside (inputKeyDraws_within env t modifier keycode c h10 harrow h) hp s⟩

theorem Reach.inputKey_changes_only_its_rect_typed :
    (97 : UInt8) ≠ 10 ∧ ((97 : UInt8) = 0 → (0x04 : UInt8) ≠ 0x51 ∧ (0x04 : UInt8) ≠ 0x52) ∧
      ∃ ops r, (Terminal.fresh exampleConfig asciiHankaku asciiEnv true).inputKeyDraws
          exampleConfig asciiHankaku asciiEnv 0 0x04 97 = some (ops, r) ∧
        ∀ font s p, ¬ r.contains p → paintAll font s ops p = s p :=
  ⟨by decide, by decide, Reach.inputKey_changes_only_its_rect (Reach.fresh asciiEnv) asciiEnv
    0 0x04 97 (by decide) (by decide)⟩

/-- `'\b'` from a column `x > 0` ends by drawing the cursor white at column `x - 1`. -/
theorem inputKeyDraws_backspace_whitens_cursor (env : LineEnv) (t : Terminal)
    (modifier keycode : UInt8) (hw : t.showWindow = true) (hx : t.cursor.x > 0) :
    ∃ ops r, t.inputKeyDraws cfg isHankaku env modifier keycode 8 = some (ops, r) ∧
      ∀ font s, paintAll font s ops ((calcCursorPos t).1 - 8, (calcCursorPos t).2) = 0xffffff := by
  refine ⟨_, _, by rw [inputKeyDraws, if_neg (by decide), if_pos rfl, if_pos hx], fun font s => ?_⟩
  simp only [drawCursor, hw, if_true]
  exact paintAll_fill_append (by simp only [cursorRect, calcCursorPos, Rect.contains]; omega)
    _ s _ [] (by simp)

/-- From column `0`, an arrow's `HistoryUpDown` returns the row from column `1` on, while the
`DrawCursor(false)` before it paints the cursor's pixel at column `0` black, and nothing
after it draws there. -/
theorem inputKeyDraws_history_blackens_cursor (env : LineEnv) (t : Terminal)
    (modifier keycode : UInt8) (hk : keycode = 0x51 ∨ keycode = 0x52)
    (hw : t.showWindow = true) (hx : t.cursor.x = 0) {ops : List DrawOp} {r : Rect}
    (h : t.inputKeyDraws cfg isHankaku env modifier keycode 0 = some (ops, r)) :
    ¬ r.contains (calcCursorPos t) ∧
      ∀ font s, paintAll font s ops (calcCursorPos t) = 0 := by
  obtain ⟨t', ht', rfl, rfl⟩ : ∃ t', t.historyUpDown (if keycode = 0x51 then -1 else 1) = some t' ∧
      drawCursor t false ++ ((historyDraws cfg t t').1 ++ drawCursor t' true) = ops ∧
      (historyDraws cfg t t').2 = r := by
    unfold inputKeyDraws at h
    rcases hk with rfl | rfl <;> simpa [hw] using h
  obtain ⟨hx', hy', hw'⟩ := historyUpDown_cursor ht'
  have hleft : ∀ op ∈ (historyDraws cfg t t').1 ++ drawCursor t' true,
      (calcCursorPos t).1 < op.target.x := by
    intro op hop
    simp only [historyDraws, drawCursor, hw', hw, List.cons_append, List.mem_cons,
      List.mem_append, if_true, List.mem_singleton, List.not_mem_nil, or_false] at hop
    rcases hop with rfl | hop | rfl
    · simp [DrawOp.target, cursorRect, calcCursorPos, hx]
    · have := writeString_x_le _ _ op hop
      simp only [cursorRect, calcCursorPos, hx] at this ⊢
      omega
    · simp only [DrawOp.target, cursorRect, calcCursorPos]
      omega
  refine ⟨Rect.not_contains_of_lt_x (by simp [historyDraws, cursorRect, calcCursorPos, hx]),
    fun font s => ?_⟩
  simp only [drawCursor, hw, if_true, Bool.false_eq_true, if_false, List.singleton_append,
    List.cons_append]
  exact paintAll_fill_append (by simp [cursorRect, Rect.contains]) 0 s [] _
    fun op hop => Rect.not_contains_of_lt_x (hleft op hop)

/-- `Print("\n")` on the last row: its rectangle is that row, while `Scroll1` gives each
pixel of the row above the colour of the pixel below it, once the cursor is erased. -/
theorem printDraws_scroll_copies_row_above (t : Terminal) (hw : t.showWindow = true)
    (h2 : 2 ≤ cfg.kRows) (hy : t.cursor.y = cfg.kRows - 1) {q : Int × Int}
    (hqx : kTopLeftMargin.1 + 4 ≤ q.1 ∧ q.1 < kTopLeftMargin.1 + 4 + 8 * cfg.kColumns)
    (hqy : kTopLeftMargin.2 + 4 + 16 * (cfg.kRows - 2) ≤ q.2 ∧
      q.2 < kTopLeftMargin.2 + 4 + 16 * (cfg.kRows - 1)) :
    ¬ (printDraws cfg isHankaku t [10]).2.contains q ∧
      ∀ font s, paintAll font s (printDraws cfg isHankaku t [10]).1 q =
        paintAll font s (drawCursor t false) (q.1, q.2 + 16) := by
  have hnl : t.printChar cfg isHankaku 10 = t.newline cfg := by simp [printChar, hw]
  have hdraw : printStringDraws cfg isHankaku t [10] = scroll1 cfg t := by
    simp [printStringDraws, printCharDraws, hw, newlineDraws, hy]
  refine ⟨?_, fun font s => ?_⟩
  · simp only [printDraws, printString_cons, printString_nil, hnl, Rect.contains, calcCursorPos,
      newline, hy, lt_self_iff_false, if_false]
    omega
  · simp only [printDraws, hdraw, printString_cons, printString_nil, hnl, paintAll_append]
    rw [paintAll_of_not_contains _ _ fun op hop hc => ?_]
    · simp only [scroll1, paintAll, List.foldl_cons, List.foldl_nil, DrawOp.paint, Rect.contains,
        hy]
      split_ifs
      · omega
      · exact congrArg (List.foldl (DrawOp.paint font) s (drawCursor t false))
          (Prod.ext (by dsimp only; omega) (by dsimp only; omega))
      · omega
    · simp only [drawCursor, newline, hw, if_true, List.mem_singleton] at hop
      subst hop
      simp only [DrawOp.target, cursorRect, calcCursorPos, Rect.contains, hy] at hc
      split_ifs at hc <;> omega

end Rectangles

/-! ## `Print` draws inside its `DrawArea` unless it scrolls -/

/-- The rectangle a `DrawArea` of `Print` names: the inner area's width, over the text rows
`y₀` to `y₁`. -/
def textRows (y₀ y₁ : Int) : Rect :=
  ⟨kTopLeftMargin.1, kTopLeftMargin.2 + 4 + 16 * y₀, (innerSize cfg).1, 16 * (y₁ - y₀) + 16⟩

section PrintArea

variable {cfg isHankaku} {t : Terminal}

theorem le_wrapFor_y (c : UInt32) : t.cursor.y ≤ (t.wrapFor cfg isHankaku c).cursor.y := by
  unfold wrapFor newline
  split_ifs <;> (try dsimp only) <;> omega

theorem le_printChar_y (c : UInt32) : t.cursor.y ≤ (t.printChar cfg isHankaku c).cursor.y := by
  have := @le_wrapFor_y cfg isHankaku t c
  unfold printChar newline
  split_ifs <;> (try dsimp only) <;> omega

theorem le_printString_y :
    ∀ (cs : List UInt32) (t : Terminal), t.cursor.y ≤ (t.printString cfg isHankaku cs).cursor.y
  | [], _ => le_rfl
  | c :: cs, _ => (le_printChar_y c).trans (le_printString_y cs _)

/-- From a cursor in the grid, what `Print(char32_t c)` draws lies on the rows from the
cursor's to any row `y₁` at or below the one it leaves the cursor on and above the last. -/
theorem within_printCharDraws (hc : CursorInv cfg t) (c : UInt32) {y₁ : Int}
    (hy₁ : (t.printChar cfg isHankaku c).cursor.y ≤ y₁) (hlast : y₁ < cfg.kRows - 1) :
    Within (printCharDraws cfg isHankaku t c) (textRows cfg t.cursor.y y₁) := by
  have hnl : newlineDraws cfg t = [] := by
    have := @le_printChar_y cfg isHankaku t c
    simp only [newlineDraws, if_pos (show t.cursor.y < cfg.kRows - 1 by omega)]
  obtain ⟨hx0, hx, -, -⟩ := hc.wrapFor isHankaku c
  have hy₀ := @le_wrapFor_y cfg isHankaku t c
  unfold printCharDraws
  by_cases hw : t.showWindow = true
  · by_cases h10 : c = 10
    · simp [Within, hw, h10, hnl]
    · have hwrap : (t.wrapFor cfg isHankaku c).cursor.y ≤ y₁ := by
        simpa [printChar, hw, h10] using hy₁
      intro op hop
      by_cases hk : isHankaku c = true <;>
        simp only [hw, h10, hk, hnl, Bool.not_true, Bool.false_eq_true, if_true, if_false,
          ite_self, List.nil_append, List.mem_singleton] at hop hx <;>
        subst hop <;>
        simp only [DrawOp.target, Rect.Sub, cursorRect, calcCursorPos, textRows, innerSize] <;>
        omega
  · simp [Within, hw]

/-- The same over the code points `Print(s, len)` decodes, when the cursor ends above the
last row. -/
theorem within_printStringDraws :
    ∀ (cs : List UInt32) (t : Terminal), CursorInv cfg t →
      (t.printString cfg isHankaku cs).cursor.y < cfg.kRows - 1 →
      Within (printStringDraws cfg isHankaku t cs)
        (textRows cfg t.cursor.y (t.printString cfg isHankaku cs).cursor.y)
  | [], _, _, _ => by simp [printStringDraws, Within]
  | c :: cs, t, hc, hlast => by
    have hrest := within_printStringDraws cs _ (hc.printChar isHankaku c) hlast
    have hmono := @le_printChar_y cfg isHankaku t c
    refine Within.append (within_printCharDraws hc c (le_printString_y cs _) hlast)
      (hrest.mono ?_)
    simp only [Rect.Sub, textRows, printString_cons]
    omega

/-- `Print(s, len)` from a cursor in the grid left of column `kColumns`, that leaves the
cursor left of column `kColumns` and above the last row, changes no pixel outside the
`DrawArea` rectangle it sends, whatever the font and the pixels before. -/
theorem printDraws_changes_only_its_rect (t : Terminal) (cs : List UInt32)
    (hc : CursorInv cfg t) (hx : t.cursor.x < cfg.kColumns)
    (hx' : (t.printString cfg isHankaku cs).cursor.x < cfg.kColumns)
    (hy' : (t.printString cfg isHankaku cs).cursor.y < cfg.kRows - 1) :
    ∀ font s p, ¬ (printDraws cfg isHankaku t cs).2.contains p →
      paintAll font s (printDraws cfg isHankaku t cs).1 p = s p := by
  intro font s p hp
  have hy := @le_printString_y cfg isHankaku cs t
  have hx0 := hc.x_nonneg
  have hx0' := (hc.printString isHankaku cs).x_nonneg
  have hrect : (printDraws cfg isHankaku t cs).2 =
      textRows cfg t.cursor.y (t.printString cfg isHankaku cs).cursor.y := by
    simp only [printDraws, textRows, calcCursorPos, innerSize, Rect.mk.injEq, true_and]
    omega
  refine paintAll_outside ?_ hp s
  rw [hrect]
  refine ((within_drawCursor ?_ false).append (within_printStringDraws cs t hc hy')).append
    (within_drawCursor ?_ true) <;>
    simp only [Rect.Sub, cursorRect, calcCursorPos, textRows, innerSize] <;> omega

theorem printDraws_changes_only_its_rect_fresh :
    CursorInv exampleConfig (fresh exampleConfig asciiHankaku asciiEnv true) ∧
      (fresh exampleConfig asciiHankaku asciiEnv true).cursor.x < exampleConfig.kColumns ∧
      ((fresh exampleConfig asciiHankaku asciiEnv true).printString exampleConfig asciiHankaku
        [0x61]).cursor.x < exampleConfig.kColumns ∧
      ((fresh exampleConfig asciiHankaku asciiEnv true).printString exampleConfig asciiHankaku
        [0x61]).cursor.y < exampleConfig.kRows - 1 ∧
      ∀ font s p, ¬ (printDraws exampleConfig asciiHankaku
          (fresh exampleConfig asciiHankaku asciiEnv true) [0x61]).2.contains p →
        paintAll font s (printDraws exampleConfig asciiHankaku
          (fresh exampleConfig asciiHankaku asciiEnv true) [0x61]).1 p = s p := by
  have hc : CursorInv exampleConfig (fresh exampleConfig asciiHankaku asciiEnv true) :=
    ⟨by decide, by decide, by decide, by decide⟩
  exact ⟨hc, by decide, by decide, by decide,
    printDraws_changes_only_its_rect _ _ hc (by decide) (by decide) (by decide)⟩

end PrintArea

/-- After `'\b'` from a fresh terminal's column `1` to column `0`, which leaves the cursor
white at pixel `(8, 28)`, the up arrow reports the row from column `1` on and paints
`(8, 28)` black: a pixel the call changes lies outside its rectangle. -/
theorem inputKey_history_changes_pixel_outside_rect :
    ∃ t₁ t₂ : Terminal, ∃ ops₁ ops₂ : List DrawOp, ∃ r₁ r₂ : Rect,
      Reach exampleConfig asciiHankaku t₁ [] ∧ Reach exampleConfig asciiHankaku t₂ [] ∧
      t₁.inputKey exampleConfig asciiHankaku asciiEnv 0 0x2a 8 = some (t₂, []) ∧
      t₁.inputKeyDraws exampleConfig asciiHankaku asciiEnv 0 0x2a 8 = some (ops₁, r₁) ∧
      t₂.inputKeyDraws exampleConfig asciiHankaku asciiEnv 0 0x52 0 = some (ops₂, r₂) ∧
      ¬ r₂.contains (8, 28) ∧
      ∀ font s, paintAll font s ops₁ (8, 28) = 0xffffff ∧
        paintAll font (paintAll font s ops₁) ops₂ (8, 28) = 0 := by
  let t₁ := Terminal.fresh exampleConfig asciiHankaku asciiEnv true
  have hf : Reach exampleConfig asciiHankaku t₁ [] := .fresh asciiEnv
  have hx : t₁.cursor.x = 1 := by decide
  have hy : t₁.cursor.y = 0 := by decide
  have hi : t₁.linebufIndex = 0 := by decide
  have hw : t₁.showWindow = true := by decide
  let t₂ : Terminal := { t₁ with cursor := { t₁.cursor with x := 0 } }
  have h₁ : t₁.inputKey exampleConfig asciiHankaku asciiEnv 0 0x2a 8 = some (t₂, []) := by
    simp [Terminal.inputKey, hx, hi, t₂]
  have h₂ : Reach exampleConfig asciiHankaku t₂ [] := by
    have := Reach.inputKey asciiEnv 0 0x2a 8 hf h₁
    rwa [if_neg (by decide)] at this
  have hp : calcCursorPos t₂ = (8, 28) := by simp [calcCursorPos, kTopLeftMargin, hy, t₂]
  have hp₁ : ((calcCursorPos t₁).1 - 8, (calcCursorPos t₁).2) = (8, 28) := by
    simp [calcCursorPos, kTopLeftMargin, hx, hy]
  obtain ⟨ops₁, r₁, hd₁, hwhite⟩ := inputKeyDraws_backspace_whitens_cursor asciiEnv t₁ 0 0x2a hw
    (by rw [hx]; decide)
  obtain ⟨t', ht', -⟩ := h₂.editorInv.historyUpDown 1
  have hd₂ : t₂.inputKeyDraws exampleConfig asciiHankaku asciiEnv 0 0x52 0 =
      some (drawCursor t₂ false ++ (historyDraws exampleConfig t₂ t').1 ++ drawCursor t' true,
        (historyDraws exampleConfig t₂ t').2) := by
    simp [inputKeyDraws, ht', hw]
  obtain ⟨hout, hblack⟩ := inputKeyDraws_history_blackens_cursor asciiEnv t₂ 0 0x52 (.inr rfl)
    hw rfl hd₂
  exact ⟨t₁, t₂, ops₁, _, r₁, _, hf, h₂, h₁, hd₁, hd₂, hp ▸ hout, fun font s =>
    ⟨hp₁ ▸ hwhite font s, hp ▸ hblack font _⟩⟩

end Terminal

end HonOS
