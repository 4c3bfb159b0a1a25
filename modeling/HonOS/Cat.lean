/-
# The `cat` command of `ExecuteLine`

`cat` opens the file with `fat::FileDescriptor` and prints it a code point at a time: it
reads the lead byte into `u8buf[0]`, then the `CountUTF8Size - 1` bytes of the rest of its
sequence into `u8buf[1..]`, decodes `u8buf` with `ConvertUTF8To32`, and prints the code
point, `□` for `0`. It stops when a read returns fewer bytes than it asked for.

`u8buf` is a `char[4]` on the stack that is never cleared; `catLoop` carries it from one
turn to the next, and its bytes before the loop are arbitrary.

* `catLoop_terminates`: `cat` ends on every file within `length + 1` turns, printing at most
  one code point per byte; a byte that starts no sequence, on which `Print(s, len)` loops
  (`print_loops_on_continuation_byte`), is printed as `□`.
* `catLoop_ascii`: on an ASCII file `cat` prints each byte as its code point, `□` for NUL.
* `catLoop_buffer_irrelevant`: what `cat` prints never depends on what `u8buf` held before
  the loop.
* `catLoop_eq_printLoop`: on a file of whole sequences with no NUL, `cat` prints what
  `Print(s, len)` prints on the same bytes, with `□` for code point `0`.
-/
import HonOS.PrintBytes

namespace HonOS

/-! ## The loop -/

/-- `fat::FileDescriptor::Read(buf, len)` (fat.cpp, not under src/) on the bytes of the file
not read yet: the next `len` of them, fewer at the end of the file, and the bytes left. It
returns the number of bytes it read. -/
def readFile (rest : List UInt8) (len : Nat) : List UInt8 × List UInt8 :=
  (rest.take len, rest.drop len)

/-- The buffer after `Read(&u8buf[off], _)` stored the bytes `bs` it read. -/
def writeAt (buf : Nat → UInt8) (off : Nat) (bs : List UInt8) : Nat → UInt8 :=
  fun j => if off ≤ j ∧ j < off + bs.length then bs.getD (j - off) 0 else buf j

/-- `u32 ? u32 : U'□'`. -/
def orWhiteSquare (u32 : UInt32) : UInt32 :=
  if u32 = 0 then 0x25A1 else u32

/-- The `while (true)` loop of `cat` on the bytes of the file not read yet, with `fuel`
turns and the buffer `u8buf`: the code points it prints, `none` when the turns run out. -/
def catLoop : Nat → (Nat → UInt8) → List UInt8 → Option (List UInt32)
  | 0, _, _ => none
  | fuel + 1, u8buf, file =>
    let lead := readFile file 1
    if lead.1.length ≠ 1 then some []
    else
      let u8buf := writeAt u8buf 0 lead.1
      let u8Remain : Int := (countUTF8Size (u8buf 0) : Int) - 1
      let cont := if 0 < u8Remain then readFile lead.2 u8Remain.toNat else ([], lead.2)
      if 0 < u8Remain ∧ (cont.1.length : Int) ≠ u8Remain then some []
      else
        let u8buf := writeAt u8buf 1 cont.1
        (catLoop fuel u8buf cont.2).map (orWhiteSquare (convertUTF8To32 u8buf).1 :: ·)

@[simp] theorem writeAt_nil (buf : Nat → UInt8) (off : Nat) : writeAt buf off [] = buf := by
  funext j
  simp [writeAt]

@[simp] theorem writeAt_singleton_zero (buf : Nat → UInt8) (b : UInt8) :
    writeAt buf 0 [b] 0 = b := rfl

/-- The buffer after a turn reads the lead byte `b` and the `CountUTF8Size b - 1` bytes
after it. -/
def leadBuf (buf : Nat → UInt8) (b : UInt8) (rest : List UInt8) : Nat → UInt8 :=
  writeAt (writeAt buf 0 [b]) 1 (rest.take (countUTF8Size b - 1))

@[simp] theorem leadBuf_zero (buf : Nat → UInt8) (b : UInt8) (rest : List UInt8) :
    leadBuf buf b rest 0 = b := rfl

@[simp] theorem catLoop_nil (fuel : Nat) (buf : Nat → UInt8) :
    catLoop (fuel + 1) buf [] = some [] := rfl

/-- One turn of `cat` on a lead byte `b`: it stops if the file ends inside `b`'s sequence,
and otherwise prints the code point `ConvertUTF8To32` decodes, `□` for `0`, and goes on
after the sequence. A byte that starts no sequence counts as a sequence of one byte. -/
theorem catLoop_cons (fuel : Nat) (buf : Nat → UInt8) (b : UInt8) (rest : List UInt8) :
    catLoop (fuel + 1) buf (b :: rest) =
      if rest.length < countUTF8Size b - 1 then some []
      else (catLoop fuel (leadBuf buf b rest) (rest.drop (countUTF8Size b - 1))).map
        (orWhiteSquare (convertUTF8To32 (leadBuf buf b rest)).1 :: ·) := by
  simp only [catLoop, readFile, List.take_succ_cons, List.take_zero, List.length_singleton,
    ne_eq, not_true_eq_false, if_false, List.drop_succ_cons, List.drop_zero,
    writeAt_singleton_zero, leadBuf]
  by_cases h : 1 < countUTF8Size b
  · have hpos : (0 : Int) < (countUTF8Size b : Int) - 1 := by omega
    have hk : ((countUTF8Size b : Int) - 1).toNat = countUTF8Size b - 1 := by omega
    simp only [if_pos hpos, hk, List.length_take]
    by_cases hr : rest.length < countUTF8Size b - 1
    · rw [if_pos ⟨hpos, by omega⟩, if_pos hr]
    · rw [if_neg fun h' => h'.2 (by omega), if_neg hr]
  · have hpos : ¬ (0 : Int) < (countUTF8Size b : Int) - 1 := by omega
    have hk : countUTF8Size b - 1 = 0 := by omega
    simp [hpos, hk]

/-- After a turn that read the whole sequence of `b`, the bytes `ConvertUTF8To32` reads
are the file's. -/
theorem leadBuf_apply {buf : Nat → UInt8} {b : UInt8} {rest : List UInt8} {j : Nat}
    (hj : j < convertReads b) (hk : countUTF8Size b - 1 ≤ rest.length) :
    leadBuf buf b rest j = (b :: rest).getD j 0 := by
  unfold convertReads at hj
  rcases j with _ | j
  · rfl
  · have hjk : j < countUTF8Size b - 1 := by omega
    simp only [leadBuf, writeAt, List.length_take, min_eq_left hk, if_pos (And.intro
      (Nat.le_add_left 1 j) (by omega : j + 1 < 1 + (countUTF8Size b - 1))), Nat.add_sub_cancel,
      List.getD_eq_getElem?_getD, List.getElem?_take, if_pos hjk, List.getElem?_cons_succ]

/-! ## `cat` ends on every file -/

/-- `cat` ends on every file within `length + 1` turns, whatever bytes it holds, and prints
at most one code point per byte. -/
theorem catLoop_terminates : ∀ (fuel : Nat) (buf : Nat → UInt8) (file : List UInt8),
    file.length < fuel → ∃ out, catLoop fuel buf file = some out ∧ out.length ≤ file.length
  | 0, _, _, h => absurd h (Nat.not_lt_zero _)
  | fuel + 1, _, [], _ => ⟨[], rfl, le_refl _⟩
  | fuel + 1, buf, b :: rest, h => by
    rw [catLoop_cons]
    split
    · exact ⟨[], rfl, Nat.zero_le _⟩
    · obtain ⟨out, hout, hlen⟩ := catLoop_terminates fuel (leadBuf buf b rest)
        (rest.drop (countUTF8Size b - 1))
        (by simp only [List.length_drop, List.length_cons] at h ⊢; omega)
      refine ⟨_, by rw [hout]; rfl, ?_⟩
      simp only [List.length_drop, List.length_cons] at hlen ⊢
      omega

theorem catLoop_terminates_continuation_byte :
    [(0x80 : UInt8)].length < 2 ∧
      ∃ out, catLoop 2 (fun _ => 0) [0x80] = some out ∧ out.length ≤ [(0x80 : UInt8)].length :=
  ⟨by decide, catLoop_terminates 2 (fun _ => 0) [0x80] (by decide)⟩

/-- `u8buf` is never cleared, but what `cat` prints never depends on what it held before
the loop: each turn decodes only bytes it has just read. -/
theorem catLoop_buffer_irrelevant : ∀ (fuel : Nat) (buf buf' : Nat → UInt8) (file : List UInt8),
    catLoop fuel buf file = catLoop fuel buf' file
  | 0, _, _, _ => rfl
  | fuel + 1, _, _, [] => rfl
  | fuel + 1, buf, buf', b :: rest => by
    rw [catLoop_cons, catLoop_cons]
    split
    · rfl
    · rename_i hk
      have hcode : convertUTF8To32 (leadBuf buf b rest) = convertUTF8To32 (leadBuf buf' b rest) :=
        convertUTF8To32_congr fun j hj => by
          rw [leadBuf_zero] at hj
          rw [leadBuf_apply hj (by omega), leadBuf_apply hj (by omega)]
      rw [hcode, catLoop_buffer_irrelevant fuel (leadBuf buf b rest) (leadBuf buf' b rest)]

/-- A byte that starts no UTF-8 sequence, on which `Print(s, len)` stays for good: `cat`
prints `□` for it and goes on with the next byte. -/
theorem catLoop_cons_no_sequence (fuel : Nat) (buf : Nat → UInt8) {b : UInt8}
    (hb : countUTF8Size b = 0) (rest : List UInt8) :
    catLoop (fuel + 1) buf (b :: rest) =
      (catLoop fuel (writeAt buf 0 [b]) rest).map (0x25A1 :: ·) := by
  have hbuf : leadBuf buf b rest = writeAt buf 0 [b] := by
    rw [leadBuf, hb, Nat.zero_sub, List.take_zero, writeAt_nil]
  have hcode : (convertUTF8To32 (leadBuf buf b rest)).1 = 0 := by
    unfold convertUTF8To32
    rw [leadBuf_zero, hb]
  rw [catLoop_cons, hb, if_neg (Nat.not_lt_zero _), hcode, List.drop_zero, hbuf]
  rfl

/-- On a file of ASCII bytes, `cat` prints each byte as its code point, `□` for NUL, and
ends after the last. -/
theorem catLoop_ascii : ∀ (file : List UInt8) (buf : Nat → UInt8) (fuel : Nat),
    file.length < fuel → (∀ b ∈ file, b < 0x80) →
      catLoop fuel buf file = some (file.map fun b => orWhiteSquare b.toUInt32)
  | [], _, fuel + 1, _, _ => rfl
  | b :: rest, buf, fuel + 1, hlen, hascii => by
    have hb : countUTF8Size b = 1 := by
      simp [countUTF8Size, hascii b (List.mem_cons_self b rest)]
    have hcode : (convertUTF8To32 (leadBuf buf b rest)).1 = b.toUInt32 := by
      unfold convertUTF8To32
      rw [leadBuf_zero, hb]
    rw [catLoop_cons, hb, if_neg (Nat.not_lt_zero _), List.drop_zero, hcode,
      catLoop_ascii rest _ fuel (by simp at hlen; omega)
        fun b' hb' => hascii b' (List.mem_cons_of_mem b hb')]
    rfl

theorem catLoop_ascii_hi :
    [(0x68 : UInt8), 0, 0x69].length < 4 ∧ (∀ b ∈ [(0x68 : UInt8), 0, 0x69], b < 0x80) ∧
      catLoop 4 (fun _ => 0) [0x68, 0, 0x69] =
        some ([(0x68 : UInt8), 0, 0x69].map fun b => orWhiteSquare b.toUInt32) :=
  ⟨by decide, by decide, catLoop_ascii _ _ 4 (by decide) (by decide)⟩

/-! ## `cat` and `Print(s, len)` -/

/-- A file of whole UTF-8 sequences with no NUL lead byte: each sequence is a byte that
`CountUTF8Size` gives a length, then the rest of its bytes. -/
inductive Framed : List UInt8 → Prop
  | nil : Framed []
  | cons (b : UInt8) (cont rest : List UInt8) (hb : b ≠ 0)
      (hlen : cont.length + 1 = countUTF8Size b) : Framed rest → Framed (b :: (cont ++ rest))

/-- On a framed file at offset `i` of `s`, ending at `len`, each turn of `cat` prints what
the same turn of `Print(s, len)` prints, `□` for `0`; both end after the last sequence. -/
theorem catLoop_eq_printLoop_from {s : Nat → UInt8} {len : Nat} {file : List UInt8}
    (hf : Framed file) : ∀ {i : Nat}, (∀ j < file.length, s (i + j) = file.getD j 0) →
      i + file.length = len → ∀ fuel buf,
        catLoop fuel buf file =
          (printLoop s len fuel i).map fun out => out.1.map orWhiteSquare := by
  induction hf with
  | nil =>
    intro i _ hlen fuel buf
    cases fuel
    · rfl
    · simp [printLoop, ← hlen]
  | cons b cont rest hb hlen' _ ih =>
    intro i hs hlen fuel buf
    cases fuel with
    | zero => rfl
    | succ fuel =>
      have hs0 : s i = b := by simpa using hs 0 (by simp)
      have hk : countUTF8Size b - 1 = cont.length := by omega
      have hi : i < len := by simp at hlen; omega
      have hlen'' : i + (cont.length + 1) + rest.length = len := by simp at hlen; omega
      have hcode : convertUTF8To32 (leadBuf buf b (cont ++ rest)) =
          convertUTF8To32 fun j => s (i + j) :=
        convertUTF8To32_congr fun j hj => by
          rw [leadBuf_zero] at hj
          have hjl : j < (b :: (cont ++ rest)).length := by
            unfold convertReads at hj
            simp only [List.length_cons, List.length_append]
            omega
          rw [leadBuf_apply hj (by simp; omega), hs j hjl]
      have hnext : i + (convertUTF8To32 fun j => s (i + j)).2 = i + (cont.length + 1) := by
        rw [convertUTF8To32_snd, Nat.add_zero, hs0, hlen']
      have hrest : ∀ j < rest.length, s (i + (cont.length + 1) + j) = rest.getD j 0 := by
        intro j hj
        have := hs (cont.length + 1 + j) (by simp; omega)
        rw [← Nat.add_assoc] at this
        rw [this, show cont.length + 1 + j = (cont.length + j) + 1 by omega, List.getD_cons_succ,
          List.getD_append_right _ _ _ _ (by omega), Nat.add_sub_cancel_left]
      have hsi : s i ≠ 0 := hs0 ▸ hb
      rw [catLoop_cons, if_neg (by simp; omega), hk, List.drop_left, hcode, ih hrest hlen'' fuel]
      simp only [printLoop, if_pos (And.intro hsi hi), hnext, Option.map_map]
      rfl

/-- On a file of whole UTF-8 sequences with no NUL lead byte, `cat` prints what
`Print(s, len)` prints on the same bytes with `len` the file's length, with `□` for code
point `0` (which `C0 80` decodes to), turn for turn. -/
theorem catLoop_eq_printLoop {file : List UInt8} (hf : Framed file) (fuel : Nat)
    (buf : Nat → UInt8) :
    catLoop fuel buf file =
      (printLoop (fun j => file.getD j 0) file.length fuel 0).map fun out =>
        out.1.map orWhiteSquare :=
  catLoop_eq_printLoop_from hf (fun j _ => by rw [Nat.zero_add]) (Nat.zero_add _) fuel buf

theorem catLoop_eq_printLoop_overlong_nul :
    Framed [0x68, 0xc0, 0x80] ∧
      catLoop 4 (fun _ => 0) [0x68, 0xc0, 0x80] =
        (printLoop (fun j => [0x68, 0xc0, 0x80].getD j 0) [0x68, 0xc0, 0x80].length 4 0).map
          fun out => out.1.map orWhiteSquare := by
  have hf : Framed [0x68, 0xc0, 0x80] :=
    .cons 0x68 [] [0xc0, 0x80] (by decide) (by decide)
      (.cons 0xc0 [0x80] [] (by decide) (by decide) .nil)
  exact ⟨hf, catLoop_eq_printLoop hf 4 fun _ => 0⟩

end HonOS
