/-
# Address spaces for a program: `SetupPML4`, `FreePML4` and `LoadApp`

`SetupPML4` gives the current task a fresh page-map root and installs it; `FreePML4` takes
it back; `LoadApp` builds the address space of a program, from `app_loads` when the file
was loaded before and otherwise by parsing the file and loading its segments into a root
that then stays in `app_loads`.

The file system (`fat::LoadFile`) is a function from directory entries to file contents;
`LoadApp` reads the ELF header out of the file buffer, little-endian, as its
`reinterpret_cast` does. Bytes past the end of the buffer read as `0`.

`loadAppMissReads` lists, in order, the byte ranges of `file_buf` that the cache-miss path
reads: the magic, the header fields, the program headers `GetFirstLoadAddress` and
`CopyLoadSegments` look at, and the source of each segment's `memcpy`.
`loadAppMiss_reads_past_file`: nothing compares them with `file_size`, and a file that is
only the magic has its `e_type` read past its end.
-/
import HonOS.Elf

namespace HonOS

/-! ## `SetupPML4` and `FreePML4` -/

/-- `SetupPML4`: a fresh root (which receives the boot half of the current one, not
modelled), installed in CR3 and in the task's saved context. -/
def setupPML4 (k : Kernel) : WithError Nat × Kernel :=
  let r := newPageMap k
  if r.1.error.isErr then r
  else (r.1, { setCR3 r.1.value r.2 with task := { r.2.task with cr3 := r.1.value } })

/-- `FreePML4`: clear the task's `cr3`, reinstall the boot page map and free the root. -/
def freePML4 (k : Kernel) : Error × Kernel :=
  freePageMap k.task.cr3 (resetCR3 { k with task := { k.task with cr3 := 0 } })

/-- A successful `SetupPML4` allocates a frame that was free as a new root and installs
it; a failed one changes nothing. -/
theorem setupPML4_spec (k : Kernel) :
    ((setupPML4 k).1.error = .kSuccess ∧ (setupPML4 k).1.value ∉ k.mem.frames ∧
      (setupPML4 k).2 = { k with
        mem := { k.mem with used := ((setupPML4 k).1.value, .root) :: k.mem.used },
        cr3 := (setupPML4 k).1.value,
        task := { k.task with cr3 := (setupPML4 k).1.value } }) ∨
    ((setupPML4 k).1.error = .kOutOfMemory ∧ (setupPML4 k).2 = k) := by
  unfold setupPML4 newPageMap
  cases h : k.mem.allocate .root with
  | none => simp
  | some fm =>
    obtain ⟨f, m⟩ := fm
    obtain ⟨hf, rfl⟩ := Memory.allocate_eq_some h
    simp [hf, setCR3]

theorem setupPML4_ok {k : Kernel} (h : (setupPML4 k).1.error = .kSuccess) :
    (setupPML4 k).1.value ∉ k.mem.frames ∧
      (setupPML4 k).2 = { k with
        mem := { k.mem with used := ((setupPML4 k).1.value, .root) :: k.mem.used },
        cr3 := (setupPML4 k).1.value,
        task := { k.task with cr3 := (setupPML4 k).1.value } } := by
  rcases setupPML4_spec k with h' | h'
  · exact h'.2
  · simp [h'.1] at h

/-- The facts about a successful `SetupPML4` that its callers use. -/
theorem setupPML4_eq_ok {k k₁ : Kernel} {r : Nat} (h : setupPML4 k = (⟨r, .kSuccess⟩, k₁)) :
    r ∉ k.mem.frames ∧ k₁.mem.roots = r :: k.mem.roots ∧ k₁.mem.frames = r :: k.mem.frames ∧
      k₁.task.cr3 = r ∧ k₁.cr3 = r ∧ k₁.appLoads = k.appLoads ∧ k₁.bootPml4 = k.bootPml4 ∧
      k₁.ops = k.ops := by
  have hok := setupPML4_ok (k := k) (by rw [h])
  rw [h] at hok
  obtain ⟨hr, hk⟩ := hok
  simp only at hr hk
  subst hk
  simp [hr]

@[simp] theorem setupPML4_appLoads (k : Kernel) : (setupPML4 k).2.appLoads = k.appLoads := by
  rcases setupPML4_spec k with h | h
  · rw [h.2.2]
  · rw [h.2]

@[simp] theorem setupPML4_bootPml4 (k : Kernel) : (setupPML4 k).2.bootPml4 = k.bootPml4 := by
  rcases setupPML4_spec k with h | h
  · rw [h.2.2]
  · rw [h.2]

@[simp] theorem freePML4_fst (k : Kernel) : (freePML4 k).1 = .kSuccess := rfl

/-- `FreePML4` frees the root in the task's context, clears that context and installs the
boot page map. -/
theorem freePML4_snd (k : Kernel) :
    (freePML4 k).2 =
      { k with
        mem := k.mem.free k.task.cr3
        cr3 := k.bootPml4
        task := { k.task with cr3 := 0 } } := rfl

/-! ## Reading the ELF header out of the file buffer -/

/-- The `n` bytes of `buf` from offset `off`. -/
def readBytes (buf : List UInt8) (off n : Nat) : List UInt8 :=
  (List.range n).map fun i => buf.getD (off + i) 0

/-- The little-endian number in the `n` bytes of `buf` from offset `off`. -/
def readLE (buf : List UInt8) (off n : Nat) : Nat :=
  (readBytes buf off n).foldr (fun b acc => b.toNat + 256 * acc) 0

/-- The program header at offset `off` of the buffer (`Elf64_Phdr`, 56 bytes). -/
def Elf64Phdr.ofBytes (buf : List UInt8) (off : Nat) : Elf64Phdr where
  pType := UInt32.ofNat (readLE buf off 4)
  pOffset := UInt64.ofNat (readLE buf (off + 8) 8)
  pVaddr := UInt64.ofNat (readLE buf (off + 16) 8)
  pFilesz := UInt64.ofNat (readLE buf (off + 32) 8)
  pMemsz := UInt64.ofNat (readLE buf (off + 40) 8)

/-- `reinterpret_cast<Elf64_Ehdr*>(&file_buf[0])`: `e_type`, `e_entry`, and the `e_phnum`
program headers from offset `e_phoff`. -/
def Elf64Ehdr.ofBytes (buf : List UInt8) : Elf64Ehdr where
  eType := UInt16.ofNat (readLE buf 16 2)
  eEntry := UInt64.ofNat (readLE buf 24 8)
  phdrs := (List.range (readLE buf 56 2)).map fun i =>
    Elf64Phdr.ofBytes buf (readLE buf 32 8 + 56 * i)

/-- The magic `"\x7f" "ELF"` that `e_ident` must start with. -/
def elfMagic : List UInt8 := [0x7f, 0x45, 0x4c, 0x46]

/-! ## `LoadApp` -/

/-- `app_loads->insert`: `std::map::insert` keeps an existing entry. -/
def insertAppLoad (entry : Nat) (info : AppLoadInfo) (m : List (Nat × AppLoadInfo)) :
    List (Nat × AppLoadInfo) :=
  if (m.lookup entry).isSome then m else m ++ [(entry, info)]

/-- The cache-miss path of `LoadApp`, with `temp_pml4` installed: check the magic, load
the segments, record the image in `app_loads` under `temp_pml4`, then give the task a
second fresh root that aliases it. -/
def loadAppMiss (file : List UInt8) (entry tempPml4 : Nat) (k : Kernel) :
    WithError AppLoadInfo × Kernel :=
  if readBytes file 0 4 ≠ elfMagic then (⟨⟨0, 0, 0⟩, .kInvalidFile⟩, k)
  else
    let elfHeader := Elf64Ehdr.ofBytes file
    let l := loadELF elfHeader k
    if l.1.error.isErr then (⟨⟨0, 0, 0⟩, l.1.error⟩, l.2)
    else
      let appLoad : AppLoadInfo := ⟨l.1.value, elfHeader.eEntry, tempPml4⟩
      let k := { l.2 with appLoads := insertAppLoad entry appLoad l.2.appLoads }
      let r := setupPML4 k
      if r.1.error.isErr then (⟨appLoad, r.1.error⟩, r.2)
      else
        let c := copyPageMaps r.1.value tempPml4 r.2
        (⟨{ appLoad with pml4 := r.1.value }, c.1⟩, c.2)

/-- `LoadApp`: install a fresh root; on a hit in `app_loads` alias the cached root into it,
on a miss load the file. -/
def loadApp (fs : Nat → List UInt8) (entry : Nat) (k : Kernel) :
    WithError AppLoadInfo × Kernel :=
  let r := setupPML4 k
  if r.1.error.isErr then (⟨⟨0, 0, 0⟩, r.1.error⟩, r.2)
  else
    match r.2.appLoads.lookup entry with
    | some appLoad =>
      let c := copyPageMaps r.1.value appLoad.pml4 r.2
      (⟨{ appLoad with pml4 := r.1.value }, c.1⟩, c.2)
    | none => loadAppMiss (fs entry) entry r.1.value r.2

/-! ## What the cache-miss path reads from the file buffer -/

/-- The ranges `GetFirstLoadAddress` reads from the program header at index `i` on, with
the table at offset `phoff`: each header's `p_type` up to the first `PT_LOAD`, whose
`p_vaddr` it returns. A range `(off, n)` is the bytes `[off, off + n)`. -/
def firstLoadReads (phoff : Nat) : Nat → List Elf64Phdr → List (Nat × Nat)
  | _, [] => []
  | i, ph :: phs => (phoff + 56 * i, 4) ::
    if ph.pType = PT_LOAD then [(phoff + 56 * i + 16, 8)]
    else firstLoadReads phoff (i + 1) phs

/-- The ranges the loop of `CopyLoadSegments` reads from the header at index `i` on, as it
runs from `k`: `p_type`; for a `PT_LOAD` header `p_vaddr` and `p_memsz`, and, once
`SetupPageMaps` has succeeded, `p_offset`, `p_filesz` and the `p_filesz` bytes its `memcpy`
copies from offset `p_offset`. -/
def copyLoadSegmentsReads (phoff : Nat) : Nat → List Elf64Phdr → Kernel → List (Nat × Nat)
  | _, [], _ => []
  | i, ph :: phs, k =>
    let h := phoff + 56 * i
    (h, 4) ::
      if ph.pType ≠ PT_LOAD then copyLoadSegmentsReads phoff (i + 1) phs k
      else
        let r := setupPageMaps ph.pVaddr ph.num4kpages k
        (h + 16, 8) :: (h + 40, 8) ::
          if r.1.isErr then []
          else
            (h + 8, 8) :: (h + 32, 8) :: (ph.pOffset.toNat, ph.pFilesz.toNat) ::
              copyLoadSegmentsReads phoff (i + 1) phs { r.2 with ops := r.2.ops ++ ph.writeOps }

/-- The ranges of `file_buf` the cache-miss path of `LoadApp` reads, in order, as it runs
from `k`: the `memcmp` of `e_ident`; then `LoadELF`'s `e_type`, `e_phoff` and `e_phnum`
(read again by each loop) and its loops; then `e_entry`. -/
def loadAppMissReads (file : List UInt8) (k : Kernel) : List (Nat × Nat) :=
  (0, 4) ::
    if readBytes file 0 4 ≠ elfMagic then []
    else
      let ehdr := Elf64Ehdr.ofBytes file
      let phoff := readLE file 32 8
      (16, 2) ::
        if ehdr.eType ≠ ET_EXEC then []
        else
          (32, 8) :: (56, 2) :: firstLoadReads phoff 0 ehdr.phdrs ++
            if getFirstLoadAddress ehdr.phdrs < 0xffff800000000000 then []
            else
              (32, 8) :: (56, 2) :: copyLoadSegmentsReads phoff 0 ehdr.phdrs k ++
                if (loadELF ehdr k).1.error.isErr then [] else [(24, 8)]

/-- A file that holds only the ELF magic passes the `memcmp`, and `LoadELF` then reads
`e_type` at offsets `16` and `17` of a 4-byte buffer, whatever the kernel's state. -/
theorem loadAppMiss_reads_past_file (k : Kernel) :
    ∃ r ∈ loadAppMissReads elfMagic k, elfMagic.length < r.1 + r.2 :=
  ⟨(16, 2), by simp [loadAppMissReads, show readBytes elfMagic 0 4 = elfMagic by decide],
    by decide⟩

/-- A call that fails in its first `SetupPML4` returns that error. -/
theorem setupPML4_ok_of_loadApp {fs : Nat → List UInt8} {entry : Nat} {k : Kernel}
    (h : (loadApp fs entry k).1.error = .kSuccess) : (setupPML4 k).1.error = .kSuccess := by
  by_contra hs
  simp [loadApp, hs] at h

/-- `LoadApp` on an entry in `app_loads` that succeeds returns the cached image with the
fresh root of its `SetupPML4`, and changes nothing else. -/
theorem loadApp_hit {fs : Nat → List UInt8} {entry : Nat} {k : Kernel} {info : AppLoadInfo}
    (hlook : k.appLoads.lookup entry = some info) (h : (loadApp fs entry k).1.error = .kSuccess) :
    ∃ r₁ k₁, setupPML4 k = (⟨r₁, .kSuccess⟩, k₁) ∧
      loadApp fs entry k = (⟨{ info with pml4 := r₁ }, .kSuccess⟩, k₁) := by
  rcases hs : setupPML4 k with ⟨⟨r₁, e₁⟩, k₁⟩
  have he₁ : e₁ = .kSuccess := by simpa [hs] using setupPML4_ok_of_loadApp h
  have hk₁ : k₁.appLoads = k.appLoads := by simpa [hs] using setupPML4_appLoads k
  subst he₁
  exact ⟨r₁, k₁, rfl, by simp [loadApp, hs, hk₁, hlook, copyPageMaps]⟩

/-- `LoadApp` on an entry not in `app_loads` that succeeds: the image is loaded with the
first fresh root in CR3, recorded in `app_loads` under that root, and the task runs on a
second fresh root. -/
theorem loadApp_miss {fs : Nat → List UInt8} {entry : Nat} {k : Kernel}
    (hlook : k.appLoads.lookup entry = none) (h : (loadApp fs entry k).1.error = .kSuccess) :
    ∃ r₁ k₁ v kL r₂ k₂, setupPML4 k = (⟨r₁, .kSuccess⟩, k₁) ∧
      loadELF (Elf64Ehdr.ofBytes (fs entry)) k₁ = (⟨v, .kSuccess⟩, kL) ∧
      setupPML4 { kL with appLoads := k.appLoads ++
        [(entry, ⟨v, (Elf64Ehdr.ofBytes (fs entry)).eEntry, r₁⟩)] } = (⟨r₂, .kSuccess⟩, k₂) ∧
      loadApp fs entry k = (⟨⟨v, (Elf64Ehdr.ofBytes (fs entry)).eEntry, r₂⟩, .kSuccess⟩, k₂) := by
  rcases hs : setupPML4 k with ⟨⟨r₁, e₁⟩, k₁⟩
  have he₁ : e₁ = .kSuccess := by simpa [hs] using setupPML4_ok_of_loadApp h
  have hk₁ : k₁.appLoads = k.appLoads := by simpa [hs] using setupPML4_appLoads k
  subst he₁
  have hmiss : loadApp fs entry k = loadAppMiss (fs entry) entry r₁ k₁ := by
    simp [loadApp, hs, hk₁, hlook]
  rw [hmiss] at h ⊢
  rcases hl : loadELF (Elf64Ehdr.ofBytes (fs entry)) k₁ with ⟨⟨v, eL⟩, kL⟩
  have hkL : kL.appLoads = k.appLoads := by
    simpa [hl, hk₁] using (keepsRoots_loadELF (Elf64Ehdr.ofBytes (fs entry)) k₁).appLoads
  by_cases hm : readBytes (fs entry) 0 4 = elfMagic
  · have heL : eL = .kSuccess := by
      by_contra hne
      simp [loadAppMiss, hm, hl, hne] at h
    subst heL
    have hins : insertAppLoad entry ⟨v, (Elf64Ehdr.ofBytes (fs entry)).eEntry, r₁⟩ kL.appLoads =
        k.appLoads ++ [(entry, ⟨v, (Elf64Ehdr.ofBytes (fs entry)).eEntry, r₁⟩)] := by
      simp [insertAppLoad, hkL, hlook]
    rcases h₂ : setupPML4 { kL with appLoads := k.appLoads ++
        [(entry, ⟨v, (Elf64Ehdr.ofBytes (fs entry)).eEntry, r₁⟩)] } with ⟨⟨r₂, e₂⟩, k₂⟩
    have he₂ : e₂ = .kSuccess := by
      by_contra hne
      simp [loadAppMiss, hm, hl, hins, h₂, hne] at h
    subst he₂
    exact ⟨r₁, k₁, v, kL, r₂, k₂, rfl, hl, h₂,
      by simp [loadAppMiss, hm, hl, hins, h₂, copyPageMaps]⟩
  · simp [loadAppMiss, hm] at h

end HonOS
