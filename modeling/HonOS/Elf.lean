/-
# ELF images, `LoadELF` and `CopyLoadSegments`

`GetFirstLoadAddress`, `CopyLoadSegments` and `LoadELF` of terminal.cpp, over the header
that `LoadApp` casts from its file buffer and the program-header table that
`GetProgramHeader` points into.

* `loadELF_accepts_first_load_high`: an image that `LoadELF` accepts is an executable whose
  first `PT_LOAD` segment starts in the higher half, and every `PT_LOAD` segment, the later
  ones unchecked, is mapped and written where its own header says.
* `loadELF_maps_lower_half`: an accepted image whose second segment lies at `0x1000`.
* `loadELF_writes_only_mapped` and `loadELF_copies_past_mapping`: the bytes written for
  the segments stay in the pages mapped for them when every segment starts on a page
  (`writesMapped_of_aligned`); a segment that starts in the middle of a page is copied past
  them.
-/
import HonOS.Paging

namespace HonOS

/-! ## Headers -/

/-- `PT_LOAD` (elf.hpp, not under src/; the value the ELF standard gives it). -/
def PT_LOAD : UInt32 := 1

/-- `ET_EXEC` (elf.hpp, not under src/; the value the ELF standard gives it). -/
def ET_EXEC : UInt16 := 2

/-- `Elf64_Phdr`: the fields of a program header that the loader reads. -/
structure Elf64Phdr where
  pType : UInt32
  pOffset : UInt64
  pVaddr : UInt64
  pFilesz : UInt64
  pMemsz : UInt64
  deriving DecidableEq, Repr

/-- `Elf64_Ehdr` as the loader reads it: type, entry point, and the program-header table
`GetProgramHeader(ehdr)[0, e_phnum)`. -/
structure Elf64Ehdr where
  eType : UInt16
  eEntry : UInt64
  phdrs : List Elf64Phdr
  deriving DecidableEq, Repr

namespace Elf64Phdr

/-- `num_4kpages = (p_memsz + 4095) / 4096`, in `uint64_t`. -/
def num4kpages (ph : Elf64Phdr) : UInt64 := (ph.pMemsz + 4095) / 4096

theorem toNat_num4kpages (ph : Elf64Phdr) :
    ph.num4kpages.toNat = (ph.pMemsz.toNat + 4095) % 2 ^ 64 / 4096 := by
  rw [num4kpages, UInt64.toNat_div, uint64_toNat_add]
  rfl

/-- The `memcpy` of the file bytes and the `memset` of the rest of the segment. -/
def writeOps (ph : Elf64Phdr) : List MemOp :=
  [.copy ph.pVaddr ph.pOffset ph.pFilesz, .fill (ph.pVaddr + ph.pFilesz) (ph.pMemsz - ph.pFilesz)]

/-- Everything `CopyLoadSegments` does for one `PT_LOAD` segment while `pml4` is in CR3:
map `num_4kpages` pages at `p_vaddr`, then copy and fill. -/
def segmentOps (pml4 : Nat) (ph : Elf64Phdr) : List MemOp :=
  .map pml4 ph.pVaddr ph.num4kpages :: ph.writeOps

end Elf64Phdr

/-! ## `LoadELF` -/

/-- `GetFirstLoadAddress`: the `p_vaddr` of the first `PT_LOAD` header, or `0`. -/
def getFirstLoadAddress : List Elf64Phdr → UInt64
  | [] => 0
  | ph :: phs => if ph.pType = PT_LOAD then ph.pVaddr else getFirstLoadAddress phs

/-- The loop of `CopyLoadSegments` over the program headers `phs`, with the `last_addr`
accumulated so far: each `PT_LOAD` segment raises `last_addr` to its end, is mapped with
`SetupPageMaps` (whose error ends the loop), then copied and zero-filled. -/
def copyLoadSegmentsLoop (lastAddr : UInt64) : List Elf64Phdr → Kernel → WithError UInt64 × Kernel
  | [], k => (⟨lastAddr, .kSuccess⟩, k)
  | ph :: phs, k =>
    if ph.pType ≠ PT_LOAD then copyLoadSegmentsLoop lastAddr phs k
    else
      let lastAddr := max lastAddr (ph.pVaddr + ph.pMemsz)
      let r := setupPageMaps ph.pVaddr ph.num4kpages k
      if r.1.isErr then (⟨lastAddr, r.1⟩, r.2)
      else copyLoadSegmentsLoop lastAddr phs { r.2 with ops := r.2.ops ++ ph.writeOps }

/-- `CopyLoadSegments`. -/
def copyLoadSegments (ehdr : Elf64Ehdr) (k : Kernel) : WithError UInt64 × Kernel :=
  copyLoadSegmentsLoop 0 ehdr.phdrs k

/-- `LoadELF`: an executable whose first loadable segment lies in the higher half is loaded
with `CopyLoadSegments`; anything else is `kInvalidFormat`. -/
def loadELF (ehdr : Elf64Ehdr) (k : Kernel) : WithError UInt64 × Kernel :=
  if ehdr.eType ≠ ET_EXEC then (⟨0, .kInvalidFormat⟩, k)
  else if getFirstLoadAddress ehdr.phdrs < 0xffff800000000000 then (⟨0, .kInvalidFormat⟩, k)
  else copyLoadSegments ehdr k

/-! ## What the loop does -/

/-- The `PT_LOAD` headers of a table, in order. -/
def loadHeaders (phs : List Elf64Phdr) : List Elf64Phdr := phs.filter (·.pType = PT_LOAD)

/-- `GetFirstLoadAddress` reads the first `PT_LOAD` header. -/
theorem getFirstLoadAddress_eq (phs : List Elf64Phdr) :
    getFirstLoadAddress phs = ((loadHeaders phs).head?.map (·.pVaddr)).getD 0 := by
  induction phs with
  | nil => rfl
  | cons ph phs ih =>
    by_cases h : ph.pType = PT_LOAD <;> simp [getFirstLoadAddress, loadHeaders, h, ih]

/-- `last_addr` when the loop of `CopyLoadSegments` has run over `phs` from `a`: the
`uint64_t` maximum of `a` and of the ends `p_vaddr + p_memsz` of the `PT_LOAD` segments, each
sum taken in `uint64_t`. -/
def segmentsEnd (a : UInt64) (phs : List Elf64Phdr) : UInt64 :=
  (loadHeaders phs).foldl (fun a ph => max a (ph.pVaddr + ph.pMemsz)) a

section Loop

variable {a : UInt64} {ph : Elf64Phdr} {phs : List Elf64Phdr} {k : Kernel}

theorem copyLoadSegmentsLoop_skip (h : ph.pType ≠ PT_LOAD) :
    copyLoadSegmentsLoop a (ph :: phs) k = copyLoadSegmentsLoop a phs k := by
  simp [copyLoadSegmentsLoop, h]

theorem copyLoadSegmentsLoop_fail (h : ph.pType = PT_LOAD)
    (he : (setupPageMaps ph.pVaddr ph.num4kpages k).1.isErr) :
    copyLoadSegmentsLoop a (ph :: phs) k =
      (⟨max a (ph.pVaddr + ph.pMemsz), (setupPageMaps ph.pVaddr ph.num4kpages k).1⟩,
        (setupPageMaps ph.pVaddr ph.num4kpages k).2) := by
  simp [copyLoadSegmentsLoop, h, he]

theorem copyLoadSegmentsLoop_load (h : ph.pType = PT_LOAD)
    (he : (setupPageMaps ph.pVaddr ph.num4kpages k).1 = .kSuccess) :
    copyLoadSegmentsLoop a (ph :: phs) k =
      copyLoadSegmentsLoop (max a (ph.pVaddr + ph.pMemsz)) phs
        { (setupPageMaps ph.pVaddr ph.num4kpages k).2 with
          ops := k.ops ++ Elf64Phdr.segmentOps k.cr3 ph } := by
  have he' : (setupPageMaps ph.pVaddr ph.num4kpages k).1.isErr = false :=
    Error.isErr_eq_false.mpr he
  simp only [copyLoadSegmentsLoop, h, ne_eq, not_true_eq_false, if_false, he', Bool.false_eq_true]
  simp [Elf64Phdr.segmentOps, setupPageMaps]

end Loop

/-- The loop only maps pages below the root in CR3 and logs its writes. -/
theorem keepsRoots_copyLoadSegmentsLoop (a : UInt64) (phs : List Elf64Phdr) (k : Kernel) :
    KeepsRoots k (copyLoadSegmentsLoop a phs k).2 := by
  induction phs generalizing a k with
  | nil => exact .refl k
  | cons ph phs ih =>
    have hs := keepsRoots_setupPageMaps ph.pVaddr ph.num4kpages k
    by_cases hph : ph.pType = PT_LOAD
    · cases he : (setupPageMaps ph.pVaddr ph.num4kpages k).1.isErr
      · rw [copyLoadSegmentsLoop_load hph (Error.isErr_eq_false.mp he)]
        exact hs.trans ((KeepsRoots.log _ _).trans (ih _ _))
      · rw [copyLoadSegmentsLoop_fail hph he]
        exact hs
    · rw [copyLoadSegmentsLoop_skip hph]
      exact ih a k

/-- A loop that succeeds ends with `last_addr` at `segmentsEnd`, after performing, for each
`PT_LOAD` header in turn, the mapping, copy and fill of that header, all in the root that was
in CR3 when it started. -/
theorem copyLoadSegmentsLoop_ok {a : UInt64} {phs : List Elf64Phdr} {k : Kernel}
    (h : (copyLoadSegmentsLoop a phs k).1.error = .kSuccess) :
    (copyLoadSegmentsLoop a phs k).1.value = segmentsEnd a phs ∧
      (copyLoadSegmentsLoop a phs k).2.ops =
        k.ops ++ (loadHeaders phs).flatMap (Elf64Phdr.segmentOps k.cr3) := by
  induction phs generalizing a k with
  | nil => simp [copyLoadSegmentsLoop, loadHeaders, segmentsEnd]
  | cons ph phs ih =>
    by_cases hph : ph.pType = PT_LOAD
    · cases he : (setupPageMaps ph.pVaddr ph.num4kpages k).1.isErr
      · rw [copyLoadSegmentsLoop_load hph (Error.isErr_eq_false.mp he)] at h ⊢
        obtain ⟨hv, hops⟩ := ih h
        rw [hv, hops]
        simp [segmentsEnd, loadHeaders, hph, setupPageMaps]
      · rw [copyLoadSegmentsLoop_fail hph he] at h
        exact absurd he
          (by rw [show (setupPageMaps ph.pVaddr ph.num4kpages k).1 = _ from h]; decide)
    · rw [copyLoadSegmentsLoop_skip hph] at h ⊢
      simpa [segmentsEnd, loadHeaders, hph] using ih h

/-- The loop frees no frame. -/
theorem frames_subset_copyLoadSegmentsLoop (a : UInt64) (phs : List Elf64Phdr) (k : Kernel) :
    k.mem.frames ⊆ (copyLoadSegmentsLoop a phs k).2.mem.frames := by
  induction phs generalizing a k with
  | nil => exact List.Subset.refl _
  | cons ph phs ih =>
    have hs : k.mem.frames ⊆ (setupPageMaps ph.pVaddr ph.num4kpages k).2.mem.frames :=
      Memory.frames_subset_allocatePages _ _ _
    by_cases hph : ph.pType = PT_LOAD
    · cases he : (setupPageMaps ph.pVaddr ph.num4kpages k).1.isErr
      · rw [copyLoadSegmentsLoop_load hph (Error.isErr_eq_false.mp he)]
        exact fun x hx => ih _ _ (hs hx)
      · rw [copyLoadSegmentsLoop_fail hph he]
        exact hs
    · rw [copyLoadSegmentsLoop_skip hph]
      exact ih a k

theorem frames_subset_loadELF (ehdr : Elf64Ehdr) (k : Kernel) :
    k.mem.frames ⊆ (loadELF ehdr k).2.mem.frames := by
  unfold loadELF
  split
  · exact List.Subset.refl _
  · split
    · exact List.Subset.refl _
    · exact frames_subset_copyLoadSegmentsLoop _ _ _

theorem keepsRoots_loadELF (ehdr : Elf64Ehdr) (k : Kernel) : KeepsRoots k (loadELF ehdr k).2 := by
  unfold loadELF
  split
  · exact .refl k
  · split
    · exact .refl k
    · exact keepsRoots_copyLoadSegmentsLoop _ _ _

/-- An image `LoadELF` accepts is an executable whose first `PT_LOAD` header starts at or
above `0xffff'8000'0000'0000`; `LoadELF` returns `segmentsEnd 0` of its table and maps,
copies and fills every `PT_LOAD` segment in turn in the root in CR3. -/
theorem loadELF_ok {ehdr : Elf64Ehdr} {k : Kernel} (h : (loadELF ehdr k).1.error = .kSuccess) :
    ehdr.eType = ET_EXEC ∧ ¬ getFirstLoadAddress ehdr.phdrs < 0xffff800000000000 ∧
      (loadELF ehdr k).1.value = segmentsEnd 0 ehdr.phdrs ∧
      (loadELF ehdr k).2.ops =
        k.ops ++ (loadHeaders ehdr.phdrs).flatMap (Elf64Phdr.segmentOps k.cr3) := by
  have ht : ehdr.eType = ET_EXEC := by
    by_contra ht
    simp [loadELF, ht] at h
  have hlow : ¬ getFirstLoadAddress ehdr.phdrs < 0xffff800000000000 := by
    intro hlow
    simp [loadELF, ht, hlow] at h
  have hcopy : loadELF ehdr k = copyLoadSegments ehdr k := by simp [loadELF, ht, hlow]
  rw [hcopy] at h ⊢
  exact ⟨ht, hlow, copyLoadSegmentsLoop_ok h⟩

/-! ## Which segments `LoadELF` checks -/

/-- What `LoadELF` checks of an image it accepts: it is an executable, and its first
`PT_LOAD` header starts at or above `0xffff'8000'0000'0000`. Every `PT_LOAD` segment, the
later ones unchecked, is then mapped, copied and filled at its own `p_vaddr`. -/
theorem loadELF_accepts_first_load_high {ehdr : Elf64Ehdr} {k : Kernel}
    (h : (loadELF ehdr k).1.error = .kSuccess) :
    ehdr.eType = ET_EXEC ∧
      (∃ ph, (loadHeaders ehdr.phdrs).head? = some ph ∧ 0xffff800000000000 ≤ ph.pVaddr) ∧
      (loadELF ehdr k).2.ops =
            k.ops ++ (loadHeaders ehdr.phdrs).flatMap (Elf64Phdr.segmentOps k.cr3) := by
  obtain ⟨ht, hlow, -, hops⟩ := loadELF_ok h
  refine ⟨ht, ?_, hops⟩
  rw [getFirstLoadAddress_eq] at hlow
  cases hd : (loadHeaders ehdr.phdrs).head? with
  | none => simp [hd] at hlow
  | some ph => exact ⟨ph, rfl, by simpa [hd] using hlow⟩

/-- An executable whose first segment is in the higher half and whose second is at
`0x1000`, in the lower half. -/
def lowSecondSegment : Elf64Ehdr where
  eType := ET_EXEC
  eEntry := 0xffff800000000000
  phdrs := [⟨PT_LOAD, 0, 0xffff800000000000, 0x1000, 0x1000⟩, ⟨PT_LOAD, 0x1000, 0x1000, 0x10, 0x10⟩]

theorem loadELF_lowSecondSegment_first_load_high :
    (loadELF lowSecondSegment (.boot 8)).1.error = .kSuccess ∧ lowSecondSegment.eType = ET_EXEC ∧
      (∃ ph, (loadHeaders lowSecondSegment.phdrs).head? = some ph ∧
        0xffff800000000000 ≤ ph.pVaddr) ∧
      (loadELF lowSecondSegment (.boot 8)).2.ops =
        (Kernel.boot 8).ops ++
          (loadHeaders lowSecondSegment.phdrs).flatMap (Elf64Phdr.segmentOps (Kernel.boot 8).cr3) :=
  have h : (loadELF lowSecondSegment (.boot 8)).1.error = .kSuccess := by decide
  ⟨h, loadELF_accepts_first_load_high h⟩

/-- `LoadELF` accepts `lowSecondSegment` and maps its second segment in the lower half. -/
theorem loadELF_maps_lower_half :
    (loadELF lowSecondSegment (.boot 8)).1.error = .kSuccess ∧
      MemOp.map 1 0x1000 1 ∈ (loadELF lowSecondSegment (.boot 8)).2.ops ∧
      (0x1000 : UInt64) < 0xffff800000000000 := by
  decide

/-! ## The pages mapped for a segment -/

/-- Every byte `CopyLoadSegments` writes for the segment lies in the `num_4kpages` pages
it maps for it. -/
def Elf64Phdr.WritesMapped (ph : Elf64Phdr) : Prop :=
  ∀ a, (∃ op ∈ ph.writeOps, op.Writes a) → InPages ph.pVaddr ph.num4kpages a

/-- A segment that starts on a page, whose file part fits in it, and that ends with room
for the rounding below `2 ^ 64`, is written only inside the pages mapped for it. -/
theorem writesMapped_of_aligned {ph : Elf64Phdr} (halign : ph.pVaddr.toNat % 4096 = 0)
    (hfile : ph.pFilesz ≤ ph.pMemsz) (hend : ph.pVaddr.toNat + ph.pMemsz.toNat + 4095 < 2 ^ 64) :
    ph.WritesMapped := by
  rintro a ⟨op, hop, hw⟩
  have hpages : ph.num4kpages.toNat = (ph.pMemsz.toNat + 4095) / 4096 := by
    rw [Elf64Phdr.toNat_num4kpages, Nat.mod_eq_of_lt (by omega)]
  have hf := uint64_le_iff.mp hfile
  simp only [Elf64Phdr.writeOps, List.mem_cons, List.mem_singleton, List.not_mem_nil,
    or_false] at hop
  rcases hop with rfl | rfl <;>
    simp only [MemOp.Writes, uint64_toNat_add, UInt64.toNat_sub_of_le _ _ hfile] at hw <;>
    simp only [InPages, hpages] <;> omega

/-- A `LoadELF` that succeeds on an image whose `PT_LOAD` segments all start on a page,
with their file part inside them and their ends below `2 ^ 64`, writes only inside the
pages it maps: every byte one of its copies or fills writes lies in a page one of its own
`SetupPageMaps` calls mapped. -/
theorem loadELF_writes_only_mapped {ehdr : Elf64Ehdr} {k : Kernel}
    (h : (loadELF ehdr k).1.error = .kSuccess)
    (haligned : ∀ ph ∈ loadHeaders ehdr.phdrs, ph.pVaddr.toNat % 4096 = 0 ∧
      ph.pFilesz ≤ ph.pMemsz ∧ ph.pVaddr.toNat + ph.pMemsz.toNat + 4095 < 2 ^ 64) :
    ∃ new, (loadELF ehdr k).2.ops = k.ops ++ new ∧
      ∀ a, (∃ op ∈ new, op.Writes a) → ∃ op ∈ new, op.Maps a := by
  refine ⟨_, (loadELF_ok h).2.2.2, fun a ⟨op, hop, hw⟩ => ?_⟩
  obtain ⟨ph, hph, hop⟩ := List.mem_flatMap.mp hop
  obtain ⟨halign, hfile, hend⟩ := haligned ph hph
  have hmap : MemOp.map k.cr3 ph.pVaddr ph.num4kpages ∈ ph.segmentOps k.cr3 :=
    List.mem_cons_self _ _
  rcases List.mem_cons.mp hop with rfl | hop
  · exact absurd hw id
  · exact ⟨_, List.mem_flatMap.mpr ⟨ph, hph, hmap⟩,
      writesMapped_of_aligned halign hfile hend a ⟨op, hop, hw⟩⟩

/-- An executable with one segment on a page, `0x800` bytes of file in `0x1000`. -/
def pageSegment : Elf64Ehdr where
  eType := ET_EXEC
  eEntry := 0xffff800000000000
  phdrs := [⟨PT_LOAD, 0, 0xffff800000000000, 0x800, 0x1000⟩]

theorem loadELF_writes_only_mapped_pageSegment :
    (loadELF pageSegment (.boot 8)).1.error = .kSuccess ∧
      (∀ ph ∈ loadHeaders pageSegment.phdrs, ph.pVaddr.toNat % 4096 = 0 ∧
        ph.pFilesz ≤ ph.pMemsz ∧ ph.pVaddr.toNat + ph.pMemsz.toNat + 4095 < 2 ^ 64) ∧
      ∃ new, (loadELF pageSegment (.boot 8)).2.ops = (Kernel.boot 8).ops ++ new ∧
        ∀ a, (∃ op ∈ new, op.Writes a) → ∃ op ∈ new, op.Maps a :=
  ⟨by decide, by decide, loadELF_writes_only_mapped (by decide) (by decide)⟩

/-- An executable with one segment that starts in the middle of a page. -/
def midPageSegment : Elf64Ehdr where
  eType := ET_EXEC
  eEntry := 0xffff800000000800
  phdrs := [⟨PT_LOAD, 0, 0xffff800000000800, 0x1000, 0x1000⟩]

/-- `LoadELF` accepts `midPageSegment`; its `memcpy` writes the byte at
`0xffff'8000'0000'1000`, which no mapping of the load covers: `num_4kpages` counts the pages
of `p_memsz` and not those the segment spans from its offset in the first page. -/
theorem loadELF_copies_past_mapping :
    (loadELF midPageSegment (.boot 8)).1.error = .kSuccess ∧
      (∃ op ∈ (loadELF midPageSegment (.boot 8)).2.ops, op.Writes 0xffff800000001000) ∧
      ∀ op ∈ (loadELF midPageSegment (.boot 8)).2.ops, ¬ op.Maps 0xffff800000001000 := by
  decide

end HonOS
