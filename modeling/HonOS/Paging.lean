/-
# Frames, page-map roots and the CR3 register

The paging layer that `terminal.cpp` calls (`NewPageMap`, `FreePageMap`, `SetupPageMaps`,
`CopyPageMaps`, `CleanPageMaps`, `GetCR3`, `SetCR3`, `ResetCR3`) is in paging.cpp and
memory_manager.cpp, which are not under src/. Each is modelled from the spec (§3
AddressSpace, §4.2) at the granularity of frames: which physical frames are in use, and
whether a frame is a page-map root or a table or page owned by the user range of one root. Page contents are not modelled; mappings and the writes of the
ELF loader are recorded in a log of memory operations.

The kernel state also holds the slice of the current `Task` that `terminal.cpp` touches
(its saved `cr3`, demand-paging window, file-map end, descriptors) and `app_loads`.
-/
import HonOS.Basic

namespace HonOS

/-! ## Frames -/

/-- What a frame in use holds: a page-map root made by `NewPageMap`, or a table or page
owned by the user range of the root `pml4` (spec §3: a private root owns only its own
top-level frame; the frames below it belong to whoever mapped them). -/
inductive FrameUse where
  | root
  | under (pml4 : Nat)
  deriving DecidableEq, Repr

/-- Physical memory as the frame allocator sees it: frames `1 … capacity` exist, and
`used` lists those in use with what each holds. -/
structure Memory where
  used : List (Nat × FrameUse)
  capacity : Nat
  deriving DecidableEq, Repr

namespace Memory

/-- The frames in use. -/
def frames (m : Memory) : List Nat := m.used.map Prod.fst

/-- The page-map roots in use. -/
def roots (m : Memory) : List Nat := (m.used.filter fun u => u.2 = .root).map Prod.fst

/-- Allocating one frame: the first free frame, or `none` when memory is exhausted. -/
def allocate (m : Memory) (u : FrameUse) : Option (Nat × Memory) :=
  ((List.range' 1 m.capacity).find? fun f => f ∉ m.frames).map
    fun f => (f, { m with used := (f, u) :: m.used })

/-- Returning one frame to the allocator. -/
def free (m : Memory) (f : Nat) : Memory :=
  { m with used := m.used.filter fun u => u.1 ≠ f }

/-- Returning every frame owned by the user range of the root `pml4`. -/
def freeUnder (m : Memory) (pml4 : Nat) : Memory :=
  { m with used := m.used.filter fun u => u.2 ≠ .under pml4 }

/-- Allocating `n` frames owned by the user range of `pml4`, one after another; when memory
runs out the frames already taken stay taken. -/
def allocatePages (pml4 : Nat) : Nat → Memory → Error × Memory
  | 0, m => (.kSuccess, m)
  | n + 1, m =>
    match m.allocate (.under pml4) with
    | none => (.kOutOfMemory, m)
    | some (_, m') => allocatePages pml4 n m'

/-- What `allocate` hands out is a frame that was free, now recorded with its use. -/
theorem allocate_eq_some {m m' : Memory} {u : FrameUse} {f : Nat}
    (h : m.allocate u = some (f, m')) :
    f ∉ m.frames ∧ m' = { m with used := (f, u) :: m.used } := by
  simp only [allocate, Option.map_eq_some', Prod.mk.injEq] at h
  obtain ⟨f', hf, rfl, rfl⟩ := h
  exact ⟨by simpa using List.find?_some hf, rfl⟩

@[simp] theorem roots_cons_root (m : Memory) (f : Nat) :
    ({ m with used := (f, .root) :: m.used } : Memory).roots = f :: m.roots := by
  simp [roots]

@[simp] theorem roots_cons_under (m : Memory) (f r : Nat) :
    ({ m with used := (f, .under r) :: m.used } : Memory).roots = m.roots := by
  simp [roots]

@[simp] theorem frames_cons (m : Memory) (f : Nat) (u : FrameUse) :
    ({ m with used := (f, u) :: m.used } : Memory).frames = f :: m.frames := rfl

@[simp] theorem roots_free (m : Memory) (f : Nat) :
    (m.free f).roots = m.roots.filter (· ≠ f) := by
  simp only [roots, free, List.filter_map, List.filter_filter]
  congr 1
  exact List.filter_congr fun u _ => by simp [Bool.and_comm]

@[simp] theorem roots_freeUnder (m : Memory) (r : Nat) : (m.freeUnder r).roots = m.roots := by
  simp only [roots, freeUnder, List.filter_filter]
  congr 1
  refine List.filter_congr fun u _ => ?_
  by_cases h : u.2 = .root <;> simp [h]

theorem roots_subset_frames (m : Memory) : m.roots ⊆ m.frames := by
  intro f hf
  simp only [roots, List.mem_map, List.mem_filter] at hf
  obtain ⟨u, ⟨hu, -⟩, rfl⟩ := hf
  exact List.mem_map_of_mem _ hu

/-- The roots are untouched by allocating pages below one. -/
@[simp] theorem roots_allocatePages (r n : Nat) (m : Memory) :
    (allocatePages r n m).2.roots = m.roots := by
  induction n generalizing m with
  | zero => rfl
  | succ n ih =>
    simp only [allocatePages]
    split
    · rfl
    · rename_i f m' h
      rw [ih, (allocate_eq_some h).2, roots_cons_under]

/-- Frames in use stay in use while pages are allocated. -/
theorem frames_subset_allocatePages (r n : Nat) (m : Memory) :
    m.frames ⊆ (allocatePages r n m).2.frames := by
  induction n generalizing m with
  | zero => exact List.Subset.refl _
  | succ n ih =>
    simp only [allocatePages]
    split
    · exact List.Subset.refl _
    · rename_i f m' h
      obtain ⟨-, rfl⟩ := allocate_eq_some h
      exact fun x hx => ih _ (List.mem_cons_of_mem f hx)

end Memory

/-! ## The kernel state -/

/-- A memory operation of the loader, recorded in order: a mapping made by
`SetupPageMaps` in the root `pml4`, a `memcpy` of `len` bytes from offset `src` of the
file image to `dst`, or a `memset` of `len` zero bytes at `dst`. -/
inductive MemOp where
  | map (pml4 : Nat) (addr pages : UInt64)
  | copy (dst src len : UInt64)
  | fill (dst len : UInt64)
  deriving DecidableEq, Repr

/-- The bytes of the `pages` pages that start at the page containing `addr`. -/
def InPages (addr pages : UInt64) (a : Nat) : Prop :=
  addr.toNat / 4096 * 4096 ≤ a ∧ a < addr.toNat / 4096 * 4096 + 4096 * pages.toNat

instance (addr pages : UInt64) (a : Nat) : Decidable (InPages addr pages a) :=
  inferInstanceAs (Decidable (_ ∧ _))

namespace MemOp

/-- The bytes a copy or fill writes, `[dst, dst + len)` in exact arithmetic. -/
def Writes : MemOp → Nat → Prop
  | .map _ _ _, _ => False
  | .copy dst _ len, a => dst.toNat ≤ a ∧ a < dst.toNat + len.toNat
  | .fill dst len, a => dst.toNat ≤ a ∧ a < dst.toNat + len.toNat

/-- The bytes a mapping covers. -/
def Maps : MemOp → Nat → Prop
  | .map _ addr pages, a => InPages addr pages a
  | _, _ => False

instance (op : MemOp) (a : Nat) : Decidable (op.Writes a) :=
  match op with
  | .map _ _ _ => inferInstanceAs (Decidable False)
  | .copy _ _ _ => inferInstanceAs (Decidable (_ ∧ _))
  | .fill _ _ => inferInstanceAs (Decidable (_ ∧ _))

instance (op : MemOp) (a : Nat) : Decidable (op.Maps a) :=
  match op with
  | .map _ _ _ => inferInstanceAs (Decidable (InPages _ _ _))
  | .copy _ _ _ => inferInstanceAs (Decidable False)
  | .fill _ _ => inferInstanceAs (Decidable False)

end MemOp

/-- `AppLoadInfo`: where a loaded image ends, its entry point, and its page-map root. -/
structure AppLoadInfo where
  vaddrEnd : UInt64
  entry : UInt64
  pml4 : Nat
  deriving DecidableEq, Repr

/-- The fields of the current `Task` that `terminal.cpp` reads and writes: the `cr3` of its
saved context (`0` for none), its demand-paging window, the end of its file maps, and how
many descriptors and file maps it holds. -/
structure Task where
  cr3 : Nat
  dpagingBegin : UInt64
  dpagingEnd : UInt64
  fileMapEnd : UInt64
  files : Nat
  fileMaps : Nat
  deriving DecidableEq, Repr

/-- The kernel state the execution path works on: physical memory, the CR3 register, the
boot page map that `ResetCR3` reinstalls, the current task, `app_loads` (keyed by the
directory entry of the executable) and the log of memory operations. -/
structure Kernel where
  mem : Memory
  cr3 : Nat
  bootPml4 : Nat
  task : Task
  appLoads : List (Nat × AppLoadInfo)
  ops : List MemOp
  deriving DecidableEq, Repr

namespace Kernel

/-- The kernel before any program has run: the boot page map in frame `1` and installed in
CR3, `capacity` frames in all, a task with no address space of its own, nothing cached. -/
def boot (capacity : Nat) : Kernel where
  mem := ⟨[(1, .root)], capacity⟩
  cr3 := 1
  bootPml4 := 1
  task := ⟨0, 0, 0, 0, 0, 0⟩
  appLoads := []
  ops := []

/-- The page-map roots that `app_loads` holds. -/
def cachedRoots (k : Kernel) : List Nat := k.appLoads.map fun e => e.2.pml4

end Kernel

/-! ## The paging layer -/

/-- Modelled from the spec: `NewPageMap` (paging.cpp, not under src/) allocates one
zeroed frame for a new page-map root, and fails with OutOfMemory when none is free
(§4.2 CreateRoot). -/
def newPageMap (k : Kernel) : WithError Nat × Kernel :=
  match k.mem.allocate .root with
  | none => (⟨0, .kOutOfMemory⟩, k)
  | some (f, m) => (⟨f, .kSuccess⟩, { k with mem := m })

/-- Modelled from the spec: `FreePageMap` (paging.cpp, not under src/) frees exactly the
one frame of a root and never walks into the tables below it (§4.2 ReleaseRoot). -/
def freePageMap (pml4 : Nat) (k : Kernel) : Error × Kernel :=
  (.kSuccess, { k with mem := k.mem.free pml4 })

/-- Modelled from the spec: `SetupPageMaps(addr, num_4kpages)` (paging.cpp, not under
src/) maps fresh frames for `num_4kpages` pages from the page of `addr` into the root in
CR3; when frames run out it fails with OutOfMemory and the frames it took stay mapped. -/
def setupPageMaps (addr pages : UInt64) (k : Kernel) : Error × Kernel :=
  let r := k.mem.allocatePages k.cr3 pages.toNat
  (r.1, { k with mem := r.2, ops := k.ops ++ [.map k.cr3 addr pages] })

/-- Modelled from the spec: `CopyPageMaps(dest, src, 4, 256)` (paging.cpp, not under src/)
copies top-level entries of `src` into `dest`, so that `dest` shares the tables and frames
below them; it allocates nothing (§4.2 AliasRange). -/
def copyPageMaps (_dest _src : Nat) (k : Kernel) : Error × Kernel :=
  (.kSuccess, k)

/-- Modelled from the spec: `CleanPageMaps` (paging.cpp, not under src/) unmaps and frees
the user-range frames the root in CR3 owns exclusively: stack, argument and demand-paged
frames, never those it shares with a cached root (§4.2 ReleaseRoot, §4.4 Teardown). -/
def cleanPageMaps (k : Kernel) : Error × Kernel :=
  (.kSuccess, { k with mem := k.mem.freeUnder k.cr3 })

/-- `SetCR3`: install a page-map root. -/
def setCR3 (pml4 : Nat) (k : Kernel) : Kernel := { k with cr3 := pml4 }

/-- `ResetCR3`: reinstall the boot page map. -/
def resetCR3 (k : Kernel) : Kernel := { k with cr3 := k.bootPml4 }

/-! ## Steps that keep the roots -/

/-- `k'` has the CR3, boot page map, task `cr3`, `app_loads` and page-map roots of `k`:
it may differ in frames mapped below a root, in the rest of the task, and in the log. -/
structure KeepsRoots (k k' : Kernel) : Prop where
  cr3 : k'.cr3 = k.cr3
  bootPml4 : k'.bootPml4 = k.bootPml4
  taskCr3 : k'.task.cr3 = k.task.cr3
  appLoads : k'.appLoads = k.appLoads
  roots : k'.mem.roots = k.mem.roots

namespace KeepsRoots

variable {k₁ k₂ k₃ : Kernel}

theorem refl (k : Kernel) : KeepsRoots k k := ⟨rfl, rfl, rfl, rfl, rfl⟩

theorem trans (h₁ : KeepsRoots k₁ k₂) (h₂ : KeepsRoots k₂ k₃) : KeepsRoots k₁ k₃ :=
  ⟨h₂.cr3.trans h₁.cr3, h₂.bootPml4.trans h₁.bootPml4, h₂.taskCr3.trans h₁.taskCr3,
    h₂.appLoads.trans h₁.appLoads, h₂.roots.trans h₁.roots⟩

theorem log (k : Kernel) (ops : List MemOp) : KeepsRoots k { k with ops := ops } :=
  ⟨rfl, rfl, rfl, rfl, rfl⟩

theorem task {k : Kernel} {t : Task} (h : t.cr3 = k.task.cr3) :
    KeepsRoots k { k with task := t } :=
  ⟨rfl, rfl, h, rfl, rfl⟩

theorem allocatePages (k : Kernel) (n : Nat) :
    KeepsRoots k { k with mem := (k.mem.allocatePages k.cr3 n).2 } :=
  ⟨rfl, rfl, rfl, rfl, Memory.roots_allocatePages _ _ _⟩

end KeepsRoots

theorem keepsRoots_setupPageMaps (addr pages : UInt64) (k : Kernel) :
    KeepsRoots k (setupPageMaps addr pages k).2 :=
  ⟨rfl, rfl, rfl, rfl, Memory.roots_allocatePages _ _ _⟩

@[simp] theorem setupPageMaps_ops (addr pages : UInt64) (k : Kernel) :
    (setupPageMaps addr pages k).2.ops = k.ops ++ [.map k.cr3 addr pages] := rfl

end HonOS
