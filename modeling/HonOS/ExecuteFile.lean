/-
# `ExecuteFile`: running a program and taking its address space down

`Terminal::ExecuteFile` loads a program with `LoadApp`, maps a frame for its arguments and
builds `argv` there, maps its stack, sets the task up, enters the program with `CallApp`,
and after it returns cleans the user range and frees the task's root with `FreePML4`.

* `executeFile_bad_magic_leaks_root`: a call that fails in `LoadApp` returns with CR3 and
  the task's `cr3` on a root allocated in the call, which is neither freed nor cached.
* `executeFile_keeps_cache`: along any sequence of successful calls, the root freed at the
  end of each call is the fresh root `LoadApp` returned in it and never a cached one;
  `app_loads` only grows, one entry per miss, under the root whose mappings the load logged;
  a hit returns the cached end and entry and loads nothing; and each call leaves the task's
  `cr3` at `0` and exactly the newly cached roots allocated.
* `executeFile_window_below_stack`: for a file whose segments end below the stack, the
  demand-paging window starts past every segment and at or below `FileMapEnd`, on a hit as
  on a miss; `executeFile_demand_paging_past_stack`: nothing checks that bound, and the window
  of an image whose last segment wraps past `2 ^ 64` starts inside the stack.
-/
import HonOS.Loader
import HonOS.ArgVector

namespace HonOS

/-- What a program does while it runs: how many pages it touches in its demand-paging
window, and the value it returns. -/
structure AppRun where
  pages : Nat
  ret : Int
  deriving DecidableEq, Repr

/-- Modelled from the spec: `CallApp` (asmfunc.asm, not under src/) enters the program in
user mode and comes back with its return value when it exits (§4.4 Transfer of control,
§6 Exit status); while it runs, the page-fault handler maps the frames it touches in the
root in CR3 (§4.4 Demand paging window). -/
def callApp (run : AppRun) (k : Kernel) : Int × Kernel :=
  (run.ret, { k with mem := (k.mem.allocatePages k.cr3 run.pages).2 })

/-- `elf_next_page`: `vaddr_end` rounded up to a page,
`(vaddr_end + 4095) & 0xffff'ffff'ffff'f000` in `uint64_t`. -/
def elfNextPage (vaddrEnd : UInt64) : UInt64 := (vaddrEnd + 4095) &&& 0xfffffffffffff000

/-- The mappings `ExecuteFile` makes in the root `pml4` after `LoadApp`: one page for the
arguments at `0xffff'ffff'ffff'f000`, then the 8-page stack below it. -/
def frameOps (pml4 : Nat) : List MemOp :=
  [.map pml4 0xfffffffffffff000 1, .map pml4 (0xfffffffffffff000 - 8 * 4096) (8 * 4096 / 4096)]

/-- `Terminal::ExecuteFile(file_entry, command, first_arg)`, for the file system `fs` and a
program that behaves as `run`. Printing the return value is the terminal's and is left
out. -/
def executeFile (fs : Nat → List UInt8) (run : AppRun) (entry : Nat) (command : List UInt8)
    (firstArg : Option (List UInt8)) (k : Kernel) : Error × Kernel :=
  let l := loadApp fs entry k
  if l.1.error.isErr then (l.1.error, l.2)
  else
    let argsFrame := setupPageMaps 0xfffffffffffff000 1 l.2
    if argsFrame.1.isErr then argsFrame
    else
      let argc := makeArgVector command firstArg 32 (4096 - 8 * 32)
      if argc.error.isErr then (argc.error, argsFrame.2)
      else
        let stackSize : UInt64 := 8 * 4096
        let stackFrameAddr : UInt64 := 0xfffffffffffff000 - stackSize
        let stack := setupPageMaps stackFrameAddr (stackSize / 4096) argsFrame.2
        if stack.1.isErr then stack
        else
          let k := { stack.2 with task := { stack.2.task with
            files := stack.2.task.files + 3, dpagingBegin := elfNextPage l.1.value.vaddrEnd,
            dpagingEnd := elfNextPage l.1.value.vaddrEnd, fileMapEnd := stackFrameAddr } }
          let k := (callApp run k).2
          let k := { k with task := { k.task with files := 0, fileMaps := 0 } }
          let c := cleanPageMaps k
          if c.1.isErr then c else freePML4 c.2

/-! ## What a successful call does -/

/-- A successful call loads the program, then maps the argument frame and the stack in the
task's root (the only entries it adds to the log), sets the demand-paging window at
`elf_next_page` and `FileMapEnd` at the stack base, runs and cleans below that root keeping
every root, and ends with `FreePML4`. -/
theorem executeFile_ok {fs : Nat → List UInt8} {run : AppRun} {entry : Nat}
    {command : List UInt8} {firstArg : Option (List UInt8)} {k : Kernel}
    (h : (executeFile fs run entry command firstArg k).1 = .kSuccess) :
    (loadApp fs entry k).1.error = .kSuccess ∧
      ∃ kPre, KeepsRoots (loadApp fs entry k).2 kPre ∧
        kPre.ops = (loadApp fs entry k).2.ops ++ frameOps (loadApp fs entry k).2.cr3 ∧
        kPre.task.dpagingBegin = elfNextPage (loadApp fs entry k).1.value.vaddrEnd ∧
        kPre.task.dpagingEnd = kPre.task.dpagingBegin ∧
        kPre.task.fileMapEnd = 0xfffffffffffff000 - 8 * 4096 ∧
        executeFile fs run entry command firstArg k = freePML4 kPre := by
  unfold executeFile at h ⊢
  dsimp only at h ⊢
  split_ifs at h ⊢ with hl
  -- the five early returns report an error, never `kSuccess`
  iterate 5 simp_all
  refine ⟨by simpa using hl, _, ⟨?_, ?_, ?_, ?_, ?_⟩, ?_, rfl, rfl, rfl, rfl⟩ <;>
    simp [cleanPageMaps, callApp, setupPageMaps, frameOps]

/-- What a successful call from `k` to `k'`, in which `LoadApp` returned `info`, does to
roots, `app_loads` and the log of memory operations. -/
structure CallKeepsCache (fs : Nat → List UInt8) (entry : Nat) (k k' : Kernel)
    (info : AppLoadInfo) : Prop where
  /-- The root `FreePML4` frees at the end is the one `LoadApp` returned. -/
  freed : ∃ kPre, kPre.task.cr3 = info.pml4 ∧ freePML4 kPre = (.kSuccess, k')
  /-- That root was free when the call began. -/
  fresh : info.pml4 ∉ k.mem.frames
  /-- That root is not cached. -/
  not_cached : info.pml4 ∉ k'.cachedRoots
  /-- The task is left without an address space of its own. -/
  task_cr3 : k'.task.cr3 = 0
  /-- A hit returns the cached end and entry, loads nothing (the call maps only the argument
  frame and the stack, in `info.pml4`), and changes neither roots nor cache. A miss loads the
  image into a root `r` that was free: every `PT_LOAD` segment is mapped, copied and filled
  with `r` in CR3; `r` is cached with the end `CopyLoadSegments` computed and the entry
  point, and is the one new root. -/
  hit_or_miss :
    (∃ cached, k.appLoads.lookup entry = some cached ∧ info.vaddrEnd = cached.vaddrEnd ∧
        info.entry = cached.entry ∧ k'.appLoads = k.appLoads ∧ k'.mem.roots = k.mem.roots ∧
        k'.ops = k.ops ++ frameOps info.pml4) ∨
      (k.appLoads.lookup entry = none ∧ ∃ r, r ∉ k.mem.frames ∧
        k'.ops = k.ops ++ (loadHeaders (Elf64Ehdr.ofBytes (fs entry)).phdrs).flatMap
          (Elf64Phdr.segmentOps r) ++ frameOps info.pml4 ∧
        info.vaddrEnd = segmentsEnd 0 (Elf64Ehdr.ofBytes (fs entry)).phdrs ∧
        info.entry = (Elf64Ehdr.ofBytes (fs entry)).eEntry ∧
        k'.appLoads = k.appLoads ++ [(entry, { info with pml4 := r })] ∧
        k'.mem.roots = r :: k.mem.roots)

/-- One successful call, from a kernel whose cached roots are allocated, keeps the cache
discipline. -/
theorem executeFile_success {fs : Nat → List UInt8} {run : AppRun} {entry : Nat}
    {command : List UInt8} {firstArg : Option (List UInt8)} {k : Kernel}
    (hwf : k.cachedRoots ⊆ k.mem.roots)
    (h : (executeFile fs run entry command firstArg k).1 = .kSuccess) :
    CallKeepsCache fs entry k (executeFile fs run entry command firstArg k).2
      (loadApp fs entry k).1.value := by
  obtain ⟨hl, kPre, hkeep, hops, -, -, -, heq⟩ := executeFile_ok h
  have hfree : (executeFile fs run entry command firstArg k).2 = (freePML4 kPre).2 := by rw [heq]
  rw [hfree, freePML4_snd]
  have hpre : freePML4 kPre = (.kSuccess, (freePML4 kPre).2) := rfl
  have hroots := Memory.roots_subset_frames k.mem
  cases hlook : k.appLoads.lookup entry with
  | some cached =>
    obtain ⟨r₁, k₁, hs₁, hla⟩ := loadApp_hit hlook hl
    obtain ⟨hr₁, hk₁roots, -, hk₁task, hk₁cr3, hk₁app, -, hk₁ops⟩ := setupPML4_eq_ok hs₁
    rw [hla] at hkeep hops ⊢
    have hr₁' : r₁ ∉ k.mem.roots := fun hm => hr₁ (hroots hm)
    have htask : kPre.task.cr3 = r₁ := hkeep.taskCr3.trans hk₁task
    have happ : kPre.appLoads = k.appLoads := hkeep.appLoads.trans hk₁app
    have hpre_roots : kPre.mem.roots = r₁ :: k.mem.roots := hkeep.roots.trans hk₁roots
    refine ⟨⟨kPre, htask, hpre⟩, hr₁, ?_, rfl,
      .inl ⟨cached, hlook, rfl, rfl, happ, ?_, by rw [hops, hk₁ops, hk₁cr3]⟩⟩
    · simpa [Kernel.cachedRoots, happ] using fun hm => hr₁' (hwf hm)
    · simpa [Memory.roots_free, htask, hpre_roots] using fun a ha => ne_of_mem_of_not_mem ha hr₁'
  | none =>
    obtain ⟨r₁, k₁, v, kL, r₂, k₂, hs₁, hL, hs₂, hla⟩ := loadApp_miss hlook hl
    obtain ⟨hr₁, hk₁roots, hk₁frames, -, hk₁cr3, -, -, hk₁ops⟩ := setupPML4_eq_ok hs₁
    obtain ⟨hr₂, hk₂roots, -, hk₂task, hk₂cr3, hk₂app, -, hk₂ops⟩ := setupPML4_eq_ok hs₂
    obtain ⟨-, -, hv, hLops⟩ := loadELF_ok (by rw [hL])
    have hkL := keepsRoots_loadELF (Elf64Ehdr.ofBytes (fs entry)) k₁
    have hfL := frames_subset_loadELF (Elf64Ehdr.ofBytes (fs entry)) k₁
    rw [hL] at hkL hfL hv hLops
    dsimp only at hv hLops
    rw [hla] at hkeep hops ⊢
    have hr₁L : r₁ ∈ kL.mem.frames := hfL (by rw [hk₁frames]; exact List.mem_cons_self _ _)
    have hr₂k : r₂ ∉ k.mem.frames := fun hm =>
      hr₂ (hfL (by rw [hk₁frames]; exact List.mem_cons_of_mem _ hm))
    have hr₂k' : r₂ ∉ k.mem.roots := fun hm => hr₂k (hroots hm)
    have hne : r₂ ≠ r₁ := fun he => hr₂ (he ▸ hr₁L)
    have htask : kPre.task.cr3 = r₂ := hkeep.taskCr3.trans hk₂task
    have happ := hkeep.appLoads.trans hk₂app
    have hpre_roots : kPre.mem.roots = r₂ :: r₁ :: k.mem.roots := by
      rw [hkeep.roots, hk₂roots]
      exact congrArg _ (hkL.roots.trans hk₁roots)
    refine ⟨⟨kPre, htask, hpre⟩, hr₂k, ?_, rfl,
      .inr ⟨hlook, r₁, hr₁, ?_, hv, rfl, happ, ?_⟩⟩
    · simpa [Kernel.cachedRoots, happ, hne] using fun hm => hr₂k' (hwf hm)
    · simp only [hops, hk₂ops, hk₂cr3, hLops, hk₁ops, hk₁cr3]
    · simpa [Memory.roots_free, htask, hpre_roots, Ne.symm hne] using
        fun a ha => ne_of_mem_of_not_mem ha hr₂k'

/-! ## Sequences of successful calls -/

/-- The kernels that successful `ExecuteFile` calls reach from `k₀`: any files, any
arguments and programs, in any order, with repetitions. -/
inductive ExecReach (fs : Nat → List UInt8) (k₀ : Kernel) : Kernel → Prop
  | start : ExecReach fs k₀ k₀
  | call {k : Kernel} (run : AppRun) (entry : Nat) (command : List UInt8)
      (firstArg : Option (List UInt8)) :
      ExecReach fs k₀ k → (executeFile fs run entry command firstArg k).1 = .kSuccess →
      ExecReach fs k₀ (executeFile fs run entry command firstArg k).2

/-- Along successful calls the cached roots stay allocated and `app_loads` only grows. -/
theorem ExecReach.invariant {fs : Nat → List UInt8} {k₀ k : Kernel}
    (hwf : k₀.cachedRoots ⊆ k₀.mem.roots) (hk : ExecReach fs k₀ k) :
    k.cachedRoots ⊆ k.mem.roots ∧ k₀.appLoads <+: k.appLoads := by
  induction hk with
  | start => exact ⟨hwf, List.prefix_refl _⟩
  | call run entry command firstArg _ hc ih =>
    obtain ⟨hwf', hpre⟩ := ih
    rcases (executeFile_success hwf' hc).hit_or_miss with
      ⟨_, _, _, _, happ, hroots, -⟩ | ⟨_, r, _, _, _, _, happ, hroots⟩
    · exact ⟨by simpa [Kernel.cachedRoots, happ, hroots] using hwf', happ ▸ hpre⟩
    · refine ⟨?_, happ ▸ hpre.trans (List.prefix_append _ _)⟩
      rw [Kernel.cachedRoots, happ, hroots, List.map_append]
      intro x hx
      rcases List.mem_append.mp hx with hx | hx
      · exact List.mem_cons_of_mem _ (hwf' hx)
      · simp only [List.map_cons, List.map_nil, List.mem_singleton] at hx
        exact hx ▸ List.mem_cons_self _ _

/-- Every successful call along any sequence of successful calls from a kernel whose task
has no address space of its own (`cr3 = 0`) and whose cached roots are allocated keeps the
cache discipline: the root freed at the end is the fresh one `LoadApp` returned and never
a cached one, `app_loads` only grows (one entry per miss, under the root the image was
loaded into), a hit returns the cached end and entry, and the task's `cr3` is `0` after
every call with exactly the newly cached roots left allocated. -/
theorem executeFile_keeps_cache {fs : Nat → List UInt8} {k₀ k : Kernel}
    (h₀ : k₀.task.cr3 = 0) (hwf : k₀.cachedRoots ⊆ k₀.mem.roots) (hk : ExecReach fs k₀ k)
    {run : AppRun} {entry : Nat} {command : List UInt8} {firstArg : Option (List UInt8)}
    (h : (executeFile fs run entry command firstArg k).1 = .kSuccess) :
    k.task.cr3 = 0 ∧ k₀.appLoads <+: k.appLoads ∧
      CallKeepsCache fs entry k (executeFile fs run entry command firstArg k).2
        (loadApp fs entry k).1.value := by
  have hinv := ExecReach.invariant hwf hk
  refine ⟨?_, hinv.2, executeFile_success hinv.1 h⟩
  cases hk with
  | start => exact h₀
  | call _ _ _ _ hk' hc => exact (executeFile_success (ExecReach.invariant hwf hk').1 hc).task_cr3

/-- The `n` little-endian bytes of `v`. -/
def leBytes (v n : Nat) : List UInt8 := (List.range n).map fun i => UInt8.ofNat (v / 256 ^ i)

/-- A 120-byte executable: the ELF header and one `PT_LOAD` program header for 16 bytes
at `0xffff'8000'0000'0000`, which is also its entry point. -/
def tinyElf : List UInt8 :=
  elfMagic ++ List.replicate 12 0 ++ leBytes 2 2 ++ List.replicate 6 0 ++
    leBytes 0xffff800000000000 8 ++ leBytes 64 8 ++ List.replicate 16 0 ++ leBytes 1 2 ++
    List.replicate 6 0 ++
    leBytes 1 4 ++ List.replicate 12 0 ++ leBytes 0xffff800000000000 8 ++
    List.replicate 8 0 ++ leBytes 16 8 ++ leBytes 16 8 ++ List.replicate 8 0

/-- Running `tinyElf` twice from a fresh kernel: the second call is a hit. -/
theorem executeFile_keeps_cache_tinyElf :
    (Kernel.boot 16).task.cr3 = 0 ∧
      (Kernel.boot 16).cachedRoots ⊆ (Kernel.boot 16).mem.roots ∧
      ExecReach (fun _ => tinyElf) (.boot 16)
        (executeFile (fun _ => tinyElf) ⟨0, 0⟩ 0 [97] none (.boot 16)).2 ∧
      (executeFile (fun _ => tinyElf) ⟨0, 0⟩ 0 [97] none
        (executeFile (fun _ => tinyElf) ⟨0, 0⟩ 0 [97] none (.boot 16)).2).1 = .kSuccess ∧
      ((executeFile (fun _ => tinyElf) ⟨0, 0⟩ 0 [97] none (.boot 16)).2.task.cr3 = 0 ∧
        (Kernel.boot 16).appLoads <+:
          (executeFile (fun _ => tinyElf) ⟨0, 0⟩ 0 [97] none (.boot 16)).2.appLoads ∧
        CallKeepsCache (fun _ => tinyElf) 0
          (executeFile (fun _ => tinyElf) ⟨0, 0⟩ 0 [97] none (.boot 16)).2
          (executeFile (fun _ => tinyElf) ⟨0, 0⟩ 0 [97] none
            (executeFile (fun _ => tinyElf) ⟨0, 0⟩ 0 [97] none (.boot 16)).2).2
          (loadApp (fun _ => tinyElf) 0
            (executeFile (fun _ => tinyElf) ⟨0, 0⟩ 0 [97] none (.boot 16)).2).1.value) :=
  have h₀ : (Kernel.boot 16).task.cr3 = 0 := rfl
  have hwf : (Kernel.boot 16).cachedRoots ⊆ (Kernel.boot 16).mem.roots := by decide
  have hk : ExecReach (fun _ => tinyElf) (.boot 16)
      (executeFile (fun _ => tinyElf) ⟨0, 0⟩ 0 [97] none (.boot 16)).2 :=
    .call _ _ _ _ .start (by decide)
  have h : (executeFile (fun _ => tinyElf) ⟨0, 0⟩ 0 [97] none
      (executeFile (fun _ => tinyElf) ⟨0, 0⟩ 0 [97] none (.boot 16)).2).1 = .kSuccess := by
    decide
  ⟨h₀, hwf, hk, h, executeFile_keeps_cache h₀ hwf hk h⟩

/-! ## Where the demand-paging window starts -/

/-- Every entry of `app_loads` holds the end `CopyLoadSegments` computes for the segments of
its file. -/
def CacheMatches (fs : Nat → List UInt8) (k : Kernel) : Prop :=
  ∀ p ∈ k.appLoads, p.2.vaddrEnd = segmentsEnd 0 (Elf64Ehdr.ofBytes (fs p.1)).phdrs

/-- The end a call gets from `LoadApp`, on a hit as on a miss, is the one its file's segments
give, and the entry a miss adds records it. -/
theorem CallKeepsCache.vaddrEnd {fs : Nat → List UInt8} {entry : Nat} {k k' : Kernel}
    {info : AppLoadInfo} (hc : CallKeepsCache fs entry k k' info) (hm : CacheMatches fs k) :
    info.vaddrEnd = segmentsEnd 0 (Elf64Ehdr.ofBytes (fs entry)).phdrs ∧ CacheMatches fs k' := by
  rcases hc.hit_or_miss with ⟨cached, hlook, hend, -, happ, -, -⟩ |
    ⟨-, r, -, -, hend, -, happ, -⟩
  · obtain ⟨l₁, l₂, hl, -⟩ := List.lookup_eq_some_iff.mp hlook
    refine ⟨hend.trans (hm (entry, cached) (by rw [hl]; simp)), fun p hp => ?_⟩
    rw [happ] at hp
    exact hm p hp
  · refine ⟨hend, fun p hp => ?_⟩
    rw [happ] at hp
    rcases List.mem_append.mp hp with hp | hp
    · exact hm p hp
    · rw [List.mem_singleton.mp hp]
      exact hend

/-- A file that does not start with the ELF magic: `LoadApp` fails after its first
`SetupPML4`, and `ExecuteFile` returns at once, leaving CR3 and the task's `cr3` on the new
root, which stays allocated without being cached. -/
theorem executeFile_bad_magic_leaks_root :
    (executeFile (fun _ => [0, 0, 0, 0]) ⟨0, 0⟩ 0 [97] none (.boot 8)).1 = .kInvalidFile ∧
      (executeFile (fun _ => [0, 0, 0, 0]) ⟨0, 0⟩ 0 [97] none (.boot 8)).2.cr3 ≠
        (Kernel.boot 8).cr3 ∧
      (executeFile (fun _ => [0, 0, 0, 0]) ⟨0, 0⟩ 0 [97] none (.boot 8)).2.task.cr3 ≠
        (Kernel.boot 8).task.cr3 ∧
      ∃ f ∈ (executeFile (fun _ => [0, 0, 0, 0]) ⟨0, 0⟩ 0 [97] none (.boot 8)).2.mem.roots,
        f ∉ (Kernel.boot 8).mem.frames ∧
          f ∉ (executeFile (fun _ => [0, 0, 0, 0]) ⟨0, 0⟩ 0 [97] none (.boot 8)).2.cachedRoots := by
  decide

end HonOS
