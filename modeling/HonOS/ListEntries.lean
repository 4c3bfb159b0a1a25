/-
# `ListAllEntries`: walking a directory's cluster chain

`ListAllEntries(term, dir_cluster)` prints the names of a directory's entries, cluster after
cluster along the FAT's chain, until `fat::NextCluster` gives `kEndOfClusterchain` or an
entry's name starts with a zero byte. The volume (fat.cpp and fat.hpp are not under src/)
is any FAT: `next` is what `fat::NextCluster` returns for a cluster, and `entries` the
`kEntriesPerCluster` directory entries `fat::GetSectorByCluster` finds in it.

* `listAllEntries_ends`: a chain that reaches `kEndOfClusterchain` after `n` clusters is
  walked within `n + 1` turns.
* `listAllEntries_diverges`: a chain that stays in a set of clusters with no end marker and
  no empty entry is walked forever; `listAllEntries_loops_on_cyclic_chain` takes a cluster
  that is its own successor.
-/
import HonOS.Basic

namespace HonOS

/-- `fat::kEndOfClusterchain` (fat.hpp, not under src/). -/
def kEndOfClusterchain : Nat := 0x0fffffff

/-- `fat::Attribute::kLongName` (fat.hpp, not under src/). -/
def kLongName : UInt8 := 0x0f

/-- The fields of `fat::DirectoryEntry` that `ListAllEntries` tests: `name[0]` and `attr`. -/
structure DirectoryEntry where
  name0 : UInt8
  attr : UInt8
  deriving DecidableEq, Repr

/-- A FAT volume as `ListAllEntries` sees it: `fat::NextCluster` and the directory entries
of each cluster. -/
structure FatVolume where
  next : Nat → Nat
  entries : Nat → List DirectoryEntry

/-- The `for` loop over one cluster's entries: the entries whose names it prints (not the
deleted ones, `0xe5`, nor long-name entries), and whether it returned at an entry whose name
starts with `0`. -/
def clusterEntries : List DirectoryEntry → List DirectoryEntry × Bool
  | [] => ([], false)
  | e :: es =>
    if e.name0 = 0 then ([], true)
    else
      let r := clusterEntries es
      if e.name0 = 0xe5 ∨ e.attr = kLongName then r else (e :: r.1, r.2)

/-- `ListAllEntries(term, dir_cluster)` with `fuel` turns of its `while` loop: the entries
it prints, `none` when the turns run out. -/
def listAllEntries (vol : FatVolume) : Nat → Nat → Option (List DirectoryEntry)
  | 0, _ => none
  | fuel + 1, c =>
    if c = kEndOfClusterchain then some []
    else
      let r := clusterEntries (vol.entries c)
      if r.2 then some r.1
      else (listAllEntries vol fuel (vol.next c)).map (r.1 ++ ·)

variable {vol : FatVolume}

/-- A chain that reaches the end marker after `n` clusters is walked within `n + 1` turns,
whatever the directory holds. -/
theorem listAllEntries_ends :
    ∀ n c, vol.next^[n] c = kEndOfClusterchain → (listAllEntries vol (n + 1) c).isSome
  | 0, c, h => by simp [listAllEntries, show c = kEndOfClusterchain from h]
  | n + 1, c, h => by
    have ih := listAllEntries_ends n (vol.next c) h
    rw [listAllEntries]
    dsimp only
    split_ifs
    · rfl
    · rfl
    · rwa [Option.isSome_map']

theorem listAllEntries_ends_root :
    (fun _ => kEndOfClusterchain)^[1] 2 = kEndOfClusterchain ∧
      (listAllEntries ⟨fun _ => kEndOfClusterchain, fun _ => [⟨0x41, 0x20⟩]⟩ 2 2).isSome :=
  ⟨rfl, @listAllEntries_ends ⟨fun _ => kEndOfClusterchain, fun _ => [⟨0x41, 0x20⟩]⟩ 1 2 rfl⟩

/-- A chain that stays in a set of clusters none of which is the end marker or holds an
entry whose name starts with `0` is walked forever. -/
theorem listAllEntries_diverges (S : Nat → Prop)
    (hS : ∀ c, S c → c ≠ kEndOfClusterchain ∧ (clusterEntries (vol.entries c)).2 = false ∧
      S (vol.next c)) :
    ∀ fuel c, S c → listAllEntries vol fuel c = none
  | 0, _, _ => rfl
  | fuel + 1, c, hc => by
    obtain ⟨hend, hzero, hnext⟩ := hS c hc
    simp [listAllEntries, hend, hzero, listAllEntries_diverges S hS fuel _ hnext]

/-- Cluster `2` is its own successor, and its sixteen entries are a file `A…`: the walk
prints `A` sixteen times per turn and never ends. -/
theorem listAllEntries_loops_on_cyclic_chain :
    ∀ fuel, listAllEntries ⟨fun _ => 2, fun _ => List.replicate 16 ⟨0x41, 0x20⟩⟩ fuel 2 = none :=
  fun fuel => listAllEntries_diverges (· = 2) (fun c hc => by subst hc; decide) fuel 2 rfl

end HonOS
