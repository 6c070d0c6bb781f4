import Mathlib.Algebra.GroupWithZero.Nat
import Mathlib.Data.List.Perm.Basic
import SectorFS.Proofs.File.Allocation

/-!
# Files that share a free map

A `Pool` is a free map with the headers that were allocated in it and not released since. However
allocations and releases follow each other, no two live headers share a sector, the map marks their
sectors and those that were used from the start (`Pool.Shares`), and releasing them, in any order,
gives the map back that there was at the start. Nothing bounds the sizes but the range of sizes, so
the headers need not be those of an `Extent`.
-/

namespace SectorFS

/-- A header that was allocated for `size` bytes. -/
structure Allocation where
  size : Nat
  header : Header

namespace Allocation

/-- The index and data sectors. -/
def sectors (a : Allocation) : List Nat := a.header.indexSectors ++ a.header.dataSectors

/-- The chain was dealt as many sectors as the size takes. -/
def Dealt (a : Allocation) : Prop :=
  ∃ sectors, a.header = ⟨a.size, Size.units a.size sectorSize, ⟨Chain.deal sectors⟩⟩ ∧
    sectors.length = Extent.span a.size ∧ ∀ s ∈ sectors, s < Word.sectorLimit

namespace Dealt

variable {a : Allocation}

theorem length_sectors (h : a.Dealt) : a.sectors.length = Extent.span a.size := by
  obtain ⟨sectors, header, length, limit⟩ := h
  rw [Allocation.sectors, header, Header.indexSectors, Header.dataSectors,
    Chain.indexSectors_deal, Chain.dataSectors_deal limit, (Chain.perm_dealt sectors).length_eq,
    length]

/-- What is released is what is owned. -/
theorem perm_sectors (h : a.Dealt) : a.header.chain.sectors.Perm a.sectors := by
  obtain ⟨sectors, header, -, limit⟩ := h
  rw [Allocation.sectors, header, Header.indexSectors, Header.dataSectors,
    Chain.indexSectors_deal, Chain.dataSectors_deal limit]
  exact (Chain.sectors_deal limit).trans (Chain.perm_dealt sectors).symm

end Dealt

end Allocation

structure Pool where
  map : FreeMap
  live : List Allocation

namespace Pool

inductive Step where
  | allocate (size : Nat)
  /-- Release what is at this place among the live headers. -/
  | release (place : Nat)

/-- A new header is dropped when there is no space for it. Any other failure ends the run. -/
def step (pool : Pool) : Step → Except Failure Pool
  | .allocate size =>
    match Header.empty.allocate pool.map size with
    | .ok (header, map) => .ok ⟨map, ⟨size, header⟩ :: pool.live⟩
    | .error (.error .noSpace) => .ok pool
    | .error e => .error e
  | .release place =>
    match pool.live[place]? with
    | some a => do return ⟨← a.header.release pool.map, pool.live.eraseIdx place⟩
    | none => .ok pool

def run (start : FreeMap) (steps : List Step) : Except Failure Pool := steps.foldlM step ⟨start, []⟩

/-- All sectors of live headers. -/
def sectors (pool : Pool) : List Nat := pool.live.flatMap Allocation.sectors

theorem sectors_cons (map : FreeMap) (a : Allocation) (live : List Allocation) :
    sectors ⟨map, a :: live⟩ = a.sectors ++ sectors ⟨map, live⟩ :=
  List.flatMap_cons

/-- The live headers share the map with what `start` has in use, and with nothing else. -/
structure Shares (start : FreeMap) (pool : Pool) : Prop where
  sectorCount_eq : pool.map.sectorCount = start.sectorCount
  dealt : ∀ a ∈ pool.live, a.Dealt
  nodup : pool.sectors.Nodup
  fresh : ∀ s ∈ pool.sectors, ¬ start.Uses s
  uses : ∀ s, pool.map.Uses s ↔ start.Uses s ∨ s ∈ pool.sectors

namespace Shares

variable {start map : FreeMap} {pool : Pool} {a : Allocation} {live : List Allocation}

theorem empty (start : FreeMap) : Shares start ⟨start, []⟩ where
  sectorCount_eq := rfl
  dealt := nofun
  nodup := List.nodup_nil
  fresh := nofun
  uses := by simp [sectors]

/-- With nothing alive, the map is what it was at the start. -/
theorem map_eq (h : Shares start ⟨map, []⟩) : map = start :=
  FreeMap.ext_uses h.sectorCount_eq fun s => by simpa [sectors] using h.uses s

/-- The order of the live headers does not matter. -/
theorem perm {other : List Allocation} (h : Shares start ⟨map, live⟩) (order : live.Perm other) :
    Shares start ⟨map, other⟩ := by
  have sectors : (Pool.sectors ⟨map, live⟩).Perm (Pool.sectors ⟨map, other⟩) :=
    order.flatMap_right _
  exact ⟨h.sectorCount_eq, fun a ha => h.dealt a (order.mem_iff.mpr ha),
    sectors.nodup_iff.mp h.nodup, fun s hs => h.fresh s (sectors.mem_iff.mpr hs),
    fun s => by rw [h.uses, sectors.mem_iff]⟩

/-- What is free at the start is free, or a live header has it. -/
theorem freeCount_add_sum (h : pool.Shares start) :
    pool.map.freeCount + (pool.live.map fun a => Extent.span a.size).sum = start.freeCount := by
  have used := start.nodup_sectorsWhere true
  have before := FreeMap.freeCount_add_length used fun s => FreeMap.mem_usedSectors.symm
  have apart : (start.usedSectors ++ pool.sectors).Nodup := by
    rw [List.nodup_append]
    refine ⟨used, h.nodup, ?_⟩
    rintro s hs t ht rfl
    exact h.fresh s ht (FreeMap.mem_usedSectors.mp hs)
  have now := FreeMap.freeCount_add_length apart fun s => by
    rw [h.uses, List.mem_append, FreeMap.mem_usedSectors]
  have length : pool.sectors.length = (pool.live.map fun a => Extent.span a.size).sum := by
    rw [sectors, List.length_flatMap]
    exact congrArg List.sum (List.map_congr_left fun a ha => (h.dealt a ha).length_sectors)
  rw [List.length_append, length, h.sectorCount_eq] at now
  change start.freeCount + start.usedSectors.length = _ at before
  omega

/-- Allocation takes free sectors, and none from a live header. -/
theorem allocate {size : Nat} {header : Header} {map' : FreeMap} (h : Shares start ⟨map, live⟩)
    (small : start.sectorCount ≤ Word.sectorLimit)
    (ok : Header.empty.allocate map size = .ok (header, map')) :
    Shares start ⟨map', ⟨size, header⟩ :: live⟩ := by
  obtain ⟨enough, rfl, rfl⟩ := Header.allocate_empty_ok ok
  have length := Header.length_free_take enough
  have takes := map.takes_fill (Extent.span size)
  generalize (map.sectorsWhere false).take (Extent.span size) = taken at length takes
  have count : map.sectorCount = start.sectorCount := h.sectorCount_eq
  have dealt : Allocation.Dealt ⟨size, ⟨size, Size.units size sectorSize, ⟨Chain.deal taken⟩⟩⟩ :=
    ⟨taken, rfl, length, fun s hs => by
      have := (takes.free s hs).1
      omega⟩
  have perm : (Allocation.sectors ⟨size, _⟩).Perm taken :=
    dealt.perm_sectors.symm.trans (Chain.sectors_deal fun s hs => by
      have := (takes.free s hs).1
      omega)
  constructor
  case sectorCount_eq => exact takes.sectorCount_eq.trans count
  case dealt =>
    intro a ha
    rcases List.mem_cons.mp ha with rfl | ha
    · exact dealt
    · exact h.dealt a ha
  case nodup =>
    rw [sectors_cons, List.nodup_append]
    refine ⟨perm.nodup_iff.mpr takes.nodup, h.nodup, ?_⟩
    rintro s hs t ht rfl
    exact (takes.free s (perm.mem_iff.mp hs)).2 ((h.uses s).mpr (.inr ht))
  case fresh =>
    intro s hs
    rw [sectors_cons, List.mem_append] at hs
    rcases hs with hs | hs
    · exact fun used => (takes.free s (perm.mem_iff.mp hs)).2 ((h.uses s).mpr (.inl used))
    · exact h.fresh s hs
  case uses =>
    intro s
    rw [takes.uses, h.uses, sectors_cons, List.mem_append, perm.mem_iff]
    exact or_left_comm

/-- A live header can be released, and its sectors are free from then on. -/
theorem release (h : Shares start ⟨map, a :: live⟩) :
    ∃ map', a.header.release map = .ok map' ∧ Shares start ⟨map', live⟩ := by
  have nodup := h.nodup
  rw [sectors_cons] at nodup
  obtain ⟨own, others, apart⟩ := List.nodup_append.mp nodup
  have perm := (h.dealt a List.mem_cons_self).perm_sectors
  have uses (s : Nat) :
      map.Uses s ↔ start.Uses s ∨ s ∈ a.sectors ∨ s ∈ Pool.sectors ⟨map, live⟩ := by
    rw [h.uses, sectors_cons, List.mem_append]
  have fresh (s : Nat) (hs : s ∈ a.sectors ∨ s ∈ Pool.sectors ⟨map, live⟩) : ¬ start.Uses s := by
    apply h.fresh
    rwa [sectors_cons, List.mem_append]
  obtain ⟨map', run, count, uses'⟩ := FreeMap.foldlM_release (perm.nodup_iff.mpr own)
    fun s hs => (uses s).mpr (.inr (.inl (perm.mem_iff.mp hs)))
  refine ⟨map', run, count.trans h.sectorCount_eq,
    fun b hb => h.dealt b (List.mem_cons_of_mem _ hb), others, fun s hs => fresh s (.inr hs),
    fun s => ?_⟩
  rw [uses', perm.mem_iff, uses]
  constructor
  · rintro ⟨other, used | mine | hs⟩
    · exact .inl used
    · exact absurd mine other
    · exact .inr hs
  · rintro (used | hs)
    · exact ⟨fun mine => fresh s (.inl mine) used, .inl used⟩
    · exact ⟨fun mine => apart s mine s hs rfl, .inr (.inr hs)⟩

/-- Whatever is alive can be released, and then the map is what it was at the start. -/
theorem releaseAll (h : Shares start ⟨map, live⟩) :
    live.foldlM (fun map a => a.header.release map) map = .ok start := by
  induction live generalizing map with
  | nil => rw [List.foldlM_nil, h.map_eq]; rfl
  | cons a live ih =>
    obtain ⟨map', run, rest⟩ := h.release
    rw [List.foldlM_cons, run]
    exact ih rest

/-- Every step from here comes to its end, unless its size is out of range. -/
theorem step (h : pool.Shares start) (small : start.sectorCount ≤ Word.sectorLimit) {step : Step}
    (fits : ∀ size, step = .allocate size → size + sectorSize < Size.limit) :
    ∃ pool', pool.step step = .ok pool' ∧ pool'.Shares start := by
  obtain ⟨map, live⟩ := pool
  cases step with
  | allocate size =>
    cases outcome : Header.empty.allocate map size with
    | ok result =>
      obtain ⟨header, map'⟩ := result
      exact ⟨_, by simp only [Pool.step, outcome], h.allocate small outcome⟩
    | error e =>
      rcases Header.allocate_empty_error outcome with ⟨rfl, -⟩ | ⟨-, large⟩
      · exact ⟨_, by simp only [Pool.step, outcome], h⟩
      · exact absurd (fits size rfl) (Nat.not_lt.mpr large)
  | release place =>
    cases found : live[place]? with
    | none => exact ⟨_, by simp only [Pool.step, found], h⟩
    | some a =>
      have order : live.Perm (a :: live.eraseIdx place) := by
        obtain ⟨inside, rfl⟩ := List.getElem?_eq_some_iff.mp found
        exact (List.getElem_cons_eraseIdx_perm inside).symm
      obtain ⟨map', run, rest⟩ := (h.perm order).release
      refine ⟨⟨map', live.eraseIdx place⟩, ?_, rest⟩
      simp only [Pool.step, found, run]
      rfl

theorem steps (h : pool.Shares start) (small : start.sectorCount ≤ Word.sectorLimit)
    {steps : List Step}
    (fits : ∀ size, .allocate size ∈ steps → size + sectorSize < Size.limit) :
    ∃ pool', steps.foldlM Pool.step pool = .ok pool' ∧ pool'.Shares start := by
  induction steps generalizing pool with
  | nil => exact ⟨pool, rfl, h⟩
  | cons first steps ih =>
    obtain ⟨middle, stepped, shares⟩ := h.step small fun size same =>
      fits size (List.mem_cons.mpr (.inl same.symm))
    obtain ⟨pool', ran, shares'⟩ := ih shares fun size hm => fits size (List.mem_cons_of_mem _ hm)
    refine ⟨pool', ?_, shares'⟩
    rw [List.foldlM_cons, stepped]
    exact ran

/-- Allocating and releasing again leaves the map as it was. -/
theorem release_of_allocate {size : Nat} {header : Header} {map' : FreeMap}
    (h : Shares start ⟨map, live⟩) (small : start.sectorCount ≤ Word.sectorLimit)
    (ok : Header.empty.allocate map size = .ok (header, map')) :
    header.release map' = .ok map := by
  obtain ⟨map'', run, rest⟩ := (h.allocate small ok).release
  have same : map'' = map := FreeMap.ext_uses (rest.sectorCount_eq.trans h.sectorCount_eq.symm)
    fun s => by rw [rest.uses, h.uses]; rfl
  rw [run, same]

end Shares

/-- However allocations and releases follow each other, all of them come to their end, the live
headers share the map with what was in use at the start, and releasing them in any order restores
it. -/
theorem run_shares {start : FreeMap} {steps : List Step}
    (small : start.sectorCount ≤ Word.sectorLimit)
    (fits : ∀ size, .allocate size ∈ steps → size + sectorSize < Size.limit) :
    ∃ pool, run start steps = .ok pool ∧ pool.Shares start ∧
      pool.map.freeCount + (pool.live.map fun a => Extent.span a.size).sum = start.freeCount ∧
      (∀ size header map, Header.empty.allocate pool.map size = .ok (header, map) →
        header.release map = .ok pool.map) ∧
      ∀ order : List Allocation, order.Perm pool.live →
        order.foldlM (fun map a => a.header.release map) pool.map = .ok start := by
  obtain ⟨pool, ran, shares⟩ := (Shares.empty start).steps small fits
  exact ⟨pool, ran, shares, shares.freeCount_add_sum, fun _ _ _ => shares.release_of_allocate small,
    fun _ order => (shares.perm order.symm).releaseAll⟩

/-- Two files, a third for which there is no space, and a fourth in place of the first. -/
def samples : List Step :=
  [.allocate 200, .allocate 0, .allocate 5000, .release 1, .allocate 300]

theorem run_shares_samples :
    ∃ pool, run ⟨#[true, false, false, true, false, false, false]⟩ samples = .ok pool ∧
      pool.Shares ⟨#[true, false, false, true, false, false, false]⟩ ∧
      pool.map.freeCount + (pool.live.map fun a => Extent.span a.size).sum = 5 := by
  have fits (size : Nat) (h : .allocate size ∈ samples) : size + sectorSize < Size.limit := by
    simp [samples] at h
    simp only [sectorSize, Size.limit]
    omega
  obtain ⟨pool, ran, shares, count, -⟩ := run_shares
    (show FreeMap.sectorCount ⟨#[true, false, false, true, false, false, false]⟩ ≤
      Word.sectorLimit by decide) fits
  exact ⟨pool, ran, shares, count⟩

end Pool

end SectorFS
