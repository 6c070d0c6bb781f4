import Mathlib.Data.List.ModifyLast
import Mathlib.Data.List.Sort
import SectorFS.Proofs.File.Allocation

/-!
# Allocation sector by sector

`Header.allocate` takes all its sectors at once. `Header.allocateInPlace` takes them one by one: an
index block, the data sectors that it lists, the next index block, to which the one before then
leads. It changes the header and the map as it goes, so that what fails on the way would stay half
done. `Header.allocateInPlace_eq` says that this never happens: it does what `Header.allocate` does,
or leaves both as they were.
-/

namespace SectorFS

namespace FreeMap

theorem fill_fill (map : FreeMap) (j k : Nat) : (map.fill j).fill k = map.fill (j + k) := by
  apply ext_uses
  · simp
  · intro s
    rw [uses_fill, uses_fill, uses_fill, sectorsWhere_fill, List.take_add, List.mem_append]
    tauto

/-- The sector that is claimed is the first of the free ones. -/
theorem claim?_of_cons {map : FreeMap} {s : Nat} {rest : List Nat}
    (h : map.sectorsWhere false = s :: rest) : map.claim? = some (s, map.fill 1) := by
  obtain ⟨inside, unused⟩ := mem_sectorsWhere_false.mp (h ▸ List.mem_cons_self : s ∈ _)
  cases found : map.claim? with
  | none => exact absurd (claim?_eq_none_iff.mp found s inside) unused
  | some result =>
    obtain ⟨t, map'⟩ := result
    obtain ⟨lt, free, least, rfl⟩ := claim?_eq_some found
    have mem : t ∈ s :: rest := h ▸ mem_sectorsWhere_false.mpr ⟨lt, free⟩
    have ascending := h ▸ map.pairwise_sectorsWhere false
    have same : t = s := by
      cases mem with
      | head => rfl
      | tail _ later =>
        have := (List.pairwise_cons.mp ascending).1 t later
        exact absurd (least s this) unused
    subst same
    simp [fill, h]

end FreeMap

/-- A header and the map that it takes its sectors from, both changed in place. What was done before
a failure stays done. -/
abbrev AllocM := EStateM Failure (Header × FreeMap)

instance : MonadLift (Except Failure) AllocM where
  monadLift
    | .ok a => pure a
    | .error e => throw e

namespace Chain

/-- Lets the last block lead to `next`. -/
def linkLast (next : Nat) (chain : Chain) : Chain :=
  ⟨chain.blocks.modifyLast fun last =>
    { last with block := { last.block with link := Word.ofSector? (some next) } }⟩

/-- A block that is linked late is the block that had its link from the start. -/
theorem linkLast_concat (blocks : List StoredBlock) (sector : Nat) (next : Option Nat)
    (data : List Nat) :
    let chain : Chain := ⟨blocks ++ [⟨sector, .ofSectors none data⟩]⟩
    next.elim chain chain.linkLast = ⟨blocks ++ [⟨sector, .ofSectors next data⟩]⟩ := by
  cases next with
  | none => rfl
  | some next => simp [linkLast, List.modifyLast_concat, IndexBlock.ofSectors]

end Chain

namespace Header

/-- Claims the lowest free sector. -/
def claim : AllocM Nat := fun (header, map) =>
  match map.claim? with
  | some (sector, map) => .ok sector (header, map)
  | none => .error (.error .noSpace) (header, map)

/-- Claims `count` sectors, one after another. -/
def claimEach : Nat → AllocM (List Nat)
  | 0 => return []
  | count + 1 => do
    let sector ← claim
    return sector :: (← claimEach count)

/-- Claims the blocks that list `left` more data sectors, and these sectors with them. -/
def claimBlocks (left : Nat) : AllocM Unit := do
  if left = 0 then return
  let sector ← claim
  modify fun (header, map) => ({ header with chain := header.chain.linkLast sector }, map)
  let data ← claimEach (min left slotsPerBlock)
  modify fun (header, map) =>
    ({ header with chain := ⟨header.chain.blocks ++ [⟨sector, .ofSectors none data⟩]⟩ }, map)
  claimBlocks (left - slotsPerBlock)
  termination_by left
  decreasing_by
    have : 0 < slotsPerBlock := by decide
    omega

/-- The data sectors of a file of `size` bytes, unless something stands against claiming them. -/
def approve (header : Header) (map : FreeMap) (size : Nat) : Except Failure Nat := do
  let count ← Size.ceilDiv size sectorSize
  if !header.chain.blocks.isEmpty then throw (.fault .chainInUse)
  let needed ← Size.add count (← Chain.blocksFor count)
  if map.freeCount < needed then throw (.error .noSpace)
  return count

/-- Claims the sectors of a file of `size` bytes one by one. -/
def allocateInPlace (size : Nat) : AllocM Unit := do
  let (header, map) ← get
  let count ← header.approve map size
  claimBlocks count
  modify fun (header, map) => ({ header with length := size, sectorCount := count }, map)

theorem get_apply (state : Header × FreeMap) : (get : AllocM _) state = .ok state state := rfl

theorem modify_apply (change : Header × FreeMap → Header × FreeMap) (state : Header × FreeMap) :
    (modify change : AllocM Unit) state = .ok () (change state) := rfl

theorem claimEach_eq (header : Header) (map : FreeMap) {count : Nat}
    (enough : count ≤ (map.sectorsWhere false).length) :
    claimEach count (header, map) =
      .ok ((map.sectorsWhere false).take count) (header, map.fill count) := by
  induction count generalizing map with
  | zero => simp [claimEach, pure, EStateM.pure]
  | succ count ih =>
    cases free : map.sectorsWhere false with
    | nil => simp [free] at enough
    | cons s rest =>
      have later : (map.fill 1).sectorsWhere false = rest := by
        simp [FreeMap.sectorsWhere_fill, free]
      have enough : count ≤ ((map.fill 1).sectorsWhere false).length := by
        simpa [later, free] using enough
      have rest_eq := ih _ enough
      rw [later, FreeMap.fill_fill, Nat.add_comm 1] at rest_eq
      simp [claimEach, claim, FreeMap.claim?_of_cons free, bind, EStateM.bind, rest_eq, pure,
        EStateM.pure]

/-- One block, with as many data sectors as it lists, and then the others. -/
theorem claimBlocks_cons (header : Header) {map : FreeMap} {left sector : Nat} {rest : List Nat}
    (more : left ≠ 0) (free : map.sectorsWhere false = sector :: rest)
    (enough : min left slotsPerBlock ≤ rest.length) :
    claimBlocks left (header, map) =
      claimBlocks (left - slotsPerBlock)
        ({ header with
            chain := ⟨(header.chain.linkLast sector).blocks ++
              [⟨sector, .ofSectors none (rest.take (min left slotsPerBlock))⟩]⟩ },
          map.fill (1 + min left slotsPerBlock)) := by
  have later : (map.fill 1).sectorsWhere false = rest := by
    simp [FreeMap.sectorsWhere_fill, free]
  rw [← later] at enough
  have data :=
    claimEach_eq { header with chain := header.chain.linkLast sector } (map.fill 1) enough
  rw [later, FreeMap.fill_fill] at data
  rw [claimBlocks]
  simp only [bind, EStateM.bind, claim, FreeMap.claim?_of_cons free, modify_apply, data, more,
    if_false]

/-- The sectors behind an index block, when more blocks follow only where this one is full. -/
theorem take_drop_dealt (rest : List Nat) {left blocks : Nat}
    (full : blocks = 0 ∨ slotsPerBlock ≤ left) :
    (rest.take (left + blocks)).take slotsPerBlock = rest.take (min left slotsPerBlock) ∧
      (rest.take (left + blocks)).drop slotsPerBlock =
        (rest.drop (min left slotsPerBlock)).take (left - slotsPerBlock + blocks) := by
  rw [List.take_take, List.drop_take]
  constructor
  · congr 1
    omega
  · by_cases last : slotsPerBlock ≤ left
    · congr 2 <;> omega
    · have nothing : left + blocks - slotsPerBlock = 0 ∧ left - slotsPerBlock + blocks = 0 := by
        omega
      simp [nothing]

/-- Behind the blocks that are there come those of the lowest free sectors, and the last one that
was there leads to them. -/
theorem claimBlocks_eq (header : Header) (map : FreeMap) (left : Nat)
    (enough : left + Size.units left slotsPerBlock ≤ (map.sectorsWhere false).length) :
    let taken := (map.sectorsWhere false).take (left + Size.units left slotsPerBlock)
    claimBlocks left (header, map) =
      .ok () ({ header with
          chain := ⟨(taken.head?.elim header.chain header.chain.linkLast).blocks ++
            Chain.deal taken⟩ },
        map.fill (left + Size.units left slotsPerBlock)) := by
  induction left using Nat.strongRecOn generalizing header map with
  | ind left ih =>
    have positive : 0 < slotsPerBlock := by decide
    by_cases hz : left = 0
    · rw [claimBlocks]
      simp [hz, Size.units_zero positive, pure, EStateM.pure]
    cases free : map.sectorsWhere false with
    | nil => simp [free, hz] at enough
    | cons sector rest =>
      have full : Size.units (left - slotsPerBlock) slotsPerBlock = 0 ∨ slotsPerBlock ≤ left := by
        by_cases last : slotsPerBlock ≤ left
        · exact .inr last
        · rw [Nat.sub_eq_zero_of_le (by omega), Size.units_zero positive]
          exact .inl rfl
      have later := ih (left - slotsPerBlock) (by omega)
      rw [free, List.length_cons, Size.units_of_pos positive hz] at enough
      rw [Size.units_of_pos positive hz]
      generalize Size.units (left - slotsPerBlock) slotsPerBlock = blocks at *
      obtain ⟨data, behind⟩ := take_drop_dealt rest full
      have left_free : (map.fill (1 + min left slotsPerBlock)).sectorsWhere false =
          rest.drop (min left slotsPerBlock) := by
        rw [FreeMap.sectorsWhere_fill, free, Nat.add_comm, List.drop_succ_cons]
      rw [claimBlocks_cons header hz free (by omega), later, left_free, FreeMap.fill_fill, ← behind]
      · have whole : 1 + min left slotsPerBlock + (left - slotsPerBlock + blocks) =
            left + (blocks + 1) := by omega
        simp only [Chain.linkLast_concat]
        rw [← data, whole, List.append_assoc, List.singleton_append, ← Chain.deal_cons]
        rfl
      · rw [left_free, List.length_drop]
        omega

end Header

/-! ## All at once or one by one -/

namespace Header

/-- Only whether a header has blocks matters for what it is given. -/
theorem allocate_of_isEmpty {header : Header} (unallocated : header.chain.blocks = [])
    (map : FreeMap) (size : Nat) : header.allocate map size = empty.allocate map size := by
  simp [allocate, unallocated, empty, Chain.empty]

theorem approve_of_isEmpty {header : Header} (unallocated : header.chain.blocks = [])
    {size : Nat} (fits : size + sectorSize < Size.limit) (map : FreeMap) :
    header.approve map size =
      if map.freeCount < Extent.span size then .error (.error .noSpace)
      else .ok (Size.units size sectorSize) := by
  obtain ⟨blocks, needed⟩ := Chain.needed_of_lt (count_small fits)
  rw [approve, Size.ceilDiv_of_lt fits]
  simp only [bind, Except.bind, blocks, needed, unallocated]
  rfl

/-- Taking the sectors one by one does what taking them at once does, and never stops half way. -/
theorem allocateInPlace_eq (size : Nat) (header : Header) (map : FreeMap) :
    allocateInPlace size (header, map) =
      match header.allocate map size with
      | .ok after => .ok () after
      | .error e => .error e (header, map) := by
  have refused {e : Failure} (h : header.approve map size = .error e) :
      allocateInPlace size (header, map) = .error e (header, map) := by
    simp only [allocateInPlace, bind, EStateM.bind, get_apply, h]
    rfl
  by_cases large : Size.limit ≤ size + sectorSize
  · rw [allocate_of_le header large]
    apply refused
    rw [approve, Size.ceilDiv_of_le large]
    rfl
  have fits : size + sectorSize < Size.limit := Nat.not_le.mp large
  by_cases unallocated : header.chain.blocks = []
  · have approved := approve_of_isEmpty unallocated fits map
    rw [allocate_of_isEmpty unallocated, allocate_empty fits]
    by_cases full : map.freeCount < Extent.span size
    · rw [if_pos full] at approved ⊢
      exact refused approved
    · rw [if_neg full] at approved ⊢
      have enough : Extent.span size ≤ (map.sectorsWhere false).length := by
        rw [FreeMap.length_sectorsWhere]
        exact Nat.not_lt.mp full
      have claimed := claimBlocks_eq header map (Size.units size sectorSize) enough
      have bare (next : Option Nat) :
          (next.elim header.chain header.chain.linkLast).blocks = [] := by
        cases next with
        | none => exact unallocated
        | some next => simp [Chain.linkLast, unallocated, List.modifyLast, List.modifyLast.go]
      simp only [bare, List.nil_append] at claimed
      simp only [allocateInPlace, bind, EStateM.bind, get_apply, approved, liftM, monadLift,
        MonadLift.monadLift, pure, EStateM.pure, claimed, modify_apply]
      rfl
  · have used : header.chain.blocks.isEmpty = false := by simpa using unallocated
    rw [allocate, Size.ceilDiv_of_lt fits, used]
    apply refused
    rw [approve, Size.ceilDiv_of_lt fits, used]
    rfl

end Header

/-! ## What is taken, and where it goes -/

namespace Header

/-- The header of a file of `size` bytes whose sectors are `taken`, in this order: an index block,
the data sectors that it lists, the next index block, and so on. -/
structure Lists (header : Header) (size : Nat) (taken : List Nat) : Prop where
  length_eq : header.length = size
  sectorCount_eq : header.sectorCount = Size.units size sectorSize
  length_blocks : header.chain.blocks.length = Size.units header.sectorCount slotsPerBlock
  length_data : header.dataSectors.length = header.sectorCount
  order : header.chain.blocks.flatMap
    (fun stored => stored.sector :: stored.block.dataSectors) = taken
  next? : ∀ j stored, header.chain.blocks[j]? = some stored →
    stored.block.next? = header.chain.blocks[j + 1]?.map (·.sector)
  slot : ∀ j stored, header.chain.blocks[j]? = some stored → ∀ slot, slot < slotsPerBlock →
    stored.block.dataSector? slot = header.dataSectors[slotsPerBlock * j + slot]?
  sectorAt : ∀ offset, offset < header.sectorCount * sectorSize →
    ∃ s, header.dataSectors[offset / sectorSize]? = some s ∧ header.sectorAt offset = .ok s
  sectorAt_end : ∀ offset, header.sectorCount * sectorSize ≤ offset →
    ∃ fault, header.sectorAt offset = .error (.fault fault)

/-- A header whose chain was dealt from sectors that words can name. -/
theorem lists_deal {size : Nat} {taken : List Nat} (length : taken.length = Extent.span size)
    (limit : ∀ s ∈ taken, s < Word.sectorLimit) :
    Lists ⟨size, Size.units size sectorSize, ⟨Chain.deal taken⟩⟩ size taken := by
  have data : dataSectors ⟨size, Size.units size sectorSize, ⟨Chain.deal taken⟩⟩ =
      Chain.dealtData taken := Chain.dataSectors_deal limit
  have count : (Chain.dealtData taken).length = Size.units size sectorSize :=
    Chain.length_dealtData_of_length length
  constructor
  case length_eq => rfl
  case sectorCount_eq => rfl
  case length_blocks => exact Chain.length_deal_of_length length
  case length_data => rw [data, count]
  case order => exact Chain.flatMap_deal limit
  case next? =>
    intro j stored found
    exact Chain.next?_deal limit found
  case slot =>
    intro j stored found slot inside
    rw [data]
    exact Chain.dataSector?_deal limit found inside
  case sectorAt =>
    intro offset inside
    have place : offset / sectorSize < (Chain.dealtData taken).length := by
      rw [count]
      exact Nat.div_lt_of_lt_mul (by rwa [Nat.mul_comm])
    refine ⟨(Chain.dealtData taken)[offset / sectorSize], ?_, ?_⟩
    · rw [data, List.getElem?_eq_getElem place]
    · exact Chain.sectorOf_deal limit (List.getElem?_eq_getElem place)
  case sectorAt_end =>
    intro offset behind
    apply Chain.sectorOf_deal_of_le limit
    rw [count, Nat.le_div_iff_mul_le (by decide)]
    exact behind

/-- A header without blocks is given the lowest free sectors, dealt in ascending order, or nothing
when there are too few of them. It makes no difference whether they are taken at once or one by
one. -/
theorem allocate_lowest {header : Header} {map : FreeMap} {size : Nat}
    (unallocated : header.chain.blocks = []) (small : map.sectorCount ≤ Word.sectorLimit)
    (fits : size + sectorSize < Size.limit) :
    if map.freeCount < Extent.span size then
      header.allocate map size = .error (.error .noSpace) ∧
        allocateInPlace size (header, map) = .error (.error .noSpace) (header, map)
    else
      ∃ header' map' taken,
        header.allocate map size = .ok (header', map') ∧
        allocateInPlace size (header, map) = .ok () (header', map') ∧
        taken.length = Extent.span size ∧ map.Takes taken map' ∧ header'.Lists size taken := by
  have whole := @allocate_empty map _ fits
  rw [← allocate_of_isEmpty unallocated] at whole
  rw [allocateInPlace_eq, whole]
  split
  · exact ⟨rfl, rfl⟩
  case isFalse enough =>
    have length := length_free_take (Nat.not_lt.mp enough)
    have takes := map.takes_fill (Extent.span size)
    refine ⟨_, _, _, rfl, rfl, length, takes, lists_deal length ?_⟩
    intro s hs
    have := (takes.free s hs).1
    omega

/-- Three data sectors and their index block in the holes of a map. -/
theorem allocate_lowest_holes : ∃ header map taken,
    allocate ⟨200, 2, .empty⟩ ⟨#[true, false, false, true, false, true, false, false]⟩ 300 =
      .ok (header, map) ∧
    taken.length = 4 ∧ FreeMap.Takes ⟨#[true, false, false, true, false, true, false, false]⟩
      taken map ∧
    header.Lists 300 taken := by
  have outcome := @allocate_lowest ⟨200, 2, .empty⟩
    ⟨#[true, false, false, true, false, true, false, false]⟩ 300 rfl (by decide) (by decide)
  rw [if_neg (by decide)] at outcome
  obtain ⟨header, map, taken, ends, -, length, takes, lists⟩ := outcome
  exact ⟨header, map, taken, ends, length, takes, lists⟩

end Header

end SectorFS
