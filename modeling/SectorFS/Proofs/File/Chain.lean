import SectorFS.File.Chain
import SectorFS.Proofs.Disk.Tries
import SectorFS.Proofs.File.Block

/-!
# Chains dealt from a list of sectors

Every chain on a volume comes from `Chain.deal`. Its blocks, its data sectors and its links are
read off the list it was dealt from:

* `Chain.dealtData` lists the data sectors, `dataSector?_deal` finds them slot by slot, and
  `sectorOf_deal` finds them by their place in the file;
* `sectors_deal` says that a chain owns exactly the sectors it was dealt from;
* `Chain.settles_store` and `Chain.runs_load` write such a chain and read it back.
-/

namespace SectorFS.Chain

/-- The data sectors among dealt sectors: all but the first of every `slotsPerBlock + 1`. -/
def dealtData : List Nat → List Nat
  | [] => []
  | _ :: rest => rest.take slotsPerBlock ++ dealtData (rest.drop slotsPerBlock)
  termination_by sectors => sectors.length

/-- The index blocks among dealt sectors. -/
def dealtIndex : List Nat → List Nat
  | [] => []
  | index :: rest => index :: dealtIndex (rest.drop slotsPerBlock)
  termination_by sectors => sectors.length

theorem dealtData_cons (index : Nat) (rest : List Nat) :
    dealtData (index :: rest) =
      rest.take slotsPerBlock ++ dealtData (rest.drop slotsPerBlock) := by
  rw [dealtData]

theorem dealtIndex_cons (index : Nat) (rest : List Nat) :
    dealtIndex (index :: rest) = index :: dealtIndex (rest.drop slotsPerBlock) := by
  rw [dealtIndex]

theorem deal_cons (index : Nat) (rest : List Nat) :
    deal (index :: rest) =
      ⟨index, .ofSectors (rest.drop slotsPerBlock).head? (rest.take slotsPerBlock)⟩ ::
        deal (rest.drop slotsPerBlock) := by
  rw [deal]

@[simp] theorem deal_nil : deal [] = [] := by rw [deal]
@[simp] theorem dealtData_nil : dealtData [] = [] := by rw [dealtData]
@[simp] theorem dealtIndex_nil : dealtIndex [] = [] := by rw [dealtIndex]

/-- Induction along the blocks that a list of sectors is dealt into. -/
theorem deal_induction {motive : List Nat → Prop} (nil : motive [])
    (cons : ∀ index rest, motive (rest.drop slotsPerBlock) → motive (index :: rest))
    (sectors : List Nat) : motive sectors := by
  induction sectors using deal.induct with
  | case1 => exact nil
  | case2 index rest _ ih => exact cons index rest ih

theorem mem_drop_limit {rest : List Nat} {index : Nat}
    (h : ∀ s ∈ index :: rest, s < Word.sectorLimit) :
    ∀ s ∈ rest.drop slotsPerBlock, s < Word.sectorLimit :=
  fun s hs => h s (List.mem_cons_of_mem _ (List.mem_of_mem_drop hs))

theorem mem_take_limit {rest : List Nat} {index : Nat}
    (h : ∀ s ∈ index :: rest, s < Word.sectorLimit) :
    ∀ s ∈ rest.take slotsPerBlock, s < Word.sectorLimit :=
  fun s hs => h s (List.mem_cons_of_mem _ (List.mem_of_mem_take hs))

theorem length_deal (sectors : List Nat) :
    (deal sectors).length = (sectors.length + slotsPerBlock) / (slotsPerBlock + 1) := by
  induction sectors using deal_induction with
  | nil => rw [deal_nil]; rfl
  | cons index rest ih =>
    rw [deal_cons, List.length_cons, ih, List.length_cons, List.length_drop]
    simp only [slotsPerBlock]
    omega

theorem length_dealtData (sectors : List Nat) :
    (dealtData sectors).length = sectors.length - (deal sectors).length := by
  rw [length_deal]
  induction sectors using deal_induction with
  | nil => rw [dealtData_nil]; rfl
  | cons index rest ih =>
    rw [dealtData_cons, List.length_append, ih, List.length_cons, List.length_drop,
      List.length_take]
    simp only [slotsPerBlock]
    omega

/-- A list long enough for `count` data sectors and their index blocks gives just these. -/
theorem length_deal_of_length {sectors : List Nat} {count : Nat}
    (h : sectors.length = count + (count + slotsPerBlock - 1) / slotsPerBlock) :
    (deal sectors).length = (count + slotsPerBlock - 1) / slotsPerBlock := by
  rw [length_deal, h]
  simp only [slotsPerBlock]
  omega

theorem length_dealtData_of_length {sectors : List Nat} {count : Nat}
    (h : sectors.length = count + (count + slotsPerBlock - 1) / slotsPerBlock) :
    (dealtData sectors).length = count := by
  rw [length_dealtData, length_deal_of_length h, h]
  omega

theorem perm_dealt (sectors : List Nat) :
    (dealtIndex sectors ++ dealtData sectors).Perm sectors := by
  induction sectors using deal_induction with
  | nil => simp
  | cons index rest ih =>
    rw [dealtIndex_cons, dealtData_cons, List.cons_append]
    refine .cons index ?_
    calc dealtIndex (rest.drop slotsPerBlock) ++
          (rest.take slotsPerBlock ++ dealtData (rest.drop slotsPerBlock))
        _ |>.Perm (rest.take slotsPerBlock ++ (dealtIndex (rest.drop slotsPerBlock) ++
          dealtData (rest.drop slotsPerBlock))) := by
          rw [← List.append_assoc, ← List.append_assoc]
          exact List.perm_append_comm.append_right _
        _ |>.Perm (rest.take slotsPerBlock ++ rest.drop slotsPerBlock) := ih.append_left _
        _ = rest := List.take_append_drop ..

theorem head?_deal (sectors : List Nat) : head? ⟨deal sectors⟩ = sectors.head? := by
  cases sectors with
  | nil => rw [deal_nil]; rfl
  | cons index rest => rw [deal_cons]; rfl

theorem indexSectors_deal (sectors : List Nat) :
    indexSectors ⟨deal sectors⟩ = dealtIndex sectors := by
  induction sectors using deal_induction with
  | nil => simp [indexSectors]
  | cons index rest ih =>
    rw [indexSectors, deal_cons, dealtIndex_cons, List.map_cons, ← ih]
    rfl

theorem dataSectors_deal {sectors : List Nat} (h : ∀ s ∈ sectors, s < Word.sectorLimit) :
    dataSectors ⟨deal sectors⟩ = dealtData sectors := by
  induction sectors using deal_induction with
  | nil => simp [dataSectors]
  | cons index rest ih =>
    rw [dataSectors, deal_cons, dealtData_cons, List.flatMap_cons,
      IndexBlock.dataSectors_ofSectors _ (List.length_take_le ..) (mem_take_limit h),
      ← ih (mem_drop_limit h)]
    rfl

/-- A chain owns the sectors it was dealt from. -/
theorem sectors_deal {sectors : List Nat} (h : ∀ s ∈ sectors, s < Word.sectorLimit) :
    (Chain.sectors ⟨deal sectors⟩).Perm sectors := by
  induction sectors using deal_induction with
  | nil => simp [Chain.sectors]
  | cons index rest ih =>
    rw [Chain.sectors, deal_cons, List.flatMap_cons,
      IndexBlock.dataSectors_ofSectors _ (List.length_take_le ..) (mem_take_limit h)]
    have ih := ih (mem_drop_limit h)
    calc rest.take slotsPerBlock ++ [index] ++ Chain.sectors ⟨deal (rest.drop slotsPerBlock)⟩
        _ |>.Perm (rest.take slotsPerBlock ++ [index] ++ rest.drop slotsPerBlock) :=
          ih.append_left _
        _ |>.Perm (index :: (rest.take slotsPerBlock ++ rest.drop slotsPerBlock)) := by
          rw [List.append_assoc]
          exact List.perm_middle
        _ = index :: rest := by rw [List.take_append_drop]

/-- Slot `slot` of block `b` holds data sector `slotsPerBlock * b + slot`. -/
theorem dataSector?_deal {sectors : List Nat} (h : ∀ s ∈ sectors, s < Word.sectorLimit)
    {b slot : Nat} {stored : StoredBlock} (hb : (deal sectors)[b]? = some stored)
    (hslot : slot < slotsPerBlock) :
    stored.block.dataSector? slot = (dealtData sectors)[slotsPerBlock * b + slot]? := by
  induction sectors using deal_induction generalizing b with
  | nil => simp at hb
  | cons index rest ih =>
    rw [deal_cons] at hb
    rw [dealtData_cons]
    cases b with
    | zero =>
      rw [List.getElem?_cons_zero, Option.some.injEq] at hb
      subst hb
      rw [IndexBlock.dataSector?_ofSectors _ (List.length_take_le ..) (mem_take_limit h)]
      by_cases hr : slot < rest.length
      · rw [List.getElem?_append_left (by simp; omega)]
        simp
      · have : rest.drop slotsPerBlock = [] := List.drop_eq_nil_of_le (by omega)
        rw [this, dealtData_nil, List.append_nil]
        simp
    | succ b =>
      rw [List.getElem?_cons_succ] at hb
      have nonempty : 0 < (deal (rest.drop slotsPerBlock)).length :=
        Nat.lt_of_le_of_lt (Nat.zero_le b) (List.getElem?_eq_some_iff.mp hb).1
      rw [length_deal, List.length_drop] at nonempty
      have long : slotsPerBlock ≤ rest.length := by
        simp only [slotsPerBlock] at nonempty ⊢
        omega
      rw [ih (mem_drop_limit h) hb, Nat.mul_succ, List.getElem?_append_right, List.length_take,
        Nat.min_eq_left long]
      · congr 1
        omega
      · rw [List.length_take]
        omega

/-- The data sectors of a dealt chain are found by their place in the file. -/
theorem sectorOf_deal {sectors : List Nat} (h : ∀ s ∈ sectors, s < Word.sectorLimit) {i s : Nat}
    (hi : (dealtData sectors)[i]? = some s) : sectorOf ⟨deal sectors⟩ i = .ok s := by
  have lt : i < (dealtData sectors).length := (List.getElem?_eq_some_iff.mp hi).1
  rw [length_dealtData, length_deal] at lt
  have block : i / slotsPerBlock < (deal sectors).length := by
    rw [length_deal]
    simp only [slotsPerBlock] at lt ⊢
    omega
  have found := List.getElem?_eq_getElem block
  have data := dataSector?_deal h found (Nat.mod_lt i (show 0 < slotsPerBlock by decide))
  rw [Nat.div_add_mod, hi] at data
  simp only [sectorOf, found, data]

/-- Behind the data sectors of a dealt chain there is nothing to be found. -/
theorem sectorOf_deal_of_le {sectors : List Nat} (h : ∀ s ∈ sectors, s < Word.sectorLimit)
    {i : Nat} (hi : (dealtData sectors).length ≤ i) :
    ∃ fault, sectorOf ⟨deal sectors⟩ i = .error (.fault fault) := by
  unfold sectorOf
  cases found : (deal sectors)[i / slotsPerBlock]? with
  | none => exact ⟨_, rfl⟩
  | some stored =>
    have data := dataSector?_deal h found (Nat.mod_lt i (show 0 < slotsPerBlock by decide))
    rw [Nat.div_add_mod, List.getElem?_eq_none hi] at data
    exact ⟨.emptySlot stored.sector (i % slotsPerBlock), by simp [data]⟩

/-- Every block with the data sectors that it lists: what was dealt, in its order. -/
theorem flatMap_deal {sectors : List Nat} (h : ∀ s ∈ sectors, s < Word.sectorLimit) :
    (deal sectors).flatMap (fun stored => stored.sector :: stored.block.dataSectors) = sectors := by
  induction sectors using deal_induction with
  | nil => simp
  | cons index rest ih =>
    rw [deal_cons, List.flatMap_cons, ih (mem_drop_limit h),
      IndexBlock.dataSectors_ofSectors _ (List.length_take_le ..) (mem_take_limit h)]
    simp

/-- Every block leads to the one behind it, and the last one nowhere. -/
theorem next?_deal {sectors : List Nat} (h : ∀ s ∈ sectors, s < Word.sectorLimit) {b : Nat}
    {stored : StoredBlock} (hb : (deal sectors)[b]? = some stored) :
    stored.block.next? = (deal sectors)[b + 1]?.map (·.sector) := by
  induction sectors using deal_induction generalizing b with
  | nil => simp at hb
  | cons index rest ih =>
    rw [deal_cons] at hb ⊢
    cases b with
    | zero =>
      rw [List.getElem?_cons_zero, Option.some.injEq] at hb
      subst hb
      have link := IndexBlock.next?_ofSectors
        (fun s hs => mem_drop_limit h s (List.mem_of_mem_head? hs)) (rest.take slotsPerBlock)
      have behind : _ = (rest.drop slotsPerBlock).head? := head?_deal (rest.drop slotsPerBlock)
      rw [link, List.getElem?_cons_succ, ← List.head?_eq_getElem?, ← behind]
      rfl
    | succ b => exact ih (mem_drop_limit h) hb

/-! ## On disk -/

/-- What storing the chain writes. -/
def writes (chain : Chain) : Writes :=
  chain.blocks.map fun stored => (stored.sector, stored.block.toSector)

theorem map_fst_writes (chain : Chain) : chain.writes.map Prod.fst = chain.indexSectors := by
  simp [writes, indexSectors]

theorem settles_store {n : Nat} {store : Store} {K : Nat → Prop} {chain : Chain}
    (h : ∀ s ∈ chain.indexSectors, s < n) :
    Settles n store K chain.store (.ok ()) chain.writes := by
  obtain ⟨blocks⟩ := chain
  induction blocks generalizing store with
  | nil => exact .done ()
  | cons stored blocks ih =>
    refine .step (.write (h stored.sector List.mem_cons_self) _) ?_
    exact ih fun s hs => h s (List.mem_cons_of_mem _ hs)

theorem runs_loadFrom {n : Nat} {store : Store} {sectors : List Nat} (limit : Nat)
    (small : ∀ s ∈ sectors, s < Word.sectorLimit)
    (inside : ∀ s ∈ dealtIndex sectors, s < n)
    (holds : ∀ stored ∈ deal sectors, store stored.sector = stored.block.toSector) {left : Nat}
    (hleft : (deal sectors).length ≤ left) (before : List StoredBlock) :
    Runs n store (loadFrom limit before left sectors.head?)
      (.ok ⟨before.reverse ++ deal sectors⟩) [] := by
  induction sectors using deal_induction generalizing left before with
  | nil =>
    rw [deal_nil, List.append_nil, List.head?_nil, loadFrom]
    exact .done _
  | cons index rest ih =>
    rw [dealtIndex_cons] at inside
    rw [deal_cons] at holds hleft
    cases left with
    | zero => simp at hleft
    | succ left =>
      have head := holds _ List.mem_cons_self
      have tail := ih (mem_drop_limit small) (fun s hs => inside s (List.mem_cons_of_mem _ hs))
        (fun stored hs => holds stored (List.mem_cons_of_mem _ hs)) (Nat.le_of_succ_le_succ hleft)
        (⟨index, .ofSectors (rest.drop slotsPerBlock).head? (rest.take slotsPerBlock)⟩ :: before)
      rw [List.head?_cons, loadFrom]
      refine .andThen (.read (inside index List.mem_cons_self)) ?_
      have link := IndexBlock.next?_ofSectors
        (fun s hs => mem_drop_limit small s (List.mem_of_mem_head? hs))
        (rest.take slotsPerBlock)
      simp only at head
      rw [head, IndexBlock.ofSector_toSector, deal_cons, List.append_cons, ← List.reverse_cons]
      simp only [link]
      exact tail

theorem runs_load {n : Nat} {store : Store} {sectors : List Nat} {limit : Nat}
    (small : ∀ s ∈ sectors, s < Word.sectorLimit)
    (inside : ∀ s ∈ dealtIndex sectors, s < n)
    (holds : ∀ stored ∈ deal sectors, store stored.sector = stored.block.toSector)
    (hlimit : (deal sectors).length ≤ limit) :
    Runs n store (load sectors.head? limit) (.ok ⟨deal sectors⟩) [] :=
  runs_loadFrom limit small inside holds hlimit []

end SectorFS.Chain
