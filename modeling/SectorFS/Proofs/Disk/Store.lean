import Mathlib.Logic.Function.Basic
import SectorFS.Disk.Basic

/-!
# What a disk holds

A disk *covers* its sectors when its medium has them all, and is *sound* when no request for one of
them can fail either. What it holds is then a `Store`, a sector for every number, and all that a
program does to it is a list of `Writes`:

* `Store.after` is the store behind writes, `Store.after_apply_of_notMem` the frame they leave;
* `Disk.Wrote` says that a disk differs from another by writes only;
* `Disk.Wrote.covers`, `Disk.Wrote.sound` and `Disk.Wrote.store_eq` carry on what is known.
-/

namespace SectorFS

/-- What every sector of a medium holds. -/
abbrev Store := Nat → Sector

/-- Sectors with what was written to them, first to last. -/
abbrev Writes := List (Nat × Sector)

namespace Store

/-- The store that the writes leave behind. -/
def after (store : Store) (writes : Writes) : Store :=
  writes.foldl (fun store w => Function.update store w.1 w.2) store

@[simp] theorem after_nil (store : Store) : store.after [] = store := rfl

@[simp] theorem after_cons (store : Store) (w : Nat × Sector) (ws : Writes) :
    store.after (w :: ws) = Store.after (Function.update store w.1 w.2) ws := rfl

theorem after_append (store : Store) (ws vs : Writes) :
    store.after (ws ++ vs) = (store.after ws).after vs := by
  simp [after, List.foldl_append]

/-- A sector that no write is for keeps what it holds. -/
theorem after_apply_of_notMem {ws : Writes} {s : Nat} (store : Store)
    (h : s ∉ ws.map Prod.fst) : store.after ws s = store s := by
  induction ws generalizing store with
  | nil => rfl
  | cons w ws ih =>
    simp only [List.map_cons, List.mem_cons, not_or] at h
    simp [after_cons, ih _ h.2, Function.update_of_ne h.1]

/-- When no sector is written twice, each holds what was written to it. -/
theorem after_apply_of_mem {ws : Writes} (store : Store) (nodup : (ws.map Prod.fst).Nodup)
    {w : Nat × Sector} (h : w ∈ ws) : store.after ws w.1 = w.2 := by
  induction ws generalizing store with
  | nil => cases h
  | cons v ws ih =>
    simp only [List.map_cons, List.nodup_cons] at nodup
    rcases List.mem_cons.mp h with rfl | h
    · simp [after_cons, after_apply_of_notMem _ nodup.1]
    · exact ih _ nodup.2 h

end Store

theorem Sector.bytes_ofBytes {bytes : List UInt8} (h : bytes.length = sectorSize) :
    (Sector.ofBytes bytes).bytes = bytes := by
  simp [Sector.ofBytes, h, List.take_of_length_le]

namespace Image

theorem write_of_lt {image : Image} {s : Nat} (h : s < image.sectors.size) (data : Sector) :
    image.write s data = ⟨image.sectors.setIfInBounds s data, image.tail, image.length_tail⟩ := by
  have : s + 1 ≤ image.sectors.size := h
  simp [write, extend, this]

theorem size_write_of_lt {image : Image} {s : Nat} (h : s < image.sectors.size) (data : Sector) :
    (image.write s data).sectors.size = image.sectors.size := by
  simp [write_of_lt h]

theorem padded_write_of_lt {image : Image} {s : Nat} (h : s < image.sectors.size) (data : Sector) :
    (image.write s data).padded = Function.update image.padded s data := by
  funext t
  by_cases ht : t = s
  · subst ht
    simp [padded, sector?, write_of_lt h, h]
  · simp [padded, sector?, write_of_lt h, Function.update_of_ne ht,
      Array.getElem?_setIfInBounds_ne (Ne.symm ht)]

theorem sector?_of_lt {image : Image} {s : Nat} (h : s < image.sectors.size) :
    image.sector? s = some (image.padded s) := by
  simp [padded, sector?, h]

/-- Images with as many sectors and with the same bytes in them and behind them are the same. -/
theorem eq_of_padded {image image' : Image} (size : image.sectors.size = image'.sectors.size)
    (tail : image.tail = image'.tail) (padded : image.padded = image'.padded) : image = image' := by
  have sectors : image.sectors = image'.sectors := by
    apply Array.ext size
    intro s inside inside'
    have same := congrFun padded s
    rwa [← Option.some_inj, ← sector?_of_lt inside, ← sector?_of_lt inside', sector?, sector?,
      Array.getElem?_eq_getElem inside, Array.getElem?_eq_getElem inside', Option.some_inj] at same
  cases image
  cases image'
  simp_all

end Image

namespace Disk

/-- What the medium holds. -/
def store (disk : Disk) : Store := disk.image.padded

/-- A disk whose sectors all lie below the offset limit checks the sector and then the buffer. -/
theorem check_eq {disk : Disk} (addressable : disk.sectorCount * sectorSize ≤ offsetLimit)
    (s size : Nat) : disk.check s size =
      if disk.sectorCount ≤ s then .error (.error (.io .sectorOutOfRange))
      else if size ≠ sectorSize then .error (.error (.io .bufferNotOneSector))
      else .ok () := by
  by_cases there : disk.sectorCount ≤ s
  · rw [if_pos there, check, if_pos there]
    rfl
  · rw [if_neg there, check, if_neg there]
    by_cases partial_buffer : size ≠ sectorSize
    · rw [if_pos partial_buffer]
      simp only [partial_buffer, ne_eq, not_false_eq_true, if_true]
      rfl
    · have inside : s * sectorSize < Size.limit := by
        simp only [sectorSize, offsetLimit, Size.limit] at *
        omega
      have ends : ¬ offsetLimit < s * sectorSize + sectorSize := by
        simp only [sectorSize, offsetLimit] at *
        omega
      rw [if_neg partial_buffer]
      simp only [partial_buffer, Size.mul, inside, if_true, if_false]
      exact if_neg ends

/-- No request for one of the `n` sectors fails. -/
structure Sound (n : Nat) (disk : Disk) : Prop where
  sectorCount_eq : disk.sectorCount = n
  covered : n ≤ disk.image.sectors.size
  addressable : n * sectorSize ≤ offsetLimit
  read_passes : ∀ seen s, disk.faults.read seen s = false
  write_passes : ∀ seen s, disk.faults.write seen s = false
  sync_passes : disk.faults.sync = false

/-- The medium has all of the `n` sectors, whatever requests are planned to fail. -/
structure Covers (n : Nat) (disk : Disk) : Prop where
  sectorCount_eq : disk.sectorCount = n
  covered : n ≤ disk.image.sectors.size
  addressable : n * sectorSize ≤ offsetLimit

theorem Sound.covers {n : Nat} {disk : Disk} (sound : disk.Sound n) : disk.Covers n :=
  ⟨sound.sectorCount_eq, sound.covered, sound.addressable⟩

/-- The disk with other failures planned. -/
def withFaults (disk : Disk) (plan : FaultPlan) : Disk := { disk with faults := plan }

theorem Covers.withFaults {n : Nat} {disk : Disk} (covers : disk.Covers n) (plan : FaultPlan) :
    (disk.withFaults plan).Covers n :=
  ⟨covers.sectorCount_eq, covers.covered, covers.addressable⟩

/-- A disk without planned failures is sound. -/
theorem Covers.sound_withFaults {n : Nat} {disk : Disk} (covers : disk.Covers n) :
    (disk.withFaults .none).Sound n where
  sectorCount_eq := covers.sectorCount_eq
  covered := covers.covered
  addressable := covers.addressable
  read_passes _ _ := rfl
  write_passes _ _ := rfl
  sync_passes := rfl

/-- A disk that is attached to an image of its size, with no planned failures, is sound. -/
theorem sound_attach {image : Image} {n : Nat} (addressable : n * sectorSize ≤ offsetLimit)
    (sectors : image.sectors.size = n) : (attach image n .none).Sound n where
  sectorCount_eq := rfl
  covered := Nat.le_of_eq sectors.symm
  addressable := addressable
  read_passes _ _ := rfl
  write_passes _ _ := rfl
  sync_passes := rfl

/-- A disk of zeros with no planned failures. -/
def blank (n : Nat) : Disk :=
  attach ⟨Array.replicate n .zero, [], Image.empty.length_tail⟩ n .none

theorem sound_blank {n : Nat} (addressable : n * sectorSize ≤ offsetLimit) : (blank n).Sound n :=
  sound_attach addressable Array.size_replicate

@[simp] theorem store_blank (n s : Nat) : (blank n).store s = .zero := by
  simp only [store, Image.padded, Image.sector?, blank, attach, Array.getElem?_replicate]
  split <;> simp_all [Sector.ofBytes, Sector.zero]

/-- `disk'` is `disk` after the writes, all of them for one of the `n` sectors. -/
structure Wrote (n : Nat) (disk : Disk) (writes : Writes) (disk' : Disk) : Prop where
  in_range : ∀ w ∈ writes, w.1 < n
  sectorCount_eq : disk'.sectorCount = disk.sectorCount
  faults_eq : disk'.faults = disk.faults
  image_eq : disk'.image = writes.foldl (fun image w => image.write w.1 w.2) disk.image
  writes_eq : disk'.writes = (writes.map Prod.fst).reverse ++ disk.writes

theorem Wrote.refl (n : Nat) (disk : Disk) : Wrote n disk [] disk :=
  ⟨by simp, rfl, rfl, rfl, rfl⟩

theorem Wrote.trans {n : Nat} {a b c : Disk} {ws vs : Writes}
    (h : Wrote n a ws b) (h' : Wrote n b vs c) : Wrote n a (ws ++ vs) c where
  in_range w hw := (List.mem_append.mp hw).elim (h.in_range w) (h'.in_range w)
  sectorCount_eq := h'.sectorCount_eq.trans h.sectorCount_eq
  faults_eq := h'.faults_eq.trans h.faults_eq
  image_eq := by rw [h'.image_eq, h.image_eq, List.foldl_append]
  writes_eq := by simp [h'.writes_eq, h.writes_eq]

/-- Writes below the sector count neither grow the medium nor miss it. -/
theorem foldl_write {n : Nat} {ws : Writes} {image : Image} (hn : n ≤ image.sectors.size)
    (hws : ∀ w ∈ ws, w.1 < n) :
    (ws.foldl (fun image w => image.write w.1 w.2) image).sectors.size = image.sectors.size ∧
    (ws.foldl (fun image w => image.write w.1 w.2) image).padded = Store.after image.padded ws := by
  induction ws generalizing image with
  | nil => exact ⟨rfl, rfl⟩
  | cons w ws ih =>
    have hw : w.1 < image.sectors.size := by
      have := hws w List.mem_cons_self
      omega
    have size := Image.size_write_of_lt hw w.2
    have hn' : n ≤ (image.write w.1 w.2).sectors.size := by omega
    obtain ⟨hsize, hpadded⟩ := ih hn' fun v hv => hws v (List.mem_cons_of_mem _ hv)
    exact ⟨hsize.trans size, by rw [List.foldl_cons, hpadded, Image.padded_write_of_lt hw]; rfl⟩

/-- Writes below the end of the last whole sector do not touch what lies behind it. -/
theorem tail_foldl_write {n : Nat} {ws : Writes} {image : Image}
    (hn : n ≤ image.sectors.size) (hws : ∀ w ∈ ws, w.1 < n) :
    (ws.foldl (fun image w => image.write w.1 w.2) image).tail = image.tail := by
  induction ws generalizing image with
  | nil => rfl
  | cons w ws ih =>
    obtain ⟨hw, hws⟩ := List.forall_mem_cons.mp hws
    have inside : w.1 < image.sectors.size := Nat.lt_of_lt_of_le hw hn
    rw [← Image.size_write_of_lt inside w.2] at hn
    rw [List.foldl_cons, ih hn hws, Image.write_of_lt inside]

theorem Wrote.covers {n : Nat} {disk disk' : Disk} {ws : Writes} (h : Wrote n disk ws disk')
    (covers : disk.Covers n) : disk'.Covers n where
  sectorCount_eq := h.sectorCount_eq.trans covers.sectorCount_eq
  covered := by
    rw [h.image_eq, (foldl_write covers.covered h.in_range).1]
    exact covers.covered
  addressable := covers.addressable

theorem Wrote.sound {n : Nat} {disk disk' : Disk} {ws : Writes} (h : Wrote n disk ws disk')
    (sound : disk.Sound n) : disk'.Sound n where
  sectorCount_eq := (h.covers sound.covers).sectorCount_eq
  covered := (h.covers sound.covers).covered
  addressable := sound.addressable
  read_passes := by rw [h.faults_eq]; exact sound.read_passes
  write_passes := by rw [h.faults_eq]; exact sound.write_passes
  sync_passes := by rw [h.faults_eq]; exact sound.sync_passes

theorem Wrote.store_eq {n : Nat} {disk disk' : Disk} {ws : Writes} (h : Wrote n disk ws disk')
    (covers : disk.Covers n) : disk'.store = disk.store.after ws := by
  simp [store, h.image_eq, (foldl_write covers.covered h.in_range).2]

end Disk

end SectorFS
