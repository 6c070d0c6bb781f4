import SectorFS.Proofs.FreeMap.Bytes

/-!
# Histories of a free map

A map starts blank or is read from bytes, and from then on sectors are reserved, released and
claimed. Words and flags have the same histories, and along each the words stand for the set that
the changes lead to: `PackedMap.history_as_set` says so and what follows for every operation, and
`PackedMap.stored_both_ways` follows the map to its bytes and back.
-/

namespace SectorFS

namespace FreeMap

/-- Where a map comes from. -/
inductive Origin where
  | blank
  | stored (bytes : List UInt8)

/-- The bytes are enough for `n` sectors. -/
def Origin.Suits (n : Nat) : Origin → Prop
  | blank => True
  | stored bytes => Size.units n 8 ≤ bytes.length

/-- The sectors in use at first. -/
def Origin.set (n : Nat) : Origin → Finset Nat
  | blank => ∅
  | stored bytes => markedSet n bytes

def ofOrigin (n : Nat) : Origin → Except Failure FreeMap
  | .blank => new n
  | .stored bytes => ofBytes n bytes

/-- A change of a map, which for a claim includes what was found. -/
inductive Change where
  | reserve (sector : Nat)
  | release (sector : Nat)
  | claim (found : Option Nat)

/-- The sectors in use after a change. -/
def Change.apply (used : Finset Nat) : Change → Finset Nat
  | reserve s => insert s used
  | release s => used.erase s
  | claim (some s) => insert s used
  | claim none => used

inductive Step (flags : FreeMap) : Change → FreeMap → Prop
  | reserve {s : Nat} {flags' : FreeMap} (done : flags.reserve s = .ok flags') :
      Step flags (.reserve s) flags'
  | release {s : Nat} {flags' : FreeMap} (done : flags.release s = .ok flags') :
      Step flags (.release s) flags'
  | claim {s : Nat} {flags' : FreeMap} (done : flags.claim? = some (s, flags')) :
      Step flags (.claim (some s)) flags'
  | full (done : flags.claim? = none) : Step flags (.claim none) flags

/-- Changes one after the other, all of them done. -/
inductive History {α : Type} (Step : α → Change → α → Prop) : α → List Change → α → Prop
  | nil {a : α} : History Step a [] a
  | cons {a b c : α} {change : Change} {changes : List Change} (head : Step a change b)
      (tail : History Step b changes c) : History Step a (change :: changes) c

theorem History.exists_of_append {α : Type} {Step : α → Change → α → Prop} {a c : α}
    {before behind : List Change} (h : History Step a (before ++ behind) c) :
    ∃ b, History Step a before b ∧ History Step b behind c := by
  induction before generalizing a with
  | nil => exact ⟨a, .nil, h⟩
  | cons change before ih =>
    cases h with
    | cons head tail =>
      obtain ⟨b, first, last⟩ := ih tail
      exact ⟨b, .cons head first, last⟩

/-- A sector in use stays so until it is released. -/
theorem mem_foldl_apply {s : Nat} {changes : List Change} {used : Finset Nat} (h : s ∈ used)
    (kept : .release s ∉ changes) : s ∈ changes.foldl Change.apply used := by
  induction changes generalizing used with
  | nil => exact h
  | cons change changes ih =>
    rw [List.mem_cons, not_or] at kept
    refine ih ?_ kept.2
    match change with
    | .reserve t => exact Finset.mem_insert_of_mem h
    | .release t => exact Finset.mem_erase.mpr ⟨fun eq => kept.1 (eq ▸ rfl), h⟩
    | .claim (some t) => exact Finset.mem_insert_of_mem h
    | .claim none => exact h

end FreeMap

namespace PackedMap

open FreeMap (Origin Change History marked trimmed)

variable {map map' : PackedMap} {flags flags' : FreeMap} {n : Nat} {used : Finset Nat}
  {change : Change} {changes : List Change}

def ofOrigin (n : Nat) : Origin → Except Failure PackedMap
  | .blank => new n
  | .stored bytes => ofBytes n bytes

inductive Step (map : PackedMap) : Change → PackedMap → Prop
  | reserve {s : Nat} {map' : PackedMap} (done : map.reserve s = .ok map') :
      Step map (.reserve s) map'
  | release {s : Nat} {map' : PackedMap} (done : map.release s = .ok map') :
      Step map (.release s) map'
  | claim {found : Option Nat} {map' : PackedMap} (done : map.claim = (found, map')) :
      Step map (.claim found) map'

theorem ofOrigin_eq (small : n + 64 < Size.limit) {origin : Origin} (suits : origin.Suits n) :
    ∃ flags, FreeMap.ofOrigin n origin = .ok flags ∧ ofOrigin n origin = .ok flags.packed ∧
      flags.sectorCount = n ∧ flags.usedSet = origin.set n := by
  cases origin with
  | blank =>
    have start : FreeMap.new n = .ok ⟨.replicate n false⟩ := by
      rw [FreeMap.new, FreeMap.checkCount_of_lt small]
      rfl
    have size : (FreeMap.mk (.replicate n false)).sectorCount = n := Array.size_replicate
    have unused : (FreeMap.mk (.replicate n false)).usedSet = ∅ := by
      rw [Finset.eq_empty_iff_forall_notMem]
      intro s
      simp [FreeMap.mem_usedSet, FreeMap.Uses, Array.getElem?_replicate]
    refine ⟨_, start, ?_, size, unused⟩
    rw [ofOrigin, new_of_lt small, (represents_blank n).eq_packed size unused]
  | stored bytes => exact FreeMap.exists_ofBytes_packed suits small

/-! ## Steps -/

/-- A change leads to the set it is meant to. -/
theorem Represents.step (h : map.Represents n used) (few : n < 0x100000000)
    (step : map.Step change map') : map'.Represents n (change.apply used) := by
  have serves := h.serves few
  cases step with
  | @reserve s _ done =>
    by_cases hs : s < n
    · obtain ⟨map'', run, represents⟩ := serves.reserve s hs
      exact Except.ok.inj (done.symm.trans run) ▸ represents
    · rw [serves.reserve_outside s (Nat.le_of_not_lt hs)] at done
      cases done
  | @release s _ done =>
    by_cases hu : s ∈ used
    · obtain ⟨map'', run, represents⟩ := serves.release s hu
      exact Except.ok.inj (done.symm.trans run) ▸ represents
    by_cases hs : s < n
    · rw [serves.release_free s hs hu] at done
      cases done
    · rw [serves.release_outside s (Nat.le_of_not_lt hs)] at done
      cases done
  | @claim found _ done =>
    have first : map.claim.1 = found := congrArg Prod.fst done
    have after : map.claim.2 = map' := congrArg Prod.snd done
    cases found with
    | none =>
      rw [← after, serves.unclaimed first]
      exact h
    | some s => exact after ▸ serves.claimed s first

/-- Words and flags take the same steps. -/
theorem Step.of_flags (few : flags.sectorCount < 0x100000000)
    (step : flags.Step change flags') : flags.packed.Step change flags'.packed := by
  have mirrors := mirrors_packed flags few
  cases step with
  | reserve done => exact .reserve (by rw [mirrors.reserve, done]; rfl)
  | release done => exact .release (by rw [mirrors.release, done]; rfl)
  | claim done => exact .claim (mirrors.claim_of_some _ _ done)
  | full done => exact .claim (mirrors.claim_of_none done)

theorem exists_of_map_packed {result : Except Failure FreeMap}
    (h : result.map FreeMap.packed = .ok map) :
    ∃ flags, result = .ok flags ∧ map = flags.packed := by
  cases result with
  | error e => cases h
  | ok flags => exact ⟨flags, rfl, (Except.ok.inj h).symm⟩

theorem Step.exists_flags (few : flags.sectorCount < 0x100000000)
    (step : flags.packed.Step change map) : ∃ flags', flags.Step change flags' ∧
      map = flags'.packed := by
  have mirrors := mirrors_packed flags few
  cases step with
  | @reserve s _ done =>
    rw [mirrors.reserve] at done
    obtain ⟨flags', run, rfl⟩ := exists_of_map_packed done
    exact ⟨flags', .reserve run, rfl⟩
  | @release s _ done =>
    rw [mirrors.release] at done
    obtain ⟨flags', run, rfl⟩ := exists_of_map_packed done
    exact ⟨flags', .release run, rfl⟩
  | @claim found _ done =>
    cases run : flags.claim? with
    | none =>
      rw [mirrors.claim_of_none run] at done
      obtain ⟨rfl, rfl⟩ := Prod.mk.inj done
      exact ⟨flags, .full run, rfl⟩
    | some result =>
      rw [mirrors.claim_of_some result.1 result.2 run] at done
      obtain ⟨rfl, rfl⟩ := Prod.mk.inj done
      exact ⟨result.2, .claim run, rfl⟩

/-! ## Histories -/

theorem Represents.history (h : map.Represents n used) (few : n < 0x100000000)
    (history : History Step map changes map') :
    map'.Represents n (changes.foldl Change.apply used) := by
  induction history generalizing used with
  | nil => exact h
  | cons head _ ih => exact ih (h.step few head)

theorem exists_history_of_packed (few : flags.sectorCount < 0x100000000)
    (history : History Step flags.packed changes map) :
    ∃ flags', History FreeMap.Step flags changes flags' ∧ map = flags'.packed := by
  generalize start : flags.packed = first at history
  induction history generalizing flags with
  | nil => exact ⟨flags, .nil, start.symm⟩
  | cons head _ ih =>
    subst start
    obtain ⟨next, step, rfl⟩ := head.exists_flags few
    have size := (flags.represents_packed.step few head).sectorCount_eq
    obtain ⟨flags', rest, same⟩ := ih (lt_of_eq_of_lt size few) rfl
    exact ⟨flags', .cons step rest, same⟩

theorem history_packed (few : flags.sectorCount < 0x100000000)
    (history : History FreeMap.Step flags changes flags') :
    History Step flags.packed changes flags'.packed := by
  induction history with
  | nil => exact .nil
  | cons head _ ih =>
    have step := Step.of_flags few head
    have size := ((FreeMap.represents_packed _).step few step).sectorCount_eq
    exact .cons step (ih (lt_of_eq_of_lt size few))

/-- Between two claims of one sector it is released. -/
theorem Represents.released_between (h : map.Represents n used) (few : n < 0x100000000)
    {before middle behind : List Change} {s : Nat}
    (history : History Step map
      (before ++ .claim (some s) :: (middle ++ .claim (some s) :: behind)) map') :
    .release s ∈ middle := by
  by_contra kept
  obtain ⟨first, start, history⟩ := history.exists_of_append
  cases history with
  | cons claim history =>
  obtain ⟨second, between, history⟩ := history.exists_of_append
  have claimed := (h.history few start).step few claim
  have held := claimed.history few between
  cases history with
  | cons again _ =>
  cases again with
  | claim done =>
    have found : second.claim.1 = some s := congrArg Prod.fst done
    have unused := (((held.serves few).claim_eq_some_iff s).mp found).2.1
    exact unused (FreeMap.mem_foldl_apply (Finset.mem_insert_self s _) kept)

/-- No bit behind the last sector is set. -/
def SpareClear (map : PackedMap) : Prop :=
  ∀ j (_ : j < Size.units map.sectorCount 64) k, map.sectorCount ≤ 64 * j + k →
    (map.words[j]).getLsbD k = false

theorem Represents.spareClear (h : map.Represents n used) : map.SpareClear := by
  intro j there k outside
  by_cases low : k < 64
  · have place : (64 * j + k) / 64 = j ∧ (64 * j + k) % 64 = k := by omega
    have clear := h.spare_clear (h.sectorCount_eq ▸ outside)
    rw [bit_eq_getLsbD (by rw [place.1]; exact there)] at clear
    simpa only [place] using clear
  · exact BitVec.getLsbD_of_ge _ _ (Nat.le_of_not_lt low)

/-- Along every history the words stand for the set that the changes lead to, each operation does
on the words what it does on this set and on the flags, and no sector is claimed twice without being
released in between. -/
theorem history_as_set (few : n < 0x100000000) {origin : Origin} (suits : origin.Suits n) :
    ∃ flags, FreeMap.ofOrigin n origin = .ok flags ∧ ofOrigin n origin = .ok flags.packed ∧
      (∀ changes flags', History FreeMap.Step flags changes flags' →
        History Step flags.packed changes flags'.packed) ∧
      ∀ changes map, History Step flags.packed changes map →
        map.SpareClear ∧
        map.Represents n (changes.foldl Change.apply (origin.set n)) ∧
        map.Serves n (changes.foldl Change.apply (origin.set n)) ∧
        (∃ flags', History FreeMap.Step flags changes flags' ∧ map = flags'.packed ∧
          map.Mirrors flags') ∧
        ∀ before middle behind s,
          changes = before ++ .claim (some s) :: (middle ++ .claim (some s) :: behind) →
            .release s ∈ middle := by
  have small : n + 64 < Size.limit := by
    unfold Size.limit
    omega
  obtain ⟨flags, run, run', size, set⟩ := ofOrigin_eq small suits
  have represents : flags.packed.Represents n (origin.set n) := by
    have := flags.represents_packed
    rwa [size, set] at this
  refine ⟨flags, run, run', fun _ _ => history_packed (size ▸ few), fun changes map history => ?_⟩
  have after := represents.history few history
  obtain ⟨flags', same, rfl⟩ := exists_history_of_packed (size ▸ few) history
  refine ⟨after.spareClear, after, after.serves few, ⟨flags', same, rfl, ?_⟩, ?_⟩
  · exact mirrors_packed flags' (lt_of_eq_of_lt after.sectorCount_eq few)
  · rintro before middle behind s rfl
    exact represents.released_between few history

/-- Nine bytes of ones mark 70 sectors and two bits to spare. The map is full, although its last
word is not. -/
theorem history_as_set_full :
    ∃ flags, FreeMap.ofBytes 70 (.replicate 9 0xFF) = .ok flags ∧
      ofBytes 70 (.replicate 9 0xFF) = .ok flags.packed ∧ flags.packed.SpareClear ∧
      flags.packed.claim = (none, flags.packed) ∧ flags.packed.freeCount? = some 0 := by
  have enough : Origin.Suits 70 (.stored (.replicate 9 0xFF)) := by
    rw [Origin.Suits]
    decide
  obtain ⟨flags, read, read', -, all⟩ := history_as_set (n := 70) (by decide) enough
  obtain ⟨spare, -, serves, -⟩ := all [] flags.packed .nil
  have full : Origin.set 70 (.stored (.replicate 9 0xFF)) = .range 70 := by decide
  have none := serves.claim_eq_none_iff.mpr full
  have count := serves.freeCount
  rw [List.foldl_nil, full] at count
  exact ⟨flags, read, read', spare, Prod.ext none (serves.unclaimed none), count⟩

/-! ## The stored form -/

/-- The bytes of a map have one bit for each sector, lowest first, and are read as the map again,
whatever follows them. -/
structure StoredWell (map : PackedMap) (n : Nat) : Prop where
  length_eq : map.toBytes.length = Size.units n 8
  marked_iff : ∀ s, s < n → (marked map.toBytes s = true ↔ map.isUsed s = .ok true)
  unmarked : ∀ i, n ≤ i → marked map.toBytes i = false
  ofBytes_eq : ∀ rest, ofBytes n (map.toBytes ++ rest) = .ok map

theorem Represents.storedWell (h : map.Represents n used) (small : n + 64 < Size.limit) :
    map.StoredWell n where
  length_eq := h.length_toBytes
  marked_iff s hs := by
    rw [isUsed_of_lt (h.sectorCount_eq.symm ▸ hs), h.bit_eq, h.marked_toBytes, Except.ok.injEq]
  unmarked i hi := by
    rw [h.marked_toBytes, ← h.bit_eq, h.spare_clear hi]
  ofBytes_eq := h.ofBytes_toBytes small

/-- Any map that a history leads to is kept by its bytes; any bytes that are enough are kept by the
map that is read from them, up to the last sector; and what they have besides makes no difference.
In words and in flags the bytes are the same. -/
theorem stored_both_ways (few : n < 0x100000000) :
    (∀ origin : Origin, origin.Suits n →
      ∃ start, ofOrigin n origin = .ok start ∧
        ∀ changes map, History Step start changes map →
          map.StoredWell n ∧
          ∃ flags : FreeMap, map = flags.packed ∧ flags.toBytes = map.toBytes ∧
            ∀ rest, FreeMap.ofBytes n (flags.toBytes ++ rest) = .ok flags) ∧
    (∀ bytes, Size.units n 8 ≤ bytes.length →
      ∃ flags : FreeMap, FreeMap.ofBytes n bytes = .ok flags ∧ ofBytes n bytes = .ok flags.packed ∧
        flags.packed.toBytes = trimmed n bytes ∧ flags.toBytes = trimmed n bytes) ∧
    ∀ bytes bytes', Size.units n 8 ≤ bytes.length → Size.units n 8 ≤ bytes'.length →
      (ofBytes n bytes = ofBytes n bytes' ↔ ∀ i, i < n → marked bytes i = marked bytes' i) := by
  have small : n + 64 < Size.limit := by
    unfold Size.limit
    omega
  refine ⟨fun origin suits => ?_, fun bytes enough => ?_, fun bytes bytes' enough enough' => ?_⟩
  · obtain ⟨flags, -, start, size, set⟩ := ofOrigin_eq small suits
    refine ⟨flags.packed, start, fun changes map history => ?_⟩
    have after := (flags.represents_packed.history (size ▸ few) history)
    rw [size] at after
    obtain ⟨flags', count, -, rfl⟩ := after.exists_flags
    refine ⟨after.storedWell small, flags', rfl, flags'.toBytes_packed.symm, fun rest => ?_⟩
    have back := flags'.ofBytes_toBytes rest (count ▸ small)
    rwa [count] at back
  · obtain ⟨flags, read, read', -, -⟩ := FreeMap.exists_ofBytes_packed enough small
    have trimmed := toBytes_ofBytes enough small read'
    exact ⟨flags, read, read', trimmed, flags.toBytes_packed ▸ trimmed⟩
  · exact ofBytes_eq_iff enough enough' small

/-- Of eleven bits the second byte holds three, and the rest of it is lost. -/
theorem stored_both_ways_eleven :
    ∃ flags : FreeMap, FreeMap.ofBytes 11 [0x81, 0xFD, 0x42] = .ok flags ∧
      ofBytes 11 [0x81, 0xFD, 0x42] = .ok flags.packed ∧ flags.packed.toBytes = [0x81, 0x05] ∧
      flags.toBytes = [0x81, 0x05] ∧
      ofBytes 11 [0x81, 0xFD, 0x42] = ofBytes 11 [0x81, 0x05] := by
  obtain ⟨-, stored, agree⟩ := stored_both_ways (n := 11) (by decide)
  obtain ⟨flags, read, read', bytes, bytes'⟩ := stored [0x81, 0xFD, 0x42] (by decide)
  have cut : trimmed 11 [0x81, 0xFD, 0x42] = [0x81, 0x05] := by decide
  exact ⟨flags, read, read', bytes.trans cut, bytes'.trans cut,
    (agree _ [0x81, 0x05] (by decide) (by decide)).mpr (by decide)⟩

end PackedMap

end SectorFS
