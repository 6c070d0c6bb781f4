import SectorFS.Proofs.Volume.Cut

/-!
# Calls on a disk with unreadable sectors

When reads of some sectors fail and nothing else does, a request that makes or removes nodes either
does just what it would have done, or it is refused at a point where the disk has merely `Advanced`:
directories on the way to its node may have been made, each of them as a whole.
-/

namespace SectorFS

namespace Catalog

variable {c c' : Catalog} {n i : Nat} {store : Store} {map map' : FreeMap} {ws : Writes}
variable {path : List String}

/-- The sectors that got an owner are those of the directories that were made. -/
theorem Grew.owns_iff (g : c.Grew n store c.toNamespace path ws c' map') (v : c.Valid n) :
    c'.Owns i ↔ c.Owns i ∨ ∃ way s node, way <+: path ∧ c.find? way = none ∧
      c'.find? way = some s ∧ c' s = some node ∧ i ∈ node.extent.owned s := by
  constructor
  · rintro ⟨s, node, hs, hi⟩
    have old {before : Node} (h : c s = some before) : c.Owns i := by
      obtain ⟨node', hs', he, -⟩ := g.kept.node s before h
      rw [hs, Option.some.injEq] at hs'
      subst hs'
      exact ⟨s, before, h, he ▸ hi⟩
    rcases g.laidOut.valid.reached s node hs with rfl | ⟨way, hway⟩
    · obtain ⟨extent, hmap, -⟩ := v.map
      exact .inl (old hmap)
    · cases before : c.find? way with
      | some t =>
        obtain rfl : t = s := by
          rw [g.kept.ways way t before, Option.some.injEq] at hway
          exact hway
        obtain ⟨-, node', hnode'⟩ := v.exists_node_of_find? before
        exact .inl (old hnode')
      | none =>
        have le := g.grown.prefix_of_new (toNamespace_eq_none_of_find? before)
          (toNamespace_of_find? hway hs)
        exact .inr ⟨way, s, node, le, before, hway, hs, hi⟩
  · rintro (h | ⟨way, s, node, -, -, -, hs, hi⟩)
    · exact g.kept.owns h
    · exact ⟨s, node, hs, hi⟩

end Catalog

/-- From `disk` to `disk'` nothing happened but that directories on the way down `path` were made.
The map has their sectors, whatever was found before is found where it was, and all that holds
between two actions holds again. -/
structure Disk.Advanced (disk disk' : Disk) (n : Nat) (path : List String) : Prop where
  grown : disk.toNamespace.Grown path disk'.toNamespace
  files : disk'.files = disk.files
  ways : ∀ way e, disk.find? way = some e → ∃ e', disk'.find? way = some e' ∧
    e'.sector = e.sector ∧ e'.isDirectory = e.isDirectory ∧
    disk'.header? e.sector = disk.header? e.sector
  map : ∃ map map', disk.freeMap? = some map ∧ disk'.freeMap? = some map' ∧
    ∀ i, map'.isUsed i = .ok true ↔ map.isUsed i = .ok true ∨
      ∃ way e header, way <+: path ∧ disk.find? way = none ∧ disk'.find? way = some e ∧
        disk'.header? e.sector = some header ∧ i ∈ header.owned e.sector
  consistent : disk'.Consistent n

namespace Catalog.LaidOut

variable {c : Catalog} {n : Nat} {disk : Disk} {map : FreeMap} {path : List String}
variable (l : c.LaidOut n disk.store map) (sound : disk.Sound n)
include l sound

/-- Writes that make directories, and more in sectors without an owner, advance the disk. -/
theorem advanced {disk' : Disk} {vs us : Writes} {c' : Catalog} {map' : FreeMap}
    (grew : c.Grew n disk.store c.toNamespace path vs c' map') (free : ∀ w ∈ us, ¬ c'.Owns w.1)
    (after : disk'.store = disk.store.after (vs ++ us)) (sound' : disk'.Sound n) :
    disk.Advanced disk' n path := by
  have l' : c'.LaidOut n disk'.store map' := by
    rw [after, Store.after_append]
    exact grew.laidOut.write_free free
  have same : c'.files disk'.store = c'.files (disk.store.after vs) := by
    rw [after, Store.after_append]
    apply funext
    intro way
    apply files_congr l'.valid
    · intro s node hs hnode
      refine ⟨hs, node, hnode, rfl, rfl, fun _ => Store.bytes_after fun w hw hm => ?_⟩
      exact free w hw (owns_data hnode hm)
    · exact id
  refine ⟨?_, ?_, ?_, ⟨map, map', l.freeMap?_eq sound, l'.freeMap?_eq sound', fun i => ?_⟩,
    l'.consistent sound'⟩
  · rw [l.toNamespace_eq sound, l'.toNamespace_eq sound']
    exact grew.grown
  · rw [l.files_eq sound, l'.files_eq sound', same, grew.files]
  · intro way e found
    rcases l.find?_cases sound way with ⟨e₀, node, found₀, hway, hnode, kind⟩ | ⟨lost, -⟩
    · rw [found, Option.some.injEq] at found₀
      subst found₀
      obtain ⟨node', hnode', he, kind'⟩ := grew.kept.node _ _ hnode
      obtain ⟨e', found', sector, directory, header⟩ :=
        l'.exists_entry sound' (grew.kept.ways _ _ hway) hnode'
      refine ⟨e', found', sector, directory.symm.trans (kind'.trans kind), ?_⟩
      rw [header, l.header?_eq sound hnode, he]
    · rw [found] at lost
      cases lost
  · rw [FreeMap.isUsed_eq_ok_true_iff, FreeMap.isUsed_eq_ok_true_iff, l.uses, l'.uses,
      grew.owns_iff l.valid]
    apply or_congr_right
    constructor
    · rintro ⟨way, s, node, le, absent, hway, hnode, hi⟩
      obtain ⟨e, found, rfl, -, header⟩ := l'.exists_entry sound' hway hnode
      exact ⟨way, e, _, le, (l.find?_eq_none_iff sound).mpr absent, found, header,
        (node.extent.owned_header _).mem_iff.mpr hi⟩
    · rintro ⟨way, e, header, le, absent, found, hheader, hi⟩
      rcases l'.find?_cases sound' way with ⟨e', node, found', hway, hnode, -⟩ | ⟨lost, -⟩
      · rw [found, Option.some.injEq] at found'
        subst found'
        rw [l'.header?_eq sound' hnode, Option.some.injEq] at hheader
        subst hheader
        exact ⟨way, _, node, le, (l.find?_eq_none_iff sound).mp absent, hway, hnode,
          (node.extent.owned_header _).mem_iff.mp hi⟩
      · rw [found] at lost
        cases lost

end Catalog.LaidOut

variable {n : Nat} {past : List Action} {volume : Volume} {disk : Disk}

/-- Unreadable sectors either make no difference to a request that makes or removes nodes, or they
have it refused after it made some directories on its way. -/
theorem Run.read_faults_advance {request : Request} {path : String} (large : 15 ≤ n)
    (small : n ≤ diskLimit) (run : Run n past volume disk) (h : request.changes? = some path)
    (bad : Nat → Bool) :
    ∃ result disk₀ result' disk', volume.perform request disk = ending result disk₀ ∧
      volume.perform request (disk.withFaults (.reads bad)) = ending result' disk' ∧
      (result' = result ∧ disk'.image = disk₀.image ∧ disk'.writes = disk₀.writes ∨
        result' = .error (.error (.io .injected)) ∧ volume.next result' = volume ∧
        ∃ k, disk.Advanced (disk'.withFaults .none) n ((Path.parent path).take k)) := by
  obtain ⟨c, map, ⟨sound, l, known⟩, -⟩ := run.mounted large small
  obtain ⟨result, ws, tries, -⟩ := Catalog.tries_perform l known h
  obtain ⟨disk₀, ends, wrote⟩ := tries.runs.ends sound
  have covers := sound.covers.withFaults (.reads bad)
  have faulty : Tries n (disk.withFaults (.reads bad)).store (fun _ => False) _ result ws _ := tries
  refine ⟨result, disk₀, ?_⟩
  rcases faulty.ends covers rfl with ⟨disk', ends', wrote'⟩ | ⟨disk', vs, ends', wrote', stopped⟩
  · refine ⟨result, disk', ends, ends', .inl ⟨rfl, ?_, ?_⟩⟩
    · rw [wrote'.image_eq, wrote.image_eq]
      rfl
    · rw [wrote'.writes_eq, wrote.writes_eq]
      rfl
  · obtain ⟨k, us, rest, c', map', rfl, grew, free⟩ := stopped
    have healed := (wrote'.covers covers).sound_withFaults
    exact ⟨_, disk', ends, ends', .inr ⟨rfl, rfl, k,
      l.advanced sound grew free (wrote'.store_eq covers) healed⟩⟩

theorem read_faults_advance_create : ∃ volume disk, Run 40 sample volume disk ∧
    ∃ result disk₀ result' disk',
      volume.perform (.create "/a/c" 10) disk = ending result disk₀ ∧
      volume.perform (.create "/a/c" 10) (disk.withFaults (.reads (· == 3))) =
        ending result' disk' ∧
      (result' = result ∧ disk'.image = disk₀.image ∧ disk'.writes = disk₀.writes ∨
        result' = .error (.error (.io .injected)) ∧ volume.next result' = volume ∧
        ∃ k, disk.Advanced (disk'.withFaults .none) 40 ((Path.parent "/a/c").take k)) := by
  obtain ⟨volume, disk, run⟩ := exists_run_sample
  have takes : (Request.create "/a/c" 10).changes? = some "/a/c" := rfl
  exact ⟨volume, disk, run, run.read_faults_advance (by decide) (by decide) takes (· == 3)⟩

end SectorFS
