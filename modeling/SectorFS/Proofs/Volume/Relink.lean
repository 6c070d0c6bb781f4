import SectorFS.Proofs.Volume.LaidOut

/-!
# Changes of the catalog on disk

Entering a node writes its own sectors, the table of one directory and the free map; taking a node
out writes the table and the map. `Catalog.Relinks` says that a program wrote no more than that.
What all other nodes are and hold is kept, `Catalog.Kept` when nothing is taken out at all.
`Catalog.Along` says where programs write that work along a path, in terms of the catalog that they
start from.
-/

namespace SectorFS

namespace Catalog

variable {c c' c'' : Catalog} {n : Nat} {store : Store} {map map' : FreeMap} {ws vs : Writes}

/-- Every write is for the table of the directory at `p`, for the free map, or for a sector without
an owner. -/
def Relinks (c : Catalog) (p : Nat) (ws : Writes) : Prop :=
  ∀ w ∈ ws, ¬ c.Owns w.1 ∨
    ∃ s node, (s = p ∨ s = freeMapSector) ∧ c s = some node ∧ w.1 ∈ node.extent.data

/-- Every write is for the table of the directory at `p` or for the free map. -/
def Rewrites (c : Catalog) (p : Nat) (ws : Writes) : Prop :=
  ∀ w ∈ ws, ∃ s node, (s = p ∨ s = freeMapSector) ∧ c s = some node ∧ w.1 ∈ node.extent.data

theorem Rewrites.append {p : Nat} (h : c.Rewrites p ws) (h' : c.Rewrites p vs) :
    c.Rewrites p (ws ++ vs) := fun w hw =>
  (List.mem_append.mp hw).elim (h w) (h' w)

theorem Rewrites.of_table {p : Nat} {node : Node} (hp : c p = some node)
    (h : ∀ w ∈ ws, w.1 ∈ node.extent.data) : c.Rewrites p ws :=
  fun w hw => ⟨p, node, .inl rfl, hp, h w hw⟩

theorem Rewrites.of_map {p : Nat} {node : Node} (hm : c freeMapSector = some node)
    (h : ∀ w ∈ ws, w.1 ∈ node.extent.data) : c.Rewrites p ws :=
  fun w hw => ⟨freeMapSector, node, .inr rfl, hm, h w hw⟩

theorem Rewrites.relinks {p : Nat} (h : c.Rewrites p ws) : c.Relinks p ws :=
  fun w hw => .inr (h w hw)

theorem Relinks.append {p : Nat} (h : c.Relinks p ws) (h' : c.Relinks p vs) :
    c.Relinks p (ws ++ vs) := fun w hw =>
  (List.mem_append.mp hw).elim (h w) (h' w)

theorem Relinks.of_free {p : Nat} (h : ∀ w ∈ ws, ¬ c.Owns w.1) : c.Relinks p ws :=
  fun w hw => .inl (h w hw)

namespace LaidOut

variable (l : c.LaidOut n store map) {p s : Nat} {node : Node}
include l

/-- Headers and index blocks stay in place. -/
theorem stored_of_relinks (r : c.Relinks p ws) (h : c s = some node) :
    node.extent.StoredAt (store.after ws) s := by
  apply (l.stored s node h).extent.after
  intro w hw
  rcases r w hw with free | ⟨t, other, -, ht, hm⟩
  · constructor
    · intro same
      exact free (same ▸ owns_header h)
    · intro hi
      exact free ⟨s, node, h, Extent.mem_owned_of_mem_index hi⟩
  · exact l.away_of_mem_data ht h hm

/-- The data of all other nodes stays in place. -/
theorem bytes_of_relinks (r : c.Relinks p ws) (h : c s = some node) (hp : s ≠ p)
    (hmap : s ≠ freeMapSector) :
    (store.after ws).bytes node.extent.data = store.bytes node.extent.data := by
  apply Extent.bytes_after
  intro w hw own
  rcases r w hw with free | ⟨t, other, ht, hother, hm⟩
  · exact free ⟨s, node, h, own⟩
  · have ne : t ≠ s := by
      rcases ht with rfl | rfl
      · exact hp.symm
      · exact hmap.symm
    exact l.notMem_of_mem_data hother h ne hm own

theorem storedAt_of_relinks (r : c.Relinks p ws) (h : c s = some node) (hp : s ≠ p) :
    node.StoredAt (store.after ws) s where
  extent := l.stored_of_relinks r h
  table dir hdir := by
    have hmap : s ≠ freeMapSector := by
      apply l.valid.ne_map
      rw [table?, h]
      exact hdir
    rw [l.bytes_of_relinks r h hp hmap]
    exact (l.stored s node h).table dir hdir

end LaidOut

/-- The new node, the table with its entry and the new map are in place. -/
theorem Insertion.laidOut (ins : Insertion n c) (l : c.LaidOut n store map)
    (r : c.Relinks ins.parent ws) (new : ins.node.StoredAt (store.after ws) ins.entry.sector)
    (table : ∀ extent, c ins.parent = some ⟨extent, some ins.old⟩ →
      (store.after ws).bytes extent.data = ins.new.toBytes)
    (map_bytes : ∀ extent, c freeMapSector = some ⟨extent, none⟩ →
      ((store.after ws).bytes extent.data).take extent.size = map'.toBytes)
    (count : map'.sectorCount = n) (uses : ∀ i, map'.Uses i ↔ ins.result.Owns i) :
    ins.result.LaidOut n (store.after ws) map' where
  small := l.small
  valid := ins.valid l.valid
  stored s node h := by
    rcases ins.result_cases h with ⟨rfl, rfl⟩ | ⟨rfl, hc, ht⟩ | ⟨-, hp, hc⟩
    · exact new
    · constructor
      · have stored := l.stored_of_relinks r hc
        exact stored
      · intro dir hdir
        rw [ht, Option.some.injEq] at hdir
        rw [← hdir]
        exact table _ hc
    · exact l.storedAt_of_relinks r hc hp
  count := count
  uses := uses
  map_bytes extent h := by
    rcases ins.result_cases h with ⟨same, -⟩ | ⟨-, -, ht⟩ | ⟨-, -, hc⟩
    · exact absurd same.symm (ins.sector_ne_system l.valid).1
    · cases ht
    · exact map_bytes extent hc

/-- An insertion takes its header sector, its data sectors and its index blocks out of the free
sectors. -/
theorem Insertion.freeCount_result (ins : Insertion n c) {store' : Store}
    (l : c.LaidOut n store map) (l' : ins.result.LaidOut n store' map') :
    map'.freeCount + (1 + Extent.span ins.node.extent.size) = map.freeCount := by
  have length : (ins.node.extent.owned ins.entry.sector).length =
      1 + Extent.span ins.node.extent.size := by
    rw [Extent.owned, List.length_cons, ins.node.extent.length_sectors, Nat.add_comm]
    rfl
  rw [← length]
  apply FreeMap.freeCount_add_length_of_uses (l'.count.trans l.count.symm)
  · exact List.nodup_cons.mpr ⟨ins.apart, ins.node.extent.nodup⟩
  · intro s hs
    rw [l.uses]
    exact (ins.free s hs).2
  · intro s
    rw [l'.uses, l.uses]
    exact ins.owns_result

/-- The table without the entry and the new map are in place. -/
theorem Removal.laidOut (rem : Removal c) (l : c.LaidOut n store map)
    (r : c.Relinks rem.parent ws)
    (table : ∀ extent, c rem.parent = some ⟨extent, some rem.old⟩ →
      (store.after ws).bytes extent.data = rem.new.toBytes)
    (map_bytes : ∀ extent, c freeMapSector = some ⟨extent, none⟩ →
      ((store.after ws).bytes extent.data).take extent.size = map'.toBytes)
    (count : map'.sectorCount = n) (uses : ∀ i, map'.Uses i ↔ rem.result.Owns i) :
    rem.result.LaidOut n (store.after ws) map' where
  small := l.small
  valid := rem.valid l.valid
  stored s node h := by
    obtain ⟨-, ⟨rfl, hc, ht⟩ | ⟨hp, hc⟩⟩ := rem.result_cases h
    · constructor
      · have stored := l.stored_of_relinks r hc
        exact stored
      · intro dir hdir
        rw [ht, Option.some.injEq] at hdir
        rw [← hdir]
        exact table _ hc
    · exact l.storedAt_of_relinks r hc hp
  count := count
  uses := uses
  map_bytes extent h := by
    obtain ⟨-, ⟨-, -, ht⟩ | ⟨-, hc⟩⟩ := rem.result_cases h
    · cases ht
    · exact map_bytes extent hc

/-- Every node is still there, found where it was, and every file holds what it held. All that was
written belongs to nodes. -/
structure Kept (c : Catalog) (store : Store) (ws : Writes) (c' : Catalog) : Prop where
  node : ∀ s node, c s = some node → ∃ node', c' s = some node' ∧ node'.extent = node.extent ∧
    node'.table.isSome = node.table.isSome
  bytes : ∀ s extent, c s = some ⟨extent, none⟩ → s ≠ freeMapSector →
    (store.after ws).bytes extent.data = store.bytes extent.data
  owned : ∀ w ∈ ws, c'.Owns w.1
  ways : ∀ path s, c.find? path = some s → c'.find? path = some s

namespace Kept

theorem refl (c : Catalog) (store : Store) : c.Kept store [] c where
  node s node h := ⟨node, h, rfl, rfl⟩
  bytes s extent _ _ := rfl
  owned w hw := by cases hw
  ways _ _ h := h

theorem file (k : c.Kept store ws c') {s : Nat} {extent : Extent} (h : c s = some ⟨extent, none⟩) :
    c' s = some ⟨extent, none⟩ := by
  obtain ⟨⟨extent', table⟩, h', rfl, kind⟩ := k.node s _ h
  cases table with
  | none => exact h'
  | some dir => cases kind

theorem owns (k : c.Kept store ws c') {i : Nat} (h : c.Owns i) : c'.Owns i := by
  obtain ⟨s, node, hs, hi⟩ := h
  obtain ⟨node', hs', he, -⟩ := k.node s node hs
  exact ⟨s, node', hs', he ▸ hi⟩

theorem trans (k : c.Kept store ws c') (k' : c'.Kept (store.after ws) vs c'') :
    c.Kept store (ws ++ vs) c'' where
  node s node h := by
    obtain ⟨node', h', he, kind⟩ := k.node s node h
    obtain ⟨node'', h'', he', kind'⟩ := k'.node s node' h'
    exact ⟨node'', h'', he'.trans he, kind'.trans kind⟩
  bytes s extent h ne := by
    simp [Store.after_append, k'.bytes s extent (k.file h) ne, k.bytes s extent h ne]
  owned w hw := by
    rcases List.mem_append.mp hw with hw | hw
    · exact k'.owns (k.owned w hw)
    · exact k'.owned w hw
  ways path s h := k'.ways path s (k.ways path s h)

end Kept

theorem Insertion.kept (ins : Insertion n c) (l : c.LaidOut n store map)
    (r : c.Relinks ins.parent ws) (owned : ∀ w ∈ ws, ins.result.Owns w.1) :
    c.Kept store ws ins.result where
  node s node h := by
    by_cases hp : s = ins.parent
    · obtain ⟨extent, hparent⟩ := ins.exists_parent
      subst hp
      rw [hparent, Option.some.injEq] at h
      subst h
      exact ⟨_, ins.result_parent hparent, rfl, rfl⟩
    · exact ⟨node, (relink_of_ne (ins.ne_of_node h) hp).trans h, rfl, rfl⟩
  bytes s extent h ne := by
    apply l.bytes_of_relinks r h _ ne
    rintro rfl
    obtain ⟨extent', hparent⟩ := ins.exists_parent
    rw [h] at hparent
    cases hparent
  owned := owned
  ways _ _ h := ins.find?_result l.valid h

/-! ## Where is written -/

/-- The sector has no owner, or holds data of the free map or of a directory on the way down `path`.
-/
def Along (c : Catalog) (path : List String) (i : Nat) : Prop :=
  ¬ c.Owns i ∨ (∃ extent, c freeMapSector = some ⟨extent, none⟩ ∧ i ∈ extent.data) ∨
    ∃ way s extent dir, way <+: path ∧ c.find? way = some s ∧ c s = some ⟨extent, some dir⟩ ∧
      i ∈ extent.data

theorem Along.mono {path way : List String} {i : Nat} (h : c.Along way i) (le : way <+: path) :
    c.Along path i :=
  h.imp_right (·.imp_right fun ⟨way', s, extent, dir, le', there⟩ =>
    ⟨way', s, extent, dir, le'.trans le, there⟩)

theorem Relinks.along {p : Nat} {path : List String} {dir : Directory} (r : c.Relinks p ws)
    (v : c.Valid n) (h : c.find? path = some p) (table : c.table? p = some dir) :
    ∀ w ∈ ws, c.Along path w.1 := by
  intro w hw
  rcases r w hw with free | ⟨s, node, rfl | rfl, hnode, hm⟩
  · exact .inl free
  · obtain ⟨extent, hp⟩ := table?_eq_some_iff.mp table
    rw [hp, Option.some.injEq] at hnode
    subst hnode
    exact .inr (.inr ⟨path, s, extent, dir, List.prefix_rfl, h, hp, hm⟩)
  · obtain ⟨extent, hmap, -⟩ := v.map
    rw [hmap, Option.some.injEq] at hnode
    subst hnode
    exact .inr (.inl ⟨extent, hmap, hm⟩)

/-- What belongs to a node that is new had no owner. -/
theorem Kept.not_owns (k : c.Kept store ws c') (v' : c'.Valid n) {s i : Nat} {node : Node}
    (h : c' s = some node) (new : c s = none) (hi : i ∈ node.extent.owned s) : ¬ c.Owns i := by
  rintro ⟨t, other, ht, hi'⟩
  obtain ⟨other', ht', he, -⟩ := k.node t other ht
  obtain rfl := v'.disjoint s t _ _ i h ht' hi (he ▸ hi')
  rw [new] at ht
  cases ht

/-- A later program works along the path where the first one could have. -/
theorem Kept.along (k : c.Kept store ws c') (v : c.Valid n) (v' : c'.Valid n) {path : List String}
    {i : Nat} (h : c'.Along path i) : c.Along path i := by
  rcases h with free | ⟨extent', hmap', hi⟩ | ⟨way, s, extent', dir, le, hway, hs', hi⟩
  · exact .inl (mt k.owns free)
  · obtain ⟨extent, hmap, -⟩ := v.map
    obtain rfl := extent_unique hmap' (k.file hmap)
    exact .inr (.inl ⟨_, hmap, hi⟩)
  · cases hs : c s with
    | none =>
      exact .inl (k.not_owns v' hs' hs (Extent.mem_owned_of_mem_data hi))
    | some node =>
      obtain ⟨node', hnode', he, kind⟩ := k.node s node hs
      rw [hs', Option.some.injEq] at hnode'
      subst hnode'
      obtain ⟨extent, table⟩ := node
      obtain rfl : extent' = extent := he
      cases table with
      | none => cases kind
      | some dir' =>
        have reached := v.reached s _ hs
        obtain ⟨way', hway'⟩ := reached.resolve_left (v.ne_map (table?_eq_some_iff.mpr ⟨_, hs⟩))
        obtain rfl := v'.find?_inj hway (k.ways way' s hway')
        exact .inr (.inr ⟨way, s, extent', dir', le, hway', hs, hi⟩)

/-- No sector with an owner is written before the table of the directory at `p`. -/
def TableFirst (c : Catalog) (p : Nat) (ws : Writes) : Prop :=
  ∀ vs, vs <+: ws → (∀ node, c p = some node → ∀ w ∈ vs, w.1 ∉ node.extent.data) →
    ∀ w ∈ vs, ¬ c.Owns w.1

theorem TableFirst.nil (c : Catalog) (p : Nat) : c.TableFirst p [] := by
  intro vs le _ w hw
  rw [List.prefix_nil.mp le] at hw
  cases hw

theorem TableFirst.of_append {p : Nat} {node : Node} {w : Nat × Sector}
    (free : ∀ w ∈ ws, ¬ c.Owns w.1) (hp : c p = some node) (hw : w.1 ∈ node.extent.data) :
    c.TableFirst p (ws ++ w :: vs) := by
  rintro us ⟨rest, split⟩ spared
  rcases List.append_eq_append_iff.mp split with ⟨middle, rfl, -⟩ | ⟨middle, rfl, hmiddle⟩
  · exact fun v hv => free v (List.mem_append_left _ hv)
  · cases middle with
    | nil =>
      rw [List.append_nil]
      exact free
    | cons v middle =>
      obtain ⟨rfl, -⟩ := List.cons.inj hmiddle
      exact absurd hw (spared node hp w (by simp))

end Catalog

/-- A volume stays over a catalog that keeps the nodes of its files. -/
theorem Volume.Over.of_nodes {volume : Volume} {c c' : Catalog} {n : Nat} (known : volume.Over c n)
    (h : ∀ s node, c s = some node → (s = freeMapSector ∨ s = rootSector ∨
      ∃ id d, volume.under id = some d ∧ d.file.sector = s) →
      ∃ node', c' s = some node' ∧ node'.extent = node.extent ∧
        node'.table.isSome = node.table.isSome) : volume.Over c' n where
  count := known.count
  mapFile := by
    obtain ⟨extent, hmap, hfile⟩ := known.mapFile
    obtain ⟨⟨extent', table⟩, hmap', rfl, kind⟩ := h _ _ hmap (.inl rfl)
    cases table with
    | none => exact ⟨extent', hmap', hfile⟩
    | some dir => cases kind
  rootFile := by
    obtain ⟨extent, dir, hroot, hfile⟩ := known.rootFile
    obtain ⟨⟨extent', table⟩, hroot', rfl, kind⟩ := h _ _ hroot (.inr (.inl rfl))
    cases table with
    | none => cases kind
    | some dir' => exact ⟨extent', dir', hroot', hfile⟩
  descriptors id d hd := by
    obtain ⟨ne, position, node, hnode, header, kind⟩ := known.descriptors id d hd
    obtain ⟨node', hnode', he, kind'⟩ := h _ _ hnode (.inr (.inr ⟨id, d, hd, rfl⟩))
    exact ⟨ne, position, node', hnode', he ▸ header, kind'.trans kind⟩
  ids := known.ids

theorem Volume.Over.kept {volume : Volume} {c c' : Catalog} {n : Nat} {store : Store} {ws : Writes}
    (known : volume.Over c n) (k : c.Kept store ws c') : volume.Over c' n :=
  known.of_nodes fun s node h _ => k.node s node h

end SectorFS
