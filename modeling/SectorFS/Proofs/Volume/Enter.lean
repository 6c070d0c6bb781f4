import SectorFS.Proofs.Volume.Create
import SectorFS.Proofs.Volume.Files

/-!
# Making directories on the way

`Catalog.Grew` says that nothing but directories on one way down were made. That is all that
`enterAlong` does, whether it gets to the end of the way or is refused before (`tries_enterAlong`),
and all that `create` and `makeDirectory` do before they make their own node. A read that fails can
stop it only at a point where it is `Catalog.Stopped`: some directories are made, and what else was
written belongs to nothing yet.
-/

namespace SectorFS

/-- The path starts at the root. -/
def Path.Absolute (path : String) : Prop := path.toList.head? = some Path.separator

instance (path : String) : Decidable (Path.Absolute path) := by
  unfold Path.Absolute
  infer_instance

/-- The way to the directory in which a path names a node. -/
def Path.parent (path : String) : List String := components (splitLast path).1

/-- The name of the node. -/
def Path.leaf (path : String) : String := (splitLast path).2

/-- The way to what a path names. -/
def Path.target (path : String) : List String := parent path ++ [leaf path]

namespace Path

variable {path : String}

theorem requireAbsolute_of_absolute (h : Absolute path) : requireAbsolute path = .ok () := if_pos h

theorem requireAbsolute_of_not_absolute (h : ¬ Absolute path) :
    requireAbsolute path = .error (.fault (.relativePath path)) := if_neg h

theorem split_of_absolute (h : Absolute path) : split path = .ok (splitLast path) := by
  rw [split, requireAbsolute_of_absolute h]
  rfl

theorem split_of_not_absolute (h : ¬ Absolute path) :
    split path = .error (.fault (.relativePath path)) := by
  rw [split, requireAbsolute_of_not_absolute h]
  rfl

end Path

namespace Catalog

open Volume

variable {c : Catalog} {n s : Nat} {store : Store} {map : FreeMap} {volume : Volume}
variable {start : Directory} {path : List String} {T : Namespace}
variable {K : Nat → Prop} {Q : Writes → Prop}

/-- Nothing was made but directories along `path` that were missing. At first the paths led to
`T`. -/
structure Grew (c : Catalog) (n : Nat) (store : Store) (T : Namespace) (path : List String)
    (ws : Writes) (c' : Catalog) (map' : FreeMap) : Prop where
  laidOut : c'.LaidOut n (store.after ws) map'
  kept : c.Kept store ws c'
  grown : T.Grown path c'.toNamespace
  files : c'.files (store.after ws) = c.files store
  along : ∀ w ∈ ws, c.Along path w.1
  same_or_new : c' = c ∨ ∃ way, c.find? way = none ∧ c'.find? way ≠ none

theorem Grew.refl (l : c.LaidOut n store map) (grown : T.Grown path c.toNamespace) :
    c.Grew n store T path [] c map :=
  ⟨l, .refl c store, grown, rfl, nofun, .inl rfl⟩

theorem Grew.trans {c' c'' : Catalog} {path' : List String} {ws vs : Writes} {map' map'' : FreeMap}
    (g : c.Grew n store T path ws c' map') (v : c.Valid n) (le : path <+: path')
    (g' : c'.Grew n (store.after ws) T path' vs c'' map'') :
    c.Grew n store T path' (ws ++ vs) c'' map'' where
  laidOut := by
    rw [Store.after_append]
    exact g'.laidOut
  kept := g.kept.trans g'.kept
  grown := g'.grown
  files := by
    simp [Store.after_append, g'.files, g.files]
  along w hw := by
    rcases List.mem_append.mp hw with hw | hw
    · exact (g.along w hw).mono le
    · exact g.kept.along v g.laidOut.valid (g'.along w hw)
  same_or_new := by
    rcases g.same_or_new with rfl | ⟨way, lost, new⟩
    · exact g'.same_or_new
    · obtain ⟨s, there⟩ := Option.ne_none_iff_exists'.mp new
      refine .inr ⟨way, lost, ?_⟩
      rw [g'.kept.ways way s there]
      exact Option.some_ne_none s

/-- A directory that is made on the way. -/
theorem Insertion.Placed.grew {map' : FreeMap} {ws : Writes} {ins : Insertion n c}
    (p : ins.Placed store ws map') (l : c.LaidOut n store map)
    (h : c.find? path = some ins.parent) (ht : ins.node.table = some (.new directoryCapacity))
    (grown : T.Grown path c.toNamespace) :
    c.Grew n store T (path ++ [ins.entry.name]) ws ins.result map' where
  laidOut := p.laidOut
  kept := p.kept
  grown := by
    have item : ins.node.item = Namespace.emptyDirectory := by
      rw [Node.item, ht]
      exact congrArg Item.directory (Directory.labels_new _)
    rw [ins.namespace_result l.valid h, item]
    apply grown.made
    · exact toNamespace_eq_directory_iff.mpr ⟨_, _, h, ins.table, rfl⟩
    · exact Directory.none_mem_labels.mpr ⟨_, ins.slot_lt, ins.empty⟩
    · exact toNamespace_eq_none_of_find? (l.valid.find?_insertion_eq_none ins h)
  files := ins.files_result_of_table l.valid p.kept h ht
  along w hw := (p.relinks.along l.valid h ins.table w hw).mono (List.prefix_append path _)
  same_or_new := by
    refine .inr ⟨_, l.valid.find?_insertion_eq_none ins h, ?_⟩
    rw [ins.find?_result_new l.valid h]
    exact Option.some_ne_none _

/-- If the paths lead to what they led to before, nothing was made at all. -/
theorem Grew.eq_of_namespace_eq {c' : Catalog} {ws : Writes} {map' : FreeMap}
    (g : c.Grew n store T path ws c' map') (l : c.LaidOut n store map)
    (same : c'.toNamespace = c.toNamespace) : c' = c ∧ map' = map := by
  obtain rfl : c' = c := by
    rcases g.same_or_new with eq | ⟨way, lost, new⟩
    · exact eq
    · have gone := congrFun same way
      rw [toNamespace_eq_none_of_find? lost] at gone
      exact absurd (g.laidOut.valid.find?_eq_none_of_toNamespace gone) new
  have uses (s : Nat) : map'.Uses s ↔ map.Uses s := (g.laidOut.uses s).trans (l.uses s).symm
  exact ⟨rfl, FreeMap.ext_uses (g.laidOut.count.trans l.count.symm) uses⟩

/-- Directories on the way down `names` from `path` were made, and then nothing was written but
sectors without an owner. -/
def Stopped (c : Catalog) (n : Nat) (store : Store) (T : Namespace) (path names : List String)
    (ws : Writes) : Prop :=
  ∃ k vs us c' map', ws = vs ++ us ∧ c.Grew n store T (path ++ names.take k) vs c' map' ∧
    ∀ w ∈ us, ¬ c'.Owns w.1

theorem Grew.stopped {c' : Catalog} {names : List String} {k : Nat} {vs us : Writes}
    {map' : FreeMap} (g : c.Grew n store T (path ++ names.take k) vs c' map')
    (free : ∀ w ∈ us, ¬ c'.Owns w.1) : c.Stopped n store T path names (vs ++ us) :=
  ⟨k, vs, us, c', map', rfl, g, free⟩

/-- Stopped at the end of the way. -/
theorem Grew.stopped_at_end {c' : Catalog} {names : List String} {vs us : Writes} {map' : FreeMap}
    (g : c.Grew n store T names vs c' map') (free : ∀ w ∈ us, ¬ c'.Owns w.1) :
    c.Stopped n store T [] names (vs ++ us) := by
  have whole : c.Grew n store T ([] ++ names.take names.length) vs c' map' := by
    rw [List.take_length]
    exact g
  exact whole.stopped free

/-- Stopped before any directory was made. -/
theorem Stopped.here (l : c.LaidOut n store map) (grown : T.Grown path c.toNamespace)
    (names : List String) {us : Writes} (free : ∀ w ∈ us, ¬ c.Owns w.1) :
    c.Stopped n store T path names us := by
  have none : c.Grew n store T (path ++ names.take 0) [] c map := by
    rw [List.take_zero, List.append_nil]
    exact .refl l grown
  exact none.stopped free

theorem append_take_succ (path : List String) (name : String) (rest : List String) (k : Nat) :
    path ++ [name] ++ rest.take k = path ++ (name :: rest).take (k + 1) := by
  rw [List.append_assoc]
  rfl

/-- Stopped behind a directory that was made. -/
theorem Stopped.behind {c' : Catalog} {map' : FreeMap} {name : String} {rest : List String}
    {ws us : Writes} (v : c.Valid n) (g : c.Grew n store T (path ++ [name]) ws c' map')
    (h : c'.Stopped n (store.after ws) T (path ++ [name]) rest us) :
    c.Stopped n store T path (name :: rest) (ws ++ us) := by
  obtain ⟨k, vs, us, c'', map'', rfl, g', free⟩ := h
  have whole := g.trans v (List.prefix_append _ _) g'
  rw [append_take_succ] at whole
  rw [← List.append_assoc]
  exact whole.stopped free

/-- A missing directory that was reserved is made on the way. It takes a header sector, ten data
sectors and one index block. -/
theorem addDirectory_grew {name : String} {found : NewNode} (l : c.LaidOut n store map)
    (known : volume.Over c n) {extent : Extent} {file : File} (hs : c.find? path = some s)
    (hnode : c s = some ⟨extent, some start⟩) (hf : file.header = extent.header)
    (grown : T.Grown path c.toNamespace)
    (h : reserveNode map start name (directoryCapacity * slotSize) true = .ok found)
    (r : Reserved map start name (directoryCapacity * slotSize) true found)
    (free : ∀ us : Writes, (∀ w ∈ us, ¬ c.Owns w.1) → Q us) :
    ∃ ws c' map' t, Tries n store K (volume.addDirectory file start name) (.ok t) ws Q ∧
      c.Grew n store T (path ++ [name]) ws c' map' ∧ c'.find? (path ++ [name]) = some t ∧
      c'.table? t = some (.new directoryCapacity) ∧
      c'.toNamespace = c.toNamespace.add path name Namespace.emptyDirectory ∧
      map'.freeCount + 12 = map.freeCount := by
  obtain ⟨ins, ws, add, res, placed⟩ := tries_addDirectory l known hnode hf h r free
  have hparent : c.find? path = some ins.parent := by
    simp [res.parent, hs]
  have entryName : ins.entry.name = name := by
    rw [res.entry]
  have grew := placed.grew l hparent res.table grown
  have way := ins.find?_result_new l.valid hparent
  have names := ins.namespace_result l.valid hparent
  have counted := ins.freeCount_result l placed.laidOut
  rw [entryName] at grew way names
  rw [res.size] at counted
  refine ⟨ws, ins.result, found.map, ins.entry.sector, add, grew, way, ?_, ?_, counted⟩
  · rw [table?, ins.result_self]
    exact res.table
  · rw [names, Node.item, res.table]
    exact congrArg (fun slots => c.toNamespace.add path name (.directory slots))
      (Directory.labels_new _)

/-- A file on the way stops entering. -/
theorem runs_enterAlong_of_file {name : String} (rest : List String) (l : c.LaidOut n store map)
    (known : volume.Over c n) (hs : c.find? path = some s) (hstart : c.table? s = some start)
    {t : Nat} (ht : c.find? (path ++ [name]) = some t) (plain : c.table? t = none) :
    Runs n store (volume.enterAlong s (name :: rest)) (.error (.error .notADirectory)) [] := by
  obtain ⟨extent, file, -, -, load⟩ := l.runs_loadDirectory known hstart
  rcases l.valid.step_cases name hs hstart with ⟨entry, below, -, -, way, table⟩ |
    ⟨entry, hlookup, hdir, -, -⟩ | ⟨-, lost⟩
  · rw [ht, Option.some.injEq] at way
    rw [way, table] at plain
    cases plain
  · unfold enterAlong
    refine .andThen load ?_
    simp only [hlookup, hdir, Bool.false_eq_true, if_false]
    exact .refuse _
  · rw [ht] at lost
    cases lost

/-- One name on the way: its directory is found or made, and the rest of the way starts there, or
the way ends here. -/
theorem enterAlong_step (name : String) (l : c.LaidOut n store map) (known : volume.Over c n)
    (hs : c.find? path = some s) (hstart : c.table? s = some start)
    (grown : T.Grown path c.toNamespace) (free : ∀ us : Writes, (∀ w ∈ us, ¬ c.Owns w.1) → Q us) :
    (∃ ws c' map' t dir, c.Grew n store T (path ++ [name]) ws c' map' ∧
      c'.find? (path ++ [name]) = some t ∧ c'.table? t = some dir ∧
      (start = .new directoryCapacity → dir = .new directoryCapacity) ∧
      (dir = .new directoryCapacity ∧ c.find? (path ++ [name]) = none ∨ ws = [] ∧ c' = c) ∧
      ∀ rest result vs, Tries n (store.after ws) K (volume.enterAlong t rest) result vs
          (fun us => Q (ws ++ us)) →
        Tries n store K (volume.enterAlong s (name :: rest)) result (ws ++ vs) Q) ∨
    ∃ cause, ∀ rest,
      Runs n store (volume.enterAlong s (name :: rest)) (.error (.error cause)) [] := by
  obtain ⟨extent, file, hnode, hf, load⟩ := l.runs_loadDirectory known hstart
  have start_at : Q [] := free [] nofun
  rcases l.valid.step_cases name hs hstart with ⟨entry, below, hlookup, hdir, way, table⟩ |
    ⟨entry, -, -, way, plain⟩ | ⟨hlookup, lost⟩
  · have there := grown.there (toNamespace_eq_directory_iff.mpr ⟨_, _, way, table, rfl⟩)
    refine .inl ⟨[], c, map, entry.sector, below, .refl l there, way, table, ?_,
      .inr ⟨rfl, rfl⟩, fun rest result vs run => ?_⟩
    · rintro rfl
      rw [Directory.lookup?_new] at hlookup
      cases hlookup
    · unfold enterAlong
      refine .andThen (.quiet load start_at) ?_
      simp only [hlookup, hdir, if_true]
      exact run
  · exact .inr ⟨_, fun rest => runs_enterAlong_of_file rest l known hs hstart way plain⟩
  · rcases reserveNode_cases map start name (directoryCapacity * slotSize) true with
      ⟨found, hfound, r⟩ | ⟨cause, hcause⟩ | ⟨-, large⟩
    · obtain ⟨ws, c', map', t, add, grew, way, table, -⟩ :=
        addDirectory_grew l known hs hnode hf grown hfound r free
      refine .inl ⟨ws, c', map', t, .new directoryCapacity, grew, way, table, fun _ => rfl,
        .inl ⟨rfl, lost⟩, fun rest result vs run => ?_⟩
      unfold enterAlong
      refine .andThen (.quiet load start_at) ?_
      simp only [hlookup]
      exact .step add run
    · refine .inr ⟨cause, fun rest => ?_⟩
      unfold enterAlong
      refine .andThen load ?_
      simp only [hlookup]
      exact .stop (runs_addDirectory_of_error l known hcause)
    · exact absurd large (by decide)

/-- Entering gets to the end of the way, in a directory that is new unless nothing was made, or is
refused on the way. When the way leads somewhere already, nothing is written. -/
theorem tries_enterAlong (names : List String) (l : c.LaidOut n store map) (known : volume.Over c n)
    (hs : c.find? path = some s) (hstart : c.table? s = some start)
    (grown : T.Grown path c.toNamespace) :
    ∃ ws c' map',
      (∃ t dir, Tries n store K (volume.enterAlong s names) (.ok t) ws
          (c.Stopped n store T path names) ∧
        c.Grew n store T (path ++ names) ws c' map' ∧
        c'.find? (path ++ names) = some t ∧ c'.table? t = some dir ∧
        (start = .new directoryCapacity → dir = .new directoryCapacity) ∧
        (dir = .new directoryCapacity ∧ c.find? (path ++ names) = none ∨ ws = [] ∧ c' = c)) ∨
      ∃ cause k, Tries n store K (volume.enterAlong s names) (.error (.error cause)) ws
          (c.Stopped n store T path names) ∧
        c.Grew n store T (path ++ names.take k) ws c' map' ∧
        (c.find? (path ++ names) = none ∨ ws = []) := by
  induction names generalizing c store map path s start with
  | nil =>
    rw [List.append_nil]
    exact ⟨[], c, map, .inl ⟨s, start, .done s, .refl l grown, hs, hstart, id, .inr ⟨rfl, rfl⟩⟩⟩
  | cons name rest ih =>
    have lost_behind (lost : c.find? (path ++ [name]) = none) :
        c.find? (path ++ name :: rest) = none := by
      rw [← List.singleton_append, ← List.append_assoc]
      exact find?_append_eq_none rest lost
    have free : ∀ us : Writes, (∀ w ∈ us, ¬ c.Owns w.1) →
        c.Stopped n store T path (name :: rest) us := fun us => .here l grown _
    rcases enterAlong_step name l known hs hstart grown free with
      ⟨ws, c', map', t, dir, grew, way, table, fresh, quiet, on⟩ | ⟨cause, run⟩
    · have behind : ∀ us, c'.Stopped n (store.after ws) T (path ++ [name]) rest us →
          c.Stopped n store T path (name :: rest) (ws ++ us) := fun us => .behind l.valid grew
      rcases ih grew.laidOut (known.kept grew.kept) way table grew.grown with
        ⟨vs, c'', map'',
          ⟨t', dir', run, grew', way', table', fresh', quiet'⟩ | ⟨cause, k, run, grew', quiet'⟩⟩
      · rw [List.append_assoc] at grew' way' quiet'
        have whole := grew.trans l.valid ⟨rest, by simp⟩ grew'
        refine ⟨ws ++ vs, c'', map'', .inl ⟨t', dir', on _ _ _ (run.mono behind), whole, way',
          table', fun new => fresh' (fresh new), ?_⟩⟩
        rcases quiet with ⟨new, lost⟩ | ⟨rfl, rfl⟩
        · exact .inl ⟨fresh' new, lost_behind lost⟩
        · exact quiet'
      · have whole := grew.trans l.valid (List.prefix_append _ _) grew'
        rw [append_take_succ] at whole
        refine ⟨ws ++ vs, c'', map'', .inr ⟨cause, k + 1, on _ _ _ (run.mono behind), whole, ?_⟩⟩
        rw [List.append_assoc] at quiet'
        rcases quiet with ⟨-, lost⟩ | ⟨rfl, rfl⟩
        · exact .inl (lost_behind lost)
        · exact quiet'
    · refine ⟨[], c, map, .inr ⟨cause, 0, .quiet (run rest) (free [] nofun), ?_, .inr rfl⟩⟩
      rw [List.take_zero, List.append_nil]
      exact .refl l grown

/-- As far as the way leads to directories already, entering follows it and writes nothing. -/
theorem runs_enterAlong_append (names : List String) (l : c.LaidOut n store map)
    (known : volume.Over c n) (hs : c.find? path = some s) (hstart : c.table? s = some start)
    {t : Nat} {dir : Directory} (ht : c.find? (path ++ names) = some t)
    (hdir : c.table? t = some dir) {left : List String} {result : Except Failure Nat} {ws : Writes}
    (run : Runs n store (volume.enterAlong t left) result ws) :
    Runs n store (volume.enterAlong s (names ++ left)) result ws := by
  induction names generalizing path s start with
  | nil =>
    rw [List.append_nil, hs, Option.some.injEq] at ht
    rw [ht]
    exact run
  | cons name rest ih =>
    rw [← List.singleton_append, ← List.append_assoc] at ht
    obtain ⟨extent, file, -, -, load⟩ := l.runs_loadDirectory known hstart
    rcases l.valid.step_cases name hs hstart with ⟨entry, below, hlookup, hdir, way, table⟩ |
      ⟨entry, -, -, way, plain⟩ | ⟨-, lost⟩
    · unfold enterAlong
      refine .andThen load ?_
      simp only [hlookup, hdir, if_true]
      exact ih way table ht
    · rw [table?_eq_none_of_file way plain ht] at hdir
      cases hdir
    · rw [find?_append_eq_none rest lost] at ht
      cases ht

/-- When the way leads to a directory already, entering finds it and writes nothing. -/
theorem runs_enterAlong_of_find? (names : List String) (l : c.LaidOut n store map)
    (known : volume.Over c n) (hs : c.find? path = some s) (hstart : c.table? s = some start)
    {t : Nat} {dir : Directory} (ht : c.find? (path ++ names) = some t)
    (hdir : c.table? t = some dir) :
    Runs n store (volume.enterAlong s names) (.ok t) [] := by
  have stay : Runs n store (volume.enterAlong t []) (.ok t) [] := .done t
  have run := runs_enterAlong_append names l known hs hstart ht hdir stay
  rwa [List.append_nil] at run

end Catalog

end SectorFS
