import SectorFS.Directory.Tree
import SectorFS.Proofs.Volume.Namespace

/-!
# What is listed below a directory

`Namespace.Below` puts the nodes below a directory in the order of a listing: slot by slot, and
behind each directory what is below it. In a tree there is one such order
(`Tree.exists_below`, `Below.unique`), and it has every node below the directory once
(`Tree.lists`). `Namespace.listing` is the text that has a line for each of them.
-/

namespace SectorFS.Namespace

/-- `ways` are the nodes below the directory at `path` that its names in `names` lead to. -/
inductive Below (T : Namespace) :
    (path names : List String) → (ways : List (List String)) → Prop where
  | done {path} : Below T path [] []
  | file {path name names size ways} : T (path ++ [name]) = some (.file size) →
      Below T path names ways → Below T path (name :: names) ((path ++ [name]) :: ways)
  | directory {path name names slots inside ways} :
      T (path ++ [name]) = some (.directory slots) →
      Below T (path ++ [name]) (slots.filterMap id) inside → Below T path names ways →
      Below T path (name :: names) ((path ++ [name]) :: (inside ++ ways))

variable {T : Namespace} {n : Nat} {path names : List String} {ways : List (List String)}

theorem Below.unique {ways' : List (List String)} (h : T.Below path names ways)
    (h' : T.Below path names ways') : ways = ways' := by
  induction h generalizing ways' with
  | done =>
    cases h'
    rfl
  | file there _ ih =>
    cases h' with
    | file _ rest => rw [ih rest]
    | directory there' =>
      rw [there] at there'
      cases there'
  | directory there _ _ ih_inside ih =>
    cases h' with
    | file there' =>
      rw [there] at there'
      cases there'
    | directory there' inside rest =>
      rw [there] at there'
      cases there'
      rw [ih_inside inside, ih rest]

/-- A directory of a tree has an order of what is below it, because the way down is short. -/
theorem Tree.exists_below (tree : T.Tree n) {slots : List (Option String)}
    (h : T path = some (.directory slots)) : ∃ ways, T.Below path (slots.filterMap id) ways := by
  obtain ⟨levels, enough⟩ : ∃ levels, n ≤ path.length + levels := ⟨n, by omega⟩
  induction levels generalizing path slots with
  | zero =>
    have := tree.short path _ h
    omega
  | succ levels ih =>
    have all : ∀ names : List String, (∀ name ∈ names, some name ∈ slots) →
        ∃ ways, T.Below path names ways := by
      intro names known
      induction names with
      | nil => exact ⟨[], .done⟩
      | cons name names ih_names =>
        obtain ⟨first, others⟩ := List.forall_mem_cons.mp known
        obtain ⟨ways, rest⟩ := ih_names others
        obtain ⟨item, there⟩ := (tree.child path name).mpr ⟨slots, h, first⟩
        cases item with
        | file size => exact ⟨_, .file there rest⟩
        | directory below =>
          obtain ⟨inside, order⟩ := ih there (by simp; omega)
          exact ⟨_, .directory there order rest⟩
    apply all
    simp

/-- What is below a directory is behind one of its names. -/
theorem Below.exists_name {way : List String} (h : T.Below path names ways) (mem : way ∈ ways) :
    ∃ name ∈ names, ∃ rest, way = path ++ name :: rest ∧ ∃ item, T way = some item := by
  induction h with
  | done => cases mem
  | @file path name names size ways there _ ih =>
    cases mem with
    | head => exact ⟨name, List.mem_cons_self, [], rfl, _, there⟩
    | tail _ mem =>
      obtain ⟨other, hm, found⟩ := ih mem
      exact ⟨other, List.mem_cons_of_mem _ hm, found⟩
  | @directory path name names slots inside ways there _ _ ih_inside ih =>
    cases mem with
    | head => exact ⟨name, List.mem_cons_self, [], rfl, _, there⟩
    | tail _ mem =>
      rcases List.mem_append.mp mem with mem | mem
      · obtain ⟨other, -, rest, rfl, found⟩ := ih_inside mem
        exact ⟨name, List.mem_cons_self, other :: rest, by simp, found⟩
      · obtain ⟨other, hm, found⟩ := ih mem
        exact ⟨other, List.mem_cons_of_mem _ hm, found⟩

/-- A way that goes on from a directory goes on with one of its names. -/
theorem Tree.mem_slots (tree : T.Tree n) {slots : List (Option String)} {name : String}
    {rest : List String} {item : Item} (h : T path = some (.directory slots))
    (there : T (path ++ name :: rest) = some item) : some name ∈ slots := by
  have next : ∃ item, T (path ++ [name]) = some item := by
    cases rest with
    | nil => exact ⟨item, there⟩
    | cons other rest =>
      have split : path ++ name :: other :: rest = path ++ [name] ++ other :: rest := by simp
      rw [split] at there
      obtain ⟨below, directory⟩ := tree.exists_directory there
      exact ⟨_, directory⟩
  obtain ⟨slots', h', mem⟩ := (tree.child path name).mp next
  rw [h] at h'
  cases h'
  exact mem

/-- Every node behind the names is there. -/
theorem Below.mem (tree : T.Tree n) (h : T.Below path names ways) {name : String}
    {rest : List String} {item : Item} (known : name ∈ names)
    (there : T (path ++ name :: rest) = some item) : path ++ name :: rest ∈ ways := by
  induction h generalizing name rest with
  | done => cases known
  | @file path other names size ways there' _ ih =>
    cases known with
    | tail _ known => exact List.mem_cons_of_mem _ (ih known there)
    | head =>
      cases rest with
      | nil => exact List.mem_cons_self
      | cons next rest =>
        have split : path ++ other :: next :: rest = path ++ [other] ++ next :: rest := by simp
        rw [split] at there
        obtain ⟨slots, directory⟩ := tree.exists_directory there
        rw [there'] at directory
        cases directory
  | @directory path other names slots inside ways there' _ _ ih_inside ih =>
    cases known with
    | tail _ known =>
      exact List.mem_cons_of_mem _ (List.mem_append_right _ (ih known there))
    | head =>
      cases rest with
      | nil => exact List.mem_cons_self
      | cons next rest =>
        have split : path ++ other :: next :: rest = path ++ [other] ++ next :: rest := by simp
        rw [split] at there ⊢
        have listed := ih_inside (by simpa using tree.mem_slots there' there) there
        exact List.mem_cons_of_mem _ (List.mem_append_left _ listed)

theorem Tree.nodup_names (tree : T.Tree n) {slots : List (Option String)}
    (h : T path = some (.directory slots)) : (slots.filterMap id).Nodup := by
  rw [List.Nodup, List.pairwise_filterMap, List.pairwise_iff_getElem]
  intro i j hi hj lt name at_i name' at_j same
  subst same
  have once := tree.distinct path slots i j name h (List.getElem?_eq_some_iff.mpr ⟨hi, at_i⟩)
    (List.getElem?_eq_some_iff.mpr ⟨hj, at_j⟩)
  exact Nat.ne_of_lt lt once

/-- No node is listed twice. -/
theorem Below.nodup (tree : T.Tree n) (h : T.Below path names ways) (distinct : names.Nodup) :
    ways.Nodup := by
  induction h with
  | done => exact List.nodup_nil
  | @file path name names size ways there rest ih =>
    obtain ⟨new, distinct⟩ := List.nodup_cons.mp distinct
    refine List.nodup_cons.mpr ⟨fun mem => ?_, ih distinct⟩
    obtain ⟨other, known, behind, same, -⟩ := rest.exists_name mem
    simp only [List.append_cancel_left_eq, List.cons.injEq] at same
    exact new (same.1 ▸ known)
  | @directory path name names slots inside ways there order rest ih_inside ih =>
    obtain ⟨new, distinct⟩ := List.nodup_cons.mp distinct
    have apart : ∀ behind, path ++ name :: behind ∉ ways := by
      intro behind mem
      obtain ⟨other, known, behind', same, -⟩ := rest.exists_name mem
      simp only [List.append_cancel_left_eq, List.cons.injEq] at same
      exact new (same.1 ▸ known)
    have longer : path ++ [name] ∉ inside := by
      intro mem
      obtain ⟨other, -, behind, same, -⟩ := order.exists_name mem
      simp at same
    refine List.nodup_cons.mpr ⟨?_, List.nodup_append.mpr ⟨ih_inside (tree.nodup_names there),
      ih distinct, ?_⟩⟩
    · simpa using ⟨longer, apart []⟩
    · rintro way mem other mem' rfl
      obtain ⟨next, -, behind, rfl, -⟩ := order.exists_name mem
      exact apart (next :: behind) (by simpa using mem')

/-- The nodes in the directory itself are listed in the order of their names. -/
theorem Below.filter_length (h : T.Below path names ways) :
    ways.filter (·.length = path.length + 1) = names.map (path ++ [·]) := by
  induction h with
  | done => rfl
  | file _ _ ih => simp [ih]
  | @directory path name names slots inside ways _ order _ _ ih =>
    have deeper : inside.filter (·.length = path.length + 1) = [] := by
      rw [List.filter_eq_nil_iff]
      intro way mem
      obtain ⟨next, -, behind, rfl, -⟩ := order.exists_name mem
      simp
    simp [deeper, ih]

/-- `ways` are the nodes below the directory at `path`, which has these slots, in the order of a
listing. -/
structure Lists (T : Namespace) (path : List String) (slots : List (Option String))
    (ways : List (List String)) : Prop where
  order : T.Below path (slots.filterMap id) ways
  nodup : ways.Nodup
  mem_iff : ∀ way, way ∈ ways ↔ ∃ name rest, way = path ++ name :: rest ∧ (T way).isSome
  top : ways.filter (·.length = path.length + 1) = (slots.filterMap id).map (path ++ [·])

theorem Tree.lists (tree : T.Tree n) {slots : List (Option String)}
    (h : T path = some (.directory slots)) (order : T.Below path (slots.filterMap id) ways) :
    T.Lists path slots ways where
  order := order
  nodup := order.nodup tree (tree.nodup_names h)
  mem_iff way := by
    constructor
    · intro mem
      obtain ⟨name, -, rest, rfl, found⟩ := order.exists_name mem
      exact ⟨name, rest, rfl, Option.isSome_iff_exists.mpr found⟩
    · rintro ⟨name, rest, rfl, found⟩
      obtain ⟨item, there⟩ := Option.isSome_iff_exists.mp found
      exact order.mem tree (by simpa using tree.mem_slots h there) there
  top := order.filter_length

/-! ## The text -/

/-- How far in the node at `way` stands in a listing of what is below `path`. -/
def indent (path way : List String) : Nat := 4 * (way.length - path.length - 1)

/-- The line of the node at `way`. -/
def line (T : Namespace) (path way : List String) : String :=
  let mark := match T way with
    | some (.directory _) => "[D] "
    | _ => "[F] "
  String.ofList (List.replicate (indent path way) ' ') ++ mark ++ way.getLast?.getD "" ++ "\n"

/-- The lines of the nodes at `ways`, unless one of them stands too far in. -/
def listing (T : Namespace) (path : List String) (ways : List (List String)) :
    Except Failure String :=
  if ∀ way ∈ ways, indent path way ≤ widestPadding then
    .ok (String.join (ways.map (T.line path)))
  else .error (.fault .paddingTooWide)

/-- The line of a node ends in its name. -/
theorem line_concat {base : List String} {name : String} {isDirectory : Bool}
    (kind : isDirectory = true ↔ ∃ slots, T (path ++ [name]) = some (.directory slots)) :
    T.line base (path ++ [name]) =
      String.ofList (List.replicate (indent base (path ++ [name])) ' ') ++
        (if isDirectory then "[D] " else "[F] ") ++ name ++ "\n" := by
  have mark : (if isDirectory then "[D] " else "[F] ") =
      match T (path ++ [name]) with
      | some (.directory _) => "[D] "
      | _ => "[F] " := by
    cases isDirectory with
    | true =>
      obtain ⟨slots, there⟩ := kind.mp rfl
      simp [there]
    | false =>
      rw [if_neg Bool.false_ne_true]
      split
      · rename_i slots there
        cases kind.mpr ⟨slots, there⟩
      · rfl
  rw [line, mark, List.getLast?_concat]
  rfl

theorem listing_singleton (T : Namespace) (path way : List String) :
    T.listing path [way] = if indent path way ≤ widestPadding then .ok (T.line path way)
      else .error (.fault .paddingTooWide) := by
  simp [listing, String.join]

theorem listing_cases (T : Namespace) (path : List String) (ways : List (List String)) :
    (∃ text, T.listing path ways = .ok text) ∨
      T.listing path ways = .error (.fault .paddingTooWide) := by
  unfold listing
  split
  · exact .inl ⟨_, rfl⟩
  · exact .inr rfl

theorem listing_append (T : Namespace) (path : List String) (front back : List (List String)) :
    T.listing path (front ++ back) = do
      let text ← T.listing path front
      let more ← T.listing path back
      return text ++ more := by
  by_cases fits : ∀ way ∈ front, indent path way ≤ widestPadding
  · by_cases fits' : ∀ way ∈ back, indent path way ≤ widestPadding
    · have all : ∀ way ∈ front ++ back, indent path way ≤ widestPadding :=
        List.forall_mem_append.mpr ⟨fits, fits'⟩
      simp only [listing, if_pos fits, if_pos fits', if_pos all, List.map_append,
        String.join_append]
      rfl
    · have some_wide : ¬ ∀ way ∈ front ++ back, indent path way ≤ widestPadding := fun all =>
        fits' (List.forall_mem_append.mp all).2
      simp only [listing, if_pos fits, if_neg fits', if_neg some_wide]
      rfl
  · have some_wide : ¬ ∀ way ∈ front ++ back, indent path way ≤ widestPadding := fun all =>
      fits (List.forall_mem_append.mp all).1
    simp only [listing, if_neg fits, if_neg some_wide]
    rfl

end SectorFS.Namespace
