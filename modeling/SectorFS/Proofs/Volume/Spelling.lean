import SectorFS.Proofs.Volume.Paths

/-!
# Spellings of a path

A path is read in two ways, and both are said here of the text alone: its `Path.pieces` are the
names along it, and a `Path.Cut` is at its last separator. Two spellings with the same pieces, and
the same name behind the cut where a request cuts, are one and the same to every volume on every
disk (`Volume.perform_respelled`), and so to a whole run (`Run.respelled`).
-/

namespace SectorFS

namespace Path

/-- What stands between the separators of a path, without the empty pieces. -/
def pieces (path : String) : List String :=
  ((path.toList.splitOn separator).filter (· ≠ [])).map String.ofList

/-- The last separator of `path` stands between `front` and `leaf`. -/
structure Cut (path front leaf : String) : Prop where
  whole : path = front ++ "/" ++ leaf
  last : separator ∉ leaf.toList

theorem namesIn_eq_splitOn (chars : List Char) :
    namesIn chars = ((chars.splitOn separator).filter (· ≠ [])).map String.ofList := by
  fun_induction namesIn chars with
  | case1 => simp
  | case2 rest ih => simpa [List.splitOn_cons_eq_if_modifyHead] using ih
  | case3 c rest hc ih =>
    have first : separator ∉ c :: rest.takeWhile (· != separator) := by
      intro mem
      cases mem with
      | head => exact hc rfl
      | tail _ mem => simpa using List.mem_takeWhile_imp (p := (· != separator)) mem
    have parts := List.takeWhile_append_dropWhile (p := (· != separator)) (l := rest)
    cases h : rest.dropWhile (· != separator) with
    | nil =>
      rw [h, List.append_nil] at parts
      rw [h] at ih
      rw [parts] at first ⊢
      simpa [List.splitOn_eq_singleton first] using ih
    | cons d back =>
      have last : d = separator := by
        have := List.head?_dropWhile_not (· != separator) rest
        simpa [h] using this
      subst last
      rw [h] at ih parts
      have text : c :: rest = c :: rest.takeWhile (· != separator) ++ separator :: back := by
        rw [List.cons_append, parts]
      rw [text, List.splitOn_append_cons_self_of_not_mem first]
      simpa [List.splitOn_cons_eq_if_modifyHead] using ih

/-- The names along a path are its pieces. -/
theorem components_eq_pieces (path : String) : components path = pieces path :=
  namesIn_eq_splitOn path.toList

variable {path front leaf : String}

theorem Cut.toList_eq (cut : Cut path front leaf) :
    path.toList = front.toList ++ separator :: leaf.toList := by
  simp [cut.whole, separator]

/-- A path has one cut. -/
theorem Cut.splitLast_eq (cut : Cut path front leaf) : splitLast path = (front, leaf) := by
  have others : ∀ c ∈ leaf.toList.reverse, (c != separator) = true := by
    intro c mem
    rw [bne_iff_ne]
    rintro rfl
    exact cut.last (List.mem_reverse.mp mem)
  simp [splitLast, cut.toList_eq, List.takeWhile_append_of_pos others,
    List.dropWhile_append_of_pos others]

/-- An absolute path is cut at its last separator. -/
theorem cut_of_absolute (absolute : Absolute path) :
    Cut path (splitLast path).1 (Path.leaf path) := by
  refine ⟨?_, separator_notMem_leaf⟩
  rcases splitLast_cases path with parts | whole
  · apply String.toList_injective
    simpa [separator] using parts
  · have apart : separator ∉ (Path.leaf path).toList := separator_notMem_leaf
    rw [Path.leaf, whole] at apart
    exact absurd (List.mem_of_mem_head? absolute) apart

/-- The pieces of a path are those before its cut, and the name behind it if there is one. -/
theorem Cut.pieces_eq (cut : Cut path front leaf) :
    pieces path = pieces front ++ if leaf = "" then [] else [leaf] := by
  rw [pieces, cut.toList_eq, List.splitOn_append_cons_self, List.splitOn_eq_singleton cut.last,
    List.filter_append, List.map_append, pieces]
  by_cases h : leaf = ""
  · simp [h]
  · simp [h]

end Path

namespace Volume

variable {volume : Volume} {path path' front front' leaf : String}

theorem liftM_ok_bind (a : α) (next : α → DiskM β) :
    ((liftM (.ok a : Except Failure α) : DiskM α) >>= next) = next a := rfl

theorem enter_congr (same : Path.pieces front = Path.pieces front') :
    volume.enter front = volume.enter front' := by
  rw [enter, enter, Path.components_eq_pieces, Path.components_eq_pieces, same]

theorem find_congr (same : Path.pieces front = Path.pieces front') :
    volume.find front = volume.find front' := by
  rw [find, find, Path.components_eq_pieces, Path.components_eq_pieces, same]

theorem directoryAt_congr (absolute : Path.Absolute path) (absolute' : Path.Absolute path')
    (same : Path.pieces path = Path.pieces path') :
    volume.directoryAt path = volume.directoryAt path' := by
  rw [directoryAt, directoryAt, Path.requireAbsolute_of_absolute absolute,
    Path.requireAbsolute_of_absolute absolute', find_congr same]

section Node

variable (absolute : Path.Absolute path) (absolute' : Path.Absolute path')
variable (cut : Path.Cut path front leaf) (cut' : Path.Cut path' front' leaf)
include absolute absolute' cut cut'

/-- What is done with the two parts of a path depends on them alone. -/
theorem split_bind_congr {next next' : String × String → DiskM α}
    (alike : next (front, leaf) = next' (front', leaf)) :
    (liftM (Path.split path) : DiskM _) >>= next = liftM (Path.split path') >>= next' := by
  rw [Path.split_of_absolute absolute, Path.split_of_absolute absolute', cut.splitLast_eq,
    cut'.splitLast_eq, liftM_ok_bind, liftM_ok_bind, alike]

variable (same : Path.pieces front = Path.pieces front')
include same

theorem placeFor_congr : volume.placeFor path = volume.placeFor path' := by
  unfold placeFor
  apply split_bind_congr absolute absolute' cut cut'
  simp only [enter_congr same]

variable (named : leaf ≠ "")
include named

theorem resolve_congr : volume.resolve path = volume.resolve path' := by
  have some : leaf.isEmpty = false := by simpa using named
  unfold resolve
  apply split_bind_congr absolute absolute' cut cut'
  simp only [some, Bool.and_false, Bool.false_eq_true, if_false, enter_congr same]

theorem remove_congr : volume.remove path = volume.remove path' := by
  have some : leaf.isEmpty = false := by simpa using named
  unfold remove
  apply split_bind_congr absolute absolute' cut cut'
  simp only [some, Bool.false_eq_true, if_false, find_congr same]

end Node

end Volume

/-! ## Requests and runs -/

/-- The paths are absolute, have the same name behind their last separators, and the same pieces
before. -/
def Path.SameNode (path path' : String) : Prop :=
  Absolute path ∧ Absolute path' ∧ ∃ front front' leaf, Cut path front leaf ∧
    Cut path' front' leaf ∧ pieces front = pieces front' ∧ leaf ≠ ""

/-- The paths are absolute and have the same pieces. -/
def Path.SameWay (path path' : String) : Prop :=
  Absolute path ∧ Absolute path' ∧ pieces path = pieces path'

/-- The second request is the first with its path spelled in another way. -/
inductive Request.Respelled : Request → Request → Prop where
  | create {path path'} (size : Nat) : Path.SameNode path path' →
      Respelled (.create path size) (.create path' size)
  | makeDirectory {path path'} : Path.SameNode path path' →
      Respelled (.makeDirectory path) (.makeDirectory path')
  | openPath {path path'} : Path.SameNode path path' →
      Respelled (.openPath path) (.openPath path')
  | remove {path path'} : Path.SameNode path path' → Respelled (.remove path) (.remove path')
  | list {path path'} : Path.SameWay path path' → Respelled (.list path) (.list path')
  | tree {path path'} : Path.SameWay path path' → Respelled (.tree path) (.tree path')
  | same (request) : Respelled request request

inductive Action.Respelled : Action → Action → Prop where
  | request {request request'} : request.Respelled request' →
      Respelled (.request request) (.request request')
  | remount : Respelled .remount .remount

theorem Volume.perform_respelled (volume : Volume) {request request' : Request}
    (h : request.Respelled request') : volume.perform request = volume.perform request' := by
  cases h with
  | create size same =>
    obtain ⟨absolute, absolute', front, front', leaf, cut, cut', pieces, -⟩ := same
    rw [perform, perform, create, create, placeFor_congr absolute absolute' cut cut' pieces]
  | makeDirectory same =>
    obtain ⟨absolute, absolute', front, front', leaf, cut, cut', pieces, -⟩ := same
    rw [perform, perform, makeDirectory, makeDirectory,
      placeFor_congr absolute absolute' cut cut' pieces]
  | openPath same =>
    obtain ⟨absolute, absolute', front, front', leaf, cut, cut', pieces, named⟩ := same
    rw [perform, perform, openPath, openPath,
      resolve_congr absolute absolute' cut cut' pieces named]
  | remove same =>
    obtain ⟨absolute, absolute', front, front', leaf, cut, cut', pieces, named⟩ := same
    rw [perform, perform, remove_congr absolute absolute' cut cut' pieces named]
  | list same =>
    obtain ⟨absolute, absolute', pieces⟩ := same
    rw [perform, perform, list, list, directoryAt_congr absolute absolute' pieces]
  | tree same =>
    obtain ⟨absolute, absolute', pieces⟩ := same
    rw [perform, perform, tree, tree, directoryAt_congr absolute absolute' pieces]
  | same => rfl

theorem Volume.act_respelled (volume : Volume) {action action' : Action}
    (h : action.Respelled action') : volume.act action = volume.act action' := by
  cases h with
  | request h => exact volume.perform_respelled h
  | remount => rfl

theorem Action.Respelled.fits {action action' : Action} (h : action.Respelled action')
    (fits : action.Fits) : action'.Fits := by
  cases h with
  | request h =>
    cases h with
    | same => exact fits
    | _ => trivial
  | remount => exact fits

/-- What is related to a list with a last element has a last element too. -/
theorem exists_of_forall₂_concat {R : α → β → Prop} {list : List α} {a : α} {other : List β}
    (h : List.Forall₂ R (list ++ [a]) other) :
    ∃ front b, other = front ++ [b] ∧ List.Forall₂ R list front ∧ R a b := by
  induction list generalizing other with
  | nil =>
    cases h with
    | @cons _ b _ _ last rest =>
      cases rest
      exact ⟨[], b, rfl, .nil, last⟩
  | cons x list ih =>
    cases h with
    | @cons _ y _ _ first rest =>
      obtain ⟨front, b, rfl, behind, last⟩ := ih rest
      exact ⟨y :: front, b, rfl, .cons first behind, last⟩

/-- A run that spells its paths in another way comes to the same volume and the same disk. -/
theorem Run.respelled {n : Nat} {past past' : List Action} {volume : Volume} {disk : Disk}
    (run : Run n past volume disk) (h : List.Forall₂ Action.Respelled past past') :
    Run n past' volume disk := by
  induction run generalizing past' with
  | format sound ends =>
    cases h
    exact .format sound ends
  | @answer past volume disk action answer volume' disk' _ fits ends ih =>
    obtain ⟨front, action', rfl, earlier, last⟩ := exists_of_forall₂_concat h
    rw [volume.act_respelled last] at ends
    exact .answer (ih earlier) (last.fits fits) ends
  | @refusal past volume disk action cause disk' _ fits ends ih =>
    obtain ⟨front, action', rfl, earlier, last⟩ := exists_of_forall₂_concat h
    rw [volume.act_respelled last] at ends
    exact .refusal (ih earlier) (last.fits fits) ends

/-- Only the names along a path matter. Where a request cuts its path, two paths that cut off the
same name behind the same pieces make no difference to any volume on any disk, be it to the answer,
the volume or the disk; where it does not, two paths with the same pieces make none. Every absolute
path has a cut, and its components are those before the cut with the name behind it, if there is
one. -/
theorem Path.spelling {path path' : String} (absolute : Absolute path)
    (absolute' : Absolute path') :
    (∀ front front' leaf, Cut path front leaf → Cut path' front' leaf → leaf ≠ "" →
      pieces front = pieces front' → ∀ volume : Volume,
        (∀ size, volume.perform (.create path size) = volume.perform (.create path' size)) ∧
        volume.perform (.makeDirectory path) = volume.perform (.makeDirectory path') ∧
        volume.perform (.openPath path) = volume.perform (.openPath path') ∧
        volume.perform (.remove path) = volume.perform (.remove path')) ∧
    (pieces path = pieces path' → ∀ volume : Volume,
        volume.perform (.list path) = volume.perform (.list path') ∧
        volume.perform (.tree path) = volume.perform (.tree path')) ∧
    ∃ front leaf, split path = .ok (front, leaf) ∧ Cut path front leaf ∧
      components path = components front ++ if leaf = "" then [] else [leaf] := by
  refine ⟨?_, ?_, ?_⟩
  · intro front front' leaf cut cut' named pieces volume
    have same : SameNode path path' :=
      ⟨absolute, absolute', front, front', leaf, cut, cut', pieces, named⟩
    exact ⟨fun size => volume.perform_respelled (.create size same),
      volume.perform_respelled (.makeDirectory same), volume.perform_respelled (.openPath same),
      volume.perform_respelled (.remove same)⟩
  · intro pieces volume
    have same : SameWay path path' := ⟨absolute, absolute', pieces⟩
    exact ⟨volume.perform_respelled (.list same), volume.perform_respelled (.tree same)⟩
  · have cut := cut_of_absolute absolute
    refine ⟨(splitLast path).1, leaf path, split_of_absolute absolute, cut, ?_⟩
    rw [components_eq_pieces, components_eq_pieces, cut.pieces_eq]

theorem spelling_repeated : Path.Absolute "/a//b/x" ∧ Path.Absolute "//a/b///x" ∧
    (∀ volume : Volume,
      (∀ size, volume.perform (.create "/a//b/x" size) =
        volume.perform (.create "//a/b///x" size)) ∧
      volume.perform (.makeDirectory "/a//b/x") = volume.perform (.makeDirectory "//a/b///x") ∧
      volume.perform (.openPath "/a//b/x") = volume.perform (.openPath "//a/b///x") ∧
      volume.perform (.remove "/a//b/x") = volume.perform (.remove "//a/b///x") ∧
      volume.perform (.list "/a//b/x") = volume.perform (.list "//a/b///x") ∧
      volume.perform (.tree "/a//b/x") = volume.perform (.tree "//a/b///x")) ∧
    ∃ front leaf, Path.split "/a//b/x" = .ok (front, leaf) ∧ Path.Cut "/a//b/x" front leaf ∧
      Path.components "/a//b/x" =
        Path.components front ++ if leaf = "" then [] else [leaf] := by
  have absolute : Path.Absolute "/a//b/x" := by decide
  have absolute' : Path.Absolute "//a/b///x" := by decide
  obtain ⟨nodes, ways, cut⟩ := Path.spelling absolute absolute'
  refine ⟨absolute, absolute', fun volume => ?_, cut⟩
  obtain ⟨create, makeDirectory, openPath, remove⟩ :=
    nodes "/a//b" "//a/b//" "x" ⟨by decide, by decide⟩ ⟨by decide, by decide⟩ (by decide)
      (by decide) volume
  obtain ⟨list, tree⟩ := ways (by decide) volume
  exact ⟨create, makeDirectory, openPath, remove, list, tree⟩

end SectorFS
