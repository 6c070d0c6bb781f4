import SectorFS.Proofs.Volume.Effect
import SectorFS.Proofs.Volume.Paths
import SectorFS.Tool.Run

/-!
# Tasks

What a task does to the files of the volume that it is carried out on, `Tool.Task.Step`. A task
changes at most the file that it names, and every task ends on every sound disk (`runs_onVolume`).
-/

namespace SectorFS

open Catalog Volume

/-- The header sector and the bytes of every file, by its path. -/
abbrev FilesByPath := List String → Option (Nat × List UInt8)

namespace Tool.Task

/-- What a task that ends with `result` makes of the files. -/
def Step (host : Host) (F F' : FilesByPath) : Task → (result : Except Failure (List UInt8)) → Prop
  | .put source path, .ok _ => Path.Absolute path ∧ F (Path.target path) = none ∧
    ∃ content s, host.file? source = some content ∧
      F' = Function.update F (Path.target path) (some (s, content.toBytes))
  | .rm path, .ok _ => F' = Function.update F (Path.target path) none
  | .cat path, result => F' = F ∧ ∀ s bytes, Path.Absolute path →
    F (Path.target path) = some (s, bytes) → result = .ok bytes
  | _, _ => F' = F

/-- The request that a task comes down to, if it is a single one, and how its answer is put out. -/
def request? : Task → Option (Request × (Answer → List UInt8))
  | .rm path => some (.remove path, fun _ => [])
  | .mkdir path => some (.makeDirectory path, fun _ => [])
  | .ls path true => some (.tree path, fun
    | .text listing => Text.encodeUtf8 listing
    | _ => [])
  | .ls path false => some (.list path, fun
    | .names list => Text.encodeUtf8 (String.join (list.map (· ++ "\n")))
    | _ => [])
  | .dump => some (.dump, fun
    | .text report => Text.encodeUtf8 (report ++ "\n")
    | _ => [])
  | _ => none

variable {task : Task} {request : Request} {output : Answer → List UInt8}

theorem execute_eq (h : task.request? = some (request, output)) (volume : Volume) :
    execute host volume task = do
      let (answer, _) ← volume.act (.request request)
      return output answer := by
  match task with
  | .put _ _ | .cat _ => cases h
  | .rm _ | .mkdir _ | .ls _ true | .ls _ false | .dump =>
    obtain ⟨rfl, rfl⟩ := Prod.mk.inj (Option.some.inj h)
    simp [execute, act, perform]

theorem step_of_view (host : Host) (h : task.request? = some (request, output)) {v v' : View}
    {outcome : Except Failure Answer} (step : v.Step v' (.request request) outcome) :
    task.Step host v.files v'.files (outcome.map output) := by
  match task, outcome with
  | .put _ _, _ | .cat _, _ => cases h
  | .rm _, .ok _ =>
    obtain ⟨rfl, rfl⟩ := Prod.mk.inj (Option.some.inj h)
    exact step.2
  | .rm _, .error _ | .mkdir _, .ok _ | .mkdir _, .error _ | .ls _ true, _ | .ls _ false, .ok _
  | .ls _ false, .error _ | .dump, _ =>
    obtain ⟨rfl, rfl⟩ := Prod.mk.inj (Option.some.inj h)
    exact congrArg View.files step

end Tool.Task

namespace Catalog

variable {c c' : Catalog} {n : Nat} {store : Store} {map map' : FreeMap} {volume : Volume}
variable {host : Tool.Host} {task : Tool.Task} {ws : Writes}

/-- What a task comes to that ends with `result` after the writes `ws`. -/
structure TaskEffect (c : Catalog) (n : Nat) (store : Store) (host : Tool.Host) (task : Tool.Task)
    (result : Except Failure (List UInt8)) (ws : Writes) (c' : Catalog) (map' : FreeMap) :
    Prop where
  laidOut : c'.LaidOut n (store.after ws) map'
  step : task.Step host (c.files store) (c'.files (store.after ws)) result
  spared : ∀ source path s, task = .put source path → Path.Absolute path →
    c.find? (Path.target path) = some s → ws = []

/-- A task that fails before it has written anything. -/
theorem TaskEffect.refused {e : Failure} (l : c.LaidOut n store map)
    (step : task.Step host (c.files store) (c.files store) (.error e)) :
    c.TaskEffect n store host task (.error e) [] c map :=
  ⟨l, step, fun _ _ _ _ _ _ => rfl⟩

/-- Opening a file gives a descriptor at its start. -/
theorem runs_openPath_of_files (l : c.LaidOut n store map) (known : volume.Over c n)
    (few : volume.nextId < lastId) {path : String} (absolute : Path.Absolute path) {s : Nat}
    {bytes : List UInt8} (found : c.files store (Path.target path) = some (s, bytes)) :
    ∃ d, Runs n store (volume.openPath path) (.ok (volume.nextId, volume.opened d)) [] ∧
      (volume.opened d).Over c n ∧ (volume.opened d).under volume.nextId = some d ∧
      d.file.sector = s ∧ d.file.position = 0 ∧ d.isDirectory = false := by
  obtain ⟨way, extent, hnode, -⟩ := files_eq_some_iff.mp found
  have there := l.valid.target?_of_find? way
  rcases tries_openPath (K := fun _ => True) l known absolute with
    ⟨d, run, known', target, start, node, hd, kind⟩ | ⟨missing, -⟩
  · rw [there, Option.some.injEq] at target
    subst target
    rw [hnode, Option.some.injEq] at hd
    subst hd
    exact ⟨d, run, known', by simp [under_opened], rfl, start, kind.symm⟩
  · rw [there] at missing
    rcases missing with many | none
    · exact absurd few (Nat.not_lt.mpr many)
    · cases none

/-- A descriptor is as long as its node. -/
theorem length_of_under (known : volume.Over c n) {id : Nat} {d : Descriptor} {node : Node}
    (hd : volume.under id = some d) (hnode : c d.file.sector = some node) :
    d.file.length = node.extent.size := by
  obtain ⟨-, -, node', hnode', hf, -⟩ := known.descriptors id d hd
  rw [hnode, Option.some.injEq] at hnode'
  rw [File.length, hf, ← hnode']
  rfl

/-- What is open, wherever its cursor is by now, can be closed. -/
theorem runs_close {id : Nat} {d : Descriptor} (hd : volume.under id = some d) (file : File)
    (output : α) :
    Runs n store (do
      let _ ← (volume.setFile id file).close id
      return output) (.ok output) [] := by
  have there : (volume.setFile id file).under id = some { d with file } := by
    simp [under_setFile, hd]
  rw [Volume.close, descriptor_eq_ok_iff.mpr there]
  exact .andThen (.liftError _) (.done _)

/-- What was opened is read to its end. -/
theorem runs_cat_of_open (l : c.LaidOut n store map) {path : String} {d : Descriptor}
    (run : Runs n store (volume.openPath path) (.ok (volume.nextId, volume.opened d)) [])
    (known : (volume.opened d).Over c n) (start : d.file.position = 0) :
    ∃ node, c d.file.sector = some node ∧ Runs n store (Tool.cat volume path)
      (.ok ((store.bytes node.extent.data).take node.extent.size)) [] := by
  have hd : (volume.opened d).under volume.nextId = some d := by simp [under_opened]
  obtain ⟨node, hnode, reads⟩ := runs_read l known hd d.file.length
  have length := length_of_under known hd hnode
  have counted : (volume.opened d).length volume.nextId = .ok d.file.length := by
    rw [Volume.length, descriptor_eq_ok_iff.mpr hd]
    rfl
  obtain ⟨read, -⟩ := reads ((store.bytes node.extent.data).take node.extent.size) (by
    simp [start, length, List.take_take])
  refine ⟨node, hnode, .andThen run ?_⟩
  simp only [counted]
  exact .andThen (.liftError _) (.andThen read (runs_close hd _ _))

/-- Reading a file's path gives its bytes. -/
theorem runs_cat (l : c.LaidOut n store map) (known : volume.Over c n)
    (few : volume.nextId < lastId) (host : Tool.Host) (path : String) :
    ∃ result ws c' map', Runs n store (Tool.cat volume path) result ws ∧
      c.TaskEffect n store host (.cat path) result ws c' map' := by
  by_cases absolute : Path.Absolute path
  · rcases tries_openPath (K := fun _ => True) l known absolute with
      ⟨d, run, known', target, start, -⟩ | ⟨missing, ws, c', map', cause, k, run, grew⟩
    · obtain ⟨node, hnode, run'⟩ := runs_cat_of_open l run known' start
      refine ⟨_, [], c, map, run', l, ⟨rfl, ?_⟩, nofun⟩
      intro s bytes _ found
      obtain ⟨way, extent, hs, rfl⟩ := files_eq_some_iff.mp found
      rw [l.valid.target?_of_find? way, Option.some.injEq] at target
      rw [← target, hs, Option.some.injEq] at hnode
      rw [← hnode]
    · refine ⟨_, ws, c', map', .stop run.runs, grew.laidOut, ⟨grew.files, ?_⟩, nofun⟩
      intro s bytes _ found
      obtain ⟨way, -⟩ := files_eq_some_iff.mp found
      rw [l.valid.target?_of_find? way] at missing
      exact missing.elim (fun many => absurd few (Nat.not_lt.mpr many)) nofun
  · have relative : ∃ e, Runs n store (volume.openPath path) (.error e) [] :=
      (runs_openPath_relative absolute).elim (fun run => ⟨_, run⟩) fun run => ⟨_, run⟩
    obtain ⟨e, run⟩ := relative
    exact ⟨_, [], c, map, .stop run, .refused l ⟨rfl, fun s bytes h => absurd h absolute⟩⟩

/-- Writing as many bytes as a file has at its start replaces all of them. -/
theorem runs_write_whole (l : c.LaidOut n store map) (known : volume.Over c n) {id : Nat}
    {d : Descriptor} (hd : volume.under id = some d) (kind : d.isDirectory = false)
    (start : d.file.position = 0) {path : List String}
    (way : c.find? path = some d.file.sector) {data : List UInt8}
    (length : d.file.length = data.length) :
    ∃ file ws, Runs n store (volume.write id data) (.ok (data.length, volume.setFile id file)) ws ∧
      c.LaidOut n (store.after ws) map ∧ c.files (store.after ws) =
        Function.update (c.files store) path (some (d.file.sector, data)) := by
  obtain ⟨extent, count, ws, hnode, hcount, run, known', targets, after⟩ :=
    runs_write l known hd kind data
  obtain ⟨ne, -⟩ := known.descriptors id d hd
  have size : extent.size = data.length := (length_of_under known hd hnode).symm.trans length
  have all : count = data.length := by
    rw [hcount, File.clip_eq_min, start, length]
    omega
  subst all
  have short : data.length = ((store.bytes extent.data).take extent.size).length := by
    rw [List.length_take, Store.length_bytes, ← size]
    exact (Nat.min_eq_left extent.size_le).symm
  refine ⟨_, ws, run, l.write_data hnode ne targets, ?_⟩
  rw [l.files_write_data hnode way targets, after, start, List.take_length, overlay_zero short]

/-- A file is made at a new path, and its bytes are laid into it. -/
theorem runs_put_of_created {path : String} {data : List UInt8} {s : Nat} {extent : Extent}
    (known : volume.Over c n) (few : volume.nextId < lastId) (absolute : Path.Absolute path)
    (create : Runs n store (volume.create path data.length) (.ok ()) ws)
    (made : c.Made n store (Path.parent path) (Path.leaf path) (.file data.length) ws c' map')
    (hs : c' s = some ⟨extent, none⟩) (size : extent.size = data.length) {bytes : List UInt8}
    (files : c'.files (store.after ws) =
      Function.update (c.files store) (Path.target path) (some (s, bytes))) :
    ∃ vs, Runs n store (Tool.put volume path data) (.ok ()) (ws ++ vs) ∧
      c'.LaidOut n (store.after (ws ++ vs)) map' ∧ c'.files (store.after (ws ++ vs)) =
        Function.update (c.files store) (Path.target path) (some (s, data)) := by
  have there : c'.files (store.after ws) (Path.target path) = some (s, bytes) := by
    rw [files, Function.update_self]
  obtain ⟨d, opened, known', hd, rfl, start, kind⟩ :=
    runs_openPath_of_files made.laidOut (known.kept made.kept) few absolute there
  have length : d.file.length = data.length := (length_of_under known' hd hs).trans size
  obtain ⟨file, vs, write, l, files'⟩ := runs_write_whole made.laidOut known' hd kind start
    (files_eq_some_iff.mp there).1 length
  refine ⟨vs, .step create (.andThen opened (.finish write (runs_close hd file ()))), ?_, ?_⟩
  · rwa [Store.after_append]
  · rw [Store.after_append, files', files, Function.update_idem]

/-- A relative path, or one that leads to something already, is refused at once. -/
theorem runs_put_refused (l : c.LaidOut n store map) (known : volume.Over c n) {path : String}
    (h : ¬ Path.Absolute path ∨ ∃ s, c.find? (Path.target path) = some s) (data : List UInt8) :
    ∃ e, Runs n store (Tool.put volume path data) (.error e) [] := by
  by_cases absolute : Path.Absolute path
  · obtain ⟨s, taken⟩ := h.resolve_left (not_not.mpr absolute)
    exact ⟨_, .stop (.stop (runs_placeFor_of_taken l known absolute taken))⟩
  · exact ⟨_, .stop (.stop (runs_placeFor_relative absolute))⟩

/-- Copying makes a file that is not there yet, or fails and changes no file. -/
theorem runs_execute_put (l : c.LaidOut n store map) (known : volume.Over c n)
    (few : volume.nextId < lastId) (host : Tool.Host) (source path : String) :
    ∃ result ws c' map', Runs n store (Tool.execute host volume (.put source path)) result ws ∧
      c.TaskEffect n store host (.put source path) result ws c' map' := by
  cases found : host.openFile source with
  | error e =>
    have read : Runs n store (liftM (host.openFile source)) (.error (.error e)) [] := by
      rw [found]
      exact .refuse _
    exact ⟨_, [], c, map, .stop read, .refused l rfl⟩
  | ok pair =>
    obtain ⟨place, content⟩ := pair
    have read : Runs n store (liftM (host.openFile source)) (.ok (place, content)) [] := by
      rw [found]
      exact .done _
    have there : host.file? source = some content := by
      rw [Tool.Host.file?, found]
      rfl
    by_cases bad : ¬ Path.Absolute path ∨ ∃ s, c.find? (Path.target path) = some s
    · obtain ⟨e, refused⟩ := runs_put_refused l known bad content.toBytes
      exact ⟨_, [], c, map, .andThen read (.stop refused), .refused l rfl⟩
    obtain ⟨absolute, free⟩ := not_or.mp bad
    have absolute : Path.Absolute path := not_not.mp absolute
    have fresh {ws : Writes} (source' path' : String) (s : Nat)
        (same : Tool.Task.put source path = .put source' path') (_ : Path.Absolute path')
        (taken : c.find? (Path.target path') = some s) : ws = [] := by
      cases same
      exact absurd ⟨s, taken⟩ free
    obtain ⟨ws, c', map', -, ⟨s, extent, create, size, made, hs, -, new, files⟩ |
      ⟨e, k, create, grew, -⟩⟩ :=
        tries_create (K := fun _ => True) l known absolute content.toBytes.length
    · obtain ⟨vs, run, l', files'⟩ :=
        runs_put_of_created known few absolute create.runs made hs size files
      exact ⟨_, ws ++ vs, c', map', .andThen read (.finish run (.done _)), l',
        ⟨absolute, new, content, s, there, files'⟩, fresh⟩
    · have failed : Runs n store (Tool.put volume path content.toBytes) _ ws := .stop create.runs
      exact ⟨_, ws, c', map', .andThen read (.stop failed), grew.laidOut, grew.files, fresh⟩

/-- A task that is a single request does to the files what the request does. -/
theorem runs_execute_request (l : c.LaidOut n store map) (known : volume.Over c n)
    (host : Tool.Host) {request : Request} {output : Answer → List UInt8}
    (h : task.request? = some (request, output)) (fits : Action.Fits (.request request)) :
    ∃ result ws c' map', Runs n store (Tool.execute host volume task) result ws ∧
      c.TaskEffect n store host task result ws c' map' := by
  obtain ⟨result, ws, c', map', run, effect⟩ := runs_act l known fits
  have step := Tool.Task.step_of_view host h effect.contents
  have single (source path : String) : task ≠ .put source path := by
    rintro rfl
    cases h
  rw [Tool.Task.execute_eq h]
  refine ⟨_, ws, c', map', ?_, effect.laidOut, step, fun source path s same => absurd same
    (single source path)⟩
  match result with
  | .ok (answer, volume') => exact .finish run (.done _)
  | .error e => exact .stop run

/-- Every task ends on every sound disk, with an effect. -/
theorem runs_execute (l : c.LaidOut n store map) (known : volume.Over c n)
    (few : volume.nextId < lastId) (host : Tool.Host) (task : Tool.Task) :
    ∃ result ws c' map', Runs n store (Tool.execute host volume task) result ws ∧
      c.TaskEffect n store host task result ws c' map' := by
  match task with
  | .put source path => exact runs_execute_put l known few host source path
  | .cat path => exact runs_cat l known few host path
  | .rm _ | .mkdir _ | .ls _ true | .ls _ false | .dump =>
    exact runs_execute_request l known host rfl trivial

/-- So does every task on the volume that a disk holds. -/
theorem runs_onVolume (l : c.LaidOut n store map) (host : Tool.Host) (task : Tool.Task) :
    ∃ result ws c' map', Runs n store (Tool.onVolume host task) result ws ∧
      c.TaskEffect n store host task result ws c' map' := by
  obtain ⟨volume, mount, known, -, one⟩ := runs_mount l
  have few : volume.nextId < lastId := by
    rw [one]
    decide
  obtain ⟨result, ws, c', map', run, effect⟩ := runs_execute l known few host task
  refine ⟨result, ws, c', map', .andThen mount ?_, effect⟩
  cases result with
  | ok output => exact .finish run (.andThen .sync (.done _))
  | error e => exact .stop run

end Catalog

end SectorFS
