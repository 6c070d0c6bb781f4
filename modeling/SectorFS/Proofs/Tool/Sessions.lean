import SectorFS.Proofs.Tool.Tasks
import SectorFS.Proofs.Volume.Reachable

/-!
# Sessions

Runs of the tool on one image. Formatting makes an image that holds a volume
(`Performs.holds_format`), every task leaves one that does (`Performs.holds_task`), and what each
task preserves of its files is preserved by any number of them (`Session.holds`).
-/

namespace SectorFS

open Catalog Volume

/-! ## Images -/

namespace Image

theorem size_clear_empty {n : Nat} (some : n ≠ 0) : (empty.clear n).sectors.size = n := by
  have grows : ¬ n ≤ empty.sectors.size := Nat.not_le.mpr (Nat.pos_of_ne_zero some)
  simp only [clear, extend, if_neg grows]
  simp [empty]
  omega

theorem tail_clear_empty {n : Nat} (some : n ≠ 0) : (empty.clear n).tail = [] := by
  have grows : ¬ n ≤ empty.sectors.size := Nat.not_le.mpr (Nat.pos_of_ne_zero some)
  simp only [clear, extend, if_neg grows]

/-- The image is of `n` whole sectors, and the volume on it has the files `F`. -/
structure Holds (image : Image) (n : Nat) (F : FilesByPath) : Prop where
  sectors : image.sectors.size = n
  tail : image.tail = []
  volume : ∃ c map, Catalog.LaidOut c n image.padded map ∧ c.files image.padded = F

variable {image : Image} {n : Nat} {F : FilesByPath}

theorem Holds.size_eq (h : image.Holds n F) : image.size = n * sectorSize := by
  rw [size, h.sectors, h.tail, Nat.mul_comm]
  rfl

end Image

namespace Tool

/-- What a run leaves behind by how its program ends. -/
def Outcome.ofResult : Except Failure (List UInt8) → Outcome
  | .ok output => .success output
  | .error e => .ofFailure e

variable {n : Nat} {image medium : Image} {F : FilesByPath} {ws : Writes}

/-- A program on the disk over an image leaves the image after the writes. -/
theorem onDisk_of_runs {program : DiskM (List UInt8)} {result : Except Failure (List UInt8)}
    {clear : Bool} (small : n ≤ diskLimit) (ready : Disk.prepare image n clear = .ok medium)
    (sectors : medium.sectors.size = n) (runs : Runs n medium.padded program result ws) :
    ∃ image', onDisk image n clear program = (.ofResult result, image') ∧
      image'.sectors.size = n ∧ image'.tail = medium.tail ∧
      image'.padded = Store.after medium.padded ws ∧ (ws = [] → image' = medium) := by
  have sound := Disk.sound_attach (addressable_of_le small) sectors
  have runs : Runs n (Disk.attach medium n .none).store program result ws := runs
  obtain ⟨disk', ends, wrote⟩ := runs.ends sound
  have covered : n ≤ medium.sectors.size := Nat.le_of_eq sectors.symm
  obtain ⟨size, padded⟩ := Disk.foldl_write covered wrote.in_range
  have tail := Disk.tail_foldl_write covered wrote.in_range
  have same : disk'.image = ws.foldl (fun image w => image.write w.1 w.2) medium := wrote.image_eq
  rw [← same] at size padded tail
  refine ⟨disk'.image, ?_, size.trans sectors, tail, padded, ?_⟩
  · unfold onDisk
    rw [ready]
    simp only [ends]
    cases result <;> rfl
  · rintro rfl
    exact same

/-- A task leaves an image that holds a volume, with the files as the task says. -/
theorem onDisk_task (holds : image.Holds n F) (host : Host) (task : Task) :
    ∃ result image' F',
      onDisk image (image.size / sectorSize) false (onVolume host task) =
        (.ofResult result, image') ∧
      image'.Holds n F' ∧ task.Step host F F' result ∧
      ∀ source path file, task = .put source path → Path.Absolute path →
        F (Path.target path) = some file → image' = image := by
  have size := holds.size_eq
  obtain ⟨sectors, tail, c, map, l, rfl⟩ := holds
  obtain ⟨result, ws, c', map', runs, effect⟩ := runs_onVolume l host task
  obtain ⟨extent, hmap, -⟩ := l.valid.map
  have positive : 0 < n := l.valid.lt _ (owns_header hmap)
  have ready : Disk.prepare image n false = .ok image := if_neg positive.ne'
  obtain ⟨image', ends, sectors', tail', padded, quiet⟩ :=
    onDisk_of_runs l.small ready sectors runs
  rw [size, Nat.mul_div_cancel n (show 0 < sectorSize by decide)]
  refine ⟨result, image', c'.files image'.padded, ends, ⟨sectors', tail'.trans tail, c', map', ?_,
    rfl⟩, ?_, ?_⟩
  · rw [padded]
    exact effect.laidOut
  · rw [padded]
    exact effect.step
  · intro source path file put absolute there
    obtain ⟨way, -⟩ := files_eq_some_iff.mp there
    exact quiet (effect.spared source path _ put absolute way)

/-- Formatting leaves an image that holds a volume. -/
theorem onDisk_format (large : 15 ≤ n) (small : n ≤ diskLimit) :
    ∃ image F, onDisk .empty n true format = (.success [], image) ∧ image.Holds n F := by
  have some : n ≠ 0 := by omega
  obtain ⟨ws, map, mapExtent, rootExtent, runs, -, l, -⟩ :=
    Catalog.runs_format large small (Image.empty.clear n).padded
  have ready : Disk.prepare .empty n true = .ok (Image.empty.clear n) := if_neg some
  have program : Runs n (Image.empty.clear n).padded format (.ok []) ws :=
    .finish runs (.andThen .sync (.done _))
  obtain ⟨image, ends, sectors, tail, padded, -⟩ :=
    onDisk_of_runs small ready (Image.size_clear_empty some) program
  rw [← padded] at l
  exact ⟨image, _, ends, sectors, tail.trans (Image.tail_clear_empty some), _, map, l, rfl⟩

/-! ## Runs -/

namespace Host

theorem content?_put (host : Host) (place : Place) (content : Image) :
    (host.put place content).content? place = some content :=
  List.lookup_cons_self

/-- A name is that of a file where its way leads to one. -/
theorem openFile_eq_ok_iff {host : Host} {name : String} {place : Place} :
    host.openFile name = .ok (place, image) ↔ ∃ way, Host.way name = .ok way ∧
      host.follow way = .ok place ∧ host.content? place = some image := by
  rw [openFile]
  cases Host.way name with
  | error e => simp [bind, Except.bind]
  | ok way =>
    cases leads : host.follow way with
    | error e => simp [leads, bind, Except.bind]
    | ok there =>
      cases found : host.content? there with
      | none =>
        have lost : there = place → host.content? place ≠ some image := by
          rintro rfl
          simp [found]
        simpa [leads, found, bind, Except.bind, throw, throwThe, MonadExceptOf.throw] using lost
      | some content =>
        have same : there = place → (host.content? place = some image ↔ content = image) := by
          rintro rfl
          simp [found]
        simp +contextual [leads, found, bind, Except.bind, pure, Except.pure, same]

/-- The name is that of the place, as a command takes it. -/
def Leads (host : Host) (name : String) (place : Place) : Command → Prop
  | .format _ => host.placeToWrite name = .ok place
  | .task _ => ∃ image, host.openFile name = .ok (place, image)

/-- The place of an image under the default name. -/
def defaultPlace : Place := ⟨.working 0, [Invocation.defaultImage]⟩

/-- The default name leads to the default place, whatever else is on the host. -/
theorem leads_default {host : Host} (there : host.content? defaultPlace = some image)
    (task : Task) : host.Leads Invocation.defaultImage defaultPlace (.task task) := by
  have steps : Place.steps Invocation.defaultImage.toList = [Invocation.defaultImage] := by
    decide +kernel
  have start : Place.start Invocation.defaultImage.toList = ⟨.working 0, []⟩ := by
    decide +kernel
  refine ⟨image, Host.openFile_eq_ok_iff.mpr ⟨Invocation.defaultImage.toList, ?_, ?_, there⟩⟩
  · decide +kernel
  · rw [follow, steps, start]
    rfl

end Host

/-- A run of the tool for the image in a place. -/
def Performs (place : Place) (command : Command) (host : Host) (outcome : Outcome)
    (host' : Host) : Prop :=
  ∃ words name, Invocation.read words = some ⟨name, command⟩ ∧
    host.Leads name place command ∧ Tool.run host words = (outcome, host')

variable {place : Place} {host host' : Host} {outcome : Outcome} {tasks : List Task} {task : Task}

theorem Performs.of_words {command : Command} {name : String} (words : List String)
    (read : Invocation.read words = some ⟨name, command⟩) (leads : host.Leads name place command) :
    Performs place command host (Tool.run host words).1 (Tool.run host words).2 :=
  ⟨words, name, read, leads, rfl⟩

/-- The image that was made holds a volume. -/
theorem Performs.holds_format (large : 15 ≤ n) (small : n ≤ diskLimit)
    (p : Performs place (.format n) host outcome host') :
    ∃ image F, host'.content? place = some image ∧ image.Holds n F := by
  obtain ⟨words, name, read, leads, run⟩ := p
  obtain ⟨image, F, ends, holds⟩ := onDisk_format large small
  have leads : host.placeToWrite name = .ok place := leads
  simp only [Tool.run, read, invoke, leads, ends] at run
  obtain ⟨-, rfl⟩ := Prod.mk.inj run
  exact ⟨image, F, host.content?_put place image, holds⟩

/-- The image is left with a volume on it, and the files on that as the task says. -/
theorem Performs.holds_task (p : Performs place (.task task) host outcome host')
    (there : host.content? place = some image) (holds : image.Holds n F) :
    ∃ result image' F', outcome = .ofResult result ∧ host'.content? place = some image' ∧
      image'.Holds n F' ∧ task.Step host F F' result ∧
      ∀ source path file, task = .put source path → Path.Absolute path →
        F (Path.target path) = some file → image' = image := by
  obtain ⟨words, name, read, ⟨image', leads⟩, run⟩ := p
  obtain ⟨-, -, -, there'⟩ := Host.openFile_eq_ok_iff.mp leads
  obtain rfl : image = image' := Option.some.inj (there.symm.trans there')
  obtain ⟨result, image', F', ends, rest⟩ := onDisk_task holds host task
  simp only [Tool.run, read, invoke, leads, ends] at run
  obtain ⟨rfl, rfl⟩ := Prod.mk.inj run
  exact ⟨result, image', F', rfl, host.content?_put place image', rest⟩

/-- From one host to another by runs of the tool for the image in a place, one for each task, and by
whatever else leaves this image alone. -/
inductive Session (place : Place) : Host → List Task → Host → Prop where
  | start (host : Host) : Session place host [] host
  | elsewhere {host tasks host' host''} : Session place host tasks host' →
      host''.content? place = host'.content? place → Session place host tasks host''
  | run {host tasks host' task outcome host''} : Session place host tasks host' →
      Performs place (.task task) host' outcome host'' → Session place host (tasks ++ [task]) host''

/-- What every task of a session preserves of the files is true of them in the end. -/
theorem Session.holds (session : Session place host tasks host') {P : FilesByPath → Prop}
    (preserved : ∀ task ∈ tasks, ∀ host F F' result, P F → Task.Step host F F' task result → P F')
    (initially : ∃ image F, host.content? place = some image ∧ image.Holds n F ∧ P F) :
    ∃ image F, host'.content? place = some image ∧ image.Holds n F ∧ P F := by
  induction session with
  | start => exact initially
  | elsewhere session same ih =>
    rw [same]
    exact ih preserved
  | run session performs ih =>
    obtain ⟨image, F, there, holds, property⟩ := ih
      (fun task h => preserved task (List.mem_append_left _ h))
    obtain ⟨result, image', F', -, there', holds', step, -⟩ := performs.holds_task there holds
    exact ⟨image', F', there', holds', preserved _ (by simp) _ F F' result property step⟩

/-- A file stays as it is under every task that does not remove it. -/
theorem Task.Step.keeps {F F' : FilesByPath} {result : Except Failure (List UInt8)}
    {names : List String} {file : Nat × List UInt8} (step : Task.Step host F F' task result)
    (there : F names = some file) (spared : ∀ path, task = .rm path → Path.target path ≠ names) :
    F' names = some file := by
  have other {path : List String} (ne : path ≠ names) (file' : Option (Nat × List UInt8)) :
      Function.update F path file' names = some file := by
    rw [Function.update_of_ne ne.symm, there]
  match task, result with
  | .put source path, .ok output =>
    obtain ⟨-, new, content, s, -, rfl⟩ := step
    apply other
    rintro rfl
    rw [there] at new
    cases new
  | .rm path, .ok output =>
    obtain rfl : F' = _ := step
    exact other (spared path rfl) none
  | .cat path, .ok output | .cat path, .error e => rw [step.1, there]
  | .put _ _, .error _ | .rm _, .error _ | .mkdir _, _ | .ls _ _, _ | .dump, _ =>
    obtain rfl : F' = F := step
    exact there

theorem Outcome.code_ofResult (result : Except Failure (List UInt8)) :
    (Outcome.ofResult result).code = 0 ↔ ∃ output, result = .ok output := by
  match result with
  | .ok output => simp [ofResult, success]
  | .error (.error e) => simp [ofResult, ofFailure]
  | .error (.fault f) => simp [ofResult, ofFailure]

/-- What was copied to a path of a formatted image can be read there, byte for byte, after any
session in which that file is not removed, and no other file can be copied to the path. The image
keeps its size. -/
theorem put_then_cat {host₀ host₁ host₂ host₃ host₄ : Host} {formatted : Outcome}
    {before after : List Task} {source path : String} {content : Image} (large : 15 ≤ n)
    (small : n ≤ diskLimit) (format : Performs place (.format n) host₀ formatted host₁)
    (earlier : Session place host₁ before host₂) (there : host₂.file? source = some content)
    (put : Performs place (.task (.put source path)) host₂ outcome host₃)
    (succeeds : outcome.code = 0) (later : Session place host₃ after host₄)
    (spared : ∀ other, .rm other ∈ after → Path.components other ≠ Path.components path) :
    (∃ image, host₄.content? place = some image ∧ image.size = n * sectorSize) ∧
    (∀ outcome host₅, Performs place (.task (.cat path)) host₄ outcome host₅ →
      outcome = .success content.toBytes) ∧
    ∀ source outcome host₅, Performs place (.task (.put source path)) host₄ outcome host₅ →
      outcome.code ≠ 0 ∧ host₅.content? place = host₄.content? place := by
  obtain ⟨image₁, F₁, there₁, holds₁⟩ := format.holds_format large small
  obtain ⟨image₂, F₂, there₂, holds₂, -⟩ := earlier.holds (P := fun _ => True)
    (fun _ _ _ _ _ _ _ _ => trivial) ⟨image₁, F₁, there₁, holds₁, trivial⟩
  obtain ⟨result, image₃, F₃, rfl, there₃, holds₃, step, -⟩ := put.holds_task there₂ holds₂
  obtain ⟨output, rfl⟩ := (Outcome.code_ofResult result).mp succeeds
  obtain ⟨absolute, -, content', s, there', rfl⟩ := step
  obtain rfl : content = content' := Option.some.inj (there.symm.trans there')
  have named : (Path.leaf path).toList ≠ [] := by
    obtain ⟨-, -, c, map, l, files⟩ := holds₃
    have found := congrFun files (Path.target path)
    rw [Function.update_self] at found
    exact l.valid.leaf_of_find? (files_eq_some_iff.mp found).1
  have away (other : String) (h : .rm other ∈ after) : Path.target other ≠ Path.target path :=
    fun same => spared other h (Path.components_eq_of_target_eq named same)
  obtain ⟨image₄, F₄, there₄, holds₄, kept⟩ := later.holds
    (P := fun F => F (Path.target path) = some (s, content.toBytes))
    (fun task h host F F' result file step => step.keeps file fun other same =>
      away other (same ▸ h))
    ⟨image₃, _, there₃, holds₃, Function.update_self ..⟩
  refine ⟨⟨image₄, there₄, holds₄.size_eq⟩, fun outcome host₅ cat => ?_,
    fun source outcome host₅ again => ?_⟩
  · obtain ⟨result, _, _, rfl, -, -, step, -⟩ := cat.holds_task there₄ holds₄
    rw [step.2 s content.toBytes absolute kept]
    rfl
  · obtain ⟨result, image₅, F₅, rfl, there₅, -, step, unchanged⟩ := again.holds_task there₄ holds₄
    constructor
    · intro succeeds
      obtain ⟨output, rfl⟩ := (Outcome.code_ofResult result).mp succeeds
      obtain ⟨-, new, -⟩ := step
      rw [kept] at new
      cases new
    · rw [there₅, there₄, unchanged source path _ rfl absolute kept]

theorem put_then_cat_sample :
    let host := Host.ofFiles [("data", [1, 2, 3])]
    let formatted := (Tool.run host ["format", "--sectors", "18"]).2
    let copied := (Tool.run formatted ["put", "data", "/a"]).2
    let later := (Tool.run copied ["rm", "/b"]).2
    (Tool.run formatted ["put", "data", "/a"]).1.code = 0 ∧
      (Tool.run later ["cat", "/a"]).1 = .success [1, 2, 3] ∧
      (Tool.run later ["put", "data", "/a"]).1.code ≠ 0 := by
  intro host formatted copied later
  have format : Performs Host.defaultPlace (.format 18) host _ formatted :=
    .of_words ["format", "--sectors", "18"] (by decide +kernel)
      (show host.placeToWrite Invocation.defaultImage = .ok Host.defaultPlace by decide +kernel)
  obtain ⟨image₁, F₁, there₁, holds₁⟩ := format.holds_format (by decide) (by decide)
  have put : Performs Host.defaultPlace (.task (.put "data" "/a")) formatted _ copied :=
    .of_words ["put", "data", "/a"] (by decide +kernel) (Host.leads_default there₁ _)
  obtain ⟨-, image₂, F₂, -, there₂, holds₂, -⟩ := put.holds_task there₁ holds₁
  have rm : Performs Host.defaultPlace (.task (.rm "/b")) copied _ later :=
    .of_words ["rm", "/b"] (by decide +kernel) (Host.leads_default there₂ _)
  obtain ⟨-, image₃, F₃, -, there₃, -⟩ := rm.holds_task there₂ holds₂
  have cat : Performs Host.defaultPlace (.task (.cat "/a")) later _ _ :=
    .of_words ["cat", "/a"] (by decide +kernel) (Host.leads_default there₃ _)
  have again : Performs Host.defaultPlace (.task (.put "data" "/a")) later _ _ :=
    .of_words ["put", "data", "/a"] (by decide +kernel) (Host.leads_default there₃ _)
  have spared (other : String) (h : .rm other ∈ [Task.rm "/b"]) :
      Path.components other ≠ Path.components "/a" := by
    obtain rfl : other = "/b" := by simpa using h
    decide +kernel
  have there : formatted.file? "data" = some (.ofBytes [1, 2, 3]) := by decide +kernel
  have succeeds : (Tool.run formatted ["put", "data", "/a"]).1.code = 0 := by decide +kernel
  obtain ⟨-, reads, refuses⟩ := put_then_cat (by decide) (by decide) format (.start _) there put
    succeeds (.run (.start _) rm) spared
  exact ⟨succeeds, reads _ _ cat, (refuses _ _ _ again).1⟩

end Tool

end SectorFS
